import RabbitmqC.Consumer.HeaderClass
import RabbitmqC.Table.Stored

/-!
# The memory of a message

`amqp_read_message` keeps the properties in a pool of the message and the body in a
block. It has three labels that give back different parts of them, and takes the
wrong one when there is no memory for the body.
-/

set_option autoImplicit false

namespace RabbitmqC

open Effect

/-! ## The properties -/

/-- An array is a null pointer when it is empty, as `amqp_decode_array` leaves it. -/
def storeArray : List StoredValue → StoredValue
  | [] => .nullArray
  | entry :: entries => .array ⟨0, 0, 0⟩ (entry :: entries)

mutual

/-- A decoded value in memory. Where it is makes no difference to a copy of it. -/
def storeValue : FieldValue → StoredValue
  | .boolean value => .scalar (.boolean value)
  | .i8 value => .scalar (.i8 value)
  | .u8 value => .scalar (.u8 value)
  | .i16 value => .scalar (.i16 value)
  | .u16 value => .scalar (.u16 value)
  | .i32 value => .scalar (.i32 value)
  | .u32 value => .scalar (.u32 value)
  | .i64 value => .scalar (.i64 value)
  | .u64 value => .scalar (.u64 value)
  | .f32 bits => .scalar (.f32 bits)
  | .f64 bits => .scalar (.f64 bits)
  | .decimal decimals value => .scalar (.decimal decimals value)
  | .utf8 octets => .utf8 ⟨octets, none⟩
  | .bytes octets => .bytes ⟨octets, none⟩
  | .array entries => storeArray (storeValues entries)
  | .timestamp value => .scalar (.timestamp value)
  | .table entries => .table none (storeEntries entries)
  | .void => .scalar .void
  | .unknown kind => .unknown kind

def storeValues : List FieldValue → List StoredValue
  | [] => []
  | entry :: entries => storeValue entry :: storeValues entries

def storeEntry : TableEntry → StoredEntry
  | .mk key value => .mk ⟨key, none⟩ (storeValue value)

def storeEntries : List TableEntry → List StoredEntry
  | [] => []
  | entry :: entries => storeEntry entry :: storeEntries entries

end

/-- The copy of one member. -/
def cloneFieldIn : (domain : Domain) → domain.Value → Allocating domain.Value
  | .shortstr, value => StoredBytes.octets <$> storedBytesClone ⟨value, none⟩
  | .longstr, value => StoredBytes.octets <$> storedBytesClone ⟨value, none⟩
  | .table, value => StoredTable.erase <$> storedTableClone ⟨none, storeEntries value⟩
  | .octet, value => return value
  | .short, value => return value
  | .long, value => return value
  | .longlong, value => return value
  | .bits _, value => return value

/-- The `if` of one property. -/
def clonePropertyIn (flags : UInt32) (property : Property) :
    Option property.domain.Value → Allocating (Option property.domain.Value)
  | some value =>
      if flagged flags property then some <$> cloneFieldIn property.domain value else return none
  | none => if flagged flags property then throw (.fault .wrongObject) else return none

def clonePropertiesIn (flags : UInt32) : (properties : List Property) →
    PropertyFields properties → Allocating (PropertyFields properties)
  | [], _ => return ()
  | property :: properties, (field, fields) => do
      let clone ← clonePropertyIn flags property field
      let clones ← clonePropertiesIn flags properties fields
      return (clone, clones)

def cloneDeclaredPropertiesIn (flags : UInt32) : (declared : Option (List Property)) →
    DeclaredProperties declared → Allocating (DeclaredProperties declared)
  | some properties, fields => clonePropertiesIn flags properties fields
  | none, fields => return fields

/-- `amqp_basic_properties_clone`, with the pool. -/
def basicPropertiesCloneIn {classId : UInt16} (original : Properties classId) :
    Allocating (Properties classId) :=
  Properties.mk original.flags <$>
    cloneDeclaredPropertiesIn original.flags (classProperties classId) original.fields

/-! ## The message -/

/-- The heap, `message->pool` and the block of `message->body`. -/
structure Holding where
  arena : Arena
  body : Option Nat

/-- `memset(message, 0, sizeof(*message))`. -/
def Holding.zeroed (heap : Heap) : Holding where
  arena := ⟨heap, ⟨0, [], [], 0, none, 0⟩, []⟩
  body := none

/-- `amqp_bytes_free(message->body)`. The pointer stays. -/
def Holding.freeBody (holding : Holding) : Holding :=
  { holding with arena := endState (freeBlocks holding.body.toList holding.arena) }

/-- `empty_amqp_pool(&message->pool)`. -/
def Holding.emptyPool (holding : Holding) : Holding :=
  { holding with arena := endState (emptyAmqpPool holding.arena) }

/-- The loop over the fragments, whose failures are at `error_out2`. -/
def readBodyIn (channel : UInt16) (fuel : Nat) (properties : Properties amqpBasicClass)
    (size : Nat) (holding : Holding) : Call (Except RpcReply Message × Holding) := do
  match ← readFragments channel size fuel [] with
  | .error reply => return (.error reply, holding.freeBody.emptyPool)
  | .ok body => return (.ok ⟨properties, body⟩, holding)

/-- The block for the body. When there is none, the rest is skipped by `goto error_out1`. -/
def startBodyIn (channel : UInt16) (fuel : Nat) (properties : Properties amqpBasicClass)
    (bodySize : UInt64) (arena : Arena) : Call (Except RpcReply Message × Holding) :=
  if bodySize = 0 then
    readBodyIn channel fuel properties 0 ⟨arena, none⟩
  else
    let request := requestBlock bodySize.toNat arena
    match (returned? request).join with
    | none => return (.error (.libraryException .noMemory), ⟨endState request, none⟩)
    | some block =>
        readBodyIn channel fuel properties bodySize.toNat ⟨endState request, some block⟩

/-- What follows a content header. -/
def startMessageIn (heap : Heap) (channel : UInt16) (fuel : Nat) (frame : Frame) :
    Call (Except RpcReply Message × Holding) :=
  match frame.payload with
  | .properties classId bodySize (some decoded) _ =>
      match asBasicProperties classId decoded with
      | .error fault => throw (.fault fault)
      | .ok original =>
          match basicPropertiesCloneIn original ⟨heap, initAmqpPool 4096, []⟩ with
          | .error (.fault fault) _ => throw (.fault fault)
          | .error (.status status) arena =>
              -- `error_out3`
              return (.error (.libraryException status), (Holding.mk arena none).emptyPool)
          | .ok properties arena => startBodyIn channel fuel properties bodySize arena
  | _ => throw (.fault .wrongObject)

/-- `amqp_read_message`, with the memory of the message. -/
def amqpReadMessageIn (heap : Heap) (channel : UInt16) (fuel : Nat) :
    Call (Except RpcReply Message × Holding) := do
  match ← amqpSimpleWaitFrameOnChannel channel fuel with
  | .error status => return (.error (.libraryException status), .zeroed heap)
  | .ok frame =>
      if frame.frameType ≠ amqpFrameHeader then
        match closeMethod? frame with
        | some method => return (.error (.serverException method), .zeroed heap)
        | none => do
            let _ ← amqpPutBackFrame frame
            return (.error (.libraryException .unexpectedState), .zeroed heap)
      else
        startMessageIn heap channel fuel frame

/-! ## What a failed call owns -/

/-- No page or block is reached through the message, and the body has been freed. -/
structure Holding.OwnsNothing (holding : Holding) : Prop where
  blocks : holding.arena.pool.blocks = []
  current : holding.arena.pool.allocBlock = none
  body : ∀ block, holding.body = some block → block ∈ holding.arena.heap.freed

def FailedReadOwnsNothing (heap : Heap) (channel : UInt16) (fuel : Nat) (world : World) : Prop :=
  ∀ reply holding after,
    amqpReadMessageIn heap channel fuel world = .ok (.error reply, holding) after →
      holding.OwnsNothing

/-- A copy of the member takes up memory. -/
def FieldTakes : (domain : Domain) → domain.Value → Prop
  | .shortstr, value => value ≠ []
  | .longstr, value => value ≠ []
  | .table, value => value ≠ []
  | _, _ => False

def PropertiesTake (flags : UInt32) :
    (properties : List Property) → PropertyFields properties → Prop
  | [], _ => False
  | property :: properties, (field, fields) =>
      (flagged flags property ∧ ∃ value, field = some value ∧ FieldTakes property.domain value) ∨
        PropertiesTake flags properties fields

def DeclaredTake (flags : UInt32) : (declared : Option (List Property)) →
    DeclaredProperties declared → Prop
  | some properties, fields => PropertiesTake flags properties fields
  | none, _ => False

/-- A content header whose properties are copied to memory, and then there is no memory for
the body. -/
structure BodyRefused (heap : Heap) (frame : Frame) (original : Properties amqpBasicClass)
    (bodySize : UInt64) : Prop where
  isHeader : frame.frameType = amqpFrameHeader
  announces : ∃ classId decoded raw,
    frame.payload = .properties classId bodySize (some decoded) raw ∧
      asBasicProperties classId decoded = .ok original
  nonempty : bodySize ≠ 0
  takes : DeclaredTake original.flags (classProperties amqpBasicClass) original.fields
  refused : ∃ properties arena after,
    basicPropertiesCloneIn original ⟨heap, initAmqpPool 4096, []⟩ = .ok properties arena ∧
      requestBlock bodySize.toNat arena = .ok none after

/-! ## Copies in the pool and on values -/

mutual

theorem erase_storeValue : (value : FieldValue) → (storeValue value).erase = value
  | .array [] => rfl
  | .array (entry :: entries) => by
      simp only [storeValue, storeValues, storeArray, StoredValue.erase, eraseValues]
      rw [erase_storeValue entry, erase_storeValues entries]
  | .table entries => by
      rw [storeValue, StoredValue.erase, erase_storeEntries entries]
  | .boolean _ | .i8 _ | .u8 _ | .i16 _ | .u16 _ | .i32 _ | .u32 _ | .i64 _ | .u64 _ | .f32 _
  | .f64 _ | .decimal _ _ | .timestamp _ | .void | .utf8 _ | .bytes _ | .unknown _ => rfl

theorem erase_storeValues : (entries : List FieldValue) →
    eraseValues (storeValues entries) = entries
  | [] => rfl
  | entry :: entries => by
      rw [storeValues, eraseValues, erase_storeValue entry, erase_storeValues entries]

theorem erase_storeEntry : (entry : TableEntry) → (storeEntry entry).erase = entry
  | .mk key value => by
      rw [storeEntry, StoredEntry.erase, erase_storeValue value]

theorem erase_storeEntries : (entries : List TableEntry) →
    eraseEntries (storeEntries entries) = entries
  | [] => rfl
  | entry :: entries => by
      rw [storeEntries, eraseEntries, erase_storeEntry entry, erase_storeEntries entries]

end

section Copied

variable {start : Arena}

theorem mirrors_bytes (sound : start.Sound) (value : List UInt8) :
    Mirrors id start (cloneBytes value [])
      ((StoredBytes.octets <$> storedBytesClone ⟨value, none⟩) start) := by
  rw [← id_map (cloneBytes value)]
  exact (@copies_storedBytesClone start sound ⟨value, none⟩).mirrors.map (fun _ => rfl) fun _ => rfl

theorem mirrors_cloneFieldIn (sound : start.Sound) : (domain : Domain) → (value : domain.Value) →
    Mirrors id start (cloneField domain value []) (cloneFieldIn domain value start)
  | .shortstr, value => mirrors_bytes sound value
  | .longstr, value => mirrors_bytes sound value
  | .table, value => by
      have copies := (@copies_storedTableClone ⟨none, storeEntries value⟩ start sound).mirrors
      rw [show StoredTable.erase ⟨none, storeEntries value⟩ = value from
        erase_storeEntries value] at copies
      rw [cloneField, cloneFieldIn, ← id_map (amqpTableClone value)]
      exact copies.map (fun _ => rfl) fun _ => rfl
  | .octet, _ | .short, _ | .long, _ | .longlong, _ | .bits _, _ => .copied rfl (.refl sound)

theorem mirrors_clonePropertyIn (sound : start.Sound) {flags : UInt32} {property : Property}
    (field : Option property.domain.Value) :
    Mirrors id start (cloneProperty flags property field [])
      (clonePropertyIn flags property field start) := by
  cases field with
  | some value =>
      rw [cloneProperty, clonePropertyIn]
      by_cases isFlagged : flagged flags property
      · rw [if_pos isFlagged, if_pos isFlagged]
        exact (mirrors_cloneFieldIn sound property.domain value).map (fun _ => rfl) fun _ => rfl
      · rw [if_neg isFlagged, if_neg isFlagged]
        exact .copied rfl (.refl sound)
  | none =>
      rw [cloneProperty, clonePropertyIn]
      by_cases isFlagged : flagged flags property
      · rw [if_pos isFlagged, if_pos isFlagged]
        exact .refused rfl (.refl sound)
      · rw [if_neg isFlagged, if_neg isFlagged]
        exact .copied rfl (.refl sound)

theorem mirrors_clonePropertiesIn {flags : UInt32} : (properties : List Property) →
    (fields : PropertyFields properties) → {start : Arena} → start.Sound →
      Mirrors id start (cloneProperties flags properties fields [])
        (clonePropertiesIn flags properties fields start)
  | [], _, _, sound => .copied rfl (.refl sound)
  | property :: properties, (field, fields), start, sound => by
      refine (mirrors_clonePropertyIn sound field).bind fun clone after occupied => ?_
      have rest := @mirrors_clonePropertiesIn flags properties fields after occupied.sound
      exact (rest.after occupied).bind_pure (fun _ => rfl) fun _ => rfl

theorem mirrors_basicPropertiesCloneIn {classId : UInt16} (sound : start.Sound)
    (original : Properties classId) :
    Mirrors id start (amqpBasicPropertiesClone original [])
      (basicPropertiesCloneIn original start) := by
  obtain ⟨flags, fields⟩ := original
  unfold amqpBasicPropertiesClone basicPropertiesCloneIn
  dsimp only
  have declared : Mirrors id start
      (cloneDeclaredProperties flags (classProperties classId) fields [])
      (cloneDeclaredPropertiesIn flags (classProperties classId) fields start) := by
    generalize classProperties classId = declared at fields
    cases declared with
    | none => exact .copied rfl (.refl sound)
    | some properties => exact mirrors_clonePropertiesIn properties fields sound
  exact declared.map (fun _ => rfl) fun _ => rfl

end Copied

/-! ## Pools with blocks -/

/-- As long as the pool has no blocks it has no current page, and it has some once memory was
taken. -/
structure Filled (taken : Prop) (arena : Arena) : Prop where
  sound : arena.Sound
  unpaged : arena.pool.blocks = [] → arena.pool.allocBlock = none
  blocks : taken → arena.pool.blocks ≠ []

/-- A step that takes memory if `taken` holds. -/
def Fills {α : Type} (run : Allocating α) (taken : Prop) : Prop :=
  ∀ already, Triple (Filled already) run (fun _ => Filled (already ∨ taken)) fun _ _ => True

section Filling

variable {α β : Type} {run : Allocating α} {taken other : Prop}

theorem Filled.mono {arena : Arena} (filled : Filled taken arena) (fewer : other → taken) :
    Filled other arena :=
  ⟨filled.sound, filled.unpaged, fun holds => filled.blocks (fewer holds)⟩

theorem fills_pure {value : α} : Fills (pure value) False :=
  fun _ => .pure fun _ filled => filled.mono fun holds => holds.elim id False.elim

theorem fills_throw {failure : Failure} : Fills (throw failure : Allocating α) taken :=
  fun _ => .throw fun _ _ => trivial

theorem Fills.bind {next : α → Allocating β} (first : Fills run taken)
    (second : ∀ value, Fills (next value) other) : Fills (run >>= next) (taken ∨ other) := by
  intro already
  refine Triple.bind (first already) fun value => (second value _).weaken fun _ _ filled => ?_
  exact filled.mono or_assoc.mpr

theorem Fills.mono (fills : Fills run taken) (fewer : other → taken) : Fills run other :=
  fun already => (fills already).weaken fun _ _ filled => filled.mono (Or.imp_right fewer)

theorem Fills.map {change : α → β} (fills : Fills run taken) : Fills (change <$> run) taken :=
  (fills.bind fun _ => fills_pure).mono .inl

theorem filled_takeRegion {amount : Nat} (already : Prop) :
    Triple (Filled already) (takeRegion amount) (fun _ => Filled True) fun _ _ => True := by
  intro arena filled
  have answer := amqpPoolAlloc_spec filled.sound amount
  unfold takeRegion
  cases ran : amqpPoolAlloc amount arena with
  | error failure after =>
      rw [ran] at answer
      cases answer
  | ok found after =>
      rw [ran] at answer
      rw [bind_of_ok ran]
      cases answer with
      | refused occupied unavailable => trivial
      | granted occupied _ owned =>
          have nonempty : after.pool.blocks ≠ [] := by
            by_cases before : arena.pool.blocks = []
            · have recorded : arena.pool.Recorded := by
                intro block isCurrent
                rw [filled.unpaged before] at isCurrent
                cases isCurrent
              exact List.ne_nil_of_mem (owned recorded).2
            · obtain ⟨block, member⟩ := List.exists_mem_of_ne_nil _ before
              exact List.ne_nil_of_mem (occupied.grows member)
          exact ⟨⟨occupied.sound.used, occupied.sound.pages, occupied.sound.nodup,
            occupied.sound.current⟩, fun empty => absurd empty nonempty, fun _ => nonempty⟩

theorem fills_takeRegion {amount : Nat} : Fills (takeRegion amount) True :=
  fun already => (filled_takeRegion already).weaken fun _ _ filled => filled.mono fun _ => trivial

theorem fills_storedBytesClone {bytes : StoredBytes} :
    Fills (storedBytesClone bytes) (bytes.octets ≠ []) := by
  intro already
  refine Triple.ite (fun empty => ?_) fun _ => ?_
  · exact ((@fills_pure StoredBytes ⟨[], none⟩).mono fun nonempty =>
      nonempty (List.length_eq_zero_iff.mp empty)) already
  · exact (fills_takeRegion.map.mono fun _ => trivial) already

/-- A pool with blocks keeps them. -/
theorem filled_cloneStoredEntries {entries : List StoredEntry} :
    Triple (Filled True) (cloneStoredEntries entries) (fun _ => Filled True) fun _ _ => True := by
  intro arena filled
  have copies := copies_cloneStoredEntries entries filled.sound
  generalize cloneStoredEntries entries arena = result at copies
  cases copies with
  | refused => trivial
  | scarce => trivial
  | copied same occupied =>
      obtain ⟨block, member⟩ := List.exists_mem_of_ne_nil _ (filled.blocks trivial)
      have nonempty := List.ne_nil_of_mem (occupied.grows member)
      exact ⟨occupied.sound, fun empty => absurd empty nonempty, fun _ => nonempty⟩

theorem fills_storedTableClone {table : StoredTable} :
    Fills (storedTableClone table) (table.entries ≠ []) := by
  intro already
  refine Triple.ite (fun empty => ?_) fun _ => ?_
  · exact ((@fills_pure StoredTable ⟨none, []⟩).mono fun nonempty =>
      nonempty (List.length_eq_zero_iff.mp empty)) already
  · refine Triple.bind (filled_takeRegion already) fun region => ?_
    refine Triple.bind filled_cloneStoredEntries fun clones => .pure fun _ filled => ?_
    exact filled.mono fun _ => trivial

theorem storeEntries_eq_nil {table : Table} : storeEntries table = [] ↔ table = [] := by
  cases table with
  | nil => exact iff_of_true rfl rfl
  | cons entry table => exact iff_of_false (by simp [storeEntries]) (by simp)

theorem fills_cloneFieldIn : (domain : Domain) → (value : domain.Value) →
    Fills (cloneFieldIn domain value) (FieldTakes domain value)
  | .shortstr, _ => fills_storedBytesClone.map
  | .longstr, _ => fills_storedBytesClone.map
  | .table, _ => (fills_storedTableClone.map).mono fun nonempty empty =>
      nonempty (storeEntries_eq_nil.mp empty)
  | .octet, _ | .short, _ | .long, _ | .longlong, _ | .bits _, _ => fills_pure

theorem fills_clonePropertyIn {flags : UInt32} {property : Property}
    (field : Option property.domain.Value) :
    Fills (clonePropertyIn flags property field)
      (flagged flags property ∧ ∃ value, field = some value ∧ FieldTakes property.domain value) := by
  cases field with
  | some value =>
      rw [clonePropertyIn]
      by_cases isFlagged : flagged flags property
      · rw [if_pos isFlagged]
        refine (fills_cloneFieldIn property.domain value).map.mono ?_
        rintro ⟨_, _, ⟨⟩, takes⟩
        exact takes
      · rw [if_neg isFlagged]
        exact fills_pure.mono fun holds => isFlagged holds.1
  | none =>
      rw [clonePropertyIn]
      split
      · exact fills_throw
      · refine fills_pure.mono ?_
        rintro ⟨_, _, ⟨⟩, _⟩

theorem fills_clonePropertiesIn {flags : UInt32} : (properties : List Property) →
    (fields : PropertyFields properties) →
      Fills (clonePropertiesIn flags properties fields) (PropertiesTake flags properties fields)
  | [], _ => fills_pure
  | property :: properties, (field, fields) => by
      refine ((fills_clonePropertyIn field).bind fun _ =>
        (fills_clonePropertiesIn properties fields).bind fun _ => fills_pure).mono ?_
      exact Or.imp_right .inl

theorem fills_cloneDeclaredPropertiesIn {flags : UInt32} : (declared : Option (List Property)) →
    (fields : DeclaredProperties declared) →
      Fills (cloneDeclaredPropertiesIn flags declared fields) (DeclaredTake flags declared fields)
  | some properties, fields => fills_clonePropertiesIn properties fields
  | none, _ => fills_pure

/-- After a copy that takes up memory the pool has blocks. -/
theorem blocks_basicPropertiesCloneIn {heap : Heap} {after : Arena}
    {original properties : Properties amqpBasicClass}
    (takes : DeclaredTake original.flags (classProperties amqpBasicClass) original.fields)
    (ran : basicPropertiesCloneIn original ⟨heap, initAmqpPool 4096, []⟩ = .ok properties after) :
    after.pool.blocks ≠ [] := by
  have fills : Fills (basicPropertiesCloneIn original)
      (DeclaredTake original.flags (classProperties amqpBasicClass) original.fields) :=
    (fills_cloneDeclaredPropertiesIn _ original.fields).map
  have filled := (fills False).ok ⟨sound_initAmqpPool 4096, fun _ => rfl, False.elim⟩ ran
  exact filled.blocks (.inr takes)

end Filling

/-! ## Pools that stay as they are -/

/-- A step that changes nothing. -/
abbrev Untouching {α : Type} (run : Allocating α) : Prop := Moves (Unchanged id) run

section Untouched

variable {α β : Type} {run : Allocating α}

theorem Untouching.map {change : α → β} (untouching : Untouching run) :
    Untouching (change <$> run) := untouching.bind fun _ => .pure

theorem untouching_storedBytesClone {bytes : StoredBytes} (empty : ¬ bytes.octets ≠ []) :
    Untouching (storedBytesClone bytes) := by
  unfold storedBytesClone
  rw [if_pos (List.length_eq_zero_iff.mpr (not_not.mp empty))]
  exact .pure

theorem untouching_cloneFieldIn : (domain : Domain) → (value : domain.Value) →
    ¬ FieldTakes domain value → Untouching (cloneFieldIn domain value)
  | .shortstr, value, empty => (@untouching_storedBytesClone ⟨value, none⟩ empty).map
  | .longstr, value, empty => (@untouching_storedBytesClone ⟨value, none⟩ empty).map
  | .table, value, empty => by
      rw [cloneFieldIn, not_not.mp empty]
      exact Untouching.map .pure
  | .octet, _, _ | .short, _, _ | .long, _, _ | .longlong, _, _ | .bits _, _, _ => .pure

theorem untouching_clonePropertyIn {flags : UInt32} {property : Property}
    (field : Option property.domain.Value) (empty : ¬ (flagged flags property ∧
      ∃ value, field = some value ∧ FieldTakes property.domain value)) :
    Untouching (clonePropertyIn flags property field) := by
  cases field with
  | some value =>
      rw [clonePropertyIn]
      refine Moves.ite (fun isFlagged => ?_) fun _ => .pure
      refine (untouching_cloneFieldIn property.domain value fun takes => empty ?_).map
      exact ⟨isFlagged, value, rfl, takes⟩
  | none =>
      rw [clonePropertyIn]
      exact Moves.ite (fun _ => .throw) fun _ => .pure

theorem untouching_clonePropertiesIn {flags : UInt32} : (properties : List Property) →
    (fields : PropertyFields properties) → ¬ PropertiesTake flags properties fields →
      Untouching (clonePropertiesIn flags properties fields)
  | [], _, _ => .pure
  | property :: properties, (field, fields), empty => by
      refine (untouching_clonePropertyIn field fun first => empty (.inl first)).bind fun _ => ?_
      refine (untouching_clonePropertiesIn properties fields fun rest => empty (.inr rest)).bind ?_
      exact fun _ => .pure

theorem untouching_cloneDeclaredPropertiesIn {flags : UInt32} :
    (declared : Option (List Property)) → (fields : DeclaredProperties declared) →
      ¬ DeclaredTake flags declared fields →
        Untouching (cloneDeclaredPropertiesIn flags declared fields)
  | some properties, fields, empty => untouching_clonePropertiesIn properties fields empty
  | none, _, _ => .pure

theorem untouching_basicPropertiesCloneIn {original : Properties amqpBasicClass}
    (empty : ¬ DeclaredTake original.flags (classProperties amqpBasicClass) original.fields) :
    Untouching (basicPropertiesCloneIn original) :=
  (untouching_cloneDeclaredPropertiesIn _ original.fields empty).map

end Untouched

/-! ## Every read -/

theorem ownsNothing_zeroed (heap : Heap) : (Holding.zeroed heap).OwnsNothing where
  blocks := rfl
  current := rfl
  body _ isBody := by cases isBody

/-- `error_out3`, when the body has been freed or there is none. -/
theorem ownsNothing_emptyPool {holding : Holding}
    (freed : ∀ block, holding.body = some block → block ∈ holding.arena.heap.freed) :
    holding.emptyPool.OwnsNothing where
  blocks := rfl
  current := rfl
  body block isBody := List.mem_append_left _ (List.mem_append_left _ (freed block isBody))

/-- `error_out2`. -/
theorem ownsNothing_freeBody (holding : Holding) : holding.freeBody.emptyPool.OwnsNothing := by
  refine ownsNothing_emptyPool fun block isBody => ?_
  have isHeld : holding.body = some block := isBody
  refine List.mem_append_right _ ?_
  rw [isHeld]
  exact List.mem_singleton_self _

section Reads

variable {heap : Heap} {channel : UInt16} {fuel : Nat} {world after : World}

theorem ownsNothing_readBodyIn {properties : Properties amqpBasicClass} {size : Nat}
    {holding final : Holding} {reply : RpcReply}
    (ran : readBodyIn channel fuel properties size holding world =
      .ok (.error reply, final) after) : final.OwnsNothing := by
  unfold readBodyIn at ran
  obtain ⟨result, middle, _, rest⟩ := bind_eq_ok.mp ran
  cases result with
  | error raised =>
      cases rest
      exact ownsNothing_freeBody holding
  | ok body => cases rest

/-- Requests for blocks do not change the pool. -/
theorem requestBlock_pool (size : Nat) (arena : Arena) :
    (endState (requestBlock size arena)).pool = arena.pool := by
  obtain ⟨rest, _, ⟨_, ran⟩ | ⟨_, ran⟩⟩ := @requestBlock_cases arena size
  · rw [ran]
    rfl
  · rw [ran]
    rfl

theorem requestBlock_none {size : Nat} {arena : Arena}
    (refused : (returned? (requestBlock size arena)).join = none) :
    ∃ after, requestBlock size arena = .ok none after := by
  obtain ⟨rest, _, ⟨_, ran⟩ | ⟨_, ran⟩⟩ := @requestBlock_cases arena size
  · rw [ran] at refused
    cases refused
  · exact ⟨_, ran⟩

theorem ownsNothing_startBodyIn {properties : Properties amqpBasicClass} {bodySize : UInt64}
    {arena : Arena} {final : Holding} {reply : RpcReply}
    (unrefused : bodySize ≠ 0 → (∃ rest, requestBlock bodySize.toNat arena = .ok none rest) →
      arena.pool.blocks = [] ∧ arena.pool.allocBlock = none)
    (ran : startBodyIn channel fuel properties bodySize arena world =
      .ok (.error reply, final) after) : final.OwnsNothing := by
  unfold startBodyIn at ran
  by_cases empty : bodySize = 0
  · rw [if_pos empty] at ran
    exact ownsNothing_readBodyIn ran
  · rw [if_neg empty] at ran
    cases request : (returned? (requestBlock bodySize.toNat arena)).join with
    | none =>
        rw [request] at ran
        cases ran
        obtain ⟨blocks, current⟩ := unrefused empty (requestBlock_none request)
        refine ⟨?_, ?_, fun _ isBody => (by cases isBody)⟩
        · rw [requestBlock_pool]
          exact blocks
        · rw [requestBlock_pool]
          exact current
    | some block =>
        rw [request] at ran
        exact ownsNothing_readBodyIn ran

/-- A content header has been decoded, and its properties were not copied, or the body is next. -/
theorem startMessageIn_eq_ok {frame : Frame} {result : Except RpcReply Message}
    {holding : Holding}
    (ran : startMessageIn heap channel fuel frame world = .ok (result, holding) after) :
    ∃ classId bodySize decoded raw original,
      frame.payload = .properties classId bodySize (some decoded) raw ∧
        asBasicProperties classId decoded = .ok original ∧
        ((∃ status arena,
            basicPropertiesCloneIn original ⟨heap, initAmqpPool 4096, []⟩ =
              .error (.status status) arena ∧
            result = .error (.libraryException status) ∧
            holding = (Holding.mk arena none).emptyPool ∧ after = world) ∨
          ∃ properties arena,
            basicPropertiesCloneIn original ⟨heap, initAmqpPool 4096, []⟩ = .ok properties arena ∧
            startBodyIn channel fuel properties bodySize arena world =
              .ok (result, holding) after) := by
  unfold startMessageIn at ran
  cases payload : frame.payload with
  | method | bodyFragment | none | protocolHeader =>
      rw [payload] at ran
      cases ran
  | properties classId bodySize decoded raw =>
      rw [payload] at ran
      cases decoded with
      | none => cases ran
      | some decoded =>
          dsimp only at ran
          cases basic : asBasicProperties classId decoded with
          | error fault =>
              rw [basic] at ran
              cases ran
          | ok original =>
              rw [basic] at ran
              dsimp only at ran
              refine ⟨classId, bodySize, decoded, raw, original, rfl, basic, ?_⟩
              cases cloned : basicPropertiesCloneIn original ⟨heap, initAmqpPool 4096, []⟩ with
              | error failure arena =>
                  rw [cloned] at ran
                  cases failure with
                  | fault fault => cases ran
                  | status status =>
                      cases ran
                      exact .inl ⟨status, arena, rfl, rfl, rfl, rfl⟩
              | ok properties arena =>
                  rw [cloned] at ran
                  exact .inr ⟨properties, arena, rfl, ran⟩

/-- From the content header on. -/
theorem ownsNothing_startMessageIn {frame : Frame} {final : Holding} {reply : RpcReply}
    (isHeader : frame.frameType = amqpFrameHeader)
    (unrefused : ∀ original bodySize, ¬ BodyRefused heap frame original bodySize)
    (ran : startMessageIn heap channel fuel frame world = .ok (.error reply, final) after) :
    final.OwnsNothing := by
  obtain ⟨classId, bodySize, decoded, raw, original, payload, basic, ends⟩ :=
    startMessageIn_eq_ok ran
  rcases ends with ⟨status, arena, _, _, rfl, _⟩ | ⟨properties, arena, cloned, starts⟩
  · exact ownsNothing_emptyPool fun _ isBody => by cases isBody
  · refine ownsNothing_startBodyIn ?_ starts
    rintro nonempty ⟨rest, refused⟩
    by_cases takes : DeclaredTake original.flags (classProperties amqpBasicClass) original.fields
    · exact absurd ⟨isHeader, ⟨classId, decoded, raw, payload, basic⟩, nonempty, takes,
        properties, arena, rest, cloned, refused⟩ (unrefused original bodySize)
    · have same : arena = _ := (untouching_basicPropertiesCloneIn takes).ok cloned
      rw [same]
      exact ⟨rfl, rfl⟩

/-- A header that is taken is all that the rest of the call depends on. -/
theorem amqpReadMessageIn_header {frame : Frame} (isHeader : frame.frameType = amqpFrameHeader)
    (taken : amqpSimpleWaitFrameOnChannel channel fuel world = .ok (.ok frame) after) :
    amqpReadMessageIn heap channel fuel world = startMessageIn heap channel fuel frame after := by
  unfold amqpReadMessageIn
  rw [bind_of_ok taken]
  dsimp only
  rw [if_neg (not_not_intro isHeader)]

/-- The call that goes wrong. -/
theorem amqpReadMessageIn_refused {frame : Frame} {original : Properties amqpBasicClass}
    {bodySize : UInt64} (refused : BodyRefused heap frame original bodySize)
    (taken : amqpSimpleWaitFrameOnChannel channel fuel world = .ok (.ok frame) after) :
    ∃ holding, amqpReadMessageIn heap channel fuel world =
        .ok (.error (.libraryException .noMemory), holding) after ∧
      holding.arena.pool.blocks ≠ [] := by
  obtain ⟨frameType, frameChannel, payload⟩ := frame
  obtain ⟨isHeader, ⟨classId, decoded, raw, rfl, basic⟩, nonempty, takes, properties, arena, rest,
    cloned, request⟩ := refused
  refine ⟨⟨rest, none⟩, ?_, ?_⟩
  · rw [amqpReadMessageIn_header isHeader taken]
    simp only [startMessageIn, basic, cloned, startBodyIn, if_neg nonempty, request]
    rfl
  · have same := requestBlock_pool bodySize.toNat arena
    rw [request] at same
    have blocks := blocks_basicPropertiesCloneIn takes cloned
    rwa [← same] at blocks

/-- A failed call owns nothing, unless properties have been copied to memory and there is no
memory for the body. -/
theorem failedReadOwnsNothing_iff :
    FailedReadOwnsNothing heap channel fuel world ↔
      ∀ frame original bodySize, TakesFirst channel fuel world frame →
        ¬ BodyRefused heap frame original bodySize := by
  constructor
  · rintro ownsNothing frame original bodySize ⟨after, taken⟩ refused
    obtain ⟨holding, ran, blocks⟩ := amqpReadMessageIn_refused refused taken
    exact blocks (ownsNothing _ _ _ ran).blocks
  · intro unrefused reply holding final ran
    have whole := ran
    unfold amqpReadMessageIn at ran
    obtain ⟨result, after, taken, rest⟩ := bind_eq_ok.mp ran
    cases result with
    | error status =>
        cases rest
        exact ownsNothing_zeroed heap
    | ok frame =>
        by_cases isHeader : frame.frameType = amqpFrameHeader
        · rw [amqpReadMessageIn_header isHeader taken] at whole
          exact ownsNothing_startMessageIn isHeader
            (fun original bodySize => unrefused frame original bodySize ⟨after, taken⟩) whole
        · dsimp only at rest
          rw [if_pos isHeader] at rest
          cases closing : closeMethod? frame with
          | some method =>
              rw [closing] at rest
              cases rest
              exact ownsNothing_zeroed heap
          | none =>
              rw [closing] at rest
              obtain ⟨_, _, _, rest⟩ := bind_eq_ok.mp rest
              cases rest
              exact ownsNothing_zeroed heap

/-- The message, or the failure, that the fragments make. -/
theorem readFragments_of_readBodyIn {properties : Properties amqpBasicClass} {size : Nat}
    {start holding : Holding} {result : Except RpcReply Message}
    (ran : readBodyIn channel fuel properties size start world = .ok (result, holding) after) :
    ∃ fragments, readFragments channel size fuel [] world = .ok fragments after ∧
      result = fragments.map (Message.mk properties) := by
  unfold readBodyIn at ran
  obtain ⟨fragments, middle, taken, rest⟩ := bind_eq_ok.mp ran
  cases fragments with
  | error reply =>
      cases rest
      exact ⟨_, taken, rfl⟩
  | ok body =>
      cases rest
      exact ⟨_, taken, rfl⟩

/-- With memory for the body, it is read in the same way. -/
theorem readFragments_of_startBodyIn {properties : Properties amqpBasicClass}
    {bodySize : UInt64} {arena : Arena} {holding : Holding} {result : Except RpcReply Message}
    (memory : result ≠ .error (.libraryException .noMemory))
    (ran : startBodyIn channel fuel properties bodySize arena world =
      .ok (result, holding) after) :
    ∃ fragments, readFragments channel bodySize.toNat fuel [] world = .ok fragments after ∧
      result = fragments.map (Message.mk properties) := by
  unfold startBodyIn at ran
  by_cases empty : bodySize = 0
  · rw [if_pos empty] at ran
    rw [empty]
    exact readFragments_of_readBodyIn ran
  · rw [if_neg empty] at ran
    cases request : (returned? (requestBlock bodySize.toNat arena)).join with
    | none =>
        rw [request] at ran
        cases ran
        exact absurd rfl memory
    | some block =>
        rw [request] at ran
        exact readFragments_of_readBodyIn ran

/-- What becomes of a content header on values: it is refused with the same code, or the body
is read. -/
theorem startMessage_of_startMessageIn {frame : Frame} {result : Except RpcReply Message}
    {holding : Holding} (memory : result ≠ .error (.libraryException .noMemory))
    (ran : startMessageIn heap channel fuel frame world = .ok (result, holding) after) :
    (∃ status allocs, startMessage [] frame = .error (.status status) allocs ∧
      result = .error (.libraryException status) ∧ after = world) ∨
    ∃ properties size allocs fragments, startMessage [] frame = .ok (properties, size) allocs ∧
      readFragments channel size fuel [] world = .ok fragments after ∧
      result = fragments.map (Message.mk properties) := by
  obtain ⟨classId, bodySize, decoded, raw, original, payload, basic, ends⟩ :=
    startMessageIn_eq_ok ran
  have mirrors := @mirrors_basicPropertiesCloneIn
    ⟨heap, initAmqpPool 4096, []⟩ amqpBasicClass (sound_initAmqpPool 4096) original
  rcases ends with ⟨status, arena, cloned, rfl, _, rfl⟩ | ⟨properties, arena, cloned, starts⟩
  · rw [cloned] at mirrors
    cases mirrors with
    | scarce => exact absurd rfl memory
    | refused same _ =>
        refine .inl ⟨status, [], ?_, rfl, rfl⟩
        simp only [startMessage, payload, basic, bind_of_error same]
  · rw [cloned] at mirrors
    cases mirrors with
    | copied same _ =>
        obtain ⟨fragments, read, isResult⟩ := readFragments_of_startBodyIn memory starts
        exact .inr ⟨properties, _, _, fragments, startMessage_of_clone payload basic same, read,
          isResult⟩

/-- With the memory left out this is `amqp_read_message` as it is on values, but for the calls
that have no memory. -/
theorem amqpReadMessage_of_amqpReadMessageIn {result : Except RpcReply Message}
    {holding : Holding} (memory : result ≠ .error (.libraryException .noMemory))
    (ran : amqpReadMessageIn heap channel fuel world = .ok (result, holding) after) :
    amqpReadMessage [] channel fuel world = .ok result after := by
  unfold amqpReadMessageIn at ran
  obtain ⟨first, middle, taken, rest⟩ := bind_eq_ok.mp ran
  unfold amqpReadMessage
  rw [bind_of_ok taken]
  cases first with
  | error status =>
      cases rest
      rfl
  | ok frame =>
      dsimp only at rest ⊢
      by_cases isHeader : frame.frameType ≠ amqpFrameHeader
      · rw [if_pos isHeader] at rest ⊢
        cases closing : closeMethod? frame with
        | some method =>
            rw [closing] at rest
            cases rest
            rfl
        | none =>
            rw [closing] at rest
            obtain ⟨_, _, back, rest⟩ := bind_eq_ok.mp rest
            cases rest
            dsimp only
            rw [bind_of_ok back]
            rfl
      · rw [if_neg isHeader] at rest ⊢
        rcases startMessage_of_startMessageIn memory rest with
          ⟨status, _, refused, isResult, unchanged⟩ |
          ⟨properties, size, _, fragments, started, read, isResult⟩
        · rw [refused, isResult, unchanged]
          rfl
        · rw [started, isResult]
          dsimp only
          rw [bind_of_ok read]
          cases fragments with
          | error reply => rfl
          | ok body => rfl

end Reads

/-- A content header with a content type of one octet, which announces a body of half of the
address space. -/
def hugeBodyWorld : World :=
  tunedWorld
    { clock := []
      recvs := [.data ⟨frameOctets amqpFrameHeader 1
        ([0, 60, 0, 0] ++ (128 :: List.replicate 7 0) ++ [128, 0, 1, 97]), by decide, by decide⟩]
      sends := []
      recvPolls := []
      sendPolls := []
      closes := []
      links := []
      memory := fun _ => grantingMemory }

/-- The page of the pool is still there when the call has failed. -/
theorem huge_body_leaves_page :
    ¬ ∀ heap channel fuel world, FailedReadOwnsNothing heap channel fuel world := by
  intro ownsNothing
  have failed : (returned? (amqpReadMessageIn ⟨[], [], []⟩ 1 6 hugeBodyWorld)).map
      (fun found => (found.1.toOption.isNone, found.2.arena.pool.blocks)) =
        some (true, [0]) := by decide +kernel
  obtain ⟨found, returned, shows⟩ := Option.map_eq_some_iff.mp failed
  obtain ⟨after, ran⟩ := returned?_eq_some.mp returned
  obtain ⟨result, holding⟩ := found
  cases result with
  | ok message => cases shows
  | error reply =>
      have blocks := (ownsNothing _ _ _ _ reply holding after ran).blocks
      dsimp only at shows
      rw [blocks] at shows
      cases shows

end RabbitmqC
