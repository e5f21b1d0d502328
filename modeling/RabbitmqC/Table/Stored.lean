import RabbitmqC.Memory.Pool
import RabbitmqC.Table.Delivery

/-!
# Tables in memory

Tables with the places of their arrays and strings, and `amqp_table_clone` as it
works on them. Without the places it is the function on values; what it returns has
places that it has taken from the pool.
-/

set_option autoImplicit false

namespace RabbitmqC

open Effect

/-! ## Stored values -/

/-- The values that hold no pointer. -/
inductive Scalar where
  | boolean (value : Int32)
  | i8 (value : Int8)
  | u8 (value : UInt8)
  | i16 (value : Int16)
  | u16 (value : UInt16)
  | i32 (value : Int32)
  | u32 (value : UInt32)
  | i64 (value : Int64)
  | u64 (value : UInt64)
  | f32 (bits : UInt32)
  | f64 (bits : UInt64)
  | decimal (decimals : UInt8) (value : UInt32)
  | timestamp (value : UInt64)
  | void

def Scalar.value : Scalar → FieldValue
  | .boolean value => .boolean value
  | .i8 value => .i8 value
  | .u8 value => .u8 value
  | .i16 value => .i16 value
  | .u16 value => .u16 value
  | .i32 value => .i32 value
  | .u32 value => .u32 value
  | .i64 value => .i64 value
  | .u64 value => .u64 value
  | .f32 bits => .f32 bits
  | .f64 bits => .f64 bits
  | .decimal decimals value => .decimal decimals value
  | .timestamp value => .timestamp value
  | .void => .void

/-- `amqp_bytes_t`. A null pointer is no place. -/
structure StoredBytes where
  octets : List UInt8
  place : Option Region

mutual

/-- `amqp_field_value_t`. An array whose `entries` is a null pointer has no entries. -/
inductive StoredValue where
  | scalar (value : Scalar)
  | utf8 (bytes : StoredBytes)
  | bytes (bytes : StoredBytes)
  | nullArray
  | array (place : Region) (entries : List StoredValue)
  | table (place : Option Region) (entries : List StoredEntry)
  | unknown (kind : UnknownKind)

/-- `amqp_table_entry_t`. -/
inductive StoredEntry where
  | mk (key : StoredBytes) (value : StoredValue)

end

/-- `amqp_table_t`. -/
structure StoredTable where
  place : Option Region
  entries : List StoredEntry

mutual

/-- The value without the places. -/
def StoredValue.erase : StoredValue → FieldValue
  | .scalar value => value.value
  | .utf8 bytes => .utf8 bytes.octets
  | .bytes bytes => .bytes bytes.octets
  | .nullArray => .array []
  | .array _ entries => .array (eraseValues entries)
  | .table _ entries => .table (eraseEntries entries)
  | .unknown kind => .unknown kind

def eraseValues : List StoredValue → List FieldValue
  | [] => []
  | entry :: entries => entry.erase :: eraseValues entries

def StoredEntry.erase : StoredEntry → TableEntry
  | .mk key value => .mk key.octets value.erase

def eraseEntries : List StoredEntry → List TableEntry
  | [] => []
  | entry :: entries => entry.erase :: eraseEntries entries

end

def StoredTable.erase (table : StoredTable) : Table := eraseEntries table.entries

mutual

/-- The places of all arrays, keys and strings. -/
def StoredValue.regions : StoredValue → List Region
  | .scalar _ | .nullArray | .unknown _ => []
  | .utf8 bytes => bytes.place.toList
  | .bytes bytes => bytes.place.toList
  | .array place entries => place :: valuesRegions entries
  | .table place entries => place.toList ++ entriesRegions entries

def valuesRegions : List StoredValue → List Region
  | [] => []
  | entry :: entries => entry.regions ++ valuesRegions entries

def StoredEntry.regions : StoredEntry → List Region
  | .mk key value => key.place.toList ++ value.regions

def entriesRegions : List StoredEntry → List Region
  | [] => []
  | entry :: entries => entry.regions ++ entriesRegions entries

end

def StoredTable.regions (table : StoredTable) : List Region :=
  table.place.toList ++ entriesRegions table.entries

/-! ## Copying -/

def sizeofFieldValue : Nat := 24

def sizeofTableEntry : Nat := 40

/-- `amqp_pool_alloc`, where a null pointer is `AMQP_STATUS_NO_MEMORY`. The memory is there to
be written to. -/
def takeRegion (amount : Nat) : Allocating Region := do
  match ← amqpPoolAlloc amount with
  | some region => do
      writeRegion region
      return region
  | none => throw (.status .noMemory)

/-- `amqp_pool_alloc_bytes` and `memcpy`. -/
def copyBytes (original : StoredBytes) : Allocating StoredBytes := do
  let region ← takeRegion original.octets.length
  return ⟨original.octets, some region⟩

/-- A string of a field. -/
def storedBytesClone (original : StoredBytes) : Allocating StoredBytes := do
  if original.octets.length = 0 then
    return ⟨[], none⟩
  else
    copyBytes original

/-- What stands around the loop of `amqp_table_clone`. -/
def cloneIntoPlace (entries : List StoredEntry) (loop : Allocating (List StoredEntry)) :
    Allocating StoredTable := do
  if entries.length = 0 then
    return ⟨none, []⟩
  else do
    let region ← takeRegion (entries.length * sizeofTableEntry)
    StoredTable.mk (some region) <$> loop

mutual

/-- `amqp_field_value_clone`. -/
def storedFieldValueClone : StoredValue → Allocating StoredValue
  | .scalar value => return .scalar value
  | .utf8 bytes => .utf8 <$> storedBytesClone bytes
  | .bytes bytes => .bytes <$> storedBytesClone bytes
  | .nullArray => return .nullArray
  | .array _ entries => do
      let region ← takeRegion (entries.length * sizeofFieldValue)
      .array region <$> cloneStoredValues entries
  | .table _ entries =>
      (fun clone => .table clone.place clone.entries) <$>
        cloneIntoPlace entries (cloneStoredEntries entries)
  | .unknown _ => throw (.status .invalidParameter)

def cloneStoredValues : List StoredValue → Allocating (List StoredValue)
  | [] => return []
  | entry :: entries => do
      let clone ← storedFieldValueClone entry
      let clones ← cloneStoredValues entries
      return clone :: clones

/-- `amqp_table_entry_clone`. -/
def storedTableEntryClone : StoredEntry → Allocating StoredEntry
  | .mk key value => do
      if key.octets.length = 0 then
        throw (.status .invalidParameter)
      else do
        let keyClone ← copyBytes key
        let clone ← storedFieldValueClone value
        return .mk keyClone clone

/-- The loop of `amqp_table_clone`. -/
def cloneStoredEntries : List StoredEntry → Allocating (List StoredEntry)
  | [] => return []
  | entry :: entries => do
      let clone ← storedTableEntryClone entry
      let clones ← cloneStoredEntries entries
      return clone :: clones

end

/-- `amqp_table_clone`. -/
def storedTableClone (original : StoredTable) : Allocating StoredTable :=
  cloneIntoPlace original.entries (cloneStoredEntries original.entries)

/-! ## Originals that can be copied -/

/-- What is asked of the pool for a block is not more than an object can have. -/
def Requestable (amount : Nat) : Prop := amount + 7 < 2 ^ 63

mutual

/-- An array without entries is a null pointer, and there can be copies of all strings and
arrays. -/
def StoredValue.Copyable : StoredValue → Prop
  | .utf8 bytes => Requestable bytes.octets.length
  | .bytes bytes => Requestable bytes.octets.length
  | .array _ entries =>
      entries ≠ [] ∧ Requestable (entries.length * sizeofFieldValue) ∧ ValuesCopyable entries
  | .table _ entries =>
      Requestable (entries.length * sizeofTableEntry) ∧ EntriesCopyable entries
  | _ => True

def ValuesCopyable : List StoredValue → Prop
  | [] => True
  | entry :: entries => entry.Copyable ∧ ValuesCopyable entries

def EntriesCopyable : List StoredEntry → Prop
  | [] => True
  | .mk key value :: entries =>
      (Requestable key.octets.length ∧ value.Copyable) ∧ EntriesCopyable entries

end

def StoredTable.Copyable (table : StoredTable) : Prop :=
  Requestable (table.entries.length * sizeofTableEntry) ∧ EntriesCopyable table.entries

/-! ## Copies and values -/

/-- Requests are not granted. -/
def Scarce (arena : Arena) : Prop := 2 ^ 63 ≤ arena.pool.pagesize ∨ false ∈ arena.heap.allocs

/-- A step on stored values next to the step on values that has memory available: it returns
the same, in places of its own, or the same status, or there is no memory. -/
inductive Copies {α β : Type} (erase : α → β) (regions : α → List Region) (copyable : Prop)
    (before : Arena) (granted : EStateM.Result Failure (List Bool) β) :
    EStateM.Result Failure Arena α → Prop where
  | copied {value : α} {after : Arena} :
      granted = .ok (erase value) [] → Occupies (regions value) before after →
      Copies erase regions copyable before granted (.ok value after)
  | refused {failure : Failure} {after : Arena} :
      granted = .error failure [] → Occupies [] before after →
      Copies erase regions copyable before granted (.error failure after)
  | scarce {after : Arena} :
      (copyable → Scarce before) → Occupies [] before after →
      Copies erase regions copyable before granted (.error (.status .noMemory) after)

section Copying

variable {α β γ δ : Type} {erase : α → β} {regions : α → List Region} {copyable : Prop}
  {before middle : Arena}

theorem Scarce.of_occupies {taken : List Region} (scarce : Scarce middle)
    (occupied : Occupies taken before middle) : Scarce before := by
  rcases scarce with large | refuses
  · rw [occupied.pagesize] at large
    exact .inl large
  · exact .inr (occupied.allocs refuses)

/-- What was taken before belongs to the copy as well. -/
theorem Copies.after {taken : List Region} {granted : EStateM.Result Failure (List Bool) β}
    {result : EStateM.Result Failure Arena α} (occupied : Occupies taken before middle)
    (copies : Copies erase regions copyable middle granted result) :
    Copies erase (fun value => taken ++ regions value) copyable before granted result := by
  cases copies with
  | copied same rest => exact .copied same (occupied.append rest)
  | refused same rest => exact .refused same (occupied.append rest).forget
  | scarce reason rest =>
      exact .scarce (fun holds => (reason holds).of_occupies occupied) (occupied.append rest).forget

theorem Copies.weaken {more : Prop} {granted : EStateM.Result Failure (List Bool) β}
    {result : EStateM.Result Failure Arena α}
    (copies : Copies erase regions copyable before granted result) (weaker : more → copyable) :
    Copies erase regions more before granted result := by
  cases copies with
  | copied same occupied => exact .copied same occupied
  | refused same occupied => exact .refused same occupied
  | scarce reason occupied => exact .scarce (fun holds => reason (weaker holds)) occupied

theorem Copies.bind {first : Allocating α} {next : α → Allocating γ} {firstValue : Cloner β}
    {nextValue : β → Cloner δ} {eraseLast : γ → δ} {regionsLast : γ → List Region}
    (head : Copies erase regions copyable before (firstValue []) (first middle))
    (tail : ∀ value after, Occupies (regions value) before after →
      Copies eraseLast regionsLast copyable before (nextValue (erase value) [])
        (next value after)) :
    Copies eraseLast regionsLast copyable before ((firstValue >>= nextValue) [])
      ((first >>= next) middle) := by
  cases ran : first middle with
  | ok value after =>
      rw [ran] at head
      rw [bind_of_ok ran]
      cases head with
      | copied same occupied =>
          rw [bind_of_ok same]
          exact tail value after occupied
  | error failure after =>
      rw [ran] at head
      rw [bind_of_error ran]
      cases head with
      | refused same occupied =>
          rw [bind_of_error same]
          exact .refused rfl occupied
      | scarce reason occupied => exact .scarce reason occupied

/-- The last step of a copy. -/
theorem Copies.map {first : Allocating α} {change : α → γ} {firstValue : Cloner β}
    {changeValue : β → δ} {eraseLast : γ → δ} {regionsLast : γ → List Region}
    (head : Copies erase regions copyable before (firstValue []) (first middle))
    (values : ∀ value, eraseLast (change value) = changeValue (erase value))
    (places : ∀ value, regionsLast (change value) = regions value) :
    Copies eraseLast regionsLast copyable before ((changeValue <$> firstValue) [])
      ((change <$> first) middle) := by
  cases ran : first middle with
  | ok value after =>
      rw [ran] at head
      rw [map_of_ok ran]
      cases head with
      | copied same occupied =>
          rw [map_of_ok same, ← values]
          exact .copied rfl (by rwa [places])
  | error failure after =>
      rw [ran] at head
      rw [map_of_error ran]
      cases head with
      | refused same occupied =>
          rw [map_of_error same]
          exact .refused rfl occupied
      | scarce reason occupied => exact .scarce reason occupied

theorem Copies.bind_pure {first : Allocating α} {change : α → γ} {firstValue : Cloner β}
    {changeValue : β → δ} {eraseLast : γ → δ} {regionsLast : γ → List Region}
    (head : Copies erase regions copyable before (firstValue []) (first middle))
    (values : ∀ value, eraseLast (change value) = changeValue (erase value))
    (places : ∀ value, regionsLast (change value) = regions value) :
    Copies eraseLast regionsLast copyable before
      ((firstValue >>= fun value => pure (changeValue value)) [])
      ((first >>= fun value => pure (change value)) middle) := by
  have mapped := head.map values places
  rwa [map_eq_pure_bind, map_eq_pure_bind] at mapped

/-- A step in memory does what the step on values does, and writes to free memory only. -/
abbrev Mirrors {α β : Type} (erase : α → β) (start : Arena)
    (granted : EStateM.Result Failure (List Bool) β) (result : EStateM.Result Failure Arena α) :
    Prop :=
  Copies erase (fun _ => []) False start granted result

theorem Copies.mirrors {granted : EStateM.Result Failure (List Bool) β}
    {result : EStateM.Result Failure Arena α}
    (copies : Copies erase regions copyable before granted result) :
    Mirrors erase before granted result := by
  cases copies with
  | copied same occupied => exact .copied same occupied.forget
  | refused same occupied => exact .refused same occupied
  | scarce _ occupied => exact .scarce False.elim occupied

/-- However it ends, such a step has written to free memory only. -/
theorem Mirrors.writes {start : Arena} {granted : EStateM.Result Failure (List Bool) β}
    {result : EStateM.Result Failure Arena α} (mirrors : Mirrors erase start granted result) :
    ∀ region ∈ (endState result).written, region ∈ start.written ∨ region.FreeIn start := by
  cases mirrors with
  | copied _ occupied => exact occupied.writes
  | refused _ occupied => exact occupied.writes
  | scarce _ occupied => exact occupied.writes

/-- The place of an object. -/
theorem copies_takeRegion (sound : before.Sound) {amount : Nat} :
    Copies (fun _ => ()) (fun region => [region]) (Requestable amount ∧ amount ≠ 0) before
      (poolAlloc []) (takeRegion amount before) := by
  have answer := amqpPoolAlloc_spec sound amount
  unfold takeRegion
  cases ran : amqpPoolAlloc amount before with
  | error failure after =>
      rw [ran] at answer
      cases answer
  | ok found after =>
      rw [ran] at answer
      rw [bind_of_ok ran]
      cases answer with
      | @granted region _ occupied _ _ =>
          refine .copied rfl { occupied with writes := ?_, sound := ?_ }
          · exact ⟨occupied.sound.used, occupied.sound.pages, occupied.sound.nodup,
              occupied.sound.current⟩
          · intro written member
            rcases List.mem_append.mp member with old | new
            · exact occupied.writes written old
            · rw [List.mem_singleton.mp new]
              exact .inr (occupied.free region List.mem_cons_self)
      | refused occupied unavailable =>
          refine .scarce ?_ occupied
          rintro ⟨requestable, nonzero⟩
          have small : roundUp amount < 2 ^ 63 := by
            unfold Requestable at requestable
            unfold roundUp
            rw [sizeAdd_of_lt (by omega)]
            omega
          rcases unavailable with zero | large | pagesize | refuses
          · exact absurd zero nonzero
          · omega
          · exact .inl pagesize
          · exact .inr refuses

/-- A string that is not empty, and a key. -/
theorem copies_copyBytes (sound : before.Sound) {bytes : StoredBytes}
    (nonempty : bytes.octets.length ≠ 0) :
    Copies StoredBytes.octets (fun clone => clone.place.toList)
      (Requestable bytes.octets.length) before
      ((poolAlloc >>= fun _ => pure bytes.octets) []) (copyBytes bytes before) := by
  have taken := (@copies_takeRegion before sound bytes.octets.length).weaken
    fun requestable => ⟨requestable, nonempty⟩
  exact taken.bind_pure (fun _ => rfl) fun _ => rfl

theorem copies_storedBytesClone (sound : before.Sound) {bytes : StoredBytes} :
    Copies StoredBytes.octets (fun clone => clone.place.toList)
      (Requestable bytes.octets.length) before (cloneBytes bytes.octets [])
      (storedBytesClone bytes before) := by
  unfold storedBytesClone cloneBytes
  by_cases empty : bytes.octets.length = 0
  · rw [if_pos empty, if_pos empty, List.length_eq_zero_iff.mp empty]
    exact .copied rfl (.refl sound)
  · rw [if_neg empty, if_neg empty]
    exact copies_copyBytes sound empty

/-- A table, when its entries are copied. -/
theorem copies_cloneIntoPlace (sound : before.Sound) {entries : List StoredEntry}
    (looped : ∀ {middle : Arena}, middle.Sound →
      Copies eraseEntries entriesRegions (EntriesCopyable entries) middle
        (cloneTableEntries (eraseEntries entries) []) (cloneStoredEntries entries middle)) :
    Copies StoredTable.erase StoredTable.regions
      (Requestable (entries.length * sizeofTableEntry) ∧ EntriesCopyable entries) before
      (amqpTableClone (eraseEntries entries) [])
      (cloneIntoPlace entries (cloneStoredEntries entries) before) := by
  unfold cloneIntoPlace amqpTableClone
  cases entries with
  | nil => exact .copied rfl (.refl sound)
  | cons entry entries =>
      rw [if_neg (by simp [eraseEntries]), if_neg (by simp)]
      refine Copies.bind ((copies_takeRegion sound).weaken
        fun copyable => ⟨copyable.1, by simp [sizeofTableEntry]⟩) fun region middle occupied => ?_
      have rest := ((looped occupied.sound).weaken
        (@And.right (Requestable ((entry :: entries).length * sizeofTableEntry)) _)).after occupied
      rw [← id_map (cloneTableEntries (eraseEntries (entry :: entries)))]
      exact rest.map (fun _ => rfl) fun _ => rfl

end Copying

theorem amqpFieldValueClone_table (entries : List TableEntry) :
    amqpFieldValueClone (.table entries) = .table <$> amqpTableClone entries := by
  cases entries with
  | nil => rfl
  | cons entry entries =>
      rw [amqpTableClone, if_neg (by simp), map_bind]
      rfl

theorem entriesCopyable_cons {entry : StoredEntry} {entries : List StoredEntry} :
    EntriesCopyable (entry :: entries) ↔ EntriesCopyable [entry] ∧ EntriesCopyable entries := by
  cases entry
  simp [EntriesCopyable]

mutual

theorem copies_storedFieldValueClone : (value : StoredValue) →
    {before : Arena} → before.Sound →
      Copies StoredValue.erase StoredValue.regions value.Copyable before
        (amqpFieldValueClone value.erase []) (storedFieldValueClone value before)
  | .scalar value, before, sound => by
      cases value <;> exact .copied rfl (.refl sound)
  | .utf8 bytes, before, sound =>
      (copies_storedBytesClone sound).map (fun _ => rfl) fun _ => rfl
  | .bytes bytes, before, sound =>
      (copies_storedBytesClone sound).map (fun _ => rfl) fun _ => rfl
  | .nullArray, before, sound => .copied rfl (.refl sound)
  | .array place [], before, sound => .scarce (fun copyable => absurd rfl copyable.1) (.refl sound)
  | .array place (entry :: entries), before, sound => by
      unfold storedFieldValueClone
      simp only [StoredValue.erase, eraseValues, amqpFieldValueClone]
      refine Copies.bind ((copies_takeRegion sound).weaken
        fun copyable => ⟨copyable.2.1, by simp [sizeofFieldValue]⟩) fun region middle occupied => ?_
      have rest := ((copies_cloneStoredValues (entry :: entries) occupied.sound).weaken
        fun copyable : StoredValue.Copyable (.array place (entry :: entries)) =>
          copyable.2.2).after occupied
      exact rest.map (fun _ => rfl) fun _ => rfl
  | .table place entries, before, sound => by
      have whole := copies_cloneIntoPlace sound fun middleSound =>
        copies_cloneStoredEntries entries middleSound
      rw [StoredValue.erase, amqpFieldValueClone_table]
      exact whole.map (fun _ => rfl) fun _ => rfl
  | .unknown kind, before, sound => .refused rfl (.refl sound)

theorem copies_cloneStoredValues : (entries : List StoredValue) →
    {before : Arena} → before.Sound →
      Copies eraseValues valuesRegions (ValuesCopyable entries) before
        (cloneArrayEntries (eraseValues entries) []) (cloneStoredValues entries before)
  | [], before, sound => .copied rfl (.refl sound)
  | entry :: entries, before, sound => by
      have first := copies_storedFieldValueClone entry sound
      refine (first.weaken And.left).bind fun clone middle occupied => ?_
      have rest := copies_cloneStoredValues entries occupied.sound
      exact ((rest.weaken And.right).after occupied).bind_pure (fun _ => rfl) fun _ => rfl

theorem copies_storedTableEntryClone : (entry : StoredEntry) →
    {before : Arena} → before.Sound →
      Copies StoredEntry.erase StoredEntry.regions (EntriesCopyable [entry]) before
        (amqpTableEntryClone entry.erase []) (storedTableEntryClone entry before)
  | .mk key value, before, sound => by
      unfold storedTableEntryClone
      rw [StoredEntry.erase, amqpTableEntryClone]
      by_cases empty : key.octets.length = 0
      · rw [if_pos empty, if_pos empty]
        exact .refused rfl (.refl sound)
      · rw [if_neg empty, if_neg empty]
        have first := (copies_copyBytes sound empty).weaken
          fun copyable : EntriesCopyable [.mk key value] => copyable.1.1
        have shape : (poolAlloc >>= fun _ => amqpFieldValueClone value.erase >>= fun clone =>
              pure (TableEntry.mk key.octets clone)) =
            ((poolAlloc >>= fun _ => pure key.octets) >>= fun octets =>
              amqpFieldValueClone value.erase >>= fun clone => pure (.mk octets clone)) := by
          rw [bind_assoc]
          rfl
        rw [shape]
        refine first.bind fun keyClone middle occupied => ?_
        have rest := copies_storedFieldValueClone value occupied.sound
        exact ((rest.weaken fun copyable => copyable.1.2).after occupied).bind_pure
          (fun _ => rfl) fun _ => rfl

theorem copies_cloneStoredEntries : (entries : List StoredEntry) →
    {before : Arena} → before.Sound →
      Copies eraseEntries entriesRegions (EntriesCopyable entries) before
        (cloneTableEntries (eraseEntries entries) []) (cloneStoredEntries entries before)
  | [], before, sound => .copied rfl (.refl sound)
  | entry :: entries, before, sound => by
      have first := copies_storedTableEntryClone entry sound
      refine (first.weaken fun copyable => (entriesCopyable_cons.mp copyable).1).bind
        fun clone middle occupied => ?_
      have rest := copies_cloneStoredEntries entries occupied.sound
      exact ((rest.weaken fun copyable => (entriesCopyable_cons.mp copyable).2).after
        occupied).bind_pure (fun _ => rfl) fun _ => rfl

end

/-! ## The places of a copy -/

/-- What takes up memory has a place that is large enough. -/
def PlaceHolds (place : Option Region) (amount : Nat) : Prop :=
  amount ≠ 0 → ∃ region, place = some region ∧ amount ≤ region.size

mutual

def StoredValue.Housed : StoredValue → Prop
  | .utf8 bytes => PlaceHolds bytes.place bytes.octets.length
  | .bytes bytes => PlaceHolds bytes.place bytes.octets.length
  | .array place entries =>
      PlaceHolds (some place) (entries.length * sizeofFieldValue) ∧ ValuesHoused entries
  | .table place entries =>
      PlaceHolds place (entries.length * sizeofTableEntry) ∧ EntriesHoused entries
  | _ => True

def ValuesHoused : List StoredValue → Prop
  | [] => True
  | entry :: entries => entry.Housed ∧ ValuesHoused entries

def StoredEntry.Housed : StoredEntry → Prop
  | .mk key value => PlaceHolds key.place key.octets.length ∧ value.Housed

def EntriesHoused : List StoredEntry → Prop
  | [] => True
  | entry :: entries => entry.Housed ∧ EntriesHoused entries

end

def StoredTable.Housed (table : StoredTable) : Prop :=
  PlaceHolds table.place (table.entries.length * sizeofTableEntry) ∧ EntriesHoused table.entries

/-- A step that returns what holds, when the pool is sound. -/
def Houses {α : Type} (run : Allocating α) (holds : α → Prop) : Prop :=
  Triple Arena.Sound run (fun value arena => holds value ∧ arena.Sound) fun _ _ => True

section Places

variable {α β : Type} {run : Allocating α} {holds : α → Prop} {ended : β → Prop}

theorem houses_pure {value : α} (isHeld : holds value) : Houses (pure value) holds :=
  .pure fun _ sound => ⟨isHeld, sound⟩

theorem houses_throw {failure : Failure} : Houses (throw failure) holds :=
  .throw fun _ _ => trivial

theorem Houses.bind {next : α → Allocating β} (first : Houses run holds)
    (second : ∀ value, holds value → Houses (next value) ended) : Houses (run >>= next) ended := by
  refine Triple.bind first fun value => ?_
  rintro arena ⟨isHeld, sound⟩
  exact second value isHeld sound

theorem Houses.map {change : α → β} (first : Houses run holds)
    (changes : ∀ value, holds value → ended (change value)) : Houses (change <$> run) ended :=
  first.bind fun value isHeld => houses_pure (changes value isHeld)

theorem houses_takeRegion {amount : Nat} (requestable : Requestable amount) :
    Houses (takeRegion amount) fun region => amount ≤ region.size := by
  intro arena sound
  have answer := amqpPoolAlloc_spec sound amount
  unfold takeRegion
  cases ran : amqpPoolAlloc amount arena with
  | error failure after =>
      rw [ran] at answer
      cases answer
  | ok found after =>
      rw [ran] at answer
      rw [bind_of_ok ran]
      cases answer with
      | granted occupied size _ =>
          refine ⟨?_, ⟨occupied.sound.used, occupied.sound.pages, occupied.sound.nodup,
            occupied.sound.current⟩⟩
          have large : amount ≤ roundUp amount :=
            le_roundUp (by unfold Requestable at requestable; omega)
          rwa [← size] at large
      | refused occupied unavailable => trivial

theorem houses_copyBytes {bytes : StoredBytes} (requestable : Requestable bytes.octets.length) :
    Houses (copyBytes bytes) fun clone =>
      clone.octets = bytes.octets ∧ PlaceHolds clone.place clone.octets.length := by
  refine (houses_takeRegion requestable).bind fun region fits => houses_pure ⟨rfl, ?_⟩
  intro _
  exact ⟨region, rfl, fits⟩

theorem houses_storedBytesClone {bytes : StoredBytes}
    (requestable : Requestable bytes.octets.length) :
    Houses (storedBytesClone bytes) fun clone => PlaceHolds clone.place clone.octets.length := by
  refine Triple.ite (fun _ => ?_) fun _ => ?_
  · exact houses_pure fun nonempty => absurd rfl nonempty
  · exact (houses_copyBytes requestable).weaken fun _ _ isHeld => ⟨isHeld.1.2, isHeld.2⟩

theorem houses_cloneIntoPlace {entries : List StoredEntry}
    {loop : Allocating (List StoredEntry)}
    (requestable : Requestable (entries.length * sizeofTableEntry))
    (looped : Houses loop fun clones =>
      clones.length = entries.length ∧ EntriesHoused clones) :
    Houses (cloneIntoPlace entries loop) StoredTable.Housed := by
  refine Triple.ite (fun _ => ?_) fun _ => ?_
  · exact houses_pure ⟨fun nonempty => absurd rfl nonempty, trivial⟩
  · refine (houses_takeRegion requestable).bind fun region fits => looped.map ?_
    rintro clones ⟨same, housed⟩
    refine ⟨fun _ => ⟨region, rfl, ?_⟩, housed⟩
    rwa [same]

mutual

theorem houses_storedFieldValueClone : (value : StoredValue) → value.Copyable →
    Houses (storedFieldValueClone value) StoredValue.Housed
  | .scalar value, _ => houses_pure trivial
  | .utf8 bytes, copyable => (houses_storedBytesClone copyable).map fun _ isHeld => isHeld
  | .bytes bytes, copyable => (houses_storedBytesClone copyable).map fun _ isHeld => isHeld
  | .nullArray, _ => houses_pure trivial
  | .array place entries, copyable => by
      refine (houses_takeRegion copyable.2.1).bind fun region fits => ?_
      refine (houses_cloneStoredValues entries copyable.2.2).map fun clones isHeld => ?_
      refine ⟨fun _ => ⟨region, rfl, ?_⟩, isHeld.2⟩
      rwa [isHeld.1]
  | .table place entries, copyable =>
      (houses_cloneIntoPlace copyable.1 (houses_cloneStoredEntries entries copyable.2)).map
        fun _ isHeld => isHeld
  | .unknown kind, _ => houses_throw

theorem houses_cloneStoredValues : (entries : List StoredValue) → ValuesCopyable entries →
    Houses (cloneStoredValues entries) fun clones =>
      clones.length = entries.length ∧ ValuesHoused clones
  | [], _ => houses_pure ⟨rfl, trivial⟩
  | entry :: entries, copyable => by
      refine (houses_storedFieldValueClone entry copyable.1).bind fun clone first => ?_
      refine (houses_cloneStoredValues entries copyable.2).bind fun clones rest => ?_
      exact houses_pure ⟨by simp [rest.1], first, rest.2⟩

theorem houses_storedTableEntryClone : (entry : StoredEntry) → EntriesCopyable [entry] →
    Houses (storedTableEntryClone entry) StoredEntry.Housed
  | .mk key value, copyable => by
      refine Triple.ite (fun _ => houses_throw) fun _ => ?_
      refine (houses_copyBytes copyable.1.1).bind fun keyClone first => ?_
      refine (houses_storedFieldValueClone value copyable.1.2).bind fun clone rest => ?_
      exact houses_pure ⟨first.2, rest⟩

theorem houses_cloneStoredEntries : (entries : List StoredEntry) → EntriesCopyable entries →
    Houses (cloneStoredEntries entries) fun clones =>
      clones.length = entries.length ∧ EntriesHoused clones
  | [], _ => houses_pure ⟨rfl, trivial⟩
  | entry :: entries, copyable => by
      have both := entriesCopyable_cons.mp copyable
      refine (houses_storedTableEntryClone entry both.1).bind fun clone first => ?_
      refine (houses_cloneStoredEntries entries both.2).bind fun clones rest => ?_
      exact houses_pure ⟨by simp [rest.1], first, rest.2⟩

end

end Places

/-! ## Deep copies -/

/-- The table lies in memory that is in use. -/
def StoredTable.Live (table : StoredTable) (arena : Arena) : Prop :=
  ∀ region ∈ table.regions, ∀ block byte, region.Covers block byte → ¬ arena.Free block byte

/-- The clone equals the original, and all its parts are in memory of their own: it was free, it
belongs to the pool, and nothing of the original is there. -/
structure DeepCopy (original clone : StoredTable) (before after : Arena) : Prop where
  same : clone.erase = original.erase
  housed : clone.Housed
  free : ∀ region ∈ clone.regions, region.FreeIn before
  apart : clone.regions.Pairwise Region.Apart
  owned : ∀ region ∈ clone.regions, region.block ∈ after.pool.blocks
  unshared : ∀ region ∈ clone.regions, ∀ other ∈ original.regions, region.Apart other

theorem copies_storedTableClone {table : StoredTable} {before : Arena} (sound : before.Sound) :
    Copies StoredTable.erase StoredTable.regions table.Copyable before
      (amqpTableClone table.erase []) (storedTableClone table before) :=
  copies_cloneIntoPlace sound fun middleSound =>
    copies_cloneStoredEntries table.entries middleSound

theorem houses_storedTableClone {table : StoredTable} (copyable : table.Copyable) :
    Houses (storedTableClone table) StoredTable.Housed :=
  houses_cloneIntoPlace copyable.1 (houses_cloneStoredEntries table.entries copyable.2)

/-- With memory available, a table is copied exactly when all its keys and kinds can be. -/
theorem storedTableClone_deepCopy {original : StoredTable} {before : Arena}
    (sound : before.Sound) (recorded : before.pool.Recorded)
    (pagesize : before.pool.pagesize < 2 ^ 63) (granted : false ∉ before.heap.allocs)
    (copyable : original.Copyable) (live : original.Live before) :
    (original.erase.Every Component.Clonable →
      ∃ clone after, storedTableClone original before = .ok clone after ∧
        DeepCopy original clone before after) ∧
      (¬ original.erase.Every Component.Clonable →
        ∃ after, storedTableClone original before =
          .error (.status .invalidParameter) after) := by
  have available : ¬ Scarce before := by
    rintro (large | refuses)
    · omega
    · exact granted refuses
  have copies := @copies_storedTableClone original before sound
  constructor
  · intro clonable
    have values := amqpTableClone_granted clonable
    cases ran : storedTableClone original before with
    | ok clone after =>
        rw [ran, values] at copies
        cases copies with
        | copied same occupied =>
            injection same with same
            refine ⟨clone, after, rfl, same.symm,
              ((houses_storedTableClone copyable).ok sound ran).1, occupied.free, occupied.apart,
              (occupied.owned recorded granted).2, ?_⟩
            intro region isClone other isOriginal block byte covers otherCovers
            exact live other isOriginal block byte otherCovers
              (occupied.free region isClone block byte covers)
    | error failure after =>
        rw [ran, values] at copies
        cases copies with
        | refused same _ => cases same
        | scarce reason _ => exact absurd (reason copyable) available
  · intro unclonable
    have values : amqpTableClone original.erase [] = _ := amqpTableClone_refused unclonable
    cases ran : storedTableClone original before with
    | ok clone after =>
        rw [ran, values] at copies
        cases copies with
        | copied same _ => cases same
    | error failure after =>
        rw [ran, values] at copies
        cases copies with
        | refused same _ =>
            injection same with same
            exact ⟨after, by rw [same]⟩
        | scarce reason _ => exact absurd (reason copyable) available

/-- An array with a string in it under a key, in one block. -/
def storedArray : StoredTable where
  place := some ⟨0, 0, 40⟩
  entries :=
    [.mk ⟨[107], some ⟨0, 40, 1⟩⟩ (.array ⟨0, 48, 24⟩ [.utf8 ⟨[104, 105], some ⟨0, 72, 2⟩⟩])]

/-- A new pool next to it. -/
def besideStoredArray : Arena := ⟨⟨[80], [], []⟩, initAmqpPool 4096, []⟩

theorem storedTableClone_deepCopy_array :
    ∃ clone after, storedTableClone storedArray besideStoredArray = .ok clone after ∧
      DeepCopy storedArray clone besideStoredArray after := by
  refine (storedTableClone_deepCopy (sound_initAmqpPool 4096) ?_ (by decide) (by decide)
    ?_ ?_).1 ?_
  · rintro _ ⟨⟩
  · simp [StoredTable.Copyable, storedArray, EntriesCopyable, StoredValue.Copyable,
      ValuesCopyable, Requestable, sizeofTableEntry, sizeofFieldValue]
  · rintro region member block byte covers (later | ⟨isCurrent, _⟩ | inPages)
    · have inBlock : region.block = 0 := by
        simp only [StoredTable.regions, storedArray, entriesRegions, StoredEntry.regions,
          StoredValue.regions, valuesRegions, Option.toList, List.mem_append, List.mem_cons,
          List.not_mem_nil, or_false] at member
        rcases member with rfl | rfl | rfl | rfl <;> rfl
      rw [covers.1, inBlock] at later
      cases later
    · cases isCurrent
    · cases inPages
  · simp [Table.Every, StoredTable.erase, storedArray, eraseEntries, StoredEntry.erase,
      StoredValue.erase, eraseValues, FieldValue.components, tableComponents,
      TableEntry.components, arrayComponents, Component.Clonable, Component.Known,
      Component.Named]

end RabbitmqC
