import RabbitmqC.Connection.FrameOutput
import RabbitmqC.Table.Overflow

/-!
# Room in the outbound buffer

The codecs are given the length of their part of the outbound buffer, and store
nothing outside of it. What `amqp_frame_to_bytes` stores itself, it stores without
a test: in a buffer of at least 20 octets the lengths for the codecs are right, and
there is room for everything but a body that is too long.
-/

set_option autoImplicit false

namespace RabbitmqC

open Effect

/-! ## Encoders -/

/-- A memory of `size` octets, and an offset at most `slack` octets past the view. -/
structure Roomy (view : View) (size slack : Nat) (state : EncodeState) : Prop where
  size : state.mem.size = size
  offset : state.offset ≤ view.len + slack

def Failure.Contained (failure : Failure) : Prop := failure ≠ .fault .outOfBoundsWrite

theorem contained_wrongObject : (Failure.fault .wrongObject).Contained := nofun

theorem contained_invalidParameter : (Failure.status .invalidParameter).Contained := nofun

/-- The encoder does not store anything outside of the memory. -/
abbrev Inside {α : Type} (view : View) (size before after : Nat) (encode : Encoder α) : Prop :=
  Triple (Roomy view size before) encode (fun _ => Roomy view size after)
    (fun failure _ => failure.Contained)

section Encoders

variable {view : View} {size slack after : Nat}

theorem Roomy.mono {state : EncodeState} {more : Nat} (roomy : Roomy view size slack state)
    (atMost : slack ≤ more) : Roomy view size more state :=
  ⟨roomy.size, by have := roomy.offset; omega⟩

theorem Inside.orFail {encode : Encoder Bool} {status : Status}
    (stores : Triple (Roomy view size slack) encode
      (fun stored state => stored = true → Roomy view size after state)
      (fun failure _ => failure.Contained)) :
    Inside view size slack after (encode.orFail status) := by
  apply Triple.bind stores
  intro stored
  cases stored with
  | true => exact .pure fun _ holds => holds rfl
  | false => exact .throw fun _ _ => nofun

variable (inside : view.base + view.len ≤ size)

include inside

/-- The test and the store that the word and byte string encoders end with. -/
theorem bounded_store {data : List UInt8} {next : Nat} {state : EncodeState}
    (roomy : Roomy view size slack state) (short : state.offset + data.length < 2 ^ 64)
    (isNext : sizeAdd state.offset data.length = next) :
    Triple (state = ·)
      (if next ≤ view.len then store view data next
        else do set { state with offset := next }; return false : Encoder Bool)
      (fun stored after => stored = true → Roomy view size 0 after)
      (fun failure _ => failure.Contained) := by
  rw [sizeAdd_of_lt short] at isNext
  subst isNext
  apply Triple.ite
  · rintro fits _ rfl
    obtain ⟨mem, written⟩ := @Buffer.write?_isSome state.mem (view.base + state.offset) data
      (by rw [roomy.size]; omega)
    unfold store
    rw [written]
    exact fun _ => ⟨(Buffer.size_of_write? written).trans roomy.size, fits⟩
  · rintro _ _ rfl
    exact nofun

variable (small : view.len < 2 ^ 31) (slight : slack ≤ 4)

include small slight

theorem inside_word {width input : Nat} {status : Status} (narrow : width ≤ 8) :
    Inside view size slack 0 ((encodeWord width view input).orFail status) := by
  apply Inside.orFail
  apply Triple.get_bind
  intro state roomy
  have near := roomy.offset
  have length := BigEndian.length_bytes width input
  exact bounded_store inside roomy (by omega) (by rw [length])

theorem inside_bytes {input : List UInt8} {status : Status} (object : input.length < 2 ^ 63) :
    Inside view size slack slack ((amqpEncodeBytes view input).orFail status) := by
  apply Inside.orFail
  unfold amqpEncodeBytes
  apply Triple.ite
  · intro _
    exact .pure fun _ roomy _ => roomy
  · intro _
    apply Triple.get_bind
    intro state roomy
    have near := roomy.offset
    apply (bounded_store inside roomy (by omega) rfl).weaken
    intro stored after still isStored
    exact (still isStored).mono (Nat.zero_le _)

theorem inside_string {width input : Nat} {bytes : List UInt8} {first second : Status}
    (narrow : width ≤ 8) (object : bytes.length < 2 ^ 63) :
    Inside view size slack 0 (do
      (encodeWord width view input).orFail first
      (amqpEncodeBytes view bytes).orFail second) := by
  apply Triple.bind (inside_word inside small slight narrow)
  intro _
  exact inside_bytes inside small (Nat.zero_le _) object

end Encoders

/-! ## Tables -/

section Tables

variable {view : View} {size : Nat}

theorem roomy_skipSize {state : EncodeState} (small : view.len < 2 ^ 31)
    (roomy : Roomy view size 0 state) :
    Roomy view size 4 ⟨state.mem, sizeAdd state.offset 4⟩ := by
  have near := roomy.offset
  refine ⟨roomy.size, ?_⟩
  rw [sizeAdd_of_lt (by omega)]
  show state.offset + 4 ≤ view.len + 4
  omega

variable (inside : view.base + view.len ≤ size) (small : view.len < 2 ^ 31)

include inside small

/-- The size word is stored where the table starts, if there is room for it there. -/
theorem patchSize_of_roomy {start slack : Nat} {state : EncodeState} (near : start ≤ view.len)
    (roomy : Roomy view size slack state) :
    (∃ patched, patchSize view start state = .ok () patched ∧ patched.mem.size = size ∧
      patched.offset = state.offset ∧ start + 4 ≤ view.len) ∨
    ∃ failure patched, patchSize view start state = .error failure patched ∧
      failure.Contained := by
  have word := @inside_word view size 0 inside small (Nat.zero_le _) 4
    (UInt32.ofNat (sizeSub (sizeSub state.offset start) 4)).toNat .tableTooBig (by decide)
  have begins : Roomy view size 0 ⟨state.mem, start⟩ := ⟨roomy.size, near⟩
  unfold patchSize amqpEncode32
  dsimp only
  cases stored : (encodeWord 4 view (UInt32.ofNat (sizeSub (sizeSub state.offset start) 4)).toNat
      |>.orFail .tableTooBig) ⟨state.mem, start⟩ with
  | ok _ patched =>
      have still := word.ok begins stored
      have moved := (emits_encodeWord stored).offset
      rw [BigEndian.length_bytes] at moved
      have bound := still.offset
      exact .inl ⟨_, rfl, still.size, rfl, by simp only at moved; omega⟩
  | error failure patched => exact .inr ⟨failure, _, rfl, word.error begins stored⟩

theorem inside_sized_empty : Inside view size 0 0 (encodeSized view (pure ())) := by
  rintro state roomy
  have near := roomy.offset
  have skipped := roomy_skipSize small roomy
  unfold encodeSized
  rw [bind_of_ok (show skipSize state = .ok state.offset ⟨state.mem, sizeAdd state.offset 4⟩ from
    rfl)]
  rw [bind_of_ok (pure_run _ _)]
  rcases patchSize_of_roomy inside small near skipped with
    ⟨patched, returned, sameSize, offset, room⟩ | ⟨failure, patched, raised, contained⟩
  · rw [returned]
    refine ⟨sameSize, ?_⟩
    rw [offset, sizeAdd_of_lt (by omega)]
    exact room
  · rw [raised]
    exact contained

theorem inside_sized {loop : Encoder Unit} (stays : Inside view size 4 0 loop) :
    Inside view size 0 0 (encodeSized view loop) := by
  intro state roomy
  have near := roomy.offset
  have skipped := roomy_skipSize small roomy
  unfold encodeSized
  rw [bind_of_ok (show skipSize state = .ok state.offset ⟨state.mem, sizeAdd state.offset 4⟩ from
    rfl)]
  cases looped : loop ⟨state.mem, sizeAdd state.offset 4⟩ with
  | error failure after =>
      rw [bind_of_error looped]
      exact stays.error skipped looped
  | ok _ after =>
      rw [bind_of_ok looped]
      have ended := stays.ok skipped looped
      rcases patchSize_of_roomy inside small near ended with
        ⟨patched, returned, sameSize, offset, _⟩ | ⟨failure, patched, raised, contained⟩
      · rw [returned]
        exact ⟨sameSize, offset ▸ ended.offset⟩
      · rw [raised]
        exact contained

omit inside small

mutual

theorem inside_fieldValue (inside : view.base + view.len ≤ size)
    (small : view.len < 2 ^ 31) (entry : FieldValue)
    (objects : ∀ component ∈ entry.components, component.Object) :
    Inside view size 4 0 (amqpEncodeFieldValue view entry) := by
  have word {width input : Nat} {status : Status} (narrow : width ≤ 8) :
      Inside view size 0 0 ((encodeWord width view input).orFail status) :=
    inside_word inside small (Nat.zero_le _) narrow
  unfold amqpEncodeFieldValue
  apply Triple.bind (inside_word inside small (Nat.le_refl _) (by decide))
  intro _
  cases entry with
  | boolean value => exact word (by decide)
  | i8 value => exact word (by decide)
  | u8 value => exact word (by decide)
  | i16 value => exact word (by decide)
  | u16 value => exact word (by decide)
  | i32 value => exact word (by decide)
  | u32 value => exact word (by decide)
  | i64 value => exact word (by decide)
  | u64 value => exact word (by decide)
  | f32 bits => exact word (by decide)
  | f64 bits => exact word (by decide)
  | decimal decimals value => exact Triple.bind (word (by decide)) fun _ => word (by decide)
  | utf8 bytes =>
      have object : bytes.length < 2 ^ 63 := objects (.value (.utf8 bytes)) List.mem_cons_self
      exact inside_string inside small (Nat.zero_le _) (by decide) object
  | bytes bytes =>
      have object : bytes.length < 2 ^ 63 := objects (.value (.bytes bytes)) List.mem_cons_self
      exact inside_string inside small (Nat.zero_le _) (by decide) object
  | timestamp value => exact word (by decide)
  | void => exact .pure fun _ roomy => roomy
  | unknown kind => exact .throw fun _ _ => nofun
  | array entries =>
      have parts : ∀ component ∈ arrayComponents entries, component.Object := by
        intro component member
        exact objects component (List.mem_cons_of_mem _ member)
      exact inside_array inside small entries parts
  | table entries =>
      have parts : ∀ component ∈ tableComponents entries, component.Object := by
        intro component member
        exact objects component (List.mem_cons_of_mem _ member)
      exact inside_table inside small entries parts

theorem inside_array (inside : view.base + view.len ≤ size)
    (small : view.len < 2 ^ 31) (entries : List FieldValue)
    (objects : ∀ component ∈ arrayComponents entries, component.Object) :
    Inside view size 0 0 (encodeSized view (encodeArrayEntries view entries)) := by
  cases entries with
  | nil => exact inside_sized_empty inside small
  | cons entry entries =>
      obtain ⟨head, tail⟩ := List.forall_mem_append.mp objects
      apply inside_sized inside small
      exact Triple.bind (inside_fieldValue inside small entry head) fun _ =>
        inside_arrayEntries inside small entries tail

theorem inside_arrayEntries (inside : view.base + view.len ≤ size)
    (small : view.len < 2 ^ 31) (entries : List FieldValue)
    (objects : ∀ component ∈ arrayComponents entries, component.Object) :
    Inside view size 0 0 (encodeArrayEntries view entries) := by
  cases entries with
  | nil => exact .pure fun _ roomy => roomy
  | cons entry entries =>
      obtain ⟨head, tail⟩ := List.forall_mem_append.mp objects
      apply Triple.bind ((inside_fieldValue inside small entry head).strengthen fun _ roomy =>
        roomy.mono (Nat.zero_le _))
      intro _
      exact inside_arrayEntries inside small entries tail

theorem inside_table (inside : view.base + view.len ≤ size)
    (small : view.len < 2 ^ 31) (entries : List TableEntry)
    (objects : ∀ component ∈ tableComponents entries, component.Object) :
    Inside view size 0 0 (encodeSized view (encodeTableEntries view entries)) := by
  cases entries with
  | nil => exact inside_sized_empty inside small
  | cons entry entries =>
      obtain ⟨head, tail⟩ := List.forall_mem_append.mp objects
      apply inside_sized inside small
      exact Triple.bind (inside_tableEntry inside small entry head) fun _ =>
        inside_tableEntries inside small entries tail

theorem inside_tableEntry (inside : view.base + view.len ≤ size)
    (small : view.len < 2 ^ 31) (entry : TableEntry)
    (objects : ∀ component ∈ entry.components, component.Object) :
    Inside view size 4 0 (encodeTableEntry view entry) := by
  cases entry with
  | mk key value =>
      obtain ⟨object, parts⟩ := List.forall_mem_cons.mp objects
      apply Triple.bind (inside_word inside small (Nat.le_refl _) (by decide))
      intro _
      apply Triple.bind (inside_bytes inside small (Nat.zero_le _) object)
      intro _
      exact (inside_fieldValue inside small value parts).strengthen fun _ roomy =>
        roomy.mono (Nat.zero_le _)

theorem inside_tableEntries (inside : view.base + view.len ≤ size)
    (small : view.len < 2 ^ 31) (entries : List TableEntry)
    (objects : ∀ component ∈ tableComponents entries, component.Object) :
    Inside view size 0 0 (encodeTableEntries view entries) := by
  cases entries with
  | nil => exact .pure fun _ roomy => roomy
  | cons entry entries =>
      obtain ⟨head, tail⟩ := List.forall_mem_append.mp objects
      apply Triple.bind ((inside_tableEntry inside small entry head).strengthen fun _ roomy =>
        roomy.mono (Nat.zero_le _))
      intro _
      exact inside_tableEntries inside small entries tail

end

end Tables

/-! ## Methods and properties -/

/-- The strings in a member's tables are objects of C. -/
def Domain.Objects : (domain : Domain) → domain.Value → Prop
  | .table, value => Table.Every Component.Object value
  | _, _ => True

def FieldsObjects : (domains : List Domain) → Fields domains → Prop
  | [], _ => True
  | domain :: domains, (value, values) => domain.Objects value ∧ FieldsObjects domains values

def DeclaredObjects : (declared : Option (List Domain)) → DeclaredFields declared → Prop
  | some domains, fields => FieldsObjects domains fields
  | none, _ => True

def PropertiesObjects : (properties : List Property) → PropertyFields properties → Prop
  | [], _ => True
  | property :: properties, (field, fields) =>
      (∀ value, field = some value → property.domain.Objects value) ∧
        PropertiesObjects properties fields

def DeclaredPropertiesObjects :
    (declared : Option (List Property)) → DeclaredProperties declared → Prop
  | some properties, fields => PropertiesObjects properties fields
  | none, _ => True

section Fields

variable {view : View} {size : Nat} (inside : view.base + view.len ≤ size)
  (small : view.len < 2 ^ 31)

include inside small

theorem inside_field (domain : Domain) (value : domain.Value) (objects : domain.Objects value) :
    Inside view size 0 0 (encodeField view domain value) := by
  have word {width input : Nat} {status : Status} (narrow : width ≤ 8) :
      Inside view size 0 0 ((encodeWord width view input).orFail status) :=
    inside_word inside small (Nat.zero_le _) narrow
  cases domain with
  | octet => exact word (by decide)
  | short => exact word (by decide)
  | long => exact word (by decide)
  | longlong => exact word (by decide)
  | bits count => exact word (by decide)
  | shortstr =>
      apply Triple.ite
      · intro _
        exact .throw fun _ _ => nofun
      · intro fits
        unfold uint8Max at fits
        exact inside_string inside small (Nat.zero_le _) (by decide) (by omega)
  | longstr =>
      apply Triple.ite
      · intro _
        exact .throw fun _ _ => nofun
      · intro fits
        unfold uint32Max at fits
        exact inside_string inside small (Nat.zero_le _) (by decide) (by omega)
  | table => exact inside_table inside small value (List.forall_mem_cons.mp objects).2

theorem inside_fields (domains : List Domain) (fields : Fields domains)
    (objects : FieldsObjects domains fields) :
    Inside view size 0 0 (encodeFields view domains fields) := by
  induction domains with
  | nil => exact .pure fun _ roomy => roomy
  | cons domain domains ih =>
      apply Triple.bind (inside_field inside small domain fields.1 objects.1)
      intro _
      exact ih fields.2 objects.2

theorem inside_declared (declared : Option (List Domain)) (fields : DeclaredFields declared)
    (objects : DeclaredObjects declared fields) :
    Inside view size 0 0 (encodeDeclared view declared fields) := by
  cases declared with
  | none => exact .throw fun _ _ => nofun
  | some domains => exact inside_fields inside small domains fields objects

theorem inside_flagWords (turns : Nat) (remainingFlags : UInt32) :
    Inside view size 0 0 (encodeFlagWords view turns remainingFlags) := by
  induction turns generalizing remainingFlags with
  | zero => exact .pure fun _ roomy => roomy
  | succ turns ih =>
      apply Triple.bind (inside_word inside small (Nat.zero_le _) (by decide))
      intro _
      apply Triple.ite
      · intro _
        exact ih _
      · intro _
        exact .pure fun _ roomy => roomy

theorem inside_property (flags : UInt32) (property : Property)
    (field : Option property.domain.Value)
    (objects : ∀ value, field = some value → property.domain.Objects value) :
    Inside view size 0 0 (encodeProperty view flags property field) := by
  cases field with
  | some value =>
      apply Triple.ite
      · intro _
        exact inside_field inside small property.domain value (objects value rfl)
      · intro _
        exact .pure fun _ roomy => roomy
  | none =>
      apply Triple.ite
      · intro _
        exact .throw fun _ _ => nofun
      · intro _
        exact .pure fun _ roomy => roomy

theorem inside_properties (flags : UInt32) (properties : List Property)
    (fields : PropertyFields properties) (objects : PropertiesObjects properties fields) :
    Inside view size 0 0 (encodeProperties view flags properties fields) := by
  induction properties with
  | nil => exact .pure fun _ roomy => roomy
  | cons property properties ih =>
      apply Triple.bind (inside_property inside small flags property fields.1 objects.1)
      intro _
      exact ih fields.2 objects.2

theorem inside_declaredProperties (flags : UInt32) (declared : Option (List Property))
    (fields : DeclaredProperties declared) (objects : DeclaredPropertiesObjects declared fields) :
    Inside view size 0 0 (encodeDeclaredProperties view flags declared fields) := by
  cases declared with
  | none => exact .throw fun _ _ => nofun
  | some properties => exact inside_properties inside small flags properties fields objects

end Fields

/-! ## Frames -/

/-- The frame is one that can be sent with fragments of at most `usable` octets. -/
def Payload.Sendable (usable : Nat) : Payload → Prop
  | .method id (some decoded) => DeclaredObjects (methodArguments id) decoded
  | .properties classId _ (some decoded) _ =>
      DeclaredPropertiesObjects (classProperties classId) decoded.fields
  | .bodyFragment bytes => bytes.length ≤ usable
  | _ => True

section Frames

variable {size : Nat}

theorem stays_storeOctets {offset : Nat} {data : List UInt8} (room : offset + data.length ≤ size) :
    Triple (fun mem => mem.size = size) (storeOctets offset data) (fun _ mem => mem.size = size)
      (fun failure _ => failure.Contained) := by
  rintro mem rfl
  obtain ⟨written, stored⟩ := Buffer.write?_isSome room
  unfold storeOctets
  rw [stored]
  exact Buffer.size_of_write? stored

theorem stays_fromStart {view : View} {encode : Encoder Unit}
    (stays : Inside view size 0 0 encode) :
    Triple (fun mem => mem.size = size) (fromStart encode)
      (fun count mem => mem.size = size ∧ count ≤ view.len)
      (fun failure _ => failure.Contained) := by
  rintro mem rfl
  have begins : Roomy view mem.size 0 ⟨mem, 0⟩ := ⟨rfl, Nat.zero_le _⟩
  unfold fromStart
  cases encoded : encode ⟨mem, 0⟩ with
  | ok _ after =>
      have ended := stays.ok begins encoded
      exact ⟨ended.size, ended.offset⟩
  | error failure after => exact stays.error begins encoded

variable (large : 20 ≤ size) (bounded : size < 2 ^ 31)

include large bounded

theorem methodRoom_len : (methodRoom size).len = size - 12 := by
  simp only [methodRoom, headerSize, footerSize]
  unfold sizeSub
  omega

theorem propertiesRoom_len : (propertiesRoom size).len = size - 20 := by
  simp only [propertiesRoom, headerSize, footerSize]
  unfold sizeSub
  omega

theorem stays_method {id : UInt32} {decoded : MethodFields id}
    (objects : DeclaredObjects (methodArguments id) decoded) :
    Triple (fun mem => mem.size = size) (do
        storeOctets headerSize (BigEndian.bytes 4 id.toNat)
        let res ← amqpEncodeMethod id decoded (methodRoom size)
        return res + 4)
      (fun count mem => mem.size = size ∧ headerSize + count + 1 ≤ size)
      (fun failure _ => failure.Contained) := by
  have room := methodRoom_len large bounded
  apply Triple.bind (stays_storeOctets (by rw [BigEndian.length_bytes, headerSize]; omega))
  intro _
  apply Triple.bind (stays_fromStart (inside_declared
    (by rw [room]; simp only [methodRoom, headerSize]; omega) (by omega) _ _ objects))
  intro res
  apply Triple.pure
  rintro mem ⟨sameSize, atMost⟩
  exact ⟨sameSize, by rw [headerSize]; omega⟩

theorem stays_properties {classId : UInt16} {bodySize : UInt64} {decoded : Properties classId}
    (objects : DeclaredPropertiesObjects (classProperties classId) decoded.fields) :
    Triple (fun mem => mem.size = size) (do
        storeOctets headerSize (BigEndian.bytes 2 classId.toNat)
        storeOctets (headerSize + 2) (BigEndian.bytes 2 0)
        storeOctets (headerSize + 4) (BigEndian.bytes 8 bodySize.toNat)
        let res ← amqpEncodeProperties classId decoded (propertiesRoom size)
        return res + 12)
      (fun count mem => mem.size = size ∧ headerSize + count + 1 ≤ size)
      (fun failure _ => failure.Contained) := by
  have room := propertiesRoom_len large bounded
  have inside : (propertiesRoom size).base + (propertiesRoom size).len ≤ size := by
    rw [room]
    simp only [propertiesRoom, headerSize]
    omega
  have small : (propertiesRoom size).len < 2 ^ 31 := by omega
  apply Triple.bind (stays_storeOctets (by rw [BigEndian.length_bytes, headerSize]; omega))
  intro _
  apply Triple.bind (stays_storeOctets (by rw [BigEndian.length_bytes, headerSize]; omega))
  intro _
  apply Triple.bind (stays_storeOctets (by rw [BigEndian.length_bytes, headerSize]; omega))
  intro _
  have encodes : Inside (propertiesRoom size) size 0 0 (do
      encodeFlagWords (propertiesRoom size) 2 decoded.flags
      encodeDeclaredProperties (propertiesRoom size) decoded.flags (classProperties classId)
        decoded.fields) := by
    apply Triple.bind (inside_flagWords inside small 2 decoded.flags)
    intro _
    exact inside_declaredProperties inside small decoded.flags _ decoded.fields objects
  apply Triple.bind (stays_fromStart encodes)
  intro res
  apply Triple.pure
  rintro mem ⟨sameSize, atMost⟩
  exact ⟨sameSize, by rw [headerSize]; omega⟩

theorem stays_payloadToBytes {frame : Frame}
    (sendable : frame.payload.Sendable (size - (headerSize + footerSize))) :
    Triple (fun mem => mem.size = size) (payloadToBytes frame size)
      (fun count mem => mem.size = size ∧ headerSize + count + 1 ≤ size)
      (fun failure _ => failure.Contained) := by
  obtain ⟨frameType, channel, payload⟩ := frame
  unfold payloadToBytes
  apply Triple.ite
  · intro _
    cases payload with
    | bodyFragment body =>
        have fits : body.length ≤ size - 8 := sendable
        apply Triple.bind (stays_storeOctets (by rw [headerSize]; omega))
        intro _
        exact .pure fun mem sameSize => ⟨sameSize, by rw [headerSize]; omega⟩
    | _ => exact .throw fun _ _ => contained_wrongObject
  · intro _
    apply Triple.ite
    · intro _
      cases payload with
      | method id decoded =>
          cases decoded with
          | none => exact .throw fun _ _ => contained_wrongObject
          | some decoded => exact stays_method large bounded sendable
      | _ => exact .throw fun _ _ => contained_wrongObject
    · intro _
      apply Triple.ite
      · intro _
        cases payload with
        | properties classId bodySize decoded raw =>
            cases decoded with
            | none => exact .throw fun _ _ => contained_wrongObject
            | some decoded => exact stays_properties large bounded sendable
        | _ => exact .throw fun _ _ => contained_wrongObject
      · intro _
        apply Triple.ite
        · intro _
          exact .pure fun mem sameSize => ⟨sameSize, by rw [headerSize]; omega⟩
        · intro _
          exact .throw fun _ _ => contained_invalidParameter

/-- In a buffer that is not too small, every frame is stored inside of it. -/
theorem stays_amqpFrameToBytes {frame : Frame}
    (sendable : frame.payload.Sendable (size - (headerSize + footerSize))) :
    Triple (fun mem => mem.size = size) (amqpFrameToBytes frame size)
      (fun _ mem => mem.size = size) (fun failure _ => failure.Contained) := by
  apply Triple.bind (stays_storeOctets (by rw [BigEndian.length_bytes]; omega))
  intro _
  apply Triple.bind (stays_storeOctets (by rw [BigEndian.length_bytes]; omega))
  intro _
  apply Triple.bind (stays_payloadToBytes large bounded sendable)
  rintro outFrameLen mem ⟨sameSize, room⟩
  have finishes : Triple (fun mem => mem.size = size) (do
        storeOctets 3 (BigEndian.bytes 4 outFrameLen)
        storeOctets (headerSize + outFrameLen) [amqpFrameEnd]
        return outFrameLen + headerSize + footerSize)
      (fun _ mem => mem.size = size) (fun failure _ => failure.Contained) := by
    apply Triple.bind (stays_storeOctets (by rw [BigEndian.length_bytes]; omega))
    intro _
    apply Triple.bind (stays_storeOctets room)
    intro _
    exact .pure fun _ sameSize => sameSize
  exact finishes sameSize

end Frames

end RabbitmqC
