import RabbitmqC.Framing.Codec

/-!
# Whether an encoder fails

All encoders are composed of the base codec functions, and these look at the
offset and at lengths only. So what the memory holds beforehand does not decide
whether a value can be encoded.
-/

set_option autoImplicit false

namespace RabbitmqC

open Effect

/-! ## Composition -/

/-- What an encoder fails with by itself. -/
def encodeFailures : List Failure :=
  [.status .badAmqpData, .status .tableTooBig, .status .invalidParameter, .status .unknownMethod,
    .status .unknownClass, .fault .wrongObject]

/-- Encoders that touch the memory through the base codec functions alone. -/
inductive Composed (view : View) : {α : Type} → Encoder α → Prop where
  | pure {α : Type} (value : α) : Composed view (pure value)
  | throw {α : Type} {failure : Failure} :
      failure ∈ encodeFailures → Composed view (throw failure : Encoder α)
  | bind {α β : Type} {first : Encoder α} {next : α → Encoder β} :
      Composed view first → (∀ value, Composed view (next value)) → Composed view (first >>= next)
  | word (width input : Nat) : Composed view (encodeWord width view input)
  | bytes (input : List UInt8) : Composed view (amqpEncodeBytes view input)
  | skipSize : Composed view skipSize
  | patchSize (start : Nat) : Composed view (patchSize view start)

namespace Composed

variable {view : View}

theorem orFail {encode : Encoder Bool} {status : Status} (composed : Composed view encode)
    (expected : .status status ∈ encodeFailures) : Composed view (encode.orFail status) := by
  apply composed.bind
  intro succeeded
  cases succeeded with
  | true => exact .pure ()
  | false => exact .throw expected

theorem wordOr {width input : Nat} {status : Status} (expected : .status status ∈ encodeFailures) :
    Composed view ((encodeWord width view input).orFail status) :=
  (word width input).orFail expected

theorem bytesOr {input : List UInt8} {status : Status}
    (expected : .status status ∈ encodeFailures) :
    Composed view ((amqpEncodeBytes view input).orFail status) :=
  (bytes input).orFail expected

theorem badAmqpData : .status .badAmqpData ∈ encodeFailures := by decide

theorem tableTooBig : .status .tableTooBig ∈ encodeFailures := by decide

theorem sized {loop : Encoder Unit} (composed : Composed view loop) :
    Composed view (encodeSized view loop) :=
  skipSize.bind fun start => composed.bind fun _ => patchSize start

mutual

theorem fieldValue (entry : FieldValue) : Composed view (amqpEncodeFieldValue view entry) := by
  unfold amqpEncodeFieldValue
  apply bind (wordOr badAmqpData)
  intro _
  cases entry with
  | boolean value => exact wordOr tableTooBig
  | i8 value => exact wordOr tableTooBig
  | u8 value => exact wordOr tableTooBig
  | i16 value => exact wordOr tableTooBig
  | u16 value => exact wordOr tableTooBig
  | i32 value => exact wordOr tableTooBig
  | u32 value => exact wordOr tableTooBig
  | i64 value => exact wordOr tableTooBig
  | u64 value => exact wordOr tableTooBig
  | f32 bits => exact wordOr tableTooBig
  | f64 bits => exact wordOr tableTooBig
  | decimal decimals value => exact (wordOr tableTooBig).bind fun _ => wordOr tableTooBig
  | utf8 bytes => exact (wordOr tableTooBig).bind fun _ => bytesOr tableTooBig
  | array entries => exact (arrayEntries entries).sized
  | timestamp value => exact wordOr tableTooBig
  | table entries => exact (tableEntries entries).sized
  | void => exact .pure ()
  | bytes bytes => exact (wordOr tableTooBig).bind fun _ => bytesOr tableTooBig
  | unknown kind => exact .throw (by decide)

theorem arrayEntries (entries : List FieldValue) :
    Composed view (encodeArrayEntries view entries) := by
  cases entries with
  | nil =>
      unfold encodeArrayEntries
      exact .pure ()
  | cons entry entries =>
      unfold encodeArrayEntries
      exact (fieldValue entry).bind fun _ => arrayEntries entries

theorem tableEntry (entry : TableEntry) : Composed view (encodeTableEntry view entry) := by
  cases entry with
  | mk key value =>
      unfold encodeTableEntry
      apply bind (wordOr tableTooBig)
      intro _
      exact (bytesOr tableTooBig).bind fun _ => fieldValue value

theorem tableEntries (entries : List TableEntry) :
    Composed view (encodeTableEntries view entries) := by
  cases entries with
  | nil =>
      unfold encodeTableEntries
      exact .pure ()
  | cons entry entries =>
      unfold encodeTableEntries
      exact (tableEntry entry).bind fun _ => tableEntries entries

end

theorem field (domain : Domain) (value : domain.Value) :
    Composed view (encodeField view domain value) := by
  cases domain with
  | octet => exact wordOr badAmqpData
  | short => exact wordOr badAmqpData
  | long => exact wordOr badAmqpData
  | longlong => exact wordOr badAmqpData
  | shortstr =>
      show Composed view (if _ then _ else _)
      split
      · exact .throw badAmqpData
      · exact (wordOr badAmqpData).bind fun _ => bytesOr badAmqpData
  | longstr =>
      show Composed view (if _ then _ else _)
      split
      · exact .throw badAmqpData
      · exact (wordOr badAmqpData).bind fun _ => bytesOr badAmqpData
  | bits count => exact wordOr badAmqpData
  | table => exact (tableEntries value).sized

theorem fields (domains : List Domain) (values : Fields domains) :
    Composed view (encodeFields view domains values) := by
  induction domains with
  | nil => exact .pure ()
  | cons domain domains ih => exact (field domain values.1).bind fun _ => ih values.2

theorem declared (declared : Option (List Domain)) (values : DeclaredFields declared) :
    Composed view (encodeDeclared view declared values) := by
  cases declared with
  | none => exact .throw (by decide)
  | some domains => exact fields domains values

theorem flagWords (turns : Nat) (remainingFlags : UInt32) :
    Composed view (encodeFlagWords view turns remainingFlags) := by
  induction turns generalizing remainingFlags with
  | zero => exact .pure ()
  | succ turns ih =>
      apply bind (wordOr badAmqpData)
      intro _
      split
      · exact ih _
      · exact .pure ()

theorem property (flags : UInt32) (property : Property) (value : Option property.domain.Value) :
    Composed view (encodeProperty view flags property value) := by
  unfold encodeProperty
  cases value with
  | some value =>
      dsimp only
      split
      · exact field property.domain value
      · exact .pure ()
  | none =>
      dsimp only
      split
      · exact .throw (by decide)
      · exact .pure ()

theorem propertyFields (flags : UInt32) (properties : List Property)
    (values : PropertyFields properties) :
    Composed view (encodeProperties view flags properties values) := by
  induction properties with
  | nil => exact .pure ()
  | cons head properties ih =>
      exact (property flags head values.1).bind fun _ => ih values.2

theorem declaredProperties (flags : UInt32) (declared : Option (List Property))
    (values : DeclaredProperties declared) :
    Composed view (encodeDeclaredProperties view flags declared values) := by
  cases declared with
  | none => exact .throw (by decide)
  | some properties => exact propertyFields flags properties values

end Composed

/-! ## Failures -/

/-- An encoder fails with one of its codes, or in a store. -/
abbrev FailsToEncode {σ α : Type} (encode : EStateM Failure σ α) : Prop :=
  Raises (· ∈ .fault .outOfBoundsWrite :: encodeFailures) encode

theorem failsToEncode_store {view : View} {data : List UInt8} {next : Nat} :
    FailsToEncode (store view data next) := by
  intro before after failure raised
  unfold store at raised
  split at raised
  · cases raised
  · cases raised
    exact List.mem_cons_self

theorem failsToEncode_encodeWord {view : View} {width input : Nat} :
    FailsToEncode (encodeWord width view input) := by
  refine .bind .get fun state => ?_
  dsimp only
  split
  · exact failsToEncode_store
  · intro before after failure raised
    cases raised

theorem Composed.failsToEncode {view : View} {α : Type} {encode : Encoder α}
    (composed : Composed view encode) : FailsToEncode encode := by
  induction composed with
  | pure value => exact .pure value
  | throw expected => exact .throw (List.mem_cons_of_mem _ expected)
  | bind _ _ first second => exact first.bind second
  | word width input => exact failsToEncode_encodeWord
  | bytes input =>
      unfold amqpEncodeBytes
      split
      · exact .pure true
      · refine .bind .get fun state => ?_
        dsimp only
        split
        · exact failsToEncode_store
        · intro before after failure raised
          cases raised
  | skipSize =>
      intro before after failure raised
      cases raised
  | patchSize start =>
      intro before after failure raised
      unfold RabbitmqC.patchSize at raised
      dsimp only at raised
      split at raised
      · cases raised
      · rename_i failed
        cases raised
        rcases bind_eq_error.mp failed with early | ⟨succeeded, middle, _, late⟩
        · exact failsToEncode_encodeWord early
        · cases succeeded with
          | true => cases late
          | false =>
              cases late
              decide

theorem Composed.failsFromStart {view : View} {encode : Encoder Unit}
    (composed : Composed view encode) : FailsToEncode (fromStart encode) := by
  intro before after failure raised
  unfold fromStart at raised
  split at raised
  · cases raised
  · rename_i failed
    cases raised
    exact composed.failsToEncode failed

/-! ## Equal room -/

/-- The same offset in memories of the same size. -/
structure SameRoom (size : Nat) (left right : EncodeState) : Prop where
  offset : left.offset = right.offset
  left : left.mem.size = size
  right : right.mem.size = size

/-- Whether a store succeeds is a matter of sizes. -/
theorem write?_alike {left right : Buffer} (same : left.size = right.size) (offset : Nat)
    (data : List UInt8) :
    (left.write? offset data = none ∧ right.write? offset data = none) ∨
      ∃ first second, left.write? offset data = some first ∧
        right.write? offset data = some second ∧ first.size = left.size ∧
        second.size = right.size := by
  by_cases room : offset + data.length ≤ left.size
  · obtain ⟨first, stored⟩ := Buffer.write?_isSome room
    obtain ⟨second, found⟩ := Buffer.write?_isSome (same ▸ room)
    exact .inr ⟨first, second, stored, found, Buffer.size_of_write? stored,
      Buffer.size_of_write? found⟩
  · have short {buffer : Buffer} (isSize : left.size = buffer.size) :
        buffer.write? offset data = none := by
      cases stored : buffer.write? offset data with
      | none => rfl
      | some written =>
          have fits := (Buffer.write?_eq_some_iff.mp stored).1
          rw [← isSize] at fits
          exact absurd fits room
    exact .inl ⟨short rfl, short same⟩

section Lockstep

variable {size : Nat}

theorem lockstep_store (view : View) (data : List UInt8) (next : Nat) :
    Lockstep (SameRoom size) (store view data next) := by
  intro left right same
  unfold store
  rw [same.offset]
  rcases write?_alike (same.left.trans same.right.symm) (view.base + right.offset) data with
    ⟨first, second⟩ | ⟨_, _, first, second, isLeft, isRight⟩
  · rw [first, second]
    exact .error same
  · rw [first, second]
    exact .ok ⟨rfl, isLeft.trans same.left, isRight.trans same.right⟩

/-- The test against the length of the view, and the store behind it. -/
theorem alike_bounded {view : View} {left right : EncodeState} (same : SameRoom size left right)
    (data : List UInt8) (next : Nat) :
    Alike (SameRoom size)
      ((if next ≤ view.len then store view data next
        else do set { left with offset := next }; return false : Encoder Bool) left)
      ((if next ≤ view.len then store view data next
        else do set { right with offset := next }; return false : Encoder Bool) right) := by
  split
  · exact lockstep_store view data next same
  · exact .ok ⟨rfl, same.left, same.right⟩

theorem lockstep_encodeWord (view : View) (width input : Nat) :
    Lockstep (SameRoom size) (encodeWord width view input) := by
  apply Lockstep.get_bind
  intro left right same
  rw [same.offset]
  exact alike_bounded same _ _

theorem lockstep_encodeBytes (view : View) (input : List UInt8) :
    Lockstep (SameRoom size) (amqpEncodeBytes view input) := by
  unfold amqpEncodeBytes
  split
  · exact .pure
  · apply Lockstep.get_bind
    intro left right same
    rw [same.offset]
    exact alike_bounded same _ _

theorem lockstep_patchSize (view : View) (start : Nat) :
    Lockstep (SameRoom size) (patchSize view start) := by
  intro left right same
  have steps (word : UInt32) :
      Lockstep (SameRoom size) ((amqpEncode32 view word).orFail .tableTooBig) := by
    apply (lockstep_encodeWord view 4 _).bind
    intro succeeded
    cases succeeded with
    | true => exact .pure
    | false => exact .throw
  have rooms : SameRoom size ⟨left.mem, start⟩ ⟨right.mem, start⟩ :=
    ⟨rfl, same.left, same.right⟩
  unfold patchSize
  dsimp only
  rw [same.offset]
  have alike := steps (UInt32.ofNat (sizeSub (sizeSub right.offset start) 4)) rooms
  revert alike
  generalize (amqpEncode32 view _).orFail .tableTooBig ⟨left.mem, start⟩ = first
  generalize (amqpEncode32 view _).orFail .tableTooBig ⟨right.mem, start⟩ = second
  intro alike
  cases alike with
  | ok sizes => exact .ok ⟨rfl, sizes.left, sizes.right⟩
  | error sizes => exact .error ⟨rfl, sizes.left, sizes.right⟩

theorem Composed.lockstep {view : View} {α : Type} {encode : Encoder α}
    (composed : Composed view encode) : Lockstep (SameRoom size) encode := by
  induction composed with
  | pure value => exact .pure
  | throw _ => exact .throw
  | bind _ _ first second => exact first.bind second
  | word width input => exact lockstep_encodeWord view width input
  | bytes input => exact lockstep_encodeBytes view input
  | skipSize =>
      apply Lockstep.get_bind
      intro left right same
      rw [same.offset]
      exact .ok ⟨rfl, same.left, same.right⟩
  | patchSize start => exact lockstep_patchSize view start

/-- Two memories of the same size. -/
def SameSize (size : Nat) (left right : Buffer) : Prop := left.size = size ∧ right.size = size

theorem Composed.lockstepFromStart {view : View} {encode : Encoder Unit}
    (composed : Composed view encode) : Lockstep (SameSize size) (fromStart encode) := by
  intro left right same
  have alike := composed.lockstep (show SameRoom size ⟨left, 0⟩ ⟨right, 0⟩ from
    ⟨rfl, same.1, same.2⟩)
  unfold fromStart
  generalize encode ⟨left, 0⟩ = first at alike ⊢
  generalize encode ⟨right, 0⟩ = second at alike ⊢
  cases alike with
  | ok rooms =>
      dsimp only
      rw [rooms.offset]
      exact .ok ⟨rooms.left, rooms.right⟩
  | error rooms => exact .error ⟨rooms.left, rooms.right⟩

theorem composed_properties {view : View} {classId : UInt16} (decoded : Properties classId) :
    Composed view (do
      encodeFlagWords view 2 decoded.flags
      encodeDeclaredProperties view decoded.flags (classProperties classId) decoded.fields) :=
  (Composed.flagWords 2 decoded.flags).bind fun _ =>
    .declaredProperties decoded.flags _ decoded.fields

theorem lockstep_amqpEncodeMethod (methodNumber : UInt32) (decoded : MethodFields methodNumber)
    (view : View) : Lockstep (SameSize size) (amqpEncodeMethod methodNumber decoded view) :=
  (Composed.declared _ decoded).lockstepFromStart

theorem lockstep_amqpEncodeProperties (classId : UInt16) (decoded : Properties classId)
    (view : View) : Lockstep (SameSize size) (amqpEncodeProperties classId decoded view) :=
  (composed_properties decoded).lockstepFromStart

end Lockstep

end RabbitmqC
