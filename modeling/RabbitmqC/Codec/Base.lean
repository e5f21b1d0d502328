import RabbitmqC.Lib.Bytes
import RabbitmqC.Lib.Effect
import RabbitmqC.Status

/-!
# Base codec functions

The functions that `DECLARE_CODEC_BASE_TYPE` declares, and `amqp_encode_bytes`
and `amqp_decode_bytes`. All of them advance the caller's offset, also when the
word does not fit; none of them writes or reads past the `len` it was given.
-/

set_option autoImplicit false

namespace RabbitmqC

/-- An `amqp_bytes_t` that points `base` octets into some memory object. -/
structure View where
  base : Nat
  len : Nat

/-! ## Encoding -/

structure EncodeState where
  mem : Buffer
  offset : Nat

abbrev Encoder := EStateM Failure EncodeState

/-- Copy `data` to the current offset and move the offset to `next`. -/
def store (view : View) (data : List UInt8) (next : Nat) : Encoder Bool := fun state =>
  match state.mem.write? (view.base + state.offset) data with
  | some mem => .ok true { mem, offset := next }
  | none => .error (.fault .outOfBoundsWrite) state

/-- `amqp_encode_##bits` for a word of `width` octets. -/
def encodeWord (width : Nat) (view : View) (input : Nat) : Encoder Bool := do
  let state ← get
  let next := sizeAdd state.offset width
  if next ≤ view.len then
    store view (BigEndian.bytes width input) next
  else do
    set { state with offset := next }
    return false

def amqpEncode8 (view : View) (input : UInt8) : Encoder Bool := encodeWord 1 view input.toNat
def amqpEncode16 (view : View) (input : UInt16) : Encoder Bool := encodeWord 2 view input.toNat
def amqpEncode32 (view : View) (input : UInt32) : Encoder Bool := encodeWord 4 view input.toNat
def amqpEncode64 (view : View) (input : UInt64) : Encoder Bool := encodeWord 8 view input.toNat

def amqpEncodeBytes (view : View) (input : List UInt8) : Encoder Bool := do
  -- An empty string may have a null pointer, so nothing is copied or checked.
  if input.length = 0 then
    return true
  else do
    let state ← get
    let next := sizeAdd state.offset input.length
    if next ≤ view.len then
      store view input next
    else do
      set { state with offset := next }
      return false

/-- The caller's reaction to a zero result: leave with `status`. -/
def Encoder.orFail (encode : Encoder Bool) (status : Status) : Encoder Unit := do
  if ← encode then
    return
  else
    throw (.status status)

/-! ## Decoding -/

/-- The buffer a decoder reads: `len` octets from `base` on, as the caller says. -/
structure Encoded extends View where
  mem : Buffer

/-- `allocs` lists the outcomes of the allocations still to come; once it is
used up, allocations succeed. -/
structure DecodeState where
  offset : Nat
  allocs : List Bool
  deriving DecidableEq, Repr

abbrev Decoder := EStateM Failure DecodeState

/-- The outcome of the next `malloc`, `realloc` or non-empty `amqp_pool_alloc`. -/
def allocate : Decoder Bool := do
  let state ← get
  match state.allocs with
  | [] => return true
  | outcome :: rest => do
      set { state with allocs := rest }
      return outcome

/-- The `count` octets at the current offset; the offset moves to `next`. -/
def load (encoded : Encoded) (count next : Nat) : Decoder (Option (List UInt8)) := fun state =>
  match encoded.mem.read? (encoded.base + state.offset) count with
  | some data => .ok (some data) { state with offset := next }
  | none => .error (.fault .outOfBoundsRead) state

/-- `amqp_decode_bytes`; `none` is the result 0. -/
def amqpDecodeBytes (encoded : Encoded) (len : Nat) : Decoder (Option (List UInt8)) := do
  let state ← get
  let next := sizeAdd state.offset len
  if next ≤ encoded.len then
    load encoded len next
  else do
    set { state with offset := next }
    return none

/-- `amqp_decode_##bits` for a word of `width` octets; `none` is the result 0. -/
def decodeWord (width : Nat) (encoded : Encoded) : Decoder (Option Nat) :=
  Option.map BigEndian.value <$> amqpDecodeBytes encoded width

/-- The caller's reaction to a zero result: leave with `AMQP_STATUS_BAD_AMQP_DATA`. -/
def Decoder.orBad {α : Type} (decode : Decoder (Option α)) : Decoder α := do
  match ← decode with
  | some value => return value
  | none => throw (.status .badAmqpData)

def amqpDecode8 (encoded : Encoded) : Decoder (Option UInt8) :=
  Option.map UInt8.ofNat <$> decodeWord 1 encoded
def amqpDecode16 (encoded : Encoded) : Decoder (Option UInt16) :=
  Option.map UInt16.ofNat <$> decodeWord 2 encoded
def amqpDecode32 (encoded : Encoded) : Decoder (Option UInt32) :=
  Option.map UInt32.ofNat <$> decodeWord 4 encoded
def amqpDecode64 (encoded : Encoded) : Decoder (Option UInt64) :=
  Option.map UInt64.ofNat <$> decodeWord 8 encoded

/-- The bounded copy of `amqp_decode_bytes`, when the view has room for it. -/
theorem amqpDecodeBytes_of_room {encoded : Encoded} {count : Nat} {state : DecodeState}
    (room : state.offset + count ≤ encoded.len) (small : encoded.len < 2 ^ 64) :
    amqpDecodeBytes encoded count state =
      match encoded.mem.read? (encoded.base + state.offset) count with
      | some data => .ok (some data) { state with offset := state.offset + count }
      | none => .error (.fault .outOfBoundsRead) state := by
  have moved : sizeAdd state.offset count = state.offset + count := sizeAdd_of_lt (by omega)
  unfold amqpDecodeBytes
  rw [Effect.bind_of_ok (Effect.get_run state), moved, if_pos room, load]

section OrBad

variable {α β : Type}

theorem orBad_of_some {decode : Decoder (Option α)} {value : α} {before after : DecodeState}
    (returned : decode before = .ok (some value) after) :
    decode.orBad before = .ok value after := by
  unfold Decoder.orBad
  rw [Effect.bind_of_ok returned]
  rfl

theorem orBad_of_none {decode : Decoder (Option α)} {before after : DecodeState}
    (returned : decode before = .ok none after) :
    decode.orBad before = .error (.status .badAmqpData) after := by
  unfold Decoder.orBad
  rw [Effect.bind_of_ok returned]
  rfl

theorem orBad_map {decode : Decoder (Option α)} (change : α → β) :
    Decoder.orBad (Option.map change <$> decode) = change <$> decode.orBad := by
  funext state
  cases returned : decode state with
  | ok value after =>
      cases value with
      | none =>
          rw [orBad_of_none (Effect.map_of_ok returned),
            Effect.map_of_error (orBad_of_none returned)]
      | some value =>
          have changed : (Option.map change <$> decode) state = .ok (some (change value)) after :=
            Effect.map_of_ok returned
          rw [orBad_of_some changed, Effect.map_of_ok (orBad_of_some returned)]
  | error failure after =>
      unfold Decoder.orBad
      rw [Effect.bind_of_error (Effect.map_of_error returned),
        Effect.map_of_error (Effect.bind_of_error returned)]

theorem orBad_of_error {decode : Decoder (Option α)} {failure : Failure}
    {before after : DecodeState} (raised : decode before = .error failure after) :
    decode.orBad before = .error failure after := by
  unfold Decoder.orBad
  exact Effect.bind_of_error raised

end OrBad

/-! ## What an encoder writes -/

/-- `after` is `before` with `data` written at its offset, which has moved past it. -/
structure Written (view : View) (data : List UInt8) (before after : EncodeState) : Prop where
  offset : after.offset = before.offset + data.length
  bytes : after.mem.bytes = before.mem.bytes.splice (view.base + before.offset) data
  fits : data ≠ [] → before.offset + data.length ≤ view.len ∧
    view.base + before.offset + data.length ≤ before.mem.size

namespace Written

variable {view : View} {data left right : List UInt8} {before middle after : EncodeState}

theorem refl : Written view [] before before where
  offset := rfl
  bytes := by simp
  fits := by simp

theorem size (written : Written view data before after) : after.mem.size = before.mem.size := by
  unfold Buffer.size
  rw [written.bytes]
  cases data with
  | nil => simp
  | cons head tail =>
      obtain ⟨_, inside⟩ := written.fits (by simp)
      exact List.length_splice inside

theorem append (first : Written view left before middle)
    (second : Written view right middle after) : Written view (left ++ right) before after := by
  have sameSize : middle.mem.size = before.mem.size := first.size
  cases left with
  | nil =>
      have sameOffset : middle.offset = before.offset := by simpa using first.offset
      have sameBytes : middle.mem = before.mem := Buffer.ext (by simpa using first.bytes)
      simp only [List.nil_append]
      exact ⟨by rw [second.offset, sameOffset], by rw [second.bytes, sameOffset, sameBytes],
        by rw [← sameOffset, ← sameSize]; exact second.fits⟩
  | cons head tail =>
      cases right with
      | nil =>
          have sameBytes : after.mem.bytes = middle.mem.bytes := by simpa using second.bytes
          simp only [List.append_nil]
          exact ⟨by rw [second.offset, first.offset, List.length_nil, Nat.add_zero],
            by rw [sameBytes, first.bytes], first.fits⟩
      | cons next rest =>
          obtain ⟨room, inside⟩ := second.fits (by simp)
          rw [first.offset] at room inside
          rw [sameSize] at inside
          refine ⟨?_, ?_, fun _ => ?_⟩
          · rw [second.offset, first.offset, List.length_append, Nat.add_assoc]
          · rw [second.bytes, first.bytes, first.offset, ← Nat.add_assoc]
            exact List.splice_splice_after (by unfold Buffer.size at inside; omega)
          · simp only [List.length_append]
            omega

/-- What was written can be read back. -/
theorem holds (written : Written view data before after)
    (inside : view.base + before.offset + data.length ≤ before.mem.size) :
    after.mem.Holds (view.base + before.offset) data := by
  refine ⟨by rw [written.size]; exact inside, ?_⟩
  rw [written.bytes]
  exact List.slice_splice_self inside

end Written

/-- Whenever `encode` returns, it has written `data`. -/
def Emits (view : View) (encode : Encoder Unit) (data : List UInt8) : Prop :=
  ∀ ⦃before after⦄, encode before = .ok () after → Written view data before after

/-- `encode` returns whenever `data` fits between the offset and the end of the view. -/
def Accepts (view : View) (encode : Encoder Unit) (data : List UInt8) : Prop :=
  ∀ ⦃before⦄, view.base + view.len ≤ before.mem.size →
    before.offset + data.length ≤ view.len → ∃ after, encode before = .ok () after

section Composition

variable {view : View} {data left right : List UInt8} {first second : Encoder Unit}

theorem emits_pure : Emits view (pure ()) [] := by
  intro before after returned
  cases returned
  exact .refl

theorem accepts_pure : Accepts view (pure ()) data := by
  intro before _ _
  exact ⟨before, rfl⟩

theorem Emits.andThen (head : Emits view first left) (tail : Emits view second right) :
    Emits view (first >>= fun _ => second) (left ++ right) := by
  intro before after returned
  obtain ⟨_, middle, headReturned, tailReturned⟩ := Effect.bind_eq_ok.mp returned
  exact (head headReturned).append (tail tailReturned)

theorem Accepts.andThen (headEmits : Emits view first left) (head : Accepts view first left)
    (tail : Accepts view second right) :
    Accepts view (first >>= fun _ => second) (left ++ right) := by
  intro before inside room
  rw [List.length_append] at room
  obtain ⟨middle, headReturned⟩ := head inside (by omega)
  have written := headEmits headReturned
  obtain ⟨after, tailReturned⟩ := tail (by rw [written.size]; exact inside)
    (by rw [written.offset]; omega)
  exact ⟨after, by rw [Effect.bind_of_ok headReturned, tailReturned]⟩

end Composition

theorem Encoder.orFail_eq_ok {encode : Encoder Bool} {status : Status}
    {before after : EncodeState} :
    encode.orFail status before = .ok () after ↔ encode before = .ok true after := by
  unfold Encoder.orFail
  rw [Effect.bind_eq_ok]
  constructor
  · rintro ⟨succeeded, middle, returned, finished⟩
    cases succeeded with
    | false => cases finished
    | true =>
        cases finished
        exact returned
  · intro returned
    exact ⟨true, after, returned, rfl⟩

theorem store_eq_ok {view : View} {data : List UInt8} {next : Nat} {result : Bool}
    {before after : EncodeState} :
    store view data next before = .ok result after ↔
      result = true ∧ after.offset = next ∧
        before.mem.write? (view.base + before.offset) data = some after.mem := by
  unfold store
  cases stored : before.mem.write? (view.base + before.offset) data with
  | none => simp
  | some mem =>
      simp only [EStateM.Result.ok.injEq, Option.some.injEq]
      constructor
      · rintro ⟨rfl, rfl⟩
        exact ⟨rfl, rfl, rfl⟩
      · rintro ⟨rfl, rfl, rfl⟩
        exact ⟨rfl, rfl⟩

/-- The bounded copy that word and byte string encoders end with. -/
private theorem written_of_store {view : View} {data : List UInt8} {result : Bool}
    {before after : EncodeState}
    (room : sizeAdd before.offset data.length ≤ view.len)
    (stored : store view data (sizeAdd before.offset data.length) before = .ok result after) :
    Written view data before after := by
  obtain ⟨_, moved, copied⟩ := store_eq_ok.mp stored
  obtain ⟨inside, same⟩ := Buffer.write?_eq_some_iff.mp copied
  have small : before.offset + data.length < 2 ^ 64 := by
    have bounded := before.mem.size_lt
    unfold Buffer.size at inside
    omega
  rw [sizeAdd_of_lt small] at room moved
  exact ⟨moved, same, fun _ => ⟨room, inside⟩⟩

private theorem store_of_room {view : View} {data : List UInt8} {before : EncodeState}
    (inside : view.base + view.len ≤ before.mem.size)
    (room : before.offset + data.length ≤ view.len) :
    sizeAdd before.offset data.length ≤ view.len ∧
      ∃ after, store view data (sizeAdd before.offset data.length) before = .ok true after := by
  have small : before.offset + data.length < 2 ^ 64 := by
    have bounded := before.mem.size_lt
    unfold Buffer.size at inside
    omega
  obtain ⟨mem, copied⟩ := @Buffer.write?_isSome before.mem (view.base + before.offset) data (by omega)
  rw [sizeAdd_of_lt small]
  exact ⟨room, ⟨mem, _⟩, store_eq_ok.mpr ⟨rfl, rfl, copied⟩⟩

section Primitives

variable {width input : Nat} {view : View} {status : Status} {data : List UInt8}

theorem emits_encodeWord :
    Emits view ((encodeWord width view input).orFail status) (BigEndian.bytes width input) := by
  intro before after returned
  have encoded := Encoder.orFail_eq_ok.mp returned
  unfold encodeWord at encoded
  rw [Effect.bind_of_ok (Effect.get_run before)] at encoded
  split at encoded
  · rename_i room
    refine @written_of_store _ _ true _ _ ?_ ?_
    · rw [BigEndian.length_bytes]
      exact room
    · rw [BigEndian.length_bytes]
      exact encoded
  · cases encoded

theorem accepts_encodeWord :
    Accepts view ((encodeWord width view input).orFail status) (BigEndian.bytes width input) := by
  intro before inside room
  obtain ⟨fits, after, stored⟩ := store_of_room inside room
  rw [BigEndian.length_bytes] at fits stored
  refine ⟨after, Encoder.orFail_eq_ok.mpr ?_⟩
  unfold encodeWord
  rw [Effect.bind_of_ok (Effect.get_run before), if_pos fits, stored]

theorem emits_amqpEncodeBytes :
    Emits view ((amqpEncodeBytes view data).orFail status) data := by
  intro before after returned
  have encoded := Encoder.orFail_eq_ok.mp returned
  unfold amqpEncodeBytes at encoded
  split at encoded
  · rename_i empty
    cases encoded
    rw [List.length_eq_zero_iff.mp empty]
    exact .refl
  · rw [Effect.bind_of_ok (Effect.get_run before)] at encoded
    split at encoded
    · rename_i room
      exact written_of_store room encoded
    · cases encoded

theorem accepts_amqpEncodeBytes :
    Accepts view ((amqpEncodeBytes view data).orFail status) data := by
  intro before inside room
  unfold amqpEncodeBytes
  split
  · exact ⟨before, Encoder.orFail_eq_ok.mpr rfl⟩
  · obtain ⟨fits, after, stored⟩ := store_of_room inside room
    refine ⟨after, Encoder.orFail_eq_ok.mpr ?_⟩
    rw [Effect.bind_of_ok (Effect.get_run before), if_pos fits, stored]

end Primitives

/-! ## What a decoder reads -/

/-- `decode` reads `data` as `value`, if allocations succeed. -/
def Reads {α : Type} (encoded : Encoded) (decode : Decoder α) (data : List UInt8) (value : α) :
    Prop :=
  ∀ ⦃offset⦄, encoded.mem.Holds (encoded.base + offset) data →
    offset + data.length ≤ encoded.len →
    decode ⟨offset, []⟩ = .ok value ⟨offset + data.length, []⟩

section Reading

variable {α β : Type} {encoded : Encoded} {data left right : List UInt8}

theorem reads_pure {value : α} : Reads encoded (pure value) [] value := by
  intro offset _ _
  rfl

theorem Reads.andThen {first : Decoder α} {second : α → Decoder β} {value : α} {result : β}
    (head : Reads encoded first left value) (tail : Reads encoded (second value) right result) :
    Reads encoded (first >>= second) (left ++ right) result := by
  intro offset stored room
  rw [List.length_append] at room ⊢
  rw [Buffer.holds_append, Nat.add_assoc] at stored
  rw [Effect.bind_of_ok (head stored.1 (by omega)), tail stored.2 (by omega), Nat.add_assoc]

theorem Reads.map {first : Decoder α} {value : α} (change : α → β)
    (head : Reads encoded first data value) :
    Reads encoded (change <$> first) data (change value) := by
  intro offset stored room
  exact Effect.map_of_ok (head stored room)

theorem Reads.orBad {first : Decoder (Option α)} {value : α}
    (head : Reads encoded first data (some value)) : Reads encoded first.orBad data value := by
  intro offset stored room
  unfold Decoder.orBad
  rw [Effect.bind_of_ok (head stored room)]
  rfl

theorem reads_amqpDecodeBytes :
    Reads encoded (amqpDecodeBytes encoded data.length) data (some data) := by
  intro offset stored room
  have small : offset + data.length < 2 ^ 64 := by
    have inside := stored.1
    have bounded := encoded.mem.size_lt
    unfold Buffer.size at inside
    omega
  unfold amqpDecodeBytes
  rw [Effect.bind_of_ok (Effect.get_run _)]
  simp only [sizeAdd_of_lt small, if_pos room, load, stored.read?]

theorem reads_decodeWord {width number : Nat} (small : number < 256 ^ width) :
    Reads encoded (decodeWord width encoded) (BigEndian.bytes width number) (some number) := by
  have taken :=
    (@reads_amqpDecodeBytes encoded (BigEndian.bytes width number)).map (Option.map BigEndian.value)
  rw [BigEndian.length_bytes] at taken
  simpa only [decodeWord, Option.map_some, BigEndian.value_bytes_of_lt small] using taken

theorem reads_amqpDecode8 {value : UInt8} :
    Reads encoded (amqpDecode8 encoded) (BigEndian.bytes 1 value.toNat) (some value) := by
  have word := (@reads_decodeWord encoded 1 _ value.toNat_lt).map
    (Option.map UInt8.ofNat)
  simpa only [amqpDecode8, Option.map_some, UInt8.ofNat_toNat] using word

theorem reads_amqpDecode16 {value : UInt16} :
    Reads encoded (amqpDecode16 encoded) (BigEndian.bytes 2 value.toNat) (some value) := by
  have word := (@reads_decodeWord encoded 2 _ value.toNat_lt).map
    (Option.map UInt16.ofNat)
  simpa only [amqpDecode16, Option.map_some, UInt16.ofNat_toNat] using word

theorem reads_amqpDecode32 {value : UInt32} :
    Reads encoded (amqpDecode32 encoded) (BigEndian.bytes 4 value.toNat) (some value) := by
  have word := (@reads_decodeWord encoded 4 _ value.toNat_lt).map
    (Option.map UInt32.ofNat)
  simpa only [amqpDecode32, Option.map_some, UInt32.ofNat_toNat] using word

theorem reads_amqpDecode64 {value : UInt64} :
    Reads encoded (amqpDecode64 encoded) (BigEndian.bytes 8 value.toNat) (some value) := by
  have word := (@reads_decodeWord encoded 8 _ value.toNat_lt).map
    (Option.map UInt64.ofNat)
  simpa only [amqpDecode64, Option.map_some, UInt64.ofNat_toNat] using word

theorem reads_allocate : Reads encoded allocate [] true := by
  intro offset _ _
  rfl

end Reading

/-! ## How decoding fails -/

/-- Whatever goes wrong in `decode`, it is not a write outside an object. -/
def ReadsOnly {α : Type} (decode : Decoder α) : Prop :=
  ∀ ⦃before after⦄, decode before ≠ .error (.fault .outOfBoundsWrite) after

/-- What a decoder fails with. -/
def decodeFailures : List Failure :=
  [.status .badAmqpData, .status .noMemory, .status .unknownMethod, .status .unknownClass,
    .fault .outOfBoundsRead, .fault .shiftOverflow, .fault .signedOverflow, .fault .outOfFuel]

abbrev Tame {α : Type} (decode : Decoder α) : Prop := Effect.Raises (· ∈ decodeFailures) decode

/-- The same, flag words apart. -/
def fieldFailures : List Failure :=
  [.status .badAmqpData, .status .noMemory, .status .unknownMethod, .status .unknownClass,
    .fault .outOfBoundsRead, .fault .signedOverflow, .fault .outOfFuel]

abbrev Plain {α : Type} (decode : Decoder α) : Prop := Effect.Raises (· ∈ fieldFailures) decode

theorem Plain.tame {α : Type} {decode : Decoder α} (plain : Plain decode) : Tame decode := by
  refine Effect.Raises.mono plain fun failure member => ?_
  have sublist : fieldFailures.Sublist decodeFailures := by decide
  exact sublist.subset member

theorem Tame.readsOnly {α : Type} {decode : Decoder α} (tame : Tame decode) : ReadsOnly decode := by
  intro before after raised
  exact absurd (tame raised) (by decide)

theorem Plain.orBad {α : Type} {decode : Decoder (Option α)} (plain : Plain decode) :
    Plain decode.orBad := by
  refine plain.bind fun value => ?_
  cases value with
  | none => exact .throw (by decide)
  | some value => exact .pure value

section Failing

variable {encoded : Encoded}

theorem plain_allocate : Plain allocate := by
  intro before after failure raised
  obtain ⟨offset, allocs⟩ := before
  cases allocs with
  | nil => cases raised
  | cons outcome rest => cases raised

theorem plain_amqpDecodeBytes {len : Nat} : Plain (amqpDecodeBytes encoded len) := by
  refine Effect.Raises.bind .get fun state => ?_
  dsimp only
  split
  · intro before after failure raised
    unfold load at raised
    cases found : encoded.mem.read? (encoded.base + before.offset) len with
    | none =>
        rw [found] at raised
        cases raised
        decide
    | some data =>
        rw [found] at raised
        cases raised
  · intro before after failure raised
    cases raised

theorem plain_amqpDecode8 : Plain (amqpDecode8 encoded) :=
  (plain_amqpDecodeBytes.map _).map _

theorem plain_amqpDecode16 : Plain (amqpDecode16 encoded) :=
  (plain_amqpDecodeBytes.map _).map _

theorem plain_amqpDecode32 : Plain (amqpDecode32 encoded) :=
  (plain_amqpDecodeBytes.map _).map _

theorem plain_amqpDecode64 : Plain (amqpDecode64 encoded) :=
  (plain_amqpDecodeBytes.map _).map _

end Failing

end RabbitmqC
