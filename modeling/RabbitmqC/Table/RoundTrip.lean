import RabbitmqC.Table.Basic

/-!
# Encoding a table and decoding it again

The octets the table encoder writes, as a function of the table alone; that the
encoder writes them and nothing else; and that the decoder reads them back. The
size word is written after the contents it counts, so what a container writes is
assembled from the two writes around its own start.
-/

set_option autoImplicit false

namespace RabbitmqC

/-! ## The wire form -/

/-- Contents behind the 32-bit size word that announces them. -/
def sized (content : List UInt8) : List UInt8 :=
  BigEndian.bytes 4 (UInt32.ofNat content.length).toNat ++ content

mutual

/-- What the encoder writes for a value. -/
def FieldValue.wire (entry : FieldValue) : List UInt8 :=
  BigEndian.bytes 1 entry.kind.toNat ++
    match entry with
    | .boolean value => BigEndian.bytes 1 (if value ≠ 0 then 1 else 0 : UInt8).toNat
    | .i8 value => BigEndian.bytes 1 value.toUInt8.toNat
    | .u8 value => BigEndian.bytes 1 value.toNat
    | .i16 value => BigEndian.bytes 2 value.toUInt16.toNat
    | .u16 value => BigEndian.bytes 2 value.toNat
    | .i32 value => BigEndian.bytes 4 value.toUInt32.toNat
    | .u32 value => BigEndian.bytes 4 value.toNat
    | .i64 value => BigEndian.bytes 8 value.toUInt64.toNat
    | .u64 value => BigEndian.bytes 8 value.toNat
    | .f32 bits => BigEndian.bytes 4 bits.toNat
    | .f64 bits => BigEndian.bytes 8 bits.toNat
    | .decimal decimals value =>
        BigEndian.bytes 1 decimals.toNat ++ BigEndian.bytes 4 value.toNat
    | .utf8 bytes => sized bytes
    | .array entries => sized (arrayContent entries)
    | .timestamp value => BigEndian.bytes 8 value.toNat
    | .table entries => sized (tableContent entries)
    | .void => []
    | .bytes bytes => sized bytes
    | .unknown _ => []

def arrayContent : List FieldValue → List UInt8
  | [] => []
  | entry :: entries => entry.wire ++ arrayContent entries

def TableEntry.wire : TableEntry → List UInt8
  | .mk key value => BigEndian.bytes 1 (UInt8.ofNat key.length).toNat ++ (key ++ value.wire)

def tableContent : List TableEntry → List UInt8
  | [] => []
  | entry :: entries => entry.wire ++ tableContent entries

end

/-- What `amqp_encode_table` writes. -/
def tableWire (table : Table) : List UInt8 := sized (tableContent table)

theorem length_sized (content : List UInt8) : (sized content).length = 4 + content.length := by
  simp [sized]

theorem FieldValue.wire_length_pos (entry : FieldValue) : 0 < entry.wire.length := by
  unfold FieldValue.wire
  simp

theorem TableEntry.wire_length_pos (entry : TableEntry) : 0 < entry.wire.length := by
  cases entry
  unfold TableEntry.wire
  simp

/-! ## The parts of a value -/

/-- A key, or a value with everything below it. -/
inductive Component where
  | key (bytes : List UInt8)
  | value (entry : FieldValue)

mutual

/-- The value itself and all keys and values inside it, at any depth. -/
def FieldValue.components (entry : FieldValue) : List Component :=
  .value entry ::
    match entry with
    | .array entries => arrayComponents entries
    | .table entries => tableComponents entries
    | _ => []

def arrayComponents : List FieldValue → List Component
  | [] => []
  | entry :: entries => entry.components ++ arrayComponents entries

def TableEntry.components : TableEntry → List Component
  | .mk key value => .key key :: value.components

def tableComponents : List TableEntry → List Component
  | [] => []
  | entry :: entries => entry.components ++ tableComponents entries

end

namespace Component

/-- The kind is one the encoder has a case for. -/
def Known : Component → Prop
  | .value (.unknown _) => False
  | _ => True

/-- A key or a string whose length the wire format has no room for. -/
def Overlong : Component → Prop
  | .key bytes => 255 < bytes.length
  | .value (.utf8 bytes) => 2 ^ 32 - 1 < bytes.length
  | .value (.bytes bytes) => 2 ^ 32 - 1 < bytes.length
  | _ => False

/-- A table or an array whose encoding has a size that the size word can hold. -/
def Countable : Component → Prop
  | .value (.array entries) => (arrayContent entries).length < 2 ^ 32
  | .value (.table entries) => (tableContent entries).length < 2 ^ 32
  | _ => True

/-- The octets that the length or size word of the component counts. -/
def counted : Component → Nat
  | .value (.utf8 bytes) => bytes.length
  | .value (.bytes bytes) => bytes.length
  | .value (.array entries) => (arrayContent entries).length
  | .value (.table entries) => (tableContent entries).length
  | _ => 0

/-- A table or an array with entries that the decoder can collect. -/
def Few : Component → Prop
  | .value (.array entries) => entries.length ≤ maxEntries
  | .value (.table entries) => entries.length ≤ maxEntries
  | _ => True

/-- A key whose length its octet can hold. -/
def ShortKey : Component → Prop
  | .key bytes => bytes.length ≤ 255
  | .value _ => True

/-- Neither is a key too long, nor are there too many entries. -/
def Short (component : Component) : Prop := component.ShortKey ∧ component.Few

/-- Nothing about the component is lost on the wire. -/
structure Decodable (component : Component) : Prop where
  known : component.Known
  inLength : ¬ component.Overlong
  countable : component.Countable
  few : component.Few

end Component

/-- Every component of the table, the table itself included, satisfies `holds`. -/
def Table.Every (holds : Component → Prop) (table : Table) : Prop :=
  ∀ component ∈ (FieldValue.table table).components, holds component

/-- Keys of at most 255 octets, byte strings and nested encodings below `2 ^ 32` octets. -/
def Table.Representable (table : Table) : Prop :=
  table.Every fun component => ¬ component.Overlong ∧ component.Countable

/-! ## What the encoder writes -/

theorem emits_amqpEncode8 {view : View} {input : UInt8} {status : Status} :
    Emits view ((amqpEncode8 view input).orFail status) (BigEndian.bytes 1 input.toNat) :=
  emits_encodeWord

theorem emits_amqpEncode16 {view : View} {input : UInt16} {status : Status} :
    Emits view ((amqpEncode16 view input).orFail status) (BigEndian.bytes 2 input.toNat) :=
  emits_encodeWord

theorem emits_amqpEncode32 {view : View} {input : UInt32} {status : Status} :
    Emits view ((amqpEncode32 view input).orFail status) (BigEndian.bytes 4 input.toNat) :=
  emits_encodeWord

theorem emits_amqpEncode64 {view : View} {input : UInt64} {status : Status} :
    Emits view ((amqpEncode64 view input).orFail status) (BigEndian.bytes 8 input.toNat) :=
  emits_encodeWord

private theorem patchSize_eq_ok {view : View} {start : Nat} {before after : EncodeState} :
    patchSize view start before = .ok () after ↔
      ∃ patched, (amqpEncode32 view
          (UInt32.ofNat (sizeSub (sizeSub before.offset start) 4))).orFail .tableTooBig
          { before with offset := start } = .ok () patched ∧
        after = { patched with offset := before.offset } := by
  unfold patchSize
  simp only
  cases (amqpEncode32 view (UInt32.ofNat (sizeSub (sizeSub before.offset start) 4))).orFail
      .tableTooBig { before with offset := start } with
  | ok value patched =>
      simp only [EStateM.Result.ok.injEq, true_and]
      constructor
      · rintro rfl
        exact ⟨patched, rfl, rfl⟩
      · rintro ⟨_, rfl, rfl⟩
        rfl
  | error failure patched => simp

/-- The two writes of a container are one write of its size word and contents. -/
theorem Emits.encodeSized {view : View} {loop : Encoder Unit} {content : List UInt8}
    (emitted : Emits view loop content) :
    Emits view (encodeSized view loop) (sized content) := by
  intro before after returned
  unfold RabbitmqC.encodeSized at returned
  obtain ⟨start, skipped, skip, rest⟩ := Effect.bind_eq_ok.mp returned
  obtain ⟨_, looped, loopReturned, patch⟩ := Effect.bind_eq_ok.mp rest
  obtain ⟨patched, wordReturned, rfl⟩ := patchSize_eq_ok.mp patch
  cases skip
  have contents := emitted loopReturned
  have word := emits_amqpEncode32 wordReturned
  have sameSize : looped.mem.size = before.mem.size := contents.size
  -- The size word was stored, so the offset did not wrap when it was skipped.
  obtain ⟨wordRoom, wordInside⟩ := word.fits (by
    rw [ne_eq, ← List.length_eq_zero_iff, BigEndian.length_bytes]; omega)
  simp only [BigEndian.length_bytes, sameSize] at wordRoom wordInside
  have bounded : before.mem.size < 2 ^ 63 := before.mem.size_lt
  have skippedOffset : sizeAdd before.offset 4 = before.offset + 4 :=
    sizeAdd_of_lt (by omega)
  have inside : view.base + before.offset + 4 + content.length ≤ before.mem.size ∧
      (content ≠ [] → before.offset + 4 + content.length ≤ view.len) := by
    by_cases empty : content = []
    · simp only [empty, List.length_nil]
      exact ⟨by omega, fun absent => absurd rfl absent⟩
    · obtain ⟨room, fits⟩ := contents.fits empty
      simp only [skippedOffset] at room fits
      exact ⟨by omega, fun _ => by omega⟩
  have loopedOffset : looped.offset = before.offset + 4 + content.length := by
    rw [contents.offset, skippedOffset]
  have counted : sizeSub (sizeSub looped.offset before.offset) 4 = content.length := by
    have behind : sizeSub looped.offset before.offset = 4 + content.length := by
      rw [loopedOffset, sizeSub_of_le (by omega) (by omega)]
      omega
    rw [behind, sizeSub_of_le (by omega) (by omega)]
    omega
  rw [counted] at word
  refine ⟨?_, ?_, fun _ => ?_⟩
  · simp only [length_sized, loopedOffset]
    omega
  · simp only [word.bytes, contents.bytes, skippedOffset, sized]
    have merged := @List.splice_splice_before _ before.mem.bytes
      (BigEndian.bytes 4 (UInt32.ofNat content.length).toNat) content _ (by
        rw [BigEndian.length_bytes]
        exact inside.1)
    rw [BigEndian.length_bytes] at merged
    exact merged
  · rw [length_sized]
    refine ⟨?_, by omega⟩
    by_cases empty : content = []
    · simp only [empty, List.length_nil]
      omega
    · have room := inside.2 empty
      omega

private theorem emits_string {view : View} {bytes : List UInt8} :
    Emits view (do
      (amqpEncode32 view (UInt32.ofNat bytes.length)).orFail .tableTooBig
      (amqpEncodeBytes view bytes).orFail .tableTooBig) (sized bytes) :=
  emits_amqpEncode32.andThen emits_amqpEncodeBytes

mutual

theorem emits_amqpEncodeFieldValue (view : View) (entry : FieldValue) :
    Emits view (amqpEncodeFieldValue view entry) entry.wire := by
  unfold amqpEncodeFieldValue FieldValue.wire
  refine Emits.andThen emits_amqpEncode8 ?_
  cases entry with
  | boolean value => exact emits_amqpEncode8
  | i8 value => exact emits_amqpEncode8
  | u8 value => exact emits_amqpEncode8
  | i16 value => exact emits_amqpEncode16
  | u16 value => exact emits_amqpEncode16
  | i32 value => exact emits_amqpEncode32
  | u32 value => exact emits_amqpEncode32
  | i64 value => exact emits_amqpEncode64
  | u64 value => exact emits_amqpEncode64
  | f32 bits => exact emits_amqpEncode32
  | f64 bits => exact emits_amqpEncode64
  | decimal decimals value => exact emits_amqpEncode8.andThen emits_amqpEncode32
  | utf8 bytes => exact emits_string
  | array entries => exact (emits_encodeArrayEntries view entries).encodeSized
  | timestamp value => exact emits_amqpEncode64
  | table entries => exact (emits_encodeTableEntries view entries).encodeSized
  | void => exact emits_pure
  | bytes bytes => exact emits_string
  | unknown kind =>
      intro before after returned
      cases returned

theorem emits_encodeArrayEntries (view : View) (entries : List FieldValue) :
    Emits view (encodeArrayEntries view entries) (arrayContent entries) := by
  cases entries with
  | nil => exact emits_pure
  | cons entry entries =>
      exact (emits_amqpEncodeFieldValue view entry).andThen (emits_encodeArrayEntries view entries)

theorem emits_encodeTableEntry (view : View) (entry : TableEntry) :
    Emits view (encodeTableEntry view entry) entry.wire := by
  cases entry with
  | mk key value =>
      exact emits_amqpEncode8.andThen
        (emits_amqpEncodeBytes.andThen (emits_amqpEncodeFieldValue view value))

theorem emits_encodeTableEntries (view : View) (entries : List TableEntry) :
    Emits view (encodeTableEntries view entries) (tableContent entries) := by
  cases entries with
  | nil => exact emits_pure
  | cons entry entries =>
      exact (emits_encodeTableEntry view entry).andThen (emits_encodeTableEntries view entries)

end

theorem emits_amqpEncodeTable (view : View) (table : Table) :
    Emits view (amqpEncodeTable view table) (tableWire table) :=
  (emits_encodeTableEntries view table).encodeSized

/-! ## What the encoder accepts -/

section Acceptance

variable {view : View} {status : Status}

theorem accepts_amqpEncode8 {input : UInt8} :
    Accepts view ((amqpEncode8 view input).orFail status) (BigEndian.bytes 1 input.toNat) :=
  accepts_encodeWord

theorem accepts_amqpEncode16 {input : UInt16} :
    Accepts view ((amqpEncode16 view input).orFail status) (BigEndian.bytes 2 input.toNat) :=
  accepts_encodeWord

theorem accepts_amqpEncode32 {input : UInt32} :
    Accepts view ((amqpEncode32 view input).orFail status) (BigEndian.bytes 4 input.toNat) :=
  accepts_encodeWord

theorem accepts_amqpEncode64 {input : UInt64} :
    Accepts view ((amqpEncode64 view input).orFail status) (BigEndian.bytes 8 input.toNat) :=
  accepts_encodeWord

theorem Accepts.encodeSized {loop : Encoder Unit} {content : List UInt8}
    (emitted : Emits view loop content) (accepted : Accepts view loop content) :
    Accepts view (encodeSized view loop) (sized content) := by
  intro before inside room
  rw [length_sized] at room
  have bounded : before.mem.size < 2 ^ 63 := before.mem.size_lt
  have skippedOffset : sizeAdd before.offset 4 = before.offset + 4 := sizeAdd_of_lt (by omega)
  have skipped : skipSize before = .ok before.offset { before with offset := before.offset + 4 } := by
    rw [← skippedOffset]
    rfl
  obtain ⟨looped, loopReturned⟩ :=
    @accepted { before with offset := before.offset + 4 } inside (by simp only; omega)
  have contents := emitted loopReturned
  obtain ⟨patched, wordReturned⟩ := @accepts_amqpEncode32 _ _ _
    { looped with offset := before.offset }
    (by rw [contents.size]; exact inside) (by rw [BigEndian.length_bytes]; simp only; omega)
  refine ⟨{ patched with offset := looped.offset }, ?_⟩
  unfold RabbitmqC.encodeSized
  rw [Effect.bind_of_ok skipped, Effect.bind_of_ok loopReturned]
  exact patchSize_eq_ok.mpr ⟨patched, wordReturned, rfl⟩

private theorem accepts_string {bytes : List UInt8} :
    Accepts view (do
      (amqpEncode32 view (UInt32.ofNat bytes.length)).orFail .tableTooBig
      (amqpEncodeBytes view bytes).orFail .tableTooBig) (sized bytes) :=
  accepts_amqpEncode32.andThen emits_amqpEncode32 accepts_amqpEncodeBytes

end Acceptance

mutual

theorem accepts_amqpEncodeFieldValue (view : View) (entry : FieldValue)
    (known : ∀ component ∈ entry.components, component.Known) :
    Accepts view (amqpEncodeFieldValue view entry) entry.wire := by
  unfold amqpEncodeFieldValue FieldValue.wire
  refine Accepts.andThen emits_amqpEncode8 accepts_amqpEncode8 ?_
  unfold FieldValue.components at known
  cases entry with
  | boolean value => exact accepts_amqpEncode8
  | i8 value => exact accepts_amqpEncode8
  | u8 value => exact accepts_amqpEncode8
  | i16 value => exact accepts_amqpEncode16
  | u16 value => exact accepts_amqpEncode16
  | i32 value => exact accepts_amqpEncode32
  | u32 value => exact accepts_amqpEncode32
  | i64 value => exact accepts_amqpEncode64
  | u64 value => exact accepts_amqpEncode64
  | f32 bits => exact accepts_amqpEncode32
  | f64 bits => exact accepts_amqpEncode64
  | decimal decimals value => exact accepts_amqpEncode8.andThen emits_amqpEncode8 accepts_amqpEncode32
  | utf8 bytes => exact accepts_string
  | array entries =>
      exact Accepts.encodeSized (emits_encodeArrayEntries view entries)
        (accepts_encodeArrayEntries view entries fun component member =>
          known component (List.mem_cons_of_mem _ member))
  | timestamp value => exact accepts_amqpEncode64
  | table entries =>
      exact Accepts.encodeSized (emits_encodeTableEntries view entries)
        (accepts_encodeTableEntries view entries fun component member =>
          known component (List.mem_cons_of_mem _ member))
  | void => exact accepts_pure
  | bytes bytes => exact accepts_string
  | unknown kind => exact (known _ List.mem_cons_self).elim

theorem accepts_encodeArrayEntries (view : View) (entries : List FieldValue)
    (known : ∀ component ∈ arrayComponents entries, component.Known) :
    Accepts view (encodeArrayEntries view entries) (arrayContent entries) := by
  cases entries with
  | nil => exact accepts_pure
  | cons entry entries =>
      refine Accepts.andThen (emits_amqpEncodeFieldValue view entry)
        (accepts_amqpEncodeFieldValue view entry ?_) (accepts_encodeArrayEntries view entries ?_)
      · exact fun component member => known component (List.mem_append_left _ member)
      · exact fun component member => known component (List.mem_append_right _ member)

theorem accepts_encodeTableEntry (view : View) (entry : TableEntry)
    (known : ∀ component ∈ entry.components, component.Known) :
    Accepts view (encodeTableEntry view entry) entry.wire := by
  cases entry with
  | mk key value =>
      refine Accepts.andThen emits_amqpEncode8 accepts_amqpEncode8
        (Accepts.andThen emits_amqpEncodeBytes accepts_amqpEncodeBytes
          (accepts_amqpEncodeFieldValue view value ?_))
      exact fun component member => known component (List.mem_cons_of_mem _ member)

theorem accepts_encodeTableEntries (view : View) (entries : List TableEntry)
    (known : ∀ component ∈ tableComponents entries, component.Known) :
    Accepts view (encodeTableEntries view entries) (tableContent entries) := by
  cases entries with
  | nil => exact accepts_pure
  | cons entry entries =>
      refine Accepts.andThen (emits_encodeTableEntry view entry)
        (accepts_encodeTableEntry view entry ?_) (accepts_encodeTableEntries view entries ?_)
      · exact fun component member => known component (List.mem_append_left _ member)
      · exact fun component member => known component (List.mem_append_right _ member)

end

theorem accepts_amqpEncodeTable (view : View) {table : Table}
    (known : table.Every Component.Known) :
    Accepts view (amqpEncodeTable view table) (tableWire table) :=
  Accepts.encodeSized (emits_encodeTableEntries view table)
    (accepts_encodeTableEntries view table fun component member =>
      known component (List.mem_cons_of_mem _ member))

/-! ## Reading the wire form back -/

mutual

/-- The value with its booleans reduced to zero and one. -/
def FieldValue.normalise : FieldValue → FieldValue
  | .boolean value => .boolean (if value ≠ 0 then 1 else 0)
  | .array entries => .array (normaliseArray entries)
  | .table entries => .table (normaliseTable entries)
  | entry => entry

def normaliseArray : List FieldValue → List FieldValue
  | [] => []
  | entry :: entries => entry.normalise :: normaliseArray entries

def TableEntry.normalise : TableEntry → TableEntry
  | .mk key value => .mk key value.normalise

def normaliseTable : List TableEntry → List TableEntry
  | [] => []
  | entry :: entries => entry.normalise :: normaliseTable entries

end

theorem length_normaliseArray (entries : List FieldValue) :
    (normaliseArray entries).length = entries.length := by
  induction entries with
  | nil => rfl
  | cons entry entries ih => rw [normaliseArray, List.length_cons, List.length_cons, ih]

theorem length_normaliseTable (entries : List TableEntry) :
    (normaliseTable entries).length = entries.length := by
  induction entries with
  | nil => rfl
  | cons entry entries ih => rw [normaliseTable, List.length_cons, List.length_cons, ih]

section Decoding

variable {encoded : Encoded}

/-- The size word of stored contents gives the offset at which they end. -/
private theorem decodeLimit_sized {content : List UInt8} {offset : Nat}
    (small : content.length < 2 ^ 32)
    (stored : encoded.mem.Holds (encoded.base + offset) (sized content))
    (room : offset + (sized content).length ≤ encoded.len) :
    decodeLimit encoded ⟨offset, []⟩ = .ok (offset + 4 + content.length) ⟨offset + 4, []⟩ := by
  have inside := stored.1
  have bounded : encoded.mem.size < 2 ^ 63 := encoded.mem.size_lt
  rw [length_sized] at room inside
  have word := (reads_amqpDecode32).orBad (Buffer.holds_append.mp stored).1
    (by rw [BigEndian.length_bytes]; omega)
  rw [BigEndian.length_bytes] at word
  have counted : (UInt32.ofNat content.length).toNat = content.length :=
    UInt32.toNat_ofNat_of_lt' small
  have sum : sizeAdd (offset + 4) content.length = offset + 4 + content.length :=
    sizeAdd_of_lt (by omega)
  have within : sizeAdd content.length (offset + 4) ≤ encoded.len := by
    rw [sizeAdd_of_lt (by omega)]
    omega
  unfold decodeLimit
  rw [Effect.bind_of_ok word, Effect.bind_of_ok (Effect.get_run _)]
  simp only [counted, if_neg (Nat.not_lt.mpr within), sum]
  rfl

private theorem reads_string {bytes : List UInt8} (small : bytes.length < 2 ^ 32)
    (build : List UInt8 → FieldValue) :
    Reads encoded (do
      let len ← (amqpDecode32 encoded).orBad
      let bytes ← (amqpDecodeBytes encoded len.toNat).orBad
      return build bytes) (sized bytes) (build bytes) := by
  refine Reads.andThen reads_amqpDecode32.orBad ?_
  have counted : (UInt32.ofNat bytes.length).toNat = bytes.length :=
    UInt32.toNat_ofNat_of_lt' small
  simp only [counted]
  exact reads_amqpDecodeBytes.orBad.map build

/-- A container is read back when its loop reads the contents up to the limit. -/
private theorem reads_sized {α : Type} {loop : Nat → Decoder (List α)} {content : List UInt8}
    {entries : List α} (small : content.length < 2 ^ 32)
    (looped : ∀ offset, encoded.mem.Holds (encoded.base + offset) content →
      offset + content.length ≤ encoded.len →
      loop (offset + content.length) ⟨offset, []⟩ = .ok entries ⟨offset + content.length, []⟩) :
    Reads encoded (do
      let limit ← decodeLimit encoded
      let entries ← loop limit
      keepEntries entries) (sized content) entries := by
  intro offset stored room
  have contents := (Buffer.holds_append.mp stored).2
  rw [BigEndian.length_bytes, Nat.add_assoc] at contents
  have bound := room
  rw [length_sized, ← Nat.add_assoc] at bound
  rw [Effect.bind_of_ok (decodeLimit_sized small stored room),
    Effect.bind_of_ok (looped (offset + 4) contents bound), keepEntries_succeeds,
    length_sized, Nat.add_assoc]

end Decoding

mutual

theorem reads_decodeFieldValue (encoded : Encoded) (entry : FieldValue) (fuel : Nat)
    (enough : entry.wire.length ≤ fuel)
    (decodable : ∀ component ∈ entry.components, component.Decodable) :
    Reads encoded (decodeFieldValue fuel encoded) entry.wire entry.normalise := by
  cases fuel with
  | zero =>
      have positive := entry.wire_length_pos
      omega
  | succ fuel =>
      unfold FieldValue.wire at enough
      unfold decodeFieldValue FieldValue.wire
      rw [List.length_append, BigEndian.length_bytes] at enough
      refine Reads.andThen reads_amqpDecode8.orBad ?_
      unfold FieldValue.components at decodable
      have own := decodable _ List.mem_cons_self
      cases entry with
      | boolean value =>
          have word := (@reads_amqpDecode8 encoded (if value ≠ 0 then 1 else 0)).orBad.map
            fun val => FieldValue.boolean (if val ≠ 0 then 1 else 0)
          by_cases zero : value = 0
          · simpa [FieldValue.kind, FieldValue.normalise, zero] using word
          · simpa [FieldValue.kind, FieldValue.normalise, zero] using word
      | i8 value => exact reads_amqpDecode8.orBad.map fun val => FieldValue.i8 val.toInt8
      | u8 value => exact reads_amqpDecode8.orBad.map FieldValue.u8
      | i16 value => exact reads_amqpDecode16.orBad.map fun val => FieldValue.i16 val.toInt16
      | u16 value => exact reads_amqpDecode16.orBad.map FieldValue.u16
      | i32 value => exact reads_amqpDecode32.orBad.map fun val => FieldValue.i32 val.toInt32
      | u32 value => exact reads_amqpDecode32.orBad.map FieldValue.u32
      | i64 value => exact reads_amqpDecode64.orBad.map fun val => FieldValue.i64 val.toInt64
      | u64 value => exact reads_amqpDecode64.orBad.map FieldValue.u64
      | f32 bits => exact reads_amqpDecode32.orBad.map FieldValue.f32
      | f64 bits => exact reads_amqpDecode64.orBad.map FieldValue.f64
      | decimal decimals value =>
          exact reads_amqpDecode8.orBad.andThen
            (reads_amqpDecode32.orBad.map fun val => FieldValue.decimal decimals val)
      | utf8 bytes =>
          have small : bytes.length < 2 ^ 32 := by
            have short := own.inLength
            simp only [Component.Overlong] at short
            omega
          exact reads_string small FieldValue.utf8
      | array entries =>
          rw [length_sized] at enough
          cases fuel with
          | zero => omega
          | succ fuel =>
              have container : Reads encoded (decodeArray (fuel + 1) encoded)
                  (sized (arrayContent entries)) (normaliseArray entries) := by
                unfold decodeArray
                refine reads_sized own.countable ?_
                exact fun offset stored room =>
                  reads_decodeArrayEntries encoded entries fuel offset 0 initialEntries
                    (by omega) reserved_initial ((Nat.zero_add _).trans_le own.few)
                    (fun component member =>
                      decodable component (List.mem_cons_of_mem _ member)) stored room
              exact container.map FieldValue.array
      | timestamp value => exact reads_amqpDecode64.orBad.map FieldValue.timestamp
      | table entries =>
          rw [length_sized] at enough
          cases fuel with
          | zero => omega
          | succ fuel =>
              have container : Reads encoded (decodeTable (fuel + 1) encoded)
                  (sized (tableContent entries)) (normaliseTable entries) := by
                unfold decodeTable
                refine reads_sized own.countable ?_
                exact fun offset stored room =>
                  reads_decodeTableEntries encoded entries fuel offset 0 initialEntries
                    (by omega) reserved_initial ((Nat.zero_add _).trans_le own.few)
                    (fun component member =>
                      decodable component (List.mem_cons_of_mem _ member)) stored room
              exact container.map FieldValue.table
      | void => exact reads_pure
      | bytes bytes =>
          have small : bytes.length < 2 ^ 32 := by
            have short := own.inLength
            simp only [Component.Overlong] at short
            omega
          exact reads_string small FieldValue.bytes
      | unknown kind => exact own.known.elim

/-- The loop stops exactly behind the last of the stored entries. -/
theorem reads_decodeArrayEntries (encoded : Encoded) (entries : List FieldValue)
    (fuel offset numEntries allocated : Nat) (enough : (arrayContent entries).length < fuel)
    (reserved : Reserved numEntries allocated) (few : numEntries + entries.length ≤ maxEntries)
    (decodable : ∀ component ∈ arrayComponents entries, component.Decodable)
    (stored : encoded.mem.Holds (encoded.base + offset) (arrayContent entries))
    (room : offset + (arrayContent entries).length ≤ encoded.len) :
    decodeArrayEntries fuel encoded (offset + (arrayContent entries).length) numEntries allocated
      ⟨offset, []⟩ = .ok (normaliseArray entries) ⟨offset + (arrayContent entries).length, []⟩ := by
  cases fuel with
  | zero => omega
  | succ fuel =>
      unfold decodeArrayEntries
      rw [Effect.bind_of_ok (Effect.get_run _)]
      cases entries with
      | nil => simp [arrayContent, normaliseArray]
      | cons entry entries =>
          simp only [arrayContent, List.length_append, List.length_cons, normaliseArray] at *
          obtain ⟨headStored, tailStored⟩ := Buffer.holds_append.mp stored
          have positive := entry.wire_length_pos
          obtain ⟨available, next, returned⟩ := reserved.reserve_succeeds (by omega) offset
          have head := reads_decodeFieldValue encoded entry fuel (by omega)
            (fun component member => decodable component (List.mem_append_left _ member))
            headStored (by omega)
          have tail := reads_decodeArrayEntries encoded entries fuel (offset + entry.wire.length)
            (numEntries + 1) available (by omega) next (by omega)
            (fun component member => decodable component (List.mem_append_right _ member))
            (by rw [← Nat.add_assoc]; exact tailStored) (by omega)
          rw [Nat.add_assoc] at tail
          rw [if_pos (by omega), Effect.bind_of_ok returned, Effect.bind_of_ok head,
            Effect.bind_of_ok tail]
          rfl

theorem reads_decodeTableEntries (encoded : Encoded) (entries : List TableEntry)
    (fuel offset numEntries allocated : Nat) (enough : (tableContent entries).length < fuel)
    (reserved : Reserved numEntries allocated) (few : numEntries + entries.length ≤ maxEntries)
    (decodable : ∀ component ∈ tableComponents entries, component.Decodable)
    (stored : encoded.mem.Holds (encoded.base + offset) (tableContent entries))
    (room : offset + (tableContent entries).length ≤ encoded.len) :
    decodeTableEntries fuel encoded (offset + (tableContent entries).length) numEntries allocated
      ⟨offset, []⟩ = .ok (normaliseTable entries) ⟨offset + (tableContent entries).length, []⟩ := by
  cases fuel with
  | zero => omega
  | succ fuel =>
      unfold decodeTableEntries
      rw [Effect.bind_of_ok (Effect.get_run _)]
      cases entries with
      | nil => simp [tableContent, normaliseTable]
      | cons entry entries =>
          cases entry with
          | mk key value =>
              simp only [tableContent, TableEntry.wire, tableComponents, TableEntry.components,
                List.length_append, List.length_cons, BigEndian.length_bytes, normaliseTable,
                TableEntry.normalise] at *
              obtain ⟨entryStored, tailStored⟩ := Buffer.holds_append.mp stored
              obtain ⟨lengthStored, restStored⟩ := Buffer.holds_append.mp entryStored
              obtain ⟨keyStored, valueStored⟩ := Buffer.holds_append.mp restStored
              simp only [List.length_append, BigEndian.length_bytes, Nat.add_assoc]
                at keyStored valueStored tailStored
              have short : key.length < 256 := by
                have bounded := (decodable (.key key) (by simp)).inLength
                simp only [Component.Overlong] at bounded
                omega
              have counted : (UInt8.ofNat key.length).toNat = key.length :=
                UInt8.toNat_ofNat_of_lt' short
              have lengthRead := reads_amqpDecode8.orBad lengthStored
                (by rw [BigEndian.length_bytes]; omega)
              rw [BigEndian.length_bytes] at lengthRead
              obtain ⟨available, next, returned⟩ :=
                reserved.reserve_succeeds (by omega) (offset + 1)
              have keyRead := reads_amqpDecodeBytes.orBad keyStored (by omega)
              have valueRead := @reads_decodeFieldValue encoded value fuel (by omega)
                (fun component member => decodable component (by simp [member]))
                (offset + 1 + key.length)
                (by simpa only [Nat.add_assoc] using valueStored) (by omega)
              have tail := reads_decodeTableEntries encoded entries fuel
                (offset + 1 + key.length + value.wire.length) (numEntries + 1) available
                (by omega) next (by omega)
                (fun component member => decodable component (by simp [member]))
                (by simpa only [Nat.add_assoc] using tailStored) (by omega)
              have stop : offset + 1 + key.length + value.wire.length +
                  (tableContent entries).length =
                  offset + (1 + (key.length + value.wire.length) +
                    (tableContent entries).length) := by omega
              rw [stop] at tail
              rw [if_pos (by omega), Effect.bind_of_ok lengthRead, Effect.bind_of_ok returned]
              simp only [counted]
              rw [Effect.bind_of_ok keyRead, Effect.bind_of_ok valueRead, Effect.bind_of_ok tail]
              rfl

end

theorem reads_decodeTable (encoded : Encoded) {table : Table} {fuel : Nat}
    (enough : (tableWire table).length ≤ fuel) (decodable : table.Every Component.Decodable) :
    Reads encoded (decodeTable fuel encoded) (tableWire table) (normaliseTable table) := by
  unfold tableWire at *
  rw [length_sized] at enough
  cases fuel with
  | zero => omega
  | succ fuel =>
      unfold decodeTable
      have own := decodable _ List.mem_cons_self
      refine reads_sized own.countable ?_
      exact fun offset stored room =>
        reads_decodeTableEntries encoded table fuel offset 0 initialEntries (by omega)
          reserved_initial ((Nat.zero_add _).trans_le own.few)
          (fun component member => decodable component (List.mem_cons_of_mem _ member))
          stored room

/-! ## Values the encoder has no case for -/

mutual

theorem known_of_amqpEncodeFieldValue {view : View} (entry : FieldValue)
    {before after : EncodeState} (returned : amqpEncodeFieldValue view entry before = .ok () after) :
    ∀ component ∈ entry.components, component.Known := by
  unfold amqpEncodeFieldValue at returned
  obtain ⟨_, middle, _, rest⟩ := Effect.bind_eq_ok.mp returned
  unfold FieldValue.components
  cases entry with
  | array entries =>
      obtain ⟨_, _, _, body⟩ := Effect.bind_eq_ok.mp rest
      obtain ⟨_, _, looped, _⟩ := Effect.bind_eq_ok.mp body
      simp only [List.mem_cons, forall_eq_or_imp]
      exact ⟨trivial, known_of_encodeArrayEntries entries looped⟩
  | table entries =>
      obtain ⟨_, _, _, body⟩ := Effect.bind_eq_ok.mp rest
      obtain ⟨_, _, looped, _⟩ := Effect.bind_eq_ok.mp body
      simp only [List.mem_cons, forall_eq_or_imp]
      exact ⟨trivial, known_of_encodeTableEntries entries looped⟩
  | unknown kind => cases rest
  | _ =>
      simp only [List.mem_cons, List.not_mem_nil, or_false, forall_eq]
      trivial

theorem known_of_encodeArrayEntries {view : View} (entries : List FieldValue)
    {before after : EncodeState} (returned : encodeArrayEntries view entries before = .ok () after) :
    ∀ component ∈ arrayComponents entries, component.Known := by
  cases entries with
  | nil => simp [arrayComponents]
  | cons entry entries =>
      obtain ⟨_, _, head, tail⟩ := Effect.bind_eq_ok.mp returned
      simp only [arrayComponents, List.forall_mem_append]
      exact ⟨known_of_amqpEncodeFieldValue entry head, known_of_encodeArrayEntries entries tail⟩

theorem known_of_encodeTableEntries {view : View} (entries : List TableEntry)
    {before after : EncodeState} (returned : encodeTableEntries view entries before = .ok () after) :
    ∀ component ∈ tableComponents entries, component.Known := by
  cases entries with
  | nil => simp [tableComponents]
  | cons entry entries =>
      obtain ⟨_, _, head, tail⟩ := Effect.bind_eq_ok.mp returned
      cases entry with
      | mk key value =>
          obtain ⟨_, _, _, rest⟩ := Effect.bind_eq_ok.mp head
          obtain ⟨_, _, _, body⟩ := Effect.bind_eq_ok.mp rest
          simp only [tableComponents, TableEntry.components, List.forall_mem_append,
            List.mem_cons, forall_eq_or_imp]
          exact ⟨⟨trivial, known_of_amqpEncodeFieldValue value body⟩,
            known_of_encodeTableEntries entries tail⟩

end

theorem known_of_amqpEncodeTable {view : View} {table : Table} {before after : EncodeState}
    (returned : amqpEncodeTable view table before = .ok () after) :
    table.Every Component.Known := by
  obtain ⟨_, _, _, body⟩ := Effect.bind_eq_ok.mp returned
  obtain ⟨_, _, looped, _⟩ := Effect.bind_eq_ok.mp body
  unfold Table.Every FieldValue.components
  simp only [List.mem_cons, forall_eq_or_imp]
  exact ⟨trivial, known_of_encodeTableEntries table looped⟩

/-! ## Components of a short encoding -/

mutual

/-- No length or size word counts more octets than the encoding has. -/
theorem FieldValue.counted_le (entry : FieldValue) :
    ∀ component ∈ entry.components, component.counted ≤ entry.wire.length := by
  unfold FieldValue.components FieldValue.wire
  rw [List.length_append]
  cases entry with
  | utf8 bytes | bytes bytes =>
      simp only [List.mem_cons, List.not_mem_nil, or_false, forall_eq, Component.counted,
        length_sized]
      omega
  | array entries =>
      simp only [List.mem_cons, forall_eq_or_imp, length_sized]
      refine ⟨by simp only [Component.counted]; omega, fun component member => ?_⟩
      have bound := arrayContent_counted_le entries component member
      omega
  | table entries =>
      simp only [List.mem_cons, forall_eq_or_imp, length_sized]
      refine ⟨by simp only [Component.counted]; omega, fun component member => ?_⟩
      have bound := tableContent_counted_le entries component member
      omega
  | _ =>
      simp only [List.mem_cons, List.not_mem_nil, or_false, forall_eq, Component.counted]
      omega

theorem arrayContent_counted_le (entries : List FieldValue) :
    ∀ component ∈ arrayComponents entries,
      component.counted ≤ (arrayContent entries).length := by
  cases entries with
  | nil => simp [arrayComponents]
  | cons entry entries =>
      simp only [arrayComponents, arrayContent, List.forall_mem_append, List.length_append]
      refine ⟨fun component member => ?_, fun component member => ?_⟩
      · have bound := entry.counted_le component member
        omega
      · have bound := arrayContent_counted_le entries component member
        omega

theorem tableContent_counted_le (entries : List TableEntry) :
    ∀ component ∈ tableComponents entries,
      component.counted ≤ (tableContent entries).length := by
  cases entries with
  | nil => simp [tableComponents]
  | cons entry entries =>
      cases entry with
      | mk key value =>
          simp only [tableComponents, TableEntry.components, tableContent, TableEntry.wire,
            List.forall_mem_append, List.mem_cons, forall_eq_or_imp, List.length_append]
          refine ⟨⟨by simp only [Component.counted]; omega, fun component member => ?_⟩,
            fun component member => ?_⟩
          · have bound := value.counted_le component member
            omega
          · have bound := tableContent_counted_le entries component member
            omega

end

/-- In an encoding below `2 ^ 32` octets only keys can be too long. -/
theorem Component.decodable_of_counted {component : Component} (known : component.Known)
    (short : component.Short) (small : component.counted < 2 ^ 32) :
    component.Decodable := by
  refine ⟨known, ?_, ?_, short.2⟩
  · cases component with
    | key bytes =>
        have bound : bytes.length ≤ 255 := short.1
        simp only [Component.Overlong]
        omega
    | value entry =>
        cases entry with
        | utf8 bytes | bytes bytes =>
            simp only [Component.Overlong, Component.counted] at *
            omega
        | _ => simp [Component.Overlong]
  · cases component with
    | key bytes => trivial
    | value entry =>
        cases entry with
        | array entries | table entries => exact small
        | _ => trivial

theorem Table.every_decodable {table : Table} (known : table.Every Component.Known)
    (short : table.Every Component.Short) (small : (tableWire table).length < 2 ^ 32) :
    table.Every Component.Decodable := by
  intro component member
  refine Component.decodable_of_counted (known component member) (short component member) ?_
  have content : component.counted ≤ (tableContent table).length := by
    unfold FieldValue.components at member
    rcases List.mem_cons.mp member with rfl | inner
    · exact Nat.le_refl _
    · exact tableContent_counted_le table component inner
  rw [tableWire, length_sized] at small
  omega

/-! ## The round trip -/

theorem tableWire_ne_nil (table : Table) : tableWire table ≠ [] := by
  rw [ne_eq, ← List.length_eq_zero_iff, tableWire, length_sized]
  omega

theorem amqpDecodeTable_of_written {view : View} {table : Table} {before after : EncodeState}
    (written : Written view (tableWire table) before after)
    (decodable : table.Every Component.Decodable) :
    amqpDecodeTable { view with mem := after.mem } ⟨before.offset, []⟩ =
      .ok (normaliseTable table) ⟨after.offset, []⟩ := by
  obtain ⟨room, inside⟩ := written.fits (tableWire_ne_nil table)
  have enough : (tableWire table).length ≤ view.len + 3 := by omega
  have read := reads_decodeTable { view with mem := after.mem } enough decodable
    (written.holds inside) room
  rw [written.offset]
  exact read

end RabbitmqC
