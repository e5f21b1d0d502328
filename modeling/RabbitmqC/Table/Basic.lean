import RabbitmqC.Codec.Base

/-!
# Field tables

`amqp_table_t`, `amqp_array_t` and `amqp_field_value_t`, with the encoder and
the decoder of `amqp_table.c`. The three encoders and the three decoders are
mutually recursive; the loops over the entries are functions of their own.
-/

set_option autoImplicit false

namespace RabbitmqC

/-! ## Values -/

/-- `amqp_field_value_kind_t`. -/
inductive FieldKind where
  | boolean | i8 | u8 | i16 | u16 | i32 | u32 | i64 | u64 | f32 | f64 | decimal
  | utf8 | array | timestamp | table | void | bytes
  deriving DecidableEq, Repr

namespace FieldKind

def octet : FieldKind → UInt8
  | boolean => 116
  | i8 => 98
  | u8 => 66
  | i16 => 115
  | u16 => 117
  | i32 => 73
  | u32 => 105
  | i64 => 108
  | u64 => 76
  | f32 => 102
  | f64 => 100
  | decimal => 68
  | utf8 => 83
  | array => 65
  | timestamp => 84
  | table => 70
  | void => 86
  | bytes => 120

def all : List FieldKind :=
  [boolean, i8, u8, i16, u16, i32, u32, i64, u64, f32, f64, decimal, utf8, array, timestamp,
    table, void, bytes]

/-- The case of the `switch` that a kind octet selects; `none` is its `default`. -/
def ofOctet (octet : UInt8) : Option FieldKind :=
  all.find? fun kind => kind.octet == octet

@[simp] theorem ofOctet_octet (kind : FieldKind) : ofOctet kind.octet = some kind := by
  cases kind <;> rfl

theorem ofOctet_eq_some_iff {octet : UInt8} {kind : FieldKind} :
    ofOctet octet = some kind ↔ octet = kind.octet := by
  constructor
  · intro found
    have same := List.find?_some found
    exact (eq_of_beq same).symm
  · rintro rfl
    exact ofOctet_octet kind

end FieldKind

/-- A kind octet that no case of the `switch` covers. -/
abbrev UnknownKind := { octet : UInt8 // FieldKind.ofOctet octet = none }

mutual

/-- `amqp_field_value_t`. A floating point number is the bit pattern it is punned to. -/
inductive FieldValue where
  | boolean (value : Int32)
  | i8 (value : Int8)
  | u8 (value : UInt8)
  | i16 (value : Int16)
  | u16 (value : UInt16)
  | i32 (value : Int32)
  | u32 (value : UInt32)
  | i64 (value : Int64)
  | u64 (value : UInt64)
  | f32 (bits : UInt32)
  | f64 (bits : UInt64)
  | decimal (decimals : UInt8) (value : UInt32)
  | utf8 (bytes : List UInt8)
  | array (entries : List FieldValue)
  | timestamp (value : UInt64)
  | table (entries : List TableEntry)
  | void
  | bytes (bytes : List UInt8)
  | unknown (kind : UnknownKind)

/-- `amqp_table_entry_t`. -/
inductive TableEntry where
  | mk (key : List UInt8) (value : FieldValue)

end

/-- `amqp_table_t`. -/
abbrev Table := List TableEntry

def FieldValue.kind : FieldValue → UInt8
  | .boolean _ => FieldKind.boolean.octet
  | .i8 _ => FieldKind.i8.octet
  | .u8 _ => FieldKind.u8.octet
  | .i16 _ => FieldKind.i16.octet
  | .u16 _ => FieldKind.u16.octet
  | .i32 _ => FieldKind.i32.octet
  | .u32 _ => FieldKind.u32.octet
  | .i64 _ => FieldKind.i64.octet
  | .u64 _ => FieldKind.u64.octet
  | .f32 _ => FieldKind.f32.octet
  | .f64 _ => FieldKind.f64.octet
  | .decimal _ _ => FieldKind.decimal.octet
  | .utf8 _ => FieldKind.utf8.octet
  | .array _ => FieldKind.array.octet
  | .timestamp _ => FieldKind.timestamp.octet
  | .table _ => FieldKind.table.octet
  | .void => FieldKind.void.octet
  | .bytes _ => FieldKind.bytes.octet
  | .unknown kind => kind.val

/-! ## Encoding -/

/-- Move the offset past the size word, which is filled in later on. -/
def skipSize : Encoder Nat := do
  let state ← get
  set { state with offset := sizeAdd state.offset 4 }
  return state.offset

/-- Fill in the size word at `start`; the offset itself stays where it is. -/
def patchSize (view : View) (start : Nat) : Encoder Unit := fun state =>
  let size := UInt32.ofNat (sizeSub (sizeSub state.offset start) 4)
  match (amqpEncode32 view size).orFail .tableTooBig { state with offset := start } with
  | .ok () patched => .ok () { patched with offset := state.offset }
  | .error failure patched => .error failure { patched with offset := state.offset }

/-- What `amqp_encode_array` and `amqp_encode_table` do around their loop. -/
def encodeSized (view : View) (loop : Encoder Unit) : Encoder Unit := do
  let start ← skipSize
  loop
  patchSize view start

mutual

def amqpEncodeFieldValue (view : View) (entry : FieldValue) : Encoder Unit := do
  (amqpEncode8 view entry.kind).orFail .badAmqpData
  match entry with
  | .boolean value => (amqpEncode8 view (if value ≠ 0 then 1 else 0)).orFail .tableTooBig
  | .i8 value => (amqpEncode8 view value.toUInt8).orFail .tableTooBig
  | .u8 value => (amqpEncode8 view value).orFail .tableTooBig
  | .i16 value => (amqpEncode16 view value.toUInt16).orFail .tableTooBig
  | .u16 value => (amqpEncode16 view value).orFail .tableTooBig
  | .i32 value => (amqpEncode32 view value.toUInt32).orFail .tableTooBig
  | .u32 value => (amqpEncode32 view value).orFail .tableTooBig
  | .i64 value => (amqpEncode64 view value.toUInt64).orFail .tableTooBig
  | .u64 value => (amqpEncode64 view value).orFail .tableTooBig
  | .f32 bits => (amqpEncode32 view bits).orFail .tableTooBig
  | .f64 bits => (amqpEncode64 view bits).orFail .tableTooBig
  | .decimal decimals value => do
      (amqpEncode8 view decimals).orFail .tableTooBig
      (amqpEncode32 view value).orFail .tableTooBig
  | .utf8 bytes => do
      (amqpEncode32 view (UInt32.ofNat bytes.length)).orFail .tableTooBig
      (amqpEncodeBytes view bytes).orFail .tableTooBig
  | .bytes bytes => do
      (amqpEncode32 view (UInt32.ofNat bytes.length)).orFail .tableTooBig
      (amqpEncodeBytes view bytes).orFail .tableTooBig
  | .array entries => encodeSized view (encodeArrayEntries view entries)
  | .timestamp value => (amqpEncode64 view value).orFail .tableTooBig
  | .table entries => encodeSized view (encodeTableEntries view entries)
  | .void => return
  | .unknown _ => throw (.status .invalidParameter)

/-- The loop of `amqp_encode_array`. -/
def encodeArrayEntries (view : View) : List FieldValue → Encoder Unit
  | [] => return
  | entry :: entries => do
      amqpEncodeFieldValue view entry
      encodeArrayEntries view entries

/-- The body of the loop of `amqp_encode_table`. -/
def encodeTableEntry (view : View) : TableEntry → Encoder Unit
  | .mk key value => do
      -- The length is narrowed to the octet that holds it; the key is copied in full.
      (amqpEncode8 view (UInt8.ofNat key.length)).orFail .tableTooBig
      (amqpEncodeBytes view key).orFail .tableTooBig
      amqpEncodeFieldValue view value

/-- The loop of `amqp_encode_table`. -/
def encodeTableEntries (view : View) : List TableEntry → Encoder Unit
  | [] => return
  | entry :: entries => do
      encodeTableEntry view entry
      encodeTableEntries view entries

end

def amqpEncodeArray (view : View) (input : List FieldValue) : Encoder Unit :=
  encodeSized view (encodeArrayEntries view input)

def amqpEncodeTable (view : View) (input : Table) : Encoder Unit :=
  encodeSized view (encodeTableEntries view input)

/-! ## Decoding -/

/-- `INITIAL_ARRAY_SIZE` and `INITIAL_TABLE_SIZE`. -/
def initialEntries : Nat := 16

/-- The entries that a table or an array can have: as `allocated_entries` is doubled up to here. -/
def maxEntries : Nat := 2 ^ 30

/-- Make room for one more entry in the block that collects them. The `int`
`allocated_entries` cannot be doubled once it is `2 ^ 30`. -/
def reserve (numEntries allocatedEntries : Nat) : Decoder Nat := do
  if numEntries ≥ allocatedEntries then
    if allocatedEntries * 2 ≥ 2 ^ 31 then
      throw (.fault .signedOverflow)
    else if ← allocate then
      return allocatedEntries * 2
    else
      throw (.status .noMemory)
  else
    return allocatedEntries

/-- The size word of a table or an array, the first block for its entries, and
the offset at which the loop over them ends. -/
def decodeLimit (encoded : Encoded) : Decoder Nat := do
  let size ← (amqpDecode32 encoded).orBad
  let state ← get
  if sizeAdd size.toNat state.offset > encoded.len then
    throw (.status .badAmqpData)
  else if ← allocate then
    return sizeAdd state.offset size.toNat
  else
    throw (.status .noMemory)

/-- Move the entries to the pool. `NULL` is legitimate for a zero-length block. -/
def keepEntries {α : Type} (entries : List α) : Decoder (List α) := do
  if entries.length = 0 then
    return entries
  else if ← allocate then
    return entries
  else
    throw (.status .noMemory)

mutual

/-- The `while` loop of `amqp_decode_array`. -/
def decodeArrayEntries (fuel : Nat) (encoded : Encoded) (limit numEntries allocated : Nat) :
    Decoder (List FieldValue) :=
  match fuel with
  | 0 => throw (.fault .outOfFuel)
  | fuel + 1 => do
      let state ← get
      if state.offset < limit then do
        let allocated ← reserve numEntries allocated
        let entry ← decodeFieldValue fuel encoded
        let entries ← decodeArrayEntries fuel encoded limit (numEntries + 1) allocated
        return entry :: entries
      else
        return []

/-- The `while` loop of `amqp_decode_table`. -/
def decodeTableEntries (fuel : Nat) (encoded : Encoded) (limit numEntries allocated : Nat) :
    Decoder (List TableEntry) :=
  match fuel with
  | 0 => throw (.fault .outOfFuel)
  | fuel + 1 => do
      let state ← get
      if state.offset < limit then do
        let keylen ← (amqpDecode8 encoded).orBad
        let allocated ← reserve numEntries allocated
        let key ← (amqpDecodeBytes encoded keylen.toNat).orBad
        let value ← decodeFieldValue fuel encoded
        let entries ← decodeTableEntries fuel encoded limit (numEntries + 1) allocated
        return .mk key value :: entries
      else
        return []

def decodeArray (fuel : Nat) (encoded : Encoded) : Decoder (List FieldValue) :=
  match fuel with
  | 0 => throw (.fault .outOfFuel)
  | fuel + 1 => do
      let limit ← decodeLimit encoded
      let entries ← decodeArrayEntries fuel encoded limit 0 initialEntries
      keepEntries entries

def decodeTable (fuel : Nat) (encoded : Encoded) : Decoder Table :=
  match fuel with
  | 0 => throw (.fault .outOfFuel)
  | fuel + 1 => do
      let limit ← decodeLimit encoded
      let entries ← decodeTableEntries fuel encoded limit 0 initialEntries
      keepEntries entries

def decodeFieldValue (fuel : Nat) (encoded : Encoded) : Decoder FieldValue :=
  match fuel with
  | 0 => throw (.fault .outOfFuel)
  | fuel + 1 => do
      let kind ← (amqpDecode8 encoded).orBad
      match FieldKind.ofOctet kind with
      | some .boolean =>
          (fun val => .boolean (if val ≠ 0 then 1 else 0)) <$> (amqpDecode8 encoded).orBad
      | some .i8 => (fun val => .i8 val.toInt8) <$> (amqpDecode8 encoded).orBad
      | some .u8 => .u8 <$> (amqpDecode8 encoded).orBad
      | some .i16 => (fun val => .i16 val.toInt16) <$> (amqpDecode16 encoded).orBad
      | some .u16 => .u16 <$> (amqpDecode16 encoded).orBad
      | some .i32 => (fun val => .i32 val.toInt32) <$> (amqpDecode32 encoded).orBad
      | some .u32 => .u32 <$> (amqpDecode32 encoded).orBad
      | some .i64 => (fun val => .i64 val.toInt64) <$> (amqpDecode64 encoded).orBad
      | some .u64 => .u64 <$> (amqpDecode64 encoded).orBad
      | some .f32 => .f32 <$> (amqpDecode32 encoded).orBad
      | some .f64 => .f64 <$> (amqpDecode64 encoded).orBad
      | some .decimal => do
          let decimals ← (amqpDecode8 encoded).orBad
          let value ← (amqpDecode32 encoded).orBad
          return .decimal decimals value
      | some .utf8 => do
          let len ← (amqpDecode32 encoded).orBad
          let bytes ← (amqpDecodeBytes encoded len.toNat).orBad
          return .utf8 bytes
      | some .bytes => do
          let len ← (amqpDecode32 encoded).orBad
          let bytes ← (amqpDecodeBytes encoded len.toNat).orBad
          return .bytes bytes
      | some .array => .array <$> decodeArray fuel encoded
      | some .timestamp => .timestamp <$> (amqpDecode64 encoded).orBad
      | some .table => .table <$> decodeTable fuel encoded
      | some .void => return .void
      | none => throw (.status .badAmqpData)

end

/-- Every nested call and every turn of a loop reads at least one octet, so this
much recursion always suffices. -/
def decodeFuel (encoded : Encoded) : Nat := encoded.len + 3

def amqpDecodeTable (encoded : Encoded) : Decoder Table :=
  decodeTable (decodeFuel encoded) encoded

/-! ## Allocations that succeed -/

/-- The entries so far have room in a block whose size was doubled some times. -/
structure Reserved (numEntries allocatedEntries : Nat) : Prop where
  doubled : ∃ times ≤ 26, allocatedEntries = initialEntries * 2 ^ times
  room : numEntries ≤ allocatedEntries

theorem reserved_initial : Reserved 0 initialEntries := ⟨⟨0, by decide, rfl⟩, by decide⟩

namespace Reserved

variable {numEntries allocated : Nat}

theorem allocated_le (reserved : Reserved numEntries allocated) : allocated ≤ maxEntries := by
  obtain ⟨times, most, rfl⟩ := reserved.doubled
  calc initialEntries * 2 ^ times ≤ initialEntries * 2 ^ 26 :=
        Nat.mul_le_mul_left _ (Nat.pow_le_pow_right (by decide) most)
    _ = maxEntries := by decide

theorem few (reserved : Reserved numEntries allocated) : numEntries ≤ maxEntries :=
  Nat.le_trans reserved.room reserved.allocated_le

/-- Below the greatest size a block can be doubled. -/
theorem double (reserved : Reserved numEntries allocated) (below : allocated < maxEntries) :
    allocated * 2 < 2 ^ 31 ∧ Reserved (numEntries + 1) (allocated * 2) := by
  obtain ⟨⟨times, most, rfl⟩, room⟩ := reserved
  have less : times < 26 := by
    by_contra last
    rw [Nat.le_antisymm most (Nat.le_of_not_lt last)] at below
    exact absurd below (by decide)
  have positive : 0 < 2 ^ times := Nat.two_pow_pos times
  have next : initialEntries * 2 ^ times * 2 = initialEntries * 2 ^ (times + 1) := by
    rw [Nat.pow_succ, Nat.mul_assoc]
  have doubled : Reserved (numEntries + 1) (initialEntries * 2 ^ times * 2) := by
    refine ⟨⟨times + 1, less, next⟩, ?_⟩
    simp only [initialEntries] at room ⊢
    omega
  exact ⟨Nat.lt_of_le_of_lt doubled.allocated_le (by decide), doubled⟩

/-- The first `2 ^ 30` entries find room. -/
theorem reserve_succeeds (reserved : Reserved numEntries allocated)
    (few : numEntries < maxEntries) (offset : Nat) :
    ∃ available, Reserved (numEntries + 1) available ∧
      reserve numEntries allocated ⟨offset, []⟩ = .ok available ⟨offset, []⟩ := by
  unfold reserve
  split
  · rename_i full
    obtain ⟨narrow, doubled⟩ := reserved.double (Nat.lt_of_le_of_lt full few)
    rw [if_neg (Nat.not_le.mpr narrow)]
    exact ⟨allocated * 2, doubled, rfl⟩
  · rename_i room
    exact ⟨allocated, ⟨reserved.doubled, Nat.lt_of_not_le room⟩, rfl⟩

/-- The next one does not. -/
theorem reserve_overflows (reserved : Reserved numEntries allocated)
    (many : maxEntries ≤ numEntries) (state : DecodeState) :
    reserve numEntries allocated state = .error (.fault .signedOverflow) state := by
  have greatest : maxEntries ≤ allocated := Nat.le_trans many reserved.room
  have most : allocated ≤ numEntries := Nat.le_trans reserved.allocated_le many
  have wide : allocated * 2 ≥ 2 ^ 31 := Nat.mul_le_mul_right 2 greatest
  unfold reserve
  rw [if_pos most, if_pos wide]
  rfl

theorem of_reserve {available : Nat} {before after : DecodeState}
    (reserved : Reserved numEntries allocated)
    (returned : reserve numEntries allocated before = .ok available after) :
    numEntries < maxEntries ∧ Reserved (numEntries + 1) available := by
  have few : numEntries < maxEntries := by
    by_contra many
    rw [reserved.reserve_overflows (Nat.le_of_not_lt many)] at returned
    cases returned
  refine ⟨few, ?_⟩
  unfold reserve at returned
  split at returned
  · rename_i full
    obtain ⟨narrow, doubled⟩ := reserved.double (Nat.lt_of_le_of_lt full few)
    rw [if_neg (Nat.not_le.mpr narrow)] at returned
    obtain ⟨granted, middle, asked, rest⟩ := Effect.bind_eq_ok.mp returned
    cases granted with
    | false => cases rest
    | true =>
        cases rest
        exact doubled
  · rename_i room
    cases returned
    exact ⟨reserved.doubled, Nat.lt_of_not_le room⟩

end Reserved

theorem keepEntries_succeeds {α : Type} (entries : List α) (offset : Nat) :
    keepEntries entries ⟨offset, []⟩ = .ok entries ⟨offset, []⟩ := by
  unfold keepEntries
  split <;> rfl

/-! ## How decoding fails -/

private theorem plain_reserve {numEntries allocated : Nat} :
    Plain (reserve numEntries allocated) := by
  unfold reserve
  split
  · split
    · exact .throw (by decide)
    · refine .bind plain_allocate fun granted => ?_
      cases granted with
      | false => exact .throw (by decide)
      | true => exact .pure _
  · exact .pure _

private theorem plain_decodeLimit {encoded : Encoded} : Plain (decodeLimit encoded) := by
  refine .bind plain_amqpDecode32.orBad fun size => .bind .get fun state => ?_
  split
  · exact .throw (by decide)
  · refine .bind plain_allocate fun granted => ?_
    cases granted with
    | false => exact .throw (by decide)
    | true => exact .pure _

private theorem plain_keepEntries {α : Type} {entries : List α} :
    Plain (keepEntries entries) := by
  unfold keepEntries
  split
  · exact .pure _
  · refine .bind plain_allocate fun granted => ?_
    cases granted with
    | false => exact .throw (by decide)
    | true => exact .pure _

private theorem plain_string {encoded : Encoded} (build : List UInt8 → FieldValue) :
    Plain (do
      let len ← (amqpDecode32 encoded).orBad
      let bytes ← (amqpDecodeBytes encoded len.toNat).orBad
      return build bytes) :=
  .bind plain_amqpDecode32.orBad fun _ =>
    .bind plain_amqpDecodeBytes.orBad fun _ => .pure _

/-- The five mutually recursive decoders, by induction on the fuel. -/
private theorem plain_decoders (encoded : Encoded) (fuel : Nat) :
    Plain (decodeFieldValue fuel encoded) ∧
      (∀ limit numEntries allocated,
        Plain (decodeArrayEntries fuel encoded limit numEntries allocated)) ∧
      (∀ limit numEntries allocated,
        Plain (decodeTableEntries fuel encoded limit numEntries allocated)) ∧
      Plain (decodeArray fuel encoded) ∧ Plain (decodeTable fuel encoded) := by
  induction fuel with
  | zero =>
      have spent {α : Type} : Plain (throw (.fault .outOfFuel) : Decoder α) :=
        .throw (by decide)
      simp only [decodeFieldValue, decodeArrayEntries, decodeTableEntries, decodeArray,
        decodeTable]
      exact ⟨spent, fun _ _ _ => spent, fun _ _ _ => spent, spent, spent⟩
  | succ fuel ih =>
      obtain ⟨value, elements, entries, array, table⟩ := ih
      refine ⟨?_, fun limit numEntries allocated => ?_, fun limit numEntries allocated => ?_, ?_, ?_⟩
      · unfold decodeFieldValue
        refine .bind plain_amqpDecode8.orBad fun kind => ?_
        cases FieldKind.ofOctet kind with
        | none => exact .throw (by decide)
        | some kind =>
            cases kind with
            | boolean | i8 | u8 => exact plain_amqpDecode8.orBad.map _
            | i16 | u16 => exact plain_amqpDecode16.orBad.map _
            | i32 | u32 | f32 => exact plain_amqpDecode32.orBad.map _
            | i64 | u64 | f64 | timestamp => exact plain_amqpDecode64.orBad.map _
            | decimal =>
                exact .bind plain_amqpDecode8.orBad fun _ =>
                  .bind plain_amqpDecode32.orBad fun _ => .pure _
            | utf8 => exact plain_string FieldValue.utf8
            | bytes => exact plain_string FieldValue.bytes
            | array => exact array.map _
            | table => exact table.map _
            | void => exact .pure _
      · unfold decodeArrayEntries
        refine .bind .get fun state => ?_
        split
        · exact .bind plain_reserve fun _ => .bind value fun _ =>
            .bind (elements _ _ _) fun _ => .pure _
        · exact .pure _
      · unfold decodeTableEntries
        refine .bind .get fun state => ?_
        split
        · exact .bind plain_amqpDecode8.orBad fun _ => .bind plain_reserve fun _ =>
            .bind plain_amqpDecodeBytes.orBad fun _ => .bind value fun _ =>
              .bind (entries _ _ _) fun _ => .pure _
        · exact .pure _
      · unfold decodeArray
        exact .bind plain_decodeLimit fun _ => .bind (elements _ _ _) fun _ =>
          plain_keepEntries
      · unfold decodeTable
        exact .bind plain_decodeLimit fun _ => .bind (entries _ _ _) fun _ =>
          plain_keepEntries

theorem plain_amqpDecodeTable {encoded : Encoded} : Plain (amqpDecodeTable encoded) :=
  (plain_decoders encoded _).2.2.2.2

end RabbitmqC
