import RabbitmqC.Table.Overflow
import RabbitmqC.Table.Delivery

/-!
# Encoding what was decoded

The octets a decoder consumes, compared with the encoding of the table it returns.
The decoder accepts any octet for a boolean, and entries that run past the end of
their container; the encoding is nevertheless as long as what was consumed, and
differs from it in container sizes and in booleans only.
-/

set_option autoImplicit false

namespace RabbitmqC

open Effect

/-! ## Octets that need not be reproduced -/

inductive OctetRole where
  | plain | size | boolean

mutual

/-- The roles of the octets of `FieldValue.wire`. -/
def FieldValue.roles : FieldValue → List OctetRole
  | .boolean _ => [.plain, .boolean]
  | .array entries => .plain :: (List.replicate 4 .size ++ arrayRoles entries)
  | .table entries => .plain :: (List.replicate 4 .size ++ tableRoles entries)
  | entry => List.replicate (1 + entry.valueSize) .plain

def arrayRoles : List FieldValue → List OctetRole
  | [] => []
  | entry :: entries => entry.roles ++ arrayRoles entries

def tableRoles : List TableEntry → List OctetRole
  | [] => []
  | .mk key value :: entries =>
      (List.replicate (1 + key.length) .plain ++ value.roles) ++ tableRoles entries

end

/-- The roles of the octets of `tableWire`. -/
def Table.roles (table : Table) : List OctetRole := List.replicate 4 .size ++ tableRoles table

/-- The octets that were read, and those written in their places: they differ at most in
container sizes and in booleans that are neither zero nor one. -/
inductive Reencodes : List OctetRole → List UInt8 → List UInt8 → Prop where
  | nil : Reencodes [] [] []
  | same {role : OctetRole} {roles : List OctetRole} {octet : UInt8} {read written : List UInt8} :
      Reencodes roles read written → Reencodes (role :: roles) (octet :: read) (octet :: written)
  | size {roles : List OctetRole} {old new : UInt8} {read written : List UInt8} :
      Reencodes roles read written → Reencodes (.size :: roles) (old :: read) (new :: written)
  | boolean {roles : List OctetRole} {old new : UInt8} {read written : List UInt8} :
      old ≠ 0 → old ≠ 1 →
      Reencodes roles read written → Reencodes (.boolean :: roles) (old :: read) (new :: written)

namespace Reencodes

theorem refl (role : OctetRole) (octets : List UInt8) :
    Reencodes (List.replicate octets.length role) octets octets := by
  induction octets with
  | nil => exact .nil
  | cons octet octets ih => exact .same ih

theorem sizes {read written : List UInt8} (lengths : read.length = written.length) :
    Reencodes (List.replicate written.length .size) read written := by
  induction written generalizing read with
  | nil =>
      rw [List.length_eq_zero_iff.mp lengths]
      exact .nil
  | cons new written ih =>
      cases read with
      | nil => cases lengths
      | cons old read => exact .size (ih (Nat.succ.inj lengths))

theorem length {roles : List OctetRole} {read written : List UInt8}
    (reencodes : Reencodes roles read written) : read.length = written.length := by
  induction reencodes with
  | nil => rfl
  | same _ ih => exact congrArg Nat.succ ih
  | size _ ih => exact congrArg Nat.succ ih
  | boolean _ _ _ ih => exact congrArg Nat.succ ih

theorem append {roles otherRoles : List OctetRole} {read written otherRead otherWritten : List UInt8}
    (first : Reencodes roles read written) (second : Reencodes otherRoles otherRead otherWritten) :
    Reencodes (roles ++ otherRoles) (read ++ otherRead) (written ++ otherWritten) := by
  induction first with
  | nil => exact second
  | same _ ih => exact .same ih
  | size _ ih => exact .size ih
  | boolean notZero notOne _ ih => exact .boolean notZero notOne ih

end Reencodes

/-! ## What a decoder consumes -/

/-- Between the two offsets stand octets that `wire` reproduces. -/
structure Spanned (encoded : Encoded) (roles : List OctetRole) (wire : List UInt8)
    (before after : DecodeState) : Prop where
  offset : after.offset = before.offset + wire.length
  room : wire ≠ [] → after.offset ≤ encoded.len
  octets : Reencodes roles
    (encoded.mem.bytes.slice (encoded.base + before.offset) wire.length) wire

/-- The octets stand somewhere in the buffer. -/
def Encoded.Contains (encoded : Encoded) (bytes : List UInt8) : Prop :=
  ∃ position, position + bytes.length ≤ encoded.len ∧
    encoded.mem.Holds (encoded.base + position) bytes

/-- A key or a byte string is a slice of the buffer. -/
def Component.SliceOf (encoded : Encoded) : Component → Prop
  | .key bytes => encoded.Contains bytes
  | .value (.utf8 bytes) => encoded.Contains bytes
  | .value (.bytes bytes) => encoded.Contains bytes
  | _ => True

/-- The components of a value that was decoded. -/
def Component.Read (encoded : Encoded) (component : Component) : Prop :=
  component.ShortKey ∧ component.SliceOf encoded

/-- Whatever `decode` returns reproduces what it has consumed. -/
def Recovers {α : Type} (encoded : Encoded) (decode : Decoder α) (roles : α → List OctetRole)
    (wire : α → List UInt8) (proper : α → Prop) : Prop :=
  ∀ ⦃before value after⦄, decode before = .ok value after →
    Spanned encoded (roles value) (wire value) before after ∧ proper value

section Consuming

variable {encoded : Encoded} {roles otherRoles : List OctetRole} {wire otherWire : List UInt8}
  {before middle after : DecodeState}

/-- Only allocations have been made. -/
theorem spanned_nothing (same : after.offset = before.offset) :
    Spanned encoded [] [] before after where
  offset := same
  room nonempty := absurd rfl nonempty
  octets := by
    rw [List.length_nil, List.slice_zero]
    exact .nil

theorem Spanned.append (first : Spanned encoded roles wire before middle)
    (second : Spanned encoded otherRoles otherWire middle after) :
    Spanned encoded (roles ++ otherRoles) (wire ++ otherWire) before after where
  offset := by
    rw [second.offset, first.offset, List.length_append, Nat.add_assoc]
  room nonempty := by
    cases otherWire with
    | nil =>
        rw [List.append_nil] at nonempty
        have same : after.offset = middle.offset := second.offset
        rw [same]
        exact first.room nonempty
    | cons octet otherWire => exact second.room (by simp)
  octets := by
    have second := second.octets
    rw [first.offset, ← Nat.add_assoc] at second
    rw [List.length_append, List.slice_add]
    exact first.octets.append second

/-- A first step that makes allocations only. -/
theorem Spanned.of_same (same : middle.offset = before.offset)
    (spanned : Spanned encoded roles wire middle after) :
    Spanned encoded roles wire before after :=
  (spanned_nothing same).append spanned

theorem amqpDecodeBytes_eq_some {count : Nat} {data : List UInt8}
    (returned : amqpDecodeBytes encoded count before = .ok (some data) after) :
    data.length = count ∧ encoded.mem.Holds (encoded.base + before.offset) data ∧
      after = { before with offset := before.offset + count } ∧
        before.offset + count ≤ encoded.len := by
  have bounded : encoded.mem.size < 2 ^ 63 := encoded.mem.size_lt
  unfold amqpDecodeBytes at returned
  rw [bind_of_ok (get_run before)] at returned
  split at returned
  · rename_i room
    unfold load at returned
    cases read : encoded.mem.read? (encoded.base + before.offset) count with
    | none =>
        rw [read] at returned
        cases returned
    | some found =>
        rw [read] at returned
        cases returned
        obtain ⟨length, held⟩ := Buffer.read?_eq_some_iff.mp read
        have inside := held.1
        have exact : sizeAdd before.offset count = before.offset + count :=
          sizeAdd_of_lt (by omega)
        rw [exact] at room ⊢
        exact ⟨length, held, rfl, room⟩
  · cases returned

theorem orBad_eq_ok {α : Type} {decode : Decoder (Option α)} {value : α}
    (returned : decode.orBad before = .ok value after) : decode before = .ok (some value) after := by
  obtain ⟨found, middle, first, rest⟩ := bind_eq_ok.mp returned
  cases found with
  | none => cases rest
  | some other =>
      cases rest
      exact first

/-- A byte string, read as it is. -/
theorem spanned_bytes {count : Nat} {data : List UInt8}
    (returned : (amqpDecodeBytes encoded count).orBad before = .ok data after) :
    Spanned encoded (List.replicate data.length .plain) data before after ∧
      data.length = count ∧ encoded.Contains data := by
  obtain ⟨length, held, rfl, room⟩ := amqpDecodeBytes_eq_some (orBad_eq_ok returned)
  subst length
  refine ⟨⟨rfl, fun _ => room, ?_⟩, rfl, before.offset, room, held⟩
  rw [held.2]
  exact .refl .plain data

/-- A word, whose octets the encoder would write again. -/
theorem spanned_word {width number : Nat}
    (returned : (decodeWord width encoded).orBad before = .ok number after) :
    Spanned encoded (List.replicate width .plain) (BigEndian.bytes width number) before after ∧
      number < 256 ^ width := by
  obtain ⟨data, read, rest⟩ := map_eq_ok.mp (orBad_eq_ok returned)
  cases data with
  | none => cases rest
  | some data =>
      cases rest
      obtain ⟨spanned, length, _⟩ := spanned_bytes (orBad_of_some read)
      have octets := BigEndian.bytes_value data
      have small := BigEndian.value_lt data
      rw [length] at spanned octets small
      rw [octets]
      exact ⟨spanned, small⟩

theorem spanned_amqpDecode8 {value : UInt8}
    (returned : (amqpDecode8 encoded).orBad before = .ok value after) :
    Spanned encoded (List.replicate 1 .plain) (BigEndian.bytes 1 value.toNat) before after := by
  rw [amqpDecode8, orBad_map] at returned
  obtain ⟨number, read, rfl⟩ := map_eq_ok.mp returned
  obtain ⟨spanned, small⟩ := spanned_word read
  rwa [UInt8.toNat_ofNat_of_lt' small]

theorem spanned_amqpDecode16 {value : UInt16}
    (returned : (amqpDecode16 encoded).orBad before = .ok value after) :
    Spanned encoded (List.replicate 2 .plain) (BigEndian.bytes 2 value.toNat) before after := by
  rw [amqpDecode16, orBad_map] at returned
  obtain ⟨number, read, rfl⟩ := map_eq_ok.mp returned
  obtain ⟨spanned, small⟩ := spanned_word read
  rwa [UInt16.toNat_ofNat_of_lt' small]

theorem spanned_amqpDecode32 {value : UInt32}
    (returned : (amqpDecode32 encoded).orBad before = .ok value after) :
    Spanned encoded (List.replicate 4 .plain) (BigEndian.bytes 4 value.toNat) before after := by
  rw [amqpDecode32, orBad_map] at returned
  obtain ⟨number, read, rfl⟩ := map_eq_ok.mp returned
  obtain ⟨spanned, small⟩ := spanned_word read
  rwa [UInt32.toNat_ofNat_of_lt' small]

theorem spanned_amqpDecode64 {value : UInt64}
    (returned : (amqpDecode64 encoded).orBad before = .ok value after) :
    Spanned encoded (List.replicate 8 .plain) (BigEndian.bytes 8 value.toNat) before after := by
  rw [amqpDecode64, orBad_map] at returned
  obtain ⟨number, read, rfl⟩ := map_eq_ok.mp returned
  obtain ⟨spanned, small⟩ := spanned_word read
  rwa [UInt64.toNat_ofNat_of_lt' small]

/-- Where the size of a container was read, another one may be written. -/
theorem Spanned.sizes (spanned : Spanned encoded roles wire before after)
    (lengths : wire.length = otherWire.length) :
    Spanned encoded (List.replicate otherWire.length .size) otherWire before after where
  offset := by
    rw [spanned.offset, lengths]
  room nonempty := by
    refine spanned.room fun empty => nonempty ?_
    rw [empty] at lengths
    exact List.length_eq_zero_iff.mp lengths.symm
  octets := by
    have same := spanned.octets.length
    rw [lengths] at same
    exact .sizes same

end Consuming

/-! ## Steps of the decoder -/

section Steps

variable {encoded : Encoded} {before after : DecodeState}

theorem allocate_offset {granted : Bool} (returned : allocate before = .ok granted after) :
    after.offset = before.offset := by
  obtain ⟨offset, allocs⟩ := before
  cases allocs with
  | nil =>
      cases returned
      rfl
  | cons outcome rest =>
      cases returned
      rfl

theorem reserve_offset {numEntries allocated available : Nat}
    (returned : reserve numEntries allocated before = .ok available after) :
    after.offset = before.offset := by
  unfold reserve at returned
  split at returned
  · split at returned
    · cases returned
    · obtain ⟨granted, middle, asked, rest⟩ := bind_eq_ok.mp returned
      cases granted with
      | false => cases rest
      | true =>
          cases rest
          exact allocate_offset asked
  · cases returned
    rfl

theorem keepEntries_eq_ok {α : Type} {entries kept : List α}
    (returned : keepEntries entries before = .ok kept after) :
    kept = entries ∧ after.offset = before.offset := by
  unfold keepEntries at returned
  split at returned
  · cases returned
    exact ⟨rfl, rfl⟩
  · obtain ⟨granted, middle, asked, rest⟩ := bind_eq_ok.mp returned
    cases granted with
    | false => cases rest
    | true =>
        cases rest
        exact ⟨rfl, allocate_offset asked⟩

theorem spanned_decodeLimit {limit : Nat} {word : List UInt8} (wide : word.length = 4)
    (returned : decodeLimit encoded before = .ok limit after) :
    Spanned encoded (List.replicate 4 .size) word before after := by
  obtain ⟨size, middle, read, rest⟩ := bind_eq_ok.mp returned
  rw [bind_of_ok (get_run middle)] at rest
  split at rest
  · cases rest
  · obtain ⟨granted, last, asked, rest⟩ := bind_eq_ok.mp rest
    cases granted with
    | false => cases rest
    | true =>
        cases rest
        have sizes := @Spanned.sizes _ _ _ word _ _ (spanned_amqpDecode32 read)
          (by rw [BigEndian.length_bytes, wide])
        rw [wide] at sizes
        have whole := sizes.append (spanned_nothing (allocate_offset asked))
        simpa only [List.append_nil] using whole

/-- A container is what its loop has read, behind a size word. -/
theorem recovers_container {α : Type} {loop : Nat → Decoder (List α)}
    {roles : List α → List OctetRole} {wire : List α → List UInt8} {proper : List α → Prop}
    (looped : ∀ limit, Recovers encoded (loop limit) roles wire proper) :
    Recovers encoded (do
      let limit ← decodeLimit encoded
      let entries ← loop limit
      keepEntries entries)
      (fun entries => List.replicate 4 .size ++ roles entries)
      (fun entries => sized (wire entries)) proper := by
  intro before entries after returned
  obtain ⟨limit, first, sizeRead, rest⟩ := bind_eq_ok.mp returned
  obtain ⟨looped', second, entriesRead, rest⟩ := bind_eq_ok.mp rest
  obtain ⟨rfl, same⟩ := keepEntries_eq_ok rest
  obtain ⟨content, isProper⟩ := looped limit entriesRead
  refine ⟨?_, isProper⟩
  have front := @spanned_decodeLimit _ _ _ _
    (BigEndian.bytes 4 (UInt32.ofNat (wire entries).length).toNat) (BigEndian.length_bytes _ _)
    sizeRead
  have whole := (front.append content).append (spanned_nothing same)
  simpa only [List.append_nil, sized] using whole

/-- A string behind its length, which the encoder would write again. -/
theorem recovers_string {build : List UInt8 → FieldValue} {value : FieldValue}
    (returned : (do
      let len ← (amqpDecode32 encoded).orBad
      let bytes ← (amqpDecodeBytes encoded len.toNat).orBad
      return build bytes) before = .ok value after) :
    ∃ bytes, value = build bytes ∧ encoded.Contains bytes ∧
      Spanned encoded (List.replicate (4 + bytes.length) .plain) (sized bytes) before after := by
  obtain ⟨len, middle, lengthRead, rest⟩ := bind_eq_ok.mp returned
  obtain ⟨bytes, last, bytesRead, rest⟩ := bind_eq_ok.mp rest
  cases rest
  obtain ⟨content, length, contains⟩ := spanned_bytes bytesRead
  refine ⟨bytes, rfl, contains, ?_⟩
  have whole := (spanned_amqpDecode32 lengthRead).append content
  rw [List.replicate_append_replicate, length] at whole
  rwa [sized, length, UInt32.ofNat_toNat]

/-- Any octet is a boolean, of which the encoder knows two. -/
theorem Spanned.boolean {octet : UInt8}
    (spanned : Spanned encoded (List.replicate 1 .plain) (BigEndian.bytes 1 octet.toNat) before
      after) :
    Spanned encoded [.boolean]
      (BigEndian.bytes 1 (if octet ≠ 0 then 1 else 0 : UInt8).toNat) before after := by
  have single (value : UInt8) : BigEndian.bytes 1 value.toNat = [value] := by
    simp [BigEndian.bytes]
  obtain ⟨offset, room, octets⟩ := spanned
  rw [single] at offset room octets ⊢
  refine ⟨offset, fun _ => room (by simp), ?_⟩
  generalize encoded.mem.bytes.slice (encoded.base + before.offset) [octet].length = read at octets
  cases octets with
  | same rest =>
      cases rest
      by_cases zero : octet = 0
      · rw [zero]
        exact .same .nil
      · rw [if_pos zero]
        by_cases one : octet = 1
        · rw [one]
          exact .same .nil
        · exact .boolean zero one .nil

end Steps

/-! ## The decoders -/

/-- A value that was decoded has no boolean but zero and one, and its keys and strings are
in the buffer. -/
structure FieldValue.AsRead (encoded : Encoded) (value : FieldValue) : Prop where
  normal : value.normalise = value
  parts : ∀ component ∈ value.components, component.Read encoded

structure ArrayAsRead (encoded : Encoded) (entries : List FieldValue) : Prop where
  normal : normaliseArray entries = entries
  parts : ∀ component ∈ arrayComponents entries, component.Read encoded

structure TableAsRead (encoded : Encoded) (entries : List TableEntry) : Prop where
  normal : normaliseTable entries = entries
  parts : ∀ component ∈ tableComponents entries, component.Read encoded

section Decoders

variable {encoded : Encoded} {fuel : Nat}

/-- A value whose only component is itself, and not a string. -/
theorem asRead_scalar {value : FieldValue} (normal : value.normalise = value)
    (alone : value.components = [.value value])
    (slice : (Component.value value).SliceOf encoded) : value.AsRead encoded := by
  refine ⟨normal, fun component member => ?_⟩
  rw [alone, List.mem_singleton] at member
  rw [member]
  exact ⟨trivial, slice⟩

/-- A word behind a kind octet. -/
theorem recovers_scalar {α : Type} {decode : Decoder α} {build : α → FieldValue} {width : Nat}
    {number : α → Nat} {kind : UInt8} {before middle after : DecodeState} {value : FieldValue}
    (kindRead : Spanned encoded (List.replicate 1 .plain) (BigEndian.bytes 1 kind.toNat) before
      middle)
    (returned : (build <$> decode) middle = .ok value after)
    (reads : ∀ {before value after}, decode before = .ok value after →
      Spanned encoded (List.replicate width .plain) (BigEndian.bytes width (number value)) before
        after)
    (wire : ∀ value, (build value).wire =
      BigEndian.bytes 1 kind.toNat ++ BigEndian.bytes width (number value))
    (roles : ∀ value, (build value).roles = List.replicate (1 + width) .plain)
    (asRead : ∀ value, (build value).AsRead encoded) :
    Spanned encoded value.roles value.wire before after ∧ value.AsRead encoded := by
  obtain ⟨input, read, rfl⟩ := map_eq_ok.mp returned
  refine ⟨?_, asRead input⟩
  rw [wire, roles, ← List.replicate_append_replicate]
  exact kindRead.append (reads read)

theorem recovers_decodeFieldValue
    (arrays : Recovers encoded (decodeArray fuel encoded)
      (fun entries => List.replicate 4 .size ++ arrayRoles entries)
      (fun entries => sized (arrayContent entries)) (ArrayAsRead encoded))
    (tables : Recovers encoded (decodeTable fuel encoded)
      (fun entries => List.replicate 4 .size ++ tableRoles entries)
      (fun entries => sized (tableContent entries)) (TableAsRead encoded)) :
    Recovers encoded (decodeFieldValue (fuel + 1) encoded) FieldValue.roles FieldValue.wire
      (FieldValue.AsRead encoded) := by
  intro before value after returned
  unfold decodeFieldValue at returned
  obtain ⟨octet, middle, kindRead, rest⟩ := bind_eq_ok.mp returned
  have kindSpanned := spanned_amqpDecode8 kindRead
  cases known : FieldKind.ofOctet octet with
  | none =>
      rw [known] at rest
      cases rest
  | some kind =>
      rw [known] at rest
      obtain rfl := FieldKind.ofOctet_eq_some_iff.mp known
      -- Every word is written again as it was read, except for booleans.
      cases kind with
      | boolean =>
          obtain ⟨octet, read, rfl⟩ := map_eq_ok.mp rest
          refine ⟨?_, asRead_scalar ?_ rfl trivial⟩
          · have whole := kindSpanned.append (spanned_amqpDecode8 read).boolean
            by_cases zero : octet = 0
            · simpa [FieldValue.wire, FieldValue.kind, FieldValue.roles, zero] using whole
            · simpa [FieldValue.wire, FieldValue.kind, FieldValue.roles, zero] using whole
          · by_cases zero : octet = 0
            · simp [FieldValue.normalise, zero]
            · simp [FieldValue.normalise, zero]
      | i8 | u8 =>
          exact recovers_scalar kindSpanned rest spanned_amqpDecode8 (fun _ => rfl) (fun _ => rfl)
            fun _ => asRead_scalar rfl rfl trivial
      | i16 | u16 =>
          exact recovers_scalar kindSpanned rest spanned_amqpDecode16 (fun _ => rfl) (fun _ => rfl)
            fun _ => asRead_scalar rfl rfl trivial
      | i32 | u32 | f32 =>
          exact recovers_scalar kindSpanned rest spanned_amqpDecode32 (fun _ => rfl) (fun _ => rfl)
            fun _ => asRead_scalar rfl rfl trivial
      | i64 | u64 | f64 | timestamp =>
          exact recovers_scalar kindSpanned rest spanned_amqpDecode64 (fun _ => rfl) (fun _ => rfl)
            fun _ => asRead_scalar rfl rfl trivial
      | decimal =>
          obtain ⟨decimals, next, decimalsRead, rest⟩ := bind_eq_ok.mp rest
          obtain ⟨number, last, numberRead, rest⟩ := bind_eq_ok.mp rest
          cases rest
          refine ⟨?_, asRead_scalar rfl rfl trivial⟩
          exact kindSpanned.append
            ((spanned_amqpDecode8 decimalsRead).append (spanned_amqpDecode32 numberRead))
      | utf8 =>
          obtain ⟨bytes, rfl, contains, content⟩ := recovers_string rest
          refine ⟨?_, asRead_scalar rfl rfl contains⟩
          have whole := kindSpanned.append content
          rwa [List.replicate_append_replicate] at whole
      | bytes =>
          obtain ⟨bytes, rfl, contains, content⟩ := recovers_string rest
          refine ⟨?_, asRead_scalar rfl rfl contains⟩
          have whole := kindSpanned.append content
          rwa [List.replicate_append_replicate] at whole
      | array =>
          obtain ⟨entries, read, rfl⟩ := map_eq_ok.mp rest
          obtain ⟨content, asRead⟩ := arrays read
          refine ⟨kindSpanned.append content, ?_,
            List.forall_mem_cons.mpr ⟨⟨trivial, trivial⟩, asRead.parts⟩⟩
          rw [FieldValue.normalise, asRead.normal]
      | table =>
          obtain ⟨entries, read, rfl⟩ := map_eq_ok.mp rest
          obtain ⟨content, asRead⟩ := tables read
          refine ⟨kindSpanned.append content, ?_,
            List.forall_mem_cons.mpr ⟨⟨trivial, trivial⟩, asRead.parts⟩⟩
          rw [FieldValue.normalise, asRead.normal]
      | void =>
          cases rest
          exact ⟨kindSpanned, asRead_scalar rfl rfl trivial⟩

theorem recovers_decodeArrayEntries
    (values : Recovers encoded (decodeFieldValue fuel encoded) FieldValue.roles FieldValue.wire
      (FieldValue.AsRead encoded))
    (elements : ∀ limit numEntries allocated,
      Recovers encoded (decodeArrayEntries fuel encoded limit numEntries allocated) arrayRoles
        arrayContent (ArrayAsRead encoded)) (limit numEntries allocated : Nat) :
    Recovers encoded (decodeArrayEntries (fuel + 1) encoded limit numEntries allocated) arrayRoles
      arrayContent (ArrayAsRead encoded) := by
  intro before entries after returned
  unfold decodeArrayEntries at returned
  rw [bind_of_ok (get_run before)] at returned
  split at returned
  · obtain ⟨available, first, reserved, rest⟩ := bind_eq_ok.mp returned
    obtain ⟨value, second, valueRead, rest⟩ := bind_eq_ok.mp rest
    obtain ⟨others, third, othersRead, rest⟩ := bind_eq_ok.mp rest
    cases rest
    obtain ⟨head, headAsRead⟩ := values valueRead
    obtain ⟨tail, tailAsRead⟩ := elements _ _ _ othersRead
    refine ⟨(head.append tail).of_same (reserve_offset reserved), ?_, fun component member => ?_⟩
    · rw [normaliseArray, headAsRead.normal, tailAsRead.normal]
    · rcases List.mem_append.mp member with inHead | inTail
      · exact headAsRead.parts component inHead
      · exact tailAsRead.parts component inTail
  · cases returned
    exact ⟨spanned_nothing rfl, rfl, fun component member => by cases member⟩

theorem recovers_decodeTableEntries
    (values : Recovers encoded (decodeFieldValue fuel encoded) FieldValue.roles FieldValue.wire
      (FieldValue.AsRead encoded))
    (others : ∀ limit numEntries allocated,
      Recovers encoded (decodeTableEntries fuel encoded limit numEntries allocated) tableRoles
        tableContent (TableAsRead encoded)) (limit numEntries allocated : Nat) :
    Recovers encoded (decodeTableEntries (fuel + 1) encoded limit numEntries allocated) tableRoles
      tableContent (TableAsRead encoded) := by
  intro before entries after returned
  unfold decodeTableEntries at returned
  rw [bind_of_ok (get_run before)] at returned
  split at returned
  · obtain ⟨keylen, first, lengthRead, rest⟩ := bind_eq_ok.mp returned
    obtain ⟨available, second, reserved, rest⟩ := bind_eq_ok.mp rest
    obtain ⟨key, third, keyRead, rest⟩ := bind_eq_ok.mp rest
    obtain ⟨value, fourth, valueRead, rest⟩ := bind_eq_ok.mp rest
    obtain ⟨entries, fifth, entriesRead, rest⟩ := bind_eq_ok.mp rest
    cases rest
    obtain ⟨keySpanned, keyLength, contains⟩ := spanned_bytes keyRead
    obtain ⟨head, headAsRead⟩ := values valueRead
    obtain ⟨tail, tailAsRead⟩ := others _ _ _ entriesRead
    refine ⟨?_, ?_, fun component member => ?_⟩
    · have named := (spanned_amqpDecode8 lengthRead).append
        (keySpanned.of_same (reserve_offset reserved))
      rw [List.replicate_append_replicate] at named
      have whole := (named.append head).append tail
      have counted : UInt8.ofNat key.length = keylen := by
        rw [keyLength, UInt8.ofNat_toNat]
      rwa [tableRoles, tableContent, TableEntry.wire, counted, ← List.append_assoc (BigEndian.bytes 1 _)]
    · rw [normaliseTable, TableEntry.normalise, headAsRead.normal, tailAsRead.normal]
    · rcases List.mem_append.mp member with inHead | inTail
      · rcases List.mem_cons.mp inHead with rfl | inValue
        · refine ⟨?_, contains⟩
          have narrow := keylen.toNat_lt
          simp only [Component.ShortKey]
          omega
        · exact headAsRead.parts component inValue
      · exact tailAsRead.parts component inTail
  · cases returned
    exact ⟨spanned_nothing rfl, rfl, fun component member => by cases member⟩

/-- The five mutually recursive decoders, by induction on the fuel. -/
theorem recovers_decoders (encoded : Encoded) (fuel : Nat) :
    Recovers encoded (decodeFieldValue fuel encoded) FieldValue.roles FieldValue.wire
        (FieldValue.AsRead encoded) ∧
      (∀ limit numEntries allocated,
        Recovers encoded (decodeArrayEntries fuel encoded limit numEntries allocated) arrayRoles
          arrayContent (ArrayAsRead encoded)) ∧
      (∀ limit numEntries allocated,
        Recovers encoded (decodeTableEntries fuel encoded limit numEntries allocated) tableRoles
          tableContent (TableAsRead encoded)) ∧
      Recovers encoded (decodeArray fuel encoded)
        (fun entries => List.replicate 4 .size ++ arrayRoles entries)
        (fun entries => sized (arrayContent entries)) (ArrayAsRead encoded) ∧
      Recovers encoded (decodeTable fuel encoded)
        (fun entries => List.replicate 4 .size ++ tableRoles entries)
        (fun entries => sized (tableContent entries)) (TableAsRead encoded) := by
  induction fuel with
  | zero =>
      simp only [decodeFieldValue, decodeArrayEntries, decodeTableEntries, decodeArray,
        decodeTable]
      refine ⟨?_, fun _ _ _ => ?_, fun _ _ _ => ?_, ?_, ?_⟩ <;>
        exact fun before value after returned => by cases returned
  | succ fuel ih =>
      obtain ⟨value, elements, entries, array, table⟩ := ih
      refine ⟨recovers_decodeFieldValue array table, recovers_decodeArrayEntries value elements,
        recovers_decodeTableEntries value entries, ?_, ?_⟩
      · unfold decodeArray
        exact recovers_container fun limit => elements limit 0 initialEntries
      · unfold decodeTable
        exact recovers_container fun limit => entries limit 0 initialEntries

theorem recovers_amqpDecodeTable (encoded : Encoded) :
    Recovers encoded (amqpDecodeTable encoded) Table.roles tableWire (TableAsRead encoded) :=
  (recovers_decoders encoded _).2.2.2.2

end Decoders

/-! ## The image of the decoder -/

/-- What was decoded can be encoded in as many octets as it was decoded from. They are decoded
to the same table, and differ from the octets read in container sizes and in booleans only. -/
theorem amqpEncodeTable_of_amqpDecodeTable {encoded : Encoded} {table : Table}
    {start stop : DecodeState} (short : encoded.len < 2 ^ 31)
    (decoded : amqpDecodeTable encoded start = .ok table stop) :
    ∃ count, stop.offset = start.offset + count ∧
      ∀ {view : View} {before : EncodeState}, view.base + view.len ≤ before.mem.size →
        before.offset + count ≤ view.len →
          ∃ after, amqpEncodeTable view table before = .ok () after ∧
            after.offset = before.offset + count ∧
            OnlyWrites (view.base + before.offset) (view.base + before.offset + count)
              before.mem.bytes after.mem.bytes ∧
            amqpDecodeTable { view with mem := after.mem } ⟨before.offset, []⟩ =
              .ok table ⟨before.offset + count, []⟩ ∧
            Reencodes table.roles
              (encoded.mem.bytes.slice (encoded.base + start.offset) count)
              (after.mem.bytes.slice (view.base + before.offset) count) := by
  obtain ⟨spanned, asRead⟩ := recovers_amqpDecodeTable encoded decoded
  have known := known_of_amqpDecodeTable decoded
  have small : (tableWire table).length < 2 ^ 32 := by
    have room := spanned.room (tableWire_ne_nil table)
    have moved := spanned.offset
    omega
  have shortKeys : table.Every Component.ShortKey :=
    List.forall_mem_cons.mpr ⟨trivial, fun component inside => (asRead.parts component inside).1⟩
  have brief : table.Every Component.Short := fun component inside =>
    ⟨shortKeys component inside, few_of_amqpDecodeTable decoded component inside⟩
  refine ⟨(tableWire table).length, spanned.offset, fun inside room => ?_⟩
  obtain ⟨after, returned⟩ := accepts_amqpEncodeTable _ known inside room
  have written := emits_amqpEncodeTable _ table returned
  have holds := written.holds (written.fits (tableWire_ne_nil table)).2
  have again := amqpDecodeTable_of_written written (table.every_decodable known brief small)
  refine ⟨after, returned, written.offset, written.onlyWrites fun _ => Nat.le_refl _, ?_, ?_⟩
  · rwa [asRead.normal, written.offset] at again
  · rw [holds.2]
    exact spanned.octets

/-- A boolean 7 in a table whose size word leaves out its last octet. -/
def looseBoolean : Encoded where
  base := 0
  len := 8
  mem := ⟨[0, 0, 0, 3, 1, 107, 116, 7], by simp⟩

/-- Room to encode it. -/
def roomyBuffer : Buffer := .zeros 64 (by simp)

/-- It is decoded, and encoded in eight octets as well. -/
theorem amqpEncodeTable_of_amqpDecodeTable_loose :
    ∃ table stop after, amqpDecodeTable looseBoolean ⟨0, []⟩ = .ok table stop ∧
      amqpEncodeTable ⟨0, 64⟩ table ⟨roomyBuffer, 0⟩ = .ok () after ∧
        after.offset = 8 := by
  have succeeds : (returned? (amqpDecodeTable looseBoolean ⟨0, []⟩)).isSome := by decide +kernel
  have stops : (endState (amqpDecodeTable looseBoolean ⟨0, []⟩)).offset = 8 := by decide +kernel
  obtain ⟨table, found⟩ := Option.isSome_iff_exists.mp succeeds
  obtain ⟨stop, decoded⟩ := returned?_eq_some.mp found
  rw [decoded] at stops
  obtain ⟨count, moved, encodes⟩ := amqpEncodeTable_of_amqpDecodeTable (by decide) decoded
  have eight : count = 8 := by
    have sum : 8 = 0 + count := stops.symm.trans moved
    omega
  subst eight
  obtain ⟨after, returned, offset, _⟩ :=
    @encodes ⟨0, 64⟩ ⟨roomyBuffer, 0⟩ (by simp [roomyBuffer]) (by simp)
  exact ⟨table, stop, after, decoded, returned, offset⟩

end RabbitmqC
