import RabbitmqC.Table.Reencode
import RabbitmqC.Table.Extent
import RabbitmqC.Framing.Locality

/-!
# Decoding any octets

`amqp_decode_table` comes to an end on every buffer, without leaving it, unless it
finds more entries in a table or an array than an `int` can count room for. A failed
allocation ends the run that successful ones would continue, and changes nothing
about it up to there.
-/

set_option autoImplicit false

namespace RabbitmqC

open Effect

/-! ## Allocations that fail -/

/-- A run in which allocations may fail, next to the one in which they succeed. -/
inductive AsGranted {α : Type} (allocs : List Bool) :
    EStateM.Result Failure DecodeState α → EStateM.Result Failure DecodeState α → Prop where
  | refused {after : DecodeState} {granted : EStateM.Result Failure DecodeState α} :
      false ∈ allocs → AsGranted allocs (.error (.status .noMemory) after) granted
  | ok {value : α} {offset : Nat} {rest : List Bool} :
      rest ⊆ allocs → AsGranted allocs (.ok value ⟨offset, rest⟩) (.ok value ⟨offset, []⟩)
  | error {failure : Failure} {offset : Nat} {rest : List Bool} :
      AsGranted allocs (.error failure ⟨offset, rest⟩) (.error failure ⟨offset, []⟩)

/-- The outcomes of allocations decide only whether the run ends early. -/
def AllocationsAside {α : Type} (decode : Decoder α) : Prop :=
  ∀ offset allocs, AsGranted allocs (decode ⟨offset, allocs⟩) (decode ⟨offset, []⟩)

section Aside

variable {α β : Type} {encoded : Encoded}

theorem aside_pure {value : α} : AllocationsAside (pure value) :=
  fun _ allocs => .ok (List.Subset.refl allocs)

theorem aside_throw {failure : Failure} : AllocationsAside (throw failure : Decoder α) :=
  fun _ _ => .error

theorem AllocationsAside.bind {first : Decoder α} {next : α → Decoder β}
    (head : AllocationsAside first) (tail : ∀ value, AllocationsAside (next value)) :
    AllocationsAside (first >>= next) := by
  intro offset allocs
  have compared := head offset allocs
  cases ran : first ⟨offset, allocs⟩ with
  | error failure after =>
      rw [ran] at compared
      rw [bind_of_error ran]
      generalize granted : first ⟨offset, []⟩ = other at compared
      cases compared with
      | refused member => exact .refused member
      | error =>
          rw [bind_of_error granted]
          exact .error
  | ok value after =>
      rw [ran] at compared
      rw [bind_of_ok ran]
      generalize granted : first ⟨offset, []⟩ = other at compared
      cases compared with
      | @ok _ middle rest within =>
          rw [bind_of_ok granted]
          have continued := tail value middle rest
          generalize next value ⟨middle, rest⟩ = left at continued
          generalize next value ⟨middle, []⟩ = right at continued
          cases continued with
          | refused member => exact .refused (within member)
          | ok inner => exact .ok (List.Subset.trans inner within)
          | error => exact .error

theorem AllocationsAside.map {first : Decoder α} (head : AllocationsAside first)
    (change : α → β) : AllocationsAside (change <$> first) :=
  head.bind fun _ => aside_pure

theorem AllocationsAside.orBad {decode : Decoder (Option α)} (aside : AllocationsAside decode) :
    AllocationsAside decode.orBad := by
  refine aside.bind fun found => ?_
  cases found with
  | none => exact aside_throw
  | some value => exact aside_pure

/-- The offset may be looked at. -/
theorem aside_get_bind {next : DecodeState → Decoder α}
    (tail : ∀ offset allocs,
      AsGranted allocs (next ⟨offset, allocs⟩ ⟨offset, allocs⟩) (next ⟨offset, []⟩ ⟨offset, []⟩)) :
    AllocationsAside (get >>= next) := by
  intro offset allocs
  rw [bind_of_ok (get_run _), bind_of_ok (get_run _)]
  exact tail offset allocs

theorem aside_amqpDecodeBytes {count : Nat} : AllocationsAside (amqpDecodeBytes encoded count) := by
  refine aside_get_bind fun offset allocs => ?_
  dsimp only
  split
  · unfold load
    cases encoded.mem.read? (encoded.base + offset) count with
    | none => exact .error
    | some data => exact .ok (List.Subset.refl allocs)
  · exact .ok (List.Subset.refl allocs)

theorem aside_amqpDecode8 : AllocationsAside (amqpDecode8 encoded) :=
  (aside_amqpDecodeBytes.map _).map _

theorem aside_amqpDecode16 : AllocationsAside (amqpDecode16 encoded) :=
  (aside_amqpDecodeBytes.map _).map _

theorem aside_amqpDecode32 : AllocationsAside (amqpDecode32 encoded) :=
  (aside_amqpDecodeBytes.map _).map _

theorem aside_amqpDecode64 : AllocationsAside (amqpDecode64 encoded) :=
  (aside_amqpDecodeBytes.map _).map _

/-- An allocation, after whose failure the code leaves with `AMQP_STATUS_NO_MEMORY`. -/
theorem aside_allocate {next : Decoder α} (tail : AllocationsAside next) :
    AllocationsAside (do
      if ← allocate then next else throw (.status .noMemory)) := by
  intro offset allocs
  cases allocs with
  | nil =>
      have granted := tail offset []
      exact granted
  | cons outcome rest =>
      cases outcome with
      | false => exact .refused List.mem_cons_self
      | true =>
          have continued := tail offset rest
          show AsGranted (true :: rest) (next ⟨offset, rest⟩) (next ⟨offset, []⟩)
          generalize next ⟨offset, rest⟩ = left at continued
          generalize next ⟨offset, []⟩ = right at continued
          cases continued with
          | refused member => exact .refused (List.mem_cons_of_mem _ member)
          | ok inner => exact .ok (List.Subset.trans inner (List.subset_cons_self _ _))
          | error => exact .error

theorem aside_reserve {numEntries allocated : Nat} :
    AllocationsAside (reserve numEntries allocated) := by
  unfold reserve
  split
  · split
    · exact aside_throw
    · exact aside_allocate aside_pure
  · exact aside_pure

theorem aside_keepEntries {entries : List α} : AllocationsAside (keepEntries entries) := by
  unfold keepEntries
  split
  · exact aside_pure
  · exact aside_allocate aside_pure

theorem aside_decodeLimit : AllocationsAside (decodeLimit encoded) := by
  refine aside_amqpDecode32.orBad.bind fun size => aside_get_bind fun offset allocs => ?_
  dsimp only
  split
  · exact .error
  · exact aside_allocate aside_pure offset allocs

/-- A turn of a loop is taken or not, whatever becomes of allocations. -/
theorem aside_loop {limit : Nat} {turn : Decoder (List α)} (aside : AllocationsAside turn) :
    AllocationsAside (do
      let state ← get
      if state.offset < limit then turn else return []) := by
  refine aside_get_bind fun offset allocs => ?_
  dsimp only
  split
  · exact aside offset allocs
  · exact .ok (List.Subset.refl allocs)

theorem aside_string (build : List UInt8 → FieldValue) :
    AllocationsAside (do
      let len ← (amqpDecode32 encoded).orBad
      let bytes ← (amqpDecodeBytes encoded len.toNat).orBad
      return build bytes) :=
  aside_amqpDecode32.orBad.bind fun _ => aside_amqpDecodeBytes.orBad.bind fun _ => aside_pure

/-- The five mutually recursive decoders, by induction on the fuel. -/
theorem aside_decoders (encoded : Encoded) (fuel : Nat) :
    AllocationsAside (decodeFieldValue fuel encoded) ∧
      (∀ limit numEntries allocated,
        AllocationsAside (decodeArrayEntries fuel encoded limit numEntries allocated)) ∧
      (∀ limit numEntries allocated,
        AllocationsAside (decodeTableEntries fuel encoded limit numEntries allocated)) ∧
      AllocationsAside (decodeArray fuel encoded) ∧ AllocationsAside (decodeTable fuel encoded) := by
  induction fuel with
  | zero =>
      simp only [decodeFieldValue, decodeArrayEntries, decodeTableEntries, decodeArray,
        decodeTable]
      exact ⟨aside_throw, fun _ _ _ => aside_throw, fun _ _ _ => aside_throw, aside_throw,
        aside_throw⟩
  | succ fuel ih =>
      obtain ⟨value, elements, entries, array, table⟩ := ih
      refine ⟨?_, fun limit numEntries allocated => ?_, fun limit numEntries allocated => ?_, ?_, ?_⟩
      · unfold decodeFieldValue
        refine aside_amqpDecode8.orBad.bind fun kind => ?_
        cases FieldKind.ofOctet kind with
        | none => exact aside_throw
        | some kind =>
            cases kind with
            | boolean | i8 | u8 => exact aside_amqpDecode8.orBad.map _
            | i16 | u16 => exact aside_amqpDecode16.orBad.map _
            | i32 | u32 | f32 => exact aside_amqpDecode32.orBad.map _
            | i64 | u64 | f64 | timestamp => exact aside_amqpDecode64.orBad.map _
            | decimal =>
                exact aside_amqpDecode8.orBad.bind fun _ =>
                  aside_amqpDecode32.orBad.bind fun _ => aside_pure
            | utf8 => exact aside_string FieldValue.utf8
            | bytes => exact aside_string FieldValue.bytes
            | array => exact array.map _
            | table => exact table.map _
            | void => exact aside_pure
      · unfold decodeArrayEntries
        exact aside_loop <| aside_reserve.bind fun _ => value.bind fun _ =>
          (elements _ _ _).bind fun _ => aside_pure
      · unfold decodeTableEntries
        exact aside_loop <| aside_amqpDecode8.orBad.bind fun _ => aside_reserve.bind fun _ =>
          aside_amqpDecodeBytes.orBad.bind fun _ => value.bind fun _ =>
            (entries _ _ _).bind fun _ => aside_pure
      · unfold decodeArray
        exact aside_decodeLimit.bind fun _ => (elements _ _ _).bind fun _ => aside_keepEntries
      · unfold decodeTable
        exact aside_decodeLimit.bind fun _ => (entries _ _ _).bind fun _ => aside_keepEntries

end Aside

/-! ## Turns of the loops -/

/-- One turn of the `while` loop of `amqp_decode_array`: the entry, and the number of entries
there is memory for. -/
def arrayTurn (fuel : Nat) (encoded : Encoded) (numEntries allocated : Nat) :
    Decoder (FieldValue × Nat) := do
  let allocated ← reserve numEntries allocated
  let entry ← decodeFieldValue fuel encoded
  return (entry, allocated)

/-- One turn of the `while` loop of `amqp_decode_table`. -/
def tableTurn (fuel : Nat) (encoded : Encoded) (numEntries allocated : Nat) :
    Decoder (TableEntry × Nat) := do
  let keylen ← (amqpDecode8 encoded).orBad
  let allocated ← reserve numEntries allocated
  let key ← (amqpDecodeBytes encoded keylen.toNat).orBad
  let value ← decodeFieldValue fuel encoded
  return (.mk key value, allocated)

section Turns

variable {encoded : Encoded} {fuel numEntries allocated : Nat}

theorem decodeArrayEntries_turn (limit : Nat) :
    decodeArrayEntries (fuel + 1) encoded limit numEntries allocated = (do
      let state ← get
      if state.offset < limit then do
        let turn ← arrayTurn fuel encoded numEntries allocated
        let entries ← decodeArrayEntries fuel encoded limit (numEntries + 1) turn.2
        return turn.1 :: entries
      else return []) := by
  rw [decodeArrayEntries, arrayTurn]
  simp only [bind_assoc, pure_bind]

theorem decodeTableEntries_turn (limit : Nat) :
    decodeTableEntries (fuel + 1) encoded limit numEntries allocated = (do
      let state ← get
      if state.offset < limit then do
        let turn ← tableTurn fuel encoded numEntries allocated
        let entries ← decodeTableEntries fuel encoded limit (numEntries + 1) turn.2
        return turn.1 :: entries
      else return []) := by
  rw [decodeTableEntries, tableTurn]
  simp only [bind_assoc, pure_bind]

theorem decodeFieldValue_advances {before after : DecodeState} {value : FieldValue}
    (returned : decodeFieldValue fuel encoded before = .ok value after) :
    before.offset < after.offset := by
  have spanned := ((recovers_decoders encoded fuel).1 returned).1
  have positive := value.wire_length_pos
  rw [spanned.offset]
  omega

theorem arrayTurn_advances {before after : DecodeState} {turn : FieldValue × Nat}
    (returned : arrayTurn fuel encoded numEntries allocated before = .ok turn after) :
    before.offset < after.offset := by
  obtain ⟨available, first, reserved, rest⟩ := bind_eq_ok.mp returned
  obtain ⟨value, second, valueRead, rest⟩ := bind_eq_ok.mp rest
  cases rest
  rw [← reserve_offset reserved]
  exact decodeFieldValue_advances valueRead

theorem tableTurn_advances {before after : DecodeState} {turn : TableEntry × Nat}
    (returned : tableTurn fuel encoded numEntries allocated before = .ok turn after) :
    before.offset < after.offset := by
  obtain ⟨keylen, first, lengthRead, rest⟩ := bind_eq_ok.mp returned
  obtain ⟨available, second, reserved, rest⟩ := bind_eq_ok.mp rest
  obtain ⟨key, third, keyRead, rest⟩ := bind_eq_ok.mp rest
  obtain ⟨value, fourth, valueRead, rest⟩ := bind_eq_ok.mp rest
  cases rest
  have length := (spanned_amqpDecode8 lengthRead).offset
  have same := reserve_offset reserved
  have named := (spanned_bytes keyRead).1.offset
  have advanced := decodeFieldValue_advances valueRead
  omega

end Turns

/-! ## Every buffer -/

/-- How `amqp_decode_table` ends. -/
inductive DecodeOutcome (encoded : Encoded) (before : DecodeState) :
    EStateM.Result Failure DecodeState Table → Prop where
  | decoded {table : Table} {after : DecodeState} :
      after.offset ≤ encoded.len → table.Every (Component.SliceOf encoded) →
      DecodeOutcome encoded before (.ok table after)
  | malformed {after : DecodeState} :
      DecodeOutcome encoded before (.error (.status .badAmqpData) after)
  | noMemory {after : DecodeState} : false ∈ before.allocs →
      DecodeOutcome encoded before (.error (.status .noMemory) after)

/-- The same octets in another object: around the buffer they differ. -/
structure Encoded.SameOctets (encoded other : Encoded) : Prop where
  len : other.len = encoded.len
  inside : other.base + other.len ≤ other.mem.size
  octets : encoded.mem.bytes.slice encoded.base encoded.len =
    other.mem.bytes.slice other.base other.len

/-- Decoding comes to an end with one of three codes, has its keys and strings from the
buffer, does not depend on anything around it, and advances in every turn of its loops. -/
structure DecodesTotally (encoded : Encoded) (offset : Nat) : Prop where
  outcome : ∀ allocs, DecodeOutcome encoded ⟨offset, allocs⟩
    (amqpDecodeTable encoded ⟨offset, allocs⟩)
  inBuffer : ∀ allocs other, encoded.SameOctets other →
    amqpDecodeTable encoded ⟨offset, allocs⟩ = amqpDecodeTable other ⟨offset, allocs⟩
  arrayTurns : ∀ fuel numEntries allocated ⦃first turn last⦄,
    arrayTurn fuel encoded numEntries allocated first = .ok turn last →
      first.offset + 1 ≤ last.offset
  tableTurns : ∀ fuel numEntries allocated ⦃first turn last⦄,
    tableTurn fuel encoded numEntries allocated first = .ok turn last →
      first.offset + 1 ≤ last.offset

section Ends

variable {encoded : Encoded} {offset : Nat}

/-- How decoding ends when allocations may fail. -/
theorem amqpDecodeTable_outcome (inside : encoded.base + encoded.len ≤ encoded.mem.size)
    (small : offset + 4 < 2 ^ 64) (few : ¬ ContainerOverfull encoded true offset)
    (allocs : List Bool) :
    DecodeOutcome encoded ⟨offset, allocs⟩ (amqpDecodeTable encoded ⟨offset, allocs⟩) := by
  have decided := decides_amqpDecodeTable inside small
  have compared := (aside_decoders encoded (decodeFuel encoded)).2.2.2.2 offset allocs
  have recovered := @recovers_amqpDecodeTable encoded ⟨offset, allocs⟩
  change AsGranted allocs (amqpDecodeTable encoded ⟨offset, allocs⟩) _ at compared
  generalize amqpDecodeTable encoded ⟨offset, allocs⟩ = ran at compared recovered ⊢
  generalize granted : decodeTable (decodeFuel encoded) encoded ⟨offset, []⟩ = other at compared
  cases compared with
  | refused member => exact .noMemory member
  | @ok table stop rest within =>
      obtain ⟨spanned, asRead⟩ := recovered rfl
      exact .decoded (spanned.room (tableWire_ne_nil table))
        (List.forall_mem_cons.mpr ⟨trivial, fun component below =>
          (asRead.parts component below).2⟩)
  | @error failure stop rest =>
      cases decided with
      | accepts table end' returned _ _ _ _ => cases granted.symm.trans returned
      | rejects final raised _ _ =>
          cases granted.symm.trans raised
          exact .malformed
      | overflows final raised full => exact absurd full few

/-- With allocations granted, too many entries are found. -/
theorem amqpDecodeTable_overflows (inside : encoded.base + encoded.len ≤ encoded.mem.size)
    (small : offset + 4 < 2 ^ 64) (full : ContainerOverfull encoded true offset) :
    ∃ after, amqpDecodeTable encoded ⟨offset, []⟩ = .error (.fault .signedOverflow) after := by
  cases decides_amqpDecodeTable inside small with
  | accepts _ _ _ _ _ _ few => exact absurd full few
  | rejects _ _ _ few => exact absurd full few
  | overflows final raised _ => exact ⟨final, raised⟩

end Ends

/-- Decoding is total and bounded exactly when the decoder comes to no table and to no array
with more entries than it can count. -/
theorem decodesTotally_iff {encoded : Encoded} {offset : Nat}
    (inside : encoded.base + encoded.len ≤ encoded.mem.size) (small : offset + 2 ^ 32 < 2 ^ 64) :
    DecodesTotally encoded offset ↔ ¬ ContainerOverfull encoded true offset := by
  have word : offset + 4 < 2 ^ 64 := by omega
  constructor
  · intro total full
    obtain ⟨after, overflows⟩ := amqpDecodeTable_overflows inside word full
    have outcome := total.outcome []
    rw [overflows] at outcome
    cases outcome
  · intro few
    refine ⟨amqpDecodeTable_outcome inside word few, fun allocs other same => ?_,
      fun _ _ _ _ _ _ => arrayTurn_advances, fun _ _ _ _ _ _ => tableTurn_advances⟩
    have agrees := Encoded.agrees_of_slice same.len.symm inside same.inside same.octets
    rw [agrees.amqpDecodeTable]

/-- A boolean, whose octet runs past the end of its table. -/
theorem decodesTotally_iff_loose : DecodesTotally looseBoolean 0 := by
  refine (decodesTotally_iff (by decide) (by decide)).mpr fun full => ?_
  exact absurd full.room (by decide)

/-! ## Too many void values -/

section Voids

variable {encoded : Encoded} {count : Nat}

theorem word?_of_holds {data : List UInt8} {offset : Nat}
    (stored : encoded.mem.Holds (encoded.base + offset) data)
    (room : offset + data.length ≤ encoded.len) :
    encoded.word? offset data.length = some (BigEndian.value data) := by
  unfold Encoded.word?
  rw [if_pos room, stored.read?]
  rfl

/-- A void value is its kind octet. -/
theorem voids_overfull {limit numEntries offset : Nat} (behind : offset + count < limit)
    (inside : limit ≤ encoded.len)
    (stored : encoded.mem.Holds (encoded.base + offset) (List.replicate count 86))
    (counted : numEntries + count = maxEntries) :
    EntriesOverfull encoded false limit numEntries offset := by
  induction count generalizing numEntries offset with
  | zero =>
      rw [Nat.add_zero] at counted behind
      rw [counted]
      exact .full behind
  | succ count ih =>
      rw [List.replicate_succ, ← List.singleton_append, Buffer.holds_append] at stored
      obtain ⟨first, rest⟩ := stored
      have kind := word?_of_holds first (by simp only [List.length_singleton]; omega)
      have value : ValueExtent Unchecked encoded offset (offset + 1 + 0) :=
        @ValueExtent.fixed _ _ offset 86 0 .void kind (by decide) rfl (by omega)
      refine .nextElement (by omega) value (ih (by omega) ?_ (by omega))
      rwa [Nat.add_zero, ← Nat.add_assoc]

/-- The encoding of a table of void values. -/
theorem tableWire_voids (small : count + 6 < 2 ^ 32) : tableWire (voidsTable count) =
    BigEndian.bytes 4 (count + 6) ++ ([0] ++ ([65] ++
      (BigEndian.bytes 4 count ++ List.replicate count 86))) := by
  have tableSize : (UInt32.ofNat (count + 6)).toNat = count + 6 := UInt32.toNat_ofNat_of_lt' small
  have arraySize : (UInt32.ofNat count).toNat = count :=
    UInt32.toNat_ofNat_of_lt' (Nat.lt_of_le_of_lt (Nat.le_add_right _ _) small)
  rw [tableWire, sized, length_tableContent_voids, tableSize, tableContent_voids, sized,
    List.length_replicate, arraySize]
  rfl

theorem container_overfull_voids (many : maxEntries < count) (small : count + 6 < 2 ^ 32)
    (len : encoded.len = count + 10)
    (stored : encoded.mem.Holds encoded.base (tableWire (voidsTable count))) :
    ContainerOverfull encoded true 0 := by
  obtain ⟨more, rfl⟩ := Nat.exists_eq_add_of_lt many
  rw [tableWire_voids small] at stored
  obtain ⟨tableWord, stored⟩ := Buffer.holds_append.mp stored
  obtain ⟨keyLength, stored⟩ := Buffer.holds_append.mp stored
  obtain ⟨kind, stored⟩ := Buffer.holds_append.mp stored
  obtain ⟨arrayWord, stored⟩ := Buffer.holds_append.mp stored
  simp only [BigEndian.length_bytes, List.length_singleton, Nat.add_assoc, Nat.reduceAdd]
    at keyLength kind arrayWord stored
  rw [List.replicate_add, Buffer.holds_append] at stored
  have tableSize := @word?_of_holds encoded _ 0 tableWord (by
    rw [BigEndian.length_bytes]
    omega)
  have arraySize := @word?_of_holds encoded _ 6 arrayWord (by
    rw [BigEndian.length_bytes]
    omega)
  rw [BigEndian.length_bytes, BigEndian.value_bytes_of_lt (by omega)] at tableSize arraySize
  have array : ContainerOverfull encoded false 6 := by
    exact .mk arraySize (by omega) (voids_overfull (by omega) (by omega) stored.1 (Nat.zero_add _))
  have value : ValueOverfull encoded 5 :=
    .array (word?_of_holds kind (by simp only [List.length_singleton]; omega)) (by decide) array
  have entry : encoded.word? 4 1 = some 0 := @word?_of_holds encoded _ 4 keyLength (by
    simp only [List.length_singleton]
    omega)
  exact .mk tableSize (by omega) (.inEntry (by omega) entry (by omega) value)

end Voids

/-- The encoding of `2 ^ 30 + 1` void values is not decoded at all. -/
theorem many_voids_overflow : ¬ ∀ (encoded : Encoded) (offset : Nat),
    encoded.base + encoded.len ≤ encoded.mem.size → offset + 2 ^ 32 < 2 ^ 64 →
      DecodesTotally encoded offset := by
  intro total
  have length : (tableWire (voidsTable (maxEntries + 1))).length = maxEntries + 11 := by
    rw [tableWire, length_sized, length_tableContent_voids]
    omega
  let mem : Buffer := ⟨tableWire (voidsTable (maxEntries + 1)), by
    rw [length]
    decide⟩
  let encoded : Encoded := { base := 0, len := maxEntries + 11, mem }
  have inside : encoded.base + encoded.len ≤ encoded.mem.size := by
    show 0 + (maxEntries + 11) ≤ (tableWire (voidsTable (maxEntries + 1))).length
    rw [length]
    omega
  have full : ContainerOverfull encoded true 0 :=
    container_overfull_voids (Nat.lt_succ_self _) (by decide) rfl mem.holds_bytes
  obtain ⟨after, overflows⟩ := amqpDecodeTable_overflows inside (by decide) full
  have outcome := (total encoded 0 inside (by decide)).outcome []
  rw [overflows] at outcome
  cases outcome

end RabbitmqC
