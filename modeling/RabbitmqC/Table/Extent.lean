import RabbitmqC.Table.Basic

/-!
# Where tables end

The layout of tables, arrays and values in a byte string, and how it relates to
what the decoder accepts. A loop of the decoder compares its offset with the
limit of the container only before an entry; the entry itself is only checked
against the whole byte string. The layout is therefore stated with the test that
the end of an entry has to pass as a parameter. A container with more entries than
an `int` can count room for is not decoded at all.
-/

set_option autoImplicit false

namespace RabbitmqC

/-- The word of `width` octets at `offset`, if the byte string has them. -/
def Encoded.word? (encoded : Encoded) (offset width : Nat) : Option Nat :=
  if offset + width ≤ encoded.len then
    (encoded.mem.read? (encoded.base + offset) width).map BigEndian.value
  else none

/-- The octets behind the kind octet, for the kinds that always have the same number. -/
def FieldKind.fixedWidth : FieldKind → Option Nat
  | .boolean | .i8 | .u8 => some 1
  | .i16 | .u16 => some 2
  | .i32 | .u32 | .f32 => some 4
  | .i64 | .u64 | .f64 | .timestamp => some 8
  | .decimal => some 5
  | .void => some 0
  | .utf8 | .bytes | .array | .table => none

mutual

/-- A value reaches from the first offset to the second. An entry that ends at
`stop` in a container that ends at `limit` has to satisfy `fits stop limit`. -/
inductive ValueExtent (fits : Nat → Nat → Prop) (encoded : Encoded) : Nat → Nat → Prop where
  | fixed {start code width : Nat} {kind : FieldKind} :
      encoded.word? start 1 = some code → FieldKind.ofOctet (UInt8.ofNat code) = some kind →
      kind.fixedWidth = some width → start + 1 + width ≤ encoded.len →
      ValueExtent fits encoded start (start + 1 + width)
  | string {start code size : Nat} {kind : FieldKind} :
      encoded.word? start 1 = some code → FieldKind.ofOctet (UInt8.ofNat code) = some kind →
      kind = .utf8 ∨ kind = .bytes → encoded.word? (start + 1) 4 = some size →
      start + 5 + size ≤ encoded.len →
      ValueExtent fits encoded start (start + 5 + size)
  | array {start stop code : Nat} :
      encoded.word? start 1 = some code → FieldKind.ofOctet (UInt8.ofNat code) = some .array →
      ContainerExtent fits encoded false (start + 1) stop →
      ValueExtent fits encoded start stop
  | table {start stop code : Nat} :
      encoded.word? start 1 = some code → FieldKind.ofOctet (UInt8.ofNat code) = some .table →
      ContainerExtent fits encoded true (start + 1) stop →
      ValueExtent fits encoded start stop

/-- A table (`keyed`) or an array, from its size word on. -/
inductive ContainerExtent (fits : Nat → Nat → Prop) (encoded : Encoded) :
    Bool → Nat → Nat → Prop where
  | mk {keyed : Bool} {start stop size : Nat} :
      encoded.word? start 4 = some size → start + 4 + size ≤ encoded.len →
      EntriesExtent fits encoded keyed (start + 4 + size) (start + 4) stop →
      ContainerExtent fits encoded keyed start stop

/-- The entries of a container that ends at `limit`, from one of them on. -/
inductive EntriesExtent (fits : Nat → Nat → Prop) (encoded : Encoded) :
    Bool → Nat → Nat → Nat → Prop where
  | done {keyed : Bool} {limit start : Nat} :
      limit ≤ start → EntriesExtent fits encoded keyed limit start start
  | element {limit start next stop : Nat} :
      start < limit → ValueExtent fits encoded start next → fits next limit →
      EntriesExtent fits encoded false limit next stop →
      EntriesExtent fits encoded false limit start stop
  | entry {limit start keylen next stop : Nat} :
      start < limit → encoded.word? start 1 = some keylen → start + 1 + keylen ≤ encoded.len →
      ValueExtent fits encoded (start + 1 + keylen) next → fits next limit →
      EntriesExtent fits encoded true limit next stop →
      EntriesExtent fits encoded true limit start stop

end

/-- No entry at any depth runs past the end of its container. -/
abbrev Enclosed (stop limit : Nat) : Prop := stop ≤ limit

/-- Nothing is asked of where an entry ends. -/
abbrev Unchecked (_stop _limit : Nat) : Prop := True

/-- Enclosed entries end exactly where their container does. -/
theorem EntriesExtent.stop_eq {encoded : Encoded} {keyed : Bool} {limit start stop : Nat} :
    EntriesExtent Enclosed encoded keyed limit start stop → start ≤ limit → stop = limit
  | .done reached, inside => Nat.le_antisymm inside reached
  | .element _ _ fits rest, _ => rest.stop_eq fits
  | .entry _ _ _ _ fits rest, _ => rest.stop_eq fits

section Advancing

variable {fits : Nat → Nat → Prop} {encoded : Encoded} {keyed : Bool} {limit start stop : Nat}

mutual

theorem ValueExtent.lt : {start stop : Nat} → ValueExtent fits encoded start stop → start < stop
  | _, _, .fixed _ _ _ _ => by omega
  | _, _, .string _ _ _ _ _ => by omega
  | _, _, .array _ _ container => Nat.lt_of_succ_le (Nat.le_of_lt container.lt)
  | _, _, .table _ _ container => Nat.lt_of_succ_le (Nat.le_of_lt container.lt)

theorem ContainerExtent.lt : {keyed : Bool} → {start stop : Nat} →
    ContainerExtent fits encoded keyed start stop → start < stop
  | _, _, _, .mk _ _ entries => Nat.lt_of_lt_of_le (by omega) entries.le

theorem EntriesExtent.le : {keyed : Bool} → {limit start stop : Nat} →
    EntriesExtent fits encoded keyed limit start stop → start ≤ stop
  | _, _, _, _, .done _ => Nat.le_refl _
  | _, _, _, _, .element _ value _ rest => Nat.le_trans (Nat.le_of_lt value.lt) rest.le
  | _, _, _, _, .entry _ _ _ value _ rest => by
      have key := value.lt
      have others := rest.le
      omega

end

end Advancing

/-! ## Too many entries -/

mutual

/-- Inside the value that starts at an offset some container has more than `2 ^ 30` entries,
and what stands in front of the entry that is one too many has a layout. -/
inductive ValueOverfull (encoded : Encoded) : Nat → Prop where
  | array {start code : Nat} :
      encoded.word? start 1 = some code → FieldKind.ofOctet (UInt8.ofNat code) = some .array →
      ContainerOverfull encoded false (start + 1) → ValueOverfull encoded start
  | table {start code : Nat} :
      encoded.word? start 1 = some code → FieldKind.ofOctet (UInt8.ofNat code) = some .table →
      ContainerOverfull encoded true (start + 1) → ValueOverfull encoded start

inductive ContainerOverfull (encoded : Encoded) : Bool → Nat → Prop where
  | mk {keyed : Bool} {start size : Nat} :
      encoded.word? start 4 = some size → start + 4 + size ≤ encoded.len →
      EntriesOverfull encoded keyed (start + 4 + size) 0 (start + 4) →
      ContainerOverfull encoded keyed start

/-- The entries of a container that ends at `limit`, behind so many of them. -/
inductive EntriesOverfull (encoded : Encoded) : Bool → Nat → Nat → Nat → Prop where
  | full {keyed : Bool} {limit start : Nat} :
      start < limit → EntriesOverfull encoded keyed limit maxEntries start
  | inElement {limit numEntries start : Nat} :
      start < limit → ValueOverfull encoded start →
      EntriesOverfull encoded false limit numEntries start
  | inEntry {limit numEntries start keylen : Nat} :
      start < limit → encoded.word? start 1 = some keylen → start + 1 + keylen ≤ encoded.len →
      ValueOverfull encoded (start + 1 + keylen) →
      EntriesOverfull encoded true limit numEntries start
  | nextElement {limit numEntries start next : Nat} :
      start < limit → ValueExtent Unchecked encoded start next →
      EntriesOverfull encoded false limit (numEntries + 1) next →
      EntriesOverfull encoded false limit numEntries start
  | nextEntry {limit numEntries start keylen next : Nat} :
      start < limit → encoded.word? start 1 = some keylen → start + 1 + keylen ≤ encoded.len →
      ValueExtent Unchecked encoded (start + 1 + keylen) next →
      EntriesOverfull encoded true limit (numEntries + 1) next →
      EntriesOverfull encoded true limit numEntries start

end

section Overfull

variable {encoded : Encoded}

mutual

/-- Each entry takes an octet at least. -/
theorem ValueOverfull.room : {start : Nat} → ValueOverfull encoded start →
    start + maxEntries < encoded.len
  | _, .array _ _ container => by
      have room := container.room
      omega
  | _, .table _ _ container => by
      have room := container.room
      omega

theorem ContainerOverfull.room : {keyed : Bool} → {start : Nat} →
    ContainerOverfull encoded keyed start → start + maxEntries < encoded.len
  | _, _, .mk _ fits entries => by
      have room := entries.room fits
      omega

theorem EntriesOverfull.room : {keyed : Bool} → {limit numEntries start : Nat} →
    EntriesOverfull encoded keyed limit numEntries start → limit ≤ encoded.len →
      start + maxEntries < encoded.len + numEntries
  | _, _, _, _, .full before, inside => by omega
  | _, _, _, _, .inElement _ value, _ => by
      have room := value.room
      omega
  | _, _, _, _, .inEntry _ _ _ value, _ => by
      have room := value.room
      omega
  | _, _, _, _, .nextElement _ value rest, inside => by
      have advanced := value.lt
      have room := rest.room inside
      omega
  | _, _, _, _, .nextEntry _ _ _ value rest, inside => by
      have advanced := value.lt
      have room := rest.room inside
      omega

end

end Overfull

/-- An enclosed container has exactly the size its size word declares. -/
theorem ContainerExtent.stop_eq {encoded : Encoded} {keyed : Bool} {start stop : Nat}
    (extent : ContainerExtent Enclosed encoded keyed start stop) :
    ∃ size, encoded.word? start 4 = some size ∧ stop = start + 4 + size := by
  cases extent with
  | mk word _ entries => exact ⟨_, word, entries.stop_eq (by omega)⟩

/-! ## Reading words -/

section Words

variable {α β : Type} {encoded : Encoded} {offset width : Nat}

theorem Encoded.word?_eq_none_iff (inside : encoded.base + encoded.len ≤ encoded.mem.size) :
    encoded.word? offset width = none ↔ encoded.len < offset + width := by
  unfold Encoded.word?
  split
  · rename_i room
    obtain ⟨data, read⟩ := @Buffer.read?_isSome encoded.mem (encoded.base + offset) width (by omega)
    simp only [read, Option.map_some, reduceCtorEq, false_iff]
    omega
  · rename_i full
    simp only [true_iff]
    omega

theorem Encoded.le_of_word? {value : Nat} (found : encoded.word? offset width = some value) :
    offset + width ≤ encoded.len := by
  unfold Encoded.word? at found
  split at found
  · assumption
  · cases found

theorem Encoded.word?_lt {value : Nat} (found : encoded.word? offset width = some value) :
    value < 256 ^ width := by
  unfold Encoded.word? at found
  split at found
  · obtain ⟨data, read, rfl⟩ := Option.map_eq_some_iff.mp found
    rw [← (Buffer.read?_eq_some_iff.mp read).1]
    exact BigEndian.value_lt data
  · cases found

theorem amqpDecodeBytes_run {allocs : List Bool}
    (inside : encoded.base + encoded.len ≤ encoded.mem.size) (small : offset + width < 2 ^ 64) :
    amqpDecodeBytes encoded width ⟨offset, allocs⟩ =
      .ok (if offset + width ≤ encoded.len then
          encoded.mem.read? (encoded.base + offset) width else none) ⟨offset + width, allocs⟩ := by
  unfold amqpDecodeBytes
  rw [Effect.bind_of_ok (Effect.get_run _)]
  simp only [sizeAdd_of_lt small]
  split
  · obtain ⟨data, read⟩ :=
      @Buffer.read?_isSome encoded.mem (encoded.base + offset) width (by omega)
    simp only [load, read]
  · rfl

theorem decodeWord_run {allocs : List Bool}
    (inside : encoded.base + encoded.len ≤ encoded.mem.size) (small : offset + width < 2 ^ 64) :
    decodeWord width encoded ⟨offset, allocs⟩ =
      .ok (encoded.word? offset width) ⟨offset + width, allocs⟩ := by
  unfold decodeWord Encoded.word?
  rw [Effect.map_of_ok (amqpDecodeBytes_run inside small)]
  split <;> rfl

end Words

/-! ## Deciding an extent -/

/-- Run from `offset` with allocations succeeding, the decoder stops at the only
end that `extent` allows, at or behind `floor`, or rejects because there is none,
or there are more entries than it can collect. -/
inductive Decides {α : Type} (encoded : Encoded) (decode : Decoder α) (offset floor : Nat)
    (extent : Nat → Prop) (overfull : Prop) : Prop where
  | accepts (value : α) (stop : Nat) :
      decode ⟨offset, []⟩ = .ok value ⟨stop, []⟩ → floor ≤ stop → stop ≤ encoded.len →
      (∀ other, extent other ↔ other = stop) → ¬ overfull →
      Decides encoded decode offset floor extent overfull
  | rejects (final : DecodeState) :
      decode ⟨offset, []⟩ = .error (.status .badAmqpData) final →
      (∀ other, ¬ extent other) → ¬ overfull →
      Decides encoded decode offset floor extent overfull
  | overflows (final : DecodeState) :
      decode ⟨offset, []⟩ = .error (.fault .signedOverflow) final → overfull →
      Decides encoded decode offset floor extent overfull

namespace Decides

variable {α β : Type} {encoded : Encoded} {offset floor middle : Nat} {extent : Nat → Prop}
  {overfull : Prop}

/-- A first step that returns leaves the decision to the rest. -/
theorem after {first : Decoder α} {second : α → Decoder β} {value : α}
    (returned : first ⟨offset, []⟩ = .ok value ⟨middle, []⟩)
    (rest : Decides encoded (second value) middle floor extent overfull) :
    Decides encoded (first >>= second) offset floor extent overfull := by
  cases rest with
  | accepts result stop finished advanced bounded exact few =>
      exact .accepts result stop (by rw [Effect.bind_of_ok returned, finished]) advanced bounded
        exact few
  | rejects final raised none few =>
      exact .rejects final (by rw [Effect.bind_of_ok returned, raised]) none few
  | overflows final raised full =>
      exact .overflows final (by rw [Effect.bind_of_ok returned, raised]) full

/-- A first step that rejects decides. -/
theorem of_error {first : Decoder α} {second : α → Decoder β} {final : DecodeState}
    (raised : first ⟨offset, []⟩ = .error (.status .badAmqpData) final)
    (none : ∀ other, ¬ extent other) (few : ¬ overfull) :
    Decides encoded (first >>= second) offset floor extent overfull :=
  .rejects final (Effect.bind_of_error raised) none few

theorem of_overflow {first : Decoder α} {second : α → Decoder β} {final : DecodeState}
    (raised : first ⟨offset, []⟩ = .error (.fault .signedOverflow) final) (full : overfull) :
    Decides encoded (first >>= second) offset floor extent overfull :=
  .overflows final (Effect.bind_of_error raised) full

theorem congr {decode : Decoder α} {other : Nat → Prop} {full : Prop}
    (decided : Decides encoded decode offset floor extent overfull)
    (same : ∀ stop, other stop ↔ extent stop) (alike : full ↔ overfull) :
    Decides encoded decode offset floor other full := by
  cases decided with
  | accepts value stop returned advanced bounded exact few =>
      exact .accepts value stop returned advanced bounded
        (fun end' => (same end').trans (exact end')) (few ∘ alike.mp)
  | rejects final raised none few =>
      exact .rejects final raised (fun end' found => none end' ((same end').mp found))
        (few ∘ alike.mp)
  | overflows final raised many => exact .overflows final raised (alike.mpr many)

theorem weaken {decode : Decoder α} {lower : Nat}
    (decided : Decides encoded decode offset floor extent overfull) (below : lower ≤ floor) :
    Decides encoded decode offset lower extent overfull := by
  cases decided with
  | accepts value stop returned advanced bounded exact few =>
      exact .accepts value stop returned (by omega) bounded exact few
  | rejects final raised none few => exact .rejects final raised none few
  | overflows final raised many => exact .overflows final raised many

theorem map {decode : Decoder α} (change : α → β)
    (decided : Decides encoded decode offset floor extent overfull) :
    Decides encoded (change <$> decode) offset floor extent overfull := by
  cases decided with
  | accepts value stop returned advanced bounded exact few =>
      exact .accepts (change value) stop (Effect.map_of_ok returned) advanced bounded exact few
  | rejects final raised none few =>
      exact .rejects final (Effect.map_of_error raised) none few
  | overflows final raised many => exact .overflows final (Effect.map_of_error raised) many

end Decides

section Deciding

variable {encoded : Encoded} {offset width : Nat}

theorem decides_decodeWord (inside : encoded.base + encoded.len ≤ encoded.mem.size)
    (small : offset + width < 2 ^ 64) :
    Decides encoded (decodeWord width encoded).orBad offset offset
      (fun stop => stop = offset + width ∧ stop ≤ encoded.len) False := by
  have run := @decodeWord_run _ offset width [] inside small
  cases found : encoded.word? offset width with
  | none =>
      rw [found] at run
      have full := (Encoded.word?_eq_none_iff inside).mp found
      exact .rejects _ (orBad_of_none run) (by omega) id
  | some value =>
      rw [found] at run
      have room := Encoded.le_of_word? found
      exact .accepts value _ (orBad_of_some run) (by omega) room (by omega) id

theorem decides_amqpDecodeBytes (inside : encoded.base + encoded.len ≤ encoded.mem.size)
    (small : offset + width < 2 ^ 64) :
    Decides encoded (amqpDecodeBytes encoded width).orBad offset offset
      (fun stop => stop = offset + width ∧ stop ≤ encoded.len) False := by
  have run := @amqpDecodeBytes_run _ offset width [] inside small
  split at run
  · rename_i room
    obtain ⟨data, read⟩ := @Buffer.read?_isSome encoded.mem (encoded.base + offset) width (by omega)
    rw [read] at run
    exact .accepts data _ (orBad_of_some run) (by omega) room (by omega) id
  · exact .rejects _ (orBad_of_none run) (by omega) id

end Deciding

/-! ## Inversion -/

section Inversion

variable {encoded : Encoded} {keyed : Bool} {limit start stop code size : Nat} {kind : FieldKind}

theorem entriesExtent_iff_of_le (reached : limit ≤ start) :
    EntriesExtent Unchecked encoded keyed limit start stop ↔ stop = start := by
  constructor
  · intro extent
    cases extent with
    | done _ => rfl
    | element before _ _ _ => omega
    | entry before _ _ _ _ _ => omega
  · rintro rfl
    exact .done reached

theorem elementsExtent_iff (before : start < limit) :
    EntriesExtent Unchecked encoded false limit start stop ↔
      ∃ next, ValueExtent Unchecked encoded start next ∧
        EntriesExtent Unchecked encoded false limit next stop := by
  constructor
  · intro extent
    cases extent with
    | done reached => omega
    | element _ value _ rest => exact ⟨_, value, rest⟩
  · rintro ⟨next, value, rest⟩
    exact .element before value trivial rest

theorem keyedExtent_iff (before : start < limit) :
    EntriesExtent Unchecked encoded true limit start stop ↔
      ∃ keylen next, encoded.word? start 1 = some keylen ∧ start + 1 + keylen ≤ encoded.len ∧
        ValueExtent Unchecked encoded (start + 1 + keylen) next ∧
        EntriesExtent Unchecked encoded true limit next stop := by
  constructor
  · intro extent
    cases extent with
    | done reached => omega
    | entry _ length room value _ rest => exact ⟨_, _, length, room, value, rest⟩
  · rintro ⟨keylen, next, length, room, value, rest⟩
    exact .entry before length room value trivial rest

theorem containerExtent_iff (word : encoded.word? start 4 = some size) :
    ContainerExtent Unchecked encoded keyed start stop ↔
      start + 4 + size ≤ encoded.len ∧
        EntriesExtent Unchecked encoded keyed (start + 4 + size) (start + 4) stop := by
  constructor
  · intro extent
    cases extent with
    | mk other room entries =>
        cases word.symm.trans other
        exact ⟨room, entries⟩
  · rintro ⟨room, entries⟩
    exact .mk word room entries

/-- Behind a kind octet the extent is the one of that kind. -/
theorem valueExtent_iff (first : encoded.word? start 1 = some code)
    (known : FieldKind.ofOctet (UInt8.ofNat code) = some kind) :
    ValueExtent Unchecked encoded start stop ↔
      (∃ width, kind.fixedWidth = some width ∧ stop = start + 1 + width ∧ stop ≤ encoded.len) ∨
      ((kind = .utf8 ∨ kind = .bytes) ∧ ∃ size, encoded.word? (start + 1) 4 = some size ∧
        stop = start + 5 + size ∧ stop ≤ encoded.len) ∨
      (kind = .array ∧ ContainerExtent Unchecked encoded false (start + 1) stop) ∨
      (kind = .table ∧ ContainerExtent Unchecked encoded true (start + 1) stop) := by
  constructor
  · intro extent
    cases extent with
    | fixed other kindOf fixed room =>
        cases first.symm.trans other
        cases known.symm.trans kindOf
        exact .inl ⟨_, fixed, rfl, room⟩
    | string other kindOf string length room =>
        cases first.symm.trans other
        cases known.symm.trans kindOf
        exact .inr (.inl ⟨string, _, length, rfl, room⟩)
    | array other kindOf container =>
        cases first.symm.trans other
        cases known.symm.trans kindOf
        exact .inr (.inr (.inl ⟨rfl, container⟩))
    | table other kindOf container =>
        cases first.symm.trans other
        cases known.symm.trans kindOf
        exact .inr (.inr (.inr ⟨rfl, container⟩))
  · rintro (⟨width, fixed, rfl, room⟩ | ⟨string, size, length, rfl, room⟩ | ⟨rfl, container⟩ |
      ⟨rfl, container⟩)
    · exact .fixed first known fixed room
    · exact .string first known string length room
    · exact .array first known container
    · exact .table first known container

theorem entriesOverfull_done {numEntries : Nat} (reached : limit ≤ start) :
    ¬ EntriesOverfull encoded keyed limit numEntries start := by
  intro overfull
  cases overfull with
  | full before
  | inElement before _
  | inEntry before _ _ _
  | nextElement before _ _
  | nextEntry before _ _ _ _ => exact absurd before (Nat.not_lt.mpr reached)

theorem elementsOverfull_iff {numEntries : Nat} (before : start < limit)
    (few : numEntries < maxEntries) :
    EntriesOverfull encoded false limit numEntries start ↔
      ValueOverfull encoded start ∨ ∃ next, ValueExtent Unchecked encoded start next ∧
        EntriesOverfull encoded false limit (numEntries + 1) next := by
  constructor
  · intro overfull
    cases overfull with
    | full _ => exact absurd few (Nat.lt_irrefl _)
    | inElement _ value => exact .inl value
    | nextElement _ value rest => exact .inr ⟨_, value, rest⟩
  · rintro (value | ⟨next, value, rest⟩)
    · exact .inElement before value
    · exact .nextElement before value rest

theorem keyedOverfull_iff {numEntries keylen : Nat} (before : start < limit)
    (few : numEntries < maxEntries) (length : encoded.word? start 1 = some keylen)
    (room : start + 1 + keylen ≤ encoded.len) :
    EntriesOverfull encoded true limit numEntries start ↔
      ValueOverfull encoded (start + 1 + keylen) ∨
        ∃ next, ValueExtent Unchecked encoded (start + 1 + keylen) next ∧
          EntriesOverfull encoded true limit (numEntries + 1) next := by
  constructor
  · intro overfull
    cases overfull with
    | full _ => exact absurd few (Nat.lt_irrefl _)
    | inEntry _ other _ value =>
        cases length.symm.trans other
        exact .inl value
    | nextEntry _ other _ value rest =>
        cases length.symm.trans other
        exact .inr ⟨_, value, rest⟩
  · rintro (value | ⟨next, value, rest⟩)
    · exact .inEntry before length room value
    · exact .nextEntry before length room value rest

/-- A key has to be read before its value. -/
theorem not_keyedOverfull {numEntries : Nat} (few : numEntries < maxEntries)
    (unread : ∀ keylen, encoded.word? start 1 = some keylen → encoded.len < start + 1 + keylen) :
    ¬ EntriesOverfull encoded true limit numEntries start := by
  intro overfull
  cases overfull with
  | full _ => exact absurd few (Nat.lt_irrefl _)
  | inEntry _ length room _ | nextEntry _ length room _ _ =>
      exact absurd room (Nat.not_le.mpr (unread _ length))

theorem containerOverfull_iff (word : encoded.word? start 4 = some size) :
    ContainerOverfull encoded keyed start ↔
      start + 4 + size ≤ encoded.len ∧
        EntriesOverfull encoded keyed (start + 4 + size) 0 (start + 4) := by
  constructor
  · intro overfull
    cases overfull with
    | mk other room entries =>
        cases word.symm.trans other
        exact ⟨room, entries⟩
  · rintro ⟨room, entries⟩
    exact .mk word room entries

/-- Behind a kind octet only containers can have too many entries. -/
theorem valueOverfull_iff (first : encoded.word? start 1 = some code) :
    ValueOverfull encoded start ↔
      (FieldKind.ofOctet (UInt8.ofNat code) = some .array ∧
        ContainerOverfull encoded false (start + 1)) ∨
      (FieldKind.ofOctet (UInt8.ofNat code) = some .table ∧
        ContainerOverfull encoded true (start + 1)) := by
  constructor
  · intro overfull
    cases overfull with
    | array other kindOf container =>
        cases first.symm.trans other
        exact .inl ⟨kindOf, container⟩
    | table other kindOf container =>
        cases first.symm.trans other
        exact .inr ⟨kindOf, container⟩
  · rintro (⟨known, container⟩ | ⟨known, container⟩)
    · exact .array first known container
    · exact .table first known container

end Inversion

/-! ## The decoder decides the unchecked layout -/

section Main

variable {encoded : Encoded}

private theorem decides_container {α : Type} {loop : Nat → Decoder (List α)} {keyed : Bool}
    {offset : Nat} (inside : encoded.base + encoded.len ≤ encoded.mem.size)
    (small : offset + 4 < 2 ^ 64)
    (looped : ∀ limit, offset + 4 ≤ encoded.len → limit ≤ encoded.len →
      Decides encoded (loop limit) (offset + 4) (offset + 4)
        (EntriesExtent Unchecked encoded keyed limit (offset + 4))
        (EntriesOverfull encoded keyed limit 0 (offset + 4))) :
    Decides encoded (do
      let limit ← decodeLimit encoded
      let entries ← loop limit
      keepEntries entries) offset (offset + 4)
      (ContainerExtent Unchecked encoded keyed offset)
      (ContainerOverfull encoded keyed offset) := by
  have bounded : encoded.mem.size < 2 ^ 63 := encoded.mem.size_lt
  have run := @decodeWord_run _ offset 4 [] inside small
  cases found : encoded.word? offset 4 with
  | none =>
      rw [found] at run
      have raised : decodeLimit encoded ⟨offset, []⟩ =
          .error (.status .badAmqpData) ⟨offset + 4, []⟩ := by
        unfold decodeLimit amqpDecode32
        rw [orBad_map]
        exact Effect.bind_of_error (Effect.map_of_error (orBad_of_none run))
      refine .of_error raised (fun stop extent => ?_) fun overfull => ?_
      · cases extent with
        | mk word _ _ => cases found.symm.trans word
      · cases overfull with
        | mk word _ _ => cases found.symm.trans word
  | some size =>
      rw [found] at run
      have room := Encoded.le_of_word? found
      have narrow : size < 256 ^ 4 := Encoded.word?_lt found
      have wide : size < 2 ^ 32 := narrow
      have counted : (UInt32.ofNat size).toNat = size := UInt32.toNat_ofNat_of_lt' wide
      have limited : decodeLimit encoded ⟨offset, []⟩ =
          if encoded.len < offset + 4 + size then
            .error (.status .badAmqpData) ⟨offset + 4, []⟩
          else .ok (offset + 4 + size) ⟨offset + 4, []⟩ := by
        unfold decodeLimit amqpDecode32
        rw [orBad_map, Effect.bind_of_ok (Effect.map_of_ok (orBad_of_some run)),
          Effect.bind_of_ok (Effect.get_run _)]
        simp only [counted, sizeAdd_of_lt (show size + (offset + 4) < 2 ^ 64 by omega),
          sizeAdd_of_lt (show offset + 4 + size < 2 ^ 64 by omega), gt_iff_lt,
          Nat.add_comm size]
        split <;> rfl
      split at limited
      · rename_i full
        refine .of_error limited (fun stop extent => ?_) fun overfull => ?_
        · have fits := ((containerExtent_iff found).mp extent).1
          omega
        · have fits := ((containerOverfull_iff found).mp overfull).1
          omega
      · rename_i fits
        refine Decides.congr (Decides.after limited ?_)
          (fun stop => (containerExtent_iff found).trans (and_iff_right (by omega)))
          ((containerOverfull_iff found).trans (and_iff_right (by omega)))
        cases looped (offset + 4 + size) room (by omega) with
        | accepts entries stop returned advanced bounded exact few =>
            refine .accepts entries stop ?_ advanced bounded exact few
            rw [Effect.bind_of_ok returned, keepEntries_succeeds]
        | rejects final raised none few => exact .of_error raised none few
        | overflows final raised full => exact .of_overflow raised full

/-- With this much fuel, values are decided wherever they start. -/
private def DecidesValues (encoded : Encoded) (fuel : Nat) : Prop :=
  ∀ offset, offset ≤ encoded.len → encoded.len - offset < fuel →
    Decides encoded (decodeFieldValue fuel encoded) offset (offset + 1)
      (ValueExtent Unchecked encoded offset) (ValueOverfull encoded offset)

private def DecidesEntries {α : Type} (encoded : Encoded) (keyed : Bool)
    (loop : Nat → Nat → Nat → Decoder (List α)) (fuel : Nat) : Prop :=
  ∀ offset limit numEntries allocated, offset ≤ encoded.len → limit ≤ encoded.len →
    encoded.len - offset + 1 < fuel → Reserved numEntries allocated →
    Decides encoded (loop limit numEntries allocated) offset offset
      (EntriesExtent Unchecked encoded keyed limit offset)
      (EntriesOverfull encoded keyed limit numEntries offset)

private def DecidesContainers {α : Type} (encoded : Encoded) (keyed : Bool)
    (decode : Decoder (List α)) (fuel : Nat) : Prop :=
  ∀ offset, offset + 4 < 2 ^ 64 → encoded.len - offset < fuel →
    Decides encoded decode offset (offset + 4) (ContainerExtent Unchecked encoded keyed offset)
      (ContainerOverfull encoded keyed offset)

private theorem decides_arrayEntries {fuel : Nat} (values : DecidesValues encoded fuel)
    (entries : DecidesEntries encoded false (decodeArrayEntries fuel encoded) fuel) :
    DecidesEntries encoded false (decodeArrayEntries (fuel + 1) encoded) (fuel + 1) := by
  intro offset limit numEntries allocated start stop enough reserved
  unfold decodeArrayEntries
  refine Decides.after (Effect.get_run _) ?_
  by_cases before : offset < limit
  · rw [if_pos before]
    by_cases few : numEntries < maxEntries
    · obtain ⟨available, counted, returned⟩ := reserved.reserve_succeeds few offset
      refine Decides.after returned ?_
      cases values offset start (by omega) with
      | rejects final raised none few' =>
          refine .of_error raised (fun other extent => ?_) fun overfull => ?_
          · obtain ⟨next, value, _⟩ := (elementsExtent_iff before).mp extent
            exact none next value
          · rcases (elementsOverfull_iff before few).mp overfull with full | ⟨next, value, _⟩
            · exact few' full
            · exact none next value
      | overflows final raised full => exact .of_overflow raised (.inElement before full)
      | accepts value next returned advanced bounded exact few' =>
          refine Decides.after returned ?_
          have rest := (entries next limit (numEntries + 1) available bounded stop
            (by omega) counted).map (value :: ·)
          refine (rest.congr (fun other => ?_) ?_).weaken (by omega)
          · rw [elementsExtent_iff before]
            simp only [exact, exists_eq_left]
          · rw [elementsOverfull_iff before few]
            simp only [exact, exists_eq_left, or_iff_right few']
    · have most : numEntries = maxEntries := Nat.le_antisymm reserved.few (Nat.le_of_not_lt few)
      refine .of_overflow (reserved.reserve_overflows (Nat.le_of_not_lt few) _) ?_
      exact most ▸ .full before
  · rw [if_neg before]
    exact .accepts [] offset rfl (by omega) start
      (fun other => entriesExtent_iff_of_le (by omega)) (entriesOverfull_done (by omega))

private theorem decides_tableEntries {fuel : Nat}
    (inside : encoded.base + encoded.len ≤ encoded.mem.size) (values : DecidesValues encoded fuel)
    (entries : DecidesEntries encoded true (decodeTableEntries fuel encoded) fuel) :
    DecidesEntries encoded true (decodeTableEntries (fuel + 1) encoded) (fuel + 1) := by
  intro offset limit numEntries allocated start stop enough reserved
  have bounded : encoded.mem.size < 2 ^ 63 := encoded.mem.size_lt
  unfold decodeTableEntries
  refine Decides.after (Effect.get_run _) ?_
  by_cases before : offset < limit
  · rw [if_pos before]
    have run := @decodeWord_run _ offset 1 [] inside (by omega)
    unfold amqpDecode8
    rw [orBad_map]
    cases found : encoded.word? offset 1 with
    | none =>
        have beyond := (Encoded.word?_eq_none_iff inside).mp found
        omega
    | some keylen =>
        rw [found] at run
        have narrow : keylen < 256 ^ 1 := Encoded.word?_lt found
        have counted : (UInt8.ofNat keylen).toNat = keylen :=
          UInt8.toNat_ofNat_of_lt' (by simpa using narrow)
        refine Decides.after (Effect.map_of_ok (orBad_of_some run)) ?_
        by_cases few : numEntries < maxEntries
        · obtain ⟨available, stillReserved, returned⟩ :=
            reserved.reserve_succeeds few (offset + 1)
          refine Decides.after returned ?_
          rw [counted]
          have extent_iff : ∀ other, EntriesExtent Unchecked encoded true limit offset other ↔
              offset + 1 + keylen ≤ encoded.len ∧ ∃ next,
                ValueExtent Unchecked encoded (offset + 1 + keylen) next ∧
                EntriesExtent Unchecked encoded true limit next other := by
            intro other
            rw [keyedExtent_iff before]
            simp only [found, Option.some.injEq]
            constructor
            · rintro ⟨_, next, rfl, room, value, rest⟩
              exact ⟨room, next, value, rest⟩
            · rintro ⟨room, next, value, rest⟩
              exact ⟨keylen, next, rfl, room, value, rest⟩
          refine Decides.congr ?_ extent_iff Iff.rfl
          cases @decides_amqpDecodeBytes _ (offset + 1) keylen inside (by omega) with
          | overflows _ _ impossible => exact impossible.elim
          | rejects final raised none _ =>
              refine .of_error raised (fun other extent => ?_) (not_keyedOverfull few ?_)
              · exact none (offset + 1 + keylen) ⟨rfl, extent.1⟩
              · intro other length
                cases found.symm.trans length
                exact Nat.lt_of_not_le fun room => none _ ⟨rfl, room⟩
          | accepts key keyStop keyReturned _ room keyExact _ =>
              obtain ⟨rfl, _⟩ := (keyExact keyStop).mpr rfl
              refine Decides.after keyReturned ?_
              have overfull_iff := @keyedOverfull_iff _ limit _ _ _ before few found room
              cases values (offset + 1 + keylen) room (by omega) with
              | rejects final raised none few' =>
                  refine .of_error raised (fun other extent => ?_) fun overfull => ?_
                  · obtain ⟨_, next, value, _⟩ := extent
                    exact none next value
                  · rcases overfull_iff.mp overfull with full | ⟨next, value, _⟩
                    · exact few' full
                    · exact none next value
              | overflows final raised full =>
                  exact .of_overflow raised (overfull_iff.mpr (.inl full))
              | accepts value next returned advanced bounded exact few' =>
                  refine Decides.after returned ?_
                  have rest := (entries next limit (numEntries + 1) available bounded stop
                    (by omega) stillReserved).map (TableEntry.mk key value :: ·)
                  refine (rest.congr (fun other => ?_) ?_).weaken (by omega)
                  · simp only [room, exact, true_and, exists_eq_left]
                  · rw [overfull_iff]
                    simp only [exact, exists_eq_left, or_iff_right few']
        · have most : numEntries = maxEntries :=
            Nat.le_antisymm reserved.few (Nat.le_of_not_lt few)
          refine .of_overflow (reserved.reserve_overflows (Nat.le_of_not_lt few) _) ?_
          exact most ▸ .full before
  · rw [if_neg before]
    exact .accepts [] offset rfl (by omega) start
      (fun other => entriesExtent_iff_of_le (by omega)) (entriesOverfull_done (by omega))

/-- A value of fixed width is decided by the test of its last octet. -/
private theorem decides_fixed {α : Type} {decode : Decoder α} {offset code width : Nat}
    {kind : FieldKind} (first : encoded.word? offset 1 = some code)
    (known : FieldKind.ofOctet (UInt8.ofNat code) = some kind)
    (fixed : kind.fixedWidth = some width)
    (decided : Decides encoded decode (offset + 1) (offset + 1)
      (fun stop => stop = offset + 1 + width ∧ stop ≤ encoded.len) False) :
    Decides encoded decode (offset + 1) (offset + 1) (ValueExtent Unchecked encoded offset)
      (ValueOverfull encoded offset) := by
  refine decided.congr (fun stop => (valueExtent_iff first known).trans ?_)
    ((valueOverfull_iff first).trans ?_)
  · constructor
    · rintro (⟨other, same, rfl, room⟩ | ⟨rfl | rfl, _⟩ | ⟨rfl, _⟩ | ⟨rfl, _⟩)
      · cases fixed.symm.trans same
        exact ⟨rfl, room⟩
      all_goals cases fixed
    · rintro ⟨rfl, room⟩
      exact .inl ⟨width, fixed, rfl, room⟩
  · refine iff_false_intro ?_
    rintro (⟨same, _⟩ | ⟨same, _⟩)
    · cases known.symm.trans same
      cases fixed
    · cases known.symm.trans same
      cases fixed

private theorem decides_string {offset code : Nat} {kind : FieldKind}
    (inside : encoded.base + encoded.len ≤ encoded.mem.size)
    (first : encoded.word? offset 1 = some code)
    (known : FieldKind.ofOctet (UInt8.ofNat code) = some kind)
    (string : kind = .utf8 ∨ kind = .bytes) (build : List UInt8 → FieldValue) :
    Decides encoded (do
      let len ← (amqpDecode32 encoded).orBad
      let bytes ← (amqpDecodeBytes encoded len.toNat).orBad
      return build bytes) (offset + 1) (offset + 1) (ValueExtent Unchecked encoded offset)
      (ValueOverfull encoded offset) := by
  have bounded : encoded.mem.size < 2 ^ 63 := encoded.mem.size_lt
  have start := Encoded.le_of_word? first
  have same : ∀ stop, ValueExtent Unchecked encoded offset stop ↔
      ∃ size, encoded.word? (offset + 1) 4 = some size ∧ stop = offset + 5 + size ∧
        stop ≤ encoded.len := by
    intro stop
    rw [valueExtent_iff first known]
    constructor
    · rintro (⟨_, fixed, _⟩ | ⟨_, length⟩ | ⟨rfl, _⟩ | ⟨rfl, _⟩)
      · rcases string with rfl | rfl <;> cases fixed
      · exact length
      · rcases string with absent | absent <;> cases absent
      · rcases string with absent | absent <;> cases absent
    · intro length
      exact .inr (.inl ⟨string, length⟩)
  have few : ValueOverfull encoded offset ↔ False := by
    refine (valueOverfull_iff first).trans (iff_false_intro ?_)
    rintro (⟨other, _⟩ | ⟨other, _⟩)
    · cases known.symm.trans other
      rcases string with absent | absent <;> cases absent
    · cases known.symm.trans other
      rcases string with absent | absent <;> cases absent
  refine Decides.congr ?_ same few
  unfold amqpDecode32
  rw [orBad_map]
  have run := @decodeWord_run _ (offset + 1) 4 [] inside (by omega)
  cases found : encoded.word? (offset + 1) 4 with
  | none =>
      rw [found] at run
      refine .of_error (Effect.map_of_error (orBad_of_none run)) ?_ id
      rintro other ⟨_, absent, _⟩
      cases absent
  | some size =>
      rw [found] at run
      have narrow : size < 256 ^ 4 := Encoded.word?_lt found
      have wide : size < 2 ^ 32 := narrow
      have counted : (UInt32.ofNat size).toNat = size := UInt32.toNat_ofNat_of_lt' wide
      have room := Encoded.le_of_word? found
      refine Decides.after (Effect.map_of_ok (orBad_of_some run)) ?_
      rw [counted]
      have contents := @decides_amqpDecodeBytes _ (offset + 1 + 4) size inside (by omega)
      refine ((contents.map build).congr (fun stop => ?_) Iff.rfl).weaken (by omega)
      simp only [Option.some.injEq, exists_eq_left']

/-- `SIMPLE_FIELD_DECODER` and `TRIVIAL_FIELD_DECODER` decide a word of their width. -/
private theorem decides_scalar {α β : Type} {offset width : Nat} {narrow : Nat → α}
    {build : α → β} (inside : encoded.base + encoded.len ≤ encoded.mem.size)
    (small : offset + width < 2 ^ 64) :
    Decides encoded
      (build <$> Decoder.orBad (Option.map narrow <$> decodeWord width encoded)) offset offset
      (fun stop => stop = offset + width ∧ stop ≤ encoded.len) False := by
  rw [orBad_map]
  exact ((decides_decodeWord inside small).map narrow).map build

private theorem decides_decimal {offset : Nat}
    (inside : encoded.base + encoded.len ≤ encoded.mem.size) (small : offset + 5 < 2 ^ 64) :
    Decides encoded (do
      let decimals ← (amqpDecode8 encoded).orBad
      let value ← (amqpDecode32 encoded).orBad
      return FieldValue.decimal decimals value) offset offset
      (fun stop => stop = offset + 5 ∧ stop ≤ encoded.len) False := by
  unfold amqpDecode8 amqpDecode32
  rw [orBad_map, orBad_map]
  cases (@decides_decodeWord _ offset 1 inside (by omega)).map
      UInt8.ofNat with
  | overflows _ _ impossible => exact impossible.elim
  | rejects final raised none _ =>
      refine .of_error raised (fun other extent => ?_) id
      exact none (offset + 1) ⟨rfl, by omega⟩
  | accepts decimals middle returned _ room exact _ =>
      obtain ⟨rfl, _⟩ := (exact middle).mpr rfl
      refine Decides.after returned ?_
      have value := (@decides_decodeWord _ _ 4 inside (by omega)).map UInt32.ofNat
      exact (value.map (FieldValue.decimal decimals)).weaken (by omega)

private theorem decides_fieldValue {fuel : Nat}
    (inside : encoded.base + encoded.len ≤ encoded.mem.size)
    (arrays : DecidesContainers encoded false (decodeArray fuel encoded) fuel)
    (tables : DecidesContainers encoded true (decodeTable fuel encoded) fuel) :
    DecidesValues encoded (fuel + 1) := by
  intro offset start enough
  have bounded : encoded.mem.size < 2 ^ 63 := encoded.mem.size_lt
  unfold decodeFieldValue
  have run := @decodeWord_run _ offset 1 [] inside (by omega)
  have kindRun : (amqpDecode8 encoded).orBad ⟨offset, []⟩ =
      (UInt8.ofNat <$> (decodeWord 1 encoded).orBad) ⟨offset, []⟩ := by
    unfold amqpDecode8
    rw [orBad_map]
  cases first : encoded.word? offset 1 with
  | none =>
      rw [first] at run
      rw [Effect.map_of_error (orBad_of_none run)] at kindRun
      refine .of_error kindRun (fun other extent => ?_) fun overfull => ?_
      · cases extent with
        | fixed found _ _ _ => cases first.symm.trans found
        | string found _ _ _ _ => cases first.symm.trans found
        | array found _ _ => cases first.symm.trans found
        | table found _ _ => cases first.symm.trans found
      · cases overfull with
        | array found _ _ => cases first.symm.trans found
        | table found _ _ => cases first.symm.trans found
  | some code =>
      rw [first] at run
      rw [Effect.map_of_ok (orBad_of_some run)] at kindRun
      have room := Encoded.le_of_word? first
      refine Decides.after kindRun ?_
      cases known : FieldKind.ofOctet (UInt8.ofNat code) with
      | none =>
          refine .rejects ⟨offset + 1, []⟩ rfl (fun other extent => ?_) fun overfull => ?_
          · cases extent with
            | fixed found kindOf _ _ =>
                cases first.symm.trans found
                cases known.symm.trans kindOf
            | string found kindOf _ _ _ =>
                cases first.symm.trans found
                cases known.symm.trans kindOf
            | array found kindOf _ =>
                cases first.symm.trans found
                cases known.symm.trans kindOf
            | table found kindOf _ =>
                cases first.symm.trans found
                cases known.symm.trans kindOf
          · rcases (valueOverfull_iff first).mp overfull with ⟨kindOf, _⟩ | ⟨kindOf, _⟩
            · cases known.symm.trans kindOf
            · cases known.symm.trans kindOf
      | some kind =>
          cases kind with
          | boolean | i8 | u8 =>
              exact decides_fixed first known rfl (decides_scalar inside (by omega))
          | i16 | u16 => exact decides_fixed first known rfl (decides_scalar inside (by omega))
          | i32 | u32 | f32 =>
              exact decides_fixed first known rfl (decides_scalar inside (by omega))
          | i64 | u64 | f64 | timestamp =>
              exact decides_fixed first known rfl (decides_scalar inside (by omega))
          | decimal => exact decides_fixed first known rfl (decides_decimal inside (by omega))
          | void =>
              refine decides_fixed first known rfl ?_
              exact .accepts .void (offset + 1) rfl (by omega) room (by omega) id
          | utf8 => exact decides_string inside first known (.inl rfl) FieldValue.utf8
          | bytes => exact decides_string inside first known (.inr rfl) FieldValue.bytes
          | array =>
              refine ((arrays (offset + 1) (by omega) (by omega)).map FieldValue.array
                |>.weaken (by omega)).congr (fun stop => (valueExtent_iff first known).trans ?_)
                  ((valueOverfull_iff first).trans ?_)
              · simp [FieldKind.fixedWidth]
              · simp [known]
          | table =>
              refine ((tables (offset + 1) (by omega) (by omega)).map FieldValue.table
                |>.weaken (by omega)).congr (fun stop => (valueExtent_iff first known).trans ?_)
                  ((valueOverfull_iff first).trans ?_)
              · simp [FieldKind.fixedWidth]
              · simp [known]

/-- The five mutually recursive decoders, by induction on the fuel: each turn
hands less fuel to calls that have fewer octets left. -/
private theorem decides_all (inside : encoded.base + encoded.len ≤ encoded.mem.size)
    (fuel : Nat) :
    DecidesValues encoded fuel ∧
      DecidesEntries encoded false (decodeArrayEntries fuel encoded) fuel ∧
      DecidesEntries encoded true (decodeTableEntries fuel encoded) fuel ∧
      DecidesContainers encoded false (decodeArray fuel encoded) fuel ∧
      DecidesContainers encoded true (decodeTable fuel encoded) fuel := by
  induction fuel with
  | zero =>
      refine ⟨?_, ?_, ?_, ?_, ?_⟩
      · intro offset _ enough
        omega
      · intro offset limit _ _ _ _ enough _
        omega
      · intro offset limit _ _ _ _ enough _
        omega
      · intro offset _ enough
        omega
      · intro offset _ enough
        omega
  | succ fuel ih =>
      obtain ⟨values, elements, entries, arrays, tables⟩ := ih
      refine ⟨decides_fieldValue inside arrays tables, decides_arrayEntries values elements,
        decides_tableEntries inside values entries, ?_, ?_⟩
      · intro offset small enough
        unfold decodeArray
        exact decides_container inside small fun limit room fits =>
          elements (offset + 4) limit 0 initialEntries room fits (by omega) reserved_initial
      · intro offset small enough
        unfold decodeTable
        exact decides_container inside small fun limit room fits =>
          entries (offset + 4) limit 0 initialEntries room fits (by omega) reserved_initial

/-- `amqp_decode_table` accepts exactly the unchecked layout, as long as it can collect the
entries. -/
theorem decides_amqpDecodeTable (inside : encoded.base + encoded.len ≤ encoded.mem.size)
    {start : Nat} (small : start + 4 < 2 ^ 64) :
    Decides encoded (amqpDecodeTable encoded) start (start + 4)
      (ContainerExtent Unchecked encoded true start)
      (ContainerOverfull encoded true start) := by
  obtain ⟨_, _, _, _, tables⟩ := decides_all inside (decodeFuel encoded)
  refine tables start small ?_
  unfold decodeFuel
  omega

end Main

/-! ## Declared sizes -/

/-- What is accepted ends where its size word says and encloses its entries at
every depth; what has no such layout is rejected as bad data. -/
structure RespectsSizes (encoded : Encoded) (start : Nat) : Prop where
  accepted : ∀ table final, amqpDecodeTable encoded ⟨start, []⟩ = .ok table final →
    ContainerExtent Enclosed encoded true start final.offset ∧
      ∃ size, encoded.word? start 4 = some size ∧ final.offset = start + 4 + size
  rejected : (¬ ∃ stop, ContainerExtent Enclosed encoded true start stop) →
    ∃ final, amqpDecodeTable encoded ⟨start, []⟩ = .error (.status .badAmqpData) final

private theorem amqpDecodeTable_wrapped {encoded : Encoded} {start : Nat} (wraps : 2 ^ 64 ≤ start + 4)
    (bounded : start < 2 ^ 64) :
    amqpDecodeTable encoded ⟨start, []⟩ =
      if encoded.len + 2 ^ 64 < start + 4 then
        .error (.status .badAmqpData) ⟨start + 4 - 2 ^ 64, []⟩
      else .error (.fault .outOfBoundsRead) ⟨start, []⟩ := by
  have size : encoded.mem.size < 2 ^ 63 := encoded.mem.size_lt
  have wrapped : sizeAdd start 4 = start + 4 - 2 ^ 64 := by
    unfold sizeAdd
    omega
  have unread : encoded.mem.read? (encoded.base + start) 4 = none := by
    unfold Buffer.read?
    rw [if_neg (by omega)]
  unfold amqpDecodeTable decodeFuel decodeTable decodeLimit amqpDecode32
  rw [orBad_map]
  split
  · rename_i far
    refine Effect.bind_of_error (Effect.bind_of_error (Effect.map_of_error (orBad_of_none ?_)))
    refine @Effect.map_of_ok _ _ _ _ _ _ _ none _ ?_
    unfold amqpDecodeBytes
    rw [Effect.bind_of_ok (Effect.get_run _)]
    simp only [wrapped, if_neg (show ¬ start + 4 - 2 ^ 64 ≤ encoded.len by omega)]
    rfl
  · rename_i near
    refine Effect.bind_of_error (Effect.bind_of_error (Effect.map_of_error
      (Effect.bind_of_error (Effect.map_of_error ?_))))
    unfold amqpDecodeBytes
    rw [Effect.bind_of_ok (Effect.get_run _)]
    simp only [wrapped, if_pos (show start + 4 - 2 ^ 64 ≤ encoded.len by omega), load, unread]

/-- The decoder respects declared sizes exactly when the size word does not start
in front of address zero, and no entry of an otherwise well formed table, at any
depth, runs past the declared end of its container. If there are more entries than
it can collect, nothing may be wrong with the sizes. -/
theorem respectsSizes_iff {encoded : Encoded}
    (inside : encoded.base + encoded.len ≤ encoded.mem.size) (start : UInt64) :
    RespectsSizes encoded start.toNat ↔
      (start.toNat + 4 < 2 ^ 64 ∨ encoded.len + 2 ^ 64 < start.toNat + 4) ∧
      (¬ ContainerOverfull encoded true start.toNat →
        ∀ stop, ContainerExtent Unchecked encoded true start.toNat stop →
          ContainerExtent Enclosed encoded true start.toNat stop) ∧
      (ContainerOverfull encoded true start.toNat →
        ∃ stop, ContainerExtent Enclosed encoded true start.toNat stop) := by
  have bounded : start.toNat < 2 ^ 64 := start.toNat_lt
  have size : encoded.mem.size < 2 ^ 63 := encoded.mem.size_lt
  have outside : 2 ^ 64 ≤ start.toNat + 4 → ∀ {fits stop},
      ¬ ContainerExtent fits encoded true start.toNat stop := by
    rintro wraps fits stop ⟨word, _, _⟩
    have room := Encoded.le_of_word? word
    omega
  have few : 2 ^ 64 ≤ start.toNat + 4 → ¬ ContainerOverfull encoded true start.toNat := by
    intro wraps full
    have room := full.room
    omega
  by_cases small : start.toNat + 4 < 2 ^ 64
  · have decided := decides_amqpDecodeTable inside small
    constructor
    · intro respects
      refine ⟨.inl small, fun few stop extent => ?_, fun full => ?_⟩
      · cases decided with
        | accepts table final returned _ _ exact _ =>
            rw [(exact stop).mp extent]
            exact (respects.accepted table _ returned).1
        | rejects final raised none _ => exact absurd extent (none stop)
        | overflows final raised full => exact absurd full few
      · cases decided with
        | accepts table final returned _ _ _ few => exact absurd full few
        | rejects final raised _ few => exact absurd full few
        | overflows final raised _ =>
            by_contra none
            obtain ⟨other, rejected⟩ := respects.rejected none
            cases raised.symm.trans rejected
    · rintro ⟨-, encloses, laidOut⟩
      cases decided with
      | accepts table stop returned _ _ exact few =>
          have enclosed := encloses few stop ((exact stop).mpr rfl)
          refine ⟨fun other final again => ?_, fun none => absurd ⟨stop, enclosed⟩ none⟩
          rw [returned] at again
          cases again
          exact ⟨enclosed, enclosed.stop_eq⟩
      | rejects final raised _ _ =>
          refine ⟨fun other stop again => ?_, fun _ => ⟨final, raised⟩⟩
          rw [raised] at again
          cases again
      | overflows final raised full =>
          refine ⟨fun other stop again => ?_, fun none => absurd (laidOut full) none⟩
          rw [raised] at again
          cases again
  · have wrapped := @amqpDecodeTable_wrapped encoded _ (by omega) bounded
    split at wrapped
    · rename_i far
      constructor
      · exact fun _ => ⟨.inr far, fun _ stop extent => absurd extent (outside (by omega)),
          fun full => absurd full (few (by omega))⟩
      · refine fun _ => ⟨fun other final again => ?_, fun _ => ⟨_, wrapped⟩⟩
        rw [wrapped] at again
        cases again
    · rename_i near
      constructor
      · intro respects
        obtain ⟨final, raised⟩ := respects.rejected
          fun ⟨stop, extent⟩ => outside (by omega) extent
        rw [wrapped] at raised
        cases raised
      · rintro ⟨reached, -⟩
        omega

/-- The unchecked layout of what can be collected has only one end. -/
theorem ContainerExtent.stop_unique {encoded : Encoded} {start stop other : Nat}
    (inside : encoded.base + encoded.len ≤ encoded.mem.size)
    (few : ¬ ContainerOverfull encoded true start)
    (left : ContainerExtent Unchecked encoded true start stop)
    (right : ContainerExtent Unchecked encoded true start other) : other = stop := by
  have small : start + 4 < 2 ^ 64 := by
    obtain ⟨word, _, _⟩ := left
    have room := Encoded.le_of_word? word
    have size : encoded.mem.size < 2 ^ 63 := encoded.mem.size_lt
    omega
  cases decides_amqpDecodeTable inside small with
  | accepts table final returned _ _ exact _ =>
      rw [(exact stop).mp left, (exact other).mp right]
  | rejects final raised none _ => exact absurd left (none stop)
  | overflows final raised full => exact absurd full few

/-- A table of one void field under an empty key, behind the size word `size`. -/
def voidField (size : UInt8) : Encoded :=
  { base := 0, len := 6, mem := ⟨[0, 0, 0, size, 0, 86], by simp⟩ }

theorem voidField_few {size : UInt8} : ¬ ContainerOverfull (voidField size) true 0 := by
  intro full
  exact absurd full.room (by simp [voidField, maxEntries])

/-- The void field declared with its two octets. -/
theorem respectsSizes_iff_void : RespectsSizes (voidField 2) 0 := by
  have layout : ∀ {fits : Nat → Nat → Prop}, fits 6 6 →
      ContainerExtent fits (voidField 2) true 0 6 := by
    intro fits fit
    have value : ValueExtent fits (voidField 2) 5 6 :=
      @ValueExtent.fixed _ _ 5 86 0 .void (by decide +kernel) (by decide) rfl (by decide)
    have entries : EntriesExtent fits (voidField 2) true 6 4 6 :=
      @EntriesExtent.entry _ _ 6 4 0 6 6 (by omega) (by decide +kernel) (by decide) value fit
        (.done (by omega))
    exact @ContainerExtent.mk _ _ true 0 6 2 (by decide +kernel) (by decide) entries
  refine (respectsSizes_iff (by decide) 0).mpr ⟨.inl (by decide), fun few stop extent => ?_,
    fun full => absurd full voidField_few⟩
  rw [ContainerExtent.stop_unique (by decide) few (layout trivial) extent]
  exact layout (Nat.le_refl 6)

/-- The void field declared with one octet runs one octet past its table. -/
theorem amqpDecodeTable_straddles : ¬ RespectsSizes (voidField 1) 0 := by
  intro respects
  have stopped : (match amqpDecodeTable (voidField 1) ⟨0, []⟩ with
      | .ok _ final => some final.offset
      | .error _ _ => none) = some 6 := by decide +kernel
  have declared : (voidField 1).word? 0 4 = some 1 := by decide +kernel
  cases returned : amqpDecodeTable (voidField 1) ⟨0, []⟩ with
  | error failure final =>
      rw [returned] at stopped
      cases stopped
  | ok table final =>
      rw [returned] at stopped
      obtain ⟨_, size, word, stop⟩ := respects.accepted table final returned
      cases declared.symm.trans word
      cases (Option.some.inj stopped).symm.trans stop

end RabbitmqC
