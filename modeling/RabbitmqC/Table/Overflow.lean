import RabbitmqC.Table.Refusal

/-!
# Running out of room

What the table encoder does when the encoding does not fit. It writes inside the
buffer only, and stops at the first word or string that it finds no room for. The
code it returns tells a kind octet from everything else: a kind octet without room
is answered with `AMQP_STATUS_BAD_AMQP_DATA`.
-/

set_option autoImplicit false

namespace RabbitmqC

open Effect

/-! ## What is written -/

/-- Outside of the octets from `low` up to `high` nothing has changed. -/
structure OnlyWrites (low high : Nat) (before after : List UInt8) : Prop where
  length : after.length = before.length
  outside : ∀ index, index < low ∨ high ≤ index → after[index]? = before[index]?

namespace OnlyWrites

variable {low middle high : Nat} {before between after data : List UInt8}

theorem refl : OnlyWrites low high before before := ⟨rfl, fun _ _ => rfl⟩

theorem trans (first : OnlyWrites low high before between)
    (second : OnlyWrites low high between after) : OnlyWrites low high before after where
  length := second.length.trans first.length
  outside index apart := (second.outside index apart).trans (first.outside index apart)

theorem mono (only : OnlyWrites middle high before after) (below : low ≤ middle) :
    OnlyWrites low high before after where
  length := only.length
  outside index apart := only.outside index (apart.imp_left fun less => Nat.lt_of_lt_of_le less below)

theorem splice (fits : low + data.length ≤ before.length) (bounded : low + data.length ≤ high) :
    OnlyWrites low high before (before.splice low data) where
  length := List.length_splice fits
  outside index apart := by
    have short : (before.take low).length = low := by
      rw [List.length_take]
      omega
    unfold List.splice
    rcases apart with less | more
    · rw [List.append_assoc, List.getElem?_append_left (by omega), List.getElem?_take_of_lt less]
    · rw [List.getElem?_append_right (by rw [List.length_append]; omega), List.getElem?_drop,
        List.length_append, short]
      congr 1
      omega

end OnlyWrites

theorem Written.onlyWrites {view : View} {data : List UInt8} {before after : EncodeState}
    {high : Nat} (written : Written view data before after)
    (bounded : data ≠ [] → view.base + before.offset + data.length ≤ high) :
    OnlyWrites (view.base + before.offset) high before.mem.bytes after.mem.bytes := by
  rw [written.bytes]
  by_cases empty : data = []
  · rw [empty, List.splice_nil]
    exact .refl
  · exact .splice (written.fits empty).2 (bounded empty)

/-! ## The end of an encoder without room -/

/-- The encoder has stopped for want of room, having written between its offset and the
end of the view. It blames the data if `kindOctet` holds. -/
inductive Overran (view : View) (before : EncodeState) (kindOctet : Prop) :
    EStateM.Result Failure EncodeState Unit → Prop where
  | mk {status : Status} {after : EncodeState} :
      status = .badAmqpData ∧ kindOctet ∨ status = .tableTooBig ∧ ¬ kindOctet →
      OnlyWrites (view.base + before.offset) (view.base + view.len) before.mem.bytes
        after.mem.bytes →
      Overran view before kindOctet (.error (.status status) after)

section Overrunning

variable {view : View} {before middle : EncodeState} {kindOctet other : Prop}

theorem Overran.congr {result : EStateM.Result Failure EncodeState Unit}
    (overran : Overran view before kindOctet result) (same : other ↔ kindOctet) :
    Overran view before other result := by
  cases overran with
  | mk blames only => exact .mk (by rwa [same]) only

theorem Overran.bind {first : Encoder Unit} {next : Unit → Encoder Unit}
    (overran : Overran view before kindOctet (first before)) :
    Overran view before kindOctet ((first >>= next) before) := by
  cases ran : first before with
  | ok value after =>
      rw [ran] at overran
      cases overran
  | error failure after =>
      rw [ran] at overran
      rw [bind_of_error ran]
      exact overran

/-- What was written in front of it lies inside the view. -/
theorem Overran.after {first : Encoder Unit} {next : Unit → Encoder Unit} {data : List UInt8}
    (returned : first before = .ok () middle) (written : Written view data before middle)
    (overran : Overran view middle kindOctet (next () middle)) :
    Overran view before kindOctet ((first >>= next) before) := by
  rw [bind_of_ok returned]
  cases ran : next () middle with
  | ok value after =>
      rw [ran] at overran
      cases overran
  | error failure after =>
      rw [ran] at overran
      cases overran with
      | mk blames only =>
          have moved : view.base + before.offset ≤ view.base + middle.offset := by
            rw [written.offset]
            omega
          have earlier : OnlyWrites (view.base + before.offset) (view.base + view.len)
              before.mem.bytes middle.mem.bytes :=
            written.onlyWrites fun nonempty => by
              have room := (written.fits nonempty).1
              omega
          exact .mk blames (earlier.trans (only.mono moved))

/-- A word or a string without room leaves the memory as it is. -/
theorem overran_orFail {encode : Encoder Bool} {status : Status} {after : EncodeState}
    (refused : encode before = .ok false after) (same : after.mem = before.mem)
    (blames : status = .badAmqpData ∧ kindOctet ∨ status = .tableTooBig ∧ ¬ kindOctet) :
    Overran view before kindOctet (encode.orFail status before) := by
  unfold Encoder.orFail
  rw [bind_of_ok refused]
  exact .mk blames (by rw [same]; exact .refl)

theorem encodeWord_of_full {width input : Nat} (small : before.offset + width < 2 ^ 64)
    (full : view.len < before.offset + width) :
    encodeWord width view input before =
      .ok false { before with offset := before.offset + width } := by
  unfold encodeWord
  rw [bind_of_ok (get_run before)]
  simp only [sizeAdd_of_lt small, if_neg (Nat.not_le.mpr full)]
  rfl

theorem encodeBytes_of_full {input : List UInt8} (nonempty : input ≠ [])
    (small : before.offset + input.length < 2 ^ 64)
    (full : view.len < before.offset + input.length) :
    amqpEncodeBytes view input before =
      .ok false { before with offset := before.offset + input.length } := by
  unfold amqpEncodeBytes
  rw [if_neg (by simpa using nonempty), bind_of_ok (get_run before)]
  simp only [sizeAdd_of_lt small, if_neg (Nat.not_le.mpr full)]
  rfl

theorem overran_word {width input : Nat} (small : before.offset + width < 2 ^ 64)
    (full : view.len < before.offset + width) :
    Overran view before False ((encodeWord width view input).orFail .tableTooBig before) :=
  overran_orFail (encodeWord_of_full small full) rfl (.inr ⟨rfl, id⟩)

theorem overran_kind {input : UInt8} (small : before.offset + 1 < 2 ^ 64)
    (full : view.len < before.offset + 1) :
    Overran view before True ((amqpEncode8 view input).orFail .badAmqpData before) :=
  overran_orFail (encodeWord_of_full small full) rfl (.inl ⟨rfl, trivial⟩)

theorem overran_bytes {input : List UInt8} (small : before.offset + input.length < 2 ^ 64)
    (full : view.len < before.offset + input.length) (nonempty : input ≠ []) :
    Overran view before False ((amqpEncodeBytes view input).orFail .tableTooBig before) :=
  overran_orFail (encodeBytes_of_full nonempty small full) rfl (.inr ⟨rfl, id⟩)

theorem patchSize_of_full {start : Nat} {state : EncodeState} (small : start + 4 < 2 ^ 64)
    (full : view.len < start + 4) : ∃ after,
      patchSize view start state = .error (.status .tableTooBig) after ∧ after.mem = state.mem := by
  have refused (size : UInt32) : (amqpEncode32 view size).orFail .tableTooBig
      { state with offset := start } =
        .error (.status .tableTooBig) { state with offset := start + 4 } :=
    bind_of_ok (@encodeWord_of_full view { state with offset := start } 4 size.toNat small full)
  refine ⟨state, ?_, rfl⟩
  simp only [patchSize, refused]

/-- The size word of a container without entries. -/
theorem overran_emptySized (small : before.offset + 4 < 2 ^ 64)
    (full : view.len < before.offset + 4) :
    Overran view before False (encodeSized view (pure ()) before) := by
  have skipped : skipSize before = .ok before.offset { before with offset := before.offset + 4 } := by
    rw [← sizeAdd_of_lt small]
    rfl
  obtain ⟨after, refused, same⟩ := @patchSize_of_full view before.offset
    { before with offset := before.offset + 4 } small full
  unfold encodeSized
  rw [bind_of_ok skipped, bind_of_ok (pure_run _ _), refused]
  exact .mk (.inr ⟨rfl, id⟩) (by rw [same]; exact .refl)

/-- The loop runs out of room before the size word is filled in. -/
theorem Overran.sized {loop : Encoder Unit} (skipped : sizeAdd before.offset 4 = middle.offset)
    (same : middle.mem = before.mem) (behind : before.offset ≤ middle.offset)
    (overran : Overran view middle kindOctet (loop middle)) :
    Overran view before kindOctet (encodeSized view loop before) := by
  have skip : skipSize before = .ok before.offset middle := by
    obtain ⟨mem, offset⟩ := middle
    cases same
    rw [show offset = sizeAdd before.offset 4 from skipped.symm]
    rfl
  have looped : Overran view middle kindOctet
      ((loop >>= fun _ => patchSize view before.offset) middle) :=
    overran.bind
  unfold encodeSized
  rw [bind_of_ok skip]
  cases ran : (loop >>= fun _ => patchSize view before.offset) middle with
  | ok value after =>
      rw [ran] at looped
      cases looped
  | error failure after =>
      rw [ran] at looped
      cases looped with
      | mk blames only =>
          rw [same] at only
          exact .mk blames (only.mono (Nat.add_le_add_left behind _))

/-- Entries behind a size word; without entries it is the size word that finds no room. -/
theorem overran_sizedEntries {α : Type} {entries : List α} {loop : List α → Encoder Unit}
    (small : before.offset + 4 < 2 ^ 64) (emptyLoop : loop [] = pure ())
    (empty : entries = [] → view.len < before.offset + 4 ∧ ¬ kindOctet)
    (nonempty : entries ≠ [] →
      Overran view ⟨before.mem, before.offset + 4⟩ kindOctet
        (loop entries ⟨before.mem, before.offset + 4⟩)) :
    Overran view before kindOctet (encodeSized view (loop entries) before) := by
  cases entries with
  | nil =>
      obtain ⟨full, lacksNone⟩ := empty rfl
      rw [emptyLoop]
      exact (overran_emptySized small full).congr (iff_of_false lacksNone id)
  | cons entry entries =>
      refine @Overran.sized _ _ ⟨before.mem, before.offset + 4⟩ _ _ ?_ rfl ?_
        (nonempty (List.cons_ne_nil _ _))
      · rw [sizeAdd_of_lt small]
      · exact Nat.le_add_right _ _

end Overrunning

/-! ## Kind octets -/

/-- The octet at `position`, which is checked when everything in front of `checked` has
been. -/
structure KindOctet where
  checked : Nat
  position : Nat

mutual

/-- The kind octets of a value that starts at `position`. In front of the first value of an
array stands the size word, which is checked last. -/
def FieldValue.kindOctets (checked position : Nat) : FieldValue → List KindOctet
  | .array entries => ⟨checked, position⟩ :: arrayKindOctets (position + 1) (position + 5) entries
  | .table entries => ⟨checked, position⟩ :: tableKindOctets (position + 5) entries
  | _ => [⟨checked, position⟩]

def arrayKindOctets (checked position : Nat) : List FieldValue → List KindOctet
  | [] => []
  | entry :: entries =>
      entry.kindOctets checked position ++
        arrayKindOctets (position + entry.wire.length) (position + entry.wire.length) entries

def tableKindOctets (position : Nat) : List TableEntry → List KindOctet
  | [] => []
  | .mk key value :: entries =>
      value.kindOctets (position + 1 + key.length) (position + 1 + key.length) ++
        tableKindOctets (position + 1 + key.length + value.wire.length) entries

end

/-- In a buffer of `len` octets one of the kind octets is the first thing without room. -/
def LackingKind (len : Nat) (octets : List KindOctet) : Prop :=
  ∃ octet ∈ octets, octet.checked ≤ len ∧ len ≤ octet.position

section Octets

variable {len checked position : Nat} {left right : List KindOctet}

theorem not_lackingKind_nil : ¬ LackingKind len [] := by
  rintro ⟨octet, member, _⟩
  cases member

theorem lackingKind_cons {octet : KindOctet} :
    LackingKind len (octet :: right) ↔
      (octet.checked ≤ len ∧ len ≤ octet.position) ∨ LackingKind len right := by
  simp [LackingKind]

theorem lackingKind_append :
    LackingKind len (left ++ right) ↔ LackingKind len left ∨ LackingKind len right := by
  simp only [LackingKind, List.mem_append]
  constructor
  · rintro ⟨octet, before | behind, lacking⟩
    · exact .inl ⟨octet, before, lacking⟩
    · exact .inr ⟨octet, behind, lacking⟩
  · rintro (⟨octet, member, lacking⟩ | ⟨octet, member, lacking⟩)
    · exact ⟨octet, .inl member, lacking⟩
    · exact ⟨octet, .inr member, lacking⟩

theorem FieldValue.kindOctets_head (entry : FieldValue) :
    ⟨checked, position⟩ ∈ entry.kindOctets checked position := by
  cases entry <;> simp [FieldValue.kindOctets]

theorem FieldValue.length_wire_array (entries : List FieldValue) :
    (FieldValue.array entries).wire.length = 5 + (arrayContent entries).length := by
  simp only [FieldValue.wire, List.length_append, BigEndian.length_bytes, length_sized]
  omega

theorem FieldValue.length_wire_table (entries : List TableEntry) :
    (FieldValue.table entries).wire.length = 5 + (tableContent entries).length := by
  simp only [FieldValue.wire, List.length_append, BigEndian.length_bytes, length_sized]
  omega

theorem TableEntry.length_wire (key : List UInt8) (value : FieldValue) :
    (TableEntry.mk key value).wire.length = 1 + key.length + value.wire.length := by
  simp only [TableEntry.wire, List.length_append, BigEndian.length_bytes]
  omega

mutual

theorem FieldValue.kindOctets_bounds (entry : FieldValue) {checked position : Nat}
    (ordered : checked ≤ position) : ∀ octet ∈ entry.kindOctets checked position,
      checked ≤ octet.checked ∧ octet.position < position + entry.wire.length := by
  intro octet member
  have positive := entry.wire_length_pos
  have atHead (same : octet = ⟨checked, position⟩) :
      checked ≤ octet.checked ∧ octet.position < position + entry.wire.length := by
    rw [same]
    exact ⟨Nat.le_refl _, by simp only; omega⟩
  cases entry with
  | array entries =>
      rcases List.mem_cons.mp member with same | inside
      · exact atHead same
      · obtain ⟨above, below⟩ := arrayKindOctets_bounds entries (by omega) octet inside
        rw [FieldValue.length_wire_array]
        omega
  | table entries =>
      rcases List.mem_cons.mp member with same | inside
      · exact atHead same
      · obtain ⟨above, below⟩ := tableKindOctets_bounds entries octet inside
        rw [FieldValue.length_wire_table]
        omega
  | _ => exact atHead (List.mem_singleton.mp member)

theorem arrayKindOctets_bounds (entries : List FieldValue) {checked position : Nat}
    (ordered : checked ≤ position) : ∀ octet ∈ arrayKindOctets checked position entries,
      checked ≤ octet.checked ∧ octet.position < position + (arrayContent entries).length := by
  intro octet member
  cases entries with
  | nil => cases member
  | cons entry entries =>
      rw [arrayContent, List.length_append]
      rcases List.mem_append.mp member with first | rest
      · obtain ⟨above, below⟩ := entry.kindOctets_bounds ordered octet first
        omega
      · obtain ⟨above, below⟩ := arrayKindOctets_bounds entries (Nat.le_refl _) octet rest
        omega

theorem tableKindOctets_bounds (entries : List TableEntry) {position : Nat} :
    ∀ octet ∈ tableKindOctets position entries,
      position ≤ octet.checked ∧ octet.position < position + (tableContent entries).length := by
  intro octet member
  cases entries with
  | nil => cases member
  | cons entry entries =>
      obtain ⟨key, value⟩ := entry
      rw [tableContent, List.length_append, TableEntry.length_wire]
      rcases List.mem_append.mp member with first | rest
      · obtain ⟨above, below⟩ := value.kindOctets_bounds (Nat.le_refl _) octet first
        omega
      · obtain ⟨above, below⟩ := tableKindOctets_bounds entries octet rest
        omega

end

/-- Octets that come later than the end of the buffer are not reached. -/
theorem not_lackingKind_of_behind (behind : ∀ octet ∈ right, len < octet.checked) :
    ¬ LackingKind len right := by
  rintro ⟨octet, member, reached, _⟩
  exact absurd (behind octet member) (Nat.not_lt.mpr reached)

/-- Octets that have room are not lacking. -/
theorem not_lackingKind_of_fits (fits : ∀ octet ∈ left, octet.position < len) :
    ¬ LackingKind len left := by
  rintro ⟨octet, member, _, lacking⟩
  exact absurd (fits octet member) (Nat.not_lt.mpr lacking)

end Octets

/-! ## Offsets that do not wrap around -/

/-- The largest object is shorter than half of the address space. -/
def Component.Object : Component → Prop
  | .key bytes => bytes.length < 2 ^ 63
  | .value (.utf8 bytes) => bytes.length < 2 ^ 63
  | .value (.bytes bytes) => bytes.length < 2 ^ 63
  | _ => True

/-- From `offset` on an encoder does not come past the largest offset, either because the
encoding ends in front of it or because it stops soon enough for want of room. -/
def Unwrapped (offset size : Nat) (components : List Component) : Prop :=
  offset + size < 2 ^ 64 ∨ offset + 1 < 2 ^ 64 ∧ ∀ component ∈ components, component.Object

theorem Unwrapped.first {offset size : Nat} {components : List Component}
    (unwrapped : Unwrapped offset size components) (positive : 0 < size) : offset + 1 < 2 ^ 64 := by
  rcases unwrapped with whole | ⟨first, _⟩
  · omega
  · exact first

/-- The first part of an encoding. -/
theorem Unwrapped.head {offset size part : Nat} {components parts : List Component}
    (unwrapped : Unwrapped offset size components) (within : part ≤ size)
    (members : parts ⊆ components) : Unwrapped offset part parts := by
  rcases unwrapped with whole | ⟨first, objects⟩
  · exact .inl (by omega)
  · exact .inr ⟨first, fun component member => objects component (members member)⟩

/-- The part of an encoding that starts at an offset inside the buffer. -/
theorem Unwrapped.part {offset size next part : Nat} {components parts : List Component}
    (unwrapped : Unwrapped offset size components) (inside : next < 2 ^ 63 + 4)
    (ends : next + part ≤ offset + size) (members : parts ⊆ components) :
    Unwrapped next part parts := by
  rcases unwrapped with whole | ⟨_, objects⟩
  · exact .inl (by omega)
  · exact .inr ⟨by omega, fun component member => objects component (members member)⟩

section Values

variable {view : View} {before : EncodeState}

/-- A string behind its length. -/
theorem overran_string {bytes : List UInt8} (inside : view.base + view.len ≤ before.mem.size)
    (reached : before.offset ≤ view.len)
    (short : before.offset + 4 + bytes.length < 2 ^ 64 ∨ bytes.length < 2 ^ 63)
    (full : view.len < before.offset + 4 + bytes.length) :
    Overran view before False ((do
      (amqpEncode32 view (UInt32.ofNat bytes.length)).orFail .tableTooBig
      (amqpEncodeBytes view bytes).orFail .tableTooBig) before) := by
  have bounded : before.mem.size < 2 ^ 63 := before.mem.size_lt
  by_cases fits : before.offset + 4 ≤ view.len
  · obtain ⟨middle, returned⟩ := @accepts_amqpEncode32 view .tableTooBig
      (UInt32.ofNat bytes.length) before inside (by rw [BigEndian.length_bytes]; exact fits)
    have written := emits_amqpEncode32 returned
    have moved : middle.offset = before.offset + 4 := by
      rw [written.offset, BigEndian.length_bytes]
    refine .after returned written (overran_bytes ?_ ?_ ?_)
    · rw [moved]
      omega
    · rw [moved]
      exact full
    · intro empty
      rw [empty, List.length_nil] at full
      omega
  · exact (overran_word (by omega) (by omega)).bind

/-- A decimal number. -/
theorem overran_decimal {decimals : UInt8} {value : UInt32}
    (inside : view.base + view.len ≤ before.mem.size) (reached : before.offset ≤ view.len)
    (full : view.len < before.offset + 5) :
    Overran view before False ((do
      (amqpEncode8 view decimals).orFail .tableTooBig
      (amqpEncode32 view value).orFail .tableTooBig) before) := by
  have bounded : before.mem.size < 2 ^ 63 := before.mem.size_lt
  by_cases fits : before.offset + 1 ≤ view.len
  · obtain ⟨middle, returned⟩ := @accepts_amqpEncode8 view .tableTooBig decimals before inside
      (by rw [BigEndian.length_bytes]; exact fits)
    have written := emits_amqpEncode8 returned
    have moved : middle.offset = before.offset + 1 := by
      rw [written.offset, BigEndian.length_bytes]
    refine .after returned written (overran_word ?_ ?_)
    · rw [moved]
      omega
    · rw [moved]
      exact full
  · exact (overran_word (by omega) (by omega)).bind

end Values

/-! ## Tables without room -/

/-- An entry stops at its key, or at its value. -/
theorem overran_entry {view : View} {before : EncodeState} {key : List UInt8} {value : FieldValue}
    (inside : view.base + view.len ≤ before.mem.size)
    (unwrapped : Unwrapped before.offset (1 + key.length + value.wire.length)
      (TableEntry.mk key value).components)
    (atValue : ∀ middle : EncodeState, middle.offset = before.offset + 1 + key.length →
      view.base + view.len ≤ middle.mem.size → before.offset + 1 + key.length ≤ view.len →
      Overran view middle
        (LackingKind view.len
          (value.kindOctets (before.offset + 1 + key.length) (before.offset + 1 + key.length)))
        (amqpEncodeFieldValue view value middle)) :
    Overran view before
      (LackingKind view.len
        (value.kindOctets (before.offset + 1 + key.length) (before.offset + 1 + key.length)))
      (encodeTableEntry view (.mk key value) before) := by
  have bounded : before.mem.size < 2 ^ 63 := before.mem.size_lt
  have early (full : view.len < before.offset + 1 + key.length) : ¬ LackingKind view.len
      (value.kindOctets (before.offset + 1 + key.length) (before.offset + 1 + key.length)) := by
    refine not_lackingKind_of_behind fun octet member => ?_
    have bounds := value.kindOctets_bounds (Nat.le_refl _) octet member
    omega
  unfold encodeTableEntry
  by_cases lengthFits : before.offset + 1 ≤ view.len
  · obtain ⟨middle, returned⟩ := @accepts_amqpEncode8 view .tableTooBig
      (UInt8.ofNat key.length) before inside (by rw [BigEndian.length_bytes]; exact lengthFits)
    have written := emits_amqpEncode8 returned
    have moved : middle.offset = before.offset + 1 := by
      rw [written.offset, BigEndian.length_bytes]
    have still : view.base + view.len ≤ middle.mem.size := by
      rw [written.size]
      exact inside
    refine .after returned written ?_
    by_cases keyFits : before.offset + 1 + key.length ≤ view.len
    · obtain ⟨last, copied⟩ := @accepts_amqpEncodeBytes view .tableTooBig key middle still
        (by rw [moved]; exact keyFits)
      have keyWritten := emits_amqpEncodeBytes copied
      refine .after copied keyWritten (atValue last ?_ ?_ keyFits)
      · rw [keyWritten.offset, moved]
      · rw [keyWritten.size]
        exact still
    · have short : middle.offset + key.length < 2 ^ 64 := by
        rcases unwrapped with whole | ⟨_, objects⟩
        · omega
        · have object : key.length < 2 ^ 63 := objects (.key key) List.mem_cons_self
          omega
      refine (overran_bytes short (by omega) ?_).bind.congr (iff_of_false (early (by omega)) id)
      rintro rfl
      rw [List.length_nil] at keyFits
      omega
  · have first := unwrapped.first (by omega)
    exact (overran_word first (by omega)).bind.congr (iff_of_false (early (by omega)) id)

theorem Component.known_of_cons {component : Component} {components : List Component}
    (known : ∀ other ∈ component :: components, other.Known) :
    ∀ other ∈ components, other.Known :=
  fun other member => known other (List.mem_cons_of_mem _ member)

mutual

theorem overran_fieldValue (view : View) (entry : FieldValue) {checked : Nat}
    {before : EncodeState} (known : ∀ component ∈ entry.components, component.Known)
    (inside : view.base + view.len ≤ before.mem.size) (reached : checked ≤ view.len)
    (unwrapped : Unwrapped before.offset entry.wire.length entry.components)
    (full : view.len < before.offset + entry.wire.length) :
    Overran view before (LackingKind view.len (entry.kindOctets checked before.offset))
      (amqpEncodeFieldValue view entry before) := by
  have bounded : before.mem.size < 2 ^ 63 := before.mem.size_lt
  have first := unwrapped.first entry.wire_length_pos
  unfold amqpEncodeFieldValue
  by_cases kindFull : view.len < before.offset + 1
  · refine (overran_kind first kindFull).bind.congr (iff_of_true ?_ trivial)
    exact ⟨_, entry.kindOctets_head, reached, Nat.le_of_lt_succ kindFull⟩
  · obtain ⟨middle, returned⟩ := @accepts_amqpEncode8 view .badAmqpData entry.kind before inside
      (by rw [BigEndian.length_bytes]; omega)
    have written := emits_amqpEncode8 returned
    have moved : middle.offset = before.offset + 1 := by
      rw [written.offset, BigEndian.length_bytes]
    have still : view.base + view.len ≤ middle.mem.size := by
      rw [written.size]
      exact inside
    have here : ¬ (checked ≤ view.len ∧ view.len ≤ before.offset) := by omega
    have alone : ¬ LackingKind view.len [⟨checked, before.offset⟩] := by
      simpa [LackingKind] using fun _ => Nat.lt_of_succ_le (Nat.not_lt.mp kindFull)
    -- The values that have no kind octet inside.
    have scalar {result : EStateM.Result Failure EncodeState Unit}
        (octets : entry.kindOctets checked before.offset = [⟨checked, before.offset⟩])
        (overran : Overran view middle False result) :
        Overran view middle (LackingKind view.len (entry.kindOctets checked before.offset))
          result := by
      rw [octets]
      exact overran.congr (iff_of_false alone id)
    have word {width input : Nat} (narrow : width ≤ 8)
        (wide : entry.wire.length = 1 + width) :
        Overran view middle False ((encodeWord width view input).orFail .tableTooBig middle) :=
      overran_word (by omega) (by omega)
    have string {bytes : List UInt8} (wide : entry.wire.length = 1 + (4 + bytes.length))
        (object : (∀ component ∈ entry.components, component.Object) → bytes.length < 2 ^ 63) :
        Overran view middle False ((do
          (amqpEncode32 view (UInt32.ofNat bytes.length)).orFail .tableTooBig
          (amqpEncodeBytes view bytes).orFail .tableTooBig) middle) := by
      refine overran_string still (by omega) ?_ (by omega)
      rcases unwrapped with whole | ⟨_, objects⟩
      · exact .inl (by omega)
      · exact .inr (object objects)
    refine .after returned written ?_
    cases entry with
    | boolean value => exact scalar rfl (word (by omega) (by simp [FieldValue.wire]))
    | i8 value => exact scalar rfl (word (by omega) (by simp [FieldValue.wire]))
    | u8 value => exact scalar rfl (word (by omega) (by simp [FieldValue.wire]))
    | i16 value => exact scalar rfl (word (by omega) (by simp [FieldValue.wire]))
    | u16 value => exact scalar rfl (word (by omega) (by simp [FieldValue.wire]))
    | i32 value => exact scalar rfl (word (by omega) (by simp [FieldValue.wire]))
    | u32 value => exact scalar rfl (word (by omega) (by simp [FieldValue.wire]))
    | i64 value => exact scalar rfl (word (by omega) (by simp [FieldValue.wire]))
    | u64 value => exact scalar rfl (word (by omega) (by simp [FieldValue.wire]))
    | f32 bits => exact scalar rfl (word (by omega) (by simp [FieldValue.wire]))
    | f64 bits => exact scalar rfl (word (by omega) (by simp [FieldValue.wire]))
    | timestamp value => exact scalar rfl (word (by omega) (by simp [FieldValue.wire]))
    | decimal decimals value =>
        simp only [FieldValue.wire, List.length_append, BigEndian.length_bytes] at full
        exact scalar rfl (overran_decimal still (by omega) (by omega))
    | void =>
        simp only [FieldValue.wire, List.length_append, BigEndian.length_bytes,
          List.length_nil] at full
        exact absurd full kindFull
    | unknown kind => exact (known _ List.mem_cons_self).elim
    | utf8 bytes =>
        exact scalar rfl (string (by simp [FieldValue.wire, length_sized]) fun objects =>
          objects _ List.mem_cons_self)
    | bytes bytes =>
        exact scalar rfl (string (by simp [FieldValue.wire, length_sized]) fun objects =>
          objects _ List.mem_cons_self)
    | array entries =>
        rw [FieldValue.length_wire_array] at full unwrapped
        have octets : LackingKind view.len
            ((FieldValue.array entries).kindOctets checked before.offset) ↔
              LackingKind view.len
                (arrayKindOctets (before.offset + 1) (before.offset + 5) entries) := by
          rw [FieldValue.kindOctets, lackingKind_cons, or_iff_right here]
        refine Overran.congr (overran_sizedEntries (by omega) rfl ?_ fun nonempty => ?_) octets
        · rintro rfl
          rw [arrayContent, List.length_nil] at full
          exact ⟨by omega, not_lackingKind_nil⟩
        · rw [moved]
          refine overran_arrayEntries view entries (Component.known_of_cons known) still
            (by simp only; omega) (by omega) ?_ nonempty (by simp only; omega)
          exact unwrapped.part (by simp only; omega) (by simp only; omega)
            (List.subset_cons_self _ _)
    | table entries =>
        rw [FieldValue.length_wire_table] at full unwrapped
        have octets : LackingKind view.len
            ((FieldValue.table entries).kindOctets checked before.offset) ↔
              LackingKind view.len (tableKindOctets (before.offset + 5) entries) := by
          rw [FieldValue.kindOctets, lackingKind_cons, or_iff_right here]
        refine Overran.congr (overran_sizedEntries (by omega) rfl ?_ fun nonempty => ?_) octets
        · rintro rfl
          rw [tableContent, List.length_nil] at full
          exact ⟨by omega, not_lackingKind_nil⟩
        · rw [moved]
          refine overran_tableEntries view entries (Component.known_of_cons known) still ?_
            nonempty (by simp only; omega)
          exact unwrapped.part (by simp only; omega) (by simp only; omega)
            (List.subset_cons_self _ _)

theorem overran_arrayEntries (view : View) (entries : List FieldValue) {checked : Nat}
    {before : EncodeState} (known : ∀ component ∈ arrayComponents entries, component.Known)
    (inside : view.base + view.len ≤ before.mem.size) (ordered : checked ≤ before.offset)
    (reached : checked ≤ view.len)
    (unwrapped : Unwrapped before.offset (arrayContent entries).length (arrayComponents entries))
    (nonempty : entries ≠ [])
    (full : view.len < before.offset + (arrayContent entries).length) :
    Overran view before (LackingKind view.len (arrayKindOctets checked before.offset entries))
      (encodeArrayEntries view entries before) := by
  have bounded : before.mem.size < 2 ^ 63 := before.mem.size_lt
  cases entries with
  | nil => exact absurd rfl nonempty
  | cons entry entries =>
      rw [arrayContent, List.length_append] at full unwrapped
      rw [arrayComponents] at known unwrapped
      unfold encodeArrayEntries
      have knownFirst : ∀ component ∈ entry.components, component.Known :=
        fun component member => known component (List.mem_append_left _ member)
      by_cases fits : before.offset + entry.wire.length ≤ view.len
      · obtain ⟨middle, returned⟩ :=
          accepts_amqpEncodeFieldValue view entry knownFirst inside fits
        have written := emits_amqpEncodeFieldValue view entry returned
        have rest := @overran_arrayEntries view entries _ middle
          (fun component member => known component (List.mem_append_right _ member))
          (by rw [written.size]; exact inside) (Nat.le_of_eq written.offset.symm) fits
          (unwrapped.part (by rw [written.offset]; omega) (by rw [written.offset]; omega)
            (List.subset_append_right _ _))
          (by
            rintro rfl
            rw [arrayContent, List.length_nil] at full
            omega)
          (by rw [written.offset]; omega)
        refine Overran.congr (.after returned written rest) ?_
        rw [arrayKindOctets, lackingKind_append, written.offset, or_iff_right]
        refine not_lackingKind_of_fits fun octet member => ?_
        have bounds := entry.kindOctets_bounds ordered octet member
        omega
      · have first := overran_fieldValue view entry knownFirst inside reached
          (unwrapped.head (Nat.le_add_right _ _) (List.subset_append_left _ _)) (by omega)
        refine Overran.congr first.bind ?_
        rw [arrayKindOctets, lackingKind_append, or_iff_left]
        refine not_lackingKind_of_behind fun octet member => ?_
        have bounds := arrayKindOctets_bounds entries (Nat.le_refl _) octet member
        omega

theorem overran_tableEntries (view : View) (entries : List TableEntry) {before : EncodeState}
    (known : ∀ component ∈ tableComponents entries, component.Known)
    (inside : view.base + view.len ≤ before.mem.size)
    (unwrapped : Unwrapped before.offset (tableContent entries).length (tableComponents entries))
    (nonempty : entries ≠ [])
    (full : view.len < before.offset + (tableContent entries).length) :
    Overran view before (LackingKind view.len (tableKindOctets before.offset entries))
      (encodeTableEntries view entries before) := by
  have bounded : before.mem.size < 2 ^ 63 := before.mem.size_lt
  cases entries with
  | nil => exact absurd rfl nonempty
  | cons entry entries =>
      obtain ⟨key, value⟩ := entry
      have length := TableEntry.length_wire key value
      rw [tableContent, List.length_append, length] at full unwrapped
      rw [tableComponents] at known unwrapped
      unfold encodeTableEntries
      have knownFirst : ∀ component ∈ (TableEntry.mk key value).components, component.Known :=
        fun component member => known component (List.mem_append_left _ member)
      by_cases fits : before.offset + (1 + key.length + value.wire.length) ≤ view.len
      · obtain ⟨middle, returned⟩ := accepts_encodeTableEntry view (.mk key value) knownFirst inside
          (by rw [length]; exact fits)
        have written := emits_encodeTableEntry view (.mk key value) returned
        have moved : middle.offset = before.offset + 1 + key.length + value.wire.length := by
          rw [written.offset, length]
          omega
        have rest := @overran_tableEntries view entries middle
          (fun component member => known component (List.mem_append_right _ member))
          (by rw [written.size]; exact inside)
          (unwrapped.part (by rw [moved]; omega) (by rw [moved]; omega)
            (List.subset_append_right _ _))
          (by
            rintro rfl
            rw [tableContent, List.length_nil] at full
            omega)
          (by rw [moved]; omega)
        refine Overran.congr (.after returned written rest) ?_
        rw [tableKindOctets, lackingKind_append, moved, or_iff_right]
        refine not_lackingKind_of_fits fun octet member => ?_
        have bounds := value.kindOctets_bounds (Nat.le_refl _) octet member
        omega
      · have first := @overran_entry view before key value inside
          (unwrapped.head (Nat.le_add_right _ _) (List.subset_append_left _ _))
          fun middle moved still reached => by
            have part := @overran_fieldValue view value _ middle (Component.known_of_cons knownFirst)
              still reached
              (unwrapped.part (by omega) (by omega)
                (List.Subset.trans (List.subset_cons_self _ _) (List.subset_append_left _ _)))
              (by omega)
            rwa [moved] at part
        refine Overran.congr first.bind ?_
        rw [tableKindOctets, lackingKind_append, or_iff_left]
        refine not_lackingKind_of_behind fun octet member => ?_
        have bounds := tableKindOctets_bounds entries octet member
        omega

end

/-! ## The size of an encoding -/

mutual

/-- The octets behind the kind octet. -/
def FieldValue.valueSize : FieldValue → Nat
  | .boolean _ | .i8 _ | .u8 _ => 1
  | .i16 _ | .u16 _ => 2
  | .i32 _ | .u32 _ | .f32 _ => 4
  | .i64 _ | .u64 _ | .f64 _ | .timestamp _ => 8
  | .decimal _ _ => 5
  | .utf8 bytes => 4 + bytes.length
  | .bytes bytes => 4 + bytes.length
  | .array entries => 4 + arrayEntriesSize entries
  | .table entries => 4 + tableEntriesSize entries
  | .void | .unknown _ => 0

def arrayEntriesSize : List FieldValue → Nat
  | [] => 0
  | entry :: entries => 1 + entry.valueSize + arrayEntriesSize entries

def tableEntriesSize : List TableEntry → Nat
  | [] => 0
  | .mk key value :: entries => 1 + key.length + 1 + value.valueSize + tableEntriesSize entries

end

/-- The octets of a table: its size word and its entries. -/
def Table.encodedSize (table : Table) : Nat := 4 + tableEntriesSize table

mutual

theorem FieldValue.length_wire (entry : FieldValue) :
    entry.wire.length = 1 + entry.valueSize := by
  cases entry with
  | array entries =>
      rw [FieldValue.length_wire_array, FieldValue.valueSize, length_arrayContent]
      omega
  | table entries =>
      rw [FieldValue.length_wire_table, FieldValue.valueSize, length_tableContent]
      omega
  | _ => simp [FieldValue.wire, FieldValue.valueSize, length_sized]

theorem length_arrayContent (entries : List FieldValue) :
    (arrayContent entries).length = arrayEntriesSize entries := by
  cases entries with
  | nil => rfl
  | cons entry entries =>
      rw [arrayContent, List.length_append, entry.length_wire, length_arrayContent entries,
        arrayEntriesSize]

theorem length_tableContent (entries : List TableEntry) :
    (tableContent entries).length = tableEntriesSize entries := by
  cases entries with
  | nil => rfl
  | cons entry entries =>
      obtain ⟨key, value⟩ := entry
      rw [tableContent, List.length_append, TableEntry.length_wire, value.length_wire,
        length_tableContent entries, tableEntriesSize]
      omega

end

theorem Table.length_wire (table : Table) : (tableWire table).length = table.encodedSize := by
  rw [tableWire, length_sized, length_tableContent, Table.encodedSize]

/-! ## Encoding a table -/

section Tables

variable {view : View} {table : Table} {before : EncodeState}

/-- Without room for it a table is refused. -/
theorem overran_amqpEncodeTable (known : table.Every Component.Known)
    (inside : view.base + view.len ≤ before.mem.size)
    (unwrapped : before.offset + table.encodedSize < 2 ^ 64)
    (full : view.len < before.offset + table.encodedSize) :
    Overran view before (LackingKind view.len (tableKindOctets (before.offset + 4) table))
      (amqpEncodeTable view table before) := by
  unfold Table.encodedSize at unwrapped full
  rw [← length_tableContent] at unwrapped full
  refine overran_sizedEntries (by omega) rfl ?_ fun nonempty => ?_
  · rintro rfl
    rw [tableContent, List.length_nil] at full
    exact ⟨full, not_lackingKind_nil⟩
  · exact overran_tableEntries view table (Component.known_of_cons known) inside
      (.inl (by simp only; omega)) nonempty (by simp only; omega)

/-- A table is encoded exactly when it fits, and whether it does or not, only its place
inside the buffer is written. -/
theorem amqpEncodeTable_fits_or_fails (known : table.Every Component.Known)
    (inside : view.base + view.len ≤ before.mem.size)
    (unwrapped : before.offset + table.encodedSize < 2 ^ 64) :
    ((∃ after, amqpEncodeTable view table before = .ok () after) ↔
        before.offset + table.encodedSize ≤ view.len) ∧
      (∀ after, amqpEncodeTable view table before = .ok () after →
        after.offset = before.offset + table.encodedSize) ∧
      (view.len < before.offset + table.encodedSize → ∃ status after,
        amqpEncodeTable view table before = .error (.status status) after) ∧
      OnlyWrites (view.base + before.offset)
        (view.base + min view.len (before.offset + table.encodedSize))
        before.mem.bytes (endState (amqpEncodeTable view table before)).mem.bytes := by
  have noUnknown : ¬ table.HasUnknown := by
    rintro ⟨component, member, unknown⟩
    exact unknown (known component member)
  have returns := @amqpEncodeTable_returns_iff view table before inside
  rw [table.length_wire, and_iff_right noUnknown] at returns
  refine ⟨returns, fun after returned => ?_, fun full => ?_, ?_⟩
  · rw [(emits_amqpEncodeTable view table returned).offset, table.length_wire]
  · have overran := overran_amqpEncodeTable known inside unwrapped full
    cases ran : amqpEncodeTable view table before with
    | ok value after =>
        rw [ran] at overran
        cases overran
    | error failure after =>
        rw [ran] at overran
        cases overran with
        | mk _ _ => exact ⟨_, _, rfl⟩
  · by_cases fits : before.offset + table.encodedSize ≤ view.len
    · obtain ⟨after, returned⟩ := returns.mpr fits
      rw [returned, Nat.min_eq_right fits]
      refine (emits_amqpEncodeTable view table returned).onlyWrites fun _ => ?_
      rw [table.length_wire]
      omega
    · have overran := overran_amqpEncodeTable known inside unwrapped (Nat.not_le.mp fits)
      rw [Nat.min_eq_left (Nat.le_of_not_le fits)]
      cases ran : amqpEncodeTable view table before with
      | ok value after =>
          rw [ran] at overran
          cases overran
      | error failure after =>
          rw [ran] at overran
          cases overran with
          | mk _ only => exact only

def zeroOctets : Buffer := .zeros 16 (by simp)

@[simp] theorem zeroOctets_size : zeroOctets.size = 16 := by
  simp [zeroOctets]


/-- One empty field under a short key, in a buffer that ends inside of it. -/
theorem amqpEncodeTable_fits_or_fails_short :
    ∃ status after, amqpEncodeTable ⟨0, 5⟩ [.mk [107] .void] ⟨zeroOctets, 0⟩ =
      .error (.status status) after := by
  refine (@amqpEncodeTable_fits_or_fails ⟨0, 5⟩ [.mk [107] .void] ⟨zeroOctets, 0⟩
    ?_ (by simp) ?_).2.2.1 ?_
  · simp [Table.Every, FieldValue.components, tableComponents, TableEntry.components,
      Component.Known]
  · simp [Table.encodedSize, tableEntriesSize, FieldValue.valueSize]
  · simp [Table.encodedSize, tableEntriesSize, FieldValue.valueSize]

/-! ## The code for a full buffer -/

/-- Without room for the table the code is `AMQP_STATUS_TABLE_TOO_BIG`. -/
def ReportsFull (view : View) (table : Table) (before : EncodeState) : Prop :=
  view.len < before.offset + table.encodedSize →
    ∃ after, amqpEncodeTable view table before = .error (.status .tableTooBig) after

/-- Space runs out in front of the end of the entries, which start at `start`, and at
something else than a kind octet. -/
structure EndsElsewhere (view : View) (table : Table) (start : Nat) : Prop where
  first : table ≠ [] → start + 1 < 2 ^ 64
  full : view.len < start + tableEntriesSize table
  elsewhere : ¬ LackingKind view.len (tableKindOctets start table)

theorem Overran.reports_iff {kindOctet : Prop} {result : EStateM.Result Failure EncodeState Unit}
    (overran : Overran view before kindOctet result) :
    (∃ after, result = .error (.status .tableTooBig) after) ↔ ¬ kindOctet := by
  cases overran with
  | @mk status after blames only =>
      constructor
      · rintro ⟨after, same⟩
        cases same
        rcases blames with ⟨other, _⟩ | ⟨_, elsewhere⟩
        · cases other
        · exact elsewhere
      · intro elsewhere
        rcases blames with ⟨_, kind⟩ | ⟨rfl, _⟩
        · exact absurd kind elsewhere
        · exact ⟨after, rfl⟩

theorem encodeSized_of_error {loop : Encoder Unit} {failure : Failure} {after : EncodeState}
    (raised : loop ⟨before.mem, sizeAdd before.offset 4⟩ = .error failure after) :
    encodeSized view loop before = .error failure after := by
  unfold encodeSized
  have skipped : skipSize before =
      .ok before.offset ⟨before.mem, sizeAdd before.offset 4⟩ := rfl
  rw [bind_of_ok skipped, bind_of_error raised]

theorem encodeSized_of_ok {loop : Encoder Unit} {after : EncodeState}
    (returned : loop ⟨before.mem, sizeAdd before.offset 4⟩ = .ok () after) :
    encodeSized view loop before = patchSize view before.offset after := by
  unfold encodeSized
  have skipped : skipSize before =
      .ok before.offset ⟨before.mem, sizeAdd before.offset 4⟩ := rfl
  rw [bind_of_ok skipped, bind_of_ok returned]

/-- Past the end of the address space there is nothing to write to. -/
theorem encodeWord_of_wrap {width input : Nat} {status : Status} {state : EncodeState}
    (beyond : state.mem.size < state.offset + width) (room : sizeAdd state.offset width ≤ view.len) :
    (encodeWord width view input).orFail status state =
      .error (.fault .outOfBoundsWrite) state := by
  have missing : state.mem.write? (view.base + state.offset) (BigEndian.bytes width input) = none := by
    cases copied : state.mem.write? (view.base + state.offset) (BigEndian.bytes width input) with
    | none => rfl
    | some mem =>
        have fits := (Buffer.write?_eq_some_iff.mp copied).1
        rw [BigEndian.length_bytes] at fits
        omega
  unfold Encoder.orFail
  refine bind_of_error ?_
  unfold encodeWord
  rw [bind_of_ok (get_run state), if_pos room, store, missing]

/-- At the last offset of all the length of the first key is written past the end. -/
theorem encodeTableEntries_of_last {state : EncodeState} (nonempty : table ≠ [])
    (last : ¬ state.offset + 1 < 2 ^ 64) (representable : state.offset < 2 ^ 64) :
    encodeTableEntries view table state = .error (.fault .outOfBoundsWrite) state := by
  cases table with
  | nil => exact absurd rfl nonempty
  | cons entry entries =>
      obtain ⟨key, value⟩ := entry
      have bounded : state.mem.size < 2 ^ 63 := state.mem.size_lt
      have wraps : sizeAdd state.offset 1 = 0 := by
        unfold sizeAdd
        omega
      unfold encodeTableEntries encodeTableEntry
      refine bind_of_error (bind_of_error (encodeWord_of_wrap (by omega) ?_))
      rw [wraps]
      exact Nat.zero_le _

/-- The size word itself, when the entries have had room. -/
theorem patchSize_reports_iff {start : Nat} {state : EncodeState}
    (representable : start < 2 ^ 64) (full : view.len < start + 4) :
    (∃ after, patchSize view start state = .error (.status .tableTooBig) after) ↔
      view.len < sizeAdd start 4 := by
  have bounded : state.mem.size < 2 ^ 63 := state.mem.size_lt
  constructor
  · rintro ⟨after, refused⟩
    by_contra room
    have outside : state.mem.size < start + 4 := by
      by_contra still
      rw [sizeAdd_of_lt (by omega)] at room
      exact room full
    simp only [patchSize, amqpEncode32,
      @encodeWord_of_wrap view 4 _ .tableTooBig { state with offset := start } outside
        (Nat.not_lt.mp room)] at refused
    cases refused
  · intro wrapped
    have refused (size : UInt32) : amqpEncode32 view size { state with offset := start } =
        .ok false { state with offset := sizeAdd start 4 } := by
      rw [amqpEncode32, encodeWord, bind_of_ok (get_run _), if_neg (Nat.not_le.mpr wrapped)]
      rfl
    have raised (size : UInt32) : (amqpEncode32 view size).orFail .tableTooBig
        { state with offset := start } =
          .error (.status .tableTooBig) { state with offset := sizeAdd start 4 } :=
      bind_of_ok (refused size)
    refine ⟨state, ?_⟩
    simp only [patchSize, raised]

/-- The code is right if space runs out at something else than a kind octet, and in front
of the offset at which `size_t` wraps around. -/
theorem reportsFull_iff (known : table.Every Component.Known)
    (objects : table.Every Component.Object) (representable : before.offset < 2 ^ 64)
    (inside : view.base + view.len ≤ before.mem.size) :
    ReportsFull view table before ↔
      before.offset + table.encodedSize ≤ view.len ∨
        EndsElsewhere view table (sizeAdd before.offset 4) := by
  have bounded : before.mem.size < 2 ^ 63 := before.mem.size_lt
  by_cases fits : before.offset + table.encodedSize ≤ view.len
  · exact iff_of_true (fun full => absurd full (Nat.not_lt.mpr fits)) (.inl fits)
  have full := Nat.not_le.mp fits
  rw [or_iff_right fits, ReportsFull, imp_iff_right full]
  unfold Table.encodedSize at full
  have wrapped : sizeAdd before.offset 4 < 2 ^ 64 := Nat.mod_lt _ (by norm_num)
  have entries := @overran_tableEntries view table ⟨before.mem, sizeAdd before.offset 4⟩
    (Component.known_of_cons known) inside
  rw [length_tableContent] at entries
  by_cases last : table ≠ [] ∧ ¬ sizeAdd before.offset 4 + 1 < 2 ^ 64
  · refine iff_of_false ?_ fun ends => last.2 (ends.first last.1)
    have raised := @encodeTableEntries_of_last view _ ⟨before.mem, _⟩ last.1 last.2 wrapped
    rw [amqpEncodeTable, encodeSized_of_error raised]
    rintro ⟨after, same⟩
    cases same
  have first : table ≠ [] → sizeAdd before.offset 4 + 1 < 2 ^ 64 := by
    intro nonempty
    by_contra none
    exact last ⟨nonempty, none⟩
  by_cases overruns : table ≠ [] ∧ view.len < sizeAdd before.offset 4 + tableEntriesSize table
  · -- The loop does not come to its end.
    have overran := entries (.inr ⟨first overruns.1, fun component member =>
      objects component (List.mem_cons_of_mem _ member)⟩) overruns.1 overruns.2
    have reports := overran.reports_iff
    cases ran : encodeTableEntries view table ⟨before.mem, sizeAdd before.offset 4⟩ with
    | ok value after =>
        rw [ran] at overran
        cases overran
    | error failure after =>
        rw [ran] at reports
        rw [amqpEncodeTable, encodeSized_of_error ran, reports]
        exact ⟨fun elsewhere => ⟨first, overruns.2, elsewhere⟩, EndsElsewhere.elsewhere⟩
  · have returns : ∃ after,
        encodeTableEntries view table ⟨before.mem, sizeAdd before.offset 4⟩ = .ok () after := by
      by_cases empty : table = []
      · rw [empty]
        exact ⟨_, rfl⟩
      · refine accepts_encodeTableEntries view table (Component.known_of_cons known) inside ?_
        rw [length_tableContent]
        exact Nat.not_lt.mp fun more => overruns ⟨empty, more⟩
    obtain ⟨after, returned⟩ := returns
    have beyond : view.len < before.offset + 4 := by
      by_contra room
      rw [sizeAdd_of_lt (by omega)] at overruns
      refine overruns ⟨?_, by omega⟩
      rintro rfl
      exact room full
    rw [amqpEncodeTable, encodeSized_of_ok returned, patchSize_reports_iff representable beyond]
    constructor
    · intro wraps
      have empty : table = [] := by
        by_contra nonempty
        exact overruns ⟨nonempty, Nat.lt_of_lt_of_le wraps (Nat.le_add_right _ _)⟩
      subst empty
      exact ⟨first, wraps, not_lackingKind_nil⟩
    · intro ends
      have empty : table = [] := by
        by_contra nonempty
        exact overruns ⟨nonempty, ends.full⟩
      subst empty
      exact ends.full

/-- One empty field under a short key, when there is no room for the key. -/
theorem reportsFull_iff_short_key :
    ReportsFull ⟨0, 5⟩ [.mk [107] .void] ⟨zeroOctets, 0⟩ := by
  refine (@reportsFull_iff ⟨0, 5⟩ [.mk [107] .void] ⟨zeroOctets, 0⟩ ?_ ?_ (by simp)
    (by simp)).mpr (.inr ⟨?_, ?_, ?_⟩)
  · simp [Table.Every, FieldValue.components, tableComponents, TableEntry.components,
      Component.Known]
  · simp [Table.Every, FieldValue.components, tableComponents, TableEntry.components,
      Component.Object]
  · simp [sizeAdd]
  · simp [sizeAdd, tableEntriesSize, FieldValue.valueSize]
  · simp [sizeAdd, LackingKind, tableKindOctets, FieldValue.kindOctets]

/-- When there is room for the key but not for the kind octet behind it, the code says that
the table is invalid. -/
theorem full_buffer_reported_as_bad_data :
    ¬ ReportsFull ⟨0, 6⟩ [.mk [107] .void] ⟨zeroOctets, 0⟩ := by
  intro reports
  obtain ⟨after, refused⟩ := reports (by
    simp [Table.encodedSize, tableEntriesSize, FieldValue.valueSize])
  have overran := @overran_amqpEncodeTable ⟨0, 6⟩ [.mk [107] .void] ⟨zeroOctets, 0⟩
    (by simp [Table.Every, FieldValue.components, tableComponents, TableEntry.components,
      Component.Known])
    (by simp) (by simp [Table.encodedSize, tableEntriesSize, FieldValue.valueSize])
    (by simp [Table.encodedSize, tableEntriesSize, FieldValue.valueSize])
  refine overran.reports_iff.mp ⟨after, refused⟩ ?_
  simp [LackingKind, tableKindOctets, FieldValue.kindOctets]

end Tables

end RabbitmqC
