import RabbitmqC.Lib.CString
import RabbitmqC.Lib.MemoryFunctions
import RabbitmqC.Table.Basic

/-!
# The order of table entries

`amqp_table_entry_cmp` is made for `qsort`. It compares the octets that two keys have in
common places and then their lengths as `int`, which orders the keys as strings of octets.
-/

set_option autoImplicit false

namespace RabbitmqC

open Comparison

/-! ## Keys in memory -/

/-- An `amqp_bytes_t` whose octets lie inside a memory, where pointers are places. -/
structure BytesIn (memory : Buffer) extends View where
  inside : base + len ≤ memory.size

/-- `amqp_table_entry_t`. -/
structure TableEntryIn (memory : Buffer) where
  key : BytesIn memory
  value : FieldValue

/-- `a - b` in `int`. -/
def intSub? (a b : Int) : Option Int :=
  if -2 ^ 31 ≤ a - b ∧ a - b < 2 ^ 31 then some (a - b) else none

section Memory

variable {memory : Buffer}

def BytesIn.octets (bytes : BytesIn memory) : List UInt8 := memory.bytes.slice bytes.base bytes.len

/-- A read outside the memory and an overflow of the last subtraction are `none`. -/
def amqpTableEntryCmp (memcmp : Memcmp) (p1 p2 : TableEntryIn memory) : Option Int := do
  let minlen := if p2.key.len < p1.key.len then p2.key.len else p1.key.len
  let octets1 ← memory.read? p1.key.base minlen
  let octets2 ← memory.read? p2.key.base minlen
  let d := memcmp.answer octets1 octets2
  if d ≠ 0 then
    return d
  else
    intSub? (intOfSize p1.key.len) (intOfSize p2.key.len)

def amqpBytesEqual (memcmp : Memcmp) (r l : BytesIn memory) : Option Bool :=
  if r.len = l.len then
    if r.base = l.base then
      some true
    else do
      let right ← memory.read? r.base r.len
      let left ← memory.read? l.base r.len
      return memcmp.answer right left = 0
  else
    some false

/-! ## Comparing -/

variable {first second third : TableEntryIn memory}

@[simp] theorem BytesIn.length_octets (bytes : BytesIn memory) : bytes.octets.length = bytes.len :=
  List.length_slice bytes.inside

theorem BytesIn.read?_take (bytes : BytesIn memory) {count : Nat} (short : count ≤ bytes.len) :
    memory.read? bytes.base count = some (bytes.octets.take count) := by
  have inside := bytes.inside
  unfold Buffer.read? BytesIn.octets List.slice
  rw [if_pos (by omega), List.take_take, Nat.min_eq_left short]

theorem intSub?_of_lengths {left right : Nat} (leftShort : left < 2 ^ 31)
    (rightShort : right < 2 ^ 31) :
    intSub? (intOfSize left) (intOfSize right) = some ((left : Int) - right) := by
  rw [intOfSize_of_lt leftShort, intOfSize_of_lt rightShort, intSub?, if_pos (by omega)]

/-- The octets of the common places decide, or else the lengths. -/
theorem amqpTableEntryCmp_eq (memcmp : Memcmp) {minlen : Nat}
    (isMin : minlen = min first.key.len second.key.len) :
    amqpTableEntryCmp memcmp first second =
      if memcmp.answer (first.key.octets.take minlen) (second.key.octets.take minlen) ≠ 0 then
        some (memcmp.answer (first.key.octets.take minlen) (second.key.octets.take minlen))
      else intSub? (intOfSize first.key.len) (intOfSize second.key.len) := by
  have isMinlen :
      (if second.key.len < first.key.len then second.key.len else first.key.len) = minlen := by
    split
    · omega
    · omega
  unfold amqpTableEntryCmp
  simp only [isMinlen]
  rw [first.key.read?_take (by omega), second.key.read?_take (by omega)]
  rfl

/-- The comparison is defined, and its sign is the order of the keys as strings of octets. -/
theorem amqpTableEntryCmp_tells (memcmp : Memcmp) (firstShort : first.key.len < 2 ^ 31)
    (secondShort : second.key.len < 2 ^ 31) :
    ∃ answer, amqpTableEntryCmp memcmp first second = some answer ∧
      Tells answer first.key.octets second.key.octets := by
  obtain ⟨minlen, isMin⟩ : ∃ minlen, minlen = min first.key.len second.key.len := ⟨_, rfl⟩
  have order := compare_eq_take_then first.key.octets second.key.octets
  rw [BytesIn.length_octets, BytesIn.length_octets, ← isMin] at order
  have lengths : (first.key.octets.take minlen).length =
      (second.key.octets.take minlen).length := by
    rw [List.length_take, List.length_take, BytesIn.length_octets, BytesIn.length_octets]
    omega
  have tells := memcmp.tells lengths
  rw [amqpTableEntryCmp_eq memcmp isMin]
  by_cases agree :
      memcmp.answer (first.key.octets.take minlen) (second.key.octets.take minlen) = 0
  · refine ⟨_, (if_neg (not_not.mpr agree)).trans (intSub?_of_lengths firstShort secondShort), ?_⟩
    unfold Tells at tells ⊢
    rw [order, ← tells, agree]
    exact compare_natCast_sub _ _
  · have decided : compare (first.key.octets.take minlen) (second.key.octets.take minlen) ≠ .eq :=
      fun same => agree (tells.eq_zero_iff.mpr (Std.compare_eq_iff_eq.mp same))
    refine ⟨_, if_pos agree, ?_⟩
    unfold Tells
    rw [order, then_of_ne_eq decided]
    exact tells

theorem amqpBytesEqual_eq (memcmp : Memcmp) (r l : BytesIn memory) :
    amqpBytesEqual memcmp r l = some (decide (r.octets = l.octets)) := by
  unfold amqpBytesEqual
  by_cases lengths : r.len = l.len
  · rw [if_pos lengths]
    by_cases places : r.base = l.base
    · have same : r.octets = l.octets := by
        unfold BytesIn.octets
        rw [places, lengths]
      rw [if_pos places, decide_eq_true same]
    · have sameLength : r.octets.length = l.octets.length := by
        rw [BytesIn.length_octets, BytesIn.length_octets, lengths]
      have zero : decide (memcmp.answer r.octets l.octets = 0) = decide (r.octets = l.octets) :=
        decide_eq_decide.mpr (memcmp.answer_eq_zero_iff sameLength)
      have whole (bytes : BytesIn memory) : memory.read? bytes.base bytes.len = some bytes.octets :=
        if_pos bytes.inside
      rw [if_neg places, whole r, lengths, whole l]
      simp only [Option.bind_eq_bind, Option.bind_some, zero]
      rfl
  · have different : r.octets ≠ l.octets := by
      intro same
      apply lengths
      rw [← r.length_octets, ← l.length_octets, same]
    rw [if_neg lengths, decide_eq_false different]

/-- The comparison that `qsort` is given is defined, antisymmetric and transitive, calls keys of
the same octets equal, as `amqp_bytes_equal` does, and puts a proper prefix first. -/
theorem amqpTableEntryCmp_isPreorder (memcmp : Memcmp) (first second third : TableEntryIn memory)
    (firstShort : first.key.len < 2 ^ 31) (secondShort : second.key.len < 2 ^ 31)
    (thirdShort : third.key.len < 2 ^ 31) :
    ∃ forward backward onward across,
      amqpTableEntryCmp memcmp first second = some forward ∧
        amqpTableEntryCmp memcmp second first = some backward ∧
        amqpTableEntryCmp memcmp second third = some onward ∧
        amqpTableEntryCmp memcmp first third = some across ∧
        backward.sign = -forward.sign ∧
        (forward ≤ 0 → onward ≤ 0 → across ≤ 0) ∧
        (forward < 0 → onward < 0 → across < 0) ∧
        (forward = 0 ↔ first.key.octets = second.key.octets) ∧
        (forward = 0 ↔ amqpBytesEqual memcmp first.key second.key = some true) ∧
        (first.key.octets <+: second.key.octets → first.key.octets ≠ second.key.octets →
          forward < 0) := by
  obtain ⟨forward, isForward, there⟩ := amqpTableEntryCmp_tells memcmp firstShort secondShort
  obtain ⟨backward, isBackward, back⟩ := amqpTableEntryCmp_tells memcmp secondShort firstShort
  obtain ⟨onward, isOnward, next⟩ := amqpTableEntryCmp_tells memcmp secondShort thirdShort
  obtain ⟨across, isAcross, whole⟩ := amqpTableEntryCmp_tells memcmp firstShort thirdShort
  have equal : amqpBytesEqual memcmp first.key second.key = some true ↔
      first.key.octets = second.key.octets := by
    rw [amqpBytesEqual_eq, Option.some.injEq, decide_eq_true_iff]
  refine ⟨forward, backward, onward, across, isForward, isBackward, isOnward, isAcross,
    there.sign_swap back, there.nonpos_trans next whole, there.neg_trans next whole,
    there.eq_zero_iff, there.eq_zero_iff.trans equal.symm, ?_⟩
  intro isPrefix proper
  exact there.neg_iff.mpr (compare_extended isPrefix proper)

end Memory

/-- Three keys in a row. -/
def keysInRow : Buffer := ⟨CString.ascii "betabetasalpha", by decide +kernel⟩

def betaEntry : TableEntryIn keysInRow := ⟨⟨⟨0, 4⟩, by decide +kernel⟩, .void⟩
def betasEntry : TableEntryIn keysInRow := ⟨⟨⟨4, 5⟩, by decide +kernel⟩, .void⟩
def alphaEntry : TableEntryIn keysInRow := ⟨⟨⟨9, 5⟩, by decide +kernel⟩, .void⟩

theorem amqpTableEntryCmp_isPreorder_row :
    ∃ forward backward onward across,
      amqpTableEntryCmp .subtracting betaEntry betasEntry = some forward ∧
        amqpTableEntryCmp .subtracting betasEntry betaEntry = some backward ∧
        amqpTableEntryCmp .subtracting betasEntry alphaEntry = some onward ∧
        amqpTableEntryCmp .subtracting betaEntry alphaEntry = some across ∧
        backward.sign = -forward.sign ∧
        (forward ≤ 0 → onward ≤ 0 → across ≤ 0) ∧
        (forward < 0 → onward < 0 → across < 0) ∧
        (forward = 0 ↔ betaEntry.key.octets = betasEntry.key.octets) ∧
        (forward = 0 ↔ amqpBytesEqual .subtracting betaEntry.key betasEntry.key = some true) ∧
        (betaEntry.key.octets <+: betasEntry.key.octets →
          betaEntry.key.octets ≠ betasEntry.key.octets → forward < 0) :=
  amqpTableEntryCmp_isPreorder .subtracting betaEntry betasEntry alphaEntry (by decide)
    (by decide) (by decide)

/-! ## Sorting

`qsort` leaves the entries in an order that the comparison agrees with. -/

section Sorting

variable {memory : Buffer} {memcmp otherMemcmp : Memcmp}
  {entries sorted other : List (TableEntryIn memory)}

/-- An arrangement of entries none of which compares greater than a later one. -/
structure Sorted (memcmp : Memcmp) (entries sorted : List (TableEntryIn memory)) : Prop where
  perm : sorted.Perm entries
  ordered : sorted.Pairwise fun left right =>
    ∃ answer, amqpTableEntryCmp memcmp left right = some answer ∧ answer ≤ 0

/-- The keys stand in the order of strings of octets. -/
def inKeyOrder (left right : TableEntryIn memory) : Bool :=
  (compare left.key.octets right.key.octets).isLE

theorem nonpos_iff_inKeyOrder {left right : TableEntryIn memory} (leftShort : left.key.len < 2 ^ 31)
    (rightShort : right.key.len < 2 ^ 31) :
    (∃ answer, amqpTableEntryCmp memcmp left right = some answer ∧ answer ≤ 0) ↔
      inKeyOrder left right = true := by
  obtain ⟨answer, isAnswer, tells⟩ := amqpTableEntryCmp_tells memcmp leftShort rightShort
  constructor
  · intro ⟨given, isGiven, nonpos⟩
    rw [isAnswer] at isGiven
    cases isGiven
    exact tells.nonpos_iff.mp nonpos
  · intro before
    exact ⟨answer, isAnswer, tells.nonpos_iff.mpr before⟩

theorem exists_sorted (memcmp : Memcmp) (short : ∀ entry ∈ entries, entry.key.len < 2 ^ 31) :
    ∃ sorted, Sorted memcmp entries sorted := by
  have perm := List.mergeSort_perm entries inKeyOrder
  have ordered : (entries.mergeSort inKeyOrder).Pairwise fun left right =>
      inKeyOrder left right = true :=
    List.pairwise_mergeSort (fun _ _ _ => Std.TransCmp.isLE_trans) (fun _ _ => isLE_total _ _)
      entries
  refine ⟨entries.mergeSort inKeyOrder, perm, ordered.imp_of_mem ?_⟩
  intro left right isLeft isRight isBefore
  exact (nonpos_iff_inKeyOrder (short left (perm.mem_iff.mp isLeft))
    (short right (perm.mem_iff.mp isRight))).mpr isBefore

theorem Sorted.keys_ordered (sorts : Sorted memcmp entries sorted)
    (short : ∀ entry ∈ entries, entry.key.len < 2 ^ 31) :
    (sorted.map (·.key.octets)).Pairwise fun left right => (compare left right).isLE = true := by
  rw [List.pairwise_map]
  apply sorts.ordered.imp_of_mem
  intro left right isLeft isRight nonpos
  exact (nonpos_iff_inKeyOrder (short left (sorts.perm.mem_iff.mp isLeft))
    (short right (sorts.perm.mem_iff.mp isRight))).mp nonpos

/-- Neither `qsort` nor `memcmp` has a choice about the order of the keys. -/
theorem Sorted.keys_eq (one : Sorted memcmp entries sorted)
    (another : Sorted otherMemcmp entries other)
    (short : ∀ entry ∈ entries, entry.key.len < 2 ^ 31) :
    sorted.map (·.key.octets) = other.map (·.key.octets) := by
  apply List.Perm.eq_of_pairwise (fun _ _ _ _ => eq_of_isLE) (one.keys_ordered short)
    (another.keys_ordered short)
  exact (one.perm.trans another.perm.symm).map _

end Sorting

end RabbitmqC
