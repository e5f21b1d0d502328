import RabbitmqC.Lib.Bytes

/-!
# Comparing and searching memory

A C comparison function answers with the sign of an `int`. Comparing two strings up
to the end of the shorter one and then their lengths is their lexicographic order.
`memcmp` and `memchr` as the C standard describes them.
-/

set_option autoImplicit false

/-! ## Tells by sign -/

namespace Comparison

section Signs

variable {α : Type} [Ord α] {first second third : α} {forward backward onward across : Int}

/-- The sign of a number is how two values compare. -/
def Tells (number : Int) (left right : α) : Prop := compare number 0 = compare left right

theorem Tells.neg_iff (tells : Tells forward first second) :
    forward < 0 ↔ compare first second = .lt := by
  rw [← tells]
  exact Int.compare_eq_lt.symm

theorem Tells.nonpos_iff (tells : Tells forward first second) :
    forward ≤ 0 ↔ (compare first second).isLE = true := by
  rw [← tells]
  exact Int.isLE_compare.symm

theorem Tells.eq_zero_iff [Std.LawfulEqOrd α] (tells : Tells forward first second) :
    forward = 0 ↔ first = second := by
  rw [← Std.compare_eq_iff_eq (a := first), ← tells]
  exact Int.compare_eq_eq.symm

theorem Tells.sign_swap [Std.OrientedOrd α] (there : Tells forward first second)
    (back : Tells backward second first) : backward.sign = -forward.sign := by
  have swapped : compare backward 0 = compare 0 forward := by
    rw [Std.OrientedOrd.eq_swap (a := (0 : Int)), there, ← Std.OrientedOrd.eq_swap]
    exact back
  rcases Int.lt_trichotomy forward 0 with less | same | greater
  · have positive : 0 < backward := by
      rw [Int.compare_eq_gt.mpr less] at swapped
      exact Int.compare_eq_gt.mp swapped
    rw [Int.sign_eq_one_of_pos positive, Int.sign_eq_neg_one_of_neg less]
    rfl
  · rw [same, Int.compare_eq_eq.mpr rfl] at swapped
    rw [same, Int.compare_eq_eq.mp swapped]
    rfl
  · have negative : backward < 0 := by
      rw [Int.compare_eq_lt.mpr greater] at swapped
      exact Int.compare_eq_lt.mp swapped
    rw [Int.sign_eq_neg_one_of_neg negative, Int.sign_eq_one_of_pos greater]

theorem Tells.nonpos_trans [Std.TransOrd α] (there : Tells forward first second)
    (next : Tells onward second third) (whole : Tells across first third)
    (left : forward ≤ 0) (right : onward ≤ 0) : across ≤ 0 := by
  rw [there.nonpos_iff] at left
  rw [next.nonpos_iff] at right
  rw [whole.nonpos_iff]
  exact Std.TransCmp.isLE_trans left right

theorem Tells.neg_trans [Std.TransOrd α] (there : Tells forward first second)
    (next : Tells onward second third) (whole : Tells across first third)
    (left : forward < 0) (right : onward < 0) : across < 0 := by
  rw [there.neg_iff] at left
  rw [next.neg_iff] at right
  rw [whole.neg_iff]
  exact Std.TransCmp.lt_trans left right

theorem isLE_total [Std.OrientedOrd α] (left right : α) :
    ((compare left right).isLE || (compare right left).isLE) = true := by
  rw [Std.OrientedOrd.eq_swap (a := right)]
  cases compare left right with
  | lt => rfl
  | eq => rfl
  | gt => rfl

theorem eq_of_isLE [Std.OrientedOrd α] [Std.LawfulEqOrd α]
    (there : (compare first second).isLE = true) (back : (compare second first).isLE = true) :
    first = second := by
  rw [Std.OrientedOrd.eq_swap (a := second)] at back
  cases order : compare first second with
  | lt =>
      rw [order] at back
      cases back
  | eq => exact Std.compare_eq_iff_eq.mp order
  | gt =>
      rw [order] at there
      cases there

end Signs

theorem compare_zero_of_sign {number other : Int} (same : number.sign = other.sign) :
    compare number 0 = compare other 0 := by
  have signed (value : Int) : compare value 0 = compare value.sign 0 := by
    rcases Int.lt_trichotomy value 0 with less | rfl | greater
    · rw [Int.sign_eq_neg_one_of_neg less, Int.compare_eq_lt.mpr less]
      rfl
    · rfl
    · rw [Int.sign_eq_one_of_pos greater, Int.compare_eq_gt.mpr greater]
      rfl
  rw [signed number, signed other, same]

theorem compare_natCast_sub (left right : Nat) :
    compare ((left : Int) - right) 0 = compare left right := by
  rcases Nat.lt_trichotomy left right with less | rfl | greater
  · rw [Nat.compare_eq_lt.mpr less]
    exact Int.compare_eq_lt.mpr (by omega)
  · rw [Int.sub_self, Std.ReflOrd.compare_self, Std.ReflOrd.compare_self]
  · rw [Nat.compare_eq_gt.mpr greater]
    exact Int.compare_eq_gt.mpr (by omega)

theorem compare_toNat (head other : UInt8) : compare head.toNat other.toNat = compare head other := by
  cases order : compare head other with
  | lt => exact Nat.compare_eq_lt.mpr (UInt8.lt_iff_toNat_lt.mp (Std.compare_eq_lt.mp order))
  | eq => rw [Std.compare_eq_iff_eq.mp order, Std.ReflOrd.compare_self]
  | gt => exact Nat.compare_eq_gt.mpr (UInt8.lt_iff_toNat_lt.mp (Std.compare_eq_gt.mp order))

theorem then_of_ne_eq {order next : Ordering} (decided : order ≠ .eq) : order.then next = order := by
  cases order with
  | lt => rfl
  | eq => exact absurd rfl decided
  | gt => rfl

/-! ## Strings -/

section Strings

variable {α : Type}

section Order

variable [Ord α] {left right : List α}

/-- Up to the end of the shorter one, and then by length. -/
theorem compare_eq_take_then (left right : List α) :
    compare left right =
      (compare (left.take (min left.length right.length))
        (right.take (min left.length right.length))).then
          (compare left.length right.length) := by
  induction left generalizing right with
  | nil =>
      cases right with
      | nil => rfl
      | cons head tail =>
          rw [List.compare_nil_cons, List.length_nil, List.length_cons, Nat.zero_min,
            List.take_zero, List.take_zero, List.compare_nil_nil, Nat.compare_eq_lt.mpr (by omega)]
          rfl
  | cons head tail ih =>
      cases right with
      | nil =>
          rw [List.compare_cons_nil, List.length_nil, List.length_cons, Nat.min_zero,
            List.take_zero, List.take_zero, List.compare_nil_nil, Nat.compare_eq_gt.mpr (by omega)]
          rfl
      | cons other rest =>
          have lengths : compare (tail.length + 1) (rest.length + 1) =
              compare tail.length rest.length := by
            simp only [Nat.compare_eq_ite_lt, Nat.add_lt_add_iff_right]
          rw [List.compare_cons_cons, ih, List.length_cons, List.length_cons,
            Nat.add_min_add_right, List.take_succ_cons, List.take_succ_cons,
            List.compare_cons_cons, lengths, Ordering.then_assoc]

theorem compare_append [Std.ReflOrd α] (common left right : List α) :
    compare (common ++ left) (common ++ right) = compare left right := by
  induction common with
  | nil => rfl
  | cons head common ih =>
      rw [List.cons_append, List.cons_append, List.compare_cons_cons, Std.ReflOrd.compare_self, ih]
      rfl

theorem compare_extended [Std.ReflOrd α] (isPrefix : left <+: right) (proper : left ≠ right) :
    compare left right = .lt := by
  obtain ⟨rest, rfl⟩ := isPrefix
  cases rest with
  | nil => exact absurd (List.append_nil left).symm proper
  | cons head rest =>
      have same := compare_append left [] (head :: rest)
      rw [List.append_nil] at same
      rw [same]
      exact List.compare_nil_cons

end Order

/-- Strings of one length are the same, or differ at some place for the first time. -/
theorem exists_first_difference {left right : List α} (sameLength : left.length = right.length) :
    left = right ∨ ∃ common head other tail rest,
      head ≠ other ∧ List.length tail = List.length rest ∧
        left = common ++ head :: tail ∧ right = common ++ other :: rest := by
  induction left generalizing right with
  | nil => exact .inl (List.length_eq_zero_iff.mp sameLength.symm).symm
  | cons head tail ih =>
      cases right with
      | nil => cases sameLength
      | cons other rest =>
          have shorter : tail.length = rest.length := Nat.succ.inj sameLength
          by_cases agree : head = other
          · subst agree
            rcases ih shorter with same | ⟨common, differ⟩
            · exact .inl (congrArg (head :: ·) same)
            · obtain ⟨left, right, lefts, rights, apart, lengths, rfl, rfl⟩ := differ
              exact .inr ⟨head :: common, left, right, lefts, rights, apart, lengths, rfl, rfl⟩
          · exact .inr ⟨[], head, other, tail, rest, agree, shorter, rfl, rfl⟩

end Strings

end Comparison

/-! ## `memcmp` -/

/-- `memcmp` on the octets it is given. The first pair of octets that differ decides the
sign of its answer, and nothing else about the answer is known. -/
structure Memcmp where
  answer : List UInt8 → List UInt8 → Int
  answer_self (octets : List UInt8) : answer octets octets = 0
  sign_answer {head other : UInt8} (apart : head ≠ other) (common tail rest : List UInt8)
    (sameLength : tail.length = rest.length) :
    (answer (common ++ head :: tail) (common ++ other :: rest)).sign =
      ((head.toNat : Int) - other.toNat).sign

namespace Memcmp

open Comparison

theorem tells (memcmp : Memcmp) {left right : List UInt8}
    (sameLength : left.length = right.length) : Tells (memcmp.answer left right) left right := by
  rcases exists_first_difference sameLength with rfl | ⟨common, head, other, tail, rest, differ⟩
  · unfold Tells
    rw [memcmp.answer_self, Std.ReflOrd.compare_self, Std.ReflOrd.compare_self]
  · obtain ⟨apart, lengths, rfl, rfl⟩ := differ
    have sign := memcmp.sign_answer apart common tail rest lengths
    have decided : compare head other ≠ .eq := fun same => apart (Std.compare_eq_iff_eq.mp same)
    unfold Tells
    rw [compare_append, List.compare_cons_cons, then_of_ne_eq decided, compare_zero_of_sign sign,
      compare_natCast_sub, compare_toNat]

theorem answer_eq_zero_iff (memcmp : Memcmp) {left right : List UInt8}
    (sameLength : left.length = right.length) : memcmp.answer left right = 0 ↔ left = right :=
  (memcmp.tells sameLength).eq_zero_iff

/-- The usual answer is the difference of the first two octets that differ. -/
def difference : List UInt8 → List UInt8 → Int
  | head :: tail, other :: rest =>
      if head = other then difference tail rest else (head.toNat : Int) - other.toNat
  | _, _ => 0

def subtracting : Memcmp where
  answer := difference
  answer_self octets := by
    induction octets with
    | nil => rfl
    | cons head tail ih => simpa only [difference, if_pos] using ih
  sign_answer apart common tail rest _ := by
    induction common with
    | nil => rw [List.nil_append, List.nil_append, difference, if_neg apart]
    | cons head common ih => simpa only [List.cons_append, difference, if_pos] using ih

end Memcmp

/-! ## `memchr` -/

namespace Buffer

/-- `memchr`, which reads no further than it has to. The outer `none` is a read outside the
object, the inner one a null pointer. -/
def memchr (buffer : Buffer) (octet : UInt8) : Nat → Nat → Option (Option Nat)
  | _, 0 => some none
  | place, count + 1 => do
      let read ← buffer.read? place 1
      if read = [octet] then
        return some place
      else
        buffer.memchr octet (place + 1) count

variable {buffer : Buffer} {octet : UInt8} {place count : Nat}

theorem read?_one (inside : place + (count + 1) ≤ buffer.size) :
    ∃ head, buffer.read? place 1 = some [head] ∧
      buffer.bytes.slice place (count + 1) = head :: buffer.bytes.slice (place + 1) count := by
  obtain ⟨read, isRead⟩ := @read?_isSome buffer place 1 (by omega)
  obtain ⟨single, _, stored⟩ := read?_eq_some_iff.mp isRead
  obtain ⟨head, rfl⟩ := List.length_eq_one_iff.mp single
  refine ⟨head, isRead, ?_⟩
  rw [Nat.add_comm count 1, List.slice_add]
  exact congrArg (· ++ buffer.bytes.slice (place + 1) count) stored

theorem memchr_of_inside (inside : place + count ≤ buffer.size) :
    buffer.memchr octet place count =
      some (if octet ∈ buffer.bytes.slice place count then
        some (place + ((buffer.bytes.slice place count).takeWhile (· ≠ octet)).length)
      else none) := by
  induction count generalizing place with
  | zero => simp [memchr]
  | succ count ih =>
      obtain ⟨head, isRead, cut⟩ := read?_one inside
      have rest := @ih (place + 1) (by omega)
      by_cases found : head = octet
      · simp [memchr, isRead, cut, found]
      · have different : octet ≠ head := fun same => found same.symm
        rw [memchr, isRead, cut]
        simp [found, different, rest, Nat.add_assoc, Nat.add_comm]

end Buffer
