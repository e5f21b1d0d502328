import Mathlib.Tactic.Common
import Mathlib.Tactic.Ring

/-!
# Hexadecimal numbers in text

Numbers printed with lower-case hexadecimal digits and padded with zeros to a width, and
read back.
-/

set_option autoImplicit false

/-- A number in hexadecimal digits, filled with zeros up to a width. -/
def hexField (width value : Nat) : List Char :=
  let digits := Nat.toDigits 16 value
  List.replicate (width - digits.length) '0' ++ digits

/-- The value of a hexadecimal digit. -/
def hexValue (digit : Char) : Nat :=
  if digit.toNat < 'a'.toNat then digit.toNat - '0'.toNat else digit.toNat - 'a'.toNat + 10

def readHex (digits : List Char) : Nat :=
  digits.foldl (fun value digit => 16 * value + hexValue digit) 0

theorem hexValue_digitChar {value : Nat} (small : value < 16) :
    hexValue value.digitChar = value := by
  have all : ∀ value < 16, hexValue (Nat.digitChar value) = value := by decide
  exact all value small

theorem readHex_append_digit (digits : List Char) (digit : Char) :
    readHex (digits ++ [digit]) = 16 * readHex digits + hexValue digit := by
  simp [readHex]

theorem readHex_toDigits (value : Nat) : readHex (Nat.toDigits 16 value) = value := by
  induction value using Nat.strongRecOn with
  | ind value ih =>
      by_cases small : value < 16
      · rw [Nat.toDigits_of_lt_base small]
        exact (Nat.zero_add _).trans (hexValue_digitChar small)
      · have large : 16 ≤ value := Nat.le_of_not_lt small
        have smaller : value / 16 < value := Nat.div_lt_self (by omega) (by decide)
        rw [Nat.toDigits_of_base_le (by decide) large, readHex_append_digit, ih _ smaller,
          hexValue_digitChar (Nat.mod_lt _ (by decide))]
        exact Nat.div_add_mod value 16

/-- Leading zeros do not count. -/
theorem readHex_replicate_append (count : Nat) (digits : List Char) :
    readHex (List.replicate count '0' ++ digits) = readHex digits := by
  induction count with
  | zero => rfl
  | succ count ih => exact ih

theorem readHex_hexField (width value : Nat) : readHex (hexField width value) = value := by
  unfold hexField
  rw [readHex_replicate_append, readHex_toDigits]

theorem le_length_hexField (width value : Nat) : width ≤ (hexField width value).length := by
  simp only [hexField, List.length_append, List.length_replicate]
  omega

theorem length_hexField {width value : Nat} (positive : 0 < width) (small : value < 16 ^ width) :
    (hexField width value).length = width := by
  have fits := (Nat.length_toDigits_le_iff (by decide) positive).mpr small
  simp only [hexField, List.length_append, List.length_replicate]
  omega

theorem mem_toDigits {value : Nat} {digit : Char} (member : digit ∈ Nat.toDigits 16 value) :
    ∃ small < 16, digit = Nat.digitChar small := by
  induction value using Nat.strongRecOn with
  | ind value ih =>
      by_cases small : value < 16
      · rw [Nat.toDigits_of_lt_base small] at member
        exact ⟨value, small, List.mem_singleton.mp member⟩
      · have large : 16 ≤ value := Nat.le_of_not_lt small
        have smaller : value / 16 < value := Nat.div_lt_self (by omega) (by decide)
        rw [Nat.toDigits_of_base_le (by decide) large] at member
        cases List.mem_append.mp member with
        | inl earlier => exact ih _ smaller earlier
        | inr last => exact ⟨value % 16, Nat.mod_lt _ (by decide), List.mem_singleton.mp last⟩

/-- A number has no blanks. -/
theorem blank_not_mem_hexField (width value : Nat) : ' ' ∉ hexField width value := by
  intro member
  have digits : ∀ small < 16, ' ' ≠ Nat.digitChar small := by decide
  cases List.mem_append.mp member with
  | inl zero => exact absurd (List.eq_of_mem_replicate zero) (by decide)
  | inr digit =>
      obtain ⟨small, bounded, isDigit⟩ := mem_toDigits digit
      exact digits small bounded isDigit
