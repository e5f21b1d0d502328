import Mathlib.Data.List.Basic
import Mathlib.Data.List.TakeWhile
import Mathlib.Tactic.Common
import Mathlib.Tactic.Linarith
import Mathlib.Tactic.Ring

/-!
# Strings in memory

A string is the octets in front of the first zero. Next to it stand `strtol` for
decimal numbers and the conversion `%2x` of `sscanf`, in the "C" locale and with a
`long` of 64 bits.
-/

set_option autoImplicit false

namespace CString

def ascii (text : String) : List UInt8 := text.toList.map fun ch => UInt8.ofNat ch.toNat

/-- The string that a pointer to `offset` points to. -/
def read (memory : List UInt8) (offset : Nat) : List UInt8 :=
  (memory.drop offset).takeWhile (· ≠ 0)

theorem length_takeWhile_le {α : Type} {keep : α → Bool} {values : List α} {place : Nat} {value : α}
    (found : values[place]? = some value) (dropped : keep value = false) :
    (values.takeWhile keep).length ≤ place := by
  induction values generalizing place with
  | nil => simp
  | cons head values ih =>
      cases place with
      | zero =>
          cases found
          rw [List.takeWhile_cons_of_neg (by simp [dropped])]
          exact Nat.le_refl 0
      | succ place =>
          by_cases kept : keep head = true
          · rw [List.takeWhile_cons_of_pos kept]
            exact Nat.succ_le_succ (ih found)
          · rw [List.takeWhile_cons_of_neg kept]
            exact Nat.zero_le _

/-- A string in front of a zero ends there at the latest. -/
theorem read_le {memory : List UInt8} {offset place : Nat} (isZero : memory[place]? = some 0)
    (inFront : offset ≤ place) : offset + (read memory offset).length ≤ place := by
  have found : (memory.drop offset)[place - offset]? = some 0 := by
    rw [List.getElem?_drop, Nat.add_sub_cancel' inFront, isZero]
  have short : (read memory offset).length ≤ place - offset :=
    length_takeWhile_le found (by simp)
  omega


/-- `text` stands at `offset` with a zero behind it. -/
def Stands (memory : List UInt8) (offset : Nat) (text : List UInt8) : Prop :=
  ∃ before behind, memory = before ++ text ++ 0 :: behind ∧ before.length = offset

section Stands

variable {memory text : List UInt8} {offset : Nat}

theorem Stands.append (stands : Stands memory offset text) (more : List UInt8) :
    Stands (memory ++ more) offset text := by
  obtain ⟨before, behind, rfl, isOffset⟩ := stands
  exact ⟨before, behind ++ more, by simp, isOffset⟩

theorem Stands.read (stands : Stands memory offset text) (noZero : 0 ∉ text) :
    read memory offset = text := by
  obtain ⟨before, behind, rfl, rfl⟩ := stands
  have dropped : (before ++ text ++ 0 :: behind).drop before.length = text ++ 0 :: behind := by
    rw [List.append_assoc, List.drop_left]
  have nonzero : ∀ octet ∈ text, decide (octet ≠ 0) = true := by
    intro octet member
    rw [decide_eq_true_eq]
    rintro rfl
    exact noZero member
  unfold CString.read
  rw [dropped, List.takeWhile_append_of_pos nonzero]
  simp

/-- The octet behind the first `count` ones of a string. -/
theorem Stands.getElem? (stands : Stands memory offset text) {count : Nat}
    (inside : count ≤ text.length) :
    memory[offset + count]? = some ((text ++ [0]).getD count 0) := by
  obtain ⟨before, behind, rfl, rfl⟩ := stands
  have regrouped : before ++ text ++ 0 :: behind = before ++ ((text ++ [0]) ++ behind) := by simp
  have short : count < (text ++ [0]).length := by
    rw [List.length_append, List.length_singleton]
    exact Nat.lt_succ_of_le inside
  rw [regrouped, List.getElem?_append_right (Nat.le_add_right _ _), Nat.add_sub_cancel_left,
    List.getElem?_append_left short, List.getD_eq_getElem?_getD, List.getElem?_eq_getElem short]
  rfl

end Stands

/-! ## Numbers -/

/-- A property of octets can be tried on all of them. -/
theorem forall_octet {property : UInt8 → Prop} (holds : ∀ index, property (UInt8.ofFin index))
    (ch : UInt8) : property ch := holds ch.toFin

/-- `isspace`. -/
def isSpace (ch : UInt8) : Bool := ch == 32 || (9 ≤ ch && ch ≤ 13)

def isDigit (ch : UInt8) : Bool := 48 ≤ ch && ch ≤ 57

/-- The number that decimal digits denote. -/
def decimal (digits : List UInt8) : Nat :=
  digits.foldl (fun value ch => 10 * value + (ch.toNat - 48)) 0

/-- A sign in front of a number: whether it is a minus, and what is behind it. -/
def splitSign : List UInt8 → Bool × List UInt8
  | 45 :: rest => (true, rest)
  | 43 :: rest => (false, rest)
  | rest => (false, rest)

/-- `strtol(text, &end, 10)`, with the distance of `end` from the beginning. -/
def strtol (text : List UInt8) : Int × Nat :=
  let behindSpaces := text.dropWhile isSpace
  let (minus, behindSign) := splitSign behindSpaces
  let digits := behindSign.takeWhile isDigit
  if digits = [] then (0, 0)
  else
    (if minus then max (-(decimal digits : Int)) (-2 ^ 63)
      else min (decimal digits : Int) (2 ^ 63 - 1),
      text.length - (behindSign.length - digits.length))

theorem strtol_le (text : List UInt8) : (strtol text).2 ≤ text.length := by
  unfold strtol
  dsimp only
  generalize splitSign (text.dropWhile isSpace) = split
  obtain ⟨minus, behindSign⟩ := split
  dsimp only
  split
  · exact Nat.zero_le _
  · exact Nat.sub_le _ _

def hexValue? (ch : UInt8) : Option Nat :=
  if 48 ≤ ch ∧ ch ≤ 57 then some (ch.toNat - 48)
  else if 65 ≤ ch ∧ ch ≤ 70 then some (ch.toNat - 55)
  else if 97 ≤ ch ∧ ch ≤ 102 then some (ch.toNat - 87)
  else none

/-- `sscanf(text, "%2x%n", &val, &chars)`: `val` and `chars`, unless nothing was
converted. Spaces in front do not count for the width, and a `0x` that fills it is no
number. -/
def scanHex2 (text : List UInt8) : Option (Nat × Nat) :=
  let spaces := (text.takeWhile isSpace).length
  match text.dropWhile isSpace with
  | [] => none
  | first :: rest =>
      if first = 43 ∨ first = 45 then
        match rest.head?.bind hexValue? with
        | some digit =>
            some (if first = 45 then (2 ^ 32 - digit) % 2 ^ 32 else digit, spaces + 2)
        | none => none
      else
        match hexValue? first with
        | none => none
        | some high =>
            if first = 48 ∧ (rest.head? = some 120 ∨ rest.head? = some 88) then none
            else
              match rest.head?.bind hexValue? with
              | some low => some (16 * high + low, spaces + 2)
              | none => some (high, spaces + 1)

/-- No more is read than there is. -/
theorem scanHex2_le {text : List UInt8} {val chars : Nat}
    (scanned : scanHex2 text = some (val, chars)) : chars ≤ text.length := by
  have lengths : (text.takeWhile isSpace).length + (text.dropWhile isSpace).length =
      text.length := by
    rw [← List.length_append, List.takeWhile_append_dropWhile]
  have two {rest : List UInt8} {digit : Nat} (found : rest.head?.bind hexValue? = some digit) :
      1 ≤ rest.length := by
    cases rest with
    | nil => cases found
    | cons _ _ => simp
  unfold scanHex2 at scanned
  cases behind : text.dropWhile isSpace with
  | nil =>
      rw [behind] at scanned
      cases scanned
  | cons first rest =>
      rw [behind] at scanned lengths
      rw [List.length_cons] at lengths
      dsimp only at scanned
      split at scanned
      · cases found : rest.head?.bind hexValue? with
        | none =>
            rw [found] at scanned
            cases scanned
        | some digit =>
            rw [found] at scanned
            have atLeast := two found
            cases scanned
            omega
      · cases isHigh : hexValue? first with
        | none =>
            rw [isHigh] at scanned
            cases scanned
        | some high =>
            rw [isHigh] at scanned
            dsimp only at scanned
            split at scanned
            · cases scanned
            · cases found : rest.head?.bind hexValue? with
              | none =>
                  rw [found] at scanned
                  cases scanned
                  omega
              | some low =>
                  rw [found] at scanned
                  have atLeast := two found
                  cases scanned
                  omega

/-- Two hexadecimal digits are read as they stand. -/
theorem scanHex2_of_digits {first second : UInt8} {high low : Nat} {rest : List UInt8}
    (isHigh : hexValue? first = some high) (isLow : hexValue? second = some low) :
    scanHex2 (first :: second :: rest) = some (16 * high + low, 2) := by
  have cases : ∀ digit : UInt8, (hexValue? digit).isSome = true →
      isSpace digit = false ∧ digit ≠ 43 ∧ digit ≠ 45 ∧ digit ≠ 120 ∧ digit ≠ 88 := by
    apply forall_octet
    decide +kernel
  obtain ⟨notSpace, notPlus, notMinus, _, _⟩ := cases first (by rw [isHigh]; rfl)
  obtain ⟨_, _, _, notSmall, notLarge⟩ := cases second (by rw [isLow]; rfl)
  unfold scanHex2
  rw [List.dropWhile_cons_of_neg (by simp [notSpace]),
    List.takeWhile_cons_of_neg (by simp [notSpace])]
  simp [notPlus, notMinus, notSmall, notLarge, isHigh, isLow]

/-- Spaces, a sign and digits: what `strtol` reads to the end. -/
structure Numeral where
  spaces : List UInt8
  sign : List UInt8
  digits : List UInt8
  isSpaces : ∀ ch ∈ spaces, isSpace ch = true
  isSign : sign = [] ∨ sign = [43] ∨ sign = [45]
  isDigits : ∀ ch ∈ digits, isDigit ch = true
  nonempty : digits ≠ []

def Numeral.text (numeral : Numeral) : List UInt8 :=
  numeral.spaces ++ numeral.sign ++ numeral.digits

def Numeral.value (numeral : Numeral) : Int :=
  if numeral.sign = [45] then max (-(decimal numeral.digits : Int)) (-2 ^ 63)
  else min (decimal numeral.digits : Int) (2 ^ 63 - 1)

theorem isSpace_of_isDigit : ∀ ch, isDigit ch = true →
    isSpace ch = false ∧ ch ≠ 43 ∧ ch ≠ 45 := by
  apply forall_octet
  decide +kernel

theorem splitSign_of_isDigit {digits : List UInt8} (isDigits : ∀ ch ∈ digits, isDigit ch = true) :
    splitSign digits = (false, digits) := by
  cases digits with
  | nil => rfl
  | cons first rest =>
      obtain ⟨_, notPlus, notMinus⟩ := isSpace_of_isDigit first (isDigits first List.mem_cons_self)
      unfold splitSign
      split
      · rename_i same
        injection same with isFirst _
        exact absurd isFirst notMinus
      · rename_i same
        injection same with isFirst _
        exact absurd isFirst notPlus
      · rfl

theorem Numeral.dropWhile_text (numeral : Numeral) :
    numeral.text.dropWhile isSpace = numeral.sign ++ numeral.digits := by
  unfold Numeral.text
  rw [List.append_assoc, List.dropWhile_append_of_pos numeral.isSpaces]
  obtain ⟨first, rest, isDigits⟩ := List.exists_cons_of_ne_nil numeral.nonempty
  have notSpace : isSpace first = false :=
    (isSpace_of_isDigit first (numeral.isDigits first (by simp [isDigits]))).1
  rcases numeral.isSign with isSign | isSign | isSign <;> rw [isSign, isDigits]
  · exact List.dropWhile_cons_of_neg (by simp [notSpace])
  · rfl
  · rfl

/-- A number is read to its end. -/
theorem strtol_text (numeral : Numeral) :
    strtol numeral.text = (numeral.value, numeral.text.length) := by
  have allDigits : numeral.digits.takeWhile isDigit = numeral.digits := by
    rw [List.takeWhile_eq_self_iff]
    exact numeral.isDigits
  have split : splitSign (numeral.sign ++ numeral.digits) =
      (decide (numeral.sign = [45]), numeral.digits) := by
    rcases numeral.isSign with isSign | isSign | isSign <;> rw [isSign]
    · rw [List.nil_append, splitSign_of_isDigit numeral.isDigits]
      rfl
    · rfl
    · rfl
  unfold strtol
  rw [numeral.dropWhile_text]
  dsimp only
  rw [split]
  dsimp only
  rw [allDigits, if_neg numeral.nonempty, Nat.sub_self, Nat.sub_zero]
  unfold Numeral.value
  simp only [decide_eq_true_eq]

/-- Whatever is read to its end is a number. -/
theorem numeral_of_strtol {text : List UInt8} (read : (strtol text).2 = text.length)
    (nonempty : text ≠ []) : ∃ numeral : Numeral, numeral.text = text := by
  unfold strtol at read
  have pieces : text.takeWhile isSpace ++ text.dropWhile isSpace = text :=
    List.takeWhile_append_dropWhile
  have signed : ∃ sign, (sign = [] ∨ sign = [43] ∨ sign = [45]) ∧
      sign ++ (splitSign (text.dropWhile isSpace)).2 = text.dropWhile isSpace := by
    unfold splitSign
    split
    · rename_i same
      exact ⟨[45], by simp, same.symm⟩
    · rename_i same
      exact ⟨[43], by simp, same.symm⟩
    · exact ⟨[], by simp, rfl⟩
  obtain ⟨sign, isSign, whole⟩ := signed
  dsimp only at read
  generalize splitSign (text.dropWhile isSpace) = split at read whole
  obtain ⟨minus, behindSign⟩ := split
  dsimp only at read whole
  have some : behindSign.takeWhile isDigit ≠ [] := by
    intro empty
    rw [if_pos empty] at read
    exact nonempty (List.length_eq_zero_iff.mp read.symm)
  rw [if_neg some] at read
  have short : (behindSign.takeWhile isDigit).length = behindSign.length := by
    have atMost := (@List.takeWhile_prefix _ behindSign isDigit).length_le
    have positive := List.length_pos_iff.mpr nonempty
    omega
  have digits : behindSign.takeWhile isDigit = behindSign :=
    (List.takeWhile_prefix isDigit).eq_of_length short
  refine ⟨⟨text.takeWhile isSpace, sign, behindSign, ?_, isSign, ?_, digits ▸ some⟩, ?_⟩
  · intro ch member
    exact List.mem_takeWhile_imp member
  · intro ch member
    rw [← digits] at member
    exact List.mem_takeWhile_imp member
  · unfold Numeral.text
    rw [List.append_assoc, whole, pieces]

end CString
