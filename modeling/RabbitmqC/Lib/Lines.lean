import Mathlib.Data.List.Basic

/-!
# Lines of bounded length

A stream is cut behind every symbol that ends a line, and wherever the room for a line
is used up. `next` takes one line off a stream, and `cut` is all of them.
-/

set_option autoImplicit false

namespace Lines

variable {α : Type} (isEnd : α → Bool)

/-- The next line with room for some symbols, and what is behind it unless the stream is over
before the line is. -/
def next : Nat → List α → List α × Option (List α)
  | 0, stream => ([], some stream)
  | _ + 1, [] => ([], none)
  | room + 1, symbol :: stream =>
      if isEnd symbol then
        ([symbol], some stream)
      else
        (symbol :: (next room stream).1, (next room stream).2)

/-- The lines of a stream behind the beginning of a line, and the symbols behind the last
line. -/
def cut (room : Nat) (begun : List α) : List α → List (List α) × List α
  | [] => ([], begun)
  | symbol :: stream =>
      if isEnd symbol ∨ begun.length + 1 = room then
        ((begun ++ [symbol]) :: (cut room [] stream).1, (cut room [] stream).2)
      else
        cut room (begun ++ [symbol]) stream

/-- Symbols of which none but the last can end a line, that fit the room for one. -/
structure Within (room : Nat) (line : List α) : Prop where
  length_le : line.length ≤ room
  inner : ∀ symbol ∈ line.dropLast, isEnd symbol = false

/-- A line that ends where it should. -/
structure Complete (room : Nat) (line : List α) : Prop extends Within isEnd room line where
  ends : line.length = room ∨ ∃ symbol, line.getLast? = some symbol ∧ isEnd symbol = true

section Cutting

variable {isEnd} {room : Nat} {begun stream : List α} {symbol : α}

theorem cut_of_end (ends : isEnd symbol = true ∨ begun.length + 1 = room) :
    cut isEnd room begun (symbol :: stream) =
      ((begun ++ [symbol]) :: (cut isEnd room [] stream).1, (cut isEnd room [] stream).2) :=
  if_pos ends

theorem cut_of_inner (inner : ¬ (isEnd symbol = true ∨ begun.length + 1 = room)) :
    cut isEnd room begun (symbol :: stream) = cut isEnd room (begun ++ [symbol]) stream :=
  if_neg inner

/-- No symbol is lost or moved. -/
theorem flatten_cut (room : Nat) (begun stream : List α) :
    (cut isEnd room begun stream).1.flatten ++ (cut isEnd room begun stream).2 =
      begun ++ stream := by
  induction stream generalizing begun with
  | nil => simp [cut]
  | cons symbol stream ih =>
      by_cases ends : isEnd symbol = true ∨ begun.length + 1 = room
      · rw [cut_of_end ends]
        simpa using ih []
      · rw [cut_of_inner ends]
        simpa using ih (begun ++ [symbol])

theorem within_append (short : begun.length < room)
    (inner : ∀ symbol ∈ begun, isEnd symbol = false) : Within isEnd room (begun ++ [symbol]) where
  length_le := by simpa using Nat.succ_le_of_lt short
  inner := by simpa using inner

/-- Every line is complete. -/
theorem complete_of_mem_cut {line : List α} (short : begun.length < room)
    (inner : ∀ symbol ∈ begun, isEnd symbol = false)
    (member : line ∈ (cut isEnd room begun stream).1) : Complete isEnd room line := by
  induction stream generalizing begun with
  | nil => cases member
  | cons symbol stream ih =>
      by_cases ends : isEnd symbol = true ∨ begun.length + 1 = room
      · rw [cut_of_end ends] at member
        rcases List.mem_cons.mp member with rfl | member
        · refine ⟨within_append short inner, ?_⟩
          rcases ends with isLast | full
          · exact .inr ⟨symbol, by simp, isLast⟩
          · exact .inl (by simpa using full)
        · exact @ih [] (Nat.zero_lt_of_lt short) (by simp) member
      · rw [cut_of_inner ends] at member
        rw [not_or, Bool.not_eq_true] at ends
        refine ih ?_ ?_ member
        · simpa using Nat.lt_of_le_of_ne (Nat.succ_le_of_lt short) ends.2
        · intro other member
          rcases List.mem_append.mp member with member | member
          · exact inner other member
          · rw [List.mem_singleton.mp member]
            exact ends.1

/-- `next` is the first step of `cut`. -/
theorem cut_of_next {left : Nat} (counts : begun.length + left = room) (positive : 0 < left) :
    (∃ line rest, next isEnd left stream = (line, some rest) ∧ rest.length < stream.length ∧
      cut isEnd room begun stream =
        ((begun ++ line) :: (cut isEnd room [] rest).1, (cut isEnd room [] rest).2)) ∨
    (next isEnd left stream = (stream, none) ∧
      cut isEnd room begun stream = ([], begun ++ stream)) := by
  induction stream generalizing begun left with
  | nil =>
      obtain ⟨left, rfl⟩ := Nat.exists_eq_succ_of_ne_zero (Nat.ne_of_gt positive)
      exact .inr ⟨rfl, by simp [cut]⟩
  | cons symbol stream ih =>
      obtain ⟨left, rfl⟩ := Nat.exists_eq_succ_of_ne_zero (Nat.ne_of_gt positive)
      by_cases ends : isEnd symbol = true
      · exact .inl ⟨[symbol], stream, if_pos ends, Nat.lt_succ_self _, cut_of_end (.inl ends)⟩
      · have isNext : next isEnd (left + 1) (symbol :: stream) =
            (symbol :: (next isEnd left stream).1, (next isEnd left stream).2) := if_neg ends
        rw [isNext]
        cases left with
        | zero => exact .inl ⟨[symbol], stream, rfl, Nat.lt_succ_self _, cut_of_end (.inr counts)⟩
        | succ left =>
            have counts' : (begun ++ [symbol]).length + (left + 1) = room := by
              rw [List.length_append, List.length_singleton]
              omega
            have inner : ¬ (isEnd symbol = true ∨ begun.length + 1 = room) := by
              rw [not_or]
              exact ⟨ends, by omega⟩
            rw [cut_of_inner inner]
            rcases ih counts' (Nat.zero_lt_succ left) with
              ⟨line, rest, isLine, shorter, isCut⟩ | ⟨isLine, isCut⟩
            · rw [isLine, isCut]
              exact .inl ⟨symbol :: line, rest, rfl, Nat.lt_succ_of_lt shorter, by simp⟩
            · rw [isLine, isCut]
              exact .inr ⟨rfl, by simp⟩

end Cutting

end Lines
