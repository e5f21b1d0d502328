import RabbitmqC.Url.Parse

/-!
# The lexer

`find_delim` leaves it to `sscanf` to recognise an escape. `%2x` goes past a sign, or
past white space in front of a single digit, and the digits `00` end the text early.
-/

set_option autoImplicit false

namespace RabbitmqC

open Effect
open CString (ascii)

/-- An escape in front of the delimiter that `sscanf` does not take as one. -/
inductive LexerRefuses (colons : Bool) : List UInt8 → Prop where
  | here {rest : List UInt8} :
      (∀ val, CString.scanHex2 (rest.takeWhile (· ≠ 0)) = some (val, 2) → charMax < val) →
      LexerRefuses colons (percent :: rest)
  | plain {ch : UInt8} {rest : List UInt8} :
      isDelim colons ch = false → ch ≠ percent → LexerRefuses colons rest →
      LexerRefuses colons (ch :: rest)
  | escaped {first second : UInt8} {val : Nat} {rest : List UInt8} :
      CString.scanHex2 ((first :: second :: rest).takeWhile (· ≠ 0)) = some (val, 2) →
      val ≤ charMax → LexerRefuses colons rest →
      LexerRefuses colons (percent :: first :: second :: rest)

section Lexer

variable {colons : Bool} {encoded text left : List UInt8} {delim : UInt8}

theorem Lexes.isDelim (lexes : Lexes colons encoded text delim left) :
    isDelim colons delim = true := by
  induction lexes with
  | stop isDelim => exact isDelim
  | plain _ _ _ ih => exact ih
  | escaped _ _ _ ih => exact ih

/-- An escape that `sscanf` takes does not reach behind the string. -/
theorem exists_escape {rest : List UInt8} {val : Nat} (terminated : 0 ∈ rest)
    (scanned : CString.scanHex2 (rest.takeWhile (· ≠ 0)) = some (val, 2)) :
    ∃ first second behind, rest = first :: second :: behind ∧ 0 ∈ behind := by
  have room := CString.scanHex2_le scanned
  cases rest with
  | nil => cases terminated
  | cons first rest =>
      by_cases isZero : first = 0
      · rw [isZero, List.takeWhile_cons_of_neg (by simp)] at room
        cases room
      · rw [List.takeWhile_cons_of_pos (by simpa using isZero), List.length_cons] at room
        have behindFirst : 0 ∈ rest := (List.mem_cons.mp terminated).resolve_left (Ne.symm isZero)
        cases rest with
        | nil => cases behindFirst
        | cons second rest =>
            by_cases isZero : second = 0
            · rw [isZero, List.takeWhile_cons_of_neg (by simp)] at room
              cases Nat.le_of_succ_le_succ room
            · exact ⟨first, second, rest, rfl,
                (List.mem_cons.mp behindFirst).resolve_left (Ne.symm isZero)⟩

/-- Every string is gone through up to a delimiter, or up to an escape that is none. -/
theorem lexes_or_refuses (terminated : 0 ∈ encoded) :
    (∃ text delim left, Lexes colons encoded text delim left) ∨ LexerRefuses colons encoded := by
  generalize bound : encoded.length = length
  induction length using Nat.strong_induction_on generalizing encoded with
  | _ length ih =>
      cases encoded with
      | nil => cases terminated
      | cons ch rest =>
          rw [List.length_cons] at bound
          by_cases isEnd : isDelim colons ch = true
          · exact .inl ⟨[], ch, rest, .stop isEnd⟩
          · have notDelim : isDelim colons ch = false := by simpa using isEnd
            have behind : 0 ∈ rest := by
              refine (List.mem_cons.mp terminated).resolve_left ?_
              rintro rfl
              exact isEnd isDelim_zero
            by_cases isPercent : ch = percent
            · subst isPercent
              by_cases taken : ∃ val,
                  CString.scanHex2 (rest.takeWhile (· ≠ 0)) = some (val, 2) ∧ val ≤ charMax
              · obtain ⟨val, scanned, small⟩ := taken
                obtain ⟨first, second, further, rfl, ends⟩ := exists_escape behind scanned
                have less : further.length < length := by
                  simp only [List.length_cons] at bound
                  omega
                cases ih further.length less ends rfl with
                | inl found =>
                    obtain ⟨text, delim, left, lexes⟩ := found
                    exact .inl ⟨_, delim, left, .escaped scanned small lexes⟩
                | inr refuses => exact .inr (.escaped scanned small refuses)
              · refine .inr (.here fun val scanned => ?_)
                exact Nat.lt_of_not_le fun small => taken ⟨val, scanned, small⟩
            · have less : rest.length < length := by omega
              cases ih rest.length less behind rfl with
              | inl found =>
                  obtain ⟨text, delim, left, lexes⟩ := found
                  exact .inl ⟨_, delim, left, .plain notDelim isPercent lexes⟩
              | inr refuses => exact .inr (.plain notDelim isPercent refuses)

/-- The loop stops at an escape that is none, wherever it has stored the text. -/
theorem findDelimLoop_of_refuses {pp fuel : Nat} (refuses : LexerRefuses colons encoded)
    (enough : encoded.length ≤ fuel) (written gap : List UInt8) (parsed : ConnectionInfo) :
    ∃ after, findDelimLoop colons pp fuel (written ++ gap).length written.length
      ⟨written ++ gap ++ encoded, parsed⟩ = .ok (percent, pp) after := by
  induction refuses generalizing fuel written gap with
  | @here rest refused =>
      obtain ⟨fuel, rfl⟩ := Nat.exists_eq_add_one.mpr (Nat.lt_of_lt_of_le (by simp) enough)
      refine ⟨⟨written ++ gap ++ percent :: rest, parsed⟩, ?_⟩
      unfold findDelimLoop
      rw [bind_of_ok (charAt_append (written ++ gap) _ percent parsed),
        if_neg (by simp [isDelim_percent]), if_pos rfl, bind_of_ok (get_run _)]
      dsimp only
      rw [read_behind]
      cases scanned : CString.scanHex2 (rest.takeWhile (· ≠ 0)) with
      | none => rfl
      | some found =>
          obtain ⟨val, chars⟩ := found
          have large : chars ≠ 2 ∨ val > charMax := by
            by_cases isTwo : chars = 2
            · subst isTwo
              exact .inr (refused val scanned)
            · exact .inl isTwo
          dsimp only
          rw [if_pos large]
          rfl
  | @plain ch rest notDelim notPercent refuses ih =>
      obtain ⟨fuel, rfl⟩ := Nat.exists_eq_add_one.mpr (Nat.lt_of_lt_of_le (by simp) enough)
      obtain ⟨gap', turns⟩ := findDelimLoop_plain written gap notDelim notPercent
      obtain ⟨after, stops⟩ := ih (Nat.le_of_succ_le_succ enough) (written ++ [ch]) gap'
      exact ⟨after, (turns parsed).trans stops⟩
  | @escaped first second val rest scanned small refuses ih =>
      obtain ⟨fuel, rfl⟩ := Nat.exists_eq_add_one.mpr (Nat.lt_of_lt_of_le (by simp) enough)
      have less : rest.length ≤ fuel := by
        simp only [List.length_cons] at enough
        omega
      obtain ⟨gap', turns⟩ := findDelimLoop_escaped written gap scanned small
      obtain ⟨after, stops⟩ := ih less (written ++ [UInt8.ofNat val]) gap'
      exact ⟨after, (turns parsed).trans stops⟩

theorem findDelim_of_refuses (refuses : LexerRefuses colons encoded) (passed : List UInt8)
    (parsed : ConnectionInfo) :
    ∃ after, findDelim passed.length colons ⟨passed ++ encoded, parsed⟩ =
      .ok (percent, passed.length) after := by
  have enough : encoded.length ≤ (passed ++ encoded).length := by simp
  obtain ⟨after, stops⟩ :=
    @findDelimLoop_of_refuses _ _ passed.length _ refuses enough passed [] parsed
  rw [List.append_nil] at stops
  refine ⟨after, ?_⟩
  unfold findDelim
  rw [bind_of_ok (get_run _)]
  exact stops

/-! ### Where the memory ends -/

theorem storeChar_length (offset : Nat) (ch : UInt8) :
    Moves (Unchanged (·.memory.length)) (storeChar offset ch) := by
  apply Moves.get_bind
  intro state
  by_cases inside : offset < state.memory.length
  · rw [if_pos inside]
    exact List.length_set
  · rw [if_neg inside]
    rfl

theorem charAt_length (offset : Nat) : Moves (Unchanged (·.memory.length)) (charAt offset) := by
  apply Moves.get_bind
  intro state
  cases state.memory[offset]? <;> rfl

theorem findDelimLoop_length (pp fuel source target : Nat) :
    Moves (Unchanged (·.memory.length)) (findDelimLoop colons pp fuel source target) := by
  induction fuel generalizing source target with
  | zero => exact Moves.throw
  | succ fuel ih =>
      unfold findDelimLoop
      refine Moves.bind (charAt_length source) fun ch => ?_
      apply Moves.ite
      · intro _
        exact Moves.bind (storeChar_length _ _) fun _ => Moves.pure
      · intro _
        apply Moves.ite
        · intro _
          refine Moves.bind Moves.get fun state => ?_
          cases CString.scanHex2 (CString.read state.memory (source + 1)) with
          | none => exact Moves.pure
          | some found =>
              apply Moves.ite
              · intro _
                exact Moves.pure
              · intro _
                exact Moves.bind (storeChar_length _ _) fun _ => ih _ _
        · intro _
          exact Moves.bind (storeChar_length _ _) fun _ => ih _ _

theorem findDelim_length (pp : Nat) :
    Moves (Unchanged (·.memory.length)) (findDelim pp colons) :=
  Moves.bind Moves.get fun _ => findDelimLoop_length _ _ _ _

end Lexer

/-! ## The specification -/

/-- Two hexadecimal digits with a value from one to `CHAR_MAX`. -/
def IsEscape (first second : UInt8) : Prop :=
  ∃ high low, CString.hexValue? first = some high ∧ CString.hexValue? second = some low ∧
    0 < 16 * high + low ∧ 16 * high + low ≤ charMax

/-- `sscanf` takes something as an escape that is none, and nothing behind it stops the
lexer in front of the delimiter. -/
inductive Overlooks (colons : Bool) : List UInt8 → Prop where
  | here {first second delim : UInt8} {val : Nat} {rest text left : List UInt8} :
      CString.scanHex2 ((first :: second :: rest).takeWhile (· ≠ 0)) = some (val, 2) →
      val ≤ charMax → ¬ IsEscape first second → Lexes colons rest text delim left →
      Overlooks colons (percent :: first :: second :: rest)
  | plain {ch : UInt8} {rest : List UInt8} :
      isDelim colons ch = false → ch ≠ percent → Overlooks colons rest → Overlooks colons (ch :: rest)
  | escaped {first second : UInt8} {rest : List UInt8} :
      IsEscape first second → Overlooks colons rest →
      Overlooks colons (percent :: first :: second :: rest)

/-- What `find_delim` is meant to do with the string that stands behind `passed`. -/
structure FindsDelim (colons : Bool) (passed encoded : List UInt8) (parsed : ConnectionInfo) :
    Prop where
  found : ∀ text delim left, nextDelim colons encoded = some (text, delim, left) →
    ∃ before after, encoded = before ++ delim :: left ∧
      findDelim passed.length colons ⟨passed ++ encoded, parsed⟩ =
        .ok (delim, (passed ++ before).length + 1) after ∧
      CString.Stands after.memory passed.length text ∧
      CString.read after.memory passed.length = text
  refused : (∃ cursor after, findDelim passed.length colons ⟨passed ++ encoded, parsed⟩ =
    .ok (percent, cursor) after) ↔ nextDelim colons encoded = none

section Specification

variable {colons : Bool} {encoded text left : List UInt8} {delim : UInt8}

theorem Overlooks.lexes (overlooks : Overlooks colons encoded) :
    ∃ text delim left, Lexes colons encoded text delim left := by
  induction overlooks with
  | here scanned small _ lexes => exact ⟨_, _, _, .escaped scanned small lexes⟩
  | plain notDelim notPercent _ ih =>
      obtain ⟨text, delim, left, lexes⟩ := ih
      exact ⟨_, delim, left, .plain notDelim notPercent lexes⟩
  | escaped isEscape _ ih =>
      obtain ⟨text, delim, left, lexes⟩ := ih
      obtain ⟨high, low, isHigh, isLow, positive, small⟩ := isEscape
      exact ⟨_, delim, left, .escaped (scanHex2_of_escape isHigh isLow) small lexes⟩

theorem Overlooks.not_scans (overlooks : Overlooks colons encoded) :
    ¬ Scans colons encoded text delim left := by
  intro scans
  induction scans with
  | stop isDelim => 
      cases overlooks with
      | here => cases colons <;> cases isDelim
      | plain notDelim => 
          rw [isDelim] at notDelim
          cases notDelim
      | escaped => cases colons <;> cases isDelim
  | plain _ notPercent _ ih =>
      cases overlooks with
      | here => exact notPercent rfl
      | plain _ _ overlooks => exact ih overlooks
      | escaped => exact notPercent rfl
  | escaped isHigh isLow positive small _ ih =>
      cases overlooks with
      | here _ _ notEscape _ => exact notEscape ⟨_, _, isHigh, isLow, positive, small⟩
      | plain _ notPercent _ => exact notPercent rfl
      | escaped _ overlooks => exact ih overlooks

theorem Lexes.scans_or_overlooks (lexes : Lexes colons encoded text delim left) :
    (∃ text delim left, Scans colons encoded text delim left) ∨ Overlooks colons encoded := by
  induction lexes with
  | stop isDelim => exact .inl ⟨_, _, _, .stop isDelim⟩
  | plain notDelim notPercent _ ih =>
      cases ih with
      | inl scans =>
          obtain ⟨text, delim, left, scans⟩ := scans
          exact .inl ⟨_, delim, left, .plain notDelim notPercent scans⟩
      | inr overlooks => exact .inr (.plain notDelim notPercent overlooks)
  | @escaped first second _ _ _ _ _ scanned small lexes ih =>
      by_cases isEscape : IsEscape first second
      · cases ih with
        | inl scans =>
            obtain ⟨text, delim, left, scans⟩ := scans
            obtain ⟨high, low, isHigh, isLow, positive, small⟩ := isEscape
            exact .inl ⟨_, delim, left, .escaped isHigh isLow positive small scans⟩
        | inr overlooks => exact .inr (.escaped isEscape overlooks)
      · exact .inr (.here scanned small isEscape lexes)

theorem Lexes.split (lexes : Lexes colons encoded text delim left) :
    ∃ before, encoded = before ++ delim :: left := by
  induction lexes with
  | stop _ => exact ⟨[], rfl⟩
  | @plain ch _ _ _ _ _ _ _ ih =>
      obtain ⟨before, rfl⟩ := ih
      exact ⟨ch :: before, rfl⟩
  | @escaped first second _ _ _ _ _ _ _ _ ih =>
      obtain ⟨before, rfl⟩ := ih
      exact ⟨percent :: first :: second :: before, rfl⟩

theorem percent_ne_delim (lexes : Lexes colons encoded text delim left) : delim ≠ percent := by
  rintro rfl
  have isDelim := lexes.isDelim
  rw [isDelim_percent] at isDelim
  cases isDelim

/-- A scan that succeeds finds the delimiter and leaves the decoded text in front. -/
theorem nextDelim_found (found : nextDelim colons encoded = some (text, delim, left))
    (passed : List UInt8) (parsed : ConnectionInfo) :
    ∃ before after, encoded = before ++ delim :: left ∧
      findDelim passed.length colons ⟨passed ++ encoded, parsed⟩ =
        .ok (delim, (passed ++ before).length + 1) after ∧
      CString.Stands after.memory passed.length text ∧
      CString.read after.memory passed.length = text := by
  have scans := nextDelim_eq_some.mp found
  obtain ⟨before, rfl⟩ := scans.lexes.split
  obtain ⟨behind, runs⟩ := findDelim_of_scans scans passed
  have kept := (findDelim_length passed.length).ok (runs parsed)
  have cursor : (passed ++ text ++ 0 :: behind).length = (passed ++ before).length + 1 := by
    simp only [Unchanged, List.length_append, List.length_cons] at kept ⊢
    omega
  refine ⟨before, ⟨passed ++ text ++ 0 :: behind ++ left, parsed⟩, rfl, ?_, ?_⟩
  · rw [← cursor]
    exact runs parsed
  · have stands : CString.Stands (passed ++ text ++ 0 :: behind ++ left) passed.length text :=
      ⟨passed, behind ++ left, by simp, rfl⟩
    exact ⟨stands, stands.read scans.noZero⟩

theorem not_findsDelim_of_overlooks (overlooks : Overlooks colons encoded) (passed : List UInt8)
    (parsed : ConnectionInfo) : ¬ FindsDelim colons passed encoded parsed := by
  intro meets
  obtain ⟨text, delim, left, lexes⟩ := overlooks.lexes
  have isNone : nextDelim colons encoded = none := by
    cases found : nextDelim colons encoded with
    | none => rfl
    | some found' => exact absurd (nextDelim_eq_some.mp found) overlooks.not_scans
  obtain ⟨cursor, after, refused⟩ := meets.refused.mpr isNone
  obtain ⟨behind, runs⟩ := findDelim_of_lexes lexes passed
  rw [runs, EStateM.Result.ok.injEq, Prod.mk.injEq] at refused
  exact percent_ne_delim lexes refused.1.1

/-- The lexer returns `%` if there is a faulty escape and it does not overlook it. -/
theorem refused_iff_of_not_overlooks (terminated : 0 ∈ encoded)
    (noneOverlooked : ¬ Overlooks colons encoded) (passed : List UInt8)
    (parsed : ConnectionInfo) :
    (∃ cursor after, findDelim passed.length colons ⟨passed ++ encoded, parsed⟩ =
      .ok (percent, cursor) after) ↔ nextDelim colons encoded = none := by
  constructor
  · rintro ⟨cursor, after, refused⟩
    cases found : nextDelim colons encoded with
    | none => rfl
    | some found' =>
        have scans := nextDelim_eq_some.mp found
        obtain ⟨behind, runs⟩ := findDelim_of_scans scans passed
        rw [runs, EStateM.Result.ok.injEq, Prod.mk.injEq] at refused
        exact absurd refused.1.1 (percent_ne_delim scans.lexes)
  · intro isNone
    cases lexes_or_refuses terminated with
    | inl lexes =>
        obtain ⟨_, _, _, lexes⟩ := lexes
        cases lexes.scans_or_overlooks with
        | inl scans =>
            obtain ⟨_, _, _, scans⟩ := scans
            rw [nextDelim_eq_some.mpr scans] at isNone
            cases isNone
        | inr overlooks => exact absurd overlooks noneOverlooked
    | inr refuses =>
        obtain ⟨after, runs⟩ := findDelim_of_refuses refuses passed parsed
        exact ⟨_, after, runs⟩

end Specification

end RabbitmqC
