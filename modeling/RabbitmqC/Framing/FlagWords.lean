import RabbitmqC.Framing.Codec
import RabbitmqC.Table.Extent

/-!
# Flag words

The flags of a property list come in words of 16 bits. The lowest bit of a word
says whether another one follows. `amqp_decode_properties` goes on as long as it is
set, although the third word has no place in the 32 bits of `_flags`.
-/

set_option autoImplicit false

namespace RabbitmqC

open Effect

/-! ## The words of a property list -/

def Encoded.flagWord? (encoded : Encoded) (offset : Nat) : Option UInt16 :=
  (encoded.word? offset 2).map UInt16.ofNat

/-- There is a flag word, and it announces another one. -/
def Encoded.Continues (encoded : Encoded) (offset : Nat) : Prop :=
  ∃ word, encoded.flagWord? offset = some word ∧ word &&& 1 ≠ 0

/-- What the first two words make of `_flags`. -/
def Encoded.flags? (encoded : Encoded) : Option UInt32 :=
  (encoded.flagWord? 0).bind fun first =>
    if first &&& 1 ≠ 0 then
      (encoded.flagWord? 2).map fun second => first.toUInt32 ||| second.toUInt32 <<< (16 : UInt32)
    else
      some first.toUInt32

/-- No word is shifted by 32 bits or more: a list with a third flag word is bad data, and
`_flags` comes from the first two words. -/
structure ShiftsInRange (classId : UInt16) (encoded : Encoded) (allocs : List Bool) : Prop where
  defined : ∀ after,
    amqpDecodeProperties classId encoded ⟨0, allocs⟩ ≠ .error (.fault .shiftOverflow) after
  rejected : encoded.Continues 0 → encoded.Continues 2 → ∃ after,
    amqpDecodeProperties classId encoded ⟨0, allocs⟩ = .error (.status .badAmqpData) after
  determined : ∀ properties after,
    amqpDecodeProperties classId encoded ⟨0, allocs⟩ = .ok properties after →
      encoded.flags? = some properties.flags

/-! ## The loop -/

section Loop

variable {encoded : Encoded} {offset : Nat} {allocs : List Bool} {word first second : UInt16}

theorem decode16_run (inside : encoded.base + encoded.len ≤ encoded.mem.size)
    (small : offset + 2 < 2 ^ 64) :
    amqpDecode16 encoded ⟨offset, allocs⟩ =
      .ok (encoded.flagWord? offset) ⟨offset + 2, allocs⟩ :=
  map_of_ok (decodeWord_run inside small)

theorem flagWord_of_none (inside : encoded.base + encoded.len ≤ encoded.mem.size)
    (small : offset + 2 < 2 ^ 64) (absent : encoded.flagWord? offset = none) :
    (amqpDecode16 encoded).orBad ⟨offset, allocs⟩ =
      .error (.status .badAmqpData) ⟨offset + 2, allocs⟩ := by
  apply orBad_of_none
  rw [decode16_run inside small, absent]

theorem flagWord_of_some (inside : encoded.base + encoded.len ≤ encoded.mem.size)
    (small : offset + 2 < 2 ^ 64) (found : encoded.flagWord? offset = some word) :
    (amqpDecode16 encoded).orBad ⟨offset, allocs⟩ = .ok word ⟨offset + 2, allocs⟩ := by
  apply orBad_of_some
  rw [decode16_run inside small, found]

/-- The word is the last one. -/
theorem decodeFlagWords_of_last {turns flagwordIndex : Nat} {flags : UInt32}
    (inside : encoded.base + encoded.len ≤ encoded.mem.size) (small : offset + 2 < 2 ^ 64)
    (found : encoded.flagWord? offset = some word) (last : word &&& 1 = 0) :
    decodeFlagWords encoded (turns + 1) flagwordIndex flags ⟨offset, allocs⟩ =
      .ok (flags ||| word.toUInt32 <<< UInt32.ofNat (flagwordIndex * 16))
        ⟨offset + 2, allocs⟩ := by
  rw [decodeFlagWords, bind_of_ok (flagWord_of_some inside small found),
    if_neg (not_not.mpr last)]
  rfl

/-- Another word follows. -/
theorem decodeFlagWords_of_more {turns flagwordIndex : Nat} {flags : UInt32}
    (inside : encoded.base + encoded.len ≤ encoded.mem.size) (small : offset + 2 < 2 ^ 64)
    (found : encoded.flagWord? offset = some word) (more : word &&& 1 ≠ 0) :
    decodeFlagWords encoded (turns + 1) flagwordIndex flags ⟨offset, allocs⟩ =
      decodeFlagWords encoded turns (flagwordIndex + 1)
        (flags ||| word.toUInt32 <<< UInt32.ofNat (flagwordIndex * 16)) ⟨offset + 2, allocs⟩ := by
  rw [decodeFlagWords, bind_of_ok (flagWord_of_some inside small found), if_pos more]

/-- How the loop ends. -/
inductive FlagLoop (encoded : Encoded) (allocs : List Bool) :
    EStateM.Result Failure DecodeState UInt32 → Prop where
  | counted {flags : UInt32} {offset : Nat} :
      encoded.flags? = some flags → ¬ (encoded.Continues 0 ∧ encoded.Continues 2) →
      FlagLoop encoded allocs (.ok flags ⟨offset, allocs⟩)
  | short {offset : Nat} : ¬ (encoded.Continues 0 ∧ encoded.Continues 2 ∧ 6 ≤ encoded.len) →
      FlagLoop encoded allocs (.error (.status .badAmqpData) ⟨offset, allocs⟩)
  | shifted {offset : Nat} : encoded.Continues 0 → encoded.Continues 2 → 6 ≤ encoded.len →
      FlagLoop encoded allocs (.error (.fault .shiftOverflow) ⟨offset, allocs⟩)

theorem not_continues_of_none (absent : encoded.flagWord? offset = none) :
    ¬ encoded.Continues offset := by
  rintro ⟨word, found, _⟩
  rw [absent] at found
  cases found

theorem not_continues_of_last (found : encoded.flagWord? offset = some word)
    (last : word &&& 1 = 0) : ¬ encoded.Continues offset := by
  rintro ⟨other, again, more⟩
  cases found.symm.trans again
  exact more last

/-- The loop behind two words that each announce another one. -/
theorem thirdWord_loop (inside : encoded.base + encoded.len ≤ encoded.mem.size) (flags : UInt32)
    (continuesFirst : encoded.Continues 0) (continuesSecond : encoded.Continues 2) :
    FlagLoop encoded allocs (decodeFlagWords encoded 0 2 flags ⟨4, allocs⟩) := by
  unfold decodeFlagWords
  cases third : encoded.flagWord? 4 with
  | none =>
      rw [bind_of_error (flagWord_of_none inside (by omega) third)]
      have absent := Option.map_eq_none_iff.mp third
      have full := (Encoded.word?_eq_none_iff inside).mp absent
      exact .short fun whole => by omega
  | some word =>
      rw [bind_of_ok (flagWord_of_some inside (by omega) third)]
      obtain ⟨value, found, _⟩ := Option.map_eq_some_iff.mp third
      exact .shifted continuesFirst continuesSecond (Encoded.le_of_word? found)

theorem decodeFlagWords_loop (inside : encoded.base + encoded.len ≤ encoded.mem.size) :
    FlagLoop encoded allocs (decodeFlagWords encoded 2 0 0 ⟨0, allocs⟩) := by
  cases first : encoded.flagWord? 0 with
  | none =>
      rw [decodeFlagWords, bind_of_error (flagWord_of_none inside (by omega) first)]
      exact .short fun whole => not_continues_of_none first whole.1
  | some word =>
      by_cases last : word &&& 1 = 0
      · rw [decodeFlagWords_of_last inside (by omega) first last]
        refine .counted ?_ fun both => not_continues_of_last first last both.1
        simp [Encoded.flags?, first, last]
      · rw [decodeFlagWords_of_more inside (by omega) first last]
        cases second : encoded.flagWord? 2 with
        | none =>
            rw [decodeFlagWords, bind_of_error (flagWord_of_none inside (by omega) second)]
            exact .short fun whole => not_continues_of_none second whole.2.1
        | some next =>
            by_cases lastNext : next &&& 1 = 0
            · rw [decodeFlagWords_of_last inside (by omega) second lastNext]
              refine .counted ?_ fun both => not_continues_of_last second lastNext both.2
              simp [Encoded.flags?, first, second, last]
            · rw [decodeFlagWords_of_more inside (by omega) second lastNext]
              exact thirdWord_loop inside _ ⟨word, first, last⟩ ⟨next, second, lastNext⟩

end Loop

/-- The flag words are shifted in range exactly when there is no third one behind two that
announce it. -/
theorem shiftsInRange_iff {encoded : Encoded} (classId : UInt16) (allocs : List Bool)
    (inside : encoded.base + encoded.len ≤ encoded.mem.size) :
    ShiftsInRange classId encoded allocs ↔
      ¬ (encoded.Continues 0 ∧ encoded.Continues 2 ∧ 6 ≤ encoded.len) := by
  have loop := @decodeFlagWords_loop encoded allocs inside
  cases looped : decodeFlagWords encoded 2 0 0 ⟨0, allocs⟩ with
  | error failure after =>
      have decoded : amqpDecodeProperties classId encoded ⟨0, allocs⟩ = .error failure after :=
        bind_of_error looped
      rw [looped] at loop
      cases loop with
      | short notThree =>
          refine ⟨fun _ => notThree, fun _ => ⟨?_, fun _ _ => ⟨_, decoded⟩, ?_⟩⟩
          · intro other
            rw [decoded]
            nofun
          · intro properties other returned
            rw [decoded] at returned
            cases returned
      | shifted continuesFirst continuesSecond whole =>
          constructor
          · intro inRange
            exact absurd decoded (inRange.defined _)
          · intro notThree
            exact absurd ⟨continuesFirst, continuesSecond, whole⟩ notThree
  | ok flags between =>
      rw [looped] at loop
      cases loop with
      | counted isFlags notTwo =>
          refine ⟨fun _ three => notTwo ⟨three.1, three.2.1⟩, fun _ => ⟨?_, ?_, ?_⟩⟩
          · intro after raised
            rcases bind_eq_error.mp raised with early | ⟨_, _, _, late⟩
            · rw [looped] at early
              cases early
            · rcases bind_eq_error.mp late with member | ⟨_, _, _, returned⟩
              · exact absurd (plain_decodeDeclaredProperties _ _ member) (by decide)
              · cases returned
          · exact fun first second => absurd ⟨first, second⟩ notTwo
          · intro properties after returned
            obtain ⟨_, _, same, rest⟩ := bind_eq_ok.mp returned
            rw [looped] at same
            cases same
            obtain ⟨_, _, _, finished⟩ := bind_eq_ok.mp rest
            cases finished
            exact isFlags

/-- One flag word, for a message without properties. -/
def noProperties : Encoded := { base := 0, len := 2, mem := ⟨[0, 0], by simp⟩ }

theorem shiftsInRange_iff_single : ShiftsInRange 60 noProperties [] := by
  refine (shiftsInRange_iff 60 [] (by decide)).mpr fun three => ?_
  exact absurd three.2.2 (by decide)

/-- Three flag words. -/
def threeFlagWords : Encoded := { base := 0, len := 6, mem := ⟨[0, 1, 0, 1, 0, 0], by simp⟩ }

/-- The third word is shifted by 32 bits. -/
theorem third_flag_word_shifted : ¬ ShiftsInRange 60 threeFlagWords [] := by
  intro inRange
  have continuesAt (offset : Nat) (found : threeFlagWords.flagWord? offset = some 1) :
      threeFlagWords.Continues offset := ⟨1, found, by decide⟩
  have three := (shiftsInRange_iff 60 [] (by decide)).mp inRange
  exact three ⟨continuesAt 0 (by decide +kernel), continuesAt 2 (by decide +kernel), by decide⟩

end RabbitmqC
