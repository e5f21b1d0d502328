import RabbitmqC.Login.Handshake
import RabbitmqC.Socket.Deadlines

/-!
# The time that is left

A deadline is asked for the time that is left, as milliseconds for `poll` or as a
`struct timeval` for the next wait.
-/

set_option autoImplicit false

namespace RabbitmqC

open Effect

/-- What is left until a deadline, as milliseconds and as a timeout. The
milliseconds are not negative, as those of the infinite deadline and of a failure
are, nor more than what is left or less than for an earlier deadline. -/
structure TimeReported (world : World) (now time : UInt64) : Prop where
  ms : ∃ left after, amqpTimeMsUntil time world = .ok left after ∧ 0 ≤ left ∧
    left ≤ (time.toNat - now.toNat : Nat) / 10 ^ 6 ∧
    ∀ earlier ≤ time, ∃ less after,
      amqpTimeMsUntil earlier world = .ok less after ∧ less ≤ left
  tv : ∃ tv after, amqpTimeTvUntil time world = .ok (.ok (some tv)) after ∧
    0 ≤ tv.tvSec ∧ 0 ≤ tv.tvUsec ∧
    tv.ns ≤ time.toNat - now.toNat ∧ time.toNat - now.toNat < tv.ns + 1000

/-- The timeout for a number of nanoseconds. -/
def timevalOfNs (left : Nat) : Timeval :=
  ⟨Int64.ofInt (intOfSize (left / 10 ^ 9)), Int64.ofInt (intOfSize (left % 10 ^ 9 / 10 ^ 3))⟩

section Left

variable {now time : UInt64} {world : World}

theorem tvUntil_of_reads (reads : ClockReads now world) (finite : time ≠ amqpTimeInfinite) :
    ∃ after, amqpTimeTvUntil time world =
      .ok (.ok (some (timevalOfNs (time.toNat - now.toNat)))) after := by
  obtain ⟨after, read⟩ := timestamp_of_reads reads
  rw [amqpTimeTvUntil, if_neg finite]
  by_cases zero : time = 0
  · refine ⟨world, ?_⟩
    rw [if_pos zero, zero, UInt64.toNat_zero, Nat.zero_sub]
    rfl
  · rw [if_neg zero, bind_of_ok read, if_neg reads.1]
    refine ⟨after, ?_⟩
    by_cases past : now ≥ time
    · rw [if_pos past, Nat.sub_eq_zero_of_le (UInt64.le_iff_toNat_le.mp past)]
      rfl
    · rw [if_neg past, UInt64.toNat_div, UInt64.toNat_div, UInt64.toNat_mod, toNat_left past]
      rfl

theorem toInt_narrowed (value : Nat) : (Int64.ofInt (intOfSize value)).toInt = intOfSize value := by
  obtain ⟨wraps, same, lower, upper⟩ := intOfSize_spec value
  apply Int64.toInt_ofInt_of_le <;> omega

/-- A timeout whose seconds are not narrowed is off by less than a microsecond. -/
theorem timevalOfNs_exact_iff {left : Nat} :
    (0 ≤ (timevalOfNs left).tvSec ∧ 0 ≤ (timevalOfNs left).tvUsec ∧
        (timevalOfNs left).ns ≤ left ∧ left < (timevalOfNs left).ns + 1000) ↔
      left / 10 ^ 9 < 2 ^ 31 := by
  have sec : (timevalOfNs left).tvSec.toInt = intOfSize (left / 10 ^ 9) := toInt_narrowed _
  have usec : (timevalOfNs left).tvUsec.toInt = (left % 10 ^ 9 / 10 ^ 3 : Nat) := by
    apply (toInt_narrowed _).trans
    apply intOfSize_of_lt
    omega
  have zero : (0 : Int64).toInt = 0 := rfl
  obtain ⟨wraps, same, lower, upper⟩ := intOfSize_spec (left / 10 ^ 9)
  rw [Timeval.ns, Int64.toNatClampNeg, Int64.toNatClampNeg, Int64.le_iff_toInt_le,
    Int64.le_iff_toInt_le, sec, usec, zero, Int.toNat_natCast]
  constructor
  · intro bounds
    omega
  · intro small
    have exact := intOfSize_of_lt small
    omega

/-- A deadline is misreported from 2 ^ 31 milliseconds on, unless the conversion
happens to give the largest `int`. -/
theorem timeReported_iff (reads : ClockReads now world) (finite : time ≠ amqpTimeInfinite) :
    TimeReported world now time ↔
      (time.toNat - now.toNat) / 10 ^ 6 < 2 ^ 31 ∨
        (time.toNat - now.toNat) / 10 ^ 6 % 2 ^ 32 = 2 ^ 31 - 1 ∧
          (time.toNat - now.toNat) / 10 ^ 9 < 2 ^ 31 := by
  obtain ⟨msAfter, msReturned⟩ := msUntil_of_reads reads finite
  obtain ⟨tvAfter, tvReturned⟩ := tvUntil_of_reads reads finite
  have narrowed := intOfSize_spec ((time.toNat - now.toNat) / 10 ^ 6)
  have timeLt := time.toNat_lt
  constructor
  · intro reported
    obtain ⟨left, after, returned, _, _, monotone⟩ := reported.ms
    obtain ⟨tv, after', tvReturned', bounds⟩ := reported.tv
    rw [returned, EStateM.Result.ok.injEq] at msReturned
    rw [tvReturned', EStateM.Result.ok.injEq, Except.ok.injEq, Option.some.injEq] at tvReturned
    rw [tvReturned.1] at bounds
    have seconds := timevalOfNs_exact_iff.mp bounds
    by_cases small : (time.toNat - now.toNat) / 10 ^ 6 < 2 ^ 31
    · exact .inl small
    · -- The last deadline that is not narrowed reports the largest `int`.
      have room : now.toNat + 2147483647000000 < 2 ^ 64 := by omega
      have lastToNat : (UInt64.ofNat (now.toNat + 2147483647000000)).toNat =
          now.toNat + 2147483647000000 := UInt64.toNat_ofNat_of_lt' room
      have earlier : UInt64.ofNat (now.toNat + 2147483647000000) ≤ time := by
        apply UInt64.le_iff_toNat_le.mpr
        omega
      have lastFinite : UInt64.ofNat (now.toNat + 2147483647000000) ≠ amqpTimeInfinite := by
        intro same
        rw [same] at lastToNat earlier
        have infinite : amqpTimeInfinite.toNat = 2 ^ 64 - 1 := rfl
        omega
      obtain ⟨less, after'', lastReturned, lessLe⟩ := monotone _ earlier
      obtain ⟨_, lastReturned'⟩ := msUntil_of_reads reads lastFinite
      rw [lastReturned, lastToNat, Nat.add_sub_cancel_left, EStateM.Result.ok.injEq]
        at lastReturned'
      have largest : intOfSize (2147483647000000 / 10 ^ 6) = 2147483647 :=
        intOfSize_of_lt (by decide)
      right
      refine ⟨intOfSize_eq_max.mpr ?_, seconds⟩
      omega
  · intro condition
    constructor
    · obtain ⟨wraps, same, lower, upper⟩ := narrowed
      have reported : 0 ≤ intOfSize ((time.toNat - now.toNat) / 10 ^ 6) ∧
          ∀ value ≤ (time.toNat - now.toNat) / 10 ^ 6,
            intOfSize value ≤ intOfSize ((time.toNat - now.toNat) / 10 ^ 6) := by
        cases condition with
        | inl small =>
            rw [intOfSize_of_lt small]
            refine ⟨Int.natCast_nonneg _, ?_⟩
            intro value less
            rw [intOfSize_of_lt (Nat.lt_of_le_of_lt less small)]
            exact Int.ofNat_le.mpr less
        | inr accident =>
            rw [intOfSize_eq_max.mp accident.1]
            refine ⟨by decide, ?_⟩
            intro value less
            have bound := intOfSize_spec value
            omega
      refine ⟨_, msAfter, msReturned, reported.1, ?_, ?_⟩
      · omega
      · intro earlier less
        have ordered := UInt64.le_iff_toNat_le.mp less
        have earlierFinite : earlier ≠ amqpTimeInfinite := by
          intro infinite
          rw [infinite] at less
          have most : time ≤ amqpTimeInfinite :=
            UInt64.le_iff_toNat_le.mpr (Nat.le_of_lt_succ timeLt)
          exact finite (UInt64.le_antisymm most less)
        obtain ⟨after, returned⟩ := msUntil_of_reads reads earlierFinite
        refine ⟨_, after, returned, reported.2 _ ?_⟩
        apply Nat.div_le_div_right
        omega
    · refine ⟨_, tvAfter, tvReturned, timevalOfNs_exact_iff.mpr ?_⟩
      omega

end Left

/-- Seven seconds are left. -/
theorem timeReported_iff_seconds :
    TimeReported (World.new (clockScript 5)) 5 7000000005 := by
  apply (timeReported_iff (clockScript_reads (by decide)) (by decide)).mpr
  left
  decide

/-- A deadline 4294967295 milliseconds from now counts as the infinite one. -/
theorem distant_deadline_infinite :
    (∃ after, amqpTimeMsUntil 4294967295000005 (World.new (clockScript 5)) = .ok (-1) after) ∧
      ¬TimeReported (World.new (clockScript 5)) 5 4294967295000005 := by
  have narrowed : intOfSize 4294967295 = -1 := by decide
  have reads : ClockReads 5 (World.new (clockScript 5)) := clockScript_reads (by decide)
  have finite : (4294967295000005 : UInt64) ≠ amqpTimeInfinite := by decide
  have returned := msUntil_of_reads reads finite
  have left : (UInt64.toNat 4294967295000005 - UInt64.toNat 5) / 10 ^ 6 = 4294967295 := by decide
  rw [left, narrowed] at returned
  refine ⟨returned, ?_⟩
  intro reported
  obtain ⟨after, returned⟩ := returned
  obtain ⟨left, after', returned', nonneg, _⟩ := reported.ms
  rw [returned', EStateM.Result.ok.injEq] at returned
  omega

end RabbitmqC
