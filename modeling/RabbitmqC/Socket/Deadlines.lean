import RabbitmqC.Socket.Footprint

/-!
# Deadlines

A deadline is computed from a timeout once, and asked before each `poll` for the
milliseconds that are left.
-/

set_option autoImplicit false

namespace RabbitmqC

open Effect

/-- The clock is next read as `now`. -/
def ClockReads (now : UInt64) (world : World) : Prop :=
  now ≠ 0 ∧ world.script.clock.head? = some now

theorem timestamp_of_reads {now : UInt64} {world : World} (reads : ClockReads now world) :
    ∃ after, amqpGetMonotonicTimestamp world = .ok now after := by
  obtain ⟨_, next⟩ := reads
  cases clock : world.script.clock with
  | nil => simp [clock] at next
  | cons first rest =>
      have same : first = now := by simpa [clock] using next
      rw [same] at clock
      exact ⟨_, timestamp_of_cons clock⟩

/-! ## Deadlines from timeouts -/

/-- The nanoseconds of a timeout without negative members. -/
def Timeval.ns (timeout : Timeval) : Nat :=
  timeout.tvSec.toNatClampNeg * 10 ^ 9 + timeout.tvUsec.toNatClampNeg * 10 ^ 3

/-- A deadline is the exact sum and not the infinite one; a sum that is too large
is refused. -/
structure DeadlineExact (now : UInt64) (timeout : Timeval) (result : Except Status UInt64) :
    Prop where
  exact : ∀ deadline, result = .ok deadline →
    deadline.toNat = now.toNat + timeout.ns ∧ deadline < amqpTimeInfinite
  refused : amqpTimeInfinite.toNat ≤ now.toNat + timeout.ns → result = .error .invalidParameter

/-- The test after the addition finds every sum that has wrapped around. -/
theorem timePointAfter_eq (now delta : UInt64) :
    timePointAfter now delta = (now + delta,
      if 2 ^ 64 ≤ now.toNat + delta.toNat then .error .invalidParameter else .ok ()) := by
  have nowLt := now.toNat_lt
  have deltaLt := delta.toNat_lt
  have sum := UInt64.toNat_add now delta
  by_cases wrapped : 2 ^ 64 ≤ now.toNat + delta.toNat
  · have less : now > now + delta ∨ delta > now + delta := by
      left
      apply UInt64.lt_iff_toNat_lt.mpr
      omega
    simp only [timePointAfter, if_pos less, if_pos wrapped]
  · have notLess : ¬(now > now + delta ∨ delta > now + delta) := by
      simp only [gt_iff_lt, UInt64.lt_iff_toNat_lt]
      omega
    simp only [timePointAfter, if_neg notLess, if_neg wrapped]

/-- The products and their sum wrap around before the test. -/
theorem toNat_delta {timeout : Timeval} (sec : 0 ≤ timeout.tvSec) (usec : 0 ≤ timeout.tvUsec) :
    (timeout.tvSec.toUInt64 * nsPerS + timeout.tvUsec.toUInt64 * nsPerUs).toNat =
      timeout.ns % 2 ^ 64 := by
  rw [UInt64.toNat_add, UInt64.toNat_mul, UInt64.toNat_mul, Int64.toNat_toUInt64_of_le sec,
    Int64.toNat_toUInt64_of_le usec, ← Nat.add_mod]
  rfl

theorem timeFromNow_of_reads {now : UInt64} {timeout : Timeval} {world : World}
    (reads : ClockReads now world) (sec : 0 ≤ timeout.tvSec) (usec : 0 ≤ timeout.tvUsec) :
    ∃ (delta : UInt64) (after : World), delta.toNat = timeout.ns % 2 ^ 64 ∧
      amqpTimeFromNow (some timeout) world =
        .ok ((timePointAfter now delta).2.map fun _ => now + delta) after := by
  obtain ⟨after, read⟩ := timestamp_of_reads reads
  have negative : ¬(timeout.tvSec < 0 ∨ timeout.tvUsec < 0) := by
    intro less
    cases less with
    | inl less => exact Int64.not_lt.mpr sec less
    | inr less => exact Int64.not_lt.mpr usec less
  refine ⟨_, after, toNat_delta sec usec, ?_⟩
  rw [amqpTimeFromNow, if_neg negative, bind_of_ok read, if_neg reads.1]
  generalize timeout.tvSec.toUInt64 * nsPerS + timeout.tvUsec.toUInt64 * nsPerUs = delta
  rw [timePointAfter_eq]
  rfl

/-- The deadline is wrong just when the nanoseconds of the timeout have wrapped
around to a time that can still be reached, or the sum is the infinite deadline. -/
theorem timeFromNow_exact_iff {now : UInt64} {timeout : Timeval} {world : World}
    (reads : ClockReads now world) (sec : 0 ≤ timeout.tvSec) (usec : 0 ≤ timeout.tvUsec) :
    (∃ result after, amqpTimeFromNow (some timeout) world = .ok result after ∧
        DeadlineExact now timeout result) ↔
      2 ^ 64 ≤ now.toNat + timeout.ns % 2 ^ 64 ∨
        timeout.ns < 2 ^ 64 ∧ now.toNat + timeout.ns ≠ 2 ^ 64 - 1 := by
  obtain ⟨delta, after, wraps, returned⟩ := timeFromNow_of_reads reads sec usec
  have infinite : amqpTimeInfinite.toNat = 2 ^ 64 - 1 := rfl
  have sum := UInt64.toNat_add now delta
  rw [timePointAfter_eq] at returned
  by_cases late : 2 ^ 64 ≤ now.toNat + delta.toNat
  · have refused : (∃ result after, amqpTimeFromNow (some timeout) world = .ok result after ∧
        DeadlineExact now timeout result) := by
      refine ⟨_, after, returned, ?_⟩
      rw [if_pos late]
      constructor
      · intro deadline same
        cases same
      · intro large
        rfl
    rw [wraps] at late
    exact ⟨fun _ => .inl late, fun _ => refused⟩
  · rw [if_neg late] at returned
    constructor
    · intro holds
      obtain ⟨result, after', again, exact⟩ := holds
      rw [again] at returned
      cases returned
      obtain ⟨same, finite⟩ := exact.exact _ rfl
      have bound := UInt64.lt_iff_toNat_lt.mp finite
      right
      omega
    · intro condition
      have inTime : timeout.ns < 2 ^ 64 ∧ now.toNat + timeout.ns ≠ 2 ^ 64 - 1 := by omega
      refine ⟨_, after, returned, ?_⟩
      constructor
      · intro deadline same
        have value : deadline = now + delta := by
          cases same
          rfl
        rw [value]
        refine ⟨?_, UInt64.lt_iff_toNat_lt.mpr ?_⟩ <;> omega
      · intro large
        omega

/-- A clock that is read once. -/
def clockScript (now : UInt64) : Script where
  clock := [now]
  recvs := []
  sends := []
  recvPolls := []
  sendPolls := []
  closes := []
  links := []
  memory := fun _ => grantingMemory

theorem clockScript_reads {now : UInt64} (running : now ≠ 0) :
    ClockReads now (World.new (clockScript now)) := ⟨running, rfl⟩

/-- Two seconds and three microseconds. -/
theorem timeFromNow_exact_iff_seconds :
    ∃ result after,
      amqpTimeFromNow (some ⟨2, 3⟩) (World.new (clockScript 5)) = .ok result after ∧
        DeadlineExact 5 ⟨2, 3⟩ result := by
  apply (timeFromNow_exact_iff (clockScript_reads (by decide)) (by decide) (by decide)).mpr
  right
  decide

/-- 18446744074 seconds are more than 2 ^ 64 nanoseconds. They become a deadline
0.29 seconds from now. -/
theorem long_timeout_wraps :
    ¬∃ result after,
      amqpTimeFromNow (some ⟨18446744074, 0⟩) (World.new (clockScript 5)) = .ok result after ∧
        DeadlineExact 5 ⟨18446744074, 0⟩ result := by
  intro holds
  obtain ⟨result, after, returned, exact⟩ := holds
  have wrapped : amqpTimeFromNow (some ⟨18446744074, 0⟩) (World.new (clockScript 5)) =
      .ok (.ok 290448389) { World.new (clockScript 5) with
        script := { clockScript 5 with clock := [] } } := rfl
  rw [returned] at wrapped
  cases wrapped
  have sum := (exact.exact _ rfl).1
  revert sum
  decide

/-! ## The time that is left -/

theorem intOfSize_spec (value : Nat) :
    ∃ wraps : Int, intOfSize value = value - 4294967296 * wraps ∧
      -2147483648 ≤ intOfSize value ∧ intOfSize value < 2147483648 := by
  refine ⟨Int.bdiv value (2 ^ 32), ?_, ?_, ?_⟩
  · exact Int.bmod_eq_self_sub_mul_bdiv value (2 ^ 32)
  · exact Int.le_bmod (by decide)
  · exact Int.bmod_lt (by decide)

/-- A value that is narrowed to the largest `int`. -/
theorem intOfSize_eq_max {value : Nat} :
    value % 2 ^ 32 = 2 ^ 31 - 1 ↔ intOfSize value = 2147483647 := by
  obtain ⟨wraps, same, lower, upper⟩ := intOfSize_spec value
  constructor
  · intro largest
    omega
  · intro largest
    omega

theorem toNat_left {now time : UInt64} (left : ¬now ≥ time) :
    (time - now).toNat = time.toNat - now.toNat :=
  UInt64.toNat_sub_of_le _ _ (UInt64.le_of_lt (UInt64.not_le.mp left))

theorem msUntil_of_reads {now time : UInt64} {world : World} (reads : ClockReads now world)
    (finite : time ≠ amqpTimeInfinite) :
    ∃ after, amqpTimeMsUntil time world =
      .ok (intOfSize ((time.toNat - now.toNat) / 10 ^ 6)) after := by
  obtain ⟨after, read⟩ := timestamp_of_reads reads
  rw [amqpTimeMsUntil, if_neg finite]
  by_cases zero : time = 0
  · refine ⟨world, ?_⟩
    rw [if_pos zero, zero, UInt64.toNat_zero, Nat.zero_sub]
    rfl
  · rw [if_neg zero, bind_of_ok read, if_neg reads.1]
    refine ⟨after, ?_⟩
    by_cases past : now ≥ time
    · rw [if_pos past, Nat.sub_eq_zero_of_le (UInt64.le_iff_toNat_le.mp past)]
      rfl
    · rw [if_neg past, UInt64.toNat_div, toNat_left past]
      rfl

end RabbitmqC
