import RabbitmqC.Socket.Deadlines
import RabbitmqC.Socket.Delivery
import RabbitmqC.Socket.Survival

/-!
# The wait loop

After a timeout `wait_frame_inner` finds out which of three deadlines has passed
by comparing them again. A number of milliseconds that narrowing has made negative
comes back from `amqp_poll` as a status code, and one of these numbers is the code
that the loop itself returns for a dead peer.
-/

set_option autoImplicit false

namespace RabbitmqC

open Effect

/-- The earliest of the three deadlines. -/
def World.recvDeadline (world : World) (timeoutDeadline : UInt64) : UInt64 :=
  amqpTimeFirst timeoutDeadline (amqpTimeFirst world.nextRecvHeartbeat world.nextSendHeartbeat)

/-- `wait_frame_inner` after a heartbeat that was due has been sent; `none` where it
goes back to `beginrecv`. -/
def receiveStep (timeoutDeadline : UInt64) (fuel : Nat) : Call (Option (Except Status Unit)) := do
  let world ← get
  let deadline := world.recvDeadline timeoutDeadline
  match ← recvWithTimeout deadline fuel with
  | .error .timeout => do
      let world ← get
      if deadline = world.nextRecvHeartbeat then do
        let _ ← amqpSocketClose
        return some (.error .heartbeatTimeout)
      else if deadline = timeoutDeadline then
        return some (.error .timeout)
      else if deadline = world.nextSendHeartbeat then
        return none
      else
        throw (.fault .abort)
  | res => return some res

/-- Where `beginrecv` goes on after a receive step. -/
def afterReceive (timeoutDeadline : UInt64) (fuel : Nat) :
    Option (Except Status Unit) → Call (Except Status Unit)
  | none => beginRecv timeoutDeadline fuel
  | some res => return res

section Step

variable {timeoutDeadline : UInt64} {fuel : Nat} {before world late after : World}

theorem receiveStep_of_error {stop : Stop}
    (received : recvWithTimeout (world.recvDeadline timeoutDeadline) fuel world =
      .error stop after) :
    receiveStep timeoutDeadline fuel world = .error stop after := by
  unfold receiveStep
  rw [bind_of_ok (get_run world), bind_of_error received]

theorem receiveStep_of_ok
    (received : recvWithTimeout (world.recvDeadline timeoutDeadline) fuel world =
      .ok (.ok ()) after) :
    receiveStep timeoutDeadline fuel world = .ok (some (.ok ())) after := by
  unfold receiveStep
  rw [bind_of_ok (get_run world), bind_of_ok received]
  rfl

theorem receiveStep_of_status {status : Status} (other : status ≠ .timeout)
    (received : recvWithTimeout (world.recvDeadline timeoutDeadline) fuel world =
      .ok (.error status) after) :
    receiveStep timeoutDeadline fuel world = .ok (some (.error status)) after := by
  unfold receiveStep
  rw [bind_of_ok (get_run world), bind_of_ok received]
  cases status <;> first | rfl | exact absurd rfl other

/-- What the comparisons after a timeout come to. -/
theorem receiveStep_of_timeout
    (received : recvWithTimeout (world.recvDeadline timeoutDeadline) fuel world =
      .ok (.error .timeout) late) :
    receiveStep timeoutDeadline fuel world =
      if world.recvDeadline timeoutDeadline = late.nextRecvHeartbeat then
        (amqpSocketClose >>= fun _ => pure (some (.error .heartbeatTimeout))) late
      else if world.recvDeadline timeoutDeadline = timeoutDeadline then
        .ok (some (.error .timeout)) late
      else if world.recvDeadline timeoutDeadline = late.nextSendHeartbeat then
        .ok none late
      else
        .error (.fault .abort) late := by
  unfold receiveStep
  rw [bind_of_ok (get_run world), bind_of_ok received]
  dsimp only
  rw [bind_of_ok (get_run late)]
  split
  · rfl
  · split
    · rfl
    · split <;> rfl

theorem beginRecv_of_due (due : sendDueHeartbeat fuel before = .ok (.ok ()) world) :
    beginRecv timeoutDeadline (fuel + 1) before =
      (receiveStep timeoutDeadline fuel >>= afterReceive timeoutDeadline fuel) world := by
  unfold beginRecv
  rw [bind_of_ok due]
  dsimp only
  rw [bind_of_ok (get_run world)]
  cases received : recvWithTimeout (world.recvDeadline timeoutDeadline) fuel world with
  | error stop after =>
      rw [bind_of_error (receiveStep_of_error received)]
      exact bind_of_error received
  | ok result late =>
      cases result with
      | ok _ =>
          rw [bind_of_ok (receiveStep_of_ok received)]
          exact bind_of_ok received
      | error status =>
          by_cases timedOut : status = .timeout
          · subst timedOut
            have step := receiveStep_of_timeout received
            refine (bind_of_ok received).trans ?_
            dsimp only
            rw [bind_of_ok (get_run late)]
            by_cases dead : world.recvDeadline timeoutDeadline = late.nextRecvHeartbeat
            · rw [if_pos dead] at step
              rw [World.recvDeadline] at dead
              rw [if_pos dead]
              cases closed : amqpSocketClose late with
              | error stop after =>
                  rw [bind_of_error closed] at step ⊢
                  rw [bind_of_error step]
              | ok result after =>
                  rw [bind_of_ok closed] at step ⊢
                  rw [bind_of_ok step]
                  rfl
            · rw [if_neg dead] at step
              rw [World.recvDeadline] at dead
              rw [if_neg dead]
              by_cases ended : world.recvDeadline timeoutDeadline = timeoutDeadline
              · rw [if_pos ended] at step
                rw [World.recvDeadline] at ended
                rw [bind_of_ok step, if_pos ended]
                rfl
              · rw [if_neg ended] at step
                rw [World.recvDeadline] at ended
                rw [if_neg ended]
                by_cases due : world.recvDeadline timeoutDeadline = late.nextSendHeartbeat
                · rw [if_pos due] at step
                  rw [World.recvDeadline] at due
                  rw [bind_of_ok step, if_pos due]
                  rfl
                · rw [if_neg due] at step
                  rw [World.recvDeadline] at due
                  rw [bind_of_error step, if_neg due]
                  rfl
          · rw [bind_of_ok (receiveStep_of_status timedOut received)]
            refine (bind_of_ok received).trans ?_
            cases status <;> first | rfl | exact absurd rfl timedOut

theorem still_of_timeout {timeout : UInt64}
    (received : recvWithTimeout timeout fuel world = .ok (.error .timeout) late) :
    Still world late := by
  have obtains := obtains_recvWithTimeout.ok (refl_of Still world) received
  cases obtains with
  | inl still => exact still
  | inr takes => exact absurd rfl takes.1

end Step

/-! ## Which deadline has passed -/

theorem amqpTimeFirst_le (l r : UInt64) : amqpTimeFirst l r ≤ l ∧ amqpTimeFirst l r ≤ r := by
  unfold amqpTimeFirst
  split
  · exact ⟨UInt64.le_refl l, UInt64.le_of_lt ‹_›⟩
  · exact ⟨UInt64.not_lt.mp ‹_›, UInt64.le_refl r⟩

theorem amqpTimeFirst_eq (l r : UInt64) : amqpTimeFirst l r = l ∨ amqpTimeFirst l r = r := by
  unfold amqpTimeFirst
  split
  · exact .inl rfl
  · exact .inr rfl

theorem recvDeadline_le (world : World) (timeoutDeadline : UInt64) :
    world.recvDeadline timeoutDeadline ≤ timeoutDeadline ∧
      world.recvDeadline timeoutDeadline ≤ world.nextRecvHeartbeat ∧
      world.recvDeadline timeoutDeadline ≤ world.nextSendHeartbeat := by
  have outer := amqpTimeFirst_le timeoutDeadline
    (amqpTimeFirst world.nextRecvHeartbeat world.nextSendHeartbeat)
  have inner := amqpTimeFirst_le world.nextRecvHeartbeat world.nextSendHeartbeat
  exact ⟨outer.1, UInt64.le_trans outer.2 inner.1, UInt64.le_trans outer.2 inner.2⟩

/-- One of the three deadlines is the earliest, so that the reason is always found. -/
theorem recvDeadline_eq (world : World) (timeoutDeadline : UInt64) :
    world.recvDeadline timeoutDeadline = timeoutDeadline ∨
      world.recvDeadline timeoutDeadline = world.nextRecvHeartbeat ∨
      world.recvDeadline timeoutDeadline = world.nextSendHeartbeat := by
  unfold World.recvDeadline
  cases amqpTimeFirst_eq timeoutDeadline
      (amqpTimeFirst world.nextRecvHeartbeat world.nextSendHeartbeat) with
  | inl first => exact .inl first
  | inr second =>
      rw [second]
      exact .inr (amqpTimeFirst_eq _ _)

/-- What the result of a receive step says about the deadlines. -/
structure Classified (timeoutDeadline : UInt64) (fuel : Nat) (world : World) : Prop where
  timeout : ∀ after,
    receiveStep timeoutDeadline fuel world = .ok (some (.error .timeout)) after →
    timeoutDeadline ≤ world.nextRecvHeartbeat ∧ timeoutDeadline ≤ world.nextSendHeartbeat ∧
      timeoutDeadline ≠ world.nextRecvHeartbeat
  heartbeatTimeout : ∀ after,
    receiveStep timeoutDeadline fuel world = .ok (some (.error .heartbeatTimeout)) after →
    world.nextRecvHeartbeat ≤ timeoutDeadline ∧
      world.nextRecvHeartbeat ≤ world.nextSendHeartbeat ∧
      ∃ late closed,
        recvWithTimeout world.nextRecvHeartbeat fuel world = .ok (.error .timeout) late ∧
        amqpSocketClose late = .ok closed after
  /-- Any other timeout leads back to the check for a heartbeat that is due. -/
  otherwise : ∀ late, recvWithTimeout (world.recvDeadline timeoutDeadline) fuel world =
      .ok (.error .timeout) late →
    receiveStep timeoutDeadline fuel world = .ok (some (.error .timeout)) late ∨
    receiveStep timeoutDeadline fuel world =
      (amqpSocketClose >>= fun _ => pure (some (.error .heartbeatTimeout))) late ∨
    ∀ before, sendDueHeartbeat fuel before = .ok (.ok ()) world →
      beginRecv timeoutDeadline (fuel + 1) before = beginRecv timeoutDeadline fuel late

section Classified

variable {timeoutDeadline : UInt64} {fuel : Nat} {world late after : World}

/-- The cases after a timeout, by the deadlines before the step. -/
theorem receiveStep_timeout_cases
    (received : recvWithTimeout (world.recvDeadline timeoutDeadline) fuel world =
      .ok (.error .timeout) late) :
    world.recvDeadline timeoutDeadline = world.nextRecvHeartbeat ∧
        receiveStep timeoutDeadline fuel world =
          (amqpSocketClose >>= fun _ => pure (some (.error .heartbeatTimeout))) late ∨
      world.recvDeadline timeoutDeadline ≠ world.nextRecvHeartbeat ∧
        world.recvDeadline timeoutDeadline = timeoutDeadline ∧
        receiveStep timeoutDeadline fuel world = .ok (some (.error .timeout)) late ∨
      receiveStep timeoutDeadline fuel world = .ok none late := by
  have still := still_of_timeout received
  have step := receiveStep_of_timeout received
  rw [still.nextRecvHeartbeat, still.nextSendHeartbeat] at step
  by_cases dead : world.recvDeadline timeoutDeadline = world.nextRecvHeartbeat
  · rw [if_pos dead] at step
    exact .inl ⟨dead, step⟩
  · rw [if_neg dead] at step
    by_cases ended : world.recvDeadline timeoutDeadline = timeoutDeadline
    · rw [if_pos ended] at step
      exact .inr (.inl ⟨dead, ended, step⟩)
    · rw [if_neg ended] at step
      have due : world.recvDeadline timeoutDeadline = world.nextSendHeartbeat :=
        ((recvDeadline_eq world timeoutDeadline).resolve_left ended).resolve_left dead
      rw [if_pos due] at step
      exact .inr (.inr step)

/-- The ways in which a receive step returns. -/
inductive StepReturns (timeoutDeadline : UInt64) (fuel : Nat) (world : World) :
    Except Status Unit → World → Prop where
  | received {result : Except Status Unit} {after : World} :
      recvWithTimeout (world.recvDeadline timeoutDeadline) fuel world = .ok result after →
      result ≠ .error .timeout → StepReturns timeoutDeadline fuel world result after
  | dead {closed : Except Status Unit} {late after : World} :
      world.recvDeadline timeoutDeadline = world.nextRecvHeartbeat →
      recvWithTimeout (world.recvDeadline timeoutDeadline) fuel world =
        .ok (.error .timeout) late →
      amqpSocketClose late = .ok closed after →
      StepReturns timeoutDeadline fuel world (.error .heartbeatTimeout) after
  | ended {after : World} :
      world.recvDeadline timeoutDeadline ≠ world.nextRecvHeartbeat →
      world.recvDeadline timeoutDeadline = timeoutDeadline →
      StepReturns timeoutDeadline fuel world (.error .timeout) after

theorem stepReturns_of_receiveStep {result : Except Status Unit}
    (step : receiveStep timeoutDeadline fuel world = .ok (some result) after) :
    StepReturns timeoutDeadline fuel world result after := by
  cases received : recvWithTimeout (world.recvDeadline timeoutDeadline) fuel world with
  | error stop stopped =>
      rw [receiveStep_of_error received] at step
      cases step
  | ok obtained late =>
      cases obtained with
      | ok _ =>
          rw [receiveStep_of_ok received] at step
          cases step
          exact .received received (by simp)
      | error status =>
          by_cases timedOut : status = .timeout
          · subst timedOut
            obtain ⟨dead, closing⟩ | ⟨alive, ended, returns⟩ | again :=
              receiveStep_timeout_cases received
            · rw [closing] at step
              obtain ⟨closed, _, closes, returned⟩ := bind_eq_ok.mp step
              cases returned
              exact .dead dead received closes
            · rw [returns] at step
              cases step
              exact .ended alive ended
            · rw [again] at step
              cases step
          · rw [receiveStep_of_status timedOut received] at step
            cases step
            exact .received received (by simpa using timedOut)

theorem unaborted_receiveStep (timeoutDeadline : UInt64) (fuel : Nat) :
    Unaborted (receiveStep timeoutDeadline fuel) := by
  intro world after stop raised
  cases received : recvWithTimeout (world.recvDeadline timeoutDeadline) fuel world with
  | error stop after =>
      rw [receiveStep_of_error received] at raised
      cases raised
      exact unaborted_recvWithTimeout _ _ received
  | ok result late =>
      cases result with
      | ok _ =>
          rw [receiveStep_of_ok received] at raised
          cases raised
      | error status =>
          by_cases timedOut : status = .timeout
          · subst timedOut
            obtain ⟨_, step⟩ | ⟨_, _, step⟩ | step := receiveStep_timeout_cases received
            · rw [step] at raised
              exact (unaborted_socketClose.bind fun _ => .pure _) raised
            · rw [step] at raised
              cases raised
            · rw [step] at raised
              cases raised
          · rw [receiveStep_of_status timedOut received] at raised
            cases raised

end Classified

/-! ## Milliseconds taken for a code -/

/-- Before a poll the milliseconds until the deadline are narrowed to the number of
`AMQP_STATUS_HEARTBEAT_TIMEOUT`. -/
inductive PollMisreads (deadline : UInt64) : World → Prop where
  | reading {now : UInt64} {world : World} :
      ClockReads now world → deadline ≠ amqpTimeInfinite →
      (deadline.toNat - now.toNat) / 10 ^ 6 % 2 ^ 32 = 2 ^ 32 - 15 → PollMisreads deadline world
  | again {timeoutMs : Int} {answer : PollAnswer} {world timed polled : World} :
      amqpTimeMsUntil deadline { world with polls := world.polls ++ [deadline] } =
        .ok timeoutMs timed →
      Waiting.toReceive.poll timed = .ok answer polled →
      answer = .interrupted ∨ answer = .timedOut →
      PollMisreads deadline polled → PollMisreads deadline world

/-- This happens before one of the polls of a receive step. -/
inductive Misreads (deadline : UInt64) : World → Prop where
  | polls {status : Status} {world waiting : World} :
      amqpSocketRecv world = .ok (.error status) waiting → PollMisreads deadline waiting →
      Misreads deadline world
  | ready {status : Status} {fuel : Nat} {world waiting after : World} :
      amqpSocketRecv world = .ok (.error status) waiting →
      amqpPoll .toReceive deadline fuel waiting = .ok (.ok ()) after → Misreads deadline after →
      Misreads deadline world

section Misreads

variable {deadline : UInt64} {fuel : Nat} {world after : World}

theorem reads_of_timestamp {now : UInt64} (running : now ≠ 0)
    (read : amqpGetMonotonicTimestamp world = .ok now after) : ClockReads now world := by
  obtain ⟨rest, clock, _⟩ := ask_eq_ok read
  refine ⟨running, ?_⟩
  rw [clock]
  rfl

theorem misread_of_msUntil
    (returned : amqpTimeMsUntil deadline world = .ok Status.heartbeatTimeout.code after) :
    ∃ now, ClockReads now world ∧ deadline ≠ amqpTimeInfinite ∧
      (deadline.toNat - now.toNat) / 10 ^ 6 % 2 ^ 32 = 2 ^ 32 - 15 := by
  have finite : deadline ≠ amqpTimeInfinite := by
    intro infinite
    rw [amqpTimeMsUntil, if_pos infinite] at returned
    cases returned
  have later := returned
  rw [amqpTimeMsUntil, if_neg finite] at later
  by_cases zero : deadline = 0
  · rw [if_pos zero] at later
    cases later
  · rw [if_neg zero] at later
    obtain ⟨now, middle, read, later⟩ := bind_eq_ok.mp later
    by_cases stopped : now = 0
    · rw [if_pos stopped] at later
      cases later
    · have reads := reads_of_timestamp stopped read
      obtain ⟨_, narrowed⟩ := msUntil_of_reads reads finite
      rw [returned, EStateM.Result.ok.injEq] at narrowed
      obtain ⟨wraps, same, lower, upper⟩ :=
        intOfSize_spec ((deadline.toNat - now.toNat) / 10 ^ 6)
      have code : Status.heartbeatTimeout.code = -15 := rfl
      refine ⟨now, reads, finite, ?_⟩
      omega

theorem pollMisreads_of_poll
    (returned : amqpPoll .toReceive deadline fuel world = .ok (.error .heartbeatTimeout) after) :
    PollMisreads deadline world := by
  induction fuel generalizing world with
  | zero => cases returned
  | succ fuel ih =>
      unfold amqpPoll at returned
      obtain ⟨_, recorded, records, returned⟩ := bind_eq_ok.mp returned
      cases records
      obtain ⟨timeoutMs, timed, times, returned⟩ := bind_eq_ok.mp returned
      by_cases negative : -1 > timeoutMs
      · rw [if_pos negative] at returned
        have code : Status.ofCode timeoutMs = .heartbeatTimeout :=
          Except.error.inj (EStateM.Result.ok.inj returned).1
        have value : timeoutMs = Status.heartbeatTimeout.code := by
          rw [← code, Status.code_ofCode]
        rw [value] at times
        obtain ⟨now, reads, finite, narrowed⟩ := misread_of_msUntil times
        have readsBefore : ClockReads now world := reads
        exact .reading readsBefore finite narrowed
      · rw [if_neg negative] at returned
        obtain ⟨answer, polled, polls, returned⟩ := bind_eq_ok.mp returned
        cases answer with
        | ready => cases returned
        | failed => cases returned
        | interrupted => exact .again times polls (.inl rfl) (ih returned)
        | timedOut =>
            by_cases endless : timeoutMs = -1
            · simp only [if_pos endless] at returned
              exact .again times polls (.inr rfl) (ih returned)
            · simp only [if_neg endless] at returned
              cases returned

theorem socketRecv_error {status : Status}
    (returned : amqpSocketRecv world = .ok (.error status) after) :
    status ≠ .heartbeatTimeout := by
  unfold amqpSocketRecv at returned
  rw [bind_of_ok (get_run world)] at returned
  split at returned
  · obtain ⟨answer, asked, asks, returned⟩ := bind_eq_ok.mp returned
    cases answer with
    | data chunk => cases returned
    | needRead =>
        cases returned
        decide
    | needWrite =>
        cases returned
        decide
    | failed failure =>
        cases returned
        cases failure <;> decide
  · cases returned
    decide

theorem awaitHeartbeat_error {status : Status}
    (returned : awaitHeartbeat world = .ok (.error status) after) :
    status ≠ .heartbeatTimeout := by
  unfold awaitHeartbeat at returned
  rw [bind_of_ok (get_run world)] at returned
  obtain ⟨answer, middle, moved, returned⟩ := bind_eq_ok.mp returned
  obtain ⟨time, result⟩ := answer
  obtain ⟨_, _, _, returned⟩ := bind_eq_ok.mp returned
  have result : result = .error status := (EStateM.Result.ok.inj returned).1
  subst result
  obtain ⟨_, none, _⟩ | ⟨now, rest, _, _, late | ⟨_, point⟩⟩ := timeSFromNow_eq_ok moved
  · cases none
  · cases late.2
    decide
  · rw [timePointAfter_eq] at point
    have result := congrArg Prod.snd point
    dsimp only at result
    split at result
    · cases result
      decide
    · cases result

theorem misreads_of_recv
    (returned : recvWithTimeout deadline fuel world = .ok (.error .heartbeatTimeout) after) :
    Misreads deadline world := by
  induction fuel generalizing world with
  | zero => cases returned
  | succ fuel ih =>
      unfold recvWithTimeout at returned
      obtain ⟨received, middle, receives, returned⟩ := bind_eq_ok.mp returned
      cases received with
      | ok octets =>
          obtain ⟨_, filled, _, returned⟩ := bind_eq_ok.mp returned
          exact absurd rfl (awaitHeartbeat_error returned)
      | error status =>
          have other := socketRecv_error receives
          dsimp only at returned
          rw [bind_of_ok (get_run middle)] at returned
          by_cases isOpen : middle.socketOpen = true
          · rw [if_pos isOpen] at returned
            by_cases pending : status = .privateSocketNeedread ∨ status = .privateSocketNeedwrite
            · rw [if_pos pending] at returned
              obtain ⟨polled, next, polls, returned⟩ := bind_eq_ok.mp returned
              cases polled with
              | ok _ => exact .ready receives polls (ih returned)
              | error status =>
                  cases returned
                  exact .polls receives (pollMisreads_of_poll polls)
            · rw [if_neg pending] at returned
              cases returned
              exact absurd rfl other
          · rw [if_neg isOpen] at returned
            cases returned

theorem classified_of_read {timeoutDeadline : UInt64}
    (read : ¬Misreads (world.recvDeadline timeoutDeadline) world) :
    Classified timeoutDeadline fuel world := by
  have bounds := recvDeadline_le world timeoutDeadline
  constructor
  · intro after step
    cases stepReturns_of_receiveStep step with
    | received _ other => exact absurd rfl other
    | ended alive ended =>
        rw [ended] at bounds alive
        exact ⟨bounds.2.1, bounds.2.2, alive⟩
  · intro after step
    cases stepReturns_of_receiveStep step with
    | received received _ => exact absurd (misreads_of_recv received) read
    | dead dead received closes =>
        rw [dead] at bounds received
        exact ⟨bounds.1, bounds.2.2, _, _, received, closes⟩
  · intro late received
    obtain ⟨_, closing⟩ | ⟨_, _, ended⟩ | again := receiveStep_timeout_cases received
    · exact .inr (.inl closing)
    · exact .inl ended
    · refine .inr (.inr fun before due => ?_)
      rw [beginRecv_of_due due, bind_of_ok again]
      rfl

end Misreads

/-! ## Whole waits -/

/-- A wait that is at `beginrecv` comes to a receive step. Before each of them it is
checked whether a heartbeat is due. -/
inductive EntersStep (timeoutDeadline : UInt64) : Nat → World → Nat → World → Prop where
  | first {fuel : Nat} {before world : World} :
      sendDueHeartbeat fuel before = .ok (.ok ()) world →
      EntersStep timeoutDeadline (fuel + 1) before fuel world
  | again {fuel left : Nat} {before passed late world : World} :
      sendDueHeartbeat fuel before = .ok (.ok ()) passed →
      receiveStep timeoutDeadline fuel passed = .ok none late →
      EntersStep timeoutDeadline fuel late left world →
      EntersStep timeoutDeadline (fuel + 1) before left world

/-- A run of `wait_frame_inner` comes to a receive step. -/
inductive ReachesStep (timeoutDeadline : UInt64) : Nat → World → Nat → World → Prop where
  | drained {fuel left : Nat} {start before world : World} :
      drainToFrame fuel start = .ok (.ok none) before →
      EntersStep timeoutDeadline fuel before left world →
      ReachesStep timeoutDeadline (fuel + 1) start left world
  | filled {fuel left : Nat} {start before filled world : World} :
      drainToFrame fuel start = .ok (.ok none) before →
      beginRecv timeoutDeadline fuel before = .ok (.ok ()) filled →
      ReachesStep timeoutDeadline fuel filled left world →
      ReachesStep timeoutDeadline (fuel + 1) start left world

section Steps

variable {timeoutDeadline : UInt64} {fuel left : Nat} {start before world reached : World}

theorem EntersStep.sent (enters : EntersStep timeoutDeadline (fuel + 1) before left reached) :
    ∃ world, sendDueHeartbeat fuel before = .ok (.ok ()) world := by
  cases enters with
  | first due => exact ⟨_, due⟩
  | again due _ _ => exact ⟨_, due⟩

theorem entersStep_iff (due : sendDueHeartbeat fuel before = .ok (.ok ()) world) :
    EntersStep timeoutDeadline (fuel + 1) before left reached ↔
      (left = fuel ∧ reached = world) ∨
        ∃ late, receiveStep timeoutDeadline fuel world = .ok none late ∧
          EntersStep timeoutDeadline fuel late left reached := by
  constructor
  · intro enters
    cases enters with
    | first other =>
        cases due.symm.trans other
        exact .inl ⟨rfl, rfl⟩
    | again other step enters =>
        cases due.symm.trans other
        exact .inr ⟨_, step, enters⟩
  · rintro (⟨rfl, rfl⟩ | ⟨late, step, enters⟩)
    · exact .first due
    · exact .again due step enters

theorem ReachesStep.drains (reaches : ReachesStep timeoutDeadline (fuel + 1) start left reached) :
    ∃ before, drainToFrame fuel start = .ok (.ok none) before := by
  cases reaches with
  | drained drains _ => exact ⟨_, drains⟩
  | filled drains _ _ => exact ⟨_, drains⟩

theorem reachesStep_iff (drains : drainToFrame fuel start = .ok (.ok none) before) :
    ReachesStep timeoutDeadline (fuel + 1) start left reached ↔
      EntersStep timeoutDeadline fuel before left reached ∨
        ∃ filled, beginRecv timeoutDeadline fuel before = .ok (.ok ()) filled ∧
          ReachesStep timeoutDeadline fuel filled left reached := by
  constructor
  · intro reaches
    cases reaches with
    | drained other enters =>
        cases drains.symm.trans other
        exact .inl enters
    | filled other receives reaches =>
        cases drains.symm.trans other
        exact .inr ⟨_, receives, reaches⟩
  · rintro (enters | ⟨filled, receives, reaches⟩)
    · exact .drained drains enters
    · exact .filled drains receives reaches

end Steps

/-- Where a run of `wait_frame_inner` that fails has got its code from. -/
inductive WaitFails (timeoutDeadline : UInt64) (fuel : Nat) (start : World) (status : Status)
    (after : World) : Prop where
  | input {left : Nat} {world : World} :
      drainToFrame left world = .ok (.error status) after →
      WaitFails timeoutDeadline fuel start status after
  | heartbeat {left : Nat} {world : World} :
      sendDueHeartbeat left world = .ok (.error status) after →
      WaitFails timeoutDeadline fuel start status after
  | step {left : Nat} {world : World} :
      ReachesStep timeoutDeadline fuel start left world →
      receiveStep timeoutDeadline left world = .ok (some (.error status)) after →
      WaitFails timeoutDeadline fuel start status after

section Waits

variable {timeoutDeadline : UInt64} {fuel : Nat} {start before after : World} {status : Status}

theorem unaborted_beginRecv (timeoutDeadline : UInt64) (fuel : Nat) :
    Unaborted (beginRecv timeoutDeadline fuel) := by
  induction fuel with
  | zero => exact unaborted_outOfFuel
  | succ fuel ih =>
      intro before after stop raised
      cases due : sendDueHeartbeat fuel before with
      | error other stopped =>
          unfold beginRecv at raised
          rw [bind_of_error due] at raised
          cases raised
          exact unaborted_sendDueHeartbeat fuel due
      | ok result world =>
          cases result with
          | error status =>
              unfold beginRecv at raised
              rw [bind_of_ok due] at raised
              cases raised
          | ok _ =>
              rw [beginRecv_of_due due] at raised
              refine (unaborted_receiveStep timeoutDeadline fuel).bind (fun outcome => ?_) raised
              cases outcome with
              | none => exact ih
              | some result => exact .pure result

theorem unaborted_waitFrameInner (timeoutDeadline : UInt64) (fuel : Nat) :
    Unaborted (waitFrameInner timeoutDeadline fuel) := by
  induction fuel with
  | zero => exact unaborted_outOfFuel
  | succ fuel ih =>
      refine (unaborted_drainToFrame fuel).bind fun drained => ?_
      cases drained with
      | error status => exact .pure _
      | ok frame =>
          cases frame with
          | some frame => exact .pure _
          | none =>
              refine (unaborted_beginRecv timeoutDeadline fuel).bind fun received => ?_
              cases received with
              | error status => exact .pure _
              | ok _ => exact ih

theorem beginRecv_fails
    (returned : beginRecv timeoutDeadline fuel before = .ok (.error status) after) :
    (∃ left world, sendDueHeartbeat left world = .ok (.error status) after) ∨
      ∃ left world, EntersStep timeoutDeadline fuel before left world ∧
        receiveStep timeoutDeadline left world = .ok (some (.error status)) after := by
  induction fuel generalizing before with
  | zero => cases returned
  | succ fuel ih =>
      cases due : sendDueHeartbeat fuel before with
      | error stop stopped =>
          unfold beginRecv at returned
          rw [bind_of_error due] at returned
          cases returned
      | ok result world =>
          cases result with
          | error other =>
              unfold beginRecv at returned
              rw [bind_of_ok due] at returned
              cases returned
              exact .inl ⟨fuel, before, due⟩
          | ok _ =>
              rw [beginRecv_of_due due] at returned
              obtain ⟨outcome, late, step, returned⟩ := bind_eq_ok.mp returned
              cases outcome with
              | some result =>
                  cases returned
                  exact .inr ⟨fuel, world, .first due, step⟩
              | none =>
                  obtain sent | ⟨left, reached, enters, returns⟩ := ih returned
                  · exact .inl sent
                  · exact .inr ⟨left, reached, .again due step enters, returns⟩

theorem waitFails_of_waitFrameInner
    (returned : waitFrameInner timeoutDeadline fuel start = .ok (.error status) after) :
    WaitFails timeoutDeadline fuel start status after := by
  induction fuel generalizing start with
  | zero => cases returned
  | succ fuel ih =>
      unfold waitFrameInner at returned
      obtain ⟨drained, before, drains, returned⟩ := bind_eq_ok.mp returned
      cases drained with
      | error other =>
          cases returned
          exact .input drains
      | ok frame =>
          cases frame with
          | some frame => cases returned
          | none =>
              obtain ⟨received, filled, receives, returned⟩ := bind_eq_ok.mp returned
              cases received with
              | error other =>
                  cases returned
                  obtain ⟨left, world, sent⟩ | ⟨left, world, enters, step⟩ :=
                    beginRecv_fails receives
                  · exact .heartbeat sent
                  · exact .step (.drained drains enters) step
              | ok _ =>
                  cases ih returned with
                  | input failed => exact .input failed
                  | heartbeat failed => exact .heartbeat failed
                  | step reaches returns => exact .step (.filled drains receives reaches) returns

/-- No wait aborts, and a receive step, whether a wait comes to it or not, is classified, unless
the milliseconds until its deadline are taken for the code of a dead peer. -/
theorem waitFrameInner_classifies (timeoutDeadline : UInt64) (fuel : Nat) (start : World) :
    (∀ after, waitFrameInner timeoutDeadline fuel start ≠ .error (.fault .abort) after) ∧
    (∀ status after, waitFrameInner timeoutDeadline fuel start = .ok (.error status) after →
      WaitFails timeoutDeadline fuel start status after) ∧
    ∀ left world, ¬Misreads (world.recvDeadline timeoutDeadline) world →
      Classified timeoutDeadline left world := by
  refine ⟨?_, ?_, ?_⟩
  · intro after raised
    exact unaborted_waitFrameInner timeoutDeadline fuel raised rfl
  · intro status after returned
    exact waitFails_of_waitFrameInner returned
  · intro left world read
    exact classified_of_read read

end Waits

/-- The number comes back from `amqp_poll` as a code. -/
theorem poll_of_misread {now deadline : UInt64} {waiting : Waiting} {fuel : Nat} {world : World}
    (reads : ClockReads now world) (finite : deadline ≠ amqpTimeInfinite)
    (narrowed : (deadline.toNat - now.toNat) / 10 ^ 6 % 2 ^ 32 = 2 ^ 32 - 15) :
    ∃ after, amqpPoll waiting deadline (fuel + 1) world = .ok (.error .heartbeatTimeout) after ∧
      after.socketOpen = world.socketOpen := by
  have recorded : ClockReads now { world with polls := world.polls ++ [deadline] } := reads
  obtain ⟨after, times⟩ := msUntil_of_reads recorded finite
  obtain ⟨wraps, same, lower, upper⟩ := intOfSize_spec ((deadline.toNat - now.toNat) / 10 ^ 6)
  have value : intOfSize ((deadline.toNat - now.toNat) / 10 ^ 6) = -15 := by omega
  rw [value] at times
  refine ⟨after, ?_, ?_⟩
  · unfold amqpPoll recordPoll
    rw [bind_of_ok (modify_run _ world), bind_of_ok times, if_pos (by decide)]
    rfl
  · obtain ⟨script, polls, _, moved⟩ := (asks_timeMsUntil _).ok times
    rw [moved]

theorem recv_of_poll_error {deadline : UInt64} {fuel : Nat} {world waiting after : World}
    {code : Status} (receives : amqpSocketRecv world = .ok (.error .privateSocketNeedread) waiting)
    (isOpen : waiting.socketOpen = true)
    (polls : amqpPoll .toReceive deadline fuel waiting = .ok (.error code) after) :
    recvWithTimeout deadline (fuel + 1) world = .ok (.error code) after := by
  unfold recvWithTimeout
  rw [bind_of_ok receives]
  dsimp only
  rw [bind_of_ok (get_run waiting), if_pos isOpen, if_pos (.inl rfl), bind_of_ok polls]
  rfl

/-- A deadline is misread only at a time that the clock will show. -/
theorem PollMisreads.clock {deadline : UInt64} {world : World}
    (misreads : PollMisreads deadline world) :
    ∃ now ∈ world.script.clock,
      (deadline.toNat - now.toNat) / 10 ^ 6 % 2 ^ 32 = 2 ^ 32 - 15 := by
  induction misreads with
  | reading reads _ narrowed => exact ⟨_, List.mem_of_mem_head? reads.2, narrowed⟩
  | again times polls _ _ ih =>
      obtain ⟨now, member, narrowed⟩ := ih
      have timed := (still_of_asks ((asks_timeMsUntil _).ok times)).uses.clock
      have polled := (still_of_asks ((asks_waitingPoll _).ok polls)).uses.clock
      exact ⟨now, timed.mem (polled.mem member), narrowed⟩

theorem Misreads.clock {deadline : UInt64} {world : World} (misreads : Misreads deadline world) :
    ∃ now ∈ world.script.clock,
      (deadline.toNat - now.toNat) / 10 ^ 6 % 2 ^ 32 = 2 ^ 32 - 15 := by
  induction misreads with
  | polls receives misreads =>
      obtain ⟨now, member, narrowed⟩ := misreads.clock
      have received := (still_of_asks (asks_socketRecv.ok receives)).uses.clock
      exact ⟨now, received.mem member, narrowed⟩
  | ready receives polls _ ih =>
      obtain ⟨now, member, narrowed⟩ := ih
      have received := (still_of_asks (asks_socketRecv.ok receives)).uses.clock
      have polled := (still_of_asks ((asks_poll _ _ _).ok polls)).uses.clock
      exact ⟨now, received.mem (polled.mem member), narrowed⟩

/-- Nothing has arrived when the wait begins, and nothing arrives until `poll` gives up. -/
def idleWorld : World := World.new
  { clockScript 1 with
    recvs := [.needRead]
    recvPolls := [.timedOut] }

/-- A wait for nearly one second ends with a timeout. -/
theorem waitFrameInner_classifies_silent :
    ∃ left world after, ReachesStep 1000000000 5 idleWorld left world ∧
      receiveStep 1000000000 left world = .ok (some (.error .timeout)) after ∧
      Classified 1000000000 left world := by
  have reaches : ReachesStep 1000000000 5 idleWorld 3 idleWorld := .drained rfl (.first rfl)
  refine ⟨3, idleWorld, _, reaches, rfl, ?_⟩
  apply (waitFrameInner_classifies 1000000000 5 idleWorld).2.2 3 idleWorld
  intro misreads
  obtain ⟨now, member, narrowed⟩ := misreads.clock
  have only : now = 1 := List.mem_singleton.mp member
  subst only
  revert narrowed
  decide

/-- A wait for 4294967281 milliseconds ends at once as if the peer were dead. The
socket stays open, and a peer is not expected to be heard of at all. -/
theorem distant_timeout_misread :
    (∃ after, waitFrameInner 4294967281000001 5 idleWorld =
        .ok (.error .heartbeatTimeout) after ∧ after.socketOpen = true) ∧
      ¬∀ left world, ReachesStep 4294967281000001 5 idleWorld left world →
        Classified 4294967281000001 left world := by
  have receives : amqpSocketRecv idleWorld = .ok (.error .privateSocketNeedread)
      { idleWorld with script.recvs := [] } := rfl
  have reads : ClockReads 1 { idleWorld with script.recvs := [] } := ⟨by decide, rfl⟩
  obtain ⟨after, polls, isOpen⟩ := poll_of_misread (show ClockReads 1 _ from reads)
    (show (4294967281000001 : UInt64) ≠ amqpTimeInfinite by decide) (by decide)
  have received : recvWithTimeout 4294967281000001 3 idleWorld =
      .ok (.error .heartbeatTimeout) after := recv_of_poll_error receives rfl polls
  have step : receiveStep 4294967281000001 3 idleWorld =
      .ok (some (.error .heartbeatTimeout)) after :=
    receiveStep_of_status (by decide) received
  have due : sendDueHeartbeat 3 idleWorld = .ok (.ok ()) idleWorld := rfl
  have drained : drainToFrame 4 idleWorld = .ok (.ok none) idleWorld := rfl
  constructor
  · refine ⟨after, ?_, isOpen⟩
    unfold waitFrameInner
    rw [bind_of_ok drained]
    dsimp only
    rw [bind_of_ok ((beginRecv_of_due due).trans (bind_of_ok step))]
    rfl
  · intro classified
    have reached := classified 3 idleWorld (.drained drained (.first due))
    have earliest := (reached.heartbeatTimeout after step).1
    revert earliest
    decide

end RabbitmqC
