import RabbitmqC.Socket.WaitLoop

/-!
# Calls that do not close the socket

`amqp_socket_close` takes an answer from the script as long as the socket is open,
so that the answers that are left show whether it was called. Of the calls below an
RPC only `wait_frame_inner` closes the socket, when the peer is found dead.
-/

set_option autoImplicit false

namespace RabbitmqC

open Effect

/-- What only closing the socket changes. -/
def World.closing (world : World) : Bool × List Bool := (world.socketOpen, world.script.closes)

abbrev Spares {α : Type} (run : Call α) : Prop := Moves (Unchanged World.closing) run

theorem spares_ask {α : Type} {answers : Script → List α} {keep : Script → List α → Script}
    (kept : ∀ script rest, (keep script rest).closes = script.closes) :
    Spares (ask answers keep) := by
  refine Moves.get_bind fun world => ?_
  cases answers world.script with
  | nil => rfl
  | cons answer rest => exact congrArg (Prod.mk world.socketOpen) (kept world.script rest)

/-! ## Time -/

theorem spares_timestamp : Spares amqpGetMonotonicTimestamp := spares_ask fun _ _ => rfl

theorem spares_timeSFromNow (time : UInt64) (seconds : Int) :
    Spares (amqpTimeSFromNow time seconds) := by
  refine Moves.ite (fun _ => .pure) fun _ => ?_
  exact spares_timestamp.bind fun _ => .ite (fun _ => .pure) fun _ => .pure

theorem spares_timeFromNow (timeout : Option Timeval) : Spares (amqpTimeFromNow timeout) := by
  cases timeout with
  | none => exact .pure
  | some timeout =>
      unfold amqpTimeFromNow
      refine Moves.ite (fun _ => .pure) fun _ => spares_timestamp.bind fun now => ?_
      refine Moves.ite (fun _ => .pure) fun _ => ?_
      split
      exact .pure

theorem spares_timeMsUntil (time : UInt64) : Spares (amqpTimeMsUntil time) := by
  refine Moves.ite (fun _ => .pure) fun _ => .ite (fun _ => .pure) fun _ => ?_
  refine spares_timestamp.bind fun now => ?_
  exact .ite (fun _ => .pure) fun _ => .ite (fun _ => .pure) fun _ => .pure

theorem spares_timeHasPast (time : UInt64) : Spares (amqpTimeHasPast time) := by
  refine Moves.ite (fun _ => .pure) fun _ => spares_timestamp.bind fun now => ?_
  exact .ite (fun _ => .pure) fun _ => .ite (fun _ => .pure) fun _ => .pure

theorem spares_awaitHeartbeat : Spares awaitHeartbeat := by
  refine Moves.bind .get fun world => (spares_timeSFromNow _ _).bind fun answer => ?_
  exact Moves.bind (.modify fun _ => rfl) fun _ => .pure

theorem spares_scheduleHeartbeat : Spares scheduleHeartbeat := by
  refine Moves.bind .get fun world => (spares_timeSFromNow _ _).bind fun answer => ?_
  exact Moves.bind (.modify fun _ => rfl) fun _ => .pure

/-! ## The socket -/

theorem spares_poll (waiting : Waiting) (deadline : UInt64) (fuel : Nat) :
    Spares (amqpPoll waiting deadline fuel) := by
  have polls : Spares waiting.poll := by
    unfold Waiting.poll
    cases waiting with
    | toReceive => exact spares_ask fun _ _ => rfl
    | toSend => exact spares_ask fun _ _ => rfl
  induction fuel with
  | zero => exact .throw
  | succ fuel ih =>
      refine Moves.bind (.modify fun _ => rfl) fun _ => ?_
      refine (spares_timeMsUntil deadline).bind fun timeoutMs => ?_
      refine Moves.ite (fun _ => .pure) fun _ => polls.bind fun answer => ?_
      cases answer with
      | ready => exact .pure
      | timedOut => exact .ite (fun _ => ih) fun _ => .pure
      | interrupted => exact ih
      | failed => exact .pure

theorem spares_socketSend (buf : List UInt8) : Spares (amqpSocketSend buf) := by
  refine Moves.bind .get fun world => .ite (fun _ => ?_) fun _ => .pure
  have asks : Spares (ask (·.sends) fun script sends => { script with sends }) :=
    spares_ask fun _ _ => rfl
  refine asks.bind fun answer => ?_
  cases answer with
  | accepted count => exact Moves.bind (.modify fun _ => rfl) fun _ => .pure
  | needRead => exact .pure
  | needWrite => exact .pure
  | failed failure => exact .pure

theorem spares_socketRecv : Spares amqpSocketRecv := by
  refine Moves.bind .get fun world => .ite (fun _ => ?_) fun _ => .pure
  have asks : Spares (ask (·.recvs) fun script recvs => { script with recvs }) :=
    spares_ask fun _ _ => rfl
  refine asks.bind fun answer => ?_
  cases answer <;> exact .pure

theorem spares_doPoll (res : Except Status Unit) (deadline : UInt64) (fuel : Nat) :
    Spares (doPoll res deadline fuel) := by
  refine Moves.bind .get fun world => .ite (fun _ => ?_) fun _ => .pure
  cases res with
  | ok _ => exact .pure
  | error status => cases status <;> first | exact spares_poll _ _ _ | exact .pure

theorem spares_trySend (len : Nat) (deadline : UInt64) (fuel : Nat) (left : List UInt8) :
    Spares (trySendLeft len deadline fuel left) := by
  induction fuel generalizing left with
  | zero => exact .throw
  | succ fuel ih =>
      refine (spares_socketSend left).bind fun sent => ?_
      cases sent with
      | error status =>
          refine (spares_doPoll _ _ _).bind fun polled => ?_
          cases polled with
          | ok _ => exact ih left
          | error status => cases status <;> exact .pure
      | ok count =>
          cases count with
          | zero =>
              refine (spares_doPoll _ _ _).bind fun polled => ?_
              cases polled with
              | ok _ => exact ih left
              | error status => cases status <;> exact .pure
          | succ count => exact .ite (fun _ => .pure) fun _ => ih _

theorem spares_recvWithTimeout (timeout : UInt64) (fuel : Nat) :
    Spares (recvWithTimeout timeout fuel) := by
  induction fuel with
  | zero => exact .throw
  | succ fuel ih =>
      refine spares_socketRecv.bind fun received => ?_
      cases received with
      | ok octets => exact Moves.bind (.modify fun _ => rfl) fun _ => spares_awaitHeartbeat
      | error status =>
          refine Moves.bind .get fun world => .ite (fun _ => ?_) fun _ => .pure
          refine Moves.ite (fun _ => ?_) fun _ => .pure
          refine (spares_poll _ _ _).bind fun polled => ?_
          cases polled with
          | ok _ => exact ih
          | error status => exact .pure

/-! ## Frames -/

theorem spares_consumeOneFrame : Spares consumeOneFrame := by
  refine Moves.get_bind fun world => ?_
  cases amqpHandleInput (world.script.memory world.framesRead) world.reader world.unread with
  | error fault => rfl
  | ok handled =>
      dsimp only
      cases handled.result with
      | error status => rfl
      | ok res => rfl

theorem spares_allocateLink : Spares allocateLink := by
  refine Moves.get_bind fun world => ?_
  cases world.script.links with
  | nil => rfl
  | cons granted links => rfl

theorem spares_linkPool (channel : UInt16) : Spares (linkPool channel) := by
  refine Moves.bind .get fun world => .ite (fun _ => .pure) fun _ => ?_
  refine spares_allocateLink.bind fun granted => ?_
  exact .ite (fun _ => Moves.bind (.modify fun _ => rfl) fun _ => .pure) fun _ => .pure

theorem spares_createLinkForFrame (frame : Frame) : Spares (amqpCreateLinkForFrame frame) := by
  refine (spares_linkPool frame.channel).bind fun pool => .ite (fun _ => ?_) fun _ => .pure
  refine spares_allocateLink.bind fun link => spares_allocateLink.bind fun frameCopy => ?_
  exact .ite (fun _ => .get_bind fun _ => rfl) fun _ => .pure

theorem spares_queueReceived (frame : Frame) : Spares (queueReceived frame) := by
  refine (spares_createLinkForFrame frame).bind fun link => ?_
  cases link with
  | none => exact .pure
  | some link => exact Moves.bind (.modify fun _ => rfl) fun _ => .pure

theorem spares_maybeReleaseBuffersOnChannel (channel : UInt16) :
    Spares (amqpMaybeReleaseBuffersOnChannel channel) := by
  refine Moves.get_bind fun world => ?_
  by_cases idle : world.reader.state ≠ .idle
  · rw [if_pos idle]
    rfl
  · rw [if_neg idle]
    cases world.queue.find (fun frame => channel == frame.channel) world.queue.reach
      world.queue.first with
    | some link => rfl
    | none =>
        dsimp only
        split <;> rfl

theorem spares_releaseBuffers : Spares amqpReleaseBuffers := by
  have each (channels : List UInt16) : Spares (releaseEach channels) := by
    induction channels with
    | nil => exact .pure
    | cons channel channels ih =>
        exact (spares_maybeReleaseBuffersOnChannel channel).bind fun _ => ih
  exact Moves.bind .get fun world => .ite (fun _ => .throw) fun _ => each _

theorem spares_tryRecv (fuel : Nat) : Spares (amqpTryRecv fuel) := by
  induction fuel with
  | zero => exact .throw
  | succ fuel ih =>
      refine Moves.bind .get fun world => .ite (fun _ => ?_) fun _ => ?_
      · refine spares_consumeOneFrame.bind fun consumed => ?_
        cases consumed with
        | error status => exact .pure
        | ok frame =>
            refine .ite (fun _ => ?_) fun _ => ih
            refine (spares_queueReceived frame).bind fun queued => ?_
            cases queued with
            | error status => exact .pure
            | ok _ => exact ih
      · refine (spares_timeSFromNow 0 0).bind fun answer => ?_
        obtain ⟨timeout, res⟩ := answer
        cases res with
        | error status => exact .pure
        | ok _ => exact spares_recvWithTimeout timeout fuel

theorem spares_encodeOutbound (frame : Frame) : Spares (encodeOutbound frame) := by
  refine Moves.get_bind fun world => ?_
  cases amqpFrameToBytes frame world.outbound.size world.outbound with
  | ok count outbound => rfl
  | error failure outbound =>
      cases failure with
      | status status => rfl
      | fault fault => rfl

theorem spares_sendEncoded (deadline : UInt64) (fuel : Nat) (encoded : List UInt8) :
    Spares (sendEncoded deadline fuel encoded) := by
  induction fuel generalizing encoded with
  | zero => exact .throw
  | succ fuel ih =>
      refine Moves.bind .get fun world => (spares_trySend _ _ _ _).bind fun sent => ?_
      cases sent with
      | error status => exact .pure
      | ok sent =>
          refine .ite (fun _ => spares_scheduleHeartbeat) fun _ => .ite (fun _ => .pure) ?_
          intro _
          refine (spares_tryRecv fuel).bind fun received => ?_
          cases received with
          | ok _ => exact ih _
          | error status => cases status <;> exact .pure

theorem spares_sendFrameInner (frame : Frame) (flags : SendFlags) (deadline : UInt64)
    (fuel : Nat) : Spares (amqpSendFrameInner frame flags deadline fuel) := by
  refine (spares_encodeOutbound frame).bind fun encoded => ?_
  cases encoded with
  | error status => exact .pure
  | ok encoded => exact Moves.bind (.modify fun _ => rfl) fun _ => spares_sendEncoded _ _ _

theorem spares_drainToFrame (fuel : Nat) : Spares (drainToFrame fuel) := by
  induction fuel with
  | zero => exact .throw
  | succ fuel ih =>
      refine Moves.bind .get fun world => .ite (fun _ => ?_) fun _ => .pure
      refine spares_consumeOneFrame.bind fun consumed => ?_
      cases consumed with
      | error status => exact .pure
      | ok frame =>
          refine .ite (fun _ => ?_) fun _ => .ite (fun _ => .pure) fun _ => ih
          exact (spares_maybeReleaseBuffersOnChannel 0).bind fun _ => ih

theorem spares_sendDueHeartbeat (fuel : Nat) : Spares (sendDueHeartbeat fuel) := by
  refine Moves.bind .get fun world => (spares_timeHasPast _).bind fun past => ?_
  cases past with
  | ok _ => exact .pure
  | error status =>
      cases status <;> first | exact spares_sendFrameInner _ _ _ _ | exact .pure

/-! ## Closing -/

/-- `amqp_socket_close` was called on an open socket. -/
def CloseCalled (before after : World) : Prop :=
  after.script.closes.length < before.script.closes.length

theorem CloseCalled.of_unchanged {before middle after : World}
    (spared : Unchanged World.closing before middle) (closed : CloseCalled middle after) :
    CloseCalled before after := by
  unfold CloseCalled at closed ⊢
  rwa [show middle.script.closes = before.script.closes from congrArg Prod.snd spared] at closed

theorem socketClose_length {before after : World} {result : Except Status Unit}
    (returned : amqpSocketClose before = .ok result after) :
    after.script.closes.length ≤ before.script.closes.length ∧
      (before.socketOpen = true → CloseCalled before after) := by
  unfold amqpSocketClose at returned
  rw [bind_of_ok (get_run before)] at returned
  by_cases isOpen : before.socketOpen = true
  · rw [if_pos isOpen] at returned
    obtain ⟨answer, asked, asks, returned⟩ := bind_eq_ok.mp returned
    obtain ⟨rest, closes, rfl⟩ := ask_eq_ok asks
    have shorter : rest.length < before.script.closes.length := by
      rw [closes]
      exact Nat.lt_succ_self _
    cases answer with
    | true =>
        cases returned
        exact ⟨Nat.le_of_lt shorter, fun _ => shorter⟩
    | false =>
        cases returned
        exact ⟨Nat.le_of_lt shorter, fun _ => shorter⟩
  · rw [if_neg isOpen] at returned
    cases returned
    exact ⟨Nat.le_refl _, fun isOpen' => absurd isOpen' isOpen⟩

/-! ## Waiting -/

/-- At a receive step, nothing comes from the peer until it counts as dead. -/
def StepFindsDead (timeoutDeadline : UInt64) (fuel : Nat) (world : World) : Prop :=
  world.recvDeadline timeoutDeadline = world.nextRecvHeartbeat ∧
    ∃ late, recvWithTimeout (world.recvDeadline timeoutDeadline) fuel world =
      .ok (.error .timeout) late

/-- A wait comes to such a step. -/
def FindsDead (timeoutDeadline : UInt64) (fuel : Nat) (start : World) : Prop :=
  ∃ left world, ReachesStep timeoutDeadline fuel start left world ∧
    StepFindsDead timeoutDeadline left world

section Waiting

variable {timeoutDeadline : UInt64} {fuel : Nat} {start before world after : World}

theorem receiveStep_spares {outcome : Option (Except Status Unit)}
    (alive : ¬StepFindsDead timeoutDeadline fuel world)
    (step : receiveStep timeoutDeadline fuel world = .ok outcome after) :
    Unchanged World.closing world after := by
  cases received : recvWithTimeout (world.recvDeadline timeoutDeadline) fuel world with
  | error stop stopped =>
      rw [receiveStep_of_error received] at step
      cases step
  | ok result late =>
      have spared := (spares_recvWithTimeout _ _).ok received
      cases result with
      | ok _ =>
          rw [receiveStep_of_ok received] at step
          cases step
          exact spared
      | error status =>
          by_cases timedOut : status = .timeout
          · subst timedOut
            obtain ⟨dead, _⟩ | ⟨_, _, ended⟩ | again := receiveStep_timeout_cases received
            · exact absurd ⟨dead, late, received⟩ alive
            · rw [ended] at step
              cases step
              exact spared
            · rw [again] at step
              cases step
              exact spared
          · rw [receiveStep_of_status timedOut received] at step
            cases step
            exact spared

theorem receiveStep_closes {outcome : Option (Except Status Unit)} (isOpen : world.socketOpen = true)
    (dead : StepFindsDead timeoutDeadline fuel world)
    (step : receiveStep timeoutDeadline fuel world = .ok outcome after) :
    outcome = some (.error .heartbeatTimeout) ∧ CloseCalled world after := by
  obtain ⟨isDeath, late, received⟩ := dead
  have spared := (spares_recvWithTimeout _ _).ok received
  have closing := receiveStep_of_timeout received
  rw [if_pos (isDeath.trans (still_of_timeout received).nextRecvHeartbeat.symm)] at closing
  rw [closing] at step
  obtain ⟨result, closed, closes, returned⟩ := bind_eq_ok.mp step
  cases returned
  have stillOpen : late.socketOpen = true := (congrArg Prod.fst spared).trans isOpen
  exact ⟨rfl, .of_unchanged spared ((socketClose_length closes).2 stillOpen)⟩

/-- How a wait leaves the socket: it is spared, or it is closed since the peer is dead. -/
inductive WaitLeaves {α : Type} (dead : Prop) (before : World) :
    Except Status α → World → Prop where
  | spared {result : Except Status α} {after : World} :
      ¬dead → Unchanged World.closing before after → WaitLeaves dead before result after
  | closed {after : World} :
      dead → CloseCalled before after → WaitLeaves dead before (.error .heartbeatTimeout) after

theorem WaitLeaves.of_unchanged {α : Type} {dead other : Prop} {result : Except Status α}
    (spared : Unchanged World.closing start before) (same : other ↔ dead)
    (leaves : WaitLeaves dead before result after) : WaitLeaves other start result after := by
  cases leaves with
  | spared alive unchanged =>
      exact .spared (fun isDead => alive (same.mp isDead)) (unchanged.trans spared)
  | closed dead closed => exact .closed (same.mpr dead) (.of_unchanged spared closed)

theorem WaitLeaves.of_error {α β : Type} {dead : Prop} {status : Status}
    (leaves : WaitLeaves dead before (.error status : Except Status α) after) :
    WaitLeaves dead before (.error status : Except Status β) after := by
  cases leaves with
  | spared alive unchanged => exact .spared alive unchanged
  | closed dead closed => exact .closed dead closed

/-- Behind a step that does not find the peer dead, it is up to the later ones. -/
theorem findsDead_of_due (due : sendDueHeartbeat fuel before = .ok (.ok ()) world)
    (alive : ¬StepFindsDead timeoutDeadline fuel world) :
    (∃ left reached, EntersStep timeoutDeadline (fuel + 1) before left reached ∧
        StepFindsDead timeoutDeadline left reached) ↔
      ∃ late, receiveStep timeoutDeadline fuel world = .ok none late ∧
        ∃ left reached, EntersStep timeoutDeadline fuel late left reached ∧
          StepFindsDead timeoutDeadline left reached := by
  simp only [entersStep_iff due]
  constructor
  · rintro ⟨left, reached, ⟨rfl, rfl⟩ | ⟨late, step, enters⟩, dead⟩
    · exact absurd dead alive
    · exact ⟨late, step, left, reached, enters, dead⟩
  · rintro ⟨late, step, left, reached, enters, dead⟩
    exact ⟨left, reached, .inr ⟨late, step, enters⟩, dead⟩

theorem beginRecv_leaves {result : Except Status Unit} (isOpen : before.socketOpen = true)
    (returned : beginRecv timeoutDeadline fuel before = .ok result after) :
    WaitLeaves (∃ left world, EntersStep timeoutDeadline fuel before left world ∧
      StepFindsDead timeoutDeadline left world) before result after := by
  induction fuel generalizing before with
  | zero => cases returned
  | succ fuel ih =>
      cases due : sendDueHeartbeat fuel before with
      | error stop stopped =>
          unfold beginRecv at returned
          rw [bind_of_error due] at returned
          cases returned
      | ok sent world =>
          have spared := (spares_sendDueHeartbeat fuel).ok due
          cases sent with
          | error status =>
              unfold beginRecv at returned
              rw [bind_of_ok due] at returned
              cases returned
              refine .spared ?_ spared
              rintro ⟨left, reached, enters, _⟩
              obtain ⟨_, sent⟩ := enters.sent
              cases due.symm.trans sent
          | ok _ =>
              have stillOpen : world.socketOpen = true := (congrArg Prod.fst spared).trans isOpen
              rw [beginRecv_of_due due] at returned
              obtain ⟨outcome, late, step, returned⟩ := bind_eq_ok.mp returned
              by_cases dead : StepFindsDead timeoutDeadline fuel world
              · obtain ⟨rfl, closed⟩ := receiveStep_closes stillOpen dead step
                cases returned
                exact .closed ⟨fuel, world, .first due, dead⟩ (.of_unchanged spared closed)
              · have unchanged := receiveStep_spares dead step
                have later := findsDead_of_due due dead
                rw [step] at later
                cases outcome with
                | some result =>
                    cases returned
                    refine .spared (fun finds => ?_) (unchanged.trans spared)
                    obtain ⟨_, again, _⟩ := later.mp finds
                    cases again
                | none =>
                    have lateOpen : late.socketOpen = true :=
                      (congrArg Prod.fst unchanged).trans stillOpen
                    refine (ih lateOpen returned).of_unchanged (unchanged.trans spared) ?_
                    rw [later]
                    constructor
                    · rintro ⟨_, again, finds⟩
                      cases again
                      exact finds
                    · intro finds
                      exact ⟨late, rfl, finds⟩

theorem waitFrameInner_leaves {result : Except Status Frame} (isOpen : start.socketOpen = true)
    (returned : waitFrameInner timeoutDeadline fuel start = .ok result after) :
    WaitLeaves (FindsDead timeoutDeadline fuel start) start result after := by
  induction fuel generalizing start with
  | zero => cases returned
  | succ fuel ih =>
      unfold waitFrameInner at returned
      obtain ⟨drained, before, drains, returned⟩ := bind_eq_ok.mp returned
      have spared := (spares_drainToFrame fuel).ok drains
      have unreached (full : drained ≠ .ok none) : ¬FindsDead timeoutDeadline (fuel + 1) start := by
        rintro ⟨left, world, reaches, _⟩
        obtain ⟨_, empty⟩ := reaches.drains
        cases drains.symm.trans empty
        exact full rfl
      cases drained with
      | error status =>
          cases returned
          exact .spared (unreached (by simp)) spared
      | ok frame =>
          cases frame with
          | some frame =>
              cases returned
              exact .spared (unreached (by simp)) spared
          | none =>
              have stillOpen : before.socketOpen = true := (congrArg Prod.fst spared).trans isOpen
              obtain ⟨received, filled, receives, returned⟩ := bind_eq_ok.mp returned
              have leaves := beginRecv_leaves stillOpen receives
              unfold FindsDead at ih ⊢
              simp only [reachesStep_iff drains, receives]
              cases received with
              | error status =>
                  cases returned
                  refine leaves.of_error.of_unchanged spared ?_
                  constructor
                  · rintro ⟨left, world, enters | ⟨_, fills, _⟩, isDead⟩
                    · exact ⟨left, world, enters, isDead⟩
                    · cases fills
                  · rintro ⟨left, world, enters, isDead⟩
                    exact ⟨left, world, .inl enters, isDead⟩
              | ok _ =>
                  cases leaves with
                  | spared alive unchanged =>
                      have filledOpen : filled.socketOpen = true :=
                        (congrArg Prod.fst unchanged).trans stillOpen
                      refine (ih filledOpen returned).of_unchanged (unchanged.trans spared) ?_
                      constructor
                      · rintro ⟨left, world, enters | ⟨_, fills, reaches⟩, isDead⟩
                        · exact absurd ⟨left, world, enters, isDead⟩ alive
                        · cases fills
                          exact ⟨left, world, reaches, isDead⟩
                      · rintro ⟨left, world, reaches, isDead⟩
                        exact ⟨left, world, .inr ⟨filled, rfl, reaches⟩, isDead⟩

end Waiting

end RabbitmqC
