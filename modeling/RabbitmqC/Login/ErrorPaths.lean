import RabbitmqC.Login.Phases
import RabbitmqC.Socket.Sparing

/-!
# The error paths of a login

The steps of `amqp_login_inner` close the socket on every error, by way of
`error_res`. The RPC at its end is on its own: `simple_rpc_inner` closes the socket
on a timeout only.
-/

set_option autoImplicit false

namespace RabbitmqC

open Effect

/-! ## The last RPC -/

/-- Waiting for the reply fails with the socket as it was: the wait fails other than by a
timeout or a dead peer, or a frame cannot be queued. -/
inductive ReplyLost (channel : UInt16) (expectedReplyIds : List UInt32) (deadline : UInt64) :
    Nat → World → Prop where
  | unreceived {fuel : Nat} {status : Status} {world after : World} :
      waitFrameInner deadline fuel world = .ok (.error status) after → status ≠ .timeout →
      ¬FindsDead deadline fuel world →
      ReplyLost channel expectedReplyIds deadline (fuel + 1) world
  | unqueued {fuel : Nat} {frame : Frame} {status : Status} {world waited after : World} :
      waitFrameInner deadline fuel world = .ok (.ok frame) waited →
      rpcReply? channel expectedReplyIds frame = none →
      queueReceived frame waited = .ok (.error status) after →
      ReplyLost channel expectedReplyIds deadline (fuel + 1) world
  | again {fuel : Nat} {frame : Frame} {world waited queued : World} :
      waitFrameInner deadline fuel world = .ok (.ok frame) waited →
      rpcReply? channel expectedReplyIds frame = none →
      queueReceived frame waited = .ok (.ok ()) queued →
      ReplyLost channel expectedReplyIds deadline fuel queued →
      ReplyLost channel expectedReplyIds deadline (fuel + 1) world

/-- The request is not sent, or its reply is lost. -/
inductive RpcLost (channel : UInt16) (requestId : UInt32) (expectedReplyIds : List UInt32)
    (decodedRequestMethod : MethodFields requestId) (deadline : UInt64) (fuel : Nat)
    (world : World) : Prop where
  | unsent {status : Status} {after : World} :
      amqpSendMethod channel requestId decodedRequestMethod fuel world =
        .ok (.error status) after →
      RpcLost channel requestId expectedReplyIds decodedRequestMethod deadline fuel world
  | unanswered {sent : World} :
      amqpSendMethod channel requestId decodedRequestMethod fuel world = .ok (.ok ()) sent →
      ReplyLost channel expectedReplyIds deadline fuel sent →
      RpcLost channel requestId expectedReplyIds decodedRequestMethod deadline fuel world

section Rpc

variable {channel : UInt16} {expectedReplyIds : List UInt32} {deadline : UInt64} {fuel : Nat}
  {world after : World} {status : Status}

theorem waitReply_of_lost (lost : ReplyLost channel expectedReplyIds deadline fuel world)
    (isOpen : world.socketOpen = true) :
    ∃ status after, waitReply channel expectedReplyIds deadline fuel world =
        .ok (.libraryException status) after ∧ Unchanged World.closing world after := by
  induction lost with
  | @unreceived fuel status world after waits notTimeout alive =>
      refine ⟨status, after, ?_, ?_⟩
      · unfold waitReply
        rw [bind_of_ok waits]
        cases status <;> first | rfl | exact absurd rfl notTimeout
      · cases waitFrameInner_leaves isOpen waits with
        | spared _ unchanged => exact unchanged
        | closed dead _ => exact absurd dead alive
  | @unqueued fuel frame status world waited after waits notReply queues =>
      have spared := (spares_queueReceived frame).ok queues
      refine ⟨status, after, ?_, ?_⟩
      · unfold waitReply
        rw [bind_of_ok waits]
        dsimp only
        rw [notReply]
        dsimp only
        rw [bind_of_ok queues]
        rfl
      · cases waitFrameInner_leaves isOpen waits with
        | spared _ unchanged => exact spared.trans unchanged
  | @again fuel frame world waited queued waits notReply queues _ ih =>
      have spared := (spares_queueReceived frame).ok queues
      cases waitFrameInner_leaves isOpen waits with
      | spared _ unchanged =>
          have still := spared.trans unchanged
          obtain ⟨status, after, returns, later⟩ := ih ((congrArg Prod.fst still).trans isOpen)
          refine ⟨status, after, ?_, later.trans still⟩
          unfold waitReply
          rw [bind_of_ok waits]
          dsimp only
          rw [notReply]
          dsimp only
          rw [bind_of_ok queues]
          exact returns

theorem rpcReply?_ne_libraryException {frame : Frame} :
    rpcReply? channel expectedReplyIds frame ≠ some (.libraryException status) := by
  intro answered
  obtain ⟨method, selects⟩ := selects_of_rpcReply? answered
  rw [rpcReply?_of_selects selects] at answered
  split at answered <;> cases answered

theorem closeCalled_of_waitReply (kept : ¬ReplyLost channel expectedReplyIds deadline fuel world)
    (isOpen : world.socketOpen = true)
    (returned : waitReply channel expectedReplyIds deadline fuel world =
      .ok (.libraryException status) after) : CloseCalled world after := by
  induction fuel generalizing world with
  | zero => cases returned
  | succ fuel ih =>
      unfold waitReply at returned
      obtain ⟨result, waited, waits, returned⟩ := bind_eq_ok.mp returned
      have leaves := waitFrameInner_leaves isOpen waits
      cases result with
      | error failure =>
          cases leaves with
          | closed _ closed =>
              cases returned
              exact closed
          | spared alive unchanged =>
              by_cases timedOut : failure = .timeout
              · subst timedOut
                obtain ⟨_, closed, closes, returned⟩ := bind_eq_ok.mp returned
                cases returned
                have stillOpen : waited.socketOpen = true :=
                  (congrArg Prod.fst unchanged).trans isOpen
                exact .of_unchanged unchanged ((socketClose_length closes).2 stillOpen)
              · exact absurd (.unreceived waits timedOut alive) kept
      | ok frame =>
          cases leaves with
          | spared _ unchanged =>
              dsimp only at returned
              cases answer : rpcReply? channel expectedReplyIds frame with
              | some reply =>
                  rw [answer] at returned
                  cases returned
                  exact absurd answer rpcReply?_ne_libraryException
              | none =>
                  rw [answer] at returned
                  obtain ⟨queued, final, queues, returned⟩ := bind_eq_ok.mp returned
                  have spared := (spares_queueReceived frame).ok queues
                  cases queued with
                  | error failure => exact absurd (.unqueued waits answer queues) kept
                  | ok _ =>
                      have still := spared.trans unchanged
                      refine .of_unchanged still (ih ?_ ?_ returned)
                      · intro lost
                        exact kept (.again waits answer queues lost)
                      · exact (congrArg Prod.fst still).trans isOpen

section Request

variable {requestId : UInt32} {decodedRequestMethod : MethodFields requestId}

theorem simpleRpcInner_of_lost
    (lost : RpcLost channel requestId expectedReplyIds decodedRequestMethod deadline fuel world)
    (isOpen : world.socketOpen = true) :
    ∃ status after, simpleRpcInner channel requestId expectedReplyIds decodedRequestMethod deadline
        fuel world = .ok (.libraryException status) after ∧
      Unchanged World.closing world after := by
  cases lost with
  | @unsent status after sends =>
      refine ⟨status, after, ?_, (spares_sendFrameInner _ _ _ _).ok sends⟩
      unfold simpleRpcInner
      rw [bind_of_ok sends]
      rfl
  | @unanswered sent sends lost =>
      have spared := (spares_sendFrameInner _ _ _ _).ok sends
      obtain ⟨status, after, returns, unchanged⟩ :=
        waitReply_of_lost lost ((congrArg Prod.fst spared).trans isOpen)
      refine ⟨status, after, ?_, unchanged.trans spared⟩
      unfold simpleRpcInner
      rw [bind_of_ok sends]
      exact returns

theorem closeCalled_of_simpleRpcInner
    (kept : ¬RpcLost channel requestId expectedReplyIds decodedRequestMethod deadline fuel world)
    (isOpen : world.socketOpen = true)
    (returned : simpleRpcInner channel requestId expectedReplyIds decodedRequestMethod deadline fuel
      world = .ok (.libraryException status) after) : CloseCalled world after := by
  obtain ⟨result, sent, sends, returned⟩ := bind_eq_ok.mp returned
  cases result with
  | error failure => exact absurd (.unsent sends) kept
  | ok _ =>
      have spared := (spares_sendFrameInner _ _ _ _).ok sends
      apply CloseCalled.of_unchanged spared
      apply closeCalled_of_waitReply _ ((congrArg Prod.fst spared).trans isOpen) returned
      intro lost
      exact kept (.unanswered sends lost)

end Request

end Rpc

/-! ## The steps before -/

/-- How a step ends that starts with the socket of `start`: an error may have closed it. -/
inductive StepLeaves {α : Type} (start : World) : Except Status α → World → Prop where
  | spared {result : Except Status α} {after : World} :
      Unchanged World.closing start after → StepLeaves start result after
  | closed {status : Status} {after : World} :
      CloseCalled start after → StepLeaves start (.error status) after

/-- The step closes the socket only together with an error. -/
def ClosesOnError {α : Type} (run : Call (Except Status α)) : Prop :=
  ∀ ⦃start result after⦄, start.socketOpen = true → run start = .ok result after →
    StepLeaves start result after

section Steps

variable {α β : Type}

theorem ClosesOnError.of_spares {run : Call (Except Status α)} (spares : Spares run) :
    ClosesOnError run :=
  fun _ _ _ _ returned => .spared (spares.ok returned)

/-- What comes before does not close the socket at all. -/
theorem ClosesOnError.after_spares {run : Call β} {next : β → Call (Except Status α)}
    (spares : Spares run) (closes : ∀ value, ClosesOnError (next value)) :
    ClosesOnError (run >>= next) := by
  intro start result after isOpen returned
  obtain ⟨value, middle, first, second⟩ := bind_eq_ok.mp returned
  have spared := spares.ok first
  cases closes value ((congrArg Prod.fst spared).trans isOpen) second with
  | spared unchanged => exact .spared (unchanged.trans spared)
  | closed closed => exact .closed (.of_unchanged spared closed)

/-- A step and what follows if there was no error. -/
theorem ClosesOnError.bind {run : Call (Except Status β)}
    {next : Except Status β → Call (Except Status α)} (closes : ClosesOnError run)
    (failing : ∀ status, next (.error status) = pure (.error status))
    (going : ∀ value, ClosesOnError (next (.ok value))) : ClosesOnError (run >>= next) := by
  intro start result after isOpen returned
  obtain ⟨value, middle, first, second⟩ := bind_eq_ok.mp returned
  cases closes isOpen first with
  | @closed status _ closed =>
      rw [failing] at second
      cases second
      exact .closed closed
  | spared unchanged =>
      cases value with
      | error status =>
          rw [failing] at second
          cases second
          exact .spared unchanged
      | ok value =>
          cases going value ((congrArg Prod.fst unchanged).trans isOpen) second with
          | spared later => exact .spared (later.trans unchanged)
          | closed closed => exact .closed (.of_unchanged unchanged closed)

theorem closesOnError_waitFrameInner (deadline : UInt64) (fuel : Nat) :
    ClosesOnError (waitFrameInner deadline fuel) := by
  intro start result after isOpen returned
  cases waitFrameInner_leaves isOpen returned with
  | spared _ unchanged => exact .spared unchanged
  | closed _ closed => exact .closed closed

theorem closesOnError_waitFrameNoblock (timeout : Option Timeval) (fuel : Nat) :
    ClosesOnError (amqpSimpleWaitFrameNoblock timeout fuel) := by
  apply ClosesOnError.bind (.of_spares (spares_timeFromNow timeout))
  · intro status
    rfl
  · intro deadline start result after isOpen returned
    dsimp only at returned
    rw [bind_of_ok (get_run start)] at returned
    cases front : start.queue.front with
    | some link =>
        rw [front] at returned
        cases returned
        exact .spared rfl
    | none =>
        rw [front] at returned
        exact closesOnError_waitFrameInner deadline fuel isOpen returned

theorem spares_timeTvUntil (time : UInt64) : Spares (amqpTimeTvUntil time) := by
  refine Moves.ite (fun _ => .pure) fun _ => .ite (fun _ => .pure) fun _ => ?_
  refine spares_timestamp.bind fun now => ?_
  exact .ite (fun _ => .pure) fun _ => .ite (fun _ => .pure) fun _ => .pure

theorem closesOnError_waitMethodList (expectedChannel : UInt16) (expectedMethods : List UInt32)
    (deadline : UInt64) (fuel : Nat) :
    ClosesOnError (amqpSimpleWaitMethodList expectedChannel expectedMethods deadline fuel) := by
  apply ClosesOnError.bind (.of_spares (spares_timeTvUntil deadline))
  · intro status
    rfl
  · intro tv
    apply ClosesOnError.bind (closesOnError_waitFrameNoblock tv fuel)
    · intro status
      rfl
    · intro frame
      apply ClosesOnError.of_spares
      dsimp only
      cases expectedMethod? expectedChannel expectedMethods frame with
      | some method => exact .pure
      | none => exact .pure

theorem spares_sendHeaderInner (deadline : UInt64) (fuel : Nat) :
    Spares (sendHeaderInner deadline fuel) := by
  refine (spares_trySend _ _ _ _).bind fun sent => ?_
  cases sent with
  | error status => exact .pure
  | ok sent => exact .pure

theorem closesOnError_awaitStart (deadline : UInt64) (fuel : Nat) :
    ClosesOnError (awaitStart deadline fuel) := by
  apply ClosesOnError.after_spares (spares_sendHeaderInner deadline fuel)
  intro res
  by_cases failed : res ≠ 0
  · rw [if_pos failed]
    exact .of_spares .pure
  · rw [if_neg failed]
    apply ClosesOnError.bind (closesOnError_waitMethodList _ _ deadline fuel)
    · intro status
      rfl
    · intro method
      apply ClosesOnError.of_spares
      dsimp only
      cases method.fields? amqpConnectionStartMethod with
      | some start => exact .pure
      | none => exact .throw

theorem spares_runCloner (clone : Cloner α) (allocs : List Bool) :
    Spares (runCloner clone allocs) := by
  unfold runCloner
  cases clone allocs with
  | ok value allocs => exact .pure
  | error failure allocs =>
      cases failure with
      | status status => exact .pure
      | fault fault => exact .throw

theorem spares_acceptStart (saslMethod : SaslMethod) (start : ConnectionStart)
    (allocs : List Bool) : Spares (acceptStart saslMethod start allocs) := by
  refine Moves.ite (fun _ => .pure) fun _ => ?_
  refine (spares_runCloner _ _).bind fun cloned => ?_
  cases cloned with
  | error status => exact .pure
  | ok cloned =>
      refine Moves.bind (.modify fun _ => rfl) fun _ => ?_
      cases saslMechanismInList start.mechanisms saslMethod with
      | error fault => exact .throw
      | ok listed => cases listed <;> exact .pure

theorem spares_prepareStartOk (parameters : LoginParameters) (allocs : List Bool) :
    Spares (prepareStartOk parameters allocs) := by
  refine (spares_linkPool 0).bind fun pool => .ite (fun _ => ?_) fun _ => .pure
  refine (spares_runCloner _ _).bind fun response => ?_
  cases response with
  | error status => exact .pure
  | ok response =>
      refine (spares_runCloner _ _).bind fun merged => ?_
      cases merged with
      | error status => exact .pure
      | ok merged => exact Moves.bind (.modify fun _ => rfl) fun _ => .pure

theorem spares_sendStartOk (saslMethod : SaslMethod) (response : List UInt8) (deadline : UInt64)
    (fuel : Nat) : Spares (sendStartOk saslMethod response deadline fuel) := by
  refine Moves.bind .get fun world => ?_
  cases saslMethodName saslMethod with
  | error fault => exact .throw
  | ok mechanism => exact spares_sendFrameInner _ _ _ _

theorem closesOnError_loginStart (parameters : LoginParameters) (allocs : List Bool)
    (deadline : UInt64) (fuel : Nat) :
    ClosesOnError (loginStart parameters allocs deadline fuel) := by
  have stored : ClosesOnError (storeProperties parameters allocs deadline fuel) := by
    apply ClosesOnError.bind (closesOnError_awaitStart deadline fuel)
    · intro status
      rfl
    · intro start
      apply ClosesOnError.bind (.of_spares (spares_acceptStart _ start allocs))
      · intro status
        rfl
      · intro allocs
        exact .of_spares (spares_prepareStartOk parameters allocs)
  apply stored.bind
  · intro status
    rfl
  · intro response
    exact .of_spares (spares_sendStartOk _ response deadline fuel)

theorem spares_tuneConnection (channelMax : Int) (frameMax : Int32) (heartbeat : Int)
    (granted : Bool) : Spares (amqpTuneConnection channelMax frameMax heartbeat granted) := by
  refine Moves.get_bind fun world => ?_
  by_cases busy : world.reader.state ≠ .idle
  · rw [if_pos busy]
    rfl
  · rw [if_neg busy]
    apply Moves.set_bind
    · rfl
    · refine spares_scheduleHeartbeat.bind fun scheduled => ?_
      cases scheduled with
      | error status => exact .pure
      | ok _ =>
          refine spares_awaitHeartbeat.bind fun awaited => ?_
          cases awaited with
          | error status => exact .pure
          | ok _ =>
              refine Moves.ite (fun _ => ?_) fun _ => .pure
              exact Moves.bind (.modify fun _ => rfl) fun _ => .pure

theorem closesOnError_loginTune (parameters : LoginParameters) (granted : Bool)
    (deadline : UInt64) (fuel : Nat) :
    ClosesOnError (loginTune parameters granted deadline fuel) := by
  apply ClosesOnError.bind (closesOnError_waitMethodList _ _ deadline fuel)
  · intro status
    rfl
  · intro method
    apply ClosesOnError.of_spares
    refine Moves.ite (fun _ => .pure) fun _ => ?_
    cases method.fields? amqpConnectionTuneMethod with
    | none => exact .throw
    | some tune =>
        have answered : Spares (answerTune parameters granted (.ofFields tune) deadline fuel) := by
          refine (spares_tuneConnection _ _ _ _).bind fun tuned => ?_
          cases tuned with
          | error status => exact .pure
          | ok _ => exact spares_sendFrameInner _ _ _ _
        refine answered.bind fun sent => ?_
        cases sent with
        | error status => exact .pure
        | ok _ => exact .pure

end Steps

/-! ## Whole logins -/

/-- A login comes to its last RPC. -/
structure ReachesOpen (parameters : LoginParameters) (memory : LoginMemory) (fuel : Nat)
    (before : World) (deadline : UInt64) (opening : World) : Prop where
  passes : ∃ timed sent released tuned,
    amqpTimeFromNow parameters.timeout before = .ok (.ok deadline) timed ∧
    loginStart parameters memory.allocs deadline fuel timed = .ok (.ok ()) sent ∧
    amqpReleaseBuffers sent = .ok () released ∧
    loginTune parameters memory.outbound deadline fuel released = .ok (.ok none) tuned ∧
    amqpReleaseBuffers tuned = .ok () opening

/-- The last RPC is lost. -/
def OpenLost (parameters : LoginParameters) (memory : LoginMemory) (fuel : Nat)
    (before : World) : Prop :=
  ∃ deadline opening, ReachesOpen parameters memory fuel before deadline opening ∧
    RpcLost 0 amqpConnectionOpenMethod [amqpConnectionOpenOkMethod] (openFields parameters.vhost)
      deadline fuel opening

/-- A login that fails in the library has called `amqp_socket_close`. -/
def ClosesOnFailure (parameters : LoginParameters) (memory : LoginMemory) (fuel : Nat)
    (before : World) : Prop :=
  ∀ status after, amqpLoginInner parameters memory fuel before =
    .ok (.libraryException status) after → CloseCalled before after

section Logins

variable {parameters : LoginParameters} {memory : LoginMemory} {fuel : Nat}
  {before after opening : World} {deadline : UInt64} {status : Status}

theorem StepLeaves.spared_of_ok {α : Type} {value : α}
    (leaves : StepLeaves before (.ok value) after) : Unchanged World.closing before after := by
  cases leaves with
  | spared unchanged => exact unchanged

theorem ReachesOpen.spared (reaches : ReachesOpen parameters memory fuel before deadline opening)
    (isOpen : before.socketOpen = true) : Unchanged World.closing before opening := by
  obtain ⟨timed, sent, released, tuned, times, starts, releases, tunes, clears⟩ := reaches.passes
  have first := (spares_timeFromNow _).ok times
  have timedOpen : timed.socketOpen = true := (congrArg Prod.fst first).trans isOpen
  have second := (closesOnError_loginStart _ _ _ _ timedOpen starts).spared_of_ok
  have third := spares_releaseBuffers.ok releases
  have sentOpen : sent.socketOpen = true := (congrArg Prod.fst second).trans timedOpen
  have releasedOpen : released.socketOpen = true := (congrArg Prod.fst third).trans sentOpen
  have fourth := (closesOnError_loginTune _ _ _ _ releasedOpen tunes).spared_of_ok
  have fifth := spares_releaseBuffers.ok clears
  exact fifth.trans (fourth.trans (third.trans (second.trans first)))

theorem loginOpen_of_libraryException {vhost : List UInt8}
    (failed : simpleRpcInner 0 amqpConnectionOpenMethod [amqpConnectionOpenOkMethod]
      (openFields vhost) deadline fuel opening = .ok (.libraryException status) after) :
    loginOpen vhost deadline fuel opening = .ok (.libraryException status) after := by
  unfold loginOpen
  rw [bind_of_ok failed]
  rfl

theorem loginInner_of_reaches {reply : RpcReply} (accepted : parameters.Accepted)
    (reaches : ReachesOpen parameters memory fuel before deadline opening)
    (opens : loginOpen parameters.vhost deadline fuel opening = .ok reply after) :
    amqpLoginInner parameters memory fuel before = .ok reply after := by
  obtain ⟨timed, sent, released, tuned, times, starts, releases, tunes, clears⟩ := reaches.passes
  have steps : loginSteps parameters memory fuel before = .ok (.ok reply) after := by
    unfold loginSteps
    rw [bind_of_ok times]
    dsimp only
    rw [bind_of_ok starts]
    dsimp only
    rw [bind_of_ok releases, bind_of_ok tunes]
    dsimp only
    rw [bind_of_ok clears, map_of_ok opens]
  unfold amqpLoginInner
  rw [if_pos accepted, bind_of_ok steps]
  rfl

/-- The ways in which the steps end. -/
inductive StepsEnd (parameters : LoginParameters) (memory : LoginMemory) (fuel : Nat)
    (before : World) : Except Status RpcReply → World → Prop where
  | failed {status : Status} {after : World} :
      Unchanged World.closing before after ∨ CloseCalled before after →
      StepsEnd parameters memory fuel before (.error status) after
  | refused {method : Method} {after : World} :
      StepsEnd parameters memory fuel before (.ok (.serverException method)) after
  | opened {deadline : UInt64} {opening after : World} {reply : RpcReply} :
      ReachesOpen parameters memory fuel before deadline opening →
      loginOpen parameters.vhost deadline fuel opening = .ok reply after →
      StepsEnd parameters memory fuel before (.ok reply) after

theorem StepLeaves.of_unchanged {α : Type} {start : World}
    (spared : Unchanged World.closing start before)
    (leaves : StepLeaves before (.error status : Except Status α) after) :
    Unchanged World.closing start after ∨ CloseCalled start after := by
  cases leaves with
  | spared unchanged => exact .inl (unchanged.trans spared)
  | closed closed => exact .inr (.of_unchanged spared closed)

theorem stepsEnd_of_loginSteps {result : Except Status RpcReply} (isOpen : before.socketOpen = true)
    (returned : loginSteps parameters memory fuel before = .ok result after) :
    StepsEnd parameters memory fuel before result after := by
  obtain ⟨timeout, timed, times, returned⟩ := bind_eq_ok.mp returned
  have first := (spares_timeFromNow _).ok times
  have timedOpen : timed.socketOpen = true := (congrArg Prod.fst first).trans isOpen
  cases timeout with
  | error status =>
      cases returned
      exact .failed (.inl first)
  | ok deadline =>
      obtain ⟨started, sent, starts, returned⟩ := bind_eq_ok.mp returned
      have second := closesOnError_loginStart _ _ _ _ timedOpen starts
      cases started with
      | error status =>
          cases returned
          exact .failed (second.of_unchanged first)
      | ok _ =>
          have sentOpen : sent.socketOpen = true :=
            (congrArg Prod.fst second.spared_of_ok).trans timedOpen
          obtain ⟨_, released, releases, returned⟩ := bind_eq_ok.mp returned
          have third := spares_releaseBuffers.ok releases
          have releasedOpen : released.socketOpen = true := (congrArg Prod.fst third).trans sentOpen
          have still := third.trans (second.spared_of_ok.trans first)
          obtain ⟨tuning, tuned, tunes, returned⟩ := bind_eq_ok.mp returned
          have fourth := closesOnError_loginTune _ _ _ _ releasedOpen tunes
          cases tuning with
          | error status =>
              cases returned
              exact .failed (fourth.of_unchanged still)
          | ok refused =>
              cases refused with
              | some method =>
                  cases returned
                  exact .refused
              | none =>
                  obtain ⟨_, opening, clears, returned⟩ := bind_eq_ok.mp returned
                  obtain ⟨reply, opens, rfl⟩ := map_eq_ok.mp returned
                  exact .opened
                    ⟨timed, sent, released, tuned, times, starts, releases, tunes, clears⟩ opens

theorem simpleRpcInner_of_loginOpen {vhost : List UInt8}
    (opens : loginOpen vhost deadline fuel opening = .ok (.libraryException status) after) :
    simpleRpcInner 0 amqpConnectionOpenMethod [amqpConnectionOpenOkMethod] (openFields vhost)
      deadline fuel opening = .ok (.libraryException status) after := by
  obtain ⟨reply, replied, replies, returned⟩ := bind_eq_ok.mp opens
  cases reply with
  | normal method =>
      obtain ⟨_, _, _, returned⟩ := bind_eq_ok.mp returned
      cases returned
  | libraryException status =>
      cases returned
      exact replies
  | serverException method => cases returned

theorem closesOnFailure_of_kept (accepted : parameters.Accepted) (isOpen : before.socketOpen = true)
    (kept : ¬OpenLost parameters memory fuel before) :
    ClosesOnFailure parameters memory fuel before := by
  intro status after returned
  unfold amqpLoginInner at returned
  rw [if_pos accepted] at returned
  obtain ⟨result, ended, steps, returned⟩ := bind_eq_ok.mp returned
  cases stepsEnd_of_loginSteps isOpen steps with
  | failed socket =>
      obtain ⟨_, closed, closes, returned⟩ := bind_eq_ok.mp returned
      cases returned
      have lengths := socketClose_length closes
      cases socket with
      | inl spared =>
          exact .of_unchanged spared (lengths.2 ((congrArg Prod.fst spared).trans isOpen))
      | inr closed => exact Nat.lt_of_le_of_lt lengths.1 closed
  | refused => cases returned
  | @opened deadline opening _ reply reaches opens =>
      cases returned
      have spared := reaches.spared isOpen
      apply CloseCalled.of_unchanged spared
      apply closeCalled_of_simpleRpcInner _ ((congrArg Prod.fst spared).trans isOpen)
        (simpleRpcInner_of_loginOpen opens)
      intro lost
      exact kept ⟨deadline, opening, reaches, lost⟩

theorem not_closesOnFailure_of_lost (accepted : parameters.Accepted)
    (isOpen : before.socketOpen = true) (lost : OpenLost parameters memory fuel before) :
    ¬ClosesOnFailure parameters memory fuel before := by
  intro closes
  obtain ⟨deadline, opening, reaches, lost⟩ := lost
  have spared := reaches.spared isOpen
  obtain ⟨status, after, fails, unchanged⟩ :=
    simpleRpcInner_of_lost lost ((congrArg Prod.fst spared).trans isOpen)
  have closed := closes status after
    (loginInner_of_reaches accepted reaches (loginOpen_of_libraryException fails))
  have same : after.script.closes = before.script.closes :=
    congrArg Prod.snd (unchanged.trans spared)
  unfold CloseCalled at closed
  rw [same] at closed
  exact Nat.lt_irrefl _ closed

/-- A login that fails closes the socket, unless its last RPC is lost. -/
theorem login_closes_iff (accepted : parameters.Accepted) (isOpen : before.socketOpen = true) :
    ClosesOnFailure parameters memory fuel before ↔ ¬OpenLost parameters memory fuel before := by
  constructor
  · intro closes lost
    exact not_closesOnFailure_of_lost accepted isOpen lost closes
  · exact closesOnFailure_of_kept accepted isOpen

end Logins

/-- The code of a login that fails, and how often it has closed the socket. -/
def failureOf (before : World) : EStateM.Result Stop World RpcReply → Option (Status × Nat)
  | .ok (.libraryException status) after =>
      some (status, before.script.closes.length - after.script.closes.length)
  | _ => none

theorem failureOf_eq_some {before : World} {result : EStateM.Result Stop World RpcReply}
    {status : Status} {calls : Nat} (failed : failureOf before result = some (status, calls)) :
    ∃ after, result = .ok (.libraryException status) after ∧
      before.script.closes.length - after.script.closes.length = calls := by
  cases result with
  | error stop after => cases failed
  | ok reply after =>
      cases reply with
      | normal method => cases failed
      | serverException method => cases failed
      | libraryException other =>
          cases failed
          exact ⟨after, rfl, rfl⟩

/-- The protocol header cannot be sent. -/
def brokenWorld : World := World.new
  { welcomingScript with
    sends := [.failed .socketError]
    closes := [true] }

theorem login_closes_iff_broken :
    ∃ after, amqpLoginInner quietParameters ampleMemory 20 brokenWorld =
      .ok (.libraryException .socketError) after ∧ CloseCalled brokenWorld after := by
  have accepted : quietParameters.Accepted := by decide
  obtain ⟨after, failed, _⟩ := @failureOf_eq_some brokenWorld
    (amqpLoginInner quietParameters ampleMemory 20 brokenWorld) .socketError 1 (by decide +kernel)
  refine ⟨after, failed, ?_⟩
  apply (login_closes_iff accepted rfl).mpr _ _ _ failed
  rintro ⟨deadline, opening, reaches, _⟩
  obtain ⟨timed, sent, _, _, times, starts, _⟩ := reaches.passes
  cases times
  cases starts

/-- The broker goes away when it is to open the virtual host. -/
def abandonedWorld : World := World.new
  { welcomingScript with
    recvs := [.data startChunk, .data tuneChunk, .failed .connectionClosed]
    closes := [true] }

theorem open_failure_leaves_socket :
    ¬ClosesOnFailure quietParameters ampleMemory 20 abandonedWorld := by
  intro closes
  obtain ⟨after, failed, calls⟩ := @failureOf_eq_some abandonedWorld
    (amqpLoginInner quietParameters ampleMemory 20 abandonedWorld) .connectionClosed 0
    (by decide +kernel)
  have closed := closes _ _ failed
  unfold CloseCalled at closed
  omega

end RabbitmqC
