import RabbitmqC.Connection.InputCodes
import RabbitmqC.Socket.Receive

/-!
# Calls that do not abort

The calls between a connection and its socket have one `amqp_abort` in reach, at
the end of the receive step of `wait_frame_inner`.
-/

set_option autoImplicit false

namespace RabbitmqC

open Effect

abbrev Unaborted {α : Type} (run : Call α) : Prop := Raises (· ≠ .fault .abort) run

theorem unaborted_outOfFuel {α : Type} : Unaborted (outOfFuel : Call α) := .throw (by decide)

theorem unaborted_ask {α : Type} {answers : Script → List α}
    {keep : Script → List α → Script} : Unaborted (ask answers keep) := by
  refine Raises.bind .get fun world => ?_
  cases answers world.script with
  | nil => exact .throw (by decide)
  | cons answer rest => exact Raises.bind (.set _) fun _ => .pure answer

/-! ## Time -/

theorem unaborted_timestamp : Unaborted amqpGetMonotonicTimestamp := unaborted_ask

theorem unaborted_timeSFromNow (time : UInt64) (seconds : Int) :
    Unaborted (amqpTimeSFromNow time seconds) := by
  refine Raises.ite (fun _ => ?_) fun _ => ?_
  · exact .pure _
  · refine unaborted_timestamp.bind fun now => ?_
    exact .ite (fun _ => .pure _) fun _ => .pure _

theorem unaborted_timeFromNow (timeout : Option Timeval) :
    Unaborted (amqpTimeFromNow timeout) := by
  cases timeout with
  | none => exact .pure _
  | some timeout =>
      unfold amqpTimeFromNow
      refine Raises.ite (fun _ => .pure _) fun _ => ?_
      refine unaborted_timestamp.bind fun now => ?_
      refine Raises.ite (fun _ => .pure _) fun _ => ?_
      split
      exact .pure _

theorem unaborted_timeMsUntil (time : UInt64) : Unaborted (amqpTimeMsUntil time) := by
  refine Raises.ite (fun _ => ?_) fun _ => ?_
  · exact .pure _
  · refine Raises.ite (fun _ => ?_) fun _ => ?_
    · exact .pure _
    · refine unaborted_timestamp.bind fun now => ?_
      exact .ite (fun _ => .pure _) fun _ => .ite (fun _ => .pure _) fun _ => .pure _

theorem unaborted_timeHasPast (time : UInt64) : Unaborted (amqpTimeHasPast time) := by
  refine Raises.ite (fun _ => ?_) fun _ => ?_
  · exact .pure _
  · refine unaborted_timestamp.bind fun now => ?_
    exact .ite (fun _ => .pure _) fun _ => .ite (fun _ => .pure _) fun _ => .pure _

theorem unaborted_awaitHeartbeat : Unaborted awaitHeartbeat := by
  refine Raises.bind .get fun world => ?_
  refine (unaborted_timeSFromNow _ _).bind fun answer => ?_
  exact Raises.bind (.modify _) fun _ => .pure _

theorem unaborted_scheduleHeartbeat : Unaborted scheduleHeartbeat := by
  refine Raises.bind .get fun world => ?_
  refine (unaborted_timeSFromNow _ _).bind fun answer => ?_
  exact Raises.bind (.modify _) fun _ => .pure _

/-! ## The socket -/

theorem unaborted_waitingPoll (waiting : Waiting) : Unaborted waiting.poll := by
  unfold Waiting.poll
  cases waiting with
  | toReceive => exact unaborted_ask
  | toSend => exact unaborted_ask

theorem unaborted_poll (waiting : Waiting) (deadline : UInt64) (fuel : Nat) :
    Unaborted (amqpPoll waiting deadline fuel) := by
  induction fuel with
  | zero => exact unaborted_outOfFuel
  | succ fuel ih =>
      refine Raises.bind (.modify _) fun _ => ?_
      refine (unaborted_timeMsUntil deadline).bind fun timeoutMs => ?_
      refine Raises.ite (fun _ => ?_) fun _ => ?_
      · exact .pure _
      · refine (unaborted_waitingPoll waiting).bind fun answer => ?_
        cases answer with
        | ready => exact .pure _
        | timedOut => exact .ite (fun _ => ih) fun _ => .pure _
        | interrupted => exact ih
        | failed => exact .pure _

theorem unaborted_socketSend (buf : List UInt8) : Unaborted (amqpSocketSend buf) := by
  refine Raises.bind .get fun world => ?_
  refine Raises.ite (fun _ => ?_) fun _ => ?_
  · refine unaborted_ask.bind fun answer => ?_
    cases answer with
    | accepted count => exact Raises.bind (.modify _) fun _ => .pure _
    | needRead => exact .pure _
    | needWrite => exact .pure _
    | failed failure => exact .pure _
  · exact .pure _

theorem unaborted_socketRecv : Unaborted amqpSocketRecv := by
  refine Raises.bind .get fun world => ?_
  refine Raises.ite (fun _ => ?_) fun _ => ?_
  · refine unaborted_ask.bind fun answer => ?_
    cases answer <;> exact .pure _
  · exact .pure _

theorem unaborted_socketClose : Unaborted amqpSocketClose := by
  refine Raises.bind .get fun world => ?_
  refine Raises.ite (fun _ => ?_) fun _ => ?_
  · refine unaborted_ask.bind fun closed => ?_
    exact .ite (fun _ => Raises.bind (.modify _) fun _ => .pure _) fun _ => .pure _
  · exact .pure _

theorem unaborted_doPoll (res : Except Status Unit) (deadline : UInt64) (fuel : Nat) :
    Unaborted (doPoll res deadline fuel) := by
  refine Raises.bind .get fun world => ?_
  refine Raises.ite (fun _ => ?_) fun _ => ?_
  · cases res with
    | ok _ => exact .pure _
    | error status => cases status <;> first | exact unaborted_poll _ _ _ | exact .pure _
  · exact .pure _

theorem unaborted_trySend (len : Nat) (deadline : UInt64) (fuel : Nat) (left : List UInt8) :
    Unaborted (trySendLeft len deadline fuel left) := by
  induction fuel generalizing left with
  | zero => exact unaborted_outOfFuel
  | succ fuel ih =>
      refine (unaborted_socketSend left).bind fun sent => ?_
      cases sent with
      | error status =>
          refine (unaborted_doPoll _ _ _).bind fun polled => ?_
          cases polled with
          | ok _ => exact ih left
          | error status => cases status <;> exact .pure _
      | ok count =>
          cases count with
          | zero =>
              refine (unaborted_doPoll _ _ _).bind fun polled => ?_
              cases polled with
              | ok _ => exact ih left
              | error status => cases status <;> exact .pure _
          | succ count => exact .ite (fun _ => .pure _) fun _ => ih _

theorem unaborted_recvWithTimeout (timeout : UInt64) (fuel : Nat) :
    Unaborted (recvWithTimeout timeout fuel) := by
  induction fuel with
  | zero => exact unaborted_outOfFuel
  | succ fuel ih =>
      refine unaborted_socketRecv.bind fun received => ?_
      cases received with
      | ok octets => exact Raises.bind (.modify _) fun _ => unaborted_awaitHeartbeat
      | error status =>
          refine Raises.bind .get fun world => ?_
          refine Raises.ite (fun _ => ?_) fun _ => ?_
          · refine Raises.ite (fun _ => ?_) fun _ => ?_
            · refine (unaborted_poll _ _ _).bind fun polled => ?_
              cases polled with
              | ok _ => exact ih
              | error status => exact .pure _
            · exact .pure _
          · exact .pure _

/-! ## Frames -/

theorem unaborted_consumeOneFrame : Unaborted consumeOneFrame := by
  refine Raises.bind .get fun world => ?_
  have answers := amqpHandleInput_answers (world.script.memory world.framesRead) world.reader
    world.unread
  cases handles : amqpHandleInput (world.script.memory world.framesRead) world.reader
      world.unread with
  | error fault =>
      rw [handles] at answers
      cases answers with
      | faulty notAbort =>
          apply Raises.throw
          intro same
          cases same
          exact notAbort rfl
  | ok handled =>
      dsimp only
      cases handled.result with
      | error status => exact Raises.bind (.set _) fun _ => .pure _
      | ok res => exact Raises.bind (.set _) fun _ => .pure _

theorem unaborted_allocateLink : Unaborted allocateLink := by
  refine Raises.bind .get fun world => ?_
  cases world.script.links with
  | nil => exact .pure _
  | cons granted links => exact Raises.bind (.set _) fun _ => .pure _

theorem unaborted_linkPool (channel : UInt16) : Unaborted (linkPool channel) := by
  refine Raises.bind .get fun world => .ite (fun _ => .pure _) fun _ => ?_
  refine unaborted_allocateLink.bind fun granted => ?_
  exact .ite (fun _ => Raises.bind (.modify _) fun _ => .pure _) fun _ => .pure _

theorem unaborted_createLinkForFrame (frame : Frame) :
    Unaborted (amqpCreateLinkForFrame frame) := by
  refine (unaborted_linkPool frame.channel).bind fun pool => .ite (fun _ => ?_) fun _ => .pure _
  refine unaborted_allocateLink.bind fun link => unaborted_allocateLink.bind fun frameCopy => ?_
  refine .ite (fun _ => ?_) fun _ => .pure _
  exact Raises.bind .get fun world => Raises.bind (.set _) fun _ => .pure _

theorem unaborted_queueReceived (frame : Frame) : Unaborted (queueReceived frame) := by
  refine (unaborted_createLinkForFrame frame).bind fun link => ?_
  cases link with
  | none => exact .pure _
  | some link => exact Raises.bind (.modify _) fun _ => .pure _

theorem unaborted_maybeReleaseBuffersOnChannel (channel : UInt16) :
    Unaborted (amqpMaybeReleaseBuffersOnChannel channel) := by
  refine Raises.bind .get fun world => .ite (fun _ => .pure _) fun _ => ?_
  cases world.queue.find (fun frame => channel == frame.channel) world.queue.reach
    world.queue.first with
  | some link => exact .pure _
  | none => exact .ite (fun _ => .set _) fun _ => .pure _

theorem unaborted_tryRecv (fuel : Nat) : Unaborted (amqpTryRecv fuel) := by
  induction fuel with
  | zero => exact unaborted_outOfFuel
  | succ fuel ih =>
      refine Raises.bind .get fun world => .ite (fun _ => ?_) fun _ => ?_
      · refine unaborted_consumeOneFrame.bind fun consumed => ?_
        cases consumed with
        | error status => exact .pure _
        | ok frame =>
            refine .ite (fun _ => ?_) fun _ => ih
            refine (unaborted_queueReceived frame).bind fun queued => ?_
            cases queued with
            | error status => exact .pure _
            | ok _ => exact ih
      · refine (unaborted_timeSFromNow 0 0).bind fun answer => ?_
        obtain ⟨timeout, res⟩ := answer
        cases res with
        | error status => exact .pure _
        | ok _ => exact unaborted_recvWithTimeout timeout fuel

theorem unaborted_encodeOutbound (frame : Frame) : Unaborted (encodeOutbound frame) := by
  refine Raises.bind .get fun world => ?_
  cases stored : amqpFrameToBytes frame world.outbound.size world.outbound with
  | ok count outbound => exact Raises.bind (.set _) fun _ => .pure _
  | error failure outbound =>
      have expected := failsToEncode_amqpFrameToBytes stored
      cases failure with
      | status status => exact Raises.bind (.set _) fun _ => .pure _
      | fault fault =>
          apply Raises.throw
          intro same
          cases same
          revert expected
          decide

theorem unaborted_sendEncoded (deadline : UInt64) (fuel : Nat) (encoded : List UInt8) :
    Unaborted (sendEncoded deadline fuel encoded) := by
  induction fuel generalizing encoded with
  | zero => exact unaborted_outOfFuel
  | succ fuel ih =>
      refine Raises.bind .get fun world => (unaborted_trySend _ _ _ _).bind fun sent => ?_
      cases sent with
      | error status => exact .pure _
      | ok sent =>
          refine .ite (fun _ => unaborted_scheduleHeartbeat) fun _ => .ite (fun _ => .pure _) ?_
          intro _
          refine (unaborted_tryRecv fuel).bind fun received => ?_
          cases received with
          | ok _ => exact ih _
          | error status => cases status <;> exact .pure _

theorem unaborted_sendFrameInner (frame : Frame) (flags : SendFlags) (deadline : UInt64)
    (fuel : Nat) : Unaborted (amqpSendFrameInner frame flags deadline fuel) := by
  refine (unaborted_encodeOutbound frame).bind fun encoded => ?_
  cases encoded with
  | error status => exact .pure _
  | ok encoded => exact Raises.bind (.modify _) fun _ => unaborted_sendEncoded _ _ _

/-! ## Waiting -/

theorem unaborted_drainToFrame (fuel : Nat) : Unaborted (drainToFrame fuel) := by
  induction fuel with
  | zero => exact unaborted_outOfFuel
  | succ fuel ih =>
      refine Raises.bind .get fun world => .ite (fun _ => ?_) fun _ => .pure _
      refine unaborted_consumeOneFrame.bind fun consumed => ?_
      cases consumed with
      | error status => exact .pure _
      | ok frame =>
          refine .ite (fun _ => ?_) fun _ => .ite (fun _ => .pure _) fun _ => ih
          exact (unaborted_maybeReleaseBuffersOnChannel 0).bind fun _ => ih

theorem unaborted_sendDueHeartbeat (fuel : Nat) : Unaborted (sendDueHeartbeat fuel) := by
  refine Raises.bind .get fun world => (unaborted_timeHasPast _).bind fun past => ?_
  cases past with
  | ok _ => exact .pure _
  | error status =>
      cases status <;> first | exact unaborted_sendFrameInner _ _ _ _ | exact .pure _

end RabbitmqC
