import RabbitmqC.Duplex.Endpoints

/-!
# What an application receives

An application that sends frames, publishes and waits for any frame leaves nothing in the
queue. The frames it is returned are those that were decoded, heartbeats aside, and so
those that the application at the other end has sent.
-/

set_option autoImplicit false

namespace RabbitmqC

open Effect

/-- Sending a frame, publishing, and waiting for the next frame of any channel. -/
def LibraryCall.Direct : LibraryCall → Prop
  | .basicPublish .. => True
  | .sendFrame _ => True
  | .simpleWaitFrame => True
  | .simpleWaitFrameNoblock _ => True
  | _ => False

/-- With an empty queue, the frames returned are those that were decoded. -/
structure HandsOut (world : World) (frames : List Frame) (after : World) : Prop where
  queue : after.queue = .empty
  decoded : withoutBeats after.decoded = withoutBeats world.decoded ++ frames

section Calls

variable {world after : World} {fuel : Nat}

theorem handsOut_of_quiet (empty : world.queue = .empty) (quiet : Quiet world after) :
    HandsOut world [] after :=
  ⟨quiet.queue.trans empty, by rw [quiet.decoded, List.append_nil]⟩

theorem handsOut_of_onlyBeats {granted : List Bool} (empty : world.queue = .empty)
    (beatsOnly : OnlyBeats granted world.decoded world.queue after) : HandsOut world [] after := by
  obtain ⟨_, isQueue, beats, areBeats, decoded⟩ := beatsOnly
  refine ⟨isQueue.trans empty, ?_⟩
  rw [decoded, withoutBeats_append, withoutBeats_of_beats areBeats]

/-- While no send runs late, sending the frames of a message leaves the receiving side alone. -/
theorem Prompt.sendParts (prompt : Prompt world) :
    SendParts (fun _ => True) (Quiet world) (Quiet world) where
  inv_fails quiet := quiet
  send := by
    intro frame _ flags deadline fuel
    have keeps : Keeps (Quiet world) (amqpSendFrameInner frame flags deadline fuel) :=
      prompt.sendFrameInner frame flags deadline
    refine keeps.weaken fun result _ quiet => ?_
    cases result with
    | ok _ => exact quiet
    | error _ => exact quiet

/-- A publish that begins in time only sends. -/
theorem basicPublish_quiet {channel : UInt16} {exchange routingKey : List UInt8}
    {mandatory immediate : Int32} {properties : Option (Properties amqpBasicClass)}
    {body : List UInt8} (prompt : Prompt world)
    (inTime : ∀ now ∈ world.script.clock.head?, ¬ now > world.nextRecvHeartbeat) :
    Quiet world (endState (amqpBasicPublish channel exchange routingKey mandatory immediate
      properties body fuel world)) := by
  have content := @SendParts.publishContent _ _ _ fuel prompt.sendParts channel exchange
    routingKey mandatory immediate properties ⟨trivial, fun _ => trivial, fun _ => trivial⟩ body
  have sends (start : World) (quiet : Quiet world start) : Quiet world (endState
      (publishContent channel exchange routingKey mandatory immediate properties body fuel
        start)) := by
    cases returned : publishContent channel exchange routingKey mandatory immediate properties
        body fuel start with
    | ok result after => exact content.ok quiet returned
    | error stop after => exact content.error quiet returned
  have asks := asks_timeHasPast world.nextRecvHeartbeat
  unfold amqpBasicPublish
  rw [bind_of_ok (get_run world)]
  cases asked : amqpTimeHasPast world.nextRecvHeartbeat world with
  | error stop after =>
      rw [bind_of_error asked]
      exact quiet_of_asks (asks.error asked)
  | ok past after =>
      rw [bind_of_ok asked]
      have quiet := quiet_of_asks (asks.ok asked)
      cases past with
      | ok _ => exact sends after quiet
      | error status =>
          cases status <;> first
            | exact sends after quiet
            | exact quiet
            | exact absurd asked (timeHasPast_ne_timeout inTime)

theorem waitFrameNoblock_handsOut {timeout : Option Timeval} (prompt : Prompt world)
    (empty : world.queue = .empty) :
    HandsOut world (returnedBy ((frameOf <$> amqpSimpleWaitFrameNoblock timeout fuel) world))
      (endState ((frameOf <$> amqpSimpleWaitFrameNoblock timeout fuel) world)) := by
  have provided : Provided world.script.links world := ⟨.inl prompt, List.suffix_rfl⟩
  have onlyBeats (between : World) (still : Still world between) :
      OnlyBeats world.script.links world.decoded world.queue between :=
    ⟨provided.of_still still, still.queue, [], by simp, by rw [still.decoded, List.append_nil]⟩
  -- The wait decodes heartbeats, and behind them the frame that it returns.
  have waits : Triple (world = ·) (amqpSimpleWaitFrameNoblock timeout fuel)
      (fun result after => HandsOut world (frameOf result) after)
      (fun _ after => HandsOut world [] after) := by
    have asks := @still_of_moves world _ _ ((asks_timeFromNow timeout).mono fun _ _ => still_of_asks)
    refine Triple.bind (((asks.strengthen ?_).raise fun _ after still =>
      handsOut_of_quiet empty still.toQuiet)) fun result => ?_
    · rintro _ rfl
      exact refl_of Still world
    cases result with
    | error status => exact .pure fun after still => handsOut_of_quiet empty still.toQuiet
    | ok deadline =>
        refine .get_bind fun between still => ?_
        have nothing : between.queue.front = none := by
          rw [still.queue, empty]
          rfl
        rw [nothing]
        have frames := @waitFrameInner_frames world.script.links world.decoded world.queue deadline
          fuel
        refine ((frames.strengthen ?_).raise fun _ _ => handsOut_of_onlyBeats empty).weaken
          fun result after ends => ?_
        · rintro _ rfl
          exact onlyBeats between still
        · cases result with
          | error status => exact handsOut_of_onlyBeats empty ends
          | ok frame =>
              obtain ⟨⟨_, isQueue, beats, areBeats, decoded⟩, notBeat⟩ := ends
              refine ⟨isQueue.trans empty, ?_⟩
              rw [decoded, withoutBeats_append, withoutBeats_append,
                withoutBeats_of_beats areBeats, withoutBeats_singleton notBeat, List.append_nil]
              rfl
  cases returned : amqpSimpleWaitFrameNoblock timeout fuel world with
  | ok result after =>
      rw [map_of_ok returned]
      exact waits.ok rfl returned
  | error stop after =>
      rw [map_of_error returned]
      exact waits.error rfl returned

/-- A call whose result is not a frame. -/
theorem handsOut_of_ignored {α : Type} {run : Call α} (empty : world.queue = .empty)
    (quiet : Quiet world (endState (run world))) :
    HandsOut world (returnedBy ((do let _ ← run; return ([] : List Frame)) world))
      (endState ((do let _ ← run; return ([] : List Frame)) world)) := by
  cases returned : run world with
  | ok result after =>
      rw [bind_of_ok returned]
      rw [returned] at quiet
      exact handsOut_of_quiet empty quiet
  | error stop after =>
      rw [bind_of_error returned]
      rw [returned] at quiet
      exact handsOut_of_quiet empty quiet

theorem LibraryCall.Direct.handsOut {call : LibraryCall} (direct : call.Direct)
    (inTime : InTime call world) (empty : world.queue = .empty) :
    HandsOut world (returnedBy (call.run fuel world)) (endState (call.run fuel world)) := by
  cases call with
  | basicPublish => exact handsOut_of_ignored empty (basicPublish_quiet inTime.1 inTime.2)
  | sendFrame frame =>
      have keeps : Keeps (Quiet world) (amqpSendFrame frame fuel) :=
        Prompt.sendFrameInner inTime frame .none amqpTimeInfinite
      refine handsOut_of_ignored empty ?_
      cases returned : amqpSendFrame frame fuel world with
      | ok result after => exact keeps.ok (refl_of Quiet world) returned
      | error stop after => exact keeps.error (refl_of Quiet world) returned
  | simpleWaitFrame => exact waitFrameNoblock_handsOut inTime empty
  | simpleWaitFrameNoblock timeout => exact waitFrameNoblock_handsOut inTime empty
  | simpleRpc => exact direct.elim
  | readMessage => exact direct.elim
  | consumeMessage => exact direct.elim

end Calls

/-! ## Runs -/

/-- A call of an application that only sends and waits. -/
structure DirectBegins (call : LibraryCall) (world : World) : Prop extends
    CallBegins call world where
  direct : call.Direct
  inTime : InTime call world

/-- The frames returned are those decoded, in their order. -/
theorem CallRun.returns {opened world : World} {stop : Option Stop} {returned : List Frame}
    (empty : opened.queue = .empty) (fresh : opened.decoded = [])
    (run : CallRun DirectBegins opened stop world returned) :
    world.queue = .empty ∧ returned = withoutBeats world.decoded := by
  induction run with
  | start => exact ⟨empty, by rw [fresh, withoutBeats_nil]⟩
  | @call world returned call fuel _ begins ih =>
      have hands := @LibraryCall.Direct.handsOut world fuel call begins.direct begins.inTime ih.1
      exact ⟨hands.queue, by rw [hands.decoded, ih.2]⟩

/-- An application that waits for frames is returned those that were sent at the other end, in
their order and each once, as far as their octets have come. -/
theorem application_receives {limit : Nat} {senderOpened sender receiverOpened receiver : World}
    {senderStop receiverStop : Option Stop} {senderReturned receiverReturned : List Frame}
    (senderIs : Opened limit senderOpened) (receiverIs : Opened limit receiverOpened)
    (sends : CallRun CallBegins senderOpened senderStop sender senderReturned)
    (receives : CallRun DirectBegins receiverOpened receiverStop receiver receiverReturned)
    (taken : receiver.taken <+: acceptedOctets sender.wire) :
    ∃ frames : List Frame, submittedFrames sender.wire = frames.map Frame.octets ∧
      receiverReturned <+: withoutBeats (frames.map Frame.arrived) ∧
      (receiver.consumed = (frames.map Frame.octets).flatten →
        receiverReturned = withoutBeats (frames.map Frame.arrived)) := by
  have calls := receives.mono fun _ _ => DirectBegins.toCallBegins
  obtain ⟨_, frames, submitted, _, inOrder, complete⟩ :=
    delivers_of_taken senderIs receiverIs sends calls taken
  obtain ⟨_, isReturned⟩ := receives.returns receiverIs.queue receiverIs.decoded
  refine ⟨frames, submitted, ?_, fun whole => ?_⟩
  · rw [isReturned]
    exact inOrder.filter _
  · rw [isReturned, complete whole]

theorem application_receives_piecewise : ∃ frames : List Frame,
    submittedFrames (endState ((LibraryCall.sendFrame (bodyFrame 1 [17])).run 6
      piecewiseWorld)).wire = frames.map Frame.octets ∧
    returnedBy (LibraryCall.simpleWaitFrame.run 6 dividedWorld) =
      withoutBeats (frames.map Frame.arrived) := by
  have waits := @CallRun.call DirectBegins _ _ _ .simpleWaitFrame 6
    (@CallRun.start _ dividedWorld)
    ⟨⟨prompt_tunedWorld _, .inl rfl, trivial⟩, trivial, prompt_tunedWorld _⟩
  obtain ⟨frames, submitted, _, complete⟩ := application_receives (opened_tunedWorld rfl)
    (opened_tunedWorld rfl) piecewise_sends waits (by decide +kernel)
  refine ⟨frames, submitted, complete ?_⟩
  rw [← submitted]
  decide +kernel

end RabbitmqC
