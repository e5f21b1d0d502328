import RabbitmqC.Consumer.Message

/-!
# Heartbeats stay inside

`wait_frame_inner` drops the heartbeats it reads, `amqp_try_recv` queues them like
any other frame. A run in which no send waits until the peer is overdue does not
call the latter, and then no heartbeat is queued or returned.
-/

set_option autoImplicit false

namespace RabbitmqC

open Effect

/-! ## Library calls -/

inductive LibraryCall where
  | basicPublish (channel : UInt16) (exchange routingKey : List UInt8)
      (mandatory immediate : Int32) (properties : Option (Properties amqpBasicClass))
      (body : List UInt8)
  | sendFrame (frame : Frame)
  | simpleRpc (rpcTimeout : Option Timeval) (channel : UInt16) (requestId : UInt32)
      (expectedReplyIds : List UInt32) (decodedRequestMethod : MethodFields requestId)
  | simpleWaitFrame
  | simpleWaitFrameNoblock (timeout : Option Timeval)
  | readMessage (allocs : List Bool) (channel : UInt16)
  | consumeMessage (allocs : List Bool) (timeout : Option Timeval)

def frameOf : Except Status Frame → List Frame
  | .ok frame => [frame]
  | .error _ => []

/-- The frames that a call returns. -/
def LibraryCall.run (fuel : Nat) : LibraryCall → Call (List Frame)
  | .basicPublish channel exchange routingKey mandatory immediate properties body => do
      let _ ← amqpBasicPublish channel exchange routingKey mandatory immediate properties body fuel
      return []
  | .sendFrame frame => do
      let _ ← amqpSendFrame frame fuel
      return []
  | .simpleRpc rpcTimeout channel requestId expectedReplyIds decodedRequestMethod => do
      let _ ← amqpSimpleRpc rpcTimeout channel requestId expectedReplyIds decodedRequestMethod fuel
      return []
  | .simpleWaitFrame => frameOf <$> amqpSimpleWaitFrame fuel
  | .simpleWaitFrameNoblock timeout => frameOf <$> amqpSimpleWaitFrameNoblock timeout fuel
  | .readMessage allocs channel => do
      let _ ← amqpReadMessage allocs channel fuel
      return []
  | .consumeMessage allocs timeout => do
      let _ ← amqpConsumeMessage allocs timeout fuel
      return []

def returnedBy : EStateM.Result Stop World (List Frame) → List Frame
  | .ok frames _ => frames
  | .error _ _ => []

/-- The world after some calls, whether the last one has returned, and the frames that
were returned. -/
inductive LibraryRun (meets : LibraryCall → World → Prop) :
    Option Stop → World → List Frame → Prop where
  | start {world : World} : world.queue = .empty → LibraryRun meets none world []
  | call {world : World} {returned : List Frame} {call : LibraryCall} {fuel : Nat} :
      LibraryRun meets none world returned → meets call world →
      LibraryRun meets (stopOf (call.run fuel world)) (endState (call.run fuel world))
        (returned ++ returnedBy (call.run fuel world))

/-- `amqp_try_recv` is not called: no send waits until the peer is overdue, and a publish
begins in time. -/
def InTime : LibraryCall → World → Prop
  | .basicPublish .., world =>
      Prompt world ∧ ∀ now ∈ world.script.clock.head?, ¬ now > world.nextRecvHeartbeat
  | _, world => Prompt world

/-! ## What the calls keep -/

/-- No link of the queue holds a heartbeat, and no send runs late. -/
structure Beatless (world : World) : Prop where
  prompt : Prompt world
  links : world.queue.All fun frame => frame.frameType ≠ amqpFrameHeartbeat

/-- A call has returned no heartbeat. -/
def NoBeat (result : Except Status Frame) (world : World) : Prop :=
  Beatless world ∧ ∀ frame, result = .ok frame → frame.frameType ≠ amqpFrameHeartbeat

section Calls

variable {fuel : Nat}

theorem Beatless.of_quiet {before after : World} (quiet : Quiet before after)
    (beatless : Beatless before) : Beatless after :=
  ⟨beatless.prompt.of_quiet quiet, quiet.queue ▸ beatless.links⟩

theorem Beatless.moves {α : Type} {run : Call α} (moves : Moves Quiet run) : Keeps Beatless run :=
  moves.keeps fun _ _ => .of_quiet

theorem receiving_beatless : Receiving Beatless (fun _ => Beatless) Beatless where
  calm _ beatless := .inl beatless.prompt
  quiet _ _ quiet _ beatless := beatless.of_quiet quiet
  takes _ _ _ takes _ beatless := ⟨takes.prompt beatless.prompt, takes.queue ▸ beatless.links⟩
  consume := by
    have kept : ∀ before after, SameQueue before after → Beatless before → Beatless after :=
      fun before after same beatless =>
        ⟨beatless.prompt.congr same.script same.heartbeat same.nextRecvHeartbeat,
          same.queue ▸ beatless.links⟩
    refine (consumeOneFrame_ends ?_ ?_).strengthen fun _ both => both.1
    · exact fun before after same _ => kept before after same
    · exact fun before after _ same _ => kept before after same

theorem waitFrameInner_beatless {deadline : UInt64} :
    Triple Beatless (waitFrameInner deadline fuel) NoBeat (fun _ => Beatless) := by
  refine (receiving_beatless.waitFrameInner (fun _ _ _ beatless => beatless) deadline).weaken
    fun result world ends => ?_
  cases result with
  | ok frame =>
      refine ⟨ends.1, ?_⟩
      rintro _ ⟨⟩
      exact ends.2
  | error status => exact ⟨ends.elim id id, by simp⟩

/-- The new link holds the frame. -/
theorem createLinkForFrame_beatless {frame : Frame}
    (notBeat : frame.frameType ≠ amqpFrameHeartbeat) :
    Keeps Beatless (amqpCreateLinkForFrame frame) := by
  intro world beatless
  obtain ⟨script, poolTable, _, uses, created⟩ := createLinkForFrame_eq world frame
  have moved (queue : LinkedQueue Frame) :
      Prompt { world with script, queue, reader.poolTable := poolTable } :=
    beatless.prompt.of_links ⟨script, queue, poolTable, uses, rfl⟩
  rcases created with created | created
  · rw [created]
    exact ⟨moved _, beatless.links⟩
  · rw [created]
    exact ⟨moved _, beatless.links.create notBeat⟩

theorem queueReceived_beatless {frame : Frame} (notBeat : frame.frameType ≠ amqpFrameHeartbeat) :
    Keeps Beatless (queueReceived frame) := by
  refine Triple.bind (createLinkForFrame_beatless notBeat) fun link => ?_
  cases link with
  | none => exact .pure fun _ beatless => beatless
  | some link =>
      refine Triple.bind (.modify fun world beatless => ?_) fun _ => .pure fun _ beatless => beatless
      exact ⟨beatless.prompt.congr rfl rfl rfl, beatless.links.append link⟩

theorem amqpQueueFrame_beatless {frame : Frame} (notBeat : frame.frameType ≠ amqpFrameHeartbeat) :
    Keeps Beatless (amqpQueueFrame frame) := by
  refine Triple.bind (createLinkForFrame_beatless notBeat) fun link => ?_
  cases link with
  | none => exact .pure fun _ beatless => beatless
  | some link =>
      refine .get_bind fun world beatless => ?_
      rintro _ rfl
      cases appended : world.queue.appendAtFirst link with
      | none => exact beatless
      | some queue => exact ⟨beatless.prompt.congr rfl rfl rfl, beatless.links.appendAtFirst appended⟩

theorem amqpPutBackFrame_beatless {frame : Frame}
    (notBeat : frame.frameType ≠ amqpFrameHeartbeat) :
    Keeps Beatless (amqpPutBackFrame frame) := by
  refine Triple.bind (createLinkForFrame_beatless notBeat) fun link => ?_
  cases link with
  | none => exact .pure fun _ beatless => beatless
  | some link =>
      refine Triple.bind (.modify fun world beatless => ?_) fun _ => .pure fun _ beatless => beatless
      exact ⟨beatless.prompt.congr rfl rfl rfl, beatless.links.prepend link⟩

theorem waitFrameForChannel_beatless {channel : UInt16} :
    Triple Beatless (waitFrameForChannel channel fuel) NoBeat (fun _ => Beatless) := by
  induction fuel with
  | zero => exact .throw fun _ beatless => beatless
  | succ fuel ih =>
      refine Triple.bind waitFrameInner_beatless fun result => ?_
      cases result with
      | error status => exact .pure fun _ noBeat => ⟨noBeat.1, by simp⟩
      | ok frame =>
          refine .ite (fun _ => .pure fun _ noBeat => noBeat) fun _ => ?_
          intro world noBeat
          refine Triple.bind (amqpQueueFrame_beatless (noBeat.2 frame rfl)) (fun queued => ?_)
            noBeat.1
          cases queued with
          | error status => exact .pure fun _ beatless => ⟨beatless, by simp⟩
          | ok _ => exact ih

/-- A frame taken from the queue. -/
theorem Beatless.noBeat {world : World} {link : Link Frame} (beatless : Beatless world)
    (found : link.data.frameType ≠ amqpFrameHeartbeat) :
    NoBeat (.ok link.data) { world with queue := world.queue.startBehind link } := by
  refine ⟨⟨beatless.prompt.congr rfl rfl rfl, beatless.links.startBehind link⟩, ?_⟩
  rintro _ ⟨⟩
  exact found

theorem waitFrameOnChannel_beatless {channel : UInt16} :
    Triple Beatless (amqpSimpleWaitFrameOnChannel channel fuel) NoBeat (fun _ => Beatless) := by
  refine .get_bind fun world beatless => ?_
  rintro _ rfl
  cases found : world.queue.find (fun frame => channel == frame.channel) world.queue.reach
      world.queue.first with
  | some link => exact beatless.noBeat (beatless.links.find found)
  | none => exact waitFrameForChannel_beatless beatless

theorem waitFrameNoblock_beatless (timeout : Option Timeval) :
    Triple Beatless (amqpSimpleWaitFrameNoblock timeout fuel) NoBeat (fun _ => Beatless) := by
  have timed := Beatless.moves ((asks_timeFromNow timeout).mono fun _ _ => quiet_of_asks)
  refine Triple.bind timed fun result => ?_
  cases result with
  | error status => exact .pure fun _ beatless => ⟨beatless, by simp⟩
  | ok deadline =>
      refine .get_bind fun world beatless => ?_
      rintro _ rfl
      cases found : world.queue.front with
      | some link => exact beatless.noBeat (beatless.links.front found)
      | none => exact waitFrameInner_beatless beatless

theorem waitReply_beatless {channel : UInt16} {expectedReplyIds : List UInt32}
    {deadline : UInt64} : Keeps Beatless (waitReply channel expectedReplyIds deadline fuel) := by
  induction fuel with
  | zero => exact .throw fun _ beatless => beatless
  | succ fuel ih =>
      refine Triple.bind waitFrameInner_beatless fun result => ?_
      cases result with
      | error status =>
          refine Triple.strengthen ?_ fun _ noBeat => And.left noBeat
          split
          · have closes := Beatless.moves (quiet_of_still still_socketClose)
            exact Triple.bind closes fun _ => .pure fun _ beatless => beatless
          · exact .pure fun _ beatless => beatless
          · rename_i impossible
            cases impossible
      | ok frame =>
          dsimp only
          cases rpcReply? channel expectedReplyIds frame with
          | some reply => exact .pure fun _ noBeat => noBeat.1
          | none =>
              intro world noBeat
              refine Triple.bind (queueReceived_beatless (noBeat.2 frame rfl)) (fun queued => ?_)
                noBeat.1
              cases queued with
              | error status => exact .pure fun _ beatless => beatless
              | ok _ => exact ih

theorem sendFrameInner_beatless (frame : Frame) (flags : SendFlags) (deadline : UInt64) :
    Keeps Beatless (amqpSendFrameInner frame flags deadline fuel) := by
  intro world beatless
  have sends : Keeps (Quiet world) (amqpSendFrameInner frame flags deadline fuel) :=
    beatless.prompt.sendFrameInner frame flags deadline
  have quiet := sends (refl_of Quiet world)
  cases returned : amqpSendFrameInner frame flags deadline fuel world with
  | ok result after => exact beatless.of_quiet (sends.ok (refl_of Quiet world) returned)
  | error stop after => exact beatless.of_quiet (sends.error (refl_of Quiet world) returned)

theorem simpleRpc_beatless (rpcTimeout : Option Timeval) (channel : UInt16) (requestId : UInt32)
    (expectedReplyIds : List UInt32) (decodedRequestMethod : MethodFields requestId) :
    Keeps Beatless (amqpSimpleRpc rpcTimeout channel requestId expectedReplyIds
      decodedRequestMethod fuel) := by
  have timed := Beatless.moves ((asks_timeFromNow rpcTimeout).mono fun _ _ => quiet_of_asks)
  refine Triple.bind timed fun result => ?_
  cases result with
  | error status => exact .pure fun _ beatless => beatless
  | ok deadline =>
      refine Triple.bind (sendFrameInner_beatless _ _ _) fun sent => ?_
      cases sent with
      | error status => exact .pure fun _ beatless => beatless
      | ok _ => exact waitReply_beatless

theorem publishBody_beatless (channel : UInt16) (usableBodyPayloadSize : Nat)
    (remaining : List UInt8) :
    Keeps Beatless (publishBody channel usableBodyPayloadSize fuel remaining) := by
  induction fuel generalizing remaining with
  | zero => exact .throw fun _ beatless => beatless
  | succ fuel ih =>
      refine .ite (fun _ => .pure fun _ beatless => beatless) fun _ => ?_
      refine Triple.bind (sendFrameInner_beatless _ _ _) fun sent => ?_
      cases sent with
      | error status => exact .pure fun _ beatless => beatless
      | ok _ => exact ih _

theorem publishContent_beatless (channel : UInt16) (exchange routingKey : List UInt8)
    (mandatory immediate : Int32) (properties : Option (Properties amqpBasicClass))
    (body : List UInt8) :
    Keeps Beatless (publishContent channel exchange routingKey mandatory immediate properties body
      fuel) := by
  refine .read_bind fun world => Triple.bind (sendFrameInner_beatless _ _ _) fun sent => ?_
  cases sent with
  | error status => exact .pure fun _ beatless => beatless
  | ok _ =>
      refine Triple.bind (sendFrameInner_beatless _ _ _) fun sent => ?_
      cases sent with
      | error status => exact .pure fun _ beatless => beatless
      | ok _ => exact publishBody_beatless channel _ body

/-- A publish that begins in time does not call `amqp_try_recv`. -/
theorem basicPublish_beatless (channel : UInt16) (exchange routingKey : List UInt8)
    (mandatory immediate : Int32) (properties : Option (Properties amqpBasicClass))
    (body : List UInt8) :
    Triple (fun world => Beatless world ∧
        ∀ now ∈ world.script.clock.head?, ¬ now > world.nextRecvHeartbeat)
      (amqpBasicPublish channel exchange routingKey mandatory immediate properties body fuel)
      (fun _ => Beatless) (fun _ => Beatless) := by
  refine .get_bind fun world both => ?_
  rintro _ rfl
  have moves := Beatless.moves ((asks_timeHasPast world.nextRecvHeartbeat).mono
    fun _ _ => quiet_of_asks)
  cases returned : amqpTimeHasPast world.nextRecvHeartbeat world with
  | error stop after =>
      rw [bind_of_error returned]
      exact moves.error both.1 returned
  | ok past after =>
      rw [bind_of_ok returned]
      have beatless := moves.ok both.1 returned
      have continues := @publishContent_beatless fuel channel exchange routingKey mandatory
        immediate properties body _ beatless
      have notPast : past ≠ .error .timeout := by
        rintro rfl
        exact timeHasPast_ne_timeout both.2 returned
      match past with
      | .ok _ => exact continues
      | .error status =>
          cases status <;> first | exact continues | exact beatless | exact absurd rfl notPast

theorem readFragments_beatless (channel : UInt16) (size : Nat) (body : List UInt8) :
    Keeps Beatless (readFragments channel size fuel body) := by
  induction fuel generalizing body with
  | zero => exact .throw fun _ beatless => beatless
  | succ fuel ih =>
      refine .ite (fun _ => ?_) fun _ => .pure fun _ beatless => beatless
      refine Triple.bind waitFrameOnChannel_beatless fun result => ?_
      refine Triple.strengthen ?_ fun _ noBeat => And.left noBeat
      cases result with
      | error status => exact .pure fun _ beatless => beatless
      | ok frame =>
          refine .ite (fun _ => ?_) fun _ => ?_
          · cases closeMethod? frame with
            | some method => exact .pure fun _ beatless => beatless
            | none => exact .pure fun _ beatless => beatless
          · cases frame.payload with
            | bodyFragment bytes =>
                exact .ite (fun _ => .pure fun _ beatless => beatless) fun _ => ih _
            | none => exact .throw fun _ beatless => beatless
            | method id decoded => exact .throw fun _ beatless => beatless
            | properties classId bodySize decoded raw => exact .throw fun _ beatless => beatless
            | protocolHeader _ _ _ _ => exact .throw fun _ beatless => beatless

/-- What follows a wait deals with a frame that is no heartbeat. -/
theorem after_noBeat {α : Type} {frame : Frame} {next : Call α}
    (continues : frame.frameType ≠ amqpFrameHeartbeat → Keeps Beatless next) :
    Triple (NoBeat (.ok frame)) next (fun _ => Beatless) (fun _ => Beatless) :=
  fun _ noBeat => continues (noBeat.2 frame rfl) noBeat.1

theorem readMessage_beatless (allocs : List Bool) (channel : UInt16) :
    Keeps Beatless (amqpReadMessage allocs channel fuel) := by
  refine Triple.bind waitFrameOnChannel_beatless fun result => ?_
  cases result with
  | error status => exact .pure fun _ noBeat => noBeat.1
  | ok frame =>
      refine after_noBeat fun notBeat => .ite (fun _ => ?_) fun _ => ?_
      · cases closeMethod? frame with
        | some method => exact .pure fun _ beatless => beatless
        | none =>
            exact Triple.bind (amqpPutBackFrame_beatless notBeat) fun _ =>
              .pure fun _ beatless => beatless
      · split
        · exact .throw fun _ beatless => beatless
        · exact .pure fun _ beatless => beatless
        · refine Triple.bind (readFragments_beatless channel _ []) fun result => ?_
          cases result with
          | ok body => exact .pure fun _ beatless => beatless
          | error reply => exact .pure fun _ beatless => beatless

theorem consumeMessage_beatless (allocs : List Bool) (timeout : Option Timeval) :
    Keeps Beatless (amqpConsumeMessage allocs timeout fuel) := by
  refine Triple.bind (waitFrameNoblock_beatless timeout) fun result => ?_
  cases result with
  | error status => exact .pure fun _ noBeat => noBeat.1
  | ok frame =>
      refine after_noBeat fun notBeat => ?_
      dsimp only
      split
      · exact Triple.bind (amqpPutBackFrame_beatless notBeat) fun _ =>
          .pure fun _ beatless => beatless
      · exact .throw fun _ beatless => beatless
      · split
        · refine Triple.bind (readMessage_beatless _ _) fun result => ?_
          cases result with
          | ok message => exact .pure fun _ beatless => beatless
          | error reply => exact .pure fun _ beatless => beatless
        · exact .pure fun _ beatless => beatless

end Calls

/-! ## Runs -/

/-- A call that returns no frames. -/
theorem ignoring {α : Type} {run : Call α} {fits : World → Prop}
    (keeps : Triple fits run (fun _ => Beatless) (fun _ => Beatless)) :
    Triple fits (do let _ ← run; return ([] : List Frame))
      (fun frames world => Beatless world ∧
        ∀ frame ∈ frames, frame.frameType ≠ amqpFrameHeartbeat)
      (fun _ => Beatless) :=
  Triple.bind keeps fun _ => .pure fun _ beatless => ⟨beatless, by simp⟩

theorem returning {run : Call (Except Status Frame)}
    (waits : Triple Beatless run NoBeat (fun _ => Beatless)) :
    Triple Beatless (frameOf <$> run)
      (fun frames world => Beatless world ∧
        ∀ frame ∈ frames, frame.frameType ≠ amqpFrameHeartbeat)
      (fun _ => Beatless) := by
  refine Triple.bind waits fun result => .pure fun world noBeat => ⟨noBeat.1, ?_⟩
  cases result with
  | ok frame =>
      intro one member
      rw [List.mem_singleton.mp member]
      exact noBeat.2 frame rfl
  | error status => simp [frameOf]

theorem LibraryCall.run_beatless (call : LibraryCall) (fuel : Nat) :
    Triple (fun world => Beatless world ∧ InTime call world) (call.run fuel)
      (fun frames world => Beatless world ∧
        ∀ frame ∈ frames, frame.frameType ≠ amqpFrameHeartbeat)
      (fun _ => Beatless) := by
  cases call with
  | basicPublish channel exchange routingKey mandatory immediate properties body =>
      refine ignoring ((basicPublish_beatless channel exchange routingKey mandatory immediate
        properties body).strengthen fun _ both => ⟨both.1, both.2.2⟩)
  | sendFrame frame =>
      exact ignoring ((sendFrameInner_beatless frame _ _).strengthen fun _ both => both.1)
  | simpleRpc rpcTimeout channel requestId expectedReplyIds decodedRequestMethod =>
      exact ignoring ((simpleRpc_beatless rpcTimeout channel requestId expectedReplyIds
        decodedRequestMethod).strengthen fun _ both => both.1)
  | simpleWaitFrame =>
      exact (returning (waitFrameNoblock_beatless none)).strengthen fun _ both => both.1
  | simpleWaitFrameNoblock timeout =>
      exact (returning (waitFrameNoblock_beatless timeout)).strengthen fun _ both => both.1
  | readMessage allocs channel =>
      exact ignoring ((readMessage_beatless allocs channel).strengthen fun _ both => both.1)
  | consumeMessage allocs timeout =>
      exact ignoring ((consumeMessage_beatless allocs timeout).strengthen fun _ both => both.1)

theorem InTime.prompt {call : LibraryCall} {world : World} (inTime : InTime call world) :
    Prompt world := by
  cases call with
  | basicPublish => exact inTime.1
  | sendFrame => exact inTime
  | simpleRpc => exact inTime
  | simpleWaitFrame => exact inTime
  | simpleWaitFrameNoblock => exact inTime
  | readMessage => exact inTime
  | consumeMessage => exact inTime

theorem LibraryRun.beatless {stop : Option Stop} {world : World} {returned : List Frame}
    (run : LibraryRun InTime stop world returned) :
    (world.queue.All fun frame => frame.frameType ≠ amqpFrameHeartbeat) ∧
      ∀ frame ∈ returned, frame.frameType ≠ amqpFrameHeartbeat := by
  induction run with
  | start empty => exact ⟨empty ▸ LinkedQueue.all_empty, by simp⟩
  | @call world returned call fuel _ inTime ih =>
      have before : Beatless world := ⟨inTime.prompt, ih.1⟩
      have triple := call.run_beatless fuel
      cases ran : call.run fuel world with
      | error stop after =>
          refine ⟨(triple.error ⟨before, inTime⟩ ran).links, ?_⟩
          simpa [returnedBy] using ih.2
      | ok frames after =>
          obtain ⟨beatless, new⟩ := triple.ok ⟨before, inTime⟩ ran
          refine ⟨beatless.links, fun frame member => ?_⟩
          rcases List.mem_append.mp member with earlier | later
          · exact ih.2 frame earlier
          · exact new frame later

/-- No heartbeat is queued or returned in a run that does not call `amqp_try_recv`. -/
theorem libraryRun_beatless {stop : Option Stop} {world : World} {returned : List Frame}
    (run : LibraryRun InTime stop world returned) :
    (∀ frame ∈ world.queue.values, frame.frameType ≠ amqpFrameHeartbeat) ∧
      ∀ frame ∈ returned, frame.frameType ≠ amqpFrameHeartbeat :=
  ⟨run.beatless.1.values, run.beatless.2⟩

/-- A heartbeat is due and sent, another one arrives, and then a `connection.close`. -/
def beatenWorld : World :=
  beatingWorld
    { clock := [1500000000, 1500000000, 1500000000, 1600000000, 1600000000, 1700000000, 1700000000]
      recvs := [.data heartbeatChunk, .data connectionCloseChunk]
      sends := [.accepted 100]
      recvPolls := []
      sendPolls := []
      closes := []
      links := []
      memory := fun _ => grantingMemory }

/-- The heartbeat that arrives is decoded, and not returned. -/
theorem libraryRun_beatless_beaten :
    let result := LibraryCall.simpleWaitFrame.run 6 beatenWorld
    (∀ frame ∈ (endState result).queue.values, frame.frameType ≠ amqpFrameHeartbeat) ∧
      (∀ frame ∈ [] ++ returnedBy result, frame.frameType ≠ amqpFrameHeartbeat) ∧
      (returnedBy result).length = 1 ∧
      (newFrames beatenWorld (endState result)).map Frame.frameType = [8, 1] := by
  intro result
  have soon : beatenWorld.script.clock.all fun now =>
      ((beatenWorld.nextRecvHeartbeat - now) / nsPerMs).toNat < 2 ^ 31 := by decide +kernel
  have prompt : Prompt beatenWorld :=
    .inl ⟨List.not_mem_nil, by decide, by decide, fun now member _ _ =>
      of_decide_eq_true (List.all_eq_true.mp soon now member)⟩
  have start : LibraryRun InTime none beatenWorld [] := .start rfl
  have beatless := libraryRun_beatless (@LibraryRun.call _ _ _ .simpleWaitFrame 6 start prompt)
  exact ⟨beatless.1, beatless.2, by decide +kernel, by decide +kernel⟩

/-- A send waits for the broker twice, while heartbeats arrive. -/
def overdueWorld : World :=
  beatingWorld
    { clock := [1500000000, 2000000000, 2100000000, 4000000000, 4100000000, 4200000000]
      recvs := [.data heartbeatChunk, .data heartbeatChunk]
      sends := [.needWrite, .needWrite, .accepted 100]
      recvPolls := []
      sendPolls := [.timedOut, .timedOut]
      closes := []
      links := []
      memory := fun _ => grantingMemory }

def overdueSend (fuel : Nat) : Call (List Frame) :=
  (LibraryCall.sendFrame ⟨amqpFrameBody, 1, .bodyFragment [17]⟩).run fuel

/-- The first heartbeat is queued, and a call that waits for a frame returns it. -/
theorem late_send_returns_heartbeat :
    ¬ ∀ stop world returned, LibraryRun (fun _ _ => True) stop world returned →
      (∀ frame ∈ world.queue.values, frame.frameType ≠ amqpFrameHeartbeat) ∧
        ∀ frame ∈ returned, frame.frameType ≠ amqpFrameHeartbeat := by
  intro internal
  have start : LibraryRun (fun _ _ => True) none overdueWorld [] := .start rfl
  have sent : LibraryRun (fun _ _ => True) (stopOf (overdueSend 9 overdueWorld))
      (endState (overdueSend 9 overdueWorld)) ([] ++ returnedBy (overdueSend 9 overdueWorld)) :=
    start.call trivial
  rw [show stopOf (overdueSend 9 overdueWorld) = none by decide +kernel] at sent
  have waited := @LibraryRun.call _ _ _ .simpleWaitFrame 9 sent trivial
  have beat : ((returnedBy (LibraryCall.simpleWaitFrame.run 9
      (endState (overdueSend 9 overdueWorld)))).map Frame.frameType) = [amqpFrameHeartbeat] := by
    decide +kernel
  obtain ⟨frame, rest, frames, isBeat, _⟩ := List.map_eq_cons_iff.mp beat
  refine (internal _ _ _ waited).2 frame (List.mem_append_right _ ?_) isBeat
  rw [frames]
  exact List.mem_cons_self

end RabbitmqC
