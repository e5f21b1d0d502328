import RabbitmqC.Lib.Effect
import RabbitmqC.Socket.Transfer

/-!
# What the calls change

Every loop around the socket is described by a preorder on worlds that it moves
along, whether it returns or not. Asking the script changes nothing else;
receiving leaves the sending side alone, and sending leaves the receiving side
alone as long as no heartbeat runs late.
-/

set_option autoImplicit false

namespace RabbitmqC

open Effect

/-! ## Asking -/

/-- Answers were taken from the script. -/
structure Script.Uses (before after : Script) : Prop where
  memory : after.memory = before.memory
  clock : after.clock <:+ before.clock
  links : after.links <:+ before.links
  sendPolls : after.sendPolls <:+ before.sendPolls
  recvs : after.recvs <:+ before.recvs
  recvPolls : after.recvPolls <:+ before.recvPolls

theorem Script.Uses.refl (script : Script) : script.Uses script :=
  ⟨rfl, List.suffix_rfl, List.suffix_rfl, List.suffix_rfl, List.suffix_rfl, List.suffix_rfl⟩

theorem Script.Uses.trans {first second third : Script} (left : first.Uses second)
    (right : second.Uses third) : first.Uses third where
  memory := right.memory.trans left.memory
  clock := right.clock.trans left.clock
  links := right.links.trans left.links
  sendPolls := right.sendPolls.trans left.sendPolls
  recvs := right.recvs.trans left.recvs
  recvPolls := right.recvPolls.trans left.recvPolls

/-- Nothing but the script has changed, and the record of the polls. -/
def Asks (before after : World) : Prop :=
  ∃ script polls, before.script.Uses script ∧ after = { before with script, polls }

instance : IsPreorder World Asks where
  refl world := ⟨world.script, world.polls, .refl _, rfl⟩
  trans := by
    rintro world _ _ ⟨_, _, left, rfl⟩ ⟨script, polls, right, rfl⟩
    exact ⟨script, polls, left.trans right, rfl⟩

theorem asks_ask {α : Type} {answers : Script → List α} {keep : Script → List α → Script}
    (uses : ∀ script answer rest, answers script = answer :: rest →
      script.Uses (keep script rest)) : Moves Asks (ask answers keep) := by
  refine Moves.get_bind fun world => ?_
  cases answered : answers world.script with
  | nil => exact refl_of Asks world
  | cons answer rest => exact ⟨_, world.polls, uses _ _ _ answered, rfl⟩

theorem ask_eq_ok {α : Type} {answers : Script → List α} {keep : Script → List α → Script}
    {world after : World} {answer : α} (returned : ask answers keep world = .ok answer after) :
    ∃ rest, answers world.script = answer :: rest ∧
      after = { world with script := keep world.script rest } := by
  unfold ask at returned
  rw [bind_of_ok (get_run world)] at returned
  cases answered : answers world.script with
  | nil =>
      rw [answered] at returned
      cases returned
  | cons head rest =>
      rw [answered] at returned
      cases returned
      exact ⟨rest, rfl, rfl⟩

theorem ask_of_cons {α : Type} {answers : Script → List α} {keep : Script → List α → Script}
    {world : World} {answer : α} {rest : List α} (answered : answers world.script = answer :: rest) :
    ask answers keep world = .ok answer { world with script := keep world.script rest } := by
  unfold ask
  rw [bind_of_ok (get_run world), answered]
  rfl

theorem ask_of_nil {α : Type} {answers : Script → List α} {keep : Script → List α → Script}
    {world : World} (unanswered : answers world.script = []) :
    ask answers keep world = .error .blocked world := by
  unfold ask
  rw [bind_of_ok (get_run world), unanswered]
  rfl

theorem timestamp_of_cons {world : World} {now : UInt64} {clock : List UInt64}
    (isClock : world.script.clock = now :: clock) :
    amqpGetMonotonicTimestamp world = .ok now { world with script.clock := clock } :=
  ask_of_cons isClock

theorem asks_timestamp : Moves Asks amqpGetMonotonicTimestamp := by
  refine asks_ask fun script answer rest same => { Script.Uses.refl script with clock := ?_ }
  exact ⟨[answer], same.symm⟩

theorem asks_timeSFromNow (time : UInt64) (seconds : Int) :
    Moves Asks (amqpTimeSFromNow time seconds) :=
  .ite (fun _ => .pure) fun _ => asks_timestamp.bind fun _ => .ite (fun _ => .pure) fun _ => .pure

theorem asks_timeFromNow (timeout : Option Timeval) : Moves Asks (amqpTimeFromNow timeout) := by
  cases timeout with
  | none => exact .pure
  | some timeout =>
      unfold amqpTimeFromNow
      refine .ite (fun _ => .pure) fun _ => asks_timestamp.bind fun now => ?_
      refine .ite (fun _ => .pure) fun _ => ?_
      split
      exact .pure

theorem asks_timeMsUntil (time : UInt64) : Moves Asks (amqpTimeMsUntil time) := by
  refine .ite (fun _ => .pure) fun _ => .ite (fun _ => .pure) fun _ => ?_
  refine asks_timestamp.bind fun now => ?_
  exact .ite (fun _ => .pure) fun _ => .ite (fun _ => .pure) fun _ => .pure

theorem asks_timeHasPast (time : UInt64) : Moves Asks (amqpTimeHasPast time) := by
  refine .ite (fun _ => .pure) fun _ => asks_timestamp.bind fun now => ?_
  exact .ite (fun _ => .pure) fun _ => .ite (fun _ => .pure) fun _ => .pure

theorem asks_waitingPoll (waiting : Waiting) : Moves Asks waiting.poll := by
  unfold Waiting.poll
  cases waiting with
  | toReceive =>
      refine asks_ask fun script answer rest same =>
        { Script.Uses.refl script with recvPolls := ?_ }
      exact ⟨[answer], same.symm⟩
  | toSend =>
      refine asks_ask fun script answer rest same =>
        { Script.Uses.refl script with sendPolls := ?_ }
      exact ⟨[answer], same.symm⟩

theorem asks_recordPoll (deadline : UInt64) : Moves Asks (recordPoll deadline) :=
  .modify fun world => ⟨world.script, _, .refl _, rfl⟩

theorem asks_poll (waiting : Waiting) (deadline : UInt64) (fuel : Nat) :
    Moves Asks (amqpPoll waiting deadline fuel) := by
  induction fuel with
  | zero => exact .throw
  | succ fuel ih =>
      refine (asks_recordPoll deadline).bind fun _ => ?_
      refine (asks_timeMsUntil deadline).bind fun timeoutMs => .ite (fun _ => .pure) fun _ => ?_
      refine (asks_waitingPoll waiting).bind fun answer => ?_
      cases answer with
      | ready => exact .pure
      | timedOut => exact .ite (fun _ => ih) fun _ => .pure
      | interrupted => exact ih
      | failed => exact .pure

theorem asks_socketRecv : Moves Asks amqpSocketRecv := by
  refine Moves.bind .get fun world => .ite (fun _ => ?_) fun _ => .pure
  refine Moves.bind (asks_ask fun script answer rest same =>
    { Script.Uses.refl script with recvs := ?_ }) fun answer => ?_
  · exact ⟨[answer], same.symm⟩
  · cases answer <;> exact .pure

theorem asks_allocateLink : Moves Asks allocateLink := by
  refine Moves.get_bind fun world => ?_
  cases answered : world.script.links with
  | nil => exact refl_of Asks world
  | cons granted rest =>
      refine ⟨{ world.script with links := rest }, world.polls,
        { Script.Uses.refl world.script with links := ?_ }, rfl⟩
      exact ⟨[granted], answered.symm⟩

/-! ## Receiving -/

/-- The sending side of a world. -/
def World.sending (world : World) : List WireEvent × Bool := (world.wire, world.socketOpen)

/-- Nothing is sent, and the socket is not closed. -/
abbrev Receives : World → World → Prop := Unchanged World.sending

/-- Nothing is encoded for sending either. -/
abbrev Inward : World → World → Prop := Unchanged fun world => (world.sending, world.outbound)

theorem receives_of_inward {before after : World} (inward : Inward before after) :
    Receives before after := (Prod.mk.inj inward).1

theorem inward_of_asks {before after : World} (asks : Asks before after) :
    Inward before after := by
  obtain ⟨script, _, _, rfl⟩ := asks
  rfl

theorem receives_of_asks {before after : World} (asks : Asks before after) :
    Receives before after := receives_of_inward (inward_of_asks asks)

theorem inward_awaitHeartbeat : Moves Inward awaitHeartbeat := by
  refine Moves.bind .get fun world => ?_
  refine ((asks_timeSFromNow _ _).mono fun _ _ => inward_of_asks).bind fun answer => ?_
  exact Moves.bind (.modify fun _ => rfl) fun _ => .pure

theorem inward_recvWithTimeout (timeout : UInt64) (fuel : Nat) :
    Moves Inward (recvWithTimeout timeout fuel) := by
  induction fuel with
  | zero => exact .throw
  | succ fuel ih =>
      refine (asks_socketRecv.mono fun _ _ => inward_of_asks).bind fun answer => ?_
      cases answer with
      | ok octets => exact Moves.bind (.modify fun _ => rfl) fun _ => inward_awaitHeartbeat
      | error status =>
          refine Moves.bind .get fun world => .ite (fun _ => .ite (fun _ => ?_) fun _ => .pure)
            fun _ => .pure
          refine ((asks_poll _ _ _).mono fun _ _ => inward_of_asks).bind fun answer => ?_
          cases answer with
          | ok _ => exact ih
          | error status => exact .pure

theorem unread_ne_nil {world : World} (data : amqpDataInBuffer world = true) :
    world.unread ≠ [] := by
  unfold amqpDataInBuffer at data
  unfold World.unread
  simpa using data

/-- What `consume_one_frame` makes of the unread octets. -/
inductive Consumption (world : World) :
    EStateM.Result Stop World (Except Status Frame) → Prop where
  | stranded {fault : Fault} :
      amqpHandleInput (world.script.memory world.framesRead) world.reader world.unread =
        .error fault →
      Consumption world (.error (.fault fault) world)
  | refused {reader : Reader} {status : Status} {frame : Frame} :
      amqpHandleInput (world.script.memory world.framesRead) world.reader world.unread =
        .ok ⟨reader, .error status, frame⟩ →
      Consumption world (.ok (.error status) (world.failInput reader status))
  | taken {reader : Reader} {res : Int} {frame : Frame} :
      amqpHandleInput (world.script.memory world.framesRead) world.reader world.unread =
        .ok ⟨reader, .ok res, frame⟩ →
      Consumption world
        (.ok (.ok frame) (world.goPast ⟨reader, .ok res, frame⟩ (sizeOfInt res)))

theorem consumption (world : World) : Consumption world (consumeOneFrame world) := by
  unfold consumeOneFrame
  rw [bind_of_ok (get_run world)]
  cases fed : amqpHandleInput (world.script.memory world.framesRead) world.reader
      world.unread with
  | error fault => exact .stranded fed
  | ok handled =>
      obtain ⟨reader, result, frame⟩ := handled
      cases result with
      | error status => exact .refused fed
      | ok res => exact .taken fed

theorem inward_consumeOneFrame : Moves Inward consumeOneFrame := by
  intro world
  have consumed := consumption world
  generalize consumeOneFrame world = ran at consumed
  cases consumed with
  | stranded => rfl
  | refused => rfl
  | taken => rfl

theorem inward_linkPool (channel : UInt16) : Moves Inward (linkPool channel) := by
  refine Moves.bind .get fun world => .ite (fun _ => .pure) fun _ => ?_
  refine (asks_allocateLink.mono fun _ _ => inward_of_asks).bind fun granted => ?_
  exact .ite (fun _ => Moves.bind (.modify fun _ => rfl) fun _ => .pure) fun _ => .pure

theorem inward_createLinkForFrame (frame : Frame) :
    Moves Inward (amqpCreateLinkForFrame frame) := by
  have allocation := asks_allocateLink.mono fun _ _ => inward_of_asks
  refine (inward_linkPool _).bind fun pool => .ite (fun _ => ?_) fun _ => .pure
  refine allocation.bind fun link => allocation.bind fun frameCopy => ?_
  exact .ite (fun _ => .get_bind fun world => rfl) fun _ => .pure

theorem inward_queueReceived (frame : Frame) : Moves Inward (queueReceived frame) := by
  refine (inward_createLinkForFrame frame).bind fun link => ?_
  cases link with
  | none => exact .pure
  | some link => exact Moves.bind (.modify fun _ => rfl) fun _ => .pure

theorem inward_tryRecv (fuel : Nat) : Moves Inward (amqpTryRecv fuel) := by
  induction fuel with
  | zero => exact .throw
  | succ fuel ih =>
      refine Moves.bind .get fun world => .ite (fun _ => ?_) fun _ => ?_
      · refine inward_consumeOneFrame.bind fun consumed => ?_
        cases consumed with
        | error status => exact .pure
        | ok frame =>
            refine .ite (fun _ => (inward_queueReceived frame).bind fun queued => ?_) fun _ => ih
            cases queued with
            | error status => exact .pure
            | ok _ => exact ih
      · refine ((asks_timeSFromNow _ _).mono fun _ _ => inward_of_asks).bind fun answer => ?_
        obtain ⟨timeout, result⟩ := answer
        cases result with
        | error status => exact .pure
        | ok _ => exact inward_recvWithTimeout timeout fuel

/-! ## Queueing -/

/-- Links were created: the queue and the pool table may have changed. -/
def Links (before after : World) : Prop :=
  ∃ script queue poolTable, before.script.Uses script ∧
    after = { before with script, queue, reader.poolTable := poolTable }

instance : IsPreorder World Links where
  refl world := ⟨world.script, world.queue, world.reader.poolTable, .refl _, rfl⟩
  trans := by
    rintro world _ _ ⟨_, _, _, left, rfl⟩ ⟨script, queue, poolTable, right, rfl⟩
    exact ⟨script, queue, poolTable, left.trans right, rfl⟩

theorem links_allocateLink : Moves Links allocateLink := by
  refine Moves.get_bind fun world => ?_
  cases answered : world.script.links with
  | nil => exact refl_of Links world
  | cons granted rest =>
      refine ⟨{ world.script with links := rest }, world.queue, world.reader.poolTable,
        { Script.Uses.refl world.script with links := ?_ }, rfl⟩
      exact ⟨[granted], answered.symm⟩

theorem links_of_queue (world : World) (queue : LinkedQueue Frame) :
    Links world { world with queue } :=
  ⟨world.script, queue, world.reader.poolTable, .refl _, rfl⟩

theorem links_createLinkForFrame (frame : Frame) : Moves Links (amqpCreateLinkForFrame frame) := by
  have allocation := links_allocateLink
  have pool : Moves Links (linkPool frame.channel) := by
    refine Moves.bind .get fun world => .ite (fun _ => .pure) fun _ => allocation.bind fun _ => ?_
    refine .ite (fun _ => Moves.bind (.modify fun world => ?_) fun _ => .pure) fun _ => .pure
    exact ⟨world.script, world.queue, _, .refl _, rfl⟩
  refine pool.bind fun granted => .ite (fun _ => ?_) fun _ => .pure
  refine allocation.bind fun link => allocation.bind fun frameCopy => ?_
  exact .ite (fun _ => .get_bind fun world => links_of_queue world _) fun _ => .pure

theorem links_queueReceived (frame : Frame) : Moves Links (queueReceived frame) := by
  refine (links_createLinkForFrame frame).bind fun link => ?_
  cases link with
  | none => exact .pure
  | some link =>
      exact Moves.bind (.modify fun world => links_of_queue world _) fun _ => .pure

theorem links_amqpQueueFrame (frame : Frame) : Moves Links (amqpQueueFrame frame) := by
  refine (links_createLinkForFrame frame).bind fun link => ?_
  cases link with
  | none => exact .pure
  | some link =>
      refine .get_bind fun world => ?_
      cases world.queue.appendAtFirst link with
      | some queue => exact links_of_queue world queue
      | none => exact refl_of Links world

theorem links_amqpPutBackFrame (frame : Frame) : Moves Links (amqpPutBackFrame frame) := by
  refine (links_createLinkForFrame frame).bind fun link => ?_
  cases link with
  | none => exact .pure
  | some link =>
      exact Moves.bind (.modify fun world => links_of_queue world _) fun _ => .pure

/-! ## Sending -/

/-- The receiving side is the same as before. -/
structure Quiet (before after : World) : Prop where
  reader : after.reader = before.reader
  heartbeat : after.heartbeat = before.heartbeat
  nextRecvHeartbeat : after.nextRecvHeartbeat = before.nextRecvHeartbeat
  sockInbound : after.sockInbound = before.sockInbound
  sockInboundOffset : after.sockInboundOffset = before.sockInboundOffset
  queue : after.queue = before.queue
  framesRead : after.framesRead = before.framesRead
  taken : after.taken = before.taken
  consumed : after.consumed = before.consumed
  decoded : after.decoded = before.decoded
  inputError : after.inputError = before.inputError
  uses : before.script.Uses after.script

instance : IsPreorder World Quiet where
  refl _ := ⟨rfl, rfl, rfl, rfl, rfl, rfl, rfl, rfl, rfl, rfl, rfl, .refl _⟩
  trans _ _ _ left right :=
    { reader := right.reader.trans left.reader
      heartbeat := right.heartbeat.trans left.heartbeat
      nextRecvHeartbeat := right.nextRecvHeartbeat.trans left.nextRecvHeartbeat
      sockInbound := right.sockInbound.trans left.sockInbound
      sockInboundOffset := right.sockInboundOffset.trans left.sockInboundOffset
      queue := right.queue.trans left.queue
      framesRead := right.framesRead.trans left.framesRead
      taken := right.taken.trans left.taken
      consumed := right.consumed.trans left.consumed
      decoded := right.decoded.trans left.decoded
      inputError := right.inputError.trans left.inputError
      uses := left.uses.trans right.uses }

/-- The next heartbeat is not moved either. -/
structure Still (before after : World) : Prop extends Quiet before after where
  nextSendHeartbeat : after.nextSendHeartbeat = before.nextSendHeartbeat

instance : IsPreorder World Still where
  refl world := ⟨refl_of Quiet world, rfl⟩
  trans _ _ _ left right :=
    ⟨trans_of Quiet left.toQuiet right.toQuiet,
      right.nextSendHeartbeat.trans left.nextSendHeartbeat⟩

theorem still_of_asks {before after : World} (asks : Asks before after) : Still before after := by
  obtain ⟨script, polls, uses, rfl⟩ := asks
  exact ⟨⟨rfl, rfl, rfl, rfl, rfl, rfl, rfl, rfl, rfl, rfl, rfl, uses⟩, rfl⟩

theorem quiet_of_asks {before after : World} (asks : Asks before after) : Quiet before after :=
  (still_of_asks asks).toQuiet

/-- A change of what sending alone uses. -/
theorem still_of_sending {before : World} (outbound : Buffer) (socketOpen : Bool)
    (wire : List WireEvent) : Still before { before with outbound, socketOpen, wire } :=
  ⟨⟨rfl, rfl, rfl, rfl, rfl, rfl, rfl, rfl, rfl, rfl, rfl, .refl _⟩, rfl⟩

theorem still_socketSend (buf : List UInt8) : Moves Still (amqpSocketSend buf) := by
  refine Moves.bind .get fun world => .ite (fun _ => ?_) fun _ => .pure
  refine Moves.bind (Moves.mono (asks_ask fun script _ _ _ => ?_) fun _ _ => still_of_asks)
    fun answer => ?_
  · exact { Script.Uses.refl script with }
  · cases answer with
    | accepted count =>
        exact Moves.bind (.modify fun _ => still_of_sending _ _ _) fun _ => .pure
    | needRead => exact .pure
    | needWrite => exact .pure
    | failed failure => exact .pure

theorem still_socketClose : Moves Still amqpSocketClose := by
  refine Moves.bind .get fun world => .ite (fun _ => ?_) fun _ => .pure
  refine Moves.bind (Moves.mono (asks_ask fun script _ _ _ => ?_) fun _ _ => still_of_asks)
    fun closed => ?_
  · exact { Script.Uses.refl script with }
  · exact .ite (fun _ => Moves.bind (.modify fun _ => still_of_sending _ _ _) fun _ => .pure)
      fun _ => .pure

theorem still_encodeOutbound (frame : Frame) : Moves Still (encodeOutbound frame) := by
  refine Moves.get_bind fun world => ?_
  cases amqpFrameToBytes frame world.outbound.size world.outbound with
  | ok count outbound => exact still_of_sending outbound _ _
  | error failure outbound =>
      cases failure with
      | status status => exact still_of_sending outbound _ _
      | fault fault => exact refl_of Still world

theorem still_maybeReleaseBuffersOnChannel (channel : UInt16) :
    Moves Still (amqpMaybeReleaseBuffersOnChannel channel) := by
  refine .get_bind fun world => ?_
  cases world.queue.find (fun frame => channel == frame.channel) world.queue.reach
    world.queue.first with
  | some link => split <;> exact refl_of Still world
  | none =>
      split
      · exact refl_of Still world
      · dsimp only
        split
        · exact ⟨⟨rfl, rfl, rfl, rfl, rfl, rfl, rfl, rfl, rfl, rfl, rfl, .refl _⟩, rfl⟩
        · exact refl_of Still world

theorem quiet_of_still {α : Type} {run : Call α} (moves : Moves Still run) : Moves Quiet run :=
  moves.mono fun _ _ => Still.toQuiet

theorem quiet_scheduleHeartbeat : Moves Quiet scheduleHeartbeat := by
  refine Moves.bind .get fun world => ?_
  refine ((asks_timeSFromNow _ _).mono fun _ _ => quiet_of_asks).bind fun answer => ?_
  refine Moves.bind (.modify fun world => ?_) fun _ => .pure
  exact ⟨rfl, rfl, rfl, rfl, rfl, rfl, rfl, rfl, rfl, rfl, rfl, .refl _⟩

end RabbitmqC
