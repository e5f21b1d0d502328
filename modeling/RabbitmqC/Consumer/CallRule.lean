import RabbitmqC.Consumer.Message

/-!
# A rule for all calls

An invariant of the library calls, heartbeats that run late included, needs to
survive what the calls are made of: steps that leave the reader and the queue
alone, a consumed frame, a frame put into the queue or taken from it, and a
released pool. A frame that was decoded or taken and not yet put away is in hand.
-/

set_option autoImplicit false

namespace RabbitmqC

open Effect

/-- Neither the reader nor the queue nor the pools have changed. -/
def Around (before after : World) : Prop :=
  ∃ script polls outbound socketOpen wire nextSendHeartbeat nextRecvHeartbeat sockInbound
      sockInboundOffset taken, before.script.Uses script ∧
    after =
      { before with
        script, polls, outbound, socketOpen, wire
        nextSendHeartbeat, nextRecvHeartbeat, sockInbound, sockInboundOffset, taken }

instance : IsPreorder World Around where
  refl world := ⟨_, _, _, _, _, _, _, _, _, _, .refl world.script, rfl⟩
  trans := by
    rintro world _ _ ⟨_, _, _, _, _, _, _, _, _, _, left, rfl⟩
      ⟨_, _, _, _, _, _, _, _, _, _, right, rfl⟩
    exact ⟨_, _, _, _, _, _, _, _, _, _, left.trans right, rfl⟩

theorem around_of_asks {before after : World} (asks : Asks before after) : Around before after := by
  obtain ⟨script, polls, uses, rfl⟩ := asks
  exact ⟨_, _, _, _, _, _, _, _, _, _, uses, rfl⟩

theorem around_socketSend (buf : List UInt8) : Moves Around (amqpSocketSend buf) := by
  refine Moves.bind .get fun world => .ite (fun _ => ?_) fun _ => .pure
  refine Moves.bind (Moves.mono (asks_ask fun script _ _ _ => ?_) fun _ _ => around_of_asks)
    fun answer => ?_
  · exact { Script.Uses.refl script with }
  · cases answer with
    | accepted count =>
        refine Moves.bind (.modify fun world => ?_) fun _ => .pure
        exact ⟨_, _, _, _, _, _, _, _, _, _, .refl _, rfl⟩
    | needRead => exact .pure
    | needWrite => exact .pure
    | failed failure => exact .pure

theorem around_socketClose : Moves Around amqpSocketClose := by
  refine Moves.bind .get fun world => .ite (fun _ => ?_) fun _ => .pure
  refine Moves.bind (Moves.mono (asks_ask fun script _ _ _ => ?_) fun _ _ => around_of_asks)
    fun closed => ?_
  · exact { Script.Uses.refl script with }
  · refine .ite (fun _ => Moves.bind (.modify fun world => ?_) fun _ => .pure) fun _ => .pure
    exact ⟨_, _, _, _, _, _, _, _, _, _, .refl _, rfl⟩

theorem around_doPoll (res : Except Status Unit) (deadline : UInt64) (fuel : Nat) :
    Moves Around (doPoll res deadline fuel) := by
  have poll := (asks_poll .toSend deadline fuel).mono fun _ _ => around_of_asks
  refine Moves.bind .get fun world => .ite (fun _ => ?_) fun _ => .pure
  split
  · exact poll
  · exact poll
  · exact .pure

theorem around_trySendLeft (len : Nat) (deadline : UInt64) (fuel : Nat) (left : List UInt8) :
    Moves Around (trySendLeft len deadline fuel left) := by
  induction fuel generalizing left with
  | zero => exact .throw
  | succ fuel ih =>
      refine (around_socketSend left).bind fun result => ?_
      split
      · exact .ite (fun _ => .pure) fun _ => ih _
      · refine (around_doPoll _ deadline fuel).bind fun polled => ?_
        split
        · exact ih left
        · exact .pure
        · exact .pure

theorem around_awaitHeartbeat : Moves Around awaitHeartbeat := by
  refine Moves.bind .get fun world => ?_
  refine ((asks_timeSFromNow _ _).mono fun _ _ => around_of_asks).bind fun answer => ?_
  refine Moves.bind (.modify fun world => ?_) fun _ => .pure
  exact ⟨_, _, _, _, _, _, _, _, _, _, .refl _, rfl⟩

theorem around_scheduleHeartbeat : Moves Around scheduleHeartbeat := by
  refine Moves.bind .get fun world => ?_
  refine ((asks_timeSFromNow _ _).mono fun _ _ => around_of_asks).bind fun answer => ?_
  refine Moves.bind (.modify fun world => ?_) fun _ => .pure
  exact ⟨_, _, _, _, _, _, _, _, _, _, .refl _, rfl⟩

theorem around_encodeOutbound (frame : Frame) : Moves Around (encodeOutbound frame) := by
  refine Moves.get_bind fun world => ?_
  cases amqpFrameToBytes frame world.outbound.size world.outbound with
  | ok count outbound => exact ⟨_, _, _, _, _, _, _, _, _, _, .refl _, rfl⟩
  | error failure outbound =>
      cases failure with
      | status status => exact ⟨_, _, _, _, _, _, _, _, _, _, .refl _, rfl⟩
      | fault fault => exact refl_of Around world

theorem around_recvWithTimeout (timeout : UInt64) (fuel : Nat) :
    Moves Around (recvWithTimeout timeout fuel) := by
  induction fuel with
  | zero => exact .throw
  | succ fuel ih =>
      refine (asks_socketRecv.mono fun _ _ => around_of_asks).bind fun answer => ?_
      cases answer with
      | ok octets =>
          refine Moves.bind (.modify fun world => ?_) fun _ => around_awaitHeartbeat
          exact ⟨_, _, _, _, _, _, _, _, _, _, .refl _, rfl⟩
      | error status =>
          refine Moves.bind .get fun world => .ite (fun _ => .ite (fun _ => ?_) fun _ => .pure)
            fun _ => .pure
          refine ((asks_poll _ _ _).mono fun _ _ => around_of_asks).bind fun answer => ?_
          cases answer with
          | ok _ => exact ih
          | error status => exact .pure

/-! ## The rule -/

/-- What is left to show for `inv` to be an invariant of all calls, with `held` about a
frame in hand. -/
structure CallRule (inv : World → Prop) (held : Frame → World → Prop) : Prop where
  putAway : ∀ {frame world}, held frame world → inv world
  around : ∀ {before after}, Around before after → inv before → inv after
  consume : Triple inv consumeOneFrame
    (fun result world => match result with
      | .ok frame => if frame.frameType = 0 then inv world else held frame world
      | .error _ => inv world)
    (fun _ => inv)
  queueReceived : ∀ frame, Triple (held frame) (queueReceived frame) (fun _ => inv) (fun _ => inv)
  queueFrame : ∀ frame, Triple (held frame) (amqpQueueFrame frame) (fun _ => inv) (fun _ => inv)
  putBackFrame : ∀ frame,
    Triple (held frame) (amqpPutBackFrame frame) (fun _ => inv) (fun _ => inv)
  front : ∀ {world link}, inv world → world.queue.front = some link →
    held link.data { world with queue := world.queue.startBehind link }
  find : ∀ {world link channel}, inv world →
    world.queue.find (fun frame => channel == frame.channel) world.queue.reach
      world.queue.first = some link →
    held link.data { world with queue := world.queue.startBehind link }
  release : ∀ channel, Keeps inv (amqpMaybeReleaseBuffersOnChannel channel)

/-- How a call ends that waits for a frame. -/
def Waited (inv : World → Prop) (held : Frame → World → Prop) (result : Except Status Frame)
    (world : World) : Prop :=
  match result with
  | .ok frame => held frame world
  | .error _ => inv world

namespace CallRule

section Rule

variable {inv : World → Prop} {held : Frame → World → Prop} {fuel : Nat}

theorem waited (rule : CallRule inv held) {result : Except Status Frame} {world : World}
    (ends : Waited inv held result world) : inv world := by
  cases result with
  | ok frame => exact rule.putAway ends
  | error status => exact ends

theorem moves (rule : CallRule inv held) {α : Type} {run : Call α} (along : Moves Around run) :
    Keeps inv run :=
  along.keeps fun _ _ => rule.around

theorem tryRecv (rule : CallRule inv held) : Keeps inv (amqpTryRecv fuel) := by
  induction fuel with
  | zero => exact .throw fun _ holds => holds
  | succ fuel ih =>
      refine .read_bind fun world => .ite (fun _ => ?_) fun _ => ?_
      · refine Triple.bind rule.consume fun consumed => ?_
        cases consumed with
        | error status => exact .pure fun _ holds => holds
        | ok frame =>
            dsimp only
            by_cases ignored : frame.frameType = 0
            · simp only [ignored, ne_eq, not_true_eq_false, if_true, if_false]
              exact ih
            · simp only [ignored, ne_eq, not_false_eq_true, if_true, if_false]
              refine Triple.bind (rule.queueReceived frame) fun queued => ?_
              cases queued with
              | error status => exact .pure fun _ holds => holds
              | ok _ => exact ih
      · have timed := rule.moves ((asks_timeSFromNow 0 0).mono fun _ _ => around_of_asks)
        refine Triple.bind timed fun answer => ?_
        obtain ⟨timeout, result⟩ := answer
        cases result with
        | error status => exact .pure fun _ holds => holds
        | ok _ => exact rule.moves (around_recvWithTimeout timeout fuel)

theorem sendEncoded (rule : CallRule inv held) (deadline : UInt64) (encoded : List UInt8) :
    Keeps inv (sendEncoded deadline fuel encoded) := by
  induction fuel generalizing encoded with
  | zero => exact .throw fun _ holds => holds
  | succ fuel ih =>
      refine .read_bind fun world => ?_
      refine Triple.bind (rule.moves (around_trySendLeft _ _ fuel encoded)) fun result => ?_
      cases result with
      | error status => exact .pure fun _ holds => holds
      | ok sent =>
          refine .ite (fun _ => rule.moves around_scheduleHeartbeat) fun _ => ?_
          refine .ite (fun _ => .pure fun _ holds => holds) fun _ => ?_
          refine Triple.bind rule.tryRecv fun received => ?_
          split
          · exact .pure fun _ holds => holds
          · exact .pure fun _ holds => holds
          · exact ih _

theorem sendFrameInner (rule : CallRule inv held) (frame : Frame) (flags : SendFlags)
    (deadline : UInt64) : Keeps inv (amqpSendFrameInner frame flags deadline fuel) := by
  refine Triple.bind (rule.moves (around_encodeOutbound frame)) fun result => ?_
  cases result with
  | error status => exact .pure fun _ holds => holds
  | ok encoded =>
      refine Triple.bind (.modify fun world holds => ?_) fun _ => rule.sendEncoded deadline encoded
      exact rule.around ⟨_, _, _, _, _, _, _, _, _, _, .refl _, rfl⟩ holds

theorem drainToFrame (rule : CallRule inv held) : Triple inv (drainToFrame fuel)
    (fun result world => match result with
      | .ok (some frame) => held frame world
      | _ => inv world) (fun _ => inv) := by
  induction fuel with
  | zero => exact .throw fun _ holds => holds
  | succ fuel ih =>
      refine .read_bind fun world => .ite (fun _ => ?_) fun _ => .pure fun _ holds => holds
      refine Triple.bind rule.consume fun consumed => ?_
      cases consumed with
      | error status => exact .pure fun _ holds => holds
      | ok frame =>
          dsimp only
          by_cases ignored : frame.frameType = 0
          · simp only [ignored, ne_eq, not_true_eq_false, if_true, if_false]
            exact ih
          · simp only [if_neg ignored]
            refine .ite (fun _ => ?_) fun _ => .ite (fun _ => ?_) fun zero => absurd ignored zero
            · refine Triple.bind ((rule.release 0).strengthen fun _ => rule.putAway) fun _ => ih
            · exact .pure fun _ holds => holds

theorem sendDueHeartbeat (rule : CallRule inv held) : Keeps inv (sendDueHeartbeat fuel) := by
  refine .read_bind fun world => ?_
  refine Triple.bind (rule.moves ((asks_timeHasPast _).mono fun _ _ => around_of_asks))
    fun past => ?_
  split
  · exact .pure fun _ holds => holds
  · exact rule.sendFrameInner _ _ _
  · exact .pure fun _ holds => holds

theorem beginRecv (rule : CallRule inv held) (deadline : UInt64) :
    Keeps inv (beginRecv deadline fuel) := by
  induction fuel with
  | zero => exact .throw fun _ holds => holds
  | succ fuel ih =>
      refine Triple.bind rule.sendDueHeartbeat fun result => ?_
      cases result with
      | error status => exact .pure fun _ holds => holds
      | ok _ =>
          refine .read_bind fun world => ?_
          refine Triple.bind (rule.moves (around_recvWithTimeout _ fuel)) fun received => ?_
          split
          · refine .read_bind fun later => .ite (fun _ => ?_) fun _ => ?_
            · exact Triple.bind (rule.moves around_socketClose) fun _ => .pure fun _ holds => holds
            · refine .ite (fun _ => .pure fun _ holds => holds) fun _ => .ite (fun _ => ih) fun _ => ?_
              exact .throw fun _ holds => holds
          · exact .pure fun _ holds => holds

theorem waitFrameInner (rule : CallRule inv held) (deadline : UInt64) :
    Triple inv (waitFrameInner deadline fuel) (Waited inv held) (fun _ => inv) := by
  induction fuel with
  | zero => exact .throw fun _ holds => holds
  | succ fuel ih =>
      refine Triple.bind rule.drainToFrame fun drained => ?_
      cases drained with
      | error status => exact .pure fun _ holds => holds
      | ok found =>
          cases found with
          | some frame => exact .pure fun _ holds => holds
          | none =>
              refine Triple.bind (rule.beginRecv deadline) fun received => ?_
              cases received with
              | error status => exact .pure fun _ holds => holds
              | ok _ => exact ih

theorem waitFrameForChannel (rule : CallRule inv held) (channel : UInt16) :
    Triple inv (waitFrameForChannel channel fuel) (Waited inv held) (fun _ => inv) := by
  induction fuel with
  | zero => exact .throw fun _ holds => holds
  | succ fuel ih =>
      refine Triple.bind (rule.waitFrameInner _) fun result => ?_
      cases result with
      | error status => exact .pure fun _ holds => holds
      | ok frame =>
          refine .ite (fun _ => .pure fun _ holds => holds) fun _ => ?_
          refine Triple.bind (rule.queueFrame frame) fun queued => ?_
          cases queued with
          | error status => exact .pure fun _ holds => holds
          | ok _ => exact ih

theorem waitFrameOnChannel (rule : CallRule inv held) (channel : UInt16) :
    Triple inv (amqpSimpleWaitFrameOnChannel channel fuel) (Waited inv held) (fun _ => inv) := by
  refine .get_bind fun world holds => ?_
  rintro _ rfl
  cases found : world.queue.find (fun frame => channel == frame.channel) world.queue.reach
      world.queue.first with
  | some link => exact rule.find holds found
  | none => exact rule.waitFrameForChannel channel holds

theorem waitFrameNoblock (rule : CallRule inv held) (timeout : Option Timeval) :
    Triple inv (amqpSimpleWaitFrameNoblock timeout fuel) (Waited inv held) (fun _ => inv) := by
  have timed := rule.moves ((asks_timeFromNow timeout).mono fun _ _ => around_of_asks)
  refine Triple.bind timed fun result => ?_
  cases result with
  | error status => exact .pure fun _ holds => holds
  | ok deadline =>
      refine .get_bind fun world holds => ?_
      rintro _ rfl
      cases found : world.queue.front with
      | some link => exact rule.front holds found
      | none => exact rule.waitFrameInner deadline holds

/-! ## Calls made of waits and sends -/

theorem waitReply (rule : CallRule inv held) (channel : UInt16) (expectedReplyIds : List UInt32)
    (deadline : UInt64) : Keeps inv (waitReply channel expectedReplyIds deadline fuel) := by
  induction fuel with
  | zero => exact .throw fun _ holds => holds
  | succ fuel ih =>
      refine Triple.bind (rule.waitFrameInner deadline) fun result => ?_
      cases result with
      | error status =>
          show Triple inv _ _ _
          split
          · exact Triple.bind (rule.moves around_socketClose) fun _ => .pure fun _ holds => holds
          · exact .pure fun _ holds => holds
          · rename_i impossible
            cases impossible
      | ok frame =>
          dsimp only
          cases rpcReply? channel expectedReplyIds frame with
          | some reply => exact .pure fun _ => rule.putAway
          | none =>
              refine Triple.bind (rule.queueReceived frame) fun queued => ?_
              cases queued with
              | error status => exact .pure fun _ holds => holds
              | ok _ => exact ih

theorem simpleRpc (rule : CallRule inv held) (rpcTimeout : Option Timeval) (channel : UInt16)
    (requestId : UInt32) (expectedReplyIds : List UInt32)
    (decodedRequestMethod : MethodFields requestId) :
    Keeps inv (amqpSimpleRpc rpcTimeout channel requestId expectedReplyIds
      decodedRequestMethod fuel) := by
  have timed := rule.moves ((asks_timeFromNow rpcTimeout).mono fun _ _ => around_of_asks)
  refine Triple.bind timed fun result => ?_
  cases result with
  | error status => exact .pure fun _ holds => holds
  | ok deadline =>
      refine Triple.bind (rule.sendFrameInner _ _ _) fun sent => ?_
      cases sent with
      | error status => exact .pure fun _ holds => holds
      | ok _ => exact rule.waitReply channel expectedReplyIds deadline

theorem publishBody (rule : CallRule inv held) (channel : UInt16) (usableBodyPayloadSize : Nat)
    (remaining : List UInt8) :
    Keeps inv (publishBody channel usableBodyPayloadSize fuel remaining) := by
  induction fuel generalizing remaining with
  | zero => exact .throw fun _ holds => holds
  | succ fuel ih =>
      refine .ite (fun _ => .pure fun _ holds => holds) fun _ => ?_
      refine Triple.bind (rule.sendFrameInner _ _ _) fun sent => ?_
      cases sent with
      | error status => exact .pure fun _ holds => holds
      | ok _ => exact ih _

theorem publishContent (rule : CallRule inv held) (channel : UInt16)
    (exchange routingKey : List UInt8) (mandatory immediate : Int32)
    (properties : Option (Properties amqpBasicClass)) (body : List UInt8) :
    Keeps inv (publishContent channel exchange routingKey mandatory immediate properties body
      fuel) := by
  refine .read_bind fun world => Triple.bind (rule.sendFrameInner _ _ _) fun sent => ?_
  cases sent with
  | error status => exact .pure fun _ holds => holds
  | ok _ =>
      refine Triple.bind (rule.sendFrameInner _ _ _) fun sent => ?_
      cases sent with
      | error status => exact .pure fun _ holds => holds
      | ok _ => exact rule.publishBody channel _ body

theorem basicPublish (rule : CallRule inv held) (channel : UInt16)
    (exchange routingKey : List UInt8) (mandatory immediate : Int32)
    (properties : Option (Properties amqpBasicClass)) (body : List UInt8) :
    Keeps inv (amqpBasicPublish channel exchange routingKey mandatory immediate properties body
      fuel) := by
  refine .read_bind fun world => ?_
  have timed := rule.moves ((asks_timeHasPast world.nextRecvHeartbeat).mono
    fun _ _ => around_of_asks)
  have content := @publishContent inv held fuel rule channel exchange routingKey mandatory
    immediate properties body
  refine Triple.bind timed fun past => ?_
  split
  · exact .pure fun _ holds => holds
  · refine Triple.bind rule.tryRecv fun received => ?_
    split
    · exact .pure fun _ holds => holds
    · exact .pure fun _ holds => holds
    · exact content
  · exact content

theorem readFragments (rule : CallRule inv held) (channel : UInt16) (size : Nat)
    (body : List UInt8) : Keeps inv (readFragments channel size fuel body) := by
  induction fuel generalizing body with
  | zero => exact .throw fun _ holds => holds
  | succ fuel ih =>
      refine .ite (fun _ => ?_) fun _ => .pure fun _ holds => holds
      refine Triple.bind (rule.waitFrameOnChannel channel) fun result => ?_
      refine Triple.strengthen ?_ fun _ => rule.waited
      cases result with
      | error status => exact .pure fun _ holds => holds
      | ok frame =>
          refine .ite (fun _ => ?_) fun _ => ?_
          · split
            · exact .pure fun _ holds => holds
            · exact .pure fun _ holds => holds
          · split
            · exact .ite (fun _ => .pure fun _ holds => holds) fun _ => ih _
            · exact .throw fun _ holds => holds

theorem readMessage (rule : CallRule inv held) (allocs : List Bool) (channel : UInt16) :
    Keeps inv (amqpReadMessage allocs channel fuel) := by
  refine Triple.bind (rule.waitFrameOnChannel channel) fun result => ?_
  cases result with
  | error status => exact .pure fun _ holds => holds
  | ok frame =>
      refine .ite (fun _ => ?_) fun _ => ?_
      · split
        · exact .pure fun _ => rule.putAway
        · exact Triple.bind (rule.putBackFrame frame) fun _ => .pure fun _ holds => holds
      · refine Triple.strengthen ?_ fun _ => rule.putAway
        split
        · exact .throw fun _ holds => holds
        · exact .pure fun _ holds => holds
        · refine Triple.bind (rule.readFragments channel _ []) fun result => ?_
          cases result with
          | ok body => exact .pure fun _ holds => holds
          | error reply => exact .pure fun _ holds => holds

theorem consumeMessage (rule : CallRule inv held) (allocs : List Bool)
    (timeout : Option Timeval) : Keeps inv (amqpConsumeMessage allocs timeout fuel) := by
  refine Triple.bind (rule.waitFrameNoblock timeout) fun result => ?_
  cases result with
  | error status => exact .pure fun _ holds => holds
  | ok frame =>
      dsimp only
      split
      · exact Triple.bind (rule.putBackFrame frame) fun _ => .pure fun _ holds => holds
      · exact .throw fun _ => rule.putAway
      · refine Triple.strengthen ?_ fun _ => rule.putAway
        split
        · refine Triple.bind (rule.readMessage _ _) fun result => ?_
          cases result with
          | ok message => exact .pure fun _ holds => holds
          | error reply => exact .pure fun _ holds => holds
        · exact .pure fun _ holds => holds

theorem releaseEach (rule : CallRule inv held) (channels : List UInt16) :
    Keeps inv (releaseEach channels) := by
  induction channels with
  | nil => exact .pure fun _ holds => holds
  | cons channel channels ih => exact Triple.bind (rule.release channel) fun _ => ih

theorem releaseBuffers (rule : CallRule inv held) : Keeps inv amqpReleaseBuffers := by
  refine .read_bind fun world => .ite (fun _ => .throw fun _ holds => holds) fun _ => ?_
  exact rule.releaseEach _

theorem maybeReleaseBuffers (rule : CallRule inv held) : Keeps inv amqpMaybeReleaseBuffers :=
  .read_bind fun _ => .ite (fun _ => rule.releaseBuffers) fun _ => .pure fun _ holds => holds

end Rule

/-- A rule for what neither the queue nor a frame in hand matters to. -/
theorem ofSteps {inv : World → Prop}
    (around : ∀ {before after}, Around before after → inv before → inv after)
    (links : ∀ {before after}, Links before after → inv before → inv after)
    (fed : ∀ {world handled},
      amqpHandleInput (world.script.memory world.framesRead) world.reader world.unread =
        .ok handled → inv world →
      (∀ status, inv (world.failInput handled.reader status)) ∧
        ∀ count, inv (world.goPast handled count))
    (recycle : ∀ {world channel}, inv world →
      inv { world with recycled := world.recycled ++ [channel] }) :
    CallRule inv fun _ => inv where
  putAway := id
  around := around
  consume := by
    intro world holds
    have consumed := consumption world
    generalize consumeOneFrame world = ran at consumed ⊢
    cases consumed with
    | stranded => exact holds
    | refused handles => exact (fed handles holds).1 _
    | taken handles =>
        show ite _ _ _
        split
        · exact (fed handles holds).2 _
        · exact (fed handles holds).2 _
  queueReceived frame := (links_queueReceived frame).keeps fun _ _ => links
  queueFrame frame := (links_amqpQueueFrame frame).keeps fun _ _ => links
  putBackFrame frame := (links_amqpPutBackFrame frame).keeps fun _ _ => links
  front holds _ := links (links_of_queue _ _) holds
  find holds _ := links (links_of_queue _ _) holds
  release channel := by
    apply Triple.get_bind
    intro world holds
    apply Triple.ite
    · rintro _ _ rfl
      exact holds
    · rintro _ _ rfl
      cases world.queue.find (fun frame => channel == frame.channel) world.queue.reach
          world.queue.first with
      | some link => exact holds
      | none =>
          dsimp only
          by_cases pool : channel ∈ world.reader.poolTable
          · rw [if_pos pool]
            exact recycle holds
          · rw [if_neg pool]
            exact holds

end CallRule

end RabbitmqC
