import RabbitmqC.Consumer.Heartbeats

/-!
# What the library calls are made of

Every library call sends frames, waits for frames, polls for input and moves frames
in and out of the queue, and gives up at the first error. A property is shown for all
of them from these parts.
-/

set_option autoImplicit false

namespace RabbitmqC

open Effect

/-- A part of a call has gone well, or it has failed. -/
def Succeeds {α : Type} (holds : α → World → Prop) (fails : World → Prop) :
    Except Status α → World → Prop
  | .ok value, world => holds value world
  | .error _, world => fails world

/-- What is left to show for `inv` to hold between the frames of a message, when the frames
sent are `sound`. -/
structure SendParts (sound : Frame → Prop) (inv fails : World → Prop) : Prop where
  inv_fails : ∀ {world}, inv world → fails world
  send : ∀ {frame}, sound frame → ∀ flags deadline fuel,
    Triple inv (amqpSendFrameInner frame flags deadline fuel) (Succeeds (fun _ => inv) fails)
      (fun _ => fails)

/-- What is left to show for `inv` to hold between the parts of a call, with `held` about
a frame in hand. -/
structure CallParts (sound : Frame → Prop) (inv : World → Prop) (held : Frame → World → Prop)
    (fails : World → Prop) : Prop extends SendParts sound inv fails where
  putAway : ∀ {frame world}, held frame world → inv world
  asks : ∀ {before after}, Asks before after → inv before → inv after
  close : Keeps fails amqpSocketClose
  wait : ∀ deadline fuel,
    Triple inv (waitFrameInner deadline fuel) (Succeeds held fails) (fun _ => fails)
  tryRecv : ∀ fuel,
    Triple inv (amqpTryRecv fuel) (Succeeds (fun _ => inv) fails) (fun _ => fails)
  queueReceived : ∀ frame, Triple (held frame) (queueReceived frame)
    (Succeeds (fun _ => inv) fails) (fun _ => fails)
  queueFrame : ∀ frame, Triple (held frame) (amqpQueueFrame frame)
    (Succeeds (fun _ => inv) fails) (fun _ => fails)
  putBackFrame : ∀ frame, Triple (held frame) (amqpPutBackFrame frame)
    (fun _ => fails) (fun _ => fails)
  front : ∀ {world link}, inv world → world.queue.front = some link →
    held link.data { world with queue := world.queue.startBehind link }
  find : ∀ {world link channel}, inv world →
    world.queue.find (fun frame => channel == frame.channel) world.queue.reach
      world.queue.first = some link →
    held link.data { world with queue := world.queue.startBehind link }

/-- The frames of a publish. -/
structure SoundPublish (sound : Frame → Prop) (channel : UInt16)
    (exchange routingKey : List UInt8) (mandatory immediate : Int32)
    (properties : Option (Properties amqpBasicClass)) : Prop where
  method : sound ⟨amqpFrameMethod, channel, .method amqpBasicPublishMethod
    (some (basicPublishFields exchange routingKey mandatory immediate))⟩
  header : ∀ bodySize, sound ⟨amqpFrameHeader, channel, .properties amqpBasicClass bodySize
    (some (properties.getD defaultProperties)) ⟨0, 0⟩⟩
  body : ∀ bytes, sound ⟨amqpFrameBody, channel, .bodyFragment bytes⟩

/-- The frames that the call itself may send are sound. -/
def LibraryCall.Sound (sound : Frame → Prop) : LibraryCall → Prop
  | .basicPublish channel exchange routingKey mandatory immediate properties _ =>
      SoundPublish sound channel exchange routingKey mandatory immediate properties
  | .sendFrame frame => sound frame
  | .simpleRpc _ channel requestId _ decodedRequestMethod =>
      sound ⟨amqpFrameMethod, channel, .method requestId (some decodedRequestMethod)⟩
  | _ => True

theorem LibraryCall.sound_of_all (call : LibraryCall) : call.Sound fun _ => True := by
  cases call with
  | basicPublish => exact ⟨trivial, fun _ => trivial, fun _ => trivial⟩
  | _ => exact trivial

namespace SendParts

variable {sound : Frame → Prop} {inv fails : World → Prop} {fuel : Nat}

theorem publishBody (parts : SendParts sound inv fails) (channel : UInt16)
    (usableBodyPayloadSize : Nat) (remaining : List UInt8)
    (isSound : ∀ bytes, sound ⟨amqpFrameBody, channel, .bodyFragment bytes⟩) :
    Triple inv (publishBody channel usableBodyPayloadSize fuel remaining) (fun _ => fails)
      (fun _ => fails) := by
  induction fuel generalizing remaining with
  | zero => exact .throw fun _ => parts.inv_fails
  | succ fuel ih =>
      refine .ite (fun _ => .pure fun _ => parts.inv_fails) fun _ => ?_
      refine Triple.bind (parts.send (isSound _) _ _ fuel) fun sent => ?_
      cases sent with
      | error status => exact .pure fun _ failed => failed
      | ok _ => exact ih _

theorem publishContent (parts : SendParts sound inv fails) {channel : UInt16}
    {exchange routingKey : List UInt8} {mandatory immediate : Int32}
    {properties : Option (Properties amqpBasicClass)}
    (isSound : SoundPublish sound channel exchange routingKey mandatory immediate properties)
    (body : List UInt8) :
    Triple inv (publishContent channel exchange routingKey mandatory immediate properties body
      fuel) (fun _ => fails) (fun _ => fails) := by
  refine .read_bind fun world => ?_
  refine Triple.bind (parts.send isSound.method _ _ fuel) fun sent => ?_
  cases sent with
  | error status => exact .pure fun _ failed => failed
  | ok _ =>
      refine Triple.bind (parts.send (isSound.header _) _ _ fuel) fun sent => ?_
      cases sent with
      | error status => exact .pure fun _ failed => failed
      | ok _ => exact parts.publishBody channel _ body isSound.body

end SendParts

namespace CallParts

variable {sound : Frame → Prop} {inv : World → Prop} {held : Frame → World → Prop}
  {fails : World → Prop} {fuel : Nat}

theorem moves (parts : CallParts sound inv held fails) {α : Type} {run : Call α}
    (along : Moves Asks run) : Triple inv run (fun _ => inv) (fun _ => fails) := by
  have keeps : Keeps inv run := along.keeps fun _ _ => parts.asks
  exact keeps.raise fun _ _ => parts.inv_fails

/-! ## Waiting -/

theorem waitFrameForChannel (parts : CallParts sound inv held fails) (channel : UInt16) :
    Triple inv (waitFrameForChannel channel fuel) (Succeeds held fails) (fun _ => fails) := by
  induction fuel with
  | zero => exact .throw fun _ => parts.inv_fails
  | succ fuel ih =>
      refine Triple.bind (parts.wait amqpTimeInfinite fuel) fun result => ?_
      cases result with
      | error status => exact .pure fun _ failed => failed
      | ok frame =>
          refine .ite (fun _ => .pure fun _ inHand => inHand) fun _ => ?_
          refine Triple.bind (parts.queueFrame frame) fun queued => ?_
          cases queued with
          | error status => exact .pure fun _ failed => failed
          | ok _ => exact ih

theorem waitFrameOnChannel (parts : CallParts sound inv held fails) (channel : UInt16) :
    Triple inv (amqpSimpleWaitFrameOnChannel channel fuel) (Succeeds held fails)
      (fun _ => fails) := by
  refine .get_bind fun world holds => ?_
  rintro _ rfl
  cases found : world.queue.find (fun frame => channel == frame.channel) world.queue.reach
      world.queue.first with
  | some link => exact parts.find holds found
  | none => exact parts.waitFrameForChannel channel holds

theorem waitFrameNoblock (parts : CallParts sound inv held fails) (timeout : Option Timeval) :
    Triple inv (amqpSimpleWaitFrameNoblock timeout fuel) (Succeeds held fails)
      (fun _ => fails) := by
  refine Triple.bind (parts.moves (asks_timeFromNow timeout)) fun result => ?_
  cases result with
  | error status => exact .pure fun _ => parts.inv_fails
  | ok deadline =>
      refine .get_bind fun world holds => ?_
      rintro _ rfl
      cases found : world.queue.front with
      | some link => exact parts.front holds found
      | none => exact parts.wait deadline fuel holds

theorem waitReply (parts : CallParts sound inv held fails) (channel : UInt16)
    (expectedReplyIds : List UInt32) (deadline : UInt64) :
    Triple inv (waitReply channel expectedReplyIds deadline fuel) (fun _ => fails)
      (fun _ => fails) := by
  induction fuel with
  | zero => exact .throw fun _ => parts.inv_fails
  | succ fuel ih =>
      refine Triple.bind (parts.wait deadline fuel) fun result => ?_
      cases result with
      | error status =>
          show Triple fails _ _ _
          split
          · exact Triple.bind parts.close fun _ => .pure fun _ failed => failed
          · exact .pure fun _ failed => failed
          · rename_i impossible
            cases impossible
      | ok frame =>
          dsimp only
          cases rpcReply? channel expectedReplyIds frame with
          | some reply => exact .pure fun _ inHand => parts.inv_fails (parts.putAway inHand)
          | none =>
              refine Triple.bind (parts.queueReceived frame) fun queued => ?_
              cases queued with
              | error status => exact .pure fun _ failed => failed
              | ok _ => exact ih

/-! ## Sending -/

theorem simpleRpc (parts : CallParts sound inv held fails) (rpcTimeout : Option Timeval)
    (channel : UInt16) (requestId : UInt32) (expectedReplyIds : List UInt32)
    (decodedRequestMethod : MethodFields requestId)
    (isSound : sound ⟨amqpFrameMethod, channel, .method requestId (some decodedRequestMethod)⟩) :
    Triple inv (amqpSimpleRpc rpcTimeout channel requestId expectedReplyIds
      decodedRequestMethod fuel) (fun _ => fails) (fun _ => fails) := by
  refine Triple.bind (parts.moves (asks_timeFromNow rpcTimeout)) fun result => ?_
  cases result with
  | error status => exact .pure fun _ => parts.inv_fails
  | ok deadline =>
      refine Triple.bind (parts.send isSound .none amqpTimeInfinite fuel) fun sent => ?_
      cases sent with
      | error status => exact .pure fun _ failed => failed
      | ok _ => exact parts.waitReply channel expectedReplyIds deadline

theorem basicPublish (parts : CallParts sound inv held fails) {channel : UInt16}
    {exchange routingKey : List UInt8} {mandatory immediate : Int32}
    {properties : Option (Properties amqpBasicClass)}
    (isSound : SoundPublish sound channel exchange routingKey mandatory immediate properties)
    (body : List UInt8) :
    Triple inv (amqpBasicPublish channel exchange routingKey mandatory immediate properties body
      fuel) (fun _ => fails) (fun _ => fails) := by
  refine .read_bind fun world => ?_
  refine Triple.bind (parts.moves (asks_timeHasPast world.nextRecvHeartbeat)) fun past => ?_
  have content := @SendParts.publishContent sound inv fails fuel parts.toSendParts _ _ _ _ _ _
    isSound body
  split
  · exact .pure fun _ => parts.inv_fails
  · refine Triple.bind (parts.tryRecv fuel) fun received => ?_
    split
    · exact .pure fun _ failed => failed
    · exact .pure fun _ failed => failed
    · exact content
  · exact content

/-! ## Messages -/

theorem readFragments (parts : CallParts sound inv held fails) (channel : UInt16) (size : Nat)
    (body : List UInt8) :
    Triple inv (readFragments channel size fuel body) (fun _ => fails) (fun _ => fails) := by
  induction fuel generalizing body with
  | zero => exact .throw fun _ => parts.inv_fails
  | succ fuel ih =>
      refine .ite (fun _ => ?_) fun _ => .pure fun _ => parts.inv_fails
      refine Triple.bind (parts.waitFrameOnChannel channel) fun result => ?_
      cases result with
      | error status => exact .pure fun _ failed => failed
      | ok frame =>
          have away (world : World) (inHand : held frame world) : fails world :=
            parts.inv_fails (parts.putAway inHand)
          refine .ite (fun _ => ?_) fun _ => ?_
          · split
            · exact .pure away
            · exact .pure away
          · split
            · exact .ite (fun _ => .pure away) fun _ =>
                (ih _).strengthen fun _ => parts.putAway
            · exact .throw away

theorem readMessage (parts : CallParts sound inv held fails) (allocs : List Bool)
    (channel : UInt16) :
    Triple inv (amqpReadMessage allocs channel fuel) (fun _ => fails) (fun _ => fails) := by
  refine Triple.bind (parts.waitFrameOnChannel channel) fun result => ?_
  cases result with
  | error status => exact .pure fun _ failed => failed
  | ok frame =>
      have away (world : World) (inHand : held frame world) : fails world :=
        parts.inv_fails (parts.putAway inHand)
      refine .ite (fun _ => ?_) fun _ => ?_
      · split
        · exact .pure away
        · exact Triple.bind (parts.putBackFrame frame) fun _ => .pure fun _ failed => failed
      · split
        · exact .throw away
        · exact .pure away
        · refine Triple.bind ((parts.readFragments channel _ []).strengthen fun _ =>
            parts.putAway) fun result => ?_
          cases result with
          | ok body => exact .pure fun _ failed => failed
          | error reply => exact .pure fun _ failed => failed

theorem consumeMessage (parts : CallParts sound inv held fails) (allocs : List Bool)
    (timeout : Option Timeval) :
    Triple inv (amqpConsumeMessage allocs timeout fuel) (fun _ => fails) (fun _ => fails) := by
  refine Triple.bind (parts.waitFrameNoblock timeout) fun result => ?_
  cases result with
  | error status => exact .pure fun _ failed => failed
  | ok frame =>
      have away (world : World) (inHand : held frame world) : fails world :=
        parts.inv_fails (parts.putAway inHand)
      dsimp only
      split
      · exact Triple.bind (parts.putBackFrame frame) fun _ => .pure fun _ failed => failed
      · exact .throw away
      · split
        · refine Triple.bind ((parts.readMessage _ _).strengthen fun _ => parts.putAway)
            fun result => ?_
          cases result with
          | ok message => exact .pure fun _ failed => failed
          | error reply => exact .pure fun _ failed => failed
        · exact .pure away

/-! ## All calls -/

/-- What is returned does not matter to the connection. -/
theorem ignoring {α β : Type} {run : Call α} {value : β}
    (ends : Triple inv run (fun _ => fails) (fun _ => fails)) :
    Triple inv (do let _ ← run; return value) (fun _ => fails) (fun _ => fails) :=
  Triple.bind ends fun _ => .pure fun _ failed => failed

theorem returning (parts : CallParts sound inv held fails) {run : Call (Except Status Frame)}
    (waits : Triple inv run (Succeeds held fails) (fun _ => fails)) :
    Triple inv (frameOf <$> run) (fun _ => fails) (fun _ => fails) := by
  refine Triple.bind waits fun result => .pure fun world ends => ?_
  cases result with
  | ok frame => exact parts.inv_fails (parts.putAway ends)
  | error status => exact ends

theorem run (parts : CallParts sound inv held fails) {call : LibraryCall}
    (isSound : call.Sound sound) :
    Triple inv (call.run fuel) (fun _ => fails) (fun _ => fails) := by
  cases call with
  | basicPublish channel exchange routingKey mandatory immediate properties body =>
      exact ignoring (parts.basicPublish isSound body)
  | sendFrame frame =>
      refine ignoring ((parts.send isSound .none amqpTimeInfinite fuel).weaken
        fun result world ends => ?_)
      cases result with
      | ok _ => exact parts.inv_fails ends
      | error status => exact ends
  | simpleRpc rpcTimeout channel requestId expectedReplyIds decodedRequestMethod =>
      exact ignoring (parts.simpleRpc rpcTimeout channel requestId expectedReplyIds
        decodedRequestMethod isSound)
  | simpleWaitFrame => exact parts.returning (parts.waitFrameNoblock none)
  | simpleWaitFrameNoblock timeout => exact parts.returning (parts.waitFrameNoblock timeout)
  | readMessage allocs channel => exact ignoring (parts.readMessage allocs channel)
  | consumeMessage allocs timeout => exact ignoring (parts.consumeMessage allocs timeout)

end CallParts

/-- The worlds after calls on a connection, whether the last one has returned, and the
frames that were returned. -/
inductive CallRun (meets : LibraryCall → World → Prop) (opened : World) :
    Option Stop → World → List Frame → Prop where
  | start : CallRun meets opened none opened []
  | call {world : World} {returned : List Frame} {call : LibraryCall} {fuel : Nat} :
      CallRun meets opened none world returned → meets call world →
      CallRun meets opened (stopOf (call.run fuel world)) (endState (call.run fuel world))
        (returned ++ returnedBy (call.run fuel world))

/-- What holds after every run, given what each call may begin with. -/
theorem CallRun.induct {meets : LibraryCall → World → Prop} {opened : World}
    {inv fails : World → Prop} (starts : fails opened)
    (begins : ∀ call world, fails world → meets call world → inv world)
    (parts : ∀ call world, meets call world → ∀ fuel,
      Triple inv (call.run fuel) (fun _ => fails) (fun _ => fails))
    {stop : Option Stop} {world : World} {returned : List Frame}
    (run : CallRun meets opened stop world returned) : fails world := by
  induction run with
  | start => exact starts
  | @call world _ call fuel _ meets ih =>
      have triple := parts call world meets fuel (begins call world ih meets)
      cases ran : call.run fuel world with
      | ok value after =>
          rw [ran] at triple
          exact triple
      | error stop after =>
          rw [ran] at triple
          exact triple

end RabbitmqC
