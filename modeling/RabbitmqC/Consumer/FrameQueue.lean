import RabbitmqC.Consumer.CallRule

/-!
# The frame queue

Four places of the source put a frame behind the queue, and they do not agree on which end
tells that it is empty. Three take frames from its front and set the last link by hand. In
every run the links are in order, so that both ends tell the same.
-/

set_option autoImplicit false

namespace RabbitmqC

open Effect

/-! ## The model -/

/-- The calls that work on the queue. -/
inductive QueueCall where
  | tryRecv
  | simpleRpcInner (channel : UInt16) (requestId : UInt32) (expectedReplyIds : List UInt32)
      (decodedRequestMethod : MethodFields requestId) (deadline : UInt64)
  | queueFrame (frame : Frame)
  | putBackFrame (frame : Frame)
  | simpleWaitFrameOnChannel (channel : UInt16)
  | simpleWaitFrameNoblock (timeout : Option Timeval)

def QueueCall.run (fuel : Nat) : QueueCall → Call Unit
  | .tryRecv => do
      let _ ← amqpTryRecv fuel
      return
  | .simpleRpcInner channel requestId expectedReplyIds decodedRequestMethod deadline => do
      let _ ← RabbitmqC.simpleRpcInner channel requestId expectedReplyIds decodedRequestMethod
        deadline fuel
      return
  | .queueFrame frame => do
      let _ ← amqpQueueFrame frame
      return
  | .putBackFrame frame => do
      let _ ← amqpPutBackFrame frame
      return
  | .simpleWaitFrameOnChannel channel => do
      let _ ← amqpSimpleWaitFrameOnChannel channel fuel
      return
  | .simpleWaitFrameNoblock timeout => do
      let _ ← amqpSimpleWaitFrameNoblock timeout fuel
      return

/-- The world after some calls, and whether the last one has returned. -/
inductive QueueRun : Option Stop → World → Prop where
  | start {world : World} : world.queue = .empty → QueueRun none world
  | call {world : World} {call : QueueCall} {fuel : Nat} : QueueRun none world →
      QueueRun (stopOf (call.run fuel world)) (endState (call.run fuel world))

/-! ## One step -/

/-- The links lead from the first to the last one. -/
def InOrder (world : World) : Prop := ∃ frames, world.queue.Represents frames

section Steps

variable {world : World}

theorem queueReceived_inOrder (frame : Frame) : Keeps InOrder (queueReceived frame) := by
  intro world inOrder
  obtain ⟨frames, represents⟩ := inOrder
  obtain ⟨script, poolTable, stale, _, created | created⟩ := createLinkForFrame_eq world frame
  · have returned : queueReceived frame world = .ok (.error .noMemory) _ := bind_of_ok created
    rw [returned]
    exact ⟨frames, represents⟩
  · have returned : queueReceived frame world = .ok (.ok ()) _ := bind_of_ok created
    rw [returned]
    exact ⟨_, LinkedQueue.represents_append represents⟩

theorem amqpPutBackFrame_inOrder (frame : Frame) : Keeps InOrder (amqpPutBackFrame frame) := by
  intro world inOrder
  obtain ⟨frames, represents⟩ := inOrder
  obtain ⟨script, poolTable, stale, _, created | created⟩ := createLinkForFrame_eq world frame
  · have returned : amqpPutBackFrame frame world = .ok (.error .noMemory) _ := bind_of_ok created
    rw [returned]
    exact ⟨frames, represents⟩
  · have returned : amqpPutBackFrame frame world = .ok (.ok ()) _ := bind_of_ok created
    rw [returned]
    exact ⟨_, LinkedQueue.represents_prepend represents⟩

/-- It does not matter which end is asked whether the queue is empty. -/
theorem InOrder.queueFrame_eq (inOrder : InOrder world) (frame : Frame) :
    amqpQueueFrame frame world = queueReceived frame world := by
  obtain ⟨frames, represents⟩ := inOrder
  obtain ⟨script, poolTable, stale, _, created | created⟩ := createLinkForFrame_eq world frame
  · unfold amqpQueueFrame queueReceived
    rw [bind_of_ok created, bind_of_ok created]
  · unfold amqpQueueFrame queueReceived
    rw [bind_of_ok created, bind_of_ok created]
    dsimp only
    rw [bind_of_ok (get_run _), represents.appendAtFirst_eq]
    rfl

theorem amqpQueueFrame_inOrder (frame : Frame) : Keeps InOrder (amqpQueueFrame frame) := by
  intro world inOrder
  rw [inOrder.queueFrame_eq frame]
  exact queueReceived_inOrder frame inOrder

theorem callRule_inOrder : CallRule InOrder fun _ => InOrder where
  putAway := id
  around := by
    rintro before after ⟨_, _, _, _, _, _, _, _, _, _, _, rfl⟩ inOrder
    exact inOrder
  consume := by
    intro world inOrder
    have consumed := consumption world
    generalize consumeOneFrame world = ran at consumed ⊢
    cases consumed with
    | stranded => exact inOrder
    | refused => exact inOrder
    | taken =>
        show ite _ _ _
        split
        · exact inOrder
        · exact inOrder
  queueReceived := queueReceived_inOrder
  queueFrame := amqpQueueFrame_inOrder
  putBackFrame := amqpPutBackFrame_inOrder
  front inOrder front := by
    obtain ⟨frames, represents⟩ := inOrder
    obtain ⟨rest, _, remains⟩ := represents.split_front front
    exact ⟨rest, remains⟩
  find inOrder search := by
    obtain ⟨frames, represents⟩ := inOrder
    obtain ⟨_, rest, _, remains⟩ := represents.split_find search
    exact ⟨rest, remains⟩
  release channel := by
    apply Triple.get_bind
    intro world inOrder
    apply Triple.ite
    · rintro _ _ rfl
      exact inOrder
    · rintro _ _ rfl
      cases world.queue.find (fun frame => channel == frame.channel) world.queue.reach
          world.queue.first with
      | some link => exact inOrder
      | none =>
          dsimp only
          by_cases pool : channel ∈ world.reader.poolTable
          · rw [if_pos pool]
            exact inOrder
          · rw [if_neg pool]
            exact inOrder

end Steps

/-! ## Runs -/

theorem QueueCall.run_inOrder (call : QueueCall) (fuel : Nat) :
    Keeps InOrder (call.run fuel) := by
  have discards {α : Type} {run : Call α} (keeps : Keeps InOrder run) :
      Keeps InOrder (run >>= fun _ => pure ()) :=
    Triple.bind keeps fun _ => .pure fun _ inOrder => inOrder
  have waits {run : Call (Except Status Frame)}
      (ends : Triple InOrder run (Waited InOrder fun _ => InOrder) (fun _ => InOrder)) :
      Keeps InOrder run := ends.weaken fun _ _ => callRule_inOrder.waited
  cases call with
  | tryRecv => exact discards callRule_inOrder.tryRecv
  | simpleRpcInner channel requestId expectedReplyIds decodedRequestMethod deadline =>
      apply discards
      apply Triple.bind (callRule_inOrder.sendFrameInner _ _ _)
      intro sent
      cases sent with
      | error status => exact .pure fun _ inOrder => inOrder
      | ok _ => exact callRule_inOrder.waitReply channel expectedReplyIds deadline
  | queueFrame frame => exact discards (amqpQueueFrame_inOrder frame)
  | putBackFrame frame => exact discards (amqpPutBackFrame_inOrder frame)
  | simpleWaitFrameOnChannel channel =>
      exact discards (waits (callRule_inOrder.waitFrameOnChannel channel))
  | simpleWaitFrameNoblock timeout =>
      exact discards (waits (callRule_inOrder.waitFrameNoblock timeout))

/-- The links of the queue: following `next` visits distinct ones and ends in the last one,
and both ends tell whether there are any. -/
structure WellLinked (world : World) : Prop where
  chain : ∃ addresses frames,
    LinkedQueue.Chain world.queue.links world.queue.first addresses frames ∧
      addresses.Nodup ∧ world.queue.last = addresses.getLast?
  ends : world.queue.first = none ↔ world.queue.last = none
  sameTest : ∀ frame, amqpQueueFrame frame world = queueReceived frame world

/-- In every run the queue is well linked, whatever is allocated and whatever the memory of
new links held. -/
theorem queueRun_wellLinked {stop : Option Stop} {world : World} (run : QueueRun stop world) :
    WellLinked world := by
  have inOrder : InOrder world := by
    induction run with
    | start empty => exact ⟨[], empty ▸ LinkedQueue.represents_empty⟩
    | @call world call fuel _ ih =>
        have keeps := call.run_inOrder fuel
        cases ran : call.run fuel world with
        | ok _ after => exact keeps.ok ih ran
        | error stop after => exact keeps.error ih ran
  obtain ⟨frames, represents⟩ := inOrder
  constructor
  · obtain ⟨addresses, chain, nodup, last⟩ := represents
    exact ⟨addresses, frames, chain, nodup, last⟩
  · rw [represents.first_eq_none, represents.last_eq_none]
  · exact InOrder.queueFrame_eq ⟨frames, represents⟩

/-- The memory of a new link leads back to the link. -/
def loopingScript : Script where
  clock := []
  recvs := []
  sends := []
  recvPolls := []
  sendPolls := []
  closes := []
  links := [true, true, true, true, true, false]
  stale := some
  memory := fun _ => grantingMemory

/-- A frame is queued, one is put in front of it, and for a third there is no memory. -/
theorem queueRun_wellLinked_looping :
    let queued := endState ((QueueCall.queueFrame heartbeatFrame).run 0 (World.new loopingScript))
    let putBack := endState ((QueueCall.putBackFrame heartbeatFrame).run 0 queued)
    let short := endState ((QueueCall.queueFrame heartbeatFrame).run 0 putBack)
    short.queue.values.length = 2 ∧ WellLinked short := by
  intro queued putBack short
  have start : QueueRun none (World.new loopingScript) := .start rfl
  have first : QueueRun none queued := @QueueRun.call _ (.queueFrame heartbeatFrame) 0 start
  have second : QueueRun none putBack := @QueueRun.call _ (.putBackFrame heartbeatFrame) 0 first
  have third : QueueRun none short := @QueueRun.call _ (.queueFrame heartbeatFrame) 0 second
  exact ⟨by decide +kernel, queueRun_wellLinked third⟩

end RabbitmqC
