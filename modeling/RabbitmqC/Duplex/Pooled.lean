import RabbitmqC.Connection.HalfRead
import RabbitmqC.Consumer.Heartbeats

/-!
# Frames and the pool table

The channel of a frame that was read has an entry in the pool table, and the table only
grows. A frame in hand or in the queue is therefore put into a queue without a change to
the reader, even if a part of the next frame was read.
-/

set_option autoImplicit false

namespace RabbitmqC

open Effect

/-! ## The reader -/

section Reading

variable {memory : FrameMemory} {reader after : Reader} {receivedData : List UInt8}
  {bytesConsumed count : Nat} {handled : Handled}

/-- The pool table has grown, and the channel of a finished frame is in it. -/
structure Pooled (reader : Reader) (handled : Handled) : Prop where
  grows : reader.poolTable ⊆ handled.reader.poolTable
  channel : handled.frame.frameType ≠ 0 →
    handled.frame.frameType ≠ amqpPseudoframeProtocolHeader →
    ∀ count, handled.result = .ok count → handled.frame.channel ∈ handled.reader.poolTable

theorem Pooled.of_unset {result : Except Status Int} (grows : reader.poolTable ⊆ after.poolTable) :
    Pooled reader ⟨after, result, .unset⟩ :=
  ⟨grows, fun full => absurd rfl full⟩

theorem Pooled.of_refused {frame : Frame} {status : Status}
    (grows : reader.poolTable ⊆ after.poolTable) : Pooled reader ⟨after, .error status, frame⟩ where
  grows := grows
  channel := by
    rintro _ _ count ⟨⟩

theorem Pooled.of_grown (pooled : Pooled after handled)
    (grows : reader.poolTable ⊆ after.poolTable) : Pooled reader handled :=
  ⟨List.Subset.trans grows pooled.grows, pooled.channel⟩

theorem amqpGetOrCreateChannelPool_pooled {channel : UInt16} {isNew : Bool}
    (found : amqpGetOrCreateChannelPool memory reader channel = some (after, isNew)) :
    channel ∈ after.poolTable ∧ reader.poolTable ⊆ after.poolTable := by
  unfold amqpGetOrCreateChannelPool at found
  split at found
  · rename_i member
    cases found
    exact ⟨member, List.Subset.refl _⟩
  · split at found
    · cases found
      exact ⟨List.mem_cons_self, List.subset_cons_self _ _⟩
    · cases found

theorem consumeData_poolTable (returned : consumeData reader receivedData = .ok (after, count)) :
    after.poolTable = reader.poolTable := by
  unfold consumeData at returned
  obtain ⟨written, writes, rest⟩ := Effect.except_bind_eq_ok.mp returned
  cases rest
  unfold Reader.writeInbound at writes
  split at writes
  · split at writes <;> cases writes
    rfl
  · split at writes <;> cases writes
    rfl
  · cases writes

/-- The types of frames that are decoded, and zero for all others. -/
theorem decodePayload_type {raw : Buffer} {targetSize : Nat} {frameType : UInt8}
    {channel : UInt16} {result : Except Status Unit} {frame : Frame}
    (returned : decodePayload memory raw targetSize frameType channel = .ok (result, frame)) :
    frame.frameType = 0 ∨ frame.frameType = amqpFrameMethod ∨
      frame.frameType = amqpFrameHeader ∨ frame.frameType = amqpFrameBody ∨
      frame.frameType = amqpFrameHeartbeat := by
  unfold decodePayload at returned
  split at returned
  · rename_i isType
    obtain ⟨⟨_, _⟩, _, rest⟩ := Effect.except_bind_eq_ok.mp returned
    cases rest
    exact .inr (.inl isType)
  split at returned
  · rename_i isType
    obtain ⟨⟨_, _⟩, _, rest⟩ := Effect.except_bind_eq_ok.mp returned
    cases rest
    exact .inr (.inr (.inl isType))
  split at returned
  · rename_i isType
    obtain ⟨⟨_, _⟩, _, rest⟩ := Effect.except_bind_eq_ok.mp returned
    cases rest
    exact .inr (.inr (.inr (.inl isType)))
  split at returned
  · rename_i isType
    cases returned
    exact .inr (.inr (.inr (.inr isType)))
  · cases returned
    exact .inl rfl

theorem bodyCase_pooled (returned : bodyCase memory reader bytesConsumed = .ok handled) :
    Pooled reader handled := by
  unfold bodyCase at returned
  obtain ⟨raw, _, returned⟩ := Effect.except_bind_eq_ok.mp returned
  obtain ⟨frameEnd, _, returned⟩ := Effect.except_bind_eq_ok.mp returned
  split at returned
  · cases returned
    exact .of_refused (List.Subset.refl _)
  · obtain ⟨frameType, _, returned⟩ := Effect.except_bind_eq_ok.mp returned
    obtain ⟨channel, _, returned⟩ := Effect.except_bind_eq_ok.mp returned
    split at returned
    · cases returned
      exact .of_refused (List.Subset.refl _)
    · rename_i after isNew found
      obtain ⟨member, grows⟩ := amqpGetOrCreateChannelPool_pooled found
      obtain ⟨⟨result, frame⟩, decodes, returned⟩ := Effect.except_bind_eq_ok.mp returned
      cases result with
      | error status =>
          cases returned
          exact .of_refused grows
      | ok value =>
          cases returned
          refine ⟨grows, fun _ _ _ _ => ?_⟩
          rwa [decodePayload_channel decodes]

theorem readBody_pooled
    (returned : readBody memory reader receivedData bytesConsumed = .ok handled) :
    Pooled reader handled := by
  unfold readBody at returned
  obtain ⟨⟨after, more⟩, consumed, returned⟩ := Effect.except_bind_eq_ok.mp returned
  have same := consumeData_poolTable consumed
  dsimp only at returned
  split at returned
  · cases returned
    exact .of_unset (same ▸ List.Subset.refl _)
  · exact (bodyCase_pooled returned).of_grown (same ▸ List.Subset.refl _)

theorem headerCase_pooled
    (returned : headerCase memory reader receivedData bytesConsumed = .ok handled) :
    Pooled reader handled := by
  unfold headerCase at returned
  obtain ⟨raw, _, returned⟩ := Effect.except_bind_eq_ok.mp returned
  obtain ⟨channel, _, returned⟩ := Effect.except_bind_eq_ok.mp returned
  obtain ⟨frameSize, _, returned⟩ := Effect.except_bind_eq_ok.mp returned
  have expecting : reader.poolTable ⊆ (expectFrame reader frameSize).poolTable :=
    List.Subset.refl _
  split at returned
  · cases returned
    exact .of_unset (List.Subset.refl _)
  split at returned
  · cases returned
    exact .of_unset expecting
  split at returned
  · cases returned
    exact .of_unset expecting
  rename_i pooled isNew found
  obtain ⟨_, grows⟩ := amqpGetOrCreateChannelPool_pooled found
  split at returned
  · cases returned
    exact .of_unset (List.Subset.trans expecting grows)
  · obtain ⟨started, begun, returned⟩ := Effect.except_bind_eq_ok.mp returned
    have same : started.poolTable = pooled.poolTable := by
      unfold startBody at begun
      dsimp only at begun
      split at begun <;> cases begun
      rfl
    exact (readBody_pooled returned).of_grown (same ▸ List.Subset.trans expecting grows)

theorem initialCase_pooled
    (returned : initialCase memory reader receivedData bytesConsumed = .ok handled) :
    Pooled reader handled := by
  unfold initialCase at returned
  obtain ⟨raw, _, returned⟩ := Effect.except_bind_eq_ok.mp returned
  split at returned
  · cases returned
  · split at returned
    · obtain ⟨_, _, returned⟩ := Effect.except_bind_eq_ok.mp returned
      obtain ⟨_, _, returned⟩ := Effect.except_bind_eq_ok.mp returned
      obtain ⟨_, _, returned⟩ := Effect.except_bind_eq_ok.mp returned
      obtain ⟨_, _, returned⟩ := Effect.except_bind_eq_ok.mp returned
      cases returned
      exact ⟨List.Subset.refl _, fun _ other => absurd rfl other⟩
    · exact headerCase_pooled returned

theorem amqpHandleInput_pooled
    (returned : amqpHandleInput memory reader receivedData = .ok handled) :
    Pooled reader handled := by
  unfold amqpHandleInput at returned
  split at returned
  · cases returned
    exact .of_unset (List.Subset.refl _)
  · obtain ⟨⟨after, count⟩, consumed, returned⟩ := Effect.except_bind_eq_ok.mp returned
    have same : after.poolTable = reader.poolTable := by
      rw [consumeData_poolTable consumed]
      unfold leaveIdle
      split <;> rfl
    have grows : reader.poolTable ⊆ after.poolTable := same ▸ List.Subset.refl _
    dsimp only at returned
    split at returned
    · cases returned
      exact .of_unset grows
    · unfold handleComplete at returned
      split at returned
      · exact (initialCase_pooled returned).of_grown grows
      · exact (headerCase_pooled returned).of_grown grows
      · exact (bodyCase_pooled returned).of_grown grows
      · cases returned

end Reading

/-! ## The queue -/

/-- A frame was put into the queue, or there was no memory for it. For a channel with a
pool the reader is the same as before. -/
def Enlists (frame : Frame) (before after : World) : Prop :=
  ∃ script queue poolTable, before.script.Uses script ∧
    after = { before with script, queue, reader.poolTable := poolTable } ∧
    (frame.channel ∈ before.reader.poolTable → poolTable = before.reader.poolTable) ∧
    ∀ holds : Frame → Prop, holds frame → before.queue.All holds → queue.All holds

section Queueing

variable {frame : Frame}

instance : IsPreorder World (Enlists frame) where
  refl world := ⟨_, _, _, .refl world.script, rfl, fun _ => rfl, fun _ _ all => all⟩
  trans := by
    rintro world _ _ ⟨_, _, _, left, rfl, same, keeps⟩ ⟨_, _, _, right, rfl, again, more⟩
    refine ⟨_, _, _, left.trans right, rfl, fun member => ?_, fun holds inHand all => ?_⟩
    · rw [again (same member ▸ member), same member]
    · exact more holds inHand (keeps holds inHand all)

theorem enlists_of_asks {before after : World} (asks : Asks before after)
    (same : after.polls = before.polls) : Enlists frame before after := by
  obtain ⟨script, polls, uses, rfl⟩ := asks
  cases same
  exact ⟨script, _, _, uses, rfl, fun _ => rfl, fun _ _ all => all⟩

theorem enlists_allocateLink : Moves (Enlists frame) allocateLink := by
  intro world
  obtain ⟨outcome, script, uses, allocated⟩ := allocateLink_eq world
  rw [allocated]
  exact enlists_of_asks ⟨script, world.polls, uses, rfl⟩ rfl

theorem enlists_requeue {world : World} {queue : LinkedQueue Frame}
    (keeps : ∀ holds : Frame → Prop, holds frame → world.queue.All holds → queue.All holds) :
    Enlists frame world { world with queue } :=
  ⟨_, _, _, .refl world.script, rfl, fun _ => rfl, keeps⟩

theorem enlists_linkPool : Moves (Enlists frame) (linkPool frame.channel) := by
  refine .get_bind fun world => ?_
  by_cases member : frame.channel ∈ world.reader.poolTable
  · rw [if_pos member]
    exact refl_of (Enlists frame) world
  · rw [if_neg member]
    obtain ⟨outcome, script, uses, allocated⟩ := allocateLink_eq world
    rw [bind_of_ok allocated]
    cases outcome with
    | false => exact enlists_of_asks ⟨script, world.polls, uses, rfl⟩ rfl
    | true => exact ⟨script, _, _, uses, rfl, fun own => absurd own member, fun _ _ all => all⟩

theorem enlists_createLinkForFrame : Moves (Enlists frame) (amqpCreateLinkForFrame frame) := by
  refine enlists_linkPool.bind fun granted => .ite (fun _ => ?_) fun _ => .pure
  refine enlists_allocateLink.bind fun link => enlists_allocateLink.bind fun frameCopy => ?_
  refine .ite (fun _ => .get_bind fun world => ?_) fun _ => .pure
  exact enlists_requeue fun _ inHand all => all.create inHand

theorem enlists_queueReceived : Moves (Enlists frame) (queueReceived frame) := by
  refine enlists_createLinkForFrame.bind fun link => ?_
  cases link with
  | none => exact .pure
  | some link =>
      refine Moves.bind (.modify fun world => ?_) fun _ => .pure
      exact enlists_requeue fun _ _ all => all.append link

theorem enlists_amqpQueueFrame : Moves (Enlists frame) (amqpQueueFrame frame) := by
  refine enlists_createLinkForFrame.bind fun link => ?_
  cases link with
  | none => exact .pure
  | some link =>
      refine .get_bind fun world => ?_
      cases appended : world.queue.appendAtFirst link with
      | none => exact refl_of (Enlists frame) world
      | some queue => exact enlists_requeue fun _ _ all => all.appendAtFirst appended

theorem enlists_amqpPutBackFrame : Moves (Enlists frame) (amqpPutBackFrame frame) := by
  refine enlists_createLinkForFrame.bind fun link => ?_
  cases link with
  | none => exact .pure
  | some link =>
      refine Moves.bind (.modify fun world => ?_) fun _ => .pure
      exact enlists_requeue fun _ _ all => all.prepend link

end Queueing

end RabbitmqC
