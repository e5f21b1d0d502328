import RabbitmqC.Connection.ReaderInvariant

/-!
# Frames that are half read

While a frame is being read, its block begins with the header that was copied
there from the header buffer, so that the channel whose pool the block was taken
from is the channel that the finished frame carries.
-/

set_option autoImplicit false

namespace RabbitmqC

/-- The block of a frame, and nothing else, begins with the header. -/
structure Reader.Bodied (reader : Reader) : Prop where
  target : headerSize ≤ reader.targetSize
  block : reader.state = .body → ∃ mem amount, reader.inbound = .block mem amount ∧
    mem.bytes.slice 1 2 = reader.headerBuffer.bytes.slice 1 2 ∧ headerSize ≤ reader.inboundOffset
  unblocked : reader.state ≠ .body → ∀ mem amount, reader.inbound ≠ .block mem amount

/-- The channel of the frame whose header was read last. -/
def Reader.channel (reader : Reader) : UInt16 := headerChannel reader.headerBuffer.bytes

/-- How a call ends: the header stays until the frame is finished, which then carries the
channel of the header. -/
structure Finishes (reader : Reader) (handled : Handled) : Prop where
  bodied : handled.reader.Bodied
  header : reader.state = .body → handled.reader.headerBuffer = reader.headerBuffer
  frame : handled.frame.frameType ≠ 0 → (∃ count, handled.result = .ok count) →
    handled.frame.frameType = amqpPseudoframeProtocolHeader ∨
      handled.frame.channel = handled.reader.channel

section Cases

variable {memory : FrameMemory} {reader after : Reader} {receivedData : List UInt8}
  {bytesConsumed count : Nat} {handled : Handled}

theorem returnToIdle_bodied (reader : Reader) : (returnToIdle reader).Bodied where
  target := Nat.le_refl headerSize
  block := nofun
  unblocked _ := nofun

theorem consumeData_bodied (bodied : reader.Bodied)
    (returned : consumeData reader receivedData = .ok (after, count)) :
    after.Bodied ∧ after.state = reader.state ∧
      (reader.state = .body → after.headerBuffer = reader.headerBuffer) := by
  unfold consumeData at returned
  obtain ⟨written, stored, returned⟩ := Effect.except_bind_eq_ok.mp returned
  unfold Reader.writeInbound at stored
  split at stored
  · rename_i isHeader
    have notBody : reader.state ≠ .body := by
      intro inBody
      obtain ⟨mem, amount, isBlock, _⟩ := bodied.block inBody
      cases isHeader.symm.trans isBlock
    split at stored
    · cases stored
      cases returned
      refine ⟨⟨bodied.target, fun inBody => absurd inBody notBody, fun _ => ?_⟩, rfl,
        fun inBody => absurd inBody notBody⟩
      exact bodied.unblocked notBody
    · cases stored
  · rename_i mem amount isBlock
    have inBody : reader.state = .body := by
      by_contra notBody
      exact bodied.unblocked notBody mem amount isBlock
    split at stored
    · rename_i stretched put
      cases stored
      cases returned
      obtain ⟨_, _, same, header, begun⟩ := bodied.block inBody
      cases isBlock.symm.trans same
      obtain ⟨inside, bytes⟩ := Buffer.write?_eq_some_iff.mp put
      have moved : reader.inboundOffset ≤ sizeAdd reader.inboundOffset
          (min (sizeSub reader.targetSize reader.inboundOffset) receivedData.length) := by
        have bounded : mem.size < 2 ^ 63 := mem.size_lt
        rw [List.length_take] at inside
        rw [sizeAdd_of_lt (by omega)]
        omega
      refine ⟨⟨bodied.target, fun _ => ⟨stretched, amount, rfl, ?_, begun.trans moved⟩,
        fun notBody => absurd inBody notBody⟩, rfl, fun _ => rfl⟩
      rw [bytes, List.slice_splice_before inside (Nat.le_trans (by decide) begun)]
      exact header
    · cases stored
  · cases stored

theorem decodePayload_channel {raw : Buffer} {targetSize : Nat} {frameType : UInt8}
    {channel : UInt16} {result : Except Status Unit} {frame : Frame}
    (decoded : decodePayload memory raw targetSize frameType channel = .ok (result, frame)) :
    frame.channel = channel := by
  unfold decodePayload at decoded
  split at decoded
  · obtain ⟨_, _, decoded⟩ := Effect.except_bind_eq_ok.mp decoded
    cases decoded
    rfl
  · split at decoded
    · obtain ⟨_, _, decoded⟩ := Effect.except_bind_eq_ok.mp decoded
      cases decoded
      rfl
    · split at decoded
      · obtain ⟨_, _, decoded⟩ := Effect.except_bind_eq_ok.mp decoded
        cases decoded
        rfl
      · split at decoded
        · cases decoded
          rfl
        · cases decoded
          rfl

/-- The finished frame carries the channel of the header. -/
theorem bodyCase_finishes (bodied : reader.Bodied) (inBody : reader.state = .body)
    (returned : bodyCase memory reader bytesConsumed = .ok handled) : Finishes reader handled := by
  obtain ⟨mem, amount, isBlock, header, begun⟩ := bodied.block inBody
  have sameTable (table : List UInt16) : Reader.Bodied { reader with poolTable := table } :=
    ⟨bodied.target, bodied.block, bodied.unblocked⟩
  unfold bodyCase at returned
  simp only [Reader.rawFrame, isBlock, Effect.except_bind_ok] at returned
  obtain ⟨frameEnd, _, returned⟩ := Effect.except_bind_eq_ok.mp returned
  split at returned
  · cases returned
    exact ⟨bodied, fun _ => rfl, fun nonzero => absurd rfl nonzero⟩
  · obtain ⟨frameType, _, returned⟩ := Effect.except_bind_eq_ok.mp returned
    obtain ⟨channel, read, returned⟩ := Effect.except_bind_eq_ok.mp returned
    have isChannel : channel = reader.channel := by
      unfold rawWord at read
      split at read
      · rename_i octets found
        cases read
        unfold Buffer.read? at found
        split at found
        · cases found
          unfold Reader.channel headerChannel
          rw [← header]
        · cases found
      · cases read
    split at returned
    · cases returned
      refine ⟨bodied, fun _ => rfl, ?_⟩
      rintro _ ⟨_, ⟨⟩⟩
    · rename_i pooled isNew found
      obtain ⟨_, table, rfl⟩ := amqpGetOrCreateChannelPool_eq_some found
      obtain ⟨⟨result, frame⟩, decoded, returned⟩ := Effect.except_bind_eq_ok.mp returned
      cases result with
      | error status =>
          cases returned
          refine ⟨sameTable table, fun _ => rfl, ?_⟩
          rintro _ ⟨_, ⟨⟩⟩
      | ok value =>
          cases returned
          refine ⟨returnToIdle_bodied _, fun _ => rfl, fun _ _ => .inr ?_⟩
          rw [decodePayload_channel decoded]
          exact isChannel

theorem readBody_finishes (bodied : reader.Bodied) (inBody : reader.state = .body)
    (returned : readBody memory reader receivedData bytesConsumed = .ok handled) :
    Finishes reader handled := by
  unfold readBody at returned
  obtain ⟨⟨filled, more⟩, consumed, returned⟩ := Effect.except_bind_eq_ok.mp returned
  obtain ⟨stillBodied, state, header⟩ := consumeData_bodied bodied consumed
  dsimp only at returned
  split at returned
  · cases returned
    exact ⟨stillBodied, header, fun nonzero => absurd rfl nonzero⟩
  · have finishes := bodyCase_finishes stillBodied (state.trans inBody) returned
    exact ⟨finishes.bodied, fun _ => (finishes.header (state.trans inBody)).trans (header inBody),
      finishes.frame⟩

theorem startBody_bodied {started : Reader} {isNew : Bool} {amount : Nat}
    {block : PoolBlock amount} (target : headerSize ≤ reader.targetSize)
    (complete : headerSize ≤ reader.inboundOffset)
    (returned : startBody reader isNew block = .ok started) :
    started.Bodied ∧ started.state = .body ∧ started.headerBuffer = reader.headerBuffer := by
  unfold startBody at returned
  dsimp only at returned
  split at returned
  · rename_i written put
    cases returned
    obtain ⟨inside, bytes⟩ := Buffer.write?_eq_some_iff.mp put
    refine ⟨⟨target, fun _ => ⟨written, amount, rfl, ?_, complete⟩, fun notBody => absurd rfl notBody⟩,
      rfl, rfl⟩
    have long : (reader.headerBuffer.bytes.take headerSize).length = headerSize := by
      rw [List.length_take, reader.headerBuffer.length_eq]
      rfl
    have copied := List.slice_splice_self inside
    rw [long] at copied
    have whole : written.bytes.slice 0 headerSize =
        reader.headerBuffer.bytes.slice 0 headerSize := by
      rw [bytes, copied]
      rfl
    exact @List.slice_eq_of_slice_eq _ _ _ 0 0 1 2 headerSize whole (by decide)
  · cases returned

/-- A header that is complete is read from the header buffer. -/
theorem headerCase_finishes (bodied : reader.Bodied) (notBody : reader.state ≠ .body)
    (complete : headerSize ≤ reader.inboundOffset)
    (returned : headerCase memory reader receivedData bytesConsumed = .ok handled) :
    Finishes reader handled := by
  cases headerCase_eq_ok returned with
  | refused refusing status state target inbound same =>
      subst same
      refine ⟨⟨target bodied.target, fun inBody => absurd (state.symm.trans inBody) notBody,
        fun _ mem amount block => ?_⟩, fun inBody => absurd inBody notBody,
        fun nonzero => absurd rfl nonzero⟩
      rcases inbound with kept | null
      · exact bodied.unblocked notBody mem amount (kept.symm.trans block)
      · cases null.symm.trans block
  | taken frameSize poolTable isNew block started begun returned =>
      have long : headerSize ≤ (expectFrame reader frameSize).targetSize :=
        Nat.le_trans (Nat.le_add_left _ _) (Nat.le_add_right _ _)
      obtain ⟨startedBodied, inBody, _⟩ := startBody_bodied (by exact long)
        (by exact complete) begun
      have finishes := readBody_finishes startedBodied inBody returned
      exact ⟨finishes.bodied, fun inBody => absurd inBody notBody, finishes.frame⟩

theorem initialCase_finishes (bodied : reader.Bodied) (notBody : reader.state ≠ .body)
    (complete : headerSize ≤ reader.inboundOffset)
    (returned : initialCase memory reader receivedData bytesConsumed = .ok handled) :
    Finishes reader handled := by
  unfold initialCase at returned
  obtain ⟨raw, _, returned⟩ := Effect.except_bind_eq_ok.mp returned
  split at returned
  · cases returned
  · split at returned
    · obtain ⟨_, _, returned⟩ := Effect.except_bind_eq_ok.mp returned
      obtain ⟨_, _, returned⟩ := Effect.except_bind_eq_ok.mp returned
      obtain ⟨_, _, returned⟩ := Effect.except_bind_eq_ok.mp returned
      obtain ⟨_, _, returned⟩ := Effect.except_bind_eq_ok.mp returned
      cases returned
      exact ⟨returnToIdle_bodied reader, fun inBody => absurd inBody notBody, fun _ _ => .inl rfl⟩
    · exact headerCase_finishes bodied notBody complete returned

end Cases

theorem leaveIdle_bodied {reader : Reader} (bodied : reader.Bodied) :
    (leaveIdle reader).Bodied ∧ ((leaveIdle reader).state = .body ↔ reader.state = .body) ∧
      (leaveIdle reader).headerBuffer = reader.headerBuffer := by
  unfold leaveIdle
  split
  · rename_i idle
    have notBody : reader.state ≠ .body := by
      rw [idle]
      decide
    exact ⟨⟨bodied.target, nofun, fun _ => bodied.unblocked notBody⟩,
      ⟨nofun, fun inBody => absurd inBody notBody⟩, rfl⟩
  · exact ⟨bodied, Iff.rfl, rfl⟩

/-- The reader keeps the header of a frame until the frame is finished, whatever it is fed. -/
theorem amqpHandleInput_finishes {memory : FrameMemory} {reader : Reader}
    {receivedData : List UInt8} {handled : Handled} (bodied : reader.Bodied)
    (returned : amqpHandleInput memory reader receivedData = .ok handled) :
    Finishes reader handled := by
  obtain ⟨leftBodied, leftState, leftHeader⟩ := leaveIdle_bodied bodied
  unfold amqpHandleInput at returned
  split at returned
  · cases returned
    exact ⟨bodied, fun _ => rfl, fun nonzero => absurd rfl nonzero⟩
  · obtain ⟨⟨filled, count⟩, consumed, returned⟩ := Effect.except_bind_eq_ok.mp returned
    obtain ⟨filledBodied, state, header⟩ := consumeData_bodied leftBodied consumed
    have kept (inBody : reader.state = .body) : filled.headerBuffer = reader.headerBuffer :=
      (header (leftState.mpr inBody)).trans leftHeader
    have carried (finishes : Finishes filled handled) : Finishes reader handled := by
      refine ⟨finishes.bodied, fun inBody => ?_, finishes.frame⟩
      exact (finishes.header (state.trans (leftState.mpr inBody))).trans (kept inBody)
    dsimp only at returned
    split at returned
    · cases returned
      exact ⟨filledBodied, kept, fun nonzero => absurd rfl nonzero⟩
    · rename_i full
      have complete : headerSize ≤ filled.inboundOffset :=
        filledBodied.target.trans (Nat.not_lt.mp full)
      apply carried
      unfold handleComplete at returned
      split at returned
      · rename_i isInitial
        exact initialCase_finishes filledBodied (by rw [isInitial]; decide) complete returned
      · rename_i isHeader
        exact headerCase_finishes filledBodied (by rw [isHeader]; decide) complete returned
      · rename_i inBody
        exact bodyCase_finishes filledBodied inBody returned
      · cases returned

end RabbitmqC
