import RabbitmqC.Connection.ReaderInvariant

/-!
# Up to the body case

Everything that falls through in `amqp_handle_input` falls into the body case.
Here the cases in front of it end with the reader it is entered with.
-/

set_option autoImplicit false

namespace RabbitmqC

/-- The call returns in front of the body case, or comes to it. -/
inductive Entered where
  | returned (handled : Handled)
  | body (reader : Reader) (bytesConsumed : Nat)

/-- What the body case makes of it. -/
def Entered.finish (memory : FrameMemory) : Entered → Except Fault Handled
  | .returned handled => .ok handled
  | .body reader bytesConsumed => bodyCase memory reader bytesConsumed

def enterBody (reader : Reader) (receivedData : List UInt8) (bytesConsumed : Nat) :
    Except Fault Entered := do
  let (reader, more) ← consumeData reader receivedData
  if reader.inboundOffset < reader.targetSize then
    return .returned ⟨reader, .ok (intOfSize (bytesConsumed + more)), .unset⟩
  else
    return .body reader (bytesConsumed + more)

def enterHeader (memory : FrameMemory) (reader : Reader) (receivedData : List UInt8)
    (bytesConsumed : Nat) : Except Fault Entered := do
  let raw ← reader.rawFrame
  let channel ← UInt16.ofNat <$> rawWord raw ⟨1, 2⟩
  let frameSize ← rawWord raw ⟨3, 4⟩
  if frameSize ≥ int32Max then
    return .returned ⟨reader, .error .badAmqpData, .unset⟩
  else if sizeOfInt reader.frameMax.toInt < (expectFrame reader frameSize).targetSize then
    return .returned ⟨expectFrame reader frameSize, .error .badAmqpData, .unset⟩
  else
    match amqpGetOrCreateChannelPool memory (expectFrame reader frameSize) channel with
    | none => return .returned ⟨expectFrame reader frameSize, .error .noMemory, .unset⟩
    | some (reader, isNew) =>
        match memory.block reader.targetSize with
        | none => return .returned ⟨{ reader with inbound := .null }, .error .noMemory, .unset⟩
        | some block => do
            let reader ← startBody reader isNew block
            enterBody reader receivedData bytesConsumed

def enterInitial (memory : FrameMemory) (reader : Reader) (receivedData : List UInt8)
    (bytesConsumed : Nat) : Except Fault Entered := do
  let raw ← reader.rawFrame
  match raw.read? 0 4 with
  | none => throw .outOfBoundsRead
  | some octets =>
      if octets = protocolName then do
        let transportHigh ← UInt8.ofNat <$> rawWord raw ⟨4, 1⟩
        let transportLow ← UInt8.ofNat <$> rawWord raw ⟨5, 1⟩
        let versionMajor ← UInt8.ofNat <$> rawWord raw ⟨6, 1⟩
        let versionMinor ← UInt8.ofNat <$> rawWord raw ⟨7, 1⟩
        return .returned ⟨returnToIdle reader, .ok (intOfSize bytesConsumed),
          ⟨amqpPseudoframeProtocolHeader, 0,
            .protocolHeader transportHigh transportLow versionMajor versionMinor⟩⟩
      else
        enterHeader memory reader receivedData bytesConsumed

def enterComplete (memory : FrameMemory) (reader : Reader) (receivedData : List UInt8)
    (bytesConsumed : Nat) : Except Fault Entered :=
  match reader.state with
  | .initial => enterInitial memory reader receivedData bytesConsumed
  | .header => enterHeader memory reader receivedData bytesConsumed
  | .body => return .body reader bytesConsumed
  | .idle => throw .abort

def enterInput (memory : FrameMemory) (reader : Reader) (receivedData : List UInt8) :
    Except Fault Entered := do
  if receivedData.length = 0 then
    return .returned ⟨reader, .ok 0, .unset⟩
  else do
    let (reader, bytesConsumed) ← consumeData (leaveIdle reader) receivedData
    if reader.inboundOffset < reader.targetSize then
      return .returned ⟨reader, .ok (intOfSize bytesConsumed), .unset⟩
    else
      enterComplete memory reader (receivedData.drop bytesConsumed) bytesConsumed

/-! ## The whole call -/

section Finish

variable {memory : FrameMemory} {reader : Reader} {receivedData : List UInt8} {bytesConsumed : Nat}

theorem enterBody_finish :
    enterBody reader receivedData bytesConsumed >>= Entered.finish memory =
      readBody memory reader receivedData bytesConsumed := by
  unfold enterBody readBody
  cases consumeData reader receivedData with
  | error fault => rfl
  | ok consumed =>
      rw [Effect.except_bind_ok, Effect.except_bind_ok]
      dsimp only
      split <;> rfl

theorem enterHeader_finish :
    enterHeader memory reader receivedData bytesConsumed >>= Entered.finish memory =
      headerCase memory reader receivedData bytesConsumed := by
  unfold enterHeader headerCase
  simp only [bind_assoc]
  refine bind_congr fun raw => bind_congr fun channel => bind_congr fun frameSize => ?_
  split
  · rfl
  split
  · rfl
  cases amqpGetOrCreateChannelPool memory (expectFrame reader frameSize) channel with
  | none => rfl
  | some pooled =>
      obtain ⟨pooled, isNew⟩ := pooled
      dsimp only
      cases memory.block pooled.targetSize with
      | none => rfl
      | some block =>
          rw [bind_assoc]
          exact bind_congr fun _ => enterBody_finish

theorem enterInitial_finish :
    enterInitial memory reader receivedData bytesConsumed >>= Entered.finish memory =
      initialCase memory reader receivedData bytesConsumed := by
  unfold enterInitial initialCase
  rw [bind_assoc]
  refine bind_congr fun raw => ?_
  cases raw.read? 0 4 with
  | none => rfl
  | some octets =>
      dsimp only
      split
      · simp only [bind_assoc]
        rfl
      · exact enterHeader_finish

theorem enterComplete_finish :
    enterComplete memory reader receivedData bytesConsumed >>= Entered.finish memory =
      handleComplete memory reader receivedData bytesConsumed := by
  unfold enterComplete handleComplete
  cases reader.state with
  | initial => exact enterInitial_finish
  | header => exact enterHeader_finish
  | body => rfl
  | idle => rfl

/-- `amqp_handle_input` is its way to the body case and the body case. -/
theorem enterInput_finish :
    enterInput memory reader receivedData >>= Entered.finish memory =
      amqpHandleInput memory reader receivedData := by
  unfold enterInput amqpHandleInput
  split
  · rfl
  · rw [bind_assoc]
    refine bind_congr fun (_, consumed) => ?_
    dsimp only
    split
    · rfl
    · exact enterComplete_finish

end Finish

/-! ## From a header buffer -/

section Buffered

variable {memory : FrameMemory} {reader : Reader} {receivedData : List UInt8} {bytesConsumed : Nat}

theorem enterHeader_eq (placed : reader.inbound = .header) :
    enterHeader memory reader receivedData bytesConsumed =
      (if headerPayloadSize reader.headerBuffer.bytes ≥ int32Max then
        .ok (.returned ⟨reader, .error .badAmqpData, .unset⟩)
      else
        let expecting := expectFrame reader (headerPayloadSize reader.headerBuffer.bytes)
        if sizeOfInt reader.frameMax.toInt < expecting.targetSize then
          .ok (.returned ⟨expecting, .error .badAmqpData, .unset⟩)
        else
          match amqpGetOrCreateChannelPool memory expecting
              (headerChannel reader.headerBuffer.bytes) with
          | none => .ok (.returned ⟨expecting, .error .noMemory, .unset⟩)
          | some (pooled, isNew) =>
              match memory.block pooled.targetSize with
              | none => .ok (.returned ⟨{ pooled with inbound := .null }, .error .noMemory, .unset⟩)
              | some block =>
                  startBody pooled isNew block >>= fun started =>
                    enterBody started receivedData bytesConsumed) := by
  have channelWord := @HeaderBuffer.rawWord_eq reader.headerBuffer ⟨1, 2⟩ (by decide)
  have sizeWord := @HeaderBuffer.rawWord_eq reader.headerBuffer ⟨3, 4⟩ (by decide)
  unfold enterHeader
  simp only [Reader.rawFrame, placed, Effect.except_bind_ok, channelWord, sizeWord]
  rfl

theorem enterInitial_of_regular (placed : reader.inbound = .header)
    (regular : reader.headerBuffer.bytes.take 4 ≠ protocolName) :
    enterInitial memory reader receivedData bytesConsumed =
      enterHeader memory reader receivedData bytesConsumed := by
  unfold enterInitial
  simp only [Reader.rawFrame, placed, Effect.except_bind_ok, reader.headerBuffer.read?_four,
    if_neg regular]

/-- A protocol header is no frame. -/
theorem enterInitial_of_protocol (placed : reader.inbound = .header)
    (protocol : reader.headerBuffer.bytes.take 4 = protocolName) :
    ∃ handled, enterInitial memory reader receivedData bytesConsumed = .ok (.returned handled) := by
  obtain ⟨high, highRead⟩ := reader.headerBuffer.octet_read (show 4 < 8 by omega)
  obtain ⟨low, lowRead⟩ := reader.headerBuffer.octet_read (show 5 < 8 by omega)
  obtain ⟨major, majorRead⟩ := reader.headerBuffer.octet_read (show 6 < 8 by omega)
  obtain ⟨minor, minorRead⟩ := reader.headerBuffer.octet_read (show 7 < 8 by omega)
  unfold enterInitial
  simp only [Reader.rawFrame, placed, Effect.except_bind_ok, reader.headerBuffer.read?_four,
    if_pos protocol, highRead, lowRead, majorRead, minorRead]
  exact ⟨_, rfl⟩

end Buffered

end RabbitmqC
