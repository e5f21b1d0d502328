import RabbitmqC.Framing.Codec

/-!
# Reading frames

`amqp_handle_input` and the part of the connection it works on. The four cases
of its `switch` fall through into each other; a case that another one falls into
is a function of its own here. Undefined behaviour ends the computation with a
fault, an error code is an ordinary result.
-/

set_option autoImplicit false

namespace RabbitmqC

/-! ## Frames -/

/-- The union in `amqp_frame_t`. A `decoded` pointer that was not set is `none`. -/
inductive Payload where
  | none
  | method (id : UInt32) (decoded : Option (MethodFields id))
  | properties (classId : UInt16) (bodySize : UInt64) (decoded : Option (Properties classId))
      (raw : View)
  | bodyFragment (bytes : List UInt8)
  | protocolHeader (transportHigh transportLow versionMajor versionMinor : UInt8)

/-- `amqp_frame_t`. -/
structure Frame where
  frameType : UInt8
  channel : UInt16
  payload : Payload

/-- Insufficient input, or nothing set yet. -/
def Frame.unset : Frame := ⟨0, 0, .none⟩

def amqpFrameMethod : UInt8 := 1
def amqpFrameHeader : UInt8 := 2
def amqpFrameBody : UInt8 := 3
def amqpFrameHeartbeat : UInt8 := 8
def amqpFrameEnd : UInt8 := 206
def amqpPseudoframeProtocolHeader : UInt8 := 65

/-- `HEADER_SIZE` and `FOOTER_SIZE`. -/
def headerSize : Nat := 7
def footerSize : Nat := 1

/-- `INT32_MAX`. -/
def int32Max : Nat := 2 ^ 31 - 1

/-- `AMQP_INITIAL_FRAME_POOL_PAGE_SIZE`. -/
def initialFramePoolPageSize : Int32 := 65536

/-! ## Memory from the channel pools -/

/-- A block of `amount` octets. It lies in a memory object that may go on behind it. -/
structure PoolBlock (amount : Nat) where
  mem : Buffer
  amount_le : amount ≤ mem.size

/-- How the allocations for one frame turn out: a new entry of the pool table,
the block for the frame, and those made while its payload is decoded. -/
structure FrameMemory where
  poolEntry : Bool
  block : (amount : Nat) → Option (PoolBlock amount)
  allocs : List Bool

/-! ## The reader -/

/-- `amqp_connection_state_enum`. -/
inductive ReaderState where
  | idle | initial | header | body
  deriving DecidableEq, Repr

/-- `header_buffer`. -/
structure HeaderBuffer where
  bytes : List UInt8
  length_eq : bytes.length = headerSize + 1

namespace HeaderBuffer

/-- The header buffer as a memory object. -/
def mem (buffer : HeaderBuffer) : Buffer :=
  ⟨buffer.bytes, by rw [buffer.length_eq]; decide⟩

def write? (buffer : HeaderBuffer) (offset : Nat) (data : List UInt8) : Option HeaderBuffer :=
  if fits : offset + data.length ≤ headerSize + 1 then
    some ⟨buffer.bytes.splice offset data, by
      rw [List.length_splice (by rw [buffer.length_eq]; exact fits), buffer.length_eq]⟩
  else none

end HeaderBuffer

/-- What `inbound_buffer` points to. -/
inductive Inbound where
  | header
  | block (mem : Buffer) (amount : Nat)
  | null

/-- The members of the connection that `amqp_handle_input` uses. -/
structure Reader where
  state : ReaderState
  frameMax : Int32
  headerBuffer : HeaderBuffer
  inbound : Inbound
  inboundOffset : Nat
  targetSize : Nat
  /-- The channels that have an entry in the pool table. -/
  poolTable : List UInt16

/-- The reader of a connection from `amqp_new_connection`. -/
def Reader.new : Reader where
  state := .initial
  frameMax := initialFramePoolPageSize
  headerBuffer := ⟨List.replicate (headerSize + 1) 0, List.length_replicate⟩
  inbound := .header
  inboundOffset := 0
  targetSize := 8
  poolTable := []

def returnToIdle (reader : Reader) : Reader :=
  { reader with
    inbound := .header
    inboundOffset := 0
    targetSize := headerSize
    state := .idle }

namespace Reader

/-- Write through `inbound_buffer.bytes`. -/
def writeInbound (reader : Reader) (offset : Nat) (data : List UInt8) : Except Fault Reader :=
  match reader.inbound with
  | .header =>
      match reader.headerBuffer.write? offset data with
      | some headerBuffer => .ok { reader with headerBuffer }
      | none => .error .outOfBoundsWrite
  | .block mem amount =>
      match mem.write? offset data with
      | some mem => .ok { reader with inbound := .block mem amount }
      | none => .error .outOfBoundsWrite
  | .null => .error .outOfBoundsWrite

/-- The memory object that `raw_frame` points into. -/
def rawFrame (reader : Reader) : Except Fault Buffer :=
  match reader.inbound with
  | .header => .ok reader.headerBuffer.mem
  | .block mem _ => .ok mem
  | .null => .error .outOfBoundsRead

end Reader

/-- `amqp_d##bits` of the word at a place in a memory object. -/
def rawWord (raw : Buffer) (span : View) : Except Fault Nat :=
  match raw.read? span.base span.len with
  | some octets => .ok (BigEndian.value octets)
  | none => .error .outOfBoundsRead

/-- `consume_data`: the reader afterwards and the number of octets taken. -/
def consumeData (reader : Reader) (receivedData : List UInt8) : Except Fault (Reader × Nat) := do
  let bytesConsumed := min (sizeSub reader.targetSize reader.inboundOffset) receivedData.length
  let reader ← reader.writeInbound reader.inboundOffset (receivedData.take bytesConsumed)
  return ({ reader with inboundOffset := sizeAdd reader.inboundOffset bytesConsumed }, bytesConsumed)

/-- `amqp_get_or_create_channel_pool`: the reader afterwards, and whether the
pool is a new one, which has no page yet. -/
def amqpGetOrCreateChannelPool (memory : FrameMemory) (reader : Reader) (channel : UInt16) :
    Option (Reader × Bool) :=
  if channel ∈ reader.poolTable then
    some (reader, false)
  else if memory.poolEntry then
    some ({ reader with poolTable := channel :: reader.poolTable }, true)
  else
    none

/-- What `amqp_handle_input` leaves behind: the connection, the returned code
or count of octets, and `*decoded_frame`. -/
structure Handled where
  reader : Reader
  result : Except Status Int
  frame : Frame

/-! ### The places the body case reads -/

def methodIdSpan : View := ⟨headerSize, 4⟩
def classIdSpan : View := ⟨headerSize, 2⟩
def bodySizeSpan : View := ⟨headerSize + 4, 8⟩

/-- `encoded` for `amqp_decode_method`. -/
def methodSpan (targetSize : Nat) : View :=
  ⟨headerSize + 4, sizeSub (sizeSub (sizeSub targetSize headerSize) 4) footerSize⟩

/-- `encoded` for `amqp_decode_properties`. -/
def propertiesSpan (targetSize : Nat) : View :=
  ⟨headerSize + 12, sizeSub (sizeSub (sizeSub targetSize headerSize) 12) footerSize⟩

def bodyFragmentSpan (targetSize : Nat) : View :=
  ⟨headerSize, sizeSub (sizeSub targetSize headerSize) footerSize⟩

/-! ### The cases of the `switch` -/

/-- The case `AMQP_FRAME_METHOD`. -/
def methodPayload (memory : FrameMemory) (raw : Buffer) (targetSize : Nat) :
    Except Fault (Except Status Unit × Payload) := do
  let id ← UInt32.ofNat <$> rawWord raw methodIdSpan
  match amqpDecodeMethod id { methodSpan targetSize with mem := raw } ⟨0, memory.allocs⟩ with
  | .ok decoded _ => return (.ok (), .method id (some decoded))
  | .error (.status status) _ => return (.error status, .method id none)
  | .error (.fault fault) _ => throw fault

/-- The case `AMQP_FRAME_HEADER`. -/
def headerPayload (memory : FrameMemory) (raw : Buffer) (targetSize : Nat) :
    Except Fault (Except Status Unit × Payload) := do
  let classId ← UInt16.ofNat <$> rawWord raw classIdSpan
  let bodySize ← UInt64.ofNat <$> rawWord raw bodySizeSpan
  match amqpDecodeProperties classId { propertiesSpan targetSize with mem := raw }
      ⟨0, memory.allocs⟩ with
  | .ok decoded _ =>
      return (.ok (), .properties classId bodySize (some decoded) (propertiesSpan targetSize))
  | .error (.status status) _ =>
      return (.error status, .properties classId bodySize none (propertiesSpan targetSize))
  | .error (.fault fault) _ => throw fault

/-- The case `AMQP_FRAME_BODY`. -/
def bodyPayload (raw : Buffer) (targetSize : Nat) :
    Except Fault (Except Status Unit × Payload) :=
  match raw.read? (bodyFragmentSpan targetSize).base (bodyFragmentSpan targetSize).len with
  | some bytes => .ok (.ok (), .bodyFragment bytes)
  | none => .error .outOfBoundsRead

/-- The inner `switch`: whether the payload was decoded, and the frame as far as
it is set. -/
def decodePayload (memory : FrameMemory) (raw : Buffer) (targetSize : Nat) (frameType : UInt8)
    (channel : UInt16) : Except Fault (Except Status Unit × Frame) := do
  if frameType = amqpFrameMethod then
    let (result, payload) ← methodPayload memory raw targetSize
    return (result, ⟨frameType, channel, payload⟩)
  else if frameType = amqpFrameHeader then
    let (result, payload) ← headerPayload memory raw targetSize
    return (result, ⟨frameType, channel, payload⟩)
  else if frameType = amqpFrameBody then
    let (result, payload) ← bodyPayload raw targetSize
    return (result, ⟨frameType, channel, payload⟩)
  else if frameType = amqpFrameHeartbeat then
    return (.ok (), ⟨frameType, channel, .none⟩)
  else
    -- An unknown frame is ignored.
    return (.ok (), ⟨0, channel, .none⟩)

/-- The case `CONNECTION_STATE_BODY`. -/
def bodyCase (memory : FrameMemory) (reader : Reader) (bytesConsumed : Nat) :
    Except Fault Handled := do
  let raw ← reader.rawFrame
  let frameEnd ← rawWord raw ⟨sizeSub reader.targetSize 1, 1⟩
  if frameEnd ≠ amqpFrameEnd.toNat then
    return ⟨reader, .error .badAmqpData, .unset⟩
  else do
    let frameType ← UInt8.ofNat <$> rawWord raw ⟨0, 1⟩
    let channel ← UInt16.ofNat <$> rawWord raw ⟨1, 2⟩
    match amqpGetOrCreateChannelPool memory reader channel with
    | none => return ⟨reader, .error .noMemory, ⟨frameType, channel, .none⟩⟩
    | some (reader, _) => do
        let (result, frame) ← decodePayload memory raw reader.targetSize frameType channel
        match result with
        | .error status => return ⟨reader, .error status, frame⟩
        | .ok () => return ⟨returnToIdle reader, .ok (intOfSize bytesConsumed), frame⟩

/-- Take the block for a frame: the pages of a new pool come from `calloc`. -/
def startBody (reader : Reader) (isNew : Bool) {amount : Nat} (block : PoolBlock amount) :
    Except Fault Reader :=
  let mem := if isNew then block.mem.clear else block.mem
  match mem.write? 0 (reader.headerBuffer.bytes.take headerSize) with
  | some mem => .ok { reader with inbound := .block mem amount, state := .body }
  | none => .error .outOfBoundsWrite

/-- The case `CONNECTION_STATE_HEADER`, from the block on. -/
def readBody (memory : FrameMemory) (reader : Reader) (receivedData : List UInt8)
    (bytesConsumed : Nat) : Except Fault Handled := do
  let (reader, more) ← consumeData reader receivedData
  if reader.inboundOffset < reader.targetSize then
    return ⟨reader, .ok (intOfSize (bytesConsumed + more)), .unset⟩
  else
    bodyCase memory reader (bytesConsumed + more)

/-- Set `target_size` from the size a frame header declares. -/
def expectFrame (reader : Reader) (frameSize : Nat) : Reader :=
  { reader with targetSize := frameSize + headerSize + footerSize }

/-- The case `CONNECTION_STATE_HEADER`. -/
def headerCase (memory : FrameMemory) (reader : Reader) (receivedData : List UInt8)
    (bytesConsumed : Nat) : Except Fault Handled := do
  let raw ← reader.rawFrame
  let channel ← UInt16.ofNat <$> rawWord raw ⟨1, 2⟩
  let frameSize ← rawWord raw ⟨3, 4⟩
  if frameSize ≥ int32Max then
    return ⟨reader, .error .badAmqpData, .unset⟩
  else if sizeOfInt reader.frameMax.toInt < (expectFrame reader frameSize).targetSize then
    return ⟨expectFrame reader frameSize, .error .badAmqpData, .unset⟩
  else
    match amqpGetOrCreateChannelPool memory (expectFrame reader frameSize) channel with
    | none => return ⟨expectFrame reader frameSize, .error .noMemory, .unset⟩
    | some (reader, isNew) =>
        match memory.block reader.targetSize with
        | none => return ⟨{ reader with inbound := .null }, .error .noMemory, .unset⟩
        | some block => do
            let reader ← startBody reader isNew block
            readBody memory reader receivedData bytesConsumed

/-- The octets `"AMQP"`. -/
def protocolName : List UInt8 := [65, 77, 81, 80]

/-- The case `CONNECTION_STATE_INITIAL`. -/
def initialCase (memory : FrameMemory) (reader : Reader) (receivedData : List UInt8)
    (bytesConsumed : Nat) : Except Fault Handled := do
  let raw ← reader.rawFrame
  match raw.read? 0 4 with
  | none => throw .outOfBoundsRead
  | some octets =>
      if octets = protocolName then do
        let transportHigh ← UInt8.ofNat <$> rawWord raw ⟨4, 1⟩
        let transportLow ← UInt8.ofNat <$> rawWord raw ⟨5, 1⟩
        let versionMajor ← UInt8.ofNat <$> rawWord raw ⟨6, 1⟩
        let versionMinor ← UInt8.ofNat <$> rawWord raw ⟨7, 1⟩
        return ⟨returnToIdle reader, .ok (intOfSize bytesConsumed),
          ⟨amqpPseudoframeProtocolHeader, 0,
            .protocolHeader transportHigh transportLow versionMajor versionMinor⟩⟩
      else
        headerCase memory reader receivedData bytesConsumed

/-- Leave the idle state at the first octet of a frame. -/
def leaveIdle (reader : Reader) : Reader :=
  if reader.state = .idle then { reader with state := .header } else reader

/-- The `switch` over the reader's state, with `target_size` octets buffered. -/
def handleComplete (memory : FrameMemory) (reader : Reader) (receivedData : List UInt8)
    (bytesConsumed : Nat) : Except Fault Handled :=
  match reader.state with
  | .initial => initialCase memory reader receivedData bytesConsumed
  | .header => headerCase memory reader receivedData bytesConsumed
  | .body => bodyCase memory reader bytesConsumed
  | .idle => throw .abort

def amqpHandleInput (memory : FrameMemory) (reader : Reader) (receivedData : List UInt8) :
    Except Fault Handled := do
  if receivedData.length = 0 then
    return ⟨reader, .ok 0, .unset⟩
  else do
    let (reader, bytesConsumed) ← consumeData (leaveIdle reader) receivedData
    if reader.inboundOffset < reader.targetSize then
      return ⟨reader, .ok (intOfSize bytesConsumed), .unset⟩
    else
      handleComplete memory reader (receivedData.drop bytesConsumed) bytesConsumed

end RabbitmqC
