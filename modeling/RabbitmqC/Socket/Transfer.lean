import RabbitmqC.Socket.World

/-!
# Sending and receiving

The loops of `amqp_socket.c` and `amqp_connection.c` between a connection and its
socket, and the queue of frames that were read but not asked for. A loop takes
fuel; with more fuel a call comes no less far.
-/

set_option autoImplicit false

namespace RabbitmqC

def outOfFuel {α : Type} : Call α := throw (.fault .outOfFuel)

/-- `amqp_heartbeat_send` and `amqp_heartbeat_recv`. -/
def amqpHeartbeatSend (world : World) : Int := world.heartbeat
def amqpHeartbeatRecv (world : World) : Int := 2 * world.heartbeat

/-! ## Sending octets -/

def doPoll (res : Except Status Unit) (deadline : UInt64) (fuel : Nat) :
    Call (Except Status Unit) := do
  let world ← get
  if world.socketOpen then
    match res with
    | .error .privateSocketNeedread => amqpPoll .toSend deadline fuel
    | .error .privateSocketNeedwrite => amqpPoll .toSend deadline fuel
    | res => return res
  else
    return .error .socketClosed

/-- The loop of `amqp_try_send` with `bufLeft` still to send. -/
def trySendLeft (len : Nat) (deadline : UInt64) : Nat → List UInt8 → Call (Except Status Nat)
  | 0, _ => outOfFuel
  | fuel + 1, bufLeft => do
      match ← amqpSocketSend bufLeft with
      | .ok (count + 1) =>
          if bufLeft.drop (count + 1) = [] then
            return .ok len
          else
            trySendLeft len deadline fuel (bufLeft.drop (count + 1))
      | res => do
          -- Nothing was sent: `res` is 0 or an error.
          match ← doPoll (res.map fun _ => ()) deadline fuel with
          | .ok () => trySendLeft len deadline fuel bufLeft
          | .error .timeout => return .ok (len - bufLeft.length)
          | .error status => return .error status

/-- The number of octets sent, which is less than all after a timeout. -/
def amqpTrySend (buf : List UInt8) (deadline : UInt64) (fuel : Nat) : Call (Except Status Nat) :=
  trySendLeft buf.length deadline fuel buf

/-! ## Receiving -/

/-- The octets between `sock_inbound_offset` and `sock_inbound_limit`. -/
def World.unread (world : World) : List UInt8 := world.sockInbound.drop world.sockInboundOffset

def amqpDataInBuffer (world : World) : Bool :=
  world.sockInboundOffset < world.sockInbound.length

/-- Go past `count` octets that the reader has taken. -/
def World.goPast (world : World) (handled : Handled) (count : Nat) : World :=
  { world with
    reader := handled.reader
    sockInboundOffset := world.sockInboundOffset + count
    framesRead := world.framesRead + if handled.reader.state = .idle then 1 else 0
    consumed := world.consumed ++ world.unread.take count
    decoded := if handled.frame.frameType = 0 then world.decoded
      else world.decoded ++ [handled.frame] }

/-- The reader keeps what it has done when it reports an error, while the octets
count as not consumed. -/
def World.failInput (world : World) (reader : Reader) (status : Status) : World :=
  { world with reader, inputError := world.inputError <|> some status }

/-- No more is unread than one `recv` returns, so that a count is not negative. -/
def consumeOneFrame : Call (Except Status Frame) := do
  let world ← get
  match amqpHandleInput (world.script.memory world.framesRead) world.reader world.unread with
  | .error fault => throw (.fault fault)
  | .ok handled =>
      match handled.result with
      | .error status => do
          set (world.failInput handled.reader status)
          return .error status
      | .ok res => do
          set (world.goPast handled (sizeOfInt res))
          return .ok handled.frame

/-- Put what was received into `sock_inbound_buffer`. -/
def World.refill (world : World) (octets : List UInt8) : World :=
  { world with
    sockInbound := octets
    sockInboundOffset := 0
    taken := world.taken ++ octets }

/-- Move `next_recv_heartbeat`. -/
def awaitHeartbeat : Call (Except Status Unit) := do
  let world ← get
  let (time, res) ← amqpTimeSFromNow world.nextRecvHeartbeat (amqpHeartbeatRecv world)
  modify fun world => { world with nextRecvHeartbeat := time }
  return res

def recvWithTimeout (timeout : UInt64) : Nat → Call (Except Status Unit)
  | 0 => outOfFuel
  | fuel + 1 => do
      match ← amqpSocketRecv with
      | .ok octets => do
          modify fun world => world.refill octets
          awaitHeartbeat
      | .error status => do
          let world ← get
          if world.socketOpen then
            if status = .privateSocketNeedread ∨ status = .privateSocketNeedwrite then do
              match ← amqpPoll .toReceive timeout fuel with
              | .ok () => recvWithTimeout timeout fuel
              | .error status => return .error status
            else
              return .error status
          else
            return .error .connectionClosed

/-! ## The frame queue -/

/-- One allocation for the frame queue. -/
def allocateLink : Call Bool := do
  let world ← get
  match world.script.links with
  | [] => return true
  | granted :: links => do
      set { world with script := { world.script with links } }
      return granted

/-- `amqp_get_or_create_channel_pool`, for a link: whether there is a pool. -/
def linkPool (channel : UInt16) : Call Bool := do
  let world ← get
  if channel ∈ world.reader.poolTable then
    return true
  else do
    if ← allocateLink then do
      modify fun world => { world with reader.poolTable := channel :: world.reader.poolTable }
      return true
    else
      return false

/-- The address of the new link, unless memory is short. `amqp_try_recv` makes the
same allocations itself. -/
def amqpCreateLinkForFrame (frame : Frame) : Call (Option Nat) := do
  if ← linkPool frame.channel then do
    let link ← allocateLink
    let frameCopy ← allocateLink
    if link && frameCopy then do
      let world ← get
      let stale := world.script.stale world.queue.links.length
      set { world with queue := (world.queue.create frame stale).1 }
      return some (world.queue.create frame stale).2
    else
      return none
  else
    return none

/-- The lines of `amqp_try_recv` that queue a frame. -/
def queueReceived (frame : Frame) : Call (Except Status Unit) := do
  match ← amqpCreateLinkForFrame frame with
  | none => return .error .noMemory
  | some link => do
      modify fun world => { world with queue := world.queue.append link }
      return .ok ()

def amqpQueueFrame (frame : Frame) : Call (Except Status Unit) := do
  match ← amqpCreateLinkForFrame frame with
  | none => return .error .noMemory
  | some link => do
      let world ← get
      match world.queue.appendAtFirst link with
      | some queue => do
          set { world with queue }
          return .ok ()
      | none => throw (.fault .outOfBoundsWrite)

def amqpPutBackFrame (frame : Frame) : Call (Except Status Unit) := do
  match ← amqpCreateLinkForFrame frame with
  | none => return .error .noMemory
  | some link => do
      modify fun world => { world with queue := world.queue.prepend link }
      return .ok ()

/-- What becomes of the pool of a channel is left to the script; that it was
recycled is recorded. -/
def amqpMaybeReleaseBuffersOnChannel (channel : UInt16) : Call Unit := do
  let world ← get
  if world.reader.state ≠ .idle then
    return
  else
    match world.queue.find (fun frame => channel == frame.channel) world.queue.reach
        world.queue.first with
    | some _ => return
    | none =>
        if channel ∈ world.reader.poolTable then
          set { world with recycled := world.recycled ++ [channel] }
        else
          return

/-- `POOL_TABLE_SIZE`. -/
def poolTableSize : Nat := 16

/-- The entries of `pool_table`, list by list. -/
def poolTableChannels (poolTable : List UInt16) : List UInt16 :=
  (List.range poolTableSize).flatMap fun index =>
    poolTable.filter fun channel => channel.toNat % poolTableSize = index

/-- The loops of `amqp_release_buffers`. -/
def releaseEach : List UInt16 → Call Unit
  | [] => return
  | channel :: channels => do
      amqpMaybeReleaseBuffersOnChannel channel
      releaseEach channels

def amqpReleaseBuffers : Call Unit := do
  let world ← get
  if world.reader.state ≠ .idle then
    throw (.fault .abort)
  else
    releaseEach (poolTableChannels world.reader.poolTable)

def amqpMaybeReleaseBuffers : Call Unit := do
  let world ← get
  if world.reader.state = .idle then
    amqpReleaseBuffers
  else
    return

/-! ## Receiving frames -/

def amqpTryRecv : Nat → Call (Except Status Unit)
  | 0 => outOfFuel
  | fuel + 1 => do
      let world ← get
      if amqpDataInBuffer world then do
        match ← consumeOneFrame with
        | .error status => return .error status
        | .ok frame =>
            if frame.frameType ≠ 0 then do
              match ← queueReceived frame with
              | .error status => return .error status
              | .ok () => amqpTryRecv fuel
            else
              amqpTryRecv fuel
      else do
        let (timeout, res) ← amqpTimeSFromNow 0 0
        match res with
        | .error status => return .error status
        | .ok () => recvWithTimeout timeout fuel

/-! ## Sending frames -/

/-- `amqp_frame_to_bytes` into `outbound_buffer`: `encoded`. -/
def encodeOutbound (frame : Frame) : Call (Except Status (List UInt8)) := do
  let world ← get
  match amqpFrameToBytes frame world.outbound.size world.outbound with
  | .ok count outbound => do
      set { world with outbound }
      return .ok (outbound.bytes.take count)
  | .error (.status status) outbound => do
      set { world with outbound }
      return .error status
  | .error (.fault fault) _ => throw (.fault fault)

/-- Move `next_send_heartbeat`. -/
def scheduleHeartbeat : Call (Except Status Unit) := do
  let world ← get
  let (time, res) ← amqpTimeSFromNow world.nextSendHeartbeat (amqpHeartbeatSend world)
  modify fun world => { world with nextSendHeartbeat := time }
  return res

/-- `amqp_send_frame_inner` from `start_send` on. -/
def sendEncoded (deadline : UInt64) : Nat → List UInt8 → Call (Except Status Unit)
  | 0, _ => outOfFuel
  | fuel + 1, encoded => do
      let world ← get
      let nextTimeout := amqpTimeFirst deadline world.nextRecvHeartbeat
      match ← amqpTrySend encoded nextTimeout fuel with
      | .error status => return .error status
      | .ok sent =>
          if sent = encoded.length then
            scheduleHeartbeat
          else if nextTimeout = deadline then
            return .error .timeout
          else do
            match ← amqpTryRecv fuel with
            | .error .timeout => return .error .heartbeatTimeout
            | .error status => return .error status
            | .ok () => sendEncoded deadline fuel (encoded.drop sent)

def amqpSendFrameInner (frame : Frame) (flags : SendFlags) (deadline : UInt64) (fuel : Nat) :
    Call (Except Status Unit) := do
  match ← encodeOutbound frame with
  | .error status => return .error status
  | .ok encoded => do
      modify fun world => { world with wire := world.wire ++ [.submitted flags encoded] }
      sendEncoded deadline fuel encoded

def amqpSendFrame (frame : Frame) (fuel : Nat) : Call (Except Status Unit) :=
  amqpSendFrameInner frame .none amqpTimeInfinite fuel

def amqpSendMethodInner (channel : UInt16) (id : UInt32) (decoded : MethodFields id)
    (flags : SendFlags) (deadline : UInt64) (fuel : Nat) : Call (Except Status Unit) :=
  amqpSendFrameInner ⟨amqpFrameMethod, channel, .method id (some decoded)⟩ flags deadline fuel

def amqpSendMethod (channel : UInt16) (id : UInt32) (decoded : MethodFields id) (fuel : Nat) :
    Call (Except Status Unit) :=
  amqpSendMethodInner channel id decoded .none amqpTimeInfinite fuel

/-! ## Publishing -/

/-- `AMQP_BASIC_PUBLISH_METHOD` and `AMQP_BASIC_CLASS`. -/
def amqpBasicPublishMethod : UInt32 := 0x003C0028
def amqpBasicClass : UInt16 := 60

/-- `amqp_basic_publish_t`, with the ticket 0. -/
def basicPublishFields (exchange routingKey : List UInt8) (mandatory immediate : Int32) :
    MethodFields amqpBasicPublishMethod :=
  ((0 : UInt16), exchange, routingKey, ⟨[mandatory, immediate], rfl⟩, ())

/-- Properties after `memset`: no flag is set. -/
def defaultProperties : Properties amqpBasicClass :=
  ⟨0, (none, none, none, none, none, none, none, none, none, none, none, none, none, none, ())⟩

/-- The loop over the fragments of the body. -/
def publishBody (channel : UInt16) (usableBodyPayloadSize : Nat) :
    Nat → List UInt8 → Call (Except Status Unit)
  | 0, _ => outOfFuel
  | fuel + 1, remaining =>
      if remaining = [] then
        return .ok ()
      else
        let (len, flagz) :=
          if remaining.length ≥ usableBodyPayloadSize then (usableBodyPayloadSize, SendFlags.more)
          else (remaining.length, SendFlags.none)
        do
          match ← amqpSendFrameInner
              ⟨amqpFrameBody, channel, .bodyFragment (remaining.take len)⟩ flagz
              amqpTimeInfinite fuel with
          | .error status => return .error status
          | .ok () => publishBody channel usableBodyPayloadSize fuel (remaining.drop len)

/-- `amqp_basic_publish` from the sending of the method on. -/
def publishContent (channel : UInt16) (exchange routingKey : List UInt8)
    (mandatory immediate : Int32) (properties : Option (Properties amqpBasicClass))
    (body : List UInt8) (fuel : Nat) : Call (Except Status Unit) := do
  let world ← get
  let usableBodyPayloadSize :=
    sizeSub (sizeOfInt world.reader.frameMax.toInt) (headerSize + footerSize)
  match ← amqpSendMethodInner channel amqpBasicPublishMethod
      (basicPublishFields exchange routingKey mandatory immediate) .more amqpTimeInfinite fuel with
  | .error status => return .error status
  | .ok () => do
      match ← amqpSendFrameInner
          ⟨amqpFrameHeader, channel, .properties amqpBasicClass (UInt64.ofNat body.length)
            (some (properties.getD defaultProperties)) ⟨0, 0⟩⟩
          (if body.length > 0 then .more else .none) amqpTimeInfinite fuel with
      | .error status => return .error status
      | .ok () => publishBody channel usableBodyPayloadSize fuel body

def amqpBasicPublish (channel : UInt16) (exchange routingKey : List UInt8)
    (mandatory immediate : Int32) (properties : Option (Properties amqpBasicClass))
    (body : List UInt8) (fuel : Nat) : Call (Except Status Unit) := do
  let world ← get
  match ← amqpTimeHasPast world.nextRecvHeartbeat with
  | .error .timerFailure => return .error .timerFailure
  | .error .timeout => do
      match ← amqpTryRecv fuel with
      | .error .timeout => return .error .heartbeatTimeout
      | .error status => return .error status
      | .ok () =>
          publishContent channel exchange routingKey mandatory immediate properties body fuel
  | _ => publishContent channel exchange routingKey mandatory immediate properties body fuel

/-! ## Waiting for frames -/

/-- Consume what is buffered, up to a frame for the caller. -/
def drainToFrame : Nat → Call (Except Status (Option Frame))
  | 0 => outOfFuel
  | fuel + 1 => do
      let world ← get
      if amqpDataInBuffer world then do
        match ← consumeOneFrame with
        | .error status => return .error status
        | .ok frame =>
            if frame.frameType = amqpFrameHeartbeat then do
              amqpMaybeReleaseBuffersOnChannel 0
              drainToFrame fuel
            else if frame.frameType ≠ 0 then
              return .ok (some frame)
            else
              drainToFrame fuel
      else
        return .ok none

def heartbeatFrame : Frame := ⟨amqpFrameHeartbeat, 0, .none⟩

/-- Send a heartbeat if one is due. -/
def sendDueHeartbeat (fuel : Nat) : Call (Except Status Unit) := do
  let world ← get
  match ← amqpTimeHasPast world.nextSendHeartbeat with
  | .error .timerFailure => return .error .timerFailure
  | .error .timeout => amqpSendFrame heartbeatFrame fuel
  | _ => return .ok ()

/-- `wait_frame_inner` from `beginrecv` to the end of the outer loop's body. -/
def beginRecv (timeoutDeadline : UInt64) : Nat → Call (Except Status Unit)
  | 0 => outOfFuel
  | fuel + 1 => do
      match ← sendDueHeartbeat fuel with
      | .error status => return .error status
      | .ok () => do
          let world ← get
          let deadline := amqpTimeFirst timeoutDeadline
            (amqpTimeFirst world.nextRecvHeartbeat world.nextSendHeartbeat)
          match ← recvWithTimeout deadline fuel with
          | .error .timeout => do
              let world ← get
              if deadline = world.nextRecvHeartbeat then do
                let _ ← amqpSocketClose
                return .error .heartbeatTimeout
              else if deadline = timeoutDeadline then
                return .error .timeout
              else if deadline = world.nextSendHeartbeat then
                beginRecv timeoutDeadline fuel
              else
                throw (.fault .abort)
          | res => return res

def waitFrameInner (timeoutDeadline : UInt64) : Nat → Call (Except Status Frame)
  | 0 => outOfFuel
  | fuel + 1 => do
      match ← drainToFrame fuel with
      | .error status => return .error status
      | .ok (some frame) => return .ok frame
      | .ok none => do
          match ← beginRecv timeoutDeadline fuel with
          | .error status => return .error status
          | .ok () => waitFrameInner timeoutDeadline fuel

/-- The second loop of `amqp_simple_wait_frame_on_channel`. -/
def waitFrameForChannel (channel : UInt16) : Nat → Call (Except Status Frame)
  | 0 => outOfFuel
  | fuel + 1 => do
      match ← waitFrameInner amqpTimeInfinite fuel with
      | .error status => return .error status
      | .ok frame =>
          if channel = frame.channel then
            return .ok frame
          else do
            match ← amqpQueueFrame frame with
            | .error status => return .error status
            | .ok () => waitFrameForChannel channel fuel

def amqpSimpleWaitFrameOnChannel (channel : UInt16) (fuel : Nat) :
    Call (Except Status Frame) := do
  let world ← get
  match world.queue.find (fun frame => channel == frame.channel) world.queue.reach
      world.queue.first with
  | some link => do
      -- The queue then starts behind the frame, wherever the frame stood in it.
      set { world with queue := world.queue.startBehind link }
      return .ok link.data
  | none => waitFrameForChannel channel fuel

def amqpSimpleWaitFrameNoblock (timeout : Option Timeval) (fuel : Nat) :
    Call (Except Status Frame) := do
  match ← amqpTimeFromNow timeout with
  | .error status => return .error status
  | .ok deadline => do
      let world ← get
      match world.queue.front with
      | some link => do
          set { world with queue := world.queue.startBehind link }
          return .ok link.data
      | none => waitFrameInner deadline fuel

def amqpSimpleWaitFrame (fuel : Nat) : Call (Except Status Frame) :=
  amqpSimpleWaitFrameNoblock none fuel

end RabbitmqC
