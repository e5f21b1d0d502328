import RabbitmqC.Lib.LinkedQueue
import RabbitmqC.Connection.FrameOutput

/-!
# A connection and what surrounds it

Library calls run in a world that holds the connection and a script of how the
clock, the socket, `poll` and the allocator will answer. A call that needs an
answer the script does not have is blocked; the world shows how far it came. The
last members of a world only record what has happened.
-/

set_option autoImplicit false

namespace RabbitmqC

/-! ## Answers -/

/-- The codes a socket reports a failure with, while it is not closed. -/
inductive SocketFailure where
  | socketError | sslError | connectionClosed
  deriving DecidableEq, Repr

def SocketFailure.status : SocketFailure → Status
  | socketError => .socketError
  | sslError => .sslError
  | connectionClosed => .connectionClosed

/-- `AMQP_INITIAL_INBOUND_SOCK_BUFFER_SIZE`. -/
def initialInboundSockBufferSize : Nat := 131072

/-- What one `recv` can return. -/
structure Chunk where
  octets : List UInt8
  nonempty : octets ≠ []
  length_le : octets.length ≤ initialInboundSockBufferSize

inductive RecvAnswer where
  | data (chunk : Chunk)
  | needRead
  | needWrite
  | failed (failure : SocketFailure)

/-- A socket accepts at most what it is offered, and possibly nothing. -/
inductive SendAnswer where
  | accepted (count : Nat)
  | needRead
  | needWrite
  | failed (failure : SocketFailure)
  deriving DecidableEq

inductive PollAnswer where
  | ready
  | timedOut
  /-- `EINTR`. -/
  | interrupted
  | failed
  deriving DecidableEq

structure Script where
  /-- Zero is a failure of the timer. -/
  clock : List UInt64
  recvs : List RecvAnswer
  sends : List SendAnswer
  recvPolls : List PollAnswer
  sendPolls : List PollAnswer
  /-- Whether closing the socket succeeds. -/
  closes : List Bool
  /-- How allocations for the frame queue turn out; they succeed once the list is used up. -/
  links : List Bool
  /-- What `next` of a new link holds before it is written, by the address of the link. -/
  stale : Nat → Option Nat := fun _ => none
  /-- The memory for the frames that are received, by their number. -/
  memory : Nat → FrameMemory

/-! ## The world -/

/-- `AMQP_SF_NONE` and `AMQP_SF_MORE`. -/
inductive SendFlags where
  | none | more
  deriving DecidableEq, Repr

/-- What happens at the sending side: a frame is encoded for sending, or the
socket accepts some octets. -/
inductive WireEvent where
  | submitted (flags : SendFlags) (encoded : List UInt8)
  | accepted (octets : List UInt8)
  deriving DecidableEq

structure World where
  reader : Reader
  channelMax : Int
  /-- In seconds. A login negotiates less than 2^16; from 2^30 on, twice as much would be no `int`. -/
  heartbeat : Int
  nextRecvHeartbeat : UInt64
  nextSendHeartbeat : UInt64
  /-- `outbound_buffer`; its length is the size of the block. -/
  outbound : Buffer
  /-- `sockfd` is not -1. -/
  socketOpen : Bool
  /-- The octets of `sock_inbound_buffer` in front of `sock_inbound_limit`. -/
  sockInbound : List UInt8
  sockInboundOffset : Nat
  queue : LinkedQueue Frame
  serverProperties : Table
  clientProperties : Table
  script : Script
  /-- Frames finished by the reader, ignored ones included. -/
  framesRead : Nat
  wire : List WireEvent
  /-- The octets that the socket has delivered. -/
  taken : List UInt8
  /-- The octets that `consume_one_frame` has gone past. -/
  consumed : List UInt8
  /-- The frames of nonzero type that `consume_one_frame` has returned. -/
  decoded : List Frame
  /-- The first code other than `AMQP_STATUS_OK` that it has returned. -/
  inputError : Option Status
  /-- The channels whose pools were recycled. -/
  recycled : List UInt16
  /-- The deadlines that `amqp_poll` was given. -/
  polls : List UInt64

/-- A connection from `amqp_new_connection` with an open socket. -/
def World.new (script : Script) : World where
  reader := Reader.new
  channelMax := 0
  heartbeat := 0
  nextRecvHeartbeat := 0xFFFFFFFFFFFFFFFF
  nextSendHeartbeat := 0xFFFFFFFFFFFFFFFF
  outbound := ⟨List.replicate 65536 0, by rw [List.length_replicate]; decide⟩
  socketOpen := true
  sockInbound := []
  sockInboundOffset := 0
  queue := .empty
  serverProperties := []
  clientProperties := []
  script
  framesRead := 0
  wire := []
  taken := []
  consumed := []
  decoded := []
  inputError := none
  recycled := []
  polls := []

/-- Why a call does not return. -/
inductive Stop where
  | blocked
  | fault (fault : Fault)
  deriving DecidableEq, Repr

/-- A library call. The codes it returns are values. -/
abbrev Call := EStateM Stop World

/-- Take the next answer of one kind from the script. -/
def ask {α : Type} (answers : Script → List α) (keep : Script → List α → Script) : Call α := do
  let world ← get
  match answers world.script with
  | [] => throw .blocked
  | answer :: rest => do
      set { world with script := keep world.script rest }
      return answer

/-! ## Time -/

def nsPerS : UInt64 := 1000000000
def nsPerMs : UInt64 := 1000000
def nsPerUs : UInt64 := 1000

def amqpGetMonotonicTimestamp : Call UInt64 :=
  ask (·.clock) fun script clock => { script with clock }

def amqpTimeInfinite : UInt64 := 0xFFFFFFFFFFFFFFFF

/-- The last lines of `amqp_time_from_now` and `amqp_time_s_from_now`. The time
point is stored also when it is found to have wrapped around. -/
def timePointAfter (now delta : UInt64) : UInt64 × Except Status Unit :=
  let timePoint := now + delta
  if now > timePoint ∨ delta > timePoint then (timePoint, .error .invalidParameter)
  else (timePoint, .ok ())

/-- `*time` afterwards, which was `time` before, and the result. -/
def amqpTimeSFromNow (time : UInt64) (seconds : Int) : Call (UInt64 × Except Status Unit) := do
  if 0 ≥ seconds then
    return (amqpTimeInfinite, .ok ())
  else do
    let now ← amqpGetMonotonicTimestamp
    if now = 0 then
      return (time, .error .timerFailure)
    else
      return timePointAfter now (UInt64.ofNat seconds.toNat * nsPerS)

/-- `struct timeval`. -/
structure Timeval where
  tvSec : Int64
  tvUsec : Int64

/-- The deadline, unless it is infinite, is a local variable of the callers. -/
def amqpTimeFromNow : Option Timeval → Call (Except Status UInt64)
  | none => return .ok amqpTimeInfinite
  | some timeout => do
      if timeout.tvSec < 0 ∨ timeout.tvUsec < 0 then
        return .error .invalidParameter
      else do
        let now ← amqpGetMonotonicTimestamp
        if now = 0 then
          return .error .timerFailure
        else
          let (timePoint, result) := timePointAfter now
            (timeout.tvSec.toUInt64 * nsPerS + timeout.tvUsec.toUInt64 * nsPerUs)
          return result.map fun _ => timePoint

/-- Milliseconds, -1 for ever, or a status code. The conversion to `int` narrows. -/
def amqpTimeMsUntil (time : UInt64) : Call Int := do
  if time = amqpTimeInfinite then
    return -1
  else if time = 0 then
    return 0
  else do
    let now ← amqpGetMonotonicTimestamp
    if now = 0 then
      return Status.timerFailure.code
    else if now ≥ time then
      return 0
    else
      return intOfSize ((time - now) / nsPerMs).toNat

def amqpTimeHasPast (time : UInt64) : Call (Except Status Unit) := do
  if time = amqpTimeInfinite then
    return .ok ()
  else do
    let now ← amqpGetMonotonicTimestamp
    if now = 0 then
      return .error .timerFailure
    else if now > time then
      return .error .timeout
    else
      return .ok ()

def amqpTimeFirst (l r : UInt64) : UInt64 := if l < r then l else r

/-! ## The socket -/

/-- The two places that wait for the socket. -/
inductive Waiting where
  | toReceive | toSend

def Waiting.poll : Waiting → Call PollAnswer
  | toReceive => ask (·.recvPolls) fun script recvPolls => { script with recvPolls }
  | toSend => ask (·.sendPolls) fun script sendPolls => { script with sendPolls }

def recordPoll (deadline : UInt64) : Call Unit :=
  modify fun world => { world with polls := world.polls ++ [deadline] }

def amqpPoll (waiting : Waiting) (deadline : UInt64) : Nat → Call (Except Status Unit)
  | 0 => throw (.fault .outOfFuel)
  | fuel + 1 => do
      recordPoll deadline
      let timeoutMs ← amqpTimeMsUntil deadline
      if -1 > timeoutMs then
        return .error (Status.ofCode timeoutMs)
      else do
        match ← waiting.poll with
        | .ready => return .ok ()
        | .timedOut =>
            -- With a timeout of -1 `poll` does not answer so.
            if timeoutMs = -1 then amqpPoll waiting deadline fuel else return .error .timeout
        | .interrupted => amqpPoll waiting deadline fuel
        | .failed => return .error .socketError

/-- `amqp_socket_send`: the number of octets accepted. -/
def amqpSocketSend (buf : List UInt8) : Call (Except Status Nat) := do
  let world ← get
  if world.socketOpen then do
    match ← ask (·.sends) fun script sends => { script with sends } with
    | .accepted count => do
        modify fun world => { world with wire := world.wire ++ [.accepted (buf.take count)] }
        return .ok (buf.take count).length
    | .needRead => return .error .privateSocketNeedread
    | .needWrite => return .error .privateSocketNeedwrite
    | .failed failure => return .error failure.status
  else
    return .error .socketClosed

/-- `amqp_socket_recv`: the octets received. -/
def amqpSocketRecv : Call (Except Status (List UInt8)) := do
  let world ← get
  if world.socketOpen then do
    match ← ask (·.recvs) fun script recvs => { script with recvs } with
    | .data chunk => return .ok chunk.octets
    | .needRead => return .error .privateSocketNeedread
    | .needWrite => return .error .privateSocketNeedwrite
    | .failed failure => return .error failure.status
  else
    return .error .socketClosed

/-- `amqp_socket_close`. The descriptor stays if the system does not close it. -/
def amqpSocketClose : Call (Except Status Unit) := do
  let world ← get
  if world.socketOpen then do
    if ← ask (·.closes) fun script closes => { script with closes } then do
      modify fun world => { world with socketOpen := false }
      return .ok ()
    else
      return .error .socketError
  else
    return .error .socketClosed

end RabbitmqC
