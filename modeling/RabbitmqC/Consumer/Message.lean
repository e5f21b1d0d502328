import RabbitmqC.Socket.Rpc
import RabbitmqC.Table.Clone

/-!
# Reading messages

`amqp_read_message` waits on a channel for a content header and for body frames
until they make up the size that the header announces; `amqp_consume_message`
waits for a delivery first.
-/

set_option autoImplicit false

namespace RabbitmqC

open Effect

/-! ## The model -/

/-- `amqp_message_t`. -/
structure Message where
  properties : Properties amqpBasicClass
  body : List UInt8

/-- A `channel.close` or `connection.close`, whatever its channel. -/
def closeMethod? (frame : Frame) : Option Method :=
  frame.method?.filter fun method =>
    method.id == amqpChannelCloseMethod || method.id == amqpConnectionCloseMethod

/-- `decoded` as `amqp_basic_properties_t`. The class of the header is not checked; the
struct of another class has the flags only. -/
def asBasicProperties (classId : UInt16) (decoded : Properties classId) :
    Except Fault (Properties amqpBasicClass) :=
  if same : classId = amqpBasicClass then
    .ok (same ▸ decoded)
  else if decoded.flags &&& definedFlags (classProperties amqpBasicClass) = 0 then
    .ok { defaultProperties with flags := decoded.flags }
  else
    .error .wrongObject

/-- The properties and the block for the body: the size of the body, with the outcomes
of allocations given. -/
def startMessage (allocs : List Bool) (frame : Frame) :
    EStateM.Result Failure (List Bool) (Properties amqpBasicClass × Nat) :=
  match frame.payload with
  | .properties classId bodySize (some decoded) _ =>
      match asBasicProperties classId decoded with
      | .error fault => .error (.fault fault) allocs
      | .ok original =>
          (do
            let properties ← amqpBasicPropertiesClone original
            if bodySize = 0 then
              return (properties, 0)
            else do
              poolAlloc
              return (properties, bodySize.toNat)) allocs
  | _ => .error (.fault .wrongObject) allocs

/-- The `while` loop of `amqp_read_message`. -/
def readFragments (channel : UInt16) (size : Nat) :
    Nat → List UInt8 → Call (Except RpcReply (List UInt8))
  | 0, _ => outOfFuel
  | fuel + 1, body =>
      if body.length < size then do
        match ← amqpSimpleWaitFrameOnChannel channel fuel with
        | .error status => return .error (.libraryException status)
        | .ok frame =>
            if frame.frameType ≠ amqpFrameBody then
              match closeMethod? frame with
              | some method => return .error (.serverException method)
              | none => return .error (.libraryException .badAmqpData)
            else
              match frame.payload with
              | .bodyFragment bytes =>
                  if body.length + bytes.length > size then
                    return .error (.libraryException .badAmqpData)
                  else
                    readFragments channel size fuel (body ++ bytes)
              | _ => throw (.fault .wrongObject)
      else
        return .ok body

/-- `AMQP_RESPONSE_NORMAL` is success; `*message` is not used otherwise. The status of
`amqp_put_back_frame` is ignored. -/
def amqpReadMessage (allocs : List Bool) (channel : UInt16) (fuel : Nat) :
    Call (Except RpcReply Message) := do
  match ← amqpSimpleWaitFrameOnChannel channel fuel with
  | .error status => return .error (.libraryException status)
  | .ok frame =>
      if frame.frameType ≠ amqpFrameHeader then
        match closeMethod? frame with
        | some method => return .error (.serverException method)
        | none => do
            let _ ← amqpPutBackFrame frame
            return .error (.libraryException .unexpectedState)
      else
        match startMessage allocs frame with
        | .error (.fault fault) _ => throw (.fault fault)
        | .error (.status status) _ => return .error (.libraryException status)
        | .ok (properties, size) _ => do
            match ← readFragments channel size fuel [] with
            | .error reply => return .error reply
            | .ok body => return .ok ⟨properties, body⟩

def amqpBasicDeliverMethod : UInt32 := 0x003C003C

/-- `amqp_envelope_t`. -/
structure Envelope where
  channel : UInt16
  consumerTag : List UInt8
  deliveryTag : UInt64
  redelivered : Int32
  exchange : List UInt8
  routingKey : List UInt8
  message : Message

/-- The members of `basic.deliver`, if a frame carries one. -/
def delivery? (frame : Frame) : Option (Option (MethodFields amqpBasicDeliverMethod)) :=
  match frame.method? with
  | some method =>
      if same : method.id = amqpBasicDeliverMethod then some (same ▸ method.decoded) else none
  | none => none

/-- `amqp_bytes_malloc_dup`: a failure does not count for an empty string. -/
def mallocDup (src : List UInt8) : Cloner Bool := do
  let granted ← mayAllocate
  return granted || src.isEmpty

/-- The three strings of an envelope: whether there was memory, and the outcomes of the
allocations behind them. -/
def dupStrings (consumerTag exchange routingKey : List UInt8) : Cloner Bool := do
  let first ← mallocDup consumerTag
  let second ← mallocDup exchange
  let third ← mallocDup routingKey
  return first && second && third

def amqpConsumeMessage (allocs : List Bool) (timeout : Option Timeval) (fuel : Nat) :
    Call (Except RpcReply Envelope) := do
  match ← amqpSimpleWaitFrameNoblock timeout fuel with
  | .error status => return .error (.libraryException status)
  | .ok frame =>
      match delivery? frame with
      | none => do
          let _ ← amqpPutBackFrame frame
          return .error (.libraryException .unexpectedState)
      | some none => throw (.fault .wrongObject)
      | some (some (consumerTag, deliveryTag, redelivered, exchange, routingKey, _)) =>
          match dupStrings consumerTag exchange routingKey allocs with
          | .ok true allocs => do
              match ← amqpReadMessage allocs frame.channel fuel with
              | .error reply => return .error reply
              | .ok message =>
                  return .ok ⟨frame.channel, consumerTag, deliveryTag,
                    (Subtype.val redelivered).headD 0, exchange, routingKey, message⟩
          | _ => return .error (.libraryException .noMemory)

end RabbitmqC
