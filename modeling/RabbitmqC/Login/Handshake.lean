import Mathlib.Data.List.TakeDrop
import RabbitmqC.Lib.CString
import RabbitmqC.Socket.Rpc
import RabbitmqC.Table.Clone

/-!
# Logging in

`amqp_login_inner` sends the protocol header, answers `connection.start` with a
SASL response and `connection.tune` with the values it has settled on, and opens
a virtual host. An error closes the socket; a `connection.close` of the broker and
the reply of the last step are handed to the caller.
-/

set_option autoImplicit false

namespace RabbitmqC

open Effect

/-! ## SASL -/

/-- `amqp_sasl_method_enum`, with the arguments that follow it. A string is given by its
octets in front of the zero. -/
inductive SaslMethod where
  | undefined
  | plain (username password : List UInt8)
  | external (identity : List UInt8)

def saslMethodName : SaslMethod → Except Fault (List UInt8)
  | .plain _ _ => .ok (CString.ascii "PLAIN")
  | .external _ => .ok (CString.ascii "EXTERNAL")
  | .undefined => .error .abort

/-- `' '`. -/
def space : UInt8 := 32

/-- The loop of `sasl_mechanism_in_list` from `start` on. -/
def mechanismInList (mechanism : List UInt8) : Nat → List UInt8 → Bool
  | 0, _ => false
  | fuel + 1, start =>
      if mechanism = start.takeWhile (· ≠ space) then true
      else
        match start.dropWhile (· ≠ space) with
        | [] => false
        | _ :: next => mechanismInList mechanism fuel next

/-- Every turn goes past a space. -/
def saslMechanismInList (mechanisms : List UInt8) (method : SaslMethod) : Except Fault Bool := do
  let mechanism ← saslMethodName method
  if mechanisms = [] then
    return false
  else
    return mechanismInList mechanism (mechanisms.length + 1) mechanisms

/-- An empty identity has no memory, which counts as a want of it. -/
def saslResponse : SaslMethod → Cloner (List UInt8)
  | .plain username password => do
      poolAlloc
      return 0 :: (username ++ 0 :: password)
  | .external identity => do
      if identity.length = 0 then
        throw (.status .noMemory)
      else do
        poolAlloc
        return identity
  | .undefined => throw (.fault .abort)

/-! ## Client properties -/

/-- `amqp_table_get_entry_by_key`: the value. -/
def amqpTableGetEntryByKey (key : List UInt8) : Table → Option FieldValue
  | [] => none
  | .mk found value :: entries =>
      if found = key then some value else amqpTableGetEntryByKey key entries

/-- Assign to the value of the entry that `amqp_table_get_entry_by_key` returns. -/
def setEntryByKey (key : List UInt8) (value : FieldValue) : Table → Table
  | [] => []
  | .mk found old :: entries =>
      if found = key then .mk found value :: entries
      else .mk found old :: setEntryByKey key value entries

/-- The parts of `amqp_merge_capabilities` around its loop over the entries of `add`. -/
def mergeAround (base add : Table) (loop : Cloner Table) : Cloner Table := do
  if base.length + add.length = 0 then
    throw (.status .noMemory)
  else do
    poolAlloc
    let tempResult ← loop
    amqpTableClone tempResult

mutual

def mergeEntries (base tempResult : Table) : List TableEntry → Cloner Table
  | [] => return tempResult
  | entry :: entries => do
      let tempResult ← mergeEntry base tempResult entry
      mergeEntries base tempResult entries
termination_by structural entries => entries

def mergeEntry (base tempResult : Table) : TableEntry → Cloner Table
  | .mk key value =>
      match amqpTableGetEntryByKey key tempResult with
      | none => return tempResult ++ [.mk key value]
      | some found => do
          let value ← mergeValue found (amqpTableGetEntryByKey key base) value
          return setEntryByKey key value tempResult
termination_by structural entry => entry

/-- The new value of an entry that `add` has too. Two tables are merged, but the first of
them is looked up in `base` again, where there need not be one. -/
def mergeValue (found : FieldValue) (inBase : Option FieldValue) :
    FieldValue → Cloner FieldValue
  | .table add =>
      match found, inBase with
      | .table _, some (.table base) => .table <$> mergeAround base add (mergeEntries base base add)
      | .table _, some _ => throw (.fault .wrongObject)
      | .table _, none => throw (.fault .outOfBoundsRead)
      | _, _ => return .table add
  | value => return value
termination_by structural value => value

end

def amqpMergeCapabilities (base : Table) : Option Table → Cloner Table
  | none => amqpTableClone base
  | some add => mergeAround base add (mergeEntries base base add)

/-- The strings that are defined outside of the function. -/
structure BuildStrings where
  platform : List UInt8
  copyright : List UInt8

def clientCapabilities : Table :=
  [.mk (CString.ascii "authentication_failure_close") (.boolean 1),
    .mk (CString.ascii "exchange_exchange_bindings") (.boolean 1)]

/-- `default_table`. -/
def defaultClientProperties (build : BuildStrings) : Table :=
  [.mk (CString.ascii "product") (.utf8 (CString.ascii "rabbitmq-c")),
    .mk (CString.ascii "version") (.utf8 (CString.ascii "0.13.0")),
    .mk (CString.ascii "platform") (.utf8 build.platform),
    .mk (CString.ascii "copyright") (.utf8 build.copyright),
    .mk (CString.ascii "information")
      (.utf8 (CString.ascii "See https://github.com/alanxz/rabbitmq-c")),
    .mk (CString.ascii "capabilities") (.table clientCapabilities)]

/-! ## Waiting for methods -/

/-- `*out`, where `none` is a null pointer. The conversion of the seconds narrows. -/
def amqpTimeTvUntil (time : UInt64) : Call (Except Status (Option Timeval)) := do
  if time = amqpTimeInfinite then
    return .ok none
  else if time = 0 then
    return .ok (some ⟨0, 0⟩)
  else do
    let now ← amqpGetMonotonicTimestamp
    if now = 0 then
      return .error .timerFailure
    else if now ≥ time then
      return .ok (some ⟨0, 0⟩)
    else
      let delta := time - now
      return .ok (some ⟨Int64.ofInt (intOfSize (delta / nsPerS).toNat),
        Int64.ofInt (intOfSize (delta % nsPerS / nsPerUs).toNat)⟩)

/-- What `amqp_simple_wait_method_list` makes of a frame. -/
def expectedMethod? (expectedChannel : UInt16) (expectedMethods : List UInt32) (frame : Frame) :
    Option Method :=
  frame.method?.filter fun method =>
    frame.channel == expectedChannel && amqpIdInReplyList method.id expectedMethods

def amqpSimpleWaitMethodList (expectedChannel : UInt16) (expectedMethods : List UInt32)
    (deadline : UInt64) (fuel : Nat) : Call (Except Status Method) := do
  match ← amqpTimeTvUntil deadline with
  | .error status => return .error status
  | .ok tv => do
      match ← amqpSimpleWaitFrameNoblock tv fuel with
      | .error status => return .error status
      | .ok frame =>
          match expectedMethod? expectedChannel expectedMethods frame with
          | some method => return .ok method
          | none => return .error .wrongMethod

/-- The members of the struct that `decoded` points to. -/
def Method.fields? (method : Method) (id : UInt32) : Option (MethodFields id) :=
  if same : method.id = id then same ▸ method.decoded else none

/-! ## Tuning -/

/-- `realloc`. What is new in the block has no particular value; zeros stand for it. -/
def reallocOutbound (buffer : Buffer) (size : Int32) : Buffer :=
  ⟨buffer.bytes.takeD size.toInt.toNat 0, by
    rw [List.takeD_length]
    have bound := size.toInt_lt
    omega⟩

/-- `granted` is the outcome of `realloc`, which does not grant a negative size. The length of
`outbound_buffer` is that of its block here; `Tuning.amqpTuneConnection` keeps the two apart. -/
def amqpTuneConnection (channelMax : Int) (frameMax : Int32) (heartbeat : Int) (granted : Bool) :
    Call (Except Status Unit) := do
  let world ← get
  if world.reader.state ≠ .idle then
    throw (.fault .abort)
  else do
    set { world with
      channelMax
      reader.frameMax := frameMax
      heartbeat := if 0 > heartbeat then 0 else heartbeat }
    match ← scheduleHeartbeat with
    | .error status => return .error status
    | .ok () => do
        match ← awaitHeartbeat with
        | .error status => return .error status
        | .ok () =>
            if granted ∧ 0 ≤ frameMax.toInt then do
              modify fun world => { world with outbound := reallocOutbound world.outbound frameMax }
              return .ok ()
            else
              return .error .noMemory

def negotiateChannelMax (client server : UInt16) : UInt16 :=
  if server ≠ 0 ∧ (server < client ∨ client = 0) then server
  else if server = 0 ∧ client = 0 then 0xFFFF
  else client

def negotiateFrameMax (client server : UInt32) : UInt32 :=
  if server ≠ 0 ∧ server < client then server else client

def negotiateHeartbeat (client server : UInt16) : UInt16 :=
  if server ≠ 0 ∧ server < client then server else client

/-! ## The steps -/

def amqpConnectionStartMethod : UInt32 := 0x000A000A
def amqpConnectionStartOkMethod : UInt32 := 0x000A000B
def amqpConnectionTuneMethod : UInt32 := 0x000A001E
def amqpConnectionTuneOkMethod : UInt32 := 0x000A001F
def amqpConnectionOpenMethod : UInt32 := 0x000A0028
def amqpConnectionOpenOkMethod : UInt32 := 0x000A0029

/-- `AMQP_PROTOCOL_VERSION_MAJOR`, `AMQP_PROTOCOL_VERSION_MINOR` and
`AMQP_PROTOCOL_VERSION_REVISION`. -/
def protocolVersionMajor : UInt8 := 0
def protocolVersionMinor : UInt8 := 9
def protocolVersionRevision : UInt8 := 1

/-- The arguments of a login, with `handshake_timeout` of the connection. -/
structure LoginParameters where
  vhost : List UInt8
  channelMax : Int32
  frameMax : Int32
  heartbeat : Int32
  clientProperties : Option Table
  timeout : Option Timeval
  saslMethod : SaslMethod
  build : BuildStrings

/-- How the allocations of a login turn out, apart from those for frames. -/
structure LoginMemory where
  allocs : List Bool
  outbound : Bool

/-- The result is a status code, or the number of octets if not all of them were sent. -/
def sendHeaderInner (deadline : UInt64) (fuel : Nat) : Call Int := do
  let header : List UInt8 := [65, 77, 81, 80, 0, protocolVersionMajor, protocolVersionMinor,
    protocolVersionRevision]
  match ← amqpTrySend header deadline fuel with
  | .error status => return status.code
  | .ok sent => return if sent = header.length then 0 else sent

def runCloner {α : Type} (clone : Cloner α) (allocs : List Bool) :
    Call (Except Status (α × List Bool)) :=
  match clone allocs with
  | .ok value allocs => return .ok (value, allocs)
  | .error (.status status) _ => return .error status
  | .error (.fault fault) _ => throw (.fault fault)

/-- `amqp_connection_start_t`. -/
structure ConnectionStart where
  versionMajor : UInt8
  versionMinor : UInt8
  serverProperties : Table
  mechanisms : List UInt8
  locales : List UInt8

def ConnectionStart.ofFields : MethodFields amqpConnectionStartMethod → ConnectionStart
  | (versionMajor, versionMinor, serverProperties, mechanisms, locales, ()) =>
      ⟨versionMajor, versionMinor, serverProperties, mechanisms, locales⟩

/-- Send the header and wait for `connection.start`. -/
def awaitStart (deadline : UInt64) (fuel : Nat) : Call (Except Status ConnectionStart) := do
  let res ← sendHeaderInner deadline fuel
  if res ≠ 0 then
    return .error (Status.ofCode res)
  else do
    match ← amqpSimpleWaitMethodList 0 [amqpConnectionStartMethod] deadline fuel with
    | .error status => return .error status
    | .ok method =>
        match method.fields? amqpConnectionStartMethod with
        | some start => return .ok (.ofFields start)
        | none => throw (.fault .wrongObject)

/-- The mechanisms are looked at when the properties of the broker are already stored. -/
def acceptStart (saslMethod : SaslMethod) (start : ConnectionStart) (allocs : List Bool) :
    Call (Except Status (List Bool)) := do
  if start.versionMajor ≠ protocolVersionMajor ∨ start.versionMinor ≠ protocolVersionMinor then
    return .error .incompatibleAmqpVersion
  else do
    match ← runCloner (amqpTableClone start.serverProperties) allocs with
    | .error status => return .error status
    | .ok (serverProperties, allocs) => do
        modify fun world => { world with serverProperties }
        match saslMechanismInList start.mechanisms saslMethod with
        | .error fault => throw (.fault fault)
        | .ok false => return .error .brokerUnsupportedSaslMethod
        | .ok true => return .ok allocs

/-- The SASL response and the client properties come from the pool of channel 0. -/
def prepareStartOk (parameters : LoginParameters) (allocs : List Bool) :
    Call (Except Status (List UInt8)) := do
  if ← linkPool 0 then do
    match ← runCloner (saslResponse parameters.saslMethod) allocs with
    | .error status => return .error status
    | .ok (response, allocs) => do
        match ← runCloner (amqpMergeCapabilities (defaultClientProperties parameters.build)
            parameters.clientProperties) allocs with
        | .error status => return .error status
        | .ok (clientProperties, _) => do
            modify fun world => { world with clientProperties }
            return .ok response
  else
    return .error .noMemory

/-- `amqp_connection_start_ok_t`. -/
def startOkFields (clientProperties : Table) (mechanism response : List UInt8) :
    MethodFields amqpConnectionStartOkMethod :=
  (clientProperties, mechanism, response, CString.ascii "en_US", ())

def sendStartOk (saslMethod : SaslMethod) (response : List UInt8) (deadline : UInt64)
    (fuel : Nat) : Call (Except Status Unit) := do
  let world ← get
  match saslMethodName saslMethod with
  | .error fault => throw (.fault fault)
  | .ok mechanism =>
      amqpSendMethodInner 0 amqpConnectionStartOkMethod
        (startOkFields world.clientProperties mechanism response) .none deadline fuel

/-- Everything in front of the sending of `connection.start-ok`. -/
def storeProperties (parameters : LoginParameters) (allocs : List Bool) (deadline : UInt64)
    (fuel : Nat) : Call (Except Status (List UInt8)) := do
  match ← awaitStart deadline fuel with
  | .error status => return .error status
  | .ok start => do
      match ← acceptStart parameters.saslMethod start allocs with
      | .error status => return .error status
      | .ok allocs => prepareStartOk parameters allocs

/-- Everything up to the first `amqp_release_buffers`. -/
def loginStart (parameters : LoginParameters) (allocs : List Bool) (deadline : UInt64)
    (fuel : Nat) : Call (Except Status Unit) := do
  match ← storeProperties parameters allocs deadline fuel with
  | .error status => return .error status
  | .ok response => sendStartOk parameters.saslMethod response deadline fuel

/-- `amqp_connection_tune_t` and `amqp_connection_tune_ok_t`. -/
structure Tune where
  channelMax : UInt16
  frameMax : UInt32
  heartbeat : UInt16
  deriving DecidableEq

def Tune.ofFields : MethodFields amqpConnectionTuneMethod → Tune
  | (channelMax, frameMax, heartbeat, ()) => ⟨channelMax, frameMax, heartbeat⟩

def Tune.okFields (tune : Tune) : MethodFields amqpConnectionTuneOkMethod :=
  (tune.channelMax, tune.frameMax, tune.heartbeat, ())

/-- What the two sides settle on, by the parameters and the `connection.tune`. -/
def negotiate (parameters : LoginParameters) (tune : Tune) : Tune where
  channelMax := negotiateChannelMax (UInt16.ofNat parameters.channelMax.toInt.toNat) tune.channelMax
  frameMax := negotiateFrameMax (UInt32.ofNat parameters.frameMax.toInt.toNat) tune.frameMax
  heartbeat := negotiateHeartbeat (UInt16.ofNat parameters.heartbeat.toInt.toNat) tune.heartbeat

/-- Settle the values, and tell them to the broker. -/
def answerTune (parameters : LoginParameters) (granted : Bool) (tune : Tune) (deadline : UInt64)
    (fuel : Nat) : Call (Except Status Unit) := do
  let settled := negotiate parameters tune
  match ← amqpTuneConnection settled.channelMax.toNat settled.frameMax.toInt32
      settled.heartbeat.toNat granted with
  | .error status => return .error status
  | .ok () =>
      amqpSendMethodInner 0 amqpConnectionTuneOkMethod settled.okFields .none deadline fuel

/-- From the first `amqp_release_buffers` to the second; the broker may close the
connection instead. -/
def loginTune (parameters : LoginParameters) (granted : Bool) (deadline : UInt64) (fuel : Nat) :
    Call (Except Status (Option Method)) := do
  match ← amqpSimpleWaitMethodList 0 [amqpConnectionTuneMethod, amqpConnectionCloseMethod]
      deadline fuel with
  | .error status => return .error status
  | .ok method =>
      if method.id = amqpConnectionCloseMethod then
        return .ok (some method)
      else
        match method.fields? amqpConnectionTuneMethod with
        | none => throw (.fault .wrongObject)
        | some tune => do
            match ← answerTune parameters granted (.ofFields tune) deadline fuel with
            | .error status => return .error status
            | .ok () => return .ok none

/-- `amqp_connection_open_t`. -/
def openFields (vhost : List UInt8) : MethodFields amqpConnectionOpenMethod :=
  (vhost, ([] : List UInt8), ⟨[1], rfl⟩, ())

def loginOpen (vhost : List UInt8) (deadline : UInt64) (fuel : Nat) : Call RpcReply := do
  match ← simpleRpcInner 0 amqpConnectionOpenMethod [amqpConnectionOpenOkMethod]
      (openFields vhost) deadline fuel with
  | .normal _ => do
      amqpMaybeReleaseBuffers
      return .normal ⟨0, none⟩
  | reply => return reply

def loginSteps (parameters : LoginParameters) (memory : LoginMemory) (fuel : Nat) :
    Call (Except Status RpcReply) := do
  match ← amqpTimeFromNow parameters.timeout with
  | .error status => return .error status
  | .ok deadline => do
      match ← loginStart parameters memory.allocs deadline fuel with
      | .error status => return .error status
      | .ok () => do
          amqpReleaseBuffers
          match ← loginTune parameters memory.outbound deadline fuel with
          | .error status => return .error status
          | .ok (some method) => return .ok (.serverException method)
          | .ok none => do
              amqpReleaseBuffers
              .ok <$> loginOpen parameters.vhost deadline fuel

/-- `UINT16_MAX`. -/
def uint16Max : Int := 65535

/-- What `amqp_login_inner` checks before it does anything. -/
def LoginParameters.Accepted (parameters : LoginParameters) : Prop :=
  0 ≤ parameters.channelMax.toInt ∧ parameters.channelMax.toInt ≤ uint16Max ∧
    0 ≤ parameters.frameMax.toInt ∧
    0 ≤ parameters.heartbeat.toInt ∧ parameters.heartbeat.toInt ≤ uint16Max

instance (parameters : LoginParameters) : Decidable parameters.Accepted :=
  inferInstanceAs (Decidable (_ ∧ _))

def amqpLoginInner (parameters : LoginParameters) (memory : LoginMemory) (fuel : Nat) :
    Call RpcReply := do
  if parameters.Accepted then do
    match ← loginSteps parameters memory fuel with
    | .ok reply => return reply
    | .error status => do
        let _ ← amqpSocketClose
        return .libraryException status
  else
    return .libraryException .invalidParameter

def amqpLogin (parameters : LoginParameters) : LoginMemory → Nat → Call RpcReply :=
  amqpLoginInner { parameters with clientProperties := some [] }

def amqpLoginWithProperties (parameters : LoginParameters) : LoginMemory → Nat → Call RpcReply :=
  amqpLoginInner parameters

end RabbitmqC
