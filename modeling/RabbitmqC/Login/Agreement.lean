import RabbitmqC.Login.FrameLimit
import RabbitmqC.Login.Mechanisms
import RabbitmqC.Login.MethodFrames

/-!
# What a login agrees on

The SASL response follows a `connection.start` that offers the method. A login that
succeeds has sent three methods, and the values of `connection.tune-ok` are those
that the connection goes on with.
-/

set_option autoImplicit false

namespace RabbitmqC

open Effect

/-! ## What is offered -/

/-- A `connection.start` on channel 0 of the version 0-9 that lists the SASL method. -/
def Offers (saslMethod : SaslMethod) (frame : Frame) : Prop :=
  ∃ fields mechanism,
    frame = ⟨amqpFrameMethod, 0, .method amqpConnectionStartMethod (some fields)⟩ ∧
      (ConnectionStart.ofFields fields).versionMajor = 0 ∧
      (ConnectionStart.ofFields fields).versionMinor = 9 ∧
      saslMethodName saslMethod = .ok mechanism ∧
      mechanism ∈ (ConnectionStart.ofFields fields).mechanisms.splitOn space

theorem frame_of_expectedMethod {channel : UInt16} {ids : List UInt32} {frame : Frame}
    {method : Method} {id : UInt32} {fields : MethodFields id}
    (expected : expectedMethod? channel ids frame = some method)
    (isFields : method.fields? id = some fields) :
    frame = ⟨amqpFrameMethod, channel, .method id (some fields)⟩ := by
  obtain ⟨isMethod, onChannel⟩ := Option.filter_eq_some_iff.mp expected
  have sameChannel : frame.channel = channel := by
    rw [Bool.and_eq_true, beq_iff_eq] at onChannel
    exact onChannel.1
  obtain ⟨frameType, frameChannel, payload⟩ := frame
  subst sameChannel
  unfold Frame.method? at isMethod
  split at isMethod
  · rename_i typed
    cases typed
    cases payload with
    | method methodId decoded =>
        cases isMethod
        unfold Method.fields? at isFields
        split at isFields
        · rename_i same
          cases same
          have decodedAs : decoded = some fields := isFields
          rw [decodedAs]
          rfl
        · cases isFields
    | properties => cases isMethod
    | bodyFragment => cases isMethod
    | protocolHeader => cases isMethod
    | none => cases isMethod
  · cases isMethod

theorem Acceptable.offers {saslMethod : SaslMethod} {frame : Frame} {offered : ConnectionStart}
    (acceptable : Acceptable saslMethod offered) (isStart : frame.start? = some offered) :
    Offers saslMethod frame := by
  obtain ⟨method, expected, mapped⟩ := Option.bind_eq_some_iff.mp isStart
  obtain ⟨fields, isFields, rfl⟩ := Option.map_eq_some_iff.mp mapped
  obtain ⟨mechanism, isName, _⟩ := except_bind_eq_ok.mp acceptable.mechanism
  have listed := @saslMechanismInList_eq (ConnectionStart.ofFields fields).mechanisms _ _ isName
  rw [acceptable.mechanism] at listed
  exact ⟨fields, mechanism, frame_of_expectedMethod expected isFields,
    acceptable.versionMajor, acceptable.versionMinor, isName,
    of_decide_eq_true (Except.ok.inj listed).symm⟩

/-! ## Negotiated values -/

/-- A zero stands for no limit of its own. -/
def agreedChannelMax (client server : Nat) : Nat :=
  if client = 0 ∧ server = 0 then 65535
  else if client = 0 then server
  else if server = 0 then client
  else min client server

/-- A zero of the broker stands for no limit of its own. -/
def agreedLimit (client server : Nat) : Nat := if server = 0 then client else min client server

theorem negotiateChannelMax_agreed (client server : UInt16) :
    (negotiateChannelMax client server).toNat = agreedChannelMax client.toNat server.toNat := by
  have ofZero (value : UInt16) : value = 0 ↔ value.toNat = 0 := UInt16.toNat_inj.symm
  unfold negotiateChannelMax agreedChannelMax
  simp only [ne_eq, ofZero, UInt16.lt_iff_toNat_lt]
  split
  · split
    · omega
    · split
      · rfl
      · split
        · omega
        · omega
  · split
    · rw [if_pos (by omega)]
      rfl
    · rw [if_neg (by omega), if_neg (by omega)]
      split
      · rfl
      · omega

theorem negotiateFrameMax_agreed (client server : UInt32) :
    (negotiateFrameMax client server).toNat = agreedLimit client.toNat server.toNat := by
  have ofZero : server = 0 ↔ server.toNat = 0 := UInt32.toNat_inj.symm
  unfold negotiateFrameMax agreedLimit
  simp only [ne_eq, ofZero, UInt32.lt_iff_toNat_lt]
  split
  · rw [if_neg (by omega)]
    omega
  · split
    · rfl
    · omega

theorem negotiateHeartbeat_agreed (client server : UInt16) :
    (negotiateHeartbeat client server).toNat = agreedLimit client.toNat server.toNat := by
  have ofZero : server = 0 ↔ server.toNat = 0 := UInt16.toNat_inj.symm
  unfold negotiateHeartbeat agreedLimit
  simp only [ne_eq, ofZero, UInt16.lt_iff_toNat_lt]
  split
  · rw [if_neg (by omega)]
    omega
  · split
    · rfl
    · omega

/-- The values of `connection.tune-ok`, by those of the client and the broker. -/
structure Tune.Agreed (parameters : LoginParameters) (tune settled : Tune) : Prop where
  channelMax : settled.channelMax.toNat =
    agreedChannelMax parameters.channelMax.toInt.toNat tune.channelMax.toNat
  frameMax : settled.frameMax.toNat =
    agreedLimit parameters.frameMax.toInt.toNat tune.frameMax.toNat
  heartbeat : settled.heartbeat.toNat =
    agreedLimit parameters.heartbeat.toInt.toNat tune.heartbeat.toNat

theorem negotiate_agreed {parameters : LoginParameters} (accepted : parameters.Accepted)
    (tune : Tune) : Tune.Agreed parameters tune (negotiate parameters tune) := by
  obtain ⟨_, channelBound, _, _, heartbeatBound⟩ := accepted
  have frameBound := parameters.frameMax.toInt_lt
  unfold uint16Max at channelBound heartbeatBound
  constructor
  · rw [negotiate, negotiateChannelMax_agreed, UInt16.toNat_ofNat_of_lt' (by rw [UInt16.size]; omega)]
  · rw [negotiate, negotiateFrameMax_agreed, UInt32.toNat_ofNat_of_lt' (by rw [UInt32.size]; omega)]
  · rw [negotiate, negotiateHeartbeat_agreed, UInt16.toNat_ofNat_of_lt' (by rw [UInt16.size]; omega)]

/-! ## What the calls leave alone -/

section Limit

variable {memory : FrameMemory} {reader after : Reader} {receivedData : List UInt8}
  {bytesConsumed count : Nat} {handled : Handled}

theorem consumeData_frameMax (returned : consumeData reader receivedData = .ok (after, count)) :
    after.frameMax = reader.frameMax := by
  obtain ⟨written, stored, returned⟩ := except_bind_eq_ok.mp returned
  cases returned
  unfold Reader.writeInbound at stored
  split at stored
  · split at stored
    · cases stored
      rfl
    · cases stored
  · split at stored
    · cases stored
      rfl
    · cases stored
  · cases stored

theorem startBody_frameMax {isNew : Bool} {amount : Nat} {block : PoolBlock amount}
    (started : startBody reader isNew block = .ok after) : after.frameMax = reader.frameMax := by
  unfold startBody at started
  dsimp only at started
  generalize (if isNew = true then block.mem.clear else block.mem) = mem at started
  split at started
  · cases started
    rfl
  · cases started

theorem bodyCase_frameMax (returned : bodyCase memory reader bytesConsumed = .ok handled) :
    handled.reader.frameMax = reader.frameMax := by
  obtain ⟨table, kept | idle⟩ := bodyCase_reader returned
  · rw [kept]
  · rw [idle]
    rfl

theorem headerCase_frameMax
    (returned : headerCase memory reader receivedData bytesConsumed = .ok handled) :
    handled.reader.frameMax = reader.frameMax := by
  obtain ⟨raw, _, returned⟩ := except_bind_eq_ok.mp returned
  obtain ⟨channel, _, returned⟩ := except_bind_eq_ok.mp returned
  obtain ⟨frameSize, _, returned⟩ := except_bind_eq_ok.mp returned
  split at returned
  · cases returned
    rfl
  · split at returned
    · cases returned
      rfl
    · split at returned
      · cases returned
        rfl
      · rename_i pooled isNew found
        obtain ⟨_, table, rfl⟩ := amqpGetOrCreateChannelPool_eq_some found
        split at returned
        · cases returned
          rfl
        · obtain ⟨started, starts, returned⟩ := except_bind_eq_ok.mp returned
          have sameStarted : started.frameMax = reader.frameMax :=
            (startBody_frameMax starts).trans rfl
          obtain ⟨⟨filled, more⟩, consumes, returned⟩ := except_bind_eq_ok.mp returned
          have sameFilled := (consumeData_frameMax consumes).trans sameStarted
          dsimp only at returned
          split at returned
          · cases returned
            exact sameFilled
          · exact (bodyCase_frameMax returned).trans sameFilled

theorem initialCase_frameMax
    (returned : initialCase memory reader receivedData bytesConsumed = .ok handled) :
    handled.reader.frameMax = reader.frameMax := by
  obtain ⟨raw, _, returned⟩ := except_bind_eq_ok.mp returned
  split at returned
  · cases returned
  · split at returned
    · obtain ⟨_, _, returned⟩ := except_bind_eq_ok.mp returned
      obtain ⟨_, _, returned⟩ := except_bind_eq_ok.mp returned
      obtain ⟨_, _, returned⟩ := except_bind_eq_ok.mp returned
      obtain ⟨_, _, returned⟩ := except_bind_eq_ok.mp returned
      cases returned
      rfl
    · exact headerCase_frameMax returned

/-- The reader does not change `frame_max`. -/
theorem amqpHandleInput_frameMax
    (returned : amqpHandleInput memory reader receivedData = .ok handled) :
    handled.reader.frameMax = reader.frameMax := by
  unfold amqpHandleInput at returned
  split at returned
  · cases returned
    rfl
  · obtain ⟨⟨filled, taken⟩, consumes, returned⟩ := except_bind_eq_ok.mp returned
    have sameLeft : (leaveIdle reader).frameMax = reader.frameMax := by
      unfold leaveIdle
      split
      · rfl
      · rfl
    have sameFilled := (consumeData_frameMax consumes).trans sameLeft
    dsimp only at returned
    split at returned
    · cases returned
      exact sameFilled
    · unfold handleComplete at returned
      split at returned
      · exact (initialCase_frameMax returned).trans sameFilled
      · exact (headerCase_frameMax returned).trans sameFilled
      · exact (bodyCase_frameMax returned).trans sameFilled
      · cases returned

end Limit

/-- `channel_max`, `frame_max` and `heartbeat` of a connection. -/
def World.settings (world : World) : Int × Int32 × Int :=
  (world.channelMax, world.reader.frameMax, world.heartbeat)

theorem tuneConnection_settings {channelMax heartbeat : Int} {frameMax : Int32} {granted : Bool}
    {before after : World}
    (returned : amqpTuneConnection channelMax frameMax heartbeat granted before =
      .ok (.ok ()) after) (natural : 0 ≤ heartbeat) :
    after.settings = (channelMax, frameMax, heartbeat) := by
  obtain ⟨_, _, _, _, _, _, _, _, _, _, _, _, _, rfl⟩ := amqpTuneConnection_eq_ok returned
  show (channelMax, frameMax, if 0 > heartbeat then 0 else heartbeat) = _
  rw [if_neg (Int.not_lt.mpr natural)]

theorem callRule_settings {settings : Int × Int32 × Int} :
    CallRule (fun world => world.settings = settings) (fun _ world => world.settings = settings) := by
  apply CallRule.ofSteps
  · rintro before after ⟨_, _, _, _, _, _, _, _, _, _, _, rfl⟩ same
    exact same
  · rintro before after ⟨_, _, _, _, rfl⟩ same
    exact same
  · intro world handled handles same
    have sameSettings : (world.channelMax, handled.reader.frameMax, world.heartbeat) = settings := by
      rw [amqpHandleInput_frameMax handles]
      exact same
    exact ⟨fun _ => sameSettings, fun _ => sameSettings⟩
  · intro world channel same
    exact same

theorem callRule_decoded {frame : Frame} :
    CallRule (fun world => frame ∈ world.decoded) (fun _ world => frame ∈ world.decoded) := by
  apply CallRule.ofSteps
  · rintro before after ⟨_, _, _, _, _, _, _, _, _, _, _, rfl⟩ member
    exact member
  · rintro before after ⟨_, _, _, _, rfl⟩ member
    exact member
  · intro world handled _ member
    refine ⟨fun _ => member, fun _ => ?_⟩
    unfold World.goPast
    dsimp only
    split
    · exact member
    · exact List.mem_append_left _ member
  · intro world channel member
    exact member

/-! ## Up to the SASL response -/

/-- A login comes to a state where no method was sent and an offer was read. -/
def OfferRead (parameters : LoginParameters) (memory : LoginMemory) (fuel : Nat)
    (start : World) : Prop :=
  ∃ deadline timed response stored,
    amqpTimeFromNow parameters.timeout start = .ok (.ok deadline) timed ∧
      storeProperties parameters memory.allocs deadline fuel timed = .ok (.ok response) stored ∧
      methodSubmissions stored.wire = [] ∧
      ∃ frame ∈ stored.decoded, Offers parameters.saslMethod frame

section Start

variable {parameters : LoginParameters} {memory : LoginMemory} {fuel : Nat} {script : Script}

theorem offerRead_of_stored {start timed stored : World} {deadline : UInt64}
    {response : List UInt8} (early : Early script start)
    (unsent : methodSubmissions start.wire = [])
    (times : amqpTimeFromNow parameters.timeout start = .ok (.ok deadline) timed)
    (stores : storeProperties parameters memory.allocs deadline fuel timed =
      .ok (.ok response) stored) : OfferRead parameters memory fuel start := by
  have timedEarly := (early_of_asks (asks_timeFromNow parameters.timeout)).ok early times
  have prepared : Prepared script parameters.saslMethod stored :=
    (early_storeProperties parameters memory.allocs deadline).ok timedEarly stores
  have sameTimed := (noMethods_of_asks (asks_timeFromNow parameters.timeout)).ok times
  have sameStored := (noMethods_storeProperties parameters memory.allocs deadline).ok stores
  obtain ⟨frame, member, offered, isStart, acceptable⟩ := prepared.offered
  exact ⟨deadline, timed, response, stored, times, stores,
    (sameStored.trans sameTimed).trans unsent, frame, member, acceptable.offers isStart⟩

/-- A login that never read an offer sends no method. -/
theorem loginSteps_unsent {start : World} (early : Early script start)
    (unsent : methodSubmissions start.wire = [])
    (unread : ¬ OfferRead parameters memory fuel start) :
    NoMethods start (endState (loginSteps parameters memory fuel start)) := by
  unfold loginSteps
  have timing := noMethods_of_asks (asks_timeFromNow parameters.timeout)
  cases times : amqpTimeFromNow parameters.timeout start with
  | error stop timed =>
      rw [bind_of_error times]
      exact timing.error times
  | ok result timed =>
      rw [bind_of_ok times]
      have sameTimed := timing.ok times
      cases result with
      | error status => exact sameTimed
      | ok deadline =>
          have storing := @noMethods_storeProperties fuel parameters memory.allocs deadline
          dsimp only
          cases stores : storeProperties parameters memory.allocs deadline fuel timed with
          | error stop stored =>
              have starts : loginStart parameters memory.allocs deadline fuel timed =
                  .error stop stored := bind_of_error stores
              rw [bind_of_error starts]
              exact trans_of NoMethods sameTimed (storing.error stores)
          | ok result stored =>
              cases result with
              | error status =>
                  have starts : loginStart parameters memory.allocs deadline fuel timed =
                      .ok (.error status) stored := bind_of_ok stores
                  rw [bind_of_ok starts]
                  exact trans_of NoMethods sameTimed (storing.ok stores)
              | ok response => exact absurd (offerRead_of_stored early unsent times stores) unread

theorem login_unsent (unread : ¬ OfferRead parameters memory fuel (World.new script)) :
    methodSubmissions (endState (amqpLoginInner parameters memory fuel (World.new script))).wire =
      [] := by
  have stepsUnsent := loginSteps_unsent (early_new script) rfl unread
  unfold amqpLoginInner
  by_cases accepted : parameters.Accepted
  · rw [if_pos accepted]
    cases returned : loginSteps parameters memory fuel (World.new script) with
    | error stop after =>
        rw [bind_of_error returned]
        rw [returned] at stepsUnsent
        exact stepsUnsent
    | ok result after =>
        rw [bind_of_ok returned]
        rw [returned] at stepsUnsent
        cases result with
        | ok reply => exact stepsUnsent
        | error status =>
            have closes : Moves NoMethods
                (do let _ ← amqpSocketClose; return .libraryException status : Call RpcReply) :=
              noMethods_socketClose.bind fun _ => .pure
            exact (closes after).trans stepsUnsent
  · rw [if_neg accepted]
    rfl

end Start

/-! ## A login that succeeds -/

/-- `connection.start-ok`, `connection.tune-ok` and `connection.open` were sent, and the broker
and the connection have the same values. -/
structure Settled (parameters : LoginParameters) (tune settled : Tune) (world : World) :
    Prop where
  received : ∃ fields, tune = .ofFields fields ∧
    ⟨amqpFrameMethod, 0, .method amqpConnectionTuneMethod (some fields)⟩ ∈ world.decoded
  agreed : Tune.Agreed parameters tune settled
  submitted : ∃ startOk tuneOk opens,
    methodSubmissions world.wire = [startOk, tuneOk, opens] ∧
      (∃ fields, Encodes ⟨amqpFrameMethod, 0, .method amqpConnectionStartOkMethod (some fields)⟩
        startOk) ∧
      Encodes ⟨amqpFrameMethod, 0, .method amqpConnectionTuneOkMethod (some settled.okFields)⟩
        tuneOk ∧
      Encodes ⟨amqpFrameMethod, 0,
        .method amqpConnectionOpenMethod (some (openFields parameters.vhost))⟩ opens
  channelMax : world.channelMax = settled.channelMax.toNat
  frameMax : world.reader.frameMax.toInt = settled.frameMax.toNat
  heartbeat : world.heartbeat = settled.heartbeat.toNat

section Success

variable {parameters : LoginParameters} {memory : LoginMemory} {fuel : Nat} {script : Script}
  {before after : World} {deadline : UInt64}

theorem sendStartOk_submits {saslMethod : SaslMethod} {response : List UInt8}
    (returned : sendStartOk saslMethod response deadline fuel before = .ok (.ok ()) after) :
    ∃ encoded, (∃ fields, Encodes ⟨amqpFrameMethod, 0,
        .method amqpConnectionStartOkMethod (some fields)⟩ encoded) ∧
      methodSubmissions after.wire = methodSubmissions before.wire ++ [encoded] := by
  unfold sendStartOk at returned
  rw [bind_of_ok (get_run before)] at returned
  cases named : saslMethodName saslMethod with
  | error fault =>
      rw [named] at returned
      cases returned
  | ok mechanism =>
      rw [named] at returned
      obtain ⟨encoded, encodes, submissions⟩ := sendMethodInner_submits returned
      exact ⟨encoded, ⟨_, encodes⟩, submissions⟩

/-- How `connection.tune` was answered. -/
theorem loginTune_eq_none {granted : Bool}
    (returned : loginTune parameters granted deadline fuel before = .ok (.ok none) after) :
    ∃ method fields waited tuned,
      amqpSimpleWaitMethodList 0 [amqpConnectionTuneMethod, amqpConnectionCloseMethod] deadline
          fuel before = .ok (.ok method) waited ∧
        method.fields? amqpConnectionTuneMethod = some fields ∧
        amqpTuneConnection (negotiate parameters (.ofFields fields)).channelMax.toNat
          (negotiate parameters (.ofFields fields)).frameMax.toInt32
          (negotiate parameters (.ofFields fields)).heartbeat.toNat granted waited =
            .ok (.ok ()) tuned ∧
        amqpSendMethodInner 0 amqpConnectionTuneOkMethod
          (negotiate parameters (.ofFields fields)).okFields .none deadline fuel tuned =
            .ok (.ok ()) after := by
  obtain ⟨result, waited, waits, returned⟩ := bind_eq_ok.mp returned
  cases result with
  | error status => cases returned
  | ok method =>
      dsimp only at returned
      split at returned
      · cases returned
      · cases isFields : method.fields? amqpConnectionTuneMethod with
        | none =>
            rw [isFields] at returned
            cases returned
        | some fields =>
            rw [isFields] at returned
            obtain ⟨answered, final, answers, returned⟩ := bind_eq_ok.mp returned
            cases answered with
            | error status => cases returned
            | ok _ =>
                cases returned
                obtain ⟨result, tuned, tunes, sends⟩ := bind_eq_ok.mp answers
                cases result with
                | error status => cases sends
                | ok _ => exact ⟨method, fields, waited, tuned, waits, isFields, tunes, sends⟩

theorem loginOpen_submits {vhost : List UInt8} {reply : Method}
    (returned : loginOpen vhost deadline fuel before = .ok (.normal reply) after) :
    ∃ encoded, Encodes ⟨amqpFrameMethod, 0,
        .method amqpConnectionOpenMethod (some (openFields vhost))⟩ encoded ∧
      methodSubmissions after.wire = methodSubmissions before.wire ++ [encoded] := by
  obtain ⟨result, replied, calls, returned⟩ := bind_eq_ok.mp returned
  cases result with
  | normal method =>
      obtain ⟨_, released, releases, returned⟩ := bind_eq_ok.mp returned
      cases returned
      obtain ⟨sent, submitted, sends, waits⟩ := bind_eq_ok.mp calls
      cases sent with
      | error status => cases waits
      | ok _ =>
          obtain ⟨encoded, encodes, submissions⟩ := sendMethodInner_submits sends
          have sameReplied := (noMethods_waitReply 0 _ deadline).ok waits
          have sameReleased := noMethods_maybeReleaseBuffers.ok releases
          exact ⟨encoded, encodes, (sameReleased.trans sameReplied).trans submissions⟩
  | libraryException status => cases returned
  | serverException method => cases returned

theorem early_releaseBuffers : Keeps (Early script) amqpReleaseBuffers := by
  have releases (channels : List UInt16) : Keeps (Early script) (releaseEach channels) := by
    induction channels with
    | nil => exact .pure fun _ early => early
    | cons channel channels ih =>
        have released : Keeps (Early script) (amqpMaybeReleaseBuffersOnChannel channel) :=
          (still_maybeReleaseBuffersOnChannel channel).keeps
            fun _ _ still early => early.of_quiet still.toQuiet
        exact Triple.bind released fun _ => ih
  apply Triple.read_bind
  intro world
  exact .ite (fun _ => .throw fun _ early => early) fun _ => releases _

theorem LoginStates.Passed.settled {states : LoginStates} {reply : Method}
    (passed : states.Passed parameters memory fuel (World.new script) reply after)
    (accepted : parameters.Accepted) : ∃ tune settled, Settled parameters tune settled after := by
  have prepared := (passed.prepared (early_new script)).2
  have released := early_releaseBuffers.ok prepared.toEarly passed.released
  obtain ⟨method, fields, waited, tuned, waits, isFields, tunes, sends⟩ :=
    loginTune_eq_none passed.tuned
  obtain ⟨frame, delivered, expected⟩ :=
    (early_waitMethodList 0 [amqpConnectionTuneMethod, amqpConnectionCloseMethod]
      states.deadline).ok released waits
  have isTune := frame_of_expectedMethod expected isFields
  have agreed := negotiate_agreed accepted (.ofFields fields)
  obtain ⟨_, _, around⟩ := amqpTuneConnection_eq_ok tunes
  -- From here on no call changes the settings or forgets a frame.
  have decoded : frame ∈ after.decoded := by
    have atTuned : frame ∈ tuned.decoded := callRule_decoded.around around delivered.decoded
    have atSent := (callRule_decoded.sendFrameInner _ _ _).ok atTuned sends
    have atCleared := callRule_decoded.releaseBuffers.ok atSent passed.cleared
    exact (callRule_decoded.loginOpen _ _).ok atCleared passed.opened
  have settings : after.settings = tuned.settings := by
    have atSent := (callRule_settings.sendFrameInner _ _ _).ok rfl sends
    have atCleared := callRule_settings.releaseBuffers.ok atSent passed.cleared
    exact (callRule_settings.loginOpen _ _).ok atCleared passed.opened
  have stored := tuneConnection_settings tunes (Int.natCast_nonneg _)
  obtain ⟨isChannelMax, isFrameMax, isHeartbeat⟩ :=
    Prod.mk.inj (settings.trans stored) |>.imp_right Prod.mk.inj
  refine ⟨.ofFields fields, negotiate parameters (.ofFields fields),
    ⟨fields, rfl, isTune ▸ decoded⟩, agreed, ?_, isChannelMax, ?_, isHeartbeat⟩
  · obtain ⟨startOk, isStartOk, startSubmitted⟩ := sendStartOk_submits passed.sent
    obtain ⟨tuneOk, isTuneOk, tuneSubmitted⟩ := sendMethodInner_submits sends
    obtain ⟨opens, isOpen, openSubmitted⟩ := loginOpen_submits passed.opened
    have atStored : methodSubmissions states.stored.wire = [] :=
      ((noMethods_storeProperties parameters memory.allocs states.deadline).ok passed.stored).trans
        ((noMethods_of_asks (asks_timeFromNow parameters.timeout)).ok passed.timed)
    have atWaited : methodSubmissions waited.wire = methodSubmissions states.sent.wire :=
      ((noMethods_waitMethodList 0 _ states.deadline).ok waits).trans
        (noMethods_releaseBuffers.ok passed.released)
    have atTuned : methodSubmissions tuned.wire = methodSubmissions waited.wire :=
      (noMethods_tuneConnection _ _ _ _).ok tunes
    have atCleared : methodSubmissions states.cleared.wire = methodSubmissions states.tuned.wire :=
      noMethods_releaseBuffers.ok passed.cleared
    refine ⟨startOk, tuneOk, opens, ?_, isStartOk, isTuneOk, isOpen⟩
    rw [openSubmitted, atCleared, tuneSubmitted, atTuned, atWaited, startSubmitted, atStored]
    rfl
  · have atMost := negotiateFrameMax_le (UInt32.ofNat parameters.frameMax.toInt.toNat)
      (Tune.ofFields fields).frameMax
    have bound := parameters.frameMax.toInt_lt
    have isClient : (UInt32.ofNat parameters.frameMax.toInt.toNat).toNat =
        parameters.frameMax.toInt.toNat := UInt32.toNat_ofNat_of_lt' (by rw [UInt32.size]; omega)
    rw [isFrameMax]
    apply toInt_toInt32_of_small
    simp only [negotiate]
    omega

end Success

/-- The SASL response is sent after an offer, and a login that succeeds ends in agreement. -/
theorem login_agrees (script : Script) (parameters : LoginParameters) (memory : LoginMemory)
    (fuel : Nat) :
    (methodSubmissions
        (endState (amqpLoginInner parameters memory fuel (World.new script))).wire ≠ [] →
      OfferRead parameters memory fuel (World.new script)) ∧
    ∀ reply after,
      amqpLoginInner parameters memory fuel (World.new script) = .ok (.normal reply) after →
        ∃ tune settled, Settled parameters tune settled after := by
  constructor
  · intro sent
    by_contra unread
    exact sent (login_unsent unread)
  · intro reply after returned
    obtain ⟨accepted, states, passed⟩ := loginInner_eq_normal returned
    exact passed.settled accepted

theorem login_agrees_welcomed :
    OfferRead quietParameters ampleMemory 20 (World.new welcomingScript) ∧
      ∃ tune settled, Settled quietParameters tune settled (endState welcomedLogin) := by
  obtain ⟨offered, agreed⟩ := login_agrees welcomingScript quietParameters ampleMemory 20
  obtain ⟨reply, returned⟩ := welcomedLogin_succeeds
  obtain ⟨tune, settled, holds⟩ := agreed reply _ returned
  refine ⟨offered ?_, tune, settled, holds⟩
  obtain ⟨startOk, tuneOk, opens, submitted, _⟩ := holds.submitted
  have nonempty : methodSubmissions (endState welcomedLogin).wire ≠ [] := by
    rw [submitted]
    exact List.cons_ne_nil _ _
  exact nonempty

end RabbitmqC
