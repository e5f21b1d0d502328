import RabbitmqC.Consumer.CallRule
import RabbitmqC.Login.Handshake
import RabbitmqC.Socket.ChunkIndependence

/-!
# The beginning of a login

Up to `connection.tune` no heartbeat is expected of the broker. Sending does not
receive behind its back then, nothing is queued, and the reader is between two frames
whenever a step has got the frame that it waited for.
-/

set_option autoImplicit false

namespace RabbitmqC

open Effect

/-- Nothing is queued, no send runs late, and what the environment will do was settled at
the start. -/
structure Early (start : Script) (world : World) : Prop where
  prompt : Prompt world
  queue : world.queue = .empty
  uses : start.Uses world.script

/-- A frame has been delivered. -/
structure Delivered (start : Script) (frame : Frame) (world : World) : Prop
    extends Early start world where
  idle : world.reader.state = .idle
  decoded : frame ∈ world.decoded

theorem Early.of_quiet {start : Script} {before after : World} (early : Early start before)
    (quiet : Quiet before after) : Early start after :=
  ⟨early.prompt.of_quiet quiet, quiet.queue.trans early.queue, early.uses.trans quiet.uses⟩

/-! ## Waiting -/

theorem consumeOneFrame_idle {before after : World} {frame : Frame}
    (returned : consumeOneFrame before = .ok (.ok frame) after) (full : frame.frameType ≠ 0) :
    after.reader.state = .idle := by
  have consumed := consumption before
  rw [returned] at consumed
  cases consumed with
  | taken fed => exact amqpHandleInput_idle fed full

section Waiting

variable {start : Script} {fuel : Nat}

theorem receiving_early : Receiving (Early start) (Delivered start) (Early start) where
  calm _ early := .inl early.prompt
  quiet _ _ quiet _ early := early.of_quiet quiet
  takes _ _ _ takes _ early :=
    ⟨takes.prompt early.prompt, takes.queue.trans early.queue, early.uses.trans takes.uses⟩
  consume := by
    rintro world ⟨early, _⟩
    have carried {after : World} (same : SameQueue world after) : Early start after :=
      ⟨early.prompt.congr same.script same.heartbeat same.nextRecvHeartbeat,
        same.queue.trans early.queue, same.script ▸ early.uses⟩
    cases returned : consumeOneFrame world with
    | error stop after =>
        rw [show after = world from consumeOneFrame_decoded.error rfl returned]
        exact early
    | ok result after =>
        obtain ⟨same, decoded⟩ := consumeOneFrame_decoded.ok rfl returned
        cases result with
        | error status => exact carried same
        | ok frame =>
            show ite _ _ _
            rw [recordDecoded] at decoded
            by_cases ignored : frame.frameType = 0
            · rw [if_pos ignored]
              exact carried same
            · rw [if_neg ignored] at decoded ⊢
              refine ⟨carried same, consumeOneFrame_idle returned ignored, ?_⟩
              rw [decoded]
              exact List.mem_append_right _ List.mem_cons_self

theorem early_of_asks {α : Type} {run : Call α} (asks : Moves Asks run) :
    Keeps (Early start) run :=
  asks.keeps fun _ _ asked early => early.of_quiet (quiet_of_asks asked)

/-- A step that fails is not past the beginning. -/
def EarlyEnds {α : Type} (start : Script) (returned : α → World → Prop) :
    Except Status α → World → Prop
  | .ok value, world => returned value world
  | .error _, world => Early start world

/-- With nothing queued, the frame comes from the socket. -/
theorem early_waitFrameNoblock (timeout : Option Timeval) :
    Triple (Early start) (amqpSimpleWaitFrameNoblock timeout fuel)
      (EarlyEnds start (Delivered start)) (fun _ => Early start) := by
  apply Triple.bind (early_of_asks (asks_timeFromNow timeout))
  intro result
  cases result with
  | error status => exact .pure fun _ early => early
  | ok deadline =>
      have waits := @Receiving.waitFrameInner _ _ _ fuel (@receiving_early start)
        (fun _ _ _ delivered => delivered.toEarly) deadline
      apply Triple.get_bind
      rintro world early _ rfl
      have unqueued : world.queue.front = none := by
        rw [early.queue]
        rfl
      rw [unqueued]
      refine (waits.weaken ?_) early
      intro result after ends
      cases result with
      | ok frame => exact ends.1
      | error status => exact ends.elim id id

theorem asks_timeTvUntil (time : UInt64) : Moves Asks (amqpTimeTvUntil time) := by
  apply Moves.ite
  · intro _
    exact .pure
  · intro _
    apply Moves.ite
    · intro _
      exact .pure
    · intro _
      apply asks_timestamp.bind
      intro now
      apply Moves.ite
      · intro _
        exact .pure
      · intro _
        apply Moves.ite
        · intro _
          exact .pure
        · intro _
          exact .pure

/-- The method is that of a frame that was read. -/
theorem early_waitMethodList (expectedChannel : UInt16) (expectedMethods : List UInt32)
    (deadline : UInt64) :
    Triple (Early start) (amqpSimpleWaitMethodList expectedChannel expectedMethods deadline fuel)
      (EarlyEnds start fun method world => ∃ frame, Delivered start frame world ∧
        expectedMethod? expectedChannel expectedMethods frame = some method)
      (fun _ => Early start) := by
  apply Triple.bind (early_of_asks (asks_timeTvUntil deadline))
  intro tv
  cases tv with
  | error status => exact .pure fun _ early => early
  | ok tv =>
      apply Triple.bind (early_waitFrameNoblock tv)
      intro result
      cases result with
      | error status => exact .pure fun _ early => early
      | ok frame =>
          dsimp only
          cases expected : expectedMethod? expectedChannel expectedMethods frame with
          | none => exact .pure fun _ delivered => delivered.toEarly
          | some method => exact .pure fun _ delivered => ⟨frame, delivered, expected⟩

end Waiting

/-! ## Up to the SASL response -/

/-- The `connection.start` that a frame is. -/
def Frame.start? (frame : Frame) : Option ConnectionStart :=
  (expectedMethod? 0 [amqpConnectionStartMethod] frame).bind fun method =>
    (method.fields? amqpConnectionStartMethod).map .ofFields

/-- The broker speaks the version 0-9 and knows the SASL method. -/
structure Acceptable (saslMethod : SaslMethod) (offered : ConnectionStart) : Prop where
  versionMajor : offered.versionMajor = protocolVersionMajor
  versionMinor : offered.versionMinor = protocolVersionMinor
  mechanism : saslMechanismInList offered.mechanisms saslMethod = .ok true

/-- An acceptable `connection.start` was read, and nothing has been read since. -/
structure Greeted (start : Script) (saslMethod : SaslMethod) (world : World) : Prop
    extends Early start world where
  idle : world.reader.state = .idle
  offered : ∃ frame ∈ world.decoded, ∃ offered, frame.start? = some offered ∧
    Acceptable saslMethod offered

/-- The client properties and the SASL response are in the pool of channel 0. -/
structure Prepared (start : Script) (saslMethod : SaslMethod) (world : World) : Prop
    extends Greeted start saslMethod world where
  pool : 0 ∈ world.reader.poolTable

section Steps

variable {start : Script} {fuel : Nat}

theorem early_sendHeaderInner (deadline : UInt64) :
    Keeps (Early start) (sendHeaderInner deadline fuel) := by
  have sends : Keeps (Early start) (amqpTrySend [65, 77, 81, 80, 0, protocolVersionMajor,
      protocolVersionMinor, protocolVersionRevision] deadline fuel) :=
    (still_trySendLeft _ deadline _).keeps fun _ _ still early => early.of_quiet still.toQuiet
  apply Triple.bind sends
  intro result
  cases result with
  | error status => exact .pure fun _ early => early
  | ok sent => exact .pure fun _ early => early

theorem early_awaitStart (deadline : UInt64) :
    Triple (Early start) (awaitStart deadline fuel)
      (EarlyEnds start fun offered world => ∃ frame, Delivered start frame world ∧
        frame.start? = some offered)
      (fun _ => Early start) := by
  apply Triple.bind (early_sendHeaderInner deadline)
  intro res
  apply Triple.ite
  · intro _
    exact .pure fun _ early => early
  · intro _
    apply Triple.bind (early_waitMethodList 0 [amqpConnectionStartMethod] deadline)
    intro result
    cases result with
    | error status => exact .pure fun _ early => early
    | ok method =>
        dsimp only
        cases fields : method.fields? amqpConnectionStartMethod with
        | none =>
            apply Triple.throw
            rintro world ⟨frame, delivered, _⟩
            exact delivered.toEarly
        | some offered =>
            apply Triple.pure
            rintro world ⟨frame, delivered, expected⟩
            refine ⟨frame, delivered, ?_⟩
            unfold Frame.start?
            rw [expected, Option.bind_some, fields, Option.map_some]

theorem runCloner_keeps {α : Type} (clone : Cloner α) (allocs : List Bool) (inv : World → Prop) :
    Keeps inv (runCloner clone allocs) := by
  unfold runCloner
  split
  · exact .pure fun _ holds => holds
  · exact .pure fun _ holds => holds
  · exact .throw fun _ holds => holds

theorem early_of_properties {world : World} (early : Early start world)
    (serverProperties clientProperties : Table) :
    Early start { world with serverProperties, clientProperties } :=
  ⟨early.prompt.congr rfl rfl rfl, early.queue, early.uses⟩

theorem early_acceptStart {saslMethod : SaslMethod} {offered : ConnectionStart}
    (allocs : List Bool) :
    Triple (fun world => ∃ frame, Delivered start frame world ∧ frame.start? = some offered)
      (acceptStart saslMethod offered allocs)
      (EarlyEnds start fun _ => Greeted start saslMethod)
      (fun _ => Early start) := by
  apply Triple.ite
  · intro _
    apply Triple.pure
    rintro world ⟨frame, delivered, _⟩
    exact delivered.toEarly
  · intro version
    obtain ⟨major, minor⟩ := not_or.mp version
    apply Triple.bind ((runCloner_keeps _ _ _).raise ?_)
    · intro result
      cases result with
      | error status =>
          apply Triple.pure
          rintro world ⟨frame, delivered, _⟩
          exact delivered.toEarly
      | ok cloned =>
          obtain ⟨serverProperties, allocs⟩ := cloned
          rintro world ⟨frame, delivered, isStart⟩
          have early := early_of_properties delivered.toEarly serverProperties
            world.clientProperties
          dsimp only
          rw [bind_of_ok (modify_run _ _)]
          cases listed : saslMechanismInList offered.mechanisms saslMethod with
          | error fault => exact early
          | ok found =>
              cases found with
              | false => exact early
              | true =>
                  refine ⟨early, delivered.idle, frame, delivered.decoded, offered, isStart, ?_⟩
                  exact ⟨not_not.mp major, not_not.mp minor, listed⟩
    · rintro stop world ⟨frame, delivered, _⟩
      exact delivered.toEarly

theorem Greeted.of_quiet {saslMethod : SaslMethod} {before after : World}
    (greeted : Greeted start saslMethod before) (quiet : Quiet before after) :
    Greeted start saslMethod after where
  toEarly := greeted.toEarly.of_quiet quiet
  idle := by
    rw [quiet.reader]
    exact greeted.idle
  offered := by
    rw [quiet.decoded]
    exact greeted.offered

theorem Prepared.of_quiet {saslMethod : SaslMethod} {before after : World}
    (prepared : Prepared start saslMethod before) (quiet : Quiet before after) :
    Prepared start saslMethod after where
  toGreeted := prepared.toGreeted.of_quiet quiet
  pool := by
    rw [quiet.reader]
    exact prepared.pool

theorem greeted_linkPool {saslMethod : SaslMethod} :
    Triple (Greeted start saslMethod) (linkPool 0)
      (fun granted world => Greeted start saslMethod world ∧
        (granted = true → 0 ∈ world.reader.poolTable))
      (fun _ => Greeted start saslMethod) := by
  have allocates : Keeps (Greeted start saslMethod) allocateLink :=
    asks_allocateLink.keeps fun _ _ asked greeted => greeted.of_quiet (quiet_of_asks asked)
  apply Triple.get_bind
  intro world greeted
  apply Triple.ite
  · intro member
    apply Triple.pure
    rintro _ rfl
    exact ⟨greeted, fun _ => member⟩
  · intro _
    refine Triple.bind (allocates.strengthen ?_) ?_
    · rintro _ rfl
      exact greeted
    · intro granted
      cases granted with
      | false => exact .pure fun _ greeted => ⟨greeted, nofun⟩
      | true =>
          have modifies : Triple (Greeted start saslMethod)
              (modify fun world =>
                { world with reader.poolTable := 0 :: world.reader.poolTable } : Call PUnit)
              (fun _ => Prepared start saslMethod) (fun _ => Greeted start saslMethod) := by
            apply Triple.modify
            intro world greeted
            refine ⟨⟨⟨greeted.prompt.congr rfl rfl rfl, greeted.queue, greeted.uses⟩,
              greeted.idle, greeted.offered⟩, List.mem_cons_self⟩
          apply Triple.bind modifies
          intro _
          exact .pure fun _ prepared => ⟨prepared.toGreeted, fun _ => prepared.pool⟩

theorem early_prepareStartOk {saslMethod : SaslMethod} (parameters : LoginParameters)
    (allocs : List Bool) :
    Triple (Greeted start saslMethod) (prepareStartOk parameters allocs)
      (EarlyEnds start fun _ => Prepared start saslMethod) (fun _ => Early start) := by
  apply Triple.bind (greeted_linkPool.raise fun _ _ greeted => greeted.toEarly)
  intro granted
  cases granted with
  | false => exact .pure fun _ ends => ends.1.toEarly
  | true =>
      have cloner {α : Type} (clone : Cloner α) (allocs : List Bool) :
          Triple (Prepared start saslMethod) (runCloner clone allocs)
            (fun _ => Prepared start saslMethod) (fun _ => Early start) :=
        (runCloner_keeps clone allocs _).raise fun _ _ prepared => prepared.toEarly
      refine Triple.bind ((cloner _ _).strengthen fun _ ends => ⟨ends.1, ends.2 rfl⟩) ?_
      intro result
      cases result with
      | error status => exact .pure fun _ prepared => prepared.toEarly
      | ok answer =>
          obtain ⟨response, allocs⟩ := answer
          apply Triple.bind (cloner _ _)
          intro result
          cases result with
          | error status => exact .pure fun _ prepared => prepared.toEarly
          | ok merged =>
              obtain ⟨clientProperties, allocs⟩ := merged
              rintro world prepared
              have early := early_of_properties prepared.toEarly world.serverProperties
                clientProperties
              exact ⟨⟨early, prepared.idle, prepared.offered⟩, prepared.pool⟩

theorem early_storeProperties (parameters : LoginParameters) (allocs : List Bool)
    (deadline : UInt64) :
    Triple (Early start) (storeProperties parameters allocs deadline fuel)
      (EarlyEnds start fun _ => Prepared start parameters.saslMethod) (fun _ => Early start) := by
  apply Triple.bind (early_awaitStart deadline)
  intro result
  cases result with
  | error status => exact .pure fun _ early => early
  | ok offered =>
      apply Triple.bind (early_acceptStart allocs)
      intro result
      cases result with
      | error status => exact .pure fun _ early => early
      | ok allocs => exact early_prepareStartOk parameters allocs

/-- The broker is not read while the SASL response is sent. -/
theorem prepared_sendStartOk {saslMethod method : SaslMethod} (response : List UInt8)
    (deadline : UInt64) :
    Keeps (Prepared start saslMethod) (sendStartOk method response deadline fuel) := by
  have sends (frame : Frame) :
      Keeps (Prepared start saslMethod) (amqpSendFrameInner frame .none deadline fuel) := by
    intro world prepared
    have keeps := @Prompt.sendFrameInner world fuel prepared.prompt frame .none deadline
    cases returned : amqpSendFrameInner frame .none deadline fuel world with
    | ok result after => exact prepared.of_quiet (keeps.ok (refl_of Quiet world) returned)
    | error stop after => exact prepared.of_quiet (keeps.error (refl_of Quiet world) returned)
  apply Triple.read_bind
  intro world
  cases saslMethodName method with
  | error fault => exact .throw fun _ prepared => prepared
  | ok mechanism => exact sends _

end Steps

/-! ## What all calls keep -/

/-- The values that `amqp_tune_connection` stores do not matter. -/
def Retunable (inv : World → Prop) : Prop :=
  ∀ (world : World) (channelMax : Int) (frameMax : Int32) (heartbeat : Int), inv world →
    inv { world with channelMax, reader.frameMax := frameMax, heartbeat }

namespace CallRule

variable {inv : World → Prop} {held : Frame → World → Prop} {fuel : Nat}

theorem sendStartOk (rule : CallRule inv held) (saslMethod : SaslMethod) (response : List UInt8)
    (deadline : UInt64) : Keeps inv (sendStartOk saslMethod response deadline fuel) := by
  apply Triple.read_bind
  intro world
  cases saslMethodName saslMethod with
  | error fault => exact .throw fun _ holds => holds
  | ok mechanism => exact rule.sendFrameInner _ _ _

theorem waitMethodList (rule : CallRule inv held) (expectedChannel : UInt16)
    (expectedMethods : List UInt32) (deadline : UInt64) :
    Keeps inv (amqpSimpleWaitMethodList expectedChannel expectedMethods deadline fuel) := by
  apply Triple.bind (rule.moves ((asks_timeTvUntil deadline).mono fun _ _ => around_of_asks))
  intro tv
  cases tv with
  | error status => exact .pure fun _ holds => holds
  | ok tv =>
      apply Triple.bind (rule.waitFrameNoblock tv)
      intro result
      refine Triple.strengthen ?_ fun _ waited => rule.waited waited
      cases result with
      | error status => exact .pure fun _ holds => holds
      | ok frame =>
          dsimp only
          cases expectedMethod? expectedChannel expectedMethods frame with
          | none => exact .pure fun _ holds => holds
          | some method => exact .pure fun _ holds => holds

/-- From the storing of the values on. -/
theorem tuneConnection (rule : CallRule inv held) {start : World} {channelMax : Int}
    {frameMax : Int32} {heartbeat : Int} {granted : Bool}
    (stored : inv { start with
      channelMax
      reader.frameMax := frameMax
      heartbeat := if 0 > heartbeat then 0 else heartbeat })
    (unstored : inv start) : Triple (start = ·)
      (amqpTuneConnection channelMax frameMax heartbeat granted) (fun _ => inv) (fun _ => inv) := by
  apply Triple.get_bind
  rintro world rfl
  apply Triple.ite
  · intro _
    apply Triple.throw
    rintro _ rfl
    exact unstored
  · intro _
    have sets : Triple (start = ·)
        (set { start with
          channelMax
          reader.frameMax := frameMax
          heartbeat := if 0 > heartbeat then 0 else heartbeat } : Call PUnit)
        (fun _ => inv) (fun _ => inv) := by
      rintro _ rfl
      exact stored
    apply Triple.bind sets
    intro _
    apply Triple.bind (rule.moves around_scheduleHeartbeat)
    intro scheduled
    cases scheduled with
    | error status => exact .pure fun _ holds => holds
    | ok _ =>
        apply Triple.bind (rule.moves around_awaitHeartbeat)
        intro awaited
        cases awaited with
        | error status => exact .pure fun _ holds => holds
        | ok _ =>
            have modifies : Keeps inv (modify fun world =>
                { world with outbound := reallocOutbound world.outbound frameMax } :
                Call PUnit) := by
              apply Triple.modify
              intro world holds
              exact rule.around ⟨_, _, _, _, _, _, _, _, _, _, .refl _, rfl⟩ holds
            apply Triple.ite
            · intro _
              apply Triple.bind modifies
              intro _
              exact .pure fun _ holds => holds
            · intro _
              exact .pure fun _ holds => holds

theorem answerTune (rule : CallRule inv held) (retuned : Retunable inv)
    (parameters : LoginParameters) (granted : Bool) (tune : Tune) (deadline : UInt64) :
    Keeps inv (answerTune parameters granted tune deadline fuel) := by
  have tunes : Keeps inv (amqpTuneConnection (negotiate parameters tune).channelMax.toNat
      (negotiate parameters tune).frameMax.toInt32 (negotiate parameters tune).heartbeat.toNat
      granted) :=
    fun world holds => rule.tuneConnection (retuned world _ _ _ holds) holds rfl
  apply Triple.bind tunes
  intro tuned
  cases tuned with
  | error status => exact .pure fun _ holds => holds
  | ok _ => exact rule.sendFrameInner _ _ deadline

theorem loginTune (rule : CallRule inv held) (retuned : Retunable inv)
    (parameters : LoginParameters) (granted : Bool) (deadline : UInt64) :
    Keeps inv (loginTune parameters granted deadline fuel) := by
  apply Triple.bind (rule.waitMethodList 0 _ deadline)
  intro result
  cases result with
  | error status => exact .pure fun _ holds => holds
  | ok method =>
      apply Triple.ite
      · intro _
        exact .pure fun _ holds => holds
      · intro _
        cases method.fields? amqpConnectionTuneMethod with
        | none => exact .throw fun _ holds => holds
        | some tune =>
            apply Triple.bind (rule.answerTune retuned parameters granted (.ofFields tune) deadline)
            intro answered
            cases answered with
            | error status => exact .pure fun _ holds => holds
            | ok _ => exact .pure fun _ holds => holds

theorem loginOpen (rule : CallRule inv held) (vhost : List UInt8) (deadline : UInt64) :
    Keeps inv (loginOpen vhost deadline fuel) := by
  have calls : Keeps inv (simpleRpcInner 0 amqpConnectionOpenMethod [amqpConnectionOpenOkMethod]
      (openFields vhost) deadline fuel) := by
    apply Triple.bind (rule.sendFrameInner _ _ _)
    intro sent
    cases sent with
    | error status => exact .pure fun _ holds => holds
    | ok _ => exact rule.waitReply 0 _ deadline
  apply Triple.bind calls
  intro reply
  cases reply with
  | normal method =>
      apply Triple.bind rule.maybeReleaseBuffers
      intro _
      exact .pure fun _ holds => holds
  | libraryException status => exact .pure fun _ holds => holds
  | serverException method => exact .pure fun _ holds => holds

end CallRule

/-! ## A login that succeeds -/

/-- The states that a login goes through. -/
structure LoginStates where
  deadline : UInt64
  timed : World
  response : List UInt8
  stored : World
  sent : World
  released : World
  tuned : World
  cleared : World

/-- The login goes through these states from `before` to `after`. -/
structure LoginStates.Passed (states : LoginStates) (parameters : LoginParameters)
    (memory : LoginMemory) (fuel : Nat) (before : World) (reply : Method) (after : World) :
    Prop where
  timed : amqpTimeFromNow parameters.timeout before = .ok (.ok states.deadline) states.timed
  stored : storeProperties parameters memory.allocs states.deadline fuel states.timed =
    .ok (.ok states.response) states.stored
  sent : sendStartOk parameters.saslMethod states.response states.deadline fuel states.stored =
    .ok (.ok ()) states.sent
  released : amqpReleaseBuffers states.sent = .ok () states.released
  tuned : loginTune parameters memory.outbound states.deadline fuel states.released =
    .ok (.ok none) states.tuned
  cleared : amqpReleaseBuffers states.tuned = .ok () states.cleared
  opened : loginOpen parameters.vhost states.deadline fuel states.cleared = .ok (.normal reply) after

theorem loginStart_eq_ok {parameters : LoginParameters} {allocs : List Bool} {deadline : UInt64}
    {fuel : Nat} {before after : World}
    (returned : loginStart parameters allocs deadline fuel before = .ok (.ok ()) after) :
    ∃ response stored, storeProperties parameters allocs deadline fuel before =
        .ok (.ok response) stored ∧
      sendStartOk parameters.saslMethod response deadline fuel stored = .ok (.ok ()) after := by
  obtain ⟨result, stored, stores, returned⟩ := bind_eq_ok.mp returned
  cases result with
  | error status => cases returned
  | ok response => exact ⟨response, stored, stores, returned⟩

theorem loginSteps_eq_normal {parameters : LoginParameters} {memory : LoginMemory} {fuel : Nat}
    {before after : World} {reply : Method}
    (returned : loginSteps parameters memory fuel before = .ok (.ok (.normal reply)) after) :
    ∃ states : LoginStates, states.Passed parameters memory fuel before reply after := by
  obtain ⟨result, timed, times, returned⟩ := bind_eq_ok.mp returned
  cases result with
  | error status => cases returned
  | ok deadline =>
      obtain ⟨result, sent, starts, returned⟩ := bind_eq_ok.mp returned
      cases result with
      | error status => cases returned
      | ok _ =>
          obtain ⟨response, stored, stores, sends⟩ := loginStart_eq_ok starts
          obtain ⟨_, released, releases, returned⟩ := bind_eq_ok.mp returned
          obtain ⟨result, tuned, tunes, returned⟩ := bind_eq_ok.mp returned
          match result with
          | .error status => cases returned
          | .ok (some method) => cases returned
          | .ok none =>
              obtain ⟨_, cleared, clears, returned⟩ := bind_eq_ok.mp returned
              obtain ⟨opened, final, opens, returned⟩ := bind_eq_ok.mp returned
              cases returned
              exact ⟨⟨deadline, timed, response, stored, sent, released, tuned, cleared⟩,
                times, stores, sends, releases, tunes, clears, opens⟩

theorem loginInner_eq_normal {parameters : LoginParameters} {memory : LoginMemory} {fuel : Nat}
    {before after : World} {reply : Method}
    (returned : amqpLoginInner parameters memory fuel before = .ok (.normal reply) after) :
    parameters.Accepted ∧
      ∃ states : LoginStates, states.Passed parameters memory fuel before reply after := by
  unfold amqpLoginInner at returned
  split at returned
  · rename_i accepted
    obtain ⟨result, ended, steps, returned⟩ := bind_eq_ok.mp returned
    cases result with
    | error status =>
        obtain ⟨_, _, _, returned⟩ := bind_eq_ok.mp returned
        cases returned
    | ok opened =>
        cases returned
        exact ⟨accepted, loginSteps_eq_normal steps⟩
  · cases returned

/-- A connection from `amqp_new_connection` is at the beginning. -/
theorem early_new (script : Script) : Early script (World.new script) :=
  ⟨.inr ⟨Int.le_refl 0, rfl⟩, rfl, .refl script⟩

theorem LoginStates.Passed.prepared {states : LoginStates} {parameters : LoginParameters}
    {memory : LoginMemory} {fuel : Nat} {start : Script} {before after : World} {reply : Method}
    (passed : states.Passed parameters memory fuel before reply after)
    (early : Early start before) :
    Prepared start parameters.saslMethod states.stored ∧
      Prepared start parameters.saslMethod states.sent := by
  have timed := (early_of_asks (asks_timeFromNow parameters.timeout)).ok early passed.timed
  have stored : Prepared start parameters.saslMethod states.stored :=
    (early_storeProperties parameters memory.allocs states.deadline).ok timed passed.stored
  exact ⟨stored, (prepared_sendStartOk states.response states.deadline).ok stored passed.sent⟩

/-! ## A broker that accepts the client -/

/-- `connection.start`, with the mechanism EXTERNAL. -/
def startOctets : List UInt8 :=
  frameOctets amqpFrameMethod 0 ([0, 10, 0, 10, 0, 9, 0, 0, 0, 0, 0, 0, 0, 8] ++
    CString.ascii "EXTERNAL" ++ [0, 0, 0, 5] ++ CString.ascii "en_US")

/-- `connection.tune`, with a `frame_max` of 4096. -/
def tuneOctets : List UInt8 :=
  frameOctets amqpFrameMethod 0 [0, 10, 0, 30, 7, 255, 0, 0, 16, 0, 0, 60]

/-- `connection.open-ok`. -/
def openOkOctets : List UInt8 := frameOctets amqpFrameMethod 0 [0, 10, 0, 41, 0]

def startChunk : Chunk := ⟨startOctets, by decide +kernel, by decide +kernel⟩
def tuneChunk : Chunk := ⟨tuneOctets, by decide, by decide⟩
def openOkChunk : Chunk := ⟨openOkOctets, by decide, by decide⟩

/-- A frame arrives whenever one is waited for, and all that is sent is taken at once. -/
def welcomingScript : Script where
  clock := []
  recvs := [.data startChunk, .data tuneChunk, .data openOkChunk]
  sends := [.accepted 100, .accepted 1000, .accepted 100, .accepted 100]
  recvPolls := []
  sendPolls := []
  closes := []
  links := []
  memory := fun _ => grantingMemory

/-- `amqp_login` without heartbeats. -/
def quietParameters : LoginParameters where
  vhost := [47]
  channelMax := 0
  frameMax := 131072
  heartbeat := 0
  clientProperties := some []
  timeout := none
  saslMethod := .external [103]
  build := ⟨[76], [67]⟩

def ampleMemory : LoginMemory := ⟨[], true⟩

def welcomedLogin : EStateM.Result Stop World RpcReply :=
  amqpLoginInner quietParameters ampleMemory 20 (World.new welcomingScript)

def succeeds : EStateM.Result Stop World RpcReply → Bool
  | .ok (.normal _) _ => true
  | _ => false

theorem succeeds_eq_true {result : EStateM.Result Stop World RpcReply}
    (isTrue : succeeds result = true) : ∃ reply, result = .ok (.normal reply) (endState result) := by
  match result with
  | .ok (.normal reply) _ => exact ⟨reply, rfl⟩
  | .ok (.libraryException _) _ => cases isTrue
  | .ok (.serverException _) _ => cases isTrue
  | .error _ _ => cases isTrue

theorem welcomedLogin_succeeds : ∃ reply, welcomedLogin = .ok (.normal reply)
    (endState welcomedLogin) :=
  succeeds_eq_true (by decide +kernel)

end RabbitmqC
