import RabbitmqC.Consumer.Recovery
import RabbitmqC.Login.Agreement
import RabbitmqC.Socket.WaitLoop

/-!
# Where a login aborts

`amqp_release_buffers` and `amqp_tune_connection` abort unless the reader is between
two frames. It is, except possibly after `connection.tune-ok`: heartbeats are tuned
by then, and a send that comes to `next_recv_heartbeat` receives whatever has arrived.
-/

set_option autoImplicit false

namespace RabbitmqC

open Effect

/-! ## A send that receives -/

/-- A turn of `amqp_send_frame_inner` in which the socket does not take everything until
`next_recv_heartbeat`, and something is received instead. -/
inductive LateTurn (deadline : UInt64) (fuel : Nat) (encoded : List UInt8) (world : World) :
    List UInt8 → World → Prop where
  | mk {sent : Nat} {stopped received : World} :
      amqpTrySend encoded (amqpTimeFirst deadline world.nextRecvHeartbeat) fuel world =
        .ok (.ok sent) stopped →
      sent ≠ encoded.length → amqpTimeFirst deadline world.nextRecvHeartbeat ≠ deadline →
      amqpTryRecv fuel stopped = .ok (.ok ()) received →
      LateTurn deadline fuel encoded world (encoded.drop sent) received

/-- A turn in which the socket takes everything. -/
inductive LastTurn (deadline : UInt64) (fuel : Nat) (encoded : List UInt8) (world : World) :
    World → Prop where
  | mk {stopped after : World} :
      amqpTrySend encoded (amqpTimeFirst deadline world.nextRecvHeartbeat) fuel world =
        .ok (.ok encoded.length) stopped →
      scheduleHeartbeat stopped = .ok (.ok ()) after →
      LastTurn deadline fuel encoded world after

/-- The last of the late turns of a send stops receiving within a frame. -/
inductive CutsFrame (deadline : UInt64) : Nat → List UInt8 → World → Prop where
  | last {fuel : Nat} {encoded left : List UInt8} {world received after : World} :
      LateTurn deadline (fuel + 1) encoded world left received →
      received.reader.state ≠ .idle → LastTurn deadline fuel left received after →
      CutsFrame deadline (fuel + 2) encoded world
  | later {fuel : Nat} {encoded left : List UInt8} {world received : World} :
      LateTurn deadline fuel encoded world left received → CutsFrame deadline fuel left received →
      CutsFrame deadline (fuel + 1) encoded world

section Sending

variable {deadline : UInt64} {fuel : Nat} {encoded left : List UInt8}
  {world received after : World}

theorem LastTurn.reader (last : LastTurn deadline fuel encoded world after) :
    after.reader = world.reader := by
  obtain ⟨sends, schedules⟩ := last
  have sent := (still_trySendLeft _ _ _).ok sends
  have scheduled := quiet_scheduleHeartbeat.ok schedules
  exact scheduled.reader.trans sent.reader

theorem sendEncoded_of_lastTurn (last : LastTurn deadline fuel encoded world after) :
    sendEncoded deadline (fuel + 1) encoded world = .ok (.ok ()) after := by
  obtain ⟨sends, schedules⟩ := last
  unfold sendEncoded
  rw [bind_of_ok (get_run world), bind_of_ok sends]
  dsimp only
  rw [if_pos rfl]
  exact schedules

theorem sendEncoded_of_lateTurn (late : LateTurn deadline fuel encoded world left received) :
    sendEncoded deadline (fuel + 1) encoded world = sendEncoded deadline fuel left received := by
  obtain ⟨sends, short, early, receives⟩ := late
  rw [sendEncoded, bind_of_ok (get_run world), bind_of_ok sends]
  dsimp only
  rw [if_neg short, if_neg early, bind_of_ok receives]

theorem turn_of_sendEncoded
    (returned : sendEncoded deadline (fuel + 1) encoded world = .ok (.ok ()) after) :
    LastTurn deadline fuel encoded world after ∨
      ∃ left received, LateTurn deadline fuel encoded world left received := by
  rw [sendEncoded, bind_of_ok (get_run world)] at returned
  obtain ⟨result, stopped, sends, returned⟩ := bind_eq_ok.mp returned
  cases result with
  | error status => cases returned
  | ok sent =>
      dsimp only at returned
      by_cases whole : sent = encoded.length
      · rw [if_pos whole] at returned
        rw [whole] at sends
        exact .inl ⟨sends, returned⟩
      · rw [if_neg whole] at returned
        by_cases ended : amqpTimeFirst deadline world.nextRecvHeartbeat = deadline
        · rw [if_pos ended] at returned
          cases returned
        · rw [if_neg ended] at returned
          obtain ⟨result, received, receives, returned⟩ := bind_eq_ok.mp returned
          cases result with
          | error status => cases status <;> cases returned
          | ok _ => exact .inr ⟨_, received, sends, whole, ended, receives⟩

theorem CutsFrame.sends (cuts : CutsFrame deadline fuel encoded world) :
    ∃ after, sendEncoded deadline fuel encoded world = .ok (.ok ()) after ∧
      after.reader.state ≠ .idle := by
  induction cuts with
  | @last _ _ _ _ _ after late busy last =>
      refine ⟨after, ?_, ?_⟩
      · rw [sendEncoded_of_lateTurn late]
        exact sendEncoded_of_lastTurn last
      · rw [last.reader]
        exact busy
  | later late _ ih =>
      rw [sendEncoded_of_lateTurn late]
      exact ih

/-- A send that starts between two frames and does not end there has cut one. -/
theorem cutsFrame_of_busy (idle : world.reader.state = .idle)
    (returned : sendEncoded deadline fuel encoded world = .ok (.ok ()) after)
    (busy : after.reader.state ≠ .idle) : CutsFrame deadline fuel encoded world := by
  have general : ∀ world, sendEncoded deadline fuel encoded world = .ok (.ok ()) after →
      (∃ less, fuel = less + 1 ∧ world.reader.state ≠ .idle ∧
        LastTurn deadline less encoded world after) ∨ CutsFrame deadline fuel encoded world := by
    clear returned idle
    induction fuel generalizing encoded with
    | zero =>
        intro world returned
        cases returned
    | succ fuel ih =>
        intro world returned
        obtain last | ⟨left, received, late⟩ := turn_of_sendEncoded returned
        · refine .inl ⟨fuel, rfl, ?_, last⟩
          rw [← last.reader]
          exact busy
        · rw [sendEncoded_of_lateTurn late] at returned
          obtain ⟨less, rfl, cut, last⟩ | cuts := ih received returned
          · exact .inr (.last late cut last)
          · exact .inr (.later late cuts)
  obtain ⟨_, _, cut, _⟩ | cuts := general world returned
  · exact absurd idle cut
  · exact cuts

end Sending

/-! ## Steps that do not abort -/

theorem unaborted_timeTvUntil (time : UInt64) : Unaborted (amqpTimeTvUntil time) := by
  refine Raises.ite (fun _ => .pure _) fun _ => .ite (fun _ => .pure _) fun _ => ?_
  refine unaborted_timestamp.bind fun now => ?_
  exact .ite (fun _ => .pure _) fun _ => .ite (fun _ => .pure _) fun _ => .pure _

theorem unaborted_waitFrameNoblock (timeout : Option Timeval) (fuel : Nat) :
    Unaborted (amqpSimpleWaitFrameNoblock timeout fuel) := by
  refine (unaborted_timeFromNow timeout).bind fun answer => ?_
  cases answer with
  | error status => exact .pure _
  | ok deadline =>
      refine Raises.bind .get fun world => ?_
      cases world.queue.front with
      | some link => exact Raises.bind (.set _) fun _ => .pure _
      | none => exact unaborted_waitFrameInner deadline fuel

theorem unaborted_waitMethodList (expectedChannel : UInt16) (expectedMethods : List UInt32)
    (deadline : UInt64) (fuel : Nat) :
    Unaborted (amqpSimpleWaitMethodList expectedChannel expectedMethods deadline fuel) := by
  refine (unaborted_timeTvUntil deadline).bind fun tv => ?_
  cases tv with
  | error status => exact .pure _
  | ok tv =>
      refine (unaborted_waitFrameNoblock tv fuel).bind fun waited => ?_
      cases waited with
      | error status => exact .pure _
      | ok frame =>
          dsimp only
          cases expectedMethod? expectedChannel expectedMethods frame with
          | some method => exact .pure _
          | none => exact .pure _

theorem unaborted_awaitStart (deadline : UInt64) (fuel : Nat) :
    Unaborted (awaitStart deadline fuel) := by
  have header : Unaborted (sendHeaderInner deadline fuel) := by
    refine (unaborted_trySend _ _ _ _).bind fun sent => ?_
    cases sent with
    | error status => exact .pure _
    | ok sent => exact .pure _
  refine header.bind fun res => .ite (fun _ => .pure _) fun _ => ?_
  refine (unaborted_waitMethodList _ _ deadline fuel).bind fun waited => ?_
  cases waited with
  | error status => exact .pure _
  | ok method =>
      dsimp only
      cases method.fields? amqpConnectionStartMethod with
      | some start => exact .pure _
      | none => exact .throw (by decide)

theorem unaborted_runCloner {α : Type} {clone : Cloner α} (fails : FailsToClone clone)
    (allocs : List Bool) : Unaborted (runCloner clone allocs) := by
  unfold runCloner
  cases cloned : clone allocs with
  | ok value rest => exact .pure _
  | error failure rest =>
      have expected := fails cloned
      cases failure with
      | status status => exact .pure _
      | fault fault =>
          apply Raises.throw
          intro same
          cases same
          revert expected
          decide

theorem failsToClone_table (table : Table) : FailsToClone (amqpTableClone table) := by
  refine Raises.ite (fun _ => .pure _) fun _ => ?_
  exact Raises.bind failsToClone_poolAlloc fun _ => failsToClone_tableEntries table

/-- PLAIN or EXTERNAL. -/
def SaslMethod.Known (saslMethod : SaslMethod) : Prop := saslMethod ≠ .undefined

theorem SaslMethod.Known.name {saslMethod : SaslMethod} (known : saslMethod.Known) :
    ∃ name, saslMethodName saslMethod = .ok name := by
  cases saslMethod with
  | undefined => exact absurd rfl known
  | plain username password => exact ⟨_, rfl⟩
  | external identity => exact ⟨_, rfl⟩

theorem failsToClone_saslResponse {saslMethod : SaslMethod} (known : saslMethod.Known) :
    FailsToClone (saslResponse saslMethod) := by
  cases saslMethod with
  | undefined => exact absurd rfl known
  | plain username password => exact Raises.bind failsToClone_poolAlloc fun _ => .pure _
  | external identity =>
      refine Raises.ite (fun _ => .throw (by decide)) fun _ => ?_
      exact Raises.bind failsToClone_poolAlloc fun _ => .pure _

theorem unaborted_acceptStart {saslMethod : SaslMethod} (known : saslMethod.Known)
    (start : ConnectionStart) (allocs : List Bool) :
    Unaborted (acceptStart saslMethod start allocs) := by
  obtain ⟨name, isName⟩ := known.name
  refine Raises.ite (fun _ => .pure _) fun _ => ?_
  refine (unaborted_runCloner (failsToClone_table _) allocs).bind fun cloned => ?_
  cases cloned with
  | error status => exact .pure _
  | ok cloned =>
      refine Raises.bind (.modify _) fun _ => ?_
      cases listed : saslMechanismInList start.mechanisms saslMethod with
      | error fault =>
          unfold saslMechanismInList at listed
          rw [isName, except_bind_ok] at listed
          split at listed <;> cases listed
      | ok found => cases found <;> exact .pure _

/-- Nothing is merged into the default properties. -/
theorem unaborted_prepareStartOk {parameters : LoginParameters}
    (known : parameters.saslMethod.Known) (plain : parameters.clientProperties = some [])
    (allocs : List Bool) : Unaborted (prepareStartOk parameters allocs) := by
  refine (unaborted_linkPool 0).bind fun pool => .ite (fun _ => ?_) fun _ => .pure _
  refine (unaborted_runCloner (failsToClone_saslResponse known) allocs).bind fun response => ?_
  cases response with
  | error status => exact .pure _
  | ok response =>
      have merges : FailsToClone (amqpMergeCapabilities (defaultClientProperties parameters.build)
          parameters.clientProperties) := by
        rw [plain]
        unfold amqpMergeCapabilities mergeAround mergeEntries
        refine Raises.ite (fun _ => .throw (by decide)) fun _ => ?_
        refine Raises.bind failsToClone_poolAlloc fun _ => ?_
        exact Raises.bind (.pure _) fun _ => failsToClone_table _
      refine (unaborted_runCloner merges _).bind fun merged => ?_
      cases merged with
      | error status => exact .pure _
      | ok merged => exact Raises.bind (.modify _) fun _ => .pure _

theorem unaborted_loginStart {parameters : LoginParameters}
    (known : parameters.saslMethod.Known) (plain : parameters.clientProperties = some [])
    (allocs : List Bool) (deadline : UInt64) (fuel : Nat) :
    Unaborted (loginStart parameters allocs deadline fuel) := by
  have stored : Unaborted (storeProperties parameters allocs deadline fuel) := by
    refine (unaborted_awaitStart deadline fuel).bind fun start => ?_
    cases start with
    | error status => exact .pure _
    | ok start =>
        refine (unaborted_acceptStart known start allocs).bind fun accepted => ?_
        cases accepted with
        | error status => exact .pure _
        | ok allocs => exact unaborted_prepareStartOk known plain allocs
  refine stored.bind fun response => ?_
  cases response with
  | error status => exact .pure _
  | ok response =>
      refine Raises.bind .get fun world => ?_
      obtain ⟨name, isName⟩ := known.name
      rw [isName]
      exact unaborted_sendFrameInner _ _ _ _

theorem unaborted_waitReply (channel : UInt16) (expectedReplyIds : List UInt32)
    (deadline : UInt64) (fuel : Nat) :
    Unaborted (waitReply channel expectedReplyIds deadline fuel) := by
  induction fuel with
  | zero => exact unaborted_outOfFuel
  | succ fuel ih =>
      refine (unaborted_waitFrameInner deadline fuel).bind fun waited => ?_
      cases waited with
      | error status =>
          cases status <;>
            first | exact .pure _ | exact unaborted_socketClose.bind fun _ => .pure _
      | ok frame =>
          dsimp only
          cases rpcReply? channel expectedReplyIds frame with
          | some reply => exact .pure _
          | none =>
              refine (unaborted_queueReceived frame).bind fun queued => ?_
              cases queued with
              | error status => exact .pure _
              | ok _ => exact ih

section Releasing

variable {world after : World}

theorem releaseBuffers_unaborted (idle : world.reader.state = .idle) :
    amqpReleaseBuffers world ≠ .error (.fault .abort) after := by
  have each (channels : List UInt16) : Unaborted (releaseEach channels) := by
    induction channels with
    | nil => exact .pure _
    | cons channel channels ih =>
        exact (unaborted_maybeReleaseBuffersOnChannel channel).bind fun _ => ih
  intro raised
  unfold amqpReleaseBuffers at raised
  rw [bind_of_ok (get_run world), if_neg (not_not.mpr idle)] at raised
  exact each _ raised rfl

theorem releaseBuffers_of_busy (busy : world.reader.state ≠ .idle) :
    amqpReleaseBuffers world = .error (.fault .abort) world := by
  unfold amqpReleaseBuffers
  rw [bind_of_ok (get_run world), if_pos busy]
  rfl

theorem unaborted_loginOpen (vhost : List UInt8) (deadline : UInt64) (fuel : Nat) :
    Unaborted (loginOpen vhost deadline fuel) := by
  have rpc : Unaborted (simpleRpcInner 0 amqpConnectionOpenMethod [amqpConnectionOpenOkMethod]
      (openFields vhost) deadline fuel) := by
    refine (unaborted_sendFrameInner _ _ _ _).bind fun sent => ?_
    cases sent with
    | error status => exact .pure _
    | ok _ => exact unaborted_waitReply _ _ _ _
  have releases : Unaborted amqpMaybeReleaseBuffers := by
    intro before after stop raised
    unfold amqpMaybeReleaseBuffers at raised
    rw [bind_of_ok (get_run before)] at raised
    by_cases idle : before.reader.state = .idle
    · rw [if_pos idle] at raised
      rintro rfl
      exact releaseBuffers_unaborted idle raised
    · rw [if_neg idle] at raised
      cases raised
  refine rpc.bind fun reply => ?_
  cases reply with
  | normal method => exact releases.bind fun _ => .pure _
  | libraryException status => exact .pure _
  | serverException method => exact .pure _

theorem tuneConnection_unaborted {channelMax heartbeat : Int} {frameMax : Int32} {granted : Bool}
    (idle : world.reader.state = .idle) :
    amqpTuneConnection channelMax frameMax heartbeat granted world ≠
      .error (.fault .abort) after := by
  intro raised
  unfold amqpTuneConnection at raised
  rw [bind_of_ok (get_run world), if_neg (not_not.mpr idle), bind_of_ok (set_run _ _)] at raised
  refine unaborted_scheduleHeartbeat.bind (fun scheduled => ?_) raised rfl
  cases scheduled with
  | error status => exact .pure _
  | ok _ =>
      refine unaborted_awaitHeartbeat.bind fun awaited => ?_
      cases awaited with
      | error status => exact .pure _
      | ok _ =>
          refine Raises.ite (fun _ => ?_) fun _ => .pure _
          exact Raises.bind (.modify _) fun _ => .pure _

end Releasing

/-! ## Whole logins -/

/-- A login has settled the values of `connection.tune`, and is to answer it. -/
structure ReachesTuneOk (parameters : LoginParameters) (memory : LoginMemory) (fuel : Nat)
    (before : World) (deadline : UInt64) (settled : Tune) (tuned : World) : Prop where
  passes : ∃ timed sent released method waited fields,
    amqpTimeFromNow parameters.timeout before = .ok (.ok deadline) timed ∧
    loginStart parameters memory.allocs deadline fuel timed = .ok (.ok ()) sent ∧
    amqpReleaseBuffers sent = .ok () released ∧
    amqpSimpleWaitMethodList 0 [amqpConnectionTuneMethod, amqpConnectionCloseMethod] deadline fuel
      released = .ok (.ok method) waited ∧
    method.fields? amqpConnectionTuneMethod = some fields ∧
    negotiate parameters (.ofFields fields) = settled ∧
    amqpTuneConnection settled.channelMax.toNat settled.frameMax.toInt32 settled.heartbeat.toNat
      memory.outbound waited = .ok (.ok ()) tuned

/-- The sending of `connection.tune-ok` leaves the reader within a frame. -/
def TuneOkCutsFrame (parameters : LoginParameters) (memory : LoginMemory) (fuel : Nat)
    (before : World) : Prop :=
  ∃ deadline settled tuned encoded filled,
    ReachesTuneOk parameters memory fuel before deadline settled tuned ∧
    encodeOutbound ⟨amqpFrameMethod, 0,
      .method amqpConnectionTuneOkMethod (some settled.okFields)⟩ tuned =
        .ok (.ok encoded) filled ∧
    CutsFrame deadline fuel encoded
      { filled with wire := filled.wire ++ [.submitted .none encoded] }

section Logins

variable {parameters : LoginParameters} {memory : LoginMemory} {fuel : Nat} {script : Script}
  {before timed sent released waited tuned after : World} {deadline : UInt64}

theorem prepared_of_loginStart (early : Early script timed)
    (starts : loginStart parameters memory.allocs deadline fuel timed = .ok (.ok ()) sent) :
    Prepared script parameters.saslMethod sent := by
  obtain ⟨response, stored, stores, sends⟩ := loginStart_eq_ok starts
  have prepared : Prepared script parameters.saslMethod stored :=
    (early_storeProperties parameters memory.allocs deadline).ok early stores
  exact (prepared_sendStartOk response deadline).ok prepared sends

theorem idle_of_waitMethodList {ids : List UInt32} {method : Method} (early : Early script before)
    (waits : amqpSimpleWaitMethodList 0 ids deadline fuel before = .ok (.ok method) after) :
    after.reader.state = .idle := by
  obtain ⟨frame, delivered, _⟩ := (early_waitMethodList 0 ids deadline).ok early waits
  exact delivered.idle

theorem idle_of_tuneConnection {channelMax heartbeat : Int} {frameMax : Int32} {granted : Bool}
    (idle : waited.reader.state = .idle)
    (tunes : amqpTuneConnection channelMax frameMax heartbeat granted waited =
      .ok (.ok ()) tuned) : tuned.reader.state = .idle := by
  obtain ⟨_, _, around⟩ := amqpTuneConnection_eq_ok tunes
  obtain ⟨_, _, _, _, _, _, _, _, _, _, _, rfl⟩ := around
  exact idle

theorem cutsFrame_of_sendFrame {frame : Frame} (idle : tuned.reader.state = .idle)
    (sends : amqpSendFrameInner frame .none deadline fuel tuned = .ok (.ok ()) after)
    (busy : after.reader.state ≠ .idle) :
    ∃ encoded filled, encodeOutbound frame tuned = .ok (.ok encoded) filled ∧
      CutsFrame deadline fuel encoded
        { filled with wire := filled.wire ++ [.submitted .none encoded] } := by
  obtain ⟨result, filled, encodes, sends⟩ := bind_eq_ok.mp sends
  cases result with
  | error status => cases sends
  | ok encoded =>
      have sameReader := ((still_encodeOutbound frame).ok encodes).reader
      refine ⟨encoded, filled, encodes, cutsFrame_of_busy ?_ sends busy⟩
      show filled.reader.state = .idle
      rw [sameReader]
      exact idle

theorem loginTune_unaborted {granted : Bool} (early : Early script before) :
    loginTune parameters granted deadline fuel before ≠ .error (.fault .abort) after := by
  intro raised
  obtain waitAborts | ⟨result, waited, waits, raised⟩ := bind_eq_error.mp raised
  · exact unaborted_waitMethodList _ _ _ _ waitAborts rfl
  · cases result with
    | error status => cases raised
    | ok method =>
        have idle := idle_of_waitMethodList early waits
        dsimp only at raised
        split at raised
        · cases raised
        · cases isFields : method.fields? amqpConnectionTuneMethod with
          | none =>
              rw [isFields] at raised
              cases raised
          | some fields =>
              rw [isFields] at raised
              obtain answerAborts | ⟨result, _, _, raised⟩ := bind_eq_error.mp raised
              · obtain tuneAborts | ⟨result, _, _, raised⟩ := bind_eq_error.mp answerAborts
                · exact tuneConnection_unaborted idle tuneAborts
                · cases result with
                  | error status => cases raised
                  | ok _ => exact unaborted_sendFrameInner _ _ _ _ raised rfl
              · cases result <;> cases raised

theorem tuneOkCutsFrame_of_abort (early : Early script before)
    (known : parameters.saslMethod.Known) (plain : parameters.clientProperties = some [])
    (raised : loginSteps parameters memory fuel before = .error (.fault .abort) after) :
    TuneOkCutsFrame parameters memory fuel before := by
  obtain timeAborts | ⟨result, timed, times, raised⟩ := bind_eq_error.mp raised
  · exact absurd rfl (unaborted_timeFromNow _ timeAborts)
  have earlyTimed := (early_of_asks (asks_timeFromNow parameters.timeout)).ok early times
  cases result with
  | error status => cases raised
  | ok deadline =>
      obtain startAborts | ⟨result, sent, starts, raised⟩ := bind_eq_error.mp raised
      · exact absurd rfl (unaborted_loginStart known plain _ _ _ startAborts)
      cases result with
      | error status => cases raised
      | ok _ =>
          have prepared := prepared_of_loginStart earlyTimed starts
          obtain releaseAborts | ⟨_, released, releases, raised⟩ := bind_eq_error.mp raised
          · exact absurd releaseAborts (releaseBuffers_unaborted prepared.idle)
          have earlyReleased := early_releaseBuffers.ok prepared.toEarly releases
          obtain tuneAborts | ⟨result, answered, tunes, raised⟩ := bind_eq_error.mp raised
          · exact absurd tuneAborts (loginTune_unaborted earlyReleased)
          cases result with
          | error status => cases raised
          | ok refused =>
              cases refused with
              | some method => cases raised
              | none =>
                  obtain clearAborts | ⟨_, cleared, _, raised⟩ := bind_eq_error.mp raised
                  · have busy : answered.reader.state ≠ .idle := by
                      intro idle
                      exact releaseBuffers_unaborted idle clearAborts
                    obtain ⟨method, fields, waited, tuned, waits, isFields, settles, sends⟩ :=
                      loginTune_eq_none tunes
                    have idle := idle_of_tuneConnection
                      (idle_of_waitMethodList earlyReleased waits) settles
                    obtain ⟨encoded, filled, encodes, cuts⟩ := cutsFrame_of_sendFrame idle sends busy
                    exact ⟨deadline, _, tuned, encoded, filled, ⟨timed, sent, released, method,
                      waited, fields, times, starts, releases, waits, isFields, rfl, settles⟩,
                      encodes, cuts⟩
                  · exact absurd rfl ((unaborted_loginOpen _ _ _).map _ raised)

theorem id_of_fields? {method : Method} {id : UInt32} {fields : MethodFields id}
    (isFields : method.fields? id = some fields) : method.id = id := by
  unfold Method.fields? at isFields
  split at isFields
  · assumption
  · cases isFields

theorem loginSteps_of_cuts (cuts : TuneOkCutsFrame parameters memory fuel before) :
    ∃ after, loginSteps parameters memory fuel before = .error (.fault .abort) after := by
  obtain ⟨deadline, settled, tuned, encoded, filled, reaches, encodes, cuts⟩ := cuts
  obtain ⟨timed, sent, released, method, waited, fields, times, starts, releases, waits, isFields,
    rfl, settles⟩ := reaches.passes
  obtain ⟨answered, sends, busy⟩ := cuts.sends
  have sent : amqpSendMethodInner 0 amqpConnectionTuneOkMethod
      (negotiate parameters (.ofFields fields)).okFields .none deadline fuel tuned =
        .ok (.ok ()) answered := by
    unfold amqpSendMethodInner amqpSendFrameInner
    rw [bind_of_ok encodes]
    dsimp only
    rw [bind_of_ok (modify_run _ _)]
    exact sends
  have answers : answerTune parameters memory.outbound (.ofFields fields) deadline fuel waited =
      .ok (.ok ()) answered := by
    unfold answerTune
    rw [bind_of_ok settles]
    exact sent
  have tunes : loginTune parameters memory.outbound deadline fuel released =
      .ok (.ok none) answered := by
    unfold loginTune
    rw [bind_of_ok waits]
    dsimp only
    rw [if_neg (by rw [id_of_fields? isFields]; decide), isFields]
    dsimp only
    rw [bind_of_ok answers]
    rfl
  refine ⟨answered, ?_⟩
  unfold loginSteps
  rw [bind_of_ok times]
  dsimp only
  rw [bind_of_ok starts]
  dsimp only
  rw [bind_of_ok releases, bind_of_ok tunes]
  dsimp only
  rw [bind_of_error (releaseBuffers_of_busy busy)]

/-- The tuned heartbeat falls due, but no send has to wait for it. -/
theorem prompt_of_tuneConnection {channelMax : Int} {frameMax : Int32} {heartbeat : UInt16}
    {granted : Bool} (early : Early script waited) (taken : .timedOut ∉ script.sendPolls)
    (forward : script.clock.Pairwise (· ≤ ·))
    (tunes : amqpTuneConnection channelMax frameMax heartbeat.toNat granted waited =
      .ok (.ok ()) tuned) : Prompt tuned := by
  unfold amqpTuneConnection at tunes
  rw [bind_of_ok (get_run waited)] at tunes
  split at tunes
  · cases tunes
  · obtain ⟨_, stored, sets, tunes⟩ := bind_eq_ok.mp tunes
    cases sets
    have patient : Patient { waited with
        channelMax
        reader.frameMax := frameMax
        heartbeat := if (0 : Int) > heartbeat.toNat then 0 else (heartbeat.toNat : Int) } := by
      refine ⟨fun member => taken (early.uses.sendPolls.subset member),
        forward.sublist early.uses.clock.sublist, ?_, ?_⟩
      · have bound := heartbeat.toNat_lt
        dsimp only
        split <;> omega
      · intro now member ahead finite
        rcases early.prompt with before | untimed
        · exact before.near now member ahead finite
        · exact absurd untimed.nextRecvHeartbeat finite
    obtain ⟨scheduled, second, schedules, tunes⟩ := bind_eq_ok.mp tunes
    have prompt := Prompt.of_quiet (.inl patient) (quiet_scheduleHeartbeat.ok schedules)
    cases scheduled with
    | error status => cases tunes
    | ok _ =>
        obtain ⟨awaited, third, awaits, tunes⟩ := bind_eq_ok.mp tunes
        obtain ⟨⟨_, _, _, _, _, stays⟩, _⟩ := awaits_awaitHeartbeat.ok rfl awaits
        cases awaited with
        | error status => cases tunes
        | ok _ =>
            dsimp only at tunes
            split at tunes
            · cases tunes
              exact (stays prompt).congr rfl rfl rfl
            · cases tunes

/-- A frame is cut only if a poll for sending times out or the clock runs backwards. -/
theorem late_of_tuneOkCutsFrame
    (cuts : TuneOkCutsFrame parameters memory fuel (World.new script)) :
    .timedOut ∈ script.sendPolls ∨ ¬ script.clock.Pairwise (· ≤ ·) := by
  obtain ⟨deadline, settled, tuned, encoded, filled, ⟨timed, sent, released, method, waited, fields,
    times, starts, releases, waits, isFields, rfl, tunes⟩, encodes, cuts⟩ := cuts
  by_contra both
  obtain ⟨taken, forward⟩ := not_or.mp both
  have earlyTimed := (early_of_asks (asks_timeFromNow parameters.timeout)).ok (early_new script) times
  have earlyReleased := early_releaseBuffers.ok (prepared_of_loginStart earlyTimed starts).toEarly
    releases
  obtain ⟨frame, delivered, _⟩ := (early_waitMethodList 0 _ deadline).ok earlyReleased waits
  have prompt := prompt_of_tuneConnection delivered.toEarly taken (not_not.mp forward) tunes
  have quiet := (still_encodeOutbound _).ok encodes
  obtain ⟨after, sends, busy⟩ := cuts.sends
  have still : Prompt { filled with wire := filled.wire ++ [.submitted .none encoded] } :=
    (prompt.of_quiet quiet.toQuiet).congr rfl rfl rfl
  have kept := (still.sendEncoded deadline encoded).ok (refl_of Quiet _) sends
  refine busy ?_
  rw [kept.reader]
  show filled.reader.state = .idle
  rw [quiet.reader]
  exact idle_of_tuneConnection delivered.idle tunes

theorem loginInner_aborts_iff (accepted : parameters.Accepted) :
    amqpLoginInner parameters memory fuel before = .error (.fault .abort) after ↔
      loginSteps parameters memory fuel before = .error (.fault .abort) after := by
  unfold amqpLoginInner
  rw [if_pos accepted]
  constructor
  · intro raised
    obtain aborts | ⟨result, ended, _, raised⟩ := bind_eq_error.mp raised
    · exact aborts
    · cases result with
      | ok reply => cases raised
      | error status => exact absurd rfl ((unaborted_socketClose.bind fun _ => .pure _) raised)
  · intro aborts
    exact bind_of_error aborts

/-- A login aborts if and only if the sending of `connection.tune-ok` cuts a frame. -/
theorem login_unaborted_iff (script : Script) (parameters : LoginParameters)
    (memory : LoginMemory) (fuel : Nat) (accepted : parameters.Accepted)
    (known : parameters.saslMethod.Known) :
    (∀ after, amqpLogin parameters memory fuel (World.new script) ≠
        .error (.fault .abort) after) ↔
      ¬TuneOkCutsFrame { parameters with clientProperties := some [] } memory fuel
        (World.new script) := by
  have aborts_iff (after : World) := @loginInner_aborts_iff
    { parameters with clientProperties := some [] } memory fuel (World.new script) after accepted
  constructor
  · intro unaborted cuts
    obtain ⟨after, aborts⟩ := loginSteps_of_cuts cuts
    exact unaborted after ((aborts_iff after).mpr aborts)
  · intro uncut after raised
    have aborts := (aborts_iff after).mp raised
    exact uncut (tuneOkCutsFrame_of_abort (early_new script) known rfl aborts)

end Logins

/-- `amqp_login` with heartbeats. -/
def beatingParameters : LoginParameters := { quietParameters with heartbeat := 60 }

/-- `connection.tune` comes with the first octet of a heartbeat frame. -/
def tuneAndBeatChunk : Chunk := ⟨tuneOctets ++ [8], by decide, by decide⟩

def beatChunk : Chunk := ⟨[0], by decide, by decide⟩

/-- The socket takes `connection.tune-ok` in two pieces; the rest of the heartbeat frame comes
with `connection.open-ok`. -/
def promptScript : Script :=
  { welcomingScript with
    clock := [1, 1, 1, 2, 2, 2, 3, 3, 3, 4, 4, 4]
    recvs :=
      [.data startChunk, .data tuneAndBeatChunk,
        .data ⟨[0, 0, 0, 0, 0, 0, 206] ++ openOkOctets, by decide, by decide⟩]
    sends := [.accepted 100, .accepted 1000, .accepted 5, .accepted 100, .accepted 100] }

def promptLogin : EStateM.Result Stop World RpcReply :=
  amqpLogin beatingParameters ampleMemory 20 (World.new promptScript)

/-- What a login that succeeds has set the heartbeat to, and the types of the frames it has read. -/
def loginShows : EStateM.Result Stop World RpcReply → Option (Int × List UInt8)
  | .ok (.normal _) after => some (after.heartbeat, after.decoded.map Frame.frameType)
  | _ => none

theorem login_unaborted_iff_prompt :
    loginShows promptLogin = some (60, [1, 1, 8, 1]) ∧
      ¬TuneOkCutsFrame { beatingParameters with clientProperties := some [] } ampleMemory 20
        (World.new promptScript) := by
  have shows : loginShows promptLogin = some (60, [1, 1, 8, 1]) := by decide +kernel
  refine ⟨shows, ?_⟩
  apply (login_unaborted_iff promptScript beatingParameters ampleMemory 20 (by decide)
    fun undefined => by cases undefined).mp
  intro after aborts
  rw [show promptLogin = .error (.fault .abort) after from aborts] at shows
  cases shows

/-- The socket takes five octets of `connection.tune-ok`, and the others two minutes
later, when the next octet of the heartbeat frame has come. -/
def congestedScript : Script :=
  { welcomingScript with
    clock := [1, 1, 1, 120000000001, 120000000001]
    recvs := [.data startChunk, .data tuneAndBeatChunk, .data beatChunk]
    sends := [.accepted 100, .accepted 1000, .accepted 5, .needWrite, .accepted 100]
    sendPolls := [.timedOut] }

def aborts : EStateM.Result Stop World RpcReply → Bool
  | .error (.fault .abort) _ => true
  | _ => false

theorem aborts_eq_true {result : EStateM.Result Stop World RpcReply}
    (isTrue : aborts result = true) : ∃ after, result = .error (.fault .abort) after := by
  cases result with
  | ok reply after => cases isTrue
  | error stop after =>
      cases stop with
      | blocked => cases isTrue
      | fault fault =>
          cases fault <;> first | exact ⟨after, rfl⟩ | cases isTrue

theorem congested_login_aborts :
    beatingParameters.Accepted ∧ beatingParameters.saslMethod.Known ∧
      ∃ after, amqpLogin beatingParameters ampleMemory 20 (World.new congestedScript) =
        .error (.fault .abort) after := by
  refine ⟨by decide, ?_, aborts_eq_true (by decide +kernel)⟩
  intro undefined
  cases undefined

end RabbitmqC
