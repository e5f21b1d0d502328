import RabbitmqC.Login.Phases
import RabbitmqC.Socket.Delivery

/-!
# The method frames that are sent

The frames that are passed to the socket are recorded as octets, which begin with the
type of the frame. Whatever waits for the broker passes on heartbeats at most, so
that the method frames of a login are those that its steps send.
-/

set_option autoImplicit false

namespace RabbitmqC

open Effect

/-- The encodings of the method frames that were passed to the socket. -/
def methodSubmissions : List WireEvent → List (List UInt8)
  | [] => []
  | .accepted _ :: log => methodSubmissions log
  | .submitted _ encoded :: log =>
      if encoded.head? = some amqpFrameMethod then encoded :: methodSubmissions log
      else methodSubmissions log

/-- The octets of a frame in some outbound buffer. -/
def Encodes (frame : Frame) (encoded : List UInt8) : Prop :=
  ∃ (outbound written : Buffer) (count : Nat),
    amqpFrameToBytes frame outbound.size outbound = .ok count written ∧
      encoded = written.bytes.take count

/-! ## The first octet -/

section FirstOctet

variable {mem written : Buffer} {len count : Nat}

theorem head_of_holds {octet : UInt8} (held : mem.Holds 0 [octet]) (positive : 0 < count) :
    (mem.bytes.take count).head? = some octet := by
  obtain ⟨room, same⟩ := held
  cases octets : mem.bytes with
  | nil =>
      unfold Buffer.size at room
      rw [octets] at room
      cases room
  | cons first rest =>
      rw [octets] at same
      obtain ⟨count, rfl⟩ := Nat.exists_eq_add_of_lt positive
      cases same
      rw [Nat.zero_add, List.take_succ_cons]
      rfl

theorem holds_storeOctets {offset : Nat} {data : List UInt8} {octet : UInt8}
    (held : mem.Holds 0 [octet]) (behind : 1 ≤ offset)
    (returned : storeOctets offset data mem = .ok () written) : written.Holds 0 [octet] :=
  held.write? (storeOctets_eq_ok.mp returned) (.inl behind)

/-- If the payload is stored behind the header, a frame begins with its type. -/
theorem head_of_amqpFrameToBytes {frame : Frame}
    (payload : ∀ {mem written : Buffer} {size : Nat}, mem.Holds 0 [frame.frameType] →
      payloadToBytes frame len mem = .ok size written → written.Holds 0 [frame.frameType])
    (returned : amqpFrameToBytes frame len mem = .ok count written) :
    (written.bytes.take count).head? = some frame.frameType := by
  have atLeast := (size_of_amqpFrameToBytes returned).2.1
  obtain ⟨_, first, storesType, returned⟩ := bind_eq_ok.mp returned
  obtain ⟨_, second, storesChannel, returned⟩ := bind_eq_ok.mp returned
  obtain ⟨size, third, storesPayload, returned⟩ := bind_eq_ok.mp returned
  obtain ⟨_, fourth, storesSize, returned⟩ := bind_eq_ok.mp returned
  obtain ⟨_, fifth, storesEnd, finished⟩ := bind_eq_ok.mp returned
  cases finished
  have typed : first.Holds 0 [frame.frameType] := by
    have stored := Buffer.holds_of_write? (storeOctets_eq_ok.mp storesType)
    simpa [BigEndian.bytes] using stored
  have numbered := holds_storeOctets typed (Nat.le_refl 1) storesChannel
  have filled := payload numbered storesPayload
  have sized := holds_storeOctets filled (by decide) storesSize
  have ended := holds_storeOctets sized (by simp only [headerSize]; omega) storesEnd
  apply head_of_holds ended
  simp only [headerSize, footerSize] at atLeast ⊢
  omega

theorem payload_of_method {channel : UInt16} {id : UInt32} {decoded : MethodFields id} {size : Nat}
    {octet : UInt8} (held : mem.Holds 0 [octet])
    (returned : payloadToBytes ⟨amqpFrameMethod, channel, .method id (some decoded)⟩ len mem =
      .ok size written) : written.Holds 0 [octet] := by
  obtain ⟨_, first, stores, returned⟩ := bind_eq_ok.mp returned
  obtain ⟨res, second, encodes, finished⟩ := bind_eq_ok.mp returned
  cases finished
  have room := (Buffer.write?_eq_some_iff.mp (storeOctets_eq_ok.mp stores)).1
  have sameSize := Buffer.size_of_write? (storeOctets_eq_ok.mp stores)
  have numbered := holds_storeOctets held (by decide) stores
  obtain ⟨stored, _⟩ := (amqpEncodeMethod_written encodes).write? (by
    rw [BigEndian.length_bytes] at room
    show headerSize + 4 ≤ first.size
    omega)
  exact numbered.write? stored (.inl (by show 0 + 1 ≤ headerSize + 4; decide))

end FirstOctet

theorem Encodes.head_method {channel : UInt16} {id : UInt32} {decoded : MethodFields id}
    {encoded : List UInt8}
    (encodes : Encodes ⟨amqpFrameMethod, channel, .method id (some decoded)⟩ encoded) :
    encoded.head? = some amqpFrameMethod := by
  obtain ⟨outbound, written, count, returned, rfl⟩ := encodes
  exact head_of_amqpFrameToBytes payload_of_method returned

theorem Encodes.head_heartbeat {encoded : List UInt8} (encodes : Encodes heartbeatFrame encoded) :
    encoded.head? = some amqpFrameHeartbeat := by
  obtain ⟨outbound, written, count, returned, rfl⟩ := encodes
  refine head_of_amqpFrameToBytes ?_ returned
  intro mem written size held stored
  cases stored
  exact held

theorem encodes_of_encodeOutbound {frame : Frame} {encoded : List UInt8} {before after : World}
    (returned : encodeOutbound frame before = .ok (.ok encoded) after) :
    Encodes frame encoded ∧ after.wire = before.wire := by
  unfold encodeOutbound at returned
  rw [bind_of_ok (get_run before)] at returned
  cases encodes : amqpFrameToBytes frame before.outbound.size before.outbound with
  | ok count outbound =>
      rw [encodes] at returned
      cases returned
      exact ⟨⟨before.outbound, outbound, count, encodes, rfl⟩, rfl⟩
  | error failure outbound =>
      rw [encodes] at returned
      cases failure with
      | status status => cases returned
      | fault fault => cases returned

theorem methodSubmissions_append (past later : List WireEvent) :
    methodSubmissions (past ++ later) = methodSubmissions past ++ methodSubmissions later := by
  induction past with
  | nil => rfl
  | cons event past ih =>
      cases event with
      | accepted octets => exact ih
      | submitted flags encoded =>
          simp only [List.cons_append, methodSubmissions]
          split
          · rw [ih, List.cons_append]
          · exact ih

theorem methodSubmissions_submitted {encoded : List UInt8} {wire : List WireEvent}
    (isMethod : encoded.head? = some amqpFrameMethod) (flags : SendFlags) :
    methodSubmissions (wire ++ [.submitted flags encoded]) = methodSubmissions wire ++ [encoded] := by
  rw [methodSubmissions_append]
  simp only [methodSubmissions, if_pos isMethod]

theorem methodSubmissions_other {encoded : List UInt8} {wire : List WireEvent}
    (isOther : encoded.head? ≠ some amqpFrameMethod) (flags : SendFlags) :
    methodSubmissions (wire ++ [.submitted flags encoded]) = methodSubmissions wire := by
  rw [methodSubmissions_append]
  simp only [methodSubmissions, if_neg isOther, List.append_nil]

/-! ## Calls that send no method -/

/-- No method frame was passed to the socket. -/
abbrev NoMethods : World → World → Prop := Unchanged fun world => methodSubmissions world.wire

theorem noMethods_of_wire {before after : World} (same : after.wire = before.wire) :
    NoMethods before after := congrArg methodSubmissions same

theorem noMethods_of_receives {α : Type} {run : Call α} (moves : Moves Receives run) :
    Moves NoMethods run :=
  moves.mono fun _ _ receives => noMethods_of_wire (Prod.mk.inj receives).1

theorem noMethods_of_inward {α : Type} {run : Call α} (moves : Moves Inward run) :
    Moves NoMethods run :=
  noMethods_of_receives (moves.mono fun _ _ => receives_of_inward)

theorem noMethods_of_asks {α : Type} {run : Call α} (moves : Moves Asks run) :
    Moves NoMethods run :=
  noMethods_of_inward (moves.mono fun _ _ => inward_of_asks)

section NoMethods

variable {fuel : Nat}

theorem methodSubmissions_accepted (pieces : List (List UInt8)) :
    methodSubmissions (pieces.map .accepted) = [] := by
  induction pieces with
  | nil => rfl
  | cons piece pieces ih => exact ih

theorem noMethods_of_delivering {encoded left : List UInt8} {before after : World}
    (delivering : Delivering before.wire encoded left after) : NoMethods before after := by
  obtain ⟨pieces, isWire, _⟩ := delivering
  show methodSubmissions after.wire = _
  rw [isWire, methodSubmissions_append, methodSubmissions_accepted, List.append_nil]

theorem noMethods_trySend (deadline : UInt64) (encoded : List UInt8) :
    Moves NoMethods (amqpTrySend encoded deadline fuel) := by
  intro world
  have sends := @SendRule.trySend _ encoded deadline fuel (@sendRule_delivering world.wire encoded)
  cases returned : amqpTrySend encoded deadline fuel world with
  | error stop after =>
      obtain ⟨left, delivering⟩ := sends.error delivering_start returned
      exact noMethods_of_delivering delivering
  | ok result after =>
      have reports := sends.ok delivering_start returned
      cases result with
      | ok sent => exact noMethods_of_delivering reports
      | error status =>
          obtain ⟨left, _, delivering⟩ := reports
          exact noMethods_of_delivering delivering

theorem noMethods_sendEncoded (deadline : UInt64) (encoded : List UInt8) :
    Moves NoMethods (sendEncoded deadline fuel encoded) := by
  have finishes (result : Except Status Unit) : Moves NoMethods (finishSend result) :=
    fun world => noMethods_of_wire (finishSend_wire result world)
  have loops : Moves NoMethods (sendLoop deadline fuel encoded) := by
    intro world
    have sends := @SendRule.sendLoop _ encoded deadline fuel
      (@sendRule_delivering world.wire encoded)
    cases returned : sendLoop deadline fuel encoded world with
    | error stop after =>
        obtain ⟨left, delivering⟩ := sends.error delivering_start returned
        exact noMethods_of_delivering delivering
    | ok result after =>
        have ends := sends.ok delivering_start returned
        cases result with
        | ok _ => exact noMethods_of_delivering ends
        | error status =>
            obtain ⟨left, delivering⟩ := ends
            exact noMethods_of_delivering delivering
  intro world
  rw [sendEncoded_eq]
  exact loops.bind finishes world

theorem noMethods_sendHeartbeat : Moves NoMethods (amqpSendFrame heartbeatFrame fuel) := by
  intro world
  unfold amqpSendFrame amqpSendFrameInner
  cases returned : encodeOutbound heartbeatFrame world with
  | error stop after =>
      rw [bind_of_error returned]
      exact (noMethods_of_receives (receives_encodeOutbound _)).error returned
  | ok result after =>
      rw [bind_of_ok returned]
      cases result with
      | error status => exact (noMethods_of_receives (receives_encodeOutbound _)).ok returned
      | ok encoded =>
          obtain ⟨encodes, sameWire⟩ := encodes_of_encodeOutbound returned
          have submitted : NoMethods world
              { after with wire := after.wire ++ [.submitted .none encoded] } := by
            show methodSubmissions (after.wire ++ [.submitted .none encoded]) = _
            rw [methodSubmissions_other (by rw [encodes.head_heartbeat]; decide), sameWire]
          dsimp only
          rw [bind_of_ok (modify_run _ _)]
          exact trans_of NoMethods submitted (noMethods_sendEncoded _ _ _)

theorem noMethods_sendDueHeartbeat : Moves NoMethods (sendDueHeartbeat fuel) := by
  refine Moves.bind .get fun world => ?_
  apply (noMethods_of_asks (asks_timeHasPast _)).bind
  intro past
  split
  · exact .pure
  · exact noMethods_sendHeartbeat
  · exact .pure

theorem noMethods_socketClose : Moves NoMethods amqpSocketClose := by
  refine Moves.bind .get fun world => ?_
  apply Moves.ite
  · intro _
    refine Moves.bind (noMethods_of_asks (asks_ask fun script _ _ _ => ?_)) fun closed => ?_
    · exact { Script.Uses.refl script with }
    apply Moves.ite
    · intro _
      exact Moves.bind (.modify fun _ => rfl) fun _ => .pure
    · intro _
      exact .pure
  · intro _
    exact .pure

theorem noMethods_beginRecv (deadline : UInt64) : Moves NoMethods (beginRecv deadline fuel) := by
  induction fuel with
  | zero => exact .throw
  | succ fuel ih =>
      apply noMethods_sendDueHeartbeat.bind
      intro result
      cases result with
      | error status => exact .pure
      | ok _ =>
          refine Moves.bind .get fun world => ?_
          apply (noMethods_of_inward (inward_recvWithTimeout _ fuel)).bind
          intro received
          split
          · refine Moves.bind .get fun later => ?_
            refine .ite (fun _ => ?_) fun _ => .ite (fun _ => .pure) fun _ =>
              .ite (fun _ => ih) fun _ => .throw
            exact noMethods_socketClose.bind fun _ => .pure
          · exact .pure

theorem noMethods_maybeReleaseBuffersOnChannel (channel : UInt16) :
    Moves NoMethods (amqpMaybeReleaseBuffersOnChannel channel) := by
  apply Moves.get_bind
  intro world
  cases world.queue.find (fun frame => channel == frame.channel) world.queue.reach
    world.queue.first with
  | some link =>
      split
      · exact rfl
      · exact rfl
  | none =>
      split
      · exact rfl
      · dsimp only
        split
        · exact rfl
        · exact rfl

theorem noMethods_releaseEach (channels : List UInt16) : Moves NoMethods (releaseEach channels) := by
  induction channels with
  | nil => exact .pure
  | cons channel channels ih =>
      exact (noMethods_maybeReleaseBuffersOnChannel channel).bind fun _ => ih

theorem noMethods_releaseBuffers : Moves NoMethods amqpReleaseBuffers := by
  refine Moves.bind .get fun world => ?_
  exact .ite (fun _ => .throw) fun _ => noMethods_releaseEach _

theorem noMethods_maybeReleaseBuffers : Moves NoMethods amqpMaybeReleaseBuffers := by
  refine Moves.bind .get fun world => ?_
  exact .ite (fun _ => noMethods_releaseBuffers) fun _ => .pure

theorem noMethods_drainToFrame : Moves NoMethods (drainToFrame fuel) := by
  induction fuel with
  | zero => exact .throw
  | succ fuel ih =>
      refine Moves.bind .get fun world => ?_
      apply Moves.ite
      · intro _
        apply (noMethods_of_inward inward_consumeOneFrame).bind
        intro consumed
        cases consumed with
        | error status => exact .pure
        | ok frame =>
            apply Moves.ite
            · intro _
              exact (noMethods_maybeReleaseBuffersOnChannel 0).bind fun _ => ih
            · intro _
              exact .ite (fun _ => .pure) fun _ => ih
      · intro _
        exact .pure

theorem noMethods_waitFrameInner (deadline : UInt64) :
    Moves NoMethods (waitFrameInner deadline fuel) := by
  induction fuel with
  | zero => exact .throw
  | succ fuel ih =>
      apply noMethods_drainToFrame.bind
      intro drained
      cases drained with
      | error status => exact .pure
      | ok found =>
          cases found with
          | some frame => exact .pure
          | none =>
              apply (noMethods_beginRecv deadline).bind
              intro received
              cases received with
              | error status => exact .pure
              | ok _ => exact ih

theorem noMethods_waitFrameNoblock (timeout : Option Timeval) :
    Moves NoMethods (amqpSimpleWaitFrameNoblock timeout fuel) := by
  apply (noMethods_of_asks (asks_timeFromNow timeout)).bind
  intro result
  cases result with
  | error status => exact .pure
  | ok deadline =>
      apply Moves.get_bind
      intro world
      cases world.queue.front with
      | some link => exact rfl
      | none => exact noMethods_waitFrameInner deadline world

theorem noMethods_waitMethodList (expectedChannel : UInt16) (expectedMethods : List UInt32)
    (deadline : UInt64) :
    Moves NoMethods (amqpSimpleWaitMethodList expectedChannel expectedMethods deadline fuel) := by
  apply (noMethods_of_asks (asks_timeTvUntil deadline)).bind
  intro tv
  cases tv with
  | error status => exact .pure
  | ok tv =>
      apply (noMethods_waitFrameNoblock tv).bind
      intro result
      cases result with
      | error status => exact .pure
      | ok frame =>
          dsimp only
          cases expectedMethod? expectedChannel expectedMethods frame with
          | none => exact .pure
          | some method => exact .pure

theorem noMethods_waitReply (channel : UInt16) (expectedReplyIds : List UInt32)
    (deadline : UInt64) : Moves NoMethods (waitReply channel expectedReplyIds deadline fuel) := by
  induction fuel with
  | zero => exact .throw
  | succ fuel ih =>
      apply (noMethods_waitFrameInner deadline).bind
      intro result
      cases result with
      | error status =>
          show Moves NoMethods _
          split
          · exact noMethods_socketClose.bind fun _ => .pure
          · exact .pure
          · rename_i impossible
            cases impossible
      | ok frame =>
          dsimp only
          cases rpcReply? channel expectedReplyIds frame with
          | some reply => exact .pure
          | none =>
              apply (noMethods_of_inward (inward_queueReceived frame)).bind
              intro queued
              cases queued with
              | error status => exact .pure
              | ok _ => exact ih

/-! ## The steps of a login -/

theorem noMethods_awaitStart (deadline : UInt64) : Moves NoMethods (awaitStart deadline fuel) := by
  apply ((noMethods_trySend deadline _).bind ?_).bind
  · intro res
    apply Moves.ite
    · intro _
      exact .pure
    · intro _
      apply (noMethods_waitMethodList 0 _ deadline).bind
      intro result
      cases result with
      | error status => exact .pure
      | ok method =>
          dsimp only
          cases method.fields? amqpConnectionStartMethod with
          | none => exact .throw
          | some start => exact .pure
  · intro result
    cases result with
    | error status => exact .pure
    | ok sent => exact .pure

theorem noMethods_runCloner {α : Type} (clone : Cloner α) (allocs : List Bool) :
    Moves NoMethods (runCloner clone allocs) := by
  unfold runCloner
  split
  · exact .pure
  · exact .pure
  · exact .throw

theorem noMethods_acceptStart (saslMethod : SaslMethod) (start : ConnectionStart)
    (allocs : List Bool) : Moves NoMethods (acceptStart saslMethod start allocs) := by
  apply Moves.ite
  · intro _
    exact .pure
  · intro _
    apply (noMethods_runCloner _ allocs).bind
    intro cloned
    cases cloned with
    | error status => exact .pure
    | ok cloned =>
        refine Moves.bind (.modify fun _ => rfl) fun _ => ?_
        split
        · exact .throw
        · exact .pure
        · exact .pure

theorem noMethods_prepareStartOk (parameters : LoginParameters) (allocs : List Bool) :
    Moves NoMethods (prepareStartOk parameters allocs) := by
  apply (noMethods_of_inward (inward_linkPool 0)).bind
  intro granted
  apply Moves.ite
  · intro _
    apply (noMethods_runCloner _ allocs).bind
    intro responded
    cases responded with
    | error status => exact .pure
    | ok responded =>
        apply (noMethods_runCloner _ responded.2).bind
        intro merged
        cases merged with
        | error status => exact .pure
        | ok merged => exact Moves.bind (.modify fun _ => rfl) fun _ => .pure
  · intro _
    exact .pure

theorem noMethods_storeProperties (parameters : LoginParameters) (allocs : List Bool)
    (deadline : UInt64) : Moves NoMethods (storeProperties parameters allocs deadline fuel) := by
  apply (noMethods_awaitStart deadline).bind
  intro result
  cases result with
  | error status => exact .pure
  | ok start =>
      apply (noMethods_acceptStart _ start allocs).bind
      intro result
      cases result with
      | error status => exact .pure
      | ok allocs => exact noMethods_prepareStartOk parameters allocs

theorem noMethods_tuneConnection (channelMax : Int) (frameMax : Int32) (heartbeat : Int)
    (granted : Bool) :
    Moves NoMethods (amqpTuneConnection channelMax frameMax heartbeat granted) := by
  apply Moves.get_bind
  intro world
  by_cases busy : world.reader.state ≠ .idle
  · rw [if_pos busy]
    rfl
  · rw [if_neg busy]
    -- Storing the values leaves the wire as it is.
    show NoMethods { world with
      channelMax, reader.frameMax := frameMax
      heartbeat := if 0 > heartbeat then 0 else heartbeat } _
    rw [bind_of_ok (set_run _ _)]
    refine Moves.bind (noMethods_of_receives receives_scheduleHeartbeat) (fun scheduled => ?_) _
    cases scheduled with
    | error status => exact .pure
    | ok _ =>
        apply (noMethods_of_inward inward_awaitHeartbeat).bind
        intro awaited
        cases awaited with
        | error status => exact .pure
        | ok _ =>
            apply Moves.ite
            · intro _
              exact Moves.bind (.modify fun _ => rfl) fun _ => .pure
            · intro _
              exact .pure

end NoMethods

/-- A method that was sent is the only one that was passed to the socket. -/
theorem sendMethodInner_submits {channel : UInt16} {id : UInt32} {decoded : MethodFields id}
    {flags : SendFlags} {deadline : UInt64} {fuel : Nat} {before after : World}
    (returned : amqpSendMethodInner channel id decoded flags deadline fuel before =
      .ok (.ok ()) after) :
    ∃ encoded, Encodes ⟨amqpFrameMethod, channel, .method id (some decoded)⟩ encoded ∧
      methodSubmissions after.wire = methodSubmissions before.wire ++ [encoded] := by
  obtain ⟨result, middle, encodes, returned⟩ := bind_eq_ok.mp returned
  cases result with
  | error status => cases returned
  | ok encoded =>
      obtain ⟨isEncoding, sameWire⟩ := encodes_of_encodeOutbound encodes
      obtain ⟨_, submitted, submits, returned⟩ := bind_eq_ok.mp returned
      cases submits
      refine ⟨encoded, isEncoding, ?_⟩
      have sent := (noMethods_sendEncoded deadline encoded).ok returned
      calc methodSubmissions after.wire
          = methodSubmissions (middle.wire ++ [WireEvent.submitted flags encoded]) := sent
        _ = methodSubmissions middle.wire ++ [encoded] :=
            methodSubmissions_submitted isEncoding.head_method flags
        _ = methodSubmissions before.wire ++ [encoded] := by rw [sameWire]

end RabbitmqC
