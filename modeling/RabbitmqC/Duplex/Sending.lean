import RabbitmqC.Duplex.Calls
import RabbitmqC.Publish.Loopback
import RabbitmqC.Socket.PollDeadlines

/-!
# Sending by any call

Heartbeats are sent while a call waits, methods by a call that then waits for the reply.
Whichever calls are made, the socket accepts the octets of the frames in the order in which
they were passed to `amqp_send_frame_inner`, as long as no call follows an unfinished frame.
-/

set_option autoImplicit false

namespace RabbitmqC

open Effect

/-! ## Frames that were passed on -/

/-- A frame in a buffer of `limit` octets, which is read back by a peer with this limit. -/
structure Conveyed (limit : Nat) (frame : Frame) : Prop where
  typed : frame.frameType ≠ 0
  arrives : Arrives limit frame.octets frame.arrived

theorem typed_of_amqpFrameToBytes {frame : Frame} {len count : Nat} {mem written : Buffer}
    (returned : amqpFrameToBytes frame len mem = .ok count written) : frame.frameType ≠ 0 := by
  obtain ⟨_, _, _, returned⟩ := bind_eq_ok.mp returned
  obtain ⟨_, _, _, returned⟩ := bind_eq_ok.mp returned
  obtain ⟨size, _, stores, _⟩ := bind_eq_ok.mp returned
  intro zero
  unfold payloadToBytes at stores
  rw [zero] at stores
  cases stores

theorem conveyed_of_amqpFrameToBytes {frame : Frame} {count : Nat} {mem written : Buffer}
    (large : 20 ≤ mem.size) (bounded : mem.size < 2 ^ 31)
    (representable : frame.payload.Representable)
    (returned : amqpFrameToBytes frame mem.size mem = .ok count written) :
    written.bytes.take count = frame.octets ∧ Conveyed mem.size frame := by
  obtain ⟨octets, isCount, fits, reads⟩ :=
    amqpFrameToBytes_eq_ok large bounded representable returned
  rw [isCount] at fits
  exact ⟨octets, typed_of_amqpFrameToBytes returned, .intro fits reads⟩

/-- A buffer that is not written to its end keeps its size as well. -/
theorem encodeOutbound_size (frame : Frame) :
    Moves (Unchanged fun world => world.outbound.size) (encodeOutbound frame) := by
  refine Moves.get_bind fun world => ?_
  have alike := @lockstep_amqpFrameToBytes world.outbound.size frame world.outbound.size
    world.outbound world.outbound ⟨rfl, rfl⟩
  cases encodes : amqpFrameToBytes frame world.outbound.size world.outbound with
  | ok count outbound => exact (size_of_amqpFrameToBytes encodes).1
  | error failure outbound =>
      rw [encodes] at alike
      have isSize : outbound.size = world.outbound.size := by
        cases alike with
        | error same => exact same.1
      cases failure with
      | status status => exact isSize
      | fault fault => exact refl_of (Unchanged fun world : World => world.outbound.size) world

/-! ## The sending side of a connection -/

/-- Every frame passed to `amqp_send_frame_inner` fits the buffer of `limit` octets, and
`left` is what remains to be sent while the socket is open. -/
structure Dispatching (limit : Nat) (left : List UInt8) (world : World) : Prop where
  sending : Sending left world
  size : world.outbound.size = limit
  frames : ∃ frames : List Frame, submittedFrames world.wire = frames.map Frame.octets ∧
    ∀ frame ∈ frames, Conveyed limit frame

/-- A call has ended, maybe in the middle of a frame. -/
def Dispatched (limit : Nat) (world : World) : Prop := ∃ left, Dispatching limit left world

section Parts

variable {limit : Nat} {left : List UInt8} {before after world : World} {fuel : Nat}

theorem Dispatching.of_inward (dispatching : Dispatching limit left before)
    (inward : Inward before after) : Dispatching limit left after := by
  obtain ⟨same, outbound⟩ := Prod.mk.inj inward
  obtain ⟨sending, size, frames⟩ := dispatching
  refine ⟨sendRule_sending.receives same sending, (congrArg Buffer.size outbound).trans size, ?_⟩
  rwa [show after.wire = before.wire from congrArg Prod.fst same]

theorem Dispatching.dispatched (dispatching : Dispatching limit left world) :
    Dispatched limit world := ⟨left, dispatching⟩

theorem Dispatching.inward {α : Type} {run : Call α} (along : Moves Inward run) :
    Triple (Dispatching limit left) run (fun _ => Dispatching limit left)
      (fun _ => Dispatched limit) := by
  have keeps : Keeps (Dispatching limit left) run :=
    along.keeps fun _ _ moved dispatching => dispatching.of_inward moved
  exact keeps.raise fun _ _ => Dispatching.dispatched

/-- While a frame is sent, no other is passed on. -/
theorem sendRule_same (sent : List (List UInt8)) :
    SendRule fun left world => Sending left world ∧ submittedFrames world.wire = sent where
  receives := by
    rintro left before after receives ⟨sending, same⟩
    have wire : after.wire = before.wire := congrArg Prod.fst receives
    exact ⟨sendRule_sending.receives receives sending, wire ▸ same⟩
  accept := by
    rintro piece left world isOpen ⟨sending, same⟩
    refine ⟨sendRule_sending.accept isOpen sending, ?_⟩
    dsimp only
    rw [submittedFrames_append, same]
    exact List.append_nil _

theorem sendEncoded_dispatches (deadline : UInt64) (encoded : List UInt8) :
    Triple (Dispatching limit encoded) (sendEncoded deadline fuel encoded)
      (Succeeds (fun _ => Dispatching limit []) (Dispatched limit)) (fun _ => Dispatched limit) := by
  rintro world ⟨sending, size, frames, submitted, conveyed⟩
  have rule := sendRule_same (frames.map Frame.octets)
  have buffered : Moves Buffered (sendEncoded deadline fuel encoded) :=
    buffered_sendEncoded deadline encoded
  have sends : Triple (fun world => Sending encoded world ∧
        submittedFrames world.wire = frames.map Frame.octets)
      (sendLoop deadline fuel encoded >>= finishSend)
      (Succeeds (fun _ world => Sending [] world ∧
        submittedFrames world.wire = frames.map Frame.octets)
        (fun world => ∃ left, Sending left world ∧
          submittedFrames world.wire = frames.map Frame.octets))
      (fun _ world => ∃ left, Sending left world ∧
        submittedFrames world.wire = frames.map Frame.octets) := by
    refine Triple.bind rule.sendLoop fun result => ?_
    cases result with
    | error status => exact .pure fun _ failed => failed
    | ok _ =>
        refine (rule.moves receives_scheduleHeartbeat).weaken fun result _ sent => ?_
        cases result with
        | ok _ => exact sent
        | error status => exact ⟨[], sent⟩
  have ends (left : List UInt8) (after : World) (isSize : after.outbound = world.outbound)
      (sent : Sending left after ∧ submittedFrames after.wire = frames.map Frame.octets) :
      Dispatching limit left after :=
    ⟨sent.1, (congrArg Buffer.size isSize).trans size, frames, sent.2, conveyed⟩
  have same := sendEncoded_eq deadline fuel encoded world
  cases returned : sendEncoded deadline fuel encoded world with
  | error stop after =>
      obtain ⟨left, sent⟩ := sends.error ⟨sending, submitted⟩ (same.symm.trans returned)
      exact ⟨left, ends left after (buffered.error returned) sent⟩
  | ok result after =>
      have sent := sends.ok ⟨sending, submitted⟩ (same.symm.trans returned)
      cases result with
      | ok _ => exact ends [] after (buffered.ok returned) sent
      | error status =>
          obtain ⟨left, sent⟩ := sent
          exact ⟨left, ends left after (buffered.ok returned) sent⟩

theorem sendFrameInner_dispatches (large : 20 ≤ limit) (bounded : limit < 2 ^ 31) {frame : Frame}
    (representable : frame.payload.Representable) (flags : SendFlags) (deadline : UInt64) :
    Triple (Dispatching limit []) (amqpSendFrameInner frame flags deadline fuel)
      (Succeeds (fun _ => Dispatching limit []) (Dispatched limit)) (fun _ => Dispatched limit) := by
  -- The frame that was encoded is one that arrives.
  have encodes : Triple (Dispatching limit []) (encodeOutbound frame)
      (fun result world => Dispatching limit [] world ∧
        ∀ encoded, result = .ok encoded → encoded = frame.octets ∧ Conveyed limit frame)
      (fun _ => Dispatched limit) := by
    rintro world ⟨sending, size, frames⟩
    have sized : Moves (Unchanged fun world => world.outbound.size) (encodeOutbound frame) :=
      encodeOutbound_size frame
    have receives : Moves Receives (encodeOutbound frame) := receives_encodeOutbound frame
    have kept (after : World) (moved : Receives world after)
        (isSize : after.outbound.size = world.outbound.size) : Dispatching limit [] after := by
      have wire : after.wire = world.wire := congrArg Prod.fst moved
      refine ⟨sendRule_sending.receives moved sending, isSize.trans size, ?_⟩
      rwa [wire]
    cases returned : encodeOutbound frame world with
    | error stop after => exact ⟨[], kept after (receives.error returned) (sized.error returned)⟩
    | ok result after =>
        refine ⟨kept after (receives.ok returned) (sized.ok returned), ?_⟩
        rintro encoded rfl
        unfold encodeOutbound at returned
        rw [bind_of_ok (get_run world)] at returned
        subst size
        cases stores : amqpFrameToBytes frame world.outbound.size world.outbound with
        | ok count outbound =>
            rw [stores] at returned
            cases returned
            exact conveyed_of_amqpFrameToBytes large bounded representable stores
        | error failure outbound =>
            rw [stores] at returned
            cases failure <;> cases returned
  refine Triple.bind encodes fun result => ?_
  cases result with
  | error status => exact .pure fun _ both => both.1.dispatched
  | ok encoded =>
      refine Triple.bind (.modify fun world both => ?_) fun _ =>
        sendEncoded_dispatches deadline encoded
      obtain ⟨⟨sending, size, frames, submitted, conveyed⟩, isEncoded⟩ := both
      obtain ⟨rfl, isConveyed⟩ := isEncoded encoded rfl
      refine ⟨⟨sending.1.submit flags _, fun isOpen => (sending.2 isOpen).submit⟩, size,
        frames ++ [frame], ?_, ?_⟩
      · simp [submittedFrames, submitted]
      · intro other member
        rcases List.mem_append.mp member with earlier | last
        · exact conveyed other earlier
        · exact List.mem_singleton.mp last ▸ isConveyed

/-! ## Waiting -/

theorem inward_of_links (links : Links before after) : Inward before after := by
  obtain ⟨script, queue, poolTable, uses, rfl⟩ := links
  rfl

/-- A closed socket accepts nothing more. -/
theorem socketClose_dispatches : Keeps (Dispatched limit) amqpSocketClose := by
  refine .read_bind fun world => .ite (fun _ => ?_) fun _ => .pure fun _ ends => ends
  have asks : Moves Asks (ask (·.closes) fun script closes => { script with closes }) :=
    asks_ask fun script _ _ _ => { Script.Uses.refl script with }
  have asked : Keeps (Dispatched limit)
      (ask (·.closes) fun script closes => { script with closes }) := by
    rintro world ⟨left, dispatching⟩
    have triple := Dispatching.inward (asks.mono fun _ _ => inward_of_asks) dispatching
    cases returned : ask (·.closes) (fun script closes => { script with closes }) world with
    | ok value after =>
        rw [returned] at triple
        exact ⟨left, triple⟩
    | error stop after =>
        rw [returned] at triple
        exact triple
  refine Triple.bind asked fun closed => .ite (fun _ => ?_) fun _ => .pure fun _ ends => ends
  refine Triple.bind (.modify fun world ends => ?_) fun _ => .pure fun _ ends => ends
  obtain ⟨left, sending, size, frames⟩ := ends
  exact ⟨left, ⟨sending.1, fun isOpen => by cases isOpen⟩, size, frames⟩

theorem beginRecv_dispatches (large : 20 ≤ limit) (bounded : limit < 2 ^ 31) (deadline : UInt64) :
    Triple (Dispatching limit []) (beginRecv deadline fuel)
      (Succeeds (fun _ => Dispatching limit []) (Dispatched limit)) (fun _ => Dispatched limit) := by
  induction fuel with
  | zero => exact .throw fun _ => Dispatching.dispatched
  | succ fuel ih =>
      have representable : heartbeatFrame.payload.Representable := trivial
      have heartbeat : Triple (Dispatching limit []) (sendDueHeartbeat fuel)
          (Succeeds (fun _ => Dispatching limit []) (Dispatched limit))
          (fun _ => Dispatched limit) := by
        refine .read_bind fun world => ?_
        have past := (asks_timeHasPast world.nextSendHeartbeat).mono fun _ _ => inward_of_asks
        refine Triple.bind (Dispatching.inward past) fun past => ?_
        split
        · exact .pure fun _ => Dispatching.dispatched
        · exact sendFrameInner_dispatches large bounded representable _ _
        · exact .pure fun _ dispatching => dispatching
      refine Triple.bind heartbeat fun result => ?_
      cases result with
      | error status => exact .pure fun _ ends => ends
      | ok _ =>
          refine .read_bind fun world => ?_
          refine Triple.bind (Dispatching.inward (inward_recvWithTimeout _ fuel)) fun received => ?_
          split
          · refine .read_bind fun later => .ite (fun _ => ?_) fun _ => .ite (fun _ => ?_) fun _ =>
              .ite (fun _ => ih) fun _ => ?_
            · refine Triple.bind (socketClose_dispatches.strengthen fun _ =>
                Dispatching.dispatched) fun _ => ?_
              exact .pure fun _ ends => ends
            · exact .pure fun _ => Dispatching.dispatched
            · exact .throw fun _ => Dispatching.dispatched
          · cases received with
            | ok _ => exact .pure fun _ dispatching => dispatching
            | error status => exact .pure fun _ => Dispatching.dispatched

theorem waitFrameInner_dispatches (large : 20 ≤ limit) (bounded : limit < 2 ^ 31)
    (deadline : UInt64) :
    Triple (Dispatching limit []) (waitFrameInner deadline fuel)
      (Succeeds (fun _ => Dispatching limit []) (Dispatched limit)) (fun _ => Dispatched limit) := by
  induction fuel with
  | zero => exact .throw fun _ => Dispatching.dispatched
  | succ fuel ih =>
      refine Triple.bind (Dispatching.inward inward_drainToFrame) fun drained => ?_
      cases drained with
      | error status => exact .pure fun _ => Dispatching.dispatched
      | ok found =>
          cases found with
          | some frame => exact .pure fun _ dispatching => dispatching
          | none =>
              refine Triple.bind (beginRecv_dispatches large bounded deadline) fun received => ?_
              cases received with
              | error status => exact .pure fun _ ends => ends
              | ok _ => exact ih

/-- Frames whose tables have short keys, with flags of their class only. -/
abbrev Frame.Representable (frame : Frame) : Prop := frame.payload.Representable

theorem callParts_dispatching (large : 20 ≤ limit) (bounded : limit < 2 ^ 31) :
    CallParts Frame.Representable (Dispatching limit []) (fun _ => Dispatching limit [])
      (Dispatched limit) where
  inv_fails := Dispatching.dispatched
  putAway dispatching := dispatching
  asks asks dispatching := dispatching.of_inward (inward_of_asks asks)
  close := socketClose_dispatches
  send representable flags deadline _ :=
    sendFrameInner_dispatches large bounded representable flags deadline
  wait deadline _ := waitFrameInner_dispatches large bounded deadline
  tryRecv fuel := by
    refine (Dispatching.inward (inward_tryRecv fuel)).weaken fun result world dispatching => ?_
    cases result with
    | ok _ => exact dispatching
    | error status => exact dispatching.dispatched
  queueReceived frame := by
    have links := (links_queueReceived frame).mono fun _ _ => inward_of_links
    refine (Dispatching.inward links).weaken fun result world dispatching => ?_
    cases result with
    | ok _ => exact dispatching
    | error status => exact dispatching.dispatched
  queueFrame frame := by
    have links := (links_amqpQueueFrame frame).mono fun _ _ => inward_of_links
    refine (Dispatching.inward links).weaken fun result world dispatching => ?_
    cases result with
    | ok _ => exact dispatching
    | error status => exact dispatching.dispatched
  putBackFrame frame := by
    have links := (links_amqpPutBackFrame frame).mono fun _ _ => inward_of_links
    exact (Dispatching.inward links).weaken fun _ _ => Dispatching.dispatched
  front dispatching _ := dispatching.of_inward rfl
  find dispatching _ := dispatching.of_inward rfl

end Parts

/-! ## Runs -/

/-- Each call is made behind a frame that was sent in full, or on a closed socket. -/
theorem CallRun.dispatched {limit : Nat} {opened : World} {meets : LibraryCall → World → Prop}
    (large : 20 ≤ limit) (bounded : limit < 2 ^ 31) (size : opened.outbound.size = limit)
    (silent : opened.wire = []) (settled : ∀ call world, meets call world → NothingAbandoned world)
    (sound : ∀ call world, meets call world → call.Sound Frame.Representable)
    {stop : Option Stop} {world : World} {returned : List Frame}
    (run : CallRun meets opened stop world returned) : Dispatched limit world := by
  refine run.induct ?_ (fun call world ends isMet => ?_) fun call world isMet fuel =>
    (callParts_dispatching large bounded).run (sound call world isMet)
  · have orderly : Orderly opened.wire [] := silent ▸ .nil
    refine ⟨[], ⟨orderly.disciplined, fun _ => orderly⟩, size, [], ?_, by simp⟩
    rw [silent]
    rfl
  · obtain ⟨left, dispatching⟩ := ends
    have stalled : Stalled world := ⟨left, dispatching.sending⟩
    exact ⟨stalled.sending (settled call world isMet), dispatching.size, dispatching.frames⟩

theorem flatten_submittedFrames (log : List WireEvent) :
    (submittedFrames log).flatten = submittedOctets log := by
  induction log with
  | nil => rfl
  | cons event log ih =>
      cases event with
      | accepted octets => exact ih
      | submitted flags encoded => exact congrArg (encoded ++ ·) ih

/-- The frames that were passed on, and the octets of theirs that went out. -/
theorem Dispatched.frames {limit : Nat} {world : World} (dispatched : Dispatched limit world) :
    ∃ frames : List Frame, submittedFrames world.wire = frames.map Frame.octets ∧
      (∀ frame ∈ frames, Conveyed limit frame) ∧
      acceptedOctets world.wire <+: (frames.map Frame.octets).flatten := by
  obtain ⟨left, sending, size, frames, submitted, conveyed⟩ := dispatched
  refine ⟨frames, submitted, conveyed, ?_⟩
  rw [← submitted, flatten_submittedFrames]
  exact sending.1.inOrder world.wire List.prefix_rfl

end RabbitmqC
