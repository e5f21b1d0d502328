import RabbitmqC.Socket.SendRule

/-!
# The octets on the wire

What the socket accepts, compared with the frames that were passed to
`amqp_send_frame_inner`. Within a call nothing comes out of order, but a call that
fails in the middle of a frame leaves the socket open, and the next one goes on
behind the unfinished frame.
-/

set_option autoImplicit false

namespace RabbitmqC

open Effect

/-! ## Logs -/

def acceptedOctets : List WireEvent → List UInt8
  | [] => []
  | .accepted octets :: log => octets ++ acceptedOctets log
  | .submitted _ _ :: log => acceptedOctets log

/-- The complete encodings of the frames, in call order. -/
def submittedOctets : List WireEvent → List UInt8
  | [] => []
  | .accepted _ :: log => submittedOctets log
  | .submitted _ encoded :: log => encoded ++ submittedOctets log

@[simp] theorem acceptedOctets_append (past later : List WireEvent) :
    acceptedOctets (past ++ later) = acceptedOctets past ++ acceptedOctets later := by
  induction past with
  | nil => rfl
  | cons event past ih => cases event <;> simp [acceptedOctets, ih]

@[simp] theorem submittedOctets_append (past later : List WireEvent) :
    submittedOctets (past ++ later) = submittedOctets past ++ submittedOctets later := by
  induction past with
  | nil => rfl
  | cons event past ih => cases event <;> simp [submittedOctets, ih]

/-- At every moment the accepted octets are a prefix of the submitted ones, and
nothing is accepted any more once a frame follows one that was not sent in full. -/
structure Disciplined (log : List WireEvent) : Prop where
  inOrder : ∀ past, past <+: log → acceptedOctets past <+: submittedOctets past
  silentBehind : ∀ past flags encoded later, log = past ++ .submitted flags encoded :: later →
    acceptedOctets past ≠ submittedOctets past → acceptedOctets later = []

/-- A log in which every frame follows a complete one, with what is left to send
of the last. -/
inductive Orderly : List WireEvent → List UInt8 → Prop where
  | nil : Orderly [] []
  | submit {log : List WireEvent} {flags : SendFlags} {encoded : List UInt8} :
      Orderly log [] → Orderly (log ++ [.submitted flags encoded]) encoded
  | accept {log : List WireEvent} {sent left : List UInt8} :
      Orderly log (sent ++ left) → Orderly (log ++ [.accepted sent]) left

section Logs

variable {log : List WireEvent} {left : List UInt8}

theorem Orderly.accepted_append (orderly : Orderly log left) :
    acceptedOctets log ++ left = submittedOctets log := by
  induction orderly with
  | nil => rfl
  | submit _ ih => simpa [acceptedOctets, submittedOctets] using ih
  | accept _ ih => simpa [acceptedOctets, submittedOctets] using ih

/-- Two ways to split off the last event. -/
private theorem split_concat {past later : List WireEvent} {event last : WireEvent}
    (same : log ++ [last] = past ++ event :: later) :
    (past = log ∧ event = last ∧ later = []) ∨
      ∃ middle, later = middle ++ [last] ∧ log = past ++ event :: middle := by
  rcases List.eq_nil_or_concat later with rfl | ⟨middle, final, rfl⟩
  · obtain ⟨rfl, rfl⟩ := List.append_inj' same rfl |>.imp_right (by simpa using ·)
    exact .inl ⟨rfl, rfl, rfl⟩
  · rw [List.concat_eq_append, ← List.cons_append, ← List.append_assoc] at same
    obtain ⟨rfl, single⟩ := List.append_inj' same rfl
    obtain rfl : last = final := by simpa using single
    exact .inr ⟨middle, List.concat_eq_append, rfl⟩

theorem Orderly.settled (orderly : Orderly log left) {past later : List WireEvent}
    {flags : SendFlags} {encoded : List UInt8}
    (split : log = past ++ .submitted flags encoded :: later) :
    acceptedOctets past = submittedOctets past := by
  induction orderly generalizing later with
  | nil => simp at split
  | submit before ih =>
      rcases split_concat split with ⟨rfl, _, _⟩ | ⟨middle, _, same⟩
      · simpa using before.accepted_append
      · exact ih same
  | accept before ih =>
      rcases split_concat split with ⟨_, event, _⟩ | ⟨middle, _, same⟩
      · cases event
      · exact ih same

theorem Disciplined.submit (disciplined : Disciplined log) (flags : SendFlags)
    (encoded : List UInt8) : Disciplined (log ++ [.submitted flags encoded]) where
  inOrder := by
    intro past shorter
    rcases List.prefix_concat_iff.mp shorter with rfl | earlier
    · have before := disciplined.inOrder log List.prefix_rfl
      simpa [acceptedOctets, submittedOctets] using before.trans (List.prefix_append _ _)
    · exact disciplined.inOrder past earlier
  silentBehind := by
    intro past flags encoded later split partway
    rcases split_concat split with ⟨_, _, rfl⟩ | ⟨middle, rfl, same⟩
    · rfl
    · simpa [acceptedOctets] using disciplined.silentBehind past _ _ middle same partway

theorem Orderly.disciplined (orderly : Orderly log left) : Disciplined log := by
  induction orderly with
  | nil =>
      refine ⟨fun past shorter => ?_, fun past _ _ later split => ?_⟩
      · rw [List.prefix_nil.mp shorter]
        exact List.prefix_rfl
      · simp at split
  | submit _ ih => exact ih.submit _ _
  | @accept log sent left before ih =>
      have after := Orderly.accept before
      refine ⟨fun past shorter => ?_, fun past _ _ later split partway => ?_⟩
      · rcases List.prefix_concat_iff.mp shorter with rfl | earlier
        · exact ⟨left, after.accepted_append⟩
        · exact ih.inOrder past earlier
      · exact absurd (after.settled split) partway

end Logs

/-! ## Calls in progress -/

/-- While the socket is open, `left` is what remains of the frames submitted so far. -/
def Sending (left : List UInt8) (world : World) : Prop :=
  Disciplined world.wire ∧ (world.socketOpen = true → Orderly world.wire left)

/-- A call has given up, or does not return. -/
def Stalled (world : World) : Prop := ∃ left, Sending left world

theorem sendRule_sending : SendRule Sending where
  receives := by
    intro left before after receives sending
    obtain ⟨wire, socketOpen⟩ := Prod.mk.inj receives
    unfold Sending
    rwa [wire, socketOpen]
  accept := by
    intro sent left world isOpen sending
    have orderly := Orderly.accept (sending.2 isOpen)
    exact ⟨orderly.disciplined, fun _ => orderly⟩

section Calls

variable {left encoded : List UInt8} {deadline : UInt64} {fuel : Nat}

/-- A call has ended with everything sent, or it has failed. -/
def Sent {α : Type} : Except Status α → World → Prop
  | .ok _, world => Sending [] world
  | .error _, world => Stalled world

theorem sent_of_sending {α : Type} {result : Except Status α} {world : World}
    (sending : Sending [] world) : Sent result world := by
  cases result with
  | ok _ => exact sending
  | error _ => exact ⟨[], sending⟩

theorem sent_sendEncoded :
    Triple (Sending encoded) (sendEncoded deadline fuel encoded) Sent (fun _ => Stalled) := by
  have sends : Triple (Sending encoded) (sendLoop deadline fuel encoded >>= finishSend) Sent
      (fun _ => Stalled) := by
    apply Triple.bind sendRule_sending.sendLoop
    intro result
    cases result with
    | error status => exact .pure fun _ stalled => stalled
    | ok _ =>
        -- Nothing is left, so that a failing timer no longer matters.
        exact (sendRule_sending.moves receives_scheduleHeartbeat).weaken
          fun _ _ => sent_of_sending
  intro world sending
  rw [sendEncoded_eq]
  exact sends sending

theorem sent_sendFrameInner (frame : Frame) (flags : SendFlags) :
    Triple (Sending []) (amqpSendFrameInner frame flags deadline fuel) Sent (fun _ => Stalled) := by
  refine Triple.bind (sendRule_sending.moves (receives_encodeOutbound frame)) fun result => ?_
  cases result with
  | error status => exact .pure fun _ sending => ⟨[], sending⟩
  | ok encoded =>
      refine Triple.bind (.modify fun world sending => ?_) fun _ => sent_sendEncoded
      exact ⟨sending.1.submit flags encoded, fun isOpen => (sending.2 isOpen).submit⟩

theorem sent_publishBody (channel : UInt16) (usableBodyPayloadSize : Nat)
    (remaining : List UInt8) :
    Triple (Sending []) (publishBody channel usableBodyPayloadSize fuel remaining) Sent
      (fun _ => Stalled) := by
  induction fuel generalizing remaining with
  | zero => exact .throw fun _ sending => ⟨[], sending⟩
  | succ fuel ih =>
      refine .ite (fun _ => .pure fun _ sending => sending) fun _ => ?_
      refine Triple.bind (sent_sendFrameInner _ _) fun result => ?_
      cases result with
      | error status => exact .pure fun _ stalled => stalled
      | ok _ => exact ih _

theorem sent_publishContent (channel : UInt16) (exchange routingKey : List UInt8)
    (mandatory immediate : Int32) (properties : Option (Properties amqpBasicClass))
    (body : List UInt8) :
    Triple (Sending []) (publishContent channel exchange routingKey mandatory immediate properties
      body fuel) Sent (fun _ => Stalled) := by
  refine .read_bind fun world => ?_
  refine Triple.bind (sent_sendFrameInner _ _) fun result => ?_
  cases result with
  | error status => exact .pure fun _ stalled => stalled
  | ok _ =>
      refine Triple.bind (sent_sendFrameInner _ _) fun result => ?_
      cases result with
      | error status => exact .pure fun _ stalled => stalled
      | ok _ => exact sent_publishBody _ _ _

theorem sent_basicPublish (channel : UInt16) (exchange routingKey : List UInt8)
    (mandatory immediate : Int32) (properties : Option (Properties amqpBasicClass))
    (body : List UInt8) :
    Triple (Sending []) (amqpBasicPublish channel exchange routingKey mandatory immediate properties
      body fuel) Sent (fun _ => Stalled) := by
  have past (time : UInt64) := (asks_timeHasPast time).mono fun _ _ => receives_of_asks
  refine .read_bind fun world => ?_
  refine Triple.bind (sendRule_sending.moves (past _)) fun result => ?_
  split
  · exact .pure fun _ sending => ⟨[], sending⟩
  · refine Triple.bind (sendRule_sending.moves (receives_tryRecv fuel)) fun received => ?_
    split
    · exact .pure fun _ sending => ⟨[], sending⟩
    · exact .pure fun _ sending => ⟨[], sending⟩
    · exact sent_publishContent _ _ _ _ _ _ _
  · exact sent_publishContent _ _ _ _ _ _ _

end Calls

/-! ## Runs -/

inductive SendCall where
  | frame (content : Frame)
  | method (channel : UInt16) (id : UInt32) (decoded : MethodFields id)
  | publish (channel : UInt16) (exchange routingKey : List UInt8) (mandatory immediate : Int32)
      (properties : Option (Properties amqpBasicClass)) (body : List UInt8)

def SendCall.run (fuel : Nat) : SendCall → Call (Except Status Unit)
  | .frame content => amqpSendFrame content fuel
  | .method channel id decoded => amqpSendMethod channel id decoded fuel
  | .publish channel exchange routingKey mandatory immediate properties body =>
      amqpBasicPublish channel exchange routingKey mandatory immediate properties body fuel

/-- The worlds after calls that were made where `meets` holds, and those in which
a call got stuck. -/
inductive SendRun (meets : World → Prop) : Option Stop → World → Prop where
  | start {world : World} : world.wire = [] → SendRun meets none world
  | returned {world after : World} {call : SendCall} {fuel : Nat} {result : Except Status Unit} :
      SendRun meets none world → meets world → call.run fuel world = .ok result after →
      SendRun meets none after
  | stopped {world after : World} {call : SendCall} {fuel : Nat} {stop : Stop} :
      SendRun meets none world → meets world → call.run fuel world = .error stop after →
      SendRun meets (some stop) after

/-- The frames passed so far were sent in full, or the socket is closed. -/
def NothingAbandoned (world : World) : Prop :=
  acceptedOctets world.wire = submittedOctets world.wire ∨ world.socketOpen = false

theorem sent_run (call : SendCall) (fuel : Nat) :
    Triple (Sending []) (call.run fuel) Sent (fun _ => Stalled) := by
  cases call with
  | frame content => exact sent_sendFrameInner content .none
  | method channel id decoded => exact sent_sendFrameInner _ .none
  | publish channel exchange routingKey mandatory immediate properties body =>
      exact sent_basicPublish _ _ _ _ _ _ _

/-- Where nothing was abandoned, the next call begins with nothing left to send. -/
theorem Stalled.sending {world : World} (stalled : Stalled world)
    (settled : NothingAbandoned world) : Sending [] world := by
  obtain ⟨left, disciplined, orderly⟩ := stalled
  refine ⟨disciplined, fun isOpen => ?_⟩
  rcases settled with complete | closed
  · have remains := (orderly isOpen).accepted_append
    obtain rfl : left = [] := by simpa [complete] using remains
    exact orderly isOpen
  · cases isOpen.symm.trans closed

theorem SendRun.stalled {stop : Option Stop} {world : World}
    (run : SendRun NothingAbandoned stop world) : Stalled world := by
  induction run with
  | @start world silent =>
      have orderly : Orderly world.wire [] := silent ▸ .nil
      exact ⟨[], orderly.disciplined, fun _ => orderly⟩
  | @returned _ _ call fuel result _ settled returned ih =>
      have sent := (sent_run call fuel).ok (ih.sending settled) returned
      cases result with
      | ok _ => exact ⟨[], sent⟩
      | error _ => exact sent
  | @stopped _ _ call fuel _ _ settled stopped ih =>
      exact (sent_run call fuel).error (ih.sending settled) stopped

/-- The wire is in order in every run in which no call is made behind an
unfinished frame on an open socket. -/
theorem sendRun_disciplined {stop : Option Stop} {world : World}
    (run : SendRun NothingAbandoned stop world) : Disciplined world.wire := by
  obtain ⟨_, disciplined, _⟩ := run.stalled
  exact disciplined

/-- `outbound_buffer` for a `frame_max` of 4096. -/
def outbound4096 : Buffer := ⟨List.replicate 4096 0, by rw [List.length_replicate]; decide⟩

/-- A connection with `frame_max` 4096 and a heartbeat interval of one second. The
peer has shut down its sending side and reads slowly. -/
def laggingWorld : World :=
  { World.new
      { clock := [1000000000, 3000000000]
        recvs := [.failed .connectionClosed]
        sends := [.accepted 3, .needWrite, .accepted 8]
        recvPolls := []
        sendPolls := [.timedOut]
        closes := []
        links := []
        memory := fun _ => grantingMemory } with
    reader.frameMax := 4096
    outbound := outbound4096
    heartbeat := 1
    nextRecvHeartbeat := 2000000000
    nextSendHeartbeat := 1000000000 }

theorem sendRun_disciplined_half_sent : ∃ world, SendRun NothingAbandoned none world ∧
    acceptedOctets world.wire = [8, 0, 0] ∧ Disciplined world.wire := by
  have half : (match amqpSendFrame heartbeatFrame 5 laggingWorld with
      | .ok _ world => acceptedOctets world.wire
      | .error _ _ => []) = [8, 0, 0] := by decide +kernel
  cases returned : amqpSendFrame heartbeatFrame 5 laggingWorld with
  | error _ _ =>
      rw [returned] at half
      cases half
  | ok result world =>
      rw [returned] at half
      have run : SendRun NothingAbandoned none world :=
        @SendRun.returned _ _ _ (.frame heartbeatFrame) _ _ (.start rfl) (.inl rfl) returned
      exact ⟨world, run, half, sendRun_disciplined run⟩

/-- The heartbeat that is sent next continues behind three octets of the first. -/
theorem half_sent_not_disciplined : ¬ ∀ stop world, SendRun (fun _ => True) stop world →
    Disciplined world.wire := by
  intro disciplined
  have both : (match amqpSendFrame heartbeatFrame 5 laggingWorld with
      | .ok _ world =>
          match amqpSendFrame heartbeatFrame 5 world with
          | .ok _ world => (acceptedOctets world.wire, submittedOctets world.wire)
          | .error _ _ => ([], [])
      | .error _ _ => ([], [])) =
      ([8, 0, 0, 8, 0, 0, 0, 0, 0, 0, 206],
        [8, 0, 0, 0, 0, 0, 0, 206, 8, 0, 0, 0, 0, 0, 0, 206]) := by decide +kernel
  cases first : amqpSendFrame heartbeatFrame 5 laggingWorld with
  | error _ _ =>
      rw [first] at both
      cases both
  | ok _ between =>
      rw [first] at both
      simp only at both
      cases second : amqpSendFrame heartbeatFrame 5 between with
      | error _ _ =>
          rw [second] at both
          cases both
      | ok _ world =>
          rw [second] at both
          obtain ⟨accepted, submitted⟩ := Prod.mk.inj both
          have once : SendRun (fun _ => True) none between :=
            @SendRun.returned _ _ _ (.frame heartbeatFrame) _ _ (.start rfl) trivial first
          have run : SendRun (fun _ => True) none world :=
            @SendRun.returned _ _ _ (.frame heartbeatFrame) _ _ once trivial second
          have ordered := (disciplined none world run).inOrder world.wire List.prefix_rfl
          rw [accepted, submitted] at ordered
          exact absurd ordered (by decide)

end RabbitmqC
