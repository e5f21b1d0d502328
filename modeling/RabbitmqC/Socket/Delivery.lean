import RabbitmqC.Socket.SendRule

/-!
# What a socket accepts

The octets that a socket accepts during one call are the front part of what the call
sends, piece by piece. A frame that is sent only in part is reported, while the
protocol header may be passed over in silence.
-/

set_option autoImplicit false

namespace RabbitmqC

open Effect

/-! ## Pieces -/

/-- Behind `past`, the socket has accepted all of `encoded` except for `left`. -/
def Delivering (past : List WireEvent) (encoded left : List UInt8) (world : World) : Prop :=
  ∃ pieces : List (List UInt8), world.wire = past ++ pieces.map .accepted ∧
    pieces.flatten ++ left = encoded

section Pieces

variable {past : List WireEvent} {encoded : List UInt8}

theorem sendRule_delivering : SendRule (Delivering past encoded) where
  receives := by
    rintro left before after receives ⟨pieces, isWire, isEncoded⟩
    exact ⟨pieces, (Prod.mk.inj receives).1.trans isWire, isEncoded⟩
  accept := by
    rintro sent left world _ ⟨pieces, isWire, isEncoded⟩
    refine ⟨pieces ++ [sent], ?_, ?_⟩
    · show world.wire ++ _ = _
      rw [isWire, List.map_append, List.append_assoc]
      rfl
    · rw [List.flatten_append, List.flatten_singleton, List.append_assoc]
      exact isEncoded

theorem delivering_start {world : World} : Delivering world.wire encoded encoded world :=
  ⟨[], (List.append_nil _).symm, rfl⟩

end Pieces

/-! ## Frames -/

/-- The octets of a frame, if `amqp_frame_to_bytes` succeeds. -/
def encoding? (frame : Frame) (world : World) : Option (List UInt8) :=
  match amqpFrameToBytes frame world.outbound.size world.outbound with
  | .ok count outbound => some (outbound.bytes.take count)
  | .error _ _ => none

/-- A call that sends `encoded` goes on from `submitted`, and the socket accepts the
pieces. All is accepted if the call comes to its final step, and so if it succeeds. -/
structure ExactlyOnce (flags : SendFlags) (deadline : UInt64) (fuel : Nat) (before : World)
    (encoded : List UInt8) (result : EStateM.Result Stop World (Except Status Unit))
    (submitted : World) (pieces : List (List UInt8)) : Prop where
  submits : submitted.wire = before.wire ++ [.submitted flags encoded]
  continues : result = (sendLoop deadline fuel encoded >>= finishSend) submitted
  accepts : (endState result).wire =
    before.wire ++ .submitted flags encoded :: pieces.map .accepted
  inOrder : pieces.flatten <+: encoded
  final : ∀ sent, sendLoop deadline fuel encoded submitted = .ok (.ok ()) sent →
    pieces.flatten = encoded
  success : ∀ after, result = .ok (.ok ()) after → pieces.flatten = encoded

section Frames

variable {frame : Frame} {flags : SendFlags} {deadline : UInt64} {fuel : Nat} {before : World}
  {encoded : List UInt8}

theorem sendFrameInner_unencoded (refused : encoding? frame before = none) :
    (endState (amqpSendFrameInner frame flags deadline fuel before)).wire = before.wire ∧
      ∀ after, amqpSendFrameInner frame flags deadline fuel before ≠ .ok (.ok ()) after := by
  unfold encoding? at refused
  cases encodes : amqpFrameToBytes frame before.outbound.size before.outbound with
  | ok count outbound =>
      rw [encodes] at refused
      cases refused
  | error failure outbound =>
      cases failure with
      | status status =>
          have returned : encodeOutbound frame before =
              .ok (.error status) { before with outbound } := by
            unfold encodeOutbound
            rw [bind_of_ok (get_run before), encodes]
            rfl
          have refuses : amqpSendFrameInner frame flags deadline fuel before =
              .ok (.error status) { before with outbound } := bind_of_ok returned
          rw [refuses]
          refine ⟨rfl, ?_⟩
          intro after same
          cases same
      | fault fault =>
          have raised : encodeOutbound frame before = .error (.fault fault) before := by
            unfold encodeOutbound
            rw [bind_of_ok (get_run before), encodes]
            rfl
          have stops : amqpSendFrameInner frame flags deadline fuel before =
              .error (.fault fault) before := bind_of_error raised
          rw [stops]
          refine ⟨rfl, ?_⟩
          intro after same
          cases same

theorem sendFrameInner_encoded (isEncoded : encoding? frame before = some encoded) :
    ∃ submitted : World, submitted.wire = before.wire ++ [.submitted flags encoded] ∧
      amqpSendFrameInner frame flags deadline fuel before =
        (sendLoop deadline fuel encoded >>= finishSend) submitted := by
  unfold encoding? at isEncoded
  cases encodes : amqpFrameToBytes frame before.outbound.size before.outbound with
  | error failure outbound =>
      rw [encodes] at isEncoded
      cases isEncoded
  | ok count outbound =>
      rw [encodes] at isEncoded
      cases isEncoded
      have returned : encodeOutbound frame before =
          .ok (.ok (outbound.bytes.take count)) { before with outbound } := by
        unfold encodeOutbound
        rw [bind_of_ok (get_run before), encodes]
        rfl
      refine ⟨{ before with
        outbound
        wire := before.wire ++ [.submitted flags (outbound.bytes.take count)] }, rfl, ?_⟩
      unfold amqpSendFrameInner
      rw [bind_of_ok returned]
      exact sendEncoded_eq _ _ _ _

/-- The final step leaves the wire alone. -/
theorem finishSend_wire (result : Except Status Unit) (world : World) :
    (endState (finishSend result world)).wire = world.wire := by
  cases result with
  | ok _ => exact (Prod.mk.inj (receives_scheduleHeartbeat world)).1
  | error status => rfl

theorem exactlyOnce_of_submitted {submitted : World}
    (isWire : submitted.wire = before.wire ++ [.submitted flags encoded]) :
    ∃ pieces, ExactlyOnce flags deadline fuel before encoded
      ((sendLoop deadline fuel encoded >>= finishSend) submitted) submitted pieces := by
  have sends := @SendRule.sendLoop _ encoded deadline fuel
    (@sendRule_delivering submitted.wire encoded)
  have wires (pieces : List (List UInt8)) : submitted.wire ++ pieces.map WireEvent.accepted =
      before.wire ++ .submitted flags encoded :: pieces.map .accepted := by
    rw [isWire, List.append_assoc]
    rfl
  cases returned : sendLoop deadline fuel encoded submitted with
  | error stop after =>
      obtain ⟨left, pieces, accepted, isEncoded⟩ := sends.error delivering_start returned
      refine ⟨pieces, isWire, rfl, ?_, ⟨left, isEncoded⟩, ?_, ?_⟩
      · rw [bind_of_error returned]
        exact accepted.trans (wires pieces)
      · intro sent loops
        cases returned.symm.trans loops
      · rw [bind_of_error returned]
        intro after same
        cases same
  | ok result sent =>
      have ends := sends.ok delivering_start returned
      cases result with
      | ok _ =>
          obtain ⟨pieces, accepted, isEncoded⟩ := ends
          rw [List.append_nil] at isEncoded
          refine ⟨pieces, isWire, rfl, ?_, ⟨[], by rw [isEncoded, List.append_nil]⟩, ?_, ?_⟩
          · rw [bind_of_ok returned, finishSend_wire]
            exact accepted.trans (wires pieces)
          · exact fun _ _ => isEncoded
          · exact fun _ _ => isEncoded
      | error status =>
          obtain ⟨left, pieces, accepted, isEncoded⟩ := ends
          refine ⟨pieces, isWire, rfl, ?_, ⟨left, isEncoded⟩, ?_, ?_⟩
          · rw [bind_of_ok returned]
            exact accepted.trans (wires pieces)
          · intro sent loops
            cases returned.symm.trans loops
          · rw [bind_of_ok returned]
            intro after same
            cases same

end Frames

/-- Nothing is skipped, repeated or taken from behind the frame. -/
theorem sendFrameInner_exactlyOnce (frame : Frame) (flags : SendFlags) (deadline : UInt64)
    (fuel : Nat) (before : World) :
    (encoding? frame before = none →
      (endState (amqpSendFrameInner frame flags deadline fuel before)).wire = before.wire ∧
        ∀ after, amqpSendFrameInner frame flags deadline fuel before ≠ .ok (.ok ()) after) ∧
    ∀ encoded, encoding? frame before = some encoded → ∃ submitted pieces,
      ExactlyOnce flags deadline fuel before encoded
        (amqpSendFrameInner frame flags deadline fuel before) submitted pieces := by
  constructor
  · exact sendFrameInner_unencoded
  · intro encoded isEncoded
    obtain ⟨submitted, isWire, continues⟩ :=
      @sendFrameInner_encoded frame flags deadline fuel before encoded isEncoded
    obtain ⟨pieces, once⟩ := @exactlyOnce_of_submitted flags deadline fuel before encoded
      submitted isWire
    rw [continues]
    exact ⟨submitted, pieces, once⟩

/-- The socket takes a heartbeat in two pieces. -/
def haltingWorld : World :=
  { World.new
      { clock := []
        recvs := []
        sends := [.accepted 3, .needWrite, .accepted 9]
        recvPolls := []
        sendPolls := [.ready]
        closes := []
        links := []
        memory := fun _ => ⟨true, fun _ => none, []⟩ } with
    outbound := ⟨List.replicate 16 0, by decide⟩ }

theorem sendFrameInner_exactlyOnce_heartbeat : ∃ submitted pieces,
    ExactlyOnce .none amqpTimeInfinite 4 haltingWorld [8, 0, 0, 0, 0, 0, 0, 206]
      (amqpSendFrameInner heartbeatFrame .none amqpTimeInfinite 4 haltingWorld) submitted pieces :=
  (sendFrameInner_exactlyOnce heartbeatFrame .none amqpTimeInfinite 4 haltingWorld).2 _ rfl

/-! ## Deadlines -/

/-- `AMQP_PRIVATE_STATUS_SOCKET_NEEDREAD` and `AMQP_PRIVATE_STATUS_SOCKET_NEEDWRITE`. -/
def Status.isPending (status : Status) : Bool :=
  status = .privateSocketNeedread || status = .privateSocketNeedwrite

/-- The deadline passes while the socket has not accepted all of the octets. -/
inductive OutOfTime (deadline : UInt64) : List UInt8 → World → Prop where
  | accepted {left : List UInt8} {world after : World} {count : Nat} :
      amqpSocketSend left world = .ok (.ok count) after → left.drop count ≠ [] →
      OutOfTime deadline (left.drop count) after → OutOfTime deadline left world
  | ready {left : List UInt8} {world waiting after : World} {status : Status} {fuel : Nat} :
      amqpSocketSend left world = .ok (.error status) waiting → status.isPending = true →
      amqpPoll .toSend deadline fuel waiting = .ok (.ok ()) after →
      OutOfTime deadline left after → OutOfTime deadline left world
  | expired {left : List UInt8} {world waiting after : World} {status : Status} {fuel : Nat} :
      amqpSocketSend left world = .ok (.error status) waiting → status.isPending = true →
      amqpPoll .toSend deadline fuel waiting = .ok (.error .timeout) after →
      OutOfTime deadline left world

section Deadlines

variable {deadline : UInt64} {fuel len : Nat} {left : List UInt8} {world after : World}

/-- What `amqp_poll` returns does not depend on the fuel. -/
theorem poll_more_fuel {waiting : Waiting} {result : Except Status Unit} (more : Nat)
    (returned : amqpPoll waiting deadline fuel world = .ok result after) :
    amqpPoll waiting deadline (fuel + more) world = .ok result after := by
  induction fuel generalizing world with
  | zero => cases returned
  | succ fuel ih =>
      rw [Nat.succ_add]
      unfold amqpPoll at returned ⊢
      obtain ⟨_, recorded, records, returned⟩ := bind_eq_ok.mp returned
      rw [bind_of_ok records]
      obtain ⟨timeoutMs, timed, times, returned⟩ := bind_eq_ok.mp returned
      rw [bind_of_ok times]
      by_cases negative : -1 > timeoutMs
      · rw [if_pos negative] at returned ⊢
        exact returned
      · rw [if_neg negative] at returned ⊢
        obtain ⟨answer, answered, answers, returned⟩ := bind_eq_ok.mp returned
        rw [bind_of_ok answers]
        cases answer with
        | ready => exact returned
        | failed => exact returned
        | interrupted => exact ih returned
        | timedOut =>
            by_cases endless : timeoutMs = -1
            · simp only [if_pos endless] at returned ⊢
              exact ih returned
            · simp only [if_neg endless] at returned ⊢
              exact returned

theorem poll_unique {waiting : Waiting} {other : Nat} {first second : Except Status Unit}
    {final : World} (left : amqpPoll waiting deadline fuel world = .ok first after)
    (right : amqpPoll waiting deadline other world = .ok second final) :
    first = second ∧ after = final := by
  have lifted := poll_more_fuel other left
  rw [Nat.add_comm] at lifted
  cases lifted.symm.trans (poll_more_fuel fuel right)
  exact ⟨rfl, rfl⟩

theorem socketOpen_of_socketSend {result : Except Status Nat} {buf : List UInt8}
    (returned : amqpSocketSend buf world = .ok result after)
    (answered : result ≠ .error .socketClosed) : after.socketOpen = true := by
  unfold amqpSocketSend at returned
  rw [bind_of_ok (get_run world)] at returned
  split at returned
  · rename_i isOpen
    obtain ⟨answer, asked, asks, returned⟩ := bind_eq_ok.mp returned
    have sameOpen : asked.socketOpen = true := by
      have moves : Moves Asks (ask (·.sends) fun script sends => { script with sends }) :=
        asks_ask fun script _ _ _ => { Script.Uses.refl script with }
      exact (Prod.mk.inj (receives_of_asks (moves.ok asks))).2.trans isOpen
    cases answer with
    | accepted count =>
        cases returned
        exact sameOpen
    | needRead =>
        cases returned
        exact sameOpen
    | needWrite =>
        cases returned
        exact sameOpen
    | failed failure =>
        cases returned
        exact sameOpen
  · cases returned
    exact absurd rfl answered

theorem Status.code_ofCode (code : Int) : (Status.ofCode code).code = code := by
  unfold Status.ofCode
  cases found : Status.named.find? fun status => status.code == code with
  | none => rfl
  | some status =>
      have matched := List.find?_some found
      exact eq_of_beq matched

theorem poll_negative {waiting : Waiting} {status : Status}
    (returned : amqpPoll waiting deadline fuel world = .ok (.error status) after) :
    status.code < 0 := by
  induction fuel generalizing world with
  | zero => cases returned
  | succ fuel ih =>
      unfold amqpPoll at returned
      obtain ⟨_, recorded, _, returned⟩ := bind_eq_ok.mp returned
      obtain ⟨timeoutMs, timed, _, returned⟩ := bind_eq_ok.mp returned
      by_cases negative : -1 > timeoutMs
      · rw [if_pos negative] at returned
        cases returned
        rw [Status.code_ofCode]
        omega
      · rw [if_neg negative] at returned
        obtain ⟨answer, answered, _, returned⟩ := bind_eq_ok.mp returned
        cases answer with
        | ready => cases returned
        | failed =>
            cases returned
            decide
        | interrupted => exact ih returned
        | timedOut =>
            by_cases endless : timeoutMs = -1
            · simp only [if_pos endless] at returned
              exact ih returned
            · simp only [if_neg endless] at returned
              cases returned
              decide

/-- One turn of the loop of `amqp_try_send`. -/
inductive SendTurn (len : Nat) (deadline : UInt64) (fuel : Nat) (left : List UInt8)
    (world : World) : Except Status Nat → World → Prop where
  | complete {count : Nat} {after : World} :
      amqpSocketSend left world = .ok (.ok count) after → left.drop count = [] →
      SendTurn len deadline fuel left world (.ok len) after
  | onward {count : Nat} {middle after : World} {result : Except Status Nat} :
      amqpSocketSend left world = .ok (.ok count) middle → left.drop count ≠ [] →
      trySendLeft len deadline fuel (left.drop count) middle = .ok result after →
      SendTurn len deadline fuel left world result after
  | ready {status : Status} {waiting middle after : World} {result : Except Status Nat} :
      amqpSocketSend left world = .ok (.error status) waiting → status.isPending = true →
      amqpPoll .toSend deadline fuel waiting = .ok (.ok ()) middle →
      trySendLeft len deadline fuel left middle = .ok result after →
      SendTurn len deadline fuel left world result after
  | expired {status : Status} {waiting after : World} :
      amqpSocketSend left world = .ok (.error status) waiting → status.isPending = true →
      amqpPoll .toSend deadline fuel waiting = .ok (.error .timeout) after →
      SendTurn len deadline fuel left world (.ok (len - left.length)) after
  | unready {status failure : Status} {waiting after : World} :
      amqpSocketSend left world = .ok (.error status) waiting → status.isPending = true →
      amqpPoll .toSend deadline fuel waiting = .ok (.error failure) after → failure ≠ .timeout →
      SendTurn len deadline fuel left world (.error failure) after
  | failed {status failure : Status} {after : World} :
      amqpSocketSend left world = .ok (.error status) after → status.isPending = false →
      failure.code < 0 → SendTurn len deadline fuel left world (.error failure) after

theorem socketSend_error {status : Status} {buf : List UInt8}
    (returned : amqpSocketSend buf world = .ok (.error status) after) :
    status ∈ [.privateSocketNeedread, .privateSocketNeedwrite, .socketError, .sslError,
      .connectionClosed, .socketClosed] := by
  unfold amqpSocketSend at returned
  rw [bind_of_ok (get_run world)] at returned
  split at returned
  · obtain ⟨answer, asked, asks, returned⟩ := bind_eq_ok.mp returned
    cases answer with
    | accepted count => cases returned
    | needRead =>
        cases returned
        decide
    | needWrite =>
        cases returned
        decide
    | failed failure =>
        cases returned
        cases failure <;> decide
  · cases returned
    decide

theorem doPoll_pending {status : Status} (isOpen : world.socketOpen = true)
    (pending : status.isPending = true) :
    doPoll (.error status) deadline fuel world = amqpPoll .toSend deadline fuel world := by
  unfold doPoll
  rw [bind_of_ok (get_run world), if_pos isOpen]
  unfold Status.isPending at pending
  rcases Bool.or_eq_true_iff.mp pending with read | write
  · cases of_decide_eq_true read
    rfl
  · cases of_decide_eq_true write
    rfl

theorem doPoll_accepted (isOpen : world.socketOpen = true) :
    doPoll (.ok ()) deadline fuel world = .ok (.ok ()) world := by
  unfold doPoll
  rw [bind_of_ok (get_run world), if_pos isOpen]
  rfl

theorem doPoll_failed {status : Status} (final : status.isPending = false) :
    ∃ failure, (failure = status ∨ failure = .socketClosed) ∧
      doPoll (.error status) deadline fuel world = .ok (.error failure) world := by
  unfold doPoll
  rw [bind_of_ok (get_run world)]
  by_cases isOpen : world.socketOpen = true
  · rw [if_pos isOpen]
    refine ⟨status, .inl rfl, ?_⟩
    cases status <;> first | rfl | cases final
  · rw [if_neg isOpen]
    exact ⟨.socketClosed, .inr rfl, rfl⟩

theorem sendTurn_of_trySendLeft {result : Except Status Nat} (nonempty : left ≠ [])
    (returned : trySendLeft len deadline (fuel + 1) left world = .ok result after) :
    SendTurn len deadline fuel left world result after := by
  unfold trySendLeft at returned
  obtain ⟨res, middle, sends, returned⟩ := bind_eq_ok.mp returned
  cases res with
  | ok count =>
      cases count with
      | zero =>
          have isOpen := socketOpen_of_socketSend sends nofun
          obtain ⟨polled, waited, polls, returned⟩ := bind_eq_ok.mp returned
          cases polls.symm.trans (doPoll_accepted isOpen)
          exact .onward sends nonempty returned
      | succ count =>
          dsimp only at returned
          split at returned
          · rename_i complete
            cases returned
            exact .complete sends complete
          · rename_i incomplete
            exact .onward sends incomplete returned
  | error status =>
      obtain ⟨polled, waited, polls, returned⟩ := bind_eq_ok.mp returned
      cases pending : status.isPending with
      | true =>
          have isOpen : middle.socketOpen = true := by
            apply socketOpen_of_socketSend sends
            intro closed
            cases closed
            cases pending
          have polls : amqpPoll .toSend deadline fuel middle = .ok polled waited :=
            (doPoll_pending isOpen pending).symm.trans polls
          cases polled with
          | ok _ => exact .ready sends pending polls returned
          | error failure =>
              by_cases late : failure = .timeout
              · cases late
                cases returned
                exact .expired sends pending polls
              · have reports : result = .error failure ∧ after = waited := by
                  cases failure <;> first | exact absurd rfl late | (cases returned; exact ⟨rfl, rfl⟩)
                rw [reports.1, reports.2]
                exact .unready sends pending polls late
      | false =>
          obtain ⟨failure, isFailure, fails⟩ := @doPoll_failed deadline fuel middle status pending
          cases polls.symm.trans fails
          have negative : failure.code < 0 ∧ failure ≠ .timeout := by
            rcases isFailure with rfl | rfl
            · have expected := socketSend_error sends
              simp only [List.mem_cons, List.not_mem_nil, or_false] at expected
              rcases expected with rfl | rfl | rfl | rfl | rfl | rfl <;> decide
            · decide
          have reports : result = .error failure ∧ after = middle := by
            cases failure <;>
              first | exact absurd rfl negative.2 | (cases returned; exact ⟨rfl, rfl⟩)
          rw [reports.1, reports.2]
          exact .failed sends pending negative.1

/-- `amqp_try_send` reports less than all exactly when the deadline passes. -/
theorem trySendLeft_short_iff {result : Except Status Nat} (nonempty : left ≠ [])
    (within : left.length ≤ len)
    (returned : trySendLeft len deadline fuel left world = .ok result after) :
    (∃ sent, result = .ok sent ∧ sent < len) ↔ OutOfTime deadline left world := by
  constructor
  · rintro ⟨sent, rfl, short⟩
    induction fuel generalizing left world with
    | zero => cases returned
    | succ fuel ih =>
        cases sendTurn_of_trySendLeft nonempty returned with
        | complete _ _ => exact absurd short (Nat.lt_irrefl len)
        | onward sends more turned =>
            refine .accepted sends more (ih more ?_ turned)
            rw [List.length_drop]
            omega
        | ready sends pending polls turned =>
            exact .ready sends pending polls (ih nonempty within turned)
        | expired sends pending polls => exact .expired sends pending polls
  · intro late
    induction late generalizing fuel with
    | accepted sends more _ ih =>
        cases fuel with
        | zero => cases returned
        | succ fuel =>
            cases sendTurn_of_trySendLeft nonempty returned with
            | complete sent done =>
                cases sends.symm.trans sent
                exact absurd done more
            | onward sent _ turned =>
                cases sends.symm.trans sent
                refine ih more ?_ turned
                rw [List.length_drop]
                omega
            | ready sent _ _ _ => cases sends.symm.trans sent
            | expired sent _ _ => cases sends.symm.trans sent
            | unready sent _ _ _ => cases sends.symm.trans sent
            | failed sent _ _ => cases sends.symm.trans sent
    | ready sends pending polls _ ih =>
        cases fuel with
        | zero => cases returned
        | succ fuel =>
            cases sendTurn_of_trySendLeft nonempty returned with
            | complete sent _ => cases sends.symm.trans sent
            | onward sent _ _ => cases sends.symm.trans sent
            | ready sent _ polled turned =>
                cases sends.symm.trans sent
                cases (poll_unique polls polled).2
                exact ih nonempty within turned
            | expired sent _ polled =>
                cases sends.symm.trans sent
                cases (poll_unique polls polled).1
            | unready sent _ polled _ =>
                cases sends.symm.trans sent
                cases (poll_unique polls polled).1
            | failed sent final _ =>
                cases sends.symm.trans sent
                cases pending.symm.trans final
    | expired sends pending polls =>
        cases fuel with
        | zero => cases returned
        | succ fuel =>
            cases sendTurn_of_trySendLeft nonempty returned with
            | complete sent _ => cases sends.symm.trans sent
            | onward sent _ _ => cases sends.symm.trans sent
            | ready sent _ polled _ =>
                cases sends.symm.trans sent
                cases (poll_unique polls polled).1
            | expired sent _ polled =>
                refine ⟨_, rfl, ?_⟩
                have positive := List.length_pos_iff.mpr nonempty
                omega
            | unready sent _ polled notLate =>
                cases sends.symm.trans sent
                cases (poll_unique polls polled).1
                exact absurd rfl notLate
            | failed sent final _ =>
                cases sends.symm.trans sent
                cases pending.symm.trans final

end Deadlines

end RabbitmqC
