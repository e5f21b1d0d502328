import RabbitmqC.Connection.InputCodes
import RabbitmqC.Socket.Conservation
import RabbitmqC.Socket.Publish

/-!
# A peer that is overdue

`amqp_try_recv` asks for a deadline of 0 seconds from now, and
`amqp_time_s_from_now` takes 0 for no deadline at all. So the call waits for ever
on a silent socket, and the callers' reports of a heartbeat timeout are dead code.
-/

set_option autoImplicit false

namespace RabbitmqC

open Effect

/-- The socket has nothing to read, and no `poll` finds otherwise. -/
structure Silent (world : World) : Prop where
  recvs : ∀ answer ∈ world.script.recvs, answer = .needRead
  recvPolls : ∀ answer ∈ world.script.recvPolls, answer = .timedOut ∨ answer = .interrupted

/-- Heartbeats are on, and at every reading of the clock the peer is overdue and silent. -/
structure Overdue (world : World) : Prop extends Silent world where
  enabled : 0 < world.heartbeat
  past : ∀ now ∈ world.script.clock, now > world.nextRecvHeartbeat
  finite : world.nextRecvHeartbeat ≠ amqpTimeInfinite

/-- Codes that do not stand for a timeout. -/
def Untimely (status : Status) : Prop := status ≠ .timeout ∧ status ≠ .heartbeatTimeout

instance : DecidablePred Untimely := fun status =>
  inferInstanceAs (Decidable (status ≠ .timeout ∧ status ≠ .heartbeatTimeout))

theorem untimely_of_mem {codes : List Status} {status : Status} (isCode : status ∈ codes)
    (untimely : codes.all (fun code => decide (Untimely code)) = true) : Untimely status :=
  of_decide_eq_true (List.all_eq_true.mp untimely status isCode)

/-! ## Waiting for the peer -/

section Waiting

variable {fuel : Nat}

theorem Silent.of_uses {before after : World} (silent : Silent before)
    (uses : before.script.Uses after.script) : Silent after :=
  ⟨fun answer member => silent.recvs answer (uses.recvs.subset member),
    fun answer member => silent.recvPolls answer (uses.recvPolls.subset member)⟩

theorem Silent.of_asks {before after : World} (silent : Silent before)
    (asks : Asks before after) : Silent after := by
  obtain ⟨script, polls, uses, rfl⟩ := asks
  exact silent.of_uses uses

/-- Without a deadline, `poll` is called again and again. -/
theorem poll_silent : Triple Silent (amqpPoll .toReceive amqpTimeInfinite fuel)
    (fun _ _ => False) (fun _ _ => True) := by
  induction fuel with
  | zero => exact .throw fun _ _ => trivial
  | succ fuel ih =>
      have records : Keeps Silent (recordPoll amqpTimeInfinite) :=
        (asks_recordPoll _).keeps fun _ _ asks silent => silent.of_asks asks
      refine Triple.bind (records.raise fun _ _ _ => trivial) fun _ => ?_
      intro world silent
      have infinite : amqpTimeMsUntil amqpTimeInfinite world = .ok (-1) world := by
        unfold amqpTimeMsUntil
        rw [if_pos rfl]
        rfl
      rw [bind_of_ok infinite, if_neg (by decide)]
      cases polled : Waiting.poll .toReceive world with
      | error stop after =>
          rw [bind_of_error polled]
          trivial
      | ok answer after =>
          rw [bind_of_ok polled]
          have stillSilent := silent.of_asks ((asks_waitingPoll .toReceive).ok polled)
          obtain ⟨rest, answers, _⟩ := @ask_eq_ok _ (·.recvPolls)
            (fun script recvPolls => { script with recvPolls }) _ _ _ polled
          have answered := silent.recvPolls answer (by
            rw [show world.script.recvPolls = answer :: rest from answers]
            exact List.mem_cons_self)
          rcases answered with rfl | rfl
          · dsimp only
            rw [if_pos rfl]
            exact ih stillSilent
          · exact ih stillSilent

/-- A silent socket delivers nothing. -/
theorem recvWithTimeout_silent : Triple Silent (recvWithTimeout amqpTimeInfinite fuel)
    (fun result _ => result = .error .connectionClosed) (fun _ _ => True) := by
  cases fuel with
  | zero => exact .throw fun _ _ => trivial
  | succ fuel =>
      intro world silent
      unfold recvWithTimeout
      cases received : amqpSocketRecv world with
      | error stop after =>
          rw [bind_of_error received]
          trivial
      | ok result after =>
          rw [bind_of_ok received]
          have stillSilent := silent.of_asks (asks_socketRecv.ok received)
          unfold amqpSocketRecv at received
          rw [bind_of_ok (get_run world)] at received
          split at received
          · rename_i isOpen
            obtain ⟨answer, between, answered, received⟩ := bind_eq_ok.mp received
            obtain ⟨rest, answers, isBetween⟩ := ask_eq_ok answered
            have needs := silent.recvs answer (by
              rw [show world.script.recvs = answer :: rest from answers]
              exact List.mem_cons_self)
            subst needs
            cases received
            have stillOpen : after.socketOpen = true := by
              rw [isBetween]
              exact isOpen
            dsimp only
            rw [bind_of_ok (get_run after), if_pos stillOpen, if_pos (.inl rfl)]
            cases polled : amqpPoll .toReceive amqpTimeInfinite fuel after with
            | error stop final =>
                rw [bind_of_error polled]
                trivial
            | ok polledResult final => exact absurd (poll_silent.ok stillSilent polled) id
          · rename_i closed
            cases received
            dsimp only
            rw [bind_of_ok (get_run world), if_neg closed]
            exact rfl

/-- The codes are no timeouts. -/
def UntimelyError {α : Type} (result : Except Status α) : Prop :=
  ∀ status, result = .error status → Untimely status

theorem consumeOneFrame_silent : Triple Silent consumeOneFrame
    (fun result after => Silent after ∧ UntimelyError result) (fun _ _ => True) := by
  refine .get_bind fun world silent => ?_
  rintro _ rfl
  have answers := amqpHandleInput_answers (world.script.memory world.framesRead) world.reader
    world.unread
  generalize amqpHandleInput (world.script.memory world.framesRead) world.reader world.unread =
    handled at answers ⊢
  cases answers with
  | counted => exact ⟨silent.of_uses (.refl _), fun _ => nofun⟩
  | refused isCode =>
      refine ⟨silent.of_uses (.refl _), ?_⟩
      rintro _ ⟨⟩
      exact untimely_of_mem isCode (by decide)
  | faulty _ => trivial

theorem queueReceived_silent {frame : Frame} : Triple Silent (queueReceived frame)
    (fun result after => Silent after ∧ UntimelyError result) (fun _ _ => True) := by
  intro world silent
  cases queued : queueReceived frame world with
  | error stop after => trivial
  | ok result after =>
      obtain ⟨_, _, _, uses, isAfter⟩ := (links_queueReceived frame).ok queued
      constructor
      · rw [isAfter]
        exact silent.of_uses uses
      · rintro status rfl
        obtain ⟨link, between, _, returned⟩ := bind_eq_ok.mp queued
        cases link with
        | none =>
            cases returned
            decide
        | some link => cases returned

/-- On a silent socket the call ends with an error other than a timeout, if it ends. -/
theorem tryRecv_silent : Triple Silent (amqpTryRecv fuel)
    (fun result _ => ∃ status, result = .error status ∧ Untimely status) (fun _ _ => True) := by
  induction fuel with
  | zero => exact .throw fun _ _ => trivial
  | succ fuel ih =>
      refine .read_bind fun world => .ite (fun _ => ?_) fun _ => ?_
      · refine Triple.bind consumeOneFrame_silent fun result => ?_
        cases result with
        | error status => exact .pure fun _ both => ⟨status, rfl, both.2 status rfl⟩
        | ok frame =>
            refine .ite (fun _ => ?_) fun _ => ih.strengthen fun _ both => both.1
            refine Triple.bind (queueReceived_silent.strengthen fun _ both => both.1)
              fun result => ?_
            cases result with
            | error status => exact .pure fun _ both => ⟨status, rfl, both.2 status rfl⟩
            | ok _ => exact ih.strengthen fun _ both => both.1
      · -- `amqp_time_s_from_now` answers 0 seconds with the infinite deadline.
        refine (@recvWithTimeout_silent fuel).weaken fun result _ closed => ?_
        exact ⟨.connectionClosed, closed, by decide⟩

end Waiting

/-! ## Publishing -/

theorem Overdue.of_quiet {before after : World} (overdue : Overdue before)
    (quiet : Quiet before after) : Overdue after where
  toSilent := overdue.toSilent.of_uses quiet.uses
  enabled := quiet.heartbeat ▸ overdue.enabled
  past now member := by
    rw [quiet.nextRecvHeartbeat]
    exact overdue.past now (quiet.uses.clock.subset member)
  finite := quiet.nextRecvHeartbeat ▸ overdue.finite

/-- A reading of the clock finds the peer overdue. -/
theorem Overdue.timestamp :
    Triple Overdue amqpGetMonotonicTimestamp
      (fun now world => Overdue world ∧ now > world.nextRecvHeartbeat) (fun _ _ => True) := by
  intro world overdue
  cases read : amqpGetMonotonicTimestamp world with
  | error stop after => trivial
  | ok now after =>
      have quiet := quiet_of_asks (asks_timestamp.ok read)
      obtain ⟨rest, isClock, _⟩ := ask_eq_ok read
      refine ⟨overdue.of_quiet quiet, ?_⟩
      rw [quiet.nextRecvHeartbeat]
      apply overdue.past
      rw [show world.script.clock = now :: rest from isClock]
      exact List.mem_cons_self

theorem ne_zero_of_gt {now time : UInt64} (later : now > time) : now ≠ 0 := by
  rintro rfl
  rw [gt_iff_lt, UInt64.lt_iff_toNat_lt] at later
  exact Nat.not_lt_zero _ later

/-- The peer is found to be overdue, and then waited for. -/
theorem publish_overdue (message : Publication) (fuel : Nat) :
    Triple Overdue (message.publish fuel)
      (fun result _ => ∃ status, result = .error status ∧ Untimely status) (fun _ _ => True) := by
  refine .get_bind fun world overdue => ?_
  have timedOut : Triple (world = ·) (amqpTimeHasPast world.nextRecvHeartbeat)
      (fun result after => result = .error .timeout ∧ Overdue after) (fun _ _ => True) := by
    rintro _ rfl
    unfold amqpTimeHasPast
    rw [if_neg overdue.finite]
    cases read : amqpGetMonotonicTimestamp world with
    | error stop after =>
        rw [bind_of_error read]
        trivial
    | ok now after =>
        obtain ⟨stillOverdue, later⟩ := Overdue.timestamp.ok overdue read
        rw [bind_of_ok read, if_neg (ne_zero_of_gt later), if_pos]
        · exact ⟨rfl, stillOverdue⟩
        · rw [(quiet_of_asks (asks_timestamp.ok read)).nextRecvHeartbeat] at later
          exact later
  refine Triple.bind timedOut fun result => ?_
  rintro after ⟨rfl, stillOverdue⟩
  refine Triple.bind tryRecv_silent (fun result => ?_) stillOverdue.toSilent
  rintro final ⟨status, rfl, untimely⟩
  cases status <;> first | exact ⟨_, rfl, untimely⟩ | exact absurd rfl untimely.1

/-! ## Sending -/

/-- The deadline of a send is not later than that of the peer. -/
structure Expired (time : UInt64) (world : World) : Prop where
  overdue : Overdue world
  time_le : time ≤ world.nextRecvHeartbeat

/-- A call does not report a heartbeat timeout. -/
def Unreported {α : Type} (result : Except Status α) : Prop := result ≠ .error .heartbeatTimeout

theorem Unreported.pass {α β : Type} {status : Status}
    (unreported : Unreported (.error status : Except Status α)) :
    Unreported (.error status : Except Status β) := by
  rintro ⟨⟩
  exact unreported rfl

section Sending

variable {time : UInt64} {fuel : Nat}

theorem Expired.of_quiet {before after : World} (expired : Expired time before)
    (quiet : Quiet before after) : Expired time after :=
  ⟨expired.overdue.of_quiet quiet, quiet.nextRecvHeartbeat ▸ expired.time_le⟩

theorem Expired.moves {α : Type} {run : Call α} (moves : Moves Quiet run) :
    Keeps (Expired time) run :=
  moves.keeps fun _ _ quiet expired => expired.of_quiet quiet

theorem Expired.msUntil : Triple (Expired time) (amqpTimeMsUntil time)
    (fun timeoutMs world => Expired time world ∧ timeoutMs = 0) (fun _ _ => True) := by
  intro world expired
  have finite : time ≠ amqpTimeInfinite := by
    rintro rfl
    apply expired.overdue.finite
    have bound := UInt64.toNat_lt world.nextRecvHeartbeat
    have above := UInt64.le_iff_toNat_le.mp expired.time_le
    have infinite : amqpTimeInfinite.toNat = 2 ^ 64 - 1 := rfl
    apply UInt64.toNat_inj.mp
    omega
  unfold amqpTimeMsUntil
  rw [if_neg finite]
  split
  · rename_i raised
    split at raised
    · cases raised
      exact ⟨expired, rfl⟩
    · obtain ⟨now, between, read, raised⟩ := bind_eq_ok.mp raised
      obtain ⟨_, later⟩ := Overdue.timestamp.ok expired.overdue read
      have stillExpired := expired.of_quiet (quiet_of_asks (asks_timestamp.ok read))
      rw [if_neg (ne_zero_of_gt later), if_pos] at raised
      · cases raised
        exact ⟨stillExpired, rfl⟩
      · exact UInt64.le_of_lt (UInt64.lt_of_le_of_lt stillExpired.time_le later)
  · trivial

theorem Expired.poll : Triple (Expired time) (amqpPoll .toSend time fuel)
    (fun result world => Expired time world ∧ Unreported result) (fun _ _ => True) := by
  induction fuel with
  | zero => exact .throw fun _ _ => trivial
  | succ fuel ih =>
      have records : Keeps (Expired time) (recordPoll time) :=
        Expired.moves ((asks_recordPoll time).mono fun _ _ => quiet_of_asks)
      refine Triple.bind (records.raise fun _ _ _ => trivial) fun _ => ?_
      refine Triple.bind Expired.msUntil fun timeoutMs => ?_
      rintro world ⟨expired, rfl⟩
      rw [if_neg (by decide)]
      have asked : Keeps (Expired time) (Waiting.poll .toSend) :=
        Expired.moves ((asks_waitingPoll .toSend).mono fun _ _ => quiet_of_asks)
      refine Triple.bind (asked.raise fun _ _ _ => trivial) (fun answer => ?_) expired
      cases answer with
      | ready => exact .pure fun _ expired => ⟨expired, nofun⟩
      | timedOut => exact .ite (fun _ => ih) fun _ => .pure fun _ expired => ⟨expired, nofun⟩
      | interrupted => exact ih
      | failed => exact .pure fun _ expired => ⟨expired, nofun⟩

theorem socketSend_unreported {buf : List UInt8} : Triple (Expired time) (amqpSocketSend buf)
    (fun result world => Expired time world ∧ Unreported result) (fun _ _ => True) := by
  intro world expired
  cases sent : amqpSocketSend buf world with
  | error stop after => trivial
  | ok result after =>
      refine ⟨expired.of_quiet ((still_socketSend buf).ok sent).toQuiet, ?_⟩
      rintro rfl
      unfold amqpSocketSend at sent
      rw [bind_of_ok (get_run world)] at sent
      split at sent
      · obtain ⟨answer, _, _, ended⟩ := bind_eq_ok.mp sent
        cases answer with
        | accepted count => cases ended
        | needRead => cases ended
        | needWrite => cases ended
        | failed failure => cases failure <;> cases ended
      · cases sent

theorem Expired.doPoll {res : Except Status Unit} (unreported : Unreported res) :
    Triple (Expired time) (doPoll res time fuel)
      (fun result world => Expired time world ∧ Unreported result) (fun _ _ => True) := by
  refine .read_bind fun world => .ite (fun _ => ?_) fun _ => ?_
  · split
    · exact Expired.poll
    · exact Expired.poll
    · exact .pure fun _ expired => ⟨expired, unreported⟩
  · exact .pure fun _ expired => ⟨expired, nofun⟩

theorem Expired.trySendLeft {len : Nat} (left : List UInt8) :
    Triple (Expired time) (trySendLeft len time fuel left)
      (fun result world => Expired time world ∧ Unreported result) (fun _ _ => True) := by
  induction fuel generalizing left with
  | zero => exact .throw fun _ _ => trivial
  | succ fuel ih =>
      -- The socket has taken nothing, and is polled.
      have again (res : Except Status Nat) (next : Except Status Unit → Call (Except Status Nat))
          (goesOn : next (.ok ()) = RabbitmqC.trySendLeft len time fuel left)
          (timedOut : next (.error .timeout) = pure (.ok (len - left.length)))
          (fails : ∀ status, status ≠ .timeout → next (.error status) = pure (.error status)) :
          Triple (fun world => Expired time world ∧ Unreported res)
            (RabbitmqC.doPoll (res.map fun _ => ()) time fuel >>= next)
            (fun result world => Expired time world ∧ Unreported result) (fun _ _ => True) := by
        rintro world ⟨expired, unreported⟩
        have mapped : Unreported (res.map fun _ => ()) := by
          cases res with
          | ok count => exact nofun
          | error status => simpa [Unreported, Except.map] using unreported
        refine Triple.bind (Expired.doPoll mapped) (fun polled => ?_) expired
        cases polled with
        | ok _ =>
            rw [goesOn]
            exact (ih left).strengthen fun _ both => both.1
        | error status =>
            by_cases late : status = .timeout
            · rw [late, timedOut]
              exact .pure fun _ both => ⟨both.1, nofun⟩
            · rw [fails status late]
              refine .pure fun _ both => ⟨both.1, ?_⟩
              rintro ⟨⟩
              exact both.2 rfl
      refine Triple.bind socketSend_unreported fun result => ?_
      cases result with
      | error status => exact again _ _ rfl rfl fun status other => by split <;> simp_all
      | ok count =>
          cases count with
          | zero => exact again _ _ rfl rfl fun status other => by split <;> simp_all
          | succ count =>
              refine .ite (fun _ => .pure fun _ both => ⟨both.1, nofun⟩) fun _ => ?_
              exact (ih _).strengthen fun _ both => both.1

theorem timeFirst_le_right (left right : UInt64) : amqpTimeFirst left right ≤ right := by
  unfold amqpTimeFirst
  split
  · exact UInt64.le_of_lt ‹_›
  · exact UInt64.le_refl right

theorem scheduleHeartbeat_unreported :
    Triple (fun _ => True) scheduleHeartbeat (fun result _ => Unreported result)
      (fun _ _ => True) := by
  have points (now delta : UInt64) : Unreported (timePointAfter now delta).2 := by
    unfold timePointAfter
    dsimp only
    split <;> exact nofun
  refine .read_bind fun world => Triple.bind (?_ : Triple (fun _ => True) _
    (fun answer _ => Unreported answer.2) _) fun answer => ?_
  · refine .ite (fun _ => .pure fun _ _ => nofun) fun _ => ?_
    refine Triple.bind (?_ : Triple _ _ (fun _ _ => True) _) fun now => ?_
    · intro state _
      cases amqpGetMonotonicTimestamp state <;> trivial
    · exact .ite (fun _ => .pure fun _ _ => nofun) fun _ => .pure fun _ _ => points _ _
  · exact Triple.bind (.modify fun _ unreported => unreported) fun _ =>
      .pure fun _ unreported => unreported

/-- A send that comes to `amqp_try_recv` does not come back from there. -/
theorem sendEncoded_unreported {deadline : UInt64} {encoded : List UInt8} :
    Triple Overdue (sendEncoded deadline fuel encoded) (fun result _ => Unreported result)
      (fun _ _ => True) := by
  cases fuel with
  | zero => exact .throw fun _ _ => trivial
  | succ fuel =>
      refine .get_bind fun world overdue => ?_
      rintro _ rfl
      have expired : Expired (amqpTimeFirst deadline world.nextRecvHeartbeat) world :=
        ⟨overdue, timeFirst_le_right _ _⟩
      refine Triple.bind (Expired.trySendLeft encoded) (fun result => ?_) expired
      cases result with
      | error status => exact .pure fun _ both => both.2.pass
      | ok sent =>
          refine .ite (fun _ => ?_) fun _ => .ite (fun _ => .pure fun _ _ => nofun) fun _ => ?_
          · exact scheduleHeartbeat_unreported.strengthen fun _ _ => trivial
          · refine Triple.bind (tryRecv_silent.strengthen fun _ both => both.1.overdue.toSilent)
              fun received => ?_
            rintro final ⟨status, rfl, untimely⟩
            cases status <;>
              first | exact absurd rfl untimely.1 | exact absurd rfl untimely.2 | exact nofun

theorem sendFrameInner_unreported {frame : Frame} {flags : SendFlags} {deadline : UInt64} :
    Triple Overdue (amqpSendFrameInner frame flags deadline fuel)
      (fun result _ => Unreported result) (fun _ _ => True) := by
  have encodes : Triple Overdue (encodeOutbound frame)
      (fun result world => Overdue world ∧ Unreported result) (fun _ _ => True) := by
    intro world overdue
    cases returned : encodeOutbound frame world with
    | error stop after => trivial
    | ok result after =>
        refine ⟨overdue.of_quiet ((still_encodeOutbound frame).ok returned).toQuiet, ?_⟩
        rintro rfl
        unfold encodeOutbound at returned
        rw [bind_of_ok (get_run world)] at returned
        cases encoded : amqpFrameToBytes frame world.outbound.size world.outbound with
        | ok count outbound =>
            rw [encoded] at returned
            cases returned
        | error failure outbound =>
            rw [encoded] at returned
            have expected := failsToEncode_amqpFrameToBytes encoded
            cases failure with
            | status status =>
                cases returned
                exact absurd expected (by decide)
            | fault fault => cases returned
  refine Triple.bind encodes fun result => ?_
  cases result with
  | error status => exact .pure fun _ both => both.2.pass
  | ok encoded =>
      refine Triple.bind (.modify fun world both => ?_) fun _ => sendEncoded_unreported
      exact both.1.of_quiet (still_of_sending world.outbound world.socketOpen _).toQuiet

end Sending

/-! ## No detection -/

/-- The deadline for the socket is the infinite one. -/
theorem tryRecv_infinite {world : World} (fuel : Nat) (empty : amqpDataInBuffer world = false) :
    amqpTryRecv (fuel + 1) world = recvWithTimeout amqpTimeInfinite fuel world := by
  unfold amqpTryRecv
  rw [bind_of_ok (get_run world), if_neg (by simp [empty])]
  rfl

/-- An overdue peer is never reported as such, neither before a message nor within a frame,
and `amqp_try_recv` waits for it without a deadline. -/
theorem overdue_undetected {world : World} (overdue : Overdue world) :
    (∀ (message : Publication) fuel after,
      message.publish fuel world ≠ .ok (.error .heartbeatTimeout) after) ∧
    (∀ frame flags deadline fuel after,
      amqpSendFrameInner frame flags deadline fuel world ≠
        .ok (.error .heartbeatTimeout) after) ∧
    (amqpDataInBuffer world = false → ∀ fuel,
      amqpTryRecv (fuel + 1) world = recvWithTimeout amqpTimeInfinite fuel world) := by
  refine ⟨?_, ?_, fun empty fuel => tryRecv_infinite fuel empty⟩
  · intro message fuel after reported
    obtain ⟨status, isStatus, untimely⟩ := (publish_overdue message fuel).ok overdue reported
    cases isStatus
    exact untimely.2 rfl
  · intro frame flags deadline fuel after reported
    exact sendFrameInner_unreported.ok overdue reported rfl

/-- The heartbeat of the peer was due at two seconds, and three have passed. -/
def silentWorld : World :=
  { acceptingWorld with
    heartbeat := 1
    nextRecvHeartbeat := 2000000000
    nextSendHeartbeat := 1000000000
    script := { acceptingWorld.script with
      clock := [3000000000]
      recvs := [.needRead]
      recvPolls := [.timedOut] } }

theorem silentWorld_overdue : Overdue silentWorld where
  recvs answer member := List.mem_singleton.mp member
  recvPolls answer member := .inl (List.mem_singleton.mp member)
  enabled := by decide
  past now member := by
    rw [List.mem_singleton.mp member]
    decide
  finite := by decide

theorem overdue_undetected_silent :
    (∀ (message : Publication) fuel after,
      message.publish fuel silentWorld ≠ .ok (.error .heartbeatTimeout) after) ∧
    (∀ frame flags deadline fuel after,
      amqpSendFrameInner frame flags deadline fuel silentWorld ≠
        .ok (.error .heartbeatTimeout) after) ∧
    ∀ fuel, amqpTryRecv (fuel + 1) silentWorld =
      recvWithTimeout amqpTimeInfinite fuel silentWorld := by
  obtain ⟨publish, send, receive⟩ := overdue_undetected silentWorld_overdue
  exact ⟨publish, send, receive (by decide)⟩

theorem silent_peer_undetected :
    ¬ ∀ world, Overdue world → ∀ message : Publication, ∃ fuel after,
      message.publish fuel world = .ok (.error .heartbeatTimeout) after := by
  intro detected
  obtain ⟨fuel, after, reported⟩ := detected silentWorld silentWorld_overdue plainMessage
  obtain ⟨status, isStatus, untimely⟩ :=
    (publish_overdue plainMessage fuel).ok silentWorld_overdue reported
  cases isStatus
  exact untimely.2 rfl

end RabbitmqC
