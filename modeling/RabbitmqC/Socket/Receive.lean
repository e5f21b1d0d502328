import RabbitmqC.Socket.Footprint

/-!
# Rules for receiving

A heartbeat that `wait_frame_inner` sends may itself receive, behind the back of
the loop it interrupts, when it cannot be sent before the next one is due from the
peer. Where sends do not run late, a heartbeat leaves the receiving side alone,
and an invariant of the receive loops needs to survive four things only: quiet
steps, new octets in an empty buffer, a consumed frame and a queued one.
-/

set_option autoImplicit false

namespace RabbitmqC

open Effect

/-! ## Sends that are not late -/

/-- No poll for sending times out. The clock does not run backwards, and the
deadlines are near enough for an `int` to hold the milliseconds until then. -/
structure Patient (world : World) : Prop where
  sendPolls : .timedOut ∉ world.script.sendPolls
  forward : world.script.clock.Pairwise (· ≤ ·)
  interval : 2000 * world.heartbeat < 2 ^ 31
  near : ∀ now ∈ world.script.clock, now < world.nextRecvHeartbeat →
    world.nextRecvHeartbeat ≠ amqpTimeInfinite →
      ((world.nextRecvHeartbeat - now) / nsPerMs).toNat < 2 ^ 31

theorem Patient.of_quiet {before after : World} (patient : Patient before)
    (quiet : Quiet before after) : Patient after where
  sendPolls member := patient.sendPolls (quiet.uses.sendPolls.subset member)
  forward := patient.forward.sublist quiet.uses.clock.sublist
  interval := by
    rw [quiet.heartbeat]
    exact patient.interval
  near := by
    rw [quiet.nextRecvHeartbeat]
    exact fun now member => patient.near now (quiet.uses.clock.subset member)

/-- Heartbeats are switched off. -/
structure Untimed (world : World) : Prop where
  heartbeat : world.heartbeat ≤ 0
  nextRecvHeartbeat : world.nextRecvHeartbeat = amqpTimeInfinite

theorem Untimed.of_quiet {before after : World} (untimed : Untimed before)
    (quiet : Quiet before after) : Untimed after :=
  ⟨quiet.heartbeat ▸ untimed.heartbeat, quiet.nextRecvHeartbeat.trans untimed.nextRecvHeartbeat⟩

/-- No send has to wait until the peer is overdue. -/
def Prompt (world : World) : Prop := Patient world ∨ Untimed world

theorem Prompt.of_quiet {before after : World} (prompt : Prompt before)
    (quiet : Quiet before after) : Prompt after :=
  prompt.imp (·.of_quiet quiet) (·.of_quiet quiet)

theorem Prompt.congr {before after : World} (prompt : Prompt before)
    (script : after.script = before.script) (heartbeat : after.heartbeat = before.heartbeat)
    (nextRecvHeartbeat : after.nextRecvHeartbeat = before.nextRecvHeartbeat) : Prompt after := by
  refine prompt.imp (fun patient => ?_) fun untimed => ?_
  · obtain ⟨sendPolls, forward, interval, near⟩ := patient
    rw [← script] at sendPolls forward near
    rw [← heartbeat] at interval
    rw [← nextRecvHeartbeat] at near
    exact ⟨sendPolls, forward, interval, near⟩
  · exact ⟨heartbeat ▸ untimed.heartbeat, nextRecvHeartbeat.trans untimed.nextRecvHeartbeat⟩

section Sends

variable {world : World} {fuel : Nat}

theorem quiet_of_moves {α : Type} {run : Call α} (moves : Moves Quiet run) :
    Keeps (Quiet world) run :=
  moves.keeps fun _ _ moved quiet => trans_of Quiet quiet moved

theorem still_of_moves {α : Type} {run : Call α} (moves : Moves Still run) :
    Keeps (Still world) run :=
  moves.keeps fun _ _ moved still => trans_of Still still moved

/-- An answer is one of those that were in the script at the beginning. -/
theorem quiet_ask {α : Type} {answers : Script → List α} {keep : Script → List α → Script}
    (asks : Moves Asks (ask answers keep))
    (uses : ∀ before after : Script, before.Uses after → answers after ⊆ answers before) :
    Triple (Quiet world) (ask answers keep)
      (fun answer after => Quiet world after ∧ answer ∈ answers world.script)
      (fun _ => Quiet world) := by
  intro state quiet
  cases returned : ask answers keep state with
  | ok answer after =>
      obtain ⟨rest, answered, _⟩ := ask_eq_ok returned
      refine ⟨trans_of Quiet quiet (quiet_of_asks (asks.ok returned)), uses _ _ quiet.uses ?_⟩
      rw [answered]
      exact List.mem_cons_self
  | error stop after => exact trans_of Quiet quiet (quiet_of_asks (asks.error returned))

/-- The time that is left is a number of milliseconds, unless the timer fails. -/
theorem Patient.msUntil (patient : Patient world) :
    Triple (Quiet world) (amqpTimeMsUntil world.nextRecvHeartbeat)
      (fun timeoutMs after => Quiet world after ∧
        (-1 > timeoutMs → timeoutMs = Status.timerFailure.code))
      (fun _ => Quiet world) := by
  refine .ite (fun _ => .pure fun _ quiet => ⟨quiet, by decide⟩) fun finite => ?_
  refine .ite (fun _ => .pure fun _ quiet => ⟨quiet, by decide⟩) fun _ => ?_
  refine Triple.bind (quiet_ask asks_timestamp fun _ _ uses => uses.clock.subset) fun now => ?_
  refine .ite (fun _ => .pure fun _ both => ⟨both.1, fun _ => rfl⟩) fun _ => ?_
  refine .ite (fun _ => .pure fun _ both => ⟨both.1, by decide⟩) fun later => ?_
  refine .pure fun _ both => ⟨both.1, fun negative => ?_⟩
  have ahead : now < world.nextRecvHeartbeat := by simpa using later
  rw [intOfSize_of_lt (patient.near now both.2 ahead finite)] at negative
  omega

/-- Polling for sending ends with readiness or with an error other than a timeout. -/
theorem Patient.poll (patient : Patient world) :
    Triple (Quiet world) (amqpPoll .toSend world.nextRecvHeartbeat fuel)
      (fun result after => Quiet world after ∧ result ≠ .error .timeout)
      (fun _ => Quiet world) := by
  induction fuel with
  | zero => exact .throw fun _ quiet => quiet
  | succ fuel ih =>
      have records : Keeps (Quiet world) (recordPoll world.nextRecvHeartbeat) :=
        quiet_of_moves ((asks_recordPoll _).mono fun _ _ => quiet_of_asks)
      refine Triple.bind records fun _ => ?_
      refine Triple.bind patient.msUntil fun timeoutMs => .ite (fun negative => ?_) fun _ => ?_
      · refine .pure fun _ both => ⟨both.1, ?_⟩
        rw [both.2 negative]
        decide
      · have answers := @quiet_ask world _ _ (fun script sendPolls => { script with sendPolls })
          (asks_waitingPoll .toSend)
          fun _ _ uses => uses.sendPolls.subset
        refine Triple.bind (answers.strengthen fun _ both => both.1) fun answer => ?_
        cases answer with
        | ready => exact .pure fun _ both => ⟨both.1, by simp⟩
        | timedOut => exact fun _ both => absurd both.2 patient.sendPolls
        | interrupted => exact ih.strengthen fun _ both => both.1
        | failed => exact .pure fun _ both => ⟨both.1, by simp⟩

/-- The socket's own errors are not timeouts either. -/
theorem socketSend_ne_timeout (buf : List UInt8) :
    Triple (Quiet world) (amqpSocketSend buf)
      (fun result after => Quiet world after ∧ result ≠ .error .timeout) (fun _ => Quiet world) := by
  intro state quiet
  cases returned : amqpSocketSend buf state with
  | error stop after =>
      exact quiet_of_moves (quiet_of_still (still_socketSend buf)) |>.error quiet returned
  | ok result after =>
      refine ⟨(quiet_of_moves (quiet_of_still (still_socketSend buf))).ok quiet returned, ?_⟩
      rintro rfl
      unfold amqpSocketSend at returned
      rw [bind_of_ok (get_run state)] at returned
      split at returned
      · obtain ⟨answer, _, _, ended⟩ := bind_eq_ok.mp returned
        cases answer with
        | accepted count => cases ended
        | needRead => cases ended
        | needWrite => cases ended
        | failed failure => cases failure <;> cases ended
      · cases returned

theorem Patient.doPoll (patient : Patient world) {res : Except Status Unit}
    (notLate : res ≠ .error .timeout) :
    Triple (Quiet world) (doPoll res world.nextRecvHeartbeat fuel)
      (fun result after => Quiet world after ∧ result ≠ .error .timeout)
      (fun _ => Quiet world) := by
  refine .read_bind fun state => .ite (fun _ => ?_) fun _ => ?_
  · split
    · exact patient.poll
    · exact patient.poll
    · exact .pure fun _ quiet => ⟨quiet, notLate⟩
  · exact .pure fun _ quiet => ⟨quiet, by simp⟩

/-- What is sent at all is sent in full. -/
theorem Patient.trySendLeft (patient : Patient world) (len : Nat) (left : List UInt8) :
    Triple (Quiet world) (trySendLeft len world.nextRecvHeartbeat fuel left)
      (fun result after => Quiet world after ∧ ∀ sent, result = .ok sent → sent = len)
      (fun _ => Quiet world) := by
  induction fuel generalizing left with
  | zero => exact .throw fun _ quiet => quiet
  | succ fuel ih =>
      have again (res : Except Status Nat) (next : Except Status Unit → Call (Except Status Nat))
          (goesOn : next (.ok ()) = RabbitmqC.trySendLeft len world.nextRecvHeartbeat fuel left)
          (fails : ∀ status, status ≠ .timeout → next (.error status) = pure (.error status)) :
          Triple (fun after => Quiet world after ∧ res ≠ .error .timeout)
            (RabbitmqC.doPoll (res.map fun _ => ()) world.nextRecvHeartbeat fuel >>= next)
            (fun result after => Quiet world after ∧ ∀ sent, result = .ok sent → sent = len)
            (fun _ => Quiet world) := by
        intro state both
        have notLate : (res.map fun _ => ()) ≠ .error .timeout := by
          cases res with
          | ok count => simp [Except.map]
          | error status => simpa [Except.map] using both.2
        refine Triple.bind (patient.doPoll notLate) (fun polled => ?_) both.1
        cases polled with
        | ok _ =>
            rw [goesOn]
            exact (ih left).strengthen fun _ both => both.1
        | error status =>
            by_cases late : status = .timeout
            · rw [late]
              exact fun _ both => absurd rfl both.2
            · rw [fails status late]
              exact .pure fun _ both => ⟨both.1, by simp⟩
      refine Triple.bind (socketSend_ne_timeout left) fun result => ?_
      cases result with
      | error status => exact again _ _ rfl fun status other => by split <;> simp_all
      | ok count =>
          cases count with
          | zero => exact again _ _ rfl fun status other => by split <;> simp_all
          | succ count =>
              refine .ite (fun _ => .pure fun _ both => ⟨both.1, ?_⟩) fun _ => ?_
              · rintro _ ⟨⟩
                rfl
              · exact (ih _).strengthen fun _ both => both.1

theorem timeFirst_infinite_right (time : UInt64) : amqpTimeFirst time amqpTimeInfinite = time := by
  unfold amqpTimeFirst
  split
  · rfl
  · rename_i notBefore
    rw [UInt64.not_lt, UInt64.le_iff_toNat_le] at notBefore
    have largest : time.toNat ≤ amqpTimeInfinite.toNat := Nat.le_of_lt_succ time.toNat_lt
    exact UInt64.toNat_inj.mp (Nat.le_antisymm notBefore largest)

/-- A send that ends at the deadline of its caller does not receive. -/
theorem still_trySendLeft (len : Nat) (deadline : UInt64) (left : List UInt8) :
    Moves Still (trySendLeft len deadline fuel left) := by
  induction fuel generalizing left with
  | zero => exact .throw
  | succ fuel ih =>
      have poll (res : Except Status Unit) : Moves Still (doPoll res deadline fuel) := by
        refine Moves.bind .get fun world => .ite (fun _ => ?_) fun _ => .pure
        split
        · exact (asks_poll _ _ _).mono fun _ _ => still_of_asks
        · exact (asks_poll _ _ _).mono fun _ _ => still_of_asks
        · exact .pure
      refine (still_socketSend left).bind fun result => ?_
      split
      · exact .ite (fun _ => .pure) fun _ => ih _
      · refine (poll _).bind fun polled => ?_
        split
        · exact ih left
        · exact .pure
        · exact .pure

theorem Prompt.sendEncoded (prompt : Prompt world) (deadline : UInt64) (encoded : List UInt8) :
    Keeps (Quiet world) (sendEncoded deadline fuel encoded) := by
  cases fuel with
  | zero => exact .throw fun _ quiet => quiet
  | succ fuel =>
      refine .get_bind fun state quiet => ?_
      have scheduled : Keeps (Quiet world) scheduleHeartbeat := quiet_of_moves quiet_scheduleHeartbeat
      by_cases own : amqpTimeFirst deadline state.nextRecvHeartbeat = deadline
      · have sends := quiet_of_still (@still_trySendLeft fuel encoded.length deadline encoded)
        rw [own]
        refine Triple.bind ((quiet_of_moves sends).strengthen ?_) fun result => ?_
        · rintro _ rfl
          exact quiet
        · cases result with
          | error status => exact .pure fun _ quiet => quiet
          | ok sent =>
              refine .ite (fun _ => scheduled) fun _ => .ite (fun _ => ?_) fun other => absurd rfl other
              exact .pure fun _ quiet => quiet
      · have patient : Patient world := by
          refine prompt.resolve_right fun untimed => own ?_
          rw [quiet.nextRecvHeartbeat, untimed.nextRecvHeartbeat, timeFirst_infinite_right]
        have first : amqpTimeFirst deadline state.nextRecvHeartbeat = world.nextRecvHeartbeat := by
          rw [← quiet.nextRecvHeartbeat]
          unfold amqpTimeFirst at own ⊢
          split
          · rename_i before
            rw [if_pos before] at own
            exact absurd rfl own
          · rfl
        rw [first]
        refine Triple.bind ((patient.trySendLeft encoded.length encoded).strengthen ?_)
          fun result => ?_
        · rintro _ rfl
          exact quiet
        · cases result with
          | error status => exact .pure fun _ both => both.1
          | ok sent =>
              refine .ite (fun _ => scheduled.strengthen fun _ both => both.1) fun incomplete => ?_
              exact fun _ both => absurd (both.2 sent rfl) incomplete

/-- Sending leaves the receiving side alone. -/
theorem Prompt.sendFrameInner (prompt : Prompt world) (frame : Frame) (flags : SendFlags)
    (deadline : UInt64) : Keeps (Quiet world) (amqpSendFrameInner frame flags deadline fuel) := by
  refine Triple.bind (quiet_of_moves (quiet_of_still (still_encodeOutbound frame))) fun result => ?_
  cases result with
  | error status => exact .pure fun _ quiet => quiet
  | ok encoded =>
      refine Triple.bind (.modify fun after quiet => ?_) fun _ => prompt.sendEncoded deadline encoded
      exact trans_of Quiet quiet (still_of_sending _ _ _).toQuiet

theorem Prompt.sendDueHeartbeat (prompt : Prompt world) :
    Keeps (Quiet world) (sendDueHeartbeat fuel) := by
  refine .read_bind fun state => ?_
  refine Triple.bind (quiet_of_moves ((asks_timeHasPast _).mono fun _ _ => quiet_of_asks))
    fun past => ?_
  split
  · exact .pure fun _ quiet => quiet
  · exact prompt.sendFrameInner heartbeatFrame .none amqpTimeInfinite
  · exact .pure fun _ quiet => quiet

/-- No heartbeat falls due. -/
def Undue (world : World) : Prop := ∀ now ∈ world.script.clock, ¬ now > world.nextSendHeartbeat

theorem Undue.of_still {before after : World} (undue : Undue before) (still : Still before after) :
    Undue after := by
  intro now member
  rw [still.nextSendHeartbeat]
  exact undue now (still.uses.clock.subset member)

/-- No heartbeat is sent late, if any is sent at all. -/
def Calm (world : World) : Prop := Prompt world ∨ Undue world

theorem Calm.of_still {before after : World} (calm : Calm before) (still : Still before after) :
    Calm after :=
  calm.imp (·.of_quiet still.toQuiet) (·.of_still still)

theorem Calm.congr {before after : World} (calm : Calm before)
    (script : after.script = before.script) (heartbeat : after.heartbeat = before.heartbeat)
    (nextRecvHeartbeat : after.nextRecvHeartbeat = before.nextRecvHeartbeat)
    (nextSendHeartbeat : after.nextSendHeartbeat = before.nextSendHeartbeat) : Calm after := by
  refine calm.imp (·.congr script heartbeat nextRecvHeartbeat) fun undue => ?_
  unfold Undue at undue ⊢
  rwa [script, nextSendHeartbeat]

theorem Prompt.of_links {before after : World} (prompt : Prompt before)
    (links : Links before after) : Prompt after := by
  obtain ⟨script, queue, poolTable, uses, rfl⟩ := links
  have still : Still before { before with script } := still_of_asks ⟨script, _, uses, rfl⟩
  exact (prompt.of_quiet still.toQuiet).congr rfl rfl rfl

theorem Calm.of_links {before after : World} (calm : Calm before) (links : Links before after) :
    Calm after := by
  obtain ⟨script, queue, poolTable, uses, rfl⟩ := links
  have still : Still before { before with script } := still_of_asks ⟨script, _, uses, rfl⟩
  exact (calm.of_still still).congr rfl rfl rfl rfl

theorem timeHasPast_ne_timeout {time : UInt64} {state after : World}
    (notPast : ∀ now ∈ state.script.clock.head?, ¬ now > time) :
    amqpTimeHasPast time state ≠ .ok (.error .timeout) after := by
  intro returned
  unfold amqpTimeHasPast at returned
  split at returned
  · cases returned
  · obtain ⟨now, between, asked, returned⟩ := bind_eq_ok.mp returned
    obtain ⟨rest, answered, _⟩ := ask_eq_ok asked
    have first : now ∈ state.script.clock.head? := by
      rw [answered]
      rfl
    split at returned
    · cases returned
    · rw [if_neg (notPast now first)] at returned
      cases returned

theorem Undue.sendDueHeartbeat (undue : Undue world) :
    Keeps (Still world) (sendDueHeartbeat fuel) := by
  refine .get_bind fun state still => ?_
  rintro _ rfl
  cases returned : amqpTimeHasPast state.nextSendHeartbeat state with
  | error stop after =>
      rw [bind_of_error returned]
      exact trans_of Still still (still_of_asks ((asks_timeHasPast _).error returned))
  | ok past after =>
      rw [bind_of_ok returned]
      have moved := trans_of Still still (still_of_asks ((asks_timeHasPast _).ok returned))
      have notPast : past ≠ .error .timeout := by
        rintro rfl
        refine timeHasPast_ne_timeout (fun now first => ?_) returned
        exact undue.of_still still now (List.mem_of_mem_head? first)
      match past with
      | .ok _ => exact moved
      | .error status => cases status <;> first | exact moved | exact absurd rfl notPast

/-- A heartbeat leaves the receiving side alone, and the sends to come are not late either. -/
theorem Calm.sendDueHeartbeat (calm : Calm world) :
    Triple (world = ·) (sendDueHeartbeat fuel)
      (fun _ after => Quiet world after ∧ Calm after)
      (fun _ after => Quiet world after ∧ Calm after) := by
  rintro _ rfl
  cases calm with
  | inl prompt =>
      have keeps : Keeps (Quiet world) (RabbitmqC.sendDueHeartbeat fuel) := prompt.sendDueHeartbeat
      cases returned : RabbitmqC.sendDueHeartbeat fuel world with
      | ok result after =>
          have quiet := keeps.ok (refl_of Quiet world) returned
          exact ⟨quiet, .inl (prompt.of_quiet quiet)⟩
      | error stop after =>
          have quiet := keeps.error (refl_of Quiet world) returned
          exact ⟨quiet, .inl (prompt.of_quiet quiet)⟩
  | inr undue =>
      have keeps : Keeps (Still world) (RabbitmqC.sendDueHeartbeat fuel) := undue.sendDueHeartbeat
      cases returned : RabbitmqC.sendDueHeartbeat fuel world with
      | ok result after =>
          have still := keeps.ok (refl_of Still world) returned
          exact ⟨still.toQuiet, .inr (undue.of_still still)⟩
      | error stop after =>
          have still := keeps.error (refl_of Still world) returned
          exact ⟨still.toQuiet, .inr (undue.of_still still)⟩

end Sends

/-! ## New octets -/

/-- The socket has delivered some octets, which replace what was in the buffer. -/
structure Takes (octets : List UInt8) (before after : World) : Prop where
  nonempty : octets ≠ []
  reader : after.reader = before.reader
  sockInbound : after.sockInbound = octets
  sockInboundOffset : after.sockInboundOffset = 0
  queue : after.queue = before.queue
  framesRead : after.framesRead = before.framesRead
  taken : after.taken = before.taken ++ octets
  consumed : after.consumed = before.consumed
  decoded : after.decoded = before.decoded
  inputError : after.inputError = before.inputError
  uses : before.script.Uses after.script
  nextSendHeartbeat : after.nextSendHeartbeat = before.nextSendHeartbeat
  prompt : Prompt before → Prompt after

theorem Takes.calm {octets : List UInt8} {before after : World} (takes : Takes octets before after)
    (calm : Calm before) : Calm after := by
  refine calm.imp takes.prompt fun undue now member => ?_
  rw [takes.nextSendHeartbeat]
  exact undue now (takes.uses.clock.subset member)

/-- The cases of `amqp_time_s_from_now`. -/
theorem timeSFromNow_eq_ok {time result : UInt64} {seconds : Int} {status : Except Status Unit}
    {world after : World}
    (returned : amqpTimeSFromNow time seconds world = .ok (result, status) after) :
    (result = amqpTimeInfinite ∧ status = .ok () ∧ after = world) ∨
      ∃ now rest, world.script.clock = now :: rest ∧
        after = { world with script := { world.script with clock := rest } } ∧
        ((result = time ∧ status = .error .timerFailure) ∨
          0 < seconds ∧
            (result, status) = timePointAfter now (UInt64.ofNat seconds.toNat * nsPerS)) := by
  unfold amqpTimeSFromNow at returned
  split at returned
  · cases returned
    exact .inl ⟨rfl, rfl, rfl⟩
  · rename_i positive
    obtain ⟨now, between, asked, returned⟩ := bind_eq_ok.mp returned
    obtain ⟨rest, answered, rfl⟩ := ask_eq_ok asked
    refine .inr ⟨now, rest, answered, ?_⟩
    split at returned
    · cases returned
      exact ⟨rfl, .inl ⟨rfl, rfl⟩⟩
    · obtain ⟨same, rfl⟩ := EStateM.Result.ok.inj returned
      exact ⟨rfl, .inr ⟨by omega, same.symm⟩⟩

theorem timePointAfter_fst (now delta : UInt64) : (timePointAfter now delta).1 = now + delta := by
  unfold timePointAfter
  dsimp only
  split <;> rfl

theorem nsPerS_toNat : nsPerS.toNat = 1000000000 := by decide +kernel

theorem nsPerMs_toNat : nsPerMs.toNat = 1000000 := by decide +kernel

/-- A deadline counted from now is near for all times to come. -/
theorem near_timePointAfter {now later : UInt64} {seconds : Int} (ordered : now ≤ later)
    (ahead : later < now + UInt64.ofNat seconds.toNat * nsPerS) (short : 1000 * seconds < 2 ^ 31) :
    ((now + UInt64.ofNat seconds.toNat * nsPerS - later) / nsPerMs).toNat < 2 ^ 31 := by
  have delta : (UInt64.ofNat seconds.toNat * nsPerS).toNat = seconds.toNat * 1000000000 := by
    rw [UInt64.toNat_mul, UInt64.toNat_ofNat_of_lt' (by unfold UInt64.size; omega), nsPerS_toNat]
    exact Nat.mod_eq_of_lt (by omega)
  have sum := UInt64.toNat_add now (UInt64.ofNat seconds.toNat * nsPerS)
  have difference := UInt64.toNat_sub_of_le _ _ (UInt64.le_of_lt ahead)
  rw [UInt64.le_iff_toNat_le] at ordered
  rw [UInt64.lt_iff_toNat_lt] at ahead
  rw [UInt64.toNat_div, difference, nsPerMs_toNat]
  rw [delta] at sum
  have nowBound := now.toNat_lt
  -- Past the largest time the deadline comes out before `now`, and so before `later`.
  by_cases wraps : now.toNat + seconds.toNat * 1000000000 < 2 ^ 64
  · rw [Nat.mod_eq_of_lt wraps] at sum
    omega
  · rw [Nat.mod_eq_sub_mod (by omega), Nat.mod_eq_of_lt (by omega)] at sum
    omega

/-- Times were taken from the clock, and the receive deadline has moved. -/
def Awaits (before after : World) : Prop :=
  ∃ script polls nextRecvHeartbeat, before.script.Uses script ∧
    after = { before with script, polls, nextRecvHeartbeat } ∧ (Prompt before → Prompt after)

theorem awaits_awaitHeartbeat {world : World} : Triple (world = ·) awaitHeartbeat
    (fun result after => Awaits world after ∧ result ≠ .error .timeout)
    (fun _ after => Awaits world after) := by
  rintro _ rfl
  unfold awaitHeartbeat
  rw [bind_of_ok (get_run world)]
  cases returned : amqpTimeSFromNow world.nextRecvHeartbeat (amqpHeartbeatRecv world) world with
  | error stop after =>
      rw [bind_of_error returned]
      have asks := (asks_timeSFromNow _ _).error returned
      have prompt (before : Prompt world) := before.of_quiet (quiet_of_asks asks)
      obtain ⟨script, polls, uses, rfl⟩ := asks
      exact ⟨script, polls, _, uses, rfl, prompt⟩
  | ok answer after =>
      obtain ⟨time, status⟩ := answer
      rw [bind_of_ok returned]
      have asks := (asks_timeSFromNow _ _).ok returned
      have cases := timeSFromNow_eq_ok returned
      obtain ⟨script, polls, uses, rfl⟩ := asks
      refine ⟨⟨script, polls, time, uses, rfl, Or.imp (fun patient => ?_) fun untimed => ?_⟩, ?_⟩
      · have before := patient.of_quiet (quiet_of_asks ⟨script, polls, uses, rfl⟩)
        refine ⟨before.sendPolls, before.forward, before.interval, ?_⟩
        intro later member ahead finite
        rcases cases with ⟨rfl, _, _⟩ | ⟨now, rest, answered, same, unchanged | ⟨_, moved⟩⟩
        · exact absurd rfl finite
        · rw [unchanged.1] at ahead finite ⊢
          exact before.near later member ahead finite
        · have point : time = now + UInt64.ofNat (amqpHeartbeatRecv world).toNat * nsPerS := by
            rw [← timePointAfter_fst, ← moved]
          have remaining : script.clock = rest := congrArg (·.script.clock) same
          have ordered := patient.forward
          rw [answered] at ordered
          have notBefore := List.rel_of_pairwise_cons ordered (remaining ▸ member)
          have interval := patient.interval
          subst point
          exact near_timePointAfter notBefore ahead (by unfold amqpHeartbeatRecv; omega)
      · have off := untimed.heartbeat
        refine ⟨off, ?_⟩
        unfold amqpTimeSFromNow at returned
        rw [if_pos (by unfold amqpHeartbeatRecv; omega)] at returned
        exact (congrArg Prod.fst (EStateM.Result.ok.inj returned).1).symm
      · rcases cases with ⟨_, rfl, _⟩ | ⟨_, _, _, _, ⟨_, rfl⟩ | ⟨_, moved⟩⟩
        · simp
        · simp
        · have status := congrArg Prod.snd moved
          unfold timePointAfter at status
          dsimp only at status
          split at status
          · rw [status]
            simp
          · rw [status]
            simp

/-- How `recv_with_timeout` ends: after an error the buffer may be untouched. -/
def Obtains (world : World) : Except Status Unit → World → Prop
  | .ok (), after => ∃ octets, Takes octets world after
  | .error status, after =>
      Still world after ∨ status ≠ .timeout ∧ ∃ octets, Takes octets world after

theorem takes_of_awaits {world middle after : World} {octets : List UInt8}
    (nonempty : octets ≠ []) (still : Still world middle)
    (awaits : Awaits (middle.refill octets) after) : Takes octets world after := by
  obtain ⟨script, _, time, uses, rfl, prompt⟩ := awaits
  exact
    { nonempty
      reader := still.reader
      sockInbound := rfl
      sockInboundOffset := rfl
      queue := still.queue
      framesRead := still.framesRead
      taken := congrArg (· ++ octets) still.taken
      consumed := still.consumed
      decoded := still.decoded
      inputError := still.inputError
      uses := still.uses.trans uses
      nextSendHeartbeat := still.nextSendHeartbeat
      prompt := fun before => prompt ((before.of_quiet still.toQuiet).congr rfl rfl rfl) }

theorem obtains_recvWithTimeout {world : World} {timeout : UInt64} {fuel : Nat} :
    Triple (Still world) (recvWithTimeout timeout fuel) (Obtains world)
      (fun _ after => Still world after ∨ ∃ octets, Takes octets world after) := by
  have poll (fuel : Nat) : Keeps (Still world) (amqpPoll .toReceive timeout fuel) :=
    still_of_moves ((asks_poll _ _ _).mono fun _ _ => still_of_asks)
  induction fuel with
  | zero => exact .throw fun _ still => .inl still
  | succ fuel ih =>
      have received : Triple (Still world) amqpSocketRecv
          (fun result after => Still world after ∧ ∀ octets, result = .ok octets → octets ≠ [])
          (fun _ => Still world) := by
        intro state still
        have moves := @still_of_moves world _ _ (asks_socketRecv.mono fun _ _ => still_of_asks)
        cases returned : amqpSocketRecv state with
        | error stop after => exact moves.error still returned
        | ok result after =>
            refine ⟨moves.ok still returned, ?_⟩
            rintro octets rfl
            unfold amqpSocketRecv at returned
            rw [bind_of_ok (get_run state)] at returned
            split at returned
            · obtain ⟨answer, _, _, ended⟩ := bind_eq_ok.mp returned
              cases answer with
              | data chunk =>
                  cases ended
                  exact chunk.nonempty
              | needRead => cases ended
              | needWrite => cases ended
              | failed failure => cases ended
            · cases returned
      refine Triple.bind (received.raise fun _ _ still => .inl still) fun result => ?_
      cases result with
      | ok octets =>
          let refilled (after : World) : Prop :=
            octets ≠ [] ∧ ∃ middle, Still world middle ∧ after = middle.refill octets
          refine Triple.bind (@Triple.modify _ _ _ _ _ (fun _ => refilled) fun middle both =>
            ⟨both.2 octets rfl, middle, both.1, rfl⟩) fun _ => ?_
          rintro _ ⟨nonempty, middle, still, rfl⟩
          cases awaited : awaitHeartbeat (middle.refill octets) with
          | error stop after =>
              have awaits := awaits_awaitHeartbeat.error rfl awaited
              exact .inr ⟨octets, takes_of_awaits nonempty still awaits⟩
          | ok result after =>
              obtain ⟨awaits, notLate⟩ := awaits_awaitHeartbeat.ok rfl awaited
              have takes := takes_of_awaits nonempty still awaits
              cases result with
              | ok _ => exact ⟨octets, takes⟩
              | error status => exact .inr ⟨by simpa using notLate, octets, takes⟩
      | error status =>
          refine .read_bind fun state => .ite (fun _ => .ite (fun _ => ?_) fun _ =>
            .pure fun _ both => .inl both.1) fun _ => .pure fun _ both => .inl both.1
          refine Triple.bind ((poll fuel).strengthen (fun _ both => both.1) |>.raise fun _ _ still =>
            .inl still) fun polled => ?_
          cases polled with
          | ok _ => exact ih
          | error status => exact .pure fun _ still => .inl still

/-! ## Rules -/

/-- How `consume_one_frame` may end: nothing to deliver, a frame to deliver, or an
error. -/
def ConsumeEnds (invariant : World → Prop) (delivers : Frame → World → Prop)
    (fails : World → Prop) : Except Status Frame → World → Prop
  | .ok frame, world => if frame.frameType = 0 then invariant world else delivers frame world
  | .error _, world => fails world

/-- What an invariant of the receive loops has to survive. -/
structure Receiving (invariant : World → Prop) (delivers : Frame → World → Prop)
    (fails : World → Prop) : Prop where
  calm : ∀ world, invariant world → Calm world
  quiet : ∀ before after, Quiet before after → Calm after → invariant before → invariant after
  takes : ∀ octets before after, Takes octets before after → amqpDataInBuffer before = false →
    invariant before → invariant after
  consume : Triple (fun world => invariant world ∧ amqpDataInBuffer world = true) consumeOneFrame
    (ConsumeEnds invariant delivers fails) (fun _ => invariant)

namespace Receiving

variable {invariant : World → Prop} {delivers : Frame → World → Prop} {fails : World → Prop}
  {fuel : Nat}

theorem still (rule : Receiving invariant delivers fails) (before after : World)
    (still : Still before after) (holds : invariant before) : invariant after :=
  rule.quiet before after still.toQuiet ((rule.calm before holds).of_still still) holds

theorem dataInBuffer_of_quiet {before after : World} (quiet : Quiet before after) :
    amqpDataInBuffer after = amqpDataInBuffer before := by
  unfold amqpDataInBuffer
  rw [quiet.sockInbound, quiet.sockInboundOffset]

/-- One `recv` into an empty buffer. -/
theorem recvWithTimeout (rule : Receiving invariant delivers fails) (timeout : UInt64) :
    Triple (fun world => invariant world ∧ amqpDataInBuffer world = false)
      (recvWithTimeout timeout fuel)
      (fun result world => invariant world ∧
        (result = .error .timeout → amqpDataInBuffer world = false))
      (fun _ => invariant) := by
  intro world both
  have carried : ∀ after, Still world after → invariant after ∧ amqpDataInBuffer after = false :=
    fun after still =>
      ⟨rule.still _ _ still both.1, (dataInBuffer_of_quiet still.toQuiet).trans both.2⟩
  have taken : ∀ octets after, Takes octets world after → invariant after :=
    fun octets after takes => rule.takes octets _ _ takes both.2 both.1
  cases returned : RabbitmqC.recvWithTimeout timeout fuel world with
  | error stop after =>
      rcases obtains_recvWithTimeout.error (refl_of Still world) returned with still | ⟨_, takes⟩
      · exact (carried after still).1
      · exact taken _ after takes
  | ok result after =>
      have obtains := obtains_recvWithTimeout.ok (refl_of Still world) returned
      cases result with
      | ok _ =>
          obtain ⟨octets, takes⟩ := obtains
          exact ⟨taken octets after takes, by simp⟩
      | error status =>
          rcases obtains with still | ⟨notLate, octets, takes⟩
          · exact ⟨(carried after still).1, fun _ => (carried after still).2⟩
          · refine ⟨taken octets after takes, fun late => absurd ?_ notLate⟩
            simpa using late

theorem beginRecv (rule : Receiving invariant delivers fails) (timeoutDeadline : UInt64) :
    Triple (fun world => invariant world ∧ amqpDataInBuffer world = false)
      (beginRecv timeoutDeadline fuel) (fun _ => invariant) (fun _ => invariant) := by
  induction fuel with
  | zero => exact .throw fun _ both => both.1
  | succ fuel ih =>
      have heartbeat : Triple (fun world => invariant world ∧ amqpDataInBuffer world = false)
          (sendDueHeartbeat fuel)
          (fun _ world => invariant world ∧ amqpDataInBuffer world = false)
          (fun _ => invariant) := by
        intro world both
        have calm := rule.calm world both.1
        cases returned : sendDueHeartbeat fuel world with
        | error stop after =>
            obtain ⟨quiet, calm⟩ := calm.sendDueHeartbeat.error rfl returned
            exact rule.quiet _ _ quiet calm both.1
        | ok result after =>
            obtain ⟨quiet, calm⟩ := calm.sendDueHeartbeat.ok rfl returned
            exact ⟨rule.quiet _ _ quiet calm both.1, (dataInBuffer_of_quiet quiet).trans both.2⟩
      refine Triple.bind heartbeat fun result => ?_
      cases result with
      | error status => exact .pure fun _ both => both.1
      | ok _ =>
          refine .read_bind fun world => ?_
          refine Triple.bind (rule.recvWithTimeout _) fun result => ?_
          split
          · refine .read_bind fun world => ?_
            refine .ite (fun _ => ?_) fun _ => .ite (fun _ => ?_) fun _ => .ite (fun _ => ?_)
              fun _ => ?_
            · have keeps := still_socketClose.keeps rule.still
              refine Triple.bind (keeps.strengthen fun _ both => both.1) fun _ => ?_
              exact .pure fun _ holds => holds
            · exact .pure fun _ both => both.1
            · exact ih.strengthen fun _ both => ⟨both.1, both.2 rfl⟩
            · exact .throw fun _ both => both.1
          · exact .pure fun _ both => both.1

/-- How `wait_frame_inner` ends. -/
def WaitEnds (invariant : World → Prop) (delivers : Frame → World → Prop) (fails : World → Prop) :
    Except Status Frame → World → Prop
  | .ok frame, world => delivers frame world ∧ frame.frameType ≠ amqpFrameHeartbeat
  | .error _, world => invariant world ∨ fails world

theorem drainToFrame (rule : Receiving invariant delivers fails)
    (beats : ∀ frame world, frame.frameType = amqpFrameHeartbeat → delivers frame world →
      invariant world) :
    Triple invariant (drainToFrame fuel)
      (fun result world => match result with
        | .ok (some frame) => delivers frame world ∧ frame.frameType ≠ amqpFrameHeartbeat
        | .ok none => invariant world ∧ amqpDataInBuffer world = false
        | .error _ => fails world)
      (fun _ => invariant) := by
  induction fuel with
  | zero => exact .throw fun _ holds => holds
  | succ fuel ih =>
      refine .get_bind fun world holds => .ite (fun data => ?_) fun empty => ?_
      · refine Triple.bind (rule.consume.strengthen ?_) fun result => ?_
        · rintro _ rfl
          exact ⟨holds, data⟩
        · cases result with
          | error status => exact .pure fun _ fails => fails
          | ok frame =>
              refine .ite (fun beat => ?_) fun notBeat => .ite (fun full => ?_) fun empty => ?_
              · have released := (still_maybeReleaseBuffersOnChannel 0).keeps rule.still
                refine Triple.bind (released.strengthen fun world ends => ?_) fun _ => ih
                have nonzero : frame.frameType ≠ 0 := by
                  rw [beat]
                  decide
                rw [ConsumeEnds, if_neg nonzero] at ends
                exact beats frame world beat ends
              · refine .pure fun world ends => ⟨?_, notBeat⟩
                rwa [ConsumeEnds, if_neg full] at ends
              · refine ih.strengthen fun world ends => ?_
                rwa [ConsumeEnds, if_pos (by simpa using empty)] at ends
      · refine .pure ?_
        rintro _ rfl
        exact ⟨holds, by simpa using empty⟩

theorem waitFrameInner (rule : Receiving invariant delivers fails)
    (beats : ∀ frame world, frame.frameType = amqpFrameHeartbeat → delivers frame world →
      invariant world) (timeoutDeadline : UInt64) :
    Triple invariant (waitFrameInner timeoutDeadline fuel) (WaitEnds invariant delivers fails)
      (fun _ => invariant) := by
  induction fuel with
  | zero => exact .throw fun _ holds => holds
  | succ fuel ih =>
      refine Triple.bind (rule.drainToFrame beats) fun result => ?_
      match result with
      | .error status => exact .pure fun _ fails => .inr fails
      | .ok (some frame) => exact .pure fun _ ends => ends
      | .ok none =>
          refine Triple.bind (rule.beginRecv timeoutDeadline) fun received => ?_
          cases received with
          | error status => exact .pure fun _ holds => .inl holds
          | ok _ => exact ih

theorem tryRecv (rule : Receiving invariant delivers fails)
    (queues : ∀ frame, frame.frameType ≠ 0 →
      Triple (delivers frame) (queueReceived frame) (fun _ => invariant) (fun _ => invariant)) :
    Triple invariant (amqpTryRecv fuel) (fun _ world => invariant world ∨ fails world)
      (fun _ => invariant) := by
  induction fuel with
  | zero => exact .throw fun _ holds => holds
  | succ fuel ih =>
      refine .get_bind fun world holds => .ite (fun data => ?_) fun empty => ?_
      · refine Triple.bind (rule.consume.strengthen ?_) fun result => ?_
        · rintro _ rfl
          exact ⟨holds, data⟩
        · cases result with
          | error status => exact .pure fun _ fails => .inr fails
          | ok frame =>
              refine .ite (fun full => ?_) fun empty => ?_
              · refine Triple.bind ((queues frame full).strengthen fun world ends => ?_)
                  fun queued => ?_
                · rwa [ConsumeEnds, if_neg full] at ends
                · cases queued with
                  | error status => exact .pure fun _ holds => .inl holds
                  | ok _ => exact ih
              · refine ih.strengthen fun world ends => ?_
                rwa [ConsumeEnds, if_pos (by simpa using empty)] at ends
      · -- Zero seconds from now is never, and no time is asked for.
        refine ((rule.recvWithTimeout amqpTimeInfinite).strengthen ?_).weaken
          fun _ _ both => .inl both.1
        rintro _ rfl
        exact ⟨holds, by simpa using empty⟩

end Receiving

end RabbitmqC
