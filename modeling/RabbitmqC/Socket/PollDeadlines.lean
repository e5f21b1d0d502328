import RabbitmqC.Socket.DeadPeer
import RabbitmqC.Socket.Rpc

/-!
# Deadlines of polls

`amqp_simple_wait_frame_noblock` waits for the socket no longer than its timeout
allows, but a heartbeat that falls due meanwhile is sent with a deadline of its
own. Only a socket that does not take the heartbeat at once shows the difference.
-/

set_option autoImplicit false

namespace RabbitmqC

open Effect

/-! ## Steps without polls -/

/-- Nothing was polled, and no heartbeat was scheduled. -/
structure Idles (before after : World) : Prop where
  polls : after.polls = before.polls
  nextSendHeartbeat : after.nextSendHeartbeat = before.nextSendHeartbeat
  socketOpen : before.socketOpen = false → after.socketOpen = false
  outbound : after.outbound.size = before.outbound.size

instance : IsPreorder World Idles where
  refl _ := ⟨rfl, rfl, id, rfl⟩
  trans _ _ _ left right :=
    ⟨right.polls.trans left.polls, right.nextSendHeartbeat.trans left.nextSendHeartbeat,
      right.socketOpen ∘ left.socketOpen, right.outbound.trans left.outbound⟩

theorem idles_ask {α : Type} {answers : Script → List α} {keep : Script → List α → Script} :
    Moves Idles (ask answers keep) := by
  refine Moves.get_bind fun world => ?_
  cases answers world.script with
  | nil => exact refl_of Idles world
  | cons answer rest => exact ⟨rfl, rfl, id, rfl⟩

theorem idles_timestamp : Moves Idles amqpGetMonotonicTimestamp := idles_ask

theorem idles_timeSFromNow (time : UInt64) (seconds : Int) :
    Moves Idles (amqpTimeSFromNow time seconds) :=
  .ite (fun _ => .pure) fun _ => idles_timestamp.bind fun _ => .ite (fun _ => .pure) fun _ => .pure

theorem idles_timeHasPast (time : UInt64) : Moves Idles (amqpTimeHasPast time) := by
  refine .ite (fun _ => .pure) fun _ => idles_timestamp.bind fun now => ?_
  exact .ite (fun _ => .pure) fun _ => .ite (fun _ => .pure) fun _ => .pure

theorem idles_timeFromNow (timeout : Option Timeval) : Moves Idles (amqpTimeFromNow timeout) := by
  cases timeout with
  | none => exact .pure
  | some timeout =>
      unfold amqpTimeFromNow
      refine .ite (fun _ => .pure) fun _ => idles_timestamp.bind fun now => ?_
      refine .ite (fun _ => .pure) fun _ => ?_
      split
      exact .pure

theorem idles_timeMsUntil (time : UInt64) : Moves Idles (amqpTimeMsUntil time) := by
  refine .ite (fun _ => .pure) fun _ => .ite (fun _ => .pure) fun _ => ?_
  refine idles_timestamp.bind fun now => ?_
  exact .ite (fun _ => .pure) fun _ => .ite (fun _ => .pure) fun _ => .pure

theorem idles_waitingPoll (waiting : Waiting) : Moves Idles waiting.poll := by
  unfold Waiting.poll
  cases waiting with
  | toReceive => exact idles_ask
  | toSend => exact idles_ask

theorem idles_socketRecv : Moves Idles amqpSocketRecv := by
  refine Moves.bind .get fun world => .ite (fun _ => ?_) fun _ => .pure
  refine Moves.bind idles_ask fun answer => ?_
  cases answer <;> exact .pure

theorem idles_socketClose : Moves Idles amqpSocketClose := by
  refine Moves.bind .get fun world => .ite (fun _ => ?_) fun _ => .pure
  refine Moves.bind idles_ask fun closed => .ite (fun _ => ?_) fun _ => .pure
  exact Moves.bind (.modify fun _ => ⟨rfl, rfl, fun _ => rfl, rfl⟩) fun _ => .pure

theorem idles_awaitHeartbeat : Moves Idles awaitHeartbeat := by
  refine Moves.bind .get fun world => (idles_timeSFromNow _ _).bind fun answer => ?_
  refine Moves.bind (.modify fun _ => ?_) fun _ => .pure
  exact ⟨rfl, rfl, id, rfl⟩

theorem idles_consumeOneFrame : Moves Idles consumeOneFrame := by
  refine Moves.get_bind fun world => ?_
  cases amqpHandleInput (world.script.memory world.framesRead) world.reader world.unread with
  | error fault => exact refl_of Idles world
  | ok handled =>
      obtain ⟨reader, result, frame⟩ := handled
      cases result with
      | error status => exact ⟨rfl, rfl, id, rfl⟩
      | ok count => exact ⟨rfl, rfl, id, rfl⟩

theorem idles_maybeReleaseBuffersOnChannel (channel : UInt16) :
    Moves Idles (amqpMaybeReleaseBuffersOnChannel channel) := by
  refine .get_bind fun world => ?_
  cases world.queue.find (fun frame => channel == frame.channel) world.queue.reach
    world.queue.first with
  | some link => split <;> exact refl_of Idles world
  | none =>
      split
      · exact refl_of Idles world
      · dsimp only
        split
        · exact ⟨rfl, rfl, id, rfl⟩
        · exact refl_of Idles world

theorem idles_drainToFrame (fuel : Nat) : Moves Idles (drainToFrame fuel) := by
  induction fuel with
  | zero => exact .throw
  | succ fuel ih =>
      refine Moves.bind .get fun world => .ite (fun _ => ?_) fun _ => .pure
      refine idles_consumeOneFrame.bind fun consumed => ?_
      cases consumed with
      | error status => exact .pure
      | ok frame =>
          refine .ite (fun _ => (idles_maybeReleaseBuffersOnChannel 0).bind fun _ => ih) fun _ => ?_
          exact .ite (fun _ => .pure) fun _ => ih

theorem idles_encodeOutbound (frame : Frame) : Moves Idles (encodeOutbound frame) := by
  refine Moves.get_bind fun world => ?_
  have alike := @lockstep_amqpFrameToBytes world.outbound.size frame world.outbound.size
    world.outbound world.outbound ⟨rfl, rfl⟩
  cases returned : amqpFrameToBytes frame world.outbound.size world.outbound with
  | ok count outbound =>
      rw [returned] at alike
      cases alike with
      | ok same => exact ⟨rfl, rfl, id, same.1⟩
  | error failure outbound =>
      rw [returned] at alike
      cases alike with
      | error same =>
          cases failure with
          | status status => exact ⟨rfl, rfl, id, same.1⟩
          | fault fault => exact refl_of Idles world

/-! ## Connections that send no heartbeat -/

/-- No heartbeat of this connection comes as far as the socket. -/
def Mute (world : World) : Prop :=
  world.nextSendHeartbeat = amqpTimeInfinite ∨ world.socketOpen = false ∨
    world.outbound.size < headerSize + footerSize

theorem Mute.of_idles {before after : World} (mute : Mute before) (idles : Idles before after) :
    Mute after := by
  refine mute.imp idles.nextSendHeartbeat.trans (Or.imp idles.socketOpen ?_)
  rw [idles.outbound]
  exact id

section Mute

variable {start : World} {past : List UInt64} {deadline : UInt64} {fuel : Nat}

theorem idles_of_moves {α : Type} {run : Call α} (moves : Moves Idles run) :
    Keeps (Idles start) run :=
  moves.keeps fun _ _ moved idles => trans_of Idles idles moved

/-- A closed socket does not poll. -/
theorem sendEncoded_closed (time : UInt64) (encoded : List UInt8) :
    Triple (fun world => Idles start world ∧ world.socketOpen = false)
      (sendEncoded time fuel encoded) (fun _ => Idles start) (fun _ => Idles start) := by
  intro world both
  match fuel with
  | 0 => exact both.1
  | 1 => exact both.1
  | fuel + 2 =>
      unfold sendEncoded
      rw [bind_of_ok (get_run world), bind_of_ok (trySend_of_closed both.2)]
      exact both.1

theorem encodeOutbound_small {world after : World} {frame : Frame} {encoded : List UInt8}
    (small : world.outbound.size < headerSize + footerSize) :
    encodeOutbound frame world ≠ .ok (.ok encoded) after := by
  intro returned
  unfold encodeOutbound at returned
  rw [bind_of_ok (get_run world)] at returned
  cases stored : amqpFrameToBytes frame world.outbound.size world.outbound with
  | ok count outbound =>
      obtain ⟨_, atLeast, atMost⟩ := size_of_amqpFrameToBytes stored
      omega
  | error failure outbound =>
      rw [stored] at returned
      cases failure <;> cases returned

/-- A frame for a closed socket, or one that cannot be encoded, is not waited for. -/
theorem idles_sendFrame (frame : Frame)
    (unsendable : start.socketOpen = false ∨ start.outbound.size < headerSize + footerSize) :
    Keeps (Idles start) (amqpSendFrame frame fuel) := by
  have encodes : Triple (Idles start) (encodeOutbound frame)
      (fun result after => Idles start after ∧ ∀ encoded, result = .ok encoded →
        after.socketOpen = false) (fun _ => Idles start) := by
    intro state idles
    cases returned : encodeOutbound frame state with
    | error stop after => exact trans_of Idles idles ((idles_encodeOutbound frame).error returned)
    | ok result after =>
        have moved := trans_of Idles idles ((idles_encodeOutbound frame).ok returned)
        refine ⟨moved, fun encoded isEncoded => moved.socketOpen ?_⟩
        refine unsendable.resolve_right fun small => ?_
        rw [← idles.outbound] at small
        exact encodeOutbound_small small (isEncoded ▸ returned)
  refine Triple.bind encodes fun result => ?_
  cases result with
  | error status => exact .pure fun _ both => both.1
  | ok encoded =>
      refine Triple.bind (.modify fun world both => ⟨?_, both.2 encoded rfl⟩) fun _ =>
        sendEncoded_closed _ encoded
      refine trans_of Idles both.1 ?_
      exact ⟨rfl, rfl, id, rfl⟩

theorem Mute.sendDueHeartbeat (mute : Mute start) :
    Keeps (Idles start) (sendDueHeartbeat fuel) := by
  refine .get_bind fun state idles => ?_
  rcases mute with infinite | unsendable
  · rw [idles.nextSendHeartbeat, infinite]
    exact .pure fun _ same => same ▸ idles
  · have asks := @idles_of_moves start _ _ (idles_timeHasPast state.nextSendHeartbeat)
    refine Triple.bind (asks.strengthen fun _ same => same ▸ idles) fun due => ?_
    split
    · exact .pure fun _ moved => moved
    · exact idles_sendFrame heartbeatFrame unsendable
    · exact .pure fun _ moved => moved

/-! ## Waiting -/

/-- What is polled is polled with a deadline that is not too late. -/
structure PollsBefore (deadline : UInt64) (past : List UInt64) (world : World) : Prop where
  mute : Mute world
  polls : ∃ new, world.polls = past ++ new ∧ ∀ poll ∈ new, poll ≤ deadline

theorem PollsBefore.of_idles {before after : World} (waits : PollsBefore deadline past before)
    (idles : Idles before after) : PollsBefore deadline past after :=
  ⟨waits.mute.of_idles idles, idles.polls ▸ waits.polls⟩

theorem pollsBefore_of_moves {α : Type} {run : Call α} (moves : Moves Idles run) :
    Keeps (PollsBefore deadline past) run :=
  moves.keeps fun _ _ moved waits => waits.of_idles moved

theorem pollsBefore_recordPoll {time : UInt64} (early : time ≤ deadline) :
    Keeps (PollsBefore deadline past) (recordPoll time) := by
  refine .modify fun world ⟨mute, new, isPolls, earlier⟩ => ⟨mute, new ++ [time], ?_, ?_⟩
  · rw [isPolls, List.append_assoc]
  · intro poll member
    rcases List.mem_append.mp member with old | last
    · exact earlier poll old
    · exact List.mem_singleton.mp last ▸ early

theorem pollsBefore_poll {waiting : Waiting} {time : UInt64} (early : time ≤ deadline) :
    Keeps (PollsBefore deadline past) (amqpPoll waiting time fuel) := by
  induction fuel with
  | zero => exact .throw fun _ waits => waits
  | succ fuel ih =>
      refine Triple.bind (pollsBefore_recordPoll early) fun _ => ?_
      refine Triple.bind (pollsBefore_of_moves (idles_timeMsUntil time)) fun timeoutMs => ?_
      refine .ite (fun _ => .pure fun _ waits => waits) fun _ => ?_
      refine Triple.bind (pollsBefore_of_moves (idles_waitingPoll waiting)) fun answer => ?_
      cases answer with
      | ready => exact .pure fun _ waits => waits
      | timedOut => exact .ite (fun _ => ih) fun _ => .pure fun _ waits => waits
      | interrupted => exact ih
      | failed => exact .pure fun _ waits => waits

theorem pollsBefore_recvWithTimeout {time : UInt64} (early : time ≤ deadline) :
    Keeps (PollsBefore deadline past) (recvWithTimeout time fuel) := by
  induction fuel with
  | zero => exact .throw fun _ waits => waits
  | succ fuel ih =>
      refine Triple.bind (pollsBefore_of_moves idles_socketRecv) fun received => ?_
      cases received with
      | ok octets =>
          refine Triple.bind (.modify fun world waits => ?_) fun _ =>
            pollsBefore_of_moves idles_awaitHeartbeat
          exact waits.of_idles ⟨rfl, rfl, id, rfl⟩
      | error status =>
          refine .read_bind fun world => .ite (fun _ => .ite (fun _ => ?_) fun _ => ?_) fun _ => ?_
          · refine Triple.bind (pollsBefore_poll early) fun polled => ?_
            cases polled with
            | ok _ => exact ih
            | error status => exact .pure fun _ waits => waits
          · exact .pure fun _ waits => waits
          · exact .pure fun _ waits => waits

theorem timeFirst_le_left (left right : UInt64) : amqpTimeFirst left right ≤ left := by
  unfold amqpTimeFirst
  split
  · exact UInt64.le_refl left
  · exact UInt64.not_lt.mp ‹_›

theorem pollsBefore_sendDueHeartbeat :
    Keeps (PollsBefore deadline past) (sendDueHeartbeat fuel) := by
  intro world waits
  have idles : Keeps (Idles world) (sendDueHeartbeat fuel) := waits.mute.sendDueHeartbeat
  cases returned : sendDueHeartbeat fuel world with
  | ok result after => exact waits.of_idles (idles.ok (refl_of Idles world) returned)
  | error stop after => exact waits.of_idles (idles.error (refl_of Idles world) returned)

theorem pollsBefore_beginRecv :
    Keeps (PollsBefore deadline past) (beginRecv deadline fuel) := by
  induction fuel with
  | zero => exact .throw fun _ waits => waits
  | succ fuel ih =>
      refine Triple.bind pollsBefore_sendDueHeartbeat fun sent => ?_
      cases sent with
      | error status => exact .pure fun _ waits => waits
      | ok _ =>
          refine .read_bind fun world => ?_
          refine Triple.bind (pollsBefore_recvWithTimeout (timeFirst_le_left _ _)) fun received => ?_
          split
          · refine .read_bind fun world => .ite (fun _ => ?_) fun _ => ?_
            · exact Triple.bind (pollsBefore_of_moves idles_socketClose) fun _ =>
                .pure fun _ waits => waits
            · refine .ite (fun _ => .pure fun _ waits => waits) fun _ => ?_
              exact .ite (fun _ => ih) fun _ => .throw fun _ waits => waits
          · exact .pure fun _ waits => waits

theorem pollsBefore_waitFrameInner :
    Keeps (PollsBefore deadline past) (waitFrameInner deadline fuel) := by
  induction fuel with
  | zero => exact .throw fun _ waits => waits
  | succ fuel ih =>
      refine Triple.bind (pollsBefore_of_moves (idles_drainToFrame fuel)) fun drained => ?_
      split
      · exact .pure fun _ waits => waits
      · exact .pure fun _ waits => waits
      · refine Triple.bind pollsBefore_beginRecv fun received => ?_
        cases received with
        | error status => exact .pure fun _ waits => waits
        | ok _ => exact ih

end Mute

/-! ## Connections that do -/

/-- The same connection with another script. -/
def Rescripted (old new : Script) (left right : World) : Prop :=
  left.script = old ∧ right = { left with script := new }

section Rescripted

variable {old new : Script} {fuel : Nat} {world after : World}

theorem lockstep_consumeOneFrame (memory : new.memory = old.memory) :
    Lockstep (Rescripted old new) consumeOneFrame := by
  refine .get_bind fun left right ⟨isOld, isRight⟩ => ?_
  subst isRight isOld
  have unread : ({ left with script := new } : World).unread = left.unread := rfl
  dsimp only
  rw [memory, unread]
  cases amqpHandleInput (left.script.memory left.framesRead) left.reader left.unread with
  | error fault => exact .error ⟨rfl, rfl⟩
  | ok handled =>
      obtain ⟨reader, result, frame⟩ := handled
      cases result with
      | error status => exact .ok ⟨rfl, rfl⟩
      | ok count => exact .ok ⟨rfl, rfl⟩

theorem lockstep_maybeReleaseBuffersOnChannel (channel : UInt16) :
    Lockstep (Rescripted old new) (amqpMaybeReleaseBuffersOnChannel channel) := by
  refine .get_bind fun left right ⟨isOld, isRight⟩ => ?_
  subst isRight isOld
  dsimp only
  split
  · exact .ok ⟨rfl, rfl⟩
  · cases left.queue.find (fun frame => channel == frame.channel) left.queue.reach
      left.queue.first with
    | some link => exact .ok ⟨rfl, rfl⟩
    | none =>
        dsimp only
        split
        · exact .ok ⟨rfl, rfl⟩
        · exact .ok ⟨rfl, rfl⟩

/-- What is buffered is consumed the same way whatever the clock and the socket do. -/
theorem lockstep_drainToFrame (memory : new.memory = old.memory) :
    Lockstep (Rescripted old new) (drainToFrame fuel) := by
  induction fuel with
  | zero => exact .throw
  | succ fuel ih =>
      refine .get_bind fun left right same => ?_
      have isRight := same.2
      have alike : amqpDataInBuffer right = amqpDataInBuffer left := by
        rw [isRight]
        rfl
      rw [alike]
      split
      · refine (lockstep_consumeOneFrame memory).bind (fun consumed => ?_) same
        cases consumed with
        | error status => exact .pure
        | ok frame =>
            dsimp only
            split
            · exact (lockstep_maybeReleaseBuffersOnChannel 0).bind fun _ => ih
            · split
              · exact .pure
              · exact ih
      · exact .ok same

theorem inward_maybeReleaseBuffersOnChannel (channel : UInt16) :
    Moves Inward (amqpMaybeReleaseBuffersOnChannel channel) := by
  refine .get_bind fun world => ?_
  split
  · rfl
  · cases world.queue.find (fun frame => channel == frame.channel) world.queue.reach
      world.queue.first with
    | some link => rfl
    | none =>
        dsimp only
        split <;> rfl

theorem inward_drainToFrame : Moves Inward (drainToFrame fuel) := by
  induction fuel with
  | zero => exact .throw
  | succ fuel ih =>
      refine Moves.bind .get fun world => .ite (fun _ => ?_) fun _ => .pure
      refine inward_consumeOneFrame.bind fun consumed => ?_
      cases consumed with
      | error status => exact .pure
      | ok frame =>
          refine .ite (fun _ => ?_) fun _ => .ite (fun _ => .pure) fun _ => ih
          exact (inward_maybeReleaseBuffersOnChannel 0).bind fun _ => ih

/-- The loop ends without a frame when nothing is left. -/
theorem dataInBuffer_of_drainToFrame : Triple (fun _ => True) (drainToFrame fuel)
    (fun drained after => drained = .ok none → amqpDataInBuffer after = false)
    (fun _ _ => True) := by
  induction fuel with
  | zero => exact .throw fun _ _ => trivial
  | succ fuel ih =>
      refine .get_bind fun world _ => .ite (fun _ => ?_) fun empty => ?_
      · have anything {α : Type} {run : Call α} :
            Triple (fun _ => True) run (fun _ _ => True) fun _ _ => True := by
          intro state _
          cases run state <;> trivial
        refine Triple.bind (anything.strengthen fun _ _ => trivial) fun consumed => ?_
        cases consumed with
        | error status => exact .pure fun _ _ => nofun
        | ok frame =>
            refine .ite (fun _ => Triple.bind anything fun _ => ih) fun _ => ?_
            exact .ite (fun _ => .pure fun _ _ => nofun) fun _ => ih
      · refine .pure fun _ same _ => ?_
        rw [← same]
        simpa using empty

/-- More fuel does not change what the loop returns. -/
theorem drainToFrame_mono {result : Except Status (Option Frame)} (extra : Nat)
    (returned : drainToFrame fuel world = .ok result after) :
    drainToFrame (fuel + extra) world = .ok result after := by
  induction fuel generalizing world with
  | zero => cases returned
  | succ fuel ih =>
      rw [Nat.add_right_comm]
      unfold drainToFrame at returned ⊢
      rw [bind_of_ok (get_run world)] at returned ⊢
      split at returned
      · rename_i some
        rw [if_pos some]
        obtain ⟨consumed, between, consumes, returned⟩ := bind_eq_ok.mp returned
        rw [bind_of_ok consumes]
        cases consumed with
        | error status => exact returned
        | ok frame =>
            dsimp only at returned ⊢
            split at returned
            · rename_i beat
              rw [if_pos beat]
              obtain ⟨_, released, releases, returned⟩ := bind_eq_ok.mp returned
              rw [bind_of_ok releases]
              exact ih returned
            · rename_i other
              rw [if_neg other]
              split at returned
              · rename_i complete
                rw [if_pos complete]
                exact returned
              · rename_i incomplete
                rw [if_neg incomplete]
                exact ih returned
      · rename_i none
        rw [if_neg none]
        exact returned

end Rescripted

section Blocked

variable {world : World} {fuel : Nat} {time : UInt64}

/-- The socket neither takes nor delivers anything. -/
def blockingScript (nextRecvHeartbeat : UInt64) (clock : List UInt64)
    (memory : Nat → FrameMemory) : Script where
  clock
  recvs := [.needRead]
  sends := [.needWrite]
  recvPolls := []
  sendPolls := if nextRecvHeartbeat = amqpTimeInfinite then [] else [.timedOut]
  closes := []
  links := []
  memory

theorem le_infinite (time : UInt64) : time ≤ amqpTimeInfinite := Nat.le_of_lt_succ time.toNat_lt

theorem receivePoll_of_nil (unanswered : world.script.recvPolls = []) :
    Waiting.toReceive.poll world = .error .blocked world := by
  unfold Waiting.poll
  exact ask_of_nil unanswered

theorem sendPoll_of_nil (unanswered : world.script.sendPolls = []) :
    Waiting.toSend.poll world = .error .blocked world := by
  unfold Waiting.poll
  exact ask_of_nil unanswered

theorem poll_blocked {waiting : Waiting}
    (unanswered : ∀ polls, waiting.poll { world with polls } = .error .blocked { world with polls }) :
    ∃ after, amqpPoll waiting amqpTimeInfinite (fuel + 1) world = .error .blocked after ∧
      after.polls = world.polls ++ [amqpTimeInfinite] := by
  let polled : World := { world with polls := world.polls ++ [amqpTimeInfinite] }
  have left : amqpTimeMsUntil amqpTimeInfinite polled = .ok (-1) polled := rfl
  refine ⟨polled, ?_, rfl⟩
  unfold amqpPoll recordPoll
  rw [bind_of_ok (modify_run _ world), bind_of_ok left, if_neg (by decide)]
  exact bind_of_error (unanswered _)

/-- A deadline that has passed is reported by the first poll. -/
theorem pollSend_expired {clock : List UInt64} {sendPolls : List PollAnswer}
    (finite : time ≠ amqpTimeInfinite) (isClock : world.script.clock = amqpTimeInfinite :: clock)
    (answered : world.script.sendPolls = .timedOut :: sendPolls) :
    ∃ script, amqpPoll .toSend time (fuel + 1) world = .ok (.error .timeout)
        { world with script, polls := world.polls ++ [time] } ∧
      script.recvs = world.script.recvs ∧ script.recvPolls = world.script.recvPolls := by
  let polled : World := { world with polls := world.polls ++ [time] }
  have left : ∃ clock, amqpTimeMsUntil time polled = .ok 0 { polled with script.clock := clock } := by
    unfold amqpTimeMsUntil
    rw [if_neg finite]
    by_cases zero : time = 0
    · rw [if_pos zero]
      exact ⟨world.script.clock, rfl⟩
    · rw [if_neg zero]
      refine ⟨clock, ?_⟩
      have reached : amqpTimeInfinite ≥ time := le_infinite time
      apply (bind_of_ok (@timestamp_of_cons polled _ _ isClock)).trans
      rw [if_neg (by decide), if_pos reached]
      rfl
  obtain ⟨rest, left⟩ := left
  have asks := @ask_of_cons _ (·.sendPolls) (fun script sendPolls => { script with sendPolls })
    { polled with script.clock := rest } _ _ answered
  refine ⟨{ world.script with clock := rest, sendPolls }, ?_, rfl, rfl⟩
  unfold amqpPoll recordPoll
  rw [bind_of_ok (modify_run _ world), bind_of_ok left, if_neg (by decide)]
  exact bind_of_ok asks

theorem socketSend_needWrite {buf : List UInt8} {sends : List SendAnswer}
    (isOpen : world.socketOpen = true) (answered : world.script.sends = .needWrite :: sends) :
    amqpSocketSend buf world =
      .ok (.error .privateSocketNeedwrite) { world with script.sends := sends } := by
  unfold amqpSocketSend
  rw [bind_of_ok (get_run world), if_pos isOpen]
  apply (bind_of_ok (ask_of_cons answered)).trans
  rfl

theorem recvWithTimeout_blocked {recvs : List RecvAnswer} (isOpen : world.socketOpen = true)
    (answered : world.script.recvs = .needRead :: recvs) (noPolls : world.script.recvPolls = []) :
    ∃ after, recvWithTimeout amqpTimeInfinite (fuel + 2) world = .error .blocked after ∧
      after.polls = world.polls ++ [amqpTimeInfinite] := by
  let asked : World := { world with script.recvs := recvs }
  have receives : amqpSocketRecv world = .ok (.error .privateSocketNeedread) asked := by
    unfold amqpSocketRecv
    rw [bind_of_ok (get_run world), if_pos isOpen]
    apply (bind_of_ok (ask_of_cons answered)).trans
    rfl
  obtain ⟨after, polls, isPolls⟩ := @poll_blocked asked fuel .toReceive fun _ =>
    receivePoll_of_nil noPolls
  refine ⟨after, ?_, isPolls⟩
  unfold recvWithTimeout
  rw [bind_of_ok receives]
  apply (bind_of_ok (get_run asked)).trans
  rw [if_pos isOpen, if_pos (by decide)]
  exact bind_of_error polls

/-- A frame that the socket does not take is waited for without end, at the latest by
`amqp_try_recv`. -/
theorem sendEncoded_blocked {encoded : List UInt8} {memory : Nat → FrameMemory}
    (some : encoded ≠ []) (isOpen : world.socketOpen = true)
    (empty : amqpDataInBuffer world = false)
    (isScript : world.script =
      blockingScript world.nextRecvHeartbeat [amqpTimeInfinite] memory) :
    ∃ after new, sendEncoded amqpTimeInfinite (fuel + 5) encoded world = .error .blocked after ∧
      after.polls = world.polls ++ new ∧ amqpTimeInfinite ∈ new := by
  have first : amqpTimeFirst amqpTimeInfinite world.nextRecvHeartbeat = world.nextRecvHeartbeat :=
    if_neg (UInt64.not_lt.mpr (le_infinite _))
  have refused : amqpSocketSend encoded world = .ok (.error .privateSocketNeedwrite) _ :=
    socketSend_needWrite isOpen (by rw [isScript]; rfl)
  generalize isAsked : ({ world with script.sends := [] } : World) = asked at refused
  have polls : doPoll (.error .privateSocketNeedwrite) world.nextRecvHeartbeat (fuel + 3) asked =
      amqpPoll .toSend world.nextRecvHeartbeat (fuel + 3) asked := by
    subst isAsked
    exact (bind_of_ok (get_run _)).trans (congrFun (if_pos isOpen) _)
  by_cases infinite : world.nextRecvHeartbeat = amqpTimeInfinite
  · have unanswered : asked.script.sendPolls = [] := by
      rw [← isAsked, isScript]
      exact if_pos infinite
    obtain ⟨after, blocked, isPolls⟩ := @poll_blocked asked (fuel + 2) .toSend fun _ =>
      sendPoll_of_nil unanswered
    refine ⟨after, [amqpTimeInfinite], ?_, ?_, List.mem_singleton_self _⟩
    · unfold sendEncoded amqpTrySend trySendLeft
      rw [bind_of_ok (get_run world), first, bind_assoc, bind_of_ok refused]
      rw [infinite] at polls ⊢
      exact bind_of_error (bind_of_error (polls.trans blocked))
    · rw [isPolls, ← isAsked]
  · obtain ⟨script, expires, recvs, recvPolls⟩ :=
      @pollSend_expired asked (fuel + 2) world.nextRecvHeartbeat [] [] infinite
        (by rw [← isAsked, isScript]; rfl) (by rw [← isAsked, isScript]; exact if_neg infinite)
    let waited : World :=
      { asked with script, polls := asked.polls ++ [world.nextRecvHeartbeat] }
    have tried : amqpTrySend encoded world.nextRecvHeartbeat (fuel + 4) world =
        .ok (.ok (encoded.length - encoded.length)) waited := by
      unfold amqpTrySend trySendLeft
      rw [bind_of_ok refused]
      exact bind_of_ok (polls.trans expires)
    have incomplete : encoded.length - encoded.length ≠ encoded.length := by
      have length := List.length_pos_of_ne_nil some
      omega
    obtain ⟨after, blocked, isPolls⟩ := @recvWithTimeout_blocked waited (fuel + 1) []
      (by rw [← isOpen, show waited.socketOpen = asked.socketOpen from rfl, ← isAsked])
      (by rw [show waited.script = script from rfl, recvs, ← isAsked, isScript]; rfl)
      (by rw [show waited.script = script from rfl, recvPolls, ← isAsked, isScript]; rfl)
    refine ⟨after, [world.nextRecvHeartbeat, amqpTimeInfinite], ?_, ?_, by simp⟩
    · unfold sendEncoded
      rw [bind_of_ok (get_run world), first, bind_of_ok tried]
      dsimp only
      rw [if_neg incomplete, if_neg infinite]
      refine bind_of_error ((tryRecv_infinite (fuel + 3) ?_).trans blocked)
      rw [← empty, show amqpDataInBuffer waited = amqpDataInBuffer asked from rfl, ← isAsked]
      rfl
    · rw [isPolls, show waited.polls = asked.polls ++ [world.nextRecvHeartbeat] from rfl, ← isAsked,
        List.append_assoc]
      rfl

theorem storeOctets_of_room {mem : Buffer} {offset : Nat} {data : List UInt8}
    (room : offset + data.length ≤ mem.size) :
    ∃ written, storeOctets offset data mem = .ok () written ∧ written.size = mem.size := by
  obtain ⟨written, stored⟩ := Buffer.write?_isSome room
  exact ⟨written, storeOctets_eq_ok.mpr stored, Buffer.size_of_write? stored⟩

theorem encodeResult_heartbeat {outbound : Buffer}
    (room : headerSize + footerSize ≤ outbound.size) :
    encodeResult heartbeatFrame outbound = .ok (headerSize + footerSize) := by
  obtain ⟨first, storesType, size⟩ := @storeOctets_of_room outbound 0
    (BigEndian.bytes 1 heartbeatFrame.frameType.toNat) (Nat.le_trans (by decide) room)
  obtain ⟨second, storesChannel, size'⟩ := @storeOctets_of_room first 1
    (BigEndian.bytes 2 heartbeatFrame.channel.toNat) (size ▸ Nat.le_trans (by decide) room)
  rw [size] at size'
  obtain ⟨third, storesLength, size''⟩ := @storeOctets_of_room second 3
    (BigEndian.bytes 4 0) (size' ▸ Nat.le_trans (by decide) room)
  rw [size'] at size''
  obtain ⟨fourth, storesEnd, _⟩ := @storeOctets_of_room third (headerSize + 0)
    [amqpFrameEnd] (size'' ▸ room)
  unfold encodeResult amqpFrameToBytes
  rw [bind_of_ok storesType, bind_of_ok storesChannel]
  have payload : payloadToBytes heartbeatFrame outbound.size second = .ok 0 second := rfl
  rw [bind_of_ok payload, bind_of_ok storesLength, bind_of_ok storesEnd]
  rfl

/-- So is a heartbeat that is due. -/
theorem sendDueHeartbeat_blocked {memory : Nat → FrameMemory} (isOpen : world.socketOpen = true)
    (room : headerSize + footerSize ≤ world.outbound.size)
    (scheduled : world.nextSendHeartbeat ≠ amqpTimeInfinite)
    (empty : amqpDataInBuffer world = false)
    (isScript : world.script =
      blockingScript world.nextRecvHeartbeat [amqpTimeInfinite, amqpTimeInfinite] memory) :
    ∃ after new, sendDueHeartbeat (fuel + 5) world = .error .blocked after ∧
      after.polls = world.polls ++ new ∧ amqpTimeInfinite ∈ new := by
  let asked : World := { world with script.clock := [amqpTimeInfinite] }
  have late : amqpTimeInfinite > world.nextSendHeartbeat :=
    UInt64.lt_of_le_of_ne (le_infinite _) scheduled
  have past : amqpTimeHasPast world.nextSendHeartbeat world = .ok (.error .timeout) asked := by
    unfold amqpTimeHasPast
    rw [if_neg scheduled]
    apply (bind_of_ok (timestamp_of_cons (by rw [isScript]; rfl))).trans
    rw [if_neg (by decide), if_pos late]
    rfl
  obtain ⟨encoded, outbound, encodes, _, some, _⟩ :=
    @encodeOutbound_of_ok _ asked _ (encodeResult_heartbeat room)
  let submitted : World :=
    { asked with outbound, wire := asked.wire ++ [.submitted .none encoded] }
  obtain ⟨after, new, blocked, isPolls, late⟩ := @sendEncoded_blocked submitted fuel encoded memory
    some isOpen empty (by
      show ({ world.script with clock := [amqpTimeInfinite] } : Script) = _
      rw [isScript]
      rfl)
  refine ⟨after, new, ?_, isPolls, late⟩
  unfold sendDueHeartbeat
  rw [bind_of_ok (get_run world), bind_of_ok past]
  apply (bind_of_ok encodes).trans
  exact (bind_of_ok (modify_run _ _)).trans blocked

end Blocked

/-! ## Timeouts -/

/-- Whatever `amqp_simple_wait_frame_noblock` polls for, it polls until its deadline at most. -/
def RespectsTimeout (timeout : Timeval) (fuel : Nat) (world : World) : Prop :=
  ∀ deadline between, amqpTimeFromNow (some timeout) world = .ok (.ok deadline) between →
    ∀ poll ∈ (endState (amqpSimpleWaitFrameNoblock (some timeout) fuel world)).polls.drop
      world.polls.length, poll ≤ deadline

/-- The nanoseconds that `amqp_time_from_now` adds. -/
def Timeval.delta (timeout : Timeval) : UInt64 :=
  timeout.tvSec.toUInt64 * nsPerS + timeout.tvUsec.toUInt64 * nsPerUs

/-- Some deadline of this timeout is finite. -/
structure Timeval.Finite (timeout : Timeval) : Prop where
  nonnegative : ¬ (timeout.tvSec < 0 ∨ timeout.tvUsec < 0)
  delta : timeout.delta.toNat + 1 < amqpTimeInfinite.toNat

/-- A call may come to wait, and a heartbeat may fall due then. -/
structure Exposed (world : World) : Prop where
  scheduled : world.nextSendHeartbeat ≠ amqpTimeInfinite
  socketOpen : world.socketOpen = true
  outbound : headerSize + footerSize ≤ world.outbound.size
  queue : world.queue.front = none
  unanswered : ∃ script fuel after,
    drainToFrame fuel { world with script } = .ok (.ok none) after

section Timeouts

variable {timeout : Timeval} {world between : World} {now delta deadline : UInt64} {fuel : Nat}

theorem toNat_of_timePointAfter (isPoint : timePointAfter now delta = (deadline, .ok ())) :
    deadline.toNat = now.toNat + delta.toNat := by
  unfold timePointAfter at isPoint
  dsimp only at isPoint
  split at isPoint
  · cases isPoint
  · rename_i forward
    obtain ⟨rfl, _⟩ := Prod.mk.inj isPoint
    have notBefore := UInt64.not_lt.mp (not_or.mp forward).1
    rw [UInt64.le_iff_toNat_le, UInt64.toNat_add] at notBefore
    rw [UInt64.toNat_add]
    have first := now.toNat_lt
    have second := delta.toNat_lt
    omega

theorem timePointAfter_one (bound : delta.toNat + 1 < amqpTimeInfinite.toNat) :
    timePointAfter 1 delta = (1 + delta, .ok ()) := by
  have largest : amqpTimeInfinite.toNat = 2 ^ 64 - 1 := by decide +kernel
  have sum : (1 + delta).toNat = 1 + delta.toNat := by
    rw [UInt64.toNat_add, UInt64.toNat_one]
    omega
  have forward : ¬ (1 > 1 + delta ∨ delta > 1 + delta) := by
    rw [gt_iff_lt, gt_iff_lt, UInt64.lt_iff_toNat_lt, UInt64.lt_iff_toNat_lt, sum, UInt64.toNat_one]
    omega
  exact if_neg forward

theorem timeFromNow_nonnegative
    (returned : amqpTimeFromNow (some timeout) world = .ok (.ok deadline) between) :
    ¬ (timeout.tvSec < 0 ∨ timeout.tvUsec < 0) := by
  intro negative
  rw [amqpTimeFromNow, if_pos negative] at returned
  cases returned

theorem timeFromNow_eq_ok
    (returned : amqpTimeFromNow (some timeout) world = .ok (.ok deadline) between) :
    ∃ now rest, now ≠ 0 ∧ timePointAfter now timeout.delta = (deadline, .ok ()) ∧
      between = { world with script.clock := rest } := by
  have nonnegative := timeFromNow_nonnegative returned
  rw [amqpTimeFromNow, if_neg nonnegative] at returned
  obtain ⟨now, asked, asks, returned⟩ := bind_eq_ok.mp returned
  obtain ⟨rest, _, rfl⟩ := ask_eq_ok asks
  refine ⟨now, rest, ?_⟩
  split at returned
  · cases returned
  · rename_i started
    refine ⟨started, ?_⟩
    unfold Timeval.delta
    generalize timePointAfter now
      (timeout.tvSec.toUInt64 * nsPerS + timeout.tvUsec.toUInt64 * nsPerUs) = point at returned ⊢
    obtain ⟨timePoint, result⟩ := point
    cases result with
    | error status => cases returned
    | ok _ =>
        cases returned
        exact ⟨rfl, rfl⟩

theorem timeFromNow_early (finite : timeout.Finite) {clock : List UInt64}
    (isClock : world.script.clock = 1 :: clock) :
    amqpTimeFromNow (some timeout) world =
      .ok (.ok (1 + timeout.delta)) { world with script.clock := clock } := by
  rw [amqpTimeFromNow, if_neg finite.nonnegative, bind_of_ok (timestamp_of_cons isClock),
    if_neg (by decide)]
  have isPoint := timePointAfter_one finite.delta
  unfold Timeval.delta at isPoint ⊢
  rw [isPoint]
  rfl

/-- Beyond the finite deadlines there is only the infinite one. -/
theorem deadline_infinite (infinite : ¬ timeout.Finite)
    (returned : amqpTimeFromNow (some timeout) world = .ok (.ok deadline) between) :
    deadline = amqpTimeInfinite := by
  have nonnegative := timeFromNow_nonnegative returned
  obtain ⟨now, rest, started, isPoint, _⟩ := timeFromNow_eq_ok returned
  have long : ¬ timeout.delta.toNat + 1 < amqpTimeInfinite.toNat :=
    fun short => infinite ⟨nonnegative, short⟩
  have sum := toNat_of_timePointAfter isPoint
  have positive : now.toNat ≠ 0 := fun zero => started (UInt64.toNat_inj.mp zero)
  have most := UInt64.le_iff_toNat_le.mp (le_infinite deadline)
  apply UInt64.toNat_inj.mp
  omega

theorem respectsTimeout_of_polls
    (ends : ∀ deadline between, amqpTimeFromNow (some timeout) world = .ok (.ok deadline) between →
      ∃ new, (endState (amqpSimpleWaitFrameNoblock (some timeout) fuel world)).polls =
        world.polls ++ new ∧ ∀ poll ∈ new, poll ≤ deadline) :
    RespectsTimeout timeout fuel world := by
  intro deadline between returned poll member
  obtain ⟨new, isPolls, early⟩ := ends deadline between returned
  rw [isPolls, List.drop_left] at member
  exact early poll member

/-- A call that sends no heartbeat keeps to its deadline. -/
theorem Mute.respectsTimeout (mute : Mute world) : RespectsTimeout timeout fuel world := by
  refine respectsTimeout_of_polls fun deadline between returned => ?_
  have waits : PollsBefore deadline world.polls between := by
    have start : PollsBefore deadline world.polls world := ⟨mute, [], by simp, by simp⟩
    exact start.of_idles ((idles_timeFromNow _).ok returned)
  unfold amqpSimpleWaitFrameNoblock
  rw [bind_of_ok returned]
  dsimp only
  rw [bind_of_ok (get_run between)]
  cases between.queue.front with
  | some link => exact waits.polls
  | none =>
      dsimp only
      have keeps := @pollsBefore_waitFrameInner world.polls deadline fuel
      cases waited : waitFrameInner deadline fuel between with
      | ok result after => exact (keeps.ok waits waited).polls
      | error stop after => exact (keeps.error waits waited).polls

/-- A call that has its frame at hand does not poll. -/
theorem respectsTimeout_of_answered
    (answered : world.queue.front = none →
      ∀ script fuel after, drainToFrame fuel { world with script } ≠ .ok (.ok none) after) :
    RespectsTimeout timeout fuel world := by
  refine respectsTimeout_of_polls fun deadline between returned => ⟨[], ?_, by simp⟩
  obtain ⟨now, rest, _, _, rfl⟩ := timeFromNow_eq_ok returned
  unfold amqpSimpleWaitFrameNoblock
  rw [bind_of_ok returned, List.append_nil]
  dsimp only
  rw [bind_of_ok (get_run _)]
  cases front : world.queue.front with
  | some link => rfl
  | none =>
      cases fuel with
      | zero => rfl
      | succ fuel =>
          dsimp only
          unfold waitFrameInner
          have idles := idles_drainToFrame fuel
          cases drained : drainToFrame fuel { world with script.clock := rest } with
          | error stop after =>
              rw [bind_of_error drained]
              exact (idles.error drained).polls
          | ok result after =>
              rw [bind_of_ok drained]
              have same := (idles.ok drained).polls
              match result with
              | .error status => exact same
              | .ok (some frame) => exact same
              | .ok none => exact absurd drained (answered front _ fuel after)

/-- On an exposed connection some behaviour of the socket breaks the deadline. -/
theorem Exposed.breaksTimeout (exposed : Exposed world) (finite : timeout.Finite) :
    ∃ script fuel, ¬ RespectsTimeout timeout fuel { world with script } := by
  obtain ⟨old, fuel, after, drains⟩ := exposed.unanswered
  let script := blockingScript after.nextRecvHeartbeat
    [1, amqpTimeInfinite, amqpTimeInfinite] old.memory
  let asked := blockingScript after.nextRecvHeartbeat
    [amqpTimeInfinite, amqpTimeInfinite] old.memory
  have empty := (@dataInBuffer_of_drainToFrame fuel).ok trivial drains rfl
  have idles := (idles_drainToFrame fuel).ok drains
  have inward := Prod.mk.inj ((@inward_drainToFrame fuel).ok drains)
  have sending := Prod.mk.inj inward.1
  have alike := @lockstep_drainToFrame old asked fuel rfl { world with script := old }
    { world with script := asked } ⟨rfl, rfl⟩
  rw [drains] at alike
  generalize isRun : drainToFrame fuel { world with script := asked } = run at alike
  cases alike with
  | @ok _ _ right same =>
      obtain ⟨_, rfl⟩ := same
      let drained : World := { after with script := asked }
      obtain ⟨final, new, blocked, isPolls, late⟩ := @sendDueHeartbeat_blocked drained fuel old.memory
        (sending.2.trans exposed.socketOpen) (inward.2 ▸ exposed.outbound)
        (idles.nextSendHeartbeat ▸ exposed.scheduled) empty rfl
      refine ⟨script, fuel + 7, fun respects => ?_⟩
      have deadline := @timeFromNow_early timeout { world with script } finite _ rfl
      have run : amqpSimpleWaitFrameNoblock (some timeout) (fuel + 7) { world with script } =
          .error .blocked final := by
        unfold amqpSimpleWaitFrameNoblock
        rw [bind_of_ok deadline]
        apply (bind_of_ok (get_run _)).trans
        dsimp only
        rw [exposed.queue]
        unfold waitFrameInner
        apply (bind_of_ok (drainToFrame_mono 6 isRun)).trans
        unfold beginRecv
        exact bind_of_error (bind_of_error blocked)
      have isDrop : final.polls.drop world.polls.length = new := by
        rw [isPolls, show drained.polls = world.polls from idles.polls, List.drop_left]
      have tooLate := respects _ _ deadline amqpTimeInfinite (by
        rw [run]
        exact isDrop ▸ late)
      have sum := toNat_of_timePointAfter (timePointAfter_one finite.delta)
      have bound := finite.delta
      rw [UInt64.le_iff_toNat_le, sum, UInt64.toNat_one] at tooLate
      omega

end Timeouts

/-- A timeout is respected, whatever the clock and the socket do, unless the call can come to
send a heartbeat: `amqp_send_frame` does not know about the timeout. -/
theorem respectsTimeout_iff (timeout : Timeval) (world : World) :
    (∀ script fuel, RespectsTimeout timeout fuel { world with script }) ↔
      ¬ (timeout.Finite ∧ Exposed world) := by
  constructor
  · intro respects ⟨finite, exposed⟩
    obtain ⟨script, fuel, breaks⟩ := exposed.breaksTimeout finite
    exact breaks (respects script fuel)
  · intro harmless script fuel
    by_cases finite : timeout.Finite
    · have unexposed : ¬ Exposed world := fun exposed => harmless ⟨finite, exposed⟩
      by_cases mute : Mute { world with script }
      · exact mute.respectsTimeout
      · obtain ⟨scheduled, sendable⟩ := not_or.mp mute
        obtain ⟨isOpen, room⟩ := not_or.mp sendable
        refine respectsTimeout_of_answered fun front script fuel after drains => unexposed ?_
        exact ⟨scheduled, by simpa using isOpen, Nat.le_of_not_lt room, front,
          script, fuel, after, drains⟩
    · intro deadline between returned poll _
      rw [deadline_infinite finite returned]
      exact le_infinite poll

/-- A heartbeat is due at one second and a half, and the socket does not take it. The call
may take one second; the peer is not overdue before nine seconds. -/
def dueWorld : World :=
  { tunedWorld
      { clock := [1500000000, 1600000000, 1700000000, 1800000000, 1900000000]
        recvs := [.needRead]
        sends := [.needWrite, .accepted 8]
        recvPolls := [.failed]
        sendPolls := [.ready]
        closes := []
        links := []
        memory := fun _ => grantingMemory } with
    heartbeat := 4
    nextRecvHeartbeat := 9000000000
    nextSendHeartbeat := 1000000000 }

/-- The call returns after a poll with the deadline of nine seconds. -/
theorem heartbeat_outlasts_timeout : ¬ ∀ timeout fuel world, RespectsTimeout timeout fuel world := by
  intro respects
  have deadline : (returned? (amqpTimeFromNow (some ⟨1, 0⟩) dueWorld)).bind Except.toOption =
      some 2500000000 := by decide +kernel
  have polls : (endState (amqpSimpleWaitFrameNoblock (some ⟨1, 0⟩) 9 dueWorld)).polls =
      [9000000000, 2500000000] := by decide +kernel
  obtain ⟨result, returned, isDeadline⟩ := Option.bind_eq_some_iff.mp deadline
  obtain ⟨after, returned⟩ := returned?_eq_some.mp returned
  cases result with
  | error status => cases isDeadline
  | ok found =>
      cases isDeadline
      have early := respects ⟨1, 0⟩ 9 dueWorld _ _ returned 9000000000 (by
        rw [polls]
        exact List.mem_cons_self)
      exact absurd early (by decide)

end RabbitmqC
