import RabbitmqC.Consumer.Listening

/-!
# Reading on while octets come

A peer without heartbeats, whose socket goes on delivering octets. A call then takes the
frames of its channel one after the other and comes to its end, whatever else is in the stream.
-/

set_option autoImplicit false

namespace RabbitmqC

open Effect

/-! ## What the socket delivers -/

def RecvAnswer.octets : RecvAnswer → List UInt8
  | .data chunk => chunk.octets
  | _ => []

/-- The octets that the socket will deliver. -/
def World.supply (world : World) : List UInt8 := world.script.recvs.flatMap RecvAnswer.octets

def RecvAnswer.waits : RecvAnswer → Bool
  | .needRead => true
  | _ => false

/-- A `recv` delivers octets, or it has to wait until the socket is ready. -/
structure Script.Serves (script : Script) : Prop where
  recvs : ∀ answer ∈ script.recvs, answer = .needRead ∨ ∃ chunk, answer = .data chunk
  recvPolls : ∀ answer ∈ script.recvPolls, answer = .ready
  enough : script.recvs.countP RecvAnswer.waits ≤ script.recvPolls.length

/-- Without heartbeats the clock is not read, and no deadline ends a call. -/
structure Attentive (world : World) : Prop where
  untimed : Untimed world
  nextSendHeartbeat : world.nextSendHeartbeat = amqpTimeInfinite
  socketOpen : world.socketOpen = true
  serves : world.script.Serves

/-- What is still to be gone through: octets, and answers of `recv`. -/
def World.load (world : World) : Nat :=
  world.unread.length + world.supply.length + world.script.recvs.length

/-- The buffer is filled, with these answers left. -/
def World.served (world : World) (octets : List UInt8) (recvs : List RecvAnswer)
    (recvPolls : List PollAnswer) (polls : List UInt64) : World :=
  { world with
    sockInbound := octets
    sockInboundOffset := 0
    taken := world.taken ++ octets
    script := { world.script with recvs, recvPolls }
    polls }

section Serving

variable {world : World} {fuel : Nat} {chunk : Chunk} {recvs : List RecvAnswer}
  {recvPolls : List PollAnswer}

theorem socketRecv_data (isOpen : world.socketOpen = true)
    (isNext : world.script.recvs = .data chunk :: recvs) :
    amqpSocketRecv world =
      .ok (.ok chunk.octets) { world with script := { world.script with recvs } } := by
  unfold amqpSocketRecv ask
  rw [bind_of_ok (get_run world), if_pos isOpen]
  simp only [bind_assoc]
  rw [bind_of_ok (get_run world), isNext]
  rfl

theorem socketRecv_wait (isOpen : world.socketOpen = true)
    (isNext : world.script.recvs = .needRead :: recvs) :
    amqpSocketRecv world =
      .ok (.error .privateSocketNeedread) { world with script := { world.script with recvs } } := by
  unfold amqpSocketRecv ask
  rw [bind_of_ok (get_run world), if_pos isOpen]
  simp only [bind_assoc]
  rw [bind_of_ok (get_run world), isNext]
  rfl

theorem awaitHeartbeat_untimed (untimed : Untimed world) :
    awaitHeartbeat world = .ok (.ok ()) world := by
  have off : 0 ≥ amqpHeartbeatRecv world := by
    have heartbeat := untimed.heartbeat
    unfold amqpHeartbeatRecv
    omega
  unfold awaitHeartbeat amqpTimeSFromNow
  rw [bind_of_ok (get_run world), if_pos off]
  show EStateM.Result.ok (Except.ok ()) { world with nextRecvHeartbeat := amqpTimeInfinite } = _
  rw [← untimed.nextRecvHeartbeat]

theorem poll_ready (isNext : world.script.recvPolls = .ready :: recvPolls) :
    amqpPoll .toReceive amqpTimeInfinite (fuel + 1) world =
      .ok (.ok ()) { world with
        polls := world.polls ++ [amqpTimeInfinite]
        script := { world.script with recvPolls } } := by
  unfold amqpPoll recordPoll
  rw [bind_of_ok (modify_run _ world)]
  have forever : amqpTimeMsUntil amqpTimeInfinite
      { world with polls := world.polls ++ [amqpTimeInfinite] } =
        .ok (-1) { world with polls := world.polls ++ [amqpTimeInfinite] } := rfl
  rw [bind_of_ok forever, if_neg (by decide)]
  unfold Waiting.poll ask
  simp only [bind_assoc]
  rw [bind_of_ok (get_run _)]
  dsimp only
  rw [isNext]
  rfl

theorem recvWithTimeout_data (attentive : Attentive world)
    (isNext : world.script.recvs = .data chunk :: recvs) :
    recvWithTimeout amqpTimeInfinite (fuel + 1) world =
      .ok (.ok ()) (world.served chunk.octets recvs world.script.recvPolls world.polls) := by
  unfold recvWithTimeout
  rw [bind_of_ok (socketRecv_data attentive.socketOpen isNext)]
  exact (bind_of_ok (modify_run _ _)).trans
    (awaitHeartbeat_untimed ⟨attentive.untimed.heartbeat, attentive.untimed.nextRecvHeartbeat⟩)

/-- The world in which the socket has become ready. -/
def World.waited (world : World) (recvs : List RecvAnswer) (recvPolls : List PollAnswer) : World :=
  { world with
    script := { world.script with recvs, recvPolls }
    polls := world.polls ++ [amqpTimeInfinite] }

theorem recvWithTimeout_wait (attentive : Attentive world)
    (isNext : world.script.recvs = .needRead :: recvs)
    (isReady : world.script.recvPolls = .ready :: recvPolls) :
    recvWithTimeout amqpTimeInfinite (fuel + 2) world =
      recvWithTimeout amqpTimeInfinite (fuel + 1) (world.waited recvs recvPolls) := by
  conv_lhs => unfold recvWithTimeout
  rw [bind_of_ok (socketRecv_wait attentive.socketOpen isNext)]
  dsimp only
  rw [bind_of_ok (get_run _), if_pos attentive.socketOpen, if_pos (.inl rfl)]
  have ready : ({ world with script := { world.script with recvs } } : World).script.recvPolls =
      .ready :: recvPolls := isReady
  rw [bind_of_ok (poll_ready ready)]
  rfl

theorem Attentive.waited (attentive : Attentive world)
    (isNext : world.script.recvs = .needRead :: recvs) :
    ∃ recvPolls, world.script.recvPolls = .ready :: recvPolls ∧
      Attentive (world.waited recvs recvPolls) := by
  obtain ⟨untimed, nextSendHeartbeat, socketOpen, answers, ready, enough⟩ := attentive
  rw [isNext] at answers enough
  rw [List.countP_cons_of_pos rfl] at enough
  cases isPolls : world.script.recvPolls with
  | nil =>
      rw [isPolls] at enough
      cases enough
  | cons first recvPolls =>
      rw [isPolls] at ready enough
      obtain ⟨rfl, later⟩ := List.forall_mem_cons.mp ready
      exact ⟨recvPolls, rfl, ⟨untimed.heartbeat, untimed.nextRecvHeartbeat⟩, nextSendHeartbeat,
        socketOpen, fun answer member => answers answer (List.mem_cons_of_mem _ member), later,
        Nat.le_of_succ_le_succ enough⟩

theorem Attentive.served (attentive : Attentive world)
    (isNext : world.script.recvs = .data chunk :: recvs) :
    Attentive (world.served chunk.octets recvs world.script.recvPolls world.polls) := by
  obtain ⟨untimed, nextSendHeartbeat, socketOpen, answers, ready, enough⟩ := attentive
  rw [isNext] at answers enough
  exact ⟨⟨untimed.heartbeat, untimed.nextRecvHeartbeat⟩, nextSendHeartbeat, socketOpen,
    fun answer member => answers answer (List.mem_cons_of_mem _ member), ready,
    Nat.le_trans (List.countP_cons_of_neg Bool.false_ne_true).ge enough⟩

/-- While octets are to come, some of them are received. -/
theorem recvWithTimeout_attentive (attentive : Attentive world) (some : world.supply ≠ [])
    (enough : world.script.recvs.length < fuel) : ∃ octets recvs recvPolls polls,
      recvWithTimeout amqpTimeInfinite fuel world =
        .ok (.ok ()) (world.served octets recvs recvPolls polls) ∧
      Attentive (world.served octets recvs recvPolls polls) ∧
      octets ++ recvs.flatMap RecvAnswer.octets = world.supply ∧
      recvs.length < world.script.recvs.length := by
  generalize isNext : world.script.recvs = answers at enough
  induction answers generalizing world fuel with
  | nil =>
      unfold World.supply at some
      rw [isNext] at some
      exact absurd rfl some
  | cons answer answers ih =>
      obtain ⟨left, rfl⟩ := Nat.exists_eq_add_of_le' (Nat.zero_lt_of_lt enough)
      have shorter : answers.length < left := Nat.lt_of_succ_lt_succ enough
      rcases attentive.serves.recvs answer (isNext ▸ List.mem_cons_self) with rfl | ⟨chunk, rfl⟩
      · obtain ⟨recvPolls, isReady, waited⟩ := attentive.waited isNext
        obtain ⟨before, rfl⟩ := Nat.exists_eq_add_of_le' (Nat.zero_lt_of_lt shorter)
        rw [recvWithTimeout_wait attentive isNext isReady]
        have sameSupply : (world.waited answers recvPolls).supply = world.supply := by
          unfold World.supply World.waited
          rw [isNext]
          rfl
        obtain ⟨octets, recvs, others, polls, fills, still, isSupply, fewer⟩ :=
          ih waited (sameSupply ▸ some) rfl shorter
        exact ⟨octets, recvs, others, polls, fills, still, isSupply.trans sameSupply,
          Nat.lt_succ_of_lt fewer⟩
      · refine ⟨_, _, _, _, recvWithTimeout_data attentive isNext, attentive.served isNext, ?_,
          Nat.lt_succ_self _⟩
        unfold World.supply
        rw [isNext]
        rfl

end Serving

/-! ## Frames that come -/

/-- The frames `todo` of the channel are to come in this order, and of the frame in progress
`part` has been read. -/
structure Coming (channel : UInt16) (limit : Nat) (later part : List UInt8) (todo : List Frame)
    (world : World) : Prop where
  attentive : Attentive world
  links : world.script.links <:+ []
  grants : ∀ frame, (world.script.memory frame).Grants limit
  queue : ∃ others, world.queue.Represents others ∧ ∀ frame ∈ others, channel ≠ frame.channel
  stream : ∃ sent remaining, world.unread ++ world.supply = remaining ++ later ∧
    Interleaved channel limit part sent remaining ∧ List.Forall₂ (Arrives limit) sent todo
  within : world.reader.Within (world.script.memory world.framesRead) limit part

/-- A frame was taken: one of another channel, or the next one of the channel. -/
structure TakesNext (channel : UInt16) (limit : Nat) (later : List UInt8) (todo : List Frame)
    (frame : Frame) (behind : List Frame) (world : World) : Prop where
  next : frame.channel ≠ channel ∧ behind = todo ∨ todo = frame :: behind
  coming : Coming channel limit later [] behind world
  begins : world.reader.Begins headerSize
  isLimit : world.reader.frameMax.toInt = limit

theorem Attentive.congr {before after : World} (attentive : Attentive before)
    (heartbeat : after.heartbeat = before.heartbeat)
    (nextRecvHeartbeat : after.nextRecvHeartbeat = before.nextRecvHeartbeat)
    (nextSendHeartbeat : after.nextSendHeartbeat = before.nextSendHeartbeat)
    (socketOpen : after.socketOpen = before.socketOpen)
    (script : after.script = before.script) : Attentive after where
  untimed := ⟨heartbeat ▸ attentive.untimed.heartbeat,
    nextRecvHeartbeat.trans attentive.untimed.nextRecvHeartbeat⟩
  nextSendHeartbeat := nextSendHeartbeat.trans attentive.nextSendHeartbeat
  socketOpen := socketOpen.trans attentive.socketOpen
  serves := script ▸ attentive.serves

section Loops

variable {channel : UInt16} {limit fuel : Nat} {later part : List UInt8} {todo behind : List Frame}
  {frame : Frame} {world : World}

theorem Coming.provided (coming : Coming channel limit later part todo world) :
    Provided [] world := ⟨.inl (.inr coming.attentive.untimed), coming.links⟩

theorem consumeOneFrame_taken {reader : Reader} {res : Int}
    (returned : amqpHandleInput (world.script.memory world.framesRead) world.reader world.unread =
      .ok ⟨reader, .ok res, frame⟩) :
    consumeOneFrame world =
      .ok (.ok frame) (world.goPast ⟨reader, .ok res, frame⟩ (sizeOfInt res)) := by
  unfold consumeOneFrame
  rw [bind_of_ok (get_run world), returned]
  rfl

theorem load_goPast {handled : Handled} {count : Nat} (some : world.unread ≠ [])
    (positive : 0 < count) : (world.goPast handled count).load < world.load := by
  have unread : (world.goPast handled count).unread = world.unread.drop count :=
    Incoming.unread_goPast
  have supply : (world.goPast handled count).supply = world.supply := rfl
  have script : (world.goPast handled count).script = world.script := rfl
  have length := List.length_pos_iff.mpr some
  unfold World.load
  rw [unread, supply, script, List.length_drop]
  omega

/-- The reader takes octets of the frame in progress, and perhaps all of them. -/
theorem consumeOneFrame_coming (coming : Coming channel limit later part todo world)
    (some : todo ≠ []) (more : world.unread ≠ []) : ∃ frame after,
      consumeOneFrame world = .ok (.ok frame) after ∧ after.load < world.load ∧
        (frame.frameType = 0 ∧ (∃ part, Coming channel limit later part todo after) ∨
          ∃ behind, TakesNext channel limit later todo frame behind after) := by
  obtain ⟨sent, remaining, unread, interleaved, arrive⟩ := coming.stream
  have nonempty := interleaved.remaining_ne_nil arrive some
  obtain ⟨left, rest, next, others, behind, rfl, nonempty, arrives, interleaved, arriveBehind,
    isNext, waiting⟩ := interleaved.next nonempty arrive
  have small := coming.within.limit_lt
  have fits := arrives.length_le
  rw [List.length_append] at fits
  have meets := coming.within.meets arrives (coming.grants world.framesRead) nonempty more
    (unread.trans (List.append_assoc left rest later))
  generalize returned : amqpHandleInput (world.script.memory world.framesRead) world.reader
    world.unread = handled at meets
  cases meets with
  | @ends after extra isUnread isRest begins isLimit =>
      have size : sizeOfInt (left.length : Int) = left.length := sizeOfInt_natCast (by omega)
      have taken := consumeOneFrame_taken returned
      rw [size] at taken
      refine ⟨next, _, taken, load_goPast more (List.length_pos_iff.mpr nonempty), .inr ⟨behind,
        isNext, ?_, begins, isLimit⟩⟩
      refine ⟨coming.attentive.congr rfl rfl rfl rfl rfl, coming.links, coming.grants, coming.queue,
        ⟨others, rest, ?_, interleaved, arriveBehind⟩, .between begins isLimit⟩
      rw [Incoming.unread_goPast, isUnread, List.drop_left]
      exact isRest
  | @waits after unreadLeft isLeft waits isFuture awake within =>
      have all : world.unread.length ≤ left.length := by
        rw [isLeft, List.length_append]
        omega
      have size : sizeOfInt (world.unread.length : Int) = world.unread.length :=
        sizeOfInt_natCast (by omega)
      have taken := consumeOneFrame_taken returned
      rw [size] at taken
      refine ⟨.unset, _, taken, load_goPast more (List.length_pos_iff.mpr more), .inl ⟨rfl,
        part ++ world.unread, ?_⟩⟩
      refine ⟨coming.attentive.congr rfl rfl rfl rfl rfl, coming.links, coming.grants, coming.queue,
        ⟨sent, unreadLeft ++ rest, ?_, waiting _ _ isLeft waits, arrive⟩, ?_⟩
      · show _ ++ world.supply = _
        rw [Incoming.unread_goPast, List.drop_length, isFuture, List.nil_append, List.append_assoc]
      · show after.Within (world.script.memory (world.framesRead + if after.state = .idle then 1
          else 0)) limit (part ++ world.unread)
        rw [if_neg awake]
        exact within

/-- Frames that are not handed on leave what is to come of the channel. -/
theorem TakesNext.ignored (own : ∀ frame ∈ todo, frame.BelongsTo channel)
    (takes : TakesNext channel limit later todo frame behind world)
    (ignored : frame.frameType = 0 ∨ frame.frameType = amqpFrameHeartbeat) :
    Coming channel limit later [] todo world := by
  rcases takes.next with ⟨_, rfl⟩ | rfl
  · exact takes.coming
  · obtain ⟨_, full, notBeat⟩ := own frame List.mem_cons_self
    exact absurd ignored (not_or.mpr ⟨full, notBeat⟩)

theorem maybeReleaseOnChannel_run (channel : UInt16) (world : World) : ∃ recycled,
    amqpMaybeReleaseBuffersOnChannel channel world = .ok () { world with recycled } := by
  unfold amqpMaybeReleaseBuffersOnChannel
  rw [bind_of_ok (get_run world)]
  by_cases reading : world.reader.state ≠ .idle
  · rw [if_pos reading]
    exact ⟨world.recycled, rfl⟩
  · rw [if_neg reading]
    cases world.queue.find (fun frame => channel == frame.channel) world.queue.reach
        world.queue.first with
    | some link => exact ⟨world.recycled, rfl⟩
    | none =>
        by_cases known : channel ∈ world.reader.poolTable
        · exact ⟨_, by simp only [if_pos known]; rfl⟩
        · exact ⟨world.recycled, by simp only [if_neg known]; rfl⟩

theorem Coming.recycled (coming : Coming channel limit later part todo world)
    (recycled : List UInt16) : Coming channel limit later part todo { world with recycled } :=
  ⟨coming.attentive.congr rfl rfl rfl rfl rfl, coming.links, coming.grants, coming.queue,
    coming.stream, coming.within⟩

/-- How the buffer is gone through: to a frame, or to its end. -/
def Drained (channel : UInt16) (limit : Nat) (later : List UInt8) (todo : List Frame)
    (before : World) : Option Frame → World → Prop
  | none, after => after.unread = [] ∧ after.load ≤ before.load ∧
      ∃ part, Coming channel limit later part todo after
  | some frame, after => after.load < before.load ∧
      ∃ behind, TakesNext channel limit later todo frame behind after

theorem Drained.mono {middle after : World} {result : Option Frame}
    (drained : Drained channel limit later todo middle result after)
    (less : middle.load ≤ world.load) : Drained channel limit later todo world result after := by
  cases result with
  | none => exact ⟨drained.1, Nat.le_trans drained.2.1 less, drained.2.2⟩
  | some frame => exact ⟨Nat.lt_of_lt_of_le drained.1 less, drained.2⟩

theorem drainToFrame_coming (own : ∀ frame ∈ todo, frame.BelongsTo channel) (some : todo ≠ [])
    (coming : Coming channel limit later part todo world) (enough : world.load < fuel) :
    ∃ result after, drainToFrame fuel world = .ok (.ok result) after ∧
      Drained channel limit later todo world result after := by
  induction fuel generalizing part world with
  | zero => exact absurd enough (Nat.not_lt_zero _)
  | succ fuel ih =>
      unfold drainToFrame
      rw [bind_of_ok (get_run world)]
      by_cases data : amqpDataInBuffer world = true
      · rw [if_pos data]
        obtain ⟨frame, middle, consumed, less, outcome⟩ :=
          consumeOneFrame_coming coming some (unread_ne_nil data)
        rw [bind_of_ok consumed]
        dsimp only
        have goesOn (ignored : frame.frameType = 0 ∨ frame.frameType = amqpFrameHeartbeat) :
            ∃ part, Coming channel limit later part todo middle := by
          rcases outcome with ⟨_, waits⟩ | ⟨behind, takes⟩
          · exact waits
          · exact ⟨[], takes.ignored own ignored⟩
        by_cases isBeat : frame.frameType = amqpFrameHeartbeat
        · obtain ⟨part, coming⟩ := goesOn (.inr isBeat)
          obtain ⟨recycled, released⟩ := maybeReleaseOnChannel_run 0 middle
          rw [if_pos isBeat, bind_of_ok released]
          obtain ⟨result, after, drains, drained⟩ := ih (coming.recycled recycled)
            (Nat.lt_of_lt_of_le less (Nat.le_of_lt_succ enough))
          exact ⟨result, after, drains, drained.mono less.le⟩
        · rw [if_neg isBeat]
          by_cases full : frame.frameType ≠ 0
          · rw [if_pos full]
            rcases outcome with ⟨ignored, _⟩ | ⟨behind, takes⟩
            · exact absurd ignored full
            · exact ⟨_, middle, rfl, less, behind, takes⟩
          · obtain ⟨part, coming⟩ := goesOn (.inl (not_not.mp full))
            rw [if_neg full]
            obtain ⟨result, after, drains, drained⟩ := ih coming
              (Nat.lt_of_lt_of_le less (Nat.le_of_lt_succ enough))
            exact ⟨result, after, drains, drained.mono less.le⟩
      · rw [if_neg data]
        refine ⟨none, world, rfl, ?_, Nat.le_refl _, part, coming⟩
        unfold amqpDataInBuffer at data
        exact List.drop_eq_nil_of_le (by simpa using data)

/-- The buffer is filled again. -/
theorem beginRecv_coming (coming : Coming channel limit later part todo world) (some : todo ≠ [])
    (empty : world.unread = []) (enough : world.load + 1 < fuel) : ∃ after,
      beginRecv amqpTimeInfinite fuel world = .ok (.ok ()) after ∧ after.load < world.load ∧
        Coming channel limit later part todo after := by
  obtain ⟨left, rfl⟩ := Nat.exists_eq_add_of_le' (Nat.zero_lt_of_lt enough)
  obtain ⟨sent, remaining, unread, interleaved, arrive⟩ := coming.stream
  have supplied : world.supply ≠ [] := by
    rw [empty, List.nil_append] at unread
    rw [unread]
    intro none
    exact interleaved.remaining_ne_nil arrive some (List.append_eq_nil_iff.mp none).1
  have shorter : world.script.recvs.length < left := by
    unfold World.load at enough
    omega
  obtain ⟨octets, recvs, recvPolls, polls, fills, attentive, isSupply, fewer⟩ :=
    recvWithTimeout_attentive coming.attentive supplied shorter
  have due : sendDueHeartbeat left world = .ok (.ok ()) world := by
    have past : amqpTimeHasPast world.nextSendHeartbeat world = .ok (.ok ()) world := by
      rw [coming.attentive.nextSendHeartbeat]
      rfl
    unfold sendDueHeartbeat
    rw [bind_of_ok (get_run world), bind_of_ok past]
    rfl
  have forever : amqpTimeFirst amqpTimeInfinite
      (amqpTimeFirst world.nextRecvHeartbeat world.nextSendHeartbeat) = amqpTimeInfinite := by
    rw [coming.attentive.nextSendHeartbeat, coming.attentive.untimed.nextRecvHeartbeat]
    rfl
  refine ⟨world.served octets recvs recvPolls polls, ?_, ?_, attentive, coming.links, coming.grants,
    coming.queue, ⟨sent, remaining, ?_, interleaved, arrive⟩, coming.within⟩
  · unfold beginRecv
    rw [bind_of_ok due]
    dsimp only
    rw [bind_of_ok (get_run world), forever, bind_of_ok fills]
    rfl
  · have lengths := congrArg List.length isSupply
    rw [List.length_append] at lengths
    show (List.drop 0 octets).length + (recvs.flatMap RecvAnswer.octets).length + recvs.length <
      world.load
    unfold World.load
    rw [empty, List.drop_zero]
    simp only [List.length_nil]
    omega
  · show List.drop 0 octets ++ recvs.flatMap RecvAnswer.octets = _
    rw [List.drop_zero, isSupply, ← unread, empty, List.nil_append]

theorem waitFrameInner_coming (own : ∀ frame ∈ todo, frame.BelongsTo channel) (some : todo ≠ [])
    (coming : Coming channel limit later part todo world) (enough : world.load + 2 < fuel) :
    ∃ frame behind after, waitFrameInner amqpTimeInfinite fuel world = .ok (.ok frame) after ∧
      after.load < world.load ∧ TakesNext channel limit later todo frame behind after := by
  induction fuel generalizing part world with
  | zero => exact absurd enough (Nat.not_lt_zero _)
  | succ fuel ih =>
      obtain ⟨result, middle, drains, drained⟩ :=
        drainToFrame_coming own some coming (show world.load < fuel by omega)
      unfold waitFrameInner
      rw [bind_of_ok drains]
      cases result with
      | some frame =>
          obtain ⟨less, behind, takes⟩ := drained
          exact ⟨frame, behind, middle, rfl, less, takes⟩
      | none =>
          obtain ⟨empty, less, part, coming⟩ := drained
          obtain ⟨filled, receives, fewer, coming⟩ :=
            beginRecv_coming coming some empty (show middle.load + 1 < fuel by omega)
          dsimp only
          rw [bind_of_ok receives]
          obtain ⟨frame, behind, after, waits, least, takes⟩ := ih coming (by omega)
          exact ⟨frame, behind, after, waits, by omega, takes⟩

theorem Coming.queueFrame (takes : TakesNext channel limit later todo frame behind world)
    (other : channel ≠ frame.channel) : ∃ after, amqpQueueFrame frame world = .ok (.ok ()) after ∧
      after.load = world.load ∧ Coming channel limit later [] behind after := by
  obtain ⟨_, coming, begins, isLimit⟩ := takes
  obtain ⟨others, represents, foreign⟩ := coming.queue
  obtain ⟨poolTable, stale, created⟩ := createLinkForFrame_of_provided coming.provided frame
  unfold amqpQueueFrame
  rw [bind_of_ok created]
  dsimp only
  rw [bind_of_ok (get_run _), represents.appendAtFirst_eq]
  refine ⟨_, rfl, rfl, coming.attentive.congr rfl rfl rfl rfl rfl, coming.links, coming.grants,
    ⟨others ++ [frame], LinkedQueue.represents_append represents, ?_⟩, coming.stream, ?_⟩
  · intro queued member
    rcases List.mem_append.mp member with earlier | last
    · exact foreign queued earlier
    · rw [List.mem_singleton.mp last]
      exact other
  · exact .between ⟨begins.inbound, begins.offset, begins.target, begins.state⟩ isLimit

theorem waitFrameForChannel_coming (own : ∀ other ∈ frame :: behind, other.BelongsTo channel)
    (coming : Coming channel limit later part (frame :: behind) world)
    (enough : world.load + 3 < fuel) :
    ∃ after, waitFrameForChannel channel fuel world = .ok (.ok frame) after ∧
      after.load < world.load ∧ Coming channel limit later [] behind after := by
  induction fuel generalizing part world with
  | zero => exact absurd enough (Nat.not_lt_zero _)
  | succ fuel ih =>
      obtain ⟨next, rest, middle, waits, less, takes⟩ :=
        waitFrameInner_coming own (List.cons_ne_nil _ _) coming (show world.load + 2 < fuel by omega)
      unfold waitFrameForChannel
      rw [bind_of_ok waits]
      dsimp only
      rcases takes.next with ⟨foreign, rfl⟩ | isNext
      · obtain ⟨queued, queues, sameLoad, coming⟩ := Coming.queueFrame takes foreign.symm
        rw [if_neg foreign.symm, bind_of_ok queues]
        obtain ⟨after, waited, least, coming⟩ := ih coming (by omega)
        exact ⟨after, waited, by omega, coming⟩
      · cases isNext
        rw [if_pos (own frame List.mem_cons_self).1.symm]
        exact ⟨middle, rfl, less, takes.coming⟩

theorem waitFrameOnChannel_coming (own : ∀ other ∈ frame :: behind, other.BelongsTo channel)
    (coming : Coming channel limit later part (frame :: behind) world)
    (enough : world.load + 3 < fuel) :
    ∃ after, amqpSimpleWaitFrameOnChannel channel fuel world = .ok (.ok frame) after ∧
      after.load < world.load ∧ Coming channel limit later [] behind after := by
  obtain ⟨others, represents, foreign⟩ := coming.queue
  have absent : ∀ other ∈ others, (channel == other.channel) = false :=
    fun other member => by simpa using foreign other member
  unfold amqpSimpleWaitFrameOnChannel
  rw [bind_of_ok (get_run world), represents.find_eq_none absent]
  exact waitFrameForChannel_coming own coming enough

/-- The loop over the fragments ends when the frames to come make up the body. -/
theorem readFragments_coming {size : Nat} {body whole : List UInt8} {rest : List Frame}
    (own : ∀ frame ∈ todo, frame.BelongsTo channel)
    (coming : Coming channel limit later part todo world) (enough : world.load + 4 < fuel)
    (gathered : gather size body todo = some (rest, .ok whole)) :
    ∃ after, readFragments channel size fuel body world = .ok (.ok whole) after := by
  induction todo generalizing body fuel part world with
  | nil =>
      obtain ⟨left, rfl⟩ := Nat.exists_eq_add_of_le' (Nat.zero_lt_of_lt enough)
      rw [gather] at gathered
      unfold readFragments
      split at gathered
      · cases gathered
      · rename_i full
        cases gathered
        rw [if_neg full]
        exact ⟨world, rfl⟩
  | cons frame behind ih =>
      obtain ⟨left, rfl⟩ := Nat.exists_eq_add_of_le' (Nat.zero_lt_of_lt enough)
      unfold readFragments
      by_cases lacks : body.length < size
      · obtain ⟨middle, waits, less, coming⟩ :=
          waitFrameOnChannel_coming own coming (show world.load + 3 < left by omega)
        rw [if_pos lacks, bind_of_ok waits]
        dsimp only
        by_cases notBody : frame.frameType ≠ amqpFrameBody
        · rw [gather_other lacks notBody] at gathered
          cases gathered
        · have isBody := not_not.mp notBody
          rw [if_neg notBody]
          cases isFragment : frame.fragment? with
          | none =>
              rw [gather_unreadable lacks isBody isFragment] at gathered
              cases gathered
          | some bytes =>
              have isPayload := (fragment?_eq_some.mp isFragment).2
              rw [isPayload]
              dsimp only
              by_cases exceeds : body.length + bytes.length > size
              · rw [gather_excess lacks isFragment exceeds] at gathered
                cases gathered
              · rw [gather_fragment lacks isFragment (Nat.not_lt.mp exceeds)] at gathered
                rw [if_neg exceeds]
                exact ih (fun other member => own other (List.mem_cons_of_mem _ member)) coming
                  (by omega) gathered
      · rw [gather, if_neg lacks] at gathered
        cases gathered
        rw [if_neg lacks]
        exact ⟨world, rfl⟩

/-- A message whose frames come is returned. -/
theorem readMessage_coming {message : Message} {frames : List Frame}
    (complete : CompleteMessage frames message) (own : ∀ frame ∈ frames, frame.BelongsTo channel)
    (coming : Coming channel limit later part frames world) (enough : world.load + 3 < fuel) :
    ∃ after, amqpReadMessage [] channel fuel world = .ok (.ok message) after := by
  obtain @⟨header, bodies, properties, bodySize, fragments, announces, areFragments, below,
    reaches⟩ := complete
  obtain ⟨middle, waits, less, coming⟩ := waitFrameOnChannel_coming own coming enough
  have gathered : gather bodySize.toNat [] bodies = some ([], .ok fragments.flatten) := by
    rw [gather_of_reaches areFragments]
    · rfl
    · simpa using below
    · simpa using reaches
  obtain ⟨after, reads⟩ := readFragments_coming
    (fun frame member => own frame (List.mem_cons_of_mem _ member)) coming
    (show middle.load + 4 < fuel by omega) gathered
  unfold amqpReadMessage
  rw [bind_of_ok waits]
  dsimp only
  rw [if_neg (not_not_intro announces.isHeader), announces.startMessage]
  dsimp only
  rw [bind_of_ok reads]
  exact ⟨after, rfl⟩

theorem coming_of_awaiting {sent : List (List UInt8)} {stream : List UInt8}
    (awaiting : Awaiting limit part world) (attentive : Attentive world)
    (arrive : List.Forall₂ (Arrives limit) sent todo)
    (interleaved : Interleaved channel limit part sent stream)
    (delivered : world.unread ++ world.supply = stream ++ later) :
    Coming channel limit later part todo world :=
  ⟨attentive, awaiting.provided.links, awaiting.grants, ⟨[], awaiting.queue, by simp⟩,
    ⟨sent, stream, delivered, interleaved, arrive⟩, awaiting.within⟩

end Loops

end RabbitmqC
