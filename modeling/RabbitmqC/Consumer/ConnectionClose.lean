import RabbitmqC.Consumer.Message

/-!
# Closing the connection while a message is read

`amqp_read_message` looks for a `connection.close` among the frames of the channel
it reads from, but that method comes on channel 0, and frames of other channels
are queued one level below. The check can work for channel 0 only, and there only
for a close that `amqp_try_recv` has not queued behind its back.
-/

set_option autoImplicit false

namespace RabbitmqC

open Effect

/-- A `connection.close` on channel 0. -/
def ClosesConnection (frame : Frame) (method : Method) : Prop :=
  frame.method? = some method ∧ frame.channel = 0 ∧ method.id = amqpConnectionCloseMethod

/-- A `connection.close` that arrives while a message is read is returned. -/
def ReportsConnectionClose (allocs : List Bool) (channel : UInt16) (fuel : Nat) (world : World) :
    Prop :=
  ∀ close method, close ∈ newFrames world (endState (amqpReadMessage allocs channel fuel world)) →
    ClosesConnection close method →
      ∃ after, amqpReadMessage allocs channel fuel world = .ok (.error (.serverException method)) after

/-! ## Channel 0 -/

/-- Since `past` no `connection.close` was decoded. -/
structure Unclosed (past : List Frame) (world : World) : Prop where
  calm : Calm world
  frames : ∃ new, world.decoded = past ++ new ∧ ∀ frame ∈ new, ∀ method, ¬ ClosesConnection frame method

/-- The last decoded frame is `frame`. -/
structure LastDecoded (past : List Frame) (frame : Frame) (world : World) : Prop where
  calm : Calm world
  frames : ∃ new, world.decoded = past ++ new ++ [frame] ∧
    ∀ frame ∈ new, ∀ method, ¬ ClosesConnection frame method

section Zero

variable {past : List Frame} {fuel : Nat}

theorem LastDecoded.unclosed {frame : Frame} {world : World} (last : LastDecoded past frame world)
    (other : ∀ method, ¬ ClosesConnection frame method) : Unclosed past world := by
  obtain ⟨calm, new, decoded, others⟩ := last
  refine ⟨calm, new ++ [frame], by rw [decoded, List.append_assoc], ?_⟩
  intro one member
  rcases List.mem_append.mp member with earlier | last
  · exact others one earlier
  · rw [List.mem_singleton.mp last]
    exact other

theorem Unclosed.of_links {before after : World} (unclosed : Unclosed past before)
    (links : Links before after) : Unclosed past after := by
  refine ⟨unclosed.calm.of_links links, ?_⟩
  obtain ⟨script, queue, poolTable, uses, rfl⟩ := links
  exact unclosed.frames

theorem closesConnection_of_beat {frame : Frame} (beat : frame.frameType = amqpFrameHeartbeat)
    (method : Method) : ¬ ClosesConnection frame method := by
  intro closes
  have isMethod := closes.1
  unfold Frame.method? at isMethod
  rw [beat] at isMethod
  cases isMethod

theorem waitFrameInner_unclosed {deadline : UInt64} :
    Triple (Unclosed past) (waitFrameInner deadline fuel)
      (fun result world => match result with
        | .ok frame => LastDecoded past frame world
        | .error _ => Unclosed past world)
      (fun _ => Unclosed past) := by
  rintro world ⟨calm, new, decoded, others⟩
  have start : OnlyBeats world.script.links (past ++ new) world.queue world :=
    ⟨⟨calm, List.suffix_rfl⟩, rfl, [], by simp, by simpa using decoded⟩
  have older {beats : List Frame} (areBeats : ∀ frame ∈ beats, frame.frameType = amqpFrameHeartbeat) :
      ∀ frame ∈ new ++ beats, ∀ method, ¬ ClosesConnection frame method := by
    intro frame member
    rcases List.mem_append.mp member with earlier | beat
    · exact others frame earlier
    · exact closesConnection_of_beat (areBeats frame beat)
  have beatsOnly : ∀ after, OnlyBeats world.script.links (past ++ new) world.queue after →
      Unclosed past after := by
    rintro after ⟨provided, _, beats, areBeats, decoded⟩
    exact ⟨provided.calm, new ++ beats, by rw [decoded, List.append_assoc], older areBeats⟩
  cases returned : waitFrameInner deadline fuel world with
  | error stop after => exact beatsOnly after (waitFrameInner_frames.error start returned)
  | ok result after =>
      have ends := waitFrameInner_frames.ok start returned
      cases result with
      | error status => exact beatsOnly after ends
      | ok frame =>
          obtain ⟨⟨provided, _, beats, areBeats, decoded⟩, _⟩ := ends
          refine ⟨provided.calm, new ++ beats, ?_, older areBeats⟩
          rw [decoded, ← List.append_assoc]

/-- How waiting for channel 0 ends: a frame is from the queue, or it is the last one. -/
def WaitedZero (past : List Frame) : Except Status Frame → World → Prop
  | .ok frame, world => Unclosed past world ∨ frame.channel = 0 ∧ LastDecoded past frame world
  | .error _, world => Unclosed past world

theorem waitFrameForChannel_unclosed :
    Triple (Unclosed past) (waitFrameForChannel 0 fuel) (WaitedZero past) (fun _ => Unclosed past) := by
  induction fuel with
  | zero => exact .throw fun _ unclosed => unclosed
  | succ fuel ih =>
      refine Triple.bind waitFrameInner_unclosed fun result => ?_
      cases result with
      | error status => exact .pure fun _ unclosed => unclosed
      | ok frame =>
          refine .ite (fun zero => .pure fun _ last => .inr ⟨zero.symm, last⟩) fun nonzero => ?_
          have other : ∀ method, ¬ ClosesConnection frame method :=
            fun method closes => nonzero closes.2.1.symm
          have queues : Keeps (Unclosed past) (amqpQueueFrame frame) :=
            (links_amqpQueueFrame frame).keeps fun _ _ links unclosed => unclosed.of_links links
          refine Triple.bind (queues.strengthen fun _ last => LastDecoded.unclosed last other)
            fun queued => ?_
          cases queued with
          | error status => exact .pure fun _ unclosed => unclosed
          | ok _ => exact ih

theorem waitFrameOnChannel_unclosed :
    Triple (Unclosed past) (amqpSimpleWaitFrameOnChannel 0 fuel) (WaitedZero past)
      (fun _ => Unclosed past) := by
  refine .get_bind fun world unclosed => ?_
  rintro _ rfl
  cases world.queue.find (fun frame => (0 : UInt16) == frame.channel) world.queue.reach
    world.queue.first with
  | some link => exact .inl (unclosed.of_links (links_of_queue world _))
  | none => exact waitFrameForChannel_unclosed unclosed

/-- How reading a message from channel 0 ends. -/
def ReadZero {α : Type} (past : List Frame) (result : Except RpcReply α) (world : World) : Prop :=
  Unclosed past world ∨ ∃ frame method, LastDecoded past frame world ∧
    ClosesConnection frame method ∧ result = .error (.serverException method)

theorem closeMethod?_of_closes {frame : Frame} {method : Method}
    (closes : ClosesConnection frame method) : closeMethod? frame = some method := by
  unfold closeMethod?
  rw [closes.1]
  simp [closes.2.2]

theorem frameType_of_closes {frame : Frame} {method : Method}
    (closes : ClosesConnection frame method) : frame.frameType = amqpFrameMethod := by
  have isMethod := closes.1
  unfold Frame.method? at isMethod
  split at isMethod
  · assumption
  · cases isMethod

theorem WaitedZero.unclosed {frame : Frame} {world : World}
    (other : ¬ ∃ method, ClosesConnection frame method)
    (waited : WaitedZero past (.ok frame) world) : Unclosed past world := by
  rcases waited with unclosed | ⟨_, last⟩
  · exact unclosed
  · exact last.unclosed fun method closes => other ⟨method, closes⟩

theorem WaitedZero.reported {α : Type} {frame : Frame} {method : Method} {world : World}
    (closes : ClosesConnection frame method) (waited : WaitedZero past (.ok frame) world) :
    ReadZero past (.error (.serverException method) : Except RpcReply α) world := by
  rcases waited with unclosed | ⟨_, last⟩
  · exact .inl unclosed
  · exact .inr ⟨frame, method, last, closes, rfl⟩

theorem readFragments_unclosed (size : Nat) (body : List UInt8) :
    Triple (Unclosed past) (readFragments 0 size fuel body) (ReadZero past)
      (fun _ => Unclosed past) := by
  induction fuel generalizing body with
  | zero => exact .throw fun _ unclosed => unclosed
  | succ fuel ih =>
      refine .ite (fun _ => ?_) fun _ => .pure fun _ unclosed => .inl unclosed
      refine Triple.bind waitFrameOnChannel_unclosed fun result => ?_
      cases result with
      | error status => exact .pure fun _ unclosed => .inl unclosed
      | ok frame =>
          dsimp only
          by_cases closes : ∃ method, ClosesConnection frame method
          · obtain ⟨method, closes⟩ := closes
            rw [if_pos (by rw [frameType_of_closes closes]; decide), closeMethod?_of_closes closes]
            exact .pure fun _ waited => waited.reported closes
          · refine Triple.strengthen ?_ fun _ waited => WaitedZero.unclosed closes waited
            refine .ite (fun _ => ?_) fun _ => ?_
            · cases closeMethod? frame with
              | some method => exact .pure fun _ unclosed => .inl unclosed
              | none => exact .pure fun _ unclosed => .inl unclosed
            · cases frame.payload with
              | bodyFragment bytes =>
                  exact .ite (fun _ => .pure fun _ unclosed => .inl unclosed) fun _ => ih _
              | none => exact .throw fun _ unclosed => unclosed
              | method id decoded => exact .throw fun _ unclosed => unclosed
              | properties classId bodySize decoded raw => exact .throw fun _ unclosed => unclosed
              | protocolHeader _ _ _ _ => exact .throw fun _ unclosed => unclosed

theorem readMessage_unclosed (allocs : List Bool) :
    Triple (Unclosed past) (amqpReadMessage allocs 0 fuel) (ReadZero past)
      (fun _ => Unclosed past) := by
  refine Triple.bind waitFrameOnChannel_unclosed fun result => ?_
  cases result with
  | error status => exact .pure fun _ unclosed => .inl unclosed
  | ok frame =>
      dsimp only
      by_cases closes : ∃ method, ClosesConnection frame method
      · obtain ⟨method, closes⟩ := closes
        rw [if_pos (by rw [frameType_of_closes closes]; decide), closeMethod?_of_closes closes]
        exact .pure fun _ waited => waited.reported closes
      · refine Triple.strengthen ?_ fun _ waited => WaitedZero.unclosed closes waited
        refine .ite (fun _ => ?_) fun _ => ?_
        · cases closeMethod? frame with
          | some method => exact .pure fun _ unclosed => .inl unclosed
          | none =>
              have putsBack : Keeps (Unclosed past) (amqpPutBackFrame frame) :=
                (links_amqpPutBackFrame frame).keeps fun _ _ links unclosed => unclosed.of_links links
              exact Triple.bind putsBack fun _ => .pure fun _ unclosed => .inl unclosed
        · split
          · exact .throw fun _ unclosed => unclosed
          · exact .pure fun _ unclosed => .inl unclosed
          · refine Triple.bind (readFragments_unclosed _ []) fun result => ?_
            cases result with
            | ok body =>
                refine .pure fun _ ends => .inl (ends.resolve_right ?_)
                rintro ⟨_, _, _, _, impossible⟩
                cases impossible
            | error reply =>
                refine .pure fun _ ends => ends.imp_right ?_
                rintro ⟨frame, method, last, closes, same⟩
                cases same
                exact ⟨frame, method, last, closes, rfl⟩

theorem reportsConnectionClose_zero {allocs : List Bool} {world : World} (calm : Calm world) :
    ReportsConnectionClose allocs 0 fuel world := by
  have start : Unclosed world.decoded world := ⟨calm, [], by simp, by simp⟩
  have unreported : ∀ after, Unclosed world.decoded after → ∀ close method,
      close ∈ newFrames world after → ¬ ClosesConnection close method := by
    rintro after ⟨_, new, decoded, others⟩ close method member
    rw [newFrames_eq decoded] at member
    exact others close member method
  intro close method member closes
  cases returned : amqpReadMessage allocs 0 fuel world with
  | error stop after =>
      rw [returned] at member
      have unclosed := (readMessage_unclosed allocs).error start returned
      exact absurd closes (unreported after unclosed close method member)
  | ok result after =>
      rw [returned] at member
      rcases (readMessage_unclosed allocs).ok start returned with unclosed | ends
      · exact absurd closes (unreported after unclosed close method member)
      · obtain ⟨frame, found, ⟨_, new, decoded, others⟩, isClose, rfl⟩ := ends
        rw [endState, newFrames_eq ((List.append_assoc ..) ▸ decoded)] at member
        rcases List.mem_append.mp member with earlier | last
        · exact absurd closes (others close earlier method)
        · rw [List.mem_singleton.mp last] at closes
          have same : found = method := Option.some.inj (isClose.1.symm.trans closes.1)
          exact ⟨after, by rw [same]⟩

end Zero

/-! ## Other channels -/

/-- Two turns of the loop that waits for a channel other than 0. -/
def twoTurns (fuel : Nat) : Call (Except Status Frame) := do
  match ← waitFrameInner amqpTimeInfinite (fuel + 1) with
  | .error status => return .error status
  | .ok frame => do
      match ← amqpQueueFrame frame with
      | .error status => return .error status
      | .ok () => waitFrameInner amqpTimeInfinite fuel

theorem waitFrameForChannel_twoTurns {channel : UInt16} {fuel : Nat} {world after : World}
    {stop : Stop}
    (passes : ∀ frame ∈ handedBy (waitFrameInner amqpTimeInfinite (fuel + 1) world),
      channel ≠ frame.channel)
    (stopped : twoTurns fuel world = .error stop after) :
    waitFrameForChannel channel (fuel + 2) world = .error stop after := by
  unfold twoTurns at stopped
  unfold waitFrameForChannel
  cases first : waitFrameInner amqpTimeInfinite (fuel + 1) world with
  | error _ _ =>
      rw [bind_of_error first] at stopped ⊢
      exact stopped
  | ok result between =>
      rw [bind_of_ok first] at stopped ⊢
      cases result with
      | error status => cases stopped
      | ok frame =>
          have apart : channel ≠ frame.channel := by
            rw [first] at passes
            exact passes frame List.mem_cons_self
          dsimp only at stopped ⊢
          rw [if_neg apart]
          cases queued : amqpQueueFrame frame between with
          | error _ _ =>
              rw [bind_of_error queued] at stopped ⊢
              exact stopped
          | ok result final =>
              rw [bind_of_ok queued] at stopped ⊢
              cases result with
              | error status => cases stopped
              | ok _ => exact bind_of_error stopped

/-- With nothing but a `connection.close` to receive, the call waits for more. -/
theorem readMessage_blocked {channel : UInt16} (other : channel ≠ 0) :
    amqpReadMessage [] channel 5 closingWorld =
      .error .blocked (endState (twoTurns 3 closingWorld)) := by
  have stop : stopOf (twoTurns 3 closingWorld) = some .blocked := by decide +kernel
  have stopped : twoTurns 3 closingWorld =
      .error .blocked (endState (twoTurns 3 closingWorld)) := by
    cases turns : twoTurns 3 closingWorld with
    | ok _ _ =>
        rw [turns] at stop
        cases stop
    | error _ _ =>
        rw [turns] at stop
        cases stop
        rfl
  have channels : (handedBy (waitFrameInner amqpTimeInfinite 4 closingWorld)).map Frame.channel =
      [0] := by decide +kernel
  have waits : amqpSimpleWaitFrameOnChannel channel 5 closingWorld =
      waitFrameForChannel channel 5 closingWorld := by
    have empty : closingWorld.queue.Represents [] := LinkedQueue.represents_empty
    unfold amqpSimpleWaitFrameOnChannel
    rw [bind_of_ok (get_run closingWorld), empty.find_eq_none (by simp)]
  unfold amqpReadMessage
  refine bind_of_error (waits.trans (waitFrameForChannel_twoTurns ?_ stopped))
  intro frame member same
  have zero : frame.channel ∈ [(0 : UInt16)] := by
    rw [← channels]
    exact List.mem_map_of_mem member
  exact other (same.trans (List.mem_singleton.mp zero))

/-- A call that has not returned has not reported the frames it decoded. -/
theorem not_reports_of_stopped {allocs : List Bool} {channel : UInt16} {fuel : Nat}
    {world after : World} {stop : Stop} {close : Frame} {method : Method}
    (stopped : amqpReadMessage allocs channel fuel world = .error stop after)
    (received : close ∈ newFrames world after) (closes : ClosesConnection close method) :
    ¬ ReportsConnectionClose allocs channel fuel world := by
  intro reports
  unfold ReportsConnectionClose at reports
  rw [stopped] at reports
  obtain ⟨_, reported⟩ := reports close method received closes
  cases reported

theorem exists_close_of_labels {frames : List Frame}
    (labels : frames.map Frame.label = [(0, some amqpConnectionCloseMethod)]) :
    ∃ close ∈ frames, ∃ method, ClosesConnection close method := by
  have member : (0, some amqpConnectionCloseMethod) ∈ frames.map Frame.label := by
    rw [labels]
    exact List.mem_singleton_self _
  obtain ⟨close, received, label⟩ := List.mem_map.mp member
  obtain ⟨zero, isClose⟩ := Prod.mk.inj label
  obtain ⟨method, isMethod, id⟩ := Option.map_eq_some_iff.mp isClose
  exact ⟨close, received, method, isMethod, zero, id⟩

theorem not_reportsConnectionClose {channel : UInt16} (other : channel ≠ 0) :
    ¬ ReportsConnectionClose [] channel 5 closingWorld := by
  have labels : (newFrames closingWorld (endState (twoTurns 3 closingWorld))).map Frame.label =
      [(0, some amqpConnectionCloseMethod)] := by decide +kernel
  obtain ⟨close, received, method, closes⟩ := exists_close_of_labels labels
  exact not_reports_of_stopped (readMessage_blocked other) received closes

/-! ## Late heartbeats -/

/-- A heartbeat cannot be sent for some time, and `amqp_try_recv` receives the close meanwhile. -/
def lateCloseWorld : World :=
  beatingWorld
    { clock := [1500000000, 1500000000, 2500000000, 2600000000, 2600000000, 4600000000]
      recvs := [.data connectionCloseChunk, .data heartbeatChunk]
      sends := [.needWrite, .needWrite, .accepted 100]
      recvPolls := []
      sendPolls := [.timedOut, .timedOut]
      closes := []
      links := []
      memory := fun _ => grantingMemory }

/-- On channel 0, too, a close that `amqp_try_recv` has queued is not returned. -/
theorem not_reportsConnectionClose_late : ¬ ReportsConnectionClose [] 0 9 lateCloseWorld := by
  have stop : stopOf (amqpReadMessage [] 0 9 lateCloseWorld) = some .blocked := by decide +kernel
  have labels : (newFrames lateCloseWorld
      (endState (amqpReadMessage [] 0 9 lateCloseWorld))).map Frame.label =
        [(0, some amqpConnectionCloseMethod)] := by decide +kernel
  cases ran : amqpReadMessage [] 0 9 lateCloseWorld with
  | ok result after =>
      rw [ran] at stop
      cases stop
  | error stopped after =>
      rw [ran] at labels
      obtain ⟨close, received, method, closes⟩ := exists_close_of_labels labels
      exact not_reports_of_stopped ran received closes

/-- A `connection.close` is returned only where channel 0 itself is read from, and only where
no heartbeat is sent late. With `late` the schedules that send one late are counted too. -/
theorem reportsConnectionClose_iff (channel : UInt16) (late : Prop) :
    (∀ allocs fuel world, late ∨ Calm world → ReportsConnectionClose allocs channel fuel world) ↔
      channel = 0 ∧ ¬ late := by
  constructor
  · intro reports
    have zero : channel = 0 := by
      by_contra other
      have calm : Calm closingWorld := .inr fun _ member => absurd member List.not_mem_nil
      exact not_reportsConnectionClose other (reports [] 5 closingWorld (.inr calm))
    refine ⟨zero, fun isLate => ?_⟩
    subst zero
    exact not_reportsConnectionClose_late (reports [] 9 lateCloseWorld (.inl isLate))
  · rintro ⟨rfl, timely⟩ allocs fuel world scheduled
    exact reportsConnectionClose_zero (scheduled.resolve_left timely)

/-- On channel 1 the close is queued. -/
theorem channel_one_misses_connection_close :
    ¬ ∀ channel allocs fuel world, ReportsConnectionClose allocs channel fuel world :=
  fun reports => not_reportsConnectionClose (by decide) (reports 1 [] 5 closingWorld)

end RabbitmqC
