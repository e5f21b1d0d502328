import RabbitmqC.Connection.Progress
import RabbitmqC.Socket.ChunkIndependence

/-!
# The loops over the socket buffer

`amqp_try_recv` and `wait_frame_inner` call `consume_one_frame` as long as there are octets in
the buffer. Each call goes past one octet at least, so both loops end, unless they come to a
frame that the decoders are not written for.
-/

set_option autoImplicit false

namespace RabbitmqC

open Effect

/-! ## One turn -/

/-- `amqp_handle_input` does not return: a frame ends that cannot be decoded. -/
structure Stranded (world : World) (fault : Fault) : Prop where
  framed : world.reader.Framed
  fails : ¬ world.reader.Decodes world.unread
  raised : amqpHandleInput (world.script.memory world.framesRead) world.reader world.unread =
    .error fault

/-- What `consume_one_frame` does to a buffer that is not empty. -/
inductive ConsumeTurn (world : World) : EStateM.Result Stop World (Except Status Frame) → Prop where
  | refused {status : Status} {after : World} : ConsumeTurn world (.ok (.error status) after)
  | taken {frame : Frame} {after : World} : after.reader.Framed →
      after.unread.length < world.unread.length →
      (frame.frameType ≠ 0 → after.reader.state = .idle) → ConsumeTurn world (.ok (.ok frame) after)
  | stranded {fault : Fault} : Stranded world fault →
      ConsumeTurn world (.error (.fault fault) world)

section Turns

variable {world : World}

theorem consumeOneFrame_turn (framed : world.reader.Framed) (data : amqpDataInBuffer world = true) :
    ConsumeTurn world (consumeOneFrame world) := by
  have more := unread_ne_nil data
  have consumed := consumption world
  generalize consumeOneFrame world = ran at consumed ⊢
  cases consumed with
  | stranded returned =>
      refine .stranded ⟨framed, fun decodes => ?_, returned⟩
      obtain ⟨handled, answered⟩ := @amqpHandleInput_returns
        (world.script.memory world.framesRead) _ _ framed more decodes
      cases returned.symm.trans answered
  | refused => exact .refused
  | taken returned =>
      obtain ⟨count, rfl, positive, within, small, _⟩ :=
        amqpHandleInput_progress framed.ready more returned rfl
      have size : sizeOfInt (count : Int) = count := by
        apply sizeOfInt_natCast
        unfold int32Max at small
        omega
      have stillFramed := amqpHandleInput_framed framed more returned rfl
      apply ConsumeTurn.taken stillFramed
      · simp only [World.goPast, World.unread, List.length_drop, size] at within ⊢
        omega
      · exact amqpHandleInput_idle returned

theorem queueReceived_links (world : World) (frame : Frame) : ∃ result after,
    queueReceived frame world = .ok result after ∧ Links world after := by
  obtain ⟨script, poolTable, stale, _, created⟩ := createLinkForFrame_eq world frame
  have moves := links_queueReceived frame world
  have returns : ∃ result after, queueReceived frame world = .ok result after := by
    unfold queueReceived
    rcases created with created | created
    · rw [bind_of_ok created]
      exact ⟨_, _, rfl⟩
    · rw [bind_of_ok created]
      exact ⟨_, _, rfl⟩
  obtain ⟨result, after, returned⟩ := returns
  rw [returned] at moves
  exact ⟨result, after, returned, moves⟩

theorem maybeReleaseBuffersOnChannel_still (world : World) (channel : UInt16) : ∃ after,
    amqpMaybeReleaseBuffersOnChannel channel world = .ok () after ∧ Still world after := by
  have moves := still_maybeReleaseBuffersOnChannel channel world
  have returns : ∃ after, amqpMaybeReleaseBuffersOnChannel channel world = .ok () after := by
    unfold amqpMaybeReleaseBuffersOnChannel
    rw [bind_of_ok (get_run world)]
    cases world.queue.find (fun frame => channel == frame.channel) world.queue.reach
      world.queue.first with
    | some link => split <;> exact ⟨_, rfl⟩
    | none =>
        split
        · exact ⟨_, rfl⟩
        · dsimp only
          split <;> exact ⟨_, rfl⟩
  obtain ⟨after, returned⟩ := returns
  rw [returned] at moves
  exact ⟨after, returned, moves⟩

end Turns

/-! ## Whole loops -/

/-- Where a loop stops that runs on the fuel it is given. -/
inductive DrainStops {α : Type} (loop : Nat → Call α) (stopped : World) : Prop where
  | drained : amqpDataInBuffer stopped = false → DrainStops loop stopped
  | returned {result : α} {after : World} : (∀ fuel, loop (fuel + 1) stopped = .ok result after) →
      DrainStops loop stopped
  | stranded {fault : Fault} : Stranded stopped fault →
      (∀ fuel, loop (fuel + 1) stopped = .error (.fault fault) stopped) → DrainStops loop stopped

/-- The loop stops after as many turns at most as there are octets in the buffer. -/
def DrainEnds {α : Type} (loop : Nat → Call α) (world : World) : Prop :=
  ∃ turns stopped, turns ≤ world.unread.length ∧
    (∀ fuel, loop (turns + fuel) world = loop fuel stopped) ∧ DrainStops loop stopped

section Loops

variable {α : Type} {loop : Nat → Call α} {world : World}

/-- The loop stops, or goes on with fewer octets in the buffer. -/
def DrainTurn (loop : Nat → Call α) (world : World) : Prop :=
  DrainStops loop world ∨ ∃ next, next.reader.Framed ∧ next.unread.length < world.unread.length ∧
    ∀ fuel, loop (fuel + 1) world = loop fuel next

theorem drainEnds_of_turns
    (turn : ∀ world, world.reader.Framed → amqpDataInBuffer world = true → DrainTurn loop world)
    (framed : world.reader.Framed) : DrainEnds loop world := by
  -- By induction on a bound of the octets in the buffer.
  induction size : world.unread.length using Nat.strongRecOn generalizing world with
  | ind size ih =>
      cases data : amqpDataInBuffer world with
      | false => exact ⟨0, world, Nat.zero_le _, fun fuel => by rw [Nat.zero_add], .drained data⟩
      | true =>
          rcases turn world framed data with stops | ⟨next, still, fewer, goesOn⟩
          · exact ⟨0, world, Nat.zero_le _, fun fuel => by rw [Nat.zero_add], stops⟩
          · obtain ⟨turns, stopped, bounded, same, stops⟩ := ih _ (size ▸ fewer) still rfl
            refine ⟨turns + 1, stopped, Nat.le_trans (Nat.succ_le_succ bounded) fewer, ?_, stops⟩
            intro fuel
            rw [Nat.add_right_comm, goesOn, same]

theorem tryRecv_turn (framed : world.reader.Framed) (data : amqpDataInBuffer world = true) :
    DrainTurn amqpTryRecv world := by
  have turn := consumeOneFrame_turn framed data
  generalize consumed : consumeOneFrame world = outcome at turn
  cases turn with
  | refused =>
      apply Or.inl
      apply DrainStops.returned
      intro fuel
      unfold amqpTryRecv
      rw [bind_of_ok (get_run world), if_pos data, bind_of_ok consumed]
      rfl
  | stranded stranded =>
      apply Or.inl
      apply DrainStops.stranded stranded
      intro fuel
      unfold amqpTryRecv
      rw [bind_of_ok (get_run world), if_pos data, bind_of_error consumed]
  | @taken frame middle still fewer idle =>
      by_cases ignored : frame.frameType = 0
      · refine .inr ⟨middle, still, fewer, fun fuel => ?_⟩
        rw [amqpTryRecv, bind_of_ok (get_run world), if_pos data, bind_of_ok consumed]
        exact congrFun (if_neg (not_not.mpr ignored)) middle
      · obtain ⟨result, after, queued, links⟩ := queueReceived_links middle frame
        cases result with
        | error status =>
            apply Or.inl
            apply DrainStops.returned
            intro fuel
            rw [amqpTryRecv, bind_of_ok (get_run world), if_pos data, bind_of_ok consumed]
            dsimp only
            rw [if_pos ignored, bind_of_ok queued]
            rfl
        | ok _ =>
            obtain ⟨script, queue, poolTable, _, rfl⟩ := links
            refine .inr ⟨{ middle with script, queue, reader.poolTable := poolTable },
              still.pooled poolTable (idle ignored), fewer, fun fuel => ?_⟩
            rw [amqpTryRecv, bind_of_ok (get_run world), if_pos data, bind_of_ok consumed]
            dsimp only
            rw [if_pos ignored, bind_of_ok queued]

theorem drainToFrame_turn (framed : world.reader.Framed) (data : amqpDataInBuffer world = true) :
    DrainTurn drainToFrame world := by
  have turn := consumeOneFrame_turn framed data
  generalize consumed : consumeOneFrame world = outcome at turn
  cases turn with
  | refused =>
      apply Or.inl
      apply DrainStops.returned
      intro fuel
      unfold drainToFrame
      rw [bind_of_ok (get_run world), if_pos data, bind_of_ok consumed]
      rfl
  | stranded stranded =>
      apply Or.inl
      apply DrainStops.stranded stranded
      intro fuel
      unfold drainToFrame
      rw [bind_of_ok (get_run world), if_pos data, bind_of_error consumed]
  | @taken frame middle still fewer idle =>
      by_cases beat : frame.frameType = amqpFrameHeartbeat
      · obtain ⟨after, released, unchanged⟩ := maybeReleaseBuffersOnChannel_still middle 0
        refine .inr ⟨after, ?_, ?_, fun fuel => ?_⟩
        · rw [unchanged.reader]
          exact still
        · unfold World.unread at fewer ⊢
          rw [unchanged.sockInbound, unchanged.sockInboundOffset]
          exact fewer
        · rw [drainToFrame, bind_of_ok (get_run world), if_pos data, bind_of_ok consumed]
          dsimp only
          rw [if_pos beat, bind_of_ok released]
      · by_cases ignored : frame.frameType = 0
        · refine .inr ⟨middle, still, fewer, fun fuel => ?_⟩
          rw [drainToFrame, bind_of_ok (get_run world), if_pos data, bind_of_ok consumed]
          dsimp only
          rw [if_neg beat, if_neg (not_not.mpr ignored)]
        · apply Or.inl
          apply DrainStops.returned
          intro fuel
          rw [drainToFrame, bind_of_ok (get_run world), if_pos data, bind_of_ok consumed]
          dsimp only
          rw [if_neg beat, if_pos ignored]
          rfl

/-- The loop of `amqp_try_recv` ends on every buffer. -/
theorem tryRecv_ends (framed : world.reader.Framed) : DrainEnds amqpTryRecv world :=
  drainEnds_of_turns (fun _ => tryRecv_turn) framed

/-- The inner loop of `wait_frame_inner` ends on every buffer. -/
theorem drainToFrame_ends (framed : world.reader.Framed) : DrainEnds drainToFrame world :=
  drainEnds_of_turns (fun _ => drainToFrame_turn) framed

end Loops

/-! ## Every reader reached -/

/-- The call returns a count. -/
def ReturnsCount (memory : FrameMemory) (reader : Reader) (receivedData : List UInt8) : Prop :=
  ∃ handled count, amqpHandleInput memory reader receivedData = .ok handled ∧
    handled.result = .ok count

/-- The call has returned an error, or has taken octets and stopped behind a frame at most. -/
def Progressed (receivedData : List UInt8) (handled : Handled) : Prop :=
  (∃ status, handled.result = .error status) ∨
    ∃ count : Nat, handled.result = .ok count ∧ 1 ≤ count ∧
      count ≤ min receivedData.length int32Max ∧ (count < receivedData.length → handled.Finished)

section Reached

variable {memory : FrameMemory} {reader : Reader} {data : List UInt8} {handled : Handled}

theorem Reader.Framed.progressed (framed : reader.Framed) (more : data ≠ [])
    (returned : amqpHandleInput memory reader data = .ok handled) : Progressed data handled := by
  cases accepted : handled.result with
  | error status => exact .inl ⟨status, accepted⟩
  | ok taken =>
      obtain ⟨count, rfl, positive, within, small, finishes⟩ :=
        amqpHandleInput_progress framed.ready more returned accepted
      exact .inr ⟨count, accepted, positive,
        Nat.le_min.mpr ⟨within, Nat.le_trans (Nat.le_add_left _ _) small⟩, finishes⟩

theorem Reader.Reached.framed (reached : Reader.Reached ReturnsCount reader) : reader.Framed := by
  induction reached with
  | new => exact reader_new_framed
  | @call reader memory receivedData handled _ counts returned ih =>
      obtain ⟨same, count, counted, accepted⟩ := counts
      obtain rfl := Except.ok.inj (counted.symm.trans returned)
      by_cases empty : receivedData = []
      · subst empty
        obtain rfl := Except.ok.inj returned
        exact ih
      · exact amqpHandleInput_framed ih empty returned accepted

end Reached

/-- Memory that grants everything, with each block at the end of its page. -/
def pageEndMemory : FrameMemory where
  poolEntry := true
  block := fun amount =>
    if bounded : amount < 2 ^ 63 then
      some ⟨.zeros amount bounded, Nat.le_of_eq (Buffer.size_zeros amount bounded).symm⟩
    else none
  allocs := []

/-- The reader has taken a protocol header and a heartbeat. -/
def beatenReader : Except Fault Handled := do
  let opened ← amqpHandleInput grantingMemory Reader.new (protocolName ++ [0, 0, 9, 1])
  amqpHandleInput grantingMemory opened.reader (frameOctets amqpFrameHeartbeat 0 [])

theorem beatenReader_reached : ∃ handled, beatenReader = .ok handled ∧
    Reader.Reached ReturnsCount handled.reader := by
  have opens : Handled.result <$>
      amqpHandleInput grantingMemory Reader.new (protocolName ++ [0, 0, 9, 1]) = .ok (.ok 8) := by
    decide +kernel
  have beats : Handled.result <$> beatenReader = .ok (.ok 8) := by decide +kernel
  unfold beatenReader at beats ⊢
  cases opened : amqpHandleInput grantingMemory Reader.new (protocolName ++ [0, 0, 9, 1]) with
  | error fault =>
      rw [opened] at opens
      cases opens
  | ok first =>
      rw [opened] at opens beats
      rw [Effect.except_bind_ok] at beats ⊢
      have reached : Reader.Reached ReturnsCount first.reader :=
        .call .new ⟨first, 8, opened, Except.ok.inj opens⟩ opened
      cases beaten : amqpHandleInput grantingMemory first.reader
          (frameOctets amqpFrameHeartbeat 0 []) with
      | error fault =>
          rw [beaten] at beats
          cases beats
      | ok second =>
          rw [beaten] at beats
          exact ⟨second, rfl, .call reached ⟨second, 8, beaten, Except.ok.inj beats⟩ beaten⟩

end RabbitmqC
