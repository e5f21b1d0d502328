import RabbitmqC.Connection.StaleMemory
import RabbitmqC.Socket.Conservation

/-!
# Independence of chunks

However the socket divides its input and whichever of the two read loops meets it,
the reader ends as if the input had been in one buffer. A heartbeat that is sent
late breaks this, since the octets received behind its back are then overwritten,
and so does a frame that is decoded from older octets of its block.
-/

set_option autoImplicit false

namespace RabbitmqC

open Effect

/-! ## Frames end in the idle state -/

section Idle

variable {memory : FrameMemory} {reader after : Reader} {receivedData : List UInt8}
  {bytesConsumed : Nat} {count : Int} {frame : Frame}

private theorem readBody_idle
    (returned : readBody memory reader receivedData bytesConsumed = .ok ⟨after, .ok count, frame⟩)
    (full : frame.frameType ≠ 0) : after.state = .idle := by
  unfold readBody at returned
  obtain ⟨⟨stored, more⟩, _, returned⟩ := Effect.except_bind_eq_ok.mp returned
  dsimp only at returned
  split at returned
  · have unset := congrArg Handled.frame (Except.ok.inj returned)
    exact absurd (congrArg Frame.frameType unset).symm full
  · obtain ⟨_, table, same⟩ := bodyCase_accepted returned rfl
    have idle := congrArg Reader.state same
    exact idle

private theorem headerCase_idle
    (returned : headerCase memory reader receivedData bytesConsumed = .ok ⟨after, .ok count, frame⟩)
    (full : frame.frameType ≠ 0) : after.state = .idle := by
  cases headerCase_eq_ok returned with
  | refused refusing status state target inbound same => cases same
  | taken frameSize poolTable isNew block started begun read => exact readBody_idle read full

/-- A call that delivers a frame leaves the reader between two frames. -/
theorem amqpHandleInput_idle
    (returned : amqpHandleInput memory reader receivedData = .ok ⟨after, .ok count, frame⟩)
    (full : frame.frameType ≠ 0) : after.state = .idle := by
  unfold amqpHandleInput at returned
  split at returned
  · have unset := congrArg Handled.frame (Except.ok.inj returned)
    exact absurd (congrArg Frame.frameType unset).symm full
  · obtain ⟨⟨stored, taken⟩, _, returned⟩ := Effect.except_bind_eq_ok.mp returned
    dsimp only at returned
    split at returned
    · have unset := congrArg Handled.frame (Except.ok.inj returned)
      exact absurd (congrArg Frame.frameType unset).symm full
    · unfold handleComplete at returned
      split at returned
      · unfold initialCase at returned
        obtain ⟨raw, _, returned⟩ := Effect.except_bind_eq_ok.mp returned
        split at returned
        · cases returned
        · split at returned
          · obtain ⟨_, _, returned⟩ := Effect.except_bind_eq_ok.mp returned
            obtain ⟨_, _, returned⟩ := Effect.except_bind_eq_ok.mp returned
            obtain ⟨_, _, returned⟩ := Effect.except_bind_eq_ok.mp returned
            obtain ⟨_, _, returned⟩ := Effect.except_bind_eq_ok.mp returned
            have idle := congrArg (·.reader.state) (Except.ok.inj returned)
            exact idle.symm
          · exact headerCase_idle returned full
      · exact headerCase_idle returned full
      · obtain ⟨_, table, same⟩ := bodyCase_accepted returned rfl
        have idle := congrArg Reader.state same
        exact idle
      · cases returned

end Idle

/-! ## Runs -/

/-- A connection that has received nothing yet. -/
structure Fresh (world : World) : Prop where
  reader : world.reader = Reader.new
  sockInbound : world.sockInbound = []
  sockInboundOffset : world.sockInboundOffset = 0
  framesRead : world.framesRead = 0
  taken : world.taken = []
  consumed : world.consumed = []
  decoded : world.decoded = []
  inputError : world.inputError = none

/-- The worlds reached by the two read loops, in any order, up to an error in the input. -/
inductive ReceiveRun (begins : World → Prop) : Option Stop → World → Prop where
  | start {world : World} : Fresh world → begins world → ReceiveRun begins none world
  | tryRecv {world : World} {fuel : Nat} : ReceiveRun begins none world →
      world.inputError = none →
      ReceiveRun begins (stopOf (amqpTryRecv fuel world)) (endState (amqpTryRecv fuel world))
  | waitFrame {world : World} {deadline : UInt64} {fuel : Nat} : ReceiveRun begins none world →
      world.inputError = none →
      ReceiveRun begins (stopOf (waitFrameInner deadline fuel world))
        (endState (waitFrameInner deadline fuel world))

/-- The reader of a new connection before its input. -/
def Intake.fresh : Intake := ⟨Reader.new, 0, [], none⟩

/-- What the reader has made of the octets so far. -/
def World.intake (world : World) : Intake :=
  ⟨world.reader, world.framesRead, world.decoded, world.inputError⟩

/-- The input that the reader has seen: at an error, all that was received. -/
def World.digested (world : World) : List UInt8 :=
  if world.inputError.isSome then world.taken else world.consumed

/-- The octets received are those consumed and those still in the buffer, and the
reader is where it would be had it seen its input in one buffer, with blocks from
another memory. -/
structure ChunkIndependent (memory : Nat → FrameMemory) (world : World) : Prop where
  accounted : world.consumed ++ world.unread = world.taken
  agrees : ∃ whole,
    Intake.fresh.present memory world.digested.length world.digested = .ok whole ∧
    whole.frames = world.decoded ∧ whole.error = world.inputError ∧
    whole.reader.state = world.reader.state ∧
    whole.reader.inboundOffset = world.reader.inboundOffset ∧
    whole.reader.targetSize = world.reader.targetSize ∧
    whole.reader.buffered = world.reader.buffered

/-! ## The invariant -/

/-- The reader agrees with one that was fed the octets `seen`. -/
def Agrees (memory : Nat → FrameMemory) (seen : List UInt8) (world : World) : Prop :=
  ∃ whole, Intake.fresh.feed memory seen = .ok whole ∧ world.intake.Alike whole ∧
    (world.inputError = none → whole.reader.Framed)

/-- What holds between two octets of a regular stream. -/
structure InStep (memory : Nat → FrameMemory) (world : World) : Prop where
  accounted : world.consumed ++ world.unread = world.taken
  framed : world.reader.Framed
  position : world.reader.position = (Position.opening []).after world.consumed
  agrees : Agrees memory world.consumed world

structure Reading (memory : Nat → FrameMemory) (world : World) : Prop where
  calm : Calm world
  alike : ∀ frame, (world.script.memory frame).Alike (memory frame)
  clean : world.inputError = none
  inStep : Regular (.opening []) world.taken → InStep memory world

/-- The input was found to be wrong. -/
structure Refused (memory : Nat → FrameMemory) (world : World) : Prop where
  failed : world.inputError.isSome
  inStep : Regular (.opening []) world.taken →
    world.consumed ++ world.unread = world.taken ∧ Agrees memory world.taken world

section Invariant

variable {memory : Nat → FrameMemory} {world : World}

theorem reader_new_framed : Reader.new.Framed where
  ready := ⟨⟨⟨by decide, by decide⟩, rfl⟩, by decide, by decide, by decide⟩
  initial _ := ⟨rfl, rfl⟩
  idle impossible := by cases impossible
  header impossible := by rcases impossible with impossible | impossible <;> cases impossible
  body impossible := by cases impossible

theorem Fresh.reading (fresh : Fresh world) (calm : Calm world)
    (alike : ∀ frame, (world.script.memory frame).Alike (memory frame)) : Reading memory world where
  calm := calm
  alike := alike
  clean := fresh.inputError
  inStep _ := by
    have intake : world.intake = .fresh := by
      unfold World.intake Intake.fresh
      rw [fresh.reader, fresh.framesRead, fresh.decoded, fresh.inputError]
    refine ⟨?_, by rw [fresh.reader]; exact reader_new_framed, ?_, .fresh, ?_, ?_, ?_⟩
    · unfold World.unread
      rw [fresh.consumed, fresh.sockInbound, fresh.taken, List.drop_nil, List.append_nil]
    · rw [fresh.reader, fresh.consumed]
      rfl
    · rw [fresh.consumed]
      rfl
    · rw [intake]
      exact ⟨.refl _, rfl, rfl, rfl⟩
    · exact fun _ => reader_new_framed

theorem agrees_congr {before after : World} {seen : List UInt8} (same : after.intake = before.intake)
    (agrees : Agrees memory seen before) : Agrees memory seen after := by
  unfold Agrees
  have clean : after.inputError = before.inputError := congrArg Intake.error same
  rw [same, clean]
  exact agrees

theorem Reading.of_quiet {before after : World} (quiet : Quiet before after) (calm : Calm after)
    (reading : Reading memory before) : Reading memory after where
  calm := calm
  alike := by
    rw [quiet.uses.memory]
    exact reading.alike
  clean := quiet.inputError.trans reading.clean
  inStep := by
    intro regular
    rw [quiet.taken] at regular
    obtain ⟨accounted, framed, position, agrees⟩ := reading.inStep regular
    refine ⟨?_, by rwa [quiet.reader], by rwa [quiet.reader, quiet.consumed], ?_⟩
    · unfold World.unread at accounted ⊢
      rwa [quiet.consumed, quiet.sockInbound, quiet.sockInboundOffset, quiet.taken]
    · rw [quiet.consumed]
      refine agrees_congr ?_ agrees
      unfold World.intake
      rw [quiet.reader, quiet.framesRead, quiet.decoded, quiet.inputError]

/-- New octets come into an empty buffer. -/
theorem Reading.of_takes {octets : List UInt8} {before after : World}
    (takes : Takes octets before after) (empty : amqpDataInBuffer before = false)
    (reading : Reading memory before) : Reading memory after where
  calm := takes.calm reading.calm
  alike := by
    rw [takes.uses.memory]
    exact reading.alike
  clean := takes.inputError.trans reading.clean
  inStep := by
    intro regular
    rw [takes.taken] at regular
    obtain ⟨accounted, framed, position, agrees⟩ := reading.inStep regular.prefix
    have read : before.unread = [] := by
      unfold amqpDataInBuffer at empty
      exact List.drop_eq_nil_of_le (by simpa using empty)
    rw [read, List.append_nil] at accounted
    refine ⟨?_, by rwa [takes.reader], by rwa [takes.reader, takes.consumed], ?_⟩
    · unfold World.unread
      rw [takes.consumed, takes.sockInbound, takes.sockInboundOffset, takes.taken, accounted]
      rfl
    · rw [takes.consumed]
      refine agrees_congr ?_ agrees
      unfold World.intake
      rw [takes.reader, takes.framesRead, takes.decoded, takes.inputError]

theorem Reader.Framed.pooled {reader : Reader} (framed : reader.Framed) (table : List UInt16)
    (awake : reader.state = .idle) : Reader.Framed { reader with poolTable := table } where
  ready :=
    { invariant := ⟨⟨framed.ready.invariant.sound.offset_le, framed.ready.invariant.sound.target_le⟩,
        framed.ready.invariant.placed⟩
      room := framed.ready.room
      bounded := framed.ready.bounded
      limit := framed.ready.limit }
  initial initial := by
    rw [awake] at initial
    cases initial
  idle := framed.idle
  header := framed.header
  body := framed.body

/-- Between two frames, a frame is put into the queue. -/
theorem Reading.of_links {before after : World} (links : Links before after)
    (reading : Reading memory before) (awake : before.reader.state = .idle) :
    Reading memory after := by
  obtain ⟨script, queue, poolTable, uses, rfl⟩ := links
  obtain ⟨calm, alike, clean, inStep⟩ := reading
  have still : Still before { before with script } := still_of_asks ⟨script, _, uses, rfl⟩
  refine ⟨(calm.of_still still).congr rfl rfl rfl rfl, ?_, clean, fun regular => ?_⟩
  · dsimp only
    rw [uses.memory]
    exact alike
  · obtain ⟨accounted, framed, position, whole, fed, ⟨reader, framesRead, frames, error⟩, others⟩ :=
      inStep regular
    refine ⟨accounted, framed.pooled poolTable awake, position, whole, fed, ?_, others⟩
    exact ⟨⟨reader.state, reader.frameMax, reader.headerBuffer, reader.offset, reader.target,
      reader.buffered⟩, framesRead, frames, error⟩

/-- Octets from the buffer are fed to both readers. -/
theorem InStep.feed {octets rest : List UInt8} {after : Intake} (step : InStep memory world)
    (alike : ∀ frame, (world.script.memory frame).Alike (memory frame))
    (clean : world.inputError = none) (regular : Regular (.opening []) world.taken)
    (unread : world.unread = octets ++ rest)
    (fed : world.intake.feed world.script.memory octets = .ok after) :
    ∃ whole, Intake.fresh.feed memory (world.consumed ++ octets) = .ok whole ∧
      after.Alike whole ∧ (after.error = none → after.reader.Framed ∧ whole.reader.Framed ∧
        after.reader.position = (Position.opening []).after (world.consumed ++ octets)) := by
  obtain ⟨accounted, framed, position, before, earlier, same, others⟩ := step
  have ahead : Regular world.intake.reader.position octets := by
    rw [show world.intake.reader.position = _ from position]
    rw [← accounted, unread, ← List.append_assoc] at regular
    exact regular.prefix.suffix
  obtain ⟨whole, later, recorded, still⟩ := feed_alike alike same framed (others clean) clean
    ahead fed
  refine ⟨whole, ?_, recorded, fun none => ?_⟩
  · rw [feed_append, earlier, Effect.except_bind_ok, later]
  · obtain ⟨stillFramed, otherFramed, moved⟩ := still none
    refine ⟨stillFramed, otherFramed, moved.trans ?_⟩
    rw [show world.intake.reader.position = _ from position]
    exact (List.foldl_append ..).symm

/-- `consume_one_frame` does what the octets do when they are fed one by one. -/
theorem consumeOneFrame_reading :
    Triple (fun world => Reading memory world ∧ amqpDataInBuffer world = true) consumeOneFrame
      (ConsumeEnds (Reading memory)
        (fun _ world => Reading memory world ∧ world.reader.state = .idle) (Refused memory))
      (fun _ => Reading memory) := by
  rintro world ⟨reading, data⟩
  have more := unread_ne_nil data
  have feeds {handled : Handled} (step : InStep memory world) (clean : world.inputError = none)
      (returned : amqpHandleInput (world.script.memory world.framesRead) world.reader
        world.unread = .ok handled) :
      CallFeeds world.script.memory world.intake world.unread (.ok handled) := by
    have feeds :=
      @feed_of_handleInput world.script.memory world.intake _ step.framed.ready clean more
    exact Eq.mp (congrArg _ returned) feeds
  have consumed := consumption world
  generalize consumeOneFrame world = ran at consumed ⊢
  cases consumed with
  | stranded => exact reading
  | refused returned =>
      obtain ⟨calm, alike, clean, inStep⟩ := reading
      refine ⟨by simp [World.failInput, clean], fun regular => ?_⟩
      have step := inStep regular
      obtain ⟨whole, fed, recorded, _⟩ := step.feed alike clean regular
        (List.append_nil _).symm (feeds step clean returned)
      refine ⟨step.accounted, whole, ?_, ?_, fun impossible => ?_⟩
      · rw [step.accounted] at fed
        exact fed
      · simpa [World.intake, World.failInput, Intake.record, clean] using recorded
      · simp [World.failInput, clean] at impossible
  | @taken reader res frame returned =>
      obtain ⟨calm, alike, clean, inStep⟩ := reading
      have reads : Reading memory (world.goPast ⟨reader, .ok res, frame⟩ (sizeOfInt res)) := by
        refine ⟨calm.congr rfl rfl rfl rfl, alike, clean, fun regular => ?_⟩
        have step := inStep regular
        obtain ⟨count, rfl, positive, within, bounded, _, takes⟩ := feeds step clean returned
        have size : sizeOfInt (count : Int) = count := by
          apply sizeOfInt_natCast
          unfold int32Max at bounded
          omega
        obtain ⟨whole, fed, recorded, after⟩ := step.feed alike
          clean regular (List.take_append_drop count _).symm takes
        obtain ⟨framed, otherFramed, position⟩ := after clean
        rw [size]
        refine ⟨?_, framed, position, whole, fed, recorded, fun _ => otherFramed⟩
        have accounted := step.accounted
        simp only [World.goPast, World.unread, ← List.drop_drop] at accounted ⊢
        rw [List.append_assoc, List.take_append_drop, accounted]
      show ite _ _ _
      split
      · exact reads
      · rename_i full
        exact ⟨reads, amqpHandleInput_idle returned full⟩

/-- The rules for receiving apply. -/
theorem receiving_reading (memory : Nat → FrameMemory) : Receiving (Reading memory)
    (fun _ world => Reading memory world ∧ world.reader.state = .idle) (Refused memory) where
  calm _ reading := reading.calm
  quiet _ _ quiet calm reading := reading.of_quiet quiet calm
  takes _ _ _ takes empty reading := reading.of_takes takes empty
  consume := consumeOneFrame_reading

theorem tryRecv_reading {fuel : Nat} : Triple (Reading memory) (amqpTryRecv fuel)
    (fun _ world => Reading memory world ∨ Refused memory world) (fun _ => Reading memory) := by
  refine (receiving_reading memory).tryRecv fun frame _ => ?_
  intro world both
  have moves := links_queueReceived frame world
  cases returned : queueReceived frame world with
  | ok result after =>
      rw [returned] at moves
      exact both.1.of_links moves both.2
  | error stop after =>
      rw [returned] at moves
      exact both.1.of_links moves both.2

theorem waitFrameInner_reading {deadline : UInt64} {fuel : Nat} :
    Triple (Reading memory) (waitFrameInner deadline fuel)
      (fun _ world => Reading memory world ∨ Refused memory world) (fun _ => Reading memory) := by
  refine ((receiving_reading memory).waitFrameInner (fun _ _ _ both => both.1) deadline).weaken
    fun result world ends => ?_
  cases result with
  | ok frame => exact .inl ends.1.1
  | error status => exact ends

/-- Allocations turn out as in another memory, and no heartbeat is sent late. -/
def CalmAlike (memory : Nat → FrameMemory) (world : World) : Prop :=
  Calm world ∧ ∀ frame, (world.script.memory frame).Alike (memory frame)

theorem ReceiveRun.reading {stop : Option Stop}
    (run : ReceiveRun (CalmAlike memory) stop world) :
    Reading memory world ∨ Refused memory world := by
  induction run with
  | start fresh begins => exact .inl (fresh.reading begins.1 begins.2)
  | @tryRecv world fuel _ clean ih =>
      have reading := ih.resolve_right fun refused => by simpa [clean] using refused.failed
      cases returned : amqpTryRecv fuel world with
      | ok result after => exact tryRecv_reading.ok reading returned
      | error stop after => exact .inl (tryRecv_reading.error reading returned)
  | @waitFrame world deadline fuel _ clean ih =>
      have reading := ih.resolve_right fun refused => by simpa [clean] using refused.failed
      cases returned : waitFrameInner deadline fuel world with
      | ok result after => exact waitFrameInner_reading.ok reading returned
      | error stop after => exact .inl (waitFrameInner_reading.error reading returned)

end Invariant

theorem chunkIndependent_of_agrees {memory : Nat → FrameMemory} {world : World}
    (accounted : world.consumed ++ world.unread = world.taken)
    (agrees : Agrees memory world.digested world) : ChunkIndependent memory world := by
  obtain ⟨whole, fed, same, _⟩ := agrees
  have ready : Intake.fresh.reader.Ready := reader_new_framed.ready
  refine ⟨accounted, whole, ?_, same.frames, same.error, same.reader.state, same.reader.offset,
    same.reader.target, same.reader.buffered⟩
  rw [present_eq_feed ready rfl (Nat.le_refl _), fed]

/-- In every run in which no heartbeat is sent late, the reader makes of a regular
stream what it makes of it in one buffer. -/
theorem receiveRun_chunkIndependent {memory : Nat → FrameMemory} {stop : Option Stop}
    {world : World} (run : ReceiveRun (CalmAlike memory) stop world)
    (regular : Regular (.opening []) world.taken) : ChunkIndependent memory world := by
  rcases run.reading with reading | refused
  · have step := reading.inStep regular
    refine chunkIndependent_of_agrees step.accounted ?_
    unfold World.digested
    rw [reading.clean]
    exact step.agrees
  · obtain ⟨accounted, agrees⟩ := refused.inStep regular
    refine chunkIndependent_of_agrees accounted ?_
    unfold World.digested
    rw [if_pos refused.failed]
    exact agrees

theorem grantingMemory_alike : grantingMemory.Alike grantingMemory :=
  ⟨⟨rfl, rfl⟩, fun _ => rfl, rfl⟩

/-- A body frame comes in two pieces, behind the protocol header and in front of another frame. -/
def splitFrameWorld : World :=
  World.new
    { clock := []
      recvs :=
        [.data ⟨protocolName ++ [0, 0, 9, 1] ++ (frameOctets amqpFrameBody 1 [17]).take 5,
            by decide, by decide⟩,
          .data ⟨(frameOctets amqpFrameBody 1 [17]).drop 5 ++ frameOctets amqpFrameBody 2 [34],
            by decide, by decide⟩,
          .data heartbeatChunk]
      sends := []
      recvPolls := []
      sendPolls := []
      closes := []
      links := []
      memory := fun _ => grantingMemory }

/-- After the first piece has come, the second piece, and the heartbeat. -/
def splitFrameBegun : World := endState (amqpTryRecv 6 splitFrameWorld)
def splitFrameCome : World := endState (amqpTryRecv 6 splitFrameBegun)
def splitFrameRead : World := endState (amqpTryRecv 6 splitFrameCome)

theorem receiveRun_chunkIndependent_split_frame :
    splitFrameCome.decoded.length = 1 ∧ splitFrameRead.decoded.length = 3 ∧
      ReceiveRun (CalmAlike fun _ => grantingMemory) none splitFrameRead ∧
      ChunkIndependent (fun _ => grantingMemory) splitFrameRead := by
  have calm : CalmAlike (fun _ => grantingMemory) splitFrameWorld :=
    ⟨.inr fun _ member => absurd member List.not_mem_nil, fun _ => grantingMemory_alike⟩
  have begun : ReceiveRun (CalmAlike fun _ => grantingMemory)
      (stopOf (amqpTryRecv 6 splitFrameWorld)) splitFrameBegun :=
    .tryRecv (.start ⟨rfl, rfl, rfl, rfl, rfl, rfl, rfl, rfl⟩ calm) rfl
  rw [show stopOf (amqpTryRecv 6 splitFrameWorld) = none by decide +kernel] at begun
  have come : ReceiveRun (CalmAlike fun _ => grantingMemory)
      (stopOf (amqpTryRecv 6 splitFrameBegun)) splitFrameCome :=
    .tryRecv begun (by decide +kernel)
  rw [show stopOf (amqpTryRecv 6 splitFrameBegun) = none by decide +kernel] at come
  have read : ReceiveRun (CalmAlike fun _ => grantingMemory)
      (stopOf (amqpTryRecv 6 splitFrameCome)) splitFrameRead :=
    .tryRecv come (by decide +kernel)
  rw [show stopOf (amqpTryRecv 6 splitFrameCome) = none by decide +kernel] at read
  exact ⟨by decide +kernel, by decide +kernel, read,
    receiveRun_chunkIndependent read (by decide +kernel)⟩

/-- A recycled page that begins with the octets of a `connection.close_ok` frame. -/
def recycledPage (amount : Nat) : List UInt8 :=
  frameOctets amqpFrameMethod 0 [0, 10, 0, 51] ++ List.replicate (amount + 52) 0

theorem length_recycledPage (amount : Nat) : (recycledPage amount).length = amount + 64 := by
  have octets : (frameOctets amqpFrameMethod 0 [0, 10, 0, 51]).length = 12 := rfl
  rw [recycledPage, List.length_append, List.length_replicate, octets]
  omega

theorem le_length_recycledPage (amount : Nat) : amount ≤ (recycledPage amount).length :=
  (length_recycledPage amount).symm ▸ Nat.le_add_right amount 64

def recycledMemory : FrameMemory where
  poolEntry := true
  block := fun amount =>
    if bounded : (recycledPage amount).length < 2 ^ 63 then
      some ⟨⟨recycledPage amount, bounded⟩, le_length_recycledPage amount⟩
    else none
  allocs := []

/-- `wait_frame_inner` recycles the pool of channel 0 at a heartbeat, and so the frame
behind it is stored over the first one on that channel. -/
def recyclingWorld : World :=
  World.new
    { clock := []
      recvs := [.data ⟨protocolName ++ [0, 0, 9, 1] ++
        frameOctets amqpFrameMethod 0 [0, 10, 0, 51] ++ frameOctets amqpFrameHeartbeat 0 [] ++
        frameOctets amqpFrameHeader 0 [0, 60], by decide, by decide⟩]
      sends := []
      recvPolls := []
      sendPolls := []
      closes := []
      links := []
      memory := fun frame => if frame = 3 then recycledMemory else grantingMemory }

def recyclingAfter : Nat → World
  | 0 => recyclingWorld
  | calls + 1 => endState (waitFrameInner amqpTimeInfinite 4 (recyclingAfter calls))

/-- The `body_size` of a content header. -/
def Frame.bodySize (frame : Frame) : Option UInt64 :=
  match frame.payload with
  | .properties _ bodySize _ _ => some bodySize
  | _ => none

def presentedSizes : Except Fault Intake → List (Option UInt64)
  | .ok whole => whole.frames.map Frame.bodySize
  | .error _ => []

/-- A content header without its fixed octets gets them from a frame that was read
before, where in one buffer it does not. -/
theorem short_header_not_chunkIndependent : ¬ ∀ memory stop world,
    ReceiveRun (fun world => ∀ frame, (world.script.memory frame).Alike (memory frame)) stop world →
      ChunkIndependent memory world := by
  intro independent
  have alike (frame : Nat) :
      (recyclingWorld.script.memory frame).Alike ((fun _ => grantingMemory) frame) := by
    show FrameMemory.Alike (if frame = 3 then _ else _) _
    split
    · refine ⟨⟨rfl, rfl⟩, fun amount => ?_, rfl⟩
      have length := length_recycledPage amount
      by_cases bounded : amount + 64 < 2 ^ 63
      · have fits : (recycledPage amount).length < 2 ^ 63 := by omega
        simp only [grantingMemory, recycledMemory, dif_pos bounded, dif_pos fits,
          Option.isSome_some]
      · have large : ¬ (recycledPage amount).length < 2 ^ 63 := by omega
        simp only [grantingMemory, recycledMemory, dif_neg bounded, dif_neg large]
    · exact grantingMemory_alike
  have start : ReceiveRun (fun world => ∀ frame, (world.script.memory frame).Alike
      ((fun _ => grantingMemory) frame)) none (recyclingAfter 0) :=
    .start ⟨rfl, rfl, rfl, rfl, rfl, rfl, rfl, rfl⟩ alike
  have step (calls : Nat) (clean : (recyclingAfter calls).inputError = none)
      (returns : stopOf (waitFrameInner amqpTimeInfinite 4 (recyclingAfter calls)) = none)
      (run : ReceiveRun (fun world => ∀ frame, (world.script.memory frame).Alike
        ((fun _ => grantingMemory) frame)) none (recyclingAfter calls)) :
      ReceiveRun (fun world => ∀ frame, (world.script.memory frame).Alike
        ((fun _ => grantingMemory) frame)) none (recyclingAfter (calls + 1)) :=
    returns ▸ .waitFrame run clean
  have first := step 0 rfl (by decide +kernel) start
  have second := step 1 (by decide +kernel) (by decide +kernel) first
  have third := step 2 (by decide +kernel) (by decide +kernel) second
  obtain ⟨whole, presented, frames, _⟩ := (independent _ _ (recyclingAfter 3) third).agrees
  have sizes : (recyclingAfter 3).decoded.map Frame.bodySize =
      [none, none, none, some 0xCE00000000000000] := by decide +kernel
  have wholeSizes : presentedSizes (Intake.fresh.present (fun _ => grantingMemory)
      (recyclingAfter 3).digested.length (recyclingAfter 3).digested) =
      [none, none, none, some 0] := by decide +kernel
  have same : presentedSizes (.ok whole) = [none, none, none, some 0] :=
    (congrArg presentedSizes presented).symm.trans wholeSizes
  have stale := (congrArg (List.map Frame.bodySize) frames).trans sizes
  exact absurd (same.symm.trans stale) (by decide)

end RabbitmqC
