import RabbitmqC.Consumer.Listening
import RabbitmqC.Duplex.Calls
import RabbitmqC.Duplex.Pooled

/-!
# Receiving by any call

The octets that the socket delivers are a stream of frames. However it divides them, and
whichever calls are made, the frames are decoded in their order, each as soon as its last
octet was consumed, as long as no heartbeat is sent late.
-/

set_option autoImplicit false

namespace RabbitmqC

open Effect

/-! ## Streams of frames -/

/-- Frames that a connection is sent, with the octets of each. -/
structure Transmission where
  limit : Nat
  sent : List (List UInt8)
  frames : List Frame
  arrive : List.Forall₂ (Arrives limit) sent frames

/-- Of the frames still to come, `part` of the first was read; `remaining` is the rest. -/
inductive Pending : List UInt8 → List (List UInt8) → List UInt8 → Prop where
  | nil : Pending [] [] []
  | next {part left : List UInt8} {sent : List (List UInt8)} :
      left ≠ [] → Pending part ((part ++ left) :: sent) (left ++ sent.flatten)

/-- The frames that the connection records; those of an unknown type are ignored. -/
def recorded (frames : List Frame) : List Frame := frames.filter fun frame => frame.frameType ≠ 0

theorem recorded_concat (frames : List Frame) (frame : Frame) :
    recorded (frames ++ [frame]) =
      if frame.frameType = 0 then recorded frames else recorded frames ++ [frame] := by
  unfold recorded
  rw [List.filter_append]
  by_cases ignored : frame.frameType = 0
  · simp [ignored]
  · simp [ignored]

section Streams

variable {limit : Nat} {octets part : List UInt8} {sent : List (List UInt8)} {frames : List Frame}
  {frame : Frame}

theorem Arrives.ne_nil (arrives : Arrives limit octets frame) : octets ≠ [] := by
  cases arrives with
  | intro _ _ =>
      apply List.ne_nil_of_length_pos
      rw [length_frameOctets]
      simp [footerSize]

/-- A protocol header is not a frame. -/
theorem Arrives.typed (arrives : Arrives limit octets frame) (small : limit < 2 ^ 31) :
    frame.frameType ≠ amqpPseudoframeProtocolHeader := by
  cases arrives with
  | @intro frameType channel payload _ fits decodes =>
      have bound : (List.replicate headerSize 0 ++ payload).length < 2 ^ 63 := by
        rw [List.length_append, List.length_replicate]
        omega
      have held : Buffer.Holds ⟨List.replicate headerSize 0 ++ payload, bound⟩ headerSize payload := by
        refine ⟨?_, ?_⟩
        · simp [Buffer.size]
        · simp [List.slice]
      have read := decodes (show grantingMemory.allocs = [] from rfl) held (by omega)
      have isType := decodePayload_type read
      rintro same
      rw [same] at isType
      revert isType
      decide

theorem pending_start (arrive : List.Forall₂ (Arrives limit) sent frames) :
    Pending [] sent sent.flatten := by
  cases arrive with
  | nil => exact .nil
  | @cons octets _ rest _ arrives _ => exact @Pending.next [] octets rest arrives.ne_nil

end Streams

namespace Transmission

variable (transmission : Transmission)

/-- The frames `done` were decoded, and of those in `todo` the octets `part` were consumed. -/
structure Standing (done todo : List Frame) (sent : List (List UInt8))
    (part remaining : List UInt8) (world : World) : Prop where
  frames : transmission.frames = done ++ todo
  arrive : List.Forall₂ (Arrives transmission.limit) sent todo
  pending : Pending part sent remaining
  consumed : ∃ before, before ++ sent = transmission.sent ∧ world.consumed = before.flatten ++ part
  decoded : world.decoded = recorded done
  inputError : world.inputError = none
  pooled : world.queue.All fun frame => frame.channel ∈ world.reader.poolTable

/-- As long as nothing else is delivered, the connection stands somewhere in the stream, with
`reads` about the frame in progress. -/
structure Tracked (reads : List UInt8 → World → Prop) (world : World) : Prop where
  grants : ∀ frame, (world.script.memory frame).Grants transmission.limit
  stands : ∀ future, world.taken ++ future = transmission.sent.flatten →
    ∃ done todo sent part,
      transmission.Standing done todo sent part (world.unread ++ future) world ∧ reads part world

/-- In addition no send runs late. -/
structure Followed (reads : List UInt8 → World → Prop) (world : World) : Prop
    extends transmission.Tracked reads world where
  prompt : Prompt world

def reading (part : List UInt8) (world : World) : Prop :=
  world.reader.Within (world.script.memory world.framesRead) transmission.limit part

/-- The frame in hand has a pool. -/
def handing (frame : Frame) (part : List UInt8) (world : World) : Prop :=
  transmission.reading part world ∧ frame.channel ∈ world.reader.poolTable

variable {transmission} {before after world : World} {reads others : List UInt8 → World → Prop}

theorem Followed.mono (followed : transmission.Followed reads world)
    (implies : ∀ part, reads part world → others part world) :
    transmission.Followed others world where
  prompt := followed.prompt
  grants := followed.grants
  stands future offered := by
    obtain ⟨done, todo, sent, part, standing, isRead⟩ := followed.stands future offered
    exact ⟨done, todo, sent, part, standing, implies part isRead⟩

theorem Followed.of_quiet (followed : transmission.Followed transmission.reading before)
    (quiet : Quiet before after) : transmission.Followed transmission.reading after where
  prompt := followed.prompt.of_quiet quiet
  grants := by
    rw [quiet.uses.memory]
    exact followed.grants
  stands future offered := by
    rw [quiet.taken] at offered
    obtain ⟨done, todo, sent, part, standing, isRead⟩ := followed.stands future offered
    have unread : after.unread = before.unread := by
      unfold World.unread
      rw [quiet.sockInbound, quiet.sockInboundOffset]
    refine ⟨done, todo, sent, part, ⟨standing.frames, standing.arrive, ?_, ?_, ?_, ?_, ?_⟩, ?_⟩
    · rw [unread]
      exact standing.pending
    · rw [quiet.consumed]
      exact standing.consumed
    · exact quiet.decoded.trans standing.decoded
    · exact quiet.inputError.trans standing.inputError
    · rw [quiet.queue, quiet.reader]
      exact standing.pooled
    · unfold reading at isRead ⊢
      rwa [quiet.reader, quiet.uses.memory, quiet.framesRead]

/-- The octets that come next are those of the stream. -/
theorem Followed.of_takes {octets : List UInt8}
    (followed : transmission.Followed transmission.reading before)
    (takes : Takes octets before after) (empty : amqpDataInBuffer before = false) :
    transmission.Followed transmission.reading after where
  prompt := takes.prompt followed.prompt
  grants := by
    rw [takes.uses.memory]
    exact followed.grants
  stands future offered := by
    rw [takes.taken, List.append_assoc] at offered
    obtain ⟨done, todo, sent, part, standing, isRead⟩ :=
      followed.stands (octets ++ future) offered
    have read : before.unread = [] := by
      unfold amqpDataInBuffer at empty
      exact List.drop_eq_nil_of_le (by simpa using empty)
    have unread : after.unread = octets := by
      unfold World.unread
      rw [takes.sockInbound, takes.sockInboundOffset, List.drop_zero]
    refine ⟨done, todo, sent, part, ⟨standing.frames, standing.arrive, ?_, ?_, ?_, ?_, ?_⟩, ?_⟩
    · have pending := standing.pending
      rwa [read, List.nil_append, ← unread] at pending
    · rw [takes.consumed]
      exact standing.consumed
    · exact takes.decoded.trans standing.decoded
    · exact takes.inputError.trans standing.inputError
    · rw [takes.queue, takes.reader]
      exact standing.pooled
    · unfold reading at isRead ⊢
      rwa [takes.reader, takes.uses.memory, takes.framesRead]

/-- A frame in hand is put away without a change to the reader. -/
theorem Followed.of_enlists {frame : Frame}
    (followed : transmission.Followed (transmission.handing frame) before)
    (enlists : Enlists frame before after) :
    transmission.Followed transmission.reading after := by
  obtain ⟨script, queue, poolTable, uses, rfl, same, keeps⟩ := enlists
  refine ⟨⟨?_, fun future offered => ?_⟩,
    followed.prompt.of_links ⟨script, queue, poolTable, uses, rfl⟩⟩
  · dsimp only
    rw [uses.memory]
    exact followed.grants
  · obtain ⟨done, todo, sent, part, standing, isRead, member⟩ := followed.stands future offered
    obtain rfl := same member
    refine ⟨done, todo, sent, part, ⟨standing.frames, standing.arrive, standing.pending,
      standing.consumed, standing.decoded, standing.inputError, keeps _ member standing.pooled⟩, ?_⟩
    unfold reading at isRead ⊢
    dsimp only
    rwa [uses.memory]

/-- A frame that is taken from the queue has a pool. -/
theorem Followed.of_taken {link : Link Frame}
    (followed : transmission.Followed transmission.reading world)
    (found : ∀ holds : Frame → Prop, world.queue.All holds → holds link.data) :
    transmission.Followed (transmission.handing link.data)
      { world with queue := world.queue.startBehind link } where
  prompt := followed.prompt.congr rfl rfl rfl
  grants := followed.grants
  stands future offered := by
    obtain ⟨done, todo, sent, part, standing, isRead⟩ := followed.stands future offered
    refine ⟨done, todo, sent, part, ⟨standing.frames, standing.arrive, standing.pending,
      standing.consumed, standing.decoded, standing.inputError,
      standing.pooled.startBehind link⟩, isRead, ?_⟩
    exact found _ standing.pooled

/-! ## Consuming -/

/-- The octets consumed are the next ones of the stream. -/
theorem Standing.goPast {future part : List UInt8} {done todo : List Frame}
    {sent : List (List UInt8)} {reader : Reader} {result : Except Status Int} {frame : Frame}
    (standing : transmission.Standing done todo sent part (world.unread ++ future) world)
    (reads : transmission.reading part world)
    (grants : ∀ frame, (world.script.memory frame).Grants transmission.limit)
    (more : world.unread ≠ [])
    (returned : amqpHandleInput (world.script.memory world.framesRead) world.reader world.unread =
      .ok ⟨reader, result, frame⟩) :
    ∃ count, result = .ok count ∧ ∃ done todo sent part,
      transmission.Standing done todo sent part
          ((world.goPast ⟨reader, .ok count, frame⟩ (sizeOfInt count)).unread ++ future)
          (world.goPast ⟨reader, .ok count, frame⟩ (sizeOfInt count)) ∧
        transmission.reading part (world.goPast ⟨reader, .ok count, frame⟩ (sizeOfInt count)) ∧
        (frame.frameType ≠ 0 → frame.channel ∈ reader.poolTable) := by
  obtain ⟨frames, arrive, pending, ⟨before, isSent, consumed⟩, decoded, inputError, pooled⟩ := standing
  have pools := amqpHandleInput_pooled returned
  have kept (count : Nat) : (world.goPast ⟨reader, .ok (count : Int), frame⟩ count).queue.All
      fun frame => frame.channel ∈ reader.poolTable :=
    fun link member => pools.grows (pooled link member)
  have small : transmission.limit < 2 ^ 31 := reads.limit_lt
  generalize same : world.unread ++ future = remaining at pending
  cases pending with
  | nil => exact absurd (List.append_eq_nil_iff.mp same).1 more
  | @next _ left sent nonempty =>
      cases arrive with
      | @cons _ next _ behind arrives arrive =>
          have fits := arrives.length_le
          rw [List.length_append] at fits
          have meets := reads.meets arrives (grants world.framesRead) nonempty more same
          rw [returned] at meets
          generalize isHandled : (Except.ok (Handled.mk reader result frame) :
            Except Fault Handled) = handled at meets
          cases meets with
          | @ends ended extra isUnread isRest begins isLimit =>
              cases isHandled
              refine ⟨left.length, rfl, done ++ [frame], behind, sent, [], ?_, ?_, fun full => ?_⟩
              · rw [sizeOfInt_natCast (by omega)]
                refine ⟨by rw [frames, List.append_assoc]; rfl, arrive, ?_,
                  ⟨before ++ [part ++ left], ?_, ?_⟩, ?_, inputError, kept left.length⟩
                · rw [Incoming.unread_goPast, isUnread, List.drop_left, isRest]
                  exact pending_start arrive
                · rw [List.append_assoc]
                  exact isSent
                · show world.consumed ++ world.unread.take left.length = _
                  rw [consumed, isUnread, List.take_left]
                  simp
                · rw [recorded_concat, ← decoded]
                  rfl
              · exact .between begins isLimit
              · exact pools.channel full (arrives.typed small) _ rfl
          | @waits waiting behindLeft isLeft waits isFuture awake within =>
              cases isHandled
              have all : world.unread.length ≤ left.length := by
                rw [isLeft, List.length_append]
                omega
              refine ⟨world.unread.length, rfl, done, next :: behind,
                (part ++ left) :: sent, part ++ world.unread, ?_, ?_, fun full => absurd rfl full⟩
              · rw [sizeOfInt_natCast (by omega)]
                refine ⟨frames, .cons arrives arrive, ?_, ⟨before, isSent, ?_⟩, decoded, inputError,
                  kept world.unread.length⟩
                · rw [Incoming.unread_goPast, List.drop_length, List.nil_append, isFuture]
                  have split : part ++ left = part ++ world.unread ++ behindLeft := by
                    rw [List.append_assoc, ← isLeft]
                  rw [split]
                  exact .next waits
                · show world.consumed ++ world.unread.take world.unread.length = _
                  rw [consumed, List.take_length, List.append_assoc]
              · show reader.Within (world.script.memory (world.framesRead + if reader.state = .idle
                  then 1 else 0)) transmission.limit (part ++ world.unread)
                rw [if_neg awake]
                exact within

theorem consumeOneFrame_followed :
    Triple (fun world => transmission.Followed transmission.reading world ∧
        amqpDataInBuffer world = true) consumeOneFrame
      (ConsumeEnds (transmission.Followed transmission.reading)
        (fun frame => transmission.Followed (transmission.handing frame))
        (transmission.Followed transmission.reading))
      (fun _ => transmission.Followed transmission.reading) := by
  rintro world ⟨followed, data⟩
  have more := unread_ne_nil data
  have consumed := consumption world
  generalize consumeOneFrame world = ran at consumed ⊢
  cases consumed with
  | stranded => exact followed
  | @refused reader status frame returned =>
      refine ⟨⟨followed.grants, fun future offered => ?_⟩, followed.prompt.congr rfl rfl rfl⟩
      obtain ⟨done, todo, sent, part, standing, reads⟩ := followed.stands future offered
      obtain ⟨count, impossible, _⟩ := standing.goPast reads followed.grants more returned
      cases impossible
  | @taken reader res frame returned =>
      have stands (future : List UInt8) (offered : world.taken ++ future = transmission.sent.flatten) :
          ∃ done todo sent part, transmission.Standing done todo sent part
              ((world.goPast ⟨reader, .ok res, frame⟩ (sizeOfInt res)).unread ++ future)
              (world.goPast ⟨reader, .ok res, frame⟩ (sizeOfInt res)) ∧
            transmission.reading part (world.goPast ⟨reader, .ok res, frame⟩ (sizeOfInt res)) ∧
            (frame.frameType ≠ 0 → frame.channel ∈ reader.poolTable) := by
        obtain ⟨done, todo, sent, part, standing, reads⟩ := followed.stands future offered
        obtain ⟨count, isCount, found⟩ := standing.goPast reads followed.grants more returned
        cases isCount
        exact found
      show ite _ _ _
      by_cases ignored : frame.frameType = 0
      · rw [if_pos ignored]
        refine ⟨⟨followed.grants, fun future offered => ?_⟩, followed.prompt.congr rfl rfl rfl⟩
        obtain ⟨done, todo, sent, part, standing, reads, _⟩ := stands future offered
        exact ⟨done, todo, sent, part, standing, reads⟩
      · rw [if_neg ignored]
        refine ⟨⟨followed.grants, fun future offered => ?_⟩, followed.prompt.congr rfl rfl rfl⟩
        obtain ⟨done, todo, sent, part, standing, reads, pool⟩ := stands future offered
        exact ⟨done, todo, sent, part, standing, reads, pool ignored⟩

/-! ## All calls -/

theorem receiving_followed : Receiving (transmission.Followed transmission.reading)
    (fun frame => transmission.Followed (transmission.handing frame))
    (transmission.Followed transmission.reading) where
  calm _ followed := .inl followed.prompt
  quiet _ _ quiet _ followed := followed.of_quiet quiet
  takes _ _ _ takes empty followed := followed.of_takes takes empty
  consume := consumeOneFrame_followed

theorem Followed.putAway {frame : Frame}
    (followed : transmission.Followed (transmission.handing frame) world) :
    transmission.Followed transmission.reading world := followed.mono fun _ both => both.1

/-- What puts a frame into the queue. -/
theorem followed_of_enlists {α : Type} {run : Call α} {frame : Frame}
    (enlists : Moves (Enlists frame) run) :
    Triple (transmission.Followed (transmission.handing frame)) run
      (fun _ => transmission.Followed transmission.reading)
      (fun _ => transmission.Followed transmission.reading) := by
  intro world followed
  cases returned : run world with
  | ok value after => exact followed.of_enlists (enlists.ok returned)
  | error stop after => exact followed.of_enlists (enlists.error returned)

theorem succeeds_of_followed {α : Type} {result : Except Status α} {world : World}
    (followed : transmission.Followed transmission.reading world) :
    Succeeds (fun _ => transmission.Followed transmission.reading)
      (transmission.Followed transmission.reading) result world := by
  cases result with
  | ok _ => exact followed
  | error _ => exact followed

theorem callParts_followed : CallParts (fun _ => True) (transmission.Followed transmission.reading)
    (fun frame => transmission.Followed (transmission.handing frame))
    (transmission.Followed transmission.reading) where
  inv_fails followed := followed
  putAway := Followed.putAway
  asks asks followed := followed.of_quiet (quiet_of_asks asks)
  close := (quiet_of_still still_socketClose).keeps fun _ _ quiet followed =>
    followed.of_quiet quiet
  send := by
    intro frame _ flags deadline fuel world followed
    have sends : Keeps (Quiet world) (amqpSendFrameInner frame flags deadline fuel) :=
      followed.prompt.sendFrameInner frame flags deadline
    cases returned : amqpSendFrameInner frame flags deadline fuel world with
    | ok result after =>
        exact succeeds_of_followed (followed.of_quiet (sends.ok (refl_of Quiet world) returned))
    | error stop after => exact followed.of_quiet (sends.error (refl_of Quiet world) returned)
  wait deadline fuel := by
    refine (receiving_followed.waitFrameInner (fun _ _ _ => Followed.putAway) deadline).weaken
      fun result world ends => ?_
    cases result with
    | ok frame => exact ends.1
    | error status => exact ends.elim id id
  tryRecv fuel := by
    refine (receiving_followed.tryRecv fun frame _ =>
      followed_of_enlists enlists_queueReceived).weaken fun result world ends => ?_
    exact succeeds_of_followed (ends.elim id id)
  queueReceived frame :=
    (followed_of_enlists enlists_queueReceived).weaken fun _ _ => succeeds_of_followed
  queueFrame frame :=
    (followed_of_enlists enlists_amqpQueueFrame).weaken fun _ _ => succeeds_of_followed
  putBackFrame frame := followed_of_enlists enlists_amqpPutBackFrame
  front followed found := followed.of_taken fun _ all => all.front found
  find followed found := followed.of_taken fun _ all => all.find found

end Transmission

end RabbitmqC
