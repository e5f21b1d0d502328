import RabbitmqC.Connection.FrameStream
import RabbitmqC.Consumer.Reassembly

/-!
# A message in a stream of octets

`amqp_read_message` on octets in which the frames of a message come in their order,
with frames of other channels between them. However the socket divides the octets,
the frames of the channel are those of the message.
-/

set_option autoImplicit false

namespace RabbitmqC

open Effect

/-! ## A rule for reading on a channel -/

/-- What an invariant of `amqp_read_message` has to survive while no heartbeat is sent late
and no frame of the channel is in the queue. -/
structure Reception (channel : UInt16) (invariant : World → Prop)
    (held : Frame → World → Prop) (ends : World → Prop) : Prop
    extends Receiving invariant held ends where
  invariantEnds : ∀ world, invariant world → ends world
  putAway : ∀ frame world, held frame world → invariant world
  absent : ∀ world, invariant world → world.queue.find (fun frame => channel == frame.channel)
    world.queue.reach world.queue.first = none
  queueFrame : ∀ frame, channel ≠ frame.channel → Triple (held frame) (amqpQueueFrame frame)
    (fun _ => invariant) (fun _ => invariant)
  putBackFrame : ∀ frame, Triple (held frame) (amqpPutBackFrame frame)
    (fun _ => ends) (fun _ => ends)

namespace Reception

variable {channel : UInt16} {invariant : World → Prop} {held : Frame → World → Prop}
  {ends : World → Prop} {fuel : Nat}

/-- How a wait on the channel ends. -/
def Waits (held : Frame → World → Prop) (ends : World → Prop) :
    Except Status Frame → World → Prop
  | .ok frame, world => held frame world
  | .error _, world => ends world

theorem waitFrameForChannel (rule : Reception channel invariant held ends) :
    Triple invariant (waitFrameForChannel channel fuel) (Waits held ends) (fun _ => ends) := by
  induction fuel with
  | zero => exact .throw rule.invariantEnds
  | succ fuel ih =>
      have waits := @Receiving.waitFrameInner _ _ _ fuel rule.toReceiving
        (fun frame world _ => rule.putAway frame world) amqpTimeInfinite
      refine Triple.bind (waits.raise fun _ => rule.invariantEnds) fun result => ?_
      cases result with
      | error status => exact .pure fun world left => left.elim (rule.invariantEnds world) id
      | ok frame =>
          refine .ite (fun _ => .pure fun _ both => both.1) fun other => ?_
          refine Triple.bind (((rule.queueFrame frame other).strengthen fun _ both => both.1).raise
            fun _ => rule.invariantEnds) fun queued => ?_
          cases queued with
          | error status => exact .pure rule.invariantEnds
          | ok _ => exact ih

theorem waitFrameOnChannel (rule : Reception channel invariant held ends) :
    Triple invariant (amqpSimpleWaitFrameOnChannel channel fuel) (Waits held ends)
      (fun _ => ends) := by
  refine .get_bind fun world holds => ?_
  rw [rule.absent world holds]
  refine rule.waitFrameForChannel.strengthen ?_
  rintro _ rfl
  exact holds

theorem readFragments (rule : Reception channel invariant held ends) (size : Nat)
    (body : List UInt8) :
    Triple invariant (readFragments channel size fuel body) (fun _ => ends) (fun _ => ends) := by
  induction fuel generalizing body with
  | zero => exact .throw rule.invariantEnds
  | succ fuel ih =>
      refine .ite (fun _ => ?_) fun _ => .pure rule.invariantEnds
      refine Triple.bind rule.waitFrameOnChannel fun result => ?_
      cases result with
      | error status => exact .pure fun _ left => left
      | ok frame =>
          have away (world : World) (inHand : held frame world) : ends world :=
            rule.invariantEnds world (rule.putAway frame world inHand)
          refine .ite (fun _ => ?_) fun _ => ?_
          · split
            · exact .pure away
            · exact .pure away
          · split
            · exact .ite (fun _ => .pure away) fun _ => (ih _).strengthen (rule.putAway frame)
            · exact .throw away

theorem readMessage (rule : Reception channel invariant held ends) (allocs : List Bool) :
    Triple invariant (amqpReadMessage allocs channel fuel) (fun _ => ends) (fun _ => ends) := by
  refine Triple.bind rule.waitFrameOnChannel fun result => ?_
  cases result with
  | error status => exact .pure fun _ left => left
  | ok frame =>
      have away (world : World) (inHand : held frame world) : ends world :=
        rule.invariantEnds world (rule.putAway frame world inHand)
      refine .ite (fun _ => ?_) fun _ => ?_
      · split
        · exact .pure away
        · exact Triple.bind (rule.putBackFrame frame) fun _ => .pure fun _ left => left
      · split
        · exact .throw away
        · exact .pure away
        · refine Triple.bind ((rule.readFragments _ []).strengthen (rule.putAway frame))
            fun result => ?_
          cases result with
          | ok body => exact .pure fun _ left => left
          | error reply => exact .pure fun _ left => left

end Reception

/-! ## Streams -/

/-- With `part` of its first frame read already, the octets are the frames `sent` in their
order and frames of other channels between them. -/
inductive Interleaved (channel : UInt16) (limit : Nat) :
    List UInt8 → List (List UInt8) → List UInt8 → Prop where
  | nil : Interleaved channel limit [] [] []
  | own {part left rest : List UInt8} {sent : List (List UInt8)} :
      left ≠ [] → Interleaved channel limit [] sent rest →
      Interleaved channel limit part ((part ++ left) :: sent) (left ++ rest)
  | other {part left rest : List UInt8} {sent : List (List UInt8)} {frame : Frame} :
      left ≠ [] → Arrives limit (part ++ left) frame → frame.channel ≠ channel →
      Interleaved channel limit [] sent rest →
      Interleaved channel limit part sent (left ++ rest)

/-- The frames of a message on a channel. -/
def Frame.BelongsTo (channel : UInt16) (frame : Frame) : Prop :=
  frame.channel = channel ∧ frame.frameType ≠ 0 ∧ frame.frameType ≠ amqpFrameHeartbeat

/-- The next frame in a stream: one of those sent or one of another channel. -/
theorem Interleaved.next {channel : UInt16} {limit : Nat} {part remaining : List UInt8}
    {sent : List (List UInt8)} {todo : List Frame}
    (interleaved : Interleaved channel limit part sent remaining) (some : remaining ≠ [])
    (arrive : List.Forall₂ (Arrives limit) sent todo) :
    ∃ left rest frame others behind, remaining = left ++ rest ∧ left ≠ [] ∧
      Arrives limit (part ++ left) frame ∧ Interleaved channel limit [] others rest ∧
      List.Forall₂ (Arrives limit) others behind ∧
      (frame.channel ≠ channel ∧ behind = todo ∨ todo = frame :: behind) ∧
      ∀ read unread, left = read ++ unread → unread ≠ [] →
        Interleaved channel limit (part ++ read) sent (unread ++ rest) := by
  cases interleaved with
  | nil => exact absurd rfl some
  | @own _ left rest others more interleaved =>
      cases arrive with
      | @cons _ frame _ behind arrives arrive =>
          refine ⟨left, rest, frame, others, behind, rfl, more, arrives, interleaved, arrive, .inr rfl,
            ?_⟩
          rintro read unread rfl waits
          rw [← List.append_assoc]
          exact .own waits interleaved
  | @other _ left rest _ frame more arrives foreign interleaved =>
      refine ⟨left, rest, frame, sent, todo, rfl, more, arrives, interleaved, arrive,
        .inl ⟨foreign, rfl⟩, ?_⟩
      rintro read unread rfl waits
      rw [← List.append_assoc] at arrives
      exact .other waits arrives foreign interleaved

theorem Interleaved.sent_eq_nil {channel : UInt16} {limit : Nat} {part : List UInt8}
    {sent : List (List UInt8)} (interleaved : Interleaved channel limit part sent []) :
    sent = [] := by
  generalize isEnd : ([] : List UInt8) = remaining at interleaved
  cases interleaved with
  | nil => rfl
  | own more _ => exact absurd (List.append_eq_nil_iff.mp isEnd.symm).1 more
  | other more _ _ _ => exact absurd (List.append_eq_nil_iff.mp isEnd.symm).1 more

/-- While frames of the channel are to come, octets are. -/
theorem Interleaved.remaining_ne_nil {channel : UInt16} {limit : Nat} {part remaining : List UInt8}
    {sent : List (List UInt8)} {todo : List Frame}
    (interleaved : Interleaved channel limit part sent remaining)
    (arrive : List.Forall₂ (Arrives limit) sent todo) (some : todo ≠ []) : remaining ≠ [] := by
  rintro rfl
  have none := interleaved.sent_eq_nil
  subst none
  cases arrive
  exact some rfl

/-- What a call is about to receive: the octets of `stream` and then those of `later`, when
the socket has delivered those of `taken`. -/
structure Incoming where
  channel : UInt16
  limit : Nat
  peer : World
  stream : List UInt8
  later : List UInt8
  taken : List UInt8
  frames : List Frame

namespace Incoming

variable (incoming : Incoming)

/-- The frames in `done` were decoded, `remaining` is what comes behind the octets consumed,
of which `part` belongs to the frame in progress. -/
structure Ahead (future part : List UInt8) (done todo : List Frame) (sent : List (List UInt8))
    (remaining : List UInt8) (world : World) : Prop where
  consumed : ∃ used, world.consumed = incoming.peer.consumed ++ used ∧
    used ++ remaining = incoming.stream
  unread : world.unread ++ future = remaining ++ incoming.later
  interleaved : Interleaved incoming.channel incoming.limit part sent remaining
  some : remaining ≠ []
  arrive : List.Forall₂ (Arrives incoming.limit) sent todo
  frames : done ++ todo = incoming.frames
  decoded : ∃ new, world.decoded = incoming.peer.decoded ++ new ∧
    ofChannel incoming.channel new = done

/-- All frames were decoded. -/
def Past (world : World) : Prop :=
  ∃ new, world.decoded = incoming.peer.decoded ++ new ∧
    incoming.frames <+: ofChannel incoming.channel new

/-- Where the call is in the stream, with `reads` about the frame in progress. -/
def Positioned (reads : List UInt8 → World → Prop) (world : World) : Prop :=
  ∀ future, world.taken ++ future = incoming.taken →
    (∃ part done todo sent remaining,
      incoming.Ahead future part done todo sent remaining world ∧ reads part world) ∨
    incoming.Past world

/-- What holds throughout, with frames of other channels in the queue. -/
structure Steady (world : World) : Prop where
  provided : Provided [] world
  grants : ∀ frame, (world.script.memory frame).Grants incoming.limit
  queue : ∃ others, world.queue.Represents others ∧
    ∀ frame ∈ others, incoming.channel ≠ frame.channel

def reading (part : List UInt8) (world : World) : Prop :=
  world.reader.Within (world.script.memory world.framesRead) incoming.limit part

def between (part : List UInt8) (world : World) : Prop :=
  part = [] ∧ world.reader.Begins headerSize ∧ world.reader.frameMax.toInt = incoming.limit

structure Listening (world : World) : Prop where
  steady : incoming.Steady world
  position : incoming.Positioned incoming.reading world

structure Holding (world : World) : Prop where
  steady : incoming.Steady world
  position : incoming.Positioned incoming.between world

/-- What is left at the end of the call. -/
def Ended (world : World) : Prop := incoming.Positioned (fun _ _ => True) world

variable {incoming} {before after world : World}

/-- The record of what was received is the same. -/
structure SameRecord (before after : World) : Prop where
  taken : after.taken = before.taken
  consumed : after.consumed = before.consumed
  unread : after.unread = before.unread
  decoded : after.decoded = before.decoded

theorem Positioned.congr {reads others : List UInt8 → World → Prop}
    (same : SameRecord before after) (moved : ∀ part, reads part before → others part after)
    (position : incoming.Positioned reads before) : incoming.Positioned others after := by
  intro future isTaken
  rw [same.taken] at isTaken
  rcases position future isTaken with ⟨part, done, todo, sent, remaining, ahead, isRead⟩ | past
  · obtain ⟨consumed, unread, interleaved, some, arrive, frames, decoded⟩ := ahead
    refine .inl ⟨part, done, todo, sent, remaining, ⟨?_, ?_, interleaved, some, arrive, frames, ?_⟩,
      moved part isRead⟩
    · rwa [same.consumed]
    · rwa [same.unread]
    · rwa [same.decoded]
  · right
    unfold Past at past ⊢
    rwa [same.decoded]

theorem sameRecord_of_quiet (quiet : Quiet before after) : SameRecord before after where
  taken := quiet.taken
  consumed := quiet.consumed
  unread := by
    unfold World.unread
    rw [quiet.sockInbound, quiet.sockInboundOffset]
  decoded := quiet.decoded

theorem Listening.ended (listening : incoming.Listening world) : incoming.Ended world :=
  listening.position.congr ⟨rfl, rfl, rfl, rfl⟩ fun _ _ => trivial

theorem Holding.listening (holding : incoming.Holding world) : incoming.Listening world where
  steady := holding.steady
  position := holding.position.congr ⟨rfl, rfl, rfl, rfl⟩ fun part reads => by
    obtain ⟨rfl, begins, isLimit⟩ := reads
    exact .between begins isLimit

theorem Listening.of_quiet (listening : incoming.Listening before) (quiet : Quiet before after)
    (calm : Calm after) : incoming.Listening after where
  steady := by
    obtain ⟨provided, grants, queue⟩ := listening.steady
    refine ⟨provided.of_quiet quiet calm, ?_, ?_⟩
    · rwa [quiet.uses.memory]
    · rwa [quiet.queue]
  position := by
    refine listening.position.congr (sameRecord_of_quiet quiet) fun part reads => ?_
    unfold reading at reads ⊢
    rwa [quiet.reader, quiet.uses.memory, quiet.framesRead]

/-- The octets that come next are those of the stream. -/
theorem Listening.of_takes {octets : List UInt8} (listening : incoming.Listening before)
    (takes : Takes octets before after) (empty : amqpDataInBuffer before = false) :
    incoming.Listening after where
  steady := by
    obtain ⟨provided, grants, queue⟩ := listening.steady
    refine ⟨provided.of_takes takes, ?_, ?_⟩
    · rwa [takes.uses.memory]
    · rwa [takes.queue]
  position := by
    have read : before.unread = [] := by
      unfold amqpDataInBuffer at empty
      exact List.drop_eq_nil_of_le (by simpa using empty)
    have unread : after.unread = octets := by
      unfold World.unread
      rw [takes.sockInbound, takes.sockInboundOffset, List.drop_zero]
    intro future isTaken
    rw [takes.taken, List.append_assoc] at isTaken
    rcases listening.position (octets ++ future) isTaken with
      ⟨part, done, todo, sent, remaining, ahead, isRead⟩ | past
    · refine .inl ⟨part, done, todo, sent, remaining,
        ⟨?_, ?_, ahead.interleaved, ahead.some, ahead.arrive, ahead.frames, ?_⟩, ?_⟩
      · rw [takes.consumed]
        exact ahead.consumed
      · rw [unread]
        simpa [read] using ahead.unread
      · rw [takes.decoded]
        exact ahead.decoded
      · unfold reading at isRead ⊢
        rwa [takes.reader, takes.uses.memory, takes.framesRead]
    · right
      unfold Past at past ⊢
      rwa [takes.decoded]

/-- Between two frames, links may be created. -/
theorem Positioned.of_links (links : Links before after)
    (position : incoming.Positioned incoming.between before) :
    incoming.Positioned incoming.between after := by
  have same : SameRecord before after := by
    obtain ⟨script, queue, poolTable, uses, rfl⟩ := links
    exact ⟨rfl, rfl, rfl, rfl⟩
  have moved (part : List UInt8) (reads : incoming.between part before) :
      incoming.between part after := by
    obtain ⟨isPart, begins, isLimit⟩ := reads
    obtain ⟨script, queue, poolTable, uses, rfl⟩ := links
    exact ⟨isPart, ⟨begins.inbound, begins.offset, begins.target, begins.state⟩, isLimit⟩
  exact position.congr same moved

theorem Steady.grants_of_links (steady : incoming.Steady before) (links : Links before after) :
    ∀ frame, (after.script.memory frame).Grants incoming.limit := by
  obtain ⟨script, queue, poolTable, uses, rfl⟩ := links
  dsimp only
  rw [uses.memory]
  exact steady.grants

theorem Holding.queueFrame {frame : Frame} (holding : incoming.Holding world)
    (other : incoming.channel ≠ frame.channel) :
    ∃ after, amqpQueueFrame frame world = .ok (.ok ()) after ∧ incoming.Listening after := by
  obtain ⟨provided, grants, others, represents, foreign⟩ := holding.steady
  obtain ⟨after, returned, represents, _, still⟩ := amqpQueueFrame_eq provided represents frame
  have links : Links world after := (links_amqpQueueFrame frame).ok returned
  refine ⟨after, returned, Holding.listening ⟨⟨still, ?_, others ++ [frame], represents, ?_⟩, ?_⟩⟩
  · exact holding.steady.grants_of_links links
  · intro queued member
    rcases List.mem_append.mp member with earlier | last
    · exact foreign queued earlier
    · rw [List.mem_singleton.mp last]
      exact other
  · exact holding.position.of_links links

theorem unread_goPast {handled : Handled} {count : Nat} :
    (world.goPast handled count).unread = world.unread.drop count := by
  unfold World.unread World.goPast
  rw [List.drop_drop]

theorem Past.goPast {handled : Handled} {count : Nat} (past : incoming.Past world) :
    incoming.Past (world.goPast handled count) := by
  obtain ⟨new, decoded, arrived⟩ := past
  unfold Past World.goPast
  dsimp only
  by_cases ignored : handled.frame.frameType = 0
  · rw [if_pos ignored]
    exact ⟨new, decoded, arrived⟩
  · rw [if_neg ignored]
    refine ⟨new ++ [handled.frame], by rw [decoded, List.append_assoc], ?_⟩
    rw [ofChannel_append]
    exact arrived.trans (List.prefix_append _ _)

/-- A frame of the message counts among those of the channel, and one of another channel
does not. -/
theorem ofChannel_next {frame : Frame} {channel : UInt16} {done todo behind : List Frame}
    (own : ∀ frame ∈ done ++ todo, frame.BelongsTo channel)
    (next : frame.channel ≠ channel ∧ behind = todo ∨ todo = frame :: behind) :
    done ++ ofChannel channel (if frame.frameType = 0 then [] else [frame]) ++ behind =
      done ++ todo := by
  rcases next with ⟨foreign, rfl⟩ | rfl
  · have none : ofChannel channel (if frame.frameType = 0 then [] else [frame]) = [] := by
      refine ofChannel_eq_nil fun other member isOwn => ?_
      split at member
      · cases member
      · rw [List.mem_singleton.mp member] at isOwn
        exact absurd isOwn foreign
    rw [none, List.append_nil]
  · obtain ⟨isChannel, full, notBeat⟩ := own frame (by simp)
    have one : ofChannel channel (if frame.frameType = 0 then [] else [frame]) = [frame] := by
      rw [if_neg full]
      simp [ofChannel, isChannel, notBeat]
    rw [one, List.append_assoc]
    rfl

section Consuming

variable {future part : List UInt8} {done todo : List Frame} {sent : List (List UInt8)}
  {remaining : List UInt8} {reader : Reader} {res : Int} {frame : Frame}

/-- The octets consumed are the next ones of the stream. -/
theorem Ahead.goPast
    (ahead : incoming.Ahead future part done todo sent remaining world)
    (reads : incoming.reading part world) (steady : incoming.Steady world)
    (own : ∀ frame ∈ incoming.frames, frame.BelongsTo incoming.channel)
    (more : world.unread ≠ [])
    (returned : amqpHandleInput (world.script.memory world.framesRead) world.reader world.unread =
      .ok ⟨reader, .ok res, frame⟩) :
    (frame.frameType = 0 ∧ ∃ part remaining,
      incoming.Ahead future part done todo sent remaining
          (world.goPast ⟨reader, .ok res, frame⟩ (sizeOfInt res)) ∧
        incoming.reading part (world.goPast ⟨reader, .ok res, frame⟩ (sizeOfInt res))) ∨
      (∃ part done todo sent remaining, incoming.Ahead future part done todo sent remaining
          (world.goPast ⟨reader, .ok res, frame⟩ (sizeOfInt res)) ∧
        incoming.between part (world.goPast ⟨reader, .ok res, frame⟩ (sizeOfInt res))) ∨
      incoming.Past (world.goPast ⟨reader, .ok res, frame⟩ (sizeOfInt res)) := by
  obtain ⟨⟨used, consumed, isStream⟩, unread, interleaved, some, arrive, frames, new, decoded,
    isDone⟩ := ahead
  obtain ⟨left, rest, next, others, behind, rfl, nonempty, arrives, interleaved, arriveBehind,
    isNext, waiting⟩ := interleaved.next some arrive
  have small := reads.limit_lt
  have fits := arrives.length_le
  rw [List.length_append] at fits
  have meets := reads.meets arrives (steady.grants world.framesRead) nonempty more
    (unread.trans (List.append_assoc left rest incoming.later))
  rw [returned] at meets
  generalize isHandled : (Except.ok (Handled.mk reader (.ok res) frame) : Except Fault Handled) =
    handled at meets
  cases meets with
  | @ends after extra isUnread isRest begins isLimit =>
      cases isHandled
      right
      have recorded : (world.goPast ⟨reader, .ok left.length, frame⟩ left.length).decoded =
          incoming.peer.decoded ++ (new ++ if frame.frameType = 0 then [] else [frame]) := by
        show (if frame.frameType = 0 then world.decoded else world.decoded ++ [frame]) = _
        split <;> simp [decoded]
      have arrived : ofChannel incoming.channel
          (new ++ if frame.frameType = 0 then [] else [frame]) ++ behind = incoming.frames := by
        rw [ofChannel_append, isDone, ← frames]
        exact ofChannel_next (by rw [frames]; exact own) isNext
      rw [sizeOfInt_natCast (by omega)]
      by_cases last : rest = []
      · subst last
        have nobody := interleaved.sent_eq_nil
        subst nobody
        cases arriveBehind
        rw [List.append_nil] at arrived
        exact .inr ⟨_, recorded, [], by rw [List.append_nil, arrived]⟩
      · refine .inl ⟨[], _, behind, others, rest,
          ⟨⟨used ++ left, ?_, ?_⟩, ?_, interleaved, last, arriveBehind, arrived, _, recorded, rfl⟩,
          rfl, begins, isLimit⟩
        · show world.consumed ++ world.unread.take left.length = _
          rw [consumed, isUnread, List.take_left, List.append_assoc]
        · rw [← isStream, List.append_assoc]
        · rw [unread_goPast, isUnread, List.drop_left]
          exact isRest
  | @waits after unreadLeft isLeft waits isFuture awake within =>
      cases isHandled
      left
      have all : world.unread.length ≤ left.length := by
        rw [isLeft, List.length_append]
        omega
      rw [sizeOfInt_natCast (by omega)]
      refine ⟨rfl, part ++ world.unread, unreadLeft ++ rest, ⟨⟨used ++ world.unread, ?_, ?_⟩, ?_,
        waiting _ _ isLeft waits, by simp [waits], arrive, frames, new, decoded, isDone⟩, ?_⟩
      · show world.consumed ++ world.unread.take world.unread.length = _
        rw [consumed, List.take_length, List.append_assoc]
      · rw [← isStream, isLeft, List.append_assoc, List.append_assoc]
      · rw [unread_goPast, List.drop_length, isFuture, List.nil_append, List.append_assoc]
      · show reader.Within (world.script.memory (world.framesRead + if reader.state = .idle then 1
          else 0)) incoming.limit (part ++ world.unread)
        rw [if_neg awake]
        exact within

end Consuming

theorem consumeOneFrame_listening
    (own : ∀ frame ∈ incoming.frames, frame.BelongsTo incoming.channel) :
    Triple (fun world => incoming.Listening world ∧ amqpDataInBuffer world = true)
      consumeOneFrame
      (ConsumeEnds incoming.Listening (fun _ => incoming.Holding) incoming.Ended)
      (fun _ => incoming.Listening) := by
  rintro world ⟨listening, data⟩
  have more := unread_ne_nil data
  have consumed := consumption world
  generalize consumeOneFrame world = ran at consumed ⊢
  cases consumed with
  | stranded => exact listening
  | @refused reader status =>
      have same : SameRecord world (world.failInput reader status) := ⟨rfl, rfl, rfl, rfl⟩
      exact @Positioned.congr incoming _ _ _ (fun _ _ => True) same (fun _ _ => trivial)
        listening.position
  | @taken reader res frame returned =>
      obtain ⟨steady, position⟩ := listening
      have still : incoming.Steady (world.goPast ⟨reader, .ok res, frame⟩ (sizeOfInt res)) :=
        ⟨steady.provided.congr rfl rfl rfl rfl, steady.grants, steady.queue⟩
      have goes : frame.frameType = 0 ∧ incoming.Positioned incoming.reading
            (world.goPast ⟨reader, .ok res, frame⟩ (sizeOfInt res)) ∨
          incoming.Positioned incoming.between
            (world.goPast ⟨reader, .ok res, frame⟩ (sizeOfInt res)) := by
        by_cases offered : ∃ future, world.taken ++ future = incoming.taken
        · obtain ⟨future, isTaken⟩ := offered
          have same (other : List UInt8) (isOther : world.taken ++ other = incoming.taken) :
              other = future := List.append_cancel_left (isOther.trans isTaken.symm)
          rcases position future isTaken with
            ⟨part, done, todo, sent, remaining, ahead, reads⟩ | past
          · rcases ahead.goPast reads steady own more returned with
              ⟨ignored, part, remaining, ahead, reads⟩ |
                ⟨part, done, todo, sent, remaining, ahead, reads⟩ | past
            · refine .inl ⟨ignored, fun other isOther => .inl ?_⟩
              rw [same other isOther]
              exact ⟨part, done, todo, sent, remaining, ahead, reads⟩
            · refine .inr fun other isOther => .inl ?_
              rw [same other isOther]
              exact ⟨part, done, todo, sent, remaining, ahead, reads⟩
            · exact .inr fun _ _ => .inr past
          · exact .inr fun _ _ => .inr past.goPast
        · exact .inr fun other isOther => absurd ⟨other, isOther⟩ offered
      show ite _ _ _
      by_cases ignored : frame.frameType = 0
      · rw [if_pos ignored]
        rcases goes with ⟨_, position⟩ | position
        · exact ⟨still, position⟩
        · exact Holding.listening ⟨still, position⟩
      · rw [if_neg ignored]
        exact ⟨still, goes.resolve_left fun both => ignored both.1⟩

theorem reception_listening
    (own : ∀ frame ∈ incoming.frames, frame.BelongsTo incoming.channel) :
    Reception incoming.channel incoming.Listening (fun _ => incoming.Holding) incoming.Ended where
  calm _ listening := listening.steady.provided.calm
  quiet _ _ quiet calm listening := listening.of_quiet quiet calm
  takes _ _ _ takes empty listening := listening.of_takes takes empty
  consume := consumeOneFrame_listening own
  invariantEnds _ listening := listening.ended
  putAway _ _ holding := holding.listening
  absent _ listening := by
    obtain ⟨others, represents, foreign⟩ := listening.steady.queue
    have absent : ∀ frame ∈ others, (incoming.channel == frame.channel) = false :=
      fun frame member => by simpa using foreign frame member
    exact represents.find_eq_none absent _
  queueFrame frame other := by
    intro world holding
    obtain ⟨after, returned, listening⟩ := holding.queueFrame other
    rw [returned]
    exact listening
  putBackFrame frame := by
    have keeps : Keeps incoming.Ended (amqpPutBackFrame frame) := by
      refine (links_amqpPutBackFrame frame).keeps fun before after links ended => ?_
      refine ended.congr ?_ fun _ _ => trivial
      obtain ⟨script, queue, poolTable, uses, rfl⟩ := links
      exact ⟨rfl, rfl, rfl, rfl⟩
    exact keeps.strengthen fun _ holding => holding.listening.ended

end Incoming

/-! ## Messages -/

/-- The octets that `consume_one_frame` has gone past between two worlds. -/
def consumedSince (before after : World) : List UInt8 :=
  after.consumed.drop before.consumed.length

/-- The octets that were in the buffer at first, and those that the socket has delivered. -/
def receivedSince (before after : World) : List UInt8 :=
  before.unread ++ after.taken.drop before.taken.length

/-- A peer between two calls that has no frames of its own in the queue. Memory is available,
and of the frame in progress `part` has been read. -/
structure Awaiting (limit : Nat) (part : List UInt8) (peer : World) : Prop where
  provided : Provided [] peer
  grants : ∀ frame, (peer.script.memory frame).Grants limit
  queue : peer.queue.Represents []
  within : peer.reader.Within (peer.script.memory peer.framesRead) limit part

section Messages

variable {channel : UInt16} {limit fuel : Nat} {part stream : List UInt8} {peer : World}
  {sent : List (List UInt8)} {frames : List Frame} {message : Message}

/-- The frames that arrive on the channel are those of the message, as far as the octets
have come. -/
theorem arrivals_of_interleaved (awaiting : Awaiting limit part peer)
    (arrive : List.Forall₂ (Arrives limit) sent frames)
    (own : ∀ frame ∈ frames, frame.BelongsTo channel) (some : frames ≠ [])
    (interleaved : Interleaved channel limit part sent stream)
    (received : stream <+: receivedSince peer
      (endState (amqpReadMessage [] channel fuel peer))) :
    frames <+: arrivals channel [] peer (endState (amqpReadMessage [] channel fuel peer)) ∨
      arrivals channel [] peer (endState (amqpReadMessage [] channel fuel peer)) <+: frames ∧
        ¬ stream <+: consumedSince peer (endState (amqpReadMessage [] channel fuel peer)) := by
  obtain ⟨later, isReceived⟩ := received
  have nonempty : stream ≠ [] := interleaved.remaining_ne_nil arrive some
  generalize ran : amqpReadMessage [] channel fuel peer = run at isReceived ⊢
  let incoming : Incoming := ⟨channel, limit, peer, stream, later, (endState run).taken, frames⟩
  have listening : incoming.Listening peer := by
    refine ⟨⟨awaiting.provided, awaiting.grants, [], awaiting.queue, by simp⟩, ?_⟩
    intro future isTaken
    refine .inl ⟨part, [], frames, sent, stream, ⟨⟨[], (List.append_nil _).symm, rfl⟩, ?_,
      interleaved, nonempty, arrive, rfl, [], (List.append_nil _).symm, rfl⟩, awaiting.within⟩
    rw [show incoming.later = later from rfl, isReceived, receivedSince]
    congr 1
    have isTaken : peer.taken ++ future = (endState run).taken := isTaken
    rw [← isTaken, List.drop_left]
  have ended : incoming.Ended (endState run) := by
    have reads := @Reception.readMessage _ _ _ _ fuel (@Incoming.reception_listening incoming own) []
    have returned : amqpReadMessage [] incoming.channel fuel peer = run := ran
    cases run with
    | ok result after => exact reads.ok listening returned
    | error stop after => exact reads.error listening returned
  have queued (new : List Frame) (decoded : (endState run).decoded = peer.decoded ++ new) :
      arrivals channel [] peer (endState run) = ofChannel channel new := by
    unfold arrivals
    rw [newFrames_eq decoded]
    rfl
  rcases ended [] (List.append_nil _) with ⟨rest, done, todo, _, remaining, ahead, _⟩ | past
  · obtain ⟨new, decoded, isDone⟩ := ahead.decoded
    obtain ⟨used, consumed, isStream⟩ := ahead.consumed
    refine .inr ⟨?_, ?_⟩
    · rw [queued new decoded]
      exact ⟨todo, (congrArg (· ++ todo) isDone).trans ahead.frames⟩
    · intro whole
      have consumed : (endState run).consumed = peer.consumed ++ used := consumed
      have lengths := whole.length_le
      rw [consumedSince, consumed, List.drop_left] at lengths
      have isStream : used ++ remaining = stream := isStream
      rw [← isStream, List.length_append] at lengths
      exact ahead.some (List.length_eq_zero_iff.mp (by omega))
  · obtain ⟨new, decoded, arrived⟩ := past
    left
    rw [queued new decoded]
    exact arrived

/-- A call returns the message once it has gone past the octets, and no other one before. -/
structure ReadsBack (message : Message) (peer : World) (stream : List UInt8)
    (run : EStateM.Result Stop World (Except RpcReply Message)) : Prop where
  normal : stream <+: consumedSince peer (endState run) → ∃ after, run = .ok (.ok message) after
  only : ∀ other after, run = .ok (.ok other) after → other = message

/-- What is decided by some of the frames is decided the same by more of them. -/
theorem assemble_agrees {more left rest : List Frame} {result other : Except RpcReply Message}
    (inFront : frames <+: more) (assembled : assemble frames = some (left, result))
    (whole : assemble more = some (rest, other)) : other = result := by
  obtain ⟨behind, rfl⟩ := inFront
  rw [assemble_append assembled] at whole
  cases whole
  rfl

/-- A message in a stream is read back. -/
theorem readsBack_of_interleaved (awaiting : Awaiting limit part peer)
    (complete : CompleteMessage frames message)
    (arrive : List.Forall₂ (Arrives limit) sent frames)
    (own : ∀ frame ∈ frames, frame.BelongsTo channel) (enough : frames.length < fuel)
    (interleaved : Interleaved channel limit part sent stream)
    (received : stream <+: receivedSince peer
      (endState (amqpReadMessage [] channel fuel peer))) :
    ReadsBack message peer stream (amqpReadMessage [] channel fuel peer) := by
  have assembled := assemble_of_complete complete
  have some : frames ≠ [] := by
    rintro rfl
    cases assembled
  have arrives := arrivals_of_interleaved awaiting arrive own some interleaved received
  constructor
  · intro consumed
    have arrived := arrives.resolve_right fun both => both.2 consumed
    exact returns_of_assemble awaiting.provided awaiting.queue arrived enough assembled
  · intro other after returned
    have decides := (amqpReadMessage_assembles awaiting.provided awaiting.queue).ok rfl returned
    rw [returned] at arrives
    rcases decides with ⟨left, decided, _⟩ | ⟨_, failed⟩
    · have same : (.ok other : Except RpcReply Message) = .ok message := by
        rcases arrives with arrived | ⟨arrived, _⟩
        · exact assemble_agrees arrived assembled decided
        · exact (assemble_agrees arrived decided assembled).symm
      cases same
      rfl
    · exact absurd rfl (failed other)

end Messages

end RabbitmqC
