import RabbitmqC.Consumer.Reassembly

/-!
# Consuming from two channels

`amqp_consume_message` takes the next delivery, whatever its channel, and reads the message
behind it on that channel while frames of other channels are queued. With two channels all
queued frames are on the same one, so that none is skipped, and the deliveries of either
channel come out whole and in their order.
-/

set_option autoImplicit false

namespace RabbitmqC

open Effect

/-! ## Frames of two channels -/

/-- Heartbeats aside, the frames are on these channels. -/
def OfPair (left right : UInt16) (frames : List Frame) : Prop :=
  ∀ frame ∈ frames, frame.frameType ≠ amqpFrameHeartbeat →
    frame.channel = left ∨ frame.channel = right

def OneSided (frames : List Frame) : Prop :=
  ∀ frame ∈ frames, ∀ other ∈ frames, other.channel = frame.channel

/-- Frames decoded since `past` were handed out or are queued, and the queue is one-sided. -/
structure Divided (left right : UInt16) (past handed queued : List Frame) (world : World) :
    Prop where
  provided : Provided [] world
  represents : world.queue.Represents queued
  frames : ∃ new, world.decoded = past ++ new ∧
    (∀ frame ∈ queued, frame ∈ new ∧ frame.frameType ≠ amqpFrameHeartbeat) ∧
    (OfPair left right new → OneSided queued ∧ Conserved handed queued new)

/-- A frame of the channel was handed out. -/
def Known (channel : UInt16) (handed : List Frame) : Prop := ofChannel channel handed ≠ []

section Pairs

variable {left right channel : UInt16} {past handed queued new beats frames : List Frame}
  {frame : Frame} {world after : World} {fuel : Nat}

theorem OfPair.mono (pair : OfPair left right new) (within : frames ⊆ new) :
    OfPair left right frames :=
  fun frame member => pair frame (within member)

theorem Known.append (known : Known channel handed) (more : List Frame) :
    Known channel (handed ++ more) := by
  unfold Known
  rw [ofChannel_append]
  exact fun empty => known (List.append_eq_nil_iff.mp empty).1

theorem known_concat (notBeat : frame.frameType ≠ amqpFrameHeartbeat) :
    Known frame.channel (handed ++ [frame]) := by
  unfold Known
  rw [ofChannel_append]
  simp [ofChannel, notBeat]

/-- What was handed out came from one of the channels. -/
theorem Known.ofPair (known : Known channel handed) (pair : OfPair left right new)
    (conserved : Conserved handed queued new) : channel = left ∨ channel = right := by
  obtain ⟨frame, member⟩ := List.exists_mem_of_ne_nil _ known
  have received : frame ∈ ofChannel channel new := by
    rw [← conserved channel]
    exact List.mem_append_left _ member
  obtain ⟨inside, isOwn⟩ := List.mem_filter.mp received
  have own : frame.channel = channel ∧ frame.frameType ≠ amqpFrameHeartbeat := by simpa using isOwn
  rw [← own.1]
  exact pair frame inside own.2

theorem Conserved.withBeats (conserved : Conserved handed queued new)
    (areBeats : ∀ frame ∈ beats, frame.frameType = amqpFrameHeartbeat) :
    Conserved handed queued (new ++ beats) := by
  intro any
  rw [ofChannel_append, ofChannel_of_beats areBeats, List.append_nil]
  exact conserved any

theorem Conserved.putAway (conserved : Conserved handed queued new) :
    Conserved handed (queued ++ [frame]) (new ++ [frame]) := by
  intro any
  rw [ofChannel_append, ofChannel_append, ← conserved any, List.append_assoc]

/-- A frame is handed out while nothing of its channel is queued. -/
theorem Conserved.hand (conserved : Conserved handed queued new)
    (absent : ∀ other ∈ queued, other.channel ≠ frame.channel) :
    Conserved (handed ++ [frame]) queued (new ++ [frame]) := by
  intro any
  rw [ofChannel_append, ofChannel_append, ← conserved any, List.append_assoc, List.append_assoc]
  congr 1
  by_cases own : frame.channel = any
  · have none : ofChannel any queued = [] :=
      ofChannel_eq_nil fun other member same => absurd (same.trans own.symm) (absent other member)
    rw [none, List.append_nil, List.nil_append]
  · have none : ofChannel any [frame] = [] := by
      refine ofChannel_eq_nil fun other member same => absurd ?_ own
      rwa [List.mem_singleton.mp member] at same
    rw [none, List.append_nil, List.nil_append]

theorem Conserved.handFirst (conserved : Conserved handed (frame :: queued) new) :
    Conserved (handed ++ [frame]) queued new := by
  intro any
  rw [ofChannel_append, List.append_assoc, ← ofChannel_append]
  exact conserved any

theorem OneSided.tail (oneSided : OneSided (frame :: queued)) : OneSided queued :=
  fun first member other inside =>
    oneSided first (List.mem_cons_of_mem _ member) other (List.mem_cons_of_mem _ inside)

/-- With two channels what is not on the one is on the other. -/
theorem oneSided_concat (pair : OfPair left right new) (isSide : channel = left ∨ channel = right)
    (absent : ∀ other ∈ frames, other.channel ≠ channel)
    (within : ∀ frame ∈ frames, frame ∈ new ∧ frame.frameType ≠ amqpFrameHeartbeat) :
    OneSided frames := by
  intro frame member other inside
  have first := pair frame (within frame member).1 (within frame member).2
  have second := pair other (within other inside).1 (within other inside).2
  have notFirst := absent frame member
  have notSecond := absent other inside
  grind

/-! ## Waiting -/

/-- How a wait on a channel leaves what is queued. -/
def DividedWait (left right channel : UInt16) (past handed : List Frame) :
    Except Status Frame → World → Prop
  | .ok frame, world => (∃ queued, Divided left right past (handed ++ [frame]) queued world) ∧
      frame.channel = channel ∧ frame.frameType ≠ amqpFrameHeartbeat
  | .error _, world => ∃ queued, Divided left right past handed queued world

theorem DividedWait.andThen {α : Type} {next : Call α} {returned : α → World → Prop}
    {raised : Stop → World → Prop}
    (tail : frame.channel = channel → frame.frameType ≠ amqpFrameHeartbeat →
      Triple (fun world => ∃ queued, Divided left right past (handed ++ [frame]) queued world) next
        returned raised) :
    Triple (DividedWait left right channel past handed (.ok frame)) next returned raised := by
  rintro world ⟨isDivided, isOwn, notBeat⟩
  exact tail isOwn notBeat isDivided

/-- How a wait ends that begins with these frames decoded. -/
def WaitedBehind (left right : UInt16) (past handed decoded : List Frame)
    (queue : LinkedQueue Frame) : Except Status Frame → World → Prop
  | .ok frame, after => BeatsAndFrame [] decoded queue frame after ∧
      frame.frameType ≠ amqpFrameHeartbeat
  | .error _, after => ∃ queued, Divided left right past handed queued after

theorem waitFrameForChannel_divided (known : Known channel handed) :
    Triple (fun world => ∃ queued, Divided left right past handed queued world ∧
        ∀ frame ∈ queued, frame.channel ≠ channel)
      (waitFrameForChannel channel fuel) (DividedWait left right channel past handed)
      (fun _ world => ∃ queued, Divided left right past handed queued world) := by
  induction fuel with
  | zero =>
      refine .throw fun world => ?_
      rintro ⟨queued, divided, _⟩
      exact ⟨queued, divided⟩
  | succ fuel ih =>
      rintro world ⟨queued, ⟨provided, represents, new, decoded, within, sides⟩, absent⟩
      have start : OnlyBeats [] (past ++ new) world.queue world :=
        ⟨provided, rfl, [], by simp, by simpa using decoded⟩
      have beatsOnly (after : World) (ends : OnlyBeats [] (past ++ new) world.queue after) :
          ∃ queued, Divided left right past handed queued after := by
        obtain ⟨provided, isQueue, beats, areBeats, decoded⟩ := ends
        refine ⟨queued, provided, isQueue ▸ represents, new ++ beats, ?_, ?_, fun pair => ?_⟩
        · rw [decoded, List.append_assoc]
        · exact fun frame member =>
            ⟨List.mem_append_left _ (within frame member).1, (within frame member).2⟩
        · obtain ⟨oneSided, conserved⟩ := sides (pair.mono (List.subset_append_left _ _))
          exact ⟨oneSided, conserved.withBeats areBeats⟩
      have waits : Triple (world = ·) (waitFrameInner amqpTimeInfinite fuel)
          (WaitedBehind left right past handed (past ++ new) world.queue)
          (fun _ after => ∃ queued, Divided left right past handed queued after) := by
        refine ((waitFrameInner_frames.strengthen ?_).raise fun _ => beatsOnly).weaken ?_
        · rintro _ rfl
          exact start
        · intro result after ends
          cases result with
          | ok frame => exact ends
          | error status => exact beatsOnly after ends
      refine Triple.bind waits (fun result => ?_) rfl
      cases result with
      | error status => exact .pure fun _ holds => holds
      | ok frame =>
          have decodes (after : World) (ends : BeatsAndFrame [] (past ++ new) world.queue frame after) :
              ∃ beats, (∀ frame ∈ beats, frame.frameType = amqpFrameHeartbeat) ∧
                after.decoded = past ++ ((new ++ beats) ++ [frame]) := by
            obtain ⟨_, _, beats, areBeats, decoded⟩ := ends
            exact ⟨beats, areBeats, by rw [decoded]; simp only [List.append_assoc]⟩
          refine .ite (fun wanted => .pure ?_) fun unwanted => ?_
          · rintro after ⟨ends, notBeat⟩
            obtain ⟨beats, areBeats, decoded⟩ := decodes after ends
            refine ⟨⟨queued, ends.provided, ends.queue ▸ represents, _, decoded, ?_, fun pair => ?_⟩,
              wanted.symm, notBeat⟩
            · intro other member
              have inside := within other member
              exact ⟨List.mem_append_left _ (List.mem_append_left _ inside.1), inside.2⟩
            · obtain ⟨oneSided, conserved⟩ := sides (pair.mono fun other member =>
                List.mem_append_left _ (List.mem_append_left _ member))
              exact ⟨oneSided, (conserved.withBeats areBeats).hand fun other member =>
                wanted ▸ absent other member⟩
          · rintro after ⟨ends, notBeat⟩
            obtain ⟨beats, areBeats, decoded⟩ := decodes after ends
            obtain ⟨final, returned, represents, unchanged, still⟩ :=
              amqpQueueFrame_eq ends.provided (ends.queue ▸ represents) frame
            rw [bind_of_ok returned]
            have apart : ∀ other ∈ queued ++ [frame], other.channel ≠ channel := by
              intro other member
              rcases List.mem_append.mp member with earlier | last
              · exact absent other earlier
              · rw [List.mem_singleton.mp last]
                exact Ne.symm unwanted
            have inside : ∀ other ∈ queued ++ [frame], other ∈ (new ++ beats) ++ [frame] ∧
                other.frameType ≠ amqpFrameHeartbeat := by
              intro other member
              rcases List.mem_append.mp member with earlier | last
              · have old := within other earlier
                exact ⟨List.mem_append_left _ (List.mem_append_left _ old.1), old.2⟩
              · rw [List.mem_singleton.mp last]
                exact ⟨List.mem_append_right _ (List.mem_singleton_self _), notBeat⟩
            refine ih ⟨queued ++ [frame], ⟨still, represents, _, unchanged.trans decoded, inside,
              fun pair => ?_⟩, apart⟩
            obtain ⟨_, conserved⟩ := sides (pair.mono fun other member =>
              List.mem_append_left _ (List.mem_append_left _ member))
            have isSide := known.ofPair (pair.mono (List.subset_append_left _ _))
              (conserved.withBeats areBeats)
            exact ⟨oneSided_concat pair isSide apart inside, (conserved.withBeats areBeats).putAway⟩

theorem waitFrameOnChannel_divided (known : Known channel handed) :
    Triple (fun world => ∃ queued, Divided left right past handed queued world)
      (amqpSimpleWaitFrameOnChannel channel fuel) (DividedWait left right channel past handed)
      (fun _ world => ∃ queued, Divided left right past handed queued world) := by
  refine .get_bind fun world isDivided => ?_
  obtain ⟨queued, divided⟩ := isDivided
  cases found : queued.find? fun frame => channel == frame.channel with
  | none =>
      have absent : ∀ other ∈ queued, (channel == other.channel) = false := by
        simpa using List.find?_eq_none.mp found
      rw [divided.represents.find_eq_none absent]
      refine (waitFrameForChannel_divided known).strengthen ?_
      rintro _ rfl
      exact ⟨queued, divided, fun other member =>
        Ne.symm (beq_eq_false_iff_ne.mp (absent other member))⟩
  | some frame =>
      obtain ⟨wanted, skipped, rest, rfl, others⟩ := List.find?_eq_some_iff_append.mp found
      have before : ∀ other ∈ skipped, (channel == other.channel) = false :=
        fun other member => by simpa using others other member
      have isOwn : frame.channel = channel := (beq_iff_eq.mp wanted).symm
      obtain ⟨link, search, isFrame, behind⟩ := divided.represents.find_eq_some before wanted
      rw [search]
      rintro _ rfl
      obtain ⟨new, decoded, within, sides⟩ := divided.frames
      have inside := within frame (by simp)
      refine ⟨⟨rest, divided.provided.congr rfl rfl rfl rfl, behind, new, decoded, ?_, fun pair => ?_⟩,
        isFrame ▸ isOwn, isFrame ▸ inside.2⟩
      · exact fun other member => within other (List.mem_append_right _ (List.mem_cons_of_mem _ member))
      · obtain ⟨oneSided, conserved⟩ := sides pair
        -- Nothing is skipped, as it would be on the other channel.
        have none : skipped = [] := by
          refine List.eq_nil_iff_forall_not_mem.mpr fun other member => ?_
          have same := oneSided frame (by simp) other (List.mem_append_left _ member)
          exact beq_eq_false_iff_ne.mp (before other member) (isOwn.symm.trans same.symm)
        rw [none, List.nil_append] at oneSided conserved
        rw [isFrame]
        exact ⟨oneSided.tail, conserved.handFirst⟩

/-- How the wait for any frame ends. -/
def DividedAny (left right : UInt16) (past handed : List Frame) :
    Except Status Frame → World → Prop
  | .ok frame, world => (∃ queued, Divided left right past (handed ++ [frame]) queued world) ∧
      frame.frameType ≠ amqpFrameHeartbeat
  | .error _, world => ∃ queued, Divided left right past handed queued world

theorem waitFrameNoblock_divided (timeout : Option Timeval) :
    Triple (fun world => ∃ queued, Divided left right past handed queued world)
      (amqpSimpleWaitFrameNoblock timeout fuel) (DividedAny left right past handed)
      (fun _ world => ∃ queued, Divided left right past handed queued world) := by
  have still : Keeps (fun world => ∃ queued, Divided left right past handed queued world)
      (amqpTimeFromNow timeout) := by
    refine ((asks_timeFromNow timeout).mono fun _ _ => still_of_asks).keeps ?_
    rintro before after still ⟨queued, provided, represents, new, decoded, rest⟩
    exact ⟨queued, provided.of_still still, still.queue ▸ represents, new,
      still.decoded.trans decoded, rest⟩
  refine Triple.bind still fun result => ?_
  cases result with
  | error status => exact .pure fun _ divided => divided
  | ok deadline =>
      refine .get_bind fun world isDivided => ?_
      obtain ⟨queued, provided, represents, new, decoded, within, sides⟩ := isDivided
      cases queued with
      | cons frame rest =>
          obtain ⟨link, front, isFrame, behind⟩ := represents.front_eq_some
          rw [front]
          rintro _ rfl
          have inside := within frame List.mem_cons_self
          refine ⟨⟨rest, provided.congr rfl rfl rfl rfl, behind, new, decoded, ?_, fun pair => ?_⟩,
            isFrame ▸ inside.2⟩
          · exact fun other member => within other (List.mem_cons_of_mem _ member)
          · obtain ⟨oneSided, conserved⟩ := sides pair
            rw [isFrame]
            exact ⟨oneSided.tail, conserved.handFirst⟩
      | nil =>
          have empty : world.queue.front = none := by
            unfold LinkedQueue.front
            rw [represents.first_eq_none.mpr rfl]
            rfl
          have beatsOnly (after : World) (ends : OnlyBeats [] (past ++ new) world.queue after) :
              ∃ queued, Divided left right past handed queued after := by
            obtain ⟨provided, isQueue, beats, areBeats, decoded⟩ := ends
            refine ⟨[], provided, isQueue ▸ represents, new ++ beats, ?_, by simp, fun pair => ?_⟩
            · rw [decoded, List.append_assoc]
            · obtain ⟨oneSided, conserved⟩ := sides (pair.mono (List.subset_append_left _ _))
              exact ⟨oneSided, conserved.withBeats areBeats⟩
          rw [empty]
          refine ((waitFrameInner_frames.strengthen ?_).raise fun _ => beatsOnly).weaken
            fun result after ends => ?_
          · rintro _ rfl
            exact ⟨provided, rfl, [], by simp, by simpa using decoded⟩
          · cases result with
            | error status => exact beatsOnly after ends
            | ok frame =>
                obtain ⟨⟨provided, isQueue, beats, areBeats, decoded⟩, notBeat⟩ := ends
                refine ⟨⟨[], provided, isQueue ▸ represents, (new ++ beats) ++ [frame], ?_, by simp,
                  fun pair => ?_⟩, notBeat⟩
                · rw [decoded]
                  simp only [List.append_assoc]
                · obtain ⟨oneSided, conserved⟩ := sides (pair.mono fun other member =>
                    List.mem_append_left _ (List.mem_append_left _ member))
                  exact ⟨oneSided, (conserved.withBeats areBeats).hand (by simp)⟩

/-! ## Reading a message -/

/-- All frames are on the channel, and none is a heartbeat. -/
def OwnFrames (channel : UInt16) (frames : List Frame) : Prop :=
  ∀ frame ∈ frames, frame.channel = channel ∧ frame.frameType ≠ amqpFrameHeartbeat

/-- The result is made of frames that the loop has taken, and of no others. -/
def DividedBody (left right channel : UInt16) (past handed : List Frame) (size : Nat)
    (body : List UInt8) (result : Except RpcReply (List UInt8)) (world : World) : Prop :=
  ∀ whole, result = .ok whole → ∃ more queued,
    Divided left right past (handed ++ more) queued world ∧ OwnFrames channel more ∧
      gather size body more = some ([], .ok whole)

theorem readFragments_divided {size : Nat} {body : List UInt8} (known : Known channel handed) :
    Triple (fun world => ∃ queued, Divided left right past handed queued world)
      (readFragments channel size fuel body)
      (DividedBody left right channel past handed size body) (fun _ _ => True) := by
  induction fuel generalizing body handed with
  | zero => exact .throw fun _ _ => trivial
  | succ fuel ih =>
      refine .ite (fun lacks => ?_) fun enough => .pure ?_
      · refine Triple.bind ((waitFrameOnChannel_divided known).raise fun _ _ _ => trivial)
          fun result => ?_
        cases result with
        | error status =>
            refine .pure fun world _ whole isWhole => ?_
            cases isWhole
        | ok frame =>
            refine DividedWait.andThen fun isOwn notBeat => .ite (fun _ => ?_) fun isBody => ?_
            · cases closeMethod? frame with
              | some method | none =>
                  refine .pure fun _ _ whole isWhole => ?_
                  cases isWhole
            · cases isPayload : frame.payload with
              | bodyFragment bytes =>
                  refine .ite (fun _ => ?_) fun fits => ?_
                  · refine .pure fun _ _ whole isWhole => ?_
                    cases isWhole
                  · refine (ih (known.append [frame])).weaken fun result after ends => ?_
                    intro whole isWhole
                    obtain ⟨more, queued, divided, own, gathered⟩ := ends whole isWhole
                    have isFragment := fragment?_eq_some.mpr ⟨not_not.mp isBody, isPayload⟩
                    refine ⟨frame :: more, queued, by rwa [List.append_cons], ?_, ?_⟩
                    · exact List.forall_mem_cons.mpr ⟨⟨isOwn, notBeat⟩, own⟩
                    · rw [gather_fragment lacks isFragment (Nat.not_lt.mp fits)]
                      exact gathered
              | none | method | properties | protocolHeader => exact .throw fun _ _ => trivial
      · rintro world ⟨queued, divided⟩ whole isWhole
        cases isWhole
        refine ⟨[], queued, by rwa [List.append_nil], by simp [OwnFrames], ?_⟩
        rw [gather, if_neg enough]

def DividedMessage (left right channel : UInt16) (past handed : List Frame)
    (result : Except RpcReply Message) (world : World) : Prop :=
  ∀ message, result = .ok message → ∃ taken queued,
    Divided left right past (handed ++ taken) queued world ∧ OwnFrames channel taken ∧
      assemble taken = some ([], .ok message)

theorem amqpReadMessage_divided (known : Known channel handed) :
    Triple (fun world => ∃ queued, Divided left right past handed queued world)
      (amqpReadMessage [] channel fuel) (DividedMessage left right channel past handed)
      (fun _ _ => True) := by
  have refuses {reply : RpcReply} (world : World) :
      DividedMessage left right channel past handed (.error reply) world := by
    intro message isMessage
    cases isMessage
  refine Triple.bind ((waitFrameOnChannel_divided known).raise fun _ _ _ => trivial)
    fun result => ?_
  cases result with
  | error status => exact .pure fun world _ => refuses world
  | ok frame =>
      refine DividedWait.andThen fun isOwn notBeat => .ite (fun _ => ?_) fun isHeader => ?_
      · cases closeMethod? frame with
        | some method => exact .pure fun world _ => refuses world
        | none =>
            have puts : Triple
                (fun world => ∃ queued, Divided left right past (handed ++ [frame]) queued world)
                (amqpPutBackFrame frame) (fun _ _ => True) (fun _ _ => True) := by
              intro world _
              split <;> trivial
            exact Triple.bind puts fun _ => .pure fun world _ => refuses world
      · cases started : startMessage [] frame with
        | error failure rest =>
            cases failure with
            | fault fault => exact .throw fun _ _ => trivial
            | status status => exact .pure fun world _ => refuses world
        | ok begun rest =>
            obtain ⟨properties, size⟩ := begun
            refine Triple.bind (readFragments_divided (known.append [frame])) fun result => ?_
            cases result with
            | error reply => exact .pure fun world _ => refuses world
            | ok body =>
                refine .pure fun world ends message isMessage => ?_
                cases isMessage
                obtain ⟨more, queued, divided, own, gathered⟩ := ends body rfl
                refine ⟨frame :: more, queued, by rwa [List.append_cons], ?_, ?_⟩
                · exact List.forall_mem_cons.mpr ⟨⟨isOwn, notBeat⟩, own⟩
                · rw [assemble_header (not_not.mp isHeader) started, gathered]
                  rfl

/-! ## Deliveries -/

/-- The frames of a `basic.deliver` and of the message behind it, and the envelope that they
make. -/
inductive Delivery : Envelope → List Frame → Prop where
  | intro {frame : Frame} {frames : List Frame} {message : Message}
      {consumerTag exchange routingKey : List UInt8} {deliveryTag : UInt64}
      {redelivered : Domain.Value (.bits 1)} {rest : Unit} :
      frame.frameType ≠ amqpFrameHeartbeat →
      delivery? frame =
        some (some (consumerTag, deliveryTag, redelivered, exchange, routingKey, rest)) →
      OwnFrames frame.channel frames → assemble frames = some ([], .ok message) →
      Delivery ⟨frame.channel, consumerTag, deliveryTag, (Subtype.val redelivered).headD 0, exchange,
        routingKey, message⟩ (frame :: frames)

/-- The envelope that a call has returned comes from the frames that it has taken. -/
def DividedEnvelope (left right : UInt16) (past handed : List Frame)
    (result : Except RpcReply Envelope) (world : World) : Prop :=
  ∀ envelope, result = .ok envelope → ∃ frames queued,
    Divided left right past (handed ++ frames) queued world ∧ Delivery envelope frames

theorem amqpConsumeMessage_divided (timeout : Option Timeval) :
    Triple (fun world => ∃ queued, Divided left right past handed queued world)
      (amqpConsumeMessage [] timeout fuel) (DividedEnvelope left right past handed)
      (fun _ _ => True) := by
  have refuses {reply : RpcReply} (world : World) :
      DividedEnvelope left right past handed (.error reply) world := by
    intro envelope isEnvelope
    cases isEnvelope
  refine Triple.bind ((waitFrameNoblock_divided timeout).raise fun _ _ _ => trivial) fun result => ?_
  cases result with
  | error status => exact .pure fun world _ => refuses world
  | ok frame =>
      rintro world ⟨isDivided, notBeat⟩
      revert world
      show Triple (fun world => ∃ queued, Divided left right past (handed ++ [frame]) queued world)
        _ _ _
      dsimp only
      cases isDelivery : delivery? frame with
      | none =>
          have puts : Triple
              (fun world => ∃ queued, Divided left right past (handed ++ [frame]) queued world)
              (amqpPutBackFrame frame) (fun _ _ => True) (fun _ _ => True) := by
            intro world _
            split <;> trivial
          exact Triple.bind puts fun _ => .pure fun world _ => refuses world
      | some members =>
          cases members with
          | none => exact .throw fun _ _ => trivial
          | some members =>
              obtain ⟨consumerTag, deliveryTag, redelivered, exchange, routingKey, rest⟩ := members
              dsimp only
              rw [show dupStrings consumerTag exchange routingKey [] = .ok true [] from rfl]
              dsimp only
              refine Triple.bind (amqpReadMessage_divided (known_concat notBeat)) fun result => ?_
              cases result with
              | error reply => exact .pure fun world _ => refuses world
              | ok message =>
                  refine .pure fun world ends envelope isEnvelope => ?_
                  cases isEnvelope
                  obtain ⟨taken, queued, divided, own, assembled⟩ := ends message rfl
                  exact ⟨frame :: taken, queued, by rwa [List.append_cons],
                    .intro notBeat isDelivery own assembled⟩

end Pairs

/-! ## Runs -/

/-- Calls of `amqp_consume_message` that have returned these envelopes. A call whose first wait
fails returns its status, and has taken nothing. -/
inductive ConsumeRun (origin : World) : World → List Envelope → Prop where
  | start : ConsumeRun origin origin []
  | call {world after : World} {envelopes : List Envelope} {envelope : Envelope}
      {timeout : Option Timeval} {fuel : Nat} : ConsumeRun origin world envelopes →
      amqpConsumeMessage [] timeout fuel world = .ok (.ok envelope) after →
      ConsumeRun origin after (envelopes ++ [envelope])
  | idle {world after : World} {envelopes : List Envelope} {status : Status}
      {timeout : Option Timeval} {fuel : Nat} : ConsumeRun origin world envelopes →
      amqpSimpleWaitFrameNoblock timeout fuel world = .ok (.error status) after →
      ConsumeRun origin after envelopes

/-- The envelopes are made of whole deliveries, and with what is queued these are all frames that
were received. Where the frames of a channel are deliveries, its envelopes are theirs. -/
structure Demultiplexed (envelopes : List Envelope) (queued received : List Frame) : Prop where
  whole : ∃ deliveries, List.Forall₂ Delivery envelopes deliveries ∧
    Conserved deliveries.flatten queued received
  inOrder : ∀ (channel : UInt16) (sent : List (Envelope × List Frame)),
    (∀ part ∈ sent, Delivery part.1 part.2) →
    ofChannel channel received <+: (sent.map Prod.snd).flatten →
      envelopes.filter (·.channel == channel) <+: sent.map Prod.fst
  complete : ∀ (channel : UInt16) (sent : List (Envelope × List Frame)),
    (∀ part ∈ sent, Delivery part.1 part.2) → queued = [] →
    ofChannel channel received = (sent.map Prod.snd).flatten →
      envelopes.filter (·.channel == channel) = sent.map Prod.fst

section Demultiplexing

variable {left right : UInt16} {origin world : World} {envelopes : List Envelope}
  {envelope other : Envelope} {frames more : List Frame}

theorem Delivery.own (delivery : Delivery envelope frames) : OwnFrames envelope.channel frames := by
  cases delivery with
  | intro notBeat _ own _ => exact List.forall_mem_cons.mpr ⟨⟨rfl, notBeat⟩, own⟩

theorem Delivery.ne_nil (delivery : Delivery envelope frames) : frames ≠ [] := by
  cases delivery
  simp

/-- Of two deliveries that begin alike neither goes on behind the other. -/
theorem Delivery.unique (delivery : Delivery envelope frames) (second : Delivery other more)
    (front : frames <+: more) : envelope = other ∧ frames = more := by
  cases delivery with
  | @intro frame taken message consumerTag exchange routingKey deliveryTag redelivered rest _
      isDelivery _ assembled =>
      cases second with
      | @intro same whole finished otherTag otherExchange otherKey otherDelivery otherBits otherRest _
          also _ assembledToo =>
          obtain ⟨rfl, behind⟩ := List.cons_prefix_cons.mp front
          obtain ⟨tail, rfl⟩ := behind
          rw [@assemble_append _ _ tail _ assembled] at assembledToo
          cases assembledToo
          rw [isDelivery] at also
          cases also
          exact ⟨rfl, by rw [List.append_nil]⟩

/-- A stream is cut into deliveries in one way only. -/
theorem deliveries_prefix {parts sent : List (Envelope × List Frame)} {behind : List Frame}
    (made : ∀ part ∈ parts, Delivery part.1 part.2) (areSent : ∀ part ∈ sent, Delivery part.1 part.2)
    (front : (parts.map Prod.snd).flatten ++ behind <+: (sent.map Prod.snd).flatten) :
    ∃ rest, sent = parts ++ rest ∧ behind <+: (rest.map Prod.snd).flatten := by
  induction parts generalizing sent with
  | nil => exact ⟨sent, rfl, front⟩
  | cons part parts ih =>
      have first := made part List.mem_cons_self
      cases sent with
      | nil =>
          have empty := List.prefix_nil.mp front
          rw [List.append_eq_nil_iff, List.map_cons, List.flatten_cons, List.append_eq_nil_iff] at empty
          exact absurd empty.1.1 first.ne_nil
      | cons sentPart sent =>
          have second := areSent sentPart List.mem_cons_self
          simp only [List.map_cons, List.flatten_cons, List.append_assoc] at front
          have same : part = sentPart := by
            rcases List.prefix_or_prefix_of_prefix ((List.prefix_append _ _).trans front)
              (List.prefix_append _ _) with before | after
            · obtain ⟨sameEnvelope, sameFrames⟩ := first.unique second before
              exact Prod.ext sameEnvelope sameFrames
            · obtain ⟨sameEnvelope, sameFrames⟩ := second.unique first after
              exact Prod.ext sameEnvelope.symm sameFrames.symm
          rw [same, List.prefix_append_right_inj] at front
          obtain ⟨rest, isSent, within⟩ := ih
            (fun other member => made other (List.mem_cons_of_mem _ member))
            (fun other member => areSent other (List.mem_cons_of_mem _ member)) front
          exact ⟨rest, by rw [same, isSent]; rfl, within⟩

/-- The frames of a channel in deliveries are the deliveries on the channel. -/
theorem ofChannel_deliveries {parts : List (Envelope × List Frame)} (channel : UInt16)
    (made : ∀ part ∈ parts, Delivery part.1 part.2) :
    ofChannel channel (parts.map Prod.snd).flatten =
      ((parts.filter fun part => part.1.channel == channel).map Prod.snd).flatten := by
  induction parts with
  | nil => rfl
  | cons part parts ih =>
      have own := (made part List.mem_cons_self).own
      rw [List.map_cons, List.flatten_cons, ofChannel_append,
        ih fun other member => made other (List.mem_cons_of_mem _ member)]
      by_cases isOwn : part.1.channel = channel
      · have all : ofChannel channel part.2 = part.2 := by
          refine List.filter_eq_self.mpr fun frame member => ?_
          have both := own frame member
          simp [both.1, both.2, isOwn]
        rw [all, List.filter_cons_of_pos (by simp [isOwn]), List.map_cons, List.flatten_cons]
      · have none : ofChannel channel part.2 = [] :=
          ofChannel_eq_nil fun frame member same => absurd ((own frame member).1.symm.trans same) isOwn
        rw [none, List.filter_cons_of_neg (by simp [isOwn]), List.nil_append]

theorem demultiplexed_of_parts {parts : List (Envelope × List Frame)} {queued received : List Frame}
    (made : ∀ part ∈ parts, Delivery part.1 part.2)
    (conserved : Conserved (parts.map Prod.snd).flatten queued received) :
    Demultiplexed (parts.map Prod.fst) queued received := by
  have onOne (channel : UInt16) : (parts.map Prod.fst).filter (·.channel == channel) =
      (parts.filter fun part => part.1.channel == channel).map Prod.fst := List.filter_map
  have own (channel : UInt16) := fun part member =>
    made part (List.mem_of_mem_filter (p := fun part => part.1.channel == channel) member)
  have split (channel : UInt16) : ((parts.filter fun part => part.1.channel == channel).map
      Prod.snd).flatten ++ ofChannel channel queued = ofChannel channel received := by
    rw [← ofChannel_deliveries channel made]
    exact conserved channel
  refine ⟨⟨parts.map Prod.snd, ?_, conserved⟩, ?_, ?_⟩
  · rw [List.forall₂_map_left_iff, List.forall₂_map_right_iff]
    exact List.forall₂_same.mpr made
  · intro channel sent areSent front
    rw [← split channel] at front
    obtain ⟨rest, isSent, _⟩ := deliveries_prefix (own channel) areSent front
    rw [onOne, isSent, List.map_append]
    exact List.prefix_append _ _
  · intro channel sent areSent empty all
    rw [← split channel, empty, ofChannel_nil] at all
    obtain ⟨rest, isSent, _⟩ :=
      deliveries_prefix (own channel) areSent ⟨[], by rw [List.append_nil, all]⟩
    rw [isSent, List.map_append, List.flatten_append, List.append_right_inj] at all
    have none : rest = [] := by
      cases rest with
      | nil => rfl
      | cons part rest =>
          have first := (areSent part (by rw [isSent]; simp)).ne_nil
          rw [List.map_cons, List.flatten_cons] at all
          exact absurd (List.append_eq_nil_iff.mp all.symm).1 first
    rw [onOne, isSent, none, List.append_nil]

theorem ConsumeRun.divided (provided : Provided [] origin) (empty : origin.queue.Represents [])
    (run : ConsumeRun origin world envelopes) :
    ∃ (parts : List (Envelope × List Frame)) (queued : List Frame),
      parts.map Prod.fst = envelopes ∧ (∀ part ∈ parts, Delivery part.1 part.2) ∧
      Divided left right origin.decoded (parts.map Prod.snd).flatten queued world := by
  induction run with
  | start =>
      refine ⟨[], [], rfl, by simp, provided, empty, [], (List.append_nil _).symm, by simp,
        fun _ => ⟨?_, fun _ => rfl⟩⟩
      simp [OneSided]
  | @call before after envelopes envelope timeout fuel _ returned ih =>
      obtain ⟨parts, queued, areEnvelopes, made, divided⟩ := ih
      obtain ⟨frames, left', divided', delivery⟩ :=
        (amqpConsumeMessage_divided timeout).ok ⟨queued, divided⟩ returned envelope rfl
      refine ⟨parts ++ [(envelope, frames)], left', by simp [areEnvelopes], ?_, ?_⟩
      · intro part member
        rcases List.mem_append.mp member with earlier | last
        · exact made part earlier
        · rw [List.mem_singleton.mp last]
          exact delivery
      · rw [List.map_append, List.flatten_append]
        simpa using divided'
  | @idle before after envelopes status timeout fuel _ failed ih =>
      obtain ⟨parts, queued, areEnvelopes, made, divided⟩ := ih
      obtain ⟨rest, divided'⟩ := (waitFrameNoblock_divided timeout).ok ⟨queued, divided⟩ failed
      exact ⟨parts, rest, areEnvelopes, made, divided'⟩

/-- While the frames of a connection are on two channels, `amqp_consume_message` returns the
messages of both whole, in their order and each once, however they are interleaved. -/
theorem consumeRun_demultiplexed (provided : Provided [] origin)
    (empty : origin.queue.Represents []) (run : ConsumeRun origin world envelopes)
    (pair : OfPair left right (newFrames origin world)) :
    Demultiplexed envelopes world.queue.values (newFrames origin world) := by
  obtain ⟨parts, queued, rfl, made, _, represents, new, decoded, _, sides⟩ :=
    @ConsumeRun.divided left right origin world envelopes provided empty run
  rw [newFrames_eq decoded] at pair ⊢
  rw [represents.values_eq]
  exact demultiplexed_of_parts made (sides pair).2

/-- The envelope that a call has returned. -/
def envelopeOf (result : EStateM.Result Stop World (Except RpcReply Envelope)) : Option Envelope :=
  (returned? result).bind Except.toOption

theorem ConsumeRun.another {timeout : Option Timeval} {fuel : Nat}
    (run : ConsumeRun origin world envelopes)
    (found : envelopeOf (amqpConsumeMessage [] timeout fuel world) = some envelope) :
    ConsumeRun origin (endState (amqpConsumeMessage [] timeout fuel world))
      (envelopes ++ [envelope]) := by
  cases returned : amqpConsumeMessage [] timeout fuel world with
  | error stop after =>
      rw [returned] at found
      cases found
  | ok result after =>
      rw [returned] at found
      cases result with
      | error reply => cases found
      | ok other =>
          cases found
          exact run.call returned

theorem ofPair_of_channels
    (channels : ∀ channel ∈ frames.map Frame.channel, channel = left ∨ channel = right) :
    OfPair left right frames :=
  fun _ member _ => channels _ (List.mem_map_of_mem member)

end Demultiplexing

/-- `basic.deliver` to the consumer "c" with this delivery tag. -/
def deliverOctets (channel : UInt16) (tag : UInt8) : List UInt8 :=
  frameOctets amqpFrameMethod channel
    ([0, 60, 0, 60, 1, 99] ++ List.replicate 7 0 ++ [tag, 0, 0, 0])

/-- A content header that announces one octet. -/
def oneOctetHeader (channel : UInt16) : List UInt8 :=
  frameOctets amqpFrameHeader channel ([0, 60, 0, 0] ++ List.replicate 7 0 ++ [1, 0, 0])

/-- A connection that receives these octets at once. -/
def receivingWorld (chunk : Chunk) : World :=
  tunedWorld
    { clock := []
      recvs := [.data chunk]
      sends := []
      recvPolls := []
      sendPolls := []
      closes := []
      links := []
      memory := fun _ => grantingMemory }

/-- The messages of two channels, frame by frame. -/
def mixedWorld : World :=
  receivingWorld ⟨deliverOctets 1 1 ++ oneOctetHeader 1 ++ deliverOctets 2 2 ++
    frameOctets amqpFrameBody 1 [97] ++ oneOctetHeader 2 ++ frameOctets amqpFrameBody 2 [98],
    by decide, by decide +kernel⟩

/-- The first call on a connection, and the second. -/
def firstConsume (world : World) : EStateM.Result Stop World (Except RpcReply Envelope) :=
  amqpConsumeMessage [] none 12 world

def secondConsume (world : World) : EStateM.Result Stop World (Except RpcReply Envelope) :=
  amqpConsumeMessage [] none 12 (endState (firstConsume world))

theorem provided_receivingWorld (chunk : Chunk) : Provided [] (receivingWorld chunk) :=
  ⟨.inl (.inr ⟨by show (0 : Int) ≤ 0; decide, rfl⟩), List.nil_suffix⟩

/-- Two calls that return envelopes. -/
theorem consumeRun_twice {origin : World} (first : (envelopeOf (firstConsume origin)).isSome)
    (second : (envelopeOf (secondConsume origin)).isSome) : ∃ one two,
    envelopeOf (firstConsume origin) = some one ∧ envelopeOf (secondConsume origin) = some two ∧
      ConsumeRun origin (endState (secondConsume origin)) [one, two] := by
  obtain ⟨one, foundOne⟩ := Option.isSome_iff_exists.mp first
  obtain ⟨two, foundTwo⟩ := Option.isSome_iff_exists.mp second
  exact ⟨one, two, foundOne, foundTwo, (ConsumeRun.start.another foundOne).another foundTwo⟩

theorem consumeRun_demultiplexed_mixed : ∃ one two,
    (envelopeOf (firstConsume mixedWorld)) = some one ∧
      (envelopeOf (secondConsume mixedWorld)) = some two ∧
      Demultiplexed [one, two] (endState (secondConsume mixedWorld)).queue.values
        (newFrames mixedWorld (endState (secondConsume mixedWorld))) := by
  obtain ⟨one, two, foundOne, foundTwo, run⟩ :=
    @consumeRun_twice mixedWorld (by decide +kernel) (by decide +kernel)
  have channels : (newFrames mixedWorld (endState (secondConsume mixedWorld))).map Frame.channel =
      [1, 1, 2, 1, 2, 2] := by decide +kernel
  refine ⟨one, two, foundOne, foundTwo, consumeRun_demultiplexed (provided_receivingWorld _)
    LinkedQueue.represents_empty run (@ofPair_of_channels 1 2 _ ?_)⟩
  rw [channels]
  simp

/-- Two messages are interleaved and one of a third channel begins between them. -/
def crowdedWorld : World :=
  receivingWorld ⟨deliverOctets 1 1 ++ oneOctetHeader 1 ++ deliverOctets 2 2 ++ deliverOctets 3 3 ++
    oneOctetHeader 2 ++ frameOctets amqpFrameBody 1 [97] ++ frameOctets amqpFrameBody 2 [98],
    by decide +kernel, by decide +kernel⟩

/-- The search of the second call unlinks what it skips, so that the third delivery is lost. -/
theorem consumeRun_third_channel_lost : ∃ envelopes,
    ConsumeRun crowdedWorld (endState (secondConsume crowdedWorld)) envelopes ∧
      ¬ Demultiplexed envelopes (endState (secondConsume crowdedWorld)).queue.values
        (newFrames crowdedWorld (endState (secondConsume crowdedWorld))) := by
  obtain ⟨one, two, foundOne, foundTwo, run⟩ :=
    @consumeRun_twice crowdedWorld (by decide +kernel) (by decide +kernel)
  refine ⟨[one, two], run, fun demultiplexed => ?_⟩
  obtain ⟨deliveries, made, conserved⟩ := demultiplexed.whole
  have channelOne : (envelopeOf (firstConsume crowdedWorld)).map Envelope.channel = some 1 := by
    decide +kernel
  have channelTwo : (envelopeOf (secondConsume crowdedWorld)).map Envelope.channel = some 2 := by
    decide +kernel
  rw [foundOne] at channelOne
  rw [foundTwo] at channelTwo
  obtain ⟨first, second, rfl, ownFirst, ownSecond⟩ : ∃ first second, deliveries = [first, second] ∧
      OwnFrames 1 first ∧ OwnFrames 2 second := by
    cases made with
    | cons headMade tailMade =>
        cases tailMade with
        | cons nextMade endMade =>
            cases endMade
            exact ⟨_, _, rfl, Option.some.inj channelOne ▸ headMade.own,
              Option.some.inj channelTwo ▸ nextMade.own⟩
  have queue : (endState (secondConsume crowdedWorld)).queue.values = [] := by decide +kernel
  have received : (ofChannel 3 (newFrames crowdedWorld
      (endState (secondConsume crowdedWorld)))).length = 1 := by decide +kernel
  have taken : ofChannel 3 [first, second].flatten = [] := by
    refine ofChannel_eq_nil fun frame member isThird => ?_
    rcases List.mem_append.mp (by simpa using member) with inFirst | inSecond
    · exact absurd ((ownFirst frame inFirst).1.symm.trans isThird) (by decide)
    · exact absurd ((ownSecond frame inSecond).1.symm.trans isThird) (by decide)
  rw [← conserved 3, taken, queue] at received
  cases received

end RabbitmqC
