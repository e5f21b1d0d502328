import RabbitmqC.Socket.Receive

/-!
# Conservation of frames

The frames of a channel that were handed to callers, followed by those in the
queue, are the frames received for the channel. `amqp_simple_wait_frame_on_channel`
breaks this: it lets the queue start behind the frame that it takes, and so drops
the frames of other channels in front of it.
-/

set_option autoImplicit false

namespace RabbitmqC

open Effect

/-! ## Frames of a channel -/

/-- The frames of a channel, heartbeats aside. -/
def ofChannel (channel : UInt16) (frames : List Frame) : List Frame :=
  frames.filter fun frame => frame.channel == channel && frame.frameType != amqpFrameHeartbeat

section Channels

variable {channel : UInt16} {frames : List Frame}

@[simp] theorem ofChannel_nil : ofChannel channel [] = [] := rfl

@[simp] theorem ofChannel_append (left right : List Frame) :
    ofChannel channel (left ++ right) = ofChannel channel left ++ ofChannel channel right :=
  List.filter_append left right

theorem ofChannel_eq_nil (others : ∀ frame ∈ frames,
    frame.channel = channel → frame.frameType = amqpFrameHeartbeat) :
    ofChannel channel frames = [] := by
  refine List.filter_eq_nil_iff.mpr fun frame member => ?_
  simpa using others frame member

theorem ofChannel_of_beats (beats : ∀ frame ∈ frames, frame.frameType = amqpFrameHeartbeat) :
    ofChannel channel frames = [] :=
  ofChannel_eq_nil fun frame member _ => beats frame member

end Channels

/-! ## Reading frames and the queue -/

/-- No send runs late, and what is left of the outcomes of allocations for the queue is
the end of `granted`. -/
structure Provided (granted : List Bool) (world : World) : Prop where
  calm : Calm world
  links : world.script.links <:+ granted

section Provisions

variable {granted : List Bool} {before after : World}

theorem Provided.of_quiet (provided : Provided granted before) (quiet : Quiet before after)
    (calm : Calm after) : Provided granted after :=
  ⟨calm, quiet.uses.links.trans provided.links⟩

theorem Provided.of_still (provided : Provided granted before) (still : Still before after) :
    Provided granted after :=
  provided.of_quiet still.toQuiet (provided.calm.of_still still)

theorem Provided.of_takes {octets : List UInt8} (provided : Provided granted before)
    (takes : Takes octets before after) : Provided granted after :=
  ⟨takes.calm provided.calm, takes.uses.links.trans provided.links⟩

/-- The script, the deadlines and the queue are the same. -/
structure SameQueue (before after : World) : Prop where
  script : after.script = before.script
  heartbeat : after.heartbeat = before.heartbeat
  nextRecvHeartbeat : after.nextRecvHeartbeat = before.nextRecvHeartbeat
  nextSendHeartbeat : after.nextSendHeartbeat = before.nextSendHeartbeat
  queue : after.queue = before.queue

theorem Provided.congr (provided : Provided granted before)
    (script : after.script = before.script) (heartbeat : after.heartbeat = before.heartbeat)
    (nextRecvHeartbeat : after.nextRecvHeartbeat = before.nextRecvHeartbeat)
    (nextSendHeartbeat : after.nextSendHeartbeat = before.nextSendHeartbeat) :
    Provided granted after :=
  ⟨provided.calm.congr script heartbeat nextRecvHeartbeat nextSendHeartbeat,
    script ▸ provided.links⟩

theorem Provided.of_sameQueue (provided : Provided granted before)
    (same : SameQueue before after) : Provided granted after :=
  provided.congr same.script same.heartbeat same.nextRecvHeartbeat same.nextSendHeartbeat

end Provisions

/-- The record of decoded frames after `consume_one_frame`. -/
def recordDecoded (decoded : List Frame) : Except Status Frame → List Frame
  | .ok frame => if frame.frameType = 0 then decoded else decoded ++ [frame]
  | .error _ => decoded

theorem consumeOneFrame_decoded {world : World} : Triple (world = ·) consumeOneFrame
    (fun result after => SameQueue world after ∧ after.decoded = recordDecoded world.decoded result)
    (fun _ after => after = world) := by
  rintro _ rfl
  have consumed := consumption world
  generalize consumeOneFrame world = ran at consumed ⊢
  cases consumed with
  | stranded => rfl
  | refused => exact ⟨⟨rfl, rfl, rfl, rfl, rfl⟩, rfl⟩
  | taken => exact ⟨⟨rfl, rfl, rfl, rfl, rfl⟩, rfl⟩

/-- An invariant of the queue and the record of decoded frames, at `consume_one_frame`. -/
theorem consumeOneFrame_ends {invariant : World → Prop} {delivers : Frame → World → Prop}
    (kept : ∀ before after, SameQueue before after → after.decoded = before.decoded →
      invariant before → invariant after)
    (recorded : ∀ before after frame, SameQueue before after →
      after.decoded = before.decoded ++ [frame] → invariant before → delivers frame after) :
    Triple invariant consumeOneFrame (ConsumeEnds invariant delivers invariant)
      (fun _ => invariant) := by
  intro world holds
  cases returned : consumeOneFrame world with
  | error stop after =>
      rw [show after = world from consumeOneFrame_decoded.error rfl returned]
      exact holds
  | ok result after =>
      obtain ⟨same, decoded⟩ := consumeOneFrame_decoded.ok rfl returned
      cases result with
      | error status => exact kept world after same decoded holds
      | ok frame =>
          show ite _ _ _
          rw [recordDecoded] at decoded
          by_cases ignored : frame.frameType = 0
          · rw [if_pos ignored] at decoded ⊢
            exact kept world after same decoded holds
          · rw [if_neg ignored] at decoded ⊢
            exact recorded world after frame same decoded holds

theorem allocateLink_of_provided {world : World} (provided : Provided [] world) :
    allocateLink world = .ok true world := by
  unfold allocateLink
  rw [bind_of_ok (get_run world), List.suffix_nil.mp provided.links]
  rfl

/-- With memory a link is created in every case. -/
theorem createLinkForFrame_of_provided {world : World} (provided : Provided [] world)
    (frame : Frame) : ∃ poolTable stale,
      amqpCreateLinkForFrame frame world = .ok (some (world.queue.create frame stale).2)
        { world with
          reader.poolTable := poolTable, queue := (world.queue.create frame stale).1 } := by
  have pooled : ∃ poolTable, linkPool frame.channel world =
      .ok true { world with reader.poolTable := poolTable } := by
    unfold linkPool
    rw [bind_of_ok (get_run world)]
    split
    · exact ⟨world.reader.poolTable, rfl⟩
    · rw [bind_of_ok (allocateLink_of_provided provided)]
      exact ⟨_, rfl⟩
  obtain ⟨poolTable, pooled⟩ := pooled
  have still : Provided [] { world with reader.poolTable := poolTable } := provided.congr rfl rfl rfl rfl
  refine ⟨poolTable, world.script.stale world.queue.links.length, ?_⟩
  unfold amqpCreateLinkForFrame
  rw [bind_of_ok pooled, if_pos rfl, bind_of_ok (allocateLink_of_provided still),
    bind_of_ok (allocateLink_of_provided still)]
  rfl

theorem allocateLink_eq (world : World) : ∃ outcome script, world.script.Uses script ∧
    allocateLink world = .ok outcome { world with script } := by
  unfold allocateLink
  rw [bind_of_ok (get_run world)]
  cases answered : world.script.links with
  | nil => exact ⟨true, world.script, .refl _, rfl⟩
  | cons granted rest =>
      refine ⟨granted, { world.script with links := rest }, ?_, rfl⟩
      exact { Script.Uses.refl world.script with links := ⟨[granted], answered.symm⟩ }

/-- A link is created, or memory is short and the queue stays as it is. -/
theorem createLinkForFrame_eq (world : World) (frame : Frame) : ∃ script poolTable stale,
    world.script.Uses script ∧
      (amqpCreateLinkForFrame frame world =
          .ok none { world with script, reader.poolTable := poolTable } ∨
        amqpCreateLinkForFrame frame world = .ok (some (world.queue.create frame stale).2)
          { world with
            script, reader.poolTable := poolTable
            queue := (world.queue.create frame stale).1 }) := by
  have pooled : ∃ pool script poolTable, world.script.Uses script ∧
      linkPool frame.channel world =
        .ok pool { world with script, reader.poolTable := poolTable } := by
    unfold linkPool
    rw [bind_of_ok (get_run world)]
    split
    · exact ⟨true, world.script, world.reader.poolTable, .refl _, rfl⟩
    · obtain ⟨outcome, script, uses, allocated⟩ := allocateLink_eq world
      rw [bind_of_ok allocated]
      cases outcome with
      | true => exact ⟨true, script, frame.channel :: world.reader.poolTable, uses, rfl⟩
      | false => exact ⟨false, script, world.reader.poolTable, uses, rfl⟩
  obtain ⟨pool, script, poolTable, uses, pooled⟩ := pooled
  unfold amqpCreateLinkForFrame
  rw [bind_of_ok pooled]
  cases pool with
  | false => exact ⟨script, poolTable, none, uses, .inl rfl⟩
  | true =>
      obtain ⟨link, second, moreUses, allocated⟩ :=
        allocateLink_eq { world with script, reader.poolTable := poolTable }
      obtain ⟨frameCopy, third, lastUses, copied⟩ :=
        allocateLink_eq { world with script := second, reader.poolTable := poolTable }
      rw [if_pos rfl, bind_of_ok allocated, bind_of_ok copied]
      refine ⟨third, poolTable, third.stale world.queue.links.length,
        uses.trans (moreUses.trans lastUses), ?_⟩
      cases link with
      | false => exact .inl rfl
      | true =>
          cases frameCopy with
          | false => exact .inl rfl
          | true => exact .inr rfl

/-- A frame has been put into the queue, which then holds `frames`. -/
def Queued (world : World) (frames : List Frame) (after : World) : Prop :=
  after.queue.Represents frames ∧ after.decoded = world.decoded ∧ Provided [] after

section Queue

variable {world : World} {frames : List Frame}

theorem queueReceived_eq (provided : Provided [] world) (represents : world.queue.Represents frames)
    (frame : Frame) : ∃ after, queueReceived frame world = .ok (.ok ()) after ∧
      Queued world (frames ++ [frame]) after := by
  obtain ⟨poolTable, _, created⟩ := createLinkForFrame_of_provided provided frame
  unfold queueReceived
  rw [bind_of_ok created]
  exact ⟨_, rfl, LinkedQueue.represents_append represents, rfl, provided.congr rfl rfl rfl rfl⟩

/-- Whether or not there is memory, the queue is well formed afterwards. -/
theorem queueReceived_queues {granted : List Bool} (provided : Provided granted world)
    (represents : world.queue.Represents frames) (frame : Frame) :
    ∃ result after, queueReceived frame world = .ok result after ∧ Provided granted after ∧
      after.decoded = world.decoded ∧
      after.queue.Represents (if result = .ok () then frames ++ [frame] else frames) := by
  obtain ⟨script, poolTable, _, uses, created⟩ := createLinkForFrame_eq world frame
  have still : Still world { world with script } := still_of_asks ⟨script, _, uses, rfl⟩
  have moved (queue : LinkedQueue Frame) :
      Provided granted { world with script, queue, reader.poolTable := poolTable } :=
    (provided.of_still still).congr rfl rfl rfl rfl
  unfold queueReceived
  rcases created with created | created
  · rw [bind_of_ok created]
    exact ⟨_, _, rfl, moved _, rfl, represents⟩
  · rw [bind_of_ok created]
    exact ⟨_, _, rfl, moved _, rfl, LinkedQueue.represents_append represents⟩

theorem amqpQueueFrame_eq (provided : Provided [] world) (represents : world.queue.Represents frames)
    (frame : Frame) : ∃ after, amqpQueueFrame frame world = .ok (.ok ()) after ∧
      Queued world (frames ++ [frame]) after := by
  obtain ⟨poolTable, _, created⟩ := createLinkForFrame_of_provided provided frame
  unfold amqpQueueFrame
  rw [bind_of_ok created]
  dsimp only
  rw [bind_of_ok (get_run _), represents.appendAtFirst_eq]
  exact ⟨_, rfl, LinkedQueue.represents_append represents, rfl, provided.congr rfl rfl rfl rfl⟩

theorem amqpPutBackFrame_eq (provided : Provided [] world)
    (represents : world.queue.Represents frames) (frame : Frame) :
    ∃ after, amqpPutBackFrame frame world = .ok (.ok ()) after ∧
      Queued world (frame :: frames) after := by
  obtain ⟨poolTable, _, created⟩ := createLinkForFrame_of_provided provided frame
  unfold amqpPutBackFrame
  rw [bind_of_ok created]
  exact ⟨_, rfl, LinkedQueue.represents_prepend represents, rfl, provided.congr rfl rfl rfl rfl⟩

end Queue

/-! ## What the calls do with frames -/

/-- Nothing but heartbeats was decoded since `past`, and the queue is `queue`. -/
structure OnlyBeats (granted : List Bool) (past : List Frame) (queue : LinkedQueue Frame)
    (world : World) : Prop where
  provided : Provided granted world
  queue : world.queue = queue
  decoded : ∃ beats, (∀ frame ∈ beats, frame.frameType = amqpFrameHeartbeat) ∧
    world.decoded = past ++ beats

/-- Behind the heartbeats one frame was decoded. -/
structure BeatsAndFrame (granted : List Bool) (past : List Frame) (queue : LinkedQueue Frame)
    (frame : Frame) (world : World) : Prop where
  provided : Provided granted world
  queue : world.queue = queue
  decoded : ∃ beats, (∀ frame ∈ beats, frame.frameType = amqpFrameHeartbeat) ∧
    world.decoded = past ++ beats ++ [frame]

theorem receiving_onlyBeats (granted : List Bool) (past : List Frame) (queue : LinkedQueue Frame) :
    Receiving (OnlyBeats granted past queue) (BeatsAndFrame granted past queue)
      (OnlyBeats granted past queue) where
  calm _ holds := holds.provided.calm
  quiet _ _ quiet calm holds :=
    ⟨holds.provided.of_quiet quiet calm, quiet.queue.trans holds.queue, by
      rw [quiet.decoded]
      exact holds.decoded⟩
  takes _ _ _ takes _ holds :=
    ⟨holds.provided.of_takes takes, takes.queue.trans holds.queue, by
      rw [takes.decoded]
      exact holds.decoded⟩
  consume := by
    refine (consumeOneFrame_ends ?_ ?_).strengthen fun _ both => both.1
    · rintro before after same unchanged ⟨provided, isQueue, beats, areBeats, decoded⟩
      exact ⟨provided.of_sameQueue same,
        same.queue.trans isQueue, beats, areBeats, unchanged.trans decoded⟩
    · rintro before after frame same more ⟨provided, isQueue, beats, areBeats, decoded⟩
      exact ⟨provided.of_sameQueue same,
        same.queue.trans isQueue, beats, areBeats, by rw [more, decoded]⟩

/-- A frame that `wait_frame_inner` returns is the only one it has decoded, but for
heartbeats. -/
theorem waitFrameInner_frames {granted : List Bool} {past : List Frame}
    {queue : LinkedQueue Frame} {deadline : UInt64}
    {fuel : Nat} : Triple (OnlyBeats granted past queue) (waitFrameInner deadline fuel)
      (fun result world => match result with
        | .ok frame => BeatsAndFrame granted past queue frame world ∧
            frame.frameType ≠ amqpFrameHeartbeat
        | .error _ => OnlyBeats granted past queue world)
      (fun _ => OnlyBeats granted past queue) := by
  have beats : ∀ frame world, frame.frameType = amqpFrameHeartbeat →
      BeatsAndFrame granted past queue frame world → OnlyBeats granted past queue world := by
    rintro frame world beat ⟨provided, isQueue, beats, areBeats, decoded⟩
    refine ⟨provided, isQueue, beats ++ [frame], ?_, by rw [decoded, List.append_assoc]⟩
    intro other member
    rcases List.mem_append.mp member with earlier | last
    · exact areBeats other earlier
    · rw [List.mem_singleton.mp last]
      exact beat
  refine ((receiving_onlyBeats granted past queue).waitFrameInner beats deadline).weaken
    fun result world ends => ?_
  cases result with
  | ok frame => exact ends
  | error status => exact ends.elim id id

/-- What was decoded since `past` was put behind `queued`. -/
structure AllQueued (past queued : List Frame) (world : World) : Prop where
  provided : Provided [] world
  frames : ∃ new, world.decoded = past ++ new ∧ world.queue.Represents (queued ++ new)

theorem tryRecv_frames {past queued : List Frame} {fuel : Nat} :
    Keeps (AllQueued past queued) (amqpTryRecv fuel) := by
  let delivers (frame : Frame) (world : World) : Prop := Provided [] world ∧
    ∃ new, world.decoded = past ++ new ++ [frame] ∧ world.queue.Represents (queued ++ new)
  have rule : Receiving (AllQueued past queued) delivers (AllQueued past queued) := by
    refine ⟨fun _ holds => holds.provided.calm, ?_, ?_, ?_⟩
    · rintro before after quiet calm ⟨provided, frames⟩
      refine ⟨provided.of_quiet quiet calm, ?_⟩
      rwa [quiet.decoded, quiet.queue]
    · rintro octets before after takes _ ⟨provided, frames⟩
      refine ⟨provided.of_takes takes, ?_⟩
      rwa [takes.decoded, takes.queue]
    · refine (consumeOneFrame_ends ?_ ?_).strengthen fun _ both => both.1
      · rintro before after same unchanged ⟨provided, new, decoded, represents⟩
        exact ⟨provided.of_sameQueue same, new,
          unchanged.trans decoded, same.queue ▸ represents⟩
      · rintro before after frame same more ⟨provided, new, decoded, represents⟩
        exact ⟨provided.of_sameQueue same, new,
          by rw [more, decoded], same.queue ▸ represents⟩
  refine (rule.tryRecv fun frame _ => ?_).weaken fun _ _ ends => ends.elim id id
  rintro world ⟨provided, new, decoded, represents⟩
  obtain ⟨after, returned, represents, same, still⟩ := queueReceived_eq provided represents frame
  rw [returned]
  refine ⟨still, new ++ [frame], ?_, by rwa [List.append_assoc] at represents⟩
  rw [same, decoded, List.append_assoc]

/-- Frames of other channels were put behind `queued` while waiting for `channel`. -/
structure OthersQueued (past queued : List Frame) (channel : UInt16) (extra : List Frame)
    (world : World) : Prop where
  provided : Provided [] world
  frames : ∃ new others, world.decoded = past ++ new ∧ world.queue.Represents (queued ++ others) ∧
    (∀ frame ∈ others, frame.channel ≠ channel) ∧
    ∀ any, ofChannel any new = ofChannel any (others ++ extra)

theorem waitFrameForChannel_frames {past queued : List Frame} {channel : UInt16} {fuel : Nat} :
    Triple (OthersQueued past queued channel []) (waitFrameForChannel channel fuel)
      (fun result world => match result with
        | .ok frame => OthersQueued past queued channel [frame] world ∧
            frame.channel = channel ∧ frame.frameType ≠ amqpFrameHeartbeat
        | .error _ => OthersQueued past queued channel [] world)
      (fun _ => OthersQueued past queued channel []) := by
  induction fuel with
  | zero => exact .throw fun _ holds => holds
  | succ fuel ih =>
      rintro world ⟨provided, new, others, decoded, represents, apart, same⟩
      have start : OnlyBeats [] (past ++ new) world.queue world :=
        ⟨provided, rfl, [], by simp, by simpa using decoded⟩
      have beatsOnly : ∀ after, OnlyBeats [] (past ++ new) world.queue after →
          OthersQueued past queued channel [] after := by
        rintro after ⟨provided, isQueue, beats, areBeats, decoded⟩
        refine ⟨provided, new ++ beats, others, ?_, isQueue ▸ represents, apart, fun any => ?_⟩
        · rw [decoded, List.append_assoc]
        · rw [ofChannel_append, ofChannel_of_beats areBeats, same, List.append_nil]
      have waits : Triple (world = ·) (waitFrameInner amqpTimeInfinite fuel)
          (fun result after =>
            match result with
            | .ok frame => BeatsAndFrame [] (past ++ new) world.queue frame after ∧
                frame.frameType ≠ amqpFrameHeartbeat
            | .error _ => OthersQueued past queued channel [] after)
          (fun _ => OthersQueued past queued channel []) := by
        refine ((waitFrameInner_frames.strengthen ?_).raise fun _ => beatsOnly).weaken ?_
        · rintro _ rfl
          exact start
        · intro result after ends
          cases result with
          | ok frame => exact ends
          | error status => exact beatsOnly after ends
      refine Triple.bind waits (fun result => ?_) rfl
      · cases result with
        | error status => exact .pure fun _ holds => holds
        | ok frame =>
            refine .ite (fun wanted => .pure ?_) fun unwanted => ?_
            · rintro after ⟨⟨provided, isQueue, beats, areBeats, decoded⟩, notBeat⟩
              refine ⟨⟨provided, new ++ beats ++ [frame], others, ?_, isQueue ▸ represents, apart,
                fun any => ?_⟩, wanted.symm, notBeat⟩
              · simp only [decoded, List.append_assoc]
              · simp only [ofChannel_append, ofChannel_of_beats areBeats, same, List.append_nil]
            · rintro after ⟨⟨provided, isQueue, beats, areBeats, decoded⟩, _⟩
              obtain ⟨final, returned, represents, unchanged, still⟩ :=
                amqpQueueFrame_eq provided (isQueue ▸ represents) frame
              rw [bind_of_ok returned]
              refine ih ⟨still, new ++ beats ++ [frame], others ++ [frame], ?_, ?_, ?_, fun any => ?_⟩
              · simp only [unchanged, decoded, List.append_assoc]
              · rwa [List.append_assoc] at represents
              · intro other member
                rcases List.mem_append.mp member with earlier | last
                · exact apart other earlier
                · rw [List.mem_singleton.mp last]
                  exact fun equal => unwanted equal.symm
              · simp only [ofChannel_append, ofChannel_of_beats areBeats, same, List.append_nil]

/-! ## Accounts -/

/-- For every channel, what was handed out and what is queued is what was received. -/
def Conserved (handed queued received : List Frame) : Prop :=
  ∀ channel, ofChannel channel handed ++ ofChannel channel queued = ofChannel channel received

structure Accounted (handed received : List Frame) (world : World) : Prop where
  provided : Provided [] world
  conserved : ∃ queued, world.queue.Represents queued ∧ Conserved handed queued received

/-- The frames decoded between two worlds. -/
def newFrames (before after : World) : List Frame := after.decoded.drop before.decoded.length

theorem newFrames_eq {before after : World} {new : List Frame}
    (decoded : after.decoded = before.decoded ++ new) : newFrames before after = new := by
  unfold newFrames
  rw [decoded, List.drop_left]

section Accounts

variable {handed received : List Frame} {world : World} {fuel : Nat}

/-- How a call that waits for a frame changes the accounts. -/
def WaitAccounts (handed received : List Frame) (world : World) :
    Except Status Frame → World → Prop
  | .ok frame, after => Accounted (handed ++ [frame]) (received ++ newFrames world after) after
  | .error _, after => Accounted handed (received ++ newFrames world after) after

theorem tryRecv_accounts (accounted : Accounted handed received world) :
    Triple (world = ·) (amqpTryRecv fuel)
      (fun _ after => Accounted handed (received ++ newFrames world after) after)
      (fun _ after => Accounted handed (received ++ newFrames world after) after) := by
  obtain ⟨provided, queued, represents, conserved⟩ := accounted
  have accounts : ∀ after, AllQueued world.decoded queued after →
      Accounted handed (received ++ newFrames world after) after := by
    rintro after ⟨provided, new, decoded, represents⟩
    refine ⟨provided, queued ++ new, represents, fun channel => ?_⟩
    rw [newFrames_eq decoded, ofChannel_append, ofChannel_append, ← conserved channel,
      List.append_assoc]
  refine ((tryRecv_frames.strengthen ?_).raise fun _ => accounts).weaken fun _ => accounts
  rintro _ rfl
  exact ⟨provided, [], by simp, by simpa using represents⟩

/-- Nothing but heartbeats was decoded, so that the accounts are the same. -/
theorem OnlyBeats.accounted {after : World} (accounted : Accounted handed received world)
    (beatsOnly : OnlyBeats [] world.decoded world.queue after) :
    Accounted handed (received ++ newFrames world after) after := by
  obtain ⟨_, queued, represents, conserved⟩ := accounted
  obtain ⟨provided, isQueue, beats, areBeats, decoded⟩ := beatsOnly
  refine ⟨provided, queued, isQueue ▸ represents, fun channel => ?_⟩
  rw [newFrames_eq decoded, ofChannel_append, ofChannel_of_beats areBeats, List.append_nil]
  exact conserved channel

/-- A frame taken from the front of the queue, with heartbeats before it at most. -/
theorem accounted_of_front {skipped rest : List Frame} {frame : Frame} {after : World}
    (conserved : Conserved handed (skipped ++ frame :: rest) received)
    (beats : ∀ other ∈ skipped, other.frameType = amqpFrameHeartbeat) (provided : Provided [] after)
    (represents : after.queue.Represents rest) (decoded : after.decoded = world.decoded) :
    Accounted (handed ++ [frame]) (received ++ newFrames world after) after := by
  have none : newFrames world after = [] := newFrames_eq (by rw [decoded, List.append_nil])
  refine ⟨provided, rest, represents, fun channel => ?_⟩
  have before := conserved channel
  rw [ofChannel_append, ofChannel_of_beats beats, List.nil_append, ← List.singleton_append,
    ofChannel_append] at before
  rw [none, List.append_nil, ofChannel_append, List.append_assoc, before]

theorem waitFrameNoblock_accounts (accounted : Accounted handed received world)
    (timeout : Option Timeval) :
    Triple (world = ·) (amqpSimpleWaitFrameNoblock timeout fuel)
      (WaitAccounts handed received world)
      (fun _ after => Accounted handed (received ++ newFrames world after) after) := by
  obtain ⟨provided, queued, represents, conserved⟩ := accounted
  have beatsOnly : ∀ after, Still world after → OnlyBeats [] world.decoded world.queue after :=
    fun after still =>
      ⟨provided.of_still still, still.queue, [], by simp, by rw [still.decoded, List.append_nil]⟩
  have accounts : ∀ after, OnlyBeats [] world.decoded world.queue after →
      Accounted handed (received ++ newFrames world after) after :=
    fun after => OnlyBeats.accounted ⟨provided, queued, represents, conserved⟩
  have timed := @still_of_moves world _ _ ((asks_timeFromNow timeout).mono fun _ _ => still_of_asks)
  refine Triple.bind ((timed.strengthen ?_).raise fun _ after still =>
    accounts after (beatsOnly after still)) fun result => ?_
  · rintro _ rfl
    exact refl_of Still world
  · cases result with
    | error status => exact .pure fun after still => accounts after (beatsOnly after still)
    | ok deadline =>
        refine .get_bind fun between still => ?_
        cases queued with
        | nil =>
            have empty : between.queue.front = none := by
              unfold LinkedQueue.front
              rw [still.queue, represents.first_eq_none.mpr rfl]
              rfl
            rw [empty]
            refine ((waitFrameInner_frames.strengthen ?_).raise fun _ => accounts).weaken
              fun result after ends => ?_
            · rintro _ rfl
              exact beatsOnly between still
            · cases result with
              | error status => exact accounts after ends
              | ok frame =>
                  obtain ⟨⟨provided, isQueue, beats, areBeats, decoded⟩, _⟩ := ends
                  refine ⟨provided, [], isQueue ▸ represents, fun channel => ?_⟩
                  rw [List.append_assoc] at decoded
                  have before := conserved channel
                  rw [ofChannel_nil, List.append_nil] at before
                  rw [newFrames_eq decoded]
                  simp only [ofChannel_append, ofChannel_of_beats areBeats, ofChannel_nil,
                    List.append_nil, List.nil_append, before]
        | cons frame rest =>
            obtain ⟨link, front, isFrame, behind⟩ := represents.front_eq_some
            rw [← still.queue] at front behind
            rw [front]
            rintro _ rfl
            subst isFrame
            exact @accounted_of_front _ _ _ [] _ _ _ conserved (by simp)
              ((provided.of_still still).congr rfl rfl rfl rfl) behind still.decoded

/-- The first frame of a channel is preceded by heartbeats only, so that none of
another channel is dropped. -/
def FirstInQueue (channel : UInt16) (queued : List Frame) : Prop :=
  ∀ skipped frame rest, queued = skipped ++ frame :: rest → frame.channel = channel →
    (∀ other ∈ skipped, other.channel ≠ channel) →
      ∀ other ∈ skipped, other.frameType = amqpFrameHeartbeat

theorem waitFrameOnChannel_accounts (accounted : Accounted handed received world)
    {channel : UInt16} (inOrder : FirstInQueue channel world.queue.values) :
    Triple (world = ·) (amqpSimpleWaitFrameOnChannel channel fuel)
      (WaitAccounts handed received world)
      (fun _ after => Accounted handed (received ++ newFrames world after) after) := by
  obtain ⟨provided, queued, represents, conserved⟩ := accounted
  rw [represents.values_eq] at inOrder
  refine .get_bind ?_
  rintro _ rfl
  cases found : queued.find? fun frame => channel == frame.channel with
  | some frame =>
      obtain ⟨wanted, skipped, rest, rfl, others⟩ := List.find?_eq_some_iff_append.mp found
      have before : ∀ other ∈ skipped, (channel == other.channel) = false :=
        fun other member => by simpa using others other member
      obtain ⟨link, search, isFrame, behind⟩ :=
        represents.find_eq_some before wanted
      have beats := inOrder skipped frame rest rfl (beq_iff_eq.mp wanted).symm fun other member =>
        Ne.symm (beq_eq_false_iff_ne.mp (before other member))
      rw [search]
      rintro _ rfl
      subst isFrame
      exact accounted_of_front conserved beats (provided.congr rfl rfl rfl rfl) behind rfl
  | none =>
      have absent : ∀ other ∈ queued, (channel == other.channel) = false := by
        simpa using List.find?_eq_none.mp found
      rw [represents.find_eq_none absent]
      have accounts : ∀ after, OthersQueued world.decoded queued channel [] after →
          Accounted handed (received ++ newFrames world after) after := by
        rintro after ⟨provided, new, others, decoded, represents, _, same⟩
        refine ⟨provided, queued ++ others, represents, fun any => ?_⟩
        rw [newFrames_eq decoded, ofChannel_append, ofChannel_append, same, List.append_nil,
          ← conserved any, List.append_assoc]
      refine ((waitFrameForChannel_frames.strengthen ?_).raise fun _ => accounts).weaken
        fun result after ends => ?_
      · rintro _ rfl
        exact ⟨provided, [], [], by simp, by simpa using represents, by simp, fun _ => rfl⟩
      · cases result with
        | error status => exact accounts after ends
        | ok frame =>
            obtain ⟨⟨provided, new, others, decoded, represents, apart, same⟩, isChannel, _⟩ := ends
            refine ⟨provided, queued ++ others, represents, fun any => ?_⟩
            rw [newFrames_eq decoded]
            simp only [ofChannel_append, same, ← conserved any]
            -- Only one of the queue and the new frame can have something for a channel.
            by_cases own : any = channel
            · have noneQueued : ofChannel any (queued ++ others) = [] := by
                refine ofChannel_eq_nil fun other member isAny => ?_
                rcases List.mem_append.mp member with earlier | later
                · have other := absent other earlier
                  simp [isAny, own] at other
                · exact absurd (isAny.trans own) (apart other later)
              rw [ofChannel_append, List.append_eq_nil_iff] at noneQueued
              simp only [noneQueued.1, noneQueued.2, List.append_nil, List.nil_append]
            · have noneNew : ofChannel any [frame] = [] := by
                refine ofChannel_eq_nil fun other member isAny => ?_
                rw [List.mem_singleton.mp member, isChannel] at isAny
                exact absurd isAny.symm own
              simp only [noneNew, List.append_nil, List.append_assoc]

end Accounts

/-! ## Runs -/

inductive FrameWait where
  | simple
  | noblock (timeout : Option Timeval)
  | onChannel (channel : UInt16)

def FrameWait.run (fuel : Nat) : FrameWait → Call (Except Status Frame)
  | .simple => amqpSimpleWaitFrame fuel
  | .noblock timeout => amqpSimpleWaitFrameNoblock timeout fuel
  | .onChannel channel => amqpSimpleWaitFrameOnChannel channel fuel

/-- A world, the frames handed to callers and the frames received so far. -/
structure Ledger where
  world : World
  handed : List Frame
  received : List Frame

/-- Why a call has not returned. -/
def stopOf {α : Type} : EStateM.Result Stop World α → Option Stop
  | .ok _ _ => none
  | .error stop _ => some stop

/-- The frame that a call has handed out. -/
def handedBy : EStateM.Result Stop World (Except Status Frame) → List Frame
  | .ok (.ok frame) _ => [frame]
  | _ => []

/-- The ledgers after calls, where memory for the queue does not run out. A frame
passed to `amqp_queue_frame` is one that its caller has received; a put-back undoes
the last hand-out of the frame's channel. -/
inductive FrameRun (begins : World → Prop) (meets : FrameWait → World → Prop) :
    Option Stop → Ledger → Prop where
  | start {world : World} : world.queue = .empty → world.script.links = [] → begins world →
      FrameRun begins meets none ⟨world, [], []⟩
  | tryRecv {world : World} {handed received : List Frame}
      {result : EStateM.Result Stop World (Except Status Unit)} {fuel : Nat} :
      FrameRun begins meets none ⟨world, handed, received⟩ → amqpTryRecv fuel world = result →
      FrameRun begins meets (stopOf result)
        ⟨endState result, handed, received ++ newFrames world (endState result)⟩
  | wait {world : World} {handed received : List Frame} {call : FrameWait}
      {result : EStateM.Result Stop World (Except Status Frame)} {fuel : Nat} :
      FrameRun begins meets none ⟨world, handed, received⟩ → meets call world →
      call.run fuel world = result →
      FrameRun begins meets (stopOf result)
        ⟨endState result, handed ++ handedBy result,
          received ++ newFrames world (endState result)⟩
  | queueFrame {world after : World} {handed received : List Frame} {frame : Frame} :
      FrameRun begins meets none ⟨world, handed, received⟩ →
      amqpQueueFrame frame world = .ok (.ok ()) after →
      FrameRun begins meets none ⟨after, handed, received ++ [frame]⟩
  | putBackFrame {world after : World} {earlier later received : List Frame} {frame : Frame} :
      FrameRun begins meets none ⟨world, earlier ++ frame :: later, received⟩ →
      (∀ other ∈ later, other.channel = frame.channel → other.frameType = amqpFrameHeartbeat) →
      amqpPutBackFrame frame world = .ok (.ok ()) after →
      FrameRun begins meets none ⟨after, earlier ++ later, received⟩

/-- A channel is only waited for if its first queued frame is the first in the queue. -/
def WaitsInOrder : FrameWait → World → Prop
  | .onChannel channel, world => FirstInQueue channel world.queue.values
  | _, _ => True

theorem wait_accounts {handed received : List Frame} {world : World} {call : FrameWait} {fuel : Nat}
    (accounted : Accounted handed received world) (inOrder : WaitsInOrder call world) :
    Triple (world = ·) (call.run fuel) (WaitAccounts handed received world)
      (fun _ after => Accounted handed (received ++ newFrames world after) after) := by
  cases call with
  | simple => exact waitFrameNoblock_accounts accounted none
  | noblock timeout => exact waitFrameNoblock_accounts accounted timeout
  | onChannel channel => exact waitFrameOnChannel_accounts accounted inOrder

/-- A put-back undoes the last hand-out of its channel. -/
theorem Conserved.putBack {earlier later queued received : List Frame} {frame : Frame}
    (conserved : Conserved (earlier ++ frame :: later) queued received)
    (last : ∀ other ∈ later, other.channel = frame.channel →
      other.frameType = amqpFrameHeartbeat) :
    Conserved (earlier ++ later) (frame :: queued) received := by
  intro channel
  have before := conserved channel
  rw [← List.singleton_append (l := later)] at before
  rw [← List.singleton_append (l := queued), ← before]
  simp only [ofChannel_append, List.append_assoc]
  by_cases own : frame.channel = channel
  · have noneLater : ofChannel channel later = [] :=
      ofChannel_eq_nil fun other member same => last other member (same.trans own.symm)
    simp only [noneLater, List.nil_append]
  · have noneBack : ofChannel channel [frame] = [] := by
      refine ofChannel_eq_nil fun other member same => absurd ?_ own
      rwa [List.mem_singleton.mp member] at same
    simp only [noneBack, List.nil_append]

theorem FrameRun.accounted {stop : Option Stop} {ledger : Ledger}
    (run : FrameRun Patient WaitsInOrder stop ledger) :
    Accounted ledger.handed ledger.received ledger.world := by
  induction run with
  | start empty links patient =>
      exact ⟨⟨.inl (.inl patient), links ▸ List.suffix_rfl⟩, [],
        empty ▸ LinkedQueue.represents_empty, fun _ => rfl⟩
  | @tryRecv _ _ _ result fuel _ returned ih =>
      have triple := @tryRecv_accounts _ _ _ fuel ih
      cases result with
      | ok value after => exact triple.ok rfl returned
      | error stop after => exact triple.error rfl returned
  | @wait _ _ _ _ result fuel _ inOrder returned ih =>
      have triple := @wait_accounts _ _ _ _ fuel ih inOrder
      cases result with
      | error stop after =>
          rw [show handedBy _ = [] from rfl, List.append_nil]
          exact triple.error rfl returned
      | ok value after =>
          have accounts := triple.ok rfl returned
          cases value with
          | ok frame => exact accounts
          | error status =>
              rw [show handedBy _ = [] from rfl, List.append_nil]
              exact accounts
  | @queueFrame _ _ _ _ frame _ returned ih =>
      obtain ⟨provided, queued, represents, conserved⟩ := ih
      obtain ⟨_, same, represents, _, still⟩ := amqpQueueFrame_eq provided represents frame
      cases returned.symm.trans same
      refine ⟨still, queued ++ [frame], represents, fun channel => ?_⟩
      rw [ofChannel_append, ofChannel_append, ← conserved channel, List.append_assoc]
  | @putBackFrame _ _ _ _ _ frame _ last returned ih =>
      obtain ⟨provided, queued, represents, conserved⟩ := ih
      obtain ⟨_, same, represents, _, still⟩ := amqpPutBackFrame_eq provided represents frame
      cases returned.symm.trans same
      exact ⟨still, frame :: queued, represents, conserved.putBack last⟩

/-- Frames are conserved in every run in which no channel is waited for past queued
frames of others, and no heartbeat is sent late. -/
theorem frameRun_conserved {stop : Option Stop} {ledger : Ledger}
    (run : FrameRun Patient WaitsInOrder stop ledger) :
    Conserved ledger.handed ledger.world.queue.values ledger.received := by
  obtain ⟨_, queued, represents, conserved⟩ := run.accounted
  rwa [represents.values_eq]

/-- A heartbeat, received by itself. -/
def heartbeatChunk : Chunk := ⟨frameOctets amqpFrameHeartbeat 0 [], by decide, by decide⟩

/-- The broker sends a protocol header, a body frame on each of the channels 1 and 2,
and then a heartbeat. -/
def twoChannelWorld : World :=
  World.new
    { clock := []
      recvs :=
        [.data ⟨protocolName ++ [0, 0, 9, 1] ++ frameOctets amqpFrameBody 1 [17] ++
            frameOctets amqpFrameBody 2 [34], by decide, by decide⟩,
          .data heartbeatChunk]
      sends := []
      recvPolls := []
      sendPolls := []
      closes := []
      links := []
      memory := fun _ => grantingMemory }

/-- After the first chunk. -/
def twoChannelFilled : World := endState (amqpTryRecv 2 twoChannelWorld)

/-- After the second one, with three frames in the queue. -/
def twoChannelQueued : World := endState (amqpTryRecv 6 twoChannelFilled)

theorem twoChannelQueued_run {begins : World → Prop} {meets : FrameWait → World → Prop}
    (start : begins twoChannelWorld) : FrameRun begins meets none ⟨twoChannelQueued, [],
      newFrames twoChannelWorld twoChannelFilled ++ newFrames twoChannelFilled twoChannelQueued⟩ := by
  have filled : stopOf (amqpTryRecv 2 twoChannelWorld) = none := by decide +kernel
  have queued : stopOf (amqpTryRecv 6 twoChannelFilled) = none := by decide +kernel
  have first : FrameRun begins meets none
      ⟨twoChannelFilled, [], newFrames twoChannelWorld twoChannelFilled⟩ :=
    filled ▸ FrameRun.tryRecv (.start rfl rfl start) rfl
  exact queued ▸ FrameRun.tryRecv first rfl

theorem firstInQueue_of_head {channel : UInt16} {queued : List Frame}
    (isFirst : queued.head?.map Frame.channel = some channel) : FirstInQueue channel queued := by
  rintro (_ | ⟨first, skipped⟩) frame rest rfl _ others
  · simp
  · exact absurd (Option.some.inj isFirst) (others first List.mem_cons_self)

/-- The protocol header is handed out, and then the frame of either channel. -/
def headerWait : EStateM.Result Stop World (Except Status Frame) :=
  amqpSimpleWaitFrame 6 twoChannelQueued

def firstWait : EStateM.Result Stop World (Except Status Frame) :=
  amqpSimpleWaitFrameOnChannel 1 6 (endState headerWait)

def secondWait : EStateM.Result Stop World (Except Status Frame) :=
  amqpSimpleWaitFrameOnChannel 2 6 (endState firstWait)

theorem frameRun_conserved_handed_out : ∃ ledger, FrameRun Patient WaitsInOrder none ledger ∧
    ledger.handed.map Frame.channel = [0, 1, 2] ∧ ledger.received.length = 3 ∧
    Conserved ledger.handed ledger.world.queue.values ledger.received := by
  have patient : Patient twoChannelWorld :=
    ⟨List.not_mem_nil, .nil, by decide, fun _ member => absurd member List.not_mem_nil⟩
  have queued := @twoChannelQueued_run _ WaitsInOrder patient
  have inFront : FirstInQueue 1 (endState headerWait).queue.values :=
    firstInQueue_of_head (by decide +kernel)
  have nowInFront : FirstInQueue 2 (endState firstWait).queue.values :=
    firstInQueue_of_head (by decide +kernel)
  have header := @FrameRun.wait _ _ _ _ _ .simple headerWait 6 queued trivial rfl
  rw [show stopOf headerWait = none by decide +kernel] at header
  have first := @FrameRun.wait _ _ _ _ _ (.onChannel 1) firstWait 6 header inFront rfl
  rw [show stopOf firstWait = none by decide +kernel] at first
  have second := @FrameRun.wait _ _ _ _ _ (.onChannel 2) secondWait 6 first nowInFront rfl
  rw [show stopOf secondWait = none by decide +kernel] at second
  exact ⟨_, second, by decide +kernel, by decide +kernel, frameRun_conserved second⟩

/-- Waiting for channel 2 drops the frame of channel 1 from the queue. -/
theorem other_channel_not_conserved : ¬ ∀ stop ledger,
    FrameRun (fun _ => True) (fun _ _ => True) stop ledger →
      Conserved ledger.handed ledger.world.queue.values ledger.received := by
  intro conserved
  have run := @FrameRun.wait _ _ _ _ _ (.onChannel 2) _ 1 (@twoChannelQueued_run (fun _ => True) (fun _ _ => True) trivial) trivial rfl
  have lengths := congrArg List.length (conserved _ _ run 1)
  revert lengths
  decide +kernel

end RabbitmqC
