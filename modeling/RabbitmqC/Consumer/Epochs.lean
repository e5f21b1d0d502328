import RabbitmqC.Connection.HalfRead
import RabbitmqC.Consumer.CallRule
import RabbitmqC.Consumer.Heartbeats

/-!
# Pools and what lives in them

Every channel has a pool, which a release recycles. Links, frame copies, payloads
and the block of a frame that is half read are taken from these pools. A ledger
keeps beside a run which pool each of them was taken from, and how often that pool
had been recycled by then: what is still in use was taken since.
-/

set_option autoImplicit false

namespace RabbitmqC

open Effect

/-! ## The ledger -/

/-- A place in the pool of a channel, taken when the pool had been recycled `epoch` times. -/
structure Stamp where
  pool : UInt16
  epoch : Nat

def World.epoch (world : World) (channel : UInt16) : Nat := world.recycled.count channel

/-- What is taken from the pool of a channel now. -/
def World.stamp (world : World) (channel : UInt16) : Stamp := ⟨channel, world.epoch channel⟩

/-- A queued frame: its link, its copy, and what its payload points to. -/
structure StampedFrame where
  frame : Frame
  link : Stamp
  frameCopy : Stamp
  payload : List Stamp

structure PoolLedger where
  /-- `inbound_buffer`, while a frame is half read. -/
  inbound : Option Stamp
  queue : LinkedQueue StampedFrame

namespace PoolLedger

/-- The block of the frame that a call of `amqp_handle_input` was reading: it was there
before, or it was taken from the pool of the channel in the header buffer. -/
def block (ledger : PoolLedger) (before after : World) : Option Stamp :=
  if before.reader.state = .body then ledger.inbound
  else some (before.stamp after.reader.channel)

def consume (ledger : PoolLedger) (before after : World) : PoolLedger :=
  { ledger with inbound := if after.reader.state = .body then ledger.block before after else none }

/-- A payload lies in the block of its frame, and what was decoded in the pool of the
frame's channel. A protocol header points to nothing. -/
def payload (ledger : PoolLedger) (before after : World) (frame : Frame) : List Stamp :=
  if frame.frameType = amqpPseudoframeProtocolHeader then []
  else (ledger.block before after).toList ++ [before.stamp frame.channel]

end PoolLedger

/-- The link and the frame copy are taken from the pool of the frame's channel. -/
def World.store (world : World) (frame : Frame) (payload : List Stamp) : StampedFrame where
  frame
  link := world.stamp frame.channel
  frameCopy := world.stamp frame.channel
  payload

/-- A frame is put into the queue by one of three functions, and into the ledger
alike. -/
inductive Enqueues (frame : Frame) (stored : StampedFrame) :
    World → LinkedQueue StampedFrame → World → LinkedQueue StampedFrame → Prop where
  | received {before after : World} {queue : LinkedQueue StampedFrame} :
      queueReceived frame before = .ok (.ok ()) after →
      Enqueues frame stored before queue after
        ((queue.create stored).1.append (queue.create stored).2)
  | queued {before after : World} {queue appended : LinkedQueue StampedFrame} :
      amqpQueueFrame frame before = .ok (.ok ()) after →
      (queue.create stored).1.appendAtFirst (queue.create stored).2 = some appended →
      Enqueues frame stored before queue after appended
  | putBack {before after : World} {queue : LinkedQueue StampedFrame} :
      amqpPutBackFrame frame before = .ok (.ok ()) after →
      Enqueues frame stored before queue after
        ((queue.create stored).1.prepend (queue.create stored).2)

/-- The two ways to take a link from the queue. -/
def Found (queue : LinkedQueue StampedFrame) (link : Link StampedFrame) : Prop :=
  queue.front = some link ∨ ∃ channel, queue.find (fun stored => channel == stored.frame.channel)
    queue.reach queue.first = some link

/-- The frame that `consume_one_frame` has returned, with its payload. -/
def handOf (ledger : PoolLedger) (before after : World) :
    Except Status Frame → Option (Frame × List Stamp)
  | .ok frame =>
      if frame.frameType = 0 then none else some (frame, ledger.payload before after frame)
  | .error _ => none

/-- A connection with nothing queued that is not in the middle of a frame. -/
structure Unread (world : World) : Prop where
  queue : world.queue = .empty
  state : world.reader.state ≠ .body
  inbound : world.reader.inbound = .header
  target : headerSize ≤ world.reader.targetSize

/-- Entries were added to the pool table. -/
def Allocates (before after : World) : Prop :=
  ∃ script poolTable, before.script.Uses script ∧
    after = { before with script, reader.poolTable := poolTable }

/-- The steps that library calls are made of, each with what it does to the ledger. A
frame that was decoded or taken is in hand until it is put away. -/
inductive Ledgered : Option (Frame × List Stamp) → World → PoolLedger → Prop where
  | start {world : World} : Unread world → Ledgered none world ⟨none, .empty⟩
  | around {before after : World} {ledger : PoolLedger} :
      Ledgered none before ledger → Around before after → Ledgered none after ledger
  | allocates {before after : World} {ledger : PoolLedger} :
      Ledgered none before ledger → Allocates before after → Ledgered none after ledger
  | consumed {before after : World} {ledger : PoolLedger} {result : Except Status Frame} :
      Ledgered none before ledger → consumeOneFrame before = .ok result after →
      Ledgered (handOf ledger before after result) after (ledger.consume before after)
  | taken {before : World} {ledger : PoolLedger} {link : Link StampedFrame} :
      Ledgered none before ledger → Found ledger.queue link →
      Ledgered (some (link.data.frame, link.data.payload))
        { before with queue := before.queue.startBehind (LinkedQueue.Link.map StampedFrame.frame link) }
        { ledger with queue := ledger.queue.startBehind link }
  | enqueued {before after : World} {ledger : PoolLedger} {frame : Frame} {payload : List Stamp}
      {queue : LinkedQueue StampedFrame} :
      Ledgered (some (frame, payload)) before ledger →
      Enqueues frame (before.store frame payload) before ledger.queue after queue →
      Ledgered none after { ledger with queue }
  | putAway {hand : Option (Frame × List Stamp)} {world : World} {ledger : PoolLedger} :
      Ledgered hand world ledger → Ledgered none world ledger
  | released {before after : World} {ledger : PoolLedger} {channel : UInt16} :
      Ledgered none before ledger →
      amqpMaybeReleaseBuffersOnChannel channel before = .ok () after →
      Ledgered none after ledger

/-! ## What is in use -/

/-- Everything that is in use was taken from its channel's pool since the pool was last
recycled. -/
structure InUse (world : World) (ledger : PoolLedger) : Prop where
  frames : world.queue.values = ledger.queue.values.map StampedFrame.frame
  queued : ∀ stored ∈ ledger.queue.values,
    ∀ stamp ∈ stored.link :: stored.frameCopy :: stored.payload,
      stamp = world.stamp stored.frame.channel
  inbound : world.reader.state = .body →
    ledger.inbound = some (world.stamp world.reader.channel)

/-- What the steps keep: besides the above, the two queues are alike and in order. -/
structure Current (world : World) (ledger : PoolLedger) : Prop where
  bodied : world.reader.Bodied
  queue : world.queue = ledger.queue.map StampedFrame.frame
  stored : ∃ values, ledger.queue.Represents values ∧ ∀ stored ∈ values,
    ∀ stamp ∈ stored.link :: stored.frameCopy :: stored.payload,
      stamp = world.stamp stored.frame.channel
  inbound : world.reader.state = .body →
    ledger.inbound = some (world.stamp world.reader.channel)

theorem Current.inUse {world : World} {ledger : PoolLedger} (current : Current world ledger) :
    InUse world ledger := by
  obtain ⟨values, represents, stamped⟩ := current.stored
  refine ⟨?_, ?_, current.inbound⟩
  · rw [current.queue, LinkedQueue.map_values]
  · rw [represents.values_eq]
    exact stamped

/-- The payload of the frame in hand was taken since its pool was recycled. -/
def HandCurrent (world : World) : Option (Frame × List Stamp) → Prop
  | none => True
  | some (frame, payload) => ∀ stamp ∈ payload, stamp = world.stamp frame.channel

section Steps

variable {before after world : World} {ledger : PoolLedger}

/-- A step that touches none of what a ledger is about. -/
theorem Current.congr (current : Current before ledger) (bodied : after.reader.Bodied)
    (queue : after.queue = before.queue) (recycled : after.recycled = before.recycled)
    (state : after.reader.state = before.reader.state)
    (header : after.reader.headerBuffer = before.reader.headerBuffer) : Current after ledger := by
  have stamps (channel : UInt16) : after.stamp channel = before.stamp channel := by
    unfold World.stamp World.epoch
    rw [recycled]
  refine ⟨bodied, queue.trans current.queue, ?_, ?_⟩
  · obtain ⟨values, represents, stamped⟩ := current.stored
    refine ⟨values, represents, fun stored member stamp part => ?_⟩
    rw [stamps]
    exact stamped stored member stamp part
  · intro inBody
    rw [stamps, Reader.channel, header]
    exact current.inbound (state.symm.trans inBody)

theorem Current.around (current : Current before ledger) (around : Around before after) :
    Current after ledger := by
  obtain ⟨_, _, _, _, _, _, _, _, _, _, _, rfl⟩ := around
  exact current.congr current.bodied rfl rfl rfl rfl

theorem Current.allocates (current : Current before ledger) (allocates : Allocates before after) :
    Current after ledger := by
  obtain ⟨_, poolTable, _, rfl⟩ := allocates
  refine current.congr ?_ rfl rfl rfl rfl
  exact ⟨current.bodied.target, current.bodied.block, current.bodied.unblocked⟩

/-- The block of a frame that is being read is in the pool of its channel. -/
theorem Current.block_eq {handled : Handled} (current : Current before ledger)
    (finishes : Finishes before.reader handled) (reader : after.reader = handled.reader)
    (recycled : after.recycled = before.recycled) :
    ledger.block before after = some (after.stamp after.reader.channel) := by
  unfold PoolLedger.block World.stamp World.epoch
  rw [recycled]
  by_cases inBody : before.reader.state = .body
  · rw [if_pos inBody, current.inbound inBody, Reader.channel, reader, ← finishes.header inBody]
    rfl
  · rw [if_neg inBody]

theorem Current.moves {handled : Handled} (current : Current before ledger)
    (finishes : Finishes before.reader handled) (reader : after.reader = handled.reader)
    (queue : after.queue = before.queue) (recycled : after.recycled = before.recycled) :
    Current after (ledger.consume before after) := by
  obtain ⟨values, represents, stamped⟩ := current.stored
  refine ⟨reader ▸ finishes.bodied, queue.trans current.queue, ⟨values, represents, ?_⟩, ?_⟩
  · intro stored member stamp part
    rw [World.stamp, World.epoch, recycled]
    exact stamped stored member stamp part
  · intro inBody
    show (if after.reader.state = .body then _ else _) = _
    rw [if_pos inBody]
    exact current.block_eq finishes reader recycled

/-- A frame that is finished lies in the pool of its channel. -/
theorem Current.consumed {result : Except Status Frame} (current : Current before ledger)
    (returned : consumeOneFrame before = .ok result after) :
    Current after (ledger.consume before after) ∧
      HandCurrent after (handOf ledger before after result) := by
  have consumed := consumption before
  rw [returned] at consumed
  cases consumed with
  | refused fed =>
      exact ⟨current.moves (amqpHandleInput_finishes current.bodied fed) rfl rfl rfl, trivial⟩
  | @taken reader count frame fed =>
      have finishes := amqpHandleInput_finishes current.bodied fed
      refine ⟨current.moves finishes rfl rfl rfl, ?_⟩
      unfold handOf
      dsimp only
      by_cases ignored : frame.frameType = 0
      · rw [if_pos ignored]
        trivial
      · rw [if_neg ignored]
        intro stamp member
        unfold PoolLedger.payload at member
        split at member
        · cases member
        · rename_i regular
          have channel := (finishes.frame ignored ⟨count, rfl⟩).resolve_left regular
          have isBlock : ledger.block before (before.goPast ⟨reader, .ok count, frame⟩
              (sizeOfInt count)) = _ := current.block_eq finishes rfl rfl
          rw [isBlock] at member
          rcases List.mem_append.mp member with inBlock | decoded
          · rw [List.mem_singleton.mp inBlock, channel]
            rfl
          · rw [List.mem_singleton.mp decoded]
            rfl

theorem Current.taken {link : Link StampedFrame} (current : Current before ledger)
    (found : Found ledger.queue link) :
    Current { before with
        queue := before.queue.startBehind (LinkedQueue.Link.map StampedFrame.frame link) }
      { ledger with queue := ledger.queue.startBehind link } ∧
    HandCurrent before (some (link.data.frame, link.data.payload)) := by
  obtain ⟨values, represents, stamped⟩ := current.stored
  have split : ∃ skipped rest, values = skipped ++ link.data :: rest ∧
      (ledger.queue.startBehind link).Represents rest := by
    rcases found with front | ⟨channel, search⟩
    · obtain ⟨rest, isFront, remains⟩ := represents.split_front front
      exact ⟨[], rest, isFront, remains⟩
    · exact represents.split_find search
  obtain ⟨skipped, rest, rfl, remains⟩ := split
  constructor
  · refine ⟨current.bodied, ?_, ⟨rest, remains, ?_⟩, current.inbound⟩
    · show before.queue.startBehind _ = _
      rw [current.queue, LinkedQueue.map_startBehind]
    · intro stored member
      exact stamped stored (List.mem_append_right _ (List.mem_cons_of_mem _ member))
  · intro stamp member
    refine stamped link.data (by simp) stamp ?_
    exact List.mem_cons_of_mem _ (List.mem_cons_of_mem _ member)

/-- The functions that queue a frame, when they return success. -/
theorem enqueued_eq {frame : Frame} {stored : StampedFrame}
    {queue appended : LinkedQueue StampedFrame} {values : List StampedFrame}
    (same : before.queue = queue.map StampedFrame.frame) (represents : queue.Represents values)
    (isFrame : stored.frame = frame)
    (enqueues : Enqueues frame stored before queue after appended) : ∃ script poolTable,
      after = { before with
        script, reader.poolTable := poolTable, queue := appended.map StampedFrame.frame } := by
  obtain ⟨script, poolTable, stale, _, created⟩ := createLinkForFrame_eq before frame
  have isNew : before.queue.create frame stale =
      ((queue.create stored stale).1.map StampedFrame.frame, (queue.create stored stale).2) := by
    rw [same, ← isFrame]
    exact LinkedQueue.map_create StampedFrame.frame queue stored stale
  refine ⟨script, poolTable, ?_⟩
  cases enqueues with
  | received returned =>
      unfold queueReceived at returned
      rcases created with created | created
      · rw [bind_of_ok created] at returned
        cases returned
      · rw [bind_of_ok created] at returned
        cases returned
        rw [← queue.append_create stored stale, LinkedQueue.map_append]
        simp only [isNew]
  | queued returned appendable =>
      unfold amqpQueueFrame at returned
      rcases created with created | created
      · rw [bind_of_ok created] at returned
        cases returned
      · rw [bind_of_ok created] at returned
        dsimp only at returned
        rw [bind_of_ok (get_run _)] at returned
        dsimp only at returned
        simp only [isNew, LinkedQueue.map_appendAtFirst, represents.appendAtFirst_eq,
          Option.map_some, queue.append_create stored stale] at returned
        cases returned
        rw [represents.appendAtFirst_eq] at appendable
        cases appendable
        rfl
  | putBack returned =>
      unfold amqpPutBackFrame at returned
      rcases created with created | created
      · rw [bind_of_ok created] at returned
        cases returned
      · rw [bind_of_ok created] at returned
        cases returned
        rw [← queue.prepend_create stored stale, LinkedQueue.map_prepend]
        simp only [isNew]

theorem Current.enqueued {frame : Frame} {payload : List Stamp} {queue : LinkedQueue StampedFrame}
    (current : Current before ledger) (hand : HandCurrent before (some (frame, payload)))
    (enqueues : Enqueues frame (before.store frame payload) before ledger.queue after queue) :
    Current after { ledger with queue } := by
  obtain ⟨values, represents, stamped⟩ := current.stored
  have isFrame : (before.store frame payload).frame = frame := rfl
  obtain ⟨script, poolTable, rfl⟩ := enqueued_eq current.queue represents isFrame enqueues
  have new : ∀ stamp ∈ (before.store frame payload).link ::
      (before.store frame payload).frameCopy :: (before.store frame payload).payload,
      stamp = before.stamp frame.channel := by
    intro stamp member
    rcases List.mem_cons.mp member with rfl | later
    · rfl
    · rcases List.mem_cons.mp later with rfl | inPayload
      · rfl
      · exact hand stamp inPayload
  have holds : ∃ ordered, queue.Represents ordered ∧
      ∀ stored ∈ ordered, stored ∈ values ∨ stored = before.store frame payload := by
    cases enqueues with
    | received _ =>
        refine ⟨_, LinkedQueue.represents_append represents, fun stored member => ?_⟩
        simpa using member
    | queued _ appendable =>
        rw [represents.appendAtFirst_eq] at appendable
        cases appendable
        refine ⟨_, LinkedQueue.represents_append represents, fun stored member => ?_⟩
        simpa using member
    | putBack _ =>
        refine ⟨_, LinkedQueue.represents_prepend represents, fun stored member => ?_⟩
        simpa [or_comm] using member
  obtain ⟨ordered, represents, members⟩ := holds
  refine ⟨⟨current.bodied.target, current.bodied.block, current.bodied.unblocked⟩, rfl,
    ⟨ordered, represents, fun stored member => ?_⟩, current.inbound⟩
  rcases members stored member with old | rfl
  · exact stamped stored old
  · exact new

/-- A pool is recycled only when no queued frame of its channel and no frame that is half
read can lie in it. -/
theorem Current.released {channel : UInt16} (current : Current before ledger)
    (returned : amqpMaybeReleaseBuffersOnChannel channel before = .ok () after) :
    Current after ledger := by
  unfold amqpMaybeReleaseBuffersOnChannel at returned
  rw [bind_of_ok (get_run before)] at returned
  split at returned
  · cases returned
    exact current
  · rename_i idle
    cases search : before.queue.find (fun frame => channel == frame.channel) before.queue.reach
        before.queue.first with
    | some link =>
        rw [search] at returned
        cases returned
        exact current
    | none =>
        rw [search] at returned
        dsimp only at returned
        split at returned
        · cases returned
          obtain ⟨values, represents, stamped⟩ := current.stored
          rw [current.queue, LinkedQueue.map_reach, LinkedQueue.map_find, Option.map_eq_none_iff]
            at search
          have others := represents.find_eq_none_iff.mp search
          refine ⟨current.bodied, current.queue, ⟨values, represents, ?_⟩, ?_⟩
          · intro stored member stamp part
            rw [stamped stored member stamp part]
            have other : channel ≠ stored.frame.channel := by simpa using others stored member
            simp only [World.stamp, World.epoch, List.count_append, List.count_singleton,
              beq_iff_eq, if_neg other, Nat.add_zero]
          · intro inBody
            rw [show before.reader.state = .body from inBody] at idle
            exact absurd (by decide) idle
        · cases returned
          exact current

end Steps

/-- Whatever steps a run is made of, what is in use was taken since its pool was recycled. -/
theorem Ledgered.current {hand : Option (Frame × List Stamp)} {world : World}
    {ledger : PoolLedger} (ledgered : Ledgered hand world ledger) :
    Current world ledger ∧ HandCurrent world hand := by
  induction ledgered with
  | start unread =>
      refine ⟨⟨⟨unread.target, fun inBody => absurd inBody unread.state, fun _ _ _ => ?_⟩, ?_,
        ⟨[], LinkedQueue.represents_empty, by simp⟩, fun inBody => absurd inBody unread.state⟩, trivial⟩
      · rw [unread.inbound]
        nofun
      · rw [unread.queue]
        rfl
  | around _ around ih => exact ⟨ih.1.around around, trivial⟩
  | allocates _ allocates ih => exact ⟨ih.1.allocates allocates, trivial⟩
  | consumed _ returned ih => exact ih.1.consumed returned
  | taken _ found ih => exact ih.1.taken found
  | enqueued _ enqueues ih => exact ⟨ih.1.enqueued ih.2 enqueues, trivial⟩
  | putAway _ ih => exact ⟨ih.1, trivial⟩
  | released _ returned ih => exact ⟨ih.1.released returned, trivial⟩

/-! ## Calls are made of these steps -/

/-- There is a ledger, with nothing in hand. -/
def Tracked (world : World) : Prop := ∃ ledger, Ledgered none world ledger

def TrackedHolding (frame : Frame) (world : World) : Prop :=
  ∃ payload ledger, Ledgered (some (frame, payload)) world ledger

/-- How a link is created, with what the ledger does about it. -/
theorem createLinkForFrame_tracked {frame : Frame} {world : World} {payload : List Stamp}
    {ledger : PoolLedger} (holding : Ledgered (some (frame, payload)) world ledger) :
    ∃ script poolTable stale, Tracked { world with script, reader.poolTable := poolTable } ∧
      (amqpCreateLinkForFrame frame world =
          .ok none { world with script, reader.poolTable := poolTable } ∨
        amqpCreateLinkForFrame frame world = .ok (some (world.queue.create frame stale).2)
          { world with
            script, reader.poolTable := poolTable
            queue := (world.queue.create frame stale).1 }) := by
  obtain ⟨script, poolTable, stale, uses, created⟩ := createLinkForFrame_eq world frame
  have allocated := holding.putAway.allocates ⟨script, poolTable, uses, rfl⟩
  exact ⟨script, poolTable, stale, ⟨ledger, allocated⟩, created⟩

theorem queueReceived_tracked (frame : Frame) :
    Triple (TrackedHolding frame) (queueReceived frame) (fun _ => Tracked) (fun _ => Tracked) := by
  rintro world ⟨payload, ledger, holding⟩
  obtain ⟨script, poolTable, stale, short, created | created⟩ := createLinkForFrame_tracked holding
  · have returned : queueReceived frame world = .ok (.error .noMemory) _ := bind_of_ok created
    rw [returned]
    exact short
  · have returned : queueReceived frame world = .ok (.ok ()) _ := bind_of_ok created
    have enqueued := holding.enqueued (.received returned)
    rw [returned]
    exact ⟨_, enqueued⟩

theorem amqpPutBackFrame_tracked (frame : Frame) :
    Triple (TrackedHolding frame) (amqpPutBackFrame frame) (fun _ => Tracked)
      (fun _ => Tracked) := by
  rintro world ⟨payload, ledger, holding⟩
  obtain ⟨script, poolTable, stale, short, created | created⟩ := createLinkForFrame_tracked holding
  · have returned : amqpPutBackFrame frame world = .ok (.error .noMemory) _ := bind_of_ok created
    rw [returned]
    exact short
  · have returned : amqpPutBackFrame frame world = .ok (.ok ()) _ := bind_of_ok created
    have enqueued := holding.enqueued (.putBack returned)
    rw [returned]
    exact ⟨_, enqueued⟩

/-- The queue has a last link whenever it has a first one. -/
theorem amqpQueueFrame_tracked (frame : Frame) :
    Triple (TrackedHolding frame) (amqpQueueFrame frame) (fun _ => Tracked) (fun _ => Tracked) := by
  rintro world ⟨payload, ledger, holding⟩
  have current := holding.current.1
  obtain ⟨values, represents, _⟩ := current.stored
  obtain ⟨script, poolTable, stale, short, created | created⟩ := createLinkForFrame_tracked holding
  · have returned : amqpQueueFrame frame world = .ok (.error .noMemory) _ := bind_of_ok created
    rw [returned]
    exact short
  · have isNew : world.queue.create frame stale =
        ((ledger.queue.create (world.store frame payload) stale).1.map StampedFrame.frame,
          (ledger.queue.create (world.store frame payload) stale).2) := by
      rw [current.queue]
      exact LinkedQueue.map_create StampedFrame.frame ledger.queue (world.store frame payload) stale
    have returned : ∃ after, amqpQueueFrame frame world = .ok (.ok ()) after := by
      unfold amqpQueueFrame
      rw [bind_of_ok created]
      dsimp only
      rw [bind_of_ok (get_run _)]
      dsimp only
      simp only [isNew, LinkedQueue.map_appendAtFirst, represents.appendAtFirst_eq, Option.map_some]
      exact ⟨_, rfl⟩
    obtain ⟨after, returned⟩ := returned
    have enqueued := holding.enqueued (.queued returned represents.appendAtFirst_eq)
    rw [returned]
    exact ⟨_, enqueued⟩

theorem callRule_tracked : CallRule Tracked TrackedHolding where
  putAway := by
    rintro frame world ⟨payload, ledger, holding⟩
    exact ⟨ledger, holding.putAway⟩
  around := by
    rintro before after around ⟨ledger, ledgered⟩
    exact ⟨ledger, ledgered.around around⟩
  consume := by
    rintro world ⟨ledger, ledgered⟩
    cases returned : consumeOneFrame world with
    | error stop after =>
        rw [show after = world from consumeOneFrame_decoded.error rfl returned]
        exact ⟨ledger, ledgered⟩
    | ok result after =>
        have consumed := ledgered.consumed returned
        cases result with
        | error status => exact ⟨_, consumed⟩
        | ok frame =>
            unfold handOf at consumed
            dsimp only at consumed ⊢
            split
            · rename_i ignored
              rw [if_pos ignored] at consumed
              exact ⟨_, consumed⟩
            · rename_i regular
              rw [if_neg regular] at consumed
              exact ⟨_, _, consumed⟩
  queueReceived := queueReceived_tracked
  queueFrame := amqpQueueFrame_tracked
  putBackFrame := amqpPutBackFrame_tracked
  front := by
    rintro world link ⟨ledger, ledgered⟩ front
    rw [ledgered.current.1.queue, LinkedQueue.map_front] at front
    obtain ⟨stored, found, rfl⟩ := Option.map_eq_some_iff.mp front
    exact ⟨_, _, ledgered.taken (.inl found)⟩
  find := by
    rintro world link channel ⟨ledger, ledgered⟩ search
    rw [ledgered.current.1.queue, LinkedQueue.map_reach, LinkedQueue.map_find] at search
    obtain ⟨stored, found, rfl⟩ := Option.map_eq_some_iff.mp search
    exact ⟨_, _, ledgered.taken (.inr ⟨channel, found⟩)⟩
  release channel := by
    rintro world ⟨ledger, ledgered⟩
    cases returned : amqpMaybeReleaseBuffersOnChannel channel world with
    | ok _ after => exact ⟨ledger, ledgered.released returned⟩
    | error stop after =>
        unfold amqpMaybeReleaseBuffersOnChannel at returned
        rw [bind_of_ok (get_run world)] at returned
        split at returned
        · cases returned
        · cases search : world.queue.find (fun frame => channel == frame.channel)
              world.queue.reach world.queue.first with
          | some link =>
              rw [search] at returned
              cases returned
          | none =>
              rw [search] at returned
              dsimp only at returned
              split at returned
              · cases returned
              · cases returned

/-! ## Runs -/

/-- Library calls, and calls that release pools. -/
inductive PoolCall where
  | library (call : LibraryCall)
  | waitFrameOnChannel (channel : UInt16)
  | releaseBuffers
  | maybeReleaseBuffers
  | maybeReleaseBuffersOnChannel (channel : UInt16)

def PoolCall.run (fuel : Nat) : PoolCall → Call Unit
  | .library call => do
      let _ ← call.run fuel
      return
  | .waitFrameOnChannel channel => do
      let _ ← amqpSimpleWaitFrameOnChannel channel fuel
      return
  | .releaseBuffers => amqpReleaseBuffers
  | .maybeReleaseBuffers => amqpMaybeReleaseBuffers
  | .maybeReleaseBuffersOnChannel channel => amqpMaybeReleaseBuffersOnChannel channel

/-- The world after some calls, and whether the last one has returned. -/
inductive PoolRun : Option Stop → World → Prop where
  | start {world : World} : Unread world → PoolRun none world
  | call {world : World} {call : PoolCall} {fuel : Nat} : PoolRun none world →
      PoolRun (stopOf (call.run fuel world)) (endState (call.run fuel world))

theorem LibraryCall.run_tracked (call : LibraryCall) (fuel : Nat) :
    Keeps Tracked (call.run fuel) := by
  have waits {run : Call (Except Status Frame)}
      (ends : Triple Tracked run (Waited Tracked TrackedHolding) (fun _ => Tracked)) :
      Keeps Tracked (frameOf <$> run) :=
    Triple.bind ends fun _ => .pure fun _ waited => callRule_tracked.waited waited
  cases call with
  | basicPublish channel exchange routingKey mandatory immediate properties body =>
      exact Triple.bind (callRule_tracked.basicPublish ..) fun _ => .pure fun _ holds => holds
  | sendFrame frame =>
      exact Triple.bind (callRule_tracked.sendFrameInner ..) fun _ => .pure fun _ holds => holds
  | simpleRpc rpcTimeout channel requestId expectedReplyIds decodedRequestMethod =>
      exact Triple.bind (callRule_tracked.simpleRpc ..) fun _ => .pure fun _ holds => holds
  | simpleWaitFrame => exact waits (callRule_tracked.waitFrameNoblock none)
  | simpleWaitFrameNoblock timeout => exact waits (callRule_tracked.waitFrameNoblock timeout)
  | readMessage allocs channel =>
      exact Triple.bind (callRule_tracked.readMessage ..) fun _ => .pure fun _ holds => holds
  | consumeMessage allocs timeout =>
      exact Triple.bind (callRule_tracked.consumeMessage ..) fun _ => .pure fun _ holds => holds

theorem PoolCall.run_tracked (call : PoolCall) (fuel : Nat) : Keeps Tracked (call.run fuel) := by
  cases call with
  | library call => exact Triple.bind (call.run_tracked fuel) fun _ => .pure fun _ holds => holds
  | waitFrameOnChannel channel =>
      exact Triple.bind (callRule_tracked.waitFrameOnChannel channel) fun _ =>
        .pure fun _ waited => callRule_tracked.waited waited
  | releaseBuffers => exact callRule_tracked.releaseBuffers
  | maybeReleaseBuffers => exact callRule_tracked.maybeReleaseBuffers
  | maybeReleaseBuffersOnChannel channel => exact callRule_tracked.release channel

/-- Every run has a ledger, and whatever ledger is kept, what is in use was taken since its
pool was recycled. -/
theorem poolRun_inUse {stop : Option Stop} {world : World} (run : PoolRun stop world) :
    (∃ ledger, Ledgered none world ledger) ∧
      ∀ ledger, Ledgered none world ledger → InUse world ledger := by
  refine ⟨?_, fun ledger ledgered => ledgered.current.1.inUse⟩
  induction run with
  | start unread => exact ⟨_, .start unread⟩
  | @call world call fuel _ ih =>
      have keeps := call.run_tracked fuel
      cases ran : call.run fuel world with
      | ok _ after => exact keeps.ok ih ran
      | error stop after => exact keeps.error ih ran

/-- The protocol header is queued by a call that waits for a frame on channel 1. -/
theorem poolRun_inUse_replied :
    let result := (PoolCall.waitFrameOnChannel 1).run 6 repliedWorld
    (endState result).queue.values.length = 1 ∧
      ∃ ledger, Ledgered none (endState result) ledger ∧ InUse (endState result) ledger := by
  intro result
  have start : PoolRun none repliedWorld := .start ⟨rfl, nofun, rfl, by decide⟩
  have run := @PoolRun.call _ (.waitFrameOnChannel 1) 6 start
  obtain ⟨⟨ledger, ledgered⟩, inUse⟩ := poolRun_inUse run
  exact ⟨by decide +kernel, ledger, ledgered, inUse ledger ledgered⟩

end RabbitmqC
