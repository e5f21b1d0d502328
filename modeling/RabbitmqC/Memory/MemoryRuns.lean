import RabbitmqC.Memory.Lifetime

/-!
# Runs on connections

Connections share a heap. Calls on them tune them, look their pools up and allocate from these,
until they are destroyed.
-/

set_option autoImplicit false

namespace RabbitmqC

open Effect

/-! ## Calls on a connection -/

instance (arena : Arena) (amount : Nat) : Decidable (arena.Fits amount) :=
  decidable_of_iff (∃ block ∈ arena.pool.allocBlock,
    arena.pool.allocUsed + roundUp amount ≤ arena.pool.pagesize) Iff.rfl

theorem losesPage_iff {arena : Arena} {amount : Nat} : arena.LosesPage amount ↔
    amount ≠ 0 ∧ roundUp amount ≤ arena.pool.pagesize ∧ ¬arena.Fits amount ∧
      arena.pool.pages.length ≤ arena.pool.nextPage ∧ arena.Grants arena.pool.pagesize ∧
        ¬arena.Records :=
  ⟨fun ⟨nonzero, small, full, last, grants, unrecorded⟩ =>
    ⟨nonzero, small, full, last, grants, unrecorded⟩,
    fun ⟨nonzero, small, full, last, grants, unrecorded⟩ =>
      ⟨nonzero, small, full, last, grants, unrecorded⟩⟩

instance (arena : Arena) (amount : Nat) : Decidable (arena.LosesPage amount) :=
  decidable_of_iff _ losesPage_iff.symm

/-- The page that a call on a pool loses. -/
def ArenaCall.losses (before : Arena) : ArenaCall → List Nat
  | .alloc amount => if before.LosesPage amount then [before.heap.sizes.length] else []
  | .recycle | .empty => []

theorem losses_alloc (before : Arena) (amount : Nat) : (ArenaCall.alloc amount).losses before =
    if before.LosesPage amount then [before.heap.sizes.length] else [] := rfl

/-- A pool of a connection. -/
inductive PoolPlace where
  | properties
  | channel (channel : UInt16)

/-- `amqp_handle_input` leaves the connection in a state; what it allocates are calls on pools. -/
inductive ConnectionCall where
  | handleInput (state : ReaderState)
  | tune (frameMax : Int32) (timed : Except Status Unit)
  | channelPool (channel : UInt16)
  | pool (place : PoolPlace) (call : ArenaCall)

namespace ConnectionMemory

def poolAt (connection : ConnectionMemory) : PoolPlace → Option Pool
  | .properties => some connection.propertiesPool
  | .channel channel => (connection.amqpGetChannelPool channel).map PoolEntry.pool

def putPool (connection : ConnectionMemory) (pool : Pool) : PoolPlace → ConnectionMemory
  | .properties => { connection with propertiesPool := pool }
  | .channel channel =>
      { connection with poolTable := setPool channel pool connection.poolTable }

end ConnectionMemory

namespace ConnectionCall

def perform (layout : Layout) (connection : ConnectionMemory) (heap : Heap) :
    ConnectionCall → Except Failure (ConnectionMemory × Heap)
  | .handleInput state => .ok ({ connection with state }, heap)
  | .tune frameMax timed => (·.2) <$> connection.amqpTuneConnection frameMax timed heap
  | .channelPool channel => .ok (connection.amqpGetOrCreateChannelPool layout channel heap).2
  | .pool place call =>
      match connection.poolAt place with
      | none => .ok (connection, heap)
      | some chosen =>
          match call.perform [] ⟨heap, chosen, []⟩ with
          | .ok _ arena => .ok (connection.putPool arena.pool place, arena.heap)
          | .error failure _ => .error failure

/-- The blocks that a call loses. -/
def losses (connection : ConnectionMemory) (heap : Heap) : ConnectionCall → List Nat
  | .handleInput _ | .tune _ _ | .channelPool _ => []
  | .pool place call =>
      match connection.poolAt place with
      | none => []
      | some chosen => call.losses ⟨heap, chosen, []⟩

/-- A connection is tuned between two frames only, and not to frames of no octets. -/
def Proper (connection : ConnectionMemory) : ConnectionCall → Prop
  | .tune frameMax _ => connection.state = .idle ∧ frameMax ≠ 0
  | .handleInput _ | .channelPool _ | .pool _ _ => True

end ConnectionCall

section Calling

variable {before : Arena} {connection : ConnectionMemory} {layout : Layout} {heap : Heap}
  {rest lost : Multiset Nat} {pool : Pool} {place : PoolPlace}

/-- What a call on a pool leaves. -/
inductive PoolEnds (before : Arena) (rest lost : Multiset Nat) :
    EStateM.Result Failure Arena (List Grant) → Prop where
  | done {live : List Grant} {after : Arena} : after.Sound → before.heap.Later after.heap →
      after.heap.Balanced (after.pool.blocks + rest) lost →
      PoolEnds before rest lost (.ok live after)

theorem later_of_poolAnswer {amount : Nat} {answer : Option Region} {after : Arena}
    (answers : PoolAnswer amount before (.ok answer after)) :
    after.Sound ∧ before.heap.Later after.heap := by
  cases answers with
  | granted occupies => exact ⟨occupies.sound, occupies.next, occupies.allocs⟩
  | refused occupies => exact ⟨occupies.sound, occupies.next, occupies.allocs⟩

theorem poolEnds_perform (sound : before.Sound)
    (balanced : before.heap.Balanced (before.pool.blocks + rest) lost) (call : ArenaCall) :
    PoolEnds before rest (call.losses before + lost) (call.perform [] before) := by
  cases call with
  | alloc amount =>
      obtain ⟨answer, after, returned, step⟩ := amqpPoolAlloc_step sound amount
      have answers := amqpPoolAlloc_spec sound amount
      rw [returned] at answers
      obtain ⟨stillSound, later⟩ := later_of_poolAnswer answers
      have ends : after.heap.Balanced (after.pool.blocks + rest)
          ((ArenaCall.alloc amount).losses before + lost) := by
        rw [losses_alloc]
        by_cases loses : before.LosesPage amount
        · rw [if_pos loses]
          exact balanced.losesPage step loses
        · rw [if_neg loses]
          simpa using balanced.poolStep step loses
      have performed := show (ArenaCall.alloc amount).perform [] before = _ from bind_of_ok returned
      rw [performed]
      cases answer with
      | none => exact .done stillSound later ends
      | some region => exact .done stillSound later ends
  | recycle =>
      have kept : before.recycled.heap.Balanced (before.recycled.pool.blocks + rest)
          (([] : List Nat) + lost) := by
        rw [Multiset.coe_nil, zero_add]
        exact balanced.recycled
      exact .done sound.recycledToo (.release before.heap before.pool.largeBlocks) kept
  | empty =>
      exact .done before.sound_emptied
        ((Heap.Later.release before.heap before.pool.largeBlocks).trans
          (.release _ before.pool.pages))
        (by simpa [ArenaCall.losses, Arena.emptied, Arena.recycled, Pool.blocks]
          using balanced.emptied)

namespace ConnectionMemory

/-- A pool in its place. -/
structure Holds (connection : ConnectionMemory) (place : PoolPlace) (pool : Pool) : Prop where
  isPool : pool ∈ connection.pools
  held : ∃ rest, connection.held = pool.blocks + rest ∧
    ∀ new, (connection.putPool new place).held = new.blocks + rest
  others : ∀ new, ∀ other ∈ (connection.putPool new place).pools,
    other = new ∨ other ∈ connection.pools

theorem holds_of_poolAt (isPool : connection.poolAt place = some pool) :
    connection.Holds place pool := by
  cases place with
  | properties =>
      cases isPool
      refine ⟨List.mem_cons_self, ⟨connection.block ::ₘ connection.outboundBytes ::ₘ
        connection.sockInboundBytes ::ₘ heldBy connection.poolTable, ?_, fun new => ?_⟩,
        fun new other member => ?_⟩
      · simp only [held, ← Multiset.singleton_add]
        abel
      · simp only [putPool, held, ← Multiset.singleton_add]
        abel
      · cases member with
        | head => exact .inl rfl
        | tail _ inTable => exact .inr (List.mem_cons_of_mem _ inTable)
  | channel channel =>
      obtain ⟨entry, found, rfl⟩ := Option.map_eq_some_iff.mp isPool
      obtain ⟨front, back, split, sets⟩ := setPool_of_find found
      refine ⟨?_, ⟨connection.block ::ₘ connection.outboundBytes ::ₘ
        connection.sockInboundBytes ::ₘ (connection.propertiesPool.blocks + (heldBy front +
          entry.block ::ₘ heldBy back)), ?_, fun new => ?_⟩, fun new other member => ?_⟩
      · simp [pools, split]
      · simp only [held, split, heldBy_append, heldBy_cons, PoolEntry.held,
          ← Multiset.singleton_add]
        abel
      · simp only [putPool, sets, held, heldBy_append, heldBy_cons, PoolEntry.held,
          ← Multiset.singleton_add]
        abel
      · simp only [putPool, pools, sets] at member
        simp only [pools, split, List.map_append, List.map_cons, List.mem_cons,
          List.mem_append] at member ⊢
        tauto

end ConnectionMemory

/-- What a call on a connection leaves. -/
inductive CallEnds (heap : Heap) (rest lost : Multiset Nat) :
    Except Failure (ConnectionMemory × Heap) → Prop where
  | done {connection : ConnectionMemory} {after : Heap} : heap.Later after →
      connection.SoundIn after → after.Balanced (connection.held + rest) lost →
      CallEnds heap rest lost (.ok (connection, after))

theorem callEnds_tune {frameMax : Int32} {timed : Except Status Unit} (some : frameMax ≠ 0)
    (sound : connection.SoundIn heap) (balanced : heap.Balanced (connection.held + rest) lost) :
    CallEnds heap rest lost (.ok (connection.tuneIdle frameMax timed heap).2) := by
  unfold ConnectionMemory.tuneIdle
  cases timed with
  | error status => exact .done (.refl heap) sound balanced
  | ok _ =>
      dsimp only
      have later := Heap.Later.resize heap connection.outboundBytes (sizeOfInt frameMax.toInt)
      cases resized : heap.resize connection.outboundBytes (sizeOfInt frameMax.toInt) with
      | mk answer last =>
          rw [resized] at later
          cases answer with
          | none =>
              exact .done later (sound.later later)
                (balanced.resize_none (sizeOfInt_ne_zero some) resized)
          | some outboundBytes =>
              refine .done later (sound.later later) ?_
              unfold ConnectionMemory.held at balanced ⊢
              simp only [Multiset.cons_add] at balanced ⊢
              rw [Multiset.cons_swap] at balanced ⊢
              exact balanced.resize_some resized

theorem callEnds_channelPool {channel : UInt16} (sound : connection.SoundIn heap)
    (balanced : heap.Balanced (connection.held + rest) lost) : CallEnds heap rest lost
      (.ok (connection.amqpGetOrCreateChannelPool layout channel heap).2) := by
  unfold ConnectionMemory.amqpGetOrCreateChannelPool
  cases connection.amqpGetChannelPool channel with
  | some entry => exact .done (.refl heap) sound balanced
  | none =>
      dsimp only
      have later := Heap.Later.request heap layout.poolTableEntry
      cases requested : heap.request layout.poolTableEntry with
      | mk answer last =>
          rw [requested] at later
          cases answer with
          | none =>
              exact .done later (sound.later later) (balanced.request_none requested)
          | some block =>
              refine .done later ?_ ?_
              · intro pool member
                cases member with
                | head => exact sound.later later _ List.mem_cons_self
                | tail _ inTable =>
                    cases inTable with
                    | head => exact sound_initAmqpPool _
                    | tail _ older => exact sound.later later _ (List.mem_cons_of_mem _ older)
              · have more := balanced.request_some requested
                simp only [ConnectionMemory.held, ConnectionMemory.heldBy_cons, PoolEntry.held,
                  initAmqpPool, Pool.blocks, List.append_nil, Multiset.coe_nil,
                  ← Multiset.singleton_add] at more ⊢
                convert more using 1
                abel

theorem callEnds_perform {call : ConnectionCall} (proper : call.Proper connection)
    (sound : connection.SoundIn heap) (balanced : heap.Balanced (connection.held + rest) lost) :
    CallEnds heap rest (call.losses connection heap + lost) (call.perform layout connection heap) := by
  cases call with
  | handleInput state =>
      have sameBlocks : ({ connection with state } : ConnectionMemory).held = connection.held := rfl
      refine .done (.refl heap) sound ?_
      simpa [ConnectionCall.losses, sameBlocks] using balanced
  | tune frameMax timed =>
      have ends := @callEnds_tune _ _ _ _ frameMax timed proper.2 sound balanced
      rw [ConnectionCall.perform, ConnectionMemory.amqpTuneConnection_of_idle proper.1]
      simpa [ConnectionCall.losses] using ends
  | channelPool channel =>
      simpa [ConnectionCall.perform, ConnectionCall.losses]
        using callEnds_channelPool sound balanced
  | pool place call =>
      rw [ConnectionCall.perform, ConnectionCall.losses]
      cases isPool : connection.poolAt place with
      | none => exact .done (.refl heap) sound (by simpa using balanced)
      | some pool =>
          dsimp only
          obtain ⟨isPool, ⟨others, isHeld, nowHeld⟩, members⟩ :=
            ConnectionMemory.holds_of_poolAt isPool
          have isBalanced : heap.Balanced (pool.blocks + (others + rest)) lost := by
            rwa [← add_assoc, ← isHeld]
          have ends := @poolEnds_perform ⟨heap, pool, []⟩ _ _ (sound pool isPool) isBalanced call
          cases performed : call.perform [] ⟨heap, pool, []⟩ with
          | error failure arena =>
              rw [performed] at ends
              cases ends
          | ok live arena =>
              rw [performed] at ends
              cases ends with
              | done stillSound later after =>
                  refine .done later ?_ ?_
                  · intro other member
                    cases members arena.pool other member with
                    | inl isNew =>
                        rw [isNew]
                        exact ⟨stillSound.used, stillSound.pages, stillSound.nodup,
                          stillSound.current⟩
                    | inr older => exact sound.later later other older
                  · rwa [nowHeld, add_assoc]

end Calling

/-! ## Runs -/

/-- The heap and the connections that there are, by their handles. A handle is `none` once its
connection was destroyed. -/
structure Estate where
  heap : Heap
  connections : List (Option ConnectionMemory)

inductive MemoryEvent where
  | newConnection
  | destroyConnection (handle : Nat)
  | call (handle : Nat) (call : ConnectionCall)

/-- The blocks of some connections. -/
def heldAll (connections : List (Option ConnectionMemory)) : Multiset Nat :=
  (connections.map fun connection => connection.elim 0 ConnectionMemory.held).sum

def Estate.held (estate : Estate) : Multiset Nat := heldAll estate.connections

def Estate.At (estate : Estate) (handle : Nat) (connection : ConnectionMemory) : Prop :=
  estate.connections[handle]? = some (some connection)

namespace MemoryEvent

def perform (layout : Layout) (estate : Estate) : MemoryEvent → Except Failure Estate
  | .newConnection =>
      match ConnectionMemory.amqpNewConnection layout estate.heap with
      | (none, heap) => .ok { estate with heap }
      | (some connection, heap) => .ok ⟨heap, estate.connections ++ [some connection]⟩
  | .destroyConnection handle =>
      match estate.connections[handle]? with
      | some (some connection) =>
          .ok ⟨connection.amqpDestroyConnection estate.heap, estate.connections.set handle none⟩
      | _ => .ok estate
  | .call handle request =>
      match estate.connections[handle]? with
      | some (some connection) =>
          match request.perform layout connection estate.heap with
          | .ok (connection, heap) =>
              .ok ⟨heap, estate.connections.set handle (some connection)⟩
          | .error failure => .error failure
      | _ => .ok estate

/-- The blocks that an event loses. -/
def losses (layout : Layout) (estate : Estate) : MemoryEvent → List Nat
  | .newConnection => ConnectionMemory.outboundLost layout estate.heap
  | .destroyConnection _ => []
  | .call handle request =>
      match estate.connections[handle]? with
      | some (some connection) => request.losses connection estate.heap
      | _ => []

/-- A handle is used while its connection is there. -/
def Allowed (estate : Estate) : MemoryEvent → Prop
  | .newConnection => True
  | .destroyConnection handle => ∃ connection, estate.At handle connection
  | .call handle request => ∃ connection, estate.At handle connection ∧ request.Proper connection

end MemoryEvent

/-- The state after allowed events, and what they have lost. -/
inductive MemoryRun (layout : Layout) (allocs : List Bool) : Estate → List Nat → Prop where
  | start : MemoryRun layout allocs ⟨⟨[], [], allocs⟩, []⟩ []
  | step {estate after : Estate} {event : MemoryEvent} {lost : List Nat} :
      MemoryRun layout allocs estate lost → event.Allowed estate →
      event.perform layout estate = .ok after →
      MemoryRun layout allocs after (event.losses layout estate ++ lost)

section Running

variable {layout : Layout} {allocs : List Bool} {estate after : Estate} {event : MemoryEvent}
  {lost : List Nat} {handle : Nat} {connection : ConnectionMemory}
  {connections : List (Option ConnectionMemory)} {heap : Heap}

@[simp] theorem heldAll_nil : heldAll [] = 0 := rfl

@[simp] theorem heldAll_cons (first : Option ConnectionMemory)
    (connections : List (Option ConnectionMemory)) :
    heldAll (first :: connections) = first.elim 0 ConnectionMemory.held + heldAll connections := by
  simp [heldAll]

theorem heldAll_append (front back : List (Option ConnectionMemory)) :
    heldAll (front ++ back) = heldAll front + heldAll back := by
  simp [heldAll]

/-- The blocks of the other connections stay. -/
theorem heldAll_set (found : connections[handle]? = some (some connection)) :
    ∃ rest, heldAll connections = connection.held + rest ∧
      ∀ new, heldAll (connections.set handle new) = new.elim 0 ConnectionMemory.held + rest := by
  induction connections generalizing handle with
  | nil => cases found
  | cons first connections ih =>
      cases handle with
      | zero =>
          cases found
          exact ⟨heldAll connections, heldAll_cons _ _, fun new => heldAll_cons _ _⟩
      | succ handle =>
          obtain ⟨rest, isHeld, sets⟩ := ih found
          refine ⟨first.elim 0 ConnectionMemory.held + rest, ?_, fun new => ?_⟩
          · rw [heldAll_cons, isHeld, add_left_comm]
          · rw [List.set_cons_succ, heldAll_cons, sets, add_left_comm]

/-- All blocks are accounted for, and the pools of all connections are sound. -/
structure Estate.Kept (estate : Estate) (allocs : List Bool) (lost : List Nat) : Prop where
  balanced : estate.heap.Balanced estate.held lost
  sound : ∀ connection, some connection ∈ estate.connections → connection.SoundIn estate.heap
  allocs : estate.heap.allocs ⊆ allocs

theorem kept_start : Estate.Kept ⟨⟨[], [], allocs⟩, []⟩ allocs [] where
  balanced := rfl
  sound _ member := by cases member
  allocs := List.Subset.refl _

theorem Estate.Kept.sound_at (kept : estate.Kept allocs lost) (found : estate.At handle connection) :
    connection.SoundIn estate.heap :=
  kept.sound connection (List.mem_of_getElem? found)

/-- The connections that an event is not about stay sound. -/
theorem Estate.Kept.sound_set {new : Option ConnectionMemory} (kept : estate.Kept allocs lost)
    (later : estate.heap.Later heap) (sound : ∀ connection, new = some connection →
      connection.SoundIn heap) (connection : ConnectionMemory)
    (member : some connection ∈ estate.connections.set handle new) : connection.SoundIn heap := by
  cases List.mem_or_eq_of_mem_set member with
  | inl older => exact (kept.sound connection older).later later
  | inr isNew => exact sound connection isNew.symm

/-- What an event leads to. -/
inductive EventEnds (allocs : List Bool) (lost : List Nat) : Except Failure Estate → Prop where
  | done {estate : Estate} : estate.Kept allocs lost → EventEnds allocs lost (.ok estate)

theorem eventEnds_newConnection (kept : estate.Kept allocs lost) :
    EventEnds allocs (MemoryEvent.newConnection.losses layout estate ++ lost)
      (MemoryEvent.newConnection.perform layout estate) := by
  rw [MemoryEvent.losses, MemoryEvent.perform]
  have makes := @ConnectionMemory.makes_amqpNewConnection layout _ _ _ kept.balanced
  cases made : ConnectionMemory.amqpNewConnection layout estate.heap with
  | mk answer heap =>
      rw [made] at makes
      cases makes with
      | failed later balanced =>
          refine @EventEnds.done _ _ { estate with heap } ⟨?_, fun connection member => ?_,
            List.Subset.trans later.allocs kept.allocs⟩
          · rwa [← Multiset.coe_add]
          · exact (kept.sound connection member).later later
      | @made connection _ later balanced pools =>
          refine @EventEnds.done _ _ ⟨heap, estate.connections ++ [some connection]⟩
            ⟨?_, fun other member => ?_, List.Subset.trans later.allocs kept.allocs⟩
          · rw [← Multiset.coe_add]
            unfold Estate.held at balanced ⊢
            rw [heldAll_append, add_comm]
            simpa using balanced
          · cases List.mem_append.mp member with
            | inl older => exact (kept.sound other older).later later
            | inr isNew =>
                cases List.mem_singleton.mp isNew
                intro pool member
                rw [pools, List.mem_singleton] at member
                rw [member]
                exact sound_initAmqpPool 512

theorem eventEnds_destroyConnection (kept : estate.Kept allocs lost)
    (found : estate.At handle connection) :
    EventEnds allocs ((MemoryEvent.destroyConnection handle).losses layout estate ++ lost)
      ((MemoryEvent.destroyConnection handle).perform layout estate) := by
  obtain ⟨rest, isHeld, sets⟩ := heldAll_set found
  obtain ⟨sizes, sameAllocs⟩ :=
    ConnectionMemory.amqpDestroyConnection_heap connection estate.heap
  have later : estate.heap.Later (connection.amqpDestroyConnection estate.heap) :=
    ⟨sizes ▸ Nat.le_refl _, sameAllocs ▸ List.Subset.refl _⟩
  rw [MemoryEvent.losses, MemoryEvent.perform, show estate.connections[handle]? = _ from found]
  refine .done ⟨?_, ?_, List.Subset.trans later.allocs kept.allocs⟩
  · have balanced := kept.balanced
    unfold Estate.held at balanced ⊢
    rw [isHeld] at balanced
    rw [sets, Option.elim_none, zero_add]
    exact ConnectionMemory.amqpDestroyConnection_balanced balanced
  · exact kept.sound_set later fun _ isNone => by cases isNone

theorem eventEnds_call {call : ConnectionCall} (kept : estate.Kept allocs lost)
    (proper : call.Proper connection) (found : estate.At handle connection) :
    EventEnds allocs ((MemoryEvent.call handle call).losses layout estate ++ lost)
      ((MemoryEvent.call handle call).perform layout estate) := by
  obtain ⟨rest, isHeld, sets⟩ := heldAll_set found
  have balanced := kept.balanced
  unfold Estate.held at balanced
  rw [isHeld] at balanced
  have ends := @callEnds_perform _ layout _ _ _ _ proper (kept.sound_at found) balanced
  rw [MemoryEvent.losses, MemoryEvent.perform, show estate.connections[handle]? = _ from found]
  dsimp only
  cases performed : call.perform layout connection estate.heap with
  | error failure =>
      rw [performed] at ends
      cases ends
  | ok answer =>
      rw [performed] at ends
      cases ends with
      | @done now heap later sound after =>
          refine .done ⟨?_, ?_, List.Subset.trans later.allocs kept.allocs⟩
          · unfold Estate.held
            rw [← Multiset.coe_add, sets]
            exact after
          · exact kept.sound_set later fun _ isNow => by
              cases isNow
              exact sound

theorem eventEnds_perform (kept : estate.Kept allocs lost) (allowed : event.Allowed estate) :
    EventEnds allocs (event.losses layout estate ++ lost) (event.perform layout estate) := by
  cases event with
  | newConnection => exact eventEnds_newConnection kept
  | destroyConnection handle =>
      obtain ⟨connection, found⟩ := allowed
      exact eventEnds_destroyConnection kept found
  | call handle call =>
      obtain ⟨connection, found, proper⟩ := allowed
      exact eventEnds_call kept proper found

theorem kept_of_memoryRun (run : MemoryRun layout allocs estate lost) :
    estate.Kept allocs lost := by
  induction run with
  | start => exact kept_start
  | step run allowed performed ih =>
      have ends := @eventEnds_perform layout _ _ _ _ ih allowed
      rw [performed] at ends
      cases ends with
      | done kept => exact kept

/-- Nothing is freed twice, or while a connection refers to it. -/
theorem freed_of_memoryRun (run : MemoryRun layout allocs estate lost) :
    estate.heap.freed.Nodup ∧ ∀ block ∈ estate.held, block ∉ estate.heap.freed := by
  have balanced := (kept_of_memoryRun run).balanced
  have once := (Multiset.nodup_add.mp balanced.nodup).1
  exact ⟨Multiset.coe_nodup.mp (Multiset.nodup_add.mp once).1,
    fun block isHeld => balanced.not_freed isHeld⟩

theorem ArenaCall.losses_of_granted {before : Arena} (granted : false ∉ before.heap.allocs)
    (call : ArenaCall) : call.losses before = [] := by
  cases call with
  | alloc amount =>
      rw [losses_alloc, if_neg]
      intro loses
      refine loses.unrecorded ?_
      unfold Arena.Records
      cases isRest : before.heap.allocs.tail with
      | nil => rfl
      | cons outcome rest =>
          cases outcome with
          | true => rfl
          | false =>
              have inTail : false ∈ before.heap.allocs.tail := by
                rw [isRest]
                exact List.mem_cons_self
              exact absurd (List.mem_of_mem_tail inTail) granted
  | recycle | empty => rfl

theorem MemoryEvent.losses_of_granted (granted : false ∉ estate.heap.allocs)
    (event : MemoryEvent) : event.losses layout estate = [] := by
  cases event with
  | newConnection => exact ConnectionMemory.outboundLost_of_granted granted
  | destroyConnection handle => rfl
  | call handle call =>
      rw [MemoryEvent.losses]
      cases estate.connections[handle]? with
      | none => rfl
      | some entry =>
          cases entry with
          | none => rfl
          | some connection =>
              cases call with
              | handleInput state => rfl
              | tune frameMax timed => rfl
              | channelPool channel => rfl
              | pool place call =>
                  show ConnectionCall.losses _ _ _ = _
                  rw [ConnectionCall.losses]
                  cases connection.poolAt place with
                  | none => rfl
                  | some chosen => exact call.losses_of_granted granted

/-- In every run, each block that was obtained is either freed or referred to by one connection
or lost, and this once; nothing is lost as long as there is memory, and no event aborts. -/
theorem memoryRun_balanced (run : MemoryRun layout allocs estate lost) :
    estate.heap.Balanced estate.held lost ∧ (false ∉ allocs → lost = []) ∧
      ∀ event : MemoryEvent, event.Allowed estate →
        ∃ after, event.perform layout estate = .ok after := by
  have kept := kept_of_memoryRun run
  refine ⟨kept.balanced, fun granted => ?_, fun event allowed => ?_⟩
  · clear kept
    induction run with
    | start => rfl
    | @step estate after event lost run allowed performed ih =>
        have still : false ∉ estate.heap.allocs :=
          fun member => granted ((kept_of_memoryRun run).allocs member)
        rw [event.losses_of_granted still, ih]
        rfl
  · have ends := @eventEnds_perform layout _ _ _ _ kept allowed
    cases performed : event.perform layout estate with
    | ok after => exact ⟨after, rfl⟩
    | error failure =>
        rw [performed] at ends
        cases ends

/-- The inbound buffer is refused to a first connection; a second one has read a frame and is
tuned, and a method on channel 1 is decoded. -/
def usedEstate : Estate where
  heap := ⟨[256, 65536, 256, 65536, 131072, 4096, 64, 4096], [0, 3], []⟩
  connections := [some ⟨2, .idle, 4096, 5, 4, initAmqpPool 512,
    [⟨6, 1, ⟨4096, [7], [], 1, some 7, 8⟩⟩]⟩]

theorem memoryRun_usedEstate : MemoryRun ⟨256, 64⟩ [true, true, false] usedEstate [1] := by
  have refused := @MemoryRun.step ⟨256, 64⟩ [true, true, false] _ _ .newConnection _ .start
    trivial rfl
  have made := @MemoryRun.step _ _ _ _ .newConnection _ refused trivial rfl
  have read := @MemoryRun.step _ _ _ _ (.call 0 (.handleInput .idle)) _ made
    ⟨_, rfl, trivial⟩ rfl
  have tuned := @MemoryRun.step _ _ _ _ (.call 0 (.tune 4096 (.ok ()))) _ read
    ⟨_, rfl, rfl, by decide⟩ rfl
  have entered := @MemoryRun.step _ _ _ _ (.call 0 (.channelPool 1)) _ tuned ⟨_, rfl, trivial⟩ rfl
  exact @MemoryRun.step _ _ _ _ (.call 0 (.pool (.channel 1) (.alloc 8))) _ entered
    ⟨_, rfl, trivial⟩ rfl

theorem memoryRun_balanced_used : usedEstate.heap.Balanced usedEstate.held [1] ∧
    ∃ after, (MemoryEvent.destroyConnection 0).perform ⟨256, 64⟩ usedEstate = .ok after :=
  have balanced := memoryRun_balanced memoryRun_usedEstate
  ⟨balanced.1, balanced.2.2 _ ⟨_, rfl⟩⟩

end Running

end RabbitmqC
