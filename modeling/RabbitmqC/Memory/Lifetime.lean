import Mathlib.Algebra.Order.Group.Multiset
import Mathlib.Data.Multiset.Range
import Mathlib.Tactic.Abel
import RabbitmqC.Login.Tuning
import RabbitmqC.Memory.PoolRuns
import RabbitmqC.Memory.PoolTable

/-!
# The memory of connections

What `amqp_new_connection` and the calls on a connection request, and what
`amqp_destroy_connection` frees. A block is freed, is referred to, or is lost in one of two
ways: the outbound buffer when the inbound one cannot be obtained, and a page that its pool
cannot record. The arrays in which a pool lists its blocks are no blocks of their own here.
-/

set_option autoImplicit false

namespace RabbitmqC

open Effect

/-! ## Blocks of a heap -/

/-- `malloc` and `calloc`. -/
def Heap.request (heap : Heap) (size : Nat) : Option Nat × Heap :=
  if size ≥ 2 ^ 63 then
    (none, heap)
  else if heap.allocs.headD true then
    (some heap.sizes.length,
      { heap with sizes := heap.sizes ++ [size], allocs := heap.allocs.tail })
  else
    (none, { heap with allocs := heap.allocs.tail })

def Heap.release (heap : Heap) (blocks : List Nat) : Heap :=
  { heap with freed := heap.freed ++ blocks }

/-- `realloc` of a block. With a size of zero it only frees. -/
def Heap.resize (heap : Heap) (block size : Nat) : Option Nat × Heap :=
  if size = 0 then
    (none, heap.release [block])
  else
    match heap.request size with
    | (none, heap) => (none, heap)
    | (some larger, heap) => (some larger, heap.release [block])

/-- The requests of a pool are these. -/
theorem requestBlock_eq_request (size : Nat) (arena : Arena) :
    requestBlock size arena =
      .ok (arena.heap.request size).1 { arena with heap := (arena.heap.request size).2 } := by
  unfold requestBlock Heap.request
  by_cases large : size ≥ 2 ^ 63
  · rw [if_pos large, if_pos large]
    rfl
  · rw [if_neg large, if_neg large, bind_of_ok (requestGranted_run arena)]
    cases arena.heap.allocs.headD true <;> rfl

theorem Heap.eq_of_request_none {heap after : Heap} {size : Nat}
    (refused : heap.request size = (none, after)) :
    after.sizes = heap.sizes ∧ after.freed = heap.freed := by
  unfold Heap.request at refused
  split at refused
  · cases refused
    exact ⟨rfl, rfl⟩
  · split at refused
    · cases refused
    · cases refused
      exact ⟨rfl, rfl⟩

theorem Heap.eq_of_request_some {heap after : Heap} {size block : Nat}
    (granted : heap.request size = (some block, after)) :
    block = heap.sizes.length ∧ size < 2 ^ 63 ∧ after.sizes = heap.sizes ++ [size] ∧
      after.freed = heap.freed := by
  unfold Heap.request at granted
  split at granted
  · cases granted
  · next small =>
      split at granted
      · cases granted
        exact ⟨rfl, Nat.not_le.mp small, rfl, rfl⟩
      · cases granted

/-- Every block that was obtained is freed or held or lost, and this once. -/
def Heap.Balanced (heap : Heap) (held lost : Multiset Nat) : Prop :=
  (heap.freed : Multiset Nat) + held + lost = Multiset.range heap.sizes.length

namespace Heap.Balanced

variable {heap after : Heap} {held lost : Multiset Nat} {block size : Nat} {blocks : List Nat}

theorem request_none (balanced : heap.Balanced held lost)
    (refused : heap.request size = (none, after)) : after.Balanced held lost := by
  obtain ⟨sizes, freed⟩ := eq_of_request_none refused
  unfold Heap.Balanced at *
  rw [sizes, freed, balanced]

theorem request_some (balanced : heap.Balanced held lost)
    (granted : heap.request size = (some block, after)) :
    after.Balanced (block ::ₘ held) lost := by
  obtain ⟨rfl, _, sizes, freed⟩ := eq_of_request_some granted
  unfold Heap.Balanced at *
  rw [sizes, freed, List.length_append, List.length_singleton, Multiset.range_succ, ← balanced,
    ← Multiset.singleton_add, ← Multiset.singleton_add]
  abel

theorem release (balanced : heap.Balanced (blocks + held) lost) :
    (heap.release blocks).Balanced held lost := by
  unfold Heap.Balanced Heap.release at *
  rw [← balanced, ← Multiset.coe_add]
  abel

theorem release_one (balanced : heap.Balanced (block ::ₘ held) lost) :
    (heap.release [block]).Balanced held lost := by
  apply release
  rwa [Multiset.coe_singleton, Multiset.singleton_add]

theorem resize_none (balanced : heap.Balanced held lost) (some : size ≠ 0)
    (refused : heap.resize block size = (none, after)) : after.Balanced held lost := by
  unfold Heap.resize at refused
  rw [if_neg some] at refused
  cases requested : heap.request size with
  | mk answer middle =>
      rw [requested] at refused
      cases answer with
      | none =>
          cases refused
          exact balanced.request_none requested
      | some larger => cases refused

theorem resize_some {larger : Nat} (balanced : heap.Balanced (block ::ₘ held) lost)
    (granted : heap.resize block size = (some larger, after)) :
    after.Balanced (larger ::ₘ held) lost := by
  unfold Heap.resize at granted
  split at granted
  · cases granted
  · cases requested : heap.request size with
    | mk answer middle =>
        rw [requested] at granted
        cases answer with
        | none => cases granted
        | some new =>
            cases granted
            have both := balanced.request_some requested
            rw [Multiset.cons_swap] at both
            exact both.release_one

/-- A block that is no longer referred to is lost. -/
theorem forget (balanced : heap.Balanced (block ::ₘ held) lost) :
    heap.Balanced held (block ::ₘ lost) := by
  unfold Heap.Balanced at *
  rw [← balanced, ← Multiset.singleton_add, ← Multiset.singleton_add]
  abel

theorem nodup (balanced : heap.Balanced held lost) :
    ((heap.freed : Multiset Nat) + held + lost).Nodup := by
  rw [balanced]
  exact Multiset.nodup_range _

theorem lt_of_held (balanced : heap.Balanced held lost) (isHeld : block ∈ held) :
    block < heap.sizes.length := by
  rw [← Multiset.mem_range, ← balanced]
  simp [isHeld]

theorem lt_of_freed (balanced : heap.Balanced held lost) (isFreed : block ∈ heap.freed) :
    block < heap.sizes.length := by
  rw [← Multiset.mem_range, ← balanced]
  simp [isFreed]

theorem not_freed (balanced : heap.Balanced held lost) (isHeld : block ∈ held) :
    block ∉ heap.freed := by
  intro isFreed
  have apart := (Multiset.nodup_add.mp (Multiset.nodup_add.mp balanced.nodup).1).2.2
  exact Multiset.disjoint_left.mp apart (Multiset.mem_coe.mpr isFreed) isHeld

end Heap.Balanced

/-- A heap after requests and calls of `free`. -/
structure Heap.Later (heap after : Heap) : Prop where
  sizes : heap.sizes.length ≤ after.sizes.length
  allocs : after.allocs ⊆ heap.allocs

namespace Heap.Later

variable {heap middle after : Heap} {size block : Nat} {blocks : List Nat}

theorem refl (heap : Heap) : heap.Later heap := ⟨Nat.le_refl _, List.Subset.refl _⟩

theorem trans (first : heap.Later middle) (second : middle.Later after) : heap.Later after :=
  ⟨first.sizes.trans second.sizes, List.Subset.trans second.allocs first.allocs⟩

theorem release (heap : Heap) (blocks : List Nat) : heap.Later (heap.release blocks) :=
  ⟨Nat.le_refl _, List.Subset.refl _⟩

theorem request (heap : Heap) (size : Nat) : heap.Later (heap.request size).2 := by
  unfold Heap.request
  split
  · exact refl heap
  · split
    · exact ⟨by simp, (List.tail_sublist _).subset⟩
    · exact ⟨Nat.le_refl _, (List.tail_sublist _).subset⟩

theorem resize (heap : Heap) (block size : Nat) : heap.Later (heap.resize block size).2 := by
  unfold Heap.resize
  split
  · exact release heap [block]
  · have later := request heap size
    cases requested : heap.request size with
    | mk answer middle =>
        rw [requested] at later
        cases answer with
        | none => exact later
        | some larger => exact later.trans (release middle [block])

end Heap.Later

/-- A request of less than half of the address space fails for want of memory. -/
theorem Heap.false_mem_of_request {heap after : Heap} {size : Nat} (small : size < 2 ^ 63)
    (refused : heap.request size = (none, after)) : false ∈ heap.allocs := by
  unfold Heap.request at refused
  rw [if_neg (Nat.not_le.mpr small)] at refused
  cases isNext : heap.allocs with
  | nil =>
      rw [isNext] at refused
      cases refused
  | cons outcome rest =>
      cases outcome with
      | false => exact List.mem_cons_self
      | true =>
          rw [isNext] at refused
          cases refused

/-! ## Pools -/

section Pools

variable {before after : Arena} {amount : Nat} {answer : Option Region} {held lost : Multiset Nat}

/-- A page is lost in no other way than this. -/
theorem PoolStep.of_losesPage (step : PoolStep amount before answer after)
    (loses : before.LosesPage amount) : ∃ rest, after =
      before.withNewPage before.pool.pages before.pool.nextPage before.pool.allocUsed rest := by
  cases step with
  | nothing zero => exact absurd zero loses.some
  | refused large | large large | lost large => exact absurd loses.small (Nat.not_le.mpr large)
  | current isCurrent room => exact absurd ⟨_, isCurrent, room⟩ loses.full
  | nextPage found _ =>
      obtain ⟨inside, _⟩ := List.getElem?_eq_some_iff.mp found
      exact absurd loses.last (Nat.not_le.mpr inside)
  | newPage _ _ recorded => exact absurd recorded loses.unrecorded
  | noPage refused => exact absurd loses.grants refused
  | @losesPage rest _ => exact ⟨rest, rfl⟩

theorem Heap.Balanced.poolStep (balanced : before.heap.Balanced (before.pool.blocks + held) lost)
    (step : PoolStep amount before answer after) (keeps : ¬before.LosesPage amount) :
    after.heap.Balanced (after.pool.blocks + held) lost := by
  unfold Heap.Balanced at *
  cases step with
  | nothing | refused | current | nextPage | noPage => exact balanced
  | large =>
      simp only [Arena.withLarge, Arena.withBlock, Pool.blocks, List.length_append,
        List.length_singleton, Multiset.range_succ, ← balanced, ← Multiset.coe_add,
        ← Multiset.singleton_add, Multiset.coe_singleton]
      abel
  | lost =>
      simp only [Arena.withLost, Arena.withBlock, List.length_append, List.length_singleton,
        Multiset.range_succ, ← balanced, ← Multiset.coe_add, ← Multiset.singleton_add,
        Multiset.coe_singleton]
      abel
  | newPage =>
      simp only [Arena.withNewPage, Arena.withBlock, Pool.blocks, List.length_append,
        List.length_singleton, Multiset.range_succ, ← balanced, ← Multiset.coe_add,
        ← Multiset.singleton_add, Multiset.coe_singleton]
      abel
  | losesPage loses => exact absurd loses keeps

theorem Heap.Balanced.losesPage (balanced : before.heap.Balanced (before.pool.blocks + held) lost)
    (step : PoolStep amount before answer after) (loses : before.LosesPage amount) :
    after.heap.Balanced (after.pool.blocks + held) (before.heap.sizes.length ::ₘ lost) := by
  obtain ⟨rest, rfl⟩ := step.of_losesPage loses
  unfold Heap.Balanced at *
  simp only [Arena.withNewPage, Arena.withBlock, Pool.blocks, List.length_append,
    List.length_singleton, Multiset.range_succ, ← balanced, ← Multiset.singleton_add]
  abel

theorem Heap.Balanced.recycled (balanced : before.heap.Balanced (before.pool.blocks + held) lost) :
    before.recycled.heap.Balanced (before.recycled.pool.blocks + held) lost := by
  unfold Heap.Balanced at *
  simp only [Arena.recycled, Pool.blocks, ← balanced, ← Multiset.coe_add, List.append_nil]
  abel

theorem Arena.Sound.recycledToo (sound : before.Sound) : before.recycled.Sound where
  used := Nat.zero_le _
  pages := sound.pages
  nodup := sound.nodup
  current _ isCurrent := by cases isCurrent

theorem Arena.sound_emptied (arena : Arena) : arena.emptied.Sound where
  used := Nat.zero_le _
  pages _ member := by cases member
  nodup := List.nodup_nil
  current _ isCurrent := by cases isCurrent

theorem Heap.Balanced.emptied (balanced : before.heap.Balanced (before.pool.blocks + held) lost) :
    before.emptied.heap.Balanced held lost := by
  unfold Heap.Balanced at *
  simp only [Arena.emptied, Arena.recycled, Pool.blocks, ← balanced, ← Multiset.coe_add]
  abel

end Pools

/-! ## The functions -/

/-- `sizeof` of `struct amqp_connection_state_t_` and of `amqp_pool_table_entry_t`. -/
structure Layout where
  connectionState : Nat
  poolTableEntry : Nat

/-- An entry of `pool_table` in its block. -/
structure PoolEntry where
  block : Nat
  channel : UInt16
  pool : Pool

theorem sizeOfInt_ne_zero {frameMax : Int32} (some : frameMax ≠ 0) :
    sizeOfInt frameMax.toInt ≠ 0 := by
  have above := frameMax.le_toInt
  have below := frameMax.toInt_lt
  have nonzero : frameMax.toInt ≠ 0 := by
    rw [← Int32.toInt_zero]
    exact fun same => some (Int32.toInt_inj.mp same)
  unfold sizeOfInt
  omega

/-- What a connection refers to, but for its socket. The entries of the pools are in one list,
since the lists that they are in make no difference to their memory. -/
structure ConnectionMemory where
  block : Nat
  state : ReaderState
  frameMax : Int32
  outboundBytes : Nat
  sockInboundBytes : Nat
  propertiesPool : Pool
  poolTable : List PoolEntry

namespace ConnectionMemory

def amqpInitialFramePoolPageSize : Nat := 65536
def amqpInitialInboundSockBufferSize : Nat := 131072

/-- `amqp_new_connection`. Its call of `amqp_tune_connection` needs no time, and resizes a null
pointer; the state is still idle then. -/
def amqpNewConnection (layout : Layout) (heap : Heap) : Option ConnectionMemory × Heap :=
  match heap.request layout.connectionState with
  | (none, heap) => (none, heap)
  | (some block, heap) =>
      match heap.request amqpInitialFramePoolPageSize with
      | (none, heap) => (none, heap.release [block])
      | (some outboundBytes, heap) =>
          match heap.request amqpInitialInboundSockBufferSize with
          | (none, heap) => (none, heap.release [block])
          | (some sockInboundBytes, heap) =>
              (some ⟨block, .initial, 65536, outboundBytes, sockInboundBytes, initAmqpPool 512, []⟩,
                heap)

/-- What `amqp_tune_connection` does in an idle connection. -/
def tuneIdle (frameMax : Int32) (timed : Except Status Unit) (connection : ConnectionMemory)
    (heap : Heap) : Except Status Unit × ConnectionMemory × Heap :=
  let connection := { connection with frameMax }
  match timed with
  | .error status => (.error status, connection, heap)
  | .ok () =>
      match heap.resize connection.outboundBytes (sizeOfInt frameMax.toInt) with
      | (none, heap) => (.error .noMemory, connection, heap)
      | (some outboundBytes, heap) => (.ok (), { connection with outboundBytes }, heap)

/-- `amqp_tune_connection`, given how the setting of its deadlines turns out. -/
def amqpTuneConnection (frameMax : Int32) (timed : Except Status Unit)
    (connection : ConnectionMemory) (heap : Heap) :
    Except Failure (Except Status Unit × ConnectionMemory × Heap) :=
  if connection.state ≠ .idle then
    .error (.fault .abort)
  else
    .ok (connection.tuneIdle frameMax timed heap)

theorem amqpTuneConnection_of_idle {connection : ConnectionMemory} (idle : connection.state = .idle)
    (frameMax : Int32) (timed : Except Status Unit) (heap : Heap) :
    connection.amqpTuneConnection frameMax timed heap =
      .ok (connection.tuneIdle frameMax timed heap) :=
  if_neg (not_not_intro idle)

/-- `amqp_get_channel_pool`. -/
def amqpGetChannelPool (channel : UInt16) (connection : ConnectionMemory) : Option PoolEntry :=
  connection.poolTable.find? fun entry => entry.channel == channel

/-- `amqp_get_or_create_channel_pool`: whether there is a pool. -/
def amqpGetOrCreateChannelPool (layout : Layout) (channel : UInt16)
    (connection : ConnectionMemory) (heap : Heap) : Bool × ConnectionMemory × Heap :=
  match connection.amqpGetChannelPool channel with
  | some _ => (true, connection, heap)
  | none =>
      match heap.request layout.poolTableEntry with
      | (none, heap) => (false, connection, heap)
      | (some block, heap) =>
          let pool := initAmqpPool (sizeOfInt connection.frameMax.toInt)
          (true, { connection with poolTable := ⟨block, channel, pool⟩ :: connection.poolTable },
            heap)

/-- The first entry of a channel has another pool. -/
def setPool (channel : UInt16) (pool : Pool) : List PoolEntry → List PoolEntry
  | [] => []
  | entry :: entries =>
      if entry.channel = channel then { entry with pool } :: entries
      else entry :: setPool channel pool entries

/-- `empty_amqp_pool` on a pool of the connection. -/
def emptyPool (heap : Heap) (pool : Pool) : Heap :=
  (endState (emptyAmqpPool ⟨heap, pool, []⟩)).heap

/-- `amqp_destroy_connection`, but for the socket. -/
def amqpDestroyConnection (connection : ConnectionMemory) (heap : Heap) : Heap :=
  let heap := connection.poolTable.foldl
    (fun heap entry => (emptyPool heap entry.pool).release [entry.block]) heap
  let heap := heap.release [connection.outboundBytes]
  let heap := heap.release [connection.sockInboundBytes]
  let heap := emptyPool heap connection.propertiesPool
  heap.release [connection.block]

end ConnectionMemory

/-! ## What a connection refers to -/

def PoolEntry.held (entry : PoolEntry) : Multiset Nat := entry.block ::ₘ entry.pool.blocks

namespace ConnectionMemory

/-- The blocks of the entries. -/
def heldBy (entries : List PoolEntry) : Multiset Nat := (entries.map PoolEntry.held).sum

/-- The blocks of the connection. -/
def held (connection : ConnectionMemory) : Multiset Nat :=
  connection.block ::ₘ connection.outboundBytes ::ₘ connection.sockInboundBytes ::ₘ
    (connection.propertiesPool.blocks + heldBy connection.poolTable)

def pools (connection : ConnectionMemory) : List Pool :=
  connection.propertiesPool :: connection.poolTable.map PoolEntry.pool

/-- The pools are sound in the heap. -/
def SoundIn (connection : ConnectionMemory) (heap : Heap) : Prop :=
  ∀ pool ∈ connection.pools, Arena.Sound ⟨heap, pool, []⟩

section Holding

variable {connection : ConnectionMemory} {layout : Layout} {heap after : Heap}
  {rest lost : Multiset Nat} {channel : UInt16} {entries : List PoolEntry} {entry : PoolEntry}

@[simp] theorem heldBy_nil : heldBy [] = 0 := rfl

@[simp] theorem heldBy_cons (entry : PoolEntry) (entries : List PoolEntry) :
    heldBy (entry :: entries) = entry.held + heldBy entries := by
  simp [heldBy]

theorem heldBy_append (front back : List PoolEntry) :
    heldBy (front ++ back) = heldBy front + heldBy back := by
  simp [heldBy]

theorem SoundIn.later (sound : connection.SoundIn heap) (later : heap.Later after) :
    connection.SoundIn after := by
  intro pool member
  obtain ⟨used, pages, nodup, current⟩ := sound pool member
  have has {block size : Nat} (earlier : heap.Has block size) : after.Has block size :=
    ⟨Nat.lt_of_lt_of_le earlier.1 later.sizes, earlier.2⟩
  exact ⟨used, fun block member => has (pages block member), nodup,
    fun block isCurrent => ⟨has (current block isCurrent).1, (current block isCurrent).2⟩⟩

/-- The pool of a channel is changed in its place. -/
theorem setPool_of_find (found : entries.find? (fun entry => entry.channel == channel) = some entry) :
    ∃ front back, entries = front ++ entry :: back ∧
      ∀ pool, setPool channel pool entries = front ++ { entry with pool } :: back := by
  induction entries with
  | nil => cases found
  | cons first entries ih =>
      by_cases same : first.channel = channel
      · have isFirst : some first = some entry := by
          rw [← found, List.find?_cons_of_pos]
          exact beq_iff_eq.mpr same
        cases isFirst
        exact ⟨[], entries, rfl, fun pool => if_pos same⟩
      · rw [List.find?_cons_of_neg (by simpa using same)] at found
        obtain ⟨front, back, split, sets⟩ := ih found
        refine ⟨first :: front, back, by rw [split]; rfl, fun pool => ?_⟩
        rw [setPool, if_neg same, sets]
        rfl

/-- The outbound buffer that `amqp_new_connection` does not free when it fails. -/
def outboundLost (layout : Layout) (heap : Heap) : List Nat :=
  match heap.request layout.connectionState with
  | (none, _) => []
  | (some _, heap) =>
      match heap.request amqpInitialFramePoolPageSize with
      | (none, _) => []
      | (some outboundBytes, heap) =>
          match heap.request amqpInitialInboundSockBufferSize with
          | (none, _) => [outboundBytes]
          | (some _, _) => []

/-- What `amqp_new_connection` returns. -/
inductive Makes (heap : Heap) (rest lost : Multiset Nat) :
    Option ConnectionMemory × Heap → Prop where
  | made {connection : ConnectionMemory} {after : Heap} : heap.Later after →
      after.Balanced (connection.held + rest) lost → connection.pools = [initAmqpPool 512] →
      Makes heap rest lost (some connection, after)
  | failed {after : Heap} : heap.Later after → after.Balanced rest lost →
      Makes heap rest lost (none, after)

theorem makes_amqpNewConnection (balanced : heap.Balanced rest lost) :
    Makes heap rest (outboundLost layout heap + lost) (amqpNewConnection layout heap) := by
  unfold amqpNewConnection outboundLost
  have later := Heap.Later.request heap layout.connectionState
  cases first : heap.request layout.connectionState with
  | mk answer second =>
      rw [first] at later
      cases answer with
      | none => exact .failed later (by simpa using balanced.request_none first)
      | some block =>
          have hasBlock := balanced.request_some first
          dsimp only
          replace later := later.trans (.request second amqpInitialFramePoolPageSize)
          cases tuned : second.request amqpInitialFramePoolPageSize with
          | mk answer third =>
              rw [tuned] at later
              cases answer with
              | none =>
                  exact .failed (later.trans (.release third _))
                    (by simpa using (hasBlock.request_none tuned).release_one)
              | some outboundBytes =>
                  have hasOutbound := hasBlock.request_some tuned
                  dsimp only
                  replace later := later.trans (.request third amqpInitialInboundSockBufferSize)
                  cases received : third.request amqpInitialInboundSockBufferSize with
                  | mk answer last =>
                      rw [received] at later
                      cases answer with
                      | none =>
                          have forgotten := (hasOutbound.request_none received).forget
                          exact .failed (later.trans (.release last _))
                            (by simpa using forgotten.release_one)
                      | some sockInboundBytes =>
                          have hasAll := hasOutbound.request_some received
                          refine .made later ?_ rfl
                          simp only [held, heldBy_nil, initAmqpPool, Pool.blocks, List.append_nil,
                            Multiset.coe_nil, ← Multiset.singleton_add] at hasAll ⊢
                          convert hasAll using 1
                          · abel
                          · simp

/-- With memory, nothing is lost. -/
theorem outboundLost_of_granted (granted : false ∉ heap.allocs) : outboundLost layout heap = [] := by
  unfold outboundLost
  have later := Heap.Later.request heap layout.connectionState
  cases first : heap.request layout.connectionState with
  | mk answer second =>
      rw [first] at later
      cases answer with
      | none => rfl
      | some block =>
          dsimp only
          replace later := later.trans (.request second amqpInitialFramePoolPageSize)
          cases tuned : second.request amqpInitialFramePoolPageSize with
          | mk answer third =>
              rw [tuned] at later
              cases answer with
              | none => rfl
              | some outboundBytes =>
                  dsimp only
                  cases received : third.request amqpInitialInboundSockBufferSize with
                  | mk answer last =>
                      cases answer with
                      | none =>
                          have refused := Heap.false_mem_of_request (by decide) received
                          exact absurd (later.allocs refused) granted
                      | some sockInboundBytes => rfl

/-- All that a connection refers to is freed with it. -/
theorem freed_amqpDestroyConnection (connection : ConnectionMemory) (heap : Heap) :
    ((amqpDestroyConnection connection heap).freed : Multiset Nat) =
      heap.freed + connection.held := by
  have entries (entries : List PoolEntry) (heap : Heap) :
      ((entries.foldl (fun heap entry => (emptyPool heap entry.pool).release [entry.block])
        heap).freed : Multiset Nat) = heap.freed + heldBy entries := by
    induction entries generalizing heap with
    | nil => simp
    | cons entry entries ih =>
        rw [List.foldl_cons, ih]
        have emptied : ((emptyPool heap entry.pool).release [entry.block]).freed =
          heap.freed ++ entry.pool.largeBlocks ++ entry.pool.pages ++ [entry.block] := rfl
        simp only [emptied, heldBy_cons, PoolEntry.held, Pool.blocks, ← Multiset.coe_add,
          ← Multiset.singleton_add, Multiset.coe_singleton]
        abel
  have freed : (amqpDestroyConnection connection heap).freed =
      (connection.poolTable.foldl
        (fun heap entry => (emptyPool heap entry.pool).release [entry.block]) heap).freed ++
          [connection.outboundBytes] ++ [connection.sockInboundBytes] ++
          connection.propertiesPool.largeBlocks ++ connection.propertiesPool.pages ++
          [connection.block] := rfl
  simp only [freed, ← Multiset.coe_add, entries, held, Pool.blocks, ← Multiset.singleton_add,
    Multiset.coe_singleton]
  abel

theorem amqpDestroyConnection_heap (connection : ConnectionMemory) (heap : Heap) :
    (amqpDestroyConnection connection heap).sizes = heap.sizes ∧
      (amqpDestroyConnection connection heap).allocs = heap.allocs := by
  have entries (entries : List PoolEntry) (heap : Heap) :
      (entries.foldl (fun heap entry => (emptyPool heap entry.pool).release [entry.block])
        heap).sizes = heap.sizes ∧
      (entries.foldl (fun heap entry => (emptyPool heap entry.pool).release [entry.block])
        heap).allocs = heap.allocs := by
    induction entries generalizing heap with
    | nil => exact ⟨rfl, rfl⟩
    | cons entry entries ih => exact ih _
  exact entries connection.poolTable heap

theorem amqpDestroyConnection_balanced (balanced : heap.Balanced (connection.held + rest) lost) :
    (amqpDestroyConnection connection heap).Balanced rest lost := by
  unfold Heap.Balanced at *
  rw [freed_amqpDestroyConnection, (amqpDestroyConnection_heap connection heap).1, ← balanced]
  abel

/-- Tuning to frames of no octets frees the outbound buffer and keeps it, and
`amqp_destroy_connection` frees it again. -/
theorem amqpTuneConnection_zero_frees_twice {connection : ConnectionMemory}
    (idle : connection.state = .idle) (heap : Heap) :
    ∃ after tuned,
      amqpTuneConnection 0 (.ok ()) connection heap = .ok (.error .noMemory, tuned, after) ∧
      ¬(amqpDestroyConnection tuned after).freed.Nodup := by
  refine ⟨heap.release [connection.outboundBytes], { connection with frameMax := 0 },
    amqpTuneConnection_of_idle idle 0 _ heap, ?_⟩
  intro nodup
  rw [← Multiset.coe_nodup, freed_amqpDestroyConnection] at nodup
  have apart := (Multiset.nodup_add.mp nodup).2.2
  have freed : connection.outboundBytes ∈
      ((heap.release [connection.outboundBytes]).freed : Multiset Nat) := by
    simp [Heap.release]
  exact Multiset.disjoint_left.mp apart freed (by simp [held])

theorem isSome_amqpGetChannelPool (connection : ConnectionMemory) (channel : UInt16) :
    (connection.amqpGetChannelPool channel).isSome ↔
      channel ∈ connection.poolTable.map PoolEntry.channel := by
  unfold amqpGetChannelPool
  rw [List.find?_isSome]
  simp

end Holding

/-! ## The other models of these functions -/

/-- What the outbound buffer points to. -/
def outboundBlock (connection : ConnectionMemory) (heap : Heap) : Tuning.Block :=
  if connection.outboundBytes ∈ heap.freed then .freed
  else .live (heap.sizes.getD connection.outboundBytes 0)

/-- What `realloc` does for a size. -/
def reallocAnswer (heap : Heap) (size : Nat) : Tuning.Realloc :=
  if size = 0 then .freed else if (heap.request size).1.isSome then .granted else .refused

/-- How both deadlines turn out. -/
def timersOf (arguments : Tuning.Arguments) (before : Tuning.Connection) : Except Status Unit :=
  match (Tuning.sendTimer arguments before).2 with
  | .error status => .error status
  | .ok () => (Tuning.recvTimer arguments before).2

/-- The outbound buffer of the one model is that of the other. -/
theorem amqpTuneConnection_agrees {connection : ConnectionMemory} {heap : Heap}
    {rest lost : Multiset Nat} {arguments : Tuning.Arguments} {before : Tuning.Connection}
    (balanced : heap.Balanced (connection.held + rest) lost)
    (idle : connection.state = .idle) (same : before.outbound = connection.outboundBlock heap)
    (answers : arguments.realloc = reallocAnswer heap arguments.size) :
    ∃ status after tuned last,
      Tuning.amqpTuneConnection arguments before = .ok status after ∧
      connection.amqpTuneConnection arguments.frameMax (timersOf arguments before) heap =
        .ok (status, tuned, last) ∧
      after.outbound = tuned.outboundBlock last ∧ after.frameMax = tuned.frameMax := by
  have isHeld : connection.outboundBytes ∈ connection.held + rest := by simp [held]
  have notFreed := balanced.not_freed isHeld
  have isLive : connection.outboundBlock heap =
      .live (heap.sizes.getD connection.outboundBytes 0) := if_neg notFreed
  rw [isLive] at same
  simp only [amqpTuneConnection_of_idle idle, Except.ok.injEq]
  unfold timersOf tuneIdle
  cases sends : (Tuning.sendTimer arguments before).2 with
  | error status =>
      exact ⟨_, _, _, _, Tuning.tune_of_send_failure sends, rfl, same.trans isLive.symm, rfl⟩
  | ok _ =>
      cases receives : (Tuning.recvTimer arguments before).2 with
      | error status =>
          exact ⟨_, _, _, _, Tuning.tune_of_recv_failure sends receives, rfl,
            same.trans isLive.symm, rfl⟩
      | ok _ =>
          dsimp only
          rw [show sizeOfInt arguments.frameMax.toInt = arguments.size from rfl]
          unfold reallocAnswer at answers
          unfold Heap.resize
          by_cases zero : arguments.size = 0
          · rw [if_pos zero] at answers ⊢
            refine ⟨_, _, _, _, Tuning.tune_of_freed sends receives ⟨answers, zero⟩ same, rfl,
              ?_, rfl⟩
            exact (if_pos (by simp [Heap.release])).symm
          · rw [if_neg zero] at answers ⊢
            cases requested : heap.request arguments.size with
            | mk block middle =>
                rw [requested] at answers
                cases block with
                | none =>
                    obtain ⟨sizes, freed⟩ := Heap.eq_of_request_none requested
                    have refused : arguments.realloc = .refused := answers
                    refine ⟨_, _, _, _, Tuning.tune_of_refused sends receives ?_ ?_ same, rfl,
                      ?_, rfl⟩
                    · rintro ⟨granted, _⟩
                      cases refused.symm.trans granted
                    · rintro ⟨_, none⟩
                      exact zero none
                    · refine same.trans ?_
                      unfold outboundBlock
                      rw [freed, sizes, if_neg notFreed]
                | some larger =>
                    obtain ⟨rfl, small, sizes, freed⟩ := Heap.eq_of_request_some requested
                    have granted : arguments.realloc = .granted := answers
                    refine ⟨_, _, _, _,
                      Tuning.tune_of_granted sends receives ⟨granted, small⟩ same, rfl, ?_, rfl⟩
                    have isNew :
                        heap.sizes.length ∉ (middle.release [connection.outboundBytes]).freed := by
                      simp only [Heap.release, freed, List.mem_append, List.mem_singleton, not_or]
                      exact ⟨fun isFreed => Nat.lt_irrefl _ (balanced.lt_of_freed isFreed),
                        (Nat.ne_of_lt (balanced.lt_of_held isHeld)).symm⟩
                    unfold outboundBlock
                    rw [if_neg isNew]
                    simp [Heap.release, sizes]

/-- The one list of entries is the table of lists. -/
theorem amqpGetOrCreateChannelPool_agrees {connection : ConnectionMemory} {table : PoolTable}
    {layout : Layout} {heap : Heap}
    (represents : table.Represents (connection.poolTable.map PoolEntry.channel))
    (outcome : table.allocs.headD true = (heap.request layout.poolTableEntry).1.isSome)
    (channel : UInt16) : ∃ answer after,
      PoolTable.amqpGetOrCreateChannelPool channel table = .ok answer after ∧
      after.Represents (List.map PoolEntry.channel
        (connection.amqpGetOrCreateChannelPool layout channel heap).2.1.poolTable) ∧
      answer.isSome = (connection.amqpGetOrCreateChannelPool layout channel heap).1 := by
  obtain ⟨answer, after, performs, created⟩ := represents.1.amqpGetOrCreateChannelPool channel
  refine ⟨answer, after, performs, ?_⟩
  unfold ConnectionMemory.amqpGetOrCreateChannelPool
  cases isPool : connection.amqpGetChannelPool channel with
  | some entry =>
      have known : channel ∈ connection.poolTable.map PoolEntry.channel := by
        rw [← isSome_amqpGetChannelPool, isPool]
        rfl
      have member := (represents.mem_channels channel).mp known
      cases created with
      | found _ => exact ⟨represents, rfl⟩
      | refused absent _ => exact absurd member absent
      | new absent _ _ _ => exact absurd member absent
  | none =>
      have unknown : channel ∉ connection.poolTable.map PoolEntry.channel := by
        rw [← isSome_amqpGetChannelPool, isPool]
        simp
      have absent := mt (represents.mem_channels channel).mpr unknown
      cases requested : heap.request layout.poolTableEntry with
      | mk block last =>
          rw [requested] at outcome
          cases created with
          | found stored => exact absurd (List.mem_of_getElem? stored) absent
          | refused _ refused =>
              rw [refused] at outcome
              cases block with
              | none => exact ⟨represents, rfl⟩
              | some block => cases outcome
          | new _ granted mapped grown =>
              rw [granted] at outcome
              cases block with
              | none => cases outcome
              | some block =>
                  refine ⟨⟨mapped, ?_⟩, rfl⟩
                  rw [grown, List.reverse_concat, represents.2]
                  rfl

end ConnectionMemory

end RabbitmqC
