import Mathlib.Data.List.Induction
import RabbitmqC.Memory.Pool

/-!
# Runs of a pool

Any sequence of `amqp_pool_alloc`, `recycle_amqp_pool` and `empty_amqp_pool`, with
any outcomes of the requests for memory. What is handed out between two recyclings
never overlaps. A block that was obtained is recorded or freed, unless a new page
cannot be recorded.
-/

set_option autoImplicit false

namespace RabbitmqC

open Effect

/-! ## Calls -/

inductive ArenaCall where
  | alloc (amount : Nat)
  | recycle
  | empty
  deriving DecidableEq

/-- What `amqp_pool_alloc` has returned for an amount. -/
structure Grant where
  amount : Nat
  region : Region

/-- What is in use after a call. -/
def ArenaCall.perform (live : List Grant) : ArenaCall → Allocating (List Grant)
  | .alloc amount => do
      match ← amqpPoolAlloc amount with
      | some region => return live ++ [⟨amount, region⟩]
      | none => return live
  | .recycle => do
      recycleAmqpPool
      return []
  | .empty => do
      emptyAmqpPool
      return []

def performAll : List Grant → List ArenaCall → Allocating (List Grant)
  | live, [] => return live
  | live, call :: calls => do
      let live ← call.perform live
      performAll live calls

/-- A pool with nothing allocated, and the outcomes of the requests to come. -/
def freshArena (pagesize : Nat) (allocs : List Bool) : Arena :=
  ⟨⟨[], [], allocs⟩, initAmqpPool pagesize, []⟩

/-! ## Steps -/

section Steps

variable {before after : Arena} {amount size : Nat}

theorem requestGranted_run (arena : Arena) : requestGranted arena =
    .ok (arena.heap.allocs.headD true) (arena.withAllocs arena.heap.allocs.tail) := by
  obtain ⟨⟨sizes, freed, allocs⟩, pool, written⟩ := arena
  cases allocs with
  | nil => rfl
  | cons outcome rest => rfl

/-- `calloc` grants a block. -/
def Arena.Grants (arena : Arena) (size : Nat) : Prop :=
  size < 2 ^ 63 ∧ arena.heap.allocs.headD true = true

instance (arena : Arena) (size : Nat) : Decidable (arena.Grants size) :=
  inferInstanceAs (Decidable (_ ∧ _))

theorem requestBlock_of_grants (grants : before.Grants size) : requestBlock size before =
    .ok (some before.heap.sizes.length) (before.withBlock size before.heap.allocs.tail) := by
  unfold requestBlock
  rw [if_neg (Nat.not_le.mpr grants.1), bind_of_ok (requestGranted_run before), grants.2]
  rfl

theorem requestBlock_of_refused (refused : ¬before.Grants size) :
    ∃ rest, requestBlock size before = .ok none (before.withAllocs rest) := by
  unfold requestBlock
  by_cases large : size ≥ 2 ^ 63
  · rw [if_pos large]
    exact ⟨before.heap.allocs, rfl⟩
  · rw [if_neg large, bind_of_ok (requestGranted_run before)]
    cases outcome : before.heap.allocs.headD true with
    | true => exact absurd ⟨Nat.not_le.mp large, outcome⟩ refused
    | false => exact ⟨_, rfl⟩

/-- The request behind the next one is granted. -/
def Arena.Records (arena : Arena) : Prop := arena.heap.allocs.tail.headD true = true

instance (arena : Arena) : Decidable arena.Records := inferInstanceAs (Decidable (_ = _))

/-- The current page has room. -/
def Arena.Fits (arena : Arena) (amount : Nat) : Prop :=
  ∃ block, arena.pool.allocBlock = some block ∧
    arena.pool.allocUsed + roundUp amount ≤ arena.pool.pagesize

/-- A new page is obtained, and cannot be recorded. -/
structure Arena.LosesPage (arena : Arena) (amount : Nat) : Prop where
  some : amount ≠ 0
  small : roundUp amount ≤ arena.pool.pagesize
  full : ¬arena.Fits amount
  last : arena.pool.pages.length ≤ arena.pool.nextPage
  grants : arena.Grants arena.pool.pagesize
  unrecorded : ¬arena.Records

/-- The arena with a new block that is recorded as large. -/
def Arena.withLarge (arena : Arena) (size : Nat) (rest : List Bool) : Arena :=
  { arena.withBlock size rest with
    pool := { arena.pool with
      largeBlocks := arena.pool.largeBlocks ++ [arena.heap.sizes.length] } }

/-- The arena with a new block that has been freed again. -/
def Arena.withLost (arena : Arena) (size : Nat) (rest : List Bool) : Arena :=
  { arena.withBlock size rest with
    heap.freed := arena.heap.freed ++ [arena.heap.sizes.length] }

/-- What `amqp_pool_alloc` can do. -/
inductive PoolStep (amount : Nat) (before : Arena) : Option Region → Arena → Prop where
  | nothing : amount = 0 → PoolStep amount before none before
  | refused {rest : List Bool} : before.pool.pagesize < roundUp amount →
      PoolStep amount before none (before.withAllocs rest)
  | large {rest : List Bool} : before.pool.pagesize < roundUp amount →
      PoolStep amount before (some ⟨before.heap.sizes.length, 0, roundUp amount⟩)
        (before.withLarge (roundUp amount) rest)
  | lost {rest : List Bool} : before.pool.pagesize < roundUp amount →
      PoolStep amount before none (before.withLost (roundUp amount) rest)
  | current {block : Nat} : before.pool.allocBlock = some block →
      before.pool.allocUsed + roundUp amount ≤ before.pool.pagesize →
      PoolStep amount before (some ⟨block, before.pool.allocUsed, roundUp amount⟩)
        { before with
          pool := { before.pool with allocUsed := before.pool.allocUsed + roundUp amount } }
  | nextPage {block : Nat} : before.pool.pages[before.pool.nextPage]? = some block →
      roundUp amount ≤ before.pool.pagesize →
      PoolStep amount before (some ⟨block, 0, roundUp amount⟩)
        (before.withPage block (before.pool.nextPage + 1) (roundUp amount))
  | newPage {rest : List Bool} : roundUp amount ≤ before.pool.pagesize →
      before.pool.pagesize < 2 ^ 63 → before.Records →
      PoolStep amount before (some ⟨before.heap.sizes.length, 0, roundUp amount⟩)
        (before.withNewPage (before.pool.pages ++ [before.heap.sizes.length])
          (before.pool.pages.length + 1) (roundUp amount) rest)
  | noPage {rest : List Bool} : ¬before.Grants before.pool.pagesize →
      PoolStep amount before none
      { before.withAllocs rest with pool := { before.pool with allocBlock := none } }
  | losesPage {rest : List Bool} : before.LosesPage amount →
      PoolStep amount before none
        (before.withNewPage before.pool.pages before.pool.nextPage before.pool.allocUsed rest)

theorem allocLarge_step (large : before.pool.pagesize < roundUp amount) : ∃ answer after,
    allocLarge (roundUp amount) before = .ok answer after ∧
      PoolStep amount before answer after := by
  unfold allocLarge
  by_cases grants : before.Grants (roundUp amount)
  · rw [bind_of_ok (requestBlock_of_grants grants)]
    dsimp only
    rw [bind_of_ok (requestGranted_run _)]
    cases List.headD _ true with
    | true => exact ⟨_, _, rfl, .large large⟩
    | false => exact ⟨_, _, rfl, .lost large⟩
  · obtain ⟨rest, refused⟩ := requestBlock_of_refused grants
    rw [bind_of_ok refused]
    exact ⟨_, _, rfl, .refused large⟩

theorem allocPage_step (some : amount ≠ 0) (small : roundUp amount ≤ before.pool.pagesize)
    (full : ¬before.Fits amount) : ∃ answer after,
    allocPage (roundUp amount) before = .ok answer after ∧
      PoolStep amount before answer after := by
  unfold allocPage
  rw [bind_of_ok (get_run before)]
  cases found : before.pool.pages[before.pool.nextPage]? with
  | some block => exact ⟨_, _, rfl, .nextPage found small⟩
  | none =>
      dsimp only
      by_cases grants : before.Grants before.pool.pagesize
      · rw [bind_of_ok (requestBlock_of_grants grants), bind_of_ok (modifyPool_run _ _)]
        dsimp only
        rw [bind_of_ok (requestGranted_run _)]
        cases recorded : List.headD _ true with
        | true => exact ⟨_, _, rfl, .newPage small grants.1 recorded⟩
        | false =>
            have last := List.getElem?_eq_none_iff.mp found
            have unrecorded (records : before.Records) : False := by
              cases records.symm.trans recorded
            exact ⟨_, _, rfl, .losesPage ⟨some, small, full, last, grants, unrecorded⟩⟩
      · obtain ⟨rest, refused⟩ := requestBlock_of_refused grants
        rw [bind_of_ok refused, bind_of_ok (modifyPool_run _ _)]
        exact ⟨_, _, rfl, .noPage grants⟩

theorem amqpPoolAlloc_step (sound : before.Sound) (amount : Nat) : ∃ answer after,
    amqpPoolAlloc amount before = .ok answer after ∧ PoolStep amount before answer after := by
  unfold amqpPoolAlloc
  by_cases zero : amount = 0
  · rw [if_pos zero]
    exact ⟨_, _, rfl, .nothing zero⟩
  · rw [if_neg zero, bind_of_ok (get_run before)]
    by_cases large : roundUp amount > before.pool.pagesize
    · rw [if_pos large]
      exact allocLarge_step large
    · rw [if_neg large]
      have small := Nat.not_lt.mp large
      cases isCurrent : before.pool.allocBlock with
      | none =>
          refine allocPage_step zero small ?_
          rintro ⟨block, found, _⟩
          rw [isCurrent] at found
          cases found
      | some block =>
          have bounded := (sound.current block isCurrent).1.2
          have used := sound.used
          have exact : sizeAdd before.pool.allocUsed (roundUp amount) =
              before.pool.allocUsed + roundUp amount := sizeAdd_of_lt (by omega)
          dsimp only
          rw [if_neg (Nat.not_lt.mpr used), exact]
          by_cases room : before.pool.allocUsed + roundUp amount ≤ before.pool.pagesize
          · rw [if_pos room, bind_of_ok (modifyPool_run _ _), exact]
            exact ⟨_, _, rfl, .current isCurrent room⟩
          · rw [if_neg room]
            refine allocPage_step zero small ?_
            rintro ⟨_, _, fits⟩
            exact room fits

end Steps

/-! ## Blocks that are kept -/

/-- A block of `size` octets was obtained and not freed. -/
def Heap.Keeps (heap : Heap) (block size : Nat) : Prop :=
  heap.sizes[block]? = some size ∧ block ∉ heap.freed

/-- What was obtained is kept. -/
structure Heap.Grows (before after : Heap) : Prop where
  sizes : before.sizes <+: after.sizes
  freed : ∀ block ∈ after.freed, block ∈ before.freed ∨ before.sizes.length ≤ block

/-- The blocks of the pool are kept, and large ones are no pages. -/
structure Arena.Tended (arena : Arena) : Prop where
  sound : arena.Sound
  aligned : 8 ∣ arena.pool.allocUsed
  pages : ∀ block ∈ arena.pool.pages, arena.heap.Keeps block arena.pool.pagesize
  current : ∀ block, arena.pool.allocBlock = some block →
    arena.heap.Keeps block arena.pool.pagesize ∧ block ∉ arena.pool.largeBlocks
  large : ∀ block ∈ arena.pool.largeBlocks,
    block < arena.heap.sizes.length ∧ block ∉ arena.pool.pages
  freed : ∀ block ∈ arena.heap.freed, block < arena.heap.sizes.length

/-- A region at an aligned place inside one block. -/
structure Region.Placed (region : Region) (heap : Heap) : Prop where
  aligned : 8 ∣ region.offset
  inside : ∃ size, heap.Keeps region.block size ∧ region.offset + region.size ≤ size

section Keeping

variable {before after : Arena} {block size amount : Nat} {rest : List Bool} {region : Region}

theorem Heap.Keeps.lt {heap : Heap} (keeps : heap.Keeps block size) :
    block < heap.sizes.length :=
  (List.getElem?_eq_some_iff.mp keeps.1).1

theorem Heap.Keeps.grows {old new : Heap} (keeps : old.Keeps block size)
    (grows : old.Grows new) : new.Keeps block size := by
  constructor
  · obtain ⟨more, same⟩ := grows.sizes
    rw [← same, List.getElem?_append_left keeps.lt]
    exact keeps.1
  · intro isFreed
    cases grows.freed block isFreed with
    | inl earlier => exact keeps.2 earlier
    | inr fresh => exact absurd keeps.lt (Nat.not_lt.mpr fresh)

theorem Region.Placed.grows {old new : Heap} (placed : region.Placed old)
    (grows : old.Grows new) : region.Placed new := by
  obtain ⟨size, keeps, inside⟩ := placed.inside
  exact ⟨placed.aligned, size, keeps.grows grows, inside⟩

theorem grows_refl (heap : Heap) (allocs : List Bool) : heap.Grows { heap with allocs } where
  sizes := List.prefix_rfl
  freed _ member := .inl member

theorem grows_withBlock (arena : Arena) (size : Nat) (rest : List Bool) :
    arena.heap.Grows (arena.withBlock size rest).heap where
  sizes := List.prefix_append _ _
  freed _ member := .inl member

theorem grows_withLost (arena : Arena) (size : Nat) (rest : List Bool) :
    arena.heap.Grows (arena.withLost size rest).heap where
  sizes := List.prefix_append _ _
  freed block member := by
    cases List.mem_append.mp member with
    | inl earlier => exact .inl earlier
    | inr fresh => exact .inr (Nat.le_of_eq (List.mem_singleton.mp fresh).symm)

theorem Arena.Tended.keeps_new (tended : before.Tended) :
    (before.withBlock size rest).heap.Keeps before.heap.sizes.length size := by
  constructor
  · exact List.getElem?_concat_length
  · intro isFreed
    exact Nat.lt_irrefl _ (tended.freed _ isFreed)

/-- A request is made, and the pool is the same. -/
theorem Arena.Tended.withAllocs (tended : before.Tended) (rest : List Bool) :
    (before.withAllocs rest).Tended :=
  ⟨tended.sound.withAllocs rest, tended.aligned, tended.pages, tended.current, tended.large,
    tended.freed⟩

theorem Arena.Tended.withBlock (tended : before.Tended) (size : Nat) (rest : List Bool) :
    (before.withBlock size rest).Tended := by
  have grows := grows_withBlock before size rest
  have longer {block : Nat} (inside : block < before.heap.sizes.length) :
      block < (before.withBlock size rest).heap.sizes.length :=
    Nat.lt_of_lt_of_le inside grows.sizes.length_le
  constructor
  · exact tended.sound.withBlock size rest
  · exact tended.aligned
  · exact fun block member => (tended.pages block member).grows grows
  · intro block isCurrent
    obtain ⟨keeps, apart⟩ := tended.current block isCurrent
    exact ⟨keeps.grows grows, apart⟩
  · intro block member
    obtain ⟨inside, apart⟩ := tended.large block member
    exact ⟨longer inside, apart⟩
  · exact fun block member => longer (tended.freed block member)

theorem eight_dvd_roundUp (amount : Nat) : 8 ∣ roundUp amount := Nat.dvd_mul_left 8 _

/-- A call keeps the blocks, and what it returns lies in one of them. -/
structure Tends (amount : Nat) (before : Arena) (answer : Option Region) (after : Arena) :
    Prop where
  tended : after.Tended
  grows : before.heap.Grows after.heap
  placed : ∀ region, answer = some region →
    region.Placed after.heap ∧ region.size = roundUp amount

theorem tends_large (tended : before.Tended) :
    Tends amount before (some ⟨before.heap.sizes.length, 0, roundUp amount⟩)
      (before.withLarge (roundUp amount) rest) := by
  obtain ⟨sound, aligned, pages, current, large, freed⟩ :=
    tended.withBlock (roundUp amount) rest
  constructor
  · refine ⟨⟨sound.used, sound.pages, sound.nodup, sound.current⟩, aligned, pages, ?_, ?_, freed⟩
    · intro block isCurrent
      obtain ⟨keeps, apart⟩ := tended.current block isCurrent
      refine ⟨(current block isCurrent).1, fun member => ?_⟩
      cases List.mem_append.mp member with
      | inl earlier => exact apart earlier
      | inr fresh =>
          rw [List.mem_singleton.mp fresh] at keeps
          exact Nat.lt_irrefl _ keeps.lt
    · intro block member
      cases List.mem_append.mp member with
      | inl earlier => exact large block earlier
      | inr fresh =>
          rw [List.mem_singleton.mp fresh]
          refine ⟨tended.keeps_new.lt, fun isPage => ?_⟩
          exact Nat.lt_irrefl _ (tended.pages _ isPage).lt
  · exact grows_withBlock before _ rest
  · intro region isRegion
    cases isRegion
    refine ⟨⟨Nat.dvd_zero 8, roundUp amount, tended.keeps_new, ?_⟩, rfl⟩
    exact Nat.le_of_eq (Nat.zero_add _)

theorem tends_lost (tended : before.Tended) :
    Tends amount before none (before.withLost (roundUp amount) rest) := by
  have grows := grows_withLost before (roundUp amount) rest
  have longer {block : Nat} (inside : block < before.heap.sizes.length) :
      block < (before.withLost (roundUp amount) rest).heap.sizes.length :=
    Nat.lt_of_lt_of_le inside grows.sizes.length_le
  constructor
  · obtain ⟨used, pages, nodup, current⟩ := tended.sound.withBlock (roundUp amount) rest
    refine ⟨⟨used, pages, nodup, current⟩, tended.aligned, ?_, ?_, ?_, ?_⟩
    · exact fun block member => (tended.pages block member).grows grows
    · intro block isCurrent
      obtain ⟨keeps, apart⟩ := tended.current block isCurrent
      exact ⟨keeps.grows grows, apart⟩
    · intro block member
      obtain ⟨inside, apart⟩ := tended.large block member
      exact ⟨longer inside, apart⟩
    · intro block member
      cases List.mem_append.mp member with
      | inl earlier => exact longer (tended.freed block earlier)
      | inr fresh =>
          rw [List.mem_singleton.mp fresh]
          exact (@Arena.Tended.keeps_new before (roundUp amount) rest tended).lt
  · exact grows
  · intro region isRegion
    cases isRegion

theorem tends_current (tended : before.Tended) (isCurrent : before.pool.allocBlock = some block)
    (room : before.pool.allocUsed + roundUp amount ≤ before.pool.pagesize) :
    Tends amount before (some ⟨block, before.pool.allocUsed, roundUp amount⟩)
      { before with
        pool := { before.pool with allocUsed := before.pool.allocUsed + roundUp amount } } := by
  obtain ⟨sound, aligned, pages, current, large, freed⟩ := tended
  constructor
  · refine ⟨⟨room, sound.pages, sound.nodup, sound.current⟩, ?_, pages, current, large, freed⟩
    exact Nat.dvd_add aligned (eight_dvd_roundUp amount)
  · exact grows_refl before.heap _
  · intro region isRegion
    cases isRegion
    exact ⟨⟨aligned, _, (current block isCurrent).1, room⟩, rfl⟩

theorem tends_nextPage (tended : before.Tended)
    (found : before.pool.pages[before.pool.nextPage]? = some block)
    (small : roundUp amount ≤ before.pool.pagesize) :
    Tends amount before (some ⟨block, 0, roundUp amount⟩)
      (before.withPage block (before.pool.nextPage + 1) (roundUp amount)) := by
  have taken := (occupies_withPage tended.sound found small).sound
  obtain ⟨_, _, pages, _, large, freed⟩ := tended
  have member := List.mem_of_getElem? found
  constructor
  · refine ⟨taken, eight_dvd_roundUp amount, pages, ?_, large, freed⟩
    intro other isCurrent
    cases isCurrent
    exact ⟨pages block member, fun isLarge => (large block isLarge).2 member⟩
  · exact grows_refl before.heap _
  · intro region isRegion
    cases isRegion
    refine ⟨⟨Nat.dvd_zero 8, _, pages block member, ?_⟩, rfl⟩
    exact Nat.le_trans (Nat.le_of_eq (Nat.zero_add _)) small

/-- A new page has become the current one. -/
theorem tended_withNewPage {pages : List Nat} {nextPage used : Nat} (tended : before.Tended)
    (sound : (before.withNewPage pages nextPage used rest).Sound) (aligned : 8 ∣ used)
    (same : pages = before.pool.pages ∨ pages = before.pool.pages ++ [before.heap.sizes.length]) :
    (before.withNewPage pages nextPage used rest).Tended := by
  have old := tended.withBlock before.pool.pagesize rest
  have inPages {block : Nat} (member : block ∈ pages) :
      block ∈ before.pool.pages ∨ block = before.heap.sizes.length := by
    cases same with
    | inl unrecorded => exact .inl (unrecorded ▸ member)
    | inr recorded =>
        rw [recorded] at member
        exact (List.mem_append.mp member).imp id List.mem_singleton.mp
  have notLarge : before.heap.sizes.length ∉ before.pool.largeBlocks :=
    fun isLarge => Nat.lt_irrefl _ (tended.large _ isLarge).1
  constructor
  · exact sound
  · exact aligned
  · intro block member
    cases inPages member with
    | inl earlier => exact old.pages block earlier
    | inr fresh =>
        rw [fresh]
        exact tended.keeps_new
  · intro block isCurrent
    cases isCurrent
    exact ⟨tended.keeps_new, notLarge⟩
  · intro block isLarge
    obtain ⟨inside, apart⟩ := old.large block isLarge
    refine ⟨inside, fun member => ?_⟩
    cases inPages member with
    | inl earlier => exact apart earlier
    | inr fresh => exact notLarge (fresh ▸ isLarge)
  · exact old.freed

theorem Arena.Tended.step {answer : Option Region} (tended : before.Tended)
    (step : PoolStep amount before answer after) : Tends amount before answer after := by
  have nothing {arena : Arena} (region : Region) (isRegion : (none : Option Region) = some region) :
      region.Placed arena.heap ∧ region.size = roundUp amount := by
    cases isRegion
  cases step with
  | nothing _ => exact ⟨tended, grows_refl before.heap _, nothing⟩
  | refused _ => exact ⟨tended.withAllocs _, grows_refl before.heap _, nothing⟩
  | large _ => exact tends_large tended
  | lost _ => exact tends_lost tended
  | current isCurrent room => exact tends_current tended isCurrent room
  | nextPage found small => exact tends_nextPage tended found small
  | @newPage rest small bounded _ =>
      have behind : (before.pool.pages ++ [before.heap.sizes.length]).drop
          (before.pool.pages.length + 1) = [] := List.drop_eq_nil_of_le (by simp)
      have taken := occupies_startOfNewPage tended.sound (List.Subset.refl _) bounded small behind
      have sound : (before.withNewPage (before.pool.pages ++ [before.heap.sizes.length])
          (before.pool.pages.length + 1) (roundUp amount) rest).Sound :=
        ⟨taken.sound.used, taken.sound.pages, taken.sound.nodup, taken.sound.current⟩
      have occupied := tended_withNewPage tended sound (eight_dvd_roundUp amount) (.inr rfl)
      refine ⟨occupied, grows_withBlock before _ _, fun region isRegion => ?_⟩
      cases isRegion
      refine ⟨⟨Nat.dvd_zero 8, _, tended.keeps_new, ?_⟩, rfl⟩
      exact Nat.le_trans (Nat.le_of_eq (Nat.zero_add _)) small
  | noPage _ =>
      obtain ⟨sound, aligned, pages, _, large, freed⟩ := tended
      refine ⟨⟨⟨sound.used, sound.pages, sound.nodup, fun _ isCurrent => ?_⟩, aligned, pages,
        fun _ isCurrent => ?_, large, freed⟩, grows_refl before.heap _, nothing⟩
      · cases isCurrent
      · cases isCurrent
  | losesPage loses =>
      have behind : before.pool.pages.drop before.pool.nextPage = [] :=
        List.drop_eq_nil_of_le loses.last
      have refuses : false ∈ before.heap.allocs := by
        have second := loses.unrecorded
        unfold Arena.Records at second
        cases isAllocs : before.heap.allocs with
        | nil => simp [isAllocs] at second
        | cons first rest =>
            cases rest with
            | nil => simp [isAllocs] at second
            | cons outcome rest =>
                cases outcome with
                | true => simp [isAllocs] at second
                | false => simp
      have taken := occupies_withNewPage tended.sound (List.Subset.refl _) loses.grants.1
        tended.sound.used behind (.inl ⟨rfl, refuses⟩)
      exact ⟨tended_withNewPage tended
        ⟨taken.sound.used, taken.sound.pages, taken.sound.nodup, taken.sound.current⟩
        tended.aligned (.inl rfl), grows_withBlock before _ _, nothing⟩

end Keeping

/-! ## Regions in use -/

/-- What is in use was taken from the free memory, is large enough and does not overlap. -/
structure Arena.Serves (arena : Arena) (live : List Grant) : Prop where
  tended : arena.Tended
  placed : ∀ grant ∈ live, grant.region.Placed arena.heap ∧
    grant.region.size = roundUp grant.amount
  taken : ∀ grant ∈ live, ∀ block byte, grant.region.Covers block byte → ¬arena.Free block byte
  apart : live.Pairwise fun grant other => grant.region.Apart other.region

section Serving

variable {before after : Arena} {live : List Grant} {pagesize : Nat} {allocs : List Bool}

theorem tended_freshArena (pagesize : Nat) (allocs : List Bool) :
    (freshArena pagesize allocs).Tended where
  sound := sound_initAmqpPool pagesize
  aligned := Nat.dvd_zero 8
  pages _ member := by cases member
  current _ isCurrent := by cases isCurrent
  large _ member := by cases member
  freed _ member := by cases member

theorem Arena.Tended.serves_nothing (tended : before.Tended) : before.Serves [] where
  tended := tended
  placed _ member := by cases member
  taken _ member := by cases member
  apart := .nil

/-- What was in use stays so. -/
theorem Arena.Serves.keep {amount : Nat} {answer : Option Region} {regions : List Region}
    (serves : before.Serves live) (tends : Tends amount before answer after)
    (occupies : Occupies regions before after) : after.Serves live where
  tended := tends.tended
  placed grant member := by
    obtain ⟨placed, size⟩ := serves.placed grant member
    exact ⟨placed.grows tends.grows, size⟩
  taken grant member block byte covers free :=
    serves.taken grant member block byte covers (occupies.shrinks block byte free)
  apart := serves.apart

theorem Arena.Serves.alloc (serves : before.Serves live) (amount : Nat) : ∃ now after,
    (ArenaCall.alloc amount).perform live before = .ok now after ∧ after.Serves now := by
  obtain ⟨answer, after, returned, step⟩ := amqpPoolAlloc_step serves.tended.sound amount
  have tends := serves.tended.step step
  have answers := amqpPoolAlloc_spec serves.tended.sound amount
  rw [returned] at answers
  cases answers with
  | refused occupies _ =>
      exact ⟨live, after, bind_of_ok returned, serves.keep tends occupies⟩
  | @granted region _ occupies _ _ =>
      obtain ⟨tended, placed, taken, apart⟩ := serves.keep tends occupies
      have own := tends.placed region rfl
      refine ⟨live ++ [⟨amount, region⟩], after, bind_of_ok returned, tended, ?_, ?_, ?_⟩
      · intro grant member
        cases List.mem_append.mp member with
        | inl earlier => exact placed grant earlier
        | inr new =>
            rw [List.mem_singleton.mp new]
            exact own
      · intro grant member
        cases List.mem_append.mp member with
        | inl earlier => exact taken grant earlier
        | inr new =>
            rw [List.mem_singleton.mp new]
            exact occupies.gone region (List.mem_singleton_self _)
      · refine List.pairwise_append.mpr ⟨apart, List.pairwise_singleton _ _, ?_⟩
        intro grant earlier other new block byte covers otherCovers
        rw [List.mem_singleton.mp new] at otherCovers
        exact serves.taken grant earlier block byte covers
          (occupies.free region (List.mem_singleton_self _) block byte otherCovers)

/-- The arena after `recycle_amqp_pool`. -/
def Arena.recycled (arena : Arena) : Arena :=
  { arena with
    heap.freed := arena.heap.freed ++ arena.pool.largeBlocks
    pool := { arena.pool with
      largeBlocks := [], nextPage := 0, allocBlock := none, allocUsed := 0 } }

/-- The arena after `empty_amqp_pool`. -/
def Arena.emptied (arena : Arena) : Arena :=
  { arena.recycled with
    heap.freed := arena.recycled.heap.freed ++ arena.pool.pages
    pool := { arena.recycled.pool with pages := [] } }

theorem recycleAmqpPool_run (arena : Arena) : recycleAmqpPool arena = .ok () arena.recycled := rfl

theorem emptyAmqpPool_run (arena : Arena) : emptyAmqpPool arena = .ok () arena.emptied := rfl

theorem Arena.Tended.recycled (tended : before.Tended) : before.recycled.Tended := by
  obtain ⟨sound, _, pages, _, large, freed⟩ := tended
  refine ⟨⟨Nat.zero_le _, sound.pages, sound.nodup, ?_⟩, Nat.dvd_zero 8, ?_, ?_, ?_, ?_⟩
  · intro block isCurrent
    cases isCurrent
  · intro block member
    obtain ⟨isSize, kept⟩ := pages block member
    refine ⟨isSize, fun isFreed => ?_⟩
    cases List.mem_append.mp isFreed with
    | inl earlier => exact kept earlier
    | inr isLarge => exact (large block isLarge).2 member
  · intro block isCurrent
    cases isCurrent
  · intro block member
    cases member
  · intro block member
    cases List.mem_append.mp member with
    | inl earlier => exact freed block earlier
    | inr isLarge => exact (large block isLarge).1

theorem Arena.Tended.emptied (tended : before.Tended) : before.emptied.Tended := by
  obtain ⟨_, _, pages, _, _, freed⟩ := tended.recycled
  refine ⟨⟨Nat.zero_le _, ?_, List.nodup_nil, ?_⟩, Nat.dvd_zero 8, ?_, ?_, ?_, ?_⟩
  · intro block member
    cases member
  · intro block isCurrent
    cases isCurrent
  · intro block member
    cases member
  · intro block isCurrent
    cases isCurrent
  · intro block member
    cases member
  · intro block member
    cases List.mem_append.mp member with
    | inl earlier => exact freed block earlier
    | inr isPage => exact (pages block isPage).lt

theorem Arena.Serves.perform (serves : before.Serves live) (call : ArenaCall) :
    ∃ now after, call.perform live before = .ok now after ∧ after.Serves now := by
  cases call with
  | alloc amount => exact serves.alloc amount
  | recycle =>
      exact ⟨[], before.recycled, bind_of_ok (recycleAmqpPool_run before),
        serves.tended.recycled.serves_nothing⟩
  | empty =>
      exact ⟨[], before.emptied, bind_of_ok (emptyAmqpPool_run before),
        serves.tended.emptied.serves_nothing⟩

theorem Arena.Serves.performAll (serves : before.Serves live) (calls : List ArenaCall) :
    ∃ now after, performAll live calls before = .ok now after ∧ after.Serves now := by
  induction calls generalizing live before with
  | nil => exact ⟨live, before, rfl, serves⟩
  | cons call calls ih =>
      obtain ⟨between, middle, first, serves⟩ := serves.perform call
      obtain ⟨now, after, rest, serves⟩ := ih serves
      exact ⟨now, after, (bind_of_ok first).trans rest, serves⟩

end Serving

/-! ## Disjoint regions -/

section Disjoint

variable {before after : Arena} {live now : List Grant} {calls : List ArenaCall}

theorem mem_of_perform {call : ArenaCall}
    (performed : call.perform live before = .ok now after) :
    ∀ grant ∈ now, grant ∈ live ∨ call = .alloc grant.amount := by
  intro grant member
  cases call with
  | alloc amount =>
      obtain ⟨answer, middle, _, ends⟩ := bind_eq_ok.mp performed
      cases answer with
      | none =>
          cases ends
          exact .inl member
      | some region =>
          cases ends
          cases List.mem_append.mp member with
          | inl earlier => exact .inl earlier
          | inr new =>
              rw [List.mem_singleton.mp new]
              exact .inr rfl
  | recycle =>
      cases performed
      cases member
  | empty =>
      cases performed
      cases member

theorem mem_of_performAll (performed : performAll live calls before = .ok now after) :
    ∀ grant ∈ now, grant ∈ live ∨ .alloc grant.amount ∈ calls := by
  induction calls generalizing live before with
  | nil =>
      cases performed
      exact fun _ member => .inl member
  | cons call calls ih =>
      obtain ⟨between, middle, first, rest⟩ := bind_eq_ok.mp performed
      intro grant member
      cases ih rest grant member with
      | inl earlier =>
          cases mem_of_perform first grant earlier with
          | inl before => exact .inl before
          | inr isCall => exact .inr (isCall ▸ List.mem_cons_self)
      | inr later => exact .inr (List.mem_cons_of_mem _ later)

/-- The regions are large enough, each lies in one block, and no two of them overlap. -/
structure Arena.Disjoint (arena : Arena) (live : List Grant) : Prop where
  enough : ∀ grant ∈ live, grant.amount ≤ grant.region.size
  placed : ∀ grant ∈ live, grant.region.Placed arena.heap
  apart : live.Pairwise fun grant other => grant.region.Apart other.region

/-- Whatever the calls and the outcomes of their requests, no assertion fails, and what was
returned since the pool was recycled or emptied is disjoint. -/
theorem performAll_disjoint {pagesize : Nat} {allocs : List Bool}
    (bounded : ∀ amount, .alloc amount ∈ calls → amount + 7 < 2 ^ 64) :
    ∃ live after, performAll [] calls (freshArena pagesize allocs) = .ok live after ∧
      after.Disjoint live := by
  have start := (tended_freshArena pagesize allocs).serves_nothing
  obtain ⟨live, after, performed, serves⟩ := start.performAll calls
  refine ⟨live, after, performed, ?_, fun grant member => (serves.placed grant member).1,
    serves.apart⟩
  intro grant member
  have inCalls := (mem_of_performAll performed grant member).resolve_left List.not_mem_nil
  rw [(serves.placed grant member).2]
  exact le_roundUp (bounded grant.amount inCalls)

/-- A pool with pages of 20 octets that fails to record a page, and then goes on in it. -/
theorem performAll_disjoint_small : ∃ live after,
    performAll [] [.alloc 5, .alloc 24, .alloc 12, .alloc 3] (freshArena 20 [true, true, true,
        true, true, false]) = .ok live after ∧ after.Disjoint live ∧
      live.map Grant.region = [⟨0, 0, 8⟩, ⟨1, 0, 24⟩, ⟨2, 8, 8⟩] := by
  have small : ∀ amount, .alloc amount ∈ [ArenaCall.alloc 5, .alloc 24, .alloc 12, .alloc 3] →
      amount + 7 < 2 ^ 64 := by
    simp
  obtain ⟨live, after, performed, disjoint⟩ := @performAll_disjoint _ 20
    [true, true, true, true, true, false] small
  have regions : ((returned? (performAll [] [.alloc 5, .alloc 24, .alloc 12, .alloc 3]
      (freshArena 20 [true, true, true, true, true, false]))).map fun live =>
        live.map Grant.region) = some [⟨0, 0, 8⟩, ⟨1, 0, 24⟩, ⟨2, 8, 8⟩] := by decide
  rw [performed] at regions
  exact ⟨live, after, performed, disjoint, Option.some.inj regions⟩

end Disjoint

/-! ## Accounting for the blocks -/

/-- A block that was obtained is recorded or freed, the current page is recorded, and
nothing is left when the pool has been emptied. -/
structure Arena.Accounted (arena : Arena) : Prop where
  kept : ∀ block < arena.heap.sizes.length,
    block ∈ arena.pool.blocks ∨ block ∈ arena.heap.freed
  current : arena.pool.Recorded
  emptied : ∀ block < arena.heap.sizes.length, block ∈ arena.emptied.heap.freed

/-- The arena after calls. -/
def poolAfter (pagesize : Nat) (allocs : List Bool) (calls : List ArenaCall) : Arena :=
  endState (performAll [] calls (freshArena pagesize allocs))

section Accounting

variable {before after : Arena} {amount : Nat} {answer : Option Region} {live : List Grant}
  {calls : List ArenaCall} {pagesize : Nat} {allocs : List Bool}

/-- A block that is recorded is freed when the pool is emptied. -/
theorem accounted_of_kept
    (kept : ∀ block < before.heap.sizes.length,
      block ∈ before.pool.blocks ∨ block ∈ before.heap.freed)
    (current : before.pool.Recorded) : before.Accounted where
  kept := kept
  current := current
  emptied block inside := by
    have isFreed : block ∈ before.emptied.heap.freed ↔ (block ∈ before.heap.freed ∨
        block ∈ before.pool.largeBlocks) ∨ block ∈ before.pool.pages := by
      simp [Arena.emptied, Arena.recycled, or_assoc]
    rw [isFreed]
    cases kept block inside with
    | inl recorded =>
        cases List.mem_append.mp recorded with
        | inl isPage => exact .inr isPage
        | inr isLarge => exact .inl (.inr isLarge)
    | inr earlier => exact .inl (.inl earlier)

/-- Without a current page there is nothing to record. -/
theorem Pool.recorded_of_none {pool : Pool} (noPage : pool.allocBlock = none) : pool.Recorded := by
  intro block isCurrent
  rw [noPage] at isCurrent
  cases isCurrent

theorem accounted_freshArena (pagesize : Nat) (allocs : List Bool) :
    (freshArena pagesize allocs).Accounted := by
  apply accounted_of_kept
  · intro block inside
    cases inside
  · exact Pool.recorded_of_none rfl

/-- What was accounted for still is, and so is a block that is new. -/
theorem Arena.Accounted.extend (accounted : before.Accounted)
    (longer : after.heap.sizes.length ≤ before.heap.sizes.length + 1)
    (blocks : before.pool.blocks ⊆ after.pool.blocks)
    (freed : before.heap.freed ⊆ after.heap.freed) (current : after.pool.Recorded)
    (new : before.heap.sizes.length < after.heap.sizes.length →
      before.heap.sizes.length ∈ after.pool.blocks ∨
        before.heap.sizes.length ∈ after.heap.freed) : after.Accounted := by
  refine accounted_of_kept (fun block inside => ?_) current
  by_cases old : block < before.heap.sizes.length
  · exact (accounted.kept block old).imp (fun recorded => blocks recorded)
      fun isFreed => freed isFreed
  · have same : block = before.heap.sizes.length := by omega
    rw [same] at inside ⊢
    exact new inside

theorem Arena.Accounted.step (accounted : before.Accounted)
    (step : PoolStep amount before answer after) (keeps : ¬before.LosesPage amount) :
    after.Accounted := by
  have current := accounted.current
  have noMore {length : Nat} {goal : Prop} (more : length < length) : goal :=
    absurd more (Nat.lt_irrefl _)
  cases step with
  | nothing _ => exact accounted
  | refused _ =>
      exact accounted.extend (Nat.le_succ _) (List.Subset.refl _) (List.Subset.refl _) current
        noMore
  | large _ =>
      refine accounted.extend (by simp [Arena.withLarge, Arena.withBlock]) ?_
        (List.Subset.refl _) current fun _ => .inl ?_
      · intro block member
        cases List.mem_append.mp member with
        | inl isPage => exact List.mem_append_left _ isPage
        | inr isLarge => exact List.mem_append_right _ (List.mem_append_left _ isLarge)
      · exact List.mem_append_right _ (List.mem_append_right _ (List.mem_singleton_self _))
  | lost _ =>
      refine accounted.extend (by simp [Arena.withLost, Arena.withBlock]) (List.Subset.refl _)
        (List.subset_append_left _ _) current fun _ => .inr ?_
      exact List.mem_append_right _ (List.mem_singleton_self _)
  | current _ _ =>
      exact accounted.extend (Nat.le_succ _) (List.Subset.refl _) (List.Subset.refl _) current
        noMore
  | nextPage found _ =>
      refine accounted.extend (Nat.le_succ _) (List.Subset.refl _) (List.Subset.refl _) ?_ noMore
      intro block isCurrent
      cases isCurrent
      exact List.mem_of_getElem? found
  | newPage _ _ _ =>
      have inPages : before.heap.sizes.length ∈
          before.pool.pages ++ [before.heap.sizes.length] :=
        List.mem_append_right _ (List.mem_singleton_self _)
      refine accounted.extend (by simp [Arena.withNewPage, Arena.withBlock]) ?_
        (List.Subset.refl _) ?_ fun _ => .inl (List.mem_append_left _ inPages)
      · intro block member
        cases List.mem_append.mp member with
        | inl isPage => exact List.mem_append_left _ (List.mem_append_left _ isPage)
        | inr isLarge => exact List.mem_append_right _ isLarge
      · intro block isCurrent
        cases isCurrent
        exact inPages
  | noPage _ =>
      exact accounted.extend (Nat.le_succ _) (List.Subset.refl _) (List.Subset.refl _)
        (Pool.recorded_of_none rfl) noMore
  | losesPage loses => exact absurd loses keeps

theorem Arena.Accounted.recycled (accounted : before.Accounted) : before.recycled.Accounted := by
  apply accounted_of_kept
  · intro block inside
    cases accounted.kept block inside with
    | inl recorded =>
        cases List.mem_append.mp recorded with
        | inl isPage => exact .inl (List.mem_append_left _ isPage)
        | inr isLarge => exact .inr (List.mem_append_right _ isLarge)
    | inr earlier => exact .inr (List.mem_append_left _ earlier)
  · exact Pool.recorded_of_none rfl

theorem Arena.Accounted.emptiedToo (accounted : before.Accounted) : before.emptied.Accounted := by
  apply accounted_of_kept
  · intro block inside
    exact .inr (accounted.emptied block inside)
  · exact Pool.recorded_of_none rfl

/-- The page that cannot be recorded is neither in the pool nor freed. -/
theorem not_accounted_of_losesPage (tended : before.Tended) (loses : before.LosesPage amount)
    (step : PoolStep amount before answer after) : ¬after.Accounted := by
  intro accounted
  cases step with
  | nothing zero => exact loses.some zero
  | refused large | large large | lost large => exact Nat.not_lt.mpr loses.small large
  | current isCurrent room => exact loses.full ⟨_, isCurrent, room⟩
  | nextPage found _ =>
      obtain ⟨inside, _⟩ := List.getElem?_eq_some_iff.mp found
      exact Nat.not_lt.mpr loses.last inside
  | newPage _ _ recorded => exact loses.unrecorded recorded
  | noPage refused => exact refused loses.grants
  | losesPage _ =>
      have inPages := accounted.current _ rfl
      exact Nat.lt_irrefl _ (tended.pages _ inPages).lt

theorem performAll_append (past later : List ArenaCall) (live : List Grant) :
    performAll live (past ++ later) before =
      (performAll live past >>= fun now => performAll now later) before := by
  induction past generalizing live before with
  | nil => rfl
  | cons call past ih =>
      show (call.perform live >>= fun now => performAll now (past ++ later)) before =
        ((call.perform live >>= fun now => performAll now past) >>= fun now =>
          performAll now later) before
      rw [bind_assoc]
      cases first : call.perform live before with
      | error failure after => rw [bind_of_error first, bind_of_error first]
      | ok now after =>
          rw [bind_of_ok first, bind_of_ok first]
          exact ih now

theorem tended_poolAfter (past : List ArenaCall) : (poolAfter pagesize allocs past).Tended := by
  have start := (tended_freshArena pagesize allocs).serves_nothing
  obtain ⟨live, after, performed, serves⟩ := start.performAll past
  unfold poolAfter
  rw [performed]
  exact serves.tended

/-- A call more. -/
theorem poolAfter_concat (past : List ArenaCall) (call : ArenaCall) : ∃ live now,
    call.perform live (poolAfter pagesize allocs past) =
      .ok now (poolAfter pagesize allocs (past ++ [call])) := by
  have start := (tended_freshArena pagesize allocs).serves_nothing
  obtain ⟨live, after, performed, serves⟩ := start.performAll past
  obtain ⟨now, final, last, _⟩ := serves.perform call
  have whole : performAll [] (past ++ [call]) (freshArena pagesize allocs) = .ok now final := by
    rw [performAll_append, bind_of_ok performed]
    exact bind_of_ok last
  refine ⟨live, now, ?_⟩
  unfold poolAfter
  rw [performed, whole]
  exact last

theorem poolStep_of_perform (tended : before.Tended) {now : List Grant}
    (performed : (ArenaCall.alloc amount).perform live before = .ok now after) :
    ∃ answer, PoolStep amount before answer after := by
  obtain ⟨answer, middle, returned, step⟩ := amqpPoolAlloc_step tended.sound amount
  have ended := (bind_of_ok returned).symm.trans performed
  cases answer with
  | none =>
      cases ended
      exact ⟨_, step⟩
  | some region =>
      cases ended
      exact ⟨_, step⟩

/-- All blocks are accounted for as long as no new page fails to be recorded. -/
theorem pool_accounted_iff (pagesize : Nat) (allocs : List Bool) (calls : List ArenaCall) :
    (∀ past, past <+: calls → (poolAfter pagesize allocs past).Accounted) ↔
      ∀ past amount, past ++ [.alloc amount] <+: calls →
        ¬(poolAfter pagesize allocs past).LosesPage amount := by
  constructor
  · intro accounted past amount inFront loses
    have tended := @tended_poolAfter pagesize allocs past
    obtain ⟨live, now, performed⟩ :=
      @poolAfter_concat pagesize allocs past (.alloc amount)
    obtain ⟨answer, step⟩ := poolStep_of_perform tended performed
    exact not_accounted_of_losesPage tended loses step (accounted _ inFront)
  · intro keeps past
    induction past using List.reverseRecOn with
    | nil => exact fun _ => accounted_freshArena pagesize allocs
    | append_singleton past call ih =>
        intro inFront
        have accounted := ih ((List.prefix_append past [call]).trans inFront)
        have tended := @tended_poolAfter pagesize allocs past
        obtain ⟨live, now, performed⟩ := @poolAfter_concat pagesize allocs past call
        cases call with
        | alloc amount =>
            obtain ⟨answer, step⟩ := poolStep_of_perform tended performed
            exact accounted.step step (keeps past amount inFront)
        | recycle =>
            have ended : (poolAfter pagesize allocs past).recycled = poolAfter pagesize allocs _ :=
              congrArg endState performed
            exact ended ▸ accounted.recycled
        | empty =>
            have ended : (poolAfter pagesize allocs past).emptied = poolAfter pagesize allocs _ :=
              congrArg endState performed
            exact ended ▸ accounted.emptiedToo

/-- The page of 4096 octets is obtained, and the list of pages is not. -/
theorem unrecorded_page_is_lost :
    ¬∀ pagesize allocs calls past, past <+: calls →
      (poolAfter pagesize allocs past).Accounted := by
  intro accounted
  have lost := accounted 4096 [true, false] [.alloc 8, .empty] [.alloc 8, .empty] List.prefix_rfl
  have left : 0 < (poolAfter 4096 [true, false] [.alloc 8, .empty]).heap.sizes.length ∧
      0 ∉ (poolAfter 4096 [true, false] [.alloc 8, .empty]).emptied.heap.freed := by decide
  exact left.2 (lost.emptied 0 left.1)

end Accounting

end RabbitmqC
