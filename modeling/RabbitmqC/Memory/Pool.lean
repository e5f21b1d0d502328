import Mathlib.Data.List.Nodup
import Mathlib.Tactic.Linarith
import RabbitmqC.Lib.Effect
import RabbitmqC.Status

/-!
# Memory pools

`amqp_pool_alloc` and what empties a pool. A pool hands out parts of pages, one
after the other, and blocks of their own for requests larger than a page. What it
hands out was free: it lies in a block that was not there before, in the unused rest
of the current page, or in a page that has been recycled.
-/

set_option autoImplicit false

namespace RabbitmqC

open Effect

/-! ## Blocks -/

/-- The blocks that `malloc` and `calloc` have handed out, numbered in their order and given
by their sizes, and the outcomes of the requests to come; once these are used up, requests
are granted. -/
structure Heap where
  sizes : List Nat
  freed : List Nat
  allocs : List Bool

/-- A part of a block. -/
structure Region where
  block : Nat
  offset : Nat
  size : Nat
  deriving DecidableEq

def Region.Covers (region : Region) (block byte : Nat) : Prop :=
  block = region.block ∧ region.offset ≤ byte ∧ byte < region.offset + region.size

def Region.Apart (region other : Region) : Prop :=
  ∀ block byte, region.Covers block byte → ¬ other.Covers block byte

/-- `amqp_pool_t`. -/
structure Pool where
  pagesize : Nat
  pages : List Nat
  largeBlocks : List Nat
  nextPage : Nat
  allocBlock : Option Nat
  allocUsed : Nat

def initAmqpPool (pagesize : Nat) : Pool where
  pagesize := if pagesize ≠ 0 then pagesize else 4096
  pages := []
  largeBlocks := []
  nextPage := 0
  allocBlock := none
  allocUsed := 0

/-- A pool in its heap, and the places that have been written to. -/
structure Arena where
  heap : Heap
  pool : Pool
  written : List Region

abbrev Allocating := EStateM Failure Arena

/-! ## Requests -/

/-- The outcome of the next request. -/
def requestGranted : Allocating Bool := do
  let arena ← get
  match arena.heap.allocs with
  | [] => return true
  | outcome :: rest => do
      set { arena with heap := { arena.heap with allocs := rest } }
      return outcome

/-- `calloc` and `malloc`; `none` is a null pointer. An object is smaller than half of the
address space. -/
def requestBlock (size : Nat) : Allocating (Option Nat) := do
  if size ≥ 2 ^ 63 then
    return none
  else if ← requestGranted then do
    let arena ← get
    set { arena with heap := { arena.heap with sizes := arena.heap.sizes ++ [size] } }
    return some arena.heap.sizes.length
  else
    return none

def freeBlocks (blocks : List Nat) : Allocating Unit :=
  modify fun arena => { arena with heap := { arena.heap with freed := arena.heap.freed ++ blocks } }

def modifyPool (change : Pool → Pool) : Allocating Unit :=
  modify fun arena => { arena with pool := change arena.pool }

theorem modifyPool_run (change : Pool → Pool) (arena : Arena) :
    modifyPool change arena = .ok () { arena with pool := change arena.pool } := rfl

/-- An assignment to the octets of a region, or a `memcpy` to them. -/
def writeRegion (region : Region) : Allocating Unit :=
  modify fun arena => { arena with written := arena.written ++ [region] }

/-! ## The functions of the pool -/

/-- `recycle_amqp_pool`. -/
def recycleAmqpPool : Allocating Unit := do
  let arena ← get
  freeBlocks arena.pool.largeBlocks
  modifyPool fun pool =>
    { pool with largeBlocks := [], nextPage := 0, allocBlock := none, allocUsed := 0 }

/-- `empty_amqp_pool`. -/
def emptyAmqpPool : Allocating Unit := do
  recycleAmqpPool
  let arena ← get
  freeBlocks arena.pool.pages
  modifyPool fun pool => { pool with pages := [] }

/-- `(amount + 7) & (~7)`. -/
def roundUp (amount : Nat) : Nat := sizeAdd amount 7 / 8 * 8

/-- A block of its own. The list of them grows by a request as well. -/
def allocLarge (amount : Nat) : Allocating (Option Region) := do
  match ← requestBlock amount with
  | none => return none
  | some block =>
      if ← requestGranted then do
        modifyPool fun pool => { pool with largeBlocks := pool.largeBlocks ++ [block] }
        return some ⟨block, 0, amount⟩
      else do
        freeBlocks [block]
        return none

/-- The start of the next page. A page that cannot be recorded stays the current one. -/
def allocPage (amount : Nat) : Allocating (Option Region) := do
  let arena ← get
  match arena.pool.pages[arena.pool.nextPage]? with
  | some block => do
      modifyPool fun pool =>
        { pool with allocBlock := some block, nextPage := pool.nextPage + 1, allocUsed := amount }
      return some ⟨block, 0, amount⟩
  | none => do
      let page ← requestBlock arena.pool.pagesize
      modifyPool fun pool => { pool with allocBlock := page }
      match page with
      | none => return none
      | some block =>
          if ← requestGranted then do
            modifyPool fun pool =>
              { pool with
                pages := pool.pages ++ [block], nextPage := pool.pages.length + 1,
                allocUsed := amount }
            return some ⟨block, 0, amount⟩
          else
            return none

/-- `amqp_pool_alloc`; `none` is a null pointer. -/
def amqpPoolAlloc (amount : Nat) : Allocating (Option Region) := do
  if amount = 0 then
    return none
  else do
    let amount := roundUp amount
    let arena ← get
    if amount > arena.pool.pagesize then
      allocLarge amount
    else
      match arena.pool.allocBlock with
      | some block =>
          if arena.pool.allocUsed > arena.pool.pagesize then
            throw (.fault .abort)
          else if sizeAdd arena.pool.allocUsed amount ≤ arena.pool.pagesize then do
            modifyPool fun pool => { pool with allocUsed := sizeAdd pool.allocUsed amount }
            return some ⟨block, arena.pool.allocUsed, amount⟩
          else
            allocPage amount
      | none => allocPage amount

/-! ## Free memory -/

/-- The octet belongs to no object: its block does not exist yet, or the pool has it left in
the current page or in a page it comes to later. -/
def Arena.Free (arena : Arena) (block byte : Nat) : Prop :=
  arena.heap.sizes.length ≤ block ∨
    (arena.pool.allocBlock = some block ∧ arena.pool.allocUsed ≤ byte) ∨
      block ∈ arena.pool.pages.drop arena.pool.nextPage

def Region.FreeIn (region : Region) (arena : Arena) : Prop :=
  ∀ block byte, region.Covers block byte → arena.Free block byte

/-- A block of `size` octets exists. -/
def Heap.Has (heap : Heap) (block size : Nat) : Prop :=
  block < heap.sizes.length ∧ size < 2 ^ 63

structure Arena.Sound (arena : Arena) : Prop where
  used : arena.pool.allocUsed ≤ arena.pool.pagesize
  pages : ∀ block ∈ arena.pool.pages, arena.heap.Has block arena.pool.pagesize
  nodup : arena.pool.pages.Nodup
  current : ∀ block, arena.pool.allocBlock = some block →
    arena.heap.Has block arena.pool.pagesize ∧
      block ∉ arena.pool.pages.drop arena.pool.nextPage

theorem sound_initAmqpPool {heap : Heap} {written : List Region} (pagesize : Nat) :
    Arena.Sound ⟨heap, initAmqpPool pagesize, written⟩ where
  used := Nat.zero_le _
  pages _ member := by cases member
  nodup := List.nodup_nil
  current _ isCurrent := by cases isCurrent

/-- The blocks that emptying the pool frees. -/
def Pool.blocks (pool : Pool) : List Nat := pool.pages ++ pool.largeBlocks

/-- The current page is one of the pool's. -/
def Pool.Recorded (pool : Pool) : Prop :=
  ∀ block, pool.allocBlock = some block → block ∈ pool.pages

/-- From the one state to the other the regions have been taken from the free memory, and
nothing else has been written to. -/
structure Occupies (regions : List Region) (before after : Arena) : Prop where
  sound : after.Sound
  next : before.heap.sizes.length ≤ after.heap.sizes.length
  allocs : after.heap.allocs ⊆ before.heap.allocs
  shrinks : ∀ block byte, after.Free block byte → before.Free block byte
  free : ∀ region ∈ regions, region.FreeIn before
  gone : ∀ region ∈ regions, ∀ block byte, region.Covers block byte → ¬ after.Free block byte
  apart : regions.Pairwise Region.Apart
  writes : ∀ region ∈ after.written, region ∈ before.written ∨ region.FreeIn before
  pagesize : after.pool.pagesize = before.pool.pagesize
  grows : before.pool.blocks ⊆ after.pool.blocks
  owned : before.pool.Recorded → false ∉ before.heap.allocs →
    after.pool.Recorded ∧ ∀ region ∈ regions, region.block ∈ after.pool.blocks

namespace Occupies

variable {regions others : List Region} {before middle after : Arena}

theorem refl (sound : before.Sound) : Occupies [] before before where
  sound := sound
  next := Nat.le_refl _
  allocs := List.Subset.refl _
  shrinks _ _ free := free
  free _ member := by cases member
  gone _ member := by cases member
  apart := .nil
  writes _ member := .inl member
  pagesize := rfl
  grows := List.Subset.refl _
  owned recorded _ := ⟨recorded, fun _ member => by cases member⟩

theorem append (first : Occupies regions before middle) (second : Occupies others middle after) :
    Occupies (regions ++ others) before after where
  sound := second.sound
  next := Nat.le_trans first.next second.next
  allocs := List.Subset.trans second.allocs first.allocs
  shrinks block byte free := first.shrinks block byte (second.shrinks block byte free)
  free region member := by
    rcases List.mem_append.mp member with inFirst | inSecond
    · exact first.free region inFirst
    · exact fun block byte covers =>
        first.shrinks block byte (second.free region inSecond block byte covers)
  gone region member block byte covers free := by
    rcases List.mem_append.mp member with inFirst | inSecond
    · exact first.gone region inFirst block byte covers (second.shrinks block byte free)
    · exact second.gone region inSecond block byte covers free
  apart := by
    refine List.pairwise_append.mpr ⟨first.apart, second.apart, ?_⟩
    intro region inFirst other inSecond block byte covers otherCovers
    exact first.gone region inFirst block byte covers
      (second.free other inSecond block byte otherCovers)
  writes region member := by
    rcases second.writes region member with earlier | free
    · exact first.writes region earlier
    · exact .inr fun block byte covers => first.shrinks block byte (free block byte covers)
  pagesize := second.pagesize.trans first.pagesize
  grows := List.Subset.trans first.grows second.grows
  owned recorded granted := by
    obtain ⟨recordedMiddle, inFirst⟩ := first.owned recorded granted
    obtain ⟨recordedAfter, inSecond⟩ :=
      second.owned recordedMiddle fun refuses => granted (first.allocs refuses)
    refine ⟨recordedAfter, fun region member => ?_⟩
    rcases List.mem_append.mp member with isFirst | isSecond
    · exact second.grows (inFirst region isFirst)
    · exact inSecond region isSecond

/-- The regions are not looked at any further. -/
theorem forget (occupies : Occupies regions before after) : Occupies [] before after :=
  { occupies with
    free := fun _ member => by cases member
    gone := fun _ member => by cases member
    apart := .nil
    owned := fun recorded granted =>
      ⟨(occupies.owned recorded granted).1, fun _ member => by cases member⟩ }

end Occupies

/-- Why there is no memory: nothing was asked for, too much, or a request is not granted. -/
def Unavailable (amount : Nat) (arena : Arena) : Prop :=
  amount = 0 ∨ 2 ^ 63 ≤ roundUp amount ∨ 2 ^ 63 ≤ arena.pool.pagesize ∨ false ∈ arena.heap.allocs

/-- The answer of `amqp_pool_alloc`. -/
inductive PoolAnswer (amount : Nat) (before : Arena) :
    EStateM.Result Failure Arena (Option Region) → Prop where
  | granted {region : Region} {after : Arena} :
      Occupies [region] before after → region.size = roundUp amount →
      (before.pool.Recorded → after.pool.Recorded ∧ region.block ∈ after.pool.blocks) →
      PoolAnswer amount before (.ok (some region) after)
  | refused {after : Arena} :
      Occupies [] before after → Unavailable amount before →
      PoolAnswer amount before (.ok none after)

section Answers

variable {before : Arena}

/-- The arena after a request for a block. -/
def Arena.withBlock (arena : Arena) (size : Nat) (rest : List Bool) : Arena :=
  { arena with heap := { arena.heap with sizes := arena.heap.sizes ++ [size], allocs := rest } }

def Arena.withCurrent (arena : Arena) (page : Option Nat) : Arena :=
  { arena with pool := { arena.pool with allocBlock := page } }

def Arena.withAllocs (arena : Arena) (rest : List Bool) : Arena :=
  { arena with heap := { arena.heap with allocs := rest } }

theorem requestGranted_cases : ∃ rest, rest ⊆ before.heap.allocs ∧
    (requestGranted before = .ok true (before.withAllocs rest) ∨
      false ∈ before.heap.allocs ∧
        requestGranted before = .ok false (before.withAllocs rest)) := by
  obtain ⟨⟨sizes, freed, allocs⟩, pool, written⟩ := before
  cases allocs with
  | nil => exact ⟨[], List.Subset.refl _, .inl rfl⟩
  | cons outcome rest =>
      refine ⟨rest, List.subset_cons_self _ _, ?_⟩
      cases outcome with
      | true => exact .inl rfl
      | false => exact .inr ⟨List.mem_cons_self, rfl⟩

theorem requestBlock_cases (size : Nat) : ∃ rest, rest ⊆ before.heap.allocs ∧
    (size < 2 ^ 63 ∧ requestBlock size before =
        .ok (some before.heap.sizes.length) (before.withBlock size rest) ∨
      (2 ^ 63 ≤ size ∨ false ∈ before.heap.allocs) ∧
        requestBlock size before = .ok none (before.withAllocs rest)) := by
  unfold requestBlock
  by_cases large : size ≥ 2 ^ 63
  · rw [if_pos large]
    exact ⟨before.heap.allocs, List.Subset.refl _, .inr ⟨.inl large, rfl⟩⟩
  · rw [if_neg large]
    obtain ⟨rest, within, granted | ⟨refuses, refused⟩⟩ := @requestGranted_cases before
    · refine ⟨rest, within, .inl ⟨Nat.not_le.mp large, ?_⟩⟩
      rw [bind_of_ok granted]
      rfl
    · refine ⟨rest, within, .inr ⟨.inr refuses, ?_⟩⟩
      rw [bind_of_ok refused]
      rfl

theorem Arena.Sound.withAllocs (sound : before.Sound) (rest : List Bool) :
    (before.withAllocs rest).Sound :=
  ⟨sound.used, sound.pages, sound.nodup, sound.current⟩

theorem Heap.Has.withBlock {block pagesize : Nat} (has : before.heap.Has block pagesize)
    (size : Nat) (rest : List Bool) : (before.withBlock size rest).heap.Has block pagesize := by
  refine ⟨?_, has.2⟩
  have old := has.1
  simp only [Arena.withBlock, List.length_append, List.length_singleton]
  omega

theorem Arena.Sound.withBlock (sound : before.Sound) (size : Nat) (rest : List Bool) :
    (before.withBlock size rest).Sound where
  used := sound.used
  pages block member := (sound.pages block member).withBlock size rest
  nodup := sound.nodup
  current block isCurrent := by
    obtain ⟨has, ahead⟩ := sound.current block isCurrent
    exact ⟨has.withBlock size rest, ahead⟩

theorem Arena.free_withBlock {size block byte : Nat} {rest : List Bool}
    (free : (before.withBlock size rest).Free block byte) : before.Free block byte := by
  rcases free with ahead | inPool
  · simp only [Arena.withBlock, List.length_append, List.length_singleton] at ahead
    exact .inl (by omega)
  · exact .inr inPool

/-- The new block is not in the pool yet. -/
theorem Arena.Sound.not_free_withBlock (sound : before.Sound) {size byte : Nat}
    {rest : List Bool} : ¬ (before.withBlock size rest).Free before.heap.sizes.length byte := by
  rintro (ahead | ⟨isCurrent, _⟩ | inPages)
  · simp only [Arena.withBlock, List.length_append, List.length_singleton] at ahead
    omega
  · exact Nat.lt_irrefl _ (sound.current _ isCurrent).1.1
  · exact Nat.lt_irrefl _ (sound.pages _ (List.mem_of_mem_drop inPages)).1

theorem occupies_withBlock (sound : before.Sound) {size : Nat} {rest : List Bool}
    (within : rest ⊆ before.heap.allocs) : Occupies [] before (before.withBlock size rest) :=
  { Occupies.refl sound with
    sound := sound.withBlock size rest
    next := by simp [Arena.withBlock]
    allocs := within
    shrinks := fun _ _ free => Arena.free_withBlock free
    gone := fun _ member => by cases member }

theorem occupies_withAllocs (sound : before.Sound) {rest : List Bool}
    (within : rest ⊆ before.heap.allocs) : Occupies [] before (before.withAllocs rest) :=
  { Occupies.refl sound with
    sound := sound.withAllocs rest
    allocs := within }

/-- What has been freed plays no part. -/
theorem Occupies.withFreed {regions : List Region} {after : Arena}
    (occupies : Occupies regions before after) (freed : List Nat) :
    Occupies regions before { after with heap := { after.heap with freed } } :=
  { occupies with
    sound := ⟨occupies.sound.used, occupies.sound.pages, occupies.sound.nodup,
      occupies.sound.current⟩ }

/-- A block is taken for an object of its own. -/
theorem occupies_largeBlock (sound : before.Sound) {size : Nat} {rest : List Bool}
    (within : rest ⊆ before.heap.allocs) :
    Occupies [⟨before.heap.sizes.length, 0, size⟩] before
      { before.withBlock size rest with
        pool := { before.pool with
          largeBlocks := before.pool.largeBlocks ++ [before.heap.sizes.length] } } :=
  { @occupies_withBlock before sound size rest within with
    sound := by
      have new := sound.withBlock size rest
      exact ⟨new.used, new.pages, new.nodup, new.current⟩
    free := by
      intro region member block byte covers
      rw [List.mem_singleton.mp member] at covers
      exact .inl (Nat.le_of_eq covers.1.symm)
    gone := by
      intro region member block byte covers
      rw [List.mem_singleton.mp member] at covers
      obtain ⟨rfl, _⟩ := covers
      exact sound.not_free_withBlock
    apart := List.pairwise_singleton _ _
    grows := by
      intro block member
      unfold Pool.blocks at member ⊢
      rw [← List.append_assoc]
      exact List.mem_append_left _ member
    owned := by
      intro recorded _
      refine ⟨recorded, fun region member => ?_⟩
      rw [List.mem_singleton.mp member]
      simp [Pool.blocks] }

theorem poolAnswer_allocLarge {amount : Nat} (sound : before.Sound) :
    PoolAnswer amount before (allocLarge (roundUp amount) before) := by
  unfold allocLarge
  obtain ⟨rest, within, ⟨small, granted⟩ | ⟨refuses, refused⟩⟩ :=
    @requestBlock_cases before (roundUp amount)
  · rw [bind_of_ok granted]
    dsimp only
    obtain ⟨others, inner, recorded | ⟨refuses, unrecorded⟩⟩ :=
      @requestGranted_cases (before.withBlock (roundUp amount) rest)
    · rw [bind_of_ok recorded]
      refine .granted (occupies_largeBlock sound (List.Subset.trans inner within)) rfl ?_
      intro wasRecorded
      refine ⟨wasRecorded, ?_⟩
      exact List.mem_append_right _ (List.mem_append_right _ (List.mem_singleton_self _))
    · rw [bind_of_ok unrecorded]
      have whole := @occupies_withBlock before sound (roundUp amount) others
        (List.Subset.trans inner within)
      exact .refused (whole.withFreed _) (.inr (.inr (.inr (within refuses))))
  · rw [bind_of_ok refused]
    refine .refused (occupies_withAllocs sound within) ?_
    rcases refuses with large | refuses
    · exact .inr (.inl large)
    · exact .inr (.inr (.inr refuses))

/-- The start of a page that has become the current one. -/
def Arena.withPage (arena : Arena) (block nextPage amount : Nat) : Arena :=
  { arena with pool := { arena.pool with allocBlock := some block, nextPage, allocUsed := amount } }

theorem occupies_withPage {block amount : Nat} (sound : before.Sound)
    (found : before.pool.pages[before.pool.nextPage]? = some block)
    (fits : amount ≤ before.pool.pagesize) :
    Occupies [⟨block, 0, amount⟩] before
      (before.withPage block (before.pool.nextPage + 1) amount) := by
  have split : before.pool.pages.drop before.pool.nextPage =
      block :: before.pool.pages.drop (before.pool.nextPage + 1) := by
    obtain ⟨inside, rfl⟩ := List.getElem?_eq_some_iff.mp found
    exact List.drop_eq_getElem_cons inside
  have member : block ∈ before.pool.pages := List.mem_of_getElem? found
  have ahead : block ∉ before.pool.pages.drop (before.pool.nextPage + 1) := by
    have nodup := (List.drop_sublist before.pool.nextPage before.pool.pages).nodup sound.nodup
    rw [split] at nodup
    exact (List.nodup_cons.mp nodup).1
  have wasFree (byte : Nat) : before.Free block byte := by
    refine .inr (.inr ?_)
    rw [split]
    exact List.mem_cons_self
  refine ⟨⟨fits, sound.pages, sound.nodup, ?_⟩, Nat.le_refl _, List.Subset.refl _, ?_, ?_, ?_,
    List.pairwise_singleton _ _, fun _ old => .inl old, rfl, List.Subset.refl _, ?_⟩
  · rintro _ ⟨⟩
    exact ⟨sound.pages block member, ahead⟩
  · rintro other byte (later | ⟨isCurrent, _⟩ | inPages)
    · exact .inl later
    · cases isCurrent
      exact wasFree byte
    · refine .inr (.inr ?_)
      rw [split]
      exact List.mem_cons_of_mem _ inPages
  · intro region isRegion other byte covers
    rw [List.mem_singleton.mp isRegion] at covers
    obtain ⟨rfl, _⟩ := covers
    exact wasFree byte
  · intro region isRegion other byte covers free
    rw [List.mem_singleton.mp isRegion] at covers
    obtain ⟨rfl, _, inside⟩ := covers
    simp only [Nat.zero_add] at inside
    rcases free with later | ⟨_, used⟩ | inPages
    · exact absurd (sound.pages _ member).1 (Nat.not_lt.mpr later)
    · exact absurd inside (Nat.not_lt.mpr used)
    · exact ahead inPages
  · intro _ _
    refine ⟨?_, fun region isRegion => ?_⟩
    · rintro _ ⟨⟩
      exact member
    · rw [List.mem_singleton.mp isRegion]
      exact List.mem_append_left _ member

/-- The arena with a new page, which is the current one. -/
def Arena.withNewPage (arena : Arena) (pages : List Nat) (nextPage used : Nat)
    (rest : List Bool) : Arena :=
  { arena.withBlock arena.pool.pagesize rest with
    pool := { arena.pool with
      pages, nextPage, allocBlock := some arena.heap.sizes.length, allocUsed := used } }

/-- A page that is new, recorded or not. -/
theorem occupies_withNewPage {pages : List Nat} {nextPage used : Nat} {rest : List Bool}
    (sound : before.Sound) (within : rest ⊆ before.heap.allocs)
    (small : before.pool.pagesize < 2 ^ 63) (fits : used ≤ before.pool.pagesize)
    (behind : pages.drop nextPage = [])
    (recorded : pages = before.pool.pages ∧ false ∈ before.heap.allocs ∨
      pages = before.pool.pages ++ [before.heap.sizes.length]) :
    Occupies [] before (before.withNewPage pages nextPage used rest) := by
  have has : (before.withNewPage pages nextPage used rest).heap.Has before.heap.sizes.length
      before.pool.pagesize := by
    refine ⟨?_, small⟩
    simp [Arena.withNewPage, Arena.withBlock]
  have fresh : before.heap.sizes.length ∉ before.pool.pages :=
    fun member => Nat.lt_irrefl _ (sound.pages _ member).1
  refine ⟨⟨fits, ?_, ?_, ?_⟩, by simp [Arena.withNewPage, Arena.withBlock], within, ?_,
    fun _ member => (by cases member), fun _ member => (by cases member), .nil,
    fun _ old => .inl old, rfl, ?_, ?_⟩
  · intro block member
    have inPages : block ∈ before.pool.pages ++ [before.heap.sizes.length] := by
      rcases recorded with ⟨rfl, _⟩ | rfl
      · exact List.mem_append_left _ member
      · exact member
    rcases List.mem_append.mp inPages with old | new
    · exact (sound.pages block old).withBlock _ rest
    · rw [List.mem_singleton.mp new]
      exact has
  · rcases recorded with ⟨rfl, _⟩ | rfl
    · exact sound.nodup
    · refine List.nodup_append.mpr ⟨sound.nodup, List.nodup_singleton _, ?_⟩
      intro block old other new same
      rw [same, List.mem_singleton.mp new] at old
      exact fresh old
  · rintro _ ⟨⟩
    refine ⟨has, ?_⟩
    simp only [Arena.withNewPage, behind]
    exact List.not_mem_nil
  · rintro block byte (later | ⟨isCurrent, _⟩ | inPages)
    · exact Arena.free_withBlock (.inl later)
    · cases isCurrent
      exact .inl (Nat.le_refl _)
    · simp only [Arena.withNewPage, behind] at inPages
      cases inPages
  · intro block member
    rcases List.mem_append.mp member with old | large
    · refine List.mem_append_left _ ?_
      rcases recorded with ⟨rfl, _⟩ | rfl
      · exact old
      · exact List.mem_append_left _ old
    · exact List.mem_append_right _ large
  · intro _ granted
    refine ⟨?_, fun _ member => (by cases member)⟩
    rintro _ ⟨⟩
    rcases recorded with ⟨_, refuses⟩ | rfl
    · exact absurd refuses granted
    · exact List.mem_append_right _ (List.mem_singleton_self _)

/-- The start of a page that is new and recorded. -/
theorem occupies_startOfNewPage {nextPage used : Nat} {rest : List Bool}
    (sound : before.Sound) (within : rest ⊆ before.heap.allocs)
    (small : before.pool.pagesize < 2 ^ 63) (fits : used ≤ before.pool.pagesize)
    (behind : (before.pool.pages ++ [before.heap.sizes.length]).drop nextPage = []) :
    Occupies [⟨before.heap.sizes.length, 0, used⟩] before
      (before.withNewPage (before.pool.pages ++ [before.heap.sizes.length]) nextPage used rest) := by
  have occupied := occupies_withNewPage sound within small fits behind (.inr rfl)
  refine { occupied with
    free := ?_, gone := ?_, apart := List.pairwise_singleton _ _, owned := ?_ }
  · intro region isRegion block byte covers
    rw [List.mem_singleton.mp isRegion] at covers
    exact .inl (Nat.le_of_eq covers.1.symm)
  · intro region isRegion block byte covers free
    rw [List.mem_singleton.mp isRegion] at covers
    obtain ⟨rfl, _, inside⟩ := covers
    simp only [Nat.zero_add] at inside
    rcases free with later | ⟨_, unused⟩ | inPages
    · simp [Arena.withNewPage, Arena.withBlock] at later
    · exact absurd inside (Nat.not_lt.mpr unused)
    · simp only [Arena.withNewPage, behind] at inPages
      cases inPages
  · intro recorded granted
    refine ⟨(occupied.owned recorded granted).1, fun region isRegion => ?_⟩
    rw [List.mem_singleton.mp isRegion]
    simp [Arena.withNewPage, Pool.blocks]

/-- Without a page there is no rest of one. -/
theorem occupies_withoutPage {rest : List Bool} (sound : before.Sound)
    (within : rest ⊆ before.heap.allocs) :
    Occupies [] before
      { before.withAllocs rest with pool := { before.pool with allocBlock := none } } :=
  { occupies_withAllocs sound within with
    sound := ⟨sound.used, sound.pages, sound.nodup, fun _ isCurrent => by cases isCurrent⟩
    owned := fun _ _ =>
      ⟨fun _ isCurrent => (by cases isCurrent), fun _ member => (by cases member)⟩
    shrinks := by
      rintro block byte (later | ⟨isCurrent, _⟩ | inPages)
      · exact .inl later
      · cases isCurrent
      · exact .inr (.inr inPages)
    gone := fun _ member => by cases member }

theorem poolAnswer_allocPage {amount : Nat} (sound : before.Sound)
    (fits : roundUp amount ≤ before.pool.pagesize) :
    PoolAnswer amount before (allocPage (roundUp amount) before) := by
  unfold allocPage
  rw [bind_of_ok (get_run before)]
  cases found : before.pool.pages[before.pool.nextPage]? with
  | some block =>
      have member := List.mem_of_getElem? found
      refine .granted (occupies_withPage sound found fits) rfl fun _ => ⟨?_, ?_⟩
      · rintro _ ⟨⟩
        exact member
      · exact List.mem_append_left _ member
  | none =>
      have last := List.getElem?_eq_none_iff.mp found
      have behind : before.pool.pages.drop before.pool.nextPage = [] :=
        List.drop_eq_nil_of_le last
      obtain ⟨rest, within, ⟨small, granted⟩ | ⟨refuses, refused⟩⟩ :=
        @requestBlock_cases before before.pool.pagesize
      · have moved : modifyPool
            (fun pool => { pool with allocBlock := some before.heap.sizes.length })
            (before.withBlock before.pool.pagesize rest) =
              .ok () ((before.withBlock before.pool.pagesize rest).withCurrent
                (some before.heap.sizes.length)) := rfl
        dsimp only
        rw [bind_of_ok granted, bind_of_ok moved]
        dsimp only
        obtain ⟨others, inner, recorded | ⟨refuses, unrecorded⟩⟩ := @requestGranted_cases
          ((before.withBlock before.pool.pagesize rest).withCurrent
            (some before.heap.sizes.length))
        · rw [bind_of_ok recorded]
          have taken := @occupies_startOfNewPage before (before.pool.pages.length + 1)
            (roundUp amount) others sound (List.Subset.trans inner within) small fits (by simp)
          refine .granted taken rfl fun _ => ⟨?_, ?_⟩
          · rintro _ ⟨⟩
            exact List.mem_append_right _ (List.mem_singleton_self _)
          · exact List.mem_append_left _ (List.mem_append_right _ (List.mem_singleton_self _))
        · rw [bind_of_ok unrecorded]
          have current := @occupies_withNewPage before before.pool.pages before.pool.nextPage
            before.pool.allocUsed others sound (List.Subset.trans inner within) small sound.used
            behind (.inl ⟨rfl, within refuses⟩)
          exact .refused current (.inr (.inr (.inr (within refuses))))
      · dsimp only
        rw [bind_of_ok refused, bind_of_ok (modifyPool_run _ _)]
        refine .refused (occupies_withoutPage sound within) ?_
        rcases refuses with large | refuses
        · exact .inr (.inr (.inl large))
        · exact .inr (.inr (.inr refuses))

/-- The rest of the current page. -/
theorem occupies_currentPage {block amount : Nat} (sound : before.Sound)
    (isCurrent : before.pool.allocBlock = some block)
    (fits : before.pool.allocUsed + amount ≤ before.pool.pagesize) :
    Occupies [⟨block, before.pool.allocUsed, amount⟩] before
      { before with pool := { before.pool with allocUsed := before.pool.allocUsed + amount } } := by
  refine ⟨⟨fits, sound.pages, sound.nodup, sound.current⟩, Nat.le_refl _, List.Subset.refl _, ?_,
    ?_, ?_, List.pairwise_singleton _ _, fun _ old => .inl old, rfl, List.Subset.refl _, ?_⟩
  · rintro other byte (later | ⟨same, used⟩ | inPages)
    · exact .inl later
    · exact .inr (.inl ⟨same, Nat.le_trans (Nat.le_add_right _ _) used⟩)
    · exact .inr (.inr inPages)
  · intro region isRegion other byte covers
    rw [List.mem_singleton.mp isRegion] at covers
    obtain ⟨rfl, above, _⟩ := covers
    exact .inr (.inl ⟨isCurrent, above⟩)
  · intro region isRegion other byte covers free
    rw [List.mem_singleton.mp isRegion] at covers
    obtain ⟨rfl, above, below⟩ := covers
    obtain ⟨has, ahead⟩ := sound.current other isCurrent
    rcases free with later | ⟨_, used⟩ | inPages
    · exact absurd has.1 (Nat.not_lt.mpr later)
    · exact absurd below (Nat.not_lt.mpr used)
    · exact ahead inPages
  · intro recorded _
    refine ⟨recorded, fun region isRegion => ?_⟩
    rw [List.mem_singleton.mp isRegion]
    exact List.mem_append_left _ (recorded block isCurrent)

/-- `amqp_pool_alloc` takes its answer from the free memory, and does not fail otherwise. -/
theorem amqpPoolAlloc_spec (sound : before.Sound) (amount : Nat) :
    PoolAnswer amount before (amqpPoolAlloc amount before) := by
  unfold amqpPoolAlloc
  by_cases zero : amount = 0
  · rw [if_pos zero]
    exact .refused (.refl sound) (.inl zero)
  rw [if_neg zero, bind_of_ok (get_run before)]
  by_cases large : roundUp amount > before.pool.pagesize
  · rw [if_pos large]
    exact poolAnswer_allocLarge sound
  rw [if_neg large]
  have fits := Nat.not_lt.mp large
  cases isCurrent : before.pool.allocBlock with
  | none => exact poolAnswer_allocPage sound fits
  | some block =>
      have small := (sound.current block isCurrent).1.2
      have used := sound.used
      have exact : sizeAdd before.pool.allocUsed (roundUp amount) =
          before.pool.allocUsed + roundUp amount := sizeAdd_of_lt (by omega)
      dsimp only
      rw [if_neg (Nat.not_lt.mpr used), exact]
      by_cases rest : before.pool.allocUsed + roundUp amount ≤ before.pool.pagesize
      · rw [if_pos rest, bind_of_ok (modifyPool_run _ _), exact]
        refine .granted (occupies_currentPage sound isCurrent rest) rfl fun recorded => ?_
        exact ⟨recorded, List.mem_append_left _ (recorded block isCurrent)⟩
      · rw [if_neg rest]
        exact poolAnswer_allocPage sound fits

theorem le_roundUp {amount : Nat} (small : amount + 7 < 2 ^ 64) : amount ≤ roundUp amount := by
  unfold roundUp
  rw [sizeAdd_of_lt small]
  omega

end Answers

end RabbitmqC
