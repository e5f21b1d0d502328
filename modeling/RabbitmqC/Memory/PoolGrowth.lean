import RabbitmqC.Memory.PoolRuns

/-!
# How much a pool holds

A pool fills its pages by next fit, and a recycled pool begins with its first page again. So
what it holds in pages is bounded by twice what was asked for between two recyclings at most,
however long the run. Once it holds that much, small requests no longer reach the heap.
-/

set_option autoImplicit false

namespace RabbitmqC

open Effect

/-! ## Next fit -/

/-- Pages of this capacity are filled one after the other: `opened` of them are in use, the last
with `load` octets, and `total` octets have been asked for. -/
structure NextFit (capacity opened load total : Nat) : Prop where
  bound : opened * capacity + load ≤ 2 * total + capacity

namespace NextFit

variable {capacity opened load total amount : Nat}

/-- A page that is missing counts as full. -/
theorem start : NextFit capacity 0 capacity 0 := ⟨by omega⟩

theorem put (fit : NextFit capacity opened load total) :
    NextFit capacity opened (load + amount) (total + amount) := by
  have bound := fit.bound
  exact ⟨by omega⟩

/-- What did not fit into the last page comes into a new one. -/
theorem turn (fit : NextFit capacity opened load total) (full : capacity ≤ load + amount) :
    NextFit capacity (opened + 1) amount (total + amount) := by
  have bound := fit.bound
  refine ⟨?_⟩
  rw [Nat.succ_mul]
  omega

/-- No page was obtained for what did not fit. -/
theorem fail (fit : NextFit capacity opened load total) (full : capacity ≤ load + amount) :
    NextFit capacity opened capacity (total + amount) := by
  have bound := fit.bound
  exact ⟨by omega⟩

theorem mono {less more : Nat} (fit : NextFit capacity opened load total) (smaller : less ≤ load)
    (larger : total ≤ more) : NextFit capacity opened less more := by
  have bound := fit.bound
  exact ⟨by omega⟩

/-- The pages are half full, but for one. -/
theorem opened_le (fit : NextFit capacity opened load total) :
    opened * capacity ≤ 2 * total + capacity := by
  have bound := fit.bound
  omega

end NextFit

/-! ## What is asked for -/

/-- What a request takes of the pages, and what it takes as a block of its own. -/
def pagedOctets (pagesize amount : Nat) : Nat :=
  if roundUp amount ≤ pagesize then roundUp amount else 0

def largeOctets (pagesize amount : Nat) : Nat :=
  if roundUp amount ≤ pagesize then 0 else roundUp amount

/-- What was asked for since the pool was recycled, and the most that was asked of the pages
between two recyclings. -/
structure Demand where
  paged : Nat
  peak : Nat
  large : Nat

def Demand.call (pagesize : Nat) (demand : Demand) : ArenaCall → Demand
  | .alloc amount =>
      { paged := demand.paged + pagedOctets pagesize amount
        peak := max demand.peak (demand.paged + pagedOctets pagesize amount)
        large := demand.large + largeOctets pagesize amount }
  | .recycle => ⟨0, demand.peak, 0⟩
  | .empty => ⟨0, 0, 0⟩

def demandOf (pagesize : Nat) (calls : List ArenaCall) : Demand :=
  calls.foldl (Demand.call pagesize) ⟨0, 0, 0⟩

/-- The octets of a large block. -/
def Heap.sizeOf (heap : Heap) (block : Nat) : Nat := heap.sizes.getD block 0

/-- The octets of the blocks that the pool records. A page or a large block that it fails to
record is not counted. -/
def Arena.held (arena : Arena) : Nat :=
  arena.pool.pages.length * arena.pool.pagesize +
    (arena.pool.largeBlocks.map arena.heap.sizeOf).sum

/-- What the last page in use holds. -/
def Pool.load (pool : Pool) : Nat :=
  match pool.allocBlock with
  | none => pool.pagesize
  | some _ => pool.allocUsed

/-- The pages follow next fit for what is asked. -/
structure Arena.Fills (arena : Arena) (demand : Demand) : Prop where
  tended : arena.Tended
  reached : arena.pool.nextPage ≤ arena.pool.pages.length
  filling : NextFit arena.pool.pagesize arena.pool.nextPage arena.pool.load demand.paged
  pages : NextFit arena.pool.pagesize arena.pool.pages.length 0 demand.peak
  peak : demand.paged ≤ demand.peak
  large : (arena.pool.largeBlocks.map arena.heap.sizeOf).sum ≤ demand.large

section Filling

variable {before after : Arena} {amount : Nat} {demand : Demand} {answer : Option Region}

/-- A request that fits into the current page stays there. -/
theorem amqpPoolAlloc_of_fits (sound : before.Sound) (some : amount ≠ 0)
    (fits : before.Fits amount) : ∃ region,
    amqpPoolAlloc amount before = .ok (Option.some region)
      { before with
        pool := { before.pool with allocUsed := before.pool.allocUsed + roundUp amount } } := by
  obtain ⟨block, isCurrent, room⟩ := fits
  have bounded := (sound.current block isCurrent).1.2
  have exact : sizeAdd before.pool.allocUsed (roundUp amount) =
      before.pool.allocUsed + roundUp amount := sizeAdd_of_lt (by omega)
  have small : ¬ roundUp amount > before.pool.pagesize := by omega
  unfold amqpPoolAlloc
  rw [if_neg some, bind_of_ok (get_run before), if_neg small, isCurrent]
  dsimp only
  rw [if_neg (Nat.not_lt.mpr sound.used), exact, if_pos room, bind_of_ok (modifyPool_run _ _), exact]
  exact ⟨_, rfl⟩

/-- The pages of a recycled pool come first. -/
theorem amqpPoolAlloc_of_ahead {block : Nat} (sound : before.Sound) (some : amount ≠ 0)
    (small : roundUp amount ≤ before.pool.pagesize) (full : ¬before.Fits amount)
    (found : before.pool.pages[before.pool.nextPage]? = Option.some block) :
    amqpPoolAlloc amount before = .ok (Option.some ⟨block, 0, roundUp amount⟩)
      (before.withPage block (before.pool.nextPage + 1) (roundUp amount)) := by
  have page : allocPage (roundUp amount) before =
      .ok (Option.some ⟨block, 0, roundUp amount⟩)
        (before.withPage block (before.pool.nextPage + 1) (roundUp amount)) := by
    unfold allocPage
    rw [bind_of_ok (get_run before), found]
    rfl
  unfold amqpPoolAlloc
  rw [if_neg some, bind_of_ok (get_run before), if_neg (Nat.not_lt.mpr small)]
  cases isCurrent : before.pool.allocBlock with
  | none => exact page
  | some current =>
      have bounded := (sound.current current isCurrent).1.2
      have used := sound.used
      have exact : sizeAdd before.pool.allocUsed (roundUp amount) =
          before.pool.allocUsed + roundUp amount := sizeAdd_of_lt (by omega)
      have noRoom : ¬ before.pool.allocUsed + roundUp amount ≤ before.pool.pagesize :=
        fun room => full ⟨current, isCurrent, room⟩
      dsimp only
      rw [if_neg (Nat.not_lt.mpr used), exact, if_neg noRoom]
      exact page

/-- A request that does not fit leaves less than it needs in the current page. -/
theorem load_full (full : ¬before.Fits amount) :
    before.pool.pagesize ≤ before.pool.load + roundUp amount := by
  unfold Pool.load
  cases isCurrent : before.pool.allocBlock with
  | none => exact Nat.le_add_right _ _
  | some block =>
      dsimp only
      by_contra room
      exact full ⟨block, isCurrent, by omega⟩

/-- New blocks leave the sizes of the large ones as they are. -/
theorem largeSizes_withBlock (tended : before.Tended) (size : Nat) (rest : List Bool) :
    before.pool.largeBlocks.map (before.withBlock size rest).heap.sizeOf =
      before.pool.largeBlocks.map before.heap.sizeOf := by
  refine List.map_congr_left fun block member => ?_
  have inside := (tended.large block member).1
  simp [Heap.sizeOf, Arena.withBlock, List.getElem?_append_left inside]

theorem largeSizes_withLarge (tended : before.Tended) (size : Nat) (rest : List Bool) :
    (before.withLarge size rest).pool.largeBlocks.map (before.withLarge size rest).heap.sizeOf =
      before.pool.largeBlocks.map before.heap.sizeOf ++ [size] := by
  have new : (before.withLarge size rest).heap.sizeOf before.heap.sizes.length = size := by
    simp [Heap.sizeOf, Arena.withLarge, Arena.withBlock]
  show (before.pool.largeBlocks ++ [before.heap.sizes.length]).map _ = _
  rw [List.map_append, List.map_singleton, new]
  exact congrArg (· ++ [size]) (largeSizes_withBlock tended size rest)

theorem pagedOctets_of_small {pagesize : Nat} (small : roundUp amount ≤ pagesize) :
    pagedOctets pagesize amount = roundUp amount := if_pos small

theorem largeOctets_of_small {pagesize : Nat} (small : roundUp amount ≤ pagesize) :
    largeOctets pagesize amount = 0 := if_pos small

/-- A request that takes nothing more of the pages. -/
theorem Arena.Fills.besides (fills : before.Fills demand) (tended : after.Tended)
    (pages : after.pool.pages = before.pool.pages)
    (pagesize : after.pool.pagesize = before.pool.pagesize)
    (nextPage : after.pool.nextPage = before.pool.nextPage) (load : after.pool.load = before.pool.load)
    (large : (after.pool.largeBlocks.map after.heap.sizeOf).sum ≤
      demand.large + largeOctets before.pool.pagesize amount) :
    after.Fills (demand.call before.pool.pagesize (.alloc amount)) where
  tended := tended
  reached := by
    rw [pages, nextPage]
    exact fills.reached
  filling := by
    rw [pagesize, nextPage, load]
    exact fills.filling.mono (Nat.le_refl _) (Nat.le_add_right _ _)
  pages := by
    rw [pagesize, pages]
    exact fills.pages.mono (Nat.le_refl _) (Nat.le_max_left _ _)
  peak := Nat.le_max_right _ _
  large := large

theorem Arena.Fills.allocLarge (fills : before.Fills demand) (some : amount ≠ 0)
    (large : before.pool.pagesize < roundUp amount) : ∃ answer after,
    amqpPoolAlloc amount before = .ok answer after ∧
      after.Fills (demand.call before.pool.pagesize (.alloc amount)) := by
  have more : largeOctets before.pool.pagesize amount = roundUp amount :=
    if_neg (Nat.not_le.mpr large)
  have within : (before.pool.largeBlocks.map before.heap.sizeOf).sum ≤
      demand.large + largeOctets before.pool.pagesize amount :=
    Nat.le_trans fills.large (Nat.le_add_right _ _)
  have begins : amqpPoolAlloc amount before = RabbitmqC.allocLarge (roundUp amount) before := by
    unfold amqpPoolAlloc
    rw [if_neg some, bind_of_ok (get_run before), if_pos large]
  rw [begins]
  unfold RabbitmqC.allocLarge
  by_cases grants : before.Grants (roundUp amount)
  · rw [bind_of_ok (requestBlock_of_grants grants)]
    dsimp only
    rw [bind_of_ok (requestGranted_run _)]
    cases List.headD _ true with
    | true =>
        refine ⟨_, _, rfl, fills.besides (tends_large fills.tended).tended rfl rfl rfl rfl ?_⟩
        have sizes := congrArg List.sum
          (largeSizes_withLarge fills.tended (roundUp amount) before.heap.allocs.tail.tail)
        rw [List.sum_append, List.sum_singleton] at sizes
        refine Nat.le_trans (Nat.le_of_eq sizes) ?_
        rw [more]
        exact Nat.add_le_add_right fills.large _
    | false =>
        refine ⟨_, _, rfl, fills.besides (tends_lost fills.tended).tended rfl rfl rfl rfl ?_⟩
        have sizes := largeSizes_withBlock fills.tended (roundUp amount)
          before.heap.allocs.tail.tail
        exact Nat.le_trans (Nat.le_of_eq (congrArg List.sum sizes)) within
  · obtain ⟨rest, refused⟩ := requestBlock_of_refused grants
    rw [bind_of_ok refused]
    exact ⟨_, _, rfl, fills.besides (fills.tended.withAllocs rest) rfl rfl rfl rfl within⟩

/-- A small request: what it did to the pages is next fit. -/
theorem Arena.Fills.pagedBy (fills : before.Fills demand) (tended : after.Tended)
    (small : roundUp amount ≤ before.pool.pagesize)
    (pagesize : after.pool.pagesize = before.pool.pagesize)
    (reached : after.pool.nextPage ≤ after.pool.pages.length)
    (filling : NextFit before.pool.pagesize after.pool.nextPage after.pool.load
      (demand.paged + roundUp amount))
    (pages : after.pool.pages.length ≤ max before.pool.pages.length after.pool.nextPage)
    (large : after.pool.largeBlocks.map after.heap.sizeOf =
      before.pool.largeBlocks.map before.heap.sizeOf) :
    after.Fills (demand.call before.pool.pagesize (.alloc amount)) where
  tended := tended
  reached := reached
  filling := by
    simp only [Demand.call, pagedOctets_of_small small, pagesize]
    exact filling
  pages := by
    simp only [Demand.call, pagedOctets_of_small small, pagesize]
    rcases Nat.le_total before.pool.pages.length after.pool.nextPage with more | fewer
    · have isLength : after.pool.pages.length = after.pool.nextPage := by omega
      rw [isLength]
      exact filling.mono (Nat.zero_le _) (Nat.le_max_right _ _)
    · have bound := fills.pages.bound
      have scaled := Nat.mul_le_mul_right before.pool.pagesize
        (show after.pool.pages.length ≤ before.pool.pages.length by omega)
      exact ⟨by omega⟩
  peak := Nat.le_max_right _ _
  large := by
    simp only [Demand.call, largeOctets_of_small small, large]
    exact fills.large

theorem Arena.Fills.allocSmall (fills : before.Fills demand) (some : amount ≠ 0)
    (small : roundUp amount ≤ before.pool.pagesize) : ∃ answer after,
    amqpPoolAlloc amount before = .ok answer after ∧
      after.Fills (demand.call before.pool.pagesize (.alloc amount)) := by
  by_cases fits : before.Fits amount
  · obtain ⟨region, returned⟩ := amqpPoolAlloc_of_fits fills.tended.sound some fits
    obtain ⟨block, isCurrent, room⟩ := fits
    refine ⟨_, _, returned, fills.pagedBy (tends_current fills.tended isCurrent room).tended small
      rfl fills.reached ?_ (Nat.le_max_left _ _) rfl⟩
    have put := @NextFit.put _ _ _ _ (roundUp amount) fills.filling
    unfold Pool.load at put ⊢
    simp only [isCurrent] at put ⊢
    exact put
  have full := load_full fits
  have turned := fills.filling.turn full
  have failed := fills.filling.fail full
  cases ahead : before.pool.pages[before.pool.nextPage]? with
  | some block =>
      have inside := (List.getElem?_eq_some_iff.mp ahead).1
      exact ⟨_, _, amqpPoolAlloc_of_ahead fills.tended.sound some small fits ahead,
        fills.pagedBy (tends_nextPage fills.tended ahead small).tended small rfl inside turned
          (Nat.le_max_left _ _) rfl⟩
  | none =>
      have last : before.pool.nextPage = before.pool.pages.length :=
        Nat.le_antisymm fills.reached (List.getElem?_eq_none_iff.mp ahead)
      obtain ⟨answer, after, returned, step⟩ := amqpPoolAlloc_step fills.tended.sound amount
      refine ⟨answer, after, returned, ?_⟩
      have tended := (fills.tended.step step).tended
      cases step with
      | nothing zero => exact absurd zero some
      | refused large | large large | lost large => exact absurd small (Nat.not_le.mpr large)
      | current isCurrent room => exact absurd ⟨_, isCurrent, room⟩ fits
      | nextPage found _ =>
          rw [ahead] at found
          cases found
      | newPage _ _ _ =>
          have longer : (before.pool.pages ++ [before.heap.sizes.length]).length =
              before.pool.pages.length + 1 := List.length_append
          refine fills.pagedBy tended small rfl (Nat.le_of_eq longer.symm) ?_ ?_ ?_
          · rw [last] at turned
            exact turned
          · exact Nat.le_trans (Nat.le_of_eq longer) (Nat.le_max_right _ _)
          · exact largeSizes_withBlock fills.tended _ _
      | noPage _ =>
          exact fills.pagedBy tended small rfl fills.reached failed (Nat.le_max_left _ _) rfl
      | losesPage loses =>
          refine fills.pagedBy tended small rfl fills.reached ?_ (Nat.le_max_left _ _) ?_
          · exact failed.mono fills.tended.sound.used (Nat.le_refl _)
          · exact largeSizes_withBlock fills.tended _ _

theorem Arena.Fills.nothing (fills : before.Fills demand) :
    before.Fills (demand.call before.pool.pagesize (.alloc 0)) :=
  fills.besides fills.tended rfl rfl rfl rfl (Nat.le_trans fills.large (Nat.le_add_right _ _))

theorem Arena.Fills.alloc (fills : before.Fills demand) (amount : Nat) : ∃ answer after,
    amqpPoolAlloc amount before = .ok answer after ∧
      after.Fills (demand.call before.pool.pagesize (.alloc amount)) := by
  by_cases zero : amount = 0
  · subst zero
    exact ⟨none, before, rfl, fills.nothing⟩
  · by_cases small : roundUp amount ≤ before.pool.pagesize
    · exact fills.allocSmall zero small
    · exact fills.allocLarge zero (Nat.not_le.mp small)

theorem Arena.Fills.recycled (fills : before.Fills demand) :
    before.recycled.Fills (demand.call before.pool.pagesize .recycle) where
  tended := fills.tended.recycled
  reached := Nat.zero_le _
  filling := .start
  pages := fills.pages
  peak := Nat.zero_le _
  large := Nat.le_refl 0

theorem Arena.Fills.emptied (fills : before.Fills demand) :
    before.emptied.Fills (demand.call before.pool.pagesize .empty) where
  tended := fills.tended.emptied
  reached := Nat.le_refl 0
  filling := .start
  pages := NextFit.start.mono (Nat.zero_le _) (Nat.le_refl 0)
  peak := Nat.le_refl 0
  large := Nat.le_refl 0

theorem pagesize_of_amqpPoolAlloc (sound : before.Sound)
    (returned : amqpPoolAlloc amount before = .ok answer after) :
    after.pool.pagesize = before.pool.pagesize := by
  have isAnswer := amqpPoolAlloc_spec sound amount
  rw [returned] at isAnswer
  cases isAnswer with
  | granted occupies _ _ => exact occupies.pagesize
  | refused occupies _ => exact occupies.pagesize

end Filling

/-! ## Runs -/

section Runs

variable {before after : Arena} {amount : Nat} {demand : Demand} {pagesize : Nat}
  {allocs : List Bool}

theorem fills_freshArena : (freshArena pagesize allocs).Fills ⟨0, 0, 0⟩ where
  tended := tended_freshArena pagesize allocs
  reached := Nat.le_refl 0
  filling := .start
  pages := NextFit.start.mono (Nat.zero_le _) (Nat.le_refl 0)
  peak := Nat.le_refl 0
  large := Nat.le_refl 0

theorem Arena.Fills.perform {live now : List Grant} {call : ArenaCall} (fills : before.Fills demand)
    (performed : call.perform live before = .ok now after) :
    after.Fills (demand.call before.pool.pagesize call) ∧
      after.pool.pagesize = before.pool.pagesize := by
  cases call with
  | alloc amount =>
      obtain ⟨answer, middle, returned, filled⟩ := fills.alloc amount
      have ended := (bind_of_ok returned).symm.trans performed
      have same := pagesize_of_amqpPoolAlloc fills.tended.sound returned
      cases answer with
      | none =>
          cases ended
          exact ⟨filled, same⟩
      | some region =>
          cases ended
          exact ⟨filled, same⟩
  | recycle =>
      cases performed
      exact ⟨fills.recycled, rfl⟩
  | empty =>
      cases performed
      exact ⟨fills.emptied, rfl⟩

theorem fills_poolAfter (calls : List ArenaCall) :
    (poolAfter pagesize allocs calls).Fills (demandOf (initAmqpPool pagesize).pagesize calls) ∧
      (poolAfter pagesize allocs calls).pool.pagesize = (initAmqpPool pagesize).pagesize := by
  induction calls using List.reverseRecOn with
  | nil => exact ⟨fills_freshArena, rfl⟩
  | append_singleton past call ih =>
      obtain ⟨fills, same⟩ := ih
      obtain ⟨live, now, performed⟩ := @poolAfter_concat pagesize allocs past call
      obtain ⟨filled, kept⟩ := fills.perform performed
      rw [same] at filled kept
      unfold demandOf at filled ⊢
      rw [List.foldl_append]
      exact ⟨filled, kept⟩

/-- Whatever is called, and whichever requests the heap refuses, the pages of a pool hold no more
than twice the most that was asked of them between two recyclings, and one page. -/
theorem held_poolAfter_le (pagesize : Nat) (allocs : List Bool) (calls : List ArenaCall) :
    (poolAfter pagesize allocs calls).held ≤
      2 * (demandOf (initAmqpPool pagesize).pagesize calls).peak +
        (initAmqpPool pagesize).pagesize +
        (demandOf (initAmqpPool pagesize).pagesize calls).large := by
  obtain ⟨fills, same⟩ := @fills_poolAfter pagesize allocs calls
  have pages := fills.pages.opened_le
  rw [same] at pages
  unfold Arena.held
  rw [same]
  exact Nat.add_le_add pages fills.large

/-- With enough pages left a small request is granted without the heap. -/
theorem Arena.Fills.reuses (fills : before.Fills demand)
    (small : roundUp amount ≤ before.pool.pagesize)
    (room : 2 * (demand.paged + roundUp amount) <
      before.pool.pages.length * before.pool.pagesize) : ∃ answer after,
    amqpPoolAlloc amount before = .ok answer after ∧ (answer.isSome ↔ amount ≠ 0) ∧
      after.heap = before.heap ∧ after.pool.pages = before.pool.pages := by
  by_cases zero : amount = 0
  · subst zero
    exact ⟨none, before, rfl, by simp, rfl, rfl⟩
  · by_cases fits : before.Fits amount
    · obtain ⟨region, returned⟩ := amqpPoolAlloc_of_fits fills.tended.sound zero fits
      exact ⟨_, _, returned, by simp [zero], rfl, rfl⟩
    · have turned := (fills.filling.turn (load_full fits)).bound
      have ahead : before.pool.nextPage < before.pool.pages.length := by
        by_contra last
        have isLast : before.pool.nextPage = before.pool.pages.length :=
          Nat.le_antisymm fills.reached (Nat.not_lt.mp last)
        rw [isLast, Nat.succ_mul] at turned
        omega
      have found := List.getElem?_eq_getElem ahead
      exact ⟨_, _, amqpPoolAlloc_of_ahead fills.tended.sound zero small fits found,
        by simp [zero], rfl, rfl⟩

theorem Arena.Fills.reusesAll {amounts : List Nat} {live : List Grant}
    (fills : before.Fills demand) (small : ∀ amount ∈ amounts, roundUp amount ≤ before.pool.pagesize)
    (room : 2 * (demand.paged + (amounts.map roundUp).sum) <
      before.pool.pages.length * before.pool.pagesize) : ∃ granted after,
    performAll live (amounts.map .alloc) before = .ok (live ++ granted) after ∧
      granted.map Grant.amount = amounts.filter (· ≠ 0) ∧ after.heap = before.heap := by
  induction amounts generalizing before demand live with
  | nil => exact ⟨[], before, by rw [List.append_nil]; rfl, rfl, rfl⟩
  | cons amount amounts ih =>
      rw [List.map_cons, List.sum_cons] at room
      have isSmall := small amount List.mem_cons_self
      obtain ⟨answer, middle, returned, isGranted, sameHeap, samePages⟩ :=
        fills.reuses isSmall (by omega)
      obtain ⟨_, _, again, filled⟩ := fills.alloc amount
      cases returned.symm.trans again
      have same := pagesize_of_amqpPoolAlloc fills.tended.sound returned
      have others (live : List Grant) := @ih middle _ live filled
        (fun other member => same ▸ small other (List.mem_cons_of_mem _ member)) (by
          simp only [Demand.call, pagedOctets_of_small isSmall, same, samePages]
          omega)
      cases answer with
      | none =>
          obtain ⟨granted, after, performed, amountsOf, heap⟩ := others live
          have zero : amount = 0 := by simpa using isGranted
          refine ⟨granted, after, ?_, ?_, heap.trans sameHeap⟩
          · rw [← performed]
            exact bind_of_ok (bind_of_ok returned)
          · rw [amountsOf, List.filter_cons_of_neg (by simp [zero])]
      | some region =>
          obtain ⟨granted, after, performed, amountsOf, heap⟩ := others (live ++ [⟨amount, region⟩])
          have nonzero : amount ≠ 0 := by simpa using isGranted
          refine ⟨⟨amount, region⟩ :: granted, after, ?_, ?_, heap.trans sameHeap⟩
          · rw [List.append_cons, ← performed]
            exact bind_of_ok (bind_of_ok returned)
          · rw [List.map_cons, amountsOf, List.filter_cons_of_pos (by simp [nonzero])]

/-- A recycled pool serves small requests for less than half of its pages from them: it asks the
heap for nothing, and refuses none. -/
theorem recycled_poolAfter_reuses {past : List ArenaCall} {amounts : List Nat}
    (small : ∀ amount ∈ amounts, roundUp amount ≤ (initAmqpPool pagesize).pagesize)
    (room : 2 * (amounts.map roundUp).sum < (poolAfter pagesize allocs past).pool.pages.length *
      (initAmqpPool pagesize).pagesize) : ∃ live after,
    performAll [] (amounts.map .alloc) (poolAfter pagesize allocs past).recycled = .ok live after ∧
      live.map Grant.amount = amounts.filter (· ≠ 0) ∧
      after.heap = (poolAfter pagesize allocs past).recycled.heap := by
  obtain ⟨fills, same⟩ := @fills_poolAfter pagesize allocs past
  rw [← same] at small room
  refine @Arena.Fills.reusesAll _ _ amounts [] fills.recycled small ?_
  show 2 * (0 + _) < _
  rw [Nat.zero_add]
  exact room

/-- Three pages were in use. -/
theorem recycled_poolAfter_reuses_three : ∃ live after,
    performAll [] [.alloc 5, .alloc 0, .alloc 8]
        (poolAfter 16 [] [.alloc 9, .alloc 16, .alloc 10]).recycled = .ok live after ∧
      live.map Grant.amount = [5, 8] ∧
      after.heap = (poolAfter 16 [] [.alloc 9, .alloc 16, .alloc 10]).recycled.heap :=
  @recycled_poolAfter_reuses 16 [] [.alloc 9, .alloc 16, .alloc 10] [5, 0, 8] (by decide) (by decide)

end Runs

end RabbitmqC
