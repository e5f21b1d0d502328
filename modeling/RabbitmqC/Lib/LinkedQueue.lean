import Mathlib.Data.List.Perm.Subperm

/-!
# Singly linked queues

Links in a growing heap, a pointer to the first and one to the last of them.
`Represents` relates the pointers to the list of queued values; every operation
on the pointers comes with the operation on lists that it represents.
-/

set_option autoImplicit false

/-- A link, which is addressed by its index in the heap. -/
structure Link (α : Type) where
  next : Option Nat
  data : α

structure LinkedQueue (α : Type) where
  links : List (Link α)
  first : Option Nat
  last : Option Nat

namespace LinkedQueue

variable {α : Type}

def empty : LinkedQueue α := ⟨[], none, none⟩

/-! ## Operations -/

/-- Allocate a link; it is not part of the queue yet, and its `next` is what the memory
held before. -/
def create (queue : LinkedQueue α) (value : α) (stale : Option Nat := none) :
    LinkedQueue α × Nat :=
  ({ queue with links := queue.links ++ [⟨stale, value⟩] }, queue.links.length)

def setNext (queue : LinkedQueue α) (address : Nat) (next : Option Nat) : LinkedQueue α :=
  { queue with links := queue.links.modify address fun link => { link with next } }

/-- Put a link behind the last one. -/
def append (queue : LinkedQueue α) (address : Nat) : LinkedQueue α :=
  let ended := queue.setNext address none
  match queue.last with
  | none => { ended with first := some address, last := some address }
  | some last => { ended.setNext last (some address) with last := some address }

/-- Put a link behind the last one, with the test for an empty queue made at its
first link. There is no result if there is no last link to put it behind. -/
def appendAtFirst (queue : LinkedQueue α) (address : Nat) : Option (LinkedQueue α) :=
  match queue.first, queue.last with
  | none, _ =>
      some { queue.setNext address none with first := some address, last := some address }
  | some _, none => none
  | some _, some last =>
      let linked := queue.setNext last (some address)
      some { linked.setNext address none with last := some address }

/-- Put a link in front of the first one. -/
def prepend (queue : LinkedQueue α) (address : Nat) : LinkedQueue α :=
  match queue.first with
  | none => { queue.setNext address none with first := some address, last := some address }
  | some first => { queue.setNext address (some first) with first := some address }

/-- Let the queue start behind a link, which leaves it with all links before it. -/
def startBehind (queue : LinkedQueue α) (link : Link α) : LinkedQueue α :=
  match link.next with
  | none => { queue with first := none, last := none }
  | some next => { queue with first := some next }

/-- The link that `first` points to. -/
def front (queue : LinkedQueue α) : Option (Link α) :=
  queue.first.bind fun first => queue.links[first]?

/-- The first link from `current` on whose value is wanted. -/
def find (queue : LinkedQueue α) (wanted : α → Bool) : Nat → Option Nat → Option (Link α)
  | 0, _ => none
  | _ + 1, none => none
  | fuel + 1, some current =>
      match queue.links[current]? with
      | none => none
      | some link => if wanted link.data then some link else queue.find wanted fuel link.next

/-- The values from `current` on. -/
def collect (queue : LinkedQueue α) : Nat → Option Nat → List α
  | 0, _ => []
  | _ + 1, none => []
  | fuel + 1, some current =>
      match queue.links[current]? with
      | none => []
      | some link => link.data :: queue.collect fuel link.next

/-- Enough fuel to visit every link. -/
def reach (queue : LinkedQueue α) : Nat := queue.links.length + 1

/-- The queued values, in order. -/
def values (queue : LinkedQueue α) : List α := queue.collect queue.reach queue.first

/-! ## Representation -/

/-- Following `next` visits these addresses and finds these values. -/
inductive Chain (links : List (Link α)) : Option Nat → List Nat → List α → Prop where
  | nil : Chain links none [] []
  | cons {address : Nat} {link : Link α} {addresses : List Nat} {values : List α} :
      links[address]? = some link → Chain links link.next addresses values →
      Chain links (some address) (address :: addresses) (link.data :: values)

/-- The queue holds `values`, in links of its own. -/
def Represents (queue : LinkedQueue α) (values : List α) : Prop :=
  ∃ addresses, Chain queue.links queue.first addresses values ∧ addresses.Nodup ∧
    queue.last = addresses.getLast?

theorem represents_empty : (empty : LinkedQueue α).Represents [] :=
  ⟨[], .nil, List.nodup_nil, rfl⟩

namespace Chain

variable {links others : List (Link α)} {start : Option Nat} {addresses : List Nat}
  {values : List α}

theorem mem_lt (chain : Chain links start addresses values) {address : Nat}
    (member : address ∈ addresses) : address < links.length := by
  induction chain with
  | nil => cases member
  | cons found _ ih =>
      rcases List.mem_cons.mp member with rfl | later
      · exact (List.getElem?_eq_some_iff.mp found).1
      · exact ih later

/-- A chain depends on its own links alone. -/
theorem congr (chain : Chain links start addresses values)
    (same : ∀ address ∈ addresses, others[address]? = links[address]?) :
    Chain others start addresses values := by
  induction chain with
  | nil => exact .nil
  | cons found _ ih =>
      refine .cons ((same _ List.mem_cons_self).trans found) (ih fun address member => ?_)
      exact same address (List.mem_cons_of_mem _ member)

theorem length_eq (chain : Chain links start addresses values) :
    addresses.length = values.length := by
  induction chain with
  | nil => rfl
  | cons _ _ ih => simp only [List.length_cons, ih]

theorem of_nil (chain : Chain links start [] values) : start = none ∧ values = [] := by
  cases chain
  exact ⟨rfl, rfl⟩

theorem start_eq (chain : Chain links start addresses values) : start = addresses.head? := by
  cases chain <;> rfl

theorem length_le (chain : Chain links start addresses values) (nodup : addresses.Nodup) :
    addresses.length ≤ links.length := by
  have inside : addresses ⊆ List.range links.length :=
    fun address member => List.mem_range.mpr (chain.mem_lt member)
  have bounded := (List.subperm_of_subset nodup inside).length_le
  rwa [List.length_range] at bounded

/-- Setting `next` in the last link makes the chain one link longer. -/
theorem append_last {address last : Nat} {link : Link α}
    (chain : Chain links start addresses values) (nodup : addresses.Nodup)
    (isLast : addresses.getLast? = some last) (found : links[address]? = some link)
    (ends : link.next = none) (apart : address ∉ addresses) :
    Chain (links.modify last fun link => { link with next := some address }) start
      (addresses ++ [address]) (values ++ [link.data]) := by
  induction chain with
  | nil => cases isLast
  | @cons head first rest tail foundHead chain ih =>
      obtain ⟨headApart, restNodup⟩ := List.nodup_cons.mp nodup
      cases rest with
      | nil =>
          obtain ⟨_, rfl⟩ := chain.of_nil
          cases isLast
          have alone : address ≠ head := fun same => apart (same ▸ List.mem_cons_self)
          refine @Chain.cons _ _ _ { first with next := some address } _ _ ?_ (.cons ?_ ?_)
          · simp [foundHead]
          · simp [alone.symm, found]
          · rw [ends]
            exact .nil
      | cons second others =>
          have lastLater : (second :: others).getLast? = some last := by simpa using isLast
          have headOther : last ≠ head := by
            rintro rfl
            exact headApart (List.mem_of_getLast? lastLater)
          refine .cons ?_
            (ih restNodup lastLater fun member => apart (List.mem_cons_of_mem _ member))
          simp [headOther, foundHead]

end Chain

private theorem collect_of_chain {queue : LinkedQueue α} {start : Option Nat}
    {addresses : List Nat} {values : List α} (chain : Chain queue.links start addresses values)
    {fuel : Nat} (enough : addresses.length < fuel) : queue.collect fuel start = values := by
  induction chain generalizing fuel with
  | nil =>
      obtain ⟨fuel, rfl⟩ := Nat.exists_eq_succ_of_ne_zero (Nat.ne_of_gt enough)
      rfl
  | cons found _ ih =>
      obtain ⟨fuel, rfl⟩ := Nat.exists_eq_succ_of_ne_zero (Nat.ne_of_gt (Nat.zero_lt_of_lt enough))
      simp only [collect, found, ih (Nat.lt_of_succ_lt_succ enough)]

theorem Represents.values_eq {queue : LinkedQueue α} {values : List α}
    (represents : queue.Represents values) : queue.values = values := by
  obtain ⟨addresses, chain, nodup, _⟩ := represents
  exact collect_of_chain chain (Nat.lt_succ_of_le (chain.length_le nodup))

section Operations

variable {queue : LinkedQueue α} {values : List α} {value : α} {stale : Option Nat}

theorem Represents.first_eq_none (represents : queue.Represents values) :
    queue.first = none ↔ values = [] := by
  obtain ⟨addresses, chain, _, _⟩ := represents
  rw [chain.start_eq, List.head?_eq_none_iff, ← List.length_eq_zero_iff, chain.length_eq,
    List.length_eq_zero_iff]

theorem Represents.last_eq_none (represents : queue.Represents values) :
    queue.last = none ↔ values = [] := by
  obtain ⟨addresses, chain, _, last⟩ := represents
  rw [last, List.getLast?_eq_none_iff, ← List.length_eq_zero_iff, chain.length_eq,
    List.length_eq_zero_iff]

private theorem getElem?_create {address : Nat} (old : address < queue.links.length) :
    (queue.create value).1.links[address]? = queue.links[address]? :=
  List.getElem?_append_left old

/-- Once `next` is written it does not matter what it was. -/
theorem setNext_create (queue : LinkedQueue α) (value : α) (stale next : Option Nat) :
    (queue.create value stale).1.setNext (queue.create value stale).2 next =
      (queue.create value next).1 := by
  have links : (queue.links ++ [Link.mk stale value]).modify queue.links.length
      (fun link => { link with next }) = queue.links ++ [Link.mk next value] := by
    rw [List.modify_eq_take_drop, List.drop_left, List.take_left]
    rfl
  exact congrArg (fun links => { queue with links }) links

theorem append_create (queue : LinkedQueue α) (value : α) (stale : Option Nat) :
    (queue.create value stale).1.append (queue.create value stale).2 =
      (queue.create value).1.append (queue.create value).2 := by
  unfold append
  rw [setNext_create, setNext_create]
  rfl

theorem prepend_create (queue : LinkedQueue α) (value : α) (stale : Option Nat) :
    (queue.create value stale).1.prepend (queue.create value stale).2 =
      (queue.create value).1.prepend (queue.create value).2 := by
  unfold prepend
  simp only [setNext_create]
  rfl

theorem represents_append (represents : queue.Represents values) :
    ((queue.create value stale).1.append (queue.create value stale).2).Represents
      (values ++ [value]) := by
  obtain ⟨addresses, chain, nodup, last⟩ := represents
  have kept : Chain (queue.create value).1.links queue.first addresses values :=
    chain.congr fun address member => getElem?_create (chain.mem_lt member)
  have fresh : queue.links.length ∉ addresses :=
    fun member => Nat.lt_irrefl _ (chain.mem_lt member)
  have created : (queue.create value).1.links[queue.links.length]? = some ⟨none, value⟩ := by
    simp [create]
  refine ⟨addresses ++ [queue.links.length], ?_, List.nodup_append.mpr ⟨nodup, by simp, ?_⟩, ?_⟩
  · unfold append
    rw [setNext_create]
    cases isLast : addresses.getLast? with
    | none =>
        have noLast : (queue.create value stale).1.last = none := last.trans isLast
        rw [noLast]
        obtain rfl := List.getLast?_eq_none_iff.mp isLast
        obtain ⟨_, rfl⟩ := kept.of_nil
        exact .cons created .nil
    | some final =>
        have hasLast : (queue.create value stale).1.last = some final := last.trans isLast
        rw [hasLast]
        exact kept.append_last nodup isLast created rfl fresh
  · rintro address member _ single rfl
    exact fresh ((List.mem_singleton.mp single) ▸ member)
  · unfold append
    cases (queue.create value stale).1.last <;> simp [create]

/-- Both ends of a queue tell whether it is empty. -/
theorem Represents.appendAtFirst_eq (represents : queue.Represents values) :
    (queue.create value stale).1.appendAtFirst (queue.create value stale).2 =
      some ((queue.create value stale).1.append (queue.create value stale).2) := by
  have empty : queue.first = none ↔ queue.last = none := by
    rw [represents.first_eq_none, represents.last_eq_none]
  show appendAtFirst { queue with links := _ } _ = some (append { queue with links := _ } _)
  unfold appendAtFirst append
  cases first : queue.first with
  | none => rw [empty.mp first]
  | some _ =>
      cases isLast : queue.last with
      | none => cases first.symm.trans (empty.mpr isLast)
      | some last =>
          obtain ⟨addresses, chain, _, same⟩ := represents
          have old : last < queue.links.length :=
            chain.mem_lt (List.mem_of_getLast? (same.symm.trans isLast))
          have apart : last ≠ (queue.create value stale).2 := Nat.ne_of_lt old
          unfold setNext
          dsimp only
          rw [List.modify_modify_ne _ _ _ apart]

theorem represents_prepend (represents : queue.Represents values) :
    ((queue.create value stale).1.prepend (queue.create value stale).2).Represents
      (value :: values) := by
  rw [prepend_create]
  obtain ⟨addresses, chain, nodup, last⟩ := represents
  have fresh : queue.links.length ∉ addresses :=
    fun member => Nat.lt_irrefl _ (chain.mem_lt member)
  -- Only the new link changes, so the chain behind it stays.
  have kept (next : Option Nat) : Chain ((queue.create value).1.setNext queue.links.length next).links
      queue.first addresses values := by
    refine chain.congr fun address member => ?_
    have other : queue.links.length ≠ address := fun same => fresh (same ▸ member)
    rw [← @getElem?_create _ _ value _ (chain.mem_lt member)]
    simp [setNext, other]
  have created (next : Option Nat) :
      ((queue.create value).1.setNext queue.links.length next).links[queue.links.length]? =
        some ⟨next, value⟩ := by
    simp [create, setNext]
  refine ⟨queue.links.length :: addresses, ?_, List.nodup_cons.mpr ⟨fresh, nodup⟩, ?_⟩
  · unfold prepend
    cases isFirst : queue.first with
    | none =>
        have noFirst : (queue.create value).1.first = none := isFirst
        rw [noFirst]
        exact .cons (created _) (isFirst ▸ kept none)
    | some head =>
        have hasFirst : (queue.create value).1.first = some head := isFirst
        rw [hasFirst]
        exact .cons (created _) (isFirst ▸ kept (some head))
  · unfold prepend
    cases isFirst : queue.first with
    | none =>
        have noFirst : (queue.create value).1.first = none := isFirst
        have noLinks : addresses = [] := by
          rw [chain.start_eq, List.head?_eq_none_iff] at isFirst
          exact isFirst
        rw [noFirst, noLinks]
        rfl
    | some head =>
        have hasFirst : (queue.create value).1.first = some head := isFirst
        have nonempty : addresses ≠ [] := by
          rintro rfl
          cases chain.of_nil.1.symm.trans isFirst
        rw [hasFirst]
        show queue.last = _
        rw [last, List.getLast?_cons_of_ne_nil nonempty]

/-! ### Searching -/

private theorem find_of_chain {wanted : α → Bool} {start : Option Nat} {addresses : List Nat}
    {skipped rest : List α} (chain : Chain queue.links start addresses (skipped ++ value :: rest))
    (others : ∀ other ∈ skipped, wanted other = false) (found : wanted value = true) {fuel : Nat}
    (enough : skipped.length < fuel) :
    ∃ link left address right, queue.find wanted fuel start = some link ∧ link.data = value ∧
      addresses = left ++ address :: right ∧ Chain queue.links link.next right rest := by
  induction skipped generalizing start addresses fuel with
  | nil =>
      obtain ⟨fuel, rfl⟩ := Nat.exists_eq_succ_of_ne_zero (Nat.ne_of_gt enough)
      cases chain with
      | cons stored tail =>
          refine ⟨_, [], _, _, ?_, rfl, rfl, tail⟩
          simp only [find, stored, found, if_true]
  | cons head skipped ih =>
      obtain ⟨fuel, rfl⟩ := Nat.exists_eq_succ_of_ne_zero (Nat.ne_of_gt (Nat.zero_lt_of_lt enough))
      cases chain with
      | cons stored tail =>
          obtain ⟨link, left, address, right, search, isValue, split, ends⟩ :=
            ih tail (fun other member => others other (List.mem_cons_of_mem _ member))
              (Nat.lt_of_succ_lt_succ enough)
          refine ⟨link, _ :: left, address, right, ?_, isValue, by rw [split]; rfl, ends⟩
          simp only [find, stored, others _ List.mem_cons_self, search]
          rfl

/-- The search stops at the first wanted value; starting behind its link drops
the value and everything before it. -/
theorem Represents.find_eq_some {wanted : α → Bool} {skipped rest : List α}
    (represents : queue.Represents (skipped ++ value :: rest))
    (others : ∀ other ∈ skipped, wanted other = false) (found : wanted value = true) :
    ∃ link, queue.find wanted queue.reach queue.first = some link ∧ link.data = value ∧
      (queue.startBehind link).Represents rest := by
  obtain ⟨addresses, chain, nodup, last⟩ := represents
  have enough : skipped.length < queue.reach := by
    have bounded := chain.length_le nodup
    rw [chain.length_eq, List.length_append] at bounded
    unfold reach
    omega
  obtain ⟨link, left, address, right, search, isValue, rfl, ends⟩ :=
    find_of_chain chain others found enough
  refine ⟨link, search, isValue, right, ?_, ?_, ?_⟩
  · have start := ends
    unfold startBehind
    cases next : link.next with
    | none =>
        rw [next] at start
        exact start
    | some after =>
        rw [next] at start
        exact start
  · exact (List.nodup_cons.mp (List.nodup_append.mp nodup).2.1).2
  · unfold startBehind
    have start := ends.start_eq
    cases next : link.next with
    | none =>
        rw [next] at start
        rw [List.head?_eq_none_iff.mp start.symm]
        rfl
    | some after =>
        have nonempty : right ≠ [] := by
          rintro rfl
          cases start.symm.trans next
        show queue.last = _
        rw [last, List.getLast?_append_cons, List.getLast?_cons_of_ne_nil nonempty]

/-- What is put in front is found there, whatever the queue is like. -/
theorem front_prepend (queue : LinkedQueue α) (value : α) (stale : Option Nat) :
    ∃ link, ((queue.create value stale).1.prepend (queue.create value stale).2).front = some link ∧
      link.data = value := by
  unfold create prepend front setNext
  cases queue.first with
  | none => exact ⟨⟨none, value⟩, by simp, rfl⟩
  | some first => exact ⟨⟨some first, value⟩, by simp, rfl⟩

/-- Starting behind the front link drops the first value. -/
theorem Represents.front_eq_some (represents : queue.Represents (value :: values)) :
    ∃ link, queue.front = some link ∧ link.data = value ∧
      (queue.startBehind link).Represents values := by
  obtain ⟨link, search, isValue, rest⟩ :=
    @Represents.find_eq_some _ _ _ (fun _ => true) [] _ represents (by simp) rfl
  refine ⟨link, ?_, isValue, rest⟩
  unfold front
  cases first : queue.first with
  | none =>
      rw [first] at search
      cases search
  | some address =>
      rw [first] at search
      unfold reach find at search
      cases stored : queue.links[address]? with
      | none =>
          rw [stored] at search
          cases search
      | some head =>
          rw [stored] at search
          simpa [stored] using search

private theorem find_eq_none_of_chain {wanted : α → Bool} {start : Option Nat}
    {addresses : List Nat} (chain : Chain queue.links start addresses values)
    (others : ∀ other ∈ values, wanted other = false) (fuel : Nat) :
    queue.find wanted fuel start = none := by
  induction fuel generalizing start addresses values with
  | zero => rfl
  | succ fuel ih =>
      cases chain with
      | nil => rfl
      | cons stored tail =>
          have notHead := others _ List.mem_cons_self
          simp only [find, stored, notHead]
          exact ih tail fun other member => others other (List.mem_cons_of_mem _ member)

theorem Represents.find_eq_none {wanted : α → Bool} (represents : queue.Represents values)
    (others : ∀ other ∈ values, wanted other = false) (fuel : Nat) :
    queue.find wanted fuel queue.first = none := by
  obtain ⟨addresses, chain, _, _⟩ := represents
  exact find_eq_none_of_chain chain others fuel

/-- What a search finds is the first wanted value. -/
theorem Represents.split_find {wanted : α → Bool} {link : Link α}
    (represents : queue.Represents values)
    (search : queue.find wanted queue.reach queue.first = some link) :
    ∃ skipped rest, values = skipped ++ link.data :: rest ∧
      (queue.startBehind link).Represents rest := by
  cases first : values.find? wanted with
  | none =>
      have others : ∀ other ∈ values, wanted other = false := by simpa using first
      rw [represents.find_eq_none others] at search
      cases search
  | some value =>
      obtain ⟨found, skipped, rest, rfl, others⟩ := List.find?_eq_some_iff_append.mp first
      obtain ⟨other, search', isValue, remains⟩ :=
        represents.find_eq_some (by simpa using others) found
      cases search.symm.trans search'
      exact ⟨skipped, rest, by rw [isValue], remains⟩

theorem Represents.split_front {link : Link α} (represents : queue.Represents values)
    (front : queue.front = some link) :
    ∃ rest, values = link.data :: rest ∧ (queue.startBehind link).Represents rest := by
  cases values with
  | nil =>
      have noFirst := represents.first_eq_none.mpr rfl
      unfold LinkedQueue.front at front
      rw [noFirst] at front
      cases front
  | cons value rest =>
      obtain ⟨other, isFront, isValue, remains⟩ := represents.front_eq_some
      cases front.symm.trans isFront
      exact ⟨rest, by rw [isValue], remains⟩

/-- A search that fails has met no wanted value. -/
theorem Represents.find_eq_none_iff {wanted : α → Bool} (represents : queue.Represents values) :
    queue.find wanted queue.reach queue.first = none ↔ ∀ other ∈ values, wanted other = false := by
  refine ⟨fun search => ?_, fun others => represents.find_eq_none others _⟩
  cases first : values.find? wanted with
  | none => simpa using first
  | some value =>
      obtain ⟨found, skipped, rest, rfl, others⟩ := List.find?_eq_some_iff_append.mp first
      obtain ⟨link, search', _⟩ := represents.find_eq_some (by simpa using others) found
      cases search.symm.trans search'

end Operations

/-! ## Queues of related values -/

section Map

variable {β : Type} (change : α → β)

/-- The same link with another value. -/
def Link.map (link : Link α) : Link β := ⟨link.next, change link.data⟩

/-- The same links with other values. Every operation leaves the values alone. -/
def map (queue : LinkedQueue α) : LinkedQueue β :=
  ⟨queue.links.map (Link.map change), queue.first, queue.last⟩

theorem map_create (queue : LinkedQueue α) (value : α) (stale : Option Nat) :
    (queue.map change).create (change value) stale =
      ((queue.create value stale).1.map change, (queue.create value stale).2) := by
  simp [create, map, Link.map]

theorem map_setNext (queue : LinkedQueue α) (address : Nat) (next : Option Nat) :
    (queue.setNext address next).map change = (queue.map change).setNext address next := by
  have links : (queue.setNext address next).links.map (Link.map change) =
      ((queue.map change).setNext address next).links := by
    refine List.ext_getElem? fun index => ?_
    simp only [setNext, map, List.getElem?_map, List.getElem?_modify]
    cases queue.links[index]? with
    | none => rfl
    | some link =>
        by_cases same : address = index
        · simp [same, Link.map]
        · simp [same, Link.map]
  unfold map at links ⊢
  rw [links]
  rfl

theorem map_append (queue : LinkedQueue α) (address : Nat) :
    (queue.append address).map change = (queue.map change).append address := by
  unfold append
  rw [show (queue.map change).last = queue.last from rfl]
  cases queue.last with
  | none =>
      dsimp only
      rw [← map_setNext]
      rfl
  | some last =>
      dsimp only
      rw [← map_setNext, ← map_setNext]
      rfl

theorem map_appendAtFirst (queue : LinkedQueue α) (address : Nat) :
    (queue.map change).appendAtFirst address =
      (queue.appendAtFirst address).map (map change) := by
  unfold appendAtFirst
  rw [show (queue.map change).first = queue.first from rfl,
    show (queue.map change).last = queue.last from rfl]
  cases queue.first with
  | none =>
      dsimp only
      rw [← map_setNext]
      rfl
  | some first =>
      cases queue.last with
      | none => rfl
      | some last =>
          dsimp only
          rw [← map_setNext, ← map_setNext]
          rfl

theorem map_prepend (queue : LinkedQueue α) (address : Nat) :
    (queue.prepend address).map change = (queue.map change).prepend address := by
  unfold prepend
  rw [show (queue.map change).first = queue.first from rfl]
  cases queue.first with
  | none =>
      dsimp only
      rw [← map_setNext]
      rfl
  | some first =>
      dsimp only
      rw [← map_setNext]
      rfl

theorem map_startBehind (queue : LinkedQueue α) (link : Link α) :
    (queue.startBehind link).map change = (queue.map change).startBehind (Link.map change link) := by
  unfold startBehind
  rw [show (Link.map change link).next = link.next from rfl]
  cases link.next <;> rfl

theorem map_front (queue : LinkedQueue α) :
    (queue.map change).front = queue.front.map (Link.map change) := by
  unfold front
  rw [show (queue.map change).first = queue.first from rfl]
  cases queue.first with
  | none => rfl
  | some first => simp [map]

theorem map_find (queue : LinkedQueue α) (wanted : β → Bool) (fuel : Nat) (current : Option Nat) :
    (queue.map change).find wanted fuel current =
      (queue.find (wanted ∘ change) fuel current).map (Link.map change) := by
  induction fuel generalizing current with
  | zero => rfl
  | succ fuel ih =>
      cases current with
      | none => rfl
      | some current =>
          unfold find
          rw [show (queue.map change).links[current]? =
            (queue.links[current]?).map (Link.map change) from List.getElem?_map ..]
          cases queue.links[current]? with
          | none => rfl
          | some link =>
              simp only [Option.map_some, Link.map, Function.comp_apply]
              split
              · rfl
              · exact ih link.next

theorem map_reach (queue : LinkedQueue α) : (queue.map change).reach = queue.reach := by
  simp [reach, map]

theorem map_values (queue : LinkedQueue α) : (queue.map change).values = queue.values.map change := by
  have collects (fuel : Nat) (current : Option Nat) :
      (queue.map change).collect fuel current = (queue.collect fuel current).map change := by
    induction fuel generalizing current with
    | zero => rfl
    | succ fuel ih =>
        cases current with
        | none => rfl
        | some current =>
            unfold collect
            rw [show (queue.map change).links[current]? =
              (queue.links[current]?).map (Link.map change) from List.getElem?_map ..]
            cases queue.links[current]? with
            | none => rfl
            | some link => exact congrArg (change link.data :: ·) (ih link.next)
  unfold values
  rw [collects, map_reach]
  rfl

end Map

/-! ## A property of all links -/

/-- Every link, whether it is still queued or not, has a value with the property. -/
def All (holds : α → Prop) (queue : LinkedQueue α) : Prop := ∀ link ∈ queue.links, holds link.data

section Properties

variable {holds : α → Prop} {queue : LinkedQueue α}

theorem all_empty : (empty : LinkedQueue α).All holds := by
  intro link member
  cases member

theorem All.create (all : queue.All holds) {value : α} {stale : Option Nat}
    (new : holds value) : (queue.create value stale).1.All holds := by
  intro link member
  rcases List.mem_append.mp member with old | added
  · exact all link old
  · rw [List.mem_singleton.mp added]
    exact new

theorem All.setNext (all : queue.All holds) (address : Nat) (next : Option Nat) :
    (queue.setNext address next).All holds := by
  intro link member
  obtain ⟨index, found⟩ := List.mem_iff_getElem?.mp member
  rw [LinkedQueue.setNext, List.getElem?_modify] at found
  obtain ⟨old, stored, changed⟩ := Option.map_eq_some_iff.mp found
  have kept := all old (List.mem_of_getElem? stored)
  split at changed
  · rw [← changed]
    exact kept
  · rw [← changed]
    exact kept

theorem All.append (all : queue.All holds) (address : Nat) : (queue.append address).All holds := by
  unfold LinkedQueue.append
  have ended := all.setNext address none
  cases queue.last with
  | none => exact ended
  | some last => exact ended.setNext last (some address)

theorem All.appendAtFirst (all : queue.All holds) {address : Nat} {after : LinkedQueue α}
    (appended : queue.appendAtFirst address = some after) : after.All holds := by
  unfold LinkedQueue.appendAtFirst at appended
  split at appended
  · cases appended
    exact all.setNext address none
  · cases appended
  · rename_i last _ _
    have linked := all.setNext last (some address)
    cases appended
    exact linked.setNext address none

theorem All.prepend (all : queue.All holds) (address : Nat) : (queue.prepend address).All holds := by
  unfold LinkedQueue.prepend
  cases queue.first with
  | none => exact all.setNext address none
  | some first => exact all.setNext address (some first)

theorem All.startBehind (all : queue.All holds) (link : Link α) :
    (queue.startBehind link).All holds := by
  unfold LinkedQueue.startBehind
  cases link.next with
  | none => exact all
  | some next => exact all

theorem All.front (all : queue.All holds) {link : Link α} (found : queue.front = some link) :
    holds link.data := by
  obtain ⟨first, _, stored⟩ := Option.bind_eq_some_iff.mp found
  exact all link (List.mem_of_getElem? stored)

theorem All.find (all : queue.All holds) {wanted : α → Bool} {fuel : Nat} {start : Option Nat}
    {link : Link α} (found : queue.find wanted fuel start = some link) : holds link.data := by
  induction fuel generalizing start with
  | zero => cases found
  | succ fuel ih =>
      cases start with
      | none => cases found
      | some current =>
          unfold LinkedQueue.find at found
          cases stored : queue.links[current]? with
          | none =>
              rw [stored] at found
              cases found
          | some head =>
              rw [stored] at found
              dsimp only at found
              split at found
              · cases found
                exact all link (List.mem_of_getElem? stored)
              · exact ih found

theorem All.values (all : queue.All holds) : ∀ value ∈ queue.values, holds value := by
  have collected (fuel : Nat) (start : Option Nat) :
      ∀ value ∈ queue.collect fuel start, holds value := by
    induction fuel generalizing start with
    | zero => simp [collect]
    | succ fuel ih =>
        cases start with
        | none => simp [collect]
        | some current =>
            unfold collect
            cases stored : queue.links[current]? with
            | none => simp
            | some link =>
                intro value member
                rcases List.mem_cons.mp member with rfl | later
                · exact all link (List.mem_of_getElem? stored)
                · exact ih link.next value later
  exact collected _ _

end Properties

end LinkedQueue
