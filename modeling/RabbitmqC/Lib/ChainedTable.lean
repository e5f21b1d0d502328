import RabbitmqC.Lib.LinkedQueue

/-!
# Tables of linked lists

A table whose buckets are the heads of linked lists. The links of all lists lie in one
growing heap, and a new link goes in front of its list. `Maps` says that the table is a
map from keys to the addresses of links.
-/

set_option autoImplicit false

/-- Lists of links, one for each bucket. -/
structure ChainedTable (α : Type) (size : Nat) where
  links : List (Link α)
  buckets : Vector (Option Nat) size

namespace ChainedTable

open LinkedQueue (Chain)

variable {α κ : Type} {size : Nat}

def empty : ChainedTable α size := ⟨[], Vector.replicate size none⟩

/-- The address of the first link from `current` on whose value is wanted. There is no
result if a pointer leaves the heap. -/
def search (table : ChainedTable α size) (wanted : α → Bool) :
    Nat → Option Nat → Option (Option Nat)
  | 0, _ => none
  | _ + 1, none => some none
  | fuel + 1, some current =>
      match table.links[current]? with
      | none => none
      | some link =>
          if wanted link.data then some (some current) else table.search wanted fuel link.next

/-- Enough fuel to visit every link. -/
def reach (table : ChainedTable α size) : Nat := table.links.length + 1

/-- Put a new link in front of a list. -/
def insert (table : ChainedTable α size) (bucket : Fin size) (value : α) :
    ChainedTable α size where
  links := table.links ++ [⟨table.buckets[bucket], value⟩]
  buckets := table.buckets.set bucket (some table.links.length)

/-! ## What a table holds -/

/-- The values, the newest first. -/
def values (table : ChainedTable α size) : List α := (table.links.map Link.data).reverse

/-- The keys, by the addresses of their links. -/
def keys (key : α → κ) (table : ChainedTable α size) : List κ :=
  table.links.map fun link => key link.data

@[simp] theorem keys_empty (key : α → κ) : (empty : ChainedTable α size).keys key = [] := rfl

@[simp] theorem keys_insert (table : ChainedTable α size) (key : α → κ) (bucket : Fin size)
    (value : α) : (table.insert bucket value).keys key = table.keys key ++ [key value] := by
  simp [keys, insert]

theorem values_insert (table : ChainedTable α size) (bucket : Fin size) (value : α) :
    (table.insert bucket value).values = value :: table.values := by
  simp [values, insert]

theorem length_keys (table : ChainedTable α size) (key : α → κ) :
    (table.keys key).length = table.links.length :=
  List.length_map _

theorem map_values (table : ChainedTable α size) (key : α → κ) :
    table.values.map key = (table.keys key).reverse := by
  simp [values, keys]

/-- Each bucket leads to the values whose keys have their place there, and no key has
two of them. -/
structure Maps [DecidableEq κ] (key : α → κ) (place : κ → Fin size)
    (table : ChainedTable α size) : Prop where
  bucket : ∀ index : Fin size, ∃ addresses, Chain table.links table.buckets[index] addresses
    (table.values.filter fun value => place (key value) = index)
  distinct : (table.keys key).Nodup

/-! ## Searching -/

/-- The search along a list ends, at a wanted value if the list has one. -/
theorem search_of_chain {table : ChainedTable α size} {start : Option Nat} {addresses : List Nat}
    {values : List α} (wanted : α → Bool) (chain : Chain table.links start addresses values)
    {fuel : Nat} (enough : values.length < fuel) :
    (∃ address link, table.search wanted fuel start = some (some address) ∧
      table.links[address]? = some link ∧ wanted link.data = true) ∨
    (table.search wanted fuel start = some none ∧ ∀ value ∈ values, wanted value = false) := by
  induction chain generalizing fuel with
  | nil =>
      obtain ⟨fuel, rfl⟩ := Nat.exists_eq_succ_of_ne_zero (Nat.ne_of_gt enough)
      exact .inr ⟨rfl, fun value member => nomatch member⟩
  | @cons head link addresses values found _ ih =>
      obtain ⟨fuel, rfl⟩ := Nat.exists_eq_succ_of_ne_zero (Nat.ne_of_gt (Nat.zero_lt_of_lt enough))
      cases isWanted : wanted link.data with
      | true =>
          refine .inl ⟨head, link, ?_, found, isWanted⟩
          simp only [search, found, isWanted, if_true]
      | false =>
          have onwards : table.search wanted (fuel + 1) (some head) =
              table.search wanted fuel link.next := by
            simp only [search, found, isWanted, Bool.false_eq_true, if_false]
          rw [onwards]
          cases ih (Nat.lt_of_succ_lt_succ enough) with
          | inl later => exact .inl later
          | inr nowhere =>
              refine .inr ⟨nowhere.1, fun value member => ?_⟩
              cases List.mem_cons.mp member with
              | inl isHead => exact isHead ▸ isWanted
              | inr later => exact nowhere.2 value later

section Maps

variable [DecidableEq κ] {key : α → κ} {place : κ → Fin size} {table : ChainedTable α size}

theorem maps_empty : (empty : ChainedTable α size).Maps key place where
  bucket index := by
    have unset : (empty : ChainedTable α size).buckets[index] = none := by simp [empty]
    rw [unset]
    exact ⟨[], .nil⟩
  distinct := List.nodup_nil

/-- The search in the bucket of a key finds its link. -/
theorem Maps.search (maps : table.Maps key place) (wanted : κ) :
    (∃ address, table.search (fun value => key value == wanted) table.reach
        table.buckets[place wanted] = some (some address) ∧
      (table.keys key)[address]? = some wanted) ∨
    (table.search (fun value => key value == wanted) table.reach
        table.buckets[place wanted] = some none ∧ wanted ∉ table.keys key) := by
  obtain ⟨addresses, chain⟩ := maps.bucket (place wanted)
  have short : (table.values.filter fun value => place (key value) = place wanted).length <
      table.reach := by
    have filtered := List.length_filter_le (fun value => place (key value) = place wanted)
      table.values
    simp only [values, List.length_reverse, List.length_map] at filtered
    exact Nat.lt_succ_of_le filtered
  rcases search_of_chain (fun value => key value == wanted) chain short with
    ⟨address, link, found, stored, isWanted⟩ | ⟨ended, others⟩
  · refine .inl ⟨address, found, ?_⟩
    rw [keys, List.getElem?_map, stored]
    exact congrArg some (eq_of_beq isWanted)
  · refine .inr ⟨ended, fun member => ?_⟩
    obtain ⟨value, inside, isKey⟩ : ∃ value ∈ table.values, key value = wanted := by
      rwa [← List.mem_reverse, ← map_values, List.mem_map] at member
    have different := others value (List.mem_filter.mpr ⟨inside, decide_eq_true (by rw [isKey])⟩)
    exact absurd isKey (beq_eq_false_iff_ne.mp different)

/-- A new key gets a link of its own, in front of those of its bucket. -/
theorem Maps.insert (maps : table.Maps key place) {value : α} (new : key value ∉ table.keys key) :
    (table.insert (place (key value)) value).Maps key place where
  bucket index := by
    obtain ⟨addresses, chain⟩ := maps.bucket index
    have kept : Chain (table.insert (place (key value)) value).links table.buckets[index] addresses
        (table.values.filter fun value => place (key value) = index) :=
      chain.congr fun address member => List.getElem?_append_left (chain.mem_lt member)
    rw [values_insert]
    by_cases isPlace : place (key value) = index
    · have head : (table.insert (place (key value)) value).buckets[index] =
          some table.links.length := by
        simp [ChainedTable.insert, isPlace]
      have stored : (table.insert (place (key value)) value).links[table.links.length]? =
          some ⟨table.buckets[place (key value)], value⟩ := by
        simp [ChainedTable.insert]
      rw [head, List.filter_cons_of_pos (by simpa using isPlace)]
      subst isPlace
      exact ⟨_, .cons stored kept⟩
    · have head : (table.insert (place (key value)) value).buckets[index] =
          table.buckets[index] := by
        have apart : (place (key value)).val ≠ index.val := fun same => isPlace (Fin.ext same)
        simp [ChainedTable.insert, Vector.getElem_set_ne _ _ apart]
      rw [head, List.filter_cons_of_neg (by simpa using isPlace)]
      exact ⟨addresses, kept⟩
  distinct := by
    rw [keys_insert]
    exact List.nodup_append.mpr ⟨maps.distinct, by simp, fun _ old _ added same =>
      new (List.mem_singleton.mp added ▸ same ▸ old)⟩

end Maps

end ChainedTable
