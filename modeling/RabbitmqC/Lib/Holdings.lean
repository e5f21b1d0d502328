import Mathlib.Algebra.Order.Group.Multiset
import Mathlib.Data.Finset.Card
import RabbitmqC.Lib.Effect

/-!
# Keeping account of resources

A state holds resources by name. What is acquired gets a name that nothing held has, and only
what is held can be released. A specification says what is held before and behind.
-/

set_option autoImplicit false

namespace Holdings

open Effect

variable {κ : Type} [DecidableEq κ]

/-- The first number whose name nothing held has. -/
def firstFree (name : Nat → κ) (held : Multiset κ) : Nat :=
  ((List.range (Multiset.card held + 1)).find? fun number => name number ∉ held).getD 0

theorem firstFree_free {name : Nat → κ} {held : Multiset κ} (injective : Function.Injective name) :
    name (firstFree name held) ∉ held := by
  unfold firstFree
  cases found : (List.range (Multiset.card held + 1)).find? fun number => name number ∉ held with
  | some number => simpa using List.find?_some found
  | none =>
      have taken : ∀ number < Multiset.card held + 1, name number ∈ held := by
        simpa using found
      have within : (Finset.range (Multiset.card held + 1)).image name ⊆ held.toFinset := by
        intro resource member
        obtain ⟨number, inside, rfl⟩ := Finset.mem_image.mp member
        exact Multiset.mem_toFinset.mpr (taken number (Finset.mem_range.mp inside))
      have crowded := Finset.card_le_card within
      rw [Finset.card_image_of_injective _ injective, Finset.card_range] at crowded
      exact absurd (crowded.trans (Multiset.toFinset_card_le held)) (Nat.not_succ_le_self _)

/-- Where a state keeps what it holds. -/
structure Account (κ σ : Type) where
  held : σ → Multiset κ
  put : σ → Multiset κ → σ
  held_put (state : σ) (resources : Multiset κ) : held (put state resources) = resources

namespace Account

variable {ε σ α : Type} {account : Account κ σ}

def acquire (account : Account κ σ) (name : Nat → κ) : EStateM ε σ Nat := do
  let state ← get
  let number := firstFree name (account.held state)
  set (account.put state (name number ::ₘ account.held state))
  return number

/-- To release what is not held is a failure. -/
def release (account : Account κ σ) (resource : κ) (absent : ε) : EStateM ε σ Unit := do
  let state ← get
  if resource ∈ account.held state then
    set (account.put state ((account.held state).erase resource))
  else
    throw absent

/-- The state holds these resources, each once. -/
def Holds (account : Account κ σ) (resources : Multiset κ) (state : σ) : Prop :=
  account.held state = resources ∧ resources.Nodup

/-- The account is apart from what this is about. -/
def Apart (account : Account κ σ) (still : σ → Prop) : Prop :=
  ∀ state resources, still state → still (account.put state resources)

variable {resources : Multiset κ} {resource : κ} {name : Nat → κ} {raised : ε → σ → Prop}
  {absent : ε} {still : σ → Prop}

theorem acquires (apart : account.Apart still) (injective : Function.Injective name) :
    Triple (fun state => account.Holds resources state ∧ still state) (account.acquire name)
      (fun number state => account.Holds (name number ::ₘ resources) state ∧ still state) raised := by
  rintro state ⟨⟨holds, once⟩, isStill⟩
  refine ⟨⟨?_, Multiset.nodup_cons.mpr ⟨?_, once⟩⟩, apart _ _ isStill⟩
  · show account.held (account.put _ _) = _
    rw [account.held_put, holds]
  · rw [← holds]
    exact firstFree_free injective

theorem releases (apart : account.Apart still) :
    Triple (fun state => account.Holds (resource ::ₘ resources) state ∧ still state)
      (account.release resource absent)
      (fun _ state => account.Holds resources state ∧ still state) raised := by
  rintro state ⟨⟨holds, once⟩, isStill⟩
  have isHeld : resource ∈ account.held state := by
    rw [holds]
    exact Multiset.mem_cons_self _ _
  have runs : account.release resource absent state =
      .ok () (account.put state ((account.held state).erase resource)) := by
    unfold release
    rw [bind_of_ok (get_run state), if_pos isHeld]
    rfl
  rw [runs]
  refine ⟨⟨?_, (Multiset.nodup_cons.mp once).2⟩, apart _ _ isStill⟩
  rw [account.held_put, holds, Multiset.erase_cons_head]

end Account

end Holdings
