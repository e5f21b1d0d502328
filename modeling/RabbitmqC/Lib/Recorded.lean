import RabbitmqC.Lib.Effect

/-!
# Computations that record what they do

A recorded computation keeps a list of events beside its state. Without the
events it is a plain computation.
-/

set_option autoImplicit false

namespace Recorded

open Effect

structure Logged (σ τ : Type) where
  state : σ
  events : List τ

variable {ε σ τ α β : Type}

/-- Does what a plain computation does and records nothing. -/
def quiet (run : EStateM ε σ α) : EStateM ε (Logged σ τ) α := fun logged =>
  match run logged.state with
  | .ok value state => .ok value { logged with state }
  | .error exception state => .error exception { logged with state }

/-- Looks at the state and records events. -/
def observe (view : σ → α) (events : σ → List τ) : EStateM ε (Logged σ τ) α := fun logged =>
  .ok (view logged.state) { logged with events := logged.events ++ events logged.state }

def erase : EStateM.Result ε (Logged σ τ) α → EStateM.Result ε σ α
  | .ok value logged => .ok value logged.state
  | .error exception logged => .error exception logged.state

/-- Without its events, the computation is the plain one. -/
def Forgets (recorded : EStateM ε (Logged σ τ) α) (plain : EStateM ε σ α) : Prop :=
  ∀ logged, erase (recorded logged) = plain logged.state

namespace Forgets

variable {recorded : EStateM ε (Logged σ τ) α} {plain : EStateM ε σ α}

theorem ok {logged final : Logged σ τ} {value : α} (forgets : Forgets recorded plain)
    (runs : recorded logged = .ok value final) : plain logged.state = .ok value final.state := by
  rw [← forgets logged, runs]
  rfl

theorem pure {value : α} :
    Forgets (pure value : EStateM ε (Logged σ τ) α) (pure value) := fun _ => rfl

theorem throw {exception : ε} :
    Forgets (throw exception : EStateM ε (Logged σ τ) α) (throw exception) := fun _ => rfl

theorem quiet : Forgets (quiet plain : EStateM ε (Logged σ τ) α) plain := by
  intro logged
  unfold Recorded.quiet
  cases plain logged.state <;> rfl

theorem bind {recordedNext : α → EStateM ε (Logged σ τ) β} {plainNext : α → EStateM ε σ β}
    (first : Forgets recorded plain)
    (second : ∀ value, Forgets (recordedNext value) (plainNext value)) :
    Forgets (recorded >>= recordedNext) (plain >>= plainNext) := by
  intro logged
  have erased := first logged
  cases runs : recorded logged with
  | ok value final =>
      rw [runs] at erased
      rw [bind_of_ok runs, bind_of_ok erased.symm]
      exact second value final
  | error exception final =>
      rw [runs] at erased
      rw [bind_of_error runs, bind_of_error erased.symm]
      rfl

theorem ite {condition : Prop} [Decidable condition] {recordedElse : EStateM ε (Logged σ τ) α}
    {plainElse : EStateM ε σ α} (yes : condition → Forgets recorded plain)
    (no : ¬ condition → Forgets recordedElse plainElse) :
    Forgets (if condition then recorded else recordedElse)
      (if condition then plain else plainElse) := by
  by_cases holds : condition
  · rw [if_pos holds, if_pos holds]
    exact yes holds
  · rw [if_neg holds, if_neg holds]
    exact no holds

/-- A look at the state stands for reading all of it. -/
theorem observe_bind {view : σ → α} {events : σ → List τ}
    {recordedNext : α → EStateM ε (Logged σ τ) β} {plainNext : σ → EStateM ε σ β}
    (continues : ∀ logged : Logged σ τ,
      erase (recordedNext (view logged.state) logged) = plainNext logged.state logged.state) :
    Forgets (observe view events >>= recordedNext) (get >>= plainNext) := by
  intro logged
  exact continues { logged with events := logged.events ++ events logged.state }

/-- Recording alone changes nothing. -/
theorem after_recording {events : σ → List τ} (forgets : Forgets recorded plain) :
    Forgets (observe (fun _ => ()) events >>= fun _ => recorded) plain := by
  intro logged
  exact forgets { logged with events := logged.events ++ events logged.state }

end Forgets

/-! ## Pre- and postconditions -/

section Conditions

variable {before : Logged σ τ → Prop} {returned : α → Logged σ τ → Prop}
  {raised : ε → Logged σ τ → Prop}

theorem triple_observe {view : σ → α} {events : σ → List τ}
    (holds : ∀ logged, before logged → returned (view logged.state)
      { logged with events := logged.events ++ events logged.state }) :
    Triple before (observe view events) returned raised :=
  fun logged => holds logged

theorem triple_quiet {run : EStateM ε σ α}
    (returns : ∀ logged, before logged → ∃ value state, run logged.state = .ok value state ∧
      returned value { logged with state }) :
    Triple before (quiet run) returned raised := by
  intro logged holds
  obtain ⟨value, state, runs, result⟩ := returns logged holds
  unfold quiet
  rw [runs]
  exact result

end Conditions

end Recorded
