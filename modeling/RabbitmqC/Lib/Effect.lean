import Mathlib.Order.Defs.Unbundled
import Mathlib.Tactic.Common

/-!
# Computations that keep their state when they fail

Inversion laws and pre/postcondition rules for `EStateM`. A postcondition has
two halves, one for a returned value and one for a raised exception, because
the state reached by a failing computation is observable.
-/

set_option autoImplicit false

namespace Effect

variable {ε σ α β : Type}

/-! ## Running single operations -/

@[simp] theorem pure_run (value : α) (state : σ) :
    (pure value : EStateM ε σ α) state = .ok value state := rfl

@[simp] theorem throw_run (exception : ε) (state : σ) :
    (throw exception : EStateM ε σ α) state = .error exception state := rfl

@[simp] theorem get_run (state : σ) : (get : EStateM ε σ σ) state = .ok state state := rfl

@[simp] theorem set_run (next state : σ) :
    (set next : EStateM ε σ PUnit) state = .ok ⟨⟩ next := rfl

@[simp] theorem modify_run (change : σ → σ) (state : σ) :
    (modify change : EStateM ε σ PUnit) state = .ok ⟨⟩ (change state) := rfl

/-! ## Sequencing -/

section Sequencing

variable {first : EStateM ε σ α} {next : α → EStateM ε σ β} {state after final : σ}
  {value : α} {result : β} {exception : ε}

theorem bind_of_ok (returned : first state = .ok value after) :
    (first >>= next) state = next value after := by
  simp only [bind, EStateM.bind, returned]

theorem bind_of_error (raised : first state = .error exception after) :
    (first >>= next) state = .error exception after := by
  simp only [bind, EStateM.bind, raised]

theorem bind_eq_ok : (first >>= next) state = .ok result final ↔
    ∃ value after, first state = .ok value after ∧ next value after = .ok result final := by
  simp only [bind, EStateM.bind]
  cases first state with
  | ok value after => simp
  | error exception after => simp

theorem bind_eq_error : (first >>= next) state = .error exception final ↔
    first state = .error exception final ∨
      ∃ value after, first state = .ok value after ∧ next value after = .error exception final := by
  simp only [bind, EStateM.bind]
  cases first state with
  | ok value after => simp
  | error raised after => simp

theorem map_eq_ok {change : α → β} : (change <$> first) state = .ok result final ↔
    ∃ value, first state = .ok value final ∧ change value = result := by
  simp only [Functor.map, EStateM.map]
  cases first state with
  | ok value after =>
      simp only [EStateM.Result.ok.injEq]
      constructor
      · rintro ⟨rfl, rfl⟩
        exact ⟨value, ⟨rfl, rfl⟩, rfl⟩
      · rintro ⟨_, ⟨rfl, rfl⟩, rfl⟩
        exact ⟨rfl, rfl⟩
  | error exception after => simp

theorem map_of_ok {change : α → β} (returned : first state = .ok value after) :
    (change <$> first) state = .ok (change value) after := by
  simp only [Functor.map, EStateM.map, returned]

theorem map_of_error {change : α → β} (raised : first state = .error exception after) :
    (change <$> first) state = .error exception after := by
  simp only [Functor.map, EStateM.map, raised]

end Sequencing

/-! ## Pre- and postconditions -/

/-- Started in a state with `before`, the computation returns with `returned` or
fails with `raised`. -/
def Triple (before : σ → Prop) (run : EStateM ε σ α) (returned : α → σ → Prop)
    (raised : ε → σ → Prop) : Prop :=
  ∀ ⦃state⦄, before state →
    match run state with
    | .ok value after => returned value after
    | .error exception after => raised exception after

/-- The computation keeps an invariant, also when it fails. -/
def Keeps (invariant : σ → Prop) (run : EStateM ε σ α) : Prop :=
  Triple invariant run (fun _ => invariant) (fun _ => invariant)

namespace Triple

variable {before weaker : σ → Prop} {run : EStateM ε σ α} {returned stronger : α → σ → Prop}
  {raised : ε → σ → Prop}

theorem ok {state after : σ} {value : α} (triple : Triple before run returned raised)
    (holds : before state) (runs : run state = .ok value after) : returned value after := by
  have result := triple holds
  rw [runs] at result
  exact result

theorem error {state after : σ} {exception : ε} (triple : Triple before run returned raised)
    (holds : before state) (runs : run state = .error exception after) :
    raised exception after := by
  have result := triple holds
  rw [runs] at result
  exact result

theorem pure {value : α} (holds : ∀ state, before state → returned value state) :
    Triple before (pure value) returned raised :=
  fun state => holds state

theorem throw {exception : ε} (holds : ∀ state, before state → raised exception state) :
    Triple before (throw exception : EStateM ε σ α) returned raised :=
  fun state => holds state

theorem bind {next : α → EStateM ε σ β} {ended : β → σ → Prop}
    (first : Triple before run returned raised)
    (second : ∀ value, Triple (returned value) (next value) ended raised) :
    Triple before (run >>= next) ended raised := by
  intro state holds
  cases runs : run state with
  | ok value after =>
      rw [bind_of_ok runs]
      exact second value (first.ok holds runs)
  | error exception after =>
      rw [bind_of_error runs]
      exact first.error holds runs

theorem weaken (triple : Triple before run stronger raised)
    (implies : ∀ value state, stronger value state → returned value state) :
    Triple before run returned raised := by
  intro state holds
  cases runs : run state with
  | ok value after => exact implies value after (triple.ok holds runs)
  | error exception after => exact triple.error holds runs

theorem raise {other : ε → σ → Prop} (triple : Triple before run returned raised)
    (implies : ∀ exception state, raised exception state → other exception state) :
    Triple before run returned other := by
  intro state holds
  cases runs : run state with
  | ok value after => exact triple.ok holds runs
  | error exception after => exact implies exception after (triple.error holds runs)

theorem strengthen (triple : Triple weaker run returned raised)
    (implies : ∀ state, before state → weaker state) : Triple before run returned raised :=
  fun state holds => triple (implies state holds)

theorem ite {condition : Prop} [Decidable condition] {other : EStateM ε σ α}
    (yes : condition → Triple before run returned raised)
    (no : ¬ condition → Triple before other returned raised) :
    Triple before (if condition then run else other) returned raised := by
  split
  · exact yes ‹_›
  · exact no ‹_›

/-- Reading the state fixes it for what follows. -/
theorem get_bind {next : σ → EStateM ε σ α}
    (continues : ∀ state, before state → Triple (state = ·) (next state) returned raised) :
    Triple before (get >>= next) returned raised :=
  fun state holds => continues state holds rfl

/-- What follows does not depend on the state that was read. -/
theorem read_bind {next : σ → EStateM ε σ α}
    (continues : ∀ value, Triple before (next value) returned raised) :
    Triple before (get >>= next) returned raised :=
  fun state => @continues state state

theorem modify {change : σ → σ} {returned : PUnit → σ → Prop}
    (holds : ∀ state, before state → returned ⟨⟩ (change state)) :
    Triple before (modify change : EStateM ε σ PUnit) returned raised :=
  fun state => holds state

end Triple

/-! ## Results -/

/-- The value of a computation that has returned. -/
def returned? : EStateM.Result ε σ α → Option α
  | .ok value _ => some value
  | .error _ _ => none

theorem returned?_eq_some {result : EStateM.Result ε σ α} {value : α} :
    returned? result = some value ↔ ∃ after, result = .ok value after := by
  cases result with
  | ok other after => simp [returned?]
  | error exception after => simp [returned?]

/-- How a computation ends, without its state. -/
def outcome : EStateM.Result ε σ α → Except ε α
  | .ok value _ => .ok value
  | .error exception _ => .error exception

/-! ## Moving along a preorder -/

/-- The state at the end, also if the computation fails. -/
def endState : EStateM.Result ε σ α → σ
  | .ok _ after => after
  | .error _ after => after

/-- However the computation ends, it has moved its state along a relation. -/
def Moves (along : σ → σ → Prop) (run : EStateM ε σ α) : Prop :=
  ∀ state, along state (endState (run state))

/-- The relation of two states that show the same. -/
def Unchanged {τ : Type} (view : σ → τ) (before after : σ) : Prop := view after = view before

instance {τ : Type} {view : σ → τ} : IsPreorder σ (Unchanged view) where
  refl _ := rfl
  trans _ _ _ first second := Eq.trans second first

namespace Moves

variable {along : σ → σ → Prop} {run : EStateM ε σ α} {next : α → EStateM ε σ β}

theorem ok {state after : σ} {value : α} (moves : Moves along run)
    (runs : run state = .ok value after) : along state after := by
  have moved := moves state
  rwa [runs] at moved

theorem error {state after : σ} {exception : ε} (moves : Moves along run)
    (runs : run state = .error exception after) : along state after := by
  have moved := moves state
  rwa [runs] at moved

/-- A property that the relation carries over is an invariant. -/
theorem keeps {invariant : σ → Prop} (moves : Moves along run)
    (carried : ∀ before after, along before after → invariant before → invariant after) :
    Keeps invariant run := by
  intro state holds
  cases runs : run state with
  | ok value after => exact carried state after (moves.ok runs) holds
  | error exception after => exact carried state after (moves.error runs) holds

theorem mono {other : σ → σ → Prop} (moves : Moves along run)
    (implies : ∀ before after, along before after → other before after) : Moves other run :=
  fun state => implies state _ (moves state)

theorem get_bind {next : σ → EStateM ε σ β}
    (moves : ∀ state, along state (endState (next state state))) :
    Moves along (get >>= next) := moves

theorem ite {condition : Prop} [Decidable condition] {other : EStateM ε σ α}
    (yes : condition → Moves along run) (no : ¬ condition → Moves along other) :
    Moves along (if condition then run else other) := by
  split
  · exact yes ‹_›
  · exact no ‹_›

theorem modify {change : σ → σ} (moves : ∀ state, along state (change state)) :
    Moves along (modify change : EStateM ε σ PUnit) := moves

variable [IsPreorder σ along]

theorem pure {value : α} : Moves along (pure value : EStateM ε σ α) := fun state => refl_of along state

theorem throw {exception : ε} : Moves along (throw exception : EStateM ε σ α) :=
  fun state => refl_of along state

theorem get : Moves along (get : EStateM ε σ σ) := fun state => refl_of along state

theorem bind (first : Moves along run) (second : ∀ value, Moves along (next value)) :
    Moves along (run >>= next) := by
  intro state
  cases runs : run state with
  | ok value after =>
      rw [bind_of_ok runs]
      exact trans_of along (first.ok runs) (second value after)
  | error exception after =>
      rw [bind_of_error runs]
      exact first.error runs

theorem set_bind {state after : σ} (moved : along state after) (rest : Moves along run) :
    along state (endState ((set after >>= fun _ => run) state)) :=
  trans_of along moved (rest after)

end Moves

/-! ## Exceptions -/

/-- Whatever goes wrong, the exception is an expected one. -/
def Raises (expected : ε → Prop) (run : EStateM ε σ α) : Prop :=
  ∀ ⦃before after exception⦄, run before = .error exception after → expected exception

namespace Raises

variable {expected : ε → Prop} {run : EStateM ε σ α} {next : α → EStateM ε σ β}

theorem pure (value : α) : Raises expected (pure value : EStateM ε σ α) := by
  intro before after exception raised
  cases raised

theorem get : Raises expected (get : EStateM ε σ σ) := by
  intro before after exception raised
  cases raised

theorem throw {exception : ε} (isExpected : expected exception) :
    Raises expected (throw exception : EStateM ε σ α) := by
  intro before after exception raised
  cases raised
  exact isExpected

theorem bind (head : Raises expected run) (tail : ∀ value, Raises expected (next value)) :
    Raises expected (run >>= next) := by
  intro before after exception raised
  rcases bind_eq_error.mp raised with early | ⟨value, middle, _, late⟩
  · exact head early
  · exact tail value late

theorem mono {other : ε → Prop} (raises : Raises expected run)
    (implies : ∀ exception, expected exception → other exception) : Raises other run :=
  fun _ _ exception raised => implies exception (raises raised)

theorem map (change : α → β) (head : Raises expected run) : Raises expected (change <$> run) :=
  bind head fun value => pure (change value)

theorem set (next : σ) : Raises expected (set next : EStateM ε σ PUnit) := by
  intro before after exception raised
  cases raised

theorem modify (change : σ → σ) : Raises expected (modify change : EStateM ε σ PUnit) := by
  intro before after exception raised
  cases raised

theorem ite {condition : Prop} [Decidable condition] {other : EStateM ε σ α}
    (yes : condition → Raises expected run) (no : ¬ condition → Raises expected other) :
    Raises expected (if condition then run else other) := by
  split
  · exact yes ‹_›
  · exact no ‹_›

end Raises

/-! ## Two runs side by side -/

/-- Both return the same value, or both fail alike, in related states. -/
inductive Alike (related : σ → σ → Prop) :
    EStateM.Result ε σ α → EStateM.Result ε σ α → Prop where
  | ok {value : α} {left right : σ} :
      related left right → Alike related (.ok value left) (.ok value right)
  | error {exception : ε} {left right : σ} :
      related left right → Alike related (.error exception left) (.error exception right)

/-- What the computation does is determined by what related states have in common. -/
def Lockstep (related : σ → σ → Prop) (run : EStateM ε σ α) : Prop :=
  ∀ ⦃left right⦄, related left right → Alike related (run left) (run right)

namespace Lockstep

variable {related : σ → σ → Prop} {run : EStateM ε σ α} {next : α → EStateM ε σ β}

theorem pure {value : α} : Lockstep related (pure value : EStateM ε σ α) :=
  fun _ _ same => .ok same

theorem throw {exception : ε} : Lockstep related (throw exception : EStateM ε σ α) :=
  fun _ _ same => .error same

theorem bind (first : Lockstep related run) (second : ∀ value, Lockstep related (next value)) :
    Lockstep related (run >>= next) := by
  intro left right same
  have alike := first same
  cases runs : run left with
  | ok value after =>
      rw [runs] at alike
      cases other : run right with
      | ok _ _ =>
          rw [other] at alike
          cases alike with
          | ok same =>
              rw [bind_of_ok runs, bind_of_ok other]
              exact second value same
      | error _ _ =>
          rw [other] at alike
          cases alike
  | error exception after =>
      rw [runs] at alike
      cases other : run right with
      | ok _ _ =>
          rw [other] at alike
          cases alike
      | error _ _ =>
          rw [other] at alike
          cases alike with
          | error same =>
              rw [bind_of_error runs, bind_of_error other]
              exact .error same

theorem get_bind {next : σ → EStateM ε σ α}
    (continues : ∀ left right, related left right →
      Alike related (next left left) (next right right)) :
    Lockstep related (get >>= next) := fun left right => continues left right

end Lockstep

/-! ## Failing without a state -/

section Failing

variable {first : Except ε α} {next : α → Except ε β} {value : α} {result : β} {exception : ε}

theorem except_bind_ok : (Except.ok value : Except ε α) >>= next = next value := rfl

theorem except_bind_error :
    (Except.error exception : Except ε α) >>= next = .error exception := rfl

theorem except_bind_eq_ok : first >>= next = .ok result ↔
    ∃ value, first = .ok value ∧ next value = .ok result := by
  cases first with
  | ok value => simp [except_bind_ok]
  | error exception => simp [except_bind_error]

theorem except_bind_eq_error : first >>= next = .error exception ↔
    first = .error exception ∨ ∃ value, first = .ok value ∧ next value = .error exception := by
  cases first with
  | ok value => simp [except_bind_ok]
  | error raised => simp [except_bind_error]

end Failing

end Effect
