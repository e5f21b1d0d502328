import Mathlib.Data.List.Induction
import RabbitmqC.Lib.Effect
import RabbitmqC.Status

/-!
# Counting SSL sockets

`openssl_connections` counts the SSL sockets, and the BIO method lives as long as there
are some. The two files that take part keep a flag each. A socket that cannot be created
because the BIO method cannot, and that would be the only one, ends the process: it is
deleted like one that had been counted.
-/

set_option autoImplicit false

namespace RabbitmqC

open Effect

/-! ## The functions -/

/-- The static variables of both files, and the sockets in memory by the numbers of their
allocation. -/
structure SslState where
  opensslBioInitialized : Bool
  opensslConnections : Nat
  amqpSslBioInitialized : Bool
  amqpBioMethod : Bool
  sockets : List Nat
  allocated : Nat

abbrev Ssl := EStateM Failure SslState

/-- Which of the functions that `amqp_ssl_socket_new` depends on succeed. -/
structure SslOutcomes where
  calloc : Bool
  bioMethNew : Bool
  sslCtxNew : Bool
  deriving DecidableEq

def amqpOpensslBioInit (bioMethNew : Bool) : Ssl (Except Status Unit) := do
  let state ← get
  if state.amqpSslBioInitialized then
    throw (.fault .abort)
  else if bioMethNew then do
    set { state with amqpBioMethod := true, amqpSslBioInitialized := true }
    return .ok ()
  else
    return .error .noMemory

def amqpOpensslBioDestroy : Ssl Unit := do
  let state ← get
  if state.amqpSslBioInitialized then
    set { state with amqpBioMethod := false, amqpSslBioInitialized := false }
  else
    throw (.fault .abort)

/-- `openssl_connections += 1`. -/
def incrementConnections : Ssl Unit :=
  modify fun state => { state with opensslConnections := state.opensslConnections + 1 }

def initializeSslAndIncrementConnections (bioMethNew : Bool) : Ssl (Except Status Unit) := do
  let state ← get
  if state.opensslBioInitialized then do
    incrementConnections
    return .ok ()
  else
    match ← amqpOpensslBioInit bioMethNew with
    | .error status => return .error status
    | .ok () => do
        modify fun state => { state with opensslBioInitialized := true }
        incrementConnections
        return .ok ()

def decrementSslConnections : Ssl Unit := do
  modify fun state => { state with opensslConnections := state.opensslConnections - 1 }
  let state ← get
  if state.opensslConnections = 0 then do
    amqpOpensslBioDestroy
    modify fun state => { state with opensslBioInitialized := false }

/-- `amqp_ssl_socket_delete`, for a socket that is not null. Closing it changes none of the
variables. -/
def amqpSslSocketDelete (socket : Nat) : Ssl Unit := do
  modify fun state => { state with sockets := state.sockets.erase socket }
  decrementSslConnections

/-- `amqp_set_socket` deletes the socket that a connection has had, here if it is an SSL
socket. -/
def amqpSetSocket : Option Nat → Ssl Unit
  | none => return
  | some old => amqpSslSocketDelete old

/-- `calloc` of a socket. -/
def callocSocket : Ssl Nat := do
  let state ← get
  set { state with sockets := state.sockets ++ [state.allocated], allocated := state.allocated + 1 }
  return state.allocated

def amqpSslSocketNew (outcomes : SslOutcomes) (old : Option Nat) : Ssl (Option Nat) := do
  if outcomes.calloc then do
    let socket ← callocSocket
    match ← initializeSslAndIncrementConnections outcomes.bioMethNew with
    | .error _ => do
        amqpSslSocketDelete socket
        return none
    | .ok () =>
        if outcomes.sslCtxNew then do
          amqpSetSocket old
          return some socket
        else do
          amqpSslSocketDelete socket
          return none
  else
    return none

/-! ## Counted states -/

namespace SslState

/-- A state with a count, and with the flags that belong to it. -/
def counting (count : Nat) (sockets : List Nat) (allocated : Nat) : SslState where
  opensslBioInitialized := decide (0 < count)
  opensslConnections := count
  amqpSslBioInitialized := decide (0 < count)
  amqpBioMethod := decide (0 < count)
  sockets := sockets
  allocated := allocated

variable {count allocated : Nat} {sockets : List Nat} {bioMethNew : Bool}

theorem initialize_counting (possible : 0 < count ∨ bioMethNew = true) :
    initializeSslAndIncrementConnections bioMethNew (counting count sockets allocated) =
      .ok (.ok ()) (counting (count + 1) sockets allocated) := by
  cases count with
  | zero =>
      have granted := possible.resolve_left (Nat.lt_irrefl 0)
      subst granted
      rfl
  | succ count => rfl

theorem initialize_counting_zero :
    initializeSslAndIncrementConnections false (counting 0 sockets allocated) =
      .ok (.error .noMemory) (counting 0 sockets allocated) := rfl

theorem decrement_counting :
    decrementSslConnections (counting (count + 1) sockets allocated) =
      .ok () (counting count sockets allocated) := by
  cases count <;> rfl

theorem decrement_counting_zero :
    decrementSslConnections (counting 0 sockets allocated) =
      .error (.fault .abort) (counting 0 sockets allocated) := rfl

theorem delete_counting (socket : Nat) :
    amqpSslSocketDelete socket (counting (count + 1) sockets allocated) =
      .ok () (counting count (sockets.erase socket) allocated) :=
  @decrement_counting count allocated (sockets.erase socket)

theorem callocSocket_counting : callocSocket (counting count sockets allocated) =
    .ok allocated (counting count (sockets ++ [allocated]) (allocated + 1)) := rfl

/-- The count is that of the sockets, and the BIO method is there if they are. -/
structure Counted (state : SslState) : Prop where
  connections : state.opensslConnections = state.sockets.length
  bio : state.opensslBioInitialized = true ↔ 0 < state.sockets.length
  method : state.amqpSslBioInitialized = true ↔ 0 < state.sockets.length
  exists_method : state.amqpBioMethod = true ↔ 0 < state.sockets.length

/-- A counted state whose sockets have been allocated. -/
structure Tidy (state : SslState) : Prop where
  eq_counting : state = counting state.sockets.length state.sockets state.allocated
  allocated : ∀ socket ∈ state.sockets, socket < state.allocated

theorem Tidy.counted {state : SslState} (tidy : state.Tidy) : state.Counted := by
  rw [tidy.eq_counting]
  constructor <;> simp [counting]

end SslState

/-! ## Events -/

inductive SslEvent where
  | new (outcomes : SslOutcomes) (old : Option Nat)
  | delete (socket : Nat)

namespace SslEvent

def perform : SslEvent → Ssl Unit
  | new outcomes old => do
      let _ ← amqpSslSocketNew outcomes old
      return
  | delete socket => amqpSslSocketDelete socket

/-- What is deleted is a socket that is there. -/
def Allowed (state : SslState) : SslEvent → Prop
  | new _ old => ∀ socket, old = some socket → socket ∈ state.sockets
  | delete socket => socket ∈ state.sockets

/-- The BIO method would have to be created for this socket, and is not. -/
def LacksMethod (state : SslState) : SslEvent → Prop
  | new outcomes _ =>
      state.sockets = [] ∧ outcomes.calloc = true ∧ outcomes.bioMethNew = false
  | delete _ => False

end SslEvent

section Events

open SslState

variable {state : SslState} {event : SslEvent}

theorem SslState.Tidy.delete (tidy : state.Tidy) {socket : Nat} (member : socket ∈ state.sockets) :
    ∃ after, amqpSslSocketDelete socket state = .ok () after ∧ after.Tidy := by
  obtain ⟨count, isCount⟩ := Nat.exists_eq_succ_of_ne_zero
    (Nat.ne_of_gt (List.length_pos_of_mem member))
  have erased : (state.sockets.erase socket).length = count := by
    rw [List.length_erase_of_mem member, isCount]
    rfl
  refine ⟨counting count (state.sockets.erase socket) state.allocated, ?_, ?_, ?_⟩
  · have deletes := @delete_counting count state.allocated state.sockets socket
    rwa [← Nat.succ_eq_add_one, ← isCount, ← tidy.eq_counting] at deletes
  · show counting count _ _ = counting (state.sockets.erase socket).length _ _
    rw [erased]
    rfl
  · intro other inside
    exact tidy.allocated other (List.mem_of_mem_erase inside)

/-- The new socket, counted. -/
theorem SslState.Tidy.create (tidy : state.Tidy) :
    (counting (state.sockets.length + 1) (state.sockets ++ [state.allocated])
      (state.allocated + 1)).Tidy where
  eq_counting := by simp [counting]
  allocated socket member := by
    cases List.mem_append.mp member with
    | inl old => exact Nat.lt_succ_of_lt (tidy.allocated socket old)
    | inr new =>
        rw [List.mem_singleton.mp new]
        exact Nat.lt_succ_self _

theorem SslState.Tidy.callocSocket (tidy : state.Tidy) : RabbitmqC.callocSocket state =
    .ok state.allocated (counting state.sockets.length (state.sockets ++ [state.allocated])
      (state.allocated + 1)) := by
  have callocs := @callocSocket_counting state.sockets.length state.allocated state.sockets
  rwa [← tidy.eq_counting] at callocs

/-- A step keeps the state tidy unless the BIO method is lacking. -/
theorem SslState.Tidy.perform (tidy : state.Tidy) (allowed : event.Allowed state)
    (provided : ¬ event.LacksMethod state) :
    ∃ after, event.perform state = .ok () after ∧ after.Tidy := by
  cases event with
  | delete socket => exact tidy.delete allowed
  | new outcomes old =>
      obtain ⟨calloc, bioMethNew, sslCtxNew⟩ := outcomes
      cases calloc with
      | false => exact ⟨state, rfl, tidy⟩
      | true =>
          have possible : 0 < state.sockets.length ∨ bioMethNew = true := by
            cases bioMethNew with
            | true => exact .inr rfl
            | false =>
                exact .inl (List.length_pos_iff.mpr fun empty => provided ⟨empty, rfl, rfl⟩)
          have counted := @initialize_counting _ (state.allocated + 1)
            (state.sockets ++ [state.allocated]) _ possible
          cases sslCtxNew with
          | false =>
              obtain ⟨after, deletes, tidy'⟩ :=
                tidy.create.delete (List.mem_append_right _ List.mem_cons_self)
              refine ⟨after, ?_, tidy'⟩
              exact bind_of_ok ((bind_of_ok tidy.callocSocket).trans
                ((bind_of_ok counted).trans (bind_of_ok deletes)))
          | true =>
              cases old with
              | none =>
                  refine ⟨_, ?_, tidy.create⟩
                  exact bind_of_ok ((bind_of_ok tidy.callocSocket).trans (bind_of_ok counted))
              | some old =>
                  obtain ⟨after, deletes, tidy'⟩ :=
                    tidy.create.delete (List.mem_append_left _ (allowed old rfl))
                  refine ⟨after, ?_, tidy'⟩
                  exact bind_of_ok ((bind_of_ok tidy.callocSocket).trans
                    ((bind_of_ok counted).trans (bind_of_ok deletes)))

/-- The first socket ends the process if the BIO method cannot be created for it. -/
theorem SslState.Tidy.aborts (tidy : state.Tidy) (lacks : event.LacksMethod state) :
    ∃ after, event.perform state = .error (.fault .abort) after := by
  cases event with
  | delete => cases lacks
  | new outcomes old =>
      obtain ⟨calloc, bioMethNew, sslCtxNew⟩ := outcomes
      obtain ⟨empty, rfl, rfl⟩ := lacks
      have callocs := tidy.callocSocket
      rw [empty] at callocs
      have fails := @initialize_counting_zero (state.allocated + 1) [state.allocated]
      have deletes := @decrement_counting_zero (state.allocated + 1)
        ([state.allocated].erase state.allocated)
      exact ⟨_, bind_of_error ((bind_of_ok callocs).trans
        ((bind_of_ok fails).trans (bind_of_error deletes)))⟩

end Events

/-! ## Runs -/

/-- What the static variables are at first. -/
def SslState.initial : SslState := .counting 0 [] 0

/-- The events one after the other, until an assertion fails. -/
def SslEvent.performAll : List SslEvent → Ssl Unit
  | [] => return
  | event :: events => do
      event.perform
      performAll events

namespace SslEvent

variable {past events : List SslEvent} {event : SslEvent} {before state : SslState}

/-- The state that events lead to. -/
def stateAfter (events : List SslEvent) : SslState := endState (performAll events .initial)

/-- Every event is allowed where it happens. -/
def Possible (events : List SslEvent) : Prop :=
  ∀ past event later, events = past ++ event :: later → event.Allowed (stateAfter past)

/-- No assertion fails, and the sockets are counted after every event. -/
def KeepsCount (events : List SslEvent) : Prop :=
  ∀ past later, events = past ++ later →
    performAll past .initial = .ok () (stateAfter past) ∧ (stateAfter past).Counted

theorem performAll_concat (event : SslEvent) : performAll (past ++ [event]) before =
    (performAll past >>= fun _ => event.perform) before := by
  induction past generalizing before with
  | nil => exact congrFun (bind_pure event.perform) before
  | cons first past ih =>
      have regrouped : (performAll (first :: past) >>= fun _ => event.perform) =
          first.perform >>= fun _ => performAll past >>= fun _ => event.perform :=
        bind_assoc ..
      rw [regrouped]
      show (first.perform >>= fun _ => performAll (past ++ [event])) before = _
      cases result : first.perform before with
      | ok _ middle => rw [bind_of_ok result, bind_of_ok result, ih]
      | error failure middle => rw [bind_of_error result, bind_of_error result]

theorem Possible.of_append {later : List SslEvent} (possible : Possible (past ++ later)) :
    Possible past := by
  intro before other rest split
  refine possible before other (rest ++ later) ?_
  rw [split, List.append_assoc]
  rfl

theorem tidy_initial : SslState.initial.Tidy where
  eq_counting := rfl
  allocated _ member := nomatch member

/-- Where no assertion has failed, the state is tidy. -/
theorem tidy_of_performAll (possible : Possible events)
    (performed : performAll events .initial = .ok () state) : state.Tidy := by
  induction events using List.reverseRecOn generalizing state with
  | nil =>
      cases performed
      exact tidy_initial
  | append_singleton past event ih =>
      rw [performAll_concat] at performed
      obtain ⟨_, before, first, last⟩ := bind_eq_ok.mp performed
      have tidy := ih possible.of_append first
      have isBefore : stateAfter past = before := congrArg endState first
      have allowed := possible past event [] rfl
      rw [isBefore] at allowed
      by_cases lacks : event.LacksMethod before
      · obtain ⟨_, aborts⟩ := tidy.aborts lacks
        cases aborts.symm.trans last
      · obtain ⟨after, performs, tidy⟩ := tidy.perform allowed lacks
        cases performs.symm.trans last
        exact tidy

/-- No assertion fails where the BIO method is never lacking. -/
theorem performAll_of_provided (possible : Possible events)
    (provided : ∀ past event later, events = past ++ event :: later →
      ¬ event.LacksMethod (stateAfter past)) :
    performAll events .initial = .ok () (stateAfter events) := by
  induction events using List.reverseRecOn with
  | nil => rfl
  | append_singleton past event ih =>
      have performed := ih possible.of_append fun before other later split =>
        provided before other (later ++ [event]) (by rw [split, List.append_assoc]; rfl)
      have tidy := tidy_of_performAll possible.of_append performed
      obtain ⟨after, performs, _⟩ :=
        tidy.perform (possible past event [] rfl) (provided past event [] rfl)
      have whole : performAll (past ++ [event]) .initial = .ok () after := by
        rw [performAll_concat]
        exact (bind_of_ok performed).trans performs
      rw [whole]
      exact congrArg (EStateM.Result.ok ()) (congrArg endState whole).symm

/-- The sockets are counted unless the BIO method cannot be created for the only one. -/
theorem keepsCount_iff (events : List SslEvent) (possible : Possible events) :
    KeepsCount events ↔ ∀ past event later, events = past ++ event :: later →
      ¬ event.LacksMethod (stateAfter past) := by
  constructor
  · intro keeps past event later split lacks
    subst split
    obtain ⟨performed, _⟩ := keeps past (event :: later) rfl
    obtain ⟨whole, _⟩ := keeps (past ++ [event]) later (by simp)
    rw [performAll_concat, bind_of_ok performed] at whole
    obtain ⟨_, aborts⟩ := (tidy_of_performAll possible.of_append performed).aborts lacks
    cases aborts.symm.trans whole
  · intro provided past later split
    subst split
    have performed : performAll past .initial = .ok () (stateAfter past) :=
      performAll_of_provided possible.of_append fun before other rest isPast =>
        provided before other (rest ++ later) (by rw [isPast, List.append_assoc]; rfl)
    exact ⟨performed, (tidy_of_performAll possible.of_append performed).counted⟩

/-- A socket without SSL context, and then one that is created and deleted. -/
theorem keepsCount_second : KeepsCount
    [.new ⟨true, true, false⟩ none, .new ⟨true, true, true⟩ none, .delete 1] := by
  refine (keepsCount_iff _ ?_).mpr ?_
  · intro past event later split
    rcases past with _ | ⟨_, _ | ⟨_, _ | ⟨_, _⟩⟩⟩ <;> simp at split
    · rw [← split.1]
      intro socket isOld
      cases isOld
    · rw [← split.2.1]
      intro socket isOld
      cases isOld
    · obtain ⟨rfl, rfl, rfl, _⟩ := split
      exact List.mem_cons_self
  · intro past event later split
    rcases past with _ | ⟨_, _ | ⟨_, _ | ⟨_, _⟩⟩⟩ <;> simp at split
    · rw [← split.1]
      exact fun lacks => Bool.noConfusion lacks.2.2
    · rw [← split.2.1]
      exact fun lacks => Bool.noConfusion lacks.2.2
    · rw [← split.2.2.1]
      exact id

/-- The first socket, for which `BIO_meth_new` fails. -/
theorem first_socket_aborts : Possible [.new ⟨true, false, true⟩ none] ∧
    ¬ KeepsCount [.new ⟨true, false, true⟩ none] := by
  constructor
  · intro past event later split
    rcases past with _ | ⟨_, _⟩ <;> simp at split
    rw [← split.1]
    intro socket isOld
    cases isOld
  · intro keeps
    obtain ⟨performed, _⟩ := keeps [.new ⟨true, false, true⟩ none] [] rfl
    cases performed

end SslEvent

end RabbitmqC
