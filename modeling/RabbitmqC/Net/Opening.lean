import RabbitmqC.Lib.Holdings
import RabbitmqC.Socket.Delivery

/-!
# Opening TCP sockets

`amqp_open_socket_inner` tries the addresses of a host one after the other. What the calls
acquire from the system and the allocator is kept account of, so that a descriptor that is
neither returned nor closed would show.
-/

set_option autoImplicit false

namespace RabbitmqC.Net

open Effect Holdings

/-! ## Resources -/

inductive Resource where
  /-- A result of `getaddrinfo`. -/
  | addressList (number : Nat)
  | descriptor (number : Int)
  /-- The memory of a socket object. -/
  | block (number : Nat)
  /-- An `SSL_CTX`. -/
  | context (number : Nat)
  /-- An `SSL`. -/
  | session (number : Nat)
  | bio (number : Nat)
  /-- A reference to an `X509`. -/
  | certificate (number : Nat)
  deriving DecidableEq

/-- A connection's clock and polls, and what the process holds. -/
structure Host where
  world : World
  held : Multiset Resource
  /-- Whether `close` succeeds, call by call. -/
  closes : List Bool

abbrev NetCall := EStateM Stop Host

def account : Account Resource Host where
  held := Host.held
  put host held := { host with held }
  held_put _ _ := rfl

def acquire (name : Nat → Resource) : NetCall Nat := account.acquire name

/-- To free what is not held is undefined. -/
def release (resource : Resource) : NetCall Unit := account.release resource (.fault .wrongObject)

def onWorld {α : Type} (call : Call α) : NetCall α := fun host =>
  match call host.world with
  | .ok value world => .ok value { host with world }
  | .error stop world => .error stop { host with world }

/-- `amqp_os_socket_close`. The descriptor stays if the system does not close it. -/
def amqpOsSocketClose (sockfd : Int) : NetCall Bool := do
  let host ← get
  match host.closes with
  | [] => throw .blocked
  | closed :: rest => do
      set { host with closes := rest }
      if closed = true ∧ .descriptor sockfd ∈ host.held then do
        release (.descriptor sockfd)
        return true
      else
        return false

/-! ## Connecting -/

inductive ConnectAnswer where
  | connected
  /-- `EINPROGRESS`. -/
  | inProgress
  | failed
  deriving DecidableEq

/-- An address, and which calls succeed while it is tried. -/
structure Address where
  socket : Bool
  getDescriptorFlags : Bool
  setDescriptorFlags : Bool
  getStatusFlags : Bool
  setStatusFlags : Bool
  noDelay : Bool
  keepAlive : Bool
  connect : ConnectAnswer
  /-- `getsockopt` succeeds and `SO_ERROR` is 0. -/
  noError : Bool

/-- The label `err`. -/
def abandon (sockfd : Int) (lastError : Status) : NetCall Int := do
  let _ ← amqpOsSocketClose sockfd
  return lastError.code

def connectSocket (address : Address) (deadline : UInt64) (fuel : Nat) : NetCall Int := do
  if address.socket = false then
    return Status.socketError.code
  else do
    let sockfd ← acquire fun number => .descriptor number
    if address.getDescriptorFlags = false ∨ address.setDescriptorFlags = false then
      abandon sockfd .socketError
    else if address.getStatusFlags = false ∨ address.setStatusFlags = false then
      abandon sockfd .socketError
    else if address.noDelay = false then
      abandon sockfd .socketError
    else if address.keepAlive = false then
      abandon sockfd .socketError
    else
      match address.connect with
      | .connected => return sockfd
      | .failed => abandon sockfd .socketError
      | .inProgress => do
          match ← onWorld (amqpPoll .toSend deadline fuel) with
          | .error lastError => abandon sockfd lastError
          | .ok () =>
              if address.noError then
                return sockfd
              else
                abandon sockfd .socketError

/-- The loop over the addresses: `sockfd` and `last_error` behind it. -/
def tryAddresses (deadline : UInt64) (fuel : Nat) : List Address → Int → Int → NetCall (Int × Int)
  | [], sockfd, lastError => return (sockfd, lastError)
  | address :: rest, _, lastError => do
      let sockfd ← connectSocket address deadline fuel
      if sockfd ≥ 0 then
        return (sockfd, 0)
      else if sockfd = Status.timeout.code then
        return (sockfd, sockfd)
      else
        tryAddresses deadline fuel rest sockfd lastError

/-- `none` if the name is not resolved. -/
def amqpOpenSocketInner (addresses : Option (List Address)) (deadline : UInt64) (fuel : Nat) :
    NetCall Int := do
  match addresses with
  | none => return Status.hostnameResolutionFailed.code
  | some addresses => do
      let addressList ← acquire .addressList
      let (sockfd, lastError) ← tryAddresses deadline fuel addresses (-1) 0
      release (.addressList addressList)
      if lastError ≠ 0 ∨ sockfd = -1 then
        return lastError
      else
        return sockfd

def amqpOpenSocketNoblock (addresses : Option (List Address)) (timeout : Option Timeval)
    (fuel : Nat) : NetCall Int := do
  match ← onWorld (amqpTimeFromNow timeout) with
  | .error status => return status.code
  | .ok deadline => amqpOpenSocketInner addresses deadline fuel

/-! ## TCP sockets -/

structure TcpSocket where
  block : Nat
  sockfd : Int
  deriving DecidableEq

def amqpTcpSocketOpen (self : TcpSocket) (addresses : Option (List Address))
    (timeout : Option Timeval) (fuel : Nat) : NetCall (Except Status Unit × TcpSocket) := do
  if self.sockfd ≠ -1 then
    return (.error .socketInuse, self)
  else do
    let sockfd ← amqpOpenSocketNoblock addresses timeout fuel
    if 0 > sockfd then
      return (.error (.ofCode sockfd), { self with sockfd := -1 })
    else
      return (.ok (), { self with sockfd })

def amqpTcpSocketClose (self : TcpSocket) : NetCall (Except Status Unit × TcpSocket) := do
  if self.sockfd = -1 then
    return (.error .socketClosed, self)
  else do
    if ← amqpOsSocketClose self.sockfd then
      return (.ok (), { self with sockfd := -1 })
    else
      return (.error .socketError, self)

def amqpTcpSocketDelete (self : TcpSocket) : NetCall Unit := do
  let _ ← amqpTcpSocketClose self
  release (.block self.block)

/-! ## What is held -/

def ClosesSucceed (host : Host) : Prop := ∀ closed ∈ host.closes, closed = true

/-- What the process holds, while no `close` fails. -/
def Owns (held : Multiset Resource) (host : Host) : Prop :=
  account.Holds held host ∧ ClosesSucceed host

theorem apart_closesSucceed : account.Apart ClosesSucceed := fun _ _ succeed => succeed

/-- The descriptor that a call has returned. -/
def descriptorOf (sockfd : Int) : Multiset Resource :=
  if 0 ≤ sockfd then {.descriptor sockfd} else 0

/-- Calls stop only where the model has no answer or no fuel for them. -/
def Stopped : Stop → Host → Prop
  | .blocked, _ => True
  | .fault fault, _ => fault = .outOfFuel

/-- A call returns such results, and stops only for the model's sake. -/
def Modelled {α : Type} (call : Call α) (result : α → Prop) : Prop :=
  Triple (fun _ => True) call (fun value _ => result value)
    (fun stop _ => ∀ fault, stop = .fault fault → fault = .outOfFuel)

section Calls

theorem modelled_ask {α : Type} {answers : Script → List α} {keep : Script → List α → Script} :
    Modelled (ask answers keep) fun _ => True := by
  refine Triple.get_bind fun world _ => ?_
  cases answers world.script with
  | nil => exact .throw fun _ _ fault isFault => by cases isFault
  | cons answer rest => exact fun _ _ => trivial

theorem modelled_timeMsUntil (time : UInt64) : Modelled (amqpTimeMsUntil time) fun _ => True := by
  refine .ite (fun _ => .pure fun _ _ => trivial) fun _ =>
    .ite (fun _ => .pure fun _ _ => trivial) fun _ => ?_
  refine Triple.bind modelled_ask fun now => ?_
  exact .ite (fun _ => .pure fun _ _ => trivial) fun _ =>
    .ite (fun _ => .pure fun _ _ => trivial) fun _ => .pure fun _ _ => trivial

theorem modelled_waitingPoll (waiting : Waiting) : Modelled waiting.poll fun _ => True := by
  unfold Waiting.poll
  cases waiting <;> exact modelled_ask

/-- No failure is taken for the -1 that stands for no descriptor. -/
def Told {α : Type} (result : Except Status α) : Prop :=
  ∀ status, result = .error status → status.code < -1

theorem told_ok {α : Type} {value : α} : Told (.ok value) := by
  intro status isError
  cases isError

theorem told_error {α : Type} {status : Status} (isLess : status.code < -1) :
    Told (.error status : Except Status α) := by
  intro other isError
  cases isError
  exact isLess

theorem told_timePointAfter {α : Type} {now delta timePoint : UInt64} {change : Unit → α}
    {result : Except Status Unit} (made : timePointAfter now delta = (timePoint, result)) :
    Told (result.map change) := by
  simp only [timePointAfter] at made
  split at made
  · cases made
    exact told_error (by decide)
  · cases made
    exact told_ok

theorem modelled_timeFromNow (timeout : Option Timeval) :
    Modelled (amqpTimeFromNow timeout) Told := by
  cases timeout with
  | none => exact .pure fun _ _ => told_ok
  | some timeout =>
      unfold amqpTimeFromNow
      refine .ite (fun _ => .pure fun _ _ => told_error (by decide)) fun _ => ?_
      refine Triple.bind modelled_ask fun now =>
        .ite (fun _ => .pure fun _ _ => told_error (by decide)) fun _ => ?_
      split
      rename_i timePoint result made
      exact .pure fun _ _ => told_timePointAfter made

theorem modelled_poll (waiting : Waiting) (deadline : UInt64) (fuel : Nat) :
    Modelled (amqpPoll waiting deadline fuel) Told := by
  induction fuel with
  | zero => exact .throw fun _ _ fault isFault => by cases isFault; rfl
  | succ fuel ih =>
      have records : Modelled (recordPoll deadline) fun _ => True := .modify fun _ _ => trivial
      refine Triple.bind records fun _ => ?_
      refine Triple.bind (modelled_timeMsUntil deadline) fun timeoutMs =>
        .ite (fun early => ?_) fun _ => ?_
      · refine .pure fun _ _ => told_error ?_
        rwa [Status.code_ofCode]
      · refine Triple.bind (modelled_waitingPoll waiting) fun answer => ?_
        cases answer with
        | ready => exact .pure fun _ _ => told_ok
        | timedOut => exact .ite (fun _ => ih) fun _ => .pure fun _ _ => told_error (by decide)
        | interrupted => exact ih
        | failed => exact .pure fun _ _ => told_error (by decide)

end Calls

section Rules

variable {held : Multiset Resource} {resource : Resource} {sockfd : Int} {deadline : UInt64}
  {fuel : Nat}

theorem acquire_owns {name : Nat → Resource} (injective : Function.Injective name) :
    Triple (Owns held) (acquire name) (fun number => Owns (name number ::ₘ held)) Stopped :=
  Account.acquires apart_closesSucceed injective

theorem release_owns :
    Triple (Owns (resource ::ₘ held)) (release resource) (fun _ => Owns held) Stopped :=
  Account.releases apart_closesSucceed

theorem onWorld_owns {α : Type} {call : Call α} {result : α → Prop}
    (modelled : Modelled call result) :
    Triple (Owns held) (onWorld call) (fun value host => Owns held host ∧ result value) Stopped := by
  rintro host ⟨holds, succeed⟩
  have ends := @modelled host.world trivial
  unfold onWorld
  cases ran : call host.world with
  | ok value world =>
      rw [ran] at ends
      exact ⟨⟨holds, succeed⟩, ends⟩
  | error stop world =>
      rw [ran] at ends
      cases stop with
      | blocked => exact trivial
      | fault fault => exact ends fault rfl

theorem amqpOsSocketClose_owns : Triple (Owns (.descriptor sockfd ::ₘ held))
    (amqpOsSocketClose sockfd) (fun closed host => closed = true ∧ Owns held host) Stopped := by
  refine Triple.get_bind fun host owns => ?_
  obtain ⟨⟨isHeld, once⟩, succeed⟩ := owns
  have inside : Resource.descriptor sockfd ∈ host.held := by
    rw [show host.held = _ from isHeld]
    exact Multiset.mem_cons_self _ _
  cases answers : host.closes with
  | nil => exact .throw fun _ _ => trivial
  | cons closed rest =>
      rintro _ rfl
      have isClosed := succeed closed (by simp [answers])
      have behind : Owns (.descriptor sockfd ::ₘ held) { host with closes := rest } :=
        ⟨⟨isHeld, once⟩, fun other member => succeed other (by simp [answers, member])⟩
      dsimp only
      rw [bind_of_ok (set_run _ _), if_pos ⟨isClosed, inside⟩]
      exact Triple.bind release_owns (fun _ => .pure fun _ after => ⟨rfl, after⟩) behind

/-- A call that returns a descriptor holds it, and one that fails holds nothing more. -/
def Returns (held : Multiset Resource) (sockfd : Int) (host : Host) : Prop :=
  Owns (descriptorOf sockfd + held) host ∧ sockfd ≠ -1

theorem returns_failed (isLess : sockfd < -1) :
    ∀ host, Owns held host → Returns held sockfd host := by
  intro host owns
  refine ⟨?_, by omega⟩
  rwa [descriptorOf, if_neg (by omega), zero_add]

theorem abandon_returns {status : Status} (isLess : status.code < -1) :
    Triple (Owns (.descriptor sockfd ::ₘ held)) (abandon sockfd status) (Returns held) Stopped :=
  Triple.bind amqpOsSocketClose_owns fun _ =>
    .pure fun host ends => returns_failed isLess host ends.2

theorem connectSocket_returns (address : Address) : Triple (Owns held)
    (connectSocket address deadline fuel) (Returns held) Stopped := by
  have socketError : Status.socketError.code < -1 := by decide
  refine .ite (fun _ => .pure (returns_failed socketError)) fun _ => ?_
  refine Triple.bind (acquire_owns fun _ _ same => by simpa using same) fun number => ?_
  have connected : Triple (Owns (.descriptor number ::ₘ held)) (return (number : Int) : NetCall Int)
      (Returns held) Stopped := by
    refine .pure fun host owns => ⟨?_, by omega⟩
    rwa [descriptorOf, if_pos (Int.natCast_nonneg number), Multiset.singleton_add]
  refine .ite (fun _ => abandon_returns socketError) fun _ => ?_
  refine .ite (fun _ => abandon_returns socketError) fun _ => ?_
  refine .ite (fun _ => abandon_returns socketError) fun _ => ?_
  refine .ite (fun _ => abandon_returns socketError) fun _ => ?_
  cases address.connect with
  | connected => exact connected
  | failed => exact abandon_returns socketError
  | inProgress =>
      refine Triple.bind (onWorld_owns (modelled_poll _ _ _)) fun result => ?_
      cases result with
      | error lastError =>
          rintro host ⟨owns, told⟩
          exact abandon_returns (told lastError rfl) owns
      | ok done =>
          refine Triple.strengthen (.ite (fun _ => connected) fun _ => abandon_returns socketError)
            fun host ends => ends.1

/-- The loop ends with a descriptor and no error, or with the failure of an address. -/
theorem tryAddresses_returns {addresses : List Address} :
    ∀ {before : Int}, (addresses = [] → before < -1) → Triple (Owns held)
      (tryAddresses deadline fuel addresses before 0)
      (fun ends host => Returns held ends.1 host ∧ (ends.2 = 0 ∨ ends.2 = ends.1)) Stopped := by
  induction addresses with
  | nil =>
      intro before failed
      exact .pure fun host owns => ⟨returns_failed (failed rfl) host owns, .inl rfl⟩
  | cons address rest ih =>
      intro before _
      refine Triple.bind (connectSocket_returns address) fun sockfd => ?_
      refine .ite (fun _ => .pure fun host returns => ⟨returns, .inl rfl⟩) fun negative => ?_
      refine .ite (fun _ => .pure fun host returns => ⟨returns, .inr rfl⟩) fun _ => ?_
      rintro host ⟨owns, isOther⟩
      rw [descriptorOf, if_neg negative, zero_add] at owns
      exact ih (fun _ => by omega) owns

/-- A host that is resolved has an address. -/
def Resolved (addresses : Option (List Address)) : Prop := addresses ≠ some []

instance {addresses : Option (List Address)} : Decidable (Resolved addresses) :=
  decidable_of_iff (addresses.map List.isEmpty ≠ some true) (by simp [Resolved])

theorem amqpOpenSocketInner_returns {addresses : Option (List Address)}
    (resolved : Resolved addresses) : Triple (Owns held)
      (amqpOpenSocketInner addresses deadline fuel) (Returns held) Stopped := by
  cases addresses with
  | none => exact .pure (returns_failed (by decide))
  | some addresses =>
      refine Triple.bind (acquire_owns fun _ _ same => by simpa using same) fun addressList => ?_
      have isSome : addresses = [] → (-1 : Int) < -1 := fun empty =>
        absurd (congrArg some empty) resolved
      refine Triple.bind (tryAddresses_returns isSome) fun ends => ?_
      obtain ⟨sockfd, lastError⟩ := ends
      have frees : Triple
          (fun host => Returns (.addressList addressList ::ₘ held) sockfd host ∧
            (lastError = 0 ∨ lastError = sockfd))
          (release (.addressList addressList))
          (fun _ host => Returns held sockfd host ∧ (lastError = 0 ∨ lastError = sockfd))
          Stopped := by
        rintro host ⟨⟨owns, isOther⟩, isLast⟩
        rw [Multiset.add_cons] at owns
        exact (release_owns.weaken fun _ _ after => ⟨⟨after, isOther⟩, isLast⟩) owns
      refine Triple.bind frees fun _ => .ite (fun failed => .pure ?_) fun _ => .pure ?_
      · rintro host ⟨returns, isLast⟩
        have same : lastError = sockfd := by
          rcases failed with notOk | none
          · exact isLast.resolve_left notOk
          · exact absurd none returns.2
        rwa [same]
      · exact fun host ends => ends.1

theorem amqpOpenSocketNoblock_returns {addresses : Option (List Address)}
    (resolved : Resolved addresses) (timeout : Option Timeval) : Triple (Owns held)
      (amqpOpenSocketNoblock addresses timeout fuel) (Returns held) Stopped := by
  refine Triple.bind (onWorld_owns (modelled_timeFromNow timeout)) fun result => ?_
  cases result with
  | error status => exact .pure fun host ends => returns_failed (ends.2 status rfl) host ends.1
  | ok deadline => exact (amqpOpenSocketInner_returns resolved).strengthen fun host ends => ends.1

/-! ## TCP sockets and what they hold -/

/-- The memory of a socket, and its descriptor. -/
def TcpSocket.resources (self : TcpSocket) : Multiset Resource :=
  .block self.block ::ₘ descriptorOf self.sockfd

def TcpSocket.Sound (self : TcpSocket) : Prop := -1 ≤ self.sockfd

variable {self : TcpSocket}

/-- What the process holds with this socket. -/
def OwnsTcp (held : Multiset Resource) (self : TcpSocket) (host : Host) : Prop :=
  Owns (self.resources + held) host ∧ self.Sound

theorem TcpSocket.resources_of_closed (isClosed : self.sockfd = -1) :
    self.resources + held = .block self.block ::ₘ held := by
  rw [resources, isClosed, descriptorOf, if_neg (by decide), Multiset.cons_add, zero_add]

theorem TcpSocket.resources_of_open (isOpen : 0 ≤ self.sockfd) :
    self.resources + held = .descriptor self.sockfd ::ₘ .block self.block ::ₘ held := by
  rw [resources, descriptorOf, if_pos isOpen, Multiset.cons_add, Multiset.singleton_add,
    Multiset.cons_swap]

theorem amqpTcpSocketOpen_owns {addresses : Option (List Address)} (resolved : Resolved addresses)
    (timeout : Option Timeval) : Triple (OwnsTcp held self)
      (amqpTcpSocketOpen self addresses timeout fuel)
      (fun ends => OwnsTcp held ends.2) Stopped := by
  refine .ite (fun _ => .pure fun _ owns => owns) fun isClosed => ?_
  have closed : self.sockfd = -1 := not_not.mp isClosed
  have opens : Triple (OwnsTcp held self) (amqpOpenSocketNoblock addresses timeout fuel)
      (Returns (.block self.block ::ₘ held)) Stopped := by
    refine (amqpOpenSocketNoblock_returns resolved timeout).strengthen ?_
    rintro host ⟨owns, _⟩
    rwa [TcpSocket.resources_of_closed closed] at owns
  refine Triple.bind opens fun sockfd => .ite (fun negative => .pure ?_) fun _ => .pure ?_
  · rintro host ⟨owns, _⟩
    rw [descriptorOf, if_neg (by omega), zero_add] at owns
    exact ⟨owns, Int.le_refl _⟩
  · rintro host ⟨owns, _⟩
    refine ⟨?_, by unfold TcpSocket.Sound; dsimp only; omega⟩
    rwa [TcpSocket.resources, Multiset.cons_add, ← Multiset.add_cons]

theorem amqpTcpSocketClose_owns : Triple (OwnsTcp held self) (amqpTcpSocketClose self)
    (fun ends host => OwnsTcp held ends.2 host ∧ ends.2.sockfd = -1 ∧ ends.2.block = self.block)
    Stopped := by
  refine .ite (fun closed => .pure fun host owns => ⟨owns, closed, rfl⟩) fun isOpen => ?_
  have closes : Triple (OwnsTcp held self) (amqpOsSocketClose self.sockfd)
      (fun closed host => closed = true ∧ Owns (.block self.block ::ₘ held) host) Stopped := by
    rintro host ⟨owns, sound⟩
    have some : 0 ≤ self.sockfd := by
      unfold TcpSocket.Sound at sound
      omega
    rw [TcpSocket.resources_of_open some] at owns
    exact amqpOsSocketClose_owns owns
  refine Triple.bind closes fun closed => ?_
  refine .ite (fun _ => .pure ?_) fun failed => .pure fun _ ends => absurd ends.1 failed
  rintro host ⟨_, owns⟩
  exact ⟨⟨owns, Int.le_refl _⟩, rfl, rfl⟩

theorem amqpTcpSocketDelete_owns : Triple (OwnsTcp held self) (amqpTcpSocketDelete self)
    (fun _ => Owns held) Stopped := by
  refine Triple.bind amqpTcpSocketClose_owns fun ends => ?_
  rintro host ⟨⟨owns, _⟩, closed, sameBlock⟩
  rw [TcpSocket.resources_of_closed closed, sameBlock] at owns
  exact release_owns owns

end Rules

end RabbitmqC.Net
