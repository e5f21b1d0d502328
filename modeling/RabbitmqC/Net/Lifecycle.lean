import RabbitmqC.Net.Tls

/-!
# The sockets of a connection

A connection has one socket at a time. It is created, opened, closed, replaced and deleted, while
the rest of the process acquires and releases what is its own. What the library holds is what is
reached from the socket, apart from the sessions that refused timeouts leave.
-/

set_option autoImplicit false

namespace RabbitmqC.Net

open Effect Holdings

/-! ## Sockets of either kind -/

inductive Socket where
  | tcp (socket : TcpSocket)
  | ssl (socket : SslSocket)

def amqpSocketDelete : Option Socket → NetCall Unit
  | none => return
  | some (.tcp self) => amqpTcpSocketDelete self
  | some (.ssl self) => amqpSslSocketDelete self

/-- The new socket, and the one that the connection has behind the call. -/
def amqpTcpSocketNew (calloc : Bool) (old : Option Socket) : NetCall (Option TcpSocket) := do
  if calloc then do
    let block ← acquire .block
    amqpSocketDelete old
    return some { block, sockfd := -1 }
  else
    return none

/-- Which of the calls succeed that `amqp_ssl_socket_new` makes. -/
structure NewAnswers where
  calloc : Bool
  initialized : Bool
  sslCtxNew : Bool

/-- A failing `BIO_meth_new` for the first SSL socket aborts, as `SslEvent.first_socket_aborts`
shows; it is left out of `initialized`. -/
def amqpSslSocketNew (answers : NewAnswers) (old : Option Socket) : NetCall (Option SslSocket) := do
  if answers.calloc then do
    let block ← acquire .block
    let self : SslSocket :=
      { block, ctx := none, sockfd := -1, ssl := none, verifyPeer := true, verifyHostname := true }
    if answers.initialized = false ∨ answers.sslCtxNew = false then do
      amqpSslSocketDelete self
      return none
    else do
      let ctx ← acquire .context
      amqpSocketDelete old
      return some { self with ctx := some ctx }
  else
    return none

/-- `amqp_set_sockfd`, with a descriptor of the caller. -/
def amqpSetSockfd (calloc : Bool) (sockfd : Int) (old : Option Socket) : NetCall TcpSocket := do
  match ← amqpTcpSocketNew calloc old with
  | none => throw (.fault .abort)
  | some self => return { self with sockfd }

/-! ## Events -/

inductive SocketEvent where
  | newTcp (calloc : Bool)
  | newSsl (answers : NewAnswers)
  | setSockfd (calloc : Bool) (sockfd : Int)
  | openSocket (host : List UInt8) (answers : OpenAnswers) (timeout : Option Timeval) (fuel : Nat)
  | closeSocket (force : Bool)
  | setVerifyPeer (verify : Bool)
  | setVerifyHostname (verify : Bool)
  /-- `amqp_set_socket` with a null pointer, or `amqp_destroy_connection`. -/
  | deleteSocket

namespace SocketEvent

/-- The socket of the connection behind the event. -/
def perform : SocketEvent → Option Socket → NetCall (Option Socket)
  | newTcp calloc, old => do
      match ← amqpTcpSocketNew calloc old with
      | none => return old
      | some self => return some (.tcp self)
  | newSsl answers, old => do
      match ← amqpSslSocketNew answers old with
      | none => return old
      | some self => return some (.ssl self)
  | setSockfd calloc sockfd, old => do
      let self ← amqpSetSockfd calloc sockfd old
      return some (.tcp self)
  | openSocket _ answers timeout fuel, some (.tcp self) => do
      let (_, self) ← amqpTcpSocketOpen self answers.addresses timeout fuel
      return some (.tcp self)
  | openSocket host answers timeout fuel, some (.ssl self) => do
      let (_, self) ← amqpSslSocketOpen self host answers timeout fuel
      return some (.ssl self)
  | closeSocket _, some (.tcp self) => do
      let (_, self) ← amqpTcpSocketClose self
      return some (.tcp self)
  | closeSocket force, some (.ssl self) => do
      let (_, self) ← amqpSslSocketClose self force
      return some (.ssl self)
  | setVerifyPeer verify, some (.ssl self) => return some (.ssl { self with verifyPeer := verify })
  | setVerifyHostname verify, some (.ssl self) =>
      return some (.ssl { self with verifyHostname := verify })
  | deleteSocket, old => do
      amqpSocketDelete old
      return none
  -- The assertions that there is a socket, and that it is one for SSL.
  | openSocket .., none | closeSocket _, none | setVerifyPeer _, _ | setVerifyHostname _, _ =>
      throw (.fault .abort)

def isSsl : Option Socket → Bool
  | some (.ssl _) => true
  | some (.tcp _) | none => false

/-- The event is one that the interface admits, with this held elsewhere. -/
def Allowed (elsewhere : Multiset Resource) : SocketEvent → Option Socket → Prop
  | newTcp _, _ | newSsl _, _ | deleteSocket, _ => True
  | setSockfd calloc sockfd, _ => calloc = true ∧ 0 ≤ sockfd ∧ .descriptor sockfd ∈ elsewhere
  | openSocket _ answers _ _, socket => socket.isSome = true ∧ Resolved answers.addresses
  | closeSocket _, socket => socket.isSome = true
  | setVerifyPeer _, socket | setVerifyHostname _, socket => isSsl socket = true

instance {elsewhere : Multiset Resource} {event : SocketEvent} {socket : Option Socket} :
    Decidable (event.Allowed elsewhere socket) :=
  match event with
  | newTcp _ | newSsl _ | deleteSocket => inferInstanceAs (Decidable True)
  | setSockfd _ _ => inferInstanceAs (Decidable (_ ∧ _ ∧ _))
  | openSocket .. => inferInstanceAs (Decidable (_ ∧ _))
  | closeSocket _ | setVerifyPeer _ | setVerifyHostname _ =>
      inferInstanceAs (Decidable (_ = true))

/-- What is held elsewhere behind the event. -/
def handsOver (elsewhere : Multiset Resource) : SocketEvent → Multiset Resource
  | setSockfd _ sockfd => elsewhere.erase (.descriptor sockfd)
  | newTcp _ | newSsl _ | openSocket .. | closeSocket _ | setVerifyPeer _ | setVerifyHostname _
  | deleteSocket => elsewhere

/-- Whether the event has left a session behind, by the socket behind it. -/
def losses : SocketEvent → Option Socket → Nat
  | openSocket .., some (.ssl self) => if self.Dangling then 1 else 0
  | openSocket .., some (.tcp _) | openSocket .., none => 0
  | newTcp _, _ | newSsl _, _ | setSockfd .., _ | closeSocket _, _ | setVerifyPeer _, _
  | setVerifyHostname _, _ | deleteSocket, _ => 0

end SocketEvent

/-! ## What the events keep -/

/-- What is reached from the socket of a connection. -/
def resourcesOf : Option Socket → Multiset Resource
  | none => 0
  | some (.tcp self) => self.resources
  | some (.ssl self) => self.resources

def SoundSocket (peerAsked hostnameAsked : Prop) : Option Socket → Prop
  | none => True
  | some (.tcp self) => self.Sound
  | some (.ssl self) => self.Sound peerAsked hostnameAsked

/-- What the process holds with the socket of a connection. -/
def OwnsSocket (peerAsked hostnameAsked : Prop) (held : Multiset Resource)
    (socket : Option Socket) (host : Host) : Prop :=
  Owns (resourcesOf socket + held) host ∧ SoundSocket peerAsked hostnameAsked socket

section Events

variable {peerAsked hostnameAsked : Prop} {held : Multiset Resource} {old : Option Socket}

theorem amqpSocketDelete_owns : Triple (OwnsSocket peerAsked hostnameAsked held old)
    (amqpSocketDelete old) (fun _ => Owns held) Stopped := by
  cases old with
  | none => exact .pure fun _ owns => by rw [← zero_add held]; exact owns.1
  | some socket =>
      cases socket with
      | tcp self => exact amqpTcpSocketDelete_owns
      | ssl self => exact amqpSslSocketDelete_owns

/-- A new resource beside the socket. -/
theorem acquire_ownsSocket {name : Nat → Resource} (injective : Function.Injective name) :
    Triple (OwnsSocket peerAsked hostnameAsked held old) (acquire name)
      (fun number => OwnsSocket peerAsked hostnameAsked (name number ::ₘ held) old) Stopped := by
  rintro host ⟨owns, sound⟩
  have acquires : Triple (Owns (resourcesOf old + held)) (acquire name)
      (fun number => OwnsSocket peerAsked hostnameAsked (name number ::ₘ held) old) Stopped :=
    (acquire_owns injective).weaken fun number after owns => ⟨by rwa [Multiset.add_cons], sound⟩
  exact acquires owns

/-- A new TCP socket, or the old one. -/
def CreatedTcp (peerAsked hostnameAsked : Prop) (held : Multiset Resource) (old : Option Socket) :
    Option TcpSocket → Host → Prop
  | none, host => OwnsSocket peerAsked hostnameAsked held old host
  | some self, host => self.sockfd = -1 ∧ Owns (.block self.block ::ₘ held) host

theorem amqpTcpSocketNew_granted :
    Triple (OwnsSocket peerAsked hostnameAsked held old) (amqpTcpSocketNew true old)
      (fun new host => ∃ self, new = some self ∧ self.sockfd = -1 ∧
        Owns (.block self.block ::ₘ held) host) Stopped := by
  refine Triple.bind (acquire_ownsSocket fun _ _ same => by simpa using same) fun block => ?_
  exact Triple.bind amqpSocketDelete_owns fun _ => .pure fun _ owns => ⟨_, rfl, rfl, owns⟩

theorem amqpTcpSocketNew_created (calloc : Bool) :
    Triple (OwnsSocket peerAsked hostnameAsked held old) (amqpTcpSocketNew calloc old)
      (CreatedTcp peerAsked hostnameAsked held old) Stopped := by
  cases calloc with
  | false => exact .pure fun _ owns => owns
  | true =>
      refine amqpTcpSocketNew_granted.weaken ?_
      rintro new host ⟨self, rfl, created⟩
      exact created

/-- A new SSL socket, or the old one. -/
def CreatedSsl (peerAsked hostnameAsked : Prop) (held : Multiset Resource) (old : Option Socket) :
    Option SslSocket → Host → Prop
  | none, host => OwnsSocket peerAsked hostnameAsked held old host
  | some self, host => OwnsSsl peerAsked hostnameAsked held self host

theorem amqpSslSocketNew_created (answers : NewAnswers) :
    Triple (OwnsSocket peerAsked hostnameAsked held old) (amqpSslSocketNew answers old)
      (CreatedSsl peerAsked hostnameAsked held old) Stopped := by
  refine .ite (fun _ => ?_) fun _ => .pure fun _ owns => owns
  refine Triple.bind (acquire_ownsSocket fun _ _ same => by simpa using same) fun block => ?_
  have sound (ctx : Option Nat) :
      (⟨block, ctx, -1, none, true, true⟩ : SslSocket).Sound peerAsked hostnameAsked :=
    ⟨Int.le_refl _, fun isOpen => absurd rfl isOpen, fun _ => rfl, fun _ => rfl⟩
  refine .ite (fun _ => ?_) fun _ => ?_
  · rintro host ⟨owns, oldSound⟩
    have deletes : Triple (OwnsSsl peerAsked hostnameAsked (resourcesOf old + held)
        ⟨block, none, -1, none, true, true⟩)
        (do
          amqpSslSocketDelete ⟨block, none, -1, none, true, true⟩
          return none)
        (CreatedSsl peerAsked hostnameAsked held old) Stopped :=
      Triple.bind amqpSslSocketDelete_owns fun _ => .pure fun _ owns => ⟨owns, oldSound⟩
    refine deletes ⟨?_, sound none⟩
    rw [SslSocket.resources_of_closed rfl, SslSocket.rest, contextOf, zero_add]
    rwa [Multiset.add_cons] at owns
  · refine Triple.bind (acquire_ownsSocket fun _ _ same => by simpa using same) fun ctx => ?_
    refine Triple.bind amqpSocketDelete_owns fun _ => .pure fun host owns => ⟨?_, sound (some ctx)⟩
    rw [SslSocket.resources_of_closed rfl, SslSocket.rest, contextOf, Multiset.singleton_add,
      Multiset.cons_swap]
    exact owns

/-- Behind an event. -/
def Performed (peerAsked hostnameAsked : Prop) (held : Multiset Resource) (event : SocketEvent)
    (socket : Option Socket) (host : Host) : Prop :=
  ∃ lost : Multiset Resource, OwnsSocket peerAsked hostnameAsked (lost + held) socket host ∧
    (∀ resource ∈ lost, ∃ number, resource = .session number) ∧
    Multiset.card lost = event.losses socket

theorem performed_intact {event : SocketEvent} {socket : Option Socket} {host : Host}
    (owns : OwnsSocket peerAsked hostnameAsked held socket host) (none : event.losses socket = 0) :
    Performed peerAsked hostnameAsked held event socket host :=
  ⟨0, by rwa [zero_add], by simp, by rw [none, Multiset.card_zero]⟩

/-- No event turns off what is asked for. -/
def SocketEvent.Heeds (peerAsked hostnameAsked : Prop) (event : SocketEvent) : Prop :=
  (peerAsked → event ≠ .setVerifyPeer false) ∧ (hostnameAsked → event ≠ .setVerifyHostname false)

theorem SocketEvent.isSsl_iff {socket : Option Socket} :
    SocketEvent.isSsl socket = true ↔ ∃ self, socket = some (.ssl self) := by
  cases socket with
  | none => simp [isSsl]
  | some socket => cases socket <;> simp [isSsl]

theorem SocketEvent.perform_performed {event : SocketEvent} {elsewhere lost : Multiset Resource}
    (allowed : event.Allowed elsewhere old) (heeds : event.Heeds peerAsked hostnameAsked) :
    Triple (OwnsSocket peerAsked hostnameAsked (lost + elsewhere) old) (event.perform old)
      (Performed peerAsked hostnameAsked (lost + event.handsOver elsewhere) event) Stopped := by
  cases event with
  | newTcp calloc =>
      refine Triple.bind (amqpTcpSocketNew_created calloc) fun new => ?_
      cases new with
      | none => exact .pure fun host owns => performed_intact owns rfl
      | some self =>
          rintro host ⟨isClosed, owns⟩
          refine performed_intact ⟨?_, Int.le_of_eq isClosed.symm⟩ rfl
          rwa [← TcpSocket.resources_of_closed isClosed] at owns
  | newSsl answers =>
      refine Triple.bind (amqpSslSocketNew_created answers) fun new => ?_
      cases new with
      | none => exact .pure fun host owns => performed_intact owns rfl
      | some self => exact .pure fun host owns => performed_intact owns rfl
  | setSockfd calloc sockfd =>
      obtain ⟨rfl, isDescriptor, member⟩ := allowed
      have sets : Triple (OwnsSocket peerAsked hostnameAsked (lost + elsewhere) old)
          (amqpSetSockfd true sockfd old) (fun self host => self.sockfd = sockfd ∧
            Owns (.block self.block ::ₘ (lost + elsewhere)) host) Stopped := by
        refine Triple.bind amqpTcpSocketNew_granted fun new => ?_
        rintro host ⟨self, rfl, _, owns⟩
        exact ⟨rfl, owns⟩
      refine Triple.bind sets fun self => ?_
      rintro host ⟨rfl, owns⟩
      rw [← Multiset.cons_erase member, Multiset.add_cons, Multiset.cons_swap,
        ← TcpSocket.resources_of_open isDescriptor] at owns
      exact performed_intact ⟨owns, by unfold SoundSocket TcpSocket.Sound; omega⟩ rfl
  | openSocket name answers timeout fuel =>
      obtain ⟨some, resolved⟩ := allowed
      obtain ⟨socket, rfl⟩ := Option.isSome_iff_exists.mp some
      cases socket with
      | tcp self =>
          exact Triple.bind (amqpTcpSocketOpen_owns resolved timeout) fun ends =>
            .pure fun host owns => performed_intact owns rfl
      | ssl self =>
          exact Triple.bind (amqpSslSocketOpen_opened resolved timeout) fun ends =>
            .pure fun host opened => opened
  | closeSocket force =>
      obtain ⟨socket, rfl⟩ := Option.isSome_iff_exists.mp allowed
      cases socket with
      | tcp self =>
          exact Triple.bind amqpTcpSocketClose_owns fun ends =>
            .pure fun host closed => performed_intact closed.1 rfl
      | ssl self =>
          exact Triple.bind (amqpSslSocketClose_owns force) fun ends =>
            .pure fun host closed => performed_intact closed.1 rfl
  | setVerifyPeer verify =>
      obtain ⟨self, rfl⟩ := isSsl_iff.mp allowed
      refine .pure fun host owns => performed_intact ⟨owns.1, ?_⟩ rfl
      refine ⟨owns.2.sockfd, owns.2.session, fun asked => ?_, owns.2.hostname⟩
      cases verify with
      | true => rfl
      | false => exact absurd rfl (heeds.1 asked)
  | setVerifyHostname verify =>
      obtain ⟨self, rfl⟩ := isSsl_iff.mp allowed
      refine .pure fun host owns => performed_intact ⟨owns.1, ?_⟩ rfl
      refine ⟨owns.2.sockfd, owns.2.session, owns.2.peer, fun asked => ?_⟩
      cases verify with
      | true => rfl
      | false => exact absurd rfl (heeds.2 asked)
  | deleteSocket =>
      refine Triple.bind amqpSocketDelete_owns fun _ => .pure fun host owns =>
        performed_intact ⟨?_, trivial⟩ rfl
      rwa [resourcesOf, zero_add]

end Events

/-! ## Runs -/

/-- A connection's socket, what the rest of the process holds, and the sessions lost so far. -/
structure Stage where
  host : Host
  socket : Option Socket
  elsewhere : Multiset Resource
  lost : Nat

/-- The connection has no socket yet, and no `close` will fail. -/
structure Stage.Fresh (stage : Stage) : Prop where
  socket : stage.socket = none
  held : stage.host.held = stage.elsewhere
  once : stage.elsewhere.Nodup
  closes : ClosesSucceed stage.host
  lost : stage.lost = 0

/-- Events of a connection, while other parts of the process go on. -/
inductive SocketRun (origin : Stage) : List SocketEvent → Stage → Prop where
  | start : SocketRun origin [] origin
  | event {events : List SocketEvent} {stage : Stage} {event : SocketEvent} {host : Host}
      {socket : Option Socket} : SocketRun origin events stage →
      event.Allowed stage.elsewhere stage.socket →
      event.perform stage.socket stage.host = .ok socket host →
      SocketRun origin (events ++ [event])
        ⟨host, socket, event.handsOver stage.elsewhere, stage.lost + event.losses socket⟩
  | elsewhere {events : List SocketEvent} {stage : Stage} {world : World}
      {others : Multiset Resource} : SocketRun origin events stage →
      (stage.host.held - stage.elsewhere + others).Nodup →
      SocketRun origin events
        { stage with
          host := { stage.host with world, held := stage.host.held - stage.elsewhere + others }
          elsewhere := others }

/-- The event, if it is allowed and returns. -/
def Stage.after (stage : Stage) (event : SocketEvent) : Option Stage :=
  if event.Allowed stage.elsewhere stage.socket then
    match event.perform stage.socket stage.host with
    | .ok socket host =>
        some ⟨host, socket, event.handsOver stage.elsewhere, stage.lost + event.losses socket⟩
    | .error _ _ => none
  else
    none

def Stage.afterAll : List SocketEvent → Stage → Option Stage
  | [], stage => some stage
  | event :: events, stage => (stage.after event).bind (afterAll events)

section Runs

variable {origin stage : Stage} {events : List SocketEvent} {peerAsked hostnameAsked : Prop}

theorem SocketRun.owns (fresh : origin.Fresh) (run : SocketRun origin events stage)
    (heeds : ∀ event ∈ events, event.Heeds peerAsked hostnameAsked) :
    ∃ lost : Multiset Resource,
      OwnsSocket peerAsked hostnameAsked (lost + stage.elsewhere) stage.socket stage.host ∧
      (∀ resource ∈ lost, ∃ number, resource = .session number) ∧
      Multiset.card lost = stage.lost := by
  induction run with
  | start =>
      refine ⟨0, ⟨⟨⟨?_, ?_⟩, fresh.closes⟩, ?_⟩, by simp, by rw [fresh.lost, Multiset.card_zero]⟩
      · rw [fresh.socket, resourcesOf, zero_add, zero_add]
        exact fresh.held
      · rw [fresh.socket, resourcesOf, zero_add, zero_add]
        exact fresh.once
      · rw [fresh.socket]
        trivial
  | @event events stage event host socket _ allowed performs ih =>
      obtain ⟨lost, owns, areSessions, count⟩ := ih fun other member => heeds other (by simp [member])
      have performed := @SocketEvent.perform_performed _ _ _ event stage.elsewhere lost allowed
        (heeds event (by simp))
      obtain ⟨more, owns, alsoSessions, counted⟩ := performed.ok owns performs
      refine ⟨more + lost, by rwa [add_assoc], fun resource member => ?_, ?_⟩
      · rcases Multiset.mem_add.mp member with isNew | isOld
        · exact alsoSessions resource isNew
        · exact areSessions resource isOld
      · rw [Multiset.card_add, counted, count, add_comm]
  | @elsewhere events stage world others _ once ih =>
      obtain ⟨lost, ⟨⟨⟨isHeld, _⟩, closes⟩, sound⟩, areSessions, count⟩ := ih heeds
      have same : stage.host.held - stage.elsewhere + others =
          resourcesOf stage.socket + (lost + others) := by
        rw [show stage.host.held = _ from isHeld, ← add_assoc, add_tsub_cancel_right, add_assoc]
      exact ⟨lost, ⟨⟨⟨same, same ▸ once⟩, closes⟩, sound⟩, areSessions, count⟩

theorem SocketRun.after {event : SocketEvent} {next : Stage} (run : SocketRun origin events stage)
    (steps : stage.after event = some next) : SocketRun origin (events ++ [event]) next := by
  unfold Stage.after at steps
  split at steps
  · rename_i allowed
    split at steps
    · rename_i socket host performs
      cases steps
      exact run.event allowed performs
    · cases steps
  · cases steps

theorem SocketRun.afterAll {more : List SocketEvent} {final : Stage}
    (run : SocketRun origin events stage) (steps : stage.afterAll more = some final) :
    SocketRun origin (events ++ more) final := by
  induction more generalizing events stage with
  | nil =>
      cases steps
      rwa [List.append_nil]
  | cons event more ih =>
      obtain ⟨next, first, rest⟩ := Option.bind_eq_some_iff.mp steps
      rw [List.append_cons]
      exact ih (run.after first) rest

/-- What the library holds is what is reached from the socket, and lost sessions. -/
structure Accounted (stage : Stage) : Prop where
  held : ∃ lost : Multiset Resource,
    stage.host.held = resourcesOf stage.socket + (lost + stage.elsewhere) ∧
    (∀ resource ∈ lost, ∃ number, resource = .session number) ∧ Multiset.card lost = stage.lost
  once : stage.host.held.Nodup
  /-- Nothing is freed twice, and no null pointer is read. -/
  goesOn : ∀ (event : SocketEvent) (fault : Fault) (after : Host),
    event.Allowed stage.elsewhere stage.socket →
    event.perform stage.socket stage.host = .error (.fault fault) after → fault = .outOfFuel

/-- Over any run, descriptors, sessions, contexts and sockets are held by the one socket of the
connection, apart from a session for each call of `amqp_socket_open` that left one behind. -/
theorem socketRun_accounted (fresh : origin.Fresh) (run : SocketRun origin events stage) :
    Accounted stage := by
  obtain ⟨lost, owns, areSessions, count⟩ :=
    @SocketRun.owns origin stage events False False fresh run
      fun event _ => ⟨False.elim, False.elim⟩
  refine ⟨⟨lost, owns.1.1.1, areSessions, count⟩, ?_, fun event fault after allowed faults => ?_⟩
  · rw [show stage.host.held = _ from owns.1.1.1]
    exact owns.1.1.2
  · have performs := @SocketEvent.perform_performed False False _ event _ lost allowed
      ⟨False.elim, False.elim⟩
    exact performs.error owns faults

/-- A connected SSL socket has shaken hands with a peer that was checked in every way that no
event has turned off. -/
theorem socketRun_vouched {self : SslSocket} (fresh : origin.Fresh)
    (run : SocketRun origin events stage) (isSsl : stage.socket = some (.ssl self))
    (connected : self.sockfd ≠ -1) : ∃ session, self.ssl = some session ∧
      Vouched (.setVerifyPeer false ∉ events) (.setVerifyHostname false ∉ events) session := by
  obtain ⟨lost, ⟨_, sound⟩, _⟩ := @SocketRun.owns origin stage events
    (.setVerifyPeer false ∉ events) (.setVerifyHostname false ∉ events) fresh run
    fun event member => ⟨fun kept same => kept (same ▸ member), fun kept same => kept (same ▸ member)⟩
  rw [isSsl] at sound
  exact sound.session connected

end Runs

/-! ## Examples -/

/-- A connection without a socket, in a process that holds the descriptor 0. -/
def freshStage (closes : List Bool) : Stage where
  host :=
    { world := World.new
        { clock := []
          recvs := []
          sends := []
          recvPolls := []
          sendPolls := []
          closes := []
          links := []
          memory := fun _ => grantingMemory }
      held := {.descriptor 0}
      closes }
  socket := none
  elsewhere := {.descriptor 0}
  lost := 0

def reachable : Address := ⟨true, true, true, true, true, true, true, .connected, true⟩

/-- A peer whose certificate is accepted for the name "b". -/
def trustedPeer : Peer := ⟨true, true, fun host => host == [98]⟩

def openAnswers : OpenAnswers :=
  ⟨true, some [{ reachable with connect := .failed }, reachable], true, true, [.done trustedPeer]⟩

/-- An SSL socket is created, a timeout is refused, and then it is opened for "b". -/
def openingEvents : List SocketEvent :=
  [.newSsl ⟨true, true, true⟩, .openSocket [98] openAnswers (some ⟨-1, 0⟩) 0,
    .openSocket [98] openAnswers none 0]

theorem freshStage_fresh {closes : List Bool} (succeed : ∀ closed ∈ closes, closed = true) :
    (freshStage closes).Fresh :=
  ⟨rfl, rfl, Multiset.nodup_singleton _, succeed, rfl⟩

theorem socketRun_accounted_opening : ∃ stage,
    (freshStage [true]).afterAll openingEvents = some stage ∧ stage.lost = 1 ∧
      Accounted stage := by
  have ends : ((freshStage [true]).afterAll openingEvents).map Stage.lost = some 1 := by
    decide +kernel
  obtain ⟨stage, reached, lost⟩ := Option.map_eq_some_iff.mp ends
  exact ⟨stage, reached, lost, socketRun_accounted (freshStage_fresh (by decide))
    (SocketRun.start.afterAll reached)⟩

/-- The socket of a stage, if it is a connected SSL socket. -/
def connectedSsl (stage : Stage) : Option SslSocket :=
  match stage.socket with
  | some (.ssl self) => if self.sockfd ≠ -1 then some self else none
  | some (.tcp _) | none => none

theorem connectedSsl_eq_some {stage : Stage} {self : SslSocket}
    (found : connectedSsl stage = some self) :
    stage.socket = some (.ssl self) ∧ self.sockfd ≠ -1 := by
  unfold connectedSsl at found
  split at found
  · rename_i other isSsl
    split at found
    · rename_i connected
      cases found
      exact ⟨isSsl, connected⟩
    · cases found
  · cases found
  · cases found

theorem socketRun_vouched_opening : ∃ self session,
    ((freshStage [true]).afterAll openingEvents).bind connectedSsl = some self ∧
      self.ssl = some session ∧ Vouched (.setVerifyPeer false ∉ openingEvents)
        (.setVerifyHostname false ∉ openingEvents) session := by
  have ends : (((freshStage [true]).afterAll openingEvents).bind connectedSsl).isSome = true := by
    decide +kernel
  obtain ⟨self, found⟩ := Option.isSome_iff_exists.mp ends
  obtain ⟨stage, reached, isConnected⟩ := Option.bind_eq_some_iff.mp found
  obtain ⟨isSsl, connected⟩ := connectedSsl_eq_some isConnected
  obtain ⟨session, isSession, vouched⟩ := socketRun_vouched (freshStage_fresh (by decide))
    (SocketRun.start.afterAll reached) isSsl connected
  exact ⟨self, session, found, isSession, vouched⟩

end RabbitmqC.Net
