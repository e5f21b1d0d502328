import Mathlib.Tactic.Abel
import RabbitmqC.Net.Opening

/-!
# Opening SSL sockets

`amqp_ssl_socket_open` connects, shakes hands and checks who has answered, and gives back what it
has acquired wherever it fails. It keeps the session of a call whose timeout is refused.
-/

set_option autoImplicit false

namespace RabbitmqC.Net

open Effect Holdings

/-! ## Sessions -/

/-- What a handshake shows of the peer. -/
structure Peer where
  /-- `SSL_get_peer_certificate` returns one. -/
  certificate : Bool
  /-- `SSL_get_verify_result` returns `X509_V_OK`. -/
  verifyResult : Bool
  /-- The names for which `X509_check_host` accepts the certificate. -/
  hosts : List UInt8 → Bool

/-- An `SSL`, with the BIO that is freed with it. -/
structure Session where
  number : Nat
  bio : Option Nat
  serverName : Option (List UInt8)
  /-- The peer, behind the handshake. -/
  peer : Option Peer

structure SslSocket where
  block : Nat
  ctx : Option Nat
  sockfd : Int
  ssl : Option Session
  verifyPeer : Bool
  verifyHostname : Bool

/-- What `SSL_connect` returns, and `SSL_get_error` behind it. -/
inductive HandshakeAnswer where
  | done (peer : Peer)
  | wantRead
  | wantWrite
  | failed

/-- Which calls succeed while an SSL socket is opened. -/
structure OpenAnswers where
  sslNew : Bool
  addresses : Option (List Address)
  bioNew : Bool
  setHostName : Bool
  handshake : List HandshakeAnswer

/-- `SSL_free`, also of a null pointer. -/
def sslFree : Option Session → NetCall Unit
  | none => return
  | some session => do
      match session.bio with
      | none => release (.session session.number)
      | some bio => do
          release (.bio bio)
          release (.session session.number)

/-- `SSL_shutdown`, whose argument is not to be null. -/
def sslShutdown : Option Session → NetCall Unit
  | none => throw (.fault .outOfBoundsRead)
  | some _ => return

/-! ## Opening -/

def errorOut1 (self : SslSocket) (status : Status) : NetCall (Except Status Unit × SslSocket) := do
  sslFree self.ssl
  return (.error status, { self with ssl := none })

def errorOut2 (self : SslSocket) (status : Status) : NetCall (Except Status Unit × SslSocket) := do
  let _ ← amqpOsSocketClose self.sockfd
  errorOut1 { self with sockfd := -1 } status

def errorOut3 (self : SslSocket) (status : Status) : NetCall (Except Status Unit × SslSocket) := do
  sslShutdown self.ssl
  errorOut2 self status

def errorOut4 (cert : Nat) (self : SslSocket) (status : Status) :
    NetCall (Except Status Unit × SslSocket) := do
  release (.certificate cert)
  errorOut3 self status

/-- The loop from the label `start_connect`. -/
def startConnect (deadline : UInt64) (fuel : Nat) :
    List HandshakeAnswer → NetCall (Except Status Peer)
  | [] => throw .blocked
  | .done peer :: _ => return .ok peer
  | .failed :: _ => return .error .sslConnectionFailed
  | .wantRead :: rest => do
      match ← onWorld (amqpPoll .toReceive deadline fuel) with
      | .ok () => startConnect deadline fuel rest
      | .error status => return .error status
  | .wantWrite :: rest => do
      match ← onWorld (amqpPoll .toSend deadline fuel) with
      | .ok () => startConnect deadline fuel rest
      | .error status => return .error status

/-- From `SSL_get_peer_certificate` to the end. -/
def checkPeer (self : SslSocket) (host : List UInt8) (peer : Peer) :
    NetCall (Except Status Unit × SslSocket) := do
  if peer.certificate then do
    let cert ← acquire .certificate
    if self.verifyPeer = true ∧ peer.verifyResult = false then
      errorOut4 cert self .sslPeerVerifyFailed
    else if self.verifyHostname = true ∧ peer.hosts host = false then
      errorOut4 cert self .sslHostnameVerifyFailed
    else do
      release (.certificate cert)
      return (.ok (), self)
  else if self.verifyPeer then
    errorOut3 self .sslPeerVerifyFailed
  else if self.verifyHostname then
    errorOut3 self .sslHostnameVerifyFailed
  else
    return (.ok (), self)

/-- From `BIO_new` on, with a descriptor. -/
def shakeHands (self : SslSocket) (session : Session) (host : List UInt8) (answers : OpenAnswers)
    (deadline : UInt64) (fuel : Nat) : NetCall (Except Status Unit × SslSocket) := do
  if answers.bioNew = false then
    errorOut2 { self with ssl := some session } .noMemory
  else do
    let bio ← acquire .bio
    let session := { session with bio := some bio }
    if answers.setHostName = false then
      errorOut2 { self with ssl := some session } .sslError
    else do
      let session := { session with serverName := some host }
      match ← startConnect deadline fuel answers.handshake with
      | .error status => errorOut2 { self with ssl := some session } status
      | .ok peer => checkPeer { self with ssl := some { session with peer := some peer } } host peer

def amqpSslSocketOpen (self : SslSocket) (host : List UInt8) (answers : OpenAnswers)
    (timeout : Option Timeval) (fuel : Nat) : NetCall (Except Status Unit × SslSocket) := do
  if self.sockfd ≠ -1 then
    return (.error .socketInuse, self)
  else if answers.sslNew = false then
    return (.error .sslError, { self with ssl := none })
  else do
    let number ← acquire .session
    let session : Session := { number, bio := none, serverName := none, peer := none }
    match ← onWorld (amqpTimeFromNow timeout) with
    -- The session is neither freed here nor by `amqp_ssl_socket_close`.
    | .error status => return (.error status, { self with ssl := some session })
    | .ok deadline => do
        let sockfd ← amqpOpenSocketInner answers.addresses deadline fuel
        if 0 > sockfd then
          errorOut1 { self with sockfd := -1, ssl := some session } (.ofCode sockfd)
        else
          shakeHands { self with sockfd } session host answers deadline fuel

/-! ## Closing -/

/-- The shutdown that `AMQP_SC_FORCE` omits. -/
def shutDown (force : Bool) (ssl : Option Session) : NetCall Unit :=
  if force then return else sslShutdown ssl

def amqpSslSocketClose (self : SslSocket) (force : Bool) :
    NetCall (Except Status Unit × SslSocket) := do
  if self.sockfd = -1 then
    return (.error .socketClosed, self)
  else do
    shutDown force self.ssl
    sslFree self.ssl
    if ← amqpOsSocketClose self.sockfd then
      return (.ok (), { self with ssl := none, sockfd := -1 })
    else
      return (.error .socketError, { self with ssl := none })

/-- `SSL_CTX_free`, also of a null pointer. -/
def sslCtxFree : Option Nat → NetCall Unit
  | none => return
  | some ctx => release (.context ctx)

/-- The sockets that `decrement_ssl_connections` counts are left to the account of their memory. -/
def amqpSslSocketDelete (self : SslSocket) : NetCall Unit := do
  let (_, self) ← amqpSslSocketClose self false
  sslCtxFree self.ctx
  release (.block self.block)

/-! ## What a socket holds -/

def Session.resources (session : Session) : Multiset Resource :=
  match session.bio with
  | none => {.session session.number}
  | some bio => {.bio bio, .session session.number}

def sessionOf : Option Session → Multiset Resource
  | none => 0
  | some session => session.resources

def contextOf : Option Nat → Multiset Resource
  | none => 0
  | some ctx => {.context ctx}

/-- What is reached from a connected socket. -/
def SslSocket.connection (self : SslSocket) : Multiset Resource :=
  if self.sockfd = -1 then 0
  else .descriptor self.sockfd ::ₘ sessionOf self.ssl

def SslSocket.resources (self : SslSocket) : Multiset Resource :=
  .block self.block ::ₘ (contextOf self.ctx + self.connection)

/-- The handshake of the session is over, and the peer has shown what was asked for. -/
def Vouched (peerAsked hostnameAsked : Prop) (session : Session) : Prop :=
  ∃ peer host, session.peer = some peer ∧ session.serverName = some host ∧
    (peerAsked → peer.certificate = true ∧ peer.verifyResult = true) ∧
    (hostnameAsked → peer.certificate = true ∧ peer.hosts host = true)

/-- A connected socket has a session, with a peer that was checked. -/
structure SslSocket.Sound (peerAsked hostnameAsked : Prop) (socket : SslSocket) : Prop where
  sockfd : -1 ≤ socket.sockfd
  session : socket.sockfd ≠ -1 → ∃ session, socket.ssl = some session ∧
    Vouched peerAsked hostnameAsked session
  peer : peerAsked → socket.verifyPeer = true
  hostname : hostnameAsked → socket.verifyHostname = true

/-- A session that no call frees any more. -/
def SslSocket.Dangling (self : SslSocket) : Prop := self.sockfd = -1 ∧ self.ssl.isSome = true

instance (self : SslSocket) : Decidable self.Dangling := inferInstanceAs (Decidable (_ ∧ _))

/-- As a socket is left that could not be opened. -/
def SslSocket.closed (self : SslSocket) : SslSocket := { self with sockfd := -1, ssl := none }

section Rules

variable {held : Multiset Resource} {self : SslSocket} {status : Status} {cert fuel : Nat}
  {deadline : UInt64} {ssl : Option Session}

theorem Session.resources_of_none {session : Session} (bare : session.bio = none) :
    session.resources = {.session session.number} := by
  rw [Session.resources, bare]

theorem Session.resources_of_some {session : Session} {bio : Nat} (isBio : session.bio = some bio) :
    session.resources = .bio bio ::ₘ {.session session.number} := by
  rw [Session.resources, isBio]
  rfl

theorem sslFree_owns :
    Triple (Owns (sessionOf ssl + held)) (sslFree ssl) (fun _ => Owns held) Stopped := by
  cases ssl with
  | none => exact .pure fun host owns => by rwa [sessionOf, zero_add] at owns
  | some session =>
      unfold sslFree
      dsimp only [sessionOf]
      cases isBio : session.bio with
      | none =>
          rw [Session.resources_of_none isBio]
          exact release_owns
      | some bio =>
          rw [Session.resources_of_some isBio, Multiset.cons_add, Multiset.singleton_add]
          exact Triple.bind release_owns fun _ => release_owns

/-- An opening that has failed holds nothing more. -/
def Failed (held : Multiset Resource) (self : SslSocket)
    (ends : Except Status Unit × SslSocket) (host : Host) : Prop :=
  ends.2 = self.closed ∧ ends.1 ≠ .ok () ∧ Owns held host

theorem errorOut1_failed (isClosed : self.sockfd = -1) :
    Triple (Owns (sessionOf self.ssl + held)) (errorOut1 self status) (Failed held self) Stopped := by
  refine Triple.bind sslFree_owns fun _ => .pure fun host owns => ⟨?_, by simp, owns⟩
  rw [SslSocket.closed, ← isClosed]

theorem errorOut2_failed : Triple (Owns (.descriptor self.sockfd ::ₘ (sessionOf self.ssl + held)))
    (errorOut2 self status) (Failed held self) Stopped := by
  refine Triple.bind amqpOsSocketClose_owns fun closed => ?_
  rintro host ⟨_, owns⟩
  exact @errorOut1_failed held { self with sockfd := -1 } status rfl host owns

theorem errorOut3_failed {session : Session} (isSome : self.ssl = some session) :
    Triple (Owns (.descriptor self.sockfd ::ₘ (session.resources + held)))
      (errorOut3 self status) (Failed held self) Stopped := by
  have shutsDown : Triple (Owns (.descriptor self.sockfd ::ₘ (session.resources + held)))
      (sslShutdown self.ssl)
      (fun _ => Owns (.descriptor self.sockfd ::ₘ (sessionOf self.ssl + held))) Stopped := by
    rw [isSome]
    exact .pure fun _ owns => owns
  exact Triple.bind shutsDown fun _ => errorOut2_failed

theorem errorOut4_failed {session : Session} (isSome : self.ssl = some session) :
    Triple (Owns (.certificate cert ::ₘ .descriptor self.sockfd ::ₘ (session.resources + held)))
      (errorOut4 cert self status) (Failed held self) Stopped :=
  Triple.bind release_owns fun _ => errorOut3_failed isSome

theorem startConnect_owns (answers : List HandshakeAnswer) :
    Triple (Owns held) (startConnect deadline fuel answers) (fun _ => Owns held) Stopped := by
  induction answers with
  | nil => exact .throw fun _ _ => trivial
  | cons answer rest ih =>
      have polls (waiting : Waiting) : Triple (Owns held)
          (do
            match ← onWorld (amqpPoll waiting deadline fuel) with
            | .ok () => startConnect deadline fuel rest
            | .error status => return .error status)
          (fun _ => Owns held) Stopped := by
        refine Triple.bind (onWorld_owns (modelled_poll _ _ _)) fun result => ?_
        cases result with
        | ok done => exact ih.strengthen fun _ ends => ends.1
        | error status => exact .pure fun _ ends => ends.1
      cases answer with
      | done peer | failed => exact .pure fun _ owns => owns
      | wantRead => exact polls .toReceive
      | wantWrite => exact polls .toSend

/-- The socket is connected to a peer that was checked, or it is closed. -/
def Shaken (held : Multiset Resource) (self : SslSocket) (ends : Except Status Unit × SslSocket)
    (host : Host) : Prop :=
  Failed held self ends host ∨ ∃ session, ends = (.ok (), { self with ssl := some session }) ∧
    Vouched (self.verifyPeer = true) (self.verifyHostname = true) session ∧
    Owns (.descriptor self.sockfd ::ₘ (session.resources + held)) host

theorem checkPeer_shaken {session : Session} {name : List UInt8} {peer : Peer}
    (isSome : self.ssl = some session) (isPeer : session.peer = some peer)
    (isNamed : session.serverName = some name) :
    Triple (Owns (.descriptor self.sockfd ::ₘ (session.resources + held)))
      (checkPeer self name peer) (Shaken held self) Stopped := by
  have unchanged : self = { self with ssl := some session } := by rw [← isSome]
  have accepted (asked : self.verifyPeer = true → peer.certificate = true ∧ peer.verifyResult = true)
      (named : self.verifyHostname = true → peer.certificate = true ∧ peer.hosts name = true) :
      ∀ host, Owns (.descriptor self.sockfd ::ₘ (session.resources + held)) host →
        Shaken held self (.ok (), self) host := fun host owns =>
    .inr ⟨session, by rw [← unchanged], ⟨peer, name, isPeer, isNamed, asked, named⟩, owns⟩
  refine .ite (fun shown => ?_) fun notShown => ?_
  · refine Triple.bind (acquire_owns fun _ _ same => by simpa using same) fun cert => ?_
    refine .ite (fun _ => (errorOut4_failed isSome).weaken fun _ _ => .inl) fun noPeer => ?_
    refine .ite (fun _ => (errorOut4_failed isSome).weaken fun _ _ => .inl) fun noName => ?_
    refine Triple.bind release_owns fun _ => .pure (accepted ?_ ?_)
    · exact fun asked => ⟨shown, by simpa [asked] using noPeer⟩
    · exact fun asked => ⟨shown, by simpa [asked] using noName⟩
  · refine .ite (fun _ => (errorOut3_failed isSome).weaken fun _ _ => .inl) fun noPeer => ?_
    refine .ite (fun _ => (errorOut3_failed isSome).weaken fun _ _ => .inl) fun noName => ?_
    exact .pure (accepted (fun asked => absurd asked noPeer) fun asked => absurd asked noName)

theorem shakeHands_shaken {number : Nat} {name : List UInt8} {answers : OpenAnswers} :
    Triple (Owns (.descriptor self.sockfd ::ₘ .session number ::ₘ held))
      (shakeHands self ⟨number, none, none, none⟩ name answers deadline fuel) (Shaken held self)
      Stopped := by
  have failed (ssl : Option Session) (status : Status) :
      Triple (Owns (.descriptor self.sockfd ::ₘ (sessionOf ssl + held)))
        (errorOut2 { self with ssl } status) (Shaken held self) Stopped :=
    (@errorOut2_failed held { self with ssl } status).weaken fun _ _ => .inl
  refine .ite (fun _ => failed (some ⟨number, none, none, none⟩) .noMemory) fun _ => ?_
  refine Triple.bind (acquire_owns fun _ _ same => by simpa using same) fun bio => ?_
  have moved : .bio bio ::ₘ .descriptor self.sockfd ::ₘ .session number ::ₘ held =
      .descriptor self.sockfd ::ₘ (.bio bio ::ₘ {.session number} + held) := by
    rw [Multiset.cons_swap, Multiset.cons_add, Multiset.singleton_add]
  rw [moved]
  refine .ite (fun _ => failed (some ⟨number, some bio, none, none⟩) .sslError) fun _ => ?_
  refine Triple.bind (startConnect_owns _) fun result => ?_
  cases result with
  | error status => exact failed (some ⟨number, some bio, some name, none⟩) status
  | ok peer =>
      exact (@checkPeer_shaken held
        { self with ssl := some ⟨number, some bio, some name, some peer⟩ } _ name peer rfl rfl rfl)

/-! ## Calls on a socket -/

variable {peerAsked hostnameAsked : Prop}

/-- What the process holds besides the connection of a socket. -/
def SslSocket.rest (self : SslSocket) (held : Multiset Resource) : Multiset Resource :=
  .block self.block ::ₘ (contextOf self.ctx + held)

theorem SslSocket.resources_of_closed (isClosed : self.sockfd = -1) :
    self.resources + held = self.rest held := by
  rw [resources, connection, if_pos isClosed, add_zero, Multiset.cons_add]
  rfl

theorem SslSocket.resources_of_session {session : Session} (isOpen : self.sockfd ≠ -1)
    (isSome : self.ssl = some session) :
    self.resources + held = .descriptor self.sockfd ::ₘ (session.resources + self.rest held) := by
  rw [resources, connection, if_neg isOpen, isSome, rest]
  simp only [sessionOf, ← Multiset.singleton_add]
  abel

/-- What the process holds with this socket. -/
def OwnsSsl (peerAsked hostnameAsked : Prop) (held : Multiset Resource) (self : SslSocket)
    (host : Host) : Prop :=
  Owns (self.resources + held) host ∧ self.Sound peerAsked hostnameAsked

theorem SslSocket.Sound.of_closed {other : SslSocket} (sound : self.Sound peerAsked hostnameAsked)
    (isClosed : other.sockfd = -1) (samePeer : other.verifyPeer = self.verifyPeer)
    (sameHostname : other.verifyHostname = self.verifyHostname) :
    other.Sound peerAsked hostnameAsked where
  sockfd := isClosed ▸ Int.le_refl _
  session isOpen := absurd isClosed isOpen
  peer asked := samePeer.trans (sound.peer asked)
  hostname asked := sameHostname.trans (sound.hostname asked)

/-- Opening loses a session when it leaves one with a socket that is not connected. -/
def Opened (peerAsked hostnameAsked : Prop) (held : Multiset Resource)
    (ends : Except Status Unit × SslSocket) (host : Host) : Prop :=
  ∃ lost : Multiset Resource, OwnsSsl peerAsked hostnameAsked (lost + held) ends.2 host ∧
    (∀ resource ∈ lost, ∃ number, resource = .session number) ∧
    Multiset.card lost = if ends.2.Dangling then 1 else 0

theorem opened_intact {ends : Except Status Unit × SslSocket} {host : Host}
    (owns : OwnsSsl peerAsked hostnameAsked held ends.2 host) (kept : ¬ ends.2.Dangling) :
    Opened peerAsked hostnameAsked held ends host :=
  ⟨0, by rwa [zero_add], by simp, by rw [if_neg kept, Multiset.card_zero]⟩

theorem opened_closed {ends : Except Status Unit × SslSocket} {host : Host}
    (sound : self.Sound peerAsked hostnameAsked) (owns : Owns (self.rest held) host)
    (isClosed : ends.2 = self.closed) : Opened peerAsked hostnameAsked held ends host := by
  refine opened_intact ⟨?_, ?_⟩ ?_
  · rw [isClosed, SslSocket.resources_of_closed rfl]
    exact owns
  · rw [isClosed]
    exact sound.of_closed rfl rfl rfl
  · rw [isClosed]
    rintro ⟨_, some⟩
    cases some

theorem amqpSslSocketOpen_of_closed {name : List UInt8} {answers : OpenAnswers}
    (isClosed : self.sockfd = -1) (sound : self.Sound peerAsked hostnameAsked)
    (resolved : Resolved answers.addresses) (timeout : Option Timeval) :
    Triple (Owns (self.rest held)) (amqpSslSocketOpen self name answers timeout fuel)
      (Opened peerAsked hostnameAsked held) Stopped := by
  have failed (ends : Except Status Unit × SslSocket) (host : Host)
      (fails : Failed (self.rest held) self ends host) :
      Opened peerAsked hostnameAsked held ends host := opened_closed sound fails.2.2 fails.1
  unfold amqpSslSocketOpen
  rw [if_neg (not_not.mpr isClosed)]
  refine .ite (fun _ => .pure fun host owns => opened_closed sound owns ?_) fun _ => ?_
  · rw [SslSocket.closed, ← isClosed]
  refine Triple.bind (acquire_owns fun _ _ same => by simpa using same) fun number => ?_
  refine Triple.bind (onWorld_owns (modelled_timeFromNow timeout)) fun result => ?_
  cases result with
  | error status =>
      refine .pure fun host ends => ⟨{.session number}, ⟨?_, ?_⟩, by simp, ?_⟩
      · have same : ({ self with ssl := some ⟨number, none, none, none⟩ } : SslSocket).resources +
            ({.session number} + held) = .session number ::ₘ self.rest held := by
          rw [@SslSocket.resources_of_closed _
            { self with ssl := some ⟨number, none, none, none⟩ } isClosed]
          simp only [SslSocket.rest, ← Multiset.singleton_add]
          abel
        exact same ▸ ends.1
      · exact sound.of_closed isClosed rfl rfl
      · rw [if_pos ⟨isClosed, rfl⟩, Multiset.card_singleton]
  | ok deadline =>
      refine Triple.bind ((amqpOpenSocketInner_returns resolved).strengthen fun _ ends => ends.1)
        fun sockfd => .ite (fun negative => ?_) fun isDescriptor => ?_
      · rintro host ⟨owns, _⟩
        rw [descriptorOf, if_neg (by omega), zero_add] at owns
        have fails := @errorOut1_failed (self.rest held)
          { self with sockfd := -1, ssl := some ⟨number, none, none, none⟩ } (.ofCode sockfd) rfl
        exact (fails.weaken failed) owns
      · rintro host ⟨owns, _⟩
        rw [descriptorOf, if_pos (by omega), Multiset.singleton_add] at owns
        have shakes := @shakeHands_shaken (self.rest held) { self with sockfd } fuel deadline number
          name answers
        refine (shakes.weaken ?_) owns
        rintro ends host (fails | ⟨session, rfl, vouched, owns⟩)
        · exact failed ends host fails
        · have isOpen : sockfd ≠ -1 := by omega
          refine opened_intact ⟨?_, ?_⟩ fun dangling => isOpen dangling.1
          · rw [SslSocket.resources_of_session isOpen rfl]
            exact owns
          · obtain ⟨peer, host, isPeer, isNamed, asked, named⟩ := vouched
            refine ⟨by dsimp only; omega, fun _ => ⟨session, rfl, peer, host, isPeer, isNamed, ?_, ?_⟩,
              sound.peer, sound.hostname⟩
            · exact fun isAsked => asked (sound.peer isAsked)
            · exact fun isAsked => named (sound.hostname isAsked)

theorem amqpSslSocketOpen_opened {name : List UInt8} {answers : OpenAnswers}
    (resolved : Resolved answers.addresses) (timeout : Option Timeval) :
    Triple (OwnsSsl peerAsked hostnameAsked held self)
      (amqpSslSocketOpen self name answers timeout fuel) (Opened peerAsked hostnameAsked held)
      Stopped := by
  rintro host ⟨owns, sound⟩
  by_cases isClosed : self.sockfd = -1
  · rw [SslSocket.resources_of_closed isClosed] at owns
    exact amqpSslSocketOpen_of_closed isClosed sound resolved timeout owns
  · unfold amqpSslSocketOpen
    rw [if_pos isClosed]
    exact opened_intact ⟨owns, sound⟩ fun dangling => isClosed dangling.1

theorem amqpSslSocketClose_owns (force : Bool) :
    Triple (OwnsSsl peerAsked hostnameAsked held self) (amqpSslSocketClose self force)
      (fun ends host => OwnsSsl peerAsked hostnameAsked held ends.2 host ∧ ends.2.sockfd = -1 ∧
        ends.2.block = self.block ∧ ends.2.ctx = self.ctx) Stopped := by
  refine .ite (fun isClosed => .pure fun host owns => ⟨owns, isClosed, rfl, rfl⟩) fun isOpen => ?_
  rintro host ⟨owns, sound⟩
  obtain ⟨session, isSome, _⟩ := sound.session isOpen
  rw [SslSocket.resources_of_session isOpen isSome, ← Multiset.add_cons] at owns
  have shutsDown : Triple (Owns (session.resources + .descriptor self.sockfd ::ₘ self.rest held))
      (shutDown force self.ssl)
      (fun _ => Owns (sessionOf self.ssl + .descriptor self.sockfd ::ₘ self.rest held)) Stopped := by
    rw [isSome]
    exact .ite (fun _ => .pure fun _ owns => owns) fun _ => .pure fun _ owns => owns
  refine Triple.bind shutsDown (fun _ => Triple.bind sslFree_owns fun _ =>
    Triple.bind amqpOsSocketClose_owns fun closed => ?_) owns
  refine .ite (fun _ => .pure ?_) fun failed => .pure fun _ ends => absurd ends.1 failed
  rintro after ⟨_, owns⟩
  refine ⟨⟨?_, sound.of_closed rfl rfl rfl⟩, rfl, rfl, rfl⟩
  rw [SslSocket.resources_of_closed rfl]
  exact owns

theorem amqpSslSocketDelete_owns : Triple (OwnsSsl peerAsked hostnameAsked held self)
    (amqpSslSocketDelete self) (fun _ => Owns held) Stopped := by
  refine Triple.bind (amqpSslSocketClose_owns false) fun ends => ?_
  rintro host ⟨⟨owns, _⟩, isClosed, sameBlock, sameCtx⟩
  have frees : Triple (Owns (contextOf self.ctx + .block self.block ::ₘ held)) (sslCtxFree self.ctx)
      (fun _ => Owns (.block self.block ::ₘ held)) Stopped := by
    cases self.ctx with
    | none => exact .pure fun _ owns => by rwa [contextOf, zero_add] at owns
    | some ctx => exact release_owns
  rw [SslSocket.resources_of_closed isClosed, SslSocket.rest, ← Multiset.add_cons, sameBlock,
    sameCtx] at owns
  dsimp only
  rw [sameBlock, sameCtx]
  exact Triple.bind frees (fun _ => release_owns) owns

/-- A `close` that fails leaves a socket that can neither be closed nor deleted. -/
theorem amqpSslSocketDelete_of_unclosed {after : SslSocket} {force : Bool} {before host : Host}
    (unclosed : amqpSslSocketClose self force before = .ok (.error .socketError, after) host) :
    amqpSslSocketDelete after host = .error (.fault .outOfBoundsRead) host := by
  unfold amqpSslSocketClose at unclosed
  split at unclosed
  · cases unclosed
  · rename_i isOpen
    obtain ⟨_, _, _, unclosed⟩ := bind_eq_ok.mp unclosed
    obtain ⟨_, _, _, unclosed⟩ := bind_eq_ok.mp unclosed
    obtain ⟨closed, _, _, unclosed⟩ := bind_eq_ok.mp unclosed
    split at unclosed
    · cases unclosed
    · cases unclosed
      refine bind_of_error ?_
      unfold amqpSslSocketClose
      rw [if_neg isOpen]
      rfl

end Rules

end RabbitmqC.Net
