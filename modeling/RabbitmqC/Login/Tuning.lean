import RabbitmqC.Login.Handshake
import RabbitmqC.Socket.Deadlines

/-!
# Tuning step by step

`amqp_tune_connection` stores its arguments before the first step that can fail, and
the length of the outbound buffer before the buffer has that length. Here
`outbound_buffer` has its two members, and `realloc` may free a block of no octets.
-/

set_option autoImplicit false

namespace RabbitmqC

namespace Tuning

open Effect

/-- What `outbound_buffer.bytes` points to. -/
inductive Block where
  | live (size : Nat)
  | freed
  deriving DecidableEq, Repr

/-- The answers of `realloc`: a new block, a null pointer, or a null pointer after the
block was freed, which is left to the C library if no octets are asked for. -/
inductive Realloc where
  | granted | refused | freed
  deriving DecidableEq, Repr

/-- The members that tuning is about, in `CONNECTION_STATE_IDLE`. -/
@[ext] structure Connection where
  channelMax : Int
  frameMax : Int32
  heartbeat : Int
  nextSendHeartbeat : UInt64
  nextRecvHeartbeat : UInt64
  /-- `outbound_buffer.len`. -/
  outboundLen : Nat
  outbound : Block
  deriving DecidableEq

/-- A connection from `amqp_new_connection` that has read its first frame. Before that it is not
idle, and `amqp_tune_connection` aborts. -/
def Connection.new : Connection where
  channelMax := 0
  frameMax := 65536
  heartbeat := 0
  nextSendHeartbeat := amqpTimeInfinite
  nextRecvHeartbeat := amqpTimeInfinite
  outboundLen := 65536
  outbound := .live 65536

/-- The arguments, with what the clock and `realloc` will answer. From 2^30 seconds on, twice
`heartbeat` is no `int` any more; the model goes on with the number. -/
structure Arguments where
  channelMax : Int
  frameMax : Int32
  heartbeat : Int
  /-- Zero is a failure of the timer. -/
  sendClock : UInt64
  recvClock : UInt64
  realloc : Realloc

/-- `state->heartbeat` as it is stored. -/
def Arguments.beat (arguments : Arguments) : Int :=
  if 0 > arguments.heartbeat then 0 else arguments.heartbeat

/-- `outbound_buffer.len` as it is stored. -/
def Arguments.size (arguments : Arguments) : Nat := sizeOfInt arguments.frameMax.toInt

/-- `amqp_time_s_from_now`, with what the clock shows if it is read. -/
def timeSFromNow (time : UInt64) (seconds : Int) (now : UInt64) : UInt64 × Except Status Unit :=
  if 0 ≥ seconds then (amqpTimeInfinite, .ok ())
  else if now = 0 then (time, .error .timerFailure)
  else timePointAfter now (UInt64.ofNat seconds.toNat * nsPerS)

/-- The block for `size` octets, unless it is null. More than `PTRDIFF_MAX` octets are
not granted. -/
def realloc (size : Nat) (answer : Realloc) : EStateM Fault Connection (Option Block) := do
  let connection ← get
  match connection.outbound with
  | .freed => throw .outOfBoundsRead
  | .live _ =>
      match answer with
      | .granted => if size < 2 ^ 63 then return some (.live size) else return none
      | .refused => return none
      | .freed =>
          if size = 0 then do
            set { connection with outbound := .freed }
            return none
          else
            return none

/-- Move `next_send_heartbeat`. -/
def scheduleSend (arguments : Arguments) : EStateM Fault Connection (Except Status Unit) := do
  let connection ← get
  let (time, res) :=
    timeSFromNow connection.nextSendHeartbeat connection.heartbeat arguments.sendClock
  set { connection with nextSendHeartbeat := time }
  return res

/-- Move `next_recv_heartbeat`. -/
def scheduleRecv (arguments : Arguments) : EStateM Fault Connection (Except Status Unit) := do
  let connection ← get
  let (time, res) :=
    timeSFromNow connection.nextRecvHeartbeat (2 * connection.heartbeat) arguments.recvClock
  set { connection with nextRecvHeartbeat := time }
  return res

def amqpTuneConnection (arguments : Arguments) :
    EStateM Fault Connection (Except Status Unit) := do
  modify fun connection => { connection with
    channelMax := arguments.channelMax
    frameMax := arguments.frameMax
    heartbeat := arguments.beat }
  match ← scheduleSend arguments with
  | .error status => return .error status
  | .ok () => do
      match ← scheduleRecv arguments with
      | .error status => return .error status
      | .ok () => do
          modify fun connection => { connection with outboundLen := arguments.size }
          match ← realloc arguments.size arguments.realloc with
          | none => return .error .noMemory
          | some newbuf => do
              modify fun connection => { connection with outbound := newbuf }
              return .ok ()

/-! ## What a call stores -/

section Stores

variable (arguments : Arguments) (connection : Connection)

/-- The arguments are stored first. -/
def settled : Connection :=
  { connection with
    channelMax := arguments.channelMax
    frameMax := arguments.frameMax
    heartbeat := arguments.beat }

def sendTimer : UInt64 × Except Status Unit :=
  timeSFromNow connection.nextSendHeartbeat arguments.beat arguments.sendClock

def recvTimer : UInt64 × Except Status Unit :=
  timeSFromNow connection.nextRecvHeartbeat (2 * arguments.beat) arguments.recvClock

/-- Both deadlines and the length are stored before `realloc` is called. -/
def scheduled : Connection :=
  { settled arguments connection with
    nextSendHeartbeat := (sendTimer arguments connection).1
    nextRecvHeartbeat := (recvTimer arguments connection).1
    outboundLen := arguments.size }

/-- `realloc` grants a block. -/
def Grants : Prop := arguments.realloc = .granted ∧ arguments.size < 2 ^ 63

/-- `realloc` frees the block and grants none. -/
def Frees : Prop := arguments.realloc = .freed ∧ arguments.size = 0

end Stores

section Steps

variable {arguments : Arguments} {connection : Connection} {status : Status} {size : Nat}

theorem scheduleSend_run : scheduleSend arguments (settled arguments connection) =
    .ok (sendTimer arguments connection).2
      { settled arguments connection with
        nextSendHeartbeat := (sendTimer arguments connection).1 } := rfl

theorem scheduleRecv_run (time : UInt64) :
    scheduleRecv arguments { settled arguments connection with nextSendHeartbeat := time } =
      .ok (recvTimer arguments connection).2
        { settled arguments connection with
          nextSendHeartbeat := time
          nextRecvHeartbeat := (recvTimer arguments connection).1 } := rfl

theorem tune_of_send_failure (fails : (sendTimer arguments connection).2 = .error status) :
    amqpTuneConnection arguments connection = .ok (.error status)
      { settled arguments connection with
        nextSendHeartbeat := (sendTimer arguments connection).1 } := by
  have send := @scheduleSend_run arguments connection
  rw [fails] at send
  exact (bind_of_ok (modify_run _ connection)).trans (bind_of_ok send)

theorem tune_of_recv_failure (sends : (sendTimer arguments connection).2 = .ok ())
    (fails : (recvTimer arguments connection).2 = .error status) :
    amqpTuneConnection arguments connection = .ok (.error status)
      { settled arguments connection with
        nextSendHeartbeat := (sendTimer arguments connection).1
        nextRecvHeartbeat := (recvTimer arguments connection).1 } := by
  have send := @scheduleSend_run arguments connection
  have recv := @scheduleRecv_run arguments connection (sendTimer arguments connection).1
  rw [sends] at send
  rw [fails] at recv
  exact (bind_of_ok (modify_run _ connection)).trans ((bind_of_ok send).trans (bind_of_ok recv))

/-- What is left to do when the timers have not failed. -/
def allocate (arguments : Arguments) : EStateM Fault Connection (Except Status Unit) := do
  match ← realloc arguments.size arguments.realloc with
  | none => return .error .noMemory
  | some newbuf => do
      modify fun connection => { connection with outbound := newbuf }
      return .ok ()

theorem tune_of_timers (sends : (sendTimer arguments connection).2 = .ok ())
    (receives : (recvTimer arguments connection).2 = .ok ()) :
    amqpTuneConnection arguments connection =
      allocate arguments (scheduled arguments connection) := by
  have send := @scheduleSend_run arguments connection
  have recv := @scheduleRecv_run arguments connection (sendTimer arguments connection).1
  rw [sends] at send
  rw [receives] at recv
  exact (bind_of_ok (modify_run _ connection)).trans ((bind_of_ok send).trans (bind_of_ok recv))

theorem tune_of_granted (sends : (sendTimer arguments connection).2 = .ok ())
    (receives : (recvTimer arguments connection).2 = .ok ()) (grants : Grants arguments)
    (live : connection.outbound = .live size) :
    amqpTuneConnection arguments connection = .ok (.ok ())
      { scheduled arguments connection with outbound := .live arguments.size } := by
  have reallocates : realloc arguments.size arguments.realloc (scheduled arguments connection) =
      .ok (some (.live arguments.size)) (scheduled arguments connection) := by
    unfold realloc
    rw [bind_of_ok (get_run _), show (scheduled arguments connection).outbound = _ from live,
      grants.1]
    exact congrFun (if_pos grants.2) _
  exact (tune_of_timers sends receives).trans (bind_of_ok reallocates)

theorem tune_of_refused (sends : (sendTimer arguments connection).2 = .ok ())
    (receives : (recvTimer arguments connection).2 = .ok ()) (refuses : ¬Grants arguments)
    (keeps : ¬Frees arguments) (live : connection.outbound = .live size) :
    amqpTuneConnection arguments connection = .ok (.error .noMemory)
      (scheduled arguments connection) := by
  have reallocates : realloc arguments.size arguments.realloc (scheduled arguments connection) =
      .ok none (scheduled arguments connection) := by
    unfold realloc
    rw [bind_of_ok (get_run _), show (scheduled arguments connection).outbound = _ from live]
    cases answer : arguments.realloc with
    | granted => exact congrFun (if_neg fun small => refuses ⟨answer, small⟩) _
    | refused => rfl
    | freed => exact congrFun (if_neg fun none => keeps ⟨answer, none⟩) _
  exact (tune_of_timers sends receives).trans (bind_of_ok reallocates)

theorem tune_of_freed (sends : (sendTimer arguments connection).2 = .ok ())
    (receives : (recvTimer arguments connection).2 = .ok ()) (frees : Frees arguments)
    (live : connection.outbound = .live size) :
    amqpTuneConnection arguments connection = .ok (.error .noMemory)
      { scheduled arguments connection with outbound := .freed } := by
  have reallocates : realloc arguments.size arguments.realloc (scheduled arguments connection) =
      .ok none { scheduled arguments connection with outbound := .freed } := by
    unfold realloc
    rw [bind_of_ok (get_run _), show (scheduled arguments connection).outbound = _ from live,
      frees.1]
    exact congrFun (if_pos frees.2) _
  exact (tune_of_timers sends receives).trans (bind_of_ok reallocates)

end Steps

/-! ## Failed calls -/

/-- A call that fails leaves the connection as it was. -/
def Atomic (arguments : Arguments) (connection : Connection) : Prop :=
  ∀ status after, amqpTuneConnection arguments connection = .ok (.error status) after →
    after = connection

/-- The block has the length that `outbound_buffer` claims, which is enough for a frame. -/
def Sound (connection : Connection) : Prop :=
  ∃ size, connection.outbound = .live size ∧ connection.outboundLen ≤ size ∧
    connection.frameMax.toInt ≤ connection.outboundLen

/-- What a call stores before it fails is what the connection has already. -/
structure Repeats (arguments : Arguments) (connection : Connection) : Prop where
  channelMax : arguments.channelMax = connection.channelMax
  frameMax : arguments.frameMax = connection.frameMax
  heartbeat : arguments.beat = connection.heartbeat
  send : (sendTimer arguments connection).1 = connection.nextSendHeartbeat
  recv : (sendTimer arguments connection).2 = .ok () →
    (recvTimer arguments connection).1 = connection.nextRecvHeartbeat
  outbound : (sendTimer arguments connection).2 = .ok () →
    (recvTimer arguments connection).2 = .ok () →
    arguments.size = connection.outboundLen ∧ ¬Frees arguments

/-- The call does not fail, or it repeats what the connection has. -/
def Careful (arguments : Arguments) (connection : Connection) : Prop :=
  (sendTimer arguments connection).2 = .ok () ∧ (recvTimer arguments connection).2 = .ok () ∧
      Grants arguments ∨
    Repeats arguments connection

section Failures

variable {arguments : Arguments} {connection after : Connection} {size : Nat}

theorem atomic_iff_of_error {status : Status}
    (returned : amqpTuneConnection arguments connection = .ok (.error status) after) :
    Atomic arguments connection ↔ after = connection := by
  constructor
  · intro atomic
    exact atomic status after returned
  · intro unchanged other final again
    rw [returned] at again
    cases again
    exact unchanged

theorem atomic_iff_careful (live : connection.outbound = .live size) :
    Atomic arguments connection ↔ Careful arguments connection := by
  unfold Careful
  cases sends : (sendTimer arguments connection).2 with
  | error status =>
      rw [atomic_iff_of_error (tune_of_send_failure sends), Connection.ext_iff]
      constructor
      · intro unchanged
        obtain ⟨channelMax, frameMax, heartbeat, send, _⟩ := unchanged
        right
        refine ⟨channelMax, frameMax, heartbeat, send, ?_, ?_⟩
        · intro succeeds
          cases sends.symm.trans succeeds
        · intro succeeds
          cases sends.symm.trans succeeds
      · intro careful
        cases careful with
        | inl succeeds => cases succeeds.1
        | inr repeats =>
            exact ⟨repeats.channelMax, repeats.frameMax, repeats.heartbeat, repeats.send, rfl,
              rfl, rfl⟩
  | ok _ =>
      cases receives : (recvTimer arguments connection).2 with
      | error status =>
          rw [atomic_iff_of_error (tune_of_recv_failure sends receives), Connection.ext_iff]
          constructor
          · intro unchanged
            obtain ⟨channelMax, frameMax, heartbeat, send, recv, _⟩ := unchanged
            right
            refine ⟨channelMax, frameMax, heartbeat, send, fun _ => recv, ?_⟩
            intro _ succeeds
            cases receives.symm.trans succeeds
          · intro careful
            cases careful with
            | inl succeeds => cases succeeds.2.1
            | inr repeats =>
                exact ⟨repeats.channelMax, repeats.frameMax, repeats.heartbeat, repeats.send,
                  repeats.recv sends, rfl, rfl⟩
      | ok _ =>
          by_cases grants : Grants arguments
          · constructor
            · intro _
              exact .inl ⟨rfl, rfl, grants⟩
            · intro _ status after returned
              rw [tune_of_granted sends receives grants live] at returned
              cases returned
          · by_cases frees : Frees arguments
            · rw [atomic_iff_of_error (tune_of_freed sends receives frees live),
                Connection.ext_iff]
              constructor
              · intro unchanged
                have isFreed : Block.freed = connection.outbound := unchanged.2.2.2.2.2.2
                cases isFreed.trans live
              · intro careful
                cases careful with
                | inl succeeds => exact absurd succeeds.2.2 grants
                | inr repeats => exact absurd frees (repeats.outbound sends receives).2
            · rw [atomic_iff_of_error (tune_of_refused sends receives grants frees live),
                Connection.ext_iff]
              constructor
              · intro unchanged
                obtain ⟨channelMax, frameMax, heartbeat, send, recv, isSize, _⟩ := unchanged
                right
                exact ⟨channelMax, frameMax, heartbeat, send, fun _ => recv,
                  fun _ _ => ⟨isSize, frees⟩⟩
              · intro careful
                cases careful with
                | inl succeeds => exact absurd succeeds.2.2 grants
                | inr repeats =>
                    exact ⟨repeats.channelMax, repeats.frameMax, repeats.heartbeat, repeats.send,
                      repeats.recv sends, (repeats.outbound sends receives).1, rfl⟩

/-- A call on a live block returns, and it succeeds only if all of its steps do. -/
theorem tune_returns (live : connection.outbound = .live size) :
    (∃ status after, amqpTuneConnection arguments connection = .ok (.error status) after) ∨
      Grants arguments ∧ amqpTuneConnection arguments connection = .ok (.ok ())
        { scheduled arguments connection with outbound := .live arguments.size } := by
  cases sends : (sendTimer arguments connection).2 with
  | error status => exact .inl ⟨_, _, tune_of_send_failure sends⟩
  | ok _ =>
      cases receives : (recvTimer arguments connection).2 with
      | error status => exact .inl ⟨_, _, tune_of_recv_failure sends receives⟩
      | ok _ =>
          by_cases grants : Grants arguments
          · exact .inr ⟨grants, tune_of_granted sends receives grants live⟩
          · by_cases frees : Frees arguments
            · exact .inl ⟨_, _, tune_of_freed sends receives frees live⟩
            · exact .inl ⟨_, _, tune_of_refused sends receives grants frees live⟩

/-- A size that `realloc` grants is not negative. -/
theorem frameMax_le_size (grants : Grants arguments) :
    arguments.frameMax.toInt ≤ arguments.size := by
  have upper := arguments.frameMax.toInt_lt
  have lower := arguments.frameMax.le_toInt
  have bound := grants.2
  unfold Arguments.size sizeOfInt at *
  omega

end Failures

/-! ## Runs -/

/-- The states that careful calls lead to. -/
inductive Reached : Connection → Prop where
  | new : Reached Connection.new
  | tuned {arguments : Arguments} {connection after : Connection} {result : Except Status Unit} :
      Reached connection → Careful arguments connection →
      amqpTuneConnection arguments connection = .ok result after → Reached after

theorem sound_of_tuned {arguments : Arguments} {connection after : Connection}
    {result : Except Status Unit} (sound : Sound connection)
    (careful : Careful arguments connection)
    (returned : amqpTuneConnection arguments connection = .ok result after) : Sound after := by
  have holds := sound
  obtain ⟨size, live, _⟩ := holds
  cases tune_returns live with
  | inl failed =>
      obtain ⟨status, final, fails⟩ := failed
      have unchanged := (atomic_iff_careful live).mpr careful status final fails
      rw [fails] at returned
      cases returned
      rw [unchanged]
      exact sound
  | inr succeeded =>
      obtain ⟨grants, succeeds⟩ := succeeded
      rw [succeeds] at returned
      cases returned
      exact ⟨arguments.size, rfl, Nat.le_refl _, frameMax_le_size grants⟩

theorem sound_of_reached {connection : Connection} (reached : Reached connection) :
    Sound connection := by
  induction reached with
  | new => exact ⟨65536, rfl, Nat.le_refl _, by decide⟩
  | tuned _ careful returned ih => exact sound_of_tuned ih careful returned

/-- Failed calls are atomic just when they are careful, and careful calls keep the
buffer as large as it claims to be. -/
theorem tuneConnection_atomic_iff (connection : Connection) :
    (∀ arguments size, connection.outbound = .live size →
      (Atomic arguments connection ↔ Careful arguments connection)) ∧
    (Reached connection → Sound connection) := by
  constructor
  · intro arguments size live
    exact atomic_iff_careful live
  · intro reached
    exact sound_of_reached reached

/-- Frames of 4096 octets, with the memory for one of them. -/
def grantedArguments : Arguments := ⟨2047, 4096, 0, 0, 0, .granted⟩

/-- The same, without the memory. -/
def repeatedArguments : Arguments := ⟨2047, 4096, 0, 0, 0, .refused⟩

/-- A call succeeds, and one with the same arguments fails and changes nothing. -/
theorem tuneConnection_atomic_iff_repeated : ∃ after,
    amqpTuneConnection grantedArguments Connection.new = .ok (.ok ()) after ∧
      amqpTuneConnection repeatedArguments after = .ok (.error .noMemory) after ∧
      Atomic repeatedArguments after ∧ Sound after := by
  have grants : Grants grantedArguments := ⟨rfl, by decide⟩
  have live : Connection.new.outbound = .live 65536 := rfl
  have careful : Careful grantedArguments Connection.new := .inl ⟨rfl, rfl, grants⟩
  have tuned := @tune_of_granted grantedArguments Connection.new 65536 rfl rfl grants live
  have repeats : Repeats repeatedArguments
      { scheduled grantedArguments Connection.new with outbound := .live grantedArguments.size } :=
    ⟨rfl, rfl, rfl, rfl, fun _ => rfl, fun _ _ => ⟨rfl, fun frees => by cases frees.1⟩⟩
  have reached : Reached _ := .tuned .new careful tuned
  refine ⟨_, tuned, rfl, ((tuneConnection_atomic_iff _).1 _ _ rfl).mpr (.inr repeats),
    (tuneConnection_atomic_iff _).2 (.tuned reached (.inr repeats) rfl)⟩

/-- More room is asked for than there is. -/
def refusedArguments : Arguments := ⟨0, 131072, 0, 0, 0, .refused⟩

/-- The limit and the length are those of a buffer that was not obtained. -/
theorem refused_buffer_claimed :
    ∃ after, amqpTuneConnection refusedArguments Connection.new = .ok (.error .noMemory) after ∧
      ¬Atomic refusedArguments Connection.new ∧ ¬Sound after := by
  have returned : amqpTuneConnection refusedArguments Connection.new =
      .ok (.error .noMemory) (scheduled refusedArguments Connection.new) := rfl
  refine ⟨_, returned, ?_, ?_⟩
  · intro atomic
    have unchanged := congrArg Connection.frameMax (atomic _ _ returned)
    revert unchanged
    decide
  · intro sound
    obtain ⟨size, live, room, _⟩ := sound
    have isSize : Block.live 65536 = .live size := live
    cases isSize
    revert room
    decide

/-! ## The same call in a world -/

/-- What a world shows of a connection. The length of the outbound buffer is not told
apart from the size of its block there. -/
structure Shows (world : World) (connection : Connection) : Prop where
  channelMax : world.channelMax = connection.channelMax
  frameMax : world.reader.frameMax = connection.frameMax
  heartbeat : world.heartbeat = connection.heartbeat
  nextSendHeartbeat : world.nextSendHeartbeat = connection.nextSendHeartbeat
  nextRecvHeartbeat : world.nextRecvHeartbeat = connection.nextRecvHeartbeat
  outbound : connection.outbound = .live world.outbound.size

section Worlds

variable {arguments : Arguments} {connection : Connection} {world : World} {clock : List UInt64}

theorem timeSFromNow_run {time now : UInt64} {seconds : Int}
    (isClock : 0 < seconds → world.script.clock = now :: clock) :
    ∃ script, amqpTimeSFromNow time seconds world =
        .ok (timeSFromNow time seconds now) { world with script } ∧
      (0 < seconds → script.clock = clock) := by
  unfold amqpTimeSFromNow timeSFromNow
  by_cases never : 0 ≥ seconds
  · rw [if_pos never, if_pos never]
    refine ⟨world.script, rfl, ?_⟩
    intro positive
    omega
  · have positive : 0 < seconds := by omega
    rw [if_neg never, if_neg never, bind_of_ok (timestamp_of_cons (isClock positive))]
    refine ⟨{ world.script with clock }, ?_, fun _ => rfl⟩
    by_cases stopped : now = 0
    · rw [if_pos stopped, if_pos stopped]
      rfl
    · rw [if_neg stopped, if_neg stopped]
      rfl

theorem scheduleHeartbeat_run {now : UInt64}
    (isClock : 0 < world.heartbeat → world.script.clock = now :: clock) :
    ∃ script, scheduleHeartbeat world =
        .ok (timeSFromNow world.nextSendHeartbeat world.heartbeat now).2
          { world with
            script
            nextSendHeartbeat :=
              (timeSFromNow world.nextSendHeartbeat world.heartbeat now).1 } ∧
      (0 < world.heartbeat → script.clock = clock) := by
  obtain ⟨script, timed, left⟩ :=
    @timeSFromNow_run world clock world.nextSendHeartbeat now world.heartbeat isClock
  refine ⟨script, ?_, left⟩
  unfold scheduleHeartbeat
  rw [bind_of_ok (get_run world)]
  exact (bind_of_ok timed).trans rfl

theorem awaitHeartbeat_run {now : UInt64}
    (isClock : 0 < 2 * world.heartbeat → world.script.clock = now :: clock) :
    ∃ script, awaitHeartbeat world =
        .ok (timeSFromNow world.nextRecvHeartbeat (2 * world.heartbeat) now).2
          { world with
            script
            nextRecvHeartbeat :=
              (timeSFromNow world.nextRecvHeartbeat (2 * world.heartbeat) now).1 } := by
  obtain ⟨script, timed, _⟩ :=
    @timeSFromNow_run world clock world.nextRecvHeartbeat now (2 * world.heartbeat) isClock
  refine ⟨script, ?_⟩
  unfold awaitHeartbeat
  rw [bind_of_ok (get_run world)]
  exact (bind_of_ok timed).trans rfl

theorem grants_iff : Grants arguments ↔
    decide (arguments.realloc = .granted) = true ∧ 0 ≤ arguments.frameMax.toInt := by
  have upper := arguments.frameMax.toInt_lt
  have lower := arguments.frameMax.le_toInt
  rw [decide_eq_true_eq]
  apply and_congr_right
  intro _
  unfold Arguments.size sizeOfInt
  omega

/-- Unless `realloc` frees the block, the two calls do the same. -/
theorem amqpTuneConnection_shows (shows : Shows world connection)
    (idle : world.reader.state = .idle)
    (isClock : world.script.clock = arguments.sendClock :: arguments.recvClock :: clock)
    (keeps : ¬Frees arguments) :
    ∃ result after final,
      RabbitmqC.amqpTuneConnection arguments.channelMax arguments.frameMax arguments.heartbeat
          (arguments.realloc = .granted) world = .ok result final ∧
        amqpTuneConnection arguments connection = .ok result after ∧ Shows final after := by
  let stored : World :=
    { world with
      channelMax := arguments.channelMax
      reader.frameMax := arguments.frameMax
      heartbeat := arguments.beat }
  obtain ⟨first, schedules, left⟩ := @scheduleHeartbeat_run stored
    (arguments.recvClock :: clock) arguments.sendClock fun _ => isClock
  let passed : World :=
    { stored with
      script := first
      nextSendHeartbeat := (sendTimer arguments connection).1 }
  have send : timeSFromNow stored.nextSendHeartbeat stored.heartbeat arguments.sendClock =
      sendTimer arguments connection := by
    show timeSFromNow world.nextSendHeartbeat arguments.beat arguments.sendClock = _
    rw [shows.nextSendHeartbeat]
    rfl
  have recv : timeSFromNow passed.nextRecvHeartbeat (2 * passed.heartbeat) arguments.recvClock =
      recvTimer arguments connection := by
    show timeSFromNow world.nextRecvHeartbeat (2 * arguments.beat) arguments.recvClock = _
    rw [shows.nextRecvHeartbeat]
    rfl
  have beats (positive : 0 < 2 * passed.heartbeat) : 0 < stored.heartbeat := by
    have same : passed.heartbeat = stored.heartbeat := rfl
    omega
  obtain ⟨second, awaits⟩ := @awaitHeartbeat_run passed clock arguments.recvClock
    fun positive => left (beats positive)
  rw [send] at schedules
  rw [recv] at awaits
  let waited : World :=
    { passed with
      script := second
      nextRecvHeartbeat := (recvTimer arguments connection).1 }
  unfold RabbitmqC.amqpTuneConnection
  rw [bind_of_ok (get_run world), if_neg (not_not.mpr idle)]
  cases sends : (sendTimer arguments connection).2 with
  | error status =>
      rw [sends] at schedules
      refine ⟨_, _, passed, ?_, tune_of_send_failure sends, ?_⟩
      · exact (bind_of_ok (set_run stored world)).trans (bind_of_ok schedules)
      · exact ⟨rfl, rfl, rfl, rfl, shows.nextRecvHeartbeat, shows.outbound⟩
  | ok _ =>
      rw [sends] at schedules
      cases receives : (recvTimer arguments connection).2 with
      | error status =>
          rw [receives] at awaits
          refine ⟨_, _, waited, ?_, tune_of_recv_failure sends receives, ?_⟩
          · exact (bind_of_ok (set_run stored world)).trans
              ((bind_of_ok schedules).trans (bind_of_ok awaits))
          · exact ⟨rfl, rfl, rfl, rfl, rfl, shows.outbound⟩
      | ok _ =>
          rw [receives] at awaits
          by_cases grants : Grants arguments
          · refine ⟨_, _, { waited with
                outbound := reallocOutbound world.outbound arguments.frameMax }, ?_,
              tune_of_granted sends receives grants shows.outbound, ?_⟩
            · refine (bind_of_ok (set_run stored world)).trans
                ((bind_of_ok schedules).trans ((bind_of_ok awaits).trans ?_))
              exact congrFun (if_pos (grants_iff.mp grants)) waited
            · have isSize : arguments.size = arguments.frameMax.toInt.toNat :=
                sizeOfInt_of_nonneg (grants_iff.mp grants).2 arguments.frameMax.toInt_lt
              refine ⟨rfl, rfl, rfl, rfl, rfl, congrArg Block.live ?_⟩
              exact isSize.trans (List.takeD_length _ _ _).symm
          · refine ⟨_, _, waited, ?_,
              tune_of_refused sends receives grants keeps shows.outbound, ?_⟩
            · refine (bind_of_ok (set_run stored world)).trans
                ((bind_of_ok schedules).trans ((bind_of_ok awaits).trans ?_))
              exact congrFun (if_neg (mt grants_iff.mpr grants)) waited
            · exact ⟨rfl, rfl, rfl, rfl, rfl, shows.outbound⟩

end Worlds

end Tuning

end RabbitmqC
