import RabbitmqC.Duplex.Arrivals
import RabbitmqC.Duplex.Sending

/-!
# Two endpoints

Two connections exchange frames while calls are made on both, in any order and up to any
point of a call that is in progress. What each has decoded are the frames that the other
one was given to send, in their order, with none lost, repeated or changed.
-/

set_option autoImplicit false

namespace RabbitmqC

open Effect

/-- A connection as `amqp_tune_connection` leaves it, with nothing sent or received since and
with memory for frames of `limit` octets. -/
structure Opened (limit : Nat) (world : World) : Prop where
  large : 20 ≤ limit
  outbound : world.outbound.size = limit
  frameMax : world.reader.frameMax.toInt = limit
  begins : world.reader.Begins headerSize
  grants : ∀ frame, (world.script.memory frame).Grants limit
  queue : world.queue = .empty
  unread : world.unread = []
  wire : world.wire = []
  taken : world.taken = []
  consumed : world.consumed = []
  decoded : world.decoded = []
  inputError : world.inputError = none

section Opening

variable {limit : Nat} {opened world : World} {stop : Option Stop} {returned : List Frame}

theorem Opened.bounded (isOpened : Opened limit opened) : limit < 2 ^ 31 := by
  have bound := opened.reader.frameMax.toInt_lt
  have isLimit := isOpened.frameMax
  omega

theorem Opened.tracked {transmission : Transmission}
    (isOpened : Opened transmission.limit opened) :
    transmission.Tracked transmission.reading opened where
  grants := isOpened.grants
  stands future offered := by
    rw [isOpened.taken, List.nil_append] at offered
    refine ⟨[], transmission.frames, transmission.sent, [], ⟨rfl, transmission.arrive, ?_,
      ⟨[], rfl, ?_⟩, isOpened.decoded, isOpened.inputError, ?_⟩, ?_⟩
    · rw [isOpened.unread, List.nil_append, offered]
      exact pending_start transmission.arrive
    · exact isOpened.consumed
    · rw [isOpened.queue]
      exact LinkedQueue.all_empty
    · exact .between isOpened.begins isOpened.frameMax

/-! ## What was decoded -/

/-- The octets taken from the socket are those consumed and those in the buffer, no error was
found in them, and the frames recorded are exactly those that were consumed to their end. -/
structure Transmission.Decoded (transmission : Transmission) (world : World) : Prop where
  conserved : world.consumed ++ world.unread = world.taken
  sound : world.inputError = none
  frames : ∃ count, world.decoded = recorded (transmission.frames.take count) ∧
    (transmission.sent.take count).flatten <+: world.consumed ∧
    ∀ more, count < more → more ≤ transmission.sent.length →
      ¬ (transmission.sent.take more).flatten <+: world.consumed

theorem Transmission.Standing.decodes {transmission : Transmission} {done todo : List Frame}
    {sent : List (List UInt8)} {part future : List UInt8}
    (standing : transmission.Standing done todo sent part (world.unread ++ future) world)
    (offered : world.taken ++ future = transmission.sent.flatten) :
    transmission.Decoded world := by
  obtain ⟨isFrames, arrive, pending, ⟨before, isSent, consumed⟩, decoded, inputError, _⟩ := standing
  have lengths := transmission.arrive.length_eq
  rw [isFrames, ← isSent, List.length_append, List.length_append, arrive.length_eq] at lengths
  have counts : before.length = done.length := by omega
  generalize same : world.unread ++ future = remaining at pending
  have all : before.flatten ++ (part ++ remaining) = transmission.sent.flatten := by
    rw [← isSent, List.flatten_append]
    congr 1
    cases pending with
    | nil => rfl
    | next _ => simp
  refine ⟨?_, inputError, done.length, ?_, ?_, fun more beyond within whole => ?_⟩
  · rw [← same, ← offered, ← List.append_assoc, ← List.append_assoc, ← consumed] at all
    exact List.append_cancel_right all
  · rw [decoded, isFrames, List.take_left]
  · rw [← isSent, ← counts, List.take_left, consumed]
    exact List.prefix_append _ _
  · -- One more frame is longer than the part of it that was consumed.
    rw [← counts] at beyond
    rw [← isSent, List.length_append] at within
    rw [← isSent, List.take_append, List.flatten_append, List.take_of_length_le (by omega),
      consumed, List.prefix_append_right_inj] at whole
    cases pending with
    | nil =>
        rw [List.length_nil] at within
        omega
    | @next _ left rest some =>
        have first : (((part ++ left) :: rest).take (more - before.length)).flatten =
            part ++ (left ++ (rest.take (more - before.length - 1)).flatten) := by
          rw [List.take_cons (by omega), List.flatten_cons, List.append_assoc]
        rw [first] at whole
        have longer := whole.length_le
        rw [List.length_append, List.length_append] at longer
        have positive := List.length_pos_iff.mpr some
        omega

theorem CallRun.tracked {transmission : Transmission}
    (isOpened : Opened transmission.limit opened)
    (run : CallRun (fun _ => Prompt) opened stop world returned) :
    transmission.Tracked transmission.reading world := by
  have calls (call : LibraryCall) (fuel : Nat) :
      Triple (transmission.Followed transmission.reading) (call.run fuel)
        (fun _ => transmission.Tracked transmission.reading)
        (fun _ => transmission.Tracked transmission.reading) := by
    have ends := @CallParts.run _ _ _ _ fuel (@Transmission.callParts_followed transmission) call
      call.sound_of_all
    exact (ends.weaken fun _ _ => Transmission.Followed.toTracked).raise
      fun _ _ => Transmission.Followed.toTracked
  exact run.induct isOpened.tracked (fun _ _ tracked prompt => ⟨tracked, prompt⟩)
    fun call _ _ fuel => calls call fuel

theorem Transmission.Tracked.decodes {transmission : Transmission}
    (tracked : transmission.Tracked transmission.reading world)
    (delivered : world.taken <+: transmission.sent.flatten) : transmission.Decoded world := by
  obtain ⟨future, offered⟩ := delivered
  obtain ⟨done, todo, sent, part, standing, _⟩ := tracked.stands future offered
  exact standing.decodes offered

/-- Whatever is called while frames arrive, what is decoded are those frames. -/
theorem callRun_decodes (transmission : Transmission)
    (isOpened : Opened transmission.limit opened)
    (run : CallRun (fun _ => Prompt) opened stop world returned)
    (delivered : world.taken <+: transmission.sent.flatten) : transmission.Decoded world :=
  (run.tracked isOpened).decodes delivered

end Opening

theorem opened_tunedWorld {script : Script} (grants : script.memory = fun _ => grantingMemory) :
    Opened 4096 (tunedWorld script) where
  large := by decide
  outbound := List.length_replicate
  frameMax := rfl
  begins := ⟨rfl, rfl, rfl, .inl ⟨rfl, rfl⟩⟩
  grants frame := by
    show (script.memory frame).Grants 4096
    rw [grants]
    exact grants_grantingMemory (by decide)
  queue := rfl
  unread := rfl
  wire := rfl
  taken := rfl
  consumed := rfl
  decoded := rfl
  inputError := rfl

theorem prompt_tunedWorld (script : Script) : Prompt (tunedWorld script) :=
  .inr ⟨Int.le_refl 0, rfl⟩

/-- The octets of a frame on channel 1 arrive in two pieces. -/
def dividedWorld : World :=
  tunedWorld
    { clock := []
      recvs := [.data ⟨(bodyFrame 1 [17]).octets.take 3, by decide, by decide⟩,
        .data ⟨(bodyFrame 1 [17]).octets.drop 3, by decide, by decide⟩]
      sends := []
      recvPolls := []
      sendPolls := []
      closes := []
      links := []
      memory := fun _ => grantingMemory }

/-- The frame that `dividedWorld` is sent. -/
def dividedTransmission : Transmission where
  limit := 4096
  sent := [(bodyFrame 1 [17]).octets]
  frames := [bodyFrame 1 [17]]
  arrive := .cons (arrives_bodyFrame (by decide)) .nil

theorem callRun_decodes_divided :
    dividedTransmission.Decoded (endState (LibraryCall.simpleWaitFrame.run 6 dividedWorld)) ∧
      (endState (LibraryCall.simpleWaitFrame.run 6 dividedWorld)).decoded.length = 1 := by
  have waits := @CallRun.call (fun _ => Prompt) _ _ _ .simpleWaitFrame 6 (@CallRun.start _ dividedWorld)
    (prompt_tunedWorld _)
  exact ⟨callRun_decodes dividedTransmission (opened_tunedWorld rfl) waits (by decide +kernel),
    by decide +kernel⟩

/-! ## Both directions -/

/-- What a call begins with: no send will run late, no frame was left unfinished on an open
socket, and the frames that the call sends can be represented. -/
structure CallBegins (call : LibraryCall) (world : World) : Prop where
  prompt : Prompt world
  settled : NothingAbandoned world
  sound : call.Sound Frame.Representable

/-- What was decoded at one end are the first of the frames passed on at the other end, and
all of them once their octets were consumed. -/
structure Delivers (sender receiver : World) : Prop where
  sound : receiver.inputError = none
  frames : ∃ frames : List Frame, submittedFrames sender.wire = frames.map Frame.octets ∧
    acceptedOctets sender.wire <+: (frames.map Frame.octets).flatten ∧
    receiver.decoded <+: frames.map Frame.arrived ∧
    (receiver.consumed = (frames.map Frame.octets).flatten →
      receiver.decoded = frames.map Frame.arrived)

theorem CallRun.mono {meets weaker : LibraryCall → World → Prop} {opened world : World}
    {stop : Option Stop} {returned : List Frame}
    (implies : ∀ call world, meets call world → weaker call world)
    (run : CallRun meets opened stop world returned) :
    CallRun weaker opened stop world returned := by
  induction run with
  | start => exact .start
  | call _ isMet ih => exact ih.call (implies _ _ isMet)

section Endpoints

variable {limit : Nat} {senderOpened sender receiverOpened receiver : World}
  {senderStop receiverStop : Option Stop} {senderReturned receiverReturned : List Frame}

theorem recorded_arrived {frames : List Frame} (conveyed : ∀ frame ∈ frames, Conveyed limit frame) :
    recorded (frames.map Frame.arrived) = frames.map Frame.arrived := by
  refine List.filter_eq_self.mpr fun frame member => ?_
  obtain ⟨original, isMember, rfl⟩ := List.mem_map.mp member
  exact decide_eq_true (conveyed original isMember).typed

/-- A receiver takes the octets that a sender's socket has accepted, up to some point. -/
theorem delivers_of_taken (senderIs : Opened limit senderOpened)
    (receiverIs : Opened limit receiverOpened)
    (sends : CallRun CallBegins senderOpened senderStop sender senderReturned)
    (receives : CallRun CallBegins receiverOpened receiverStop receiver receiverReturned)
    (taken : receiver.taken <+: acceptedOctets sender.wire) : Delivers sender receiver := by
  have dispatched := sends.dispatched senderIs.large senderIs.bounded senderIs.outbound
    senderIs.wire (fun _ _ => CallBegins.settled) fun _ _ => CallBegins.sound
  obtain ⟨frames, submitted, conveyed, accepted⟩ := dispatched.frames
  have arrive : List.Forall₂ (Arrives limit) (frames.map Frame.octets)
      (frames.map Frame.arrived) := by
    rw [List.forall₂_map_left_iff, List.forall₂_map_right_iff]
    exact List.forall₂_same.mpr fun frame member => (conveyed frame member).arrives
  let transmission : Transmission :=
    ⟨limit, frames.map Frame.octets, frames.map Frame.arrived, arrive⟩
  have tracked : transmission.Tracked transmission.reading receiver :=
    (receives.mono fun _ _ => CallBegins.prompt).tracked receiverIs
  obtain ⟨_, sound, count, decoded, _, maximal⟩ := tracked.decodes (taken.trans accepted)
  dsimp only [transmission] at decoded maximal
  rw [← List.map_take, recorded_arrived fun frame member =>
    conveyed frame (List.mem_of_mem_take member)] at decoded
  refine ⟨sound, frames, submitted, accepted, ?_, fun whole => ?_⟩
  · rw [decoded, List.map_take]
    exact List.take_prefix _ _
  · rw [decoded, List.take_of_length_le]
    by_contra short
    refine maximal frames.length (by omega) (by simp) ⟨[], ?_⟩
    rw [List.append_nil, whole, List.take_of_length_le (by simp)]

/-- Whatever is called on two connections, each decodes what the other one was given to
send. -/
theorem duplex_delivers (senderIs : Opened limit senderOpened)
    (receiverIs : Opened limit receiverOpened)
    (sends : CallRun CallBegins senderOpened senderStop sender senderReturned)
    (receives : CallRun CallBegins receiverOpened receiverStop receiver receiverReturned)
    (there : receiver.taken <+: acceptedOctets sender.wire)
    (back : sender.taken <+: acceptedOctets receiver.wire) :
    Delivers sender receiver ∧ Delivers receiver sender :=
  ⟨delivers_of_taken senderIs receiverIs sends receives there,
    delivers_of_taken receiverIs senderIs receives sends back⟩

end Endpoints

/-- A frame on channel 1 is sent in two pieces. -/
def piecewiseWorld : World :=
  tunedWorld
    { clock := []
      recvs := []
      sends := [.accepted 4, .accepted 100]
      recvPolls := []
      sendPolls := []
      closes := []
      links := []
      memory := fun _ => grantingMemory }

theorem piecewise_sends :
    CallRun CallBegins piecewiseWorld
      (stopOf ((LibraryCall.sendFrame (bodyFrame 1 [17])).run 6 piecewiseWorld))
      (endState ((LibraryCall.sendFrame (bodyFrame 1 [17])).run 6 piecewiseWorld))
      ([] ++ returnedBy ((LibraryCall.sendFrame (bodyFrame 1 [17])).run 6 piecewiseWorld)) :=
  CallRun.start.call ⟨prompt_tunedWorld _, .inl rfl, trivial⟩

theorem duplex_delivers_piecewise :
    Delivers (endState ((LibraryCall.sendFrame (bodyFrame 1 [17])).run 6 piecewiseWorld))
        (endState (LibraryCall.simpleWaitFrame.run 6 dividedWorld)) ∧
      Delivers (endState (LibraryCall.simpleWaitFrame.run 6 dividedWorld))
        (endState ((LibraryCall.sendFrame (bodyFrame 1 [17])).run 6 piecewiseWorld)) := by
  have waits := @CallRun.call CallBegins _ _ _ .simpleWaitFrame 6 (@CallRun.start _ dividedWorld)
    ⟨prompt_tunedWorld _, .inl rfl, trivial⟩
  exact duplex_delivers (opened_tunedWorld rfl) (opened_tunedWorld rfl) piecewise_sends waits
    (by decide +kernel) (by decide +kernel)

end RabbitmqC
