import RabbitmqC.Socket.Receive
import RabbitmqC.Socket.SendDiscipline

/-!
# Publishing what cannot be encoded

`amqp_basic_publish` encodes and sends one frame after the other. If the header
frame turns out not to fit into a frame, the method frame is on its way already.
-/

set_option autoImplicit false

namespace RabbitmqC

open Effect

/-! ## Messages -/

/-- The arguments of `amqp_basic_publish`. -/
structure Publication where
  channel : UInt16
  exchange : List UInt8
  routingKey : List UInt8
  mandatory : Int32
  immediate : Int32
  properties : Option (Properties amqpBasicClass)
  body : List UInt8

namespace Publication

def publish (message : Publication) (fuel : Nat) : Call (Except Status Unit) :=
  amqpBasicPublish message.channel message.exchange message.routingKey message.mandatory
    message.immediate message.properties message.body fuel

/-- From the sending of the method on. -/
def content (message : Publication) (fuel : Nat) : Call (Except Status Unit) :=
  publishContent message.channel message.exchange message.routingKey message.mandatory
    message.immediate message.properties message.body fuel

def methodFrame (message : Publication) : Frame :=
  ⟨amqpFrameMethod, message.channel, .method amqpBasicPublishMethod
    (some (basicPublishFields message.exchange message.routingKey message.mandatory
      message.immediate))⟩

def headerFrame (message : Publication) : Frame :=
  ⟨amqpFrameHeader, message.channel, .properties amqpBasicClass
    (UInt64.ofNat message.body.length) (some (message.properties.getD defaultProperties)) ⟨0, 0⟩⟩

end Publication

/-- The length of a frame in a buffer, or why it cannot be encoded there. -/
def encodeResult (frame : Frame) (outbound : Buffer) : Except Failure Nat :=
  match amqpFrameToBytes frame outbound.size outbound with
  | .ok count _ => .ok count
  | .error failure _ => .error failure

/-- The codes for a frame that cannot be encoded. -/
def encodingCodes : List Status := [.tableTooBig, .badAmqpData, .invalidParameter]

/-- If the method or the header cannot be encoded and the call says so, the socket has
accepted nothing. -/
def AllOrNothing (message : Publication) (fuel : Nat) (world : World) : Prop :=
  ∀ status after, message.publish fuel world = .ok (.error status) after →
    status ∈ encodingCodes →
    (encodeResult message.methodFrame world.outbound = .error (.status status) ∨
      encodeResult message.headerFrame world.outbound = .error (.status status)) →
    acceptedOctets after.wire = acceptedOctets world.wire

/-! ## Encoding -/

section Encoding

variable {frame : Frame} {world : World} {count : Nat} {status : Status}

theorem encodeResult_congr {left right : Buffer} (same : left.size = right.size) (frame : Frame) :
    encodeResult frame left = encodeResult frame right := by
  have alike := @lockstep_amqpFrameToBytes right.size frame right.size left right ⟨same, rfl⟩
  unfold encodeResult
  rw [same]
  generalize amqpFrameToBytes frame right.size left = first at alike ⊢
  generalize amqpFrameToBytes frame right.size right = second at alike ⊢
  cases alike with
  | ok _ => rfl
  | error _ => rfl

theorem encodeOutbound_of_ok (encodes : encodeResult frame world.outbound = .ok count) :
    ∃ encoded outbound, encodeOutbound frame world = .ok (.ok encoded) { world with outbound } ∧
      outbound.size = world.outbound.size ∧ encoded ≠ [] ∧
      encoded.length ≤ world.outbound.size := by
  unfold encodeResult at encodes
  unfold encodeOutbound
  rw [bind_of_ok (get_run world)]
  cases returned : amqpFrameToBytes frame world.outbound.size world.outbound with
  | error failure outbound =>
      rw [returned] at encodes
      cases encodes
  | ok length outbound =>
      obtain ⟨isSize, atLeast, atMost⟩ := size_of_amqpFrameToBytes returned
      have isLength : (outbound.bytes.take length).length = length := by
        rw [← isSize] at atMost
        exact List.length_take_of_le atMost
      refine ⟨outbound.bytes.take length, outbound, rfl, isSize, ?_, ?_⟩
      · apply List.ne_nil_of_length_pos
        simp only [headerSize, footerSize] at atLeast
        omega
      · rw [isLength]
        exact atMost

theorem sendFrameInner_of_refused {flags : SendFlags} {deadline : UInt64} {fuel : Nat}
    (refused : encodeResult frame world.outbound = .error (.status status)) :
    ∃ outbound, amqpSendFrameInner frame flags deadline fuel world =
      .ok (.error status) { world with outbound } := by
  unfold encodeResult at refused
  unfold amqpSendFrameInner encodeOutbound
  rw [bind_assoc, bind_of_ok (get_run world)]
  cases returned : amqpFrameToBytes frame world.outbound.size world.outbound with
  | ok count outbound =>
      rw [returned] at refused
      cases refused
  | error failure outbound =>
      rw [returned] at refused
      cases refused
      exact ⟨outbound, rfl⟩

theorem sendFrameInner_of_fault {flags : SendFlags} {deadline : UInt64} {fuel : Nat}
    {fault : Fault} (faulty : encodeResult frame world.outbound = .error (.fault fault)) :
    amqpSendFrameInner frame flags deadline fuel world = .error (.fault fault) world := by
  unfold encodeResult at faulty
  unfold amqpSendFrameInner encodeOutbound
  rw [bind_assoc, bind_of_ok (get_run world)]
  cases returned : amqpFrameToBytes frame world.outbound.size world.outbound with
  | ok count outbound =>
      rw [returned] at faulty
      cases faulty
  | error failure outbound =>
      rw [returned] at faulty
      cases faulty
      rfl

end Encoding

/-! ## Sending at once -/

section AtOnce

variable {world : World} {fuel : Nat}

/-- A socket that takes the whole frame in one call. -/
theorem sendEncoded_at_once {deadline : UInt64} {encoded : List UInt8} {count : Nat}
    {sends : List SendAnswer} (isOpen : world.socketOpen = true) (some : encoded ≠ [])
    (answers : world.script.sends = .accepted count :: sends) (enough : encoded.length ≤ count) :
    sendEncoded deadline (fuel + 2) encoded world =
      scheduleHeartbeat { world with
        script := { world.script with sends }
        wire := world.wire ++ [.accepted encoded] } := by
  have whole : encoded.take count = encoded := List.take_of_length_le enough
  have sent : amqpSocketSend encoded world = .ok (.ok encoded.length)
      { world with
        script := { world.script with sends }
        wire := world.wire ++ [.accepted encoded] } := by
    unfold amqpSocketSend
    rw [bind_of_ok (get_run world), if_pos isOpen]
    rw [bind_of_ok (ask_of_cons answers)]
    dsimp only
    rw [whole]
    rfl
  have tried : amqpTrySend encoded (amqpTimeFirst deadline world.nextRecvHeartbeat) (fuel + 1)
      world = .ok (.ok encoded.length) { world with
        script := { world.script with sends }
        wire := world.wire ++ [.accepted encoded] } := by
    unfold amqpTrySend trySendLeft
    rw [bind_of_ok sent]
    cases encoded with
    | nil => exact absurd rfl some
    | cons octet octets =>
        exact congrFun (if_pos List.drop_length) _
  unfold sendEncoded
  rw [bind_of_ok (get_run world), bind_of_ok tried]
  exact congrFun (if_pos rfl) _

/-- At the time 1 no deadline is past. -/
theorem timeHasPast_early {time : UInt64} {clock : List UInt64} (positive : time ≠ 0)
    (isClock : world.script.clock = 1 :: 1 :: clock) :
    ∃ rest, amqpTimeHasPast time world =
      .ok (.ok ()) { world with script.clock := 1 :: rest } := by
  unfold amqpTimeHasPast
  by_cases infinite : time = amqpTimeInfinite
  · rw [if_pos infinite]
    exact ⟨1 :: clock, by rw [← isClock]; rfl⟩
  · rw [if_neg infinite]
    rw [bind_of_ok (timestamp_of_cons isClock), if_neg (by decide), if_neg]
    · exact ⟨clock, rfl⟩
    · rw [gt_iff_lt, UInt64.lt_iff_toNat_lt]
      have nonzero : time.toNat ≠ 0 := fun zero => positive (UInt64.toNat_inj.mp zero)
      simp only [UInt64.toNat_one]
      omega

theorem timePointAfter_snd {now delta : UInt64}
    (ordered : ¬ (now > now + delta ∨ delta > now + delta)) :
    (timePointAfter now delta).2 = .ok () := by
  unfold timePointAfter
  dsimp only
  rw [if_neg ordered]

/-- A number of seconds after the time 1 does not wrap around. -/
theorem seconds_after_one (seconds : UInt64) :
    ¬ (1 > 1 + seconds * nsPerS ∨ seconds * nsPerS > 1 + seconds * nsPerS) := by
  have product : (seconds * nsPerS).toNat = seconds.toNat * 1000000000 % 2 ^ 64 := by
    rw [UInt64.toNat_mul, nsPerS_toNat]
  generalize seconds * nsPerS = delta at product ⊢
  generalize seconds.toNat = amount at product
  rw [gt_iff_lt, gt_iff_lt, UInt64.lt_iff_toNat_lt, UInt64.lt_iff_toNat_lt, UInt64.toNat_add,
    UInt64.toNat_one]
  omega

theorem timeSFromNow_early {time : UInt64} {seconds : Int} {clock : List UInt64}
    (isClock : world.script.clock = 1 :: clock) :
    ∃ point rest, amqpTimeSFromNow time seconds world =
      .ok (point, .ok ()) { world with script.clock := rest } := by
  unfold amqpTimeSFromNow
  by_cases off : 0 ≥ seconds
  · rw [if_pos off]
    exact ⟨amqpTimeInfinite, world.script.clock, rfl⟩
  · rw [if_neg off, bind_of_ok (timestamp_of_cons isClock), if_neg (by decide)]
    have success := timePointAfter_snd (seconds_after_one (UInt64.ofNat seconds.toNat))
    generalize timePointAfter 1 (UInt64.ofNat seconds.toNat * nsPerS) = result at success ⊢
    obtain ⟨point, result⟩ := result
    cases success
    exact ⟨point, clock, rfl⟩

theorem scheduleHeartbeat_early {clock : List UInt64} (isClock : world.script.clock = 1 :: clock) :
    ∃ time rest, scheduleHeartbeat world =
      .ok (.ok ()) { world with script.clock := rest, nextSendHeartbeat := time } := by
  obtain ⟨point, rest, timed⟩ := @timeSFromNow_early _ world.nextSendHeartbeat
    (amqpHeartbeatSend world) _ isClock
  unfold scheduleHeartbeat
  rw [bind_of_ok (get_run world), bind_of_ok timed]
  exact ⟨point, rest, rfl⟩

theorem sendFrameInner_at_once {frame : Frame} {flags : SendFlags} {deadline : UInt64}
    {count room : Nat} {sends : List SendAnswer} {clock : List UInt64}
    (isOpen : world.socketOpen = true) (encodes : encodeResult frame world.outbound = .ok count)
    (answers : world.script.sends = .accepted room :: sends) (enough : world.outbound.size ≤ room)
    (isClock : world.script.clock = 1 :: clock) :
    ∃ after encoded, amqpSendFrameInner frame flags deadline (fuel + 2) world = .ok (.ok ()) after ∧
      after.outbound.size = world.outbound.size ∧ encoded ≠ [] ∧
      acceptedOctets after.wire = acceptedOctets world.wire ++ encoded := by
  obtain ⟨encoded, outbound, returned, isSize, some, short⟩ := encodeOutbound_of_ok encodes
  obtain ⟨time, rest, scheduled⟩ := @scheduleHeartbeat_early
    { world with
      outbound
      script := { world.script with sends }
      wire := world.wire ++ [.submitted flags encoded] ++ [.accepted encoded] } clock isClock
  have sends : amqpSendFrameInner frame flags deadline (fuel + 2) world =
      scheduleHeartbeat { world with
        outbound
        script := { world.script with sends }
        wire := world.wire ++ [.submitted flags encoded] ++ [.accepted encoded] } := by
    unfold amqpSendFrameInner
    rw [bind_of_ok returned]
    dsimp only
    rw [bind_of_ok (modify_run _ _)]
    exact sendEncoded_at_once isOpen some answers (short.trans enough)
  exact ⟨_, encoded, sends.trans scheduled, isSize, some, by simp [acceptedOctets]⟩

end AtOnce

/-! ## Messages that cannot be encoded -/

section Publishing

variable {message : Publication} {world : World} {fuel : Nat}

/-- A publish has ended without sending anything, or it comes to the method with the
sending side as it was. -/
inductive Begun (message : Publication) (fuel : Nat) (world : World) :
    EStateM.Result Stop World (Except Status Unit) → Prop where
  | unsent {result : EStateM.Result Stop World (Except Status Unit)} :
      Inward world (endState result) → Begun message fuel world result
  | proceeds {before : World} :
      Inward world before → Begun message fuel world (message.content fuel before)

theorem publish_begun (message : Publication) (fuel : Nat) (world : World) :
    Begun message fuel world (message.publish fuel world) := by
  unfold Publication.publish amqpBasicPublish
  rw [bind_of_ok (get_run world)]
  have past := (asks_timeHasPast world.nextRecvHeartbeat).mono fun _ _ => inward_of_asks
  cases checked : amqpTimeHasPast world.nextRecvHeartbeat world with
  | error stop after =>
      rw [bind_of_error checked]
      exact .unsent (past.error checked)
  | ok result after =>
      rw [bind_of_ok checked]
      have moved : Inward world after := past.ok checked
      split
      · exact .unsent moved
      · cases received : amqpTryRecv fuel after with
        | error stop final =>
            rw [bind_of_error received]
            exact .unsent (trans_of Inward moved ((inward_tryRecv fuel).error received))
        | ok result final =>
            rw [bind_of_ok received]
            have moved := trans_of Inward moved ((inward_tryRecv fuel).ok received)
            split
            · exact .unsent moved
            · exact .unsent moved
            · exact .proceeds moved
      · exact .proceeds moved

theorem content_of_sent {between : World}
    (sent : amqpSendFrameInner message.methodFrame .more amqpTimeInfinite fuel world =
      .ok (.ok ()) between) :
    message.content fuel world = (do
      match ← amqpSendFrameInner message.headerFrame
          (if message.body.length > 0 then .more else .none) amqpTimeInfinite fuel with
      | .error status => return .error status
      | .ok () => publishBody message.channel (sizeSub (sizeOfInt world.reader.frameMax.toInt)
          (headerSize + footerSize)) fuel message.body : Call (Except Status Unit)) between := by
  unfold Publication.content publishContent
  rw [bind_of_ok (get_run world)]
  exact bind_of_ok sent

/-- The method is sent, and then the header is found not to fit. -/
theorem publish_refused_late {status : Status} {count : Nat} (isOpen : world.socketOpen = true)
    (timely : world.nextRecvHeartbeat ≠ 0)
    (encodes : encodeResult message.methodFrame world.outbound = .ok count)
    (refused : encodeResult message.headerFrame world.outbound = .error (.status status)) :
    ∃ script after, message.publish 2 { world with script } = .ok (.error status) after ∧
      acceptedOctets after.wire ≠ acceptedOctets world.wire := by
  let script : Script :=
    { world.script with clock := [1, 1], sends := [.accepted world.outbound.size] }
  obtain ⟨rest, early⟩ := @timeHasPast_early { world with script } _ [] timely rfl
  obtain ⟨between, encoded, sent, isSize, some, accepts⟩ := @sendFrameInner_at_once
    { world with script := { script with clock := 1 :: rest } } 0 message.methodFrame .more
    amqpTimeInfinite count world.outbound.size [] rest isOpen encodes rfl (Nat.le_refl _) rfl
  have stillRefused : encodeResult message.headerFrame between.outbound =
      .error (.status status) := (encodeResult_congr isSize _).trans refused
  obtain ⟨outbound, header⟩ := sendFrameInner_of_refused stillRefused
  refine ⟨script, { between with outbound }, ?_, ?_⟩
  · unfold Publication.publish amqpBasicPublish
    rw [bind_of_ok (get_run _)]
    apply (bind_of_ok early).trans
    exact (content_of_sent sent).trans (bind_of_ok header)
  · rw [show ({ between with outbound } : World).wire = between.wire from rfl, accepts]
    simpa using some

theorem trySend_of_closed {deadline : UInt64} {encoded : List UInt8}
    (closed : world.socketOpen = false) :
    amqpTrySend encoded deadline (fuel + 1) world = .ok (.error .socketClosed) world := by
  have refused : amqpSocketSend encoded world = .ok (.error .socketClosed) world := by
    unfold amqpSocketSend
    rw [bind_of_ok (get_run world), if_neg (by simp [closed])]
    rfl
  have polled : doPoll (.error .socketClosed) deadline fuel world =
      .ok (.error .socketClosed) world := by
    unfold doPoll
    rw [bind_of_ok (get_run world), if_neg (by simp [closed])]
    rfl
  unfold amqpTrySend trySendLeft
  rw [bind_of_ok refused]
  exact bind_of_ok polled

theorem sendEncoded_of_closed {deadline : UInt64} {encoded : List UInt8} {after : World}
    {result : Except Status Unit} (closed : world.socketOpen = false)
    (returned : sendEncoded deadline fuel encoded world = .ok result after) :
    result = .error .socketClosed := by
  match fuel with
  | 0 => cases returned
  | 1 => cases returned
  | fuel + 2 =>
      unfold sendEncoded at returned
      rw [bind_of_ok (get_run world), bind_of_ok (trySend_of_closed closed)] at returned
      cases returned
      rfl

/-- On a closed socket the method is not sent, whatever the header is like. -/
theorem content_of_closed {count : Nat} {status : Status} {after : World}
    (closed : world.socketOpen = false)
    (encodes : encodeResult message.methodFrame world.outbound = .ok count)
    (returned : message.content fuel world = .ok (.error status) after) :
    status = .socketClosed := by
  obtain ⟨encoded, outbound, encodes, _⟩ := encodeOutbound_of_ok encodes
  unfold Publication.content publishContent at returned
  rw [bind_of_ok (get_run world)] at returned
  obtain ⟨result, between, sent, returned⟩ := bind_eq_ok.mp returned
  unfold amqpSendMethodInner amqpSendFrameInner at sent
  obtain ⟨_, _, isEncoded, sent⟩ := bind_eq_ok.mp sent
  cases encodes.symm.trans isEncoded
  obtain ⟨_, _, submits, sent⟩ := bind_eq_ok.mp sent
  cases submits
  cases sendEncoded_of_closed (by exact closed) sent
  cases returned
  rfl

theorem content_of_fault {fault : Fault}
    (faulty : encodeResult message.methodFrame world.outbound = .error (.fault fault)) :
    message.content fuel world = .error (.fault fault) world := by
  unfold Publication.content publishContent
  rw [bind_of_ok (get_run world)]
  exact bind_of_error (sendFrameInner_of_fault faulty)

theorem content_of_refused {status : Status}
    (refused : encodeResult message.methodFrame world.outbound = .error (.status status)) :
    ∃ outbound, message.content fuel world = .ok (.error status) { world with outbound } := by
  obtain ⟨outbound, sent⟩ := @sendFrameInner_of_refused _ _ _ .more amqpTimeInfinite fuel refused
  refine ⟨outbound, ?_⟩
  unfold Publication.content publishContent
  rw [bind_of_ok (get_run world)]
  exact bind_of_ok sent

end Publishing

/-- The codes for a message that cannot be encoded mean that nothing was sent, unless the
method can be encoded and the header cannot. -/
theorem allOrNothing_iff (message : Publication) {world : World}
    (timely : world.nextRecvHeartbeat ≠ 0) :
    (∀ script fuel, AllOrNothing message fuel { world with script }) ↔
      ¬ (world.socketOpen = true ∧
        (∃ count, encodeResult message.methodFrame world.outbound = .ok count) ∧
        ∃ status ∈ encodingCodes,
          encodeResult message.headerFrame world.outbound = .error (.status status)) := by
  constructor
  · rintro unsent ⟨isOpen, ⟨count, encodes⟩, status, isCode, refused⟩
    obtain ⟨script, after, returned, accepted⟩ :=
      publish_refused_late isOpen timely encodes refused
    exact accepted (unsent script 2 status after returned isCode (.inr refused))
  · intro fits script fuel status after returned isCode cause
    have begun := publish_begun message fuel { world with script }
    generalize message.publish fuel { world with script } = result at begun returned
    cases begun with
    | unsent inward =>
        subst returned
        exact congrArg acceptedOctets (congrArg (·.1.1) inward)
    | @proceeds before inward =>
        have isOpen : before.socketOpen = world.socketOpen := congrArg (·.1.2) inward
        have isWire : before.wire = world.wire := congrArg (·.1.1) inward
        have isOutbound : before.outbound = world.outbound := congrArg (·.2) inward
        show acceptedOctets after.wire = acceptedOctets world.wire
        rw [← isWire]
        cases method : encodeResult message.methodFrame before.outbound with
        | ok count =>
            rw [isOutbound] at method
            have refused := cause.resolve_left fun refused => by cases method.symm.trans refused
            cases closed : world.socketOpen with
            | true => exact absurd ⟨closed, ⟨count, method⟩, status, isCode, refused⟩ fits
            | false =>
                rw [← isOutbound] at method
                cases content_of_closed (isOpen.trans closed) method returned
                exact absurd isCode (by decide)
        | error failure =>
            cases failure with
            | status other =>
                obtain ⟨outbound, refused⟩ := @content_of_refused _ _ fuel _ method
                cases refused.symm.trans returned
                rfl
            | fault fault => cases (content_of_fault method).symm.trans returned

/-- A message without properties to the default exchange. -/
def plainMessage : Publication := ⟨1, [], [113], 0, 0, none, [17, 34]⟩

theorem allOrNothing_iff_plain :
    laggingWorld.nextRecvHeartbeat ≠ 0 ∧
      ∀ script fuel, AllOrNothing plainMessage fuel { laggingWorld with script } := by
  have timely : laggingWorld.nextRecvHeartbeat ≠ 0 := by decide
  refine ⟨timely, (allOrNothing_iff plainMessage timely).mpr ?_⟩
  rintro ⟨_, _, status, _, refused⟩
  have encodes : encodeResult plainMessage.headerFrame laggingWorld.outbound = .ok 22 := by
    decide +kernel
  cases encodes.symm.trans refused

/-- The same message with a header of 4096 octets. -/
def bulkyMessage : Publication :=
  { plainMessage with
    properties := some ⟨0x2000, (none, none, some [.mk [107] (.utf8 (List.replicate 4096 17))],
      none, none, none, none, none, none, none, none, none, none, none, ())⟩ }

/-- A connection with `frame_max` 4096 and without heartbeats, whose socket takes 100 octets. -/
def acceptingWorld : World :=
  { World.new
      { clock := []
        recvs := []
        sends := [.accepted 100]
        recvPolls := []
        sendPolls := []
        closes := []
        links := []
        memory := fun _ => grantingMemory } with
    reader.frameMax := 4096
    outbound := outbound4096 }

def codeOf : EStateM.Result Stop World (Except Status Unit) → Option Status
  | .ok (.error status) _ => some status
  | _ => none

theorem codeOf_eq_some {result : EStateM.Result Stop World (Except Status Unit)} {status : Status}
    (isCode : codeOf result = some status) : result = .ok (.error status) (endState result) := by
  match result with
  | .ok (.error _) _ =>
      cases isCode
      rfl
  | .ok (.ok _) _ => cases isCode
  | .error _ _ => cases isCode

/-- The call returns `AMQP_STATUS_TABLE_TOO_BIG`, and 18 octets were sent. -/
theorem bulky_header_sends_method : ¬ AllOrNothing bulkyMessage 2 acceptingWorld := by
  intro unsent
  have code : codeOf (bulkyMessage.publish 2 acceptingWorld) = some .tableTooBig := by
    decide +kernel
  have refused : encodeResult bulkyMessage.headerFrame acceptingWorld.outbound =
      .error (.status .tableTooBig) := by decide +kernel
  have accepted : (acceptedOctets (endState (bulkyMessage.publish 2 acceptingWorld)).wire).length =
      18 := by decide +kernel
  rw [unsent _ _ (codeOf_eq_some code) (by decide) (.inr refused)] at accepted
  cases accepted

end RabbitmqC
