import RabbitmqC.Consumer.Supply
import RabbitmqC.Framing.PropertiesCopy
import RabbitmqC.Publish.LastPart

/-!
# Published messages are read back

`amqp_basic_publish` cuts the body into frames of up to `frame_max` octets, and
`amqp_read_message` puts it together again. The two ends agree on every message
unless the reading one sends a heartbeat late: the frames that it receives in the
meantime are then behind those that come after them.
-/

set_option autoImplicit false

namespace RabbitmqC

open Effect

/-! ## Frames on the wire -/

/-- The frames sent so far. -/
def submittedFrames : List WireEvent → List (List UInt8)
  | [] => []
  | .submitted _ encoded :: log => encoded :: submittedFrames log
  | .accepted _ :: log => submittedFrames log

@[simp] theorem submittedFrames_append (past later : List WireEvent) :
    submittedFrames (past ++ later) = submittedFrames past ++ submittedFrames later := by
  induction past with
  | nil => rfl
  | cons event past ih => cases event <;> simp [submittedFrames, ih]

@[simp] theorem submittedFrames_accepted (pieces : List (List UInt8)) :
    submittedFrames (pieces.map .accepted) = [] := by
  induction pieces with
  | nil => rfl
  | cons piece pieces ih => exact ih

@[simp] theorem acceptedOctets_accepted (pieces : List (List UInt8)) :
    acceptedOctets (pieces.map .accepted) = pieces.flatten := by
  induction pieces with
  | nil => rfl
  | cons piece pieces ih => exact congrArg (piece ++ ·) ih

/-- Between two states these frames were sent, in full and nothing else. -/
structure SentFrames (before after : World) (frames : List (List UInt8)) : Prop where
  submitted : submittedFrames after.wire = submittedFrames before.wire ++ frames
  accepted : acceptedOctets after.wire = acceptedOctets before.wire ++ frames.flatten

section Sending

variable {before between after : World} {front back : List (List UInt8)} {fuel : Nat}

theorem sentFrames_nil : SentFrames before before [] where
  submitted := (List.append_nil _).symm
  accepted := (List.append_nil _).symm

theorem SentFrames.append (first : SentFrames before between front)
    (second : SentFrames between after back) :
    SentFrames before after (front ++ back) where
  submitted := by rw [second.submitted, first.submitted, List.append_assoc]
  accepted := by rw [second.accepted, first.accepted, List.flatten_append, List.append_assoc]

/-- The buffer for sending is the same. -/
abbrev Buffered : World → World → Prop := Unchanged World.outbound

theorem buffered_of_inward (inward : Inward before after) : Buffered before after :=
  (Prod.mk.inj inward).2

theorem buffered_of_asks (asks : Asks before after) : Buffered before after :=
  buffered_of_inward (inward_of_asks asks)

theorem buffered_doPoll (res : Except Status Unit) (deadline : UInt64) (fuel : Nat) :
    Moves Buffered (doPoll res deadline fuel) := by
  have poll := (asks_poll .toSend deadline fuel).mono fun _ _ => buffered_of_asks
  refine Moves.bind .get fun world => .ite (fun _ => ?_) fun _ => .pure
  split
  · exact poll
  · exact poll
  · exact .pure

theorem buffered_socketSend (buf : List UInt8) : Moves Buffered (amqpSocketSend buf) := by
  refine Moves.bind .get fun world => .ite (fun _ => ?_) fun _ => .pure
  refine Moves.bind (Moves.mono (asks_ask fun script _ _ _ => ?_) fun _ _ => buffered_of_asks)
    fun answer => ?_
  · exact { Script.Uses.refl script with }
  · cases answer with
    | accepted count => exact Moves.bind (.modify fun _ => rfl) fun _ => .pure
    | needRead => exact .pure
    | needWrite => exact .pure
    | failed failure => exact .pure

theorem buffered_trySendLeft (len : Nat) (deadline : UInt64) (left : List UInt8) :
    Moves Buffered (trySendLeft len deadline fuel left) := by
  induction fuel generalizing left with
  | zero => exact .throw
  | succ fuel ih =>
      refine (buffered_socketSend left).bind fun result => ?_
      split
      · exact .ite (fun _ => .pure) fun _ => ih _
      · refine (buffered_doPoll _ _ _).bind fun polled => ?_
        split
        · exact ih left
        · exact .pure
        · exact .pure

theorem buffered_scheduleHeartbeat : Moves Buffered scheduleHeartbeat := by
  refine Moves.bind .get fun world => ?_
  refine ((asks_timeSFromNow _ _).mono fun _ _ => buffered_of_asks).bind fun answer => ?_
  exact Moves.bind (.modify fun _ => rfl) fun _ => .pure

theorem buffered_sendEncoded (deadline : UInt64) (encoded : List UInt8) :
    Moves Buffered (sendEncoded deadline fuel encoded) := by
  induction fuel generalizing encoded with
  | zero => exact .throw
  | succ fuel ih =>
      refine Moves.bind .get fun world => ?_
      refine (buffered_trySendLeft _ _ _).bind fun result => ?_
      cases result with
      | error status => exact .pure
      | ok sent =>
          refine .ite (fun _ => buffered_scheduleHeartbeat) fun _ => .ite (fun _ => .pure) fun _ => ?_
          have receives := (inward_tryRecv fuel).mono fun _ _ => buffered_of_inward
          refine receives.bind fun received => ?_
          split
          · exact .pure
          · exact .pure
          · exact ih _

/-- A frame that is sent was encoded, and the buffer keeps its size. -/
theorem sendFrameInner_sent {frame : Frame} {flags : SendFlags} {deadline : UInt64}
    (sends : amqpSendFrameInner frame flags deadline fuel before = .ok (.ok ()) after) :
    ∃ count outbound,
      amqpFrameToBytes frame before.outbound.size before.outbound = .ok count outbound ∧
      SentFrames before after [outbound.bytes.take count] ∧
      after.outbound.size = before.outbound.size := by
  have stops := (@sendFrameInner_unencoded frame flags deadline fuel before)
  unfold encoding? at stops
  cases encodes : amqpFrameToBytes frame before.outbound.size before.outbound with
  | error failure outbound =>
      rw [encodes] at stops
      exact absurd sends ((stops rfl).2 after)
  | ok count outbound =>
      have isEncoded : encoding? frame before = some (outbound.bytes.take count) := by
        unfold encoding?
        rw [encodes]
      obtain ⟨submitted, isWire, continues⟩ :=
        @sendFrameInner_encoded frame flags deadline fuel before _ isEncoded
      obtain ⟨pieces, once⟩ := @exactlyOnce_of_submitted flags deadline fuel before _
        submitted isWire
      rw [← continues, sends] at once
      have accepts : after.wire = _ := once.accepts
      refine ⟨count, outbound, rfl, ⟨?_, ?_⟩, ?_⟩
      · rw [accepts]
        simp [submittedFrames]
      · rw [accepts]
        simp [acceptedOctets, once.success after rfl]
      · obtain ⟨encoded, filled, fills, sends⟩ := bind_eq_ok.mp sends
        have stored : encodeOutbound frame before =
            .ok (.ok (outbound.bytes.take count)) { before with outbound } := by
          unfold encodeOutbound
          rw [bind_of_ok (get_run before), encodes]
          rfl
        cases stored.symm.trans fills
        obtain ⟨_, submitted, submits, sends⟩ := bind_eq_ok.mp sends
        cases submits
        have same : after.outbound = outbound := (buffered_sendEncoded _ _).ok sends
        rw [same]
        exact (size_of_amqpFrameToBytes encodes).1

end Sending

/-! ## Frames of a message -/

/-- A body frame. -/
def bodyFrame (channel : UInt16) (bytes : List UInt8) : Frame :=
  ⟨amqpFrameBody, channel, .bodyFragment bytes⟩

/-- The octets of a frame. -/
def Frame.octets (frame : Frame) : List UInt8 :=
  frameOctets frame.frameType frame.channel (payloadWire frame)

/-- The frames behind the method frame, when the body is cut into these fragments. -/
def Publication.contentFrames (message : Publication) (fragments : List (List UInt8)) :
    List Frame :=
  message.headerFrame :: fragments.map (bodyFrame message.channel)

section Fragments

variable {channel : UInt16} {before after : World} {fuel usable : Nat}

theorem representable_bodyFrame (bytes : List UInt8) :
    (bodyFrame channel bytes).payload.Representable := trivial

/-- What is sent is the octets of the frame, and arrives at a peer with the same limit. -/
theorem sendFrameInner_arrives {frame : Frame} {flags : SendFlags} {deadline : UInt64}
    (large : 20 ≤ before.outbound.size) (bounded : before.outbound.size < 2 ^ 31)
    (representable : frame.payload.Representable)
    (sends : amqpSendFrameInner frame flags deadline fuel before = .ok (.ok ()) after) :
    SentFrames before after [frame.octets] ∧ after.outbound.size = before.outbound.size ∧
      Arrives before.outbound.size frame.octets frame.arrived := by
  obtain ⟨count, outbound, encodes, sent, isSize⟩ := sendFrameInner_sent sends
  obtain ⟨octets, isCount, fits, reads⟩ :=
    amqpFrameToBytes_eq_ok large bounded representable encodes
  rw [octets] at sent
  rw [isCount] at fits
  exact ⟨sent, isSize, .intro fits reads⟩

/-- Fragments that make the body were sent in frames of their own, which arrive. -/
structure SentBody (channel : UInt16) (usable : Nat) (before after : World) (body : List UInt8)
    (fragments : List (List UInt8)) : Prop where
  whole : fragments.flatten = body
  sizes : ∀ fragment ∈ fragments, 1 ≤ fragment.length ∧ fragment.length ≤ usable
  sent : SentFrames before after (fragments.map fun bytes => (bodyFrame channel bytes).octets)
  arrive : ∀ fragment ∈ fragments,
    Arrives before.outbound.size (bodyFrame channel fragment).octets (bodyFrame channel fragment)

/-- The next fragment goes out. -/
theorem SentBody.cons {between : World} {body : List UInt8} {len : Nat} {flagz : SendFlags}
    {fragments : List (List UInt8)} (large : 20 ≤ before.outbound.size)
    (bounded : before.outbound.size < 2 ^ 31) (atLeast : 0 < len) (atMost : len ≤ usable)
    (inside : len ≤ body.length)
    (sends : amqpSendFrameInner (bodyFrame channel (body.take len)) flagz amqpTimeInfinite fuel
      before = .ok (.ok ()) between)
    (rest : SentBody channel usable between after (body.drop len) fragments) :
    SentBody channel usable before after body (body.take len :: fragments) := by
  obtain ⟨sent, isSize, arrives⟩ :=
    sendFrameInner_arrives large bounded (representable_bodyFrame _) sends
  have isLength : (body.take len).length = len := List.length_take_of_le inside
  constructor
  · rw [List.flatten_cons, rest.whole, List.take_append_drop]
  · refine List.forall_mem_cons.mpr ⟨?_, rest.sizes⟩
    rw [isLength]
    exact ⟨atLeast, atMost⟩
  · exact sent.append rest.sent
  · refine List.forall_mem_cons.mpr ⟨arrives, ?_⟩
    rw [← isSize]
    exact rest.arrive

/-- The body is cut into fragments that fit, and all of it is sent. -/
theorem publishBody_sends {body : List UInt8} (large : 20 ≤ before.outbound.size)
    (bounded : before.outbound.size < 2 ^ 31) (positive : 0 < usable)
    (sends : publishBody channel usable fuel body before = .ok (.ok ()) after) :
    ∃ fragments, SentBody channel usable before after body fragments := by
  induction fuel generalizing body before with
  | zero => cases sends
  | succ fuel ih =>
      unfold publishBody at sends
      by_cases isEmpty : body = []
      · rw [if_pos isEmpty] at sends
        cases sends
        exact ⟨[], isEmpty.symm, by simp, sentFrames_nil, by simp⟩
      · rw [if_neg isEmpty] at sends
        have some : 0 < body.length := List.length_pos_iff.mpr isEmpty
        by_cases full : body.length ≥ usable
        · rw [if_pos full] at sends
          obtain ⟨result, between, first, rest⟩ := bind_eq_ok.mp sends
          cases result with
          | error status => cases rest
          | ok _ =>
              have isSize := (sendFrameInner_arrives large bounded (representable_bodyFrame _) first).2.1
              obtain ⟨fragments, sent⟩ := ih (isSize.symm ▸ large) (isSize.symm ▸ bounded) rest
              exact ⟨_, sent.cons large bounded positive (Nat.le_refl _) full first⟩
        · rw [if_neg full] at sends
          obtain ⟨result, between, first, rest⟩ := bind_eq_ok.mp sends
          cases result with
          | error status => cases rest
          | ok _ =>
              have isSize := (sendFrameInner_arrives large bounded (representable_bodyFrame _) first).2.1
              obtain ⟨fragments, sent⟩ := ih (isSize.symm ▸ large) (isSize.symm ▸ bounded) rest
              have short := Nat.le_of_lt (Nat.lt_of_not_le full)
              exact ⟨_, sent.cons large bounded some short (Nat.le_refl _) first⟩

end Fragments

/-! ## Published messages -/

/-- `outbound_buffer` is as long as a frame may be. -/
def Fitted (world : World) : Prop := world.reader.frameMax.toInt = world.outbound.size

theorem fitted_of_tuneConnection {channelMax heartbeat : Int} {frameMax : Int32} {granted : Bool}
    {before after : World}
    (tunes : amqpTuneConnection channelMax frameMax heartbeat granted before =
      .ok (.ok ()) after) : Fitted after := by
  obtain ⟨natural, isSize, around⟩ := amqpTuneConnection_eq_ok tunes
  obtain ⟨_, _, _, _, _, _, _, _, _, _, _, rfl⟩ := around
  exact (Int.toNat_of_nonneg natural).symm.trans (congrArg Int.ofNat isSize.symm)

/-- The properties that are sent. -/
def Publication.sentProperties (message : Publication) : Properties amqpBasicClass :=
  message.properties.getD defaultProperties

/-- The properties have flags of the class only, and the keys of their tables have between 1
and 255 octets. -/
structure Publication.Sound (message : Publication) : Prop where
  within : message.sentProperties.WithinClass
  short : message.sentProperties.Short
  named : message.sentProperties.NamedKeys

/-- Without properties there are no tables either. -/
theorem sound_of_default {message : Publication} (isDefault : message.properties = none) :
    message.Sound := by
  have same : message.sentProperties = defaultProperties := by
    unfold Publication.sentProperties
    rw [isDefault, Option.getD_none]
  have within : defaultProperties.WithinClass := show _ = _ by decide +kernel
  have short : defaultProperties.Short := by
    repeat' first | exact trivial | constructor | rintro _ ⟨⟩
  have named : defaultProperties.NamedKeys := by
    repeat' first | exact trivial | constructor | rintro _ ⟨⟩
  constructor
  · rwa [same]
  · rwa [same]
  · rwa [same]

/-- The message that is to be read, with the fields that were flagged. -/
def Publication.received (message : Publication) : Message :=
  ⟨message.sentProperties.normalise, message.body⟩

/-- The frames of a message were sent: its method, its content header and its body in frames
of up to `limit` octets. -/
structure SentMessage (message : Publication) (limit : Nat) (before after : World)
    (fragments : List (List UInt8)) : Prop where
  sent : SentFrames before after
    (message.methodFrame.octets :: (message.contentFrames fragments).map Frame.octets)
  sizes : ∀ fragment ∈ fragments, 1 ≤ fragment.length ∧ fragment.length ≤ limit - 8
  whole : fragments.flatten = message.body

section Headers

variable {message : Publication} {before between after : World} {fuel : Nat}
  {fragments : List (List UInt8)} {flags : SendFlags}

theorem properties_of_amqpFrameToBytes {channel classId : UInt16} {bodySize : UInt64}
    {decoded : Properties classId} {raw : View} {size count : Nat} {mem written : Buffer}
    (returned : amqpFrameToBytes
      ⟨amqpFrameHeader, channel, .properties classId bodySize (some decoded) raw⟩ size mem =
        .ok count written) :
    ∃ view middle length stored,
      amqpEncodeProperties classId decoded view middle = .ok length stored := by
  unfold amqpFrameToBytes at returned
  obtain ⟨_, _, _, returned⟩ := bind_eq_ok.mp returned
  obtain ⟨_, _, _, returned⟩ := bind_eq_ok.mp returned
  obtain ⟨_, _, stores, _⟩ := bind_eq_ok.mp returned
  obtain ⟨_, _, _, stores⟩ := bind_eq_ok.mp stores
  obtain ⟨_, _, _, stores⟩ := bind_eq_ok.mp stores
  obtain ⟨_, _, _, stores⟩ := bind_eq_ok.mp stores
  obtain ⟨length, stored, encodes, _⟩ := bind_eq_ok.mp stores
  exact ⟨_, _, length, stored, encodes⟩

/-- The content header announces the body, with properties that can be copied. -/
theorem announces_of_sent (sound : message.Sound)
    (sends : amqpSendFrameInner message.headerFrame flags amqpTimeInfinite fuel before =
      .ok (.ok ()) after) :
    Announces message.headerFrame.arrived message.sentProperties.normalise
      (UInt64.ofNat message.body.length) := by
  obtain ⟨_, _, encodes, _⟩ := sendFrameInner_sent sends
  obtain ⟨_, _, _, _, encodes⟩ := properties_of_amqpFrameToBytes encodes
  exact ⟨rfl, _, _, rfl, amqpBasicPropertiesClone_normalise sound.named encodes⟩

/-- The frames as they arrive. -/
def Publication.arrivedFrames (message : Publication) (fragments : List (List UInt8)) :
    List Frame :=
  message.headerFrame.arrived :: fragments.map (bodyFrame message.channel)

theorem length_take_flatten_lt {count : Nat} (some : ∀ fragment ∈ fragments, 1 ≤ fragment.length)
    (inside : count < fragments.length) :
    (fragments.take count).flatten.length < fragments.flatten.length := by
  induction fragments generalizing count with
  | nil => cases inside
  | cons fragment fragments ih =>
      obtain ⟨positive, others⟩ := List.forall_mem_cons.mp some
      cases count with
      | zero =>
          rw [List.take_zero, List.flatten_nil, List.length_nil, List.flatten_cons,
            List.length_append]
          omega
      | succ count =>
          have shorter := ih others (Nat.lt_of_succ_lt_succ inside)
          rw [List.take_succ_cons, List.flatten_cons, List.flatten_cons, List.length_append,
            List.length_append]
          omega

/-- What arrives is the message. -/
theorem completeMessage_of_sent {limit : Nat} (small : message.body.length < 2 ^ 64)
    (sent : SentMessage message limit before after fragments)
    (announces : Announces message.headerFrame.arrived message.sentProperties.normalise
      (UInt64.ofNat message.body.length)) :
    CompleteMessage (message.arrivedFrames fragments) message.received := by
  have size : (UInt64.ofNat message.body.length).toNat = message.body.length :=
    UInt64.toNat_ofNat_of_lt' small
  have areFragments : AreFragments (fragments.map (bodyFrame message.channel)) fragments := by
    unfold AreFragments
    rw [List.map_map]
    rfl
  unfold Publication.received
  rw [← sent.whole] at size announces ⊢
  refine .intro announces areFragments (fun count inside => ?_) size.symm
  rw [size]
  exact length_take_flatten_lt (fun fragment member => (sent.sizes fragment member).1) inside

theorem representable_methodFrame : message.methodFrame.payload.Representable :=
  ⟨trivial, trivial, trivial, trivial, trivial⟩

/-- A message is sent frame by frame, and each of them arrives. -/
theorem content_sends {limit : Nat} (isLimit : before.outbound.size = limit)
    (fitted : before.reader.frameMax.toInt = limit) (large : 20 ≤ limit) (sound : message.Sound)
    (sends : message.content fuel before = .ok (.ok ()) after) :
    ∃ fragments, SentMessage message limit before after fragments ∧
      Announces message.headerFrame.arrived message.sentProperties.normalise
        (UInt64.ofNat message.body.length) ∧
      List.Forall₂ (Arrives limit) ((message.contentFrames fragments).map Frame.octets)
        (message.arrivedFrames fragments) := by
  have bounded : limit < 2 ^ 31 := by
    have bound := before.reader.frameMax.toInt_lt
    omega
  have above : 8 < before.reader.frameMax := by
    refine Int32.lt_iff_toInt_lt.mpr ?_
    rw [fitted]
    exact Int.ofNat_lt.mpr (Nat.lt_of_lt_of_le (by decide) large)
  obtain ⟨usable, positive⟩ := usable_of_limit above
  rw [fitted, Int.toNat_natCast] at usable positive
  subst isLimit
  unfold Publication.content publishContent at sends
  rw [bind_of_ok (get_run before), fitted, usable] at sends
  obtain ⟨result, between, method, sends⟩ := bind_eq_ok.mp sends
  cases result with
  | error status => cases sends
  | ok _ =>
      obtain ⟨methodSent, methodSize, _⟩ :=
        sendFrameInner_arrives large bounded (@representable_methodFrame message) method
      obtain ⟨result, headed, header, sends⟩ := bind_eq_ok.mp sends
      cases result with
      | error status => cases sends
      | ok _ =>
          have representable : message.headerFrame.payload.Representable :=
            ⟨sound.within, sound.short⟩
          obtain ⟨headerSent, headerSize, headerArrives⟩ := sendFrameInner_arrives
            (methodSize.symm ▸ large) (methodSize.symm ▸ bounded) representable header
          rw [methodSize] at headerSize headerArrives
          obtain ⟨fragments, body⟩ := publishBody_sends (headerSize.symm ▸ large)
            (headerSize.symm ▸ bounded) positive sends
          have arrive := body.arrive
          rw [headerSize] at arrive
          refine ⟨fragments, ⟨?_, body.sizes, body.whole⟩, announces_of_sent sound header, ?_⟩
          · have all := methodSent.append (headerSent.append body.sent)
            rw [Publication.contentFrames, List.map_cons, List.map_map]
            exact all
          · refine .cons headerArrives ?_
            rw [List.map_map, List.forall₂_map_left_iff, List.forall₂_map_right_iff]
            exact List.forall₂_same.mpr arrive

theorem belongsTo_of_arrived :
    ∀ frame ∈ message.arrivedFrames fragments, frame.BelongsTo message.channel := by
  have header : amqpFrameHeader ≠ 0 ∧ amqpFrameHeader ≠ amqpFrameHeartbeat := by decide
  have body : amqpFrameBody ≠ 0 ∧ amqpFrameBody ≠ amqpFrameHeartbeat := by decide
  refine List.forall_mem_cons.mpr ⟨⟨rfl, header⟩, ?_⟩
  intro frame member
  obtain ⟨bytes, _, rfl⟩ := List.mem_map.mp member
  exact ⟨rfl, body⟩

end Headers

/-- A message that was published is cut into frames that fit, and read back on its channel
from these and frames of other channels, by a peer that sends no heartbeat late. Without
heartbeats it is read back as soon as the socket delivers the octets. -/
theorem publish_read_loopback {message : Publication} {world after : World} {fuel limit : Nat}
    (fitted : Fitted world) (isLimit : world.outbound.size = limit) (large : 20 ≤ limit)
    (small : message.body.length < 2 ^ 64) (sound : message.Sound)
    (published : message.publish fuel world = .ok (.ok ()) after) :
    ∃ fragments, SentMessage message limit world after fragments ∧
      ∀ peer part stream budget, Awaiting limit part peer →
        Interleaved message.channel limit part
          ((message.contentFrames fragments).map Frame.octets) stream →
        fragments.length + 1 < budget →
        (stream <+: receivedSince peer
            (endState (amqpReadMessage [] message.channel budget peer)) →
          ReadsBack message.received peer stream
            (amqpReadMessage [] message.channel budget peer)) ∧
        ∀ later, Attentive peer → peer.unread ++ peer.supply = stream ++ later →
          peer.load + 3 < budget →
          ∃ left, amqpReadMessage [] message.channel budget peer =
            .ok (.ok message.received) left := by
  obtain ⟨before, sends, inward, sameMax⟩ := content_of_publish published
  have sameBuffer : before.outbound = world.outbound := congrArg (·.2) inward
  have sameWire : before.wire = world.wire := congrArg (·.1.1) inward
  have sameLimit : before.reader.frameMax.toInt = limit := by
    rw [sameMax, ← isLimit]
    exact fitted
  obtain ⟨fragments, sent, announces, arrive⟩ :=
    content_sends ((congrArg Buffer.size sameBuffer).trans isLimit) sameLimit large sound sends
  obtain ⟨⟨submitted, accepted⟩, sizes, whole⟩ := sent
  rw [sameWire] at submitted accepted
  have sent : SentMessage message limit world after fragments :=
    ⟨⟨submitted, accepted⟩, sizes, whole⟩
  have complete := completeMessage_of_sent small sent announces
  refine ⟨fragments, sent, fun peer part stream budget awaiting interleaved enough => ⟨?_, ?_⟩⟩
  · intro received
    refine readsBack_of_interleaved awaiting complete arrive belongsTo_of_arrived ?_ interleaved
      received
    rw [Publication.arrivedFrames, List.length_cons, List.length_map]
    exact enough
  · intro later attentive delivered loaded
    exact readMessage_coming complete belongsTo_of_arrived
      (coming_of_awaiting awaiting attentive arrive interleaved delivered) loaded

/-- Fifteen octets, in a frame of fourteen and one of a single octet. -/
def countingMessage : Publication :=
  { plainMessage with body := [0, 1, 2, 3, 4, 5, 6, 7, 8, 9, 10, 11, 12, 13, 14] }

def countingWorld : World :=
  { tightWorld with script.sends := List.replicate 4 (.accepted 22) }

def firstPart : List UInt8 := (bodyFrame 1 [0, 1, 2, 3, 4, 5, 6, 7, 8, 9, 10, 11, 12, 13]).octets

def lastPart : List UInt8 := (bodyFrame 1 [14]).octets

theorem countingMessage_published :
    countingMessage.publish 6 countingWorld =
      .ok (.ok ()) (endState (countingMessage.publish 6 countingWorld)) :=
  eq_of_isPublished (by decide +kernel)

/-- The frames that were sent behind the method. -/
theorem countingMessage_frames {fragments : List (List UInt8)}
    (sent : SentMessage countingMessage 22 countingWorld
      (endState (countingMessage.publish 6 countingWorld)) fragments) :
    (countingMessage.contentFrames fragments).map Frame.octets =
        [countingMessage.headerFrame.octets, firstPart, lastPart] ∧
      fragments.length + 1 = 3 := by
  have frames : submittedFrames (endState (countingMessage.publish 6 countingWorld)).wire =
      [countingMessage.methodFrame.octets, countingMessage.headerFrame.octets, firstPart,
        lastPart] := by
    decide +kernel
  have same := sent.sent.submitted
  rw [frames] at same
  have behind : [countingMessage.headerFrame.octets, firstPart, lastPart] =
      (countingMessage.contentFrames fragments).map Frame.octets := congrArg List.tail same
  refine ⟨behind.symm, ?_⟩
  have lengths := congrArg List.length behind
  simpa [Publication.contentFrames] using lengths.symm

/-- A connection with frames of 22 octets, between two of them. -/
def tightPeer (script : Script) : World := { tunedWorld script with reader.frameMax := 22 }

theorem within_tightPeer (script : Script) (memory : FrameMemory) :
    (tightPeer script).reader.Within memory 22 [] :=
  .between ⟨rfl, rfl, rfl, .inl ⟨rfl, rfl⟩⟩ rfl

theorem grants_grantingMemory {limit : Nat} (small : limit < 2 ^ 31) :
    grantingMemory.Grants limit where
  poolEntry := rfl
  block amount inside := by
    simp only [grantingMemory, Option.isSome_dite]
    omega
  allocs := rfl

theorem arrives_bodyFrame {channel : UInt16} {bytes : List UInt8} {limit : Nat}
    (fits : bytes.length + headerSize + footerSize ≤ limit) :
    Arrives limit (bodyFrame channel bytes).octets (bodyFrame channel bytes) := by
  refine .intro fits fun memory raw _ held small => ?_
  exact congrArg (· >>= _) (bodyPayload_of_holds held small)

/-- The message, with a frame of another channel in it. -/
def countingPeer : World :=
  tightPeer
    { clock := []
      recvs := [.data ⟨countingMessage.headerFrame.octets ++ (firstPart ++
          ((bodyFrame 2 [7]).octets ++ lastPart)), by decide +kernel, by decide +kernel⟩]
      sends := []
      recvPolls := []
      sendPolls := []
      closes := []
      links := []
      memory := fun _ => grantingMemory }

theorem publish_read_loopback_counting :
    ∃ after left, countingMessage.publish 6 countingWorld = .ok (.ok ()) after ∧
      amqpReadMessage [] 1 120 countingPeer = .ok (.ok countingMessage.received) left := by
  have published := countingMessage_published
  obtain ⟨fragments, sent, reads⟩ := publish_read_loopback (show Fitted countingWorld from rfl)
    rfl (by decide) (by decide) (sound_of_default rfl) published
  obtain ⟨isFrames, isLength⟩ := countingMessage_frames sent
  rw [isFrames, isLength] at reads
  have awaiting : Awaiting 22 [] countingPeer :=
    ⟨⟨.inl (.inr ⟨by decide, rfl⟩), List.nil_suffix⟩, fun _ => grants_grantingMemory (by decide),
      LinkedQueue.represents_empty, within_tightPeer _ _⟩
  have interleaved : Interleaved 1 22 []
      [countingMessage.headerFrame.octets, firstPart, lastPart]
      (countingMessage.headerFrame.octets ++ (firstPart ++ ((bodyFrame 2 [7]).octets ++
        (lastPart ++ [])))) := by
    refine .own (by decide +kernel) (.own (by decide +kernel) ?_)
    refine .other (by decide +kernel) (arrives_bodyFrame (by decide)) (by decide) ?_
    exact .own (by decide +kernel) .nil
  have serves : countingPeer.script.Serves :=
    ⟨fun answer member => .inr ⟨_, List.mem_singleton.mp member⟩, fun answer member =>
      absurd (show answer ∈ ([] : List PollAnswer) from member) List.not_mem_nil, Nat.le_refl _⟩
  have attentive : Attentive countingPeer := ⟨⟨by decide, rfl⟩, rfl, rfl, serves⟩
  have load : countingPeer.load + 3 < 120 := by decide +kernel
  obtain ⟨left, ran⟩ := (reads countingPeer [] _ 120 awaiting interleaved (by decide)).2 []
    attentive rfl load
  exact ⟨_, left, published, ran⟩

/-- A heartbeat falls due between the two fragments and cannot be sent, until `amqp_try_recv`
has read the first of them. -/
def lateCountingPeer : World :=
  { tightPeer
      { clock := [500000000, 500000000, 1500000000, 1500000000, 2500000000, 2600000000,
          2600000000, 4600000000, 4700000000]
        recvs := [.data ⟨countingMessage.headerFrame.octets, by decide +kernel, by decide +kernel⟩,
          .data ⟨firstPart, by decide +kernel, by decide +kernel⟩, .data heartbeatChunk,
          .data ⟨lastPart, by decide +kernel, by decide +kernel⟩]
        sends := [.needWrite, .needWrite, .accepted 100]
        recvPolls := []
        sendPolls := [.timedOut, .timedOut]
        closes := []
        links := []
        memory := fun _ => grantingMemory } with
    heartbeat := 1
    nextRecvHeartbeat := 2000000000
    nextSendHeartbeat := 1000000000 }

theorem arrives_heartbeat {limit : Nat} (fits : headerSize + footerSize ≤ limit) :
    Arrives limit heartbeatChunk.octets heartbeatFrame := by
  refine @Arrives.intro _ _ _ [] _ ?_ fun memory raw _ held small => rfl
  simpa using fits

/-- The first fragment is queued while the heartbeat is sent, and the second one is taken
before it. -/
theorem late_heartbeat_swaps_body :
    ¬ ∀ (message : Publication) (world after : World) (fuel limit : Nat), Fitted world →
      world.outbound.size = limit → 20 ≤ limit → message.body.length < 2 ^ 64 → message.Sound →
      message.publish fuel world = .ok (.ok ()) after →
      ∃ fragments, SentMessage message limit world after fragments ∧
        ∀ peer part stream budget, peer.script.links <:+ [] →
          (∀ frame, (peer.script.memory frame).Grants limit) → peer.queue.Represents [] →
          peer.reader.Within (peer.script.memory peer.framesRead) limit part →
          Interleaved message.channel limit part
            ((message.contentFrames fragments).map Frame.octets) stream →
          fragments.length + 1 < budget →
          stream <+: receivedSince peer
            (endState (amqpReadMessage [] message.channel budget peer)) →
          ReadsBack message.received peer stream
            (amqpReadMessage [] message.channel budget peer) := by
  intro loops
  obtain ⟨fragments, sent, reads⟩ := loops countingMessage countingWorld _ 6 22 rfl rfl
    (by decide) (by decide) (sound_of_default rfl) countingMessage_published
  obtain ⟨isFrames, isLength⟩ := countingMessage_frames sent
  rw [isFrames, isLength] at reads
  have interleaved : Interleaved 1 22 []
      [countingMessage.headerFrame.octets, firstPart, lastPart]
      (countingMessage.headerFrame.octets ++ (firstPart ++ (heartbeatChunk.octets ++
        (lastPart ++ [])))) := by
    refine .own (by decide +kernel) (.own (by decide +kernel) ?_)
    refine .other (by decide +kernel) (arrives_heartbeat (by decide)) (by decide) ?_
    exact .own (by decide +kernel) .nil
  have back := reads lateCountingPeer [] _ 12 List.nil_suffix
    (fun _ => grants_grantingMemory (by decide)) LinkedQueue.represents_empty
    (within_tightPeer _ _) interleaved (by decide) (by decide +kernel)
  have body : ((returned? (amqpReadMessage [] 1 12 lateCountingPeer)).bind
      Except.toOption).map Message.body = some (14 :: countingMessage.body.take 14) := by
    decide +kernel
  obtain ⟨message, returned, isBody⟩ := Option.map_eq_some_iff.mp body
  obtain ⟨result, returned, isMessage⟩ := Option.bind_eq_some_iff.mp returned
  obtain ⟨after, ran⟩ := returned?_eq_some.mp returned
  cases result with
  | error reply => cases isMessage
  | ok found =>
      cases isMessage
      rw [back.only message after ran] at isBody
      cases isBody

end RabbitmqC
