import RabbitmqC.Connection.OutboundRoom
import RabbitmqC.Consumer.CallRule
import RabbitmqC.Login.Phases
import RabbitmqC.Socket.Publish

/-!
# How small a frame may be

The two sides settle on the smaller `frame_max`, and nothing keeps it from being so
small that the lengths computed from it wrap around. From 20 octets on they are
right: every frame fits the outbound buffer or is refused, and a message is sent in
fragments that are not empty.
-/

set_option autoImplicit false

namespace RabbitmqC

open Effect

/-- `usable_body_payload_size`. -/
def usableBodyPayloadSize (frameMax : Int32) : Nat :=
  sizeSub (sizeOfInt frameMax.toInt) (headerSize + footerSize)

/-- What sending relies on, for a `frame_max` and the length of the outbound buffer. Only
`amqp_tune_connection` changes these two. -/
structure Usable (frameMax : Int32) (len : Nat) : Prop where
  /-- `outbound_buffer.len - HEADER_SIZE - 12 - FOOTER_SIZE` is exact. -/
  properties : (propertiesRoom len).len + (headerSize + 12 + footerSize) = len
  /-- `frame_max - (HEADER_SIZE + FOOTER_SIZE)` is exact. -/
  fragment : (usableBodyPayloadSize frameMax + (headerSize + footerSize) : Nat) = frameMax.toInt
  nonempty : 1 ≤ usableBodyPayloadSize frameMax
  fits : usableBodyPayloadSize frameMax + 8 ≤ len
  contained : ∀ (frame : Frame) (outbound : Buffer), outbound.size = len →
    frame.payload.Sendable (usableBodyPayloadSize frameMax) →
    encodeResult frame outbound ≠ .error (.fault .outOfBoundsWrite)
  /-- Given a turn for each octet of the body, the loop over the fragments does not run out
  of turns, though the sending of a fragment may. -/
  terminates : ∀ (channel : UInt16) (body : List UInt8) (fuel : Nat) (before after : World),
    publishBody channel (usableBodyPayloadSize frameMax) (fuel + body.length + 1) body before =
      .error (.fault .outOfFuel) after →
    ∃ fragment flagz more between, fuel ≤ more ∧
      amqpSendFrameInner ⟨amqpFrameBody, channel, .bodyFragment fragment⟩ flagz amqpTimeInfinite
        more between = .error (.fault .outOfFuel) after

/-! ## Twenty octets -/

/-- Each turn of the loop gets at least one octet further. -/
theorem publishBody_out_of_fuel {channel : UInt16} {usable fuel turns : Nat} (positive : 1 ≤ usable)
    {remaining : List UInt8} {before after : World} (enough : remaining.length ≤ turns)
    (exhausted : publishBody channel usable (fuel + turns + 1) remaining before =
      .error (.fault .outOfFuel) after) :
    ∃ fragment flagz more between, fuel ≤ more ∧
      amqpSendFrameInner ⟨amqpFrameBody, channel, .bodyFragment fragment⟩ flagz amqpTimeInfinite
        more between = .error (.fault .outOfFuel) after := by
  induction turns generalizing remaining before with
  | zero =>
      cases List.length_eq_zero_iff.mp (Nat.le_zero.mp enough)
      cases exhausted
  | succ turns ih =>
      unfold publishBody at exhausted
      split at exhausted
      · cases exhausted
      · rename_i some
        dsimp only at exhausted
        rcases bind_eq_error.mp exhausted with sending | ⟨sent, between, _, rest⟩
        · exact ⟨_, _, fuel + turns + 1, before, by omega, sending⟩
        · cases sent with
          | error status => cases rest
          | ok _ =>
              refine ih ?_ rest
              have pos := List.length_pos_iff.mpr some
              rw [List.length_drop]
              split
              · dsimp only
                omega
              · dsimp only
                omega

theorem usableBodyPayloadSize_eq {frameMax : Int32} (large : 8 ≤ frameMax.toInt) :
    usableBodyPayloadSize frameMax = frameMax.toInt.toNat - 8 := by
  have bound := frameMax.toInt_lt
  unfold usableBodyPayloadSize
  rw [sizeOfInt_of_nonneg (by omega) bound, headerSize, footerSize,
    sizeSub_of_le (by omega) (by omega)]

theorem usable_of_large {frameMax : Int32} {len : Nat} (isLen : frameMax.toInt = len)
    (large : 20 ≤ len) : Usable frameMax len := by
  have bound := frameMax.toInt_lt
  have size : usableBodyPayloadSize frameMax = len - 8 := by
    rw [usableBodyPayloadSize_eq (by omega), isLen, Int.toNat_natCast]
  constructor
  · rw [propertiesRoom_len large (by omega)]
    simp only [headerSize, footerSize]
    omega
  · rw [size, isLen]
    simp only [headerSize, footerSize]
    omega
  · omega
  · omega
  · rintro frame outbound rfl sendable faulty
    rw [size] at sendable
    have stays := @stays_amqpFrameToBytes outbound.size large (by omega) frame sendable
    unfold encodeResult at faulty
    cases encoded : amqpFrameToBytes frame outbound.size outbound with
    | ok count written =>
        rw [encoded] at faulty
        cases faulty
    | error failure written =>
        rw [encoded] at faulty
        cases faulty
        exact stays.error rfl encoded rfl
  · intro channel body fuel before after exhausted
    exact publishBody_out_of_fuel (by omega) (Nat.le_refl _) exhausted

theorem Usable.large {frameMax : Int32} {len : Nat} (usable : Usable frameMax len) : 20 ≤ len := by
  have exact := usable.properties
  simp only [headerSize, footerSize] at exact
  omega

/-! ## Tuning -/

/-- A login that comes to `connection.tune` in `before` has gone past `amqp_tune_connection`. -/
def Tuned (parameters : LoginParameters) (tune : Tune) (before after : World) : Prop :=
  ∃ granted, amqpTuneConnection (negotiate parameters tune).channelMax.toNat
    (negotiate parameters tune).frameMax.toInt32 (negotiate parameters tune).heartbeat.toNat granted
    before = .ok (.ok ()) after

theorem amqpTuneConnection_eq_ok {channelMax heartbeat : Int} {frameMax : Int32} {granted : Bool}
    {before after : World}
    (returned : amqpTuneConnection channelMax frameMax heartbeat granted before =
      .ok (.ok ()) after) :
    0 ≤ frameMax.toInt ∧ after.outbound.size = frameMax.toInt.toNat ∧
      Around { before with
        channelMax
        reader.frameMax := frameMax
        heartbeat := if 0 > heartbeat then 0 else heartbeat } after := by
  unfold amqpTuneConnection at returned
  rw [bind_of_ok (get_run before)] at returned
  split at returned
  · cases returned
  · obtain ⟨_, stored, sets, returned⟩ := bind_eq_ok.mp returned
    cases sets
    obtain ⟨scheduled, second, schedules, returned⟩ := bind_eq_ok.mp returned
    have passed := around_scheduleHeartbeat.ok schedules
    cases scheduled with
    | error status => cases returned
    | ok _ =>
        obtain ⟨awaited, third, awaits, returned⟩ := bind_eq_ok.mp returned
        have passed := trans_of Around passed (around_awaitHeartbeat.ok awaits)
        cases awaited with
        | error status => cases returned
        | ok _ =>
            dsimp only at returned
            split at returned
            · rename_i sized
              cases returned
              refine ⟨sized.2, List.takeD_length _ _ _, trans_of Around passed ?_⟩
              exact ⟨_, _, _, _, _, _, _, _, _, _, .refl _, rfl⟩
            · cases returned

theorem negotiateFrameMax_large {client server : UInt32} :
    20 ≤ (negotiateFrameMax client server).toNat ↔
      20 ≤ client.toNat ∧ (server = 0 ∨ 20 ≤ server.toNat) := by
  unfold negotiateFrameMax
  split
  · rename_i smaller
    obtain ⟨nonzero, below⟩ := smaller
    rw [UInt32.lt_iff_toNat_lt] at below
    constructor
    · intro large
      exact ⟨by omega, .inr large⟩
    · rintro ⟨_, zero | large⟩
      · exact absurd zero nonzero
      · exact large
  · rename_i kept
    constructor
    · intro large
      refine ⟨large, ?_⟩
      by_cases zero : server = 0
      · exact .inl zero
      · have above : ¬ server < client := fun below => kept ⟨zero, below⟩
        rw [UInt32.lt_iff_toNat_lt] at above
        exact .inr (by omega)
    · intro large
      exact large.1

theorem negotiateFrameMax_le (client server : UInt32) :
    (negotiateFrameMax client server).toNat ≤ client.toNat := by
  unfold negotiateFrameMax
  split
  · rename_i smaller
    have below := smaller.2
    rw [UInt32.lt_iff_toNat_lt] at below
    omega
  · exact Nat.le_refl _

theorem toInt_toInt32_of_small {value : UInt32} (small : value.toNat < 2 ^ 31) :
    value.toInt32.toInt = value.toNat := by
  show value.toBitVec.toInt = _
  rw [BitVec.toInt_eq_toNat_of_lt (by rw [UInt32.toNat_toBitVec]; omega)]
  rfl

/-- The `frame_max` that a login settles on is usable if neither side asked for less than 20
octets. -/
theorem tuned_usable_iff {parameters : LoginParameters} {tune : Tune} {before after : World}
    (accepted : parameters.Accepted) (tuned : Tuned parameters tune before after) :
    Usable after.reader.frameMax after.outbound.size ↔
      20 ≤ parameters.frameMax.toInt ∧ (tune.frameMax = 0 ∨ 20 ≤ tune.frameMax.toNat) := by
  obtain ⟨granted, returned⟩ := tuned
  obtain ⟨nonneg, isSize, _, _, _, _, _, _, _, _, _, _, _, rfl⟩ := amqpTuneConnection_eq_ok returned
  have clientNonneg := accepted.2.2.1
  have clientBound := parameters.frameMax.toInt_lt
  have isClient : (UInt32.ofNat parameters.frameMax.toInt.toNat).toNat =
      parameters.frameMax.toInt.toNat := UInt32.toNat_ofNat_of_lt' (by rw [UInt32.size]; omega)
  have atMost := negotiateFrameMax_le (UInt32.ofNat parameters.frameMax.toInt.toNat) tune.frameMax
  have isSettled := @toInt_toInt32_of_small (negotiate parameters tune).frameMax
    (by simp only [negotiate]; omega)
  have large := @negotiateFrameMax_large (UInt32.ofNat parameters.frameMax.toInt.toNat)
    tune.frameMax
  rw [isSettled, Int.toNat_natCast] at isSize
  rw [isClient] at large
  constructor
  · intro usable
    have settled := usable.large
    rw [isSize] at settled
    obtain ⟨client, server⟩ := large.mp settled
    exact ⟨by omega, server⟩
  · rintro ⟨client, server⟩
    have settled := large.mpr ⟨by omega, server⟩
    rw [isSize]
    exact usable_of_large isSettled settled

/-- A broker that sends frames of 4096 octets. -/
def usualTune : Tune := ⟨2047, 4096, 60⟩

/-- A broker that sends frames without any payload. -/
def meagreTune : Tune := ⟨2047, 8, 60⟩

/-- A connection that has read its first frame. -/
def greetedWorld : World :=
  { World.new
      { clock := []
        recvs := []
        sends := []
        recvPolls := []
        sendPolls := []
        closes := []
        links := []
        memory := fun _ => grantingMemory } with
    reader := returnToIdle Reader.new }

/-- The connection after a `connection.tune`. -/
def settledWorld (tune : Tune) : World :=
  endState (amqpTuneConnection (negotiate quietParameters tune).channelMax.toNat
    (negotiate quietParameters tune).frameMax.toInt32
    (negotiate quietParameters tune).heartbeat.toNat true greetedWorld)

theorem tuned_quiet {tune : Tune}
    (returns : returned? (amqpTuneConnection (negotiate quietParameters tune).channelMax.toNat
      (negotiate quietParameters tune).frameMax.toInt32
      (negotiate quietParameters tune).heartbeat.toNat true greetedWorld) = some (.ok ())) :
    Tuned quietParameters tune greetedWorld (settledWorld tune) := by
  obtain ⟨after, returned⟩ := returned?_eq_some.mp returns
  refine ⟨true, ?_⟩
  unfold settledWorld
  rw [returned]
  rfl

theorem tuned_usable_iff_usual :
    quietParameters.Accepted ∧
      Tuned quietParameters usualTune greetedWorld (settledWorld usualTune) ∧
      Usable (settledWorld usualTune).reader.frameMax (settledWorld usualTune).outbound.size := by
  have accepted : quietParameters.Accepted := by decide
  have tuned := @tuned_quiet usualTune (by decide +kernel)
  exact ⟨accepted, tuned, (tuned_usable_iff accepted tuned).mpr (by decide)⟩

/-- The fragments are empty, so that the loop over them does not end. -/
theorem meagre_frame_max_unusable :
    quietParameters.Accepted ∧
      Tuned quietParameters meagreTune greetedWorld (settledWorld meagreTune) ∧
      ¬ Usable (settledWorld meagreTune).reader.frameMax (settledWorld meagreTune).outbound.size := by
  refine ⟨by decide, tuned_quiet (by decide +kernel), ?_⟩
  intro usable
  have nonempty := usable.nonempty
  revert nonempty
  decide +kernel

end RabbitmqC
