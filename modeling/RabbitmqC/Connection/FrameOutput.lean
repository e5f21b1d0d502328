import RabbitmqC.Connection.FrameInput
import RabbitmqC.Framing.Capacity
import RabbitmqC.Framing.RoundTrip

/-!
# Writing frames

`amqp_frame_to_bytes`. The header, the fixed part of a payload and the frame-end
octet are stored without a test; the codecs test against the length they are
given, which leaves room for the frame-end octet.
-/

set_option autoImplicit false

namespace RabbitmqC

open Effect

/-- `amqp_e##bits` or `memcpy` to a place in the outbound buffer. -/
def storeOctets (offset : Nat) (data : List UInt8) : EStateM Failure Buffer Unit := fun mem =>
  match mem.write? offset data with
  | some mem => .ok () mem
  | none => .error (.fault .outOfBoundsWrite) mem

/-- What `amqp_encode_method` may fill in a buffer of `len` octets. -/
def methodRoom (len : Nat) : View :=
  ⟨headerSize + 4, sizeSub (sizeSub (sizeSub len headerSize) 4) footerSize⟩

/-- What `amqp_encode_properties` may fill in a buffer of `len` octets. -/
def propertiesRoom (len : Nat) : View :=
  ⟨headerSize + 12, sizeSub (sizeSub (sizeSub len headerSize) 12) footerSize⟩

/-- The `switch` over the frame type: the payload, and the value of
`out_frame_len`. The length of the buffer is a `frame_max`, so that the codecs
return no count that an `int` does not hold. -/
def payloadToBytes (frame : Frame) (len : Nat) : EStateM Failure Buffer Nat :=
  if frame.frameType = amqpFrameBody then
    match frame.payload with
    | .bodyFragment body => do
        storeOctets headerSize body
        return body.length
    | _ => throw (.fault .wrongObject)
  else if frame.frameType = amqpFrameMethod then
    match frame.payload with
    | .method id (some decoded) => do
        storeOctets headerSize (BigEndian.bytes 4 id.toNat)
        let res ← amqpEncodeMethod id decoded (methodRoom len)
        return res + 4
    | _ => throw (.fault .wrongObject)
  else if frame.frameType = amqpFrameHeader then
    match frame.payload with
    | .properties classId bodySize (some decoded) _ => do
        storeOctets headerSize (BigEndian.bytes 2 classId.toNat)
        -- "weight"
        storeOctets (headerSize + 2) (BigEndian.bytes 2 0)
        storeOctets (headerSize + 4) (BigEndian.bytes 8 bodySize.toNat)
        let res ← amqpEncodeProperties classId decoded (propertiesRoom len)
        return res + 12
    | _ => throw (.fault .wrongObject)
  else if frame.frameType = amqpFrameHeartbeat then
    return 0
  else
    throw (.status .invalidParameter)

/-- The state is the memory of the outbound buffer, which has `len` octets; the
result is the length of `encoded`, which starts where the buffer does. -/
def amqpFrameToBytes (frame : Frame) (len : Nat) : EStateM Failure Buffer Nat := do
  storeOctets 0 (BigEndian.bytes 1 frame.frameType.toNat)
  storeOctets 1 (BigEndian.bytes 2 frame.channel.toNat)
  let outFrameLen ← payloadToBytes frame len
  storeOctets 3 (BigEndian.bytes 4 outFrameLen)
  storeOctets (headerSize + outFrameLen) [amqpFrameEnd]
  return outFrameLen + headerSize + footerSize

/-! ## Equal room -/

section EqualRoom

variable {size : Nat}

theorem lockstep_storeOctets (offset : Nat) (data : List UInt8) :
    Lockstep (SameSize size) (storeOctets offset data) := by
  intro left right same
  unfold storeOctets
  rcases write?_alike (same.1.trans same.2.symm) offset data with
    ⟨first, second⟩ | ⟨_, _, first, second, isLeft, isRight⟩
  · rw [first, second]
    exact .error same
  · rw [first, second]
    exact .ok ⟨isLeft.trans same.1, isRight.trans same.2⟩

theorem lockstep_payloadToBytes (frame : Frame) (len : Nat) :
    Lockstep (SameSize size) (payloadToBytes frame len) := by
  unfold payloadToBytes
  split
  · cases frame.payload with
    | bodyFragment body => exact (lockstep_storeOctets _ _).bind fun _ => .pure
    | _ => exact .throw
  · split
    · split
      · apply (lockstep_storeOctets _ _).bind
        intro _
        exact (lockstep_amqpEncodeMethod _ _ _).bind fun _ => .pure
      · exact .throw
    · split
      · split
        · apply (lockstep_storeOctets _ _).bind
          intro _
          apply (lockstep_storeOctets _ _).bind
          intro _
          apply (lockstep_storeOctets _ _).bind
          intro _
          exact (lockstep_amqpEncodeProperties _ _ _).bind fun _ => .pure
        · exact .throw
      · split
        · exact .pure
        · exact .throw

/-- Whether and how a frame can be encoded is a matter of the buffer's size. -/
theorem lockstep_amqpFrameToBytes (frame : Frame) (len : Nat) :
    Lockstep (SameSize size) (amqpFrameToBytes frame len) := by
  apply (lockstep_storeOctets _ _).bind
  intro _
  apply (lockstep_storeOctets _ _).bind
  intro _
  apply (lockstep_payloadToBytes frame len).bind
  intro outFrameLen
  apply (lockstep_storeOctets _ _).bind
  intro _
  exact (lockstep_storeOctets _ _).bind fun _ => .pure

/-- The buffer keeps its size, and the encoded frame lies in it. -/
theorem size_of_amqpFrameToBytes {frame : Frame} {len count : Nat} {mem written : Buffer}
    (returned : amqpFrameToBytes frame len mem = .ok count written) :
    written.size = mem.size ∧ headerSize + footerSize ≤ count ∧ count ≤ mem.size := by
  have alike := @lockstep_amqpFrameToBytes mem.size frame len mem mem ⟨rfl, rfl⟩
  rw [returned] at alike
  have isSize : written.size = mem.size := by
    cases alike with
    | ok same => exact same.1
  obtain ⟨_, _, _, returned⟩ := bind_eq_ok.mp returned
  obtain ⟨_, _, _, returned⟩ := bind_eq_ok.mp returned
  obtain ⟨outFrameLen, _, _, returned⟩ := bind_eq_ok.mp returned
  obtain ⟨_, last, _, returned⟩ := bind_eq_ok.mp returned
  obtain ⟨_, final, stores, finished⟩ := bind_eq_ok.mp returned
  cases finished
  have stored : last.write? (headerSize + outFrameLen) [amqpFrameEnd] = some written := by
    unfold storeOctets at stores
    split at stores
    · cases stores
      assumption
    · cases stores
  have room := (Buffer.write?_eq_some_iff.mp stored).1
  rw [← Buffer.size_of_write? stored, isSize] at room
  simp only [List.length_singleton] at room
  refine ⟨isSize, ?_, ?_⟩
  · omega
  · simp only [footerSize]
    omega

end EqualRoom

/-! ## Failures -/

theorem failsToEncode_storeOctets {offset : Nat} {data : List UInt8} :
    FailsToEncode (storeOctets offset data) := by
  intro before after failure raised
  unfold storeOctets at raised
  split at raised
  · cases raised
  · cases raised
    exact List.mem_cons_self

theorem failsToEncode_payloadToBytes {frame : Frame} {len : Nat} :
    FailsToEncode (payloadToBytes frame len) := by
  unfold payloadToBytes
  split
  · cases frame.payload with
    | bodyFragment body => exact failsToEncode_storeOctets.bind fun _ => .pure _
    | _ => exact .throw (by decide)
  · split
    · split
      · apply failsToEncode_storeOctets.bind
        intro _
        exact (Composed.declared _ _).failsFromStart.bind fun _ => .pure _
      · exact .throw (by decide)
    · split
      · split
        · apply failsToEncode_storeOctets.bind
          intro _
          apply failsToEncode_storeOctets.bind
          intro _
          apply failsToEncode_storeOctets.bind
          intro _
          exact (composed_properties _).failsFromStart.bind fun _ => .pure _
        · exact .throw (by decide)
      · split
        · exact .pure 0
        · exact .throw (by decide)

theorem failsToEncode_amqpFrameToBytes {frame : Frame} {len : Nat} :
    FailsToEncode (amqpFrameToBytes frame len) := by
  apply failsToEncode_storeOctets.bind
  intro _
  apply failsToEncode_storeOctets.bind
  intro _
  apply failsToEncode_payloadToBytes.bind
  intro outFrameLen
  apply failsToEncode_storeOctets.bind
  intro _
  exact failsToEncode_storeOctets.bind fun _ => .pure _

/-! ## What is written -/

section Stores

variable {mem written : Buffer} {offset : Nat} {data left right : List UInt8}

theorem storeOctets_eq_ok : storeOctets offset data mem = .ok () written ↔
    mem.write? offset data = some written := by
  unfold storeOctets
  cases stored : mem.write? offset data with
  | none => simp
  | some mem => simp

/-- Two stores next to each other are one. -/
theorem write?_append {middle : Buffer} (first : mem.write? offset left = some middle)
    (second : middle.write? (offset + left.length) right = some written) :
    mem.write? offset (left ++ right) = some written := by
  obtain ⟨_, same⟩ := Buffer.write?_eq_some_iff.mp first
  obtain ⟨room, last⟩ := Buffer.write?_eq_some_iff.mp second
  rw [Buffer.size_of_write? first] at room
  refine Buffer.write?_eq_some_iff.mpr ⟨by rw [List.length_append]; omega, ?_⟩
  rw [last, same, List.splice_splice_after (by unfold Buffer.size at room; omega)]

/-- A codec that has written into its view has made one store. -/
theorem Written.write? {view : View} {count : Nat}
    (filled : Written view data ⟨mem, 0⟩ ⟨written, count⟩) (inside : view.base ≤ mem.size) :
    mem.write? view.base data = some written ∧ count = data.length := by
  refine ⟨Buffer.write?_eq_some_iff.mpr ⟨?_, filled.bytes⟩, by simpa using filled.offset⟩
  cases data with
  | nil => simpa using inside
  | cons head tail =>
      have room := (filled.fits (by simp)).2
      simpa using room

end Stores

/-- The payload of a frame on the wire. -/
def payloadWire (frame : Frame) : List UInt8 :=
  if frame.frameType = amqpFrameHeartbeat then []
  else
    match frame.payload with
    | .method id (some decoded) =>
        BigEndian.bytes 4 id.toNat ++ declaredWire (methodArguments id) decoded
    | .properties classId bodySize (some decoded) _ =>
        BigEndian.bytes 2 classId.toNat ++ (BigEndian.bytes 2 0 ++
          (BigEndian.bytes 8 bodySize.toNat ++ decoded.wire))
    | .bodyFragment bytes => bytes
    | _ => []

end RabbitmqC
