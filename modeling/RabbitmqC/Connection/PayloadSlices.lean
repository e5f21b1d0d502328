import RabbitmqC.Connection.FrameInput
import RabbitmqC.Framing.Locality

/-!
# The ranges of a payload

The body case reads fixed places behind the header and hands the rest of the
payload to a decoder. The length of that rest is a difference of sizes, which
wraps around for a payload that is shorter than its fixed part.
-/

set_option autoImplicit false

namespace RabbitmqC

/-- The octets of a payload that lie at fixed places. -/
def fixedPayload (frameType : UInt8) : Nat :=
  if frameType = amqpFrameMethod then 4
  else if frameType = amqpFrameHeader then 12
  else 0

/-- The places that the body case reads, or hands to a decoder, for a frame type. -/
def payloadSpans (frameType : UInt8) (targetSize : Nat) : List View :=
  if frameType = amqpFrameMethod then [methodIdSpan, methodSpan targetSize]
  else if frameType = amqpFrameHeader then
    [classIdSpan, bodySizeSpan, propertiesSpan targetSize]
  else if frameType = amqpFrameBody then [bodyFragmentSpan targetSize]
  else []

/-- A place lies behind the header and in front of the frame-end octet. -/
def View.InPayload (span : View) (size : Nat) : Prop :=
  headerSize ≤ span.base ∧ span.base + span.len ≤ headerSize + size

section Spans

variable {size : Nat}

theorem methodSpan_len (fixed : 4 ≤ size) (small : size < 2 ^ 32) :
    (methodSpan (size + headerSize + footerSize)).len = size - 4 := by
  simp only [methodSpan, sizeSub, headerSize, footerSize]
  omega

theorem propertiesSpan_len (fixed : 12 ≤ size) (small : size < 2 ^ 32) :
    (propertiesSpan (size + headerSize + footerSize)).len = size - 12 := by
  simp only [propertiesSpan, sizeSub, headerSize, footerSize]
  omega

theorem bodyFragmentSpan_len (small : size < 2 ^ 32) :
    (bodyFragmentSpan (size + headerSize + footerSize)).len = size := by
  simp only [bodyFragmentSpan, sizeSub, headerSize, footerSize]
  omega

/-- All places are in the payload exactly if its fixed part is. -/
theorem payloadSpans_inPayload {frameType : UInt8} (small : size < 2 ^ 32) :
    (∀ span ∈ payloadSpans frameType (size + headerSize + footerSize), span.InPayload size) ↔
      fixedPayload frameType ≤ size := by
  unfold payloadSpans fixedPayload
  split
  · constructor
    · intro inside
      have id := inside methodIdSpan (by simp)
      simpa [View.InPayload, methodIdSpan] using id
    · intro fixed
      simp only [List.mem_cons, List.not_mem_nil, or_false, forall_eq_or_imp, forall_eq]
      refine ⟨⟨Nat.le_refl _, by simp only [methodIdSpan]; omega⟩, ?_⟩
      unfold View.InPayload
      rw [methodSpan_len fixed small]
      simp only [methodSpan]
      omega
  · split
    · constructor
      · intro inside
        have bodySize := (inside bodySizeSpan (by simp)).2
        simp only [bodySizeSpan] at bodySize
        omega
      · intro fixed
        simp only [List.mem_cons, List.not_mem_nil, or_false, forall_eq_or_imp, forall_eq]
        refine ⟨⟨Nat.le_refl _, by simp only [classIdSpan]; omega⟩,
          ⟨by simp only [bodySizeSpan]; omega, by simp only [bodySizeSpan]; omega⟩, ?_⟩
        unfold View.InPayload
        rw [propertiesSpan_len fixed small]
        simp only [propertiesSpan]
        omega
    · refine ⟨fun _ => Nat.zero_le _, fun _ => ?_⟩
      split
      · simp only [List.mem_singleton, forall_eq]
        unfold View.InPayload
        rw [bodyFragmentSpan_len small]
        exact ⟨Nat.le_refl _, Nat.le_refl _⟩
      · simp

end Spans

/-! ## Decoding depends on the payload alone -/

section Locality

variable {memory otherMemory : FrameMemory} {raw other : Buffer} {payload : List UInt8}
  {frameType : UInt8} {channel : UInt16}

/-- A place in the payload has the same octets wherever the payload is stored. -/
private theorem slice_of_inPayload {span : View} (inside : span.InPayload payload.length)
    (stored : raw.Holds headerSize payload) :
    span.base + span.len ≤ raw.size ∧ raw.bytes.slice span.base span.len =
      payload.slice (span.base - headerSize) span.len := by
  obtain ⟨behind, before⟩ := inside
  obtain ⟨fits, same⟩ := stored
  refine ⟨by omega, ?_⟩
  have within : span.base - headerSize + span.len ≤ payload.length := by omega
  have narrowed := @List.slice_eq_of_slice_eq _ _ payload _ 0 _ _ _
    (same.trans (by simp [List.slice])) within
  rwa [Nat.add_sub_cancel' behind, Nat.zero_add] at narrowed

private theorem rawWord_of_inPayload {span : View} (inside : span.InPayload payload.length)
    (stored : raw.Holds headerSize payload) :
    rawWord raw span = .ok (BigEndian.value (payload.slice (span.base - headerSize) span.len)) := by
  obtain ⟨fits, same⟩ := slice_of_inPayload inside stored
  rw [rawWord_eq fits, same]

private theorem agrees_of_inPayload {span : View} (inside : span.InPayload payload.length)
    (stored : raw.Holds headerSize payload) (otherStored : other.Holds headerSize payload) :
    Encoded.Agrees { span with mem := raw } { span with mem := other } := by
  obtain ⟨fits, same⟩ := slice_of_inPayload inside stored
  obtain ⟨otherFits, otherSame⟩ := slice_of_inPayload inside otherStored
  exact Encoded.agrees_of_slice rfl fits otherFits (same.trans otherSame.symm)

/-- What the memory holds around a payload has no influence on the decoded
frame if the fixed part is in the payload. -/
theorem decodePayload_congr (stored : raw.Holds headerSize payload)
    (otherStored : other.Holds headerSize payload) (small : payload.length < 2 ^ 32)
    (fixed : fixedPayload frameType ≤ payload.length)
    (sameAllocs : memory.allocs = otherMemory.allocs) :
    decodePayload memory raw (payload.length + headerSize + footerSize) frameType channel =
      decodePayload otherMemory other (payload.length + headerSize + footerSize) frameType
        channel := by
  have inside := (payloadSpans_inPayload small).mpr fixed
  unfold payloadSpans at inside
  unfold decodePayload
  split
  · rename_i method
    simp only [if_pos method, List.mem_cons, List.not_mem_nil, or_false, forall_eq_or_imp,
      forall_eq] at inside
    unfold methodPayload
    rw [rawWord_of_inPayload inside.1 stored, rawWord_of_inPayload inside.1 otherStored]
    simp only [(agrees_of_inPayload inside.2 stored otherStored).amqpDecodeMethod, sameAllocs]
  · rename_i notMethod
    split
    · rename_i header
      simp only [if_neg notMethod, if_pos header, List.mem_cons, List.not_mem_nil, or_false,
        forall_eq_or_imp, forall_eq] at inside
      unfold headerPayload
      rw [rawWord_of_inPayload inside.1 stored, rawWord_of_inPayload inside.1 otherStored,
        rawWord_of_inPayload inside.2.1 stored, rawWord_of_inPayload inside.2.1 otherStored]
      simp only [(agrees_of_inPayload inside.2.2 stored otherStored).amqpDecodeProperties,
        sameAllocs]
    · rename_i notHeader
      split
      · rename_i body
        simp only [if_neg notMethod, if_neg notHeader, if_pos body, List.mem_singleton,
          forall_eq] at inside
        obtain ⟨fits, same⟩ := slice_of_inPayload inside stored
        obtain ⟨otherFits, otherSame⟩ := slice_of_inPayload inside otherStored
        simp only [bodyPayload, Buffer.read?, if_pos fits, if_pos otherFits, same, otherSame]
      · rfl

end Locality

/-- A new connection after the protocol header. -/
def idleReader : Reader := returnToIdle Reader.new

theorem idleReader_begins : idleReader.Begins headerSize :=
  ⟨rfl, rfl, rfl, .inl ⟨rfl, rfl⟩⟩

end RabbitmqC
