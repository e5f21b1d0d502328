import RabbitmqC.Connection.PayloadSlices

/-!
# The first frame

Before the first frame the reader waits for eight octets, the length of a
protocol header. If they are the start of a frame, seven of them are copied to
the frame's block and the eighth is not.
-/

set_option autoImplicit false

namespace RabbitmqC

/-- The octet a block holds at the place that the first frame leaves out. -/
def staleOctet (memory : FrameMemory) (reader : Reader) (channel : UInt16) (size : Nat) :
    Option UInt8 :=
  (blockFor memory reader channel (size + headerSize + footerSize)).bind fun stale =>
    stale.bytes[headerSize]?

/-- The frame types that the body case reads something of the payload for. -/
def readsPayload (frameType : UInt8) : Bool :=
  frameType = amqpFrameMethod ∨ frameType = amqpFrameHeader ∨ frameType = amqpFrameBody

/-- The octet that is not copied does no harm: the block holds it already, or it
belongs to a payload that is ignored. -/
def FirstFrameIntact (memory : FrameMemory) (reader : Reader) (frameType : UInt8)
    (channel : UInt16) (payload : List UInt8) : Prop :=
  refusal memory reader channel payload.length = none →
    staleOctet memory reader channel payload.length =
        (frameOctets frameType channel payload)[headerSize]? ∨
      payload ≠ [] ∧ readsPayload frameType = false

/-! ## What is in the block -/

/-- What follows the eighth octet of a received frame in its block. -/
def behindEighth (stale : Buffer) (octets : List UInt8) : List UInt8 :=
  octets.drop (headerSize + 1) ++ stale.bytes.drop octets.length

section Block

variable {stale mem : Buffer} {reader ready : Reader} {frameType : UInt8} {channel : UInt16}
  {payload : List UInt8}

/-- A later frame is in its block as it was sent. -/
theorem Received.bytes_of_idle
    (received : Received stale reader channel (frameOctets frameType channel payload) headerSize
      mem ready) :
    ∃ octet, (frameOctets frameType channel payload)[headerSize]? = some octet ∧
      mem.bytes = headerOctets frameType channel payload.length ++
        octet :: behindEighth stale (frameOctets frameType channel payload) := by
  have long : headerSize < (frameOctets frameType channel payload).length := by
    rw [length_frameOctets, footerSize]
    omega
  refine ⟨_, List.getElem?_eq_getElem long, ?_⟩
  rw [received.bytes_eq_splice long.le, List.splice, behindEighth, ← List.cons_append,
    ← List.drop_eq_getElem_cons long, ← List.append_assoc, ← take_frameOctets,
    List.take_append_drop, List.take_zero, List.nil_append, Nat.zero_add]

/-- The first frame is in its block but for the eighth octet. -/
theorem Received.bytes_of_initial
    (received : Received stale reader channel (frameOctets frameType channel payload)
      (headerSize + 1) mem ready) :
    ∃ octet, stale.bytes[headerSize]? = some octet ∧
      mem.bytes = headerOctets frameType channel payload.length ++
        octet :: behindEighth stale (frameOctets frameType channel payload) := by
  have long : headerSize < (frameOctets frameType channel payload).length := by
    rw [length_frameOctets, footerSize]
    omega
  obtain ⟨fits, sameSize⟩ := received.size
  have inside : headerSize < stale.bytes.length := by
    unfold Buffer.size at sameSize fits
    omega
  refine ⟨_, List.getElem?_eq_getElem inside, ?_⟩
  have started : stale.bytes.splice 0 (headerOctets frameType channel payload.length) =
      (headerOctets frameType channel payload.length ++ [stale.bytes[headerSize]]) ++
        stale.bytes.drop (headerSize + 1) := by
    rw [List.append_assoc, List.singleton_append, ← List.drop_eq_getElem_cons inside, List.splice,
      List.take_zero, List.nil_append, Nat.zero_add, length_headerOctets]
  have eighth : (headerOctets frameType channel payload.length ++
      [stale.bytes[headerSize]]).length = headerSize + 1 := by simp
  rw [received.bytes, take_frameOctets, started, List.splice, behindEighth,
    List.take_left' eighth, ← List.drop_drop (j := headerSize + 1), List.drop_left' eighth,
    List.drop_drop, List.length_drop, Nat.add_sub_cancel' long]
  simp

/-- The last octet of the frame, in a block that holds it but for the eighth. -/
theorem slice_last {octet : UInt8}
    (held : mem.bytes = headerOctets frameType channel payload.length ++
      octet :: behindEighth stale (frameOctets frameType channel payload)) :
    mem.bytes.slice (payload.length + headerSize) 1 =
      if payload = [] then [octet] else [amqpFrameEnd] := by
  have behind := List.slice_append_right (headerOctets frameType channel payload.length)
    (octet :: behindEighth stale (frameOctets frameType channel payload)) payload.length 1
  rw [length_headerOctets] at behind
  rw [held, Nat.add_comm, behind]
  cases payload with
  | nil => rfl
  | cons first tail =>
      rw [if_neg (by simp), behindEighth, ← List.drop_drop, drop_frameOctets]
      simp [List.slice]

end Block

/-! ## Telling two blocks apart -/

section Differing

variable {memory : FrameMemory} {mem other : Buffer} {octet otherOctet : UInt8}
  {header rest : List UInt8} {targetSize : Nat} {frameType : UInt8} {channel : UInt16}

/-- A word behind the header, if it lies in the memory object. -/
private theorem rawWord_behind_header {width word : Nat} (length : header.length = headerSize)
    (held : mem.bytes = header ++ octet :: rest)
    (read : rawWord mem ⟨headerSize, width + 1⟩ = .ok word) :
    width ≤ rest.length ∧ word = BigEndian.value (octet :: rest.take width) := by
  unfold rawWord at read
  split at read
  · rename_i octets found
    obtain ⟨counted, stored⟩ := Buffer.read?_eq_some_iff.mp found
    have slice := stored.2
    rw [counted, held, ← length, ← Nat.add_zero header.length, List.slice_append_right] at slice
    have fits := stored.1
    simp only [Buffer.size, held, List.length_append, List.length_cons, counted, length] at fits
    refine ⟨by omega, ?_⟩
    cases read
    rw [← slice]
    rfl
  · cases read

/-- Words that differ in their first octet differ. -/
private theorem value_cons_inj {tail : List UInt8}
    (same : BigEndian.value (octet :: tail) = BigEndian.value (otherOctet :: tail)) :
    octet = otherOctet := by
  simp only [BigEndian.value, Nat.add_right_cancel_iff] at same
  exact UInt8.toNat_inj.mp (Nat.eq_of_mul_eq_mul_right (Nat.pow_pos (by decide)) same)

theorem methodPayload_eq_ok {raw : Buffer} {decoded : Except Status Unit × Payload}
    (returned : methodPayload memory raw targetSize = .ok decoded) :
    ∃ word fields, rawWord raw methodIdSpan = .ok word ∧
      decoded.2 = .method (UInt32.ofNat word) fields := by
  unfold methodPayload at returned
  obtain ⟨id, read, returned⟩ := Effect.except_bind_eq_ok.mp returned
  cases found : rawWord raw methodIdSpan with
  | error fault =>
      rw [found] at read
      cases read
  | ok word =>
      rw [found] at read
      cases read
      refine ⟨word, ?_⟩
      split at returned
      · cases returned
        exact ⟨_, rfl, rfl⟩
      · cases returned
        exact ⟨_, rfl, rfl⟩
      · cases returned

theorem headerPayload_eq_ok {raw : Buffer} {decoded : Except Status Unit × Payload}
    (returned : headerPayload memory raw targetSize = .ok decoded) :
    ∃ word bodySize fields span, rawWord raw classIdSpan = .ok word ∧
      decoded.2 = .properties (UInt16.ofNat word) bodySize fields span := by
  unfold headerPayload at returned
  obtain ⟨classId, read, returned⟩ := Effect.except_bind_eq_ok.mp returned
  obtain ⟨bodySize, _, returned⟩ := Effect.except_bind_eq_ok.mp returned
  cases found : rawWord raw classIdSpan with
  | error fault =>
      rw [found] at read
      cases read
  | ok word =>
      rw [found] at read
      cases read
      refine ⟨word, bodySize, ?_⟩
      split at returned
      · cases returned
        exact ⟨_, _, rfl, rfl⟩
      · cases returned
        exact ⟨_, _, rfl, rfl⟩
      · cases returned

private theorem methodId_inj {decoded otherDecoded : Except Status Unit × Payload}
    (length : header.length = headerSize) (held : mem.bytes = header ++ octet :: rest)
    (otherHeld : other.bytes = header ++ otherOctet :: rest)
    (returned : methodPayload memory mem targetSize = .ok decoded)
    (otherReturned : methodPayload memory other targetSize = .ok otherDecoded)
    (same : decoded.2 = otherDecoded.2) : octet = otherOctet := by
  obtain ⟨word, _, read, isMethod⟩ := methodPayload_eq_ok returned
  obtain ⟨otherWord, _, otherRead, otherIsMethod⟩ := methodPayload_eq_ok otherReturned
  rw [isMethod, otherIsMethod] at same
  obtain ⟨sameId, _⟩ := Payload.method.inj same
  obtain ⟨long, value⟩ := rawWord_behind_header length held read
  obtain ⟨_, otherValue⟩ := rawWord_behind_header length otherHeld otherRead
  have bounded (octet : UInt8) : BigEndian.value (octet :: rest.take 3) < 2 ^ 32 := by
    have small := BigEndian.value_lt (octet :: rest.take 3)
    rwa [List.length_cons, List.length_take, Nat.min_eq_left long] at small
  have words := congrArg UInt32.toNat sameId
  rw [UInt32.toNat_ofNat', UInt32.toNat_ofNat', value, otherValue, Nat.mod_eq_of_lt (bounded _),
    Nat.mod_eq_of_lt (bounded _)] at words
  exact value_cons_inj words

private theorem classId_inj {decoded otherDecoded : Except Status Unit × Payload}
    (length : header.length = headerSize) (held : mem.bytes = header ++ octet :: rest)
    (otherHeld : other.bytes = header ++ otherOctet :: rest)
    (returned : headerPayload memory mem targetSize = .ok decoded)
    (otherReturned : headerPayload memory other targetSize = .ok otherDecoded)
    (same : decoded.2 = otherDecoded.2) : octet = otherOctet := by
  obtain ⟨word, _, _, _, read, isHeader⟩ := headerPayload_eq_ok returned
  obtain ⟨otherWord, _, _, _, otherRead, otherIsHeader⟩ := headerPayload_eq_ok otherReturned
  rw [isHeader, otherIsHeader] at same
  obtain ⟨sameClass, _⟩ := Payload.properties.inj same
  obtain ⟨long, value⟩ := rawWord_behind_header length held read
  obtain ⟨_, otherValue⟩ := rawWord_behind_header length otherHeld otherRead
  have bounded (octet : UInt8) : BigEndian.value (octet :: rest.take 1) < 2 ^ 16 := by
    have small := BigEndian.value_lt (octet :: rest.take 1)
    rwa [List.length_cons, List.length_take, Nat.min_eq_left long] at small
  have words := congrArg UInt16.toNat sameClass
  rw [UInt16.toNat_ofNat', UInt16.toNat_ofNat', value, otherValue, Nat.mod_eq_of_lt (bounded _),
    Nat.mod_eq_of_lt (bounded _)] at words
  exact value_cons_inj words

private theorem fragment_inj {size : Nat} {decoded otherDecoded : Except Status Unit × Payload}
    (length : header.length = headerSize) (held : mem.bytes = header ++ octet :: rest)
    (otherHeld : other.bytes = header ++ otherOctet :: rest) (small : size + 1 < 2 ^ 32)
    (returned : bodyPayload mem (size + 1 + headerSize + footerSize) = .ok decoded)
    (otherReturned : bodyPayload other (size + 1 + headerSize + footerSize) = .ok otherDecoded)
    (same : decoded.2 = otherDecoded.2) : octet = otherOctet := by
  have first {mem : Buffer} {octet : UInt8} {decoded : Except Status Unit × Payload}
      (held : mem.bytes = header ++ octet :: rest)
      (returned : bodyPayload mem (size + 1 + headerSize + footerSize) = .ok decoded) :
      decoded.2 = .bodyFragment (octet :: rest.take size) := by
    unfold bodyPayload at returned
    rw [bodyFragmentSpan_len small] at returned
    split at returned
    · rename_i bytes found
      cases returned
      obtain ⟨counted, stored⟩ := Buffer.read?_eq_some_iff.mp found
      have slice := stored.2
      simp only [bodyFragmentSpan] at slice
      rw [counted, held, ← length, ← Nat.add_zero header.length, List.slice_append_right] at slice
      rw [← slice]
      rfl
    · cases returned
  rw [first held returned, first otherHeld otherReturned] at same
  exact List.head_eq_of_cons_eq (Payload.bodyFragment.inj same)

theorem decodePayload_of_unread (unread : readsPayload frameType = false) :
    decodePayload memory mem targetSize frameType channel =
      decodePayload memory other targetSize frameType channel := by
  simp only [readsPayload, decide_eq_false_iff_not, not_or] at unread
  unfold decodePayload
  rw [if_neg unread.1, if_neg unread.2.1, if_neg unread.2.2, if_neg unread.1, if_neg unread.2.1,
    if_neg unread.2.2]

/-- A payload that is read, and differs in its first octet, gives another frame. -/
theorem decodePayload_inj {size : Nat} {decoded otherDecoded : Except Status Unit × Frame}
    (length : header.length = headerSize) (held : mem.bytes = header ++ octet :: rest)
    (otherHeld : other.bytes = header ++ otherOctet :: rest) (small : size + 1 < 2 ^ 32)
    (reads : readsPayload frameType = true)
    (returned : decodePayload memory mem (size + 1 + headerSize + footerSize) frameType channel =
      .ok decoded)
    (otherReturned : decodePayload memory other (size + 1 + headerSize + footerSize) frameType
      channel = .ok otherDecoded)
    (same : decoded.2 = otherDecoded.2) : octet = otherOctet := by
  unfold decodePayload at returned otherReturned
  split at returned
  · rename_i method
    rw [if_pos method] at otherReturned
    obtain ⟨⟨result, payload⟩, decodes, returned⟩ := Effect.except_bind_eq_ok.mp returned
    obtain ⟨⟨_, otherPayload⟩, otherDecodes, otherReturned⟩ :=
      Effect.except_bind_eq_ok.mp otherReturned
    cases returned
    cases otherReturned
    exact methodId_inj length held otherHeld decodes otherDecodes (congrArg Frame.payload same)
  · rename_i notMethod
    rw [if_neg notMethod] at otherReturned
    split at returned
    · rename_i isHeader
      rw [if_pos isHeader] at otherReturned
      obtain ⟨⟨result, payload⟩, decodes, returned⟩ := Effect.except_bind_eq_ok.mp returned
      obtain ⟨⟨_, otherPayload⟩, otherDecodes, otherReturned⟩ :=
        Effect.except_bind_eq_ok.mp otherReturned
      cases returned
      cases otherReturned
      exact classId_inj length held otherHeld decodes otherDecodes (congrArg Frame.payload same)
    · rename_i notHeader
      have body : frameType = amqpFrameBody := by
        simpa [readsPayload, notMethod, notHeader] using reads
      rw [if_pos body] at returned
      rw [if_neg notHeader, if_pos body] at otherReturned
      obtain ⟨⟨result, payload⟩, decodes, returned⟩ := Effect.except_bind_eq_ok.mp returned
      obtain ⟨⟨_, otherPayload⟩, otherDecodes, otherReturned⟩ :=
        Effect.except_bind_eq_ok.mp otherReturned
      cases returned
      cases otherReturned
      exact fragment_inj length held otherHeld small decodes otherDecodes
        (congrArg Frame.payload same)

end Differing

/-! ## Frames without a payload -/

section Empty

variable {memory : FrameMemory} {mem : Buffer} {encoded : Encoded} {header rest : List UInt8}
  {frameType : UInt8} {channel : UInt16}

theorem methodArguments_of_large {methodNumber : UInt32} (large : 0xCE000000 ≤ methodNumber) :
    methodArguments methodNumber = none := by
  have below : ∀ entry ∈ methodTable, entry.1 < 0xCE000000 := by decide
  refine List.lookup_eq_none_iff.mpr fun entry member => ?_
  have smaller := below entry member
  simp only [bne_iff_ne, ne_eq]
  rintro rfl
  exact absurd large (UInt32.not_le.mpr smaller)

theorem classProperties_of_large {classId : UInt16} (large : 0xCE00 ≤ classId) :
    classProperties classId = none := by
  have below : ([10, 20, 30, 40, 50, 60, 90, 85] : List UInt16).all (· < 0xCE00) = true := by
    decide
  have unknown (known : UInt16) (member : known ∈ ([10, 20, 30, 40, 50, 60, 90, 85] : List UInt16)) :
      classId ≠ known := by
    rintro rfl
    have smaller := List.all_eq_true.mp below _ member
    exact absurd large (UInt16.not_le.mpr (of_decide_eq_true smaller))
  unfold classProperties
  rw [if_neg (unknown 60 (by decide)), if_neg]
  intro member
  refine unknown classId ?_ rfl
  simp only [List.mem_cons, List.not_mem_nil, or_false] at member ⊢
  tauto

theorem amqpDecodeMethod_of_unknown {methodNumber : UInt32} {state : DecodeState}
    (unknown : methodArguments methodNumber = none) :
    amqpDecodeMethod methodNumber encoded state = .error (.status .unknownMethod) state := by
  unfold amqpDecodeMethod MethodFields
  generalize methodArguments methodNumber = declared at unknown
  subst unknown
  rfl

/-- A word that the view has room for is read, or it is undefined behaviour. -/
private theorem amqpDecode16_of_room (state : DecodeState)
    (room : state.offset + 2 ≤ encoded.len) (small : encoded.len < 2 ^ 64) :
    (∃ word, (amqpDecode16 encoded).orBad state =
        .ok word { state with offset := state.offset + 2 }) ∨
      (amqpDecode16 encoded).orBad state = .error (.fault .outOfBoundsRead) state := by
  have bytes := amqpDecodeBytes_of_room room small
  cases found : encoded.mem.read? (encoded.base + state.offset) 2 with
  | none =>
      rw [found] at bytes
      exact .inr (orBad_of_error (Effect.map_of_error (Effect.map_of_error bytes)))
  | some octets =>
      rw [found] at bytes
      exact .inl ⟨_, orBad_of_some (Effect.map_of_ok (Effect.map_of_ok bytes))⟩

/-- Where the view has room for three flag words, they are no bad data. -/
private theorem decodeFlagWords_ne_status {turns flagwordIndex : Nat} {flags : UInt32}
    {state after : DecodeState} {status : Status}
    (room : state.offset + 2 * (turns + 1) ≤ encoded.len) (small : encoded.len < 2 ^ 64) :
    decodeFlagWords encoded turns flagwordIndex flags state ≠ .error (.status status) after := by
  induction turns generalizing flagwordIndex flags state with
  | zero =>
      unfold decodeFlagWords
      rcases amqpDecode16_of_room state (by omega) small with ⟨word, read⟩ | unread
      · rw [Effect.bind_of_ok read]
        rintro ⟨⟩
      · rw [Effect.bind_of_error unread]
        rintro ⟨⟩
  | succ turns ih =>
      unfold decodeFlagWords
      rcases amqpDecode16_of_room state (by omega) small with ⟨word, read⟩ | unread
      · rw [Effect.bind_of_ok read]
        split
        · exact ih (by simp only; omega)
        · rintro ⟨⟩
      · rw [Effect.bind_of_error unread]
        rintro ⟨⟩

private theorem amqpDecodeProperties_of_unknown {classId : UInt16} {state after : DecodeState}
    {status : Status} (unknown : classProperties classId = none)
    (room : state.offset + 6 ≤ encoded.len) (small : encoded.len < 2 ^ 64)
    (raised : amqpDecodeProperties classId encoded state = .error (.status status) after) :
    status = .unknownClass := by
  unfold amqpDecodeProperties at raised
  rcases Effect.bind_eq_error.mp raised with early | ⟨flags, middle, _, late⟩
  · exact absurd early (decodeFlagWords_ne_status room small)
  · rcases Effect.bind_eq_error.mp late with failed | ⟨fields, _, _, finished⟩
    · generalize classProperties classId = declared at unknown failed
      subst unknown
      cases failed
      rfl
    · cases finished

/-- A word that starts with the frame-end octet. -/
private theorem rawWord_of_frameEnd {width word : Nat} (length : header.length = headerSize)
    (held : mem.bytes = header ++ amqpFrameEnd :: rest)
    (read : rawWord mem ⟨headerSize, width + 1⟩ = .ok word) :
    width ≤ rest.length ∧ 206 * 256 ^ width ≤ word ∧ word < 256 ^ (width + 1) := by
  obtain ⟨long, rfl⟩ := rawWord_behind_header length held read
  have counted : (rest.take width).length = width := by
    rw [List.length_take, Nat.min_eq_left long]
  have bounded := BigEndian.value_lt (amqpFrameEnd :: rest.take width)
  rw [List.length_cons, counted] at bounded
  refine ⟨long, ?_, bounded⟩
  rw [BigEndian.value, counted]
  exact Nat.le_add_right _ _

/-- For a frame without a payload the places of the body case hold its last
octet; nothing that starts with it is known, and nothing is bad data. -/
theorem decodePayload_empty_ne_bad {decoded : Except Status Unit × Frame}
    (length : header.length = headerSize) (held : mem.bytes = header ++ amqpFrameEnd :: rest)
    (returned : decodePayload memory mem (0 + headerSize + footerSize) frameType channel =
      .ok decoded) : decoded.1 ≠ .error .badAmqpData := by
  intro bad
  unfold decodePayload at returned
  split at returned
  · obtain ⟨⟨result, payload⟩, decodes, returned⟩ := Effect.except_bind_eq_ok.mp returned
    cases returned
    dsimp only at bad
    subst bad
    unfold methodPayload at decodes
    obtain ⟨id, read, decodes⟩ := Effect.except_bind_eq_ok.mp decodes
    have unknown : methodArguments id = none := by
      cases found : rawWord mem methodIdSpan with
      | error fault =>
          rw [found] at read
          cases read
      | ok word =>
          rw [found] at read
          cases read
          obtain ⟨long, large, small⟩ := rawWord_of_frameEnd length held found
          refine methodArguments_of_large (UInt32.le_iff_toNat_le.mpr ?_)
          rw [UInt32.toNat_ofNat', Nat.mod_eq_of_lt (show word < 2 ^ 32 from small)]
          exact large
    rw [amqpDecodeMethod_of_unknown unknown] at decodes
    cases decodes
  · split at returned
    · obtain ⟨⟨result, payload⟩, decodes, returned⟩ := Effect.except_bind_eq_ok.mp returned
      cases returned
      dsimp only at bad
      subst bad
      unfold headerPayload at decodes
      obtain ⟨classId, read, decodes⟩ := Effect.except_bind_eq_ok.mp decodes
      obtain ⟨bodySize, _, decodes⟩ := Effect.except_bind_eq_ok.mp decodes
      have unknown : classProperties classId = none := by
        cases found : rawWord mem classIdSpan with
        | error fault =>
            rw [found] at read
            cases read
        | ok word =>
            rw [found] at read
            cases read
            obtain ⟨long, large, small⟩ := rawWord_of_frameEnd length held found
            refine classProperties_of_large (UInt16.le_iff_toNat_le.mpr ?_)
            rw [UInt16.toNat_ofNat', Nat.mod_eq_of_lt (show word < 2 ^ 16 from small)]
            exact large
      split at decodes
      · cases decodes
      · rename_i status final raised
        cases decodes
        have other := amqpDecodeProperties_of_unknown unknown
          (by simp only [propertiesSpan, sizeSub, headerSize, footerSize]; omega)
          (by simp only [propertiesSpan, sizeSub, headerSize, footerSize]; omega) raised
        cases other
      · cases decodes
    · split at returned
      · obtain ⟨⟨result, payload⟩, decodes, returned⟩ := Effect.except_bind_eq_ok.mp returned
        cases returned
        unfold bodyPayload at decodes
        split at decodes
        · cases decodes
          cases bad
        · cases decodes
      · split at returned
        · cases returned
          cases bad
        · cases returned
          cases bad

end Empty

/-! ## The first frame and the others -/

section First

variable {memory : FrameMemory} {initial idle : Reader} {frameType : UInt8} {channel : UInt16}
  {payload : List UInt8} {expected : Handled}

theorem concluded_congr {ready otherReady : Reader} {bytesConsumed : Nat}
    {decoded : Except Status Unit × Frame} :
    (concluded ready bytesConsumed decoded).result =
        (concluded otherReady bytesConsumed decoded).result ∧
      (concluded ready bytesConsumed decoded).frame =
        (concluded otherReady bytesConsumed decoded).frame := by
  obtain ⟨result, frame⟩ := decoded
  cases result <;> exact ⟨rfl, rfl⟩

theorem concluded_frame {ready : Reader} {bytesConsumed : Nat}
    {decoded : Except Status Unit × Frame} :
    (concluded ready bytesConsumed decoded).frame = decoded.2 := by
  obtain ⟨result, frame⟩ := decoded
  cases result <;> rfl

theorem concluded_result_eq_error {ready : Reader} {bytesConsumed : Nat}
    {decoded : Except Status Unit × Frame} {status : Status} :
    (concluded ready bytesConsumed decoded).result = .error status ↔ decoded.1 = .error status := by
  obtain ⟨result, frame⟩ := decoded
  cases result <;> simp [concluded]

/-- Two blocks that differ in the eighth octet at most. -/
private theorem first_block_iff {stale mem other : Buffer} {ready otherReady : Reader}
    {octet otherOctet : UInt8} {decoded : Except Status Unit × Frame} {bytesConsumed : Nat}
    (small : payload.length < 2 ^ 32)
    (isOther : (frameOctets frameType channel payload)[headerSize]? = some otherOctet)
    (held : mem.bytes = headerOctets frameType channel payload.length ++
      octet :: behindEighth stale (frameOctets frameType channel payload))
    (otherHeld : other.bytes = headerOctets frameType channel payload.length ++
      otherOctet :: behindEighth stale (frameOctets frameType channel payload))
    (decodes : decodePayload memory other (payload.length + headerSize + footerSize) frameType
      channel = .ok decoded) :
    (∃ handled,
      (if (if payload = [] then [octet] else [amqpFrameEnd]) = [amqpFrameEnd] then
          concluded ready bytesConsumed <$>
            decodePayload memory mem (payload.length + headerSize + footerSize) frameType channel
        else .ok ⟨ready, .error .badAmqpData, .unset⟩) = .ok handled ∧
        handled.result = (concluded otherReady bytesConsumed decoded).result ∧
        handled.frame = (concluded otherReady bytesConsumed decoded).frame) ↔
      (octet = otherOctet ∨ payload ≠ [] ∧ readsPayload frameType = false) := by
  have same (equal : octet = otherOctet) : mem = other :=
    Buffer.ext (by rw [held, otherHeld, equal])
  cases payload with
  | nil =>
      have isEnd : otherOctet = amqpFrameEnd := (Option.some.inj isOther).symm
      subst isEnd
      simp only [if_true, ne_eq, not_true_eq_false, false_and, or_false, List.cons.injEq, and_true]
      constructor
      · rintro ⟨handled, returned, sameResult, _⟩
        by_contra different
        rw [if_neg different] at returned
        cases returned
        exact decodePayload_empty_ne_bad length_headerOctets otherHeld decodes
          (concluded_result_eq_error.mp sameResult.symm)
      · intro equal
        rw [if_pos equal, same equal, decodes]
        exact ⟨_, rfl, concluded_congr⟩
  | cons first tail =>
      simp only [reduceCtorEq, if_false, if_true, ne_eq, not_false_eq_true, true_and]
      constructor
      · rintro ⟨handled, returned, _, sameFrame⟩
        by_cases unread : readsPayload frameType = false
        · exact .inr unread
        · refine .inl ?_
          cases decoding : decodePayload memory mem
              ((first :: tail).length + headerSize + footerSize) frameType channel with
          | error fault =>
              rw [decoding] at returned
              cases returned
          | ok firstDecoded =>
              rw [decoding] at returned
              cases returned
              rw [concluded_frame, concluded_frame] at sameFrame
              exact decodePayload_inj length_headerOctets held otherHeld small
                (by simpa using unread) decoding decodes sameFrame
      · rintro (equal | unread)
        · rw [same equal, decodes]
          exact ⟨_, rfl, concluded_congr⟩
        · rw [decodePayload_of_unread unread, decodes]
          exact ⟨_, rfl, concluded_congr⟩

/-- The first frame gives the same code and the same `*decoded_frame` as a later
one exactly if the octet that is not copied does no harm. -/
theorem first_frame_iff (initialBegins : initial.Begins (headerSize + 1))
    (idleBegins : idle.Begins headerSize) (sameMax : initial.frameMax = idle.frameMax)
    (sameTable : initial.poolTable = idle.poolTable) (small : payload.length < 2 ^ 32)
    (regular : (frameOctets frameType channel payload).take 4 ≠ protocolName)
    (returned : amqpHandleInput memory idle (frameOctets frameType channel payload) =
      .ok expected) :
    (∃ handled, amqpHandleInput memory initial (frameOctets frameType channel payload) =
        .ok handled ∧ handled.result = expected.result ∧ handled.frame = expected.frame) ↔
      FirstFrameIntact memory initial frameType channel payload := by
  have sameRefusal (size : Nat) : refusal memory initial channel size =
      refusal memory idle channel size := by
    simp only [refusal, sameMax, sameTable]
  unfold FirstFrameIntact
  cases refused : refusal memory initial channel payload.length with
  | some status =>
      -- The header is refused before the octet matters.
      obtain ⟨after, firstReturned, _⟩ := amqpHandleInput_refused initialBegins
        (fun _ => regular) small refused
      obtain ⟨_, laterReturned, _⟩ := amqpHandleInput_refused idleBegins
        (fun _ => regular) small (by rw [← sameRefusal]; exact refused)
      rw [List.append_nil] at firstReturned laterReturned
      rw [returned] at laterReturned
      cases laterReturned
      simp [firstReturned]
  | none =>
      obtain ⟨stale, mem, ready, found, received, first⟩ := amqpHandleInput_received
        initialBegins (fun _ => regular) small refused
      obtain ⟨otherStale, other, otherReady, otherFound, otherReceived, later⟩ :=
        amqpHandleInput_received idleBegins (fun _ => regular) small
          (by rw [← sameRefusal]; exact refused)
      have sameStale : otherStale = stale := by
        have same : blockFor memory initial channel (frameOctets frameType channel payload).length =
            blockFor memory idle channel (frameOctets frameType channel payload).length := by
          simp only [blockFor, sameTable]
        rw [same, otherFound] at found
        exact Option.some.inj found
      subst sameStale
      obtain ⟨octet, isOctet, held⟩ := received.bytes_of_initial
      obtain ⟨otherOctet, isOtherOctet, otherHeld⟩ := otherReceived.bytes_of_idle
      rw [List.append_nil] at first later
      rw [received.bodyCase_eq (by omega) (by simp [footerSize]), slice_last held] at first
      rw [returned, otherReceived.bodyCase_eq (Nat.le_refl _) (by simp; omega)] at later
      have ended : other.bytes.slice (payload.length + headerSize) 1 = [amqpFrameEnd] := by
        rw [slice_last otherHeld]
        cases payload with
        | nil => exact congrArg (fun octet => [octet]) (Option.some.inj isOtherOctet).symm
        | cons head tail => rfl
      rw [if_pos ended] at later
      cases decodes : decodePayload memory other (payload.length + headerSize + footerSize) frameType
          channel with
      | error fault =>
          rw [decodes] at later
          cases later
      | ok decoded =>
          rw [decodes] at later
          cases later
          have intact : staleOctet memory initial channel payload.length = some octet := by
            rw [staleOctet, ← length_frameOctets, found]
            exact isOctet
          rw [first, intact, isOtherOctet]
          simpa using first_block_iff small isOtherOctet held otherHeld decodes

end First

/-- How many octets a call takes, if it accepts them. -/
def octetsTaken : Except Fault Handled → Option Int
  | .ok handled => handled.result.toOption
  | .error _ => none

theorem Reader.new_begins : Reader.new.Begins (headerSize + 1) :=
  ⟨rfl, rfl, rfl, .inr ⟨rfl, rfl⟩⟩

/-- The eighth octet of `connection.close_ok` is zero, as is all of a new page. -/
theorem first_frame_iff_close_ok : ∃ expected,
    amqpHandleInput grantingMemory idleReader (frameOctets amqpFrameMethod 0 [0, 10, 0, 51]) =
        .ok expected ∧
      ∃ handled, amqpHandleInput grantingMemory Reader.new
          (frameOctets amqpFrameMethod 0 [0, 10, 0, 51]) = .ok handled ∧
        handled.result = expected.result ∧ handled.frame = expected.frame := by
  have consumed : octetsTaken (amqpHandleInput grantingMemory idleReader
      (frameOctets amqpFrameMethod 0 [0, 10, 0, 51])) = some 12 := by decide +kernel
  cases returned : amqpHandleInput grantingMemory idleReader
      (frameOctets amqpFrameMethod 0 [0, 10, 0, 51]) with
  | error fault =>
      rw [returned] at consumed
      cases consumed
  | ok expected =>
      refine ⟨expected, rfl, (first_frame_iff Reader.new_begins idleReader_begins rfl rfl (by decide)
        (by decide) returned).mpr fun _ => .inl ?_⟩
      decide +kernel

/-- A heartbeat is the whole of a new connection's first eight octets; its
frame-end octet is lost. -/
theorem first_heartbeat_rejected : ¬ ∀ memory initial idle frameType channel payload expected,
    Reader.Begins initial (headerSize + 1) → Reader.Begins idle headerSize →
    initial.frameMax = idle.frameMax → initial.poolTable = idle.poolTable →
    payload.length < 2 ^ 32 → (frameOctets frameType channel payload).take 4 ≠ protocolName →
    amqpHandleInput memory idle (frameOctets frameType channel payload) = .ok expected →
    ∃ handled, amqpHandleInput memory initial (frameOctets frameType channel payload) =
        .ok handled ∧ handled.result = expected.result ∧ handled.frame = expected.frame := by
  intro same
  have later : octetsTaken (amqpHandleInput grantingMemory idleReader
      (frameOctets amqpFrameHeartbeat 0 [])) = some 8 := by decide +kernel
  have first : octetsTaken (amqpHandleInput grantingMemory Reader.new
      (frameOctets amqpFrameHeartbeat 0 [])) = none := by decide +kernel
  cases returned : amqpHandleInput grantingMemory idleReader
      (frameOctets amqpFrameHeartbeat 0 []) with
  | error fault =>
      rw [returned] at later
      cases later
  | ok expected =>
      obtain ⟨handled, handles, sameResult, _⟩ := same _ _ _ _ _ _ expected Reader.new_begins
        idleReader_begins rfl rfl (by decide) (by decide) returned
      rw [returned] at later
      rw [handles] at first
      rw [octetsTaken, sameResult] at first
      cases first.symm.trans later

end RabbitmqC
