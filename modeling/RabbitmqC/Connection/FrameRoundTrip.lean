import RabbitmqC.Connection.FrameOutput
import RabbitmqC.Connection.PayloadSlices

/-!
# Encoding frames and reading them again

The two sides compute the place of a payload's parts on their own. What
`amqp_frame_to_bytes` stores around a payload is what `amqp_handle_input`
expects there, and the codecs of methods and properties agree on the rest.
-/

set_option autoImplicit false

namespace RabbitmqC

/-- The keys of the frame's tables fit their length octet, the decoder can count
their entries, and its property flags are defined for its class. -/
def Payload.Representable : Payload → Prop
  | .method id (some decoded) => DeclaredShort (methodArguments id) decoded
  | .properties _ _ (some decoded) _ => decoded.WithinClass ∧ decoded.Short
  | _ => True

/-- The frame that arrives: its bits and booleans are zero or one, a heartbeat
has no payload, and `raw` refers to the received octets. -/
def Frame.arrived (frame : Frame) : Frame :=
  { frame with
    payload :=
      if frame.frameType = amqpFrameHeartbeat then .none
      else
        match frame.payload with
        | .method id (some decoded) =>
            .method id (some (normaliseDeclared (methodArguments id) decoded))
        | .properties classId bodySize (some decoded) _ =>
            .properties classId bodySize (some decoded.normalise)
              (propertiesSpan ((payloadWire frame).length + headerSize + footerSize))
        | payload => payload }

/-- `raw` holds the payload of `frame`, and the body case reads it as such. -/
def ReadsPayload (frame : Frame) : Prop :=
  ∀ ⦃memory : FrameMemory⦄ ⦃raw : Buffer⦄, memory.allocs = [] →
    raw.Holds headerSize (payloadWire frame) → (payloadWire frame).length < 2 ^ 32 →
    decodePayload memory raw ((payloadWire frame).length + headerSize + footerSize)
      frame.frameType frame.channel = .ok (.ok (), frame.arrived)

/-! ## Reading a payload -/

section Reading

variable {memory : FrameMemory} {raw : Buffer}

theorem rawWord_of_holds {base width number : Nat} (small : number < 256 ^ width)
    (held : raw.Holds base (BigEndian.bytes width number)) :
    rawWord raw ⟨base, width⟩ = .ok number := by
  have read := held.read?
  rw [BigEndian.length_bytes] at read
  simp only [rawWord, read, BigEndian.value_bytes_of_lt small]

theorem bodyPayload_of_holds {body : List UInt8} (held : raw.Holds headerSize body)
    (small : body.length < 2 ^ 32) :
    bodyPayload raw (body.length + headerSize + footerSize) = .ok (.ok (), .bodyFragment body) := by
  unfold bodyPayload
  rw [bodyFragmentSpan_len small]
  simp only [bodyFragmentSpan, held.read?]

theorem methodPayload_of_holds {id : UInt32} {fields : MethodFields id} {wire : List UInt8}
    (allocs : memory.allocs = []) (held : raw.Holds headerSize (BigEndian.bytes 4 id.toNat ++ wire))
    (small : wire.length + 4 < 2 ^ 32)
    (reads : ∀ encoded, Reads encoded (amqpDecodeMethod id encoded) wire fields) :
    methodPayload memory raw (wire.length + 4 + headerSize + footerSize) =
      .ok (.ok (), .method id (some fields)) := by
  obtain ⟨idHeld, wireHeld⟩ := Buffer.holds_append.mp held
  rw [BigEndian.length_bytes] at wireHeld
  have word : UInt32.ofNat <$> rawWord raw methodIdSpan = .ok id := by
    rw [methodIdSpan, rawWord_of_holds id.toNat_lt idHeld]
    exact congrArg Except.ok UInt32.ofNat_toNat
  have decoded := reads { methodSpan (wire.length + 4 + headerSize + footerSize) with mem := raw } wireHeld (by
      show 0 + wire.length ≤ (methodSpan (wire.length + 4 + headerSize + footerSize)).len
      rw [methodSpan_len (by omega) small]
      omega)
  unfold methodPayload
  rw [word, Effect.except_bind_ok, allocs, decoded]
  rfl

theorem headerPayload_of_holds {classId : UInt16} {bodySize : UInt64} {fields : Properties classId}
    {wire : List UInt8} (allocs : memory.allocs = [])
    (held : raw.Holds headerSize (BigEndian.bytes 2 classId.toNat ++ (BigEndian.bytes 2 0 ++
      (BigEndian.bytes 8 bodySize.toNat ++ wire))))
    (small : wire.length + 12 < 2 ^ 32)
    (reads : ∀ encoded, Reads encoded (amqpDecodeProperties classId encoded) wire fields) :
    headerPayload memory raw (wire.length + 12 + headerSize + footerSize) =
      .ok (.ok (), .properties classId bodySize (some fields)
        (propertiesSpan (wire.length + 12 + headerSize + footerSize))) := by
  obtain ⟨classHeld, held⟩ := Buffer.holds_append.mp held
  obtain ⟨_, held⟩ := Buffer.holds_append.mp held
  obtain ⟨sizeHeld, wireHeld⟩ := Buffer.holds_append.mp held
  rw [BigEndian.length_bytes, BigEndian.length_bytes] at sizeHeld
  rw [BigEndian.length_bytes, BigEndian.length_bytes, BigEndian.length_bytes] at wireHeld
  have classWord : UInt16.ofNat <$> rawWord raw classIdSpan = .ok classId := by
    rw [classIdSpan, rawWord_of_holds classId.toNat_lt classHeld]
    exact congrArg Except.ok UInt16.ofNat_toNat
  have sizeWord : UInt64.ofNat <$> rawWord raw bodySizeSpan = .ok bodySize := by
    rw [bodySizeSpan, rawWord_of_holds bodySize.toNat_lt sizeHeld]
    exact congrArg Except.ok UInt64.ofNat_toNat
  have decoded := reads
    { propertiesSpan (wire.length + 12 + headerSize + footerSize) with mem := raw } wireHeld (by
      show 0 + wire.length ≤ (propertiesSpan (wire.length + 12 + headerSize + footerSize)).len
      rw [propertiesSpan_len (by omega) small]
      omega)
  unfold headerPayload
  rw [classWord, Effect.except_bind_ok, sizeWord, Effect.except_bind_ok, allocs, decoded]
  rfl

end Reading

/-! ## Storing a payload -/

section Payloads

variable {channel : UInt16} {mem written : Buffer} {size : Nat}

/-- A payload that was stored is stored as one piece, and can be read again. -/
structure Stored (frame : Frame) (mem : Buffer) (size : Nat) (written : Buffer) : Prop where
  size_eq : size = (payloadWire frame).length
  store : mem.write? headerSize (payloadWire frame) = some written
  reads : ReadsPayload frame

private theorem stored_body {body : List UInt8}
    (returned : payloadToBytes ⟨amqpFrameBody, channel, .bodyFragment body⟩ mem.size mem =
      .ok size written) : Stored ⟨amqpFrameBody, channel, .bodyFragment body⟩ mem size written := by
  obtain ⟨_, middle, stores, finished⟩ := Effect.bind_eq_ok.mp returned
  cases finished
  refine ⟨rfl, storeOctets_eq_ok.mp stores, fun memory raw _ held small => ?_⟩
  exact congrArg (· >>= _) (bodyPayload_of_holds held small)

private theorem stored_method {id : UInt32} {decoded : MethodFields id}
    (large : 20 ≤ mem.size) (bounded : mem.size < 2 ^ 31)
    (short : DeclaredShort (methodArguments id) decoded)
    (returned : payloadToBytes ⟨amqpFrameMethod, channel, .method id (some decoded)⟩ mem.size mem =
      .ok size written) :
    Stored ⟨amqpFrameMethod, channel, .method id (some decoded)⟩ mem size written := by
  obtain ⟨_, first, stores, returned⟩ := Effect.bind_eq_ok.mp returned
  obtain ⟨res, second, encodes, finished⟩ := Effect.bind_eq_ok.mp returned
  cases finished
  have idStored := storeOctets_eq_ok.mp stores
  have sameSize := Buffer.size_of_write? idStored
  obtain ⟨wireStored, counted⟩ := (amqpEncodeMethod_written encodes).write?
    (by simp only [methodRoom, headerSize]; omega)
  have narrow : res < 2 ^ 32 := by
    have inside := (Buffer.write?_eq_some_iff.mp wireStored).1
    omega
  have length : (payloadWire ⟨amqpFrameMethod, channel, .method id (some decoded)⟩).length =
      (declaredWire (methodArguments id) decoded).length + 4 := by
    show (BigEndian.bytes 4 id.toNat ++ _).length = _
    rw [List.length_append, BigEndian.length_bytes, Nat.add_comm]
  refine ⟨by rw [counted, length], ?_, fun memory raw allocs held small => ?_⟩
  · refine write?_append idStored ?_
    rw [BigEndian.length_bytes]
    exact wireStored
  · rw [length] at small ⊢
    exact congrArg (· >>= _) (methodPayload_of_holds allocs held small
      (reads_amqpDecodeMethod narrow short encodes))

private theorem stored_header {classId : UInt16} {bodySize : UInt64} {decoded : Properties classId}
    {raw : View} (large : 20 ≤ mem.size) (bounded : mem.size < 2 ^ 31)
    (within : decoded.WithinClass) (short : decoded.Short)
    (returned : payloadToBytes
      ⟨amqpFrameHeader, channel, .properties classId bodySize (some decoded) raw⟩ mem.size mem =
        .ok size written) :
    Stored ⟨amqpFrameHeader, channel, .properties classId bodySize (some decoded) raw⟩ mem size
      written := by
  obtain ⟨_, first, storesClass, returned⟩ := Effect.bind_eq_ok.mp returned
  obtain ⟨_, second, storesWeight, returned⟩ := Effect.bind_eq_ok.mp returned
  obtain ⟨_, third, storesSize, returned⟩ := Effect.bind_eq_ok.mp returned
  obtain ⟨res, fourth, encodes, finished⟩ := Effect.bind_eq_ok.mp returned
  cases finished
  have classStored := storeOctets_eq_ok.mp storesClass
  have weightStored := storeOctets_eq_ok.mp storesWeight
  have sizeStored := storeOctets_eq_ok.mp storesSize
  have sameSize : third.size = mem.size := by
    rw [Buffer.size_of_write? sizeStored, Buffer.size_of_write? weightStored,
      Buffer.size_of_write? classStored]
  obtain ⟨wireStored, counted⟩ := (amqpEncodeProperties_written within encodes).write?
    (by simp only [propertiesRoom, headerSize]; omega)
  have narrow : res < 2 ^ 32 := by
    have inside := (Buffer.write?_eq_some_iff.mp wireStored).1
    omega
  have length : (payloadWire
      ⟨amqpFrameHeader, channel, .properties classId bodySize (some decoded) raw⟩).length =
      decoded.wire.length + 12 := by
    show (BigEndian.bytes 2 classId.toNat ++ (BigEndian.bytes 2 0 ++
      (BigEndian.bytes 8 bodySize.toNat ++ _))).length = _
    simp only [List.length_append, BigEndian.length_bytes]
    omega
  refine ⟨by rw [counted, length], ?_, fun memory raw allocs held small => ?_⟩
  · have fixed := write?_append (write?_append classStored weightStored) sizeStored
    have whole := write?_append fixed wireStored
    rw [List.append_assoc, List.append_assoc] at whole
    exact whole
  · rw [length] at small
    have read := headerPayload_of_holds allocs held small
      (reads_amqpDecodeProperties narrow within short encodes)
    rw [← length] at read
    exact congrArg (· >>= _) read

/-- Storing a payload, for all frame types. -/
theorem stored_of_payloadToBytes {frame : Frame} (large : 20 ≤ mem.size)
    (bounded : mem.size < 2 ^ 31) (representable : frame.payload.Representable)
    (returned : payloadToBytes frame mem.size mem = .ok size written) :
    Stored frame mem size written := by
  obtain ⟨frameType, channel, payload⟩ := frame
  have unfolded := returned
  unfold payloadToBytes at unfolded
  split at unfolded
  · rename_i body
    simp only at body unfolded
    subst body
    split at unfolded
    · exact stored_body returned
    · cases unfolded
  · split at unfolded
    · rename_i method
      simp only at method unfolded
      subst method
      split at unfolded
      · exact stored_method large bounded representable returned
      · cases unfolded
    · split at unfolded
      · rename_i header
        simp only at header unfolded
        subst header
        split at unfolded
        · exact stored_header large bounded representable.1 representable.2 returned
        · cases unfolded
      · split at unfolded
        · rename_i heartbeat
          simp only at heartbeat
          subst heartbeat
          cases unfolded
          refine ⟨rfl, ?_, fun memory raw _ _ _ => rfl⟩
          exact Buffer.write?_eq_some_iff.mpr ⟨by simp [payloadWire, headerSize]; omega,
            by simp [payloadWire]⟩
        · cases unfolded

end Payloads

/-! ## Whole frames -/

section Frames

variable {frame : Frame} {mem written : Buffer} {count : Nat} {memory : FrameMemory}
  {reader : Reader}

/-- `encoded` is the wire form of the frame, and the payload in it can be read. -/
theorem amqpFrameToBytes_eq_ok (large : 20 ≤ mem.size) (bounded : mem.size < 2 ^ 31)
    (representable : frame.payload.Representable)
    (returned : amqpFrameToBytes frame mem.size mem = .ok count written) :
    written.bytes.take count = frameOctets frame.frameType frame.channel (payloadWire frame) ∧
      count = (payloadWire frame).length + headerSize + footerSize ∧ count ≤ mem.size ∧
      ReadsPayload frame := by
  unfold amqpFrameToBytes at returned
  obtain ⟨_, first, storesType, returned⟩ := Effect.bind_eq_ok.mp returned
  obtain ⟨_, second, storesChannel, returned⟩ := Effect.bind_eq_ok.mp returned
  obtain ⟨size, third, storesPayload, returned⟩ := Effect.bind_eq_ok.mp returned
  obtain ⟨_, fourth, storesSize, returned⟩ := Effect.bind_eq_ok.mp returned
  obtain ⟨_, fifth, storesEnd, finished⟩ := Effect.bind_eq_ok.mp returned
  cases finished
  have typeStored := storeOctets_eq_ok.mp storesType
  have channelStored := storeOctets_eq_ok.mp storesChannel
  have sizeStored := storeOctets_eq_ok.mp storesSize
  have endStored := storeOctets_eq_ok.mp storesEnd
  have sameSize : second.size = mem.size := by
    rw [Buffer.size_of_write? channelStored, Buffer.size_of_write? typeStored]
  rw [← sameSize] at storesPayload large bounded ⊢
  obtain ⟨rfl, payloadStored, reads⟩ := stored_of_payloadToBytes large bounded representable
    storesPayload
  have fits : headerSize + (payloadWire frame).length + 1 ≤ second.size := by
    have room := (Buffer.write?_eq_some_iff.mp endStored).1
    rw [Buffer.size_of_write? sizeStored, Buffer.size_of_write? payloadStored] at room
    exact room
  -- Each piece survives the stores that follow it.
  have start := write?_append typeStored channelStored
  have startHeld : written.Holds 0 (BigEndian.bytes 1 frame.frameType.toNat ++
      BigEndian.bytes 2 frame.channel.toNat) :=
    (((Buffer.holds_of_write? start).write? payloadStored (.inl (by simp [headerSize]))).write?
      sizeStored (.inl (by simp))).write? endStored (.inl (by simp [headerSize]; omega))
  have sizeHeld : written.Holds 3 (BigEndian.bytes 4 (payloadWire frame).length) :=
    (Buffer.holds_of_write? sizeStored).write? endStored (.inl (by simp [headerSize]))
  have payloadHeld : written.Holds headerSize (payloadWire frame) :=
    ((Buffer.holds_of_write? payloadStored).write? sizeStored (.inr (by simp [headerSize]))).write?
      endStored (.inl (Nat.le_refl _))
  have whole : written.Holds 0 (frameOctets frame.frameType frame.channel (payloadWire frame)) := by
    have pieces : frameOctets frame.frameType frame.channel (payloadWire frame) =
        (BigEndian.bytes 1 frame.frameType.toNat ++ BigEndian.bytes 2 frame.channel.toNat) ++
          (BigEndian.bytes 4 (payloadWire frame).length ++
            (payloadWire frame ++ [amqpFrameEnd])) := by
      simp [frameOctets, headerOctets, BigEndian.bytes]
    rw [pieces]
    refine Buffer.holds_append.mpr ⟨startHeld, Buffer.holds_append.mpr ⟨?_,
      Buffer.holds_append.mpr ⟨?_, ?_⟩⟩⟩
    · simpa using sizeHeld
    · simpa [headerSize] using payloadHeld
    · simpa [headerSize] using Buffer.holds_of_write? endStored
  refine ⟨?_, rfl, by simp only [footerSize]; omega, reads⟩
  have octets := whole.2
  rw [length_frameOctets] at octets
  exact octets

/-- A payload that is read as `frame` from any block that holds it. -/
def DecodesTo (frameType : UInt8) (channel : UInt16) (payload : List UInt8) (frame : Frame) : Prop :=
  ∀ ⦃memory : FrameMemory⦄ ⦃raw : Buffer⦄, memory.allocs = [] → raw.Holds headerSize payload →
    payload.length < 2 ^ 32 →
    decodePayload memory raw (payload.length + headerSize + footerSize) frameType channel =
      .ok (.ok (), frame)

/-- An idle connection takes a frame that fits off the front of its input. -/
theorem amqpHandleInput_of_decodes {frameType : UInt8} {channel : UInt16} {payload : List UInt8}
    (rest : List UInt8) (begins : reader.Begins headerSize)
    (decodes : DecodesTo frameType channel payload frame)
    (fits : ((payload.length + headerSize + footerSize : Nat) : Int) ≤ reader.frameMax.toInt)
    (pooled : PoolAvailable memory reader channel)
    (granted : (memory.block (payload.length + headerSize + footerSize)).isSome)
    (allocs : memory.allocs = []) :
    ∃ after, amqpHandleInput memory reader (frameOctets frameType channel payload ++ rest) =
        .ok ⟨after, .ok (frameOctets frameType channel payload).length, frame⟩ ∧
      after.Begins headerSize ∧ after.frameMax = reader.frameMax := by
  have limit := reader.frameMax.toInt_lt
  have admitted : refusal memory reader channel payload.length = none := by
    have unsigned : sizeOfInt reader.frameMax.toInt = reader.frameMax.toInt.toNat :=
      sizeOfInt_of_nonneg (by omega) (by omega)
    simp only [refusal, unsigned, int32Max]
    rw [if_neg (by simp only [headerSize, footerSize] at fits ⊢; omega), if_pos ⟨pooled, granted⟩]
  have small : payload.length < 2 ^ 32 := by omega
  obtain ⟨stale, raw, ready, _, received, handled⟩ := @amqpHandleInput_received _ _ _ frameType _ _
    rest begins (by simp [headerSize]) small admitted
  have held := received.holds (by rw [length_frameOctets]; omega)
  obtain ⟨_, payloadHeld⟩ := Buffer.holds_append.mp held
  obtain ⟨payloadHeld, endHeld⟩ := Buffer.holds_append.mp payloadHeld
  rw [length_headerOctets, Nat.zero_add] at payloadHeld endHeld
  have ended : raw.bytes.slice (payload.length + headerSize) 1 = [amqpFrameEnd] := by
    rw [Nat.add_comm]
    exact endHeld.2
  rw [received.bodyCase_eq (Nat.le_refl _) (by rw [length_frameOctets]; omega), if_pos ended,
    decodes allocs payloadHeld small] at handled
  refine ⟨returnToIdle ready, ?_, ⟨rfl, rfl, rfl, .inl ⟨rfl, rfl⟩⟩, received.frameMax⟩
  rw [handled]
  show Except.ok (Handled.mk (returnToIdle ready) (.ok (intOfSize _)) frame) = _
  rw [intOfSize_of_lt (by rw [length_frameOctets]; omega)]

/-- An encoded frame is read back by a connection that is idle and has the same
`frame_max`, when allocations succeed: all octets are consumed and the
connection is idle again. -/
theorem amqpHandleInput_of_amqpFrameToBytes (begins : reader.Begins headerSize)
    (sameMax : reader.frameMax.toInt = mem.size) (large : 20 ≤ mem.size)
    (representable : frame.payload.Representable)
    (returned : amqpFrameToBytes frame mem.size mem = .ok count written)
    (pooled : PoolAvailable memory reader frame.channel) (granted : (memory.block count).isSome)
    (allocs : memory.allocs = []) :
    ∃ after, amqpHandleInput memory reader (written.bytes.take count) =
        .ok ⟨after, .ok (written.bytes.take count).length, frame.arrived⟩ ∧
      after.Begins headerSize ∧ after.frameMax = reader.frameMax := by
  have bounded : mem.size < 2 ^ 31 := by
    have limit := reader.frameMax.toInt_lt
    omega
  obtain ⟨octets, counted, fits, reads⟩ := amqpFrameToBytes_eq_ok large bounded representable
    returned
  rw [counted] at granted fits
  obtain ⟨after, handled, still⟩ := amqpHandleInput_of_decodes [] begins reads
    (by rw [sameMax]; exact Int.ofNat_le.mpr fits) pooled granted allocs
  rw [List.append_nil, ← octets] at handled
  exact ⟨after, handled, still⟩

end Frames

/-- A `channel.flow` method with `active` set to 7, and a buffer of 20 octets. -/
theorem amqpHandleInput_of_amqpFrameToBytes_flow : ∃ count written after,
    amqpFrameToBytes ⟨amqpFrameMethod, 1, .method 0x00140014 (some (⟨[7], rfl⟩, ()))⟩ 20
        (.zeros 20 (by decide)) = .ok count written ∧
      amqpHandleInput grantingMemory { idleReader with frameMax := 20 } (written.bytes.take count) =
        .ok ⟨after, .ok (written.bytes.take count).length,
          ⟨amqpFrameMethod, 1, .method 0x00140014 (some (⟨[1], rfl⟩, ()))⟩⟩ ∧
      after.state = .idle := by
  have encodes : (match amqpFrameToBytes
      ⟨amqpFrameMethod, 1, .method 0x00140014 (some (⟨[7], rfl⟩, ()))⟩ 20
        (.zeros 20 (by decide)) with
      | .ok count _ => some count
      | .error _ _ => none) = some 13 := by decide +kernel
  cases returned : amqpFrameToBytes
      ⟨amqpFrameMethod, 1, .method 0x00140014 (some (⟨[7], rfl⟩, ()))⟩ 20
        (.zeros 20 (by decide)) with
  | error failure mem =>
      rw [returned] at encodes
      cases encodes
  | ok count written =>
      rw [returned] at encodes
      cases encodes
      obtain ⟨after, handled, idle, _⟩ := @amqpHandleInput_of_amqpFrameToBytes
        ⟨amqpFrameMethod, 1, .method 0x00140014 (some (⟨[7], rfl⟩, ()))⟩ (.zeros 20 (by decide)) _ _
        grantingMemory ({ idleReader with frameMax := 20 }) ⟨rfl, rfl, rfl, .inl ⟨rfl, rfl⟩⟩ rfl
        (Nat.le_refl _) ⟨trivial, trivial⟩ returned (.inr rfl) (by decide) rfl
      exact ⟨_, written, after, rfl, handled, (idle.state.resolve_right (by simp)).1⟩

end RabbitmqC
