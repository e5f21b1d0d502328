import RabbitmqC.Framing.Contained
import RabbitmqC.Connection.FrameStream
import RabbitmqC.Connection.StaleMemory

/-!
# The progress of the reader

A call of `amqp_handle_input` that returns a count has taken one octet at least, and leaves
octets only behind a frame that it has finished. It always returns, unless it decodes a
payload that lacks its fixed part, a list of properties with a third flag word, or a table
with more entries than are counted.
-/

set_option autoImplicit false

namespace RabbitmqC

/-! ## One octet and then the others -/

section Counts

variable {memory : FrameMemory} {reader : Reader} {octet : UInt8} {rest data : List UInt8}
  {handled : Handled} {taken : Int}

/-- A frame is finished. -/
def Handled.Finished (handled : Handled) : Prop :=
  ∃ before, handled.reader = returnToIdle before

/-- An octet that is accepted ends a frame, unless more are to come. -/
theorem OctetAccepted.finished (accepted : OctetAccepted reader octet handled)
    (ends : ¬ handled.unfinished = true) : handled.Finished := by
  cases accepted with
  | buffered stores _ =>
      refine absurd (decide_eq_true ?_) ends
      rw [stores.state]
      exact leaveIdle_state_ne_idle
  | protocol _ _ _ _ => exact ⟨_, rfl⟩
  | header _ _ _ _ begun _ =>
      refine absurd (decide_eq_true ?_) ends
      rw [begun.state]
      decide
  | body _ _ _ => exact ⟨_, rfl⟩
  | emptyBody _ _ _ _ _ _ => exact ⟨_, rfl⟩

/-- A call that returns a count: the first octet ends a frame, or the others were taken by a
call of their own. -/
inductive FirstOctet (memory : FrameMemory) (reader : Reader) (octet : UInt8) (rest : List UInt8)
    (handled : Handled) : Prop where
  | ended : OctetAccepted reader octet handled → handled.Finished →
      FirstOctet memory reader octet rest handled
  | continued {first behind : Handled} {count : Int} : OctetAccepted reader octet first →
      first.unfinished = true → amqpHandleInput memory first.reader rest = .ok behind →
      behind.result = .ok count → handled.reader = behind.reader →
      handled.result = .ok ((1 + count).bmod (2 ^ 32)) →
      FirstOctet memory reader octet rest handled

theorem firstOctet (ready : reader.Ready) (more : rest ≠ [])
    (returned : amqpHandleInput memory reader (octet :: rest) = .ok handled)
    (accepted : handled.result = .ok taken) : FirstOctet memory reader octet rest handled := by
  rw [amqpHandleInput_cons ready more] at returned
  unfold goOn at returned
  obtain ⟨first, front, returned⟩ := Effect.except_bind_eq_ok.mp returned
  by_cases waits : first.unfinished = true
  · rw [if_pos waits] at returned
    cases behind : amqpHandleInput memory first.reader rest with
    | error fault =>
        rw [behind] at returned
        cases returned
    | ok later =>
        rw [behind] at returned
        cases returned
        have octetAccepted := octetAccepted_of_unfinished ready front waits
        unfold Handled.later at accepted
        cases counted : later.result with
        | error status =>
            rw [counted] at accepted
            cases accepted
        | ok count =>
            refine .continued octetAccepted waits behind counted rfl ?_
            unfold Handled.later
            rw [counted]
            rfl
  · rw [if_neg waits] at returned
    cases returned
    have octetAccepted := octetAccepted_of_ok ready front accepted
    exact .ended octetAccepted (octetAccepted.finished waits)

/-- A count is positive and not larger than the buffer or an `int`; behind it there are
octets only if a frame is finished. -/
theorem amqpHandleInput_progress (ready : reader.Ready) (more : data ≠ [])
    (returned : amqpHandleInput memory reader data = .ok handled)
    (accepted : handled.result = .ok taken) :
    ∃ count : Nat, taken = count ∧ 0 < count ∧ count ≤ data.length ∧
      reader.inboundOffset + count ≤ int32Max ∧ (count < data.length → handled.Finished) := by
  have room := ready.room
  have bounded := ready.bounded
  induction data generalizing reader handled taken with
  | nil => exact absurd rfl more
  | cons octet rest ih =>
      by_cases last : rest = []
      · subst last
        have octetAccepted := octetAccepted_of_ok ready returned accepted
        obtain rfl := Except.ok.inj (accepted.symm.trans octetAccepted.result)
        exact ⟨1, rfl, Nat.one_pos, Nat.le_refl 1, by omega, fun less => absurd less (by simp)⟩
      · rw [List.length_cons]
        cases firstOctet ready last returned accepted with
        | ended octetAccepted finished =>
            obtain rfl := Except.ok.inj (accepted.symm.trans octetAccepted.result)
            exact ⟨1, rfl, Nat.one_pos, by omega, by omega, fun _ => finished⟩
        | @continued first behind inner octetAccepted waits later counted same total =>
            have still := octetAccepted.ready ready
            have offset := (octetAccepted.unfinished waits).1
            obtain ⟨count, rfl, positive, within, small, finishes⟩ :=
              ih still last later counted still.room still.bounded
            have narrow : 1 + count < 2 ^ 31 := by
              unfold int32Max at small
              omega
            refine ⟨1 + count, ?_, by omega, by omega, by omega, fun less => ?_⟩
            · rw [Except.ok.inj (accepted.symm.trans total)]
              exact Int.bmod_eq_of_le (by omega) (by omega)
            · obtain ⟨before, idle⟩ := finishes (by omega)
              exact ⟨before, same.trans idle⟩

/-- Calls that return a count keep to the frames. -/
theorem amqpHandleInput_framed (framed : reader.Framed) (more : data ≠ [])
    (returned : amqpHandleInput memory reader data = .ok handled)
    (accepted : handled.result = .ok taken) : handled.reader.Framed := by
  induction data generalizing reader handled taken with
  | nil => exact absurd rfl more
  | cons octet rest ih =>
      by_cases last : rest = []
      · subst last
        exact ((octetAccepted_of_ok framed.ready returned accepted).framed framed).1
      · cases firstOctet framed.ready last returned accepted with
        | ended octetAccepted _ => exact (octetAccepted.framed framed).1
        | continued octetAccepted _ later counted same _ =>
            rw [same]
            exact ih (octetAccepted.framed framed).1 last later counted

end Counts

/-! ## Payloads that can be decoded -/

/-- Behind a frame header and a payload of `size` octets with a class id and a body size there
are two flag words that announce another one each, and a third. -/
structure ThirdFlagWord (octets : List UInt8) (size : Nat) : Prop where
  first : BigEndian.value (octets.slice 19 2) % 2 = 1
  second : BigEndian.value (octets.slice 21 2) % 2 = 1
  third : 18 ≤ size

/-- In some part of the payload a table starts that has more entries than are counted. -/
def ManyEntries (octets : List UInt8) (size : Nat) : Prop :=
  ∃ (encoded : Encoded) (start : Nat), headerSize < encoded.base ∧
    encoded.base + encoded.len ≤ size + headerSize ∧
    octets.slice encoded.base encoded.len = encoded.mem.bytes.slice encoded.base encoded.len ∧
    ContainerOverfull encoded true start

/-- The octets of a frame have what the decoders ask for. -/
structure Decodable (octets : List UInt8) : Prop where
  fixed : fixedPayload (octets.getD 0 0) ≤ headerPayloadSize octets
  flagWords : octets.getD 0 0 = amqpFrameHeader →
    ¬ ThirdFlagWord octets (headerPayloadSize octets)
  few : octets.getD 0 0 = amqpFrameMethod ∨ octets.getD 0 0 = amqpFrameHeader →
    ¬ ManyEntries octets (headerPayloadSize octets)

section Payloads

variable {memory : FrameMemory} {reader : Reader} {raw : Buffer} {size bytesConsumed : Nat}
  {frameType : UInt8} {channel : UInt16}

theorem Encoded.Continues.odd {encoded : Encoded} {offset : Nat}
    (continues : encoded.Continues offset) :
    BigEndian.value (encoded.mem.bytes.slice (encoded.base + offset) 2) % 2 = 1 := by
  obtain ⟨word, found, more⟩ := continues
  obtain ⟨value, read, rfl⟩ := Option.map_eq_some_iff.mp found
  have narrow := Encoded.word?_lt read
  have isValue : value = BigEndian.value (encoded.mem.bytes.slice (encoded.base + offset) 2) := by
    unfold Encoded.word? at read
    split at read
    · obtain ⟨octets, holds, rfl⟩ := Option.map_eq_some_iff.mp read
      obtain ⟨length, _, same⟩ := Buffer.read?_eq_some_iff.mp holds
      rw [← same, length]
    · cases read
  rw [← isValue]
  have low : (UInt16.ofNat value &&& 1).toNat = value % 2 := by
    rw [UInt16.toNat_and, UInt16.toNat_ofNat_of_lt' narrow]
    exact Nat.and_one_is_mod value
  rcases Nat.mod_two_eq_zero_or_one value with even | odd
  · have none : (UInt16.ofNat value &&& 1).toNat = (0 : UInt16).toNat := low.trans even
    exact absurd (UInt16.toNat_inj.mp none) more
  · exact odd

theorem methodPayload_returns (small : size < 2 ^ 32) (stored : headerSize + size ≤ raw.size)
    (fixed : 4 ≤ size) (few : ¬ ManyEntries raw.bytes size) : ∃ result payload,
      methodPayload memory raw (size + headerSize + footerSize) = .ok (result, payload) := by
  have id := @rawWord_eq raw methodIdSpan
    (Nat.le_trans (Nat.add_le_add_left fixed headerSize) stored)
  have len := methodSpan_len fixed small
  have within : (methodSpan (size + headerSize + footerSize)).base +
      (methodSpan (size + headerSize + footerSize)).len ≤ size + headerSize := by
    rw [len]
    simp only [methodSpan]
    omega
  have inside := Nat.le_trans within ((Nat.add_comm _ _).trans_le stored)
  have narrow : (methodSpan (size + headerSize + footerSize)).len < 2 ^ 32 := by
    rw [len]
    omega
  unfold methodPayload
  rw [id]
  dsimp only [Functor.map, Except.map, bind, Except.bind]
  split
  · exact ⟨_, _, rfl⟩
  · exact ⟨_, _, rfl⟩
  · rename_i raised
    have settles := @settles_amqpDecodeMethod
      { methodSpan (size + headerSize + footerSize) with mem := raw } inside narrow
      (fun start full => few ⟨_, start, Nat.lt_add_of_pos_right (by decide), within, rfl, full⟩)
    obtain ⟨status, isStatus⟩ := (settles _).error (Nat.zero_le _) raised
    cases isStatus

theorem headerPayload_returns (small : size < 2 ^ 32) (stored : headerSize + size ≤ raw.size)
    (fixed : 12 ≤ size) (few : ¬ ManyEntries raw.bytes size)
    (notThree : ¬ ThirdFlagWord raw.bytes size) :
    ∃ result payload,
      headerPayload memory raw (size + headerSize + footerSize) = .ok (result, payload) := by
  have classId := @rawWord_eq raw classIdSpan (by simp only [classIdSpan]; omega)
  have bodySize := @rawWord_eq raw bodySizeSpan (by simp only [bodySizeSpan]; omega)
  have len := propertiesSpan_len fixed small
  have within : (propertiesSpan (size + headerSize + footerSize)).base +
      (propertiesSpan (size + headerSize + footerSize)).len ≤ size + headerSize := by
    rw [len]
    simp only [propertiesSpan]
    omega
  have inside := Nat.le_trans within ((Nat.add_comm _ _).trans_le stored)
  have narrow : (propertiesSpan (size + headerSize + footerSize)).len < 2 ^ 32 := by
    rw [len]
    omega
  unfold headerPayload
  rw [classId, bodySize]
  dsimp only [Functor.map, Except.map, bind, Except.bind]
  split
  · exact ⟨_, _, rfl⟩
  · exact ⟨_, _, rfl⟩
  · rename_i raised
    have settles := @amqpDecodeProperties_settles
      { propertiesSpan (size + headerSize + footerSize) with mem := raw } inside narrow
      (fun start full => few ⟨_, start, Nat.lt_add_of_pos_right (by decide), within, rfl, full⟩)
    obtain ⟨status, isStatus⟩ := settles (by
      rintro ⟨first, second, third⟩
      rw [len] at third
      exact notThree ⟨first.odd, second.odd, by omega⟩) raised
    cases isStatus

theorem bodyPayload_returns (small : size < 2 ^ 32) (stored : headerSize + size ≤ raw.size) :
    ∃ result payload,
      bodyPayload raw (size + headerSize + footerSize) = .ok (result, payload) := by
  have len := bodyFragmentSpan_len small
  obtain ⟨octets, read⟩ := @Buffer.read?_isSome raw
    (bodyFragmentSpan (size + headerSize + footerSize)).base
    (bodyFragmentSpan (size + headerSize + footerSize)).len (by
      rw [len]
      exact stored)
  unfold bodyPayload
  rw [read]
  exact ⟨_, _, rfl⟩

/-- A payload with its fixed part is decoded, or refused with a code. -/
theorem decodePayload_returns (small : size < 2 ^ 32) (stored : headerSize + size ≤ raw.size)
    (fixed : fixedPayload frameType ≤ size)
    (flagWords : frameType = amqpFrameHeader → ¬ ThirdFlagWord raw.bytes size)
    (few : frameType = amqpFrameMethod ∨ frameType = amqpFrameHeader →
      ¬ ManyEntries raw.bytes size) :
    ∃ result frame, decodePayload memory raw (size + headerSize + footerSize) frameType channel =
      .ok (result, frame) := by
  unfold decodePayload
  by_cases method : frameType = amqpFrameMethod
  · unfold fixedPayload at fixed
    rw [if_pos method] at fixed
    obtain ⟨result, payload, decoded⟩ := @methodPayload_returns memory _ _ small stored fixed
      (few (.inl method))
    rw [if_pos method, decoded]
    exact ⟨_, _, rfl⟩
  · rw [if_neg method]
    by_cases header : frameType = amqpFrameHeader
    · unfold fixedPayload at fixed
      rw [if_neg method, if_pos header] at fixed
      obtain ⟨result, payload, decoded⟩ :=
        @headerPayload_returns memory _ _ small stored fixed (few (.inr header)) (flagWords header)
      rw [if_pos header, decoded]
      exact ⟨_, _, rfl⟩
    · rw [if_neg header]
      by_cases body : frameType = amqpFrameBody
      · obtain ⟨result, payload, decoded⟩ := bodyPayload_returns small stored
        rw [if_pos body, decoded]
        exact ⟨_, _, rfl⟩
      · rw [if_neg body]
        split
        · exact ⟨_, _, rfl⟩
        · exact ⟨_, _, rfl⟩

theorem value_slice_one {octets : List UInt8} {index : Nat} (inside : index < octets.length) :
    BigEndian.value (octets.slice index 1) = (octets.getD index 0).toNat := by
  have single : octets.slice index 1 = [octets.getD index 0] := by
    rw [List.slice, List.drop_eq_getElem_cons inside, List.getD_eq_getElem?_getD,
      List.getElem?_eq_getElem inside]
    rfl
  rw [single]
  simp [BigEndian.value]

/-- A complete frame is answered if it can be decoded, or does not end as it should. -/
theorem bodyCase_returns {mem : Buffer} {amount : Nat} (placed : reader.inbound = .block mem amount)
    (target : reader.targetSize = size + headerSize + footerSize)
    (fits : reader.targetSize ≤ mem.size) (small : size < 2 ^ 32)
    (fixed : mem.bytes.getD (size + headerSize) 0 = amqpFrameEnd →
      fixedPayload (mem.bytes.getD 0 0) ≤ size)
    (flagWords : mem.bytes.getD (size + headerSize) 0 = amqpFrameEnd →
      mem.bytes.getD 0 0 = amqpFrameHeader → ¬ ThirdFlagWord mem.bytes size)
    (few : mem.bytes.getD (size + headerSize) 0 = amqpFrameEnd →
      mem.bytes.getD 0 0 = amqpFrameMethod ∨ mem.bytes.getD 0 0 = amqpFrameHeader →
        ¬ ManyEntries mem.bytes size) :
    ∃ handled, bodyCase memory reader bytesConsumed = .ok handled := by
  rw [target] at fits
  have last : sizeSub reader.targetSize 1 = size + headerSize := by
    rw [target]
    simp only [sizeSub, headerSize, footerSize]
    omega
  have behind : size + headerSize < mem.bytes.length := fits
  have first : 0 < mem.bytes.length := Nat.zero_lt_of_lt behind
  have ending := @rawWord_eq mem ⟨size + headerSize, 1⟩ behind
  have typeWord := @rawWord_eq mem ⟨0, 1⟩ first
  have channelWord := @rawWord_eq mem ⟨1, 2⟩ (by
    simp only [headerSize, footerSize] at fits ⊢
    omega)
  rw [value_slice_one behind] at ending
  rw [value_slice_one first] at typeWord
  unfold bodyCase Reader.rawFrame
  rw [placed, Effect.except_bind_ok, last, ending, Effect.except_bind_ok]
  by_cases ends : mem.bytes.getD (size + headerSize) 0 = amqpFrameEnd
  · rw [if_neg (not_not.mpr (congrArg UInt8.toNat ends)), typeWord, channelWord]
    simp only [Functor.map, Except.map, Effect.except_bind_ok, UInt8.ofNat_toNat]
    cases pool : amqpGetOrCreateChannelPool memory reader
        (UInt16.ofNat (BigEndian.value (mem.bytes.slice 1 2))) with
    | none => exact ⟨_, rfl⟩
    | some pooled =>
        obtain ⟨pooled, isNew⟩ := pooled
        obtain ⟨_, table, rfl⟩ := amqpGetOrCreateChannelPool_eq_some pool
        have payload : headerSize + size ≤ mem.size := by omega
        obtain ⟨result, frame, decoded⟩ := @decodePayload_returns memory _ _ _
          (UInt16.ofNat (BigEndian.value (mem.bytes.slice 1 2))) small payload (fixed ends)
          (flagWords ends) (few ends)
        dsimp only
        rw [target, decoded, Effect.except_bind_ok]
        cases result with
        | error status => exact ⟨_, rfl⟩
        | ok _ => exact ⟨_, rfl⟩
  · rw [if_pos fun same => ends (UInt8.toNat_inj.mp same)]
    exact ⟨_, rfl⟩

end Payloads

/-! ## Calls that return -/

/-- With `data` behind what is buffered a frame ends that is not refused before it is decoded.
An empty first frame always is: its end is not in the block that is tested. -/
structure Reader.Ends (reader : Reader) (data : List UInt8) : Prop where
  within : reader.state ≠ .body →
    headerPayloadSize (reader.buffered ++ data) + headerSize + footerSize ≤
      sizeOfInt reader.frameMax.toInt
  whole : headerPayloadSize (reader.buffered ++ data) + headerSize + footerSize ≤
    (reader.buffered ++ data).length
  frameEnd : (reader.buffered ++ data).getD
    (headerPayloadSize (reader.buffered ++ data) + headerSize) 0 = amqpFrameEnd
  opening : reader.state = .initial → headerPayloadSize (reader.buffered ++ data) ≠ 0

/-- A frame that ends with `data` can be decoded. -/
def Reader.Decodes (reader : Reader) (data : List UInt8) : Prop :=
  reader.Ends data → Decodable (reader.buffered ++ data)

section Returning

variable {memory : FrameMemory} {reader stored : Reader} {octet : UInt8} {handled : Handled}
  {octets other data rest : List UInt8} {size : Nat}

theorem slice_of_take {count offset width : Nat} (same : octets.take count = other.take count)
    (inside : offset + width ≤ count) : octets.slice offset width = other.slice offset width := by
  have narrowed (values : List UInt8) :
      (values.take count).slice offset width = values.slice offset width := by
    simp only [List.slice, List.drop_take, List.take_take]
    congr 1
    omega
  rw [← narrowed octets, ← narrowed other, same]

theorem getD_of_take {count index : Nat} (same : octets.take count = other.take count)
    (inside : index < count) : octets.getD index 0 = other.getD index 0 := by
  have narrowed (values : List UInt8) : (values.take count).getD index 0 = values.getD index 0 := by
    simp only [List.getD_eq_getElem?_getD, List.getElem?_take, if_pos inside]
  rw [← narrowed octets, ← narrowed other, same]

theorem slice_of_drop {count offset width : Nat} (same : octets.drop count = other.drop count)
    (behind : count ≤ offset) : octets.slice offset width = other.slice offset width := by
  have moved (values : List UInt8) :
      (values.drop count).drop (offset - count) = values.drop offset := by
    rw [List.drop_drop, Nat.add_sub_cancel' behind]
  rw [List.slice, List.slice, ← moved octets, ← moved other, same]

theorem getD_of_drop {count index : Nat} (same : octets.drop count = other.drop count)
    (behind : count ≤ index) : octets.getD index 0 = other.getD index 0 := by
  have moved (values : List UInt8) :
      (values.drop count).getD (index - count) 0 = values.getD index 0 := by
    simp only [List.getD_eq_getElem?_getD, List.getElem?_drop, Nat.add_sub_cancel' behind]
  rw [← moved octets, ← moved other, same]

theorem headerPayloadSize_of_take (same : octets.take headerSize = other.take headerSize) :
    headerPayloadSize octets = headerPayloadSize other :=
  congrArg BigEndian.value (slice_of_take same (by decide))

/-- A list with as many octets as the frame has the flag words of the frame. -/
theorem ThirdFlagWord.of_take (three : ThirdFlagWord octets size)
    (same : octets.take (size + headerSize) = other.take (size + headerSize)) :
    ThirdFlagWord other size := by
  obtain ⟨first, second, third⟩ := three
  refine ⟨?_, ?_, third⟩
  · rw [← slice_of_take same (by simp only [headerSize]; omega)]
    exact first
  · rw [← slice_of_take same (by simp only [headerSize]; omega)]
    exact second

theorem ManyEntries.of_slices (many : ManyEntries octets size)
    (same : ∀ offset width, headerSize < offset → offset + width ≤ size + headerSize →
      octets.slice offset width = other.slice offset width) : ManyEntries other size := by
  obtain ⟨encoded, start, behind, within, octets, full⟩ := many
  exact ⟨encoded, start, behind, within, (same _ _ behind within).symm.trans octets, full⟩

/-- A list with as many octets as the frame has the tables of the frame. -/
theorem ManyEntries.of_take (many : ManyEntries octets size)
    (same : octets.take (size + headerSize) = other.take (size + headerSize)) :
    ManyEntries other size :=
  many.of_slices fun _ _ _ within => slice_of_take same within

/-- The body case, with what the block holds of the frame. -/
theorem bodyCase_of_decodable {mem : Buffer} {amount bytesConsumed : Nat}
    (placed : stored.inbound = .block mem amount) (fits : stored.targetSize ≤ mem.size)
    (target : stored.targetSize = headerPayloadSize octets + headerSize + footerSize)
    (holds : mem.bytes.take stored.targetSize = octets)
    (decodable : octets.getD (headerPayloadSize octets + headerSize) 0 = amqpFrameEnd →
      Decodable octets) : ∃ handled, bodyCase memory stored bytesConsumed = .ok handled := by
  have same : octets.take stored.targetSize = mem.bytes.take stored.targetSize := by
    rw [← holds, List.take_take, Nat.min_self]
  have inPayload : headerPayloadSize octets + headerSize < stored.targetSize := by
    rw [target]
    exact Nat.lt_succ_self _
  have frameEnd := getD_of_take same inPayload
  have frameType := getD_of_take same (Nat.zero_lt_of_lt inPayload)
  have payload := congrArg (List.take (headerPayloadSize octets + headerSize)) holds
  rw [List.take_take, Nat.min_eq_left (Nat.le_of_lt inPayload)] at payload
  apply bodyCase_returns placed target fits (headerPayloadSize_lt octets)
  · intro ends
    rw [← frameType]
    exact (decodable (frameEnd.trans ends)).fixed
  · intro ends header three
    exact (decodable (frameEnd.trans ends)).flagWords (frameType.trans header)
      (three.of_take payload)
  · intro ends tables many
    rw [← frameType] at tables
    exact (decodable (frameEnd.trans ends)).few tables (many.of_take payload)

/-- A complete header is answered: behind a header alone there is no frame to decode yet. -/
theorem headerCase_returns (framed : reader.Framed)
    (stores : Consumed (leaveIdle reader) [octet] stored 1)
    (full : stored.inboundOffset = stored.targetSize) (notBody : stored.state ≠ .body) :
    ∃ handled, headerCase memory stored [] 1 = .ok handled := by
  rcases @headerCase_begins memory _ (stores.invariant.inbound_eq_header notBody) with
    ⟨after, status, refused⟩ | ⟨started, mem, begun, fresh, goesOn⟩
  · exact ⟨_, refused⟩
  · rw [goesOn, readBody_nil (begun.invariant (stores.invariant.offset_le_header notBody))]
    by_cases room : started.inboundOffset < started.targetSize
    · rw [if_pos room]
      exact ⟨_, rfl⟩
    · rw [if_neg room]
      have target := begun.target
      have offset := begun.offset
      -- Only the first frame has an octet more than its header, which ends an empty payload.
      rcases framed.behind_header stores full notBody with short | ⟨long, _, empty⟩
      · simp only [footerSize] at target
        omega
      · have size : headerPayloadSize stored.headerBuffer.bytes = 0 := by
          simp only [footerSize] at target
          omega
        rw [size] at target
        have cleared : mem.bytes.getD (0 + headerSize) 0 ≠ amqpFrameEnd := by
          rw [Nat.zero_add, fresh empty]
          decide
        exact bodyCase_returns begun.inbound target begun.fits (by decide)
          (fun ends => absurd ends cleared) (fun ends => absurd ends cleared)
          (fun ends => absurd ends cleared)

/-- The last octet of a frame is answered. -/
theorem bodyCase_of_complete (framed : reader.Framed)
    (stores : Consumed (leaveIdle reader) [octet] stored 1)
    (full : stored.inboundOffset = stored.targetSize) (inBody : stored.state = .body)
    (decodes : reader.Decodes [octet]) : ∃ handled, bodyCase memory stored 1 = .ok handled := by
  have invariant := leaveIdle_invariant framed.ready.invariant
  have before : reader.state = .body := by
    obtain ⟨_, same, body, _⟩ := leaveIdle_eq reader
    have woken := stores.state
    rw [same, inBody] at woken
    exact body.mp woken.symm
  have buffered := stores.buffered invariant
  have target := stores.targetSize
  rw [leaveIdle_buffered] at buffered
  rw [leaveIdle_target] at target
  obtain ⟨expected, behind, copied⟩ := framed.body before
  have enough : headerSize ≤ reader.buffered.length := by
    rw [framed.ready.invariant.length_buffered]
    exact behind
  have size : headerPayloadSize stored.buffered =
      headerPayloadSize reader.headerBuffer.bytes := by
    apply headerPayloadSize_of_take
    rw [buffered, List.take_append_of_le_length enough, copied]
  have complete := target.trans expected
  rw [← size] at complete
  have placed := stores.invariant.placed
  simp only [Reader.Placed, inBody] at placed
  obtain ⟨mem, amount, block, fits⟩ := placed
  have within : stored.targetSize ≤ mem.size := by
    have targetLe := stores.invariant.sound.target_le
    rw [block] at targetLe
    exact Nat.le_trans targetLe fits
  have holds : mem.bytes.take stored.targetSize = stored.buffered := by
    simp only [Reader.buffered, block, full]
  have whole : stored.buffered.length = stored.targetSize :=
    stores.invariant.length_buffered.trans full
  refine bodyCase_of_decodable block within complete holds fun ends => ?_
  rw [buffered] at complete whole ends ⊢
  exact decodes ⟨fun impossible => absurd before impossible,
    Nat.le_of_eq (complete.symm.trans whole.symm), ends, fun initial => by simp [before] at initial⟩

/-- One octet is answered. -/
theorem octet_returns (framed : reader.Framed) (decodes : reader.Decodes [octet]) :
    ∃ handled, amqpHandleInput memory reader [octet] = .ok handled := by
  obtain ⟨stored, consumed, stores⟩ := consumeData_octet framed.ready octet
  rw [amqpHandleInput_octet consumed]
  by_cases room : stored.inboundOffset < stored.targetSize
  · rw [if_pos room]
    exact ⟨_, rfl⟩
  · rw [if_neg room]
    have full : stored.inboundOffset = stored.targetSize :=
      Nat.le_antisymm stores.invariant.sound.offset_le (Nat.le_of_not_lt room)
    unfold handleComplete
    cases state : stored.state with
    | initial =>
        have notBody : stored.state ≠ .body := by simp [state]
        have placed := stores.invariant.inbound_eq_header notBody
        by_cases named : stored.headerBuffer.bytes.take 4 = protocolName
        · exact ⟨_, initialCase_of_protocol placed named⟩
        · have regular := @initialCase_of_regular memory _ [] 1 placed named
          obtain ⟨handled, returned⟩ := headerCase_returns framed stores full notBody
          exact ⟨handled, regular.trans returned⟩
    | header => exact headerCase_returns framed stores full (by simp [state])
    | body => exact bodyCase_of_complete framed stores full state decodes
    | idle =>
        have woken := stores.state
        rw [state] at woken
        exact absurd woken.symm leaveIdle_state_ne_idle

/-- A frame that ends earlier than the data is the same with less data. -/
theorem Reader.Decodes.front {front : List UInt8} (decodes : reader.Decodes (front ++ rest)) :
    reader.Decodes front := by
  intro ends
  have whole := ends.whole
  have all : reader.buffered ++ (front ++ rest) = reader.buffered ++ front ++ rest :=
    (List.append_assoc _ _ _).symm
  unfold Reader.Decodes at decodes
  have within := ends.within
  have frameEnd := ends.frameEnd
  have opening := ends.opening
  generalize reader.buffered ++ front = octets at *
  have same {count : Nat} (inside : count ≤ octets.length) :
      octets.take count = (octets ++ rest).take count :=
    (List.take_append_of_le_length inside).symm
  have size : headerPayloadSize octets = headerPayloadSize (octets ++ rest) :=
    headerPayloadSize_of_take (same (by simp only [headerSize] at whole ⊢; omega))
  have inFrame : octets.take (headerPayloadSize octets + headerSize + footerSize) =
      (octets ++ rest).take (headerPayloadSize octets + headerSize + footerSize) := same whole
  have frameType : octets.getD 0 0 = (octets ++ rest).getD 0 0 :=
    getD_of_take inFrame (Nat.succ_pos _)
  have decodable : Decodable (octets ++ rest) := by
    rw [← all]
    apply decodes
    constructor
    · rw [all, ← size]
      exact within
    · rw [all, ← size, List.length_append]
      exact Nat.le_trans whole (Nat.le_add_right _ _)
    · rw [all, ← size, ← getD_of_take inFrame (Nat.lt_succ_self _)]
      exact frameEnd
    · rw [all, ← size]
      exact opening
  constructor
  · rw [size, frameType]
    exact decodable.fixed
  · intro header three
    apply decodable.flagWords (frameType.symm.trans header)
    rw [← size]
    exact three.of_take (same (Nat.le_of_succ_le whole))
  · intro tables many
    rw [frameType] at tables
    apply decodable.few tables
    rw [← size]
    exact many.of_take (same (Nat.le_of_succ_le whole))

/-- What is buffered may move on in the same frame. -/
theorem Reader.Decodes.moved (decodes : reader.Decodes data)
    (same : stored.buffered ++ rest = reader.buffered ++ data)
    (within : stored.state = .body → reader.state ≠ .body →
      headerPayloadSize (reader.buffered ++ data) + headerSize + footerSize ≤
        sizeOfInt reader.frameMax.toInt)
    (frameMax : stored.frameMax = reader.frameMax)
    (opening : reader.state = .initial → stored.state = .initial) : stored.Decodes rest := by
  intro ends
  rw [same]
  apply decodes
  constructor
  · intro notBody
    by_cases inBody : stored.state = .body
    · exact within inBody notBody
    · rw [← same, ← frameMax]
      exact ends.within inBody
  · rw [← same]
    exact ends.whole
  · rw [← same]
    exact ends.frameEnd
  · intro initial
    rw [← same]
    exact ends.opening (opening initial)

/-- The octet behind the header of the first frame is not copied with it. -/
theorem Reader.Decodes.opened (decodes : reader.Decodes data)
    (length : (stored.buffered ++ rest).length = (reader.buffered ++ data).length)
    (header : (stored.buffered ++ rest).take headerSize =
      (reader.buffered ++ data).take headerSize)
    (behind : (stored.buffered ++ rest).drop (headerSize + 1) =
      (reader.buffered ++ data).drop (headerSize + 1))
    (nonempty : headerPayloadSize (reader.buffered ++ data) ≠ 0)
    (within : headerPayloadSize (reader.buffered ++ data) + headerSize + footerSize ≤
      sizeOfInt reader.frameMax.toInt) : stored.Decodes rest := by
  intro ends
  have size := headerPayloadSize_of_take header
  have frameType : (stored.buffered ++ rest).getD 0 0 = (reader.buffered ++ data).getD 0 0 :=
    getD_of_take header (by decide)
  have decodable : Decodable (reader.buffered ++ data) := by
    apply decodes
    constructor
    · exact fun _ => within
    · rw [← size, ← length]
      exact ends.whole
    · rw [← getD_of_drop behind (by omega), ← size]
      exact ends.frameEnd
    · exact fun _ => nonempty
  constructor
  · rw [size, frameType]
    exact decodable.fixed
  · intro isHeader three
    apply decodable.flagWords (frameType.symm.trans isHeader)
    rw [← size]
    constructor
    · rw [← slice_of_drop behind (by decide)]
      exact three.first
    · rw [← slice_of_drop behind (by decide)]
      exact three.second
    · exact three.third
  · intro tables many
    rw [frameType] at tables
    apply decodable.few tables
    rw [← size]
    exact many.of_slices fun _ _ after _ => slice_of_drop behind after

/-- What was buffered in front of an octet, the octet, and what is behind it. -/
theorem Consumed.buffered_append (framed : reader.Framed)
    (stores : Consumed (leaveIdle reader) [octet] stored 1) (rest : List UInt8) :
    stored.buffered ++ rest = reader.buffered ++ octet :: rest := by
  rw [stores.buffered (leaveIdle_invariant framed.ready.invariant), leaveIdle_buffered,
    List.append_assoc]
  rfl

/-- A frame that goes on behind its header can be decoded as well. -/
theorem Started.decodes {started : Reader} {mem : Buffer} (begun : Started stored started mem)
    (framed : reader.Framed) (stores : Consumed (leaveIdle reader) [octet] stored 1)
    (full : stored.inboundOffset = stored.targetSize) (notBody : stored.state ≠ .body)
    (room : started.inboundOffset < started.targetSize)
    (decodes : reader.Decodes (octet :: rest)) : started.Decodes rest := by
  have same := stores.buffered_append framed rest
  have placed := stores.invariant.inbound_eq_header notBody
  have storedLength := stores.invariant.length_buffered
  have startedLength :=
    (begun.invariant (stores.invariant.offset_le_header notBody)).length_buffered
  rw [begun.offset] at startedLength
  have position := framed.behind_header stores full notBody
  have complete : headerSize ≤ stored.inboundOffset := by omega
  have storedFront := Nat.le_trans complete (Nat.le_of_eq storedLength.symm)
  have startedFront := Nat.le_trans complete (Nat.le_of_eq startedLength.symm)
  have header : stored.buffered.take headerSize = stored.headerBuffer.bytes.take headerSize := by
    simp only [Reader.buffered, placed, List.take_take, Nat.min_eq_left complete]
  have copied : started.buffered.take headerSize = stored.buffered.take headerSize := by
    rw [begun.buffered complete, begun.headerBuffer, header]
  have size : headerPayloadSize (stored.buffered ++ rest) =
      headerPayloadSize stored.headerBuffer.bytes := by
    apply headerPayloadSize_of_take
    rw [List.take_append_of_le_length storedFront, header]
  have frameMax := stores.frameMax
  obtain ⟨_, woken, _⟩ := leaveIdle_eq reader
  rw [woken] at frameMax
  have within := begun.within
  rw [begun.target, ← size, same, frameMax] at within
  rcases position with short | ⟨long, _, _⟩
  · have unchanged : started.buffered = stored.buffered := by
      rw [short] at storedLength startedLength
      rw [List.take_of_length_le (Nat.le_of_eq startedLength),
        List.take_of_length_le (Nat.le_of_eq storedLength)] at copied
      exact copied
    rw [← unchanged] at same
    refine decodes.moved same (fun _ _ => within) (begun.frameMax.trans frameMax) fun initial => ?_
    have target := stores.targetSize
    rw [leaveIdle_target, (framed.initial initial).1] at target
    omega
  · have target := begun.target
    have offset := begun.offset
    have nonempty : headerPayloadSize (stored.buffered ++ rest) ≠ 0 := by
      simp only [footerSize] at target
      omega
    rw [same] at nonempty
    refine decodes.opened ?_ ?_ ?_ nonempty within
    · rw [← same, List.length_append, List.length_append, startedLength, storedLength]
    · rw [← same, List.take_append_of_le_length startedFront,
        List.take_append_of_le_length storedFront, copied]
    · rw [← same, List.drop_left' (startedLength.trans long),
        List.drop_left' (storedLength.trans long)]

/-- A frame that goes on behind an accepted octet can be decoded as well. -/
theorem OctetAccepted.decodes (accepted : OctetAccepted reader octet handled)
    (framed : reader.Framed) (waits : handled.unfinished = true)
    (decodes : reader.Decodes (octet :: rest)) : handled.reader.Decodes rest := by
  cases accepted with
  | buffered stores _ =>
      obtain ⟨_, woken, body, opening⟩ := leaveIdle_eq reader
      have state := stores.state
      have frameMax := stores.frameMax
      rw [woken] at state frameMax
      apply decodes.moved (stores.buffered_append framed rest) ?_ frameMax
      · intro initial
        exact state.trans (opening.mpr initial)
      · intro inBody notBody
        exact absurd (body.mp (state.symm.trans inBody)) notBody
  | protocol _ _ _ _ => cases waits
  | header stores full notBody _ begun room =>
      exact begun.decodes framed stores full notBody room decodes
  | body _ _ _ => cases waits
  | emptyBody _ _ _ _ _ _ => cases waits

/-- A call whose first frame can be decoded, if it ends in the call, returns. -/
theorem amqpHandleInput_returns (framed : reader.Framed) (more : data ≠ [])
    (decodes : reader.Decodes data) :
    ∃ handled, amqpHandleInput memory reader data = .ok handled := by
  induction data generalizing reader with
  | nil => exact absurd rfl more
  | cons octet rest ih =>
      have first : reader.Decodes [octet] := Reader.Decodes.front decodes
      obtain ⟨handled, front⟩ := @octet_returns memory _ _ framed first
      by_cases last : rest = []
      · rw [last]
        exact ⟨handled, front⟩
      · rw [amqpHandleInput_cons framed.ready last, front]
        unfold goOn
        rw [Effect.except_bind_ok]
        by_cases waits : handled.unfinished = true
        · rw [if_pos waits]
          have accepted := octetAccepted_of_unfinished framed.ready front waits
          obtain ⟨behind, returned⟩ :=
            ih (accepted.framed framed).1 last (accepted.decodes framed waits decodes)
          rw [returned]
          exact ⟨_, rfl⟩
        · rw [if_neg waits]
          exact ⟨_, rfl⟩

end Returning

end RabbitmqC
