import RabbitmqC.Connection.InitialFrame
import RabbitmqC.Lib.Recorded

/-!
# What is read of a payload

Here `raw_frame` is the state of the body case, and a place behind the frame
header can be looked at, or handed to a decoder, only by recording it.
-/

set_option autoImplicit false

namespace RabbitmqC

open Effect Recorded

/-- `raw_frame`, with the places of the payload that were recorded. -/
abbrev RecordedRead := EStateM Fault (Logged Buffer View)

namespace RecordedRead

/-- What is done without the payload. -/
def lift {α : Type} : Except Fault α → RecordedRead α
  | .ok value => pure value
  | .error fault => throw fault

def word (span : View) : RecordedRead Nat := do
  let word ← observe (fun raw => rawWord raw span) fun _ => [span]
  lift word

/-- `encoded`, as a decoder gets it. -/
def handOn (span : View) : RecordedRead Encoded :=
  observe (fun raw => { span with mem := raw }) fun _ => [span]

/-- `body_fragment`, as the application gets it. -/
def fragment (span : View) : RecordedRead (Option (List UInt8)) :=
  observe (fun raw => raw.read? span.base span.len) fun _ => [span]

def methodPayload (memory : FrameMemory) (targetSize : Nat) :
    RecordedRead (Except Status Unit × Payload) := do
  let id ← UInt32.ofNat <$> word methodIdSpan
  let encoded ← handOn (methodSpan targetSize)
  match amqpDecodeMethod id encoded ⟨0, memory.allocs⟩ with
  | .ok decoded _ => return (.ok (), .method id (some decoded))
  | .error (.status status) _ => return (.error status, .method id none)
  | .error (.fault fault) _ => throw fault

def headerPayload (memory : FrameMemory) (targetSize : Nat) :
    RecordedRead (Except Status Unit × Payload) := do
  let classId ← UInt16.ofNat <$> word classIdSpan
  let bodySize ← UInt64.ofNat <$> word bodySizeSpan
  let encoded ← handOn (propertiesSpan targetSize)
  match amqpDecodeProperties classId encoded ⟨0, memory.allocs⟩ with
  | .ok decoded _ =>
      return (.ok (), .properties classId bodySize (some decoded) (propertiesSpan targetSize))
  | .error (.status status) _ =>
      return (.error status, .properties classId bodySize none (propertiesSpan targetSize))
  | .error (.fault fault) _ => throw fault

def bodyPayload (targetSize : Nat) : RecordedRead (Except Status Unit × Payload) := do
  match ← fragment (bodyFragmentSpan targetSize) with
  | some bytes => return (.ok (), .bodyFragment bytes)
  | none => throw .outOfBoundsRead

def decodePayload (memory : FrameMemory) (targetSize : Nat) (frameType : UInt8)
    (channel : UInt16) : RecordedRead (Except Status Unit × Frame) := do
  if frameType = amqpFrameMethod then
    let (result, payload) ← methodPayload memory targetSize
    return (result, ⟨frameType, channel, payload⟩)
  else if frameType = amqpFrameHeader then
    let (result, payload) ← headerPayload memory targetSize
    return (result, ⟨frameType, channel, payload⟩)
  else if frameType = amqpFrameBody then
    let (result, payload) ← bodyPayload targetSize
    return (result, ⟨frameType, channel, payload⟩)
  else if frameType = amqpFrameHeartbeat then
    return (.ok (), ⟨frameType, channel, .none⟩)
  else
    return (.ok (), ⟨0, channel, .none⟩)

def bodyCase (memory : FrameMemory) (reader : Reader) (bytesConsumed : Nat) :
    RecordedRead Handled := do
  let raw ← lift reader.rawFrame
  quiet (set raw)
  let frameEnd ← lift (rawWord raw ⟨sizeSub reader.targetSize 1, 1⟩)
  if frameEnd ≠ amqpFrameEnd.toNat then
    return ⟨reader, .error .badAmqpData, .unset⟩
  else do
    let frameType ← lift (UInt8.ofNat <$> rawWord raw ⟨0, 1⟩)
    let channel ← lift (UInt16.ofNat <$> rawWord raw ⟨1, 2⟩)
    match amqpGetOrCreateChannelPool memory reader channel with
    | none => return ⟨reader, .error .noMemory, ⟨frameType, channel, .none⟩⟩
    | some (reader, _) => do
        let (result, frame) ← decodePayload memory reader.targetSize frameType channel
        match result with
        | .error status => return ⟨reader, .error status, frame⟩
        | .ok () => return ⟨returnToIdle reader, .ok (intOfSize bytesConsumed), frame⟩

def handleInput (memory : FrameMemory) (reader : Reader) (receivedData : List UInt8) :
    RecordedRead Handled := do
  match ← lift (enterInput memory reader receivedData) with
  | .returned handled => return handled
  | .body reader bytesConsumed => bodyCase memory reader bytesConsumed

/-! ## The record -/

section Record

variable {α : Type} {memory : FrameMemory} {targetSize : Nat} {frameType : UInt8}
  {channel : UInt16} {span : View} {spans : List View}

theorem lift_ok {value : α} {logged : Logged Buffer View} :
    lift (.ok value) logged = .ok value logged := rfl

theorem set_rawFrame {raw : Buffer} {logged : Logged Buffer View} :
    (quiet (set raw) : RecordedRead PUnit) logged = .ok ⟨⟩ { logged with state := raw } := rfl

/-- The run is the plain one. It records the places in turn, all of them or up to
one that is not in the memory object. -/
def Records (run : RecordedRead α) (plain : Buffer → Except Fault α) (spans : List View) : Prop :=
  ∀ raw events, ∃ places, run ⟨raw, events⟩ = lift (plain raw) ⟨raw, events ++ places⟩ ∧
    places ⊆ spans ∧ (places = spans ∨ ∃ span ∈ places, raw.size < span.base + span.len)

theorem Records.pure {value : α} : Records (pure value) (fun _ => .ok value) [] :=
  fun _ _ => ⟨[], by rw [List.append_nil]; rfl, List.Subset.refl _, .inl rfl⟩

theorem Records.word_bind {β : Type} {change : Nat → β} {next : β → RecordedRead α}
    {plainNext : β → Buffer → Except Fault α}
    (continues : ∀ value, Records (next value) (plainNext value) spans) :
    Records (change <$> word span >>= next)
      (fun raw => change <$> rawWord raw span >>= fun value => plainNext value raw)
      (span :: spans) := by
  intro raw events
  have noted : word span ⟨raw, events⟩ = lift (rawWord raw span) ⟨raw, events ++ [span]⟩ := rfl
  by_cases inside : span.base + span.len ≤ raw.size
  · have goesOn : (change <$> rawWord raw span >>= fun value => plainNext value raw) =
        plainNext (change (BigEndian.value (raw.bytes.slice span.base span.len))) raw := by
      rw [rawWord_eq inside]
      rfl
    rw [rawWord_eq inside] at noted
    obtain ⟨places, runs, among, ending⟩ := continues
      (change (BigEndian.value (raw.bytes.slice span.base span.len))) raw (events ++ [span])
    refine ⟨span :: places, ?_, List.cons_subset_cons span among, ?_⟩
    · rw [bind_of_ok (map_of_ok noted), runs, List.append_assoc]
      exact congrArg (fun plain => lift plain _) goesOn.symm
    · exact ending.imp (congrArg (span :: ·)) fun ⟨last, member, outside⟩ =>
        ⟨last, List.mem_cons_of_mem _ member, outside⟩
  · have outside : rawWord raw span = .error .outOfBoundsRead := by
      simp only [rawWord, Buffer.read?, if_neg inside]
    have stops : (change <$> rawWord raw span >>= fun value => plainNext value raw) =
        .error .outOfBoundsRead := by
      rw [outside]
      rfl
    rw [outside] at noted
    refine ⟨[span], ?_, by simp, .inr ⟨span, List.mem_singleton_self span, by omega⟩⟩
    rw [bind_of_error (map_of_error noted)]
    exact congrArg (fun plain => lift plain _) stops.symm

theorem Records.handOn_bind {next : Encoded → RecordedRead α} {plain : Buffer → Except Fault α}
    (continues : ∀ raw logged, next { span with mem := raw } logged = lift (plain raw) logged) :
    Records (handOn span >>= next) plain [span] :=
  fun raw events =>
    ⟨[span], continues raw ⟨raw, events ++ [span]⟩, List.Subset.refl _, .inl rfl⟩

theorem methodPayload_records :
    Records (methodPayload memory targetSize) (RabbitmqC.methodPayload memory · targetSize)
      [methodIdSpan, methodSpan targetSize] := by
  refine Records.word_bind fun id => Records.handOn_bind fun raw logged => ?_
  cases amqpDecodeMethod id { methodSpan targetSize with mem := raw } ⟨0, memory.allocs⟩ with
  | ok decoded final => rfl
  | error failure final => cases failure <;> rfl

theorem headerPayload_records :
    Records (headerPayload memory targetSize) (RabbitmqC.headerPayload memory · targetSize)
      [classIdSpan, bodySizeSpan, propertiesSpan targetSize] := by
  refine Records.word_bind fun classId => Records.word_bind fun bodySize =>
    Records.handOn_bind fun raw logged => ?_
  cases amqpDecodeProperties classId { propertiesSpan targetSize with mem := raw }
      ⟨0, memory.allocs⟩ with
  | ok decoded final => rfl
  | error failure final => cases failure <;> rfl

theorem bodyPayload_records :
    Records (bodyPayload targetSize) (RabbitmqC.bodyPayload · targetSize)
      [bodyFragmentSpan targetSize] := by
  intro raw events
  refine ⟨[bodyFragmentSpan targetSize], ?_, List.Subset.refl _, .inl rfl⟩
  have noted : fragment (bodyFragmentSpan targetSize) ⟨raw, events⟩ =
      .ok (raw.read? (bodyFragmentSpan targetSize).base (bodyFragmentSpan targetSize).len)
        ⟨raw, events ++ [bodyFragmentSpan targetSize]⟩ := rfl
  unfold bodyPayload RabbitmqC.bodyPayload
  rw [bind_of_ok noted]
  dsimp only
  cases raw.read? (bodyFragmentSpan targetSize).base (bodyFragmentSpan targetSize).len with
  | none => rfl
  | some bytes => rfl

/-- What is computed from a decoded payload records nothing more. -/
theorem Records.map {β : Type} {run : RecordedRead α} {plain : Buffer → Except Fault α}
    {next : α → RecordedRead β} {plainNext : α → Except Fault β}
    (records : Records run plain spans)
    (continues : ∀ value logged, next value logged = lift (plainNext value) logged) :
    Records (run >>= next) (fun raw => plain raw >>= plainNext) spans := by
  intro raw events
  obtain ⟨places, runs, recorded⟩ := records raw events
  refine ⟨places, ?_, recorded⟩
  dsimp only
  cases result : plain raw with
  | error fault =>
      rw [result] at runs
      rw [bind_of_error runs]
      rfl
  | ok value =>
      rw [result] at runs
      rw [bind_of_ok runs, continues]
      rfl

theorem decodePayload_records :
    Records (decodePayload memory targetSize frameType channel)
      (RabbitmqC.decodePayload memory · targetSize frameType channel)
      (payloadSpans frameType targetSize) := by
  unfold decodePayload RabbitmqC.decodePayload payloadSpans
  split
  · exact methodPayload_records.map fun _ _ => rfl
  split
  · exact headerPayload_records.map fun _ _ => rfl
  split
  · exact bodyPayload_records.map fun _ _ => rfl
  split
  · exact Records.pure
  · exact Records.pure

end Record

/-! ## The whole call -/

section Call

variable {memory : FrameMemory} {reader : Reader} {receivedData : List UInt8} {bytesConsumed : Nat}
  {logged : Logged Buffer View}

theorem bodyCase_outcome :
    outcome (bodyCase memory reader bytesConsumed logged) =
      RabbitmqC.bodyCase memory reader bytesConsumed := by
  unfold bodyCase RabbitmqC.bodyCase
  cases reader.rawFrame with
  | error fault => rfl
  | ok raw =>
  rw [bind_of_ok lift_ok, except_bind_ok, bind_of_ok set_rawFrame]
  cases rawWord raw ⟨sizeSub reader.targetSize 1, 1⟩ with
  | error fault => rfl
  | ok frameEnd =>
  rw [bind_of_ok lift_ok, except_bind_ok]
  split
  · rfl
  cases UInt8.ofNat <$> rawWord raw ⟨0, 1⟩ with
  | error fault => rfl
  | ok frameType =>
  rw [bind_of_ok lift_ok, except_bind_ok]
  cases UInt16.ofNat <$> rawWord raw ⟨1, 2⟩ with
  | error fault => rfl
  | ok channel =>
  rw [bind_of_ok lift_ok, except_bind_ok]
  cases amqpGetOrCreateChannelPool memory reader channel with
  | none => rfl
  | some pooled =>
  obtain ⟨after, isNew⟩ := pooled
  dsimp only
  obtain ⟨places, runs, _⟩ := @decodePayload_records memory after.targetSize frameType channel raw
    logged.events
  dsimp only at runs
  cases decodes : RabbitmqC.decodePayload memory raw after.targetSize frameType channel with
  | error fault =>
      rw [decodes] at runs
      rw [bind_of_error runs]
      rfl
  | ok decoded =>
      rw [decodes] at runs
      rw [bind_of_ok runs, except_bind_ok]
      obtain ⟨result, frame⟩ := decoded
      cases result <;> rfl

/-- Without the record the call is `amqp_handle_input`. -/
theorem handleInput_outcome :
    outcome (handleInput memory reader receivedData logged) =
      amqpHandleInput memory reader receivedData := by
  rw [← enterInput_finish]
  unfold handleInput
  cases enterInput memory reader receivedData with
  | error fault => rfl
  | ok entered =>
      rw [bind_of_ok lift_ok, except_bind_ok]
      cases entered with
      | returned handled => rfl
      | body ready count => exact bodyCase_outcome

end Call

end RecordedRead

/-- The places behind the frame header that a call reads or hands to a decoder.
Until the body case there is no `raw_frame` that matters. -/
def payloadReads (memory : FrameMemory) (reader : Reader) (receivedData : List UInt8) : List View :=
  (endState (RecordedRead.handleInput memory reader receivedData
    ⟨reader.headerBuffer.mem, []⟩)).events

/-! ## Received frames -/

section Received

variable {memory : FrameMemory} {stale mem : Buffer} {reader ready : Reader} {skip : Nat}
  {frameType : UInt8} {channel : UInt16} {payload receivedData : List UInt8} {handled : Handled}

open RecordedRead

theorem payloadReads_of_returned
    (entered : enterInput memory reader receivedData = .ok (.returned handled)) :
    payloadReads memory reader receivedData = [] := by
  unfold payloadReads handleInput
  rw [entered, bind_of_ok lift_ok]
  rfl

/-- The body case records the places of the frame's type, if the frame ends where
it should. -/
theorem Received.payloadReads_eq
    (received : Received stale reader channel (frameOctets frameType channel payload) skip mem ready)
    (header : headerSize ≤ skip) (short : skip ≤ (frameOctets frameType channel payload).length)
    (entered : enterInput memory reader (frameOctets frameType channel payload) =
      .ok (.body ready (frameOctets frameType channel payload).length)) :
    ∃ places, payloadReads memory reader (frameOctets frameType channel payload) =
        (if mem.bytes.slice (payload.length + headerSize) 1 = [amqpFrameEnd] then places else []) ∧
      places ⊆ payloadSpans frameType ready.targetSize ∧
      (places = payloadSpans frameType ready.targetSize ∨
        ∃ span ∈ places, mem.size < span.base + span.len) := by
  obtain ⟨⟨octet, single, endWord⟩, typeWord, channelWord, pool⟩ :=
    @Received.surroundings memory _ _ _ _ _ _ _ _ received header short
  obtain ⟨places, runs, recorded⟩ :=
    @decodePayload_records memory ready.targetSize frameType channel mem []
  refine ⟨places, ?_, recorded⟩
  unfold payloadReads handleInput
  rw [entered, bind_of_ok lift_ok]
  dsimp only
  unfold RecordedRead.bodyCase
  simp only [Reader.rawFrame, received.inbound]
  rw [bind_of_ok lift_ok, bind_of_ok set_rawFrame, endWord, bind_of_ok lift_ok, single]
  by_cases ended : octet = amqpFrameEnd
  · rw [if_neg (by rw [ended]; simp), if_pos (by rw [ended]), typeWord, bind_of_ok lift_ok,
      channelWord, bind_of_ok lift_ok, pool]
    dsimp only
    dsimp only at runs
    cases decodes : RabbitmqC.decodePayload memory mem ready.targetSize frameType channel with
    | error fault =>
        rw [decodes] at runs
        rw [bind_of_error runs]
        rfl
    | ok decoded =>
        rw [decodes] at runs
        rw [bind_of_ok runs]
        obtain ⟨result, frame⟩ := decoded
        cases result <;> rfl
  · rw [if_pos (fun same => ended (UInt8.toNat_inj.mp same)),
      if_neg (fun same => ended (List.head_eq_of_cons_eq same))]
    rfl

/-- The only octet of the first frame behind its header is its last one. It is not
copied, and the block does not happen to hold it. -/
def EndLost (memory : FrameMemory) (reader : Reader) (skip : Nat) (channel : UInt16)
    (payload : List UInt8) : Prop :=
  skip = headerSize + 1 ∧ payload = [] ∧ staleOctet memory reader channel 0 ≠ some amqpFrameEnd

/-- The last octet of a received frame is the frame-end octet, or the frame's end is lost. -/
theorem Received.ends_iff (begins : reader.Begins skip)
    (found : blockFor memory reader channel (frameOctets frameType channel payload).length =
      some stale)
    (received : Received stale reader channel (frameOctets frameType channel payload) skip mem
      ready) :
    mem.bytes.slice (payload.length + headerSize) 1 = [amqpFrameEnd] ↔
      ¬ EndLost memory reader skip channel payload := by
  rcases begins.state with ⟨_, rfl⟩ | ⟨_, rfl⟩
  · obtain ⟨octet, isOctet, held⟩ := received.bytes_of_idle
    rw [slice_last held]
    have kept : ¬ EndLost memory reader headerSize channel payload := fun lost =>
      absurd lost.1 (by decide)
    cases payload with
    | nil =>
        have isEnd : amqpFrameEnd = octet := Option.some.inj isOctet
        simp [isEnd, kept]
    | cons first tail => simp [kept]
  · obtain ⟨octet, isOctet, held⟩ := received.bytes_of_initial
    rw [slice_last held]
    cases payload with
    | nil =>
        have stored : staleOctet memory reader channel 0 = some octet := by
          rw [length_frameOctets, List.length_nil] at found
          unfold staleOctet
          rw [found]
          exact isOctet
        simp [EndLost, stored]
    | cons first tail => simp [EndLost]

end Received

/-- A received frame: what is read of it or handed on lies in its payload, and a
payload without its fixed part is an error. -/
structure Contained (memory : FrameMemory) (reader : Reader) (frameType : UInt8)
    (channel : UInt16) (payload : List UInt8) : Prop where
  inside : ∀ span ∈ payloadReads memory reader (frameOctets frameType channel payload),
    span.InPayload payload.length
  rejected : payload.length < fixedPayload frameType →
    ∃ handled status, amqpHandleInput memory reader (frameOctets frameType channel payload) =
      .ok handled ∧ handled.result = .error status

section Frames

variable {memory : FrameMemory} {reader : Reader} {skip : Nat} {frameType : UInt8}
  {channel : UInt16} {payload : List UInt8}

theorem contained_of_protocol (begins : reader.Begins (headerSize + 1))
    (protocol : (frameOctets frameType channel payload).take 4 = protocolName) :
    fixedPayload frameType = 0 ∧ Contained memory reader frameType channel payload := by
  have spelled : frameType = 65 := by
    have first := congrArg List.head? protocol
    simpa [frameOctets, headerOctets, protocolName] using first
  have nothing : fixedPayload frameType = 0 := by
    rw [spelled]
    rfl
  obtain ⟨handled, returned⟩ := @enterInput_protocol memory _ _ _ _ [] begins protocol
  rw [List.append_nil] at returned
  refine ⟨nothing, ⟨?_, fun short => by omega⟩⟩
  rw [payloadReads_of_returned returned]
  simp

theorem contained_of_refused {status : Status} (begins : reader.Begins skip)
    (regular : skip = headerSize + 1 →
      (frameOctets frameType channel payload).take 4 ≠ protocolName)
    (small : payload.length < 2 ^ 32)
    (refused : refusal memory reader channel payload.length = some status) :
    Contained memory reader frameType channel payload := by
  obtain ⟨after, entered, _⟩ := @enterInput_refused _ _ _ _ _ _ [] _ begins regular small refused
  obtain ⟨_, returned, _⟩ := @amqpHandleInput_refused _ _ _ _ _ _ [] _ begins regular small refused
  rw [List.append_nil] at entered returned
  refine ⟨?_, fun _ => ⟨_, status, returned, rfl⟩⟩
  rw [payloadReads_of_returned entered]
  simp

section Admitted

variable {stale mem : Buffer} {ready : Reader}

theorem Reader.Begins.header_le (begins : reader.Begins skip) : headerSize ≤ skip := by
  rcases begins.state with ⟨_, rfl⟩ | ⟨_, rfl⟩ <;> omega

theorem Reader.Begins.le_frame (begins : reader.Begins skip) :
    skip ≤ (frameOctets frameType channel payload).length := by
  rw [length_frameOctets]
  rcases begins.state with ⟨_, rfl⟩ | ⟨_, rfl⟩ <;> simp only [footerSize] <;> omega

/-- A frame whose end is lost is not read, and refused. -/
theorem contained_of_endLost (begins : reader.Begins skip)
    (found : blockFor memory reader channel (frameOctets frameType channel payload).length =
      some stale)
    (received : Received stale reader channel (frameOctets frameType channel payload) skip mem ready)
    (entered : enterInput memory reader (frameOctets frameType channel payload) =
      .ok (.body ready (frameOctets frameType channel payload).length))
    (lost : EndLost memory reader skip channel payload) :
    Contained memory reader frameType channel payload := by
  have missing := mt (received.ends_iff begins found).mp (not_not_intro lost)
  obtain ⟨places, reads, _⟩ :=
    received.payloadReads_eq begins.header_le begins.le_frame entered
  have returned := @Received.bodyCase_eq memory _ _ _ _ _ _ _ _ received begins.header_le
    begins.le_frame
  rw [if_neg missing] at reads returned
  refine ⟨by simp [reads], fun _ => ⟨⟨ready, .error .badAmqpData, .unset⟩, _, ?_, rfl⟩⟩
  rw [← enterInput_finish, entered]
  exact returned

theorem contained_iff_of_ended (begins : reader.Begins skip) (small : payload.length < 2 ^ 32)
    (found : blockFor memory reader channel (frameOctets frameType channel payload).length =
      some stale)
    (received : Received stale reader channel (frameOctets frameType channel payload) skip mem ready)
    (entered : enterInput memory reader (frameOctets frameType channel payload) =
      .ok (.body ready (frameOctets frameType channel payload).length))
    (kept : ¬ EndLost memory reader skip channel payload) :
    Contained memory reader frameType channel payload ↔
      fixedPayload frameType ≤ payload.length := by
  have spans := @payloadSpans_inPayload payload.length frameType small
  have target : ready.targetSize = payload.length + headerSize + footerSize :=
    received.target.trans length_frameOctets
  obtain ⟨places, reads, among, ending⟩ :=
    received.payloadReads_eq begins.header_le begins.le_frame entered
  rw [if_pos ((received.ends_iff begins found).mpr kept)] at reads
  rw [target] at among ending
  constructor
  · intro contained
    -- What lies in the payload lies in the memory object, so nothing stopped the record.
    have all := ending.resolve_right fun ⟨span, member, outside⟩ => by
      have inside := contained.inside span (by rw [reads]; exact member)
      have stored := received.size.1
      rw [length_frameOctets] at stored
      exact absurd inside.2 (by omega)
    refine spans.mp fun span member => contained.inside span ?_
    rw [reads, all]
    exact member
  · intro fixed
    refine ⟨fun span member => spans.mpr fixed span (among ?_), fun short => by omega⟩
    rwa [reads] at member

end Admitted

/-- A frame keeps to its payload exactly if its header is refused, its payload has
its fixed part or its end is lost. -/
theorem contained_iff (begins : reader.Begins skip) (small : payload.length < 2 ^ 32) :
    Contained memory reader frameType channel payload ↔
      (refusal memory reader channel payload.length = none →
        fixedPayload frameType ≤ payload.length ∨
          EndLost memory reader skip channel payload) := by
  by_cases protocol : skip = headerSize + 1 ∧
      (frameOctets frameType channel payload).take 4 = protocolName
  · obtain ⟨rfl, named⟩ := protocol
    obtain ⟨nothing, contained⟩ := @contained_of_protocol memory _ _ _ _ begins named
    exact ⟨fun _ _ => .inl (by omega), fun _ => contained⟩
  · have regular : skip = headerSize + 1 →
        (frameOctets frameType channel payload).take 4 ≠ protocolName :=
      fun eight named => protocol ⟨eight, named⟩
    cases refused : refusal memory reader channel payload.length with
    | some status =>
        exact ⟨by simp, fun _ => contained_of_refused begins regular small refused⟩
    | none =>
        obtain ⟨stale, mem, ready, found, received, entered⟩ :=
          @enterInput_received _ _ _ _ _ _ [] begins regular small refused
        rw [List.append_nil] at entered
        by_cases lost : EndLost memory reader skip channel payload
        · exact ⟨fun _ _ => .inr lost,
            fun _ => contained_of_endLost begins found received entered lost⟩
        · rw [contained_iff_of_ended begins small found received entered lost]
          exact ⟨fun fixed _ => .inl fixed,
            fun condition => (condition rfl).resolve_right lost⟩

end Frames

/-- `connection.close_ok`, which has no arguments. -/
theorem contained_iff_close_ok :
    Contained grantingMemory idleReader amqpFrameMethod 0 [0, 10, 0, 51] :=
  (contained_iff idleReader_begins (by decide)).mpr fun _ => .inl (by decide)

/-- A content header with nothing but the class id is decoded from octets that
lie behind the frame, and accepted. -/
theorem short_header_not_contained : ¬ ∀ memory reader skip frameType channel payload,
    reader.Begins skip → payload.length < 2 ^ 32 →
      Contained memory reader frameType channel payload := by
  intro contained
  have short := contained grantingMemory idleReader headerSize amqpFrameHeader 1 [0, 60]
    idleReader_begins (by decide)
  obtain ⟨handled, status, returned, failed⟩ := short.rejected (by decide)
  have accepted : octetsTaken (amqpHandleInput grantingMemory idleReader
      (frameOctets amqpFrameHeader 1 [0, 60])) = some 10 := by decide +kernel
  rw [returned, octetsTaken, failed] at accepted
  cases accepted

end RabbitmqC
