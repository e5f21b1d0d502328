import RabbitmqC.Connection.Reader

/-!
# The inbound buffer over whole runs

What `amqp_handle_input` relies on when it copies into `inbound_buffer`: the
octets it still expects fit the block behind that pointer. `target_size` is
overwritten before the tests that can end the call, so the property survives a
call only if these tests pass, or if the new value does no harm.
-/

set_option autoImplicit false

namespace RabbitmqC

/-- The size of the block that `inbound_buffer` points to. -/
def Inbound.size : Inbound → Nat
  | .header => headerSize + 1
  | .block _ amount => amount
  | .null => 0

/-- The reader never expects more than its block has room for. -/
structure Reader.Sound (reader : Reader) : Prop where
  offset_le : reader.inboundOffset ≤ reader.targetSize
  target_le : reader.targetSize ≤ reader.inbound.size

/-- Where `inbound_buffer` points, given the state of the reader. -/
def Reader.Placed (reader : Reader) : Prop :=
  match reader.state with
  | .body => ∃ mem amount, reader.inbound = .block mem amount ∧ amount ≤ mem.size
  | _ => reader.inbound = .header

/-- What every call that fits preserves. -/
structure Reader.Invariant (reader : Reader) : Prop where
  sound : reader.Sound
  placed : reader.Placed

/-! ## Headers that fit -/

def headerChannel (octets : List UInt8) : UInt16 :=
  UInt16.ofNat (BigEndian.value (octets.slice 1 2))

/-- The payload size that frame header octets declare. -/
def headerPayloadSize (octets : List UInt8) : Nat := BigEndian.value (octets.slice 3 4)

/-- The channel has a pool, or gets one. -/
def PoolAvailable (memory : FrameMemory) (reader : Reader) (channel : UInt16) : Prop :=
  channel ∈ reader.poolTable ∨ memory.poolEntry = true

/-- A complete header does no harm: a payload that is not empty is within
`frame_max` and its channel has a pool, and the block is granted if it is asked for. -/
def HeaderFits (memory : FrameMemory) (reader : Reader) (octets : List UInt8) : Prop :=
  let size := headerPayloadSize octets
  size < int32Max →
    (size ≠ 0 → size + headerSize + footerSize ≤ sizeOfInt reader.frameMax.toInt ∧
      PoolAvailable memory reader (headerChannel octets)) ∧
    (size + headerSize + footerSize ≤ sizeOfInt reader.frameMax.toInt →
      PoolAvailable memory reader (headerChannel octets) →
      (memory.block (size + headerSize + footerSize)).isSome)

/-- The header buffer once the call has filled it. -/
def Reader.filledHeader (reader : Reader) (receivedData : List UInt8) : List UInt8 :=
  reader.headerBuffer.bytes.splice reader.inboundOffset
    (receivedData.take (reader.targetSize - reader.inboundOffset))

/-- If the call completes a frame header, the header fits. -/
def CallFits (memory : FrameMemory) (reader : Reader) (receivedData : List UInt8) : Prop :=
  receivedData ≠ [] → reader.state ≠ .body →
    reader.targetSize ≤ reader.inboundOffset + receivedData.length →
    (reader.state = .initial → (reader.filledHeader receivedData).take 4 ≠ protocolName) →
    HeaderFits memory reader (reader.filledHeader receivedData)

/-! ## Copying -/

section Copying

variable {reader : Reader}

theorem Reader.Invariant.size_lt (invariant : reader.Invariant) :
    reader.inbound.size < 2 ^ 63 := by
  have placed := invariant.placed
  unfold Reader.Placed at placed
  split at placed
  · obtain ⟨mem, amount, same, fits⟩ := placed
    have bounded : mem.size < 2 ^ 63 := mem.size_lt
    rw [same]
    simp only [Inbound.size]
    omega
  · rw [placed]
    decide

theorem Reader.Invariant.inbound_eq_header (invariant : reader.Invariant)
    (notBody : reader.state ≠ .body) : reader.inbound = .header := by
  have placed := invariant.placed
  unfold Reader.Placed at placed
  split at placed
  · rename_i inBody
    exact absurd inBody notBody
  · exact placed

/-- What `consume_data` does to a reader that satisfies the invariant. -/
structure Consumed (before : Reader) (receivedData : List UInt8) (after : Reader) (count : Nat) :
    Prop where
  invariant : after.Invariant
  state : after.state = before.state
  frameMax : after.frameMax = before.frameMax
  poolTable : after.poolTable = before.poolTable
  targetSize : after.targetSize = before.targetSize
  count_eq : count = min (before.targetSize - before.inboundOffset) receivedData.length
  offset : after.inboundOffset = before.inboundOffset + count
  header : before.inbound = .header → after.headerBuffer.bytes =
    before.headerBuffer.bytes.splice before.inboundOffset (receivedData.take count)
  block : ∀ mem amount, before.inbound = .block mem amount →
    after.headerBuffer = before.headerBuffer ∧ ∃ written, after.inbound = .block written amount ∧
      written.bytes = mem.bytes.splice before.inboundOffset (receivedData.take count)

theorem consumeData_consumed (invariant : reader.Invariant) (receivedData : List UInt8) :
    ∃ after count, consumeData reader receivedData = .ok (after, count) ∧
      Consumed reader receivedData after count := by
  have bounded := invariant.size_lt
  obtain ⟨⟨offsetLe, targetLe⟩, placed⟩ := invariant
  have expected : sizeSub reader.targetSize reader.inboundOffset =
      reader.targetSize - reader.inboundOffset := sizeSub_of_le offsetLe (by omega)
  unfold consumeData
  simp only [expected]
  generalize counted : min (reader.targetSize - reader.inboundOffset) receivedData.length = count
  have taken : (receivedData.take count).length = count := by
    rw [List.length_take]
    omega
  have moved : sizeAdd reader.inboundOffset count = reader.inboundOffset + count :=
    sizeAdd_of_lt (by omega)
  unfold Reader.Placed at placed
  split at placed
  · rename_i inBody
    obtain ⟨mem, amount, same, fits⟩ := placed
    rw [same] at targetLe
    simp only [Inbound.size] at targetLe
    obtain ⟨written, stored⟩ :=
      @Buffer.write?_isSome mem reader.inboundOffset (receivedData.take count) (by omega)
    refine ⟨{ reader with inbound := .block written amount,
                          inboundOffset := reader.inboundOffset + count }, count, ?_, ?_⟩
    · simp only [Reader.writeInbound, same, stored, Effect.except_bind_ok, moved]
      rfl
    · refine ⟨⟨⟨by simp only; omega, targetLe⟩, ?_⟩, rfl, rfl, rfl, rfl, counted.symm, rfl, ?_, ?_⟩
      · simp only [Reader.Placed, inBody]
        exact ⟨written, amount, rfl, by rw [Buffer.size_of_write? stored]; exact fits⟩
      · rw [same]
        rintro ⟨⟩
      · rw [same]
        rintro _ _ ⟨⟩
        exact ⟨rfl, written, rfl, (Buffer.write?_eq_some_iff.mp stored).2⟩
  · rename_i state notBody
    rw [placed] at targetLe
    simp only [Inbound.size] at targetLe
    have fits : reader.inboundOffset + (receivedData.take count).length ≤ headerSize + 1 := by omega
    refine ⟨{ reader with headerBuffer := ⟨reader.headerBuffer.bytes.splice reader.inboundOffset
                            (receivedData.take count), ?_⟩,
                          inboundOffset := reader.inboundOffset + count }, count, ?_, ?_⟩
    · rw [List.length_splice (by rw [reader.headerBuffer.length_eq]; exact fits),
        reader.headerBuffer.length_eq]
    · simp only [Reader.writeInbound, placed, HeaderBuffer.write?, dif_pos fits,
        Effect.except_bind_ok, moved]
      rfl
    · refine ⟨⟨⟨by simp only; omega, by simp only [placed]; exact targetLe⟩, ?_⟩, rfl, rfl, rfl, rfl,
        counted.symm, rfl, fun _ => rfl, ?_⟩
      · unfold Reader.Placed
        split
        · rename_i inBody
          exact absurd inBody notBody
        · exact placed
      · rw [placed]
        rintro _ _ ⟨⟩

end Copying

/-! ## The body case -/

section Body

variable {memory : FrameMemory} {reader : Reader} {bytesConsumed : Nat} {handled : Handled}

theorem amqpGetOrCreateChannelPool_eq_some {channel : UInt16} {after : Reader} {isNew : Bool}
    (found : amqpGetOrCreateChannelPool memory reader channel = some (after, isNew)) :
    PoolAvailable memory reader channel ∧ ∃ table, after = { reader with poolTable := table } := by
  unfold amqpGetOrCreateChannelPool at found
  split at found
  · rename_i member
    cases found
    exact ⟨.inl member, reader.poolTable, rfl⟩
  · split at found
    · rename_i granted
      cases found
      exact ⟨.inr granted, _, rfl⟩
    · cases found

theorem amqpGetOrCreateChannelPool_eq_none {channel : UInt16}
    (failed : amqpGetOrCreateChannelPool memory reader channel = none) :
    ¬ PoolAvailable memory reader channel := by
  unfold amqpGetOrCreateChannelPool at failed
  split at failed
  · cases failed
  · rename_i absent
    split at failed
    · cases failed
    · rename_i refused
      rintro (member | granted)
      · exact absent member
      · exact refused granted

/-- The body case leaves the reader alone, but for the pool table, or idle. -/
theorem bodyCase_reader (returned : bodyCase memory reader bytesConsumed = .ok handled) :
    ∃ table, handled.reader = { reader with poolTable := table } ∨
      handled.reader = returnToIdle { reader with poolTable := table } := by
  unfold bodyCase at returned
  obtain ⟨raw, _, returned⟩ := Effect.except_bind_eq_ok.mp returned
  obtain ⟨frameEnd, _, returned⟩ := Effect.except_bind_eq_ok.mp returned
  split at returned
  · cases returned
    exact ⟨reader.poolTable, .inl rfl⟩
  · obtain ⟨frameType, _, returned⟩ := Effect.except_bind_eq_ok.mp returned
    obtain ⟨channel, _, returned⟩ := Effect.except_bind_eq_ok.mp returned
    split at returned
    · cases returned
      exact ⟨reader.poolTable, .inl rfl⟩
    · rename_i after isNew found
      obtain ⟨_, table, rfl⟩ := amqpGetOrCreateChannelPool_eq_some found
      obtain ⟨⟨result, frame⟩, _, returned⟩ := Effect.except_bind_eq_ok.mp returned
      cases result with
      | error status =>
          cases returned
          exact ⟨table, .inl rfl⟩
      | ok value =>
          cases returned
          exact ⟨table, .inr rfl⟩

theorem returnToIdle_invariant (reader : Reader) : (returnToIdle reader).Invariant :=
  ⟨⟨Nat.zero_le _, Nat.le_succ headerSize⟩, rfl⟩

theorem bodyCase_invariant (invariant : reader.Invariant)
    (returned : bodyCase memory reader bytesConsumed = .ok handled) :
    handled.reader.Invariant := by
  obtain ⟨table, same | same⟩ := bodyCase_reader returned
  · rw [same]
    exact ⟨⟨invariant.sound.offset_le, invariant.sound.target_le⟩, invariant.placed⟩
  · rw [same]
    exact returnToIdle_invariant _

/-- Nothing is written while a frame is decoded. -/
theorem rawWord_ne_overrun {raw : Buffer} {span : View} :
    rawWord raw span ≠ .error .outOfBoundsWrite := by
  unfold rawWord
  split <;> simp

theorem map_rawWord_ne_overrun {α : Type} {change : Nat → α} {raw : Buffer} {span : View} :
    change <$> rawWord raw span ≠ .error .outOfBoundsWrite := by
  unfold rawWord
  split <;> simp [Functor.map, Except.map]

theorem rawFrame_ne_overrun : reader.rawFrame ≠ .error .outOfBoundsWrite := by
  unfold Reader.rawFrame
  split <;> simp

private theorem methodPayload_ne_overrun {raw : Buffer} {targetSize : Nat} :
    methodPayload memory raw targetSize ≠ .error .outOfBoundsWrite := by
  intro raised
  unfold methodPayload at raised
  rcases Effect.except_bind_eq_error.mp raised with early | ⟨id, _, late⟩
  · exact map_rawWord_ne_overrun early
  · split at late
    · cases late
    · cases late
    · rename_i fault final decoded
      cases late
      exact (tame_amqpDecodeMethod _).readsOnly decoded

private theorem headerPayload_ne_overrun {raw : Buffer} {targetSize : Nat} :
    headerPayload memory raw targetSize ≠ .error .outOfBoundsWrite := by
  intro raised
  unfold headerPayload at raised
  rcases Effect.except_bind_eq_error.mp raised with early | ⟨classId, _, raised⟩
  · exact map_rawWord_ne_overrun early
  · rcases Effect.except_bind_eq_error.mp raised with early | ⟨bodySize, _, late⟩
    · exact map_rawWord_ne_overrun early
    · split at late
      · cases late
      · cases late
      · rename_i fault final decoded
        cases late
        exact (tame_amqpDecodeProperties _).readsOnly decoded

private theorem decodePayload_ne_overrun {raw : Buffer} {targetSize : Nat} {frameType : UInt8}
    {channel : UInt16} :
    decodePayload memory raw targetSize frameType channel ≠ .error .outOfBoundsWrite := by
  intro raised
  unfold decodePayload at raised
  split at raised
  · rcases Effect.except_bind_eq_error.mp raised with early | ⟨_, _, late⟩
    · exact methodPayload_ne_overrun early
    · cases late
  · split at raised
    · rcases Effect.except_bind_eq_error.mp raised with early | ⟨_, _, late⟩
      · exact headerPayload_ne_overrun early
      · cases late
    · split at raised
      · rcases Effect.except_bind_eq_error.mp raised with early | ⟨_, _, late⟩
        · unfold bodyPayload at early
          split at early <;> cases early
        · cases late
      · split at raised <;> cases raised

theorem bodyCase_ne_overrun : bodyCase memory reader bytesConsumed ≠ .error .outOfBoundsWrite := by
  intro raised
  unfold bodyCase at raised
  rcases Effect.except_bind_eq_error.mp raised with early | ⟨raw, _, raised⟩
  · exact rawFrame_ne_overrun early
  · rcases Effect.except_bind_eq_error.mp raised with early | ⟨frameEnd, _, raised⟩
    · exact rawWord_ne_overrun early
    · split at raised
      · cases raised
      · rcases Effect.except_bind_eq_error.mp raised with early | ⟨frameType, _, raised⟩
        · exact map_rawWord_ne_overrun early
        · rcases Effect.except_bind_eq_error.mp raised with early | ⟨channel, _, raised⟩
          · exact map_rawWord_ne_overrun early
          · split at raised
            · cases raised
            · rcases Effect.except_bind_eq_error.mp raised with early | ⟨⟨result, frame⟩, _, late⟩
              · exact decodePayload_ne_overrun early
              · cases result with
                | error status => cases late
                | ok value => cases late

end Body

/-! ## The header case -/

section Header

variable {memory : FrameMemory} {reader : Reader} {receivedData : List UInt8}
  {bytesConsumed : Nat} {handled : Handled}

theorem rawWord_eq {raw : Buffer} {span : View} (inside : span.base + span.len ≤ raw.size) :
    rawWord raw span = .ok (BigEndian.value (raw.bytes.slice span.base span.len)) := by
  simp only [rawWord, Buffer.read?, if_pos inside]

/-- A word of the header buffer, which is long enough for all of them. -/
theorem HeaderBuffer.rawWord_eq (buffer : HeaderBuffer) {span : View}
    (inside : span.base + span.len ≤ headerSize + 1) :
    rawWord buffer.mem span = .ok (BigEndian.value (buffer.bytes.slice span.base span.len)) := by
  refine RabbitmqC.rawWord_eq ?_
  simp only [Buffer.size, HeaderBuffer.mem, buffer.length_eq]
  exact inside

theorem HeaderBuffer.octet_read (buffer : HeaderBuffer) {base : Nat} (inside : base < 8) :
    ∃ octet, UInt8.ofNat <$> rawWord buffer.mem ⟨base, 1⟩ = .ok octet := by
  rw [buffer.rawWord_eq (by simp only [headerSize]; omega)]
  exact ⟨_, rfl⟩

/-- The header case, with the words it reads made explicit. -/
theorem headerCase_eq (placed : reader.inbound = .header) :
    headerCase memory reader receivedData bytesConsumed =
      (if headerPayloadSize reader.headerBuffer.bytes ≥ int32Max then
        .ok ⟨reader, .error .badAmqpData, .unset⟩
      else
        let expecting := expectFrame reader (headerPayloadSize reader.headerBuffer.bytes)
        if sizeOfInt reader.frameMax.toInt < expecting.targetSize then
          .ok ⟨expecting, .error .badAmqpData, .unset⟩
        else
          match amqpGetOrCreateChannelPool memory expecting
              (headerChannel reader.headerBuffer.bytes) with
          | none => .ok ⟨expecting, .error .noMemory, .unset⟩
          | some (pooled, isNew) =>
              match memory.block pooled.targetSize with
              | none => .ok ⟨{ pooled with inbound := .null }, .error .noMemory, .unset⟩
              | some block =>
                  startBody pooled isNew block >>= fun started =>
                    readBody memory started receivedData bytesConsumed) := by
  have channelWord := @HeaderBuffer.rawWord_eq reader.headerBuffer ⟨1, 2⟩ (by decide)
  have sizeWord := @HeaderBuffer.rawWord_eq reader.headerBuffer ⟨3, 4⟩ (by decide)
  unfold headerCase
  simp only [Reader.rawFrame, placed, Effect.except_bind_ok, channelWord, sizeWord]
  rfl

/-- What `headerCase` can do: it refuses the frame, or takes a block and goes on to the body. -/
inductive HeaderRead (memory : FrameMemory) (reader : Reader) (receivedData : List UInt8)
    (bytesConsumed : Nat) (handled : Handled) : Prop where
  | refused (refusing : Reader) (status : Status) :
      refusing.state = reader.state →
      (headerSize ≤ reader.targetSize → headerSize ≤ refusing.targetSize) →
      (refusing.inbound = reader.inbound ∨ refusing.inbound = .null) →
      handled = ⟨refusing, .error status, .unset⟩ →
      HeaderRead memory reader receivedData bytesConsumed handled
  | taken (frameSize : Nat) (poolTable : List UInt16) (isNew : Bool) {amount : Nat}
      (block : PoolBlock amount) (started : Reader) :
      startBody { expectFrame reader frameSize with poolTable := poolTable } isNew block =
        .ok started →
      readBody memory started receivedData bytesConsumed = .ok handled →
      HeaderRead memory reader receivedData bytesConsumed handled

theorem headerCase_eq_ok
    (returned : headerCase memory reader receivedData bytesConsumed = .ok handled) :
    HeaderRead memory reader receivedData bytesConsumed handled := by
  have long (size : Nat) : headerSize ≤ (expectFrame reader size).targetSize :=
    Nat.le_trans (Nat.le_add_left _ _) (Nat.le_add_right _ _)
  unfold headerCase at returned
  obtain ⟨raw, _, returned⟩ := Effect.except_bind_eq_ok.mp returned
  obtain ⟨channel, _, returned⟩ := Effect.except_bind_eq_ok.mp returned
  obtain ⟨frameSize, _, returned⟩ := Effect.except_bind_eq_ok.mp returned
  split at returned
  · exact .refused reader _ rfl id (.inl rfl) (Except.ok.inj returned).symm
  split at returned
  · exact .refused (expectFrame reader frameSize) _ rfl (fun _ => long frameSize) (.inl rfl)
      (Except.ok.inj returned).symm
  split at returned
  · exact .refused (expectFrame reader frameSize) _ rfl (fun _ => long frameSize) (.inl rfl)
      (Except.ok.inj returned).symm
  rename_i pooled isNew found
  obtain ⟨_, table, rfl⟩ := amqpGetOrCreateChannelPool_eq_some found
  split at returned
  · exact .refused { expectFrame reader frameSize with poolTable := table, inbound := .null } _ rfl
      (fun _ => long frameSize) (.inr rfl) (Except.ok.inj returned).symm
  · rename_i block _
    obtain ⟨started, begun, returned⟩ := Effect.except_bind_eq_ok.mp returned
    exact .taken frameSize table isNew block started begun returned

theorem readBody_invariant (invariant : reader.Invariant)
    (returned : readBody memory reader receivedData bytesConsumed = .ok handled) :
    handled.reader.Invariant := by
  obtain ⟨after, count, consumed, spec⟩ := consumeData_consumed invariant receivedData
  unfold readBody at returned
  rw [consumed, Effect.except_bind_ok] at returned
  dsimp only at returned
  split at returned
  · cases returned
    exact spec.invariant
  · exact bodyCase_invariant spec.invariant returned

theorem readBody_ne_overrun (invariant : reader.Invariant) :
    readBody memory reader receivedData bytesConsumed ≠ .error .outOfBoundsWrite := by
  obtain ⟨after, count, consumed, spec⟩ := consumeData_consumed invariant receivedData
  unfold readBody
  rw [consumed, Effect.except_bind_ok]
  dsimp only
  split
  · rintro ⟨⟩
  · exact bodyCase_ne_overrun

/-- The memory object of a block, as its pool hands it out. -/
def PoolBlock.contents {amount : Nat} (block : PoolBlock amount) (isNew : Bool) : Buffer :=
  if isNew then block.mem.clear else block.mem

theorem PoolBlock.amount_le_contents {amount : Nat} (block : PoolBlock amount) (isNew : Bool) :
    amount ≤ (block.contents isNew).size := by
  unfold PoolBlock.contents
  split
  · rw [Buffer.size_clear]
    exact block.amount_le
  · exact block.amount_le

/-- The copy of the header always fits the block, and the reader then points to it. -/
theorem startBody_eq (isNew : Bool) (block : PoolBlock reader.targetSize)
    (minimal : headerSize ≤ reader.targetSize) :
    ∃ written : Buffer, startBody reader isNew block =
        .ok { reader with inbound := .block written reader.targetSize, state := .body } ∧
      written.size = (block.contents isNew).size ∧
      written.bytes =
        (block.contents isNew).bytes.splice 0 (reader.headerBuffer.bytes.take headerSize) := by
  have copied : (reader.headerBuffer.bytes.take headerSize).length = headerSize := by
    rw [List.length_take, reader.headerBuffer.length_eq]
    decide
  obtain ⟨written, stored⟩ := @Buffer.write?_isSome (block.contents isNew) 0 (reader.headerBuffer.bytes.take headerSize) (by
      have fits := block.amount_le_contents isNew
      omega)
  refine ⟨written, ?_, Buffer.size_of_write? stored, (Buffer.write?_eq_some_iff.mp stored).2⟩
  unfold PoolBlock.contents at stored
  simp only [startBody, stored]

theorem startBody_invariant {isNew : Bool} (block : PoolBlock reader.targetSize)
    (offset_le : reader.inboundOffset ≤ reader.targetSize)
    (minimal : headerSize ≤ reader.targetSize) :
    ∃ started, startBody reader isNew block = .ok started ∧ started.Invariant := by
  obtain ⟨written, started, size, _⟩ := startBody_eq isNew block minimal
  refine ⟨_, started, ⟨offset_le, Nat.le_refl _⟩, written, reader.targetSize, rfl, ?_⟩
  rw [size]
  exact block.amount_le_contents isNew

/-- The header case keeps the invariant and stays inside its blocks if the
header in the buffer fits. -/
theorem headerCase_invariant (invariant : reader.Invariant) (notBody : reader.state ≠ .body)
    (complete : reader.targetSize ≤ reader.inboundOffset)
    (fits : HeaderFits memory reader reader.headerBuffer.bytes) :
    headerCase memory reader receivedData bytesConsumed ≠ .error .outOfBoundsWrite ∧
      ∀ handled, headerCase memory reader receivedData bytesConsumed = .ok handled →
        handled.reader.Invariant := by
  have placed := invariant.inbound_eq_header notBody
  have offsetLe := invariant.sound.offset_le
  have targetLe := invariant.sound.target_le
  rw [placed] at targetLe
  simp only [Inbound.size] at targetLe
  generalize sized : headerPayloadSize reader.headerBuffer.bytes = size at *
  -- An early exit leaves a reader that expects `size + 8` octets in the header buffer.
  have stays : size = 0 → (expectFrame reader size).Invariant := by
    rintro rfl
    refine ⟨⟨?_, by simp only [expectFrame, placed, Inbound.size]; decide⟩, ?_⟩
    · simp only [expectFrame, headerSize, footerSize] at *
      omega
    · exact invariant.placed
  rw [headerCase_eq placed, sized]
  dsimp only
  split
  · refine ⟨by simp, ?_⟩
    rintro _ ⟨⟩
    exact invariant
  · rename_i small
    unfold HeaderFits at fits
    simp only [sized] at fits
    obtain ⟨nonempty, granted⟩ := fits (by omega)
    split
    · rename_i large
      refine ⟨by simp, ?_⟩
      rintro _ ⟨⟩
      refine stays (by_contra fun positive => ?_)
      have bounded := (nonempty positive).1
      simp only [expectFrame] at large
      omega
    · rename_i within
      split
      · rename_i failed
        refine ⟨by simp, ?_⟩
        rintro _ ⟨⟩
        refine stays (by_contra fun positive => ?_)
        exact amqpGetOrCreateChannelPool_eq_none failed (nonempty positive).2
      · rename_i pooled isNew found
        obtain ⟨available, table, rfl⟩ := amqpGetOrCreateChannelPool_eq_some found
        have present := granted (by simp only [expectFrame] at within; omega) available
        split
        · rename_i refused
          subst sized
          simp only [expectFrame] at refused
          rw [refused] at present
          cases present
        · rename_i block _
          obtain ⟨started, copied, startedInvariant⟩ := startBody_invariant block
            (by simp only [expectFrame, headerSize, footerSize] at *; omega)
            (by simp only [expectFrame, headerSize, footerSize]; omega)
          rw [copied, Effect.except_bind_ok]
          exact ⟨readBody_ne_overrun startedInvariant, fun _ => readBody_invariant startedInvariant⟩

end Header

/-! ## One call -/

section Call

variable {memory : FrameMemory} {reader : Reader} {receivedData : List UInt8} {handled : Handled}

theorem leaveIdle_invariant (invariant : reader.Invariant) : (leaveIdle reader).Invariant := by
  unfold leaveIdle
  split
  · rename_i idle
    refine ⟨⟨invariant.sound.offset_le, invariant.sound.target_le⟩, ?_⟩
    have placed := invariant.placed
    simp only [Reader.Placed, idle] at placed ⊢
    exact placed
  · exact invariant

theorem leaveIdle_state_ne_idle : (leaveIdle reader).state ≠ .idle := by
  unfold leaveIdle
  split
  · simp
  · assumption

theorem leaveIdle_eq (reader : Reader) :
    ∃ state, leaveIdle reader = { reader with state := state } ∧
      (state = .body ↔ reader.state = .body) ∧ (state = .initial ↔ reader.state = .initial) := by
  unfold leaveIdle
  split
  · rename_i idle
    exact ⟨.header, rfl, by simp [idle], by simp [idle]⟩
  · exact ⟨reader.state, rfl, Iff.rfl, Iff.rfl⟩

/-- The octets that are compared with the name of the protocol. -/
theorem HeaderBuffer.read?_four (buffer : HeaderBuffer) :
    buffer.mem.read? 0 4 = some (buffer.bytes.take 4) := by
  have long : 0 + 4 ≤ buffer.mem.size := by
    simp only [Buffer.size, HeaderBuffer.mem, buffer.length_eq]
    decide
  simp only [Buffer.read?, if_pos long]
  rfl

/-- The initial case, for octets that are no protocol header. -/
theorem initialCase_of_regular {bytesConsumed : Nat} (placed : reader.inbound = .header)
    (regular : reader.headerBuffer.bytes.take 4 ≠ protocolName) :
    initialCase memory reader receivedData bytesConsumed =
      headerCase memory reader receivedData bytesConsumed := by
  unfold initialCase
  simp only [Reader.rawFrame, placed, Effect.except_bind_ok, reader.headerBuffer.read?_four,
    if_neg regular]

private theorem initialCase_invariant {bytesConsumed : Nat} (invariant : reader.Invariant)
    (initial : reader.state = .initial) (complete : reader.targetSize ≤ reader.inboundOffset)
    (fits : reader.headerBuffer.bytes.take 4 ≠ protocolName →
      HeaderFits memory reader reader.headerBuffer.bytes) :
    initialCase memory reader receivedData bytesConsumed ≠ .error .outOfBoundsWrite ∧
      ∀ handled, initialCase memory reader receivedData bytesConsumed = .ok handled →
        handled.reader.Invariant := by
  have placed := invariant.inbound_eq_header (by simp [initial])
  by_cases named : reader.headerBuffer.bytes.take 4 = protocolName
  · obtain ⟨high, highRead⟩ := reader.headerBuffer.octet_read (show 4 < 8 by omega)
    obtain ⟨low, lowRead⟩ := reader.headerBuffer.octet_read (show 5 < 8 by omega)
    obtain ⟨major, majorRead⟩ := reader.headerBuffer.octet_read (show 6 < 8 by omega)
    obtain ⟨minor, minorRead⟩ := reader.headerBuffer.octet_read (show 7 < 8 by omega)
    unfold initialCase
    simp only [Reader.rawFrame, placed, Effect.except_bind_ok, reader.headerBuffer.read?_four,
      if_pos named, highRead, lowRead, majorRead, minorRead]
    refine ⟨by rintro ⟨⟩, ?_⟩
    rintro _ ⟨⟩
    exact returnToIdle_invariant reader
  · rw [initialCase_of_regular placed named]
    exact headerCase_invariant invariant (by simp [initial]) complete (fits named)

/-- A call that fits keeps the invariant and never copies past a block. -/
theorem amqpHandleInput_invariant (invariant : reader.Invariant)
    (fits : CallFits memory reader receivedData) :
    amqpHandleInput memory reader receivedData ≠ .error .outOfBoundsWrite ∧
      ∀ handled, amqpHandleInput memory reader receivedData = .ok handled →
        handled.reader.Invariant := by
  unfold amqpHandleInput
  split
  · refine ⟨by rintro ⟨⟩, ?_⟩
    rintro _ ⟨⟩
    exact invariant
  · rename_i nonempty
    obtain ⟨after, count, consumed, spec⟩ :=
      consumeData_consumed (leaveIdle_invariant invariant) receivedData
    obtain ⟨state, left, sameBody, sameInitial⟩ := leaveIdle_eq reader
    have offsetLe := invariant.sound.offset_le
    rw [consumed, Effect.except_bind_ok]
    dsimp only
    split
    · refine ⟨by rintro ⟨⟩, ?_⟩
      rintro _ ⟨⟩
      exact spec.invariant
    · rename_i complete
      have counted := spec.count_eq
      have moved := spec.offset
      have target := spec.targetSize
      rw [left] at counted moved target
      dsimp only at counted moved target
      -- The buffer now holds the header that `CallFits` speaks of.
      have filled : after.state ≠ .body →
          after.headerBuffer.bytes = reader.filledHeader receivedData := by
        intro notBody
        have placed := (leaveIdle_invariant invariant).inbound_eq_header
          (by rw [← spec.state]; exact notBody)
        rw [spec.header placed, left, Reader.filledHeader, counted]
        congr 2
        omega
      have header : after.state ≠ .body → (after.state = .initial →
          after.headerBuffer.bytes.take 4 ≠ protocolName) →
          HeaderFits memory after after.headerBuffer.bytes := by
        intro notBody other
        have sameState : after.state = state := by rw [spec.state, left]
        rw [filled notBody] at other ⊢
        have original := fits (by
            rintro rfl
            exact nonempty rfl) (fun inBody => notBody (sameState.trans (sameBody.mpr inBody)))
          (by omega) (fun initial => other (sameState.trans (sameInitial.mpr initial)))
        unfold HeaderFits PoolAvailable at original ⊢
        rw [spec.frameMax, spec.poolTable, left]
        exact original
      have notIdle : after.state ≠ .idle := by
        rw [spec.state]
        exact leaveIdle_state_ne_idle
      unfold handleComplete
      split
      · rename_i initial
        exact initialCase_invariant spec.invariant initial (by omega)
          (fun other => header (by simp [initial]) (fun _ => other))
      · rename_i inHeader
        exact headerCase_invariant spec.invariant (by simp [inHeader]) (by omega)
          (header (by simp [inHeader]) (fun initial => by simp [inHeader] at initial))
      · exact ⟨bodyCase_ne_overrun, fun _ => bodyCase_invariant spec.invariant⟩
      · rename_i idle
        exact absurd idle notIdle

end Call

/-! ## Runs -/

/-- The readers that calls on a new connection lead to. Every call satisfies
`allowed`; it may return an octet count or an error code. -/
inductive Reader.Reached (allowed : FrameMemory → Reader → List UInt8 → Prop) : Reader → Prop where
  | new : Reached allowed Reader.new
  | call {reader : Reader} {memory : FrameMemory} {receivedData : List UInt8} {handled : Handled} :
      Reached allowed reader → allowed memory reader receivedData →
      amqpHandleInput memory reader receivedData = .ok handled → Reached allowed handled.reader

theorem Reader.new_invariant : Reader.new.Invariant :=
  ⟨⟨Nat.zero_le _, Nat.le_refl _⟩, rfl⟩

theorem Reader.Reached.invariant {reader : Reader} (reached : Reader.Reached CallFits reader) :
    reader.Invariant := by
  induction reached with
  | new => exact Reader.new_invariant
  | call _ fits returned ih => exact (amqpHandleInput_invariant ih fits).2 _ returned

/-- As long as no header is completed that is too large or finds no memory, the
reader never expects more than its block has room for, and no call copies past it. -/
theorem reached_sound {reader : Reader} (reached : Reader.Reached CallFits reader) :
    reader.Sound ∧ ∀ memory receivedData, CallFits memory reader receivedData →
      amqpHandleInput memory reader receivedData ≠ .error .outOfBoundsWrite :=
  ⟨reached.invariant.sound, fun _ _ fits => (amqpHandleInput_invariant reached.invariant fits).1⟩

/-- Memory that grants everything, with blocks at the start of a zeroed page. -/
def grantingMemory : FrameMemory where
  poolEntry := true
  block := fun amount =>
    if bounded : amount + 64 < 2 ^ 63 then
      some ⟨.zeros (amount + 64) bounded, by rw [Buffer.size_zeros]; omega⟩
    else none
  allocs := []

/-- The reader after a call, which stays as it was if the call does not return. -/
def Reader.after (reader : Reader) (receivedData : List UInt8) : Reader :=
  match amqpHandleInput grantingMemory reader receivedData with
  | .ok handled => handled.reader
  | .error _ => reader

theorem Reader.Reached.after {reader : Reader} {receivedData : List UInt8}
    (reached : Reader.Reached CallFits reader)
    (fits : CallFits grantingMemory reader receivedData) :
    Reader.Reached CallFits (reader.after receivedData) := by
  unfold Reader.after
  split
  · next handled returned => exact .call reached fits returned
  · exact reached

/-- `connection.close_ok` in two pieces, and the header of a body frame with the first octet of two. -/
def closeOkRead : Reader := (Reader.new.after [1, 0, 0, 0, 0, 0, 4, 0, 10]).after [0, 51, 206]
def bodyBegun : Reader := closeOkRead.after [3, 0, 1, 0, 0, 0, 2, 17]

theorem reached_sound_body_begun : closeOkRead.state = .idle ∧ bodyBegun.state = .body ∧
    bodyBegun.inboundOffset = 8 ∧ Reader.Reached CallFits bodyBegun ∧ bodyBegun.Sound := by
  have first : CallFits grantingMemory Reader.new [1, 0, 0, 0, 0, 0, 4, 0, 10] :=
    fun _ _ _ _ _ => ⟨fun _ => ⟨by decide +kernel, .inr rfl⟩, fun _ _ => by decide +kernel⟩
  have rest : CallFits grantingMemory (Reader.new.after [1, 0, 0, 0, 0, 0, 4, 0, 10])
      [0, 51, 206] := fun _ notBody => absurd (by decide +kernel) notBody
  have next : CallFits grantingMemory closeOkRead [3, 0, 1, 0, 0, 0, 2, 17] :=
    fun _ _ _ _ _ => ⟨fun _ => ⟨by decide +kernel, .inr rfl⟩, fun _ _ => by decide +kernel⟩
  have reached := ((Reader.Reached.new.after first).after rest).after next
  exact ⟨by decide +kernel, by decide +kernel, by decide +kernel, reached,
    (reached_sound reached).1⟩

/-- A header that declares one octet too many for `frame_max` leaves the reader
expecting 65544 octets in the header buffer, and the next octet is stored behind it. -/
theorem header_too_large_unsound : ¬ ∀ reader,
    Reader.Reached (fun _ _ _ => True) reader →
      reader.Sound ∧ ∀ memory receivedData,
        amqpHandleInput memory reader receivedData ≠ .error .outOfBoundsWrite := by
  intro sound
  have sizes : (match amqpHandleInput grantingMemory Reader.new [1, 0, 0, 0, 1, 0, 0, 0] with
      | .ok handled => (handled.reader.targetSize, handled.reader.inbound.size)
      | .error _ => (0, 0)) = (65544, 8) := by decide +kernel
  cases returned : amqpHandleInput grantingMemory Reader.new [1, 0, 0, 0, 1, 0, 0, 0] with
  | error fault =>
      rw [returned] at sizes
      cases sizes
  | ok handled =>
      rw [returned] at sizes
      obtain ⟨target, block⟩ := Prod.mk.inj sizes
      have bounded := (sound _ (.call .new trivial returned)).1.target_le
      omega

end RabbitmqC
