import RabbitmqC.Connection.Entering

/-!
# Whole frames

What `amqp_handle_input` does with the octets of a complete frame: it refuses
the header, or it comes to the body case with the frame in a block. The octets
in front of the block's own are those its pool left there.
-/

set_option autoImplicit false

namespace RabbitmqC

/-- The seven octets in front of a payload. -/
def headerOctets (frameType : UInt8) (channel : UInt16) (size : Nat) : List UInt8 :=
  frameType :: (BigEndian.bytes 2 channel.toNat ++ BigEndian.bytes 4 size)

def frameOctets (frameType : UInt8) (channel : UInt16) (payload : List UInt8) : List UInt8 :=
  headerOctets frameType channel payload.length ++ (payload ++ [amqpFrameEnd])

section Octets

variable {frameType : UInt8} {channel : UInt16} {payload octets : List UInt8} {size : Nat}

@[simp] theorem length_headerOctets : (headerOctets frameType channel size).length = headerSize := by
  simp [headerOctets, headerSize]

@[simp] theorem length_frameOctets :
    (frameOctets frameType channel payload).length = payload.length + headerSize + footerSize := by
  simp only [frameOctets, List.length_append, length_headerOctets, List.length_singleton,
    footerSize]
  omega

theorem take_frameOctets :
    (frameOctets frameType channel payload).take headerSize =
      headerOctets frameType channel payload.length := by
  rw [frameOctets, List.take_append_of_le_length (by simp), List.take_of_length_le (by simp)]

theorem drop_frameOctets :
    (frameOctets frameType channel payload).drop headerSize = payload ++ [amqpFrameEnd] := by
  rw [frameOctets, List.drop_append_of_le_length (by simp), List.drop_of_length_le (by simp),
    List.nil_append]

/-- A slice of the first octets, for octets that start with a frame header. -/
private theorem slice_of_header {offset count : Nat}
    (same : octets.take headerSize = headerOctets frameType channel size)
    (inside : offset + count ≤ headerSize) :
    octets.slice offset count = (headerOctets frameType channel size).slice offset count := by
  rw [← same]
  simp only [List.slice, List.drop_take, List.take_take]
  congr 1
  omega

theorem headerChannel_eq (same : octets.take headerSize = headerOctets frameType channel size) :
    headerChannel octets = channel := by
  have slice : octets.slice 1 2 = BigEndian.bytes 2 channel.toNat := by
    rw [slice_of_header same (by decide)]
    rfl
  rw [headerChannel, slice, BigEndian.value_bytes_of_lt channel.toNat_lt, UInt16.ofNat_toNat]

theorem headerPayloadSize_eq (same : octets.take headerSize = headerOctets frameType channel size)
    (small : size < 2 ^ 32) : headerPayloadSize octets = size := by
  have slice : octets.slice 3 4 = BigEndian.bytes 4 size := by
    rw [slice_of_header same (by decide)]
    rfl
  rw [headerPayloadSize, slice, BigEndian.value_bytes_of_lt small]

end Octets

/-! ## The header -/

/-- The reader has read nothing of the next frame. Before the first frame it
takes eight octets for a header, later on seven. -/
structure Reader.Begins (reader : Reader) (skip : Nat) : Prop where
  inbound : reader.inbound = .header
  offset : reader.inboundOffset = 0
  target : reader.targetSize = skip
  state : reader.state = .idle ∧ skip = headerSize ∨ reader.state = .initial ∧ skip = headerSize + 1

/-- The code a frame header is refused with, if it is. -/
def refusal (memory : FrameMemory) (reader : Reader) (channel : UInt16) (size : Nat) :
    Option Status :=
  if size ≥ int32Max ∨ sizeOfInt reader.frameMax.toInt < size + headerSize + footerSize then
    some .badAmqpData
  else if (channel ∈ reader.poolTable ∨ memory.poolEntry) ∧
      (memory.block (size + headerSize + footerSize)).isSome then
    none
  else
    some .noMemory

/-- The memory a frame on a channel is received into. -/
def blockFor (memory : FrameMemory) (reader : Reader) (channel : UInt16) (amount : Nat) :
    Option Buffer :=
  (memory.block amount).map fun block => block.contents (channel ∉ reader.poolTable)

section Header

variable {memory : FrameMemory} {reader : Reader} {skip bytesConsumed : Nat} {frameType : UInt8}
  {channel : UInt16} {payload rest receivedData : List UInt8} {size : Nat}

theorem Reader.Begins.invariant (begins : reader.Begins skip) : reader.Invariant := by
  obtain ⟨inbound, offset, target, state⟩ := begins
  refine ⟨⟨by omega, ?_⟩, ?_⟩
  · rw [inbound]
    simp only [Inbound.size]
    omega
  · unfold Reader.Placed
    split
    · rename_i inBody
      simp [inBody] at state
    · exact inbound

/-- With the first octets in the header buffer, the rest of the call is left to do. -/
theorem enterInput_buffered (begins : reader.Begins skip) :
    ∃ filled : Reader,
      (filled.state = .initial ∧ skip = headerSize + 1 ∨
        filled.state = .header ∧ skip = headerSize) ∧
      filled.inbound = .header ∧ filled.frameMax = reader.frameMax ∧
      filled.poolTable = reader.poolTable ∧ filled.inboundOffset = skip ∧
      filled.headerBuffer.bytes.take skip = (frameOctets frameType channel payload).take skip ∧
      enterInput memory reader (frameOctets frameType channel payload ++ rest) =
        enterComplete memory filled ((frameOctets frameType channel payload ++ rest).drop skip)
          skip := by
  have long : skip ≤ (frameOctets frameType channel payload).length := by
    rw [length_frameOctets]
    rcases begins.state with ⟨_, rfl⟩ | ⟨_, rfl⟩ <;> simp only [headerSize, footerSize] <;> omega
  obtain ⟨filled, count, consumed, spec⟩ := consumeData_consumed
    (leaveIdle_invariant begins.invariant) (frameOctets frameType channel payload ++ rest)
  obtain ⟨_, left, _, _⟩ := leaveIdle_eq reader
  have state : filled.state = .initial ∧ skip = headerSize + 1 ∨
      filled.state = .header ∧ skip = headerSize := by
    rw [spec.state, leaveIdle]
    rcases begins.state with ⟨idle, seven⟩ | ⟨initial, whole⟩
    · exact .inr ⟨by rw [if_pos idle], seven⟩
    · exact .inl ⟨by rw [if_neg (by simp [initial]), initial], whole⟩
  have placed := spec.invariant.inbound_eq_header (by
    rcases state with ⟨initial, _⟩ | ⟨inHeader, _⟩
    · simp [initial]
    · simp [inHeader])
  have counted : count = skip := by
    rw [spec.count_eq, left, List.length_append]
    simp only [begins.offset, begins.target]
    omega
  have moved : filled.inboundOffset = skip := by
    rw [spec.offset, left, counted]
    simp only [begins.offset, Nat.zero_add]
  have target : filled.targetSize = skip := by
    rw [spec.targetSize, left]
    exact begins.target
  have buffered : filled.headerBuffer.bytes.take skip =
      (frameOctets frameType channel payload).take skip := by
    rw [spec.header (by rw [left]; exact begins.inbound), left, counted]
    simp only [begins.offset, List.splice, List.take_zero, List.nil_append]
    rw [List.take_append_of_le_length long,
      List.take_append_of_le_length (by rw [List.length_take]; omega),
      List.take_take, Nat.min_self]
  refine ⟨filled, state, placed, ?_, ?_, moved, buffered, ?_⟩
  · rw [spec.frameMax, left]
  · rw [spec.poolTable, left]
  · have nonempty : (frameOctets frameType channel payload ++ rest).length ≠ 0 := by
      rw [List.length_append, length_frameOctets, headerSize]
      omega
    unfold enterInput
    rw [if_neg nonempty, consumed, Effect.except_bind_ok]
    dsimp only
    rw [if_neg (by omega), counted]

/-- The header buffer holds as many of the first octets as one looks at. -/
private theorem take_of_buffered {count : Nat} {filled : Reader} (fewer : count ≤ skip)
    (buffered : filled.headerBuffer.bytes.take skip =
      (frameOctets frameType channel payload).take skip) :
    filled.headerBuffer.bytes.take count = (frameOctets frameType channel payload).take count := by
  rw [← Nat.min_eq_left fewer, ← List.take_take, buffered, List.take_take, Nat.min_eq_left fewer]

/-- Unless they are a protocol header, the header case is what is left to do. -/
theorem enterInput_begins (begins : reader.Begins skip)
    (regular : skip = headerSize + 1 →
      (frameOctets frameType channel payload).take 4 ≠ protocolName) :
    ∃ filled : Reader, (filled.state = .initial ∨ filled.state = .header) ∧
      filled.inbound = .header ∧ filled.frameMax = reader.frameMax ∧
      filled.poolTable = reader.poolTable ∧ filled.inboundOffset = skip ∧
      filled.headerBuffer.bytes.take headerSize = headerOctets frameType channel payload.length ∧
      enterInput memory reader (frameOctets frameType channel payload ++ rest) =
        enterHeader memory filled ((frameOctets frameType channel payload ++ rest).drop skip)
          skip := by
  obtain ⟨filled, state, placed, sameMax, sameTable, moved, buffered, entered⟩ :=
    @enterInput_buffered memory _ _ frameType channel payload rest begins
  have header : headerSize ≤ skip := by
    rcases begins.state with ⟨_, rfl⟩ | ⟨_, rfl⟩ <;> omega
  refine ⟨filled, state.imp And.left And.left, placed, sameMax, sameTable, moved, ?_, ?_⟩
  · rw [take_of_buffered header buffered, take_frameOctets]
  · rw [entered]
    unfold enterComplete
    rcases state with ⟨initial, whole⟩ | ⟨inHeader, _⟩
    · simp only [initial]
      refine enterInitial_of_regular placed ?_
      rw [take_of_buffered (by rw [whole]; decide) buffered]
      exact regular whole
    · simp only [inHeader]

/-- Octets that spell a protocol header are no frame for a new connection. -/
theorem enterInput_protocol (begins : reader.Begins (headerSize + 1))
    (protocol : (frameOctets frameType channel payload).take 4 = protocolName) :
    ∃ handled, enterInput memory reader (frameOctets frameType channel payload ++ rest) =
      .ok (.returned handled) := by
  obtain ⟨filled, state, placed, _, _, _, buffered, entered⟩ :=
    @enterInput_buffered memory _ _ frameType channel payload rest begins
  obtain ⟨handled, returned⟩ := @enterInitial_of_protocol memory filled
    ((frameOctets frameType channel payload ++ rest).drop (headerSize + 1)) (headerSize + 1) placed
    ((take_of_buffered (by decide) buffered).trans protocol)
  have initial := state.resolve_right fun inHeader => absurd inHeader.2 (by decide)
  refine ⟨handled, ?_⟩
  rw [entered]
  unfold enterComplete
  simp only [initial.1]
  exact returned

/-- The channels with a pool once `channel` has one. -/
def withPool (poolTable : List UInt16) (channel : UInt16) : List UInt16 :=
  if channel ∈ poolTable then poolTable else channel :: poolTable

theorem mem_withPool {poolTable : List UInt16} : channel ∈ withPool poolTable channel := by
  unfold withPool
  split
  · assumption
  · exact List.mem_cons_self

theorem amqpGetOrCreateChannelPool_of_available
    (available : PoolAvailable memory reader channel) :
    amqpGetOrCreateChannelPool memory reader channel =
      some ({ reader with poolTable := withPool reader.poolTable channel },
        decide (channel ∉ reader.poolTable)) := by
  unfold amqpGetOrCreateChannelPool withPool
  split
  · rename_i member
    simp [member]
  · rename_i absent
    rw [if_pos (available.resolve_left absent)]
    simp [absent]

/-- The header case, for a header that is refused. -/
theorem enterHeader_refused {status : Status} (placed : reader.inbound = .header)
    (buffered : reader.headerBuffer.bytes.take headerSize = headerOctets frameType channel size)
    (small : size < 2 ^ 32) (refused : refusal memory reader channel size = some status) :
    ∃ after, enterHeader memory reader receivedData bytesConsumed =
        .ok (.returned ⟨after, .error status, .unset⟩) ∧ after.state = reader.state := by
  rw [enterHeader_eq placed, headerPayloadSize_eq buffered small, headerChannel_eq buffered]
  unfold refusal at refused
  dsimp only [expectFrame]
  split at refused
  · rename_i large
    cases refused
    split
    · exact ⟨reader, rfl, rfl⟩
    · rename_i within
      rw [if_pos (large.resolve_left within)]
      exact ⟨_, rfl, rfl⟩
  · rename_i within
    rw [not_or] at within
    rw [if_neg within.1, if_neg within.2]
    split at refused
    · cases refused
    · rename_i unavailable
      cases refused
      split
      · exact ⟨_, rfl, rfl⟩
      · rename_i pooled isNew found
        obtain ⟨available, table, rfl⟩ := amqpGetOrCreateChannelPool_eq_some found
        split
        · exact ⟨_, rfl, rfl⟩
        · rename_i block granted
          exact absurd ⟨available, by simp only at granted; rw [granted]; rfl⟩ unavailable

/-- The header case, for a header that is not refused. -/
theorem enterHeader_admitted (placed : reader.inbound = .header)
    (buffered : reader.headerBuffer.bytes.take headerSize = headerOctets frameType channel size)
    (small : size < 2 ^ 32) (admitted : refusal memory reader channel size = none) :
    ∃ stale written : Buffer,
      blockFor memory reader channel (size + headerSize + footerSize) = some stale ∧
      size + headerSize + footerSize ≤ stale.size ∧ written.size = stale.size ∧
      written.bytes = stale.bytes.splice 0 (headerOctets frameType channel size) ∧
      enterHeader memory reader receivedData bytesConsumed =
        enterBody
          { reader with
            targetSize := size + headerSize + footerSize
            poolTable := withPool reader.poolTable channel
            inbound := .block written (size + headerSize + footerSize)
            state := .body }
          receivedData bytesConsumed := by
  rw [enterHeader_eq placed, headerPayloadSize_eq buffered small, headerChannel_eq buffered]
  unfold refusal at admitted
  dsimp only [expectFrame]
  split at admitted
  · cases admitted
  · rename_i within
    rw [not_or] at within
    rw [if_neg within.1, if_neg within.2]
    split at admitted
    · rename_i available
      obtain ⟨pooled, granted⟩ := available
      obtain ⟨block, found⟩ := Option.isSome_iff_exists.mp granted
      obtain ⟨written, started, sameSize, copied⟩ := @startBody_eq
        ({ reader with
          targetSize := size + headerSize + footerSize
          poolTable := withPool reader.poolTable channel })
        (decide (channel ∉ reader.poolTable)) block (by simp only; omega)
      refine ⟨block.contents (channel ∉ reader.poolTable), written, ?_, block.amount_le_contents _,
        sameSize, ?_, ?_⟩
      · rw [blockFor, found, Option.map_some]
      · rw [copied, buffered]
      · have pool := @amqpGetOrCreateChannelPool_of_available _ (expectFrame reader size) _ pooled
        dsimp only [expectFrame] at pool ⊢
        rw [pool]
        dsimp only
        rw [found]
        dsimp only
        exact congrArg (· >>= fun started => enterBody started receivedData bytesConsumed) started
    · cases admitted

end Header

/-! ## The block -/

/-- `ready` has received `octets` into a block that held `stale` before. The octets
between the header and the `skip` ones read with it were never copied. -/
structure Received (stale : Buffer) (reader : Reader) (channel : UInt16) (octets : List UInt8)
    (skip : Nat) (mem : Buffer) (ready : Reader) : Prop where
  state : ready.state = .body
  frameMax : ready.frameMax = reader.frameMax
  target : ready.targetSize = octets.length
  pooled : channel ∈ ready.poolTable
  inbound : ready.inbound = .block mem octets.length
  size : octets.length ≤ mem.size ∧ mem.size = stale.size
  bytes : mem.bytes =
    (stale.bytes.splice 0 (octets.take headerSize)).splice skip (octets.drop skip)

section Block

variable {memory : FrameMemory} {reader : Reader} {skip : Nat} {frameType : UInt8}
  {channel : UInt16} {payload rest : List UInt8}

/-- A whole frame whose header is not refused comes to the body case. -/
theorem enterInput_received (begins : reader.Begins skip)
    (regular : skip = headerSize + 1 →
      (frameOctets frameType channel payload).take 4 ≠ protocolName)
    (small : payload.length < 2 ^ 32)
    (admitted : refusal memory reader channel payload.length = none) :
    ∃ stale mem ready,
      blockFor memory reader channel (frameOctets frameType channel payload).length = some stale ∧
      Received stale reader channel (frameOctets frameType channel payload) skip mem ready ∧
      enterInput memory reader (frameOctets frameType channel payload ++ rest) =
        .ok (.body ready (frameOctets frameType channel payload).length) := by
  obtain ⟨filled, _, placed, sameMax, sameTable, offset, buffered, handled⟩ :=
    @enterInput_begins memory _ _ _ _ _ rest begins regular
  have sameRefusal : refusal memory filled channel payload.length = none := by
    rw [← admitted]
    simp only [refusal, sameMax, sameTable]
  obtain ⟨stale, written, found, room, sameSize, copied, continued⟩ :=
    @enterHeader_admitted _ _ skip _ _ ((frameOctets frameType channel payload ++ rest).drop skip) _
      placed buffered small sameRefusal
  have length := @length_frameOctets frameType channel payload
  have short : skip ≤ (frameOctets frameType channel payload).length := by
    rcases begins.state with ⟨_, rfl⟩ | ⟨_, rfl⟩ <;> simp only [length, footerSize] <;> omega
  have body : (Reader.mk .body filled.frameMax filled.headerBuffer
      (.block written (payload.length + headerSize + footerSize)) filled.inboundOffset
      (payload.length + headerSize + footerSize)
      (withPool filled.poolTable channel)).Invariant := by
    refine ⟨⟨by simp only [offset]; omega, Nat.le_refl _⟩, written, _, rfl, by omega⟩
  obtain ⟨ready, count, consumed, spec⟩ := consumeData_consumed body
    ((frameOctets frameType channel payload ++ rest).drop skip)
  have counted : count = (frameOctets frameType channel payload).length - skip := by
    rw [spec.count_eq, List.length_drop, List.length_append]
    simp only [offset]
    omega
  have taken : ((frameOctets frameType channel payload ++ rest).drop skip).take count =
      (frameOctets frameType channel payload).drop skip := by
    rw [List.drop_append_of_le_length short, List.take_append_of_le_length
      (by rw [List.length_drop]; omega), List.take_of_length_le (by rw [List.length_drop]; omega)]
  obtain ⟨_, mem, inbound, filledBytes⟩ := spec.block written _ rfl
  have total : mem.size = written.size := by
    simp only [Buffer.size, filledBytes, taken, offset]
    refine List.length_splice ?_
    rw [List.length_drop]
    unfold Buffer.size at sameSize room
    omega
  refine ⟨stale, mem, ready, ?_, ⟨spec.state, ?_, ?_, ?_, ?_, ?_, ?_⟩, ?_⟩
  · rw [length, ← found]
    simp only [blockFor, sameTable]
  · rw [spec.frameMax, sameMax]
  · rw [spec.targetSize, length]
  · rw [spec.poolTable]
    exact mem_withPool
  · rw [inbound, length]
  · omega
  · rw [filledBytes, taken, copied, take_frameOctets]
    simp only [offset]
  · rw [handled, continued]
    unfold enterBody
    rw [consumed, Effect.except_bind_ok]
    dsimp only
    have complete : ready.inboundOffset = (frameOctets frameType channel payload).length := by
      rw [spec.offset, counted]
      simp only [offset]
      omega
    rw [if_neg (by rw [complete, spec.targetSize]; simp only; omega), counted,
      Nat.add_sub_cancel' short]
    rfl

theorem amqpHandleInput_received (begins : reader.Begins skip)
    (regular : skip = headerSize + 1 →
      (frameOctets frameType channel payload).take 4 ≠ protocolName)
    (small : payload.length < 2 ^ 32)
    (admitted : refusal memory reader channel payload.length = none) :
    ∃ stale mem ready,
      blockFor memory reader channel (frameOctets frameType channel payload).length = some stale ∧
      Received stale reader channel (frameOctets frameType channel payload) skip mem ready ∧
      amqpHandleInput memory reader (frameOctets frameType channel payload ++ rest) =
        bodyCase memory ready (frameOctets frameType channel payload).length := by
  obtain ⟨stale, mem, ready, found, received, entered⟩ :=
    @enterInput_received _ _ _ _ _ _ rest begins regular small admitted
  refine ⟨stale, mem, ready, found, received, ?_⟩
  rw [← enterInput_finish, entered]
  rfl

/-- A whole frame whose header is refused does not come to the body case. -/
theorem enterInput_refused {status : Status} (begins : reader.Begins skip)
    (regular : skip = headerSize + 1 →
      (frameOctets frameType channel payload).take 4 ≠ protocolName)
    (small : payload.length < 2 ^ 32)
    (refused : refusal memory reader channel payload.length = some status) :
    ∃ after, enterInput memory reader (frameOctets frameType channel payload ++ rest) =
        .ok (.returned ⟨after, .error status, .unset⟩) ∧
      (after.state = .initial ∨ after.state = .header) := by
  obtain ⟨filled, state, placed, sameMax, sameTable, _, buffered, entered⟩ :=
    enterInput_begins begins regular
  obtain ⟨after, returned, sameState⟩ :=
    @enterHeader_refused memory _ _ _ _ _ _ _ placed buffered small (by
      rw [← refused]
      simp only [refusal, sameMax, sameTable])
  exact ⟨after, entered.trans returned, by rw [sameState]; exact state⟩

theorem amqpHandleInput_refused {status : Status} (begins : reader.Begins skip)
    (regular : skip = headerSize + 1 →
      (frameOctets frameType channel payload).take 4 ≠ protocolName)
    (small : payload.length < 2 ^ 32)
    (refused : refusal memory reader channel payload.length = some status) :
    ∃ after, amqpHandleInput memory reader (frameOctets frameType channel payload ++ rest) =
        .ok ⟨after, .error status, .unset⟩ ∧ (after.state = .initial ∨ after.state = .header) := by
  obtain ⟨after, entered, state⟩ :=
    @enterInput_refused _ _ _ _ _ _ rest _ begins regular small refused
  refine ⟨after, ?_, state⟩
  rw [← enterInput_finish, entered]
  rfl

end Block

/-! ## The body -/

/-- What the body case returns for a decoded payload. -/
def concluded (ready : Reader) (bytesConsumed : Nat) (decoded : Except Status Unit × Frame) :
    Handled :=
  match decoded.1 with
  | .error status => ⟨ready, .error status, decoded.2⟩
  | .ok () => ⟨returnToIdle ready, .ok (intOfSize bytesConsumed), decoded.2⟩

namespace Received

variable {memory : FrameMemory} {stale mem : Buffer} {reader ready : Reader} {channel : UInt16}
  {octets : List UInt8} {skip : Nat} {frameType : UInt8} {payload : List UInt8}

theorem take_eq (received : Received stale reader channel octets skip mem ready)
    (header : headerSize ≤ skip) (short : skip ≤ octets.length) :
    mem.bytes.take headerSize = octets.take headerSize := by
  obtain ⟨fits, sameSize⟩ := received.size
  have copied : (octets.take headerSize).length = headerSize := by
    rw [List.length_take]
    omega
  rw [sameSize] at fits
  unfold Buffer.size at fits
  rw [received.bytes, List.splice, List.append_assoc, List.take_append_of_le_length
    (by rw [List.length_take, List.length_splice (by omega)]; omega), List.take_take,
    Nat.min_eq_left header, List.splice, List.take_zero, List.nil_append,
    List.take_append_of_le_length (by omega), List.take_of_length_le (by omega)]

/-- With a header of seven octets, everything is copied. -/
theorem bytes_eq_splice (received : Received stale reader channel octets headerSize mem ready)
    (long : headerSize ≤ octets.length) : mem.bytes = stale.bytes.splice 0 octets := by
  obtain ⟨fits, sameSize⟩ := received.size
  have copied : (octets.take headerSize).length = headerSize := by
    rw [List.length_take]
    omega
  have stored := @List.splice_splice_after _ stale.bytes (octets.take headerSize)
    (octets.drop headerSize) 0 (by
      rw [List.length_drop, copied]
      unfold Buffer.size at sameSize fits
      omega)
  rw [copied, Nat.zero_add, List.take_append_drop] at stored
  rw [received.bytes, stored]

theorem holds (received : Received stale reader channel octets headerSize mem ready)
    (long : headerSize ≤ octets.length) : mem.Holds 0 octets := by
  obtain ⟨fits, sameSize⟩ := received.size
  refine ⟨by omega, ?_⟩
  rw [received.bytes_eq_splice long]
  exact List.slice_splice_self (by unfold Buffer.size at sameSize fits; omega)

/-- What the body case finds in front of the payload and behind it. -/
theorem surroundings
    (received : Received stale reader channel (frameOctets frameType channel payload) skip mem ready)
    (header : headerSize ≤ skip) (short : skip ≤ (frameOctets frameType channel payload).length) :
    (∃ octet, mem.bytes.slice (payload.length + headerSize) 1 = [octet] ∧
      rawWord mem ⟨sizeSub ready.targetSize 1, 1⟩ = .ok octet.toNat) ∧
    UInt8.ofNat <$> rawWord mem ⟨0, 1⟩ = .ok frameType ∧
    UInt16.ofNat <$> rawWord mem ⟨1, 2⟩ = .ok channel ∧
    amqpGetOrCreateChannelPool memory ready channel = some (ready, false) := by
  have length := @length_frameOctets frameType channel payload
  obtain ⟨fits, _⟩ := received.size
  have bounded : mem.size < 2 ^ 63 := mem.size_lt
  have buffered := (received.take_eq header short).trans take_frameOctets
  have last : sizeSub ready.targetSize 1 = payload.length + headerSize := by
    rw [received.target, length, sizeSub_of_le (by simp only [footerSize]; omega) (by omega)]
    rfl
  refine ⟨?_, ?_, ?_, ?_⟩
  · obtain ⟨octet, single⟩ := List.length_eq_one_iff.mp (List.length_slice
      (by unfold Buffer.size at fits; simp only [length, footerSize] at fits; omega))
    refine ⟨octet, single, ?_⟩
    rw [last, rawWord_eq (by simp only [length, footerSize] at fits ⊢; omega), single]
    simp [BigEndian.value]
  · rw [rawWord_eq (by simp only [length, headerSize] at fits ⊢; omega)]
    simp only [slice_of_header buffered (show 0 + 1 ≤ headerSize by decide)]
    exact congrArg Except.ok (by simp [headerOctets, List.slice, BigEndian.value])
  · rw [rawWord_eq (by simp only [length, headerSize] at fits ⊢; omega)]
    exact congrArg Except.ok (headerChannel_eq buffered)
  · simp only [amqpGetOrCreateChannelPool, if_pos received.pooled]

/-- The body case, with the words of the header made explicit. -/
theorem bodyCase_eq
    (received : Received stale reader channel (frameOctets frameType channel payload) skip mem ready)
    (header : headerSize ≤ skip) (short : skip ≤ (frameOctets frameType channel payload).length) :
    bodyCase memory ready (frameOctets frameType channel payload).length =
      if mem.bytes.slice (payload.length + headerSize) 1 = [amqpFrameEnd] then
        concluded ready (frameOctets frameType channel payload).length <$>
          decodePayload memory mem (payload.length + headerSize + footerSize) frameType channel
      else .ok ⟨ready, .error .badAmqpData, .unset⟩ := by
  obtain ⟨⟨octet, single, endWord⟩, typeWord, channelWord, pool⟩ :=
    @surroundings memory _ _ _ _ _ _ _ _ received header short
  unfold bodyCase
  simp only [Reader.rawFrame, received.inbound, Effect.except_bind_ok, endWord, single,
    List.cons.injEq, and_true]
  by_cases ended : octet = amqpFrameEnd
  · rw [if_pos ended, if_neg (by rw [ended]; simp), typeWord, Effect.except_bind_ok, channelWord,
      Effect.except_bind_ok, pool]
    dsimp only
    rw [received.target, length_frameOctets]
    cases decodePayload memory mem (payload.length + headerSize + footerSize) frameType channel with
    | error fault => rfl
    | ok decoded =>
        obtain ⟨result, frame⟩ := decoded
        cases result with
        | error status => rfl
        | ok value => rfl
  · rw [if_neg ended, if_pos (fun same => ended (UInt8.toNat_inj.mp same))]
    rfl

end Received

end RabbitmqC
