import RabbitmqC.Connection.ReaderInvariant

/-!
# Input in pieces

A call of `amqp_handle_input` does what calls with the single octets do, one after
the other. Since a sequence of octets is taken in one way only, it makes no
difference how the octets are divided among the calls.
-/

set_option autoImplicit false

namespace RabbitmqC

/-! ## Counting -/

/-- The same result for a call that has taken `before` octets more. -/
def Handled.later (before : Nat) (handled : Handled) : Handled :=
  { handled with result := handled.result.map fun count => ((before : Int) + count).bmod (2 ^ 32) }

theorem intOfSize_add (before count : Nat) :
    intOfSize (before + count) = ((before : Int) + intOfSize count).bmod (2 ^ 32) := by
  unfold intOfSize
  rw [Int.add_bmod_bmod]
  push_cast
  rfl

section Counting

variable {memory : FrameMemory} {reader : Reader} {receivedData : List UInt8}
  {before bytesConsumed : Nat}

theorem bodyCase_later : bodyCase memory reader (before + bytesConsumed) =
    Handled.later before <$> bodyCase memory reader bytesConsumed := by
  unfold bodyCase
  cases reader.rawFrame with
  | error fault => rfl
  | ok raw =>
      simp only [Effect.except_bind_ok]
      cases rawWord raw ⟨sizeSub reader.targetSize 1, 1⟩ with
      | error fault => rfl
      | ok frameEnd =>
          simp only [Effect.except_bind_ok]
          split
          · rfl
          · cases UInt8.ofNat <$> rawWord raw ⟨0, 1⟩ with
            | error fault => rfl
            | ok frameType =>
                simp only [Effect.except_bind_ok]
                cases UInt16.ofNat <$> rawWord raw ⟨1, 2⟩ with
                | error fault => rfl
                | ok channel =>
                    simp only [Effect.except_bind_ok]
                    cases amqpGetOrCreateChannelPool memory reader channel with
                    | none => rfl
                    | some pooled =>
                        dsimp only
                        cases decodePayload memory raw pooled.1.targetSize frameType channel with
                        | error fault => rfl
                        | ok decoded =>
                            obtain ⟨result, frame⟩ := decoded
                            simp only [Effect.except_bind_ok]
                            cases result with
                            | error status => rfl
                            | ok _ =>
                                simp only [intOfSize_add]
                                rfl

theorem readBody_later : readBody memory reader receivedData (before + bytesConsumed) =
    Handled.later before <$> readBody memory reader receivedData bytesConsumed := by
  unfold readBody
  cases consumeData reader receivedData with
  | error fault => rfl
  | ok taken =>
      simp only [Effect.except_bind_ok, Nat.add_assoc]
      split
      · simp only [intOfSize_add before]
        rfl
      · exact bodyCase_later

theorem headerCase_later (placed : reader.inbound = .header) :
    headerCase memory reader receivedData (before + bytesConsumed) =
      Handled.later before <$> headerCase memory reader receivedData bytesConsumed := by
  rw [headerCase_eq placed, headerCase_eq placed]
  split
  · rfl
  · dsimp only
    split
    · rfl
    · cases amqpGetOrCreateChannelPool memory _ (headerChannel reader.headerBuffer.bytes) with
      | none => rfl
      | some pooled =>
          obtain ⟨pooled, isNew⟩ := pooled
          dsimp only
          cases memory.block pooled.targetSize with
          | none => rfl
          | some block =>
              dsimp only
              cases startBody pooled isNew block with
              | error fault => rfl
              | ok started => exact readBody_later

/-- The pseudo-frame for a protocol header. -/
def protocolHeaderFrame (octets : List UInt8) : Frame :=
  let octet (offset : Nat) := UInt8.ofNat (BigEndian.value (octets.slice offset 1))
  ⟨amqpPseudoframeProtocolHeader, 0, .protocolHeader (octet 4) (octet 5) (octet 6) (octet 7)⟩

/-- The initial case, for a protocol header. -/
theorem initialCase_of_protocol (placed : reader.inbound = .header)
    (named : reader.headerBuffer.bytes.take 4 = protocolName) :
    initialCase memory reader receivedData bytesConsumed =
      .ok ⟨returnToIdle reader, .ok (intOfSize bytesConsumed),
        protocolHeaderFrame reader.headerBuffer.bytes⟩ := by
  have word (base : Nat) (inside : base < 8) : rawWord reader.headerBuffer.mem ⟨base, 1⟩ =
      .ok (BigEndian.value (reader.headerBuffer.bytes.slice base 1)) :=
    reader.headerBuffer.rawWord_eq (by simp only [headerSize]; omega)
  unfold initialCase
  simp only [Reader.rawFrame, placed, Effect.except_bind_ok, reader.headerBuffer.read?_four,
    if_pos named, word 4 (by decide), word 5 (by decide), word 6 (by decide), word 7 (by decide)]
  rfl

theorem initialCase_later (placed : reader.inbound = .header) :
    initialCase memory reader receivedData (before + bytesConsumed) =
      Handled.later before <$> initialCase memory reader receivedData bytesConsumed := by
  by_cases named : reader.headerBuffer.bytes.take 4 = protocolName
  · rw [initialCase_of_protocol placed named, initialCase_of_protocol placed named,
      intOfSize_add before]
    rfl
  · rw [initialCase_of_regular placed named, initialCase_of_regular placed named]
    exact headerCase_later placed

theorem handleComplete_later (invariant : reader.Invariant) :
    handleComplete memory reader receivedData (before + bytesConsumed) =
      Handled.later before <$> handleComplete memory reader receivedData bytesConsumed := by
  unfold handleComplete
  cases state : reader.state with
  | initial => exact initialCase_later (invariant.inbound_eq_header (by simp [state]))
  | header => exact headerCase_later (invariant.inbound_eq_header (by simp [state]))
  | body => exact bodyCase_later
  | idle => rfl

end Counting

/-! ## One octet more -/

section Copying

variable {reader middle after other : Reader} {count : Nat} {left right data : List UInt8}

/-- What was copied and where it went determine the reader. -/
theorem Consumed.unique (invariant : reader.Invariant)
    (first : Consumed reader data after count) (second : Consumed reader data other count) :
    after = other := by
  have inbound : after.headerBuffer = other.headerBuffer ∧ after.inbound = other.inbound := by
    by_cases inBody : reader.state = .body
    · have placed := invariant.placed
      simp only [Reader.Placed, inBody] at placed
      obtain ⟨mem, amount, same, _⟩ := placed
      obtain ⟨header, written, inbound, bytes⟩ := first.block mem amount same
      obtain ⟨otherHeader, otherWritten, otherInbound, otherBytes⟩ := second.block mem amount same
      obtain rfl : written = otherWritten := Buffer.ext (bytes.trans otherBytes.symm)
      exact ⟨header.trans otherHeader.symm, inbound.trans otherInbound.symm⟩
    · have placed := invariant.inbound_eq_header inBody
      have header := (first.header placed).trans (second.header placed).symm
      refine ⟨?_, ?_⟩
      · cases sameFirst : after.headerBuffer
        cases sameSecond : other.headerBuffer
        rw [sameFirst, sameSecond] at header
        congr
      · rw [first.invariant.inbound_eq_header (by rw [first.state]; exact inBody),
          second.invariant.inbound_eq_header (by rw [second.state]; exact inBody)]
  have state := first.state.trans second.state.symm
  have frameMax := first.frameMax.trans second.frameMax.symm
  have poolTable := first.poolTable.trans second.poolTable.symm
  have target := first.targetSize.trans second.targetSize.symm
  have offset := first.offset.trans second.offset.symm
  cases after
  cases other
  simp only at *
  simp [inbound, state, frameMax, poolTable, target, offset]

/-- Nothing is copied where there is no room or nothing to copy. -/
theorem Consumed.zero (invariant : reader.Invariant)
    (full : min (reader.targetSize - reader.inboundOffset) data.length = 0) :
    Consumed reader data reader 0 where
  invariant := invariant
  state := rfl
  frameMax := rfl
  poolTable := rfl
  targetSize := rfl
  count_eq := full.symm
  offset := rfl
  header _ := by simp
  block mem _ same := ⟨rfl, mem, same, by simp⟩

/-- Copying in two steps. -/
theorem Consumed.append {more : Nat} (invariant : reader.Invariant)
    (first : Consumed reader left middle left.length)
    (second : Consumed middle right after more) :
    Consumed reader (left ++ right) after (left.length + more) := by
  have offsetLe := first.invariant.sound.offset_le
  have targetLe := first.invariant.sound.target_le
  have taken : (left ++ right).take (left.length + more) = left ++ right.take more :=
    List.take_length_add_append more
  have counted := second.count_eq
  have firstCounted := first.count_eq
  have moved := first.offset
  rw [first.targetSize, moved] at offsetLe
  have room : (right.take more).length = more := by
    rw [List.length_take]
    omega
  refine
    { invariant := second.invariant
      state := second.state.trans first.state
      frameMax := second.frameMax.trans first.frameMax
      poolTable := second.poolTable.trans first.poolTable
      targetSize := second.targetSize.trans first.targetSize
      count_eq := ?_
      offset := ?_
      header := ?_
      block := ?_ }
  · rw [first.targetSize, moved] at counted
    rw [List.length_append]
    omega
  · rw [second.offset, moved, Nat.add_assoc]
  · intro placed
    have placedMiddle : middle.inbound = .header := by
      refine first.invariant.inbound_eq_header fun inBody => ?_
      rw [first.state] at inBody
      have placedBody := invariant.placed
      simp only [Reader.Placed, inBody] at placedBody
      obtain ⟨_, _, block, _⟩ := placedBody
      cases placed.symm.trans block
    rw [placedMiddle] at targetLe
    simp only [Inbound.size] at targetLe
    rw [second.header placedMiddle, first.header placed, moved, taken, List.take_length,
      List.splice_splice_after]
    rw [reader.headerBuffer.length_eq, room]
    rw [first.targetSize] at targetLe
    rw [first.targetSize, moved] at counted
    omega
  · intro mem amount placed
    obtain ⟨header, written, inbound, bytes⟩ := first.block mem amount placed
    obtain ⟨secondHeader, final, finalInbound, finalBytes⟩ := second.block written amount inbound
    refine ⟨secondHeader.trans header, final, finalInbound, ?_⟩
    rw [finalBytes, bytes, moved, taken, List.take_length, List.splice_splice_after]
    have fits : amount ≤ mem.size := by
      by_cases body : reader.state = .body
      · have placedBody := invariant.placed
        simp only [Reader.Placed, body] at placedBody
        obtain ⟨_, _, block, fits⟩ := placedBody
        cases placed.symm.trans block
        exact fits
      · cases placed.symm.trans (invariant.inbound_eq_header body)
    rw [inbound] at targetLe
    simp only [Inbound.size, first.targetSize] at targetLe
    rw [room]
    rw [first.targetSize, moved] at counted
    unfold Buffer.size at fits
    omega

end Copying

/-- The reader is in the middle of a frame or before one, and its sizes are small
enough for an `int`. -/
structure Reader.Ready (reader : Reader) : Prop where
  invariant : reader.Invariant
  room : reader.inboundOffset < reader.targetSize
  bounded : reader.targetSize ≤ int32Max
  limit : 0 ≤ reader.frameMax.toInt

/-- The call has taken all octets and waits for more. -/
def Handled.unfinished (handled : Handled) : Bool :=
  match handled.result with
  | .ok _ => handled.reader.state ≠ .idle
  | .error _ => false

section Octets

variable {memory : FrameMemory} {reader stored : Reader} {octet : UInt8} {rest : List UInt8}
  {bytesConsumed : Nat} {handled : Handled}

theorem leaveIdle_of_ne_idle (notIdle : reader.state ≠ .idle) : leaveIdle reader = reader :=
  if_neg notIdle

theorem leaveIdle_offset : (leaveIdle reader).inboundOffset = reader.inboundOffset := by
  obtain ⟨_, same, _⟩ := leaveIdle_eq reader
  rw [same]

theorem leaveIdle_target : (leaveIdle reader).targetSize = reader.targetSize := by
  obtain ⟨_, same, _⟩ := leaveIdle_eq reader
  rw [same]

theorem consumeData_octet (ready : reader.Ready) (octet : UInt8) :
    ∃ stored, consumeData (leaveIdle reader) [octet] = .ok (stored, 1) ∧
      Consumed (leaveIdle reader) [octet] stored 1 := by
  obtain ⟨stored, count, consumed, spec⟩ :=
    consumeData_consumed (leaveIdle_invariant ready.invariant) [octet]
  have one : count = 1 := by
    have counted := spec.count_eq
    have room := ready.room
    rw [leaveIdle_offset, leaveIdle_target] at counted
    simp only [List.length_cons, List.length_nil] at counted
    omega
  subst one
  exact ⟨stored, consumed, spec⟩

theorem consumeData_nil (invariant : reader.Invariant) :
    consumeData reader [] = .ok (reader, 0) := by
  obtain ⟨after, count, consumed, spec⟩ := consumeData_consumed invariant []
  have none : count = 0 := by simpa using spec.count_eq
  subst none
  rw [consumed, Consumed.unique invariant spec (Consumed.zero invariant (by simp))]

/-- The call with one octet, once the octet is stored. -/
theorem amqpHandleInput_octet
    (consumed : consumeData (leaveIdle reader) [octet] = .ok (stored, 1)) :
    amqpHandleInput memory reader [octet] =
      if stored.inboundOffset < stored.targetSize then .ok ⟨stored, .ok 1, .unset⟩
      else handleComplete memory stored [] 1 := by
  unfold amqpHandleInput
  rw [if_neg (by simp), consumed]
  rfl

/-- The body case accepts a frame by returning to the idle state. -/
theorem bodyCase_accepted {count : Int}
    (returned : bodyCase memory reader bytesConsumed = .ok handled)
    (accepted : handled.result = .ok count) : count = intOfSize bytesConsumed ∧
      ∃ table, handled.reader = returnToIdle { reader with poolTable := table } := by
  unfold bodyCase at returned
  obtain ⟨raw, _, returned⟩ := Effect.except_bind_eq_ok.mp returned
  obtain ⟨frameEnd, _, returned⟩ := Effect.except_bind_eq_ok.mp returned
  split at returned
  · cases returned
    cases accepted
  · obtain ⟨frameType, _, returned⟩ := Effect.except_bind_eq_ok.mp returned
    obtain ⟨channel, _, returned⟩ := Effect.except_bind_eq_ok.mp returned
    split at returned
    · cases returned
      cases accepted
    · rename_i pooled isNew found
      obtain ⟨_, table, rfl⟩ := amqpGetOrCreateChannelPool_eq_some found
      obtain ⟨⟨result, frame⟩, _, returned⟩ := Effect.except_bind_eq_ok.mp returned
      cases result with
      | error status =>
          cases returned
          cases accepted
      | ok value =>
          cases returned
          exact ⟨(Except.ok.inj accepted).symm, table, rfl⟩

theorem bodyCase_finished (returned : bodyCase memory reader bytesConsumed = .ok handled) :
    handled.unfinished = false := by
  unfold Handled.unfinished
  cases accepted : handled.result with
  | error status => rfl
  | ok count =>
      obtain ⟨_, table, same⟩ := bodyCase_accepted returned accepted
      rw [same]
      rfl

/-- In the body state a call goes on with the body. -/
theorem amqpHandleInput_of_body (inBody : reader.state = .body) (invariant : reader.Invariant)
    (more : rest ≠ []) : amqpHandleInput memory reader rest = readBody memory reader rest 0 := by
  obtain ⟨after, count, consumed, spec⟩ := consumeData_consumed invariant rest
  unfold amqpHandleInput readBody
  rw [if_neg (by simpa using more), leaveIdle_of_ne_idle (by simp [inBody]), consumed]
  simp only [Effect.except_bind_ok, Nat.zero_add]
  split
  · rfl
  · unfold handleComplete
    rw [spec.state, inBody]

/-- What a call that has used up its octets leaves to a call with the rest. -/
def goOn (memory : FrameMemory) (rest : List UInt8) (first : Except Fault Handled) :
    Except Fault Handled := do
  let handled ← first
  if handled.unfinished then
    Handled.later 1 <$> amqpHandleInput memory handled.reader rest
  else
    return handled

theorem goOn_bodyCase : goOn memory rest (bodyCase memory reader bytesConsumed) =
    bodyCase memory reader bytesConsumed := by
  unfold goOn
  cases returned : bodyCase memory reader bytesConsumed with
  | error fault => rfl
  | ok handled =>
      simp only [Effect.except_bind_ok, bodyCase_finished returned]
      rfl

theorem readBody_goOn (inBody : reader.state = .body) (invariant : reader.Invariant)
    (more : rest ≠ []) :
    readBody memory reader rest 1 = goOn memory rest (readBody memory reader [] 1) := by
  obtain ⟨after, count, consumed, spec⟩ := consumeData_consumed invariant rest
  by_cases room : reader.inboundOffset < reader.targetSize
  · have first : readBody memory reader [] 1 = .ok ⟨reader, .ok (intOfSize 1), .unset⟩ := by
      unfold readBody
      rw [consumeData_nil invariant]
      simp only [Effect.except_bind_ok, if_pos room]
      rfl
    have waits : Handled.unfinished ⟨reader, .ok (intOfSize 1), .unset⟩ = true := by
      simp [Handled.unfinished, inBody]
    unfold goOn
    rw [first, Effect.except_bind_ok, if_pos waits, amqpHandleInput_of_body inBody invariant more]
    exact @readBody_later _ _ _ _ 0
  · have none : count = 0 := by
      have counted := spec.count_eq
      omega
    subst none
    rw [Consumed.unique invariant spec (Consumed.zero invariant (by omega))] at consumed
    unfold readBody
    rw [consumed, consumeData_nil invariant]
    simp only [Effect.except_bind_ok, if_neg room]
    exact goOn_bodyCase.symm

theorem Reader.Invariant.offset_le_header (invariant : reader.Invariant)
    (notBody : reader.state ≠ .body) : reader.inboundOffset ≤ headerSize + 1 := by
  have targetLe := invariant.sound.target_le
  rw [invariant.inbound_eq_header notBody] at targetLe
  exact Nat.le_trans invariant.sound.offset_le targetLe

theorem headerCase_goOn (placed : reader.inbound = .header)
    (complete : reader.inboundOffset ≤ headerSize + 1) (more : rest ≠ []) :
    headerCase memory reader rest 1 = goOn memory rest (headerCase memory reader [] 1) := by
  rw [headerCase_eq placed, headerCase_eq placed]
  split
  · rfl
  · dsimp only
    split
    · rfl
    · cases found : amqpGetOrCreateChannelPool memory _
          (headerChannel reader.headerBuffer.bytes) with
      | none => rfl
      | some pooled =>
          obtain ⟨pooled, isNew⟩ := pooled
          obtain ⟨_, table, same⟩ := amqpGetOrCreateChannelPool_eq_some found
          dsimp only
          cases memory.block pooled.targetSize with
          | none => rfl
          | some block =>
              dsimp only
              have minimal : headerSize + 1 ≤ pooled.targetSize := by
                simp only [same, expectFrame, footerSize]
                omega
              have short : pooled.inboundOffset ≤ headerSize + 1 := by
                rw [same]
                exact complete
              obtain ⟨written, started, size, _⟩ :=
                startBody_eq isNew block (Nat.le_of_succ_le minimal)
              rw [started, Effect.except_bind_ok, Effect.except_bind_ok]
              refine readBody_goOn rfl ⟨⟨Nat.le_trans short minimal, Nat.le_refl _⟩, written, _,
                rfl, ?_⟩ more
              rw [size]
              exact block.amount_le_contents isNew

theorem handleComplete_goOn (invariant : reader.Invariant) (more : rest ≠ []) :
    handleComplete memory reader rest 1 = goOn memory rest (handleComplete memory reader [] 1) := by
  unfold handleComplete
  cases state : reader.state with
  | initial =>
      have placed := invariant.inbound_eq_header (by simp [state])
      by_cases named : reader.headerBuffer.bytes.take 4 = protocolName
      · simp only [initialCase_of_protocol placed named]
        rfl
      · simp only [initialCase_of_regular placed named]
        exact headerCase_goOn placed (invariant.offset_le_header (by simp [state])) more
  | header =>
      exact headerCase_goOn (invariant.inbound_eq_header (by simp [state]))
        (invariant.offset_le_header (by simp [state])) more
  | body => exact goOn_bodyCase.symm
  | idle => rfl

/-- A call does what a call with the first octet does, and then one with the rest if
the first octet ends no frame. -/
theorem amqpHandleInput_cons (ready : reader.Ready) (more : rest ≠ []) :
    amqpHandleInput memory reader (octet :: rest) =
      goOn memory rest (amqpHandleInput memory reader [octet]) := by
  have invariant := leaveIdle_invariant ready.invariant
  obtain ⟨stored, first, stores⟩ := consumeData_octet ready octet
  obtain ⟨after, count, second, takes⟩ := consumeData_consumed stores.invariant rest
  obtain ⟨actual, total, consumed, spec⟩ := consumeData_consumed invariant (octet :: rest)
  have both : Consumed (leaveIdle reader) (octet :: rest) after (1 + count) :=
    Consumed.append invariant stores takes
  obtain rfl : total = 1 + count := spec.count_eq.trans both.count_eq.symm
  obtain rfl := Consumed.unique invariant spec both
  have awake : stored.state ≠ .idle := by
    rw [stores.state]
    exact leaveIdle_state_ne_idle
  have whole : amqpHandleInput memory reader (octet :: rest) =
      if actual.inboundOffset < actual.targetSize then
        .ok ⟨actual, .ok (intOfSize (1 + count)), .unset⟩
      else handleComplete memory actual (rest.drop count) (1 + count) := by
    unfold amqpHandleInput
    rw [if_neg (by simp), consumed, Nat.add_comm 1 count]
    rfl
  rw [whole, amqpHandleInput_octet first]
  by_cases room : stored.inboundOffset < stored.targetSize
  · have waits : Handled.unfinished ⟨stored, .ok 1, .unset⟩ = true := by
      simp [Handled.unfinished, awake]
    have next : amqpHandleInput memory stored rest =
        if actual.inboundOffset < actual.targetSize then
          .ok ⟨actual, .ok (intOfSize count), .unset⟩
        else handleComplete memory actual (rest.drop count) count := by
      unfold amqpHandleInput
      rw [if_neg (by simpa using more), leaveIdle_of_ne_idle awake, second]
      rfl
    rw [if_pos room]
    unfold goOn
    rw [Effect.except_bind_ok, if_pos waits, next]
    split
    · rw [intOfSize_add]
      rfl
    · exact handleComplete_later spec.invariant
  · have none : count = 0 := by
      have counted := takes.count_eq
      omega
    subst none
    obtain rfl := Consumed.unique stores.invariant takes (.zero stores.invariant (by omega))
    rw [if_neg room, if_neg room, List.drop_zero]
    exact handleComplete_goOn stores.invariant more

/-- With a complete header in `filled`, the block of the frame was taken. -/
structure Started (filled started : Reader) (mem : Buffer) : Prop where
  state : started.state = .body
  target : started.targetSize =
    headerPayloadSize filled.headerBuffer.bytes + headerSize + footerSize
  within : started.targetSize ≤ sizeOfInt filled.frameMax.toInt
  frameMax : started.frameMax = filled.frameMax
  headerBuffer : started.headerBuffer = filled.headerBuffer
  offset : started.inboundOffset = filled.inboundOffset
  inbound : started.inbound = .block mem started.targetSize
  fits : started.targetSize ≤ mem.size
  copied : mem.bytes.take headerSize = filled.headerBuffer.bytes.take headerSize

/-- In an empty table there is no entry yet. -/
theorem amqpGetOrCreateChannelPool_isNew {after : Reader} {channel : UInt16} {isNew : Bool}
    (empty : reader.poolTable = [])
    (found : amqpGetOrCreateChannelPool memory reader channel = some (after, isNew)) :
    isNew = true := by
  unfold amqpGetOrCreateChannelPool at found
  rw [empty, if_neg List.not_mem_nil] at found
  split at found
  · cases found
    rfl
  · cases found

/-- How a complete header is answered when there is nothing behind it yet: it is
refused, or the body begins. -/
theorem headerCase_begins (placed : reader.inbound = .header) :
    (∃ after status, headerCase memory reader [] 1 = .ok ⟨after, .error status, .unset⟩) ∨
      ∃ started mem, Started reader started mem ∧
        (reader.poolTable = [] → mem.bytes.getD headerSize 0 = 0) ∧
        headerCase memory reader [] 1 = readBody memory started [] 1 := by
  rw [headerCase_eq placed]
  split
  · exact .inl ⟨_, _, rfl⟩
  · dsimp only
    split
    · exact .inl ⟨_, _, rfl⟩
    · rename_i within
      cases found : amqpGetOrCreateChannelPool memory
          (expectFrame reader (headerPayloadSize reader.headerBuffer.bytes))
          (headerChannel reader.headerBuffer.bytes) with
      | none => exact .inl ⟨_, _, rfl⟩
      | some pooled =>
          obtain ⟨pooled, isNew⟩ := pooled
          obtain ⟨_, table, same⟩ := amqpGetOrCreateChannelPool_eq_some found
          dsimp only
          cases granted : memory.block pooled.targetSize with
          | none => exact .inl ⟨_, _, rfl⟩
          | some block =>
              have minimal : headerSize ≤ pooled.targetSize := by
                simp only [same, expectFrame]
                omega
              obtain ⟨written, started, size, bytes⟩ := startBody_eq isNew block minimal
              dsimp only
              rw [started, Effect.except_bind_ok]
              have fits := block.amount_le_contents isNew
              have header : pooled.headerBuffer = reader.headerBuffer := by
                rw [same]
                rfl
              have copied : (reader.headerBuffer.bytes.take headerSize).length = headerSize := by
                rw [List.length_take, reader.headerBuffer.length_eq]
                decide
              have contents : written.bytes = reader.headerBuffer.bytes.take headerSize ++
                  (block.contents isNew).bytes.drop headerSize := by
                rw [bytes, header, List.splice, List.take_zero, List.nil_append, copied,
                  Nat.zero_add]
              refine .inr
                ⟨{ pooled with inbound := .block written pooled.targetSize, state := .body }, written,
                  ⟨rfl, by rw [same]; rfl, ?_, by rw [same]; rfl, header, by rw [same]; rfl,
                    rfl, by rw [size]; exact fits, ?_⟩, ?_, rfl⟩
              · rw [same]
                exact Nat.le_of_not_lt within
              · rw [contents, List.take_append_of_le_length (Nat.le_of_eq copied.symm),
                  List.take_of_length_le (Nat.le_of_eq copied)]
              · intro empty
                have none : (expectFrame reader
                    (headerPayloadSize reader.headerBuffer.bytes)).poolTable = [] := empty
                have new : isNew = true := amqpGetOrCreateChannelPool_isNew none found
                rw [contents, PoolBlock.contents, if_pos new, List.getD_eq_getElem?_getD,
                  List.getElem?_append_right (Nat.le_of_eq copied), copied, Nat.sub_self]
                simp only [Buffer.clear, Buffer.zeros, List.drop_replicate, List.getElem?_replicate]
                split <;> rfl

theorem headerCase_cases (placed : reader.inbound = .header)
    (returned : headerCase memory reader [] 1 = .ok handled) :
    (∃ after status, handled = ⟨after, .error status, .unset⟩) ∨
      ∃ started mem, Started reader started mem ∧ readBody memory started [] 1 = .ok handled := by
  rcases @headerCase_begins memory _ placed with
    ⟨after, status, refused⟩ | ⟨started, mem, begun, _, body⟩
  · exact .inl ⟨after, status, Except.ok.inj (returned.symm.trans refused)⟩
  · exact .inr ⟨started, mem, begun, body.symm.trans returned⟩

theorem readBody_nil (invariant : reader.Invariant) : readBody memory reader [] 1 =
    if reader.inboundOffset < reader.targetSize then .ok ⟨reader, .ok 1, .unset⟩
    else bodyCase memory reader 1 := by
  unfold readBody
  rw [consumeData_nil invariant]
  rfl

theorem Started.invariant {started : Reader} {mem : Buffer} (begun : Started reader started mem)
    (short : reader.inboundOffset ≤ headerSize + 1) : started.Invariant := by
  refine ⟨⟨?_, ?_⟩, ?_⟩
  · rw [begun.offset, begun.target]
    simp only [footerSize]
    omega
  · rw [begun.inbound]
    exact Nat.le_refl _
  · unfold Reader.Placed
    rw [begun.state]
    exact ⟨mem, _, begun.inbound, begun.fits⟩

/-- What can become of a single octet that is accepted. -/
inductive OctetAccepted (reader : Reader) (octet : UInt8) : Handled → Prop where
  | buffered {stored : Reader} : Consumed (leaveIdle reader) [octet] stored 1 →
      stored.inboundOffset < stored.targetSize → OctetAccepted reader octet ⟨stored, .ok 1, .unset⟩
  | protocol {stored : Reader} : Consumed (leaveIdle reader) [octet] stored 1 →
      stored.inboundOffset = stored.targetSize → stored.state = .initial →
      stored.headerBuffer.bytes.take 4 = protocolName →
      OctetAccepted reader octet
        ⟨returnToIdle stored, .ok 1, protocolHeaderFrame stored.headerBuffer.bytes⟩
  | header {stored started : Reader} {mem : Buffer} :
      Consumed (leaveIdle reader) [octet] stored 1 → stored.inboundOffset = stored.targetSize →
      stored.state ≠ .body →
      (stored.state = .initial → stored.headerBuffer.bytes.take 4 ≠ protocolName) →
      Started stored started mem → started.inboundOffset < started.targetSize →
      OctetAccepted reader octet ⟨started, .ok 1, .unset⟩
  | body {stored : Reader} {table : List UInt16} {frame : Frame} :
      Consumed (leaveIdle reader) [octet] stored 1 → stored.inboundOffset = stored.targetSize →
      stored.state = .body →
      OctetAccepted reader octet ⟨returnToIdle { stored with poolTable := table }, .ok 1, frame⟩
  | emptyBody {stored started : Reader} {mem : Buffer} {table : List UInt16} {frame : Frame} :
      Consumed (leaveIdle reader) [octet] stored 1 → stored.inboundOffset = stored.targetSize →
      stored.state ≠ .body →
      (stored.state = .initial → stored.headerBuffer.bytes.take 4 ≠ protocolName) →
      Started stored started mem → started.targetSize ≤ started.inboundOffset →
      OctetAccepted reader octet ⟨returnToIdle { started with poolTable := table }, .ok 1, frame⟩

theorem octetAccepted_of_ok (ready : reader.Ready)
    (returned : amqpHandleInput memory reader [octet] = .ok handled) {count : Int}
    (accepted : handled.result = .ok count) : OctetAccepted reader octet handled := by
  obtain ⟨stored, consumed, stores⟩ := consumeData_octet ready octet
  rw [amqpHandleInput_octet consumed] at returned
  split at returned
  · rename_i room
    cases returned
    exact .buffered stores room
  · rename_i full
    have complete : stored.inboundOffset = stored.targetSize :=
      Nat.le_antisymm stores.invariant.sound.offset_le (Nat.le_of_not_lt full)
    -- Behind the header the frame may be complete, or there is more to come.
    have afterHeader (notBody : stored.state ≠ .body)
        (regular : stored.state = .initial → stored.headerBuffer.bytes.take 4 ≠ protocolName)
        (header : headerCase memory stored [] 1 = .ok handled) :
        OctetAccepted reader octet handled := by
      have placed := stores.invariant.inbound_eq_header notBody
      have short := stores.invariant.offset_le_header notBody
      rcases headerCase_cases placed header with ⟨_, _, rfl⟩ | ⟨started, mem, begun, body⟩
      · cases accepted
      · rw [readBody_nil (begun.invariant short)] at body
        split at body
        · rename_i room
          cases body
          exact .header stores complete notBody regular begun room
        · rename_i whole
          obtain ⟨reader, result, frame⟩ := handled
          obtain ⟨rfl, table, rfl⟩ := bodyCase_accepted body accepted
          cases accepted
          exact .emptyBody stores complete notBody regular begun (Nat.le_of_not_lt whole)
    unfold handleComplete at returned
    cases state : stored.state with
    | initial =>
        rw [state] at returned
        have placed := stores.invariant.inbound_eq_header (by simp [state])
        by_cases named : stored.headerBuffer.bytes.take 4 = protocolName
        · have protocol := returned.symm.trans (initialCase_of_protocol placed named)
          cases protocol
          exact .protocol stores complete state named
        · refine afterHeader (by simp [state]) (fun _ => named) ?_
          rw [← initialCase_of_regular placed named]
          exact returned
    | header =>
        rw [state] at returned
        exact afterHeader (by simp [state]) (fun initial => by simp [state] at initial) returned
    | body =>
        rw [state] at returned
        obtain ⟨reader, result, frame⟩ := handled
        obtain ⟨rfl, table, rfl⟩ := bodyCase_accepted returned accepted
        cases accepted
        exact .body stores complete state
    | idle =>
        rw [state] at returned
        cases returned

theorem octetAccepted_of_unfinished (ready : reader.Ready)
    (returned : amqpHandleInput memory reader [octet] = .ok handled)
    (waits : handled.unfinished = true) : OctetAccepted reader octet handled := by
  cases result : handled.result with
  | error status =>
      unfold Handled.unfinished at waits
      rw [result] at waits
      cases waits
  | ok count => exact octetAccepted_of_ok ready returned result

end Octets

section Ready

variable {memory : FrameMemory} {reader stored : Reader} {octet : UInt8} {handled : Handled}

theorem Reader.Ready.of_consumed {count : Nat} {data : List UInt8} (ready : reader.Ready)
    (consumed : Consumed (leaveIdle reader) data stored count)
    (room : stored.inboundOffset < stored.targetSize) : stored.Ready where
  invariant := consumed.invariant
  room := room
  bounded := by
    rw [consumed.targetSize, leaveIdle_target]
    exact ready.bounded
  limit := by
    obtain ⟨_, same, _⟩ := leaveIdle_eq reader
    rw [consumed.frameMax, same]
    exact ready.limit

theorem Reader.Ready.frameMax_stored {count : Nat} {data : List UInt8} (ready : reader.Ready)
    (consumed : Consumed (leaveIdle reader) data stored count) : 0 ≤ stored.frameMax.toInt := by
  obtain ⟨_, same, _⟩ := leaveIdle_eq reader
  rw [consumed.frameMax, same]
  exact ready.limit

theorem returnToIdle_ready (limit : 0 ≤ reader.frameMax.toInt) : (returnToIdle reader).Ready :=
  ⟨returnToIdle_invariant reader, show 0 < headerSize by decide,
    show headerSize ≤ int32Max by decide, limit⟩

theorem sizeOfInt_le_int32Max {value : Int32} (nonneg : 0 ≤ value.toInt) :
    sizeOfInt value.toInt ≤ int32Max := by
  have small := value.toInt_lt
  rw [sizeOfInt_of_nonneg nonneg small]
  unfold int32Max
  omega

/-- An accepted octet leaves a reader that is ready for the next one. -/
theorem OctetAccepted.ready (accepted : OctetAccepted reader octet handled)
    (ready : reader.Ready) : handled.reader.Ready := by
  cases accepted with
  | buffered stores room => exact ready.of_consumed stores room
  | protocol stores _ _ _ => exact returnToIdle_ready (ready.frameMax_stored stores)
  | header stores full notBody _ begun room =>
      have limit := ready.frameMax_stored stores
      refine ⟨begun.invariant (stores.invariant.offset_le_header notBody), room, ?_, by
        rw [begun.frameMax]
        exact limit⟩
      exact Nat.le_trans begun.within (sizeOfInt_le_int32Max limit)
  | body stores _ _ =>
      have limit := ready.frameMax_stored stores
      exact returnToIdle_ready limit
  | emptyBody stores _ _ _ begun _ =>
      refine returnToIdle_ready ?_
      dsimp only
      rw [begun.frameMax]
      exact ready.frameMax_stored stores

theorem OctetAccepted.result (accepted : OctetAccepted reader octet handled) :
    handled.result = .ok 1 := by
  cases accepted <;> rfl

/-- In the middle of a frame there is nothing to deliver. -/
theorem OctetAccepted.unfinished (accepted : OctetAccepted reader octet handled)
    (waits : handled.unfinished = true) :
    handled.reader.inboundOffset = reader.inboundOffset + 1 ∧ handled.frame = .unset := by
  cases accepted with
  | buffered stores _ => exact ⟨by rw [stores.offset, leaveIdle_offset], rfl⟩
  | protocol _ _ _ _ => cases waits
  | header stores _ _ _ begun _ =>
      exact ⟨by rw [begun.offset, stores.offset, leaveIdle_offset], rfl⟩
  | body _ _ _ => cases waits
  | emptyBody _ _ _ _ _ _ => cases waits

end Ready

/-! ## Whole inputs -/

/-- What the reader has made of its input so far. -/
structure Intake where
  reader : Reader
  framesRead : Nat
  /-- The frames of nonzero type. -/
  frames : List Frame
  /-- The first error code. -/
  error : Option Status

/-- The intake after a call. -/
def Intake.record (intake : Intake) (handled : Handled) : Intake :=
  match handled.result with
  | .error status => { intake with reader := handled.reader, error := some status }
  | .ok _ =>
      { intake with
        reader := handled.reader
        framesRead := intake.framesRead + if handled.reader.state = .idle then 1 else 0
        frames := if handled.frame.frameType = 0 then intake.frames
          else intake.frames ++ [handled.frame] }

/-- Calls with single octets, up to the first error. -/
def Intake.feed (memory : Nat → FrameMemory) (intake : Intake) :
    List UInt8 → Except Fault Intake
  | [] => .ok intake
  | octet :: octets =>
      if intake.error.isSome then
        .ok intake
      else do
        let handled ← amqpHandleInput (memory intake.framesRead) intake.reader [octet]
        (intake.record handled).feed memory octets

/-- The whole input in one buffer: `consume_one_frame` until it is used up. The
number of turns is the number of octets, as each call takes one at least. -/
def Intake.present (memory : Nat → FrameMemory) (intake : Intake) :
    Nat → List UInt8 → Except Fault Intake
  | 0, _ => .ok intake
  | turns + 1, octets =>
      if octets = [] then
        .ok intake
      else do
        let handled ← amqpHandleInput (memory intake.framesRead) intake.reader octets
        match handled.result with
        | .error _ => return intake.record handled
        | .ok res => (intake.record handled).present memory turns (octets.drop (sizeOfInt res))

section Feeding

variable {memory : Nat → FrameMemory} {intake : Intake} {octets : List UInt8}

theorem feed_of_error (failed : intake.error.isSome = true) :
    intake.feed memory octets = .ok intake := by
  cases octets with
  | nil => rfl
  | cons octet octets => exact if_pos failed

theorem feed_append (left right : List UInt8) : intake.feed memory (left ++ right) =
    intake.feed memory left >>= fun after => after.feed memory right := by
  induction left generalizing intake with
  | nil => rfl
  | cons octet left ih =>
      by_cases failed : intake.error.isSome = true
      · rw [feed_of_error failed, feed_of_error failed, Effect.except_bind_ok,
          feed_of_error failed]
      · simp only [List.cons_append, Intake.feed, if_neg failed]
        cases amqpHandleInput (memory intake.framesRead) intake.reader [octet] with
        | error fault => rfl
        | ok handled => exact ih

/-- A call that needs more octets changes nothing but the reader. -/
theorem record_unfinished {handled : Handled} (waits : handled.unfinished = true)
    (nothing : handled.frame = .unset) :
    intake.record handled = { intake with reader := handled.reader } := by
  unfold Handled.unfinished at waits
  unfold Intake.record
  cases returned : handled.result with
  | error status =>
      rw [returned] at waits
      cases waits
  | ok count =>
      rw [returned] at waits
      dsimp only
      rw [if_neg (by simpa using waits), nothing]
      rfl

/-- A call has done what its octets do one by one: all of them after an error or a
fault, and otherwise those that it counts. -/
def CallFeeds (memory : Nat → FrameMemory) (intake : Intake) (octets : List UInt8) :
    Except Fault Handled → Prop
  | .error fault => intake.feed memory octets = .error fault
  | .ok ⟨reader, .error status, frame⟩ =>
      intake.feed memory octets = .ok (intake.record ⟨reader, .error status, frame⟩)
  | .ok ⟨reader, .ok res, frame⟩ => ∃ count : Nat, res = count ∧ 0 < count ∧ count ≤ octets.length ∧
      intake.reader.inboundOffset + count ≤ int32Max ∧ reader.Ready ∧
      intake.feed memory (octets.take count) = .ok (intake.record ⟨reader, .ok res, frame⟩)

theorem feed_octet {octet : UInt8} {octets : List UInt8} {handled : Handled}
    (clean : intake.error = none)
    (returned : amqpHandleInput (memory intake.framesRead) intake.reader [octet] = .ok handled) :
    intake.feed memory (octet :: octets) = (intake.record handled).feed memory octets := by
  simp only [Intake.feed, clean, returned]
  rfl

theorem callFeeds_octet {octet : UInt8} (rest : List UInt8) (ready : intake.reader.Ready)
    (clean : intake.error = none) {handled : Handled}
    (returned : amqpHandleInput (memory intake.framesRead) intake.reader [octet] = .ok handled) :
    CallFeeds memory intake (octet :: rest) (.ok handled) := by
  obtain ⟨reader, result, frame⟩ := handled
  cases result with
  | error status =>
      show intake.feed memory (octet :: rest) = _
      rw [feed_octet clean returned]
      exact feed_of_error rfl
  | ok res =>
      have accepted := octetAccepted_of_ok ready returned rfl
      have one : res = 1 := Except.ok.inj accepted.result
      subst one
      have room := ready.room
      have bounded := ready.bounded
      refine ⟨1, rfl, Nat.one_pos, by simp, by omega, accepted.ready ready, ?_⟩
      rw [List.take_succ_cons, List.take_zero, feed_octet clean returned]
      rfl

/-- A recorded call depends neither on the reader before it nor on its count. -/
theorem record_count {before reader : Reader} {frame : Frame} (count other : Int) :
    Intake.record { intake with reader := before } ⟨reader, .ok count, frame⟩ =
      intake.record ⟨reader, .ok other, frame⟩ := rfl

private theorem later_count {count : Nat} (bounded : 1 + count ≤ int32Max) :
    (((1 : Nat) : Int) + (count : Int)).bmod (2 ^ 32) = ((1 + count : Nat) : Int) := by
  unfold int32Max at bounded
  rw [← Int.natCast_add]
  exact Int.bmod_eq_of_le (by omega) (by omega)

theorem feed_of_handleInput (ready : intake.reader.Ready) (clean : intake.error = none)
    (more : octets ≠ []) : CallFeeds memory intake octets
      (amqpHandleInput (memory intake.framesRead) intake.reader octets) := by
  induction octets generalizing intake with
  | nil => exact absurd rfl more
  | cons octet rest ih =>
      cases first : amqpHandleInput (memory intake.framesRead) intake.reader [octet] with
      | error fault =>
          have fails : intake.feed memory (octet :: rest) = .error fault := by
            simp only [Intake.feed, clean, first]
            rfl
          by_cases last : rest = []
          · rw [last] at fails ⊢
            rw [first]
            exact fails
          · rw [amqpHandleInput_cons ready last, first]
            exact fails
      | ok handled =>
          by_cases last : rest = []
          · subst last
            rw [first]
            exact callFeeds_octet [] ready clean first
          · rw [amqpHandleInput_cons ready last, first]
            unfold goOn
            rw [Effect.except_bind_ok]
            by_cases waits : handled.unfinished = true
            · rw [if_pos waits]
              -- The rest of the octets meets the reader that the first one has left.
              have accepted := octetAccepted_of_unfinished ready first waits
              obtain ⟨offset, nothing⟩ := accepted.unfinished waits
              have recorded := @record_unfinished intake _ waits nothing
              have continues := @ih (intake.record handled)
                (by rw [recorded]; exact accepted.ready ready) (by rw [recorded]; exact clean) last
              have fed (octets : List UInt8) : intake.feed memory (octet :: octets) =
                  (intake.record handled).feed memory octets := feed_octet clean first
              rw [recorded] at continues fed
              dsimp only at continues
              cases second : amqpHandleInput (memory intake.framesRead) handled.reader rest with
              | error fault =>
                  rw [second] at continues
                  exact (fed rest).trans continues
              | ok final =>
                  rw [second] at continues
                  obtain ⟨reader, result, frame⟩ := final
                  cases result with
                  | error status => exact (fed rest).trans continues
                  | ok res =>
                      obtain ⟨count, rfl, positive, within, bounded, still, feeds⟩ := continues
                      dsimp only at bounded
                      rw [offset] at bounded
                      refine ⟨1 + count, ?_, by omega, by rw [List.length_cons]; omega, by omega,
                        still, ?_⟩
                      · exact later_count (by omega)
                      · rw [Nat.add_comm, List.take_succ_cons, fed, feeds]
                        exact congrArg Except.ok (record_count _ _)
            · rw [if_neg waits]
              exact callFeeds_octet rest ready clean first

/-- The whole input in one buffer is taken octet by octet. -/
theorem present_eq_feed (ready : intake.reader.Ready) (clean : intake.error = none) {turns : Nat}
    (enough : octets.length ≤ turns) :
    intake.present memory turns octets = intake.feed memory octets := by
  induction turns generalizing intake octets with
  | zero =>
      rw [List.length_eq_zero_iff.mp (Nat.le_zero.mp enough)]
      rfl
  | succ turns ih =>
      unfold Intake.present
      by_cases last : octets = []
      · rw [if_pos last, last]
        rfl
      · rw [if_neg last]
        have feeds := @feed_of_handleInput memory _ _ ready clean last
        cases returned : amqpHandleInput (memory intake.framesRead) intake.reader octets with
        | error fault =>
            rw [returned] at feeds
            exact feeds.symm
        | ok handled =>
            rw [returned] at feeds
            obtain ⟨reader, result, frame⟩ := handled
            cases result with
            | error status => exact feeds.symm
            | ok res =>
                obtain ⟨count, rfl, positive, within, bounded, still, feeds⟩ := feeds
                have size : sizeOfInt (count : Int) = count := by
                  apply sizeOfInt_natCast
                  unfold int32Max at bounded
                  omega
                rw [Effect.except_bind_ok]
                dsimp only
                have continues := @ih (intake.record ⟨reader, .ok count, frame⟩)
                  (octets.drop count) still clean (by rw [List.length_drop]; omega)
                rw [size, continues]
                conv_rhs => rw [← List.take_append_drop count octets]
                rw [feed_append, feeds]
                rfl

end Feeding

end RabbitmqC
