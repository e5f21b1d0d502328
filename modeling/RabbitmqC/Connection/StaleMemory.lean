import RabbitmqC.Connection.Chunks
import RabbitmqC.Connection.PayloadSlices

/-!
# Input and the memory it is stored in

The blocks for frames come from pools and still hold older octets. As long as the
payload of every method and content header frame has its fixed part, these have
no influence on what the reader makes of its input.
-/

set_option autoImplicit false

namespace RabbitmqC

/-! ## Positions in a stream -/

/-- Where in a stream of frames the next octet stands. -/
inductive Position where
  /-- Among the first eight octets of the stream. -/
  | opening (seen : List UInt8)
  | header (seen : List UInt8)
  /-- Behind a header, with `left` octets to come, the frame-end octet included. -/
  | payload (frameType : UInt8) (size left : Nat)
  deriving DecidableEq

/-- Behind a complete header, and possibly one octet more. -/
def Position.behind (octets : List UInt8) : Position :=
  let size := headerPayloadSize octets
  if size + headerSize + footerSize ≤ octets.length then .header []
  else .payload (octets.headD 0) size (size + headerSize + footerSize - octets.length)

def Position.next : Position → UInt8 → Position
  | .opening seen, octet =>
      if seen.length + 1 < headerSize + 1 then .opening (seen ++ [octet])
      else if (seen ++ [octet]).take 4 = protocolName then .header []
      else .behind (seen ++ [octet])
  | .header seen, octet =>
      if seen.length + 1 < headerSize then .header (seen ++ [octet]) else .behind (seen ++ [octet])
  | .payload frameType size left, _ =>
      if left ≤ 1 then .header [] else .payload frameType size (left - 1)

/-- The next octet ends a frame whose payload lacks a part of its fixed octets. -/
def Position.EndsShort : Position → Prop
  | .payload frameType size left => left ≤ 1 ∧ size < fixedPayload frameType
  | _ => False

instance (position : Position) : Decidable position.EndsShort := by
  cases position <;> unfold Position.EndsShort <;> infer_instance

/-- No frame that ends in the stream lacks fixed octets. -/
def Regular : Position → List UInt8 → Prop
  | _, [] => True
  | position, octet :: octets => ¬ position.EndsShort ∧ Regular (position.next octet) octets

instance decidableRegular : (position : Position) → (octets : List UInt8) →
    Decidable (Regular position octets)
  | _, [] => isTrue trivial
  | position, octet :: octets =>
      have := decidableRegular (position.next octet) octets
      inferInstanceAs (Decidable (_ ∧ _))

theorem Regular.prefix {position : Position} {left right : List UInt8}
    (regular : Regular position (left ++ right)) : Regular position left := by
  induction left generalizing position with
  | nil => trivial
  | cons octet left ih => exact ⟨regular.1, ih regular.2⟩

/-- The position behind some octets. -/
def Position.after (position : Position) (octets : List UInt8) : Position :=
  octets.foldl .next position

theorem Regular.suffix {position : Position} {left right : List UInt8}
    (regular : Regular position (left ++ right)) : Regular (position.after left) right := by
  induction left generalizing position with
  | nil => exact regular
  | cons octet left ih => exact ih regular.2

/-! ## The position of a reader -/

/-- The octets in front of `inbound_offset`. -/
def Reader.buffered (reader : Reader) : List UInt8 :=
  match reader.inbound with
  | .header => reader.headerBuffer.bytes.take reader.inboundOffset
  | .block mem _ => mem.bytes.take reader.inboundOffset
  | .null => []

def Reader.position (reader : Reader) : Position :=
  match reader.state with
  | .initial => .opening reader.buffered
  | .idle | .header => .header reader.buffered
  | .body => .payload (reader.headerBuffer.bytes.headD 0)
      (headerPayloadSize reader.headerBuffer.bytes) (reader.targetSize - reader.inboundOffset)

/-- The size that the reader expects, given its state. -/
structure Reader.Framed (reader : Reader) : Prop where
  ready : reader.Ready
  initial : reader.state = .initial → reader.targetSize = headerSize + 1 ∧ reader.poolTable = []
  idle : reader.state = .idle → reader.inboundOffset = 0
  header : reader.state = .idle ∨ reader.state = .header → reader.targetSize = headerSize
  body : reader.state = .body →
    reader.targetSize = headerPayloadSize reader.headerBuffer.bytes + headerSize + footerSize ∧
    headerSize ≤ reader.inboundOffset ∧
    reader.buffered.take headerSize = reader.headerBuffer.bytes.take headerSize

section Position

variable {reader stored started : Reader} {octet : UInt8} {handled : Handled} {mem : Buffer}

theorem returnToIdle_framed (limit : 0 ≤ reader.frameMax.toInt) : (returnToIdle reader).Framed where
  ready := returnToIdle_ready limit
  initial impossible := by cases impossible
  idle _ := rfl
  header _ := rfl
  body impossible := by cases impossible

theorem returnToIdle_position : (returnToIdle reader).position = .header [] := rfl

theorem leaveIdle_buffered : (leaveIdle reader).buffered = reader.buffered := by
  obtain ⟨_, same, _⟩ := leaveIdle_eq reader
  rw [same]
  rfl

/-- A stored octet is behind those that were buffered. -/
theorem Consumed.buffered (invariant : reader.Invariant)
    (stores : Consumed reader [octet] stored 1) :
    stored.buffered = reader.buffered ++ [octet] := by
  have counted := stores.count_eq
  simp only [List.length_cons, List.length_nil] at counted
  have targetLe := invariant.sound.target_le
  have spliced {bytes : List UInt8} (fits : reader.inboundOffset < bytes.length) :
      (bytes.splice reader.inboundOffset [octet]).take (reader.inboundOffset + 1) =
        bytes.take reader.inboundOffset ++ [octet] := by
    have length : (bytes.take reader.inboundOffset ++ [octet]).length =
        reader.inboundOffset + 1 := by
      rw [List.length_append, List.length_take_of_le (Nat.le_of_lt fits)]
      rfl
    rw [List.splice, List.take_append_of_le_length (Nat.le_of_eq length.symm),
      List.take_of_length_le (Nat.le_of_eq length)]
  by_cases inBody : reader.state = .body
  · have placed := invariant.placed
    simp only [Reader.Placed, inBody] at placed
    obtain ⟨mem, amount, same, fits⟩ := placed
    obtain ⟨_, written, inbound, bytes⟩ := stores.block mem amount same
    rw [same] at targetLe
    simp only [Inbound.size] at targetLe
    unfold Buffer.size at fits
    simp only [Reader.buffered, inbound, same, stores.offset, bytes]
    exact spliced (by omega)
  · have placed := invariant.inbound_eq_header inBody
    have still := stores.invariant.inbound_eq_header (by rw [stores.state]; exact inBody)
    rw [placed] at targetLe
    simp only [Inbound.size] at targetLe
    simp only [Reader.buffered, still, placed, stores.offset, stores.header placed]
    exact spliced (by rw [reader.headerBuffer.length_eq]; omega)

/-- A declared size lies in the first seven octets. -/
theorem headerPayloadSize_take {octets : List UInt8} {count : Nat} (enough : headerSize ≤ count) :
    headerPayloadSize (octets.take count) = headerPayloadSize octets := by
  unfold headerPayloadSize List.slice
  rw [List.drop_take, List.take_take, Nat.min_eq_left]
  simp only [headerSize] at enough
  omega

theorem headerPayloadSize_lt (octets : List UInt8) : headerPayloadSize octets < 2 ^ 32 := by
  have width : (octets.slice 3 4).length ≤ 4 := by
    unfold List.slice
    exact List.length_take_le 4 _
  refine Nat.lt_of_lt_of_le (BigEndian.value_lt _) ?_
  calc 256 ^ (octets.slice 3 4).length ≤ 256 ^ 4 := Nat.pow_le_pow_right (by decide) width
    _ = 2 ^ 32 := by decide

theorem Started.buffered (begun : Started stored started mem)
    (complete : headerSize ≤ stored.inboundOffset) :
    started.buffered.take headerSize = started.headerBuffer.bytes.take headerSize := by
  simp only [Reader.buffered, begun.inbound, begun.offset, List.take_take, Nat.min_eq_left complete]
  rw [begun.copied, begun.headerBuffer]

theorem Reader.Invariant.length_buffered (invariant : reader.Invariant) :
    reader.buffered.length = reader.inboundOffset := by
  have offsetLe := invariant.sound.offset_le
  have targetLe := invariant.sound.target_le
  by_cases inBody : reader.state = .body
  · have placed := invariant.placed
    simp only [Reader.Placed, inBody] at placed
    obtain ⟨mem, amount, same, fits⟩ := placed
    rw [same] at targetLe
    simp only [Inbound.size] at targetLe
    unfold Buffer.size at fits
    simp only [Reader.buffered, same]
    exact List.length_take_of_le (by omega)
  · have placed := invariant.inbound_eq_header inBody
    rw [placed] at targetLe
    simp only [Inbound.size] at targetLe
    simp only [Reader.buffered, placed]
    exact List.length_take_of_le (by rw [reader.headerBuffer.length_eq]; omega)

/-- In front of a frame, the header buffer begins with what is buffered. -/
theorem Reader.Invariant.behind_eq (invariant : stored.Invariant) (notBody : stored.state ≠ .body)
    (complete : headerSize ≤ stored.inboundOffset) :
    Position.behind stored.buffered =
      if headerPayloadSize stored.headerBuffer.bytes + headerSize + footerSize ≤
          stored.inboundOffset then .header []
      else .payload (stored.headerBuffer.bytes.headD 0)
        (headerPayloadSize stored.headerBuffer.bytes)
        (headerPayloadSize stored.headerBuffer.bytes + headerSize + footerSize -
          stored.inboundOffset) := by
  have length := invariant.length_buffered
  have placed := invariant.inbound_eq_header notBody
  have same : stored.buffered = stored.headerBuffer.bytes.take stored.inboundOffset := by
    simp only [Reader.buffered, placed]
  have first : stored.buffered.headD 0 = stored.headerBuffer.bytes.headD 0 := by
    rw [same]
    cases stored.headerBuffer.bytes with
    | nil => rw [List.take_nil]
    | cons octet octets =>
        obtain ⟨count, offset⟩ : ∃ count, stored.inboundOffset = count + 1 :=
          ⟨stored.inboundOffset - 1, by simp only [headerSize] at complete; omega⟩
        rw [offset]
        rfl
  unfold Position.behind
  rw [length, first, same, headerPayloadSize_take complete]

/-- Behind a header the reader's position is behind the octets it has buffered. -/
theorem next_eq_behind (framed : reader.Framed)
    (stores : Consumed (leaveIdle reader) [octet] stored 1)
    (complete : stored.inboundOffset = stored.targetSize) (notBody : stored.state ≠ .body)
    (regular : stored.state = .initial → stored.headerBuffer.bytes.take 4 ≠ protocolName) :
    headerSize ≤ stored.inboundOffset ∧
      reader.position.next octet = Position.behind stored.buffered := by
  have buffered := stores.buffered (leaveIdle_invariant framed.ready.invariant)
  have length := framed.ready.invariant.length_buffered
  have offset := stores.offset
  have target := stores.targetSize
  have placed := stores.invariant.inbound_eq_header notBody
  have same : stored.buffered = stored.headerBuffer.bytes.take stored.inboundOffset := by
    simp only [Reader.buffered, placed]
  have state := stores.state
  rw [leaveIdle_buffered] at buffered
  rw [leaveIdle_offset] at offset
  rw [leaveIdle_target] at target
  unfold Reader.position
  cases before : reader.state with
  | body =>
      rw [leaveIdle_of_ne_idle (by simp [before]), before] at state
      exact absurd state notBody
  | initial =>
      rw [leaveIdle_of_ne_idle (by simp [before]), before] at state
      have expected := (framed.initial before).1
      refine ⟨by omega, ?_⟩
      simp only [Position.next]
      rw [if_neg (by omega), ← buffered, if_neg]
      rw [same, List.take_take, Nat.min_eq_left (by simp only [headerSize] at expected; omega)]
      exact regular state
  | idle =>
      have expected := framed.header (.inl before)
      refine ⟨by omega, ?_⟩
      simp only [Position.next]
      rw [if_neg (by omega), ← buffered]
  | header =>
      have expected := framed.header (.inr before)
      refine ⟨by omega, ?_⟩
      simp only [Position.next]
      rw [if_neg (by omega), ← buffered]

/-- An octet in the middle of a header or a payload. -/
theorem Reader.Framed.of_consumed (framed : reader.Framed)
    (stores : Consumed (leaveIdle reader) [octet] stored 1)
    (room : stored.inboundOffset < stored.targetSize) :
    stored.Framed ∧ stored.position = reader.position.next octet := by
  have invariant := leaveIdle_invariant framed.ready.invariant
  have buffered := stores.buffered invariant
  have length := framed.ready.invariant.length_buffered
  have state := stores.state
  have offset := stores.offset
  have target := stores.targetSize
  have table := stores.poolTable
  rw [leaveIdle_buffered] at buffered
  rw [leaveIdle_offset] at offset
  rw [leaveIdle_target] at target
  have ready := framed.ready.of_consumed stores room
  unfold Reader.position
  cases before : reader.state with
  | initial =>
      rw [leaveIdle_of_ne_idle (by simp [before])] at state table
      rw [before] at state
      obtain ⟨expected, empty⟩ := framed.initial before
      refine ⟨⟨ready, fun _ => ⟨by omega, table.trans empty⟩, by simp [state], by simp [state],
        by simp [state]⟩, ?_⟩
      simp only [state, Position.next]
      rw [if_pos (by omega), buffered]
  | idle =>
      have expected := framed.header (.inl before)
      have woken : (leaveIdle reader).state = .header := by
        unfold leaveIdle
        rw [if_pos before]
      rw [woken] at state
      refine ⟨⟨ready, by simp [state], by simp [state], fun _ => by omega, by simp [state]⟩, ?_⟩
      simp only [state, Position.next]
      rw [if_pos (by omega), buffered]
  | header =>
      rw [leaveIdle_of_ne_idle (by simp [before]), before] at state
      have expected := framed.header (.inr before)
      refine ⟨⟨ready, by simp [state], by simp [state], fun _ => by omega, by simp [state]⟩, ?_⟩
      simp only [state, Position.next]
      rw [if_pos (by omega), buffered]
  | body =>
      rw [leaveIdle_of_ne_idle (by simp [before])] at state stores
      rw [before] at state
      obtain ⟨expected, behind, copied⟩ := framed.body before
      have placed := framed.ready.invariant.placed
      simp only [Reader.Placed, before] at placed
      obtain ⟨mem, amount, same, _⟩ := placed
      obtain ⟨header, _⟩ := stores.block mem amount same
      refine ⟨⟨ready, by simp [state], by simp [state], by simp [state],
        fun _ => ⟨by rw [header]; omega, by omega, ?_⟩⟩, ?_⟩
      · rw [buffered, header, List.take_append_of_le_length (by omega), copied]
      · simp only [state, Position.next]
        rw [if_neg (by omega), header, offset, target, Nat.sub_add_eq]

/-- The reader's position moves with each accepted octet. -/
theorem OctetAccepted.framed (accepted : OctetAccepted reader octet handled)
    (framed : reader.Framed) :
    handled.reader.Framed ∧ handled.reader.position = reader.position.next octet := by
  cases accepted with
  | buffered stores room => exact framed.of_consumed stores room
  | protocol stores full initial named =>
      refine ⟨returnToIdle_framed (framed.ready.frameMax_stored stores), ?_⟩
      have awake : reader.state = .initial := by
        have state := stores.state
        obtain ⟨_, same, _, opening⟩ := leaveIdle_eq reader
        rw [same, initial] at state
        exact opening.mp state.symm
      have buffered := stores.buffered (leaveIdle_invariant framed.ready.invariant)
      have length := framed.ready.invariant.length_buffered
      have offset := stores.offset
      have target := stores.targetSize
      have placed := stores.invariant.inbound_eq_header (by simp [initial])
      have expected := (framed.initial awake).1
      rw [leaveIdle_buffered] at buffered
      rw [leaveIdle_offset] at offset
      rw [leaveIdle_target] at target
      rw [returnToIdle_position]
      simp only [Reader.position, awake, Position.next]
      rw [if_neg (by omega), ← buffered, if_pos]
      simp only [Reader.buffered, placed, List.take_take]
      rw [Nat.min_eq_left (by simp only [headerSize] at expected; omega)]
      exact named
  | header stores full notBody regular begun room =>
      obtain ⟨complete, next⟩ := next_eq_behind framed stores full notBody regular
      have ready : Reader.Ready _ :=
        (OctetAccepted.header stores full notBody regular begun room).ready framed.ready
      have target := begun.target
      have offset := begun.offset
      refine ⟨⟨ready, by simp [begun.state], by simp [begun.state], by simp [begun.state],
        fun _ => ⟨?_, by dsimp only; omega, begun.buffered complete⟩⟩, ?_⟩
      · rw [begun.headerBuffer]
        exact target
      · rw [next, stores.invariant.behind_eq notBody complete, if_neg (by omega)]
        simp only [Reader.position, begun.state]
        rw [begun.headerBuffer, target, offset]
  | body stores full inBody =>
      have limit := framed.ready.frameMax_stored stores
      refine ⟨returnToIdle_framed limit, ?_⟩
      have offset := stores.offset
      have target := stores.targetSize
      have awake : reader.state = .body := by
        have state := stores.state
        obtain ⟨_, same, body, _⟩ := leaveIdle_eq reader
        rw [same, inBody] at state
        exact body.mp state.symm
      rw [leaveIdle_offset] at offset
      rw [leaveIdle_target] at target
      rw [returnToIdle_position]
      simp only [Reader.position, awake, Position.next]
      rw [if_pos (by omega)]
  | emptyBody stores full notBody regular begun whole =>
      obtain ⟨complete, next⟩ := next_eq_behind framed stores full notBody regular
      have target := begun.target
      have offset := begun.offset
      refine ⟨returnToIdle_framed (by rw [begun.frameMax]; exact framed.ready.frameMax_stored stores),
        ?_⟩
      rw [next, stores.invariant.behind_eq notBody complete, if_pos (by omega)]
      rfl

end Position

/-! ## Readers with different memory -/

/-- The readers have made the same of the same input. -/
structure Reader.SameInput (reader other : Reader) : Prop where
  state : other.state = reader.state
  frameMax : other.frameMax = reader.frameMax
  headerBuffer : other.headerBuffer = reader.headerBuffer
  offset : other.inboundOffset = reader.inboundOffset
  target : other.targetSize = reader.targetSize
  buffered : other.buffered = reader.buffered

/-- Allocations turn out in the same way, whatever the blocks may hold. -/
structure FrameMemory.Alike (memory other : FrameMemory) : Prop where
  poolEntry : memory.poolEntry = true ∧ other.poolEntry = true
  block : ∀ amount, (other.block amount).isSome = (memory.block amount).isSome
  allocs : memory.allocs = other.allocs

structure Handled.Alike (handled other : Handled) : Prop where
  result : other.result = handled.result
  frame : other.frame = handled.frame
  reader : handled.reader.SameInput other.reader

section Alike

variable {memory otherMemory : FrameMemory} {reader other stored otherStored : Reader}
  {octet : UInt8} {handled : Handled}

theorem Reader.SameInput.refl (reader : Reader) : reader.SameInput reader :=
  ⟨rfl, rfl, rfl, rfl, rfl, rfl⟩

theorem Reader.SameInput.leaveIdle (same : reader.SameInput other) :
    (leaveIdle reader).SameInput (leaveIdle other) := by
  unfold RabbitmqC.leaveIdle
  rw [same.state]
  split
  · exact ⟨rfl, same.frameMax, same.headerBuffer, same.offset, same.target, same.buffered⟩
  · exact same

theorem Reader.SameInput.returnToIdle (frameMax : other.frameMax = reader.frameMax)
    (headerBuffer : other.headerBuffer = reader.headerBuffer) :
    (returnToIdle reader).SameInput (returnToIdle other) :=
  ⟨rfl, frameMax, headerBuffer, rfl, rfl, rfl⟩

theorem HeaderBuffer.ext {left right : HeaderBuffer} (same : left.bytes = right.bytes) :
    left = right := by
  cases left
  cases right
  congr

theorem Reader.SameInput.consumed (same : reader.SameInput other) (invariant : reader.Invariant)
    (otherInvariant : other.Invariant) (stores : Consumed reader [octet] stored 1)
    (otherStores : Consumed other [octet] otherStored 1) : stored.SameInput otherStored where
  state := by rw [stores.state, otherStores.state, same.state]
  frameMax := by rw [stores.frameMax, otherStores.frameMax, same.frameMax]
  headerBuffer := by
    by_cases inBody : reader.state = .body
    · have placed := invariant.placed
      have otherPlaced := otherInvariant.placed
      simp only [Reader.Placed, same.state, inBody] at placed otherPlaced
      obtain ⟨mem, amount, block, _⟩ := placed
      obtain ⟨otherMem, otherAmount, otherBlock, _⟩ := otherPlaced
      rw [(stores.block _ _ block).1, (otherStores.block _ _ otherBlock).1, same.headerBuffer]
    · refine HeaderBuffer.ext ?_
      rw [stores.header (invariant.inbound_eq_header inBody), otherStores.header
        (otherInvariant.inbound_eq_header (by rw [same.state]; exact inBody)),
        same.headerBuffer, same.offset]
  offset := by rw [stores.offset, otherStores.offset, same.offset]
  target := by rw [stores.targetSize, otherStores.targetSize, same.target]
  buffered := by
    rw [stores.buffered invariant, otherStores.buffered otherInvariant, same.buffered]

/-- A word in the common part of two memory objects. -/
theorem rawWord_congr {raw otherRaw : Buffer} {span : View} {count : Nat}
    (same : otherRaw.bytes.take count = raw.bytes.take count) (inside : span.base + span.len ≤ count)
    (fits : count ≤ raw.size) (otherFits : count ≤ otherRaw.size) :
    rawWord otherRaw span = rawWord raw span := by
  have sliced (bytes : List UInt8) :
      bytes.slice span.base span.len = (bytes.take count).slice span.base span.len := by
    unfold List.slice
    rw [List.drop_take, List.take_take, Nat.min_eq_left (by omega)]
  rw [rawWord_eq (by omega), rawWord_eq (by omega), sliced, sliced raw.bytes, same]

theorem amqpGetOrCreateChannelPool_of_granted (granted : memory.poolEntry = true)
    (reader : Reader) (channel : UInt16) : ∃ table,
      amqpGetOrCreateChannelPool memory reader channel =
        some ({ reader with poolTable := table }, decide (channel ∉ reader.poolTable)) := by
  unfold amqpGetOrCreateChannelPool
  by_cases member : channel ∈ reader.poolTable
  · exact ⟨reader.poolTable, by simp [member]⟩
  · exact ⟨channel :: reader.poolTable, by simp [member, granted]⟩

/-- The first octet of a memory object. -/
theorem rawWord_first {raw : Buffer} (fits : 0 < raw.size) :
    (UInt8.ofNat <$> rawWord raw ⟨0, 1⟩ : Except Fault UInt8) = .ok (raw.bytes.headD 0) := by
  obtain ⟨bytes, bound⟩ := raw
  cases bytes with
  | nil => exact absurd fits (Nat.lt_irrefl 0)
  | cons octet octets =>
      rw [rawWord_eq (show 0 + 1 ≤ Buffer.size _ from fits)]
      refine congrArg Except.ok ?_
      simp [List.slice, BigEndian.value]

theorem headD_take {octets : List UInt8} {count : Nat} (positive : 0 < count) :
    (octets.take count).headD 0 = octets.headD 0 := by
  cases octets with
  | nil => rw [List.take_nil]
  | cons octet octets =>
      obtain ⟨fewer, rfl⟩ : ∃ fewer, count = fewer + 1 := ⟨count - 1, by omega⟩
      rfl

/-- Two memory objects that begin alike hold the same payload. -/
theorem holds_of_take {raw otherRaw : Buffer} {count size : Nat}
    (same : otherRaw.bytes.take count = raw.bytes.take count) (inside : headerSize + size ≤ count)
    (fits : count ≤ raw.size) (otherFits : count ≤ otherRaw.size) :
    ∃ payload : List UInt8, payload.length = size ∧ raw.Holds headerSize payload ∧
      otherRaw.Holds headerSize payload := by
  have sliced (bytes : List UInt8) :
      bytes.slice headerSize size = (bytes.take count).slice headerSize size := by
    unfold List.slice
    rw [List.drop_take, List.take_take, Nat.min_eq_left (by omega)]
  have length : (raw.bytes.slice headerSize size).length = size :=
    List.length_slice (by unfold Buffer.size at fits; omega)
  refine ⟨raw.bytes.slice headerSize size, length, ⟨by omega, by rw [length]⟩, by omega, ?_⟩
  rw [length, sliced, same, ← sliced]

/-- The body case goes the same way where the words it reads are the same. -/
theorem bodyCase_alike_of_words {raw otherRaw : Buffer} {amount otherAmount : Nat}
    {frameType : UInt8} (alike : memory.Alike otherMemory) (same : reader.SameInput other)
    (block : reader.inbound = .block raw amount)
    (otherBlock : other.inbound = .block otherRaw otherAmount)
    (last : rawWord otherRaw ⟨sizeSub reader.targetSize 1, 1⟩ =
      rawWord raw ⟨sizeSub reader.targetSize 1, 1⟩)
    (channels : rawWord otherRaw ⟨1, 2⟩ = rawWord raw ⟨1, 2⟩)
    (first : (UInt8.ofNat <$> rawWord raw ⟨0, 1⟩ : Except Fault UInt8) = .ok frameType)
    (otherFirst : (UInt8.ofNat <$> rawWord otherRaw ⟨0, 1⟩ : Except Fault UInt8) = .ok frameType)
    (decoded : ∀ channel, decodePayload memory raw reader.targetSize frameType channel =
      decodePayload otherMemory otherRaw reader.targetSize frameType channel)
    (returned : bodyCase memory reader 1 = .ok handled) :
    ∃ otherHandled, bodyCase otherMemory other 1 = .ok otherHandled ∧
      handled.Alike otherHandled := by
  unfold bodyCase at returned ⊢
  simp only [Reader.rawFrame, block, otherBlock, Effect.except_bind_ok, same.target] at returned ⊢
  rw [last, channels, otherFirst]
  rw [first] at returned
  cases frameEnd : rawWord raw ⟨sizeSub reader.targetSize 1, 1⟩ with
  | error fault =>
      rw [frameEnd] at returned
      cases returned
  | ok ending =>
      rw [frameEnd] at returned
      simp only [Effect.except_bind_ok] at returned ⊢
      split at returned
      · rename_i wrong
        rw [if_pos wrong]
        cases returned
        exact ⟨_, rfl, rfl, rfl, same⟩
      · rename_i right
        rw [if_neg right]
        obtain ⟨channel, word, returned⟩ := Effect.except_bind_eq_ok.mp returned
        rw [word, Effect.except_bind_ok]
        obtain ⟨table, pooled⟩ :=
          amqpGetOrCreateChannelPool_of_granted alike.poolEntry.1 reader channel
        obtain ⟨otherTable, otherPooled⟩ :=
          amqpGetOrCreateChannelPool_of_granted alike.poolEntry.2 other channel
        rw [pooled] at returned
        rw [otherPooled]
        dsimp only at returned ⊢
        rw [decoded] at returned
        rw [same.target]
        obtain ⟨⟨result, frame⟩, payload, returned⟩ := Effect.except_bind_eq_ok.mp returned
        rw [payload, Effect.except_bind_ok]
        cases result with
        | error status =>
            cases returned
            exact ⟨_, rfl, rfl, rfl, same.state, same.frameMax, same.headerBuffer, same.offset,
              rfl, same.buffered⟩
        | ok _ =>
            cases returned
            exact ⟨_, rfl, rfl, rfl, .returnToIdle same.frameMax same.headerBuffer⟩

/-- A complete frame is decoded in the same way from both memory objects. -/
theorem bodyCase_alike (alike : memory.Alike otherMemory) (same : reader.SameInput other)
    (invariant : reader.Invariant) (otherInvariant : other.Invariant)
    (inBody : reader.state = .body) (full : reader.inboundOffset = reader.targetSize)
    (target : reader.targetSize =
      headerPayloadSize reader.headerBuffer.bytes + headerSize + footerSize)
    (copied : reader.buffered.take headerSize = reader.headerBuffer.bytes.take headerSize)
    (fixed : fixedPayload (reader.headerBuffer.bytes.headD 0) ≤
      headerPayloadSize reader.headerBuffer.bytes)
    (returned : bodyCase memory reader 1 = .ok handled) :
    ∃ otherHandled, bodyCase otherMemory other 1 = .ok otherHandled ∧
      handled.Alike otherHandled := by
  have bounded := invariant.size_lt
  have targetLe := invariant.sound.target_le
  have otherTargetLe := otherInvariant.sound.target_le
  have placed := invariant.placed
  have otherPlaced := otherInvariant.placed
  simp only [Reader.Placed, same.state, inBody] at placed otherPlaced
  obtain ⟨raw, amount, block, fits⟩ := placed
  obtain ⟨otherRaw, otherAmount, otherBlock, otherFits⟩ := otherPlaced
  rw [block] at targetLe bounded
  rw [otherBlock, same.target] at otherTargetLe
  simp only [Inbound.size] at targetLe otherTargetLe bounded
  have taken : otherRaw.bytes.take reader.targetSize = raw.bytes.take reader.targetSize := by
    have buffered := same.buffered
    simp only [Reader.buffered, block, otherBlock, same.offset, full] at buffered
    exact buffered
  have fits : reader.targetSize ≤ raw.size := by omega
  have otherFits : reader.targetSize ≤ otherRaw.size := by omega
  have long : headerSize + footerSize ≤ reader.targetSize := by omega
  have positive : 0 < reader.targetSize := Nat.lt_of_lt_of_le (by decide) long
  have first : raw.bytes.headD 0 = reader.headerBuffer.bytes.headD 0 := by
    rw [← @headD_take reader.headerBuffer.bytes _ (show 0 < headerSize by decide), ← copied,
      headD_take (by decide)]
    simp only [Reader.buffered, block]
    rw [headD_take]
    rw [full]
    exact positive
  have otherFirst : otherRaw.bytes.headD 0 = raw.bytes.headD 0 := by
    rw [← headD_take positive, taken, headD_take positive]
  have within : headerSize + headerPayloadSize reader.headerBuffer.bytes ≤ reader.targetSize := by
    rw [target]
    simp only [footerSize]
    omega
  obtain ⟨payload, length, holds, otherHolds⟩ := holds_of_take taken within fits otherFits
  have small : payload.length < 2 ^ 32 := by
    rw [length]
    exact headerPayloadSize_lt _
  have decoded (channel : UInt16) :
      decodePayload memory raw reader.targetSize (raw.bytes.headD 0) channel =
        decodePayload otherMemory otherRaw reader.targetSize (raw.bytes.headD 0) channel := by
    rw [target, ← length]
    exact decodePayload_congr holds otherHolds small (by rw [first, length]; exact fixed)
      alike.allocs
  have last : sizeSub reader.targetSize 1 + 1 ≤ reader.targetSize := by
    rw [sizeSub_of_le (by simp only [headerSize, footerSize] at long; omega) (by omega)]
    simp only [headerSize, footerSize] at long
    omega
  have channelWithin : 1 + 2 ≤ reader.targetSize := Nat.le_trans (by decide) long
  have otherWord := @rawWord_first otherRaw (Nat.lt_of_lt_of_le positive otherFits)
  rw [otherFirst] at otherWord
  exact bodyCase_alike_of_words alike same block otherBlock
    (rawWord_congr taken last fits otherFits)
    (@rawWord_congr _ _ ⟨1, 2⟩ _ taken channelWithin fits otherFits)
    (rawWord_first (Nat.lt_of_lt_of_le positive fits)) otherWord decoded returned

/-- What a new block holds up to an offset just behind the header. In a new pool the
octet behind the header is zero. -/
theorem started_take {raw written : Buffer} {header : HeaderBuffer} {offset : Nat}
    (bytes : written.bytes = raw.bytes.splice 0 (header.bytes.take headerSize))
    (fits : headerSize + 1 ≤ raw.size) (behind : offset = headerSize ∨ offset = headerSize + 1)
    (cleared : offset = headerSize + 1 → ∃ block : Buffer, raw = block.clear) :
    written.bytes.take offset =
      header.bytes.take headerSize ++ List.replicate (offset - headerSize) 0 := by
  have copied : (header.bytes.take headerSize).length = headerSize := by
    rw [List.length_take, header.length_eq]
    decide
  have split : written.bytes = header.bytes.take headerSize ++ raw.bytes.drop headerSize := by
    rw [bytes, List.splice, List.take_zero, List.nil_append, copied, Nat.zero_add]
  rw [split, List.take_append, copied, List.take_of_length_le (by omega)]
  rcases behind with rfl | rfl
  · simp
  · obtain ⟨block, rfl⟩ := cleared rfl
    rw [Buffer.size_clear] at fits
    simp only [Buffer.clear, Buffer.zeros, List.drop_replicate, List.take_replicate]
    rw [Nat.min_eq_left (by omega)]

/-- Nothing but a zero stands where the end of an empty first frame is expected. -/
theorem bodyCase_of_zero {mem : Buffer} {amount : Nat} (block : reader.inbound = .block mem amount)
    (target : reader.targetSize = headerSize + 1) (fits : headerSize + 1 ≤ mem.size)
    (zero : mem.bytes.take (headerSize + 1) = reader.headerBuffer.bytes.take headerSize ++ [0]) :
    bodyCase memory reader 1 = .ok ⟨reader, .error .badAmqpData, .unset⟩ := by
  have copied : (reader.headerBuffer.bytes.take headerSize).length = headerSize := by
    rw [List.length_take, reader.headerBuffer.length_eq]
    decide
  have last : mem.bytes.slice headerSize 1 = [0] := by
    have sliced : mem.bytes.slice headerSize 1 =
        (mem.bytes.take (headerSize + 1)).drop headerSize := by
      rw [List.slice, List.drop_take, Nat.add_sub_cancel_left]
    rw [sliced, zero, List.drop_append_of_le_length (Nat.le_of_eq copied.symm),
      List.drop_eq_nil_of_le (Nat.le_of_eq copied), List.nil_append]
  have word : rawWord mem ⟨sizeSub reader.targetSize 1, 1⟩ = .ok 0 := by
    rw [target, sizeSub_of_le (by decide) (by decide), Nat.add_sub_cancel]
    rw [rawWord_eq fits, last]
    rfl
  unfold bodyCase
  simp only [Reader.rawFrame, block, Effect.except_bind_ok, word]
  rfl

/-- The blocks are taken in the same way, with the header copied into both. -/
theorem startBody_alike {isNew otherIsNew : Bool} (same : reader.SameInput other)
    (block : PoolBlock reader.targetSize) (otherBlock : PoolBlock other.targetSize)
    (minimal : headerSize + 1 ≤ reader.targetSize)
    (behind : reader.inboundOffset = headerSize ∨ reader.inboundOffset = headerSize + 1 ∧
      isNew = true ∧ otherIsNew = true) :
    ∃ started otherStarted, startBody reader isNew block = .ok started ∧
      startBody other otherIsNew otherBlock = .ok otherStarted ∧ started.SameInput otherStarted ∧
      started.Invariant ∧ otherStarted.Invariant ∧ started.inboundOffset = reader.inboundOffset ∧
      started.targetSize = reader.targetSize ∧
      (reader.inboundOffset = headerSize + 1 → reader.targetSize = headerSize + 1 →
        bodyCase memory started 1 = .ok ⟨started, .error .badAmqpData, .unset⟩ ∧
        bodyCase otherMemory otherStarted 1 = .ok ⟨otherStarted, .error .badAmqpData, .unset⟩) := by
  have target := same.target
  have offset := same.offset
  have fits := block.amount_le_contents isNew
  have otherFits := otherBlock.amount_le_contents otherIsNew
  obtain ⟨written, started, size, bytes⟩ := startBody_eq isNew block (by omega)
  obtain ⟨otherWritten, otherStarted, otherSize, otherBytes⟩ :=
    startBody_eq otherIsNew otherBlock (by omega)
  have either : reader.inboundOffset = headerSize ∨ reader.inboundOffset = headerSize + 1 :=
    behind.imp_right And.left
  have cleared {amount : Nat} (block : PoolBlock amount) {isNew : Bool} (new : isNew = true) :
      ∃ cleared : Buffer, block.contents isNew = cleared.clear := ⟨block.mem, if_pos new⟩
  have new (after : reader.inboundOffset = headerSize + 1) : isNew = true ∧ otherIsNew = true := by
    rcases behind with early | ⟨_, both⟩
    · omega
    · exact both
  have taken := started_take bytes (by omega) either fun after => cleared block (new after).1
  have otherTaken := started_take otherBytes (by omega) either fun after =>
    cleared otherBlock (new after).2
  refine ⟨_, _, started, otherStarted, ⟨rfl, same.frameMax, same.headerBuffer, offset, target, ?_⟩,
    ⟨⟨by dsimp only; omega, Nat.le_refl _⟩, written, _, rfl, by omega⟩,
    ⟨⟨by dsimp only; omega, Nat.le_refl _⟩, otherWritten, _, rfl, by omega⟩, rfl, rfl, ?_⟩
  · simp only [Reader.buffered]
    rw [offset, taken, otherTaken, same.headerBuffer]
  · intro after empty
    rw [after] at taken otherTaken
    refine ⟨bodyCase_of_zero rfl empty (by omega) ?_,
      bodyCase_of_zero rfl (target.trans empty) (by omega) ?_⟩
    · rw [taken]
      rfl
    · rw [otherTaken]
      rfl

theorem startBody_readBody_alike {isNew otherIsNew : Bool} (same : reader.SameInput other)
    (block : PoolBlock reader.targetSize) (otherBlock : PoolBlock other.targetSize)
    (minimal : headerSize + 1 ≤ reader.targetSize)
    (behind : reader.inboundOffset = headerSize ∨ reader.inboundOffset = headerSize + 1 ∧
      isNew = true ∧ otherIsNew = true)
    (returned : (startBody reader isNew block >>= fun started => readBody memory started [] 1) =
      .ok handled) :
    ∃ otherHandled, (startBody other otherIsNew otherBlock >>= fun started =>
        readBody otherMemory started [] 1) = .ok otherHandled ∧ handled.Alike otherHandled := by
  obtain ⟨started, otherStarted, starts, otherStarts, sameStarted, invariant, otherInvariant,
    offset, target, ends⟩ :=
    @startBody_alike memory otherMemory _ _ _ _ same block otherBlock minimal behind
  rw [starts, Effect.except_bind_ok, readBody_nil invariant] at returned
  rw [otherStarts, Effect.except_bind_ok, readBody_nil otherInvariant, sameStarted.offset,
    sameStarted.target]
  split at returned
  · rename_i room
    rw [if_pos room]
    cases returned
    exact ⟨_, rfl, rfl, rfl, sameStarted⟩
  · rename_i full
    rw [if_neg full]
    obtain ⟨own, others⟩ := ends (by omega) (by omega)
    rw [own] at returned
    rw [others]
    cases returned
    exact ⟨_, rfl, rfl, rfl, sameStarted⟩

theorem headerCase_alike (alike : memory.Alike otherMemory) (same : reader.SameInput other)
    (placed : reader.inbound = .header) (otherPlaced : other.inbound = .header)
    (behind : reader.inboundOffset = headerSize ∨ reader.inboundOffset = headerSize + 1 ∧
      reader.poolTable = [] ∧ other.poolTable = [])
    (returned : headerCase memory reader [] 1 = .ok handled) :
    ∃ otherHandled, headerCase otherMemory other [] 1 = .ok otherHandled ∧
      handled.Alike otherHandled := by
  rw [headerCase_eq placed] at returned
  rw [headerCase_eq otherPlaced, same.headerBuffer, same.frameMax]
  have expecting : (expectFrame reader (headerPayloadSize reader.headerBuffer.bytes)).SameInput
      (expectFrame other (headerPayloadSize reader.headerBuffer.bytes)) :=
    ⟨same.state, same.frameMax, same.headerBuffer, same.offset, rfl, same.buffered⟩
  split at returned
  · rename_i large
    rw [if_pos large]
    cases returned
    exact ⟨_, rfl, rfl, rfl, same⟩
  · rename_i small
    rw [if_neg small]
    dsimp only at returned ⊢
    split at returned
    · rename_i large
      rw [if_pos (show _ < (expectFrame other _).targetSize from large)]
      cases returned
      exact ⟨_, rfl, rfl, rfl, expecting⟩
    · rename_i within
      rw [if_neg (show ¬ _ < (expectFrame other _).targetSize from within)]
      generalize size : headerPayloadSize reader.headerBuffer.bytes = frameSize at *
      obtain ⟨table, pooled⟩ := amqpGetOrCreateChannelPool_of_granted alike.poolEntry.1
        (expectFrame reader frameSize) (headerChannel reader.headerBuffer.bytes)
      obtain ⟨otherTable, otherPooled⟩ := amqpGetOrCreateChannelPool_of_granted alike.poolEntry.2
        (expectFrame other frameSize) (headerChannel reader.headerBuffer.bytes)
      rw [pooled] at returned
      rw [otherPooled]
      have pooledSame : Reader.SameInput { expectFrame reader frameSize with poolTable := table }
          { expectFrame other frameSize with poolTable := otherTable } :=
        ⟨same.state, same.frameMax, same.headerBuffer, same.offset, rfl, same.buffered⟩
      have granted := alike.block (expectFrame reader frameSize).targetSize
      dsimp only at returned ⊢
      cases own : memory.block (expectFrame reader frameSize).targetSize with
      | none =>
          rw [own] at returned granted
          cases returned
          rw [show otherMemory.block (expectFrame other frameSize).targetSize = none from
            Option.isSome_eq_false_iff.mp granted |> Option.isNone_iff_eq_none.mp]
          exact ⟨_, rfl, rfl, rfl, same.state, same.frameMax, same.headerBuffer, same.offset, rfl, rfl⟩
      | some block =>
          rw [own] at returned granted
          obtain ⟨otherBlock, others⟩ := Option.isSome_iff_exists.mp granted
          rw [show otherMemory.block (expectFrame other frameSize).targetSize = some otherBlock
            from others]
          exact startBody_readBody_alike pooledSame block otherBlock
            (by simp only [expectFrame, footerSize]; omega)
            (behind.imp_right fun ⟨after, new, otherNew⟩ =>
              ⟨after, by simp [expectFrame, new], by simp [expectFrame, otherNew]⟩) returned

/-- What is stored when a header is complete. -/
theorem Reader.Framed.behind_header (framed : reader.Framed)
    (stores : Consumed (leaveIdle reader) [octet] stored 1)
    (full : stored.inboundOffset = stored.targetSize) (notBody : stored.state ≠ .body) :
    stored.inboundOffset = headerSize ∨
      stored.inboundOffset = headerSize + 1 ∧ reader.state = .initial ∧ stored.poolTable = [] := by
  have target := stores.targetSize
  have state := stores.state
  have table := stores.poolTable
  rw [leaveIdle_target] at target
  cases before : reader.state with
  | initial =>
      rw [leaveIdle_of_ne_idle (by simp [before])] at table
      obtain ⟨expected, empty⟩ := framed.initial before
      exact .inr ⟨by omega, rfl, table.trans empty⟩
  | idle => exact .inl (by rw [full, target, framed.header (.inl before)])
  | header => exact .inl (by rw [full, target, framed.header (.inr before)])
  | body =>
      rw [leaveIdle_of_ne_idle (by simp [before]), before] at state
      exact absurd state notBody

/-- A header that is complete has the same effect. -/
theorem headerCase_alike_of_full (alike : memory.Alike otherMemory)
    (same : reader.SameInput other) (framed : reader.Framed) (otherFramed : other.Framed)
    (stores : Consumed (leaveIdle reader) [octet] stored 1)
    (otherStores : Consumed (leaveIdle other) [octet] otherStored 1)
    (sameStored : stored.SameInput otherStored)
    (full : stored.inboundOffset = stored.targetSize) (notBody : stored.state ≠ .body)
    (returned : headerCase memory stored [] 1 = .ok handled) :
    ∃ otherHandled, headerCase otherMemory otherStored [] 1 = .ok otherHandled ∧
      handled.Alike otherHandled := by
  have otherNotBody : otherStored.state ≠ .body := by rwa [sameStored.state]
  refine headerCase_alike alike sameStored (stores.invariant.inbound_eq_header notBody)
    (otherStores.invariant.inbound_eq_header otherNotBody) ?_ returned
  rcases framed.behind_header stores full notBody with behind | ⟨behind, initial, empty⟩
  · exact .inl behind
  · refine .inr ⟨behind, empty, ?_⟩
    have otherInitial : other.state = .initial := by rw [same.state, initial]
    rw [otherStores.poolTable, leaveIdle_of_ne_idle (by simp [otherInitial])]
    exact (otherFramed.initial otherInitial).2

/-- The first octets are a protocol header, or those of a frame header. -/
theorem initialCase_alike (sameStored : stored.SameInput otherStored)
    (placed : stored.inbound = .header) (otherPlaced : otherStored.inbound = .header)
    (header : headerCase memory stored [] 1 = .ok handled →
      ∃ otherHandled, headerCase otherMemory otherStored [] 1 = .ok otherHandled ∧
        handled.Alike otherHandled)
    (returned : initialCase memory stored [] 1 = .ok handled) :
    ∃ otherHandled, initialCase otherMemory otherStored [] 1 = .ok otherHandled ∧
      handled.Alike otherHandled := by
  by_cases named : stored.headerBuffer.bytes.take 4 = protocolName
  · have otherNamed : otherStored.headerBuffer.bytes.take 4 = protocolName := by
      rwa [sameStored.headerBuffer]
    rw [initialCase_of_protocol placed named] at returned
    rw [initialCase_of_protocol otherPlaced otherNamed, sameStored.headerBuffer]
    cases returned
    exact ⟨_, rfl, rfl, rfl, .returnToIdle sameStored.frameMax sameStored.headerBuffer⟩
  · have otherNamed : otherStored.headerBuffer.bytes.take 4 ≠ protocolName := by
      rwa [sameStored.headerBuffer]
    rw [initialCase_of_regular placed named] at returned
    rw [initialCase_of_regular otherPlaced otherNamed]
    exact header returned

/-- One octet has the same effect whatever older octets the blocks hold. -/
theorem amqpHandleInput_alike (alike : memory.Alike otherMemory) (same : reader.SameInput other)
    (framed : reader.Framed) (otherFramed : other.Framed)
    (regular : ¬ reader.position.EndsShort)
    (returned : amqpHandleInput memory reader [octet] = .ok handled) :
    ∃ otherHandled, amqpHandleInput otherMemory other [octet] = .ok otherHandled ∧
      handled.Alike otherHandled := by
  have invariant := leaveIdle_invariant framed.ready.invariant
  have otherInvariant := leaveIdle_invariant otherFramed.ready.invariant
  obtain ⟨stored, consumed, stores⟩ := consumeData_octet framed.ready octet
  obtain ⟨otherStored, otherConsumed, otherStores⟩ := consumeData_octet otherFramed.ready octet
  have sameStored := same.leaveIdle.consumed invariant otherInvariant stores otherStores
  rw [amqpHandleInput_octet consumed] at returned
  rw [amqpHandleInput_octet otherConsumed, sameStored.offset, sameStored.target]
  split at returned
  · rename_i room
    rw [if_pos room]
    cases returned
    exact ⟨_, rfl, rfl, rfl, sameStored⟩
  · rename_i notRoom
    rw [if_neg notRoom]
    have full : stored.inboundOffset = stored.targetSize :=
      Nat.le_antisymm stores.invariant.sound.offset_le (Nat.le_of_not_lt notRoom)
    have otherFull : otherStored.inboundOffset = otherStored.targetSize := by
      rw [sameStored.offset, sameStored.target, full]
    have header (notBody : stored.state ≠ .body) :=
      @headerCase_alike_of_full _ _ _ _ _ _ _ handled alike same framed otherFramed stores
        otherStores sameStored full notBody
    unfold handleComplete at returned ⊢
    rw [sameStored.state]
    cases state : stored.state with
    | idle =>
        rw [state] at returned
        cases returned
    | initial =>
        rw [state] at returned
        have placed := stores.invariant.inbound_eq_header (by simp [state])
        have otherPlaced := otherStores.invariant.inbound_eq_header
          (by simp [sameStored.state, state])
        exact initialCase_alike sameStored placed otherPlaced (header (by simp [state])) returned
    | header =>
        rw [state] at returned
        exact header (by simp [state]) returned
    | body =>
        rw [state] at returned
        have before : reader.state = .body := by
          have woken := stores.state
          obtain ⟨_, same, body, _⟩ := leaveIdle_eq reader
          rw [same, state] at woken
          exact body.mp woken.symm
        rw [leaveIdle_of_ne_idle (by simp [before])] at stores invariant
        obtain ⟨expected, behind, copied⟩ := framed.body before
        have placed := invariant.placed
        simp only [Reader.Placed, before] at placed
        obtain ⟨mem, amount, block, _⟩ := placed
        have headerBuffer := (stores.block mem amount block).1
        have offset := stores.offset
        have target := stores.targetSize
        have length := invariant.length_buffered
        refine bodyCase_alike alike sameStored stores.invariant otherStores.invariant state full
          (by rw [target, headerBuffer, expected]) ?_ ?_ returned
        · rw [stores.buffered invariant, headerBuffer,
            List.take_append_of_le_length (by omega), copied]
        · rw [headerBuffer]
          refine Nat.le_of_not_lt fun short => regular ?_
          simp only [Reader.position, before, Position.EndsShort]
          exact ⟨by omega, short⟩

end Alike

/-! ## Whole inputs -/

structure Intake.Alike (intake other : Intake) : Prop where
  reader : intake.reader.SameInput other.reader
  framesRead : other.framesRead = intake.framesRead
  frames : other.frames = intake.frames
  error : other.error = intake.error

section Feeding

variable {memory otherMemory : Nat → FrameMemory} {intake other after : Intake}
  {octets : List UInt8}

theorem Intake.Alike.record {handled otherHandled : Handled} (same : intake.Alike other)
    (alike : handled.Alike otherHandled) :
    (intake.record handled).Alike (other.record otherHandled) := by
  unfold Intake.record
  rw [alike.result]
  cases handled.result with
  | error status => exact ⟨alike.reader, same.framesRead, same.frames, rfl⟩
  | ok count =>
      refine ⟨alike.reader, ?_, ?_, same.error⟩
      · dsimp only
        rw [same.framesRead, alike.reader.state]
      · dsimp only
        rw [same.frames, alike.frame]

/-- What the reader makes of a regular stream does not depend on the memory. -/
theorem feed_alike (alike : ∀ frame, (memory frame).Alike (otherMemory frame))
    (same : intake.Alike other) (framed : intake.reader.Framed) (otherFramed : other.reader.Framed)
    (clean : intake.error = none) (regular : Regular intake.reader.position octets)
    (fed : intake.feed memory octets = .ok after) :
    ∃ otherAfter, other.feed otherMemory octets = .ok otherAfter ∧ after.Alike otherAfter ∧
      (after.error = none → after.reader.Framed ∧ otherAfter.reader.Framed ∧
        after.reader.position = intake.reader.position.after octets) := by
  induction octets generalizing intake other with
  | nil =>
      cases fed
      exact ⟨other, rfl, same, fun _ => ⟨framed, otherFramed, rfl⟩⟩
  | cons octet octets ih =>
      cases returned : amqpHandleInput (memory intake.framesRead) intake.reader [octet] with
      | error fault =>
          simp only [Intake.feed, clean, returned] at fed
          cases fed
      | ok handled =>
          have otherClean : other.error = none := same.error.trans clean
          obtain ⟨otherHandled, otherReturned, handledAlike⟩ := amqpHandleInput_alike
            (alike intake.framesRead) same.reader framed otherFramed regular.1 returned
          rw [← same.framesRead] at otherReturned
          rw [feed_octet clean returned] at fed
          rw [feed_octet otherClean otherReturned]
          have recorded := same.record handledAlike
          cases result : handled.result with
          | error status =>
              have failed : (intake.record handled).error.isSome = true := by
                simp [Intake.record, result]
              rw [feed_of_error failed] at fed
              cases fed
              rw [feed_of_error (by rw [recorded.error]; exact failed)]
              refine ⟨_, rfl, recorded, fun none => ?_⟩
              rw [none] at failed
              cases failed
          | ok count =>
              have accepted := octetAccepted_of_ok framed.ready returned result
              have otherAccepted := octetAccepted_of_ok otherFramed.ready otherReturned
                (handledAlike.result.trans result)
              obtain ⟨stillFramed, position⟩ := accepted.framed framed
              have otherStill := (otherAccepted.framed otherFramed).1
              have reader (any : Intake) {handled : Handled} {count : Int}
                  (result : handled.result = .ok count) :
                  (any.record handled).reader = handled.reader ∧
                    (any.record handled).error = any.error := by
                simp [Intake.record, result]
              have own := reader intake result
              have others := reader other (handledAlike.result.trans result)
              have continues := ih recorded (by rwa [own.1]) (by rwa [others.1])
                (by rw [own.2, clean]) (by rw [own.1, position]; exact regular.2) fed
              rw [own.1, position] at continues
              exact continues

end Feeding

end RabbitmqC
