import RabbitmqC.Framing.Codec

/-!
# Decoders see only their view

A decoder reads its buffer through `amqp_decode_bytes` and through `len` alone.
Two buffers with the same octets in their views are therefore decoded alike,
whatever lies around the views.
-/

set_option autoImplicit false

namespace RabbitmqC

/-- No decoder can tell the two buffers apart. -/
structure Encoded.Agrees (encoded other : Encoded) : Prop where
  len : encoded.len = other.len
  bytes : amqpDecodeBytes encoded = amqpDecodeBytes other

/-- Views that lie inside their memory objects agree if their octets do. -/
theorem Encoded.agrees_of_slice {encoded other : Encoded} (len : encoded.len = other.len)
    (inside : encoded.base + encoded.len ≤ encoded.mem.size)
    (otherInside : other.base + other.len ≤ other.mem.size)
    (octets : encoded.mem.bytes.slice encoded.base encoded.len =
      other.mem.bytes.slice other.base other.len) : encoded.Agrees other := by
  refine ⟨len, ?_⟩
  funext count state
  have bounded : encoded.mem.size < 2 ^ 63 := encoded.mem.size_lt
  have otherBounded : other.mem.size < 2 ^ 63 := other.mem.size_lt
  unfold amqpDecodeBytes
  rw [Effect.bind_of_ok (Effect.get_run state), Effect.bind_of_ok (Effect.get_run state)]
  simp only [len]
  split
  · rename_i room
    suffices same : encoded.mem.read? (encoded.base + state.offset) count =
        other.mem.read? (other.base + state.offset) count by
      simp only [load, same]
    unfold Buffer.read?
    by_cases wraps : state.offset + count < 2 ^ 64
    · rw [sizeAdd_of_lt wraps] at room
      rw [if_pos (by omega), if_pos (by omega)]
      exact congrArg some (List.slice_eq_of_slice_eq (len ▸ octets) room)
    · -- A sum that wraps around is past the end of every object.
      rw [if_neg (by omega), if_neg (by omega)]
  · rfl

namespace Encoded.Agrees

variable {encoded other : Encoded}

theorem decodeWord (agrees : encoded.Agrees other) (width : Nat) :
    decodeWord width encoded = RabbitmqC.decodeWord width other := by
  simp only [RabbitmqC.decodeWord, agrees.bytes]

theorem amqpDecode8 (agrees : encoded.Agrees other) :
    amqpDecode8 encoded = RabbitmqC.amqpDecode8 other := by
  simp only [RabbitmqC.amqpDecode8, agrees.decodeWord]

theorem amqpDecode16 (agrees : encoded.Agrees other) :
    amqpDecode16 encoded = RabbitmqC.amqpDecode16 other := by
  simp only [RabbitmqC.amqpDecode16, agrees.decodeWord]

theorem amqpDecode32 (agrees : encoded.Agrees other) :
    amqpDecode32 encoded = RabbitmqC.amqpDecode32 other := by
  simp only [RabbitmqC.amqpDecode32, agrees.decodeWord]

theorem amqpDecode64 (agrees : encoded.Agrees other) :
    amqpDecode64 encoded = RabbitmqC.amqpDecode64 other := by
  simp only [RabbitmqC.amqpDecode64, agrees.decodeWord]

theorem decodeLimit (agrees : encoded.Agrees other) :
    decodeLimit encoded = RabbitmqC.decodeLimit other := by
  simp only [RabbitmqC.decodeLimit, agrees.amqpDecode32, agrees.len]

/-- The five mutually recursive decoders, by induction on the fuel. -/
private theorem decoders (agrees : encoded.Agrees other) (fuel : Nat) :
    decodeFieldValue fuel encoded = decodeFieldValue fuel other ∧
      decodeArrayEntries fuel encoded = decodeArrayEntries fuel other ∧
      decodeTableEntries fuel encoded = decodeTableEntries fuel other ∧
      decodeArray fuel encoded = decodeArray fuel other ∧
      decodeTable fuel encoded = decodeTable fuel other := by
  induction fuel with
  | zero =>
      refine ⟨?_, ?_, ?_, ?_, ?_⟩
      · simp only [decodeFieldValue]
      · funext limit numEntries allocated
        simp only [decodeArrayEntries]
      · funext limit numEntries allocated
        simp only [decodeTableEntries]
      · simp only [decodeArray]
      · simp only [decodeTable]
  | succ fuel ih =>
      obtain ⟨value, elements, entries, array, table⟩ := ih
      refine ⟨?_, ?_, ?_, ?_, ?_⟩
      · simp only [decodeFieldValue, agrees.amqpDecode8, agrees.amqpDecode16, agrees.amqpDecode32,
          agrees.amqpDecode64, agrees.bytes, array, table]
      · funext limit numEntries allocated
        simp only [decodeArrayEntries, value, elements]
      · funext limit numEntries allocated
        simp only [decodeTableEntries, agrees.amqpDecode8, agrees.bytes, value, entries]
      · simp only [decodeArray, agrees.decodeLimit, elements]
      · simp only [decodeTable, agrees.decodeLimit, entries]

theorem amqpDecodeTable (agrees : encoded.Agrees other) :
    amqpDecodeTable encoded = RabbitmqC.amqpDecodeTable other := by
  simp only [RabbitmqC.amqpDecodeTable, decodeFuel, agrees.len]
  exact (agrees.decoders _).2.2.2.2

theorem decodeField (agrees : encoded.Agrees other) (domain : Domain) :
    decodeField encoded domain = RabbitmqC.decodeField other domain := by
  cases domain with
  | octet => exact congrArg Decoder.orBad agrees.amqpDecode8
  | short => exact congrArg Decoder.orBad agrees.amqpDecode16
  | long => exact congrArg Decoder.orBad agrees.amqpDecode32
  | longlong => exact congrArg Decoder.orBad agrees.amqpDecode64
  | shortstr =>
      show decodeShortstr encoded = decodeShortstr other
      simp only [decodeShortstr, agrees.amqpDecode8, agrees.bytes]
  | longstr =>
      show decodeLongstr encoded = decodeLongstr other
      simp only [decodeLongstr, agrees.amqpDecode32, agrees.bytes]
  | bits count => simp only [RabbitmqC.decodeField, agrees.amqpDecode8]
  | table => exact agrees.amqpDecodeTable

theorem decodeFields (agrees : encoded.Agrees other) (domains : List Domain) :
    decodeFields encoded domains = RabbitmqC.decodeFields other domains := by
  induction domains with
  | nil => rfl
  | cons domain domains ih =>
      unfold RabbitmqC.decodeFields
      rw [agrees.decodeField, ih]

theorem decodeDeclared (agrees : encoded.Agrees other) (declared : Option (List Domain)) :
    decodeDeclared encoded declared = RabbitmqC.decodeDeclared other declared := by
  cases declared with
  | none => rfl
  | some domains =>
      exact congrArg (fun decode : Decoder (Fields domains) => do
        if ← allocate then decode else throw (Failure.status .noMemory)) (agrees.decodeFields domains)

theorem amqpDecodeMethod (agrees : encoded.Agrees other) (methodNumber : UInt32) :
    amqpDecodeMethod methodNumber encoded = RabbitmqC.amqpDecodeMethod methodNumber other :=
  agrees.decodeDeclared _

theorem decodeFlagWords (agrees : encoded.Agrees other) (turns flagwordIndex : Nat)
    (flags : UInt32) :
    decodeFlagWords encoded turns flagwordIndex flags =
      RabbitmqC.decodeFlagWords other turns flagwordIndex flags := by
  induction turns generalizing flagwordIndex flags with
  | zero => simp only [RabbitmqC.decodeFlagWords, agrees.amqpDecode16]
  | succ turns ih => simp only [RabbitmqC.decodeFlagWords, agrees.amqpDecode16, ih]

theorem decodeProperties (agrees : encoded.Agrees other) (flags : UInt32)
    (properties : List Property) :
    decodeProperties encoded flags properties =
      RabbitmqC.decodeProperties other flags properties := by
  induction properties with
  | nil => rfl
  | cons property properties ih =>
      unfold RabbitmqC.decodeProperties decodeProperty
      rw [agrees.decodeField, ih]

theorem decodeDeclaredProperties (agrees : encoded.Agrees other) (flags : UInt32)
    (declared : Option (List Property)) :
    decodeDeclaredProperties encoded flags declared =
      RabbitmqC.decodeDeclaredProperties other flags declared := by
  cases declared with
  | none => rfl
  | some properties =>
      exact congrArg (fun decode : Decoder (PropertyFields properties) => do
        if ← allocate then decode else throw (Failure.status .noMemory))
        (agrees.decodeProperties flags properties)

theorem amqpDecodeProperties (agrees : encoded.Agrees other) (classId : UInt16) :
    amqpDecodeProperties classId encoded = RabbitmqC.amqpDecodeProperties classId other := by
  simp only [RabbitmqC.amqpDecodeProperties, agrees.decodeFlagWords,
    agrees.decodeDeclaredProperties]

end Encoded.Agrees

end RabbitmqC
