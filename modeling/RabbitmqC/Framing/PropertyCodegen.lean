import Mathlib.Data.List.Nodup
import Mathlib.Tactic.IntervalCases
import RabbitmqC.Framing.Codegen

/-!
# The generator of the property codecs

`genHrl` numbers the flags of a class, fifteen to a word, and `genErl` prints the loops over
the flag words and one `if` for each property. A struct whose flags take two words is not
read back as it was: the bit that announces the second word stays in `_flags`.
-/

set_option autoImplicit false

namespace RabbitmqC

namespace Codegen

/-! ## What is printed -/

/-- The properties of a class, from the number `index` of a flag on. The emitter of
`genDecodeProperties` and `genEncodeProperties` has no methods for bits. -/
def genProperties (index : Nat) : List DomainName → Option (List Property)
  | [] => some []
  | name :: names => do
      let index := if index % 16 = 15 then index + 1 else index
      let shortnum := index / 16
      let partialindex := 15 - index % 16
      let domain ← types name
      let properties ← genProperties (index + 1) names
      return ⟨shortnum * 16 + partialindex, domain⟩ :: properties

/-- `amqp_encode_properties` for the class; the offset is returned as an `int`. -/
def encodeClassProperties (properties : List Property) (flags : UInt32)
    (fields : PropertyFields properties) (view : View) : EStateM Failure Buffer Int :=
  intOfSize <$> fromStart do
    encodeFlagWords view 2 flags
    encodeProperties view flags properties fields

/-- `amqp_decode_properties` for the class: `_flags` and the other members of the struct. -/
def decodeClassProperties (properties : List Property) (encoded : Encoded) :
    Decoder (UInt32 × PropertyFields properties) := do
  let flags ← decodeFlagWords encoded 2 0 0
  if ← allocate then do
    let fields ← decodeProperties encoded flags properties
    return (flags, fields)
  else
    throw (.status .noMemory)

/-- The content class whose properties the specification names in this order. -/
def basicProperties : List DomainName :=
  [.shortstr, .shortstr, .table, .octet, .octet, .shortstr, .shortstr, .shortstr, .shortstr,
    .timestamp, .shortstr, .shortstr, .shortstr, .shortstr]

example : genProperties 0 basicProperties = classProperties 60 := rfl

/-! ## The flags that are assigned -/

/-- The lowest bit of a word is no flag. -/
def Proper (property : Property) : Prop := property.bit % 16 ≠ 0

/-- The bits of the flags from number `count` on. -/
def flagBits (count : Nat) (names : List DomainName) : List Nat :=
  (List.range' count names.length).map fun number => number / 15 * 16 + (15 - number % 15)

theorem bits_genProperties {index count : Nat} {names : List DomainName}
    {properties : List Property} (generated : genProperties index names = some properties)
    (isIndex : (if index % 16 = 15 then index + 1 else index) = count / 15 * 16 + count % 15) :
    properties.map Property.bit = flagBits count names := by
  induction names generalizing index count properties with
  | nil =>
      cases generated
      rfl
  | cons name names ih =>
      simp only [genProperties, isIndex, Option.bind_eq_bind, Option.bind_eq_some_iff] at generated
      obtain ⟨domain, _, others, tail, same⟩ := generated
      cases same
      have behind := @ih _ (count + 1) _ tail (by split <;> omega)
      simp only [List.map_cons, flagBits, List.length_cons, List.range'_succ] at behind ⊢
      rw [behind]
      congr 1
      omega

/-- Any two properties have different flags, and no flag is the bit of a word that announces
another one. -/
structure Separate (properties : List Property) : Prop where
  nodup : (properties.map Property.bit).Nodup
  proper : ∀ property ∈ properties, Proper property

section Assigned

variable {names : List DomainName} {properties : List Property}

theorem bits_generated (generated : genProperties 0 names = some properties) :
    properties.map Property.bit = flagBits 0 names :=
  bits_genProperties generated rfl

theorem separate_genProperties (generated : genProperties 0 names = some properties) :
    Separate properties where
  nodup := by
    rw [bits_generated generated]
    refine List.Nodup.map_on ?_ List.nodup_range'
    intro left _ right _ same
    omega
  proper := by
    intro property member
    have isBit := List.mem_map_of_mem (f := Property.bit) member
    rw [bits_generated generated] at isBit
    obtain ⟨number, _, isNumber⟩ := List.mem_map.mp isBit
    unfold Proper
    omega

/-- The flags of 30 properties fit the 32 bits of `_flags`, and those of 31 do not. -/
theorem bits_fit_iff (generated : genProperties 0 names = some properties) :
    (∀ property ∈ properties, property.bit < 32) ↔ names.length ≤ 30 := by
  have bits := bits_generated generated
  constructor
  · intro fit
    by_contra many
    have isBit : 47 ∈ properties.map Property.bit := by
      rw [bits]
      exact List.mem_map.mpr ⟨30, List.mem_range'_1.mpr ⟨by omega, by omega⟩, rfl⟩
    obtain ⟨property, member, isLast⟩ := List.mem_map.mp isBit
    have small := fit property member
    omega
  · intro few property member
    have isBit := List.mem_map_of_mem (f := Property.bit) member
    rw [bits] at isBit
    obtain ⟨number, inside, isNumber⟩ := List.mem_map.mp isBit
    have bound := (List.mem_range'_1.mp inside).2
    omega

end Assigned

/-! ## Flag words -/

/-- The octets of the flag words. -/
def flagWordsWire (flags : UInt32) : List UInt8 :=
  let first := flags.toUInt16 &&& 0xFFFE
  if flags >>> 16 ≠ 0 then
    BigEndian.bytes 2 (first ||| 1).toNat ++
      BigEndian.bytes 2 ((flags >>> 16).toUInt16 &&& 0xFFFE).toNat
  else
    BigEndian.bytes 2 first.toNat

/-- The flags as they are read back: the bit that announces a second word is kept. -/
def announcedFlags (flags : UInt32) : UInt32 :=
  (flags &&& 0xFFFEFFFE) ||| if flags >>> 16 ≠ 0 then 1 else 0

/-! Two 32-bit words are equal when their bits are. -/

theorem joined_words (flags : UInt32) :
    ((flags.toUInt16 &&& 0xFFFE) ||| 1).toUInt32 |||
        ((flags >>> 16).toUInt16 &&& 0xFFFE).toUInt32 <<< 16 =
      (flags &&& 0xFFFEFFFE) ||| 1 := by
  rw [← UInt32.toBitVec_inj]
  refine BitVec.eq_of_getLsbD_eq fun position small => ?_
  simp only [UInt32.toBitVec_or, UInt16.toBitVec_toUInt32, UInt16.toBitVec_or,
    UInt16.toBitVec_and, UInt32.toBitVec_toUInt16, UInt32.toBitVec_shiftLeft,
    UInt32.toBitVec_shiftRight, UInt32.toBitVec_and]
  interval_cases position <;> simp [-BitVec.setWidth_setWidth, -BitVec.setWidth_eq]

theorem single_word {flags : UInt32} (short : flags >>> 16 = 0) :
    (flags.toUInt16 &&& 0xFFFE).toUInt32 = flags &&& 0xFFFEFFFE := by
  rw [← UInt32.toBitVec_inj] at short ⊢
  refine BitVec.eq_of_getLsbD_eq fun position small => ?_
  have above (high : 16 ≤ position) : flags.toBitVec.getLsbD position = false := by
    have bit := congrArg (BitVec.getLsbD · (position - 16)) short
    simp only [UInt32.toBitVec_shiftRight] at bit
    simpa [Nat.add_sub_cancel' high] using bit
  simp only [UInt16.toBitVec_toUInt32, UInt16.toBitVec_and, UInt32.toBitVec_toUInt16,
    UInt32.toBitVec_and]
  interval_cases position <;> simp_all [-BitVec.setWidth_setWidth, -BitVec.setWidth_eq]

theorem shifted_twice (flags : UInt32) : flags >>> 16 >>> 16 = 0 := by
  rw [← UInt32.toNat_inj]
  have bound := flags.toNat_lt
  show flags.toNat >>> 16 >>> 16 = 0
  rw [← Nat.shiftRight_add, Nat.shiftRight_eq_div_pow]
  exact Nat.div_eq_of_lt bound

theorem masked_one (word : UInt16) : (word &&& 0xFFFE) &&& 1 = 0 := by
  rw [UInt16.and_assoc]
  exact UInt16.and_zero

theorem announced_one (word : UInt16) : ((word &&& 0xFFFE) ||| 1) &&& 1 ≠ 0 := by
  rw [Ne, ← UInt16.toNat_inj]
  have odd : (((word &&& 0xFFFE) ||| 1) &&& 1).toNat = 1 := by simp
  rw [odd]
  decide

section FlagWords

variable {view : View} {encoded : Encoded} {flags : UInt32} {word : UInt16}
  {turns flagwordIndex : Nat} {data : List UInt8}

theorem writes_pure : Writes view (pure ()) [] := ⟨emits_pure, accepts_pure⟩

theorem writes_amqpEncode16 :
    Writes view ((amqpEncode16 view word).orFail .badAmqpData) (BigEndian.bytes 2 word.toNat) :=
  ⟨emits_amqpEncode16, accepts_amqpEncode16⟩

theorem writes_encodeFlagWords : Writes view (encodeFlagWords view 2 flags) (flagWordsWire flags) := by
  have last (word : UInt16) := (@writes_amqpEncode16 view word).andThen writes_pure
  simp only [List.append_nil] at last
  unfold flagWordsWire
  by_cases short : flags >>> 16 = 0
  · simp only [encodeFlagWords, short, ne_eq, not_true_eq_false, if_false]
    exact last _
  · simp only [encodeFlagWords, short, shifted_twice, ne_eq, not_true_eq_false, not_false_eq_true,
      if_true, if_false]
    exact writes_amqpEncode16.andThen (last _)

theorem reads_lastWord (last : word &&& 1 = 0) :
    Reads encoded (decodeFlagWords encoded (turns + 1) flagwordIndex flags)
      (BigEndian.bytes 2 word.toNat)
      (flags ||| word.toUInt32 <<< UInt32.ofNat (flagwordIndex * 16)) := by
  intro offset stored room
  rw [decodeFlagWords, Effect.bind_of_ok (reads_amqpDecode16.orBad stored room),
    if_neg (not_not.mpr last)]
  rfl

theorem reads_moreWords {result : UInt32} (more : word &&& 1 ≠ 0)
    (tail : Reads encoded (decodeFlagWords encoded turns (flagwordIndex + 1)
      (flags ||| word.toUInt32 <<< UInt32.ofNat (flagwordIndex * 16))) data result) :
    Reads encoded (decodeFlagWords encoded (turns + 1) flagwordIndex flags)
      (BigEndian.bytes 2 word.toNat ++ data) result := by
  rw [decodeFlagWords]
  refine reads_amqpDecode16.orBad.andThen ?_
  rw [if_pos more]
  exact tail

theorem reads_decodeFlagWords :
    Reads encoded (decodeFlagWords encoded 2 0 0) (flagWordsWire flags) (announcedFlags flags) := by
  unfold flagWordsWire announcedFlags
  by_cases short : flags >>> 16 = 0
  · rw [if_neg (not_not.mpr short), if_neg (not_not.mpr short), ← single_word short]
    have last := @reads_lastWord encoded 0 _ 1 0 (masked_one flags.toUInt16)
    simpa using last
  · rw [if_pos short, if_pos short, ← joined_words]
    have last := @reads_lastWord encoded
      (0 ||| ((flags.toUInt16 &&& 0xFFFE) ||| 1).toUInt32 <<< UInt32.ofNat (0 * 16)) _ 0 1
      (masked_one (flags >>> 16).toUInt16)
    have both := reads_moreWords (announced_one flags.toUInt16) last
    simpa using both

end FlagWords

/-! ## Properties -/

/-- Every flagged member is filled in with a value that can be encoded. -/
def Filled (flags : UInt32) : (properties : List Property) → PropertyFields properties → Prop
  | [], _ => True
  | property :: properties, (field, fields) =>
      (flagged flags property →
        ∃ value, field = some value ∧ (Member.plain property.domain value).Encodable) ∧
      Filled flags properties fields

section Properties

variable {view : View} {encoded : Encoded} {flags other : UInt32} {property : Property}
  {properties : List Property}

theorem announced_mask (property : Property) (proper : Proper property) (fits : property.bit < 32) :
    announcedFlags flags &&& UInt32.ofNat (2 ^ property.bit) =
      flags &&& UInt32.ofNat (2 ^ property.bit) := by
  obtain ⟨bit, domain⟩ := property
  have distinct (mask : UInt32) (isMask : mask = UInt32.ofNat (2 ^ bit)) :
      0xFFFEFFFE &&& mask = mask ∧ 1 &&& mask = 0 := by
    subst isMask
    unfold Proper at proper
    dsimp only at proper fits
    interval_cases bit <;> first | exact ⟨rfl, rfl⟩ | exact absurd rfl proper
  obtain ⟨kept, unset⟩ := distinct _ rfl
  unfold announcedFlags
  have distributed : ((flags &&& 0xFFFEFFFE) ||| 1) &&& UInt32.ofNat (2 ^ bit) =
      flags &&& UInt32.ofNat (2 ^ bit) := by
    rw [← UInt32.toNat_inj, UInt32.toNat_and, UInt32.toNat_or, Nat.and_or_distrib_right,
      ← UInt32.toNat_and, ← UInt32.toNat_and, unset, UInt32.and_assoc, kept]
    simp
  split
  · exact distributed
  · rw [UInt32.or_zero, UInt32.and_assoc, kept]

/-- The bits that belong to the words are no flags. -/
theorem flagged_announcedFlags (proper : Proper property) (fits : property.bit < 32) :
    flagged (announcedFlags flags) property = flagged flags property := by
  unfold flagged
  rw [announced_mask property proper fits]

theorem decodeProperties_congr
    (same : ∀ property ∈ properties, flagged other property = flagged flags property) :
    decodeProperties encoded other properties = decodeProperties encoded flags properties := by
  induction properties with
  | nil => rfl
  | cons property properties ih =>
      have head : decodeProperty encoded other property = decodeProperty encoded flags property := by
        unfold decodeProperty
        rw [same property List.mem_cons_self]
      unfold decodeProperties
      rw [head, ih fun property member => same property (List.mem_cons_of_mem _ member)]

theorem accepts_encodeProperties {fields : PropertyFields properties}
    (filled : Filled flags properties fields) :
    Accepts view (encodeProperties view flags properties fields)
      (propertiesWire flags properties fields) := by
  induction properties with
  | nil => exact accepts_pure
  | cons property properties ih =>
      obtain ⟨field, fields⟩ := fields
      obtain ⟨isFilled, filled⟩ := filled
      refine Accepts.andThen emits_encodeProperty ?_ (ih filled)
      cases present : flagged flags property with
      | false =>
          cases field with
          | none | some value =>
              simp only [encodeProperty, propertyWire, present]
              exact accepts_pure
      | true =>
          obtain ⟨value, rfl, encodable⟩ := isFilled present
          simp only [encodeProperty, propertyWire, present, if_true]
          exact accepts_encodeField encodable

theorem reads_filled {fields : PropertyFields properties} (filled : Filled flags properties fields)
    (small : (propertiesWire flags properties fields).length < 2 ^ 32) :
    Reads encoded (decodeProperties encoded flags properties)
      (propertiesWire flags properties fields) (normaliseProperties flags properties fields) := by
  induction properties with
  | nil => exact reads_pure
  | cons property properties ih =>
      obtain ⟨field, fields⟩ := fields
      obtain ⟨isFilled, filled⟩ := filled
      rw [propertiesWire, List.length_append] at small
      have head : Reads encoded (decodeProperty encoded flags property)
          (propertyWire flags property field) (normaliseProperty flags property field) := by
        unfold decodeProperty normaliseProperty
        cases present : flagged flags property with
        | false =>
            cases field with
            | none | some value =>
                simp only [propertyWire, present]
                exact reads_pure
        | true =>
            obtain ⟨value, rfl, encodable⟩ := isFilled present
            simp only [propertyWire, present, if_true] at small ⊢
            refine (reads_decodeField encoded property.domain ?_).map some
            refine @decodable_of_encodable [.plain property.domain value] ?_ ?_ _ _
              List.mem_cons_self
            · intro member inside
              rw [List.mem_singleton.mp inside]
              exact encodable
            · simp only [methodWire, heldOctet, if_true, List.nil_append, List.append_nil]
              omega
      exact head.andThen ((ih filled (by omega)).map (Prod.mk _))

end Properties

/-! ## The round trip -/

/-- The octets of a whole struct. -/
def classWire (flags : UInt32) (properties : List Property) (fields : PropertyFields properties) :
    List UInt8 :=
  flagWordsWire flags ++ propertiesWire flags properties fields

/-- Sixteen octets: the flag of the last one is in the second word. -/
def sixteenOctets : List Property :=
  (List.range 15).map (fun number => ⟨15 - number, .octet⟩) ++ [⟨31, .octet⟩]

/-- The first and the last octet. -/
def outerOctets : PropertyFields sixteenOctets :=
  (some (7 : UInt8), none, none, none, none, none, none, none, none, none, none, none, none, none,
    none, some (9 : UInt8), ())

end Codegen

end RabbitmqC
