import Mathlib.Data.Nat.Bitwise
import RabbitmqC.Table.RoundTrip
import RabbitmqC.Framing.Codec

/-!
# Encoding methods and properties and decoding them again

The wire form of a struct is the concatenation of the wire forms of its members,
so the round trip of a method follows from the round trips of the domains. A
properties struct is preceded by its flags, which say which members were written.
-/

set_option autoImplicit false

namespace RabbitmqC

/-! ## Bits sharing an octet -/

private theorem toNat_mask {index : Nat} (small : index < 8) :
    (UInt8.ofNat (2 ^ index)).toNat = 2 ^ index :=
  UInt8.toNat_ofNat_of_lt' (Nat.pow_lt_pow_right (by omega) small)

private theorem and_mask_ne_zero_iff {buffer : UInt8} {index : Nat} (small : index < 8) :
    buffer &&& UInt8.ofNat (2 ^ index) ≠ 0 ↔ buffer.toNat.testBit index = true := by
  have masked : (buffer &&& UInt8.ofNat (2 ^ index)).toNat =
      (buffer.toNat.testBit index).toNat * 2 ^ index := by
    rw [UInt8.toNat_and, toNat_mask small, Nat.and_two_pow]
  have positive : 0 < 2 ^ index := Nat.two_pow_pos index
  rw [ne_eq, ← UInt8.toNat_inj, masked]
  cases buffer.toNat.testBit index with
  | false => simp
  | true => simp

/-- Packing adds the flags to the buffer and leaves the other bits alone. -/
private theorem testBit_packBits {flags : List Int32} {index : Nat} {buffer : UInt8}
    (small : index + flags.length ≤ 8) (number : Nat) :
    (packBits index buffer flags).toNat.testBit number =
      (buffer.toNat.testBit number ||
        (decide (index ≤ number) && decide ((flags[number - index]?.getD 0) ≠ 0))) := by
  induction flags generalizing index buffer with
  | nil => simp [packBits]
  | cons flag flags ih =>
      rw [List.length_cons] at small
      rw [packBits, ih (by omega)]
      have own : (if flag ≠ 0 then buffer ||| UInt8.ofNat (2 ^ index) else buffer).toNat.testBit
          number = (buffer.toNat.testBit number || (decide (index = number) && decide (flag ≠ 0))) := by
        by_cases zero : flag = 0
        · simp [zero]
        · simp only [ne_eq, zero, not_false_eq_true, if_true, UInt8.toNat_or,
            toNat_mask (show index < 8 by omega), Nat.testBit_or, Nat.testBit_two_pow,
            decide_true, Bool.and_true]
      rw [own]
      rcases Nat.lt_trichotomy index number with before | rfl | behind
      · have apart : number - index = (number - (index + 1)) + 1 := by omega
        have next : index + 1 ≤ number := before
        simp [apart, next, Nat.ne_of_lt before, Nat.le_of_lt before]
      · simp
      · have later : ¬ index + 1 ≤ number := by omega
        have notYet : ¬ index ≤ number := by omega
        simp [later, notYet, Nat.ne_of_gt behind]

def normaliseBit (flag : Int32) : Int32 := if flag ≠ 0 then 1 else 0

private theorem unpackBits_of_testBit {buffer : UInt8} {flags : List Int32} {index : Nat}
    (small : index + flags.length ≤ 8)
    (stored : ∀ number, index ≤ number → number < index + flags.length →
      buffer.toNat.testBit number = decide ((flags[number - index]?.getD 0) ≠ 0)) :
    unpackBits buffer index flags.length = flags.map normaliseBit := by
  induction flags generalizing index with
  | nil => rfl
  | cons flag flags ih =>
      rw [List.length_cons] at small stored
      have head := stored index (Nat.le_refl index) (by omega)
      simp only [Nat.sub_self, List.getElem?_cons_zero, Option.getD_some] at head
      rw [List.length_cons, unpackBits, ih (by omega)]
      · simp only [and_mask_ne_zero_iff (show index < 8 by omega), head, decide_eq_true_eq,
          List.map_cons, normaliseBit]
      · intro number after below
        have apart : number - index = (number - (index + 1)) + 1 := by omega
        rw [stored number (by omega) (by omega), apart, List.getElem?_cons_succ]

/-- Up to eight flags survive their common octet as zero and one. -/
theorem unpackBits_packBits {flags : List Int32} (small : flags.length ≤ 8) :
    unpackBits (packBits 0 0 flags) 0 flags.length = flags.map normaliseBit := by
  refine unpackBits_of_testBit (by omega) fun number _ _ => ?_
  rw [testBit_packBits (by omega)]
  simp

/-! ## Members -/

def shortstrWire (value : List UInt8) : List UInt8 :=
  BigEndian.bytes 1 (UInt8.ofNat value.length).toNat ++ value

/-- What the encoder writes for a member. -/
def Domain.wire : (domain : Domain) → domain.Value → List UInt8
  | .octet, value => BigEndian.bytes 1 (UInt8.toNat value)
  | .short, value => BigEndian.bytes 2 (UInt16.toNat value)
  | .long, value => BigEndian.bytes 4 (UInt32.toNat value)
  | .longlong, value => BigEndian.bytes 8 (UInt64.toNat value)
  | .shortstr, value => shortstrWire value
  | .longstr, value => sized value
  | .bits _, value => BigEndian.bytes 1 (packBits 0 0 (Subtype.val value)).toNat
  | .table, value => tableWire value

/-- A member with its bits and booleans reduced to zero and one. -/
def Domain.normalise : (domain : Domain) → domain.Value → domain.Value
  | .octet, value => value
  | .short, value => value
  | .long, value => value
  | .longlong, value => value
  | .shortstr, value => value
  | .longstr, value => value
  | .bits _, value => ⟨(Subtype.val value).map normaliseBit, by
      rw [List.length_map]
      exact Subtype.property value⟩
  | .table, value => normaliseTable value

/-- A member that can be read back from its wire form. -/
def Domain.Decodable : (domain : Domain) → domain.Value → Prop
  | .shortstr, value => List.length value ≤ uint8Max
  | .longstr, value => List.length value ≤ uint32Max
  | .table, value => Table.Every Component.Decodable value
  | _, _ => True

theorem emits_encodeShortstr {view : View} {value : List UInt8} :
    Emits view (encodeShortstr view value) (shortstrWire value) := by
  unfold encodeShortstr
  split
  · intro before after returned
    cases returned
  · exact emits_amqpEncode8.andThen emits_amqpEncodeBytes

theorem emits_encodeLongstr {view : View} {value : List UInt8} :
    Emits view (encodeLongstr view value) (sized value) := by
  unfold encodeLongstr
  split
  · intro before after returned
    cases returned
  · exact emits_amqpEncode32.andThen emits_amqpEncodeBytes

theorem emits_encodeField (view : View) (domain : Domain) (value : domain.Value) :
    Emits view (encodeField view domain value) (domain.wire value) := by
  cases domain with
  | octet => exact emits_amqpEncode8
  | short => exact emits_amqpEncode16
  | long => exact emits_amqpEncode32
  | longlong => exact emits_amqpEncode64
  | shortstr => exact emits_encodeShortstr
  | longstr => exact emits_encodeLongstr
  | bits count => exact emits_amqpEncode8
  | table => exact emits_amqpEncodeTable view value

theorem reads_decodeShortstr {encoded : Encoded} {value : List UInt8}
    (short : value.length ≤ uint8Max) :
    Reads encoded (decodeShortstr encoded) (shortstrWire value) value := by
  have counted : (UInt8.ofNat value.length).toNat = value.length :=
    UInt8.toNat_ofNat_of_lt' (Nat.lt_succ_of_le short)
  refine Reads.andThen reads_amqpDecode8.orBad ?_
  rw [counted]
  exact reads_amqpDecodeBytes.orBad

theorem reads_decodeLongstr {encoded : Encoded} {value : List UInt8}
    (short : value.length ≤ uint32Max) :
    Reads encoded (decodeLongstr encoded) (sized value) value := by
  have counted : (UInt32.ofNat value.length).toNat = value.length :=
    UInt32.toNat_ofNat_of_lt' (Nat.lt_succ_of_le short)
  refine Reads.andThen reads_amqpDecode32.orBad ?_
  rw [counted]
  exact reads_amqpDecodeBytes.orBad

theorem reads_amqpDecodeTable (encoded : Encoded) {table : Table}
    (decodable : table.Every Component.Decodable) :
    Reads encoded (amqpDecodeTable encoded) (tableWire table) (normaliseTable table) := by
  intro offset stored room
  refine reads_decodeTable encoded ?_ decodable stored room
  have inside := stored.1
  unfold decodeFuel
  omega

theorem reads_decodeField (encoded : Encoded) (domain : Domain) {value : domain.Value}
    (decodable : domain.Decodable value) :
    Reads encoded (decodeField encoded domain) (domain.wire value) (domain.normalise value) := by
  cases domain with
  | octet => exact reads_amqpDecode8.orBad
  | short => exact reads_amqpDecode16.orBad
  | long => exact reads_amqpDecode32.orBad
  | longlong => exact reads_amqpDecode64.orBad
  | shortstr => exact reads_decodeShortstr decodable
  | longstr => exact reads_decodeLongstr decodable
  | bits count =>
      obtain ⟨flags, length⟩ := value
      have survive : unpackBits (packBits 0 0 flags) 0 count = flags.map normaliseBit := by
        rw [← length]
        exact unpackBits_packBits (by omega)
      have read := (@reads_amqpDecode8 encoded (packBits 0 0 flags)).orBad.map fun buffer =>
          (⟨unpackBits buffer 0 count, length_unpackBits buffer 0 count⟩ :
            (Domain.bits count).Value)
      have same : (⟨unpackBits (packBits 0 0 flags) 0 count, length_unpackBits _ 0 count⟩ :
          (Domain.bits count).Value) = (Domain.bits count).normalise ⟨flags, length⟩ :=
        Subtype.ext survive
      rw [same] at read
      exact read
  | table => exact reads_amqpDecodeTable encoded decodable

/-! ## Structs -/

def fieldsWire : (domains : List Domain) → Fields domains → List UInt8
  | [], _ => []
  | domain :: domains, (value, values) => domain.wire value ++ fieldsWire domains values

def normaliseFields : (domains : List Domain) → Fields domains → Fields domains
  | [], fields => fields
  | domain :: domains, (value, values) =>
      (domain.normalise value, normaliseFields domains values)

def FieldsDecodable : (domains : List Domain) → Fields domains → Prop
  | [], _ => True
  | domain :: domains, (value, values) => domain.Decodable value ∧ FieldsDecodable domains values

theorem emits_encodeFields (view : View) (domains : List Domain) (fields : Fields domains) :
    Emits view (encodeFields view domains fields) (fieldsWire domains fields) := by
  induction domains with
  | nil => exact emits_pure
  | cons domain domains ih =>
      obtain ⟨value, values⟩ := fields
      exact (emits_encodeField view domain value).andThen (ih values)

theorem reads_decodeFields (encoded : Encoded) (domains : List Domain) {fields : Fields domains}
    (decodable : FieldsDecodable domains fields) :
    Reads encoded (decodeFields encoded domains) (fieldsWire domains fields)
      (normaliseFields domains fields) := by
  induction domains with
  | nil => exact reads_pure
  | cons domain domains ih =>
      obtain ⟨value, values⟩ := fields
      exact (reads_decodeField encoded domain decodable.1).andThen
        ((ih decodable.2).map (Prod.mk (domain.normalise value)))

/-- The keys of a member's tables fit their length octet, and their entries can be counted. -/
def Domain.Short : (domain : Domain) → domain.Value → Prop
  | .table, value => Table.Every Component.Short value
  | _, _ => True

def FieldsShort : (domains : List Domain) → Fields domains → Prop
  | [], _ => True
  | domain :: domains, (value, values) =>
      domain.Short value ∧ FieldsShort domains values

/-- What a successful encoder has tested, and the size of what it wrote, leave
only the keys of tables and the numbers of their entries to be checked. -/
theorem decodable_of_encodeField {view : View} {domain : Domain} {value : domain.Value}
    {before after : EncodeState} (narrow : after.offset < 2 ^ 32) (short : domain.Short value)
    (returned : encodeField view domain value before = .ok () after) :
    domain.Decodable value := by
  cases domain with
  | octet | short | long | longlong | bits count => trivial
  | shortstr =>
      simp only [encodeField, encodeShortstr] at returned
      split at returned
      · cases returned
      · rename_i fits
        exact Nat.not_lt.mp fits
  | longstr =>
      simp only [encodeField, encodeLongstr] at returned
      split at returned
      · cases returned
      · rename_i fits
        exact Nat.not_lt.mp fits
  | table =>
      have written := emits_amqpEncodeTable view value returned
      have room := written.offset
      exact Table.every_decodable (known_of_amqpEncodeTable returned) short (by omega)

theorem decodable_of_encodeFields {view : View} {domains : List Domain} {fields : Fields domains}
    {before after : EncodeState} (narrow : after.offset < 2 ^ 32)
    (short : FieldsShort domains fields)
    (returned : encodeFields view domains fields before = .ok () after) :
    FieldsDecodable domains fields := by
  induction domains generalizing before with
  | nil => trivial
  | cons domain domains ih =>
      obtain ⟨value, values⟩ := fields
      obtain ⟨_, middle, head, tail⟩ := Effect.bind_eq_ok.mp returned
      have ordered := (emits_encodeFields view domains values tail).offset
      exact ⟨decodable_of_encodeField (by omega) short.1 head, ih short.2 tail⟩

/-! ## Methods -/

def declaredWire : (declared : Option (List Domain)) → DeclaredFields declared → List UInt8
  | some domains, fields => fieldsWire domains fields
  | none, _ => []

def normaliseDeclared :
    (declared : Option (List Domain)) → DeclaredFields declared → DeclaredFields declared
  | some domains, fields => normaliseFields domains fields
  | none, fields => fields

def DeclaredShort : (declared : Option (List Domain)) → DeclaredFields declared → Prop
  | some domains, fields => FieldsShort domains fields
  | none, _ => True

theorem emits_encodeDeclared (view : View) (declared : Option (List Domain))
    (fields : DeclaredFields declared) :
    Emits view (encodeDeclared view declared fields) (declaredWire declared fields) := by
  cases declared with
  | none =>
      intro before after returned
      cases returned
  | some domains => exact emits_encodeFields view domains fields

/-- A method that was encoded can be decoded from what was written. -/
theorem reads_decodeDeclared {view : View} {declared : Option (List Domain)}
    {fields : DeclaredFields declared} {before after : EncodeState} (narrow : after.offset < 2 ^ 32)
    (short : DeclaredShort declared fields)
    (returned : encodeDeclared view declared fields before = .ok () after) (encoded : Encoded) :
    Reads encoded (decodeDeclared encoded declared) (declaredWire declared fields)
      (normaliseDeclared declared fields) := by
  cases declared with
  | none => cases returned
  | some domains =>
      exact reads_allocate.andThen (reads_decodeFields encoded domains
        (decodable_of_encodeFields narrow short returned))

/-! ## Properties -/

/-- What the encoder writes for a property: nothing unless it is flagged. -/
def propertyWire (flags : UInt32) (property : Property) :
    Option property.domain.Value → List UInt8
  | some value => if flagged flags property then property.domain.wire value else []
  | none => []

def propertiesWire (flags : UInt32) :
    (properties : List Property) → PropertyFields properties → List UInt8
  | [], _ => []
  | property :: properties, (field, fields) =>
      propertyWire flags property field ++ propertiesWire flags properties fields

/-- A member that is flagged, normalised; the others are not filled in. -/
def normaliseProperty (flags : UInt32) (property : Property)
    (field : Option property.domain.Value) : Option property.domain.Value :=
  if flagged flags property then field.map property.domain.normalise else none

def normaliseProperties (flags : UInt32) :
    (properties : List Property) → PropertyFields properties → PropertyFields properties
  | [], fields => fields
  | property :: properties, (field, fields) =>
      (normaliseProperty flags property field, normaliseProperties flags properties fields)

def PropertiesShort : (properties : List Property) → PropertyFields properties → Prop
  | [], _ => True
  | property :: properties, (field, fields) =>
      (∀ value, field = some value → property.domain.Short value) ∧
        PropertiesShort properties fields

section Property

variable {view : View} {flags : UInt32} {property : Property}
  {field : Option property.domain.Value}

theorem emits_encodeProperty :
    Emits view (encodeProperty view flags property field) (propertyWire flags property field) := by
  cases present : flagged flags property with
  | false =>
      cases field with
      | none | some value =>
          simp only [encodeProperty, propertyWire, present]
          exact emits_pure
  | true =>
      cases field with
      | none =>
          intro before after returned
          simp only [encodeProperty, present] at returned
          cases returned
      | some value =>
          simp only [encodeProperty, propertyWire, present, if_true]
          exact emits_encodeField view property.domain value

theorem reads_decodeProperty {before after : EncodeState} (narrow : after.offset < 2 ^ 32)
    (short : ∀ value, field = some value → property.domain.Short value)
    (returned : encodeProperty view flags property field before = .ok () after)
    (encoded : Encoded) :
    Reads encoded (decodeProperty encoded flags property) (propertyWire flags property field)
      (normaliseProperty flags property field) := by
  unfold decodeProperty normaliseProperty
  cases present : flagged flags property with
  | false =>
      cases field with
      | none | some value =>
          simp only [propertyWire, present]
          exact reads_pure
  | true =>
      cases field with
      | none =>
          simp only [encodeProperty, present] at returned
          cases returned
      | some value =>
          simp only [encodeProperty, propertyWire, present, if_true] at returned ⊢
          exact (reads_decodeField encoded property.domain
            (decodable_of_encodeField narrow (short value rfl) returned)).map some

end Property

theorem emits_encodeProperties (view : View) (flags : UInt32) (properties : List Property)
    (fields : PropertyFields properties) :
    Emits view (encodeProperties view flags properties fields)
      (propertiesWire flags properties fields) := by
  induction properties with
  | nil => exact emits_pure
  | cons property properties ih =>
      obtain ⟨field, fields⟩ := fields
      exact emits_encodeProperty.andThen (ih fields)

theorem reads_decodeProperties {view : View} {flags : UInt32} {properties : List Property}
    {fields : PropertyFields properties} {before after : EncodeState}
    (narrow : after.offset < 2 ^ 32) (short : PropertiesShort properties fields)
    (returned : encodeProperties view flags properties fields before = .ok () after)
    (encoded : Encoded) :
    Reads encoded (decodeProperties encoded flags properties)
      (propertiesWire flags properties fields) (normaliseProperties flags properties fields) := by
  induction properties generalizing before with
  | nil => exact reads_pure
  | cons property properties ih =>
      obtain ⟨field, fields⟩ := fields
      obtain ⟨_, middle, head, tail⟩ := Effect.bind_eq_ok.mp returned
      have ordered := (emits_encodeProperties view flags properties fields tail).offset
      exact (reads_decodeProperty (by omega) short.1 head encoded).andThen
        ((ih short.2 tail).map (Prod.mk _))

/-! ## Flags -/

/-- The flag bits that a class defines. -/
def definedFlags : Option (List Property) → UInt32
  | some properties => properties.foldr (fun property flags => flags ||| .ofNat (2 ^ property.bit)) 0
  | none => 0

/-- The flags have no bit that the class does not define. -/
def Properties.WithinClass {classId : UInt16} (decoded : Properties classId) : Prop :=
  decoded.flags &&& definedFlags (classProperties classId) = decoded.flags

/-- Every class keeps to the upper fourteen bits of the first flag word. -/
theorem definedFlags_classProperties (classId : UInt16) :
    definedFlags (classProperties classId) &&& 0xFFFC = definedFlags (classProperties classId) := by
  unfold classProperties
  split
  · decide
  · split <;> rfl

/-- Flags that fit one word, whose lowest bit announces no other. -/
structure OneWord (flags : UInt32) : Prop where
  masked : flags &&& 0xFFFC = flags

theorem Properties.WithinClass.oneWord {classId : UInt16} {decoded : Properties classId}
    (within : decoded.WithinClass) : OneWord decoded.flags := by
  refine ⟨?_⟩
  unfold Properties.WithinClass at within
  rw [← within, UInt32.and_assoc, definedFlags_classProperties]

namespace OneWord

variable {flags : UInt32}

theorem toNat_lt (one : OneWord flags) : flags.toNat < 2 ^ 16 := by
  have bound : (flags &&& 0xFFFC).toNat ≤ 0xFFFC := by
    rw [UInt32.toNat_and]
    exact Nat.and_le_right
  rw [one.masked] at bound
  omega

theorem shiftRight (one : OneWord flags) : flags >>> 16 = 0 := by
  have bound := one.toNat_lt
  rw [← UInt32.toNat_inj, UInt32.toNat_shiftRight]
  rw [Nat.shiftRight_eq_div_pow]
  exact Nat.div_eq_of_lt bound

theorem toUInt16_and (one : OneWord flags) (mask : UInt16) :
    flags.toUInt16 &&& mask = flags.toUInt16 &&& (0xFFFC &&& mask) := by
  have narrowed : flags.toUInt16 &&& 0xFFFC = flags.toUInt16 := by
    rw [show (0xFFFC : UInt16) = (0xFFFC : UInt32).toUInt16 from rfl, ← UInt32.toUInt16_and,
      one.masked]
  rw [← UInt16.and_assoc, narrowed]

theorem toUInt32_toUInt16 (one : OneWord flags) : flags.toUInt16.toUInt32 = flags := by
  have bound := one.toNat_lt
  rw [← UInt32.toNat_inj, UInt16.toNat_toUInt32, UInt32.toNat_toUInt16]
  omega

theorem masked_even (one : OneWord flags) : flags.toUInt16 &&& 0xFFFE = flags.toUInt16 := by
  have all := one.toUInt16_and 0xFFFF
  rw [one.toUInt16_and, show (0xFFFC &&& 0xFFFE : UInt16) = 0xFFFC &&& 0xFFFF from rfl, ← all,
    show (0xFFFF : UInt16) = -1 from rfl, UInt16.and_neg_one]

theorem masked_one (one : OneWord flags) : flags.toUInt16 &&& 1 = 0 := by
  rw [one.toUInt16_and, show (0xFFFC &&& 1 : UInt16) = 0 from rfl, UInt16.and_zero]

theorem emits (one : OneWord flags) (view : View) :
    Emits view (encodeFlagWords view 2 flags) (BigEndian.bytes 2 flags.toUInt16.toNat) := by
  unfold encodeFlagWords
  simp only [one.shiftRight, one.masked_even, ne_eq, not_true_eq_false, if_false]
  intro before after returned
  obtain ⟨_, middle, head, tail⟩ := Effect.bind_eq_ok.mp returned
  cases tail
  exact emits_amqpEncode16 head

theorem reads (one : OneWord flags) (encoded : Encoded) :
    Reads encoded (decodeFlagWords encoded 2 0 0) (BigEndian.bytes 2 flags.toUInt16.toNat)
      flags := by
  unfold decodeFlagWords
  intro offset stored room
  rw [Effect.bind_of_ok (reads_amqpDecode16.orBad stored room)]
  simp only [one.masked_one, ne_eq, not_true_eq_false, if_false, one.toUInt32_toUInt16]
  simp

end OneWord

/-! ## Whole structs -/

def declaredPropertiesWire (flags : UInt32) :
    (declared : Option (List Property)) → DeclaredProperties declared → List UInt8
  | some properties, fields => propertiesWire flags properties fields
  | none, _ => []

def normaliseDeclaredProperties (flags : UInt32) :
    (declared : Option (List Property)) → DeclaredProperties declared → DeclaredProperties declared
  | some properties, fields => normaliseProperties flags properties fields
  | none, fields => fields

def DeclaredPropertiesShort :
    (declared : Option (List Property)) → DeclaredProperties declared → Prop
  | some properties, fields => PropertiesShort properties fields
  | none, _ => True

namespace Properties

variable {classId : UInt16}

/-- What the encoder writes for a properties struct whose flags fit one word. -/
def wire (decoded : Properties classId) : List UInt8 :=
  BigEndian.bytes 2 decoded.flags.toUInt16.toNat ++
    declaredPropertiesWire decoded.flags (classProperties classId) decoded.fields

def normalise (decoded : Properties classId) : Properties classId :=
  ⟨decoded.flags,
    normaliseDeclaredProperties decoded.flags (classProperties classId) decoded.fields⟩

def Short (decoded : Properties classId) : Prop :=
  DeclaredPropertiesShort (classProperties classId) decoded.fields

end Properties

theorem emits_encodeDeclaredProperties (view : View) (flags : UInt32)
    (declared : Option (List Property)) (fields : DeclaredProperties declared) :
    Emits view (encodeDeclaredProperties view flags declared fields)
      (declaredPropertiesWire flags declared fields) := by
  cases declared with
  | none =>
      intro before after returned
      cases returned
  | some properties => exact emits_encodeProperties view flags properties fields

theorem reads_decodeDeclaredProperties {view : View} {flags : UInt32}
    {declared : Option (List Property)} {fields : DeclaredProperties declared}
    {before after : EncodeState} (narrow : after.offset < 2 ^ 32)
    (short : DeclaredPropertiesShort declared fields)
    (returned : encodeDeclaredProperties view flags declared fields before = .ok () after)
    (encoded : Encoded) :
    Reads encoded (decodeDeclaredProperties encoded flags declared)
      (declaredPropertiesWire flags declared fields)
      (normaliseDeclaredProperties flags declared fields) := by
  cases declared with
  | none => cases returned
  | some properties =>
      exact reads_allocate.andThen (reads_decodeProperties narrow short returned encoded)

/-- A generated encoder that returns has written its struct at the start of the view. -/
theorem fromStart_eq_ok {encode : Encoder Unit} {mem written : Buffer} {count : Nat} :
    fromStart encode mem = .ok count written ↔
      encode ⟨mem, 0⟩ = .ok () ⟨written, count⟩ := by
  unfold fromStart
  cases encode ⟨mem, 0⟩ with
  | ok value state =>
      obtain ⟨mem, offset⟩ := state
      simp only [EStateM.Result.ok.injEq, EncodeState.mk.injEq, true_and]
      exact and_comm
  | error failure state => simp

theorem amqpEncodeMethod_written {methodNumber : UInt32} {decoded : MethodFields methodNumber}
    {view : View} {mem written : Buffer} {count : Nat}
    (returned : amqpEncodeMethod methodNumber decoded view mem = .ok count written) :
    Written view (declaredWire (methodArguments methodNumber) decoded) ⟨mem, 0⟩
      ⟨written, count⟩ :=
  emits_encodeDeclared view _ decoded (fromStart_eq_ok.mp returned)

theorem reads_amqpDecodeMethod {methodNumber : UInt32} {decoded : MethodFields methodNumber}
    {view : View} {mem written : Buffer} {count : Nat} (narrow : count < 2 ^ 32)
    (short : DeclaredShort (methodArguments methodNumber) decoded)
    (returned : amqpEncodeMethod methodNumber decoded view mem = .ok count written)
    (encoded : Encoded) :
    Reads encoded (amqpDecodeMethod methodNumber encoded)
      (declaredWire (methodArguments methodNumber) decoded)
      (normaliseDeclared (methodArguments methodNumber) decoded) :=
  reads_decodeDeclared narrow short (fromStart_eq_ok.mp returned) encoded

theorem amqpEncodeProperties_written {classId : UInt16} {decoded : Properties classId}
    {view : View} {mem written : Buffer} {count : Nat} (within : decoded.WithinClass)
    (returned : amqpEncodeProperties classId decoded view mem = .ok count written) :
    Written view decoded.wire ⟨mem, 0⟩ ⟨written, count⟩ :=
  (within.oneWord.emits view).andThen (emits_encodeDeclaredProperties view _ _ _)
    (fromStart_eq_ok.mp returned)

theorem reads_amqpDecodeProperties {classId : UInt16} {decoded : Properties classId}
    {view : View} {mem written : Buffer} {count : Nat} (narrow : count < 2 ^ 32)
    (within : decoded.WithinClass) (short : decoded.Short)
    (returned : amqpEncodeProperties classId decoded view mem = .ok count written)
    (encoded : Encoded) :
    Reads encoded (amqpDecodeProperties classId encoded) decoded.wire decoded.normalise := by
  obtain ⟨_, middle, _, tail⟩ := Effect.bind_eq_ok.mp (fromStart_eq_ok.mp returned)
  refine (within.oneWord.reads encoded).andThen ?_
  exact (reads_decodeDeclaredProperties narrow short tail encoded).map (Properties.mk decoded.flags)

end RabbitmqC
