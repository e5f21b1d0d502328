import RabbitmqC.Table.Clone

/-!
# Message properties from the encoder to a copy

Decoding reduces booleans to zero and one and leaves members out that are not
flagged. The encoder looks at neither, so that a copy of what was decoded has the
same encoding as the original.
-/

set_option autoImplicit false

namespace RabbitmqC

open Effect

/-! ## Encoding what is normalised -/

mutual

theorem encodeFieldValue_normalise (view : View) : (entry : FieldValue) →
    amqpEncodeFieldValue view entry.normalise = amqpEncodeFieldValue view entry
  | .boolean value => by
      by_cases zero : value = 0 <;> simp [FieldValue.normalise, amqpEncodeFieldValue, zero,
        FieldValue.kind]
  | .array entries => by
      simp only [FieldValue.normalise, amqpEncodeFieldValue, FieldValue.kind,
        encodeArrayEntries_normalise view entries]
  | .table entries => by
      simp only [FieldValue.normalise, amqpEncodeFieldValue, FieldValue.kind,
        encodeTableEntries_normalise view entries]
  | .i8 _ | .u8 _ | .i16 _ | .u16 _ | .i32 _ | .u32 _ | .i64 _ | .u64 _ | .f32 _ | .f64 _ => rfl
  | .decimal _ _ | .utf8 _ | .timestamp _ | .void | .bytes _ | .unknown _ => rfl

theorem encodeArrayEntries_normalise (view : View) : (entries : List FieldValue) →
    encodeArrayEntries view (normaliseArray entries) = encodeArrayEntries view entries
  | [] => rfl
  | entry :: entries => by
      simp only [normaliseArray, encodeArrayEntries, encodeFieldValue_normalise view entry,
        encodeArrayEntries_normalise view entries]

theorem encodeTableEntries_normalise (view : View) : (entries : List TableEntry) →
    encodeTableEntries view (normaliseTable entries) = encodeTableEntries view entries
  | [] => rfl
  | .mk key value :: entries => by
      simp only [normaliseTable, TableEntry.normalise, encodeTableEntries, encodeTableEntry,
        encodeFieldValue_normalise view value, encodeTableEntries_normalise view entries]

end

theorem packBits_normalise (index : Nat) (buffer : UInt8) (flags : List Int32) :
    packBits index buffer (flags.map normaliseBit) = packBits index buffer flags := by
  induction flags generalizing index buffer with
  | nil => rfl
  | cons flag flags ih =>
      have same : normaliseBit flag ≠ 0 ↔ flag ≠ 0 := by
        unfold normaliseBit
        split
        · simp_all
        · simp_all
      simp only [List.map_cons, packBits, ih, same]

theorem encodeField_normalise (view : View) (domain : Domain) (value : domain.Value) :
    encodeField view domain (domain.normalise value) = encodeField view domain value := by
  cases domain with
  | bits count =>
      simp only [encodeField, Domain.normalise, packBits_normalise]
  | table =>
      simp only [encodeField, Domain.normalise, amqpEncodeTable,
        encodeTableEntries_normalise view value]
  | octet | short | long | longlong | shortstr | longstr => rfl

theorem encodeProperty_normalise (view : View) (flags : UInt32) (property : Property)
    (field : Option property.domain.Value) :
    encodeProperty view flags property (normaliseProperty flags property field) =
      encodeProperty view flags property field := by
  unfold normaliseProperty encodeProperty
  cases flagged flags property with
  | false => cases field <;> rfl
  | true =>
      cases field with
      | none => rfl
      | some value => exact encodeField_normalise view property.domain value

theorem encodeProperties_normalise (view : View) (flags : UInt32) (properties : List Property)
    (fields : PropertyFields properties) :
    encodeProperties view flags properties (normaliseProperties flags properties fields) =
      encodeProperties view flags properties fields := by
  induction properties with
  | nil => rfl
  | cons property properties ih =>
      obtain ⟨field, fields⟩ := fields
      simp only [encodeProperties, normaliseProperties, encodeProperty_normalise, ih fields]

theorem encodeDeclaredProperties_normalise (view : View) (flags : UInt32)
    (declared : Option (List Property)) (fields : DeclaredProperties declared) :
    encodeDeclaredProperties view flags declared
        (normaliseDeclaredProperties flags declared fields) =
      encodeDeclaredProperties view flags declared fields := by
  cases declared with
  | none => rfl
  | some properties => exact encodeProperties_normalise view flags properties fields

theorem amqpEncodeProperties_normalise {classId : UInt16} (decoded : Properties classId) :
    amqpEncodeProperties classId decoded.normalise = amqpEncodeProperties classId decoded := by
  funext view
  unfold amqpEncodeProperties Properties.normalise
  dsimp only
  rw [encodeDeclaredProperties_normalise]

/-! ## Copying what is normalised -/

def Component.normalise : Component → Component
  | .key bytes => .key bytes
  | .value entry => .value entry.normalise

mutual

theorem components_normalise : (entry : FieldValue) →
    entry.normalise.components = entry.components.map Component.normalise
  | .array entries => by
      simp only [FieldValue.normalise, FieldValue.components, List.map_cons, Component.normalise,
        arrayComponents_normalise entries]
  | .table entries => by
      simp only [FieldValue.normalise, FieldValue.components, List.map_cons, Component.normalise,
        tableComponents_normalise entries]
  | .boolean _ | .i8 _ | .u8 _ | .i16 _ | .u16 _ | .i32 _ | .u32 _ | .i64 _ | .u64 _ => rfl
  | .f32 _ | .f64 _ | .decimal _ _ | .utf8 _ | .timestamp _ | .void | .bytes _ => rfl
  | .unknown _ => rfl

theorem arrayComponents_normalise : (entries : List FieldValue) →
    arrayComponents (normaliseArray entries) = (arrayComponents entries).map Component.normalise
  | [] => rfl
  | entry :: entries => by
      simp only [normaliseArray, arrayComponents, List.map_append, components_normalise entry,
        arrayComponents_normalise entries]

theorem tableComponents_normalise : (entries : List TableEntry) →
    tableComponents (normaliseTable entries) = (tableComponents entries).map Component.normalise
  | [] => rfl
  | .mk key value :: entries => by
      simp only [normaliseTable, TableEntry.normalise, tableComponents, TableEntry.components,
        List.map_append, List.map_cons, Component.normalise, components_normalise value,
        tableComponents_normalise entries]

end

theorem Component.Clonable.normalise {component : Component} (clonable : component.Clonable) :
    component.normalise.Clonable := by
  obtain ⟨known, named⟩ := clonable
  cases component with
  | key bytes => exact ⟨trivial, named⟩
  | value entry =>
      refine ⟨?_, trivial⟩
      cases entry with
      | unknown kind => exact known.elim
      | _ => trivial

theorem Table.Every.normalise {table : Table} (clonable : table.Every Component.Clonable) :
    Table.Every Component.Clonable (normaliseTable table) := by
  intro component member
  rw [show FieldValue.table (normaliseTable table) = (FieldValue.table table).normalise from rfl,
    components_normalise] at member
  obtain ⟨original, inside, rfl⟩ := List.mem_map.mp member
  exact (clonable original inside).normalise

/-- The keys of a member's tables are not empty. -/
def Domain.NamedKeys : (domain : Domain) → domain.Value → Prop
  | .table, value => Table.Every Component.Named value
  | _, _ => True

def PropertiesNamedKeys : (properties : List Property) → PropertyFields properties → Prop
  | [], _ => True
  | property :: properties, (field, fields) =>
      (∀ value, field = some value → property.domain.NamedKeys value) ∧
        PropertiesNamedKeys properties fields

def DeclaredPropertiesNamedKeys :
    (declared : Option (List Property)) → DeclaredProperties declared → Prop
  | some properties, fields => PropertiesNamedKeys properties fields
  | none, _ => True

def Properties.NamedKeys {classId : UInt16} (decoded : Properties classId) : Prop :=
  DeclaredPropertiesNamedKeys (classProperties classId) decoded.fields

/-- The encoder has met no unknown kind, so only an empty key could stop the copy. -/
theorem cloneField_normalise {view : View} {domain : Domain} {value : domain.Value}
    {before after : EncodeState} (named : domain.NamedKeys value)
    (returned : encodeField view domain value before = .ok () after) :
    cloneField domain (domain.normalise value) [] = .ok (domain.normalise value) [] := by
  cases domain with
  | octet | short | long | longlong | bits count => rfl
  | shortstr => exact cloneBytes_granted value
  | longstr => exact cloneBytes_granted value
  | table =>
      have known := known_of_amqpEncodeTable returned
      exact amqpTableClone_granted (Table.Every.normalise fun component member =>
        ⟨known component member, named component member⟩)

theorem cloneProperty_normalise {view : View} {flags : UInt32} {property : Property}
    {field : Option property.domain.Value} {before after : EncodeState}
    (named : ∀ value, field = some value → property.domain.NamedKeys value)
    (returned : encodeProperty view flags property field before = .ok () after) :
    cloneProperty flags property (normaliseProperty flags property field) [] =
      .ok (normaliseProperty flags property field) [] := by
  unfold normaliseProperty
  cases present : flagged flags property with
  | false => simp only [Bool.false_eq_true, if_false, cloneProperty, present]; rfl
  | true =>
      cases field with
      | none =>
          simp only [encodeProperty, present] at returned
          cases returned
      | some value =>
          simp only [encodeProperty, present, if_true] at returned
          simp only [if_true, Option.map_some, cloneProperty, present]
          exact map_of_ok (cloneField_normalise (named value rfl) returned)

theorem cloneProperties_normalise {view : View} {flags : UInt32} {properties : List Property}
    {fields : PropertyFields properties} {before after : EncodeState}
    (named : PropertiesNamedKeys properties fields)
    (returned : encodeProperties view flags properties fields before = .ok () after) :
    cloneProperties flags properties (normaliseProperties flags properties fields) [] =
      .ok (normaliseProperties flags properties fields) [] := by
  induction properties generalizing before with
  | nil => rfl
  | cons property properties ih =>
      obtain ⟨field, fields⟩ := fields
      obtain ⟨_, middle, head, tail⟩ := bind_eq_ok.mp returned
      simp only [normaliseProperties, cloneProperties]
      rw [bind_of_ok (cloneProperty_normalise named.1 head), bind_of_ok (ih named.2 tail)]
      rfl

theorem cloneDeclaredProperties_normalise {view : View} {flags : UInt32}
    {declared : Option (List Property)} {fields : DeclaredProperties declared}
    {before after : EncodeState} (named : DeclaredPropertiesNamedKeys declared fields)
    (returned : encodeDeclaredProperties view flags declared fields before = .ok () after) :
    cloneDeclaredProperties flags declared (normaliseDeclaredProperties flags declared fields) [] =
      .ok (normaliseDeclaredProperties flags declared fields) [] := by
  cases declared with
  | none => cases returned
  | some properties => exact cloneProperties_normalise named returned

theorem amqpBasicPropertiesClone_normalise {classId : UInt16} {decoded : Properties classId}
    {view : View} {mem written : Buffer} {count : Nat} (named : decoded.NamedKeys)
    (returned : amqpEncodeProperties classId decoded view mem = .ok count written) :
    amqpBasicPropertiesClone decoded.normalise [] = .ok decoded.normalise [] := by
  obtain ⟨_, middle, _, tail⟩ := bind_eq_ok.mp (fromStart_eq_ok.mp returned)
  exact map_of_ok (cloneDeclaredProperties_normalise named tail)

/-! ## The round trip -/

/-- A content type and a header, whose value is a boolean that is not one. -/
def twoProperties : Properties 60 :=
  ⟨0xA000, (some [116], none, some [.mk [107] (.boolean 7)], none, none, none, none, none, none,
    none, none, none, none, none, ())⟩

end RabbitmqC
