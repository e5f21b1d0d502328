import RabbitmqC.Framing.RoundTrip

/-!
# Copying tables and properties

`amqp_table_clone` and `amqp_basic_properties_clone`. A copy is equal to the
original; copying fails for an empty key, for an unknown kind, and for want of
memory.
-/

set_option autoImplicit false

namespace RabbitmqC

/-- The state lists the outcomes of the allocations to come; once it is used up, they
succeed. -/
abbrev Cloner := EStateM Failure (List Bool)

/-- `amqp_pool_alloc` of a nonempty block, or `malloc`: whether it succeeds. -/
def mayAllocate : Cloner Bool := do
  match ← get with
  | [] => return true
  | outcome :: rest => do
      set rest
      return outcome

def poolAlloc : Cloner Unit := do
  if ← mayAllocate then
    return
  else
    throw (.status .noMemory)

/-- Nothing is allocated for an empty string. -/
def cloneBytes (original : List UInt8) : Cloner (List UInt8) := do
  if original.length = 0 then
    return original
  else do
    poolAlloc
    return original

mutual

/-- An empty array has a null pointer, as `amqp_decode_array` leaves it. -/
def amqpFieldValueClone : FieldValue → Cloner FieldValue
  | .utf8 bytes => .utf8 <$> cloneBytes bytes
  | .bytes bytes => .bytes <$> cloneBytes bytes
  | .array [] => return .array []
  | .array (entry :: entries) => do
      poolAlloc
      .array <$> cloneArrayEntries (entry :: entries)
  | .table [] => return .table []
  | .table (entry :: entries) => do
      poolAlloc
      .table <$> cloneTableEntries (entry :: entries)
  | .unknown _ => throw (.status .invalidParameter)
  | value => return value

def cloneArrayEntries : List FieldValue → Cloner (List FieldValue)
  | [] => return []
  | entry :: entries => do
      let clone ← amqpFieldValueClone entry
      let clones ← cloneArrayEntries entries
      return clone :: clones

def amqpTableEntryClone : TableEntry → Cloner TableEntry
  | .mk key value => do
      if key.length = 0 then
        throw (.status .invalidParameter)
      else do
        poolAlloc
        let clone ← amqpFieldValueClone value
        return .mk key clone

/-- The loop of `amqp_table_clone`. -/
def cloneTableEntries : List TableEntry → Cloner (List TableEntry)
  | [] => return []
  | entry :: entries => do
      let clone ← amqpTableEntryClone entry
      let clones ← cloneTableEntries entries
      return clone :: clones

end

def amqpTableClone (original : Table) : Cloner Table := do
  if original.length = 0 then
    return []
  else do
    poolAlloc
    cloneTableEntries original

/-- The copy of one member. -/
def cloneField : (domain : Domain) → domain.Value → Cloner domain.Value
  | .shortstr, value => cloneBytes value
  | .longstr, value => cloneBytes value
  | .table, value => amqpTableClone value
  | .octet, value => return value
  | .short, value => return value
  | .long, value => return value
  | .longlong, value => return value
  | .bits _, value => return value

/-- The `if` of one property. A member that is not flagged is cleared. -/
def cloneProperty (flags : UInt32) (property : Property) :
    Option property.domain.Value → Cloner (Option property.domain.Value)
  | some value =>
      if flagged flags property then some <$> cloneField property.domain value else return none
  | none => if flagged flags property then throw (.fault .wrongObject) else return none

def cloneProperties (flags : UInt32) :
    (properties : List Property) → PropertyFields properties → Cloner (PropertyFields properties)
  | [], _ => return ()
  | property :: properties, (field, fields) => do
      let clone ← cloneProperty flags property field
      let clones ← cloneProperties flags properties fields
      return (clone, clones)

def cloneDeclaredProperties (flags : UInt32) : (declared : Option (List Property)) →
    DeclaredProperties declared → Cloner (DeclaredProperties declared)
  | some properties, fields => cloneProperties flags properties fields
  | none, fields => return fields

/-- `amqp_basic_properties_clone`, with the members given by the class;
`amqpBasicPropertiesClone_eq` has them one by one. -/
def amqpBasicPropertiesClone {classId : UInt16} (original : Properties classId) :
    Cloner (Properties classId) :=
  Properties.mk original.flags <$>
    cloneDeclaredProperties original.flags (classProperties classId) original.fields

/-! ## The members of a message's properties -/

/-- An `if` of `amqp_basic_properties_clone`, with the bit of its flag and the copy of its member. -/
def cloneMember {α : Type} (flags : UInt32) (bit : Nat) (copy : α → Cloner α) :
    Option α → Cloner (Option α)
  | some member =>
      if flags &&& UInt32.ofNat (2 ^ bit) ≠ 0 then some <$> copy member else return none
  | none =>
      if flags &&& UInt32.ofNat (2 ^ bit) ≠ 0 then throw (.fault .wrongObject) else return none

/-- The body of `amqp_basic_properties_clone`, one `if` after another. -/
def cloneBasicMembers (flags : UInt32) :
    DeclaredProperties (classProperties 60) → Cloner (DeclaredProperties (classProperties 60))
  | (contentType, contentEncoding, headers, deliveryMode, priority, correlationId, replyTo,
      expiration, messageId, timestamp, type, userId, appId, clusterId, _) => do
    let contentType ← cloneMember flags 15 cloneBytes contentType
    let contentEncoding ← cloneMember flags 14 cloneBytes contentEncoding
    let headers ← cloneMember flags 13 amqpTableClone headers
    let deliveryMode ← cloneMember flags 12 pure deliveryMode
    let priority ← cloneMember flags 11 pure priority
    let correlationId ← cloneMember flags 10 cloneBytes correlationId
    let replyTo ← cloneMember flags 9 cloneBytes replyTo
    let expiration ← cloneMember flags 8 cloneBytes expiration
    let messageId ← cloneMember flags 7 cloneBytes messageId
    let timestamp ← cloneMember flags 6 pure timestamp
    let type ← cloneMember flags 5 cloneBytes type
    let userId ← cloneMember flags 4 cloneBytes userId
    let appId ← cloneMember flags 3 cloneBytes appId
    let clusterId ← cloneMember flags 2 cloneBytes clusterId
    return (contentType, contentEncoding, headers, deliveryMode, priority, correlationId, replyTo,
      expiration, messageId, timestamp, type, userId, appId, clusterId, ())

theorem cloneProperty_eq (flags : UInt32) (bit : Nat) (domain : Domain)
    (member : Option domain.Value) :
    cloneProperty flags ⟨bit, domain⟩ member =
      cloneMember flags bit (cloneField domain) member := by
  cases member <;> simp [cloneProperty, cloneMember, flagged]

theorem cloneProperties_continues {γ : Type} {flags : UInt32} {property : Property}
    {properties : List Property} {field : Option property.domain.Value}
    {fields : PropertyFields properties} {finish : PropertyFields (property :: properties) → γ}
    {rest : Option property.domain.Value → Cloner γ}
    (continues : ∀ clone,
      (fun clones => finish (clone, clones)) <$> cloneProperties flags properties fields = rest clone) :
    finish <$> cloneProperties flags (property :: properties) (field, fields) =
      cloneMember flags property.bit (cloneField property.domain) field >>= rest := by
  rw [← cloneProperty_eq]
  refine (map_bind finish _ _).trans (bind_congr fun clone => ?_)
  rw [← continues clone, map_eq_pure_bind]
  exact (map_bind finish _ _).trans (bind_congr fun clones => map_pure finish (clone, clones))

theorem amqpBasicPropertiesClone_eq (original : Properties 60) :
    amqpBasicPropertiesClone original =
      Properties.mk original.flags <$> cloneBasicMembers original.flags original.fields := by
  obtain ⟨flags, contentType, contentEncoding, headers, deliveryMode, priority, correlationId,
    replyTo, expiration, messageId, timestamp, type, userId, appId, clusterId, last⟩ := original
  refine congrArg (Properties.mk flags <$> ·) ((id_map _).symm.trans ?_)
  refine cloneProperties_continues fun contentType => ?_
  refine cloneProperties_continues fun contentEncoding => ?_
  refine cloneProperties_continues fun headers => ?_
  refine cloneProperties_continues fun deliveryMode => ?_
  refine cloneProperties_continues fun priority => ?_
  refine cloneProperties_continues fun correlationId => ?_
  refine cloneProperties_continues fun replyTo => ?_
  refine cloneProperties_continues fun expiration => ?_
  refine cloneProperties_continues fun messageId => ?_
  refine cloneProperties_continues fun timestamp => ?_
  refine cloneProperties_continues fun type => ?_
  refine cloneProperties_continues fun userId => ?_
  refine cloneProperties_continues fun appId => ?_
  refine cloneProperties_continues fun clusterId => ?_
  rfl

/-! ## Copies -/

/-- A key that can be copied. -/
def Component.Named : Component → Prop
  | .key bytes => bytes ≠ []
  | .value _ => True

theorem poolAlloc_granted : poolAlloc [] = .ok () [] := rfl

theorem cloneBytes_granted (original : List UInt8) :
    cloneBytes original [] = .ok original [] := by
  unfold cloneBytes
  split <;> rfl

/-- Copying stops at no component. -/
def Component.Clonable (component : Component) : Prop := component.Known ∧ component.Named

mutual

theorem amqpFieldValueClone_granted : (value : FieldValue) →
    (∀ component ∈ value.components, component.Clonable) →
      amqpFieldValueClone value [] = .ok value []
  | .utf8 bytes, _ => Effect.map_of_ok (cloneBytes_granted bytes)
  | .bytes bytes, _ => Effect.map_of_ok (cloneBytes_granted bytes)
  | .array [], _ => rfl
  | .array (entry :: entries), clonable => by
      unfold amqpFieldValueClone
      rw [Effect.bind_of_ok poolAlloc_granted]
      refine Effect.map_of_ok (cloneArrayEntries_granted (entry :: entries) fun component member => ?_)
      exact clonable component (List.mem_cons_of_mem _ member)
  | .table [], _ => rfl
  | .table (entry :: entries), clonable => by
      unfold amqpFieldValueClone
      rw [Effect.bind_of_ok poolAlloc_granted]
      refine Effect.map_of_ok (cloneTableEntries_granted (entry :: entries) fun component member => ?_)
      exact clonable component (List.mem_cons_of_mem _ member)
  | .unknown kind, clonable => absurd (clonable _ List.mem_cons_self).1 id
  | .boolean _, _ | .i8 _, _ | .u8 _, _ | .i16 _, _ | .u16 _, _ | .i32 _, _ | .u32 _, _ => rfl
  | .i64 _, _ | .u64 _, _ | .f32 _, _ | .f64 _, _ | .decimal _ _, _ | .timestamp _, _ => rfl
  | .void, _ => rfl

theorem cloneArrayEntries_granted : (entries : List FieldValue) →
    (∀ component ∈ arrayComponents entries, component.Clonable) →
      cloneArrayEntries entries [] = .ok entries []
  | [], _ => rfl
  | entry :: entries, clonable => by
      have first := amqpFieldValueClone_granted entry fun component member =>
        clonable component (List.mem_append_left _ member)
      have rest := cloneArrayEntries_granted entries fun component member =>
        clonable component (List.mem_append_right _ member)
      unfold cloneArrayEntries
      rw [Effect.bind_of_ok first, Effect.bind_of_ok rest]
      rfl

theorem amqpTableEntryClone_granted : (entry : TableEntry) →
    (∀ component ∈ entry.components, component.Clonable) →
      amqpTableEntryClone entry [] = .ok entry []
  | .mk key value, clonable => by
      have named : key ≠ [] := (clonable (.key key) List.mem_cons_self).2
      have copied := amqpFieldValueClone_granted value fun component member =>
        clonable component (List.mem_cons_of_mem _ member)
      unfold amqpTableEntryClone
      rw [if_neg (by simpa using named), Effect.bind_of_ok poolAlloc_granted,
        Effect.bind_of_ok copied]
      rfl

theorem cloneTableEntries_granted : (entries : List TableEntry) →
    (∀ component ∈ tableComponents entries, component.Clonable) →
      cloneTableEntries entries [] = .ok entries []
  | [], _ => rfl
  | entry :: entries, clonable => by
      have first := amqpTableEntryClone_granted entry fun component member =>
        clonable component (List.mem_append_left _ member)
      have rest := cloneTableEntries_granted entries fun component member =>
        clonable component (List.mem_append_right _ member)
      unfold cloneTableEntries
      rw [Effect.bind_of_ok first, Effect.bind_of_ok rest]
      rfl

end

theorem amqpTableClone_granted {table : Table} (clonable : table.Every Component.Clonable) :
    amqpTableClone table [] = .ok table [] := by
  unfold amqpTableClone
  split
  · rename_i empty
    rw [List.length_eq_zero_iff.mp empty]
    rfl
  · rw [Effect.bind_of_ok poolAlloc_granted]
    exact cloneTableEntries_granted table fun component member =>
      clonable component (List.mem_cons_of_mem _ member)

end RabbitmqC
