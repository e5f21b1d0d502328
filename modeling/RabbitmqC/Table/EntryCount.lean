import RabbitmqC.Table.RoundTrip

/-!
# Counting entries

The decoder counts the entries of a table or an array, and the entries there is
memory for, as `int`. What it returns has at most `2 ^ 30` entries in each of them.
The encoder does not count, and writes tables that cannot be read back.
-/

set_option autoImplicit false

namespace RabbitmqC

open Effect

/-! ## Decoded tables -/

/-- Whatever a decoder returns satisfies `holds`. -/
def Produces {α : Type} (decode : Decoder α) (holds : α → Prop) : Prop :=
  Triple (fun _ => True) decode (fun value _ => holds value) (fun _ _ => True)

section Decoded

variable {α β : Type} {decode : Decoder α} {encoded : Encoded}

theorem produces_any (decode : Decoder α) : Produces decode fun _ => True := by
  intro state _
  cases decode state <;> trivial

theorem Produces.bind {next : α → Decoder β} {before : α → Prop} {after : β → Prop}
    (first : Produces decode before) (second : ∀ value, before value → Produces (next value) after) :
    Produces (decode >>= next) after := by
  refine Triple.bind first fun value => ?_
  intro state holds
  exact second value holds trivial

theorem produces_pure {value : α} {holds : α → Prop} (isHeld : holds value) :
    Produces (pure value) holds := .pure fun _ _ => isHeld

theorem produces_throw {failure : Failure} {holds : α → Prop} :
    Produces (throw failure : Decoder α) holds := .throw fun _ _ => trivial

theorem Produces.map {change : α → β} {before : α → Prop} {after : β → Prop}
    (first : Produces decode before) (changes : ∀ value, before value → after (change value)) :
    Produces (change <$> decode) after :=
  first.bind fun value isHeld => produces_pure (changes value isHeld)

/-- The kind of a component is known, and it has few entries. -/
def Component.Collected (component : Component) : Prop := component.Known ∧ component.Few

/-- A scalar value has one component, and its kind is known. -/
theorem produces_scalar {build : α → FieldValue} (scalar : ∀ value,
    ∀ component ∈ (build value).components, component.Collected) :
    Produces (build <$> decode) fun value => ∀ component ∈ value.components, component.Collected :=
  (produces_any decode).map fun value _ => scalar value

theorem produces_reserve {numEntries allocated : Nat} (reserved : Reserved numEntries allocated) :
    Produces (reserve numEntries allocated) fun available =>
      numEntries < maxEntries ∧ Reserved (numEntries + 1) available := by
  intro state _
  cases returned : reserve numEntries allocated state with
  | ok available after => exact reserved.of_reserve returned
  | error failure after => trivial

theorem produces_keepEntries {entries : List α} {holds : List α → Prop} (isHeld : holds entries) :
    Produces (keepEntries entries) holds := by
  unfold keepEntries
  split
  · exact produces_pure isHeld
  · refine (produces_any allocate).bind fun granted _ => ?_
    cases granted with
    | true => exact produces_pure isHeld
    | false => exact produces_throw

section Turns

variable {fuel : Nat}

/-- The entries of a loop that starts with `numEntries` of them. -/
def Collects {α : Type} (numEntries : Nat) (components : List α → List Component)
    (entries : List α) : Prop :=
  numEntries + entries.length ≤ maxEntries ∧
    ∀ component ∈ components entries, component.Collected

theorem produces_decodeFieldValue
    (array : Produces (decodeArray fuel encoded) (Collects 0 arrayComponents))
    (table : Produces (decodeTable fuel encoded) (Collects 0 tableComponents)) :
    Produces (decodeFieldValue (fuel + 1) encoded) fun value =>
      ∀ component ∈ value.components, component.Collected := by
  unfold decodeFieldValue
  refine (produces_any _).bind fun kind _ => ?_
  cases FieldKind.ofOctet kind with
  | none => exact produces_throw
  | some kind =>
      cases kind with
      | array =>
          refine array.map fun entries ⟨few, collected⟩ => ?_
          exact List.forall_mem_cons.mpr ⟨⟨trivial, (Nat.zero_add _).ge.trans few⟩, collected⟩
      | table =>
          refine table.map fun entries ⟨few, collected⟩ => ?_
          exact List.forall_mem_cons.mpr ⟨⟨trivial, (Nat.zero_add _).ge.trans few⟩, collected⟩
      | decimal =>
          refine (produces_any _).bind fun decimals _ => ?_
          exact @produces_scalar _ _ (FieldValue.decimal decimals) fun value => by
            simp [FieldValue.components, Component.Collected, Component.Known, Component.Few]
      | utf8 | bytes =>
          refine (produces_any _).bind fun len _ => produces_scalar ?_
          simp [FieldValue.components, Component.Collected, Component.Known, Component.Few]
      | void =>
          refine produces_pure ?_
          simp [FieldValue.components, Component.Collected, Component.Known, Component.Few]
      | _ =>
          refine produces_scalar ?_
          simp [FieldValue.components, Component.Collected, Component.Known, Component.Few]

theorem produces_decodeArrayEntries
    (value : Produces (decodeFieldValue fuel encoded) fun value =>
      ∀ component ∈ value.components, component.Collected)
    (elements : ∀ limit numEntries allocated, Reserved numEntries allocated →
      Produces (decodeArrayEntries fuel encoded limit numEntries allocated)
        (Collects numEntries arrayComponents)) (limit : Nat) {numEntries allocated : Nat}
    (reserved : Reserved numEntries allocated) :
    Produces (decodeArrayEntries (fuel + 1) encoded limit numEntries allocated)
      (Collects numEntries arrayComponents) := by
  unfold decodeArrayEntries
  refine (produces_any _).bind fun state _ => ?_
  split
  · refine (produces_reserve reserved).bind fun allocated ⟨_, counted⟩ => ?_
    refine value.bind fun entry first => ?_
    refine (elements _ _ _ counted).bind fun entries ⟨few, rest⟩ => produces_pure ?_
    refine ⟨?_, List.forall_mem_append.mpr ⟨first, rest⟩⟩
    rw [List.length_cons]
    omega
  · exact produces_pure ⟨reserved.few, by simp [arrayComponents]⟩

theorem produces_decodeTableEntries
    (value : Produces (decodeFieldValue fuel encoded) fun value =>
      ∀ component ∈ value.components, component.Collected)
    (entries : ∀ limit numEntries allocated, Reserved numEntries allocated →
      Produces (decodeTableEntries fuel encoded limit numEntries allocated)
        (Collects numEntries tableComponents)) (limit : Nat) {numEntries allocated : Nat}
    (reserved : Reserved numEntries allocated) :
    Produces (decodeTableEntries (fuel + 1) encoded limit numEntries allocated)
      (Collects numEntries tableComponents) := by
  unfold decodeTableEntries
  refine (produces_any _).bind fun state _ => ?_
  split
  · refine (produces_any _).bind fun keylen _ => ?_
    refine (produces_reserve reserved).bind fun allocated ⟨_, counted⟩ => ?_
    refine (produces_any _).bind fun key _ => value.bind fun entry first => ?_
    refine (entries _ _ _ counted).bind fun entries ⟨few, rest⟩ => produces_pure ?_
    refine ⟨?_, List.forall_mem_append.mpr
      ⟨List.forall_mem_cons.mpr ⟨⟨trivial, trivial⟩, first⟩, rest⟩⟩
    rw [List.length_cons]
    omega
  · exact produces_pure ⟨reserved.few, by simp [tableComponents]⟩

/-- The five mutually recursive decoders, by induction on the fuel. -/
private theorem collected_decoders (encoded : Encoded) (fuel : Nat) :
    (Produces (decodeFieldValue fuel encoded) fun value =>
        ∀ component ∈ value.components, component.Collected) ∧
      (∀ limit numEntries allocated, Reserved numEntries allocated →
        Produces (decodeArrayEntries fuel encoded limit numEntries allocated)
          (Collects numEntries arrayComponents)) ∧
      (∀ limit numEntries allocated, Reserved numEntries allocated →
        Produces (decodeTableEntries fuel encoded limit numEntries allocated)
          (Collects numEntries tableComponents)) ∧
      Produces (decodeArray fuel encoded) (Collects 0 arrayComponents) ∧
      Produces (decodeTable fuel encoded) (Collects 0 tableComponents) := by
  induction fuel with
  | zero =>
      simp only [decodeFieldValue, decodeArrayEntries, decodeTableEntries, decodeArray,
        decodeTable]
      exact ⟨produces_throw, fun _ _ _ _ => produces_throw, fun _ _ _ _ => produces_throw,
        produces_throw, produces_throw⟩
  | succ fuel ih =>
      obtain ⟨value, elements, entries, array, table⟩ := ih
      refine ⟨produces_decodeFieldValue array table,
        fun limit _ _ => produces_decodeArrayEntries value elements limit,
        fun limit _ _ => produces_decodeTableEntries value entries limit, ?_, ?_⟩
      · unfold decodeArray
        refine (produces_any _).bind fun limit _ => ?_
        refine (elements _ _ _ reserved_initial).bind fun entries collected => ?_
        exact produces_keepEntries collected
      · unfold decodeTable
        refine (produces_any _).bind fun limit _ => ?_
        refine (entries _ _ _ reserved_initial).bind fun entries collected => ?_
        exact produces_keepEntries collected

end Turns

theorem collected_of_amqpDecodeTable {table : Table} {before after : DecodeState}
    (decoded : amqpDecodeTable encoded before = .ok table after) :
    table.Every Component.Collected := by
  obtain ⟨few, collected⟩ :=
    (collected_decoders encoded (decodeFuel encoded)).2.2.2.2.ok trivial decoded
  exact List.forall_mem_cons.mpr ⟨⟨trivial, (Nat.zero_add _).ge.trans few⟩, collected⟩

/-- A table that was decoded holds known kinds only. -/
theorem known_of_amqpDecodeTable {table : Table} {before after : DecodeState}
    (decoded : amqpDecodeTable encoded before = .ok table after) :
    table.Every Component.Known :=
  fun component member => (collected_of_amqpDecodeTable decoded component member).1

/-- No table and no array in it has too many entries. -/
theorem few_of_amqpDecodeTable {table : Table} {before after : DecodeState}
    (decoded : amqpDecodeTable encoded before = .ok table after) :
    table.Every Component.Few :=
  fun component member => (collected_of_amqpDecodeTable decoded component member).2

end Decoded

/-! ## The round trip -/

mutual

/-- Reducing booleans changes no number of entries. -/
theorem FieldValue.few_of_normalise (entry : FieldValue)
    (few : ∀ component ∈ entry.normalise.components, component.Few) :
    ∀ component ∈ entry.components, component.Few := by
  cases entry with
  | array entries =>
      unfold FieldValue.normalise at few
      obtain ⟨own, inside⟩ := List.forall_mem_cons.mp few
      refine List.forall_mem_cons.mpr ⟨?_, few_of_normaliseArray entries inside⟩
      rwa [Component.Few, length_normaliseArray] at own
  | table entries =>
      unfold FieldValue.normalise at few
      obtain ⟨own, inside⟩ := List.forall_mem_cons.mp few
      refine List.forall_mem_cons.mpr ⟨?_, few_of_normaliseTable entries inside⟩
      rwa [Component.Few, length_normaliseTable] at own
  | _ =>
      intro component member
      rw [List.mem_singleton.mp member]
      trivial

theorem few_of_normaliseArray (entries : List FieldValue)
    (few : ∀ component ∈ arrayComponents (normaliseArray entries), component.Few) :
    ∀ component ∈ arrayComponents entries, component.Few := by
  cases entries with
  | nil => exact few
  | cons entry entries =>
      obtain ⟨first, rest⟩ := List.forall_mem_append.mp few
      exact List.forall_mem_append.mpr
        ⟨entry.few_of_normalise first, few_of_normaliseArray entries rest⟩

theorem few_of_normaliseTable (entries : List TableEntry)
    (few : ∀ component ∈ tableComponents (normaliseTable entries), component.Few) :
    ∀ component ∈ tableComponents entries, component.Few := by
  cases entries with
  | nil => exact few
  | cons entry entries =>
      cases entry with
      | mk key value =>
          obtain ⟨first, rest⟩ := List.forall_mem_append.mp few
          obtain ⟨_, inValue⟩ := List.forall_mem_cons.mp first
          refine List.forall_mem_append.mpr ⟨List.forall_mem_cons.mpr ⟨trivial, ?_⟩,
            few_of_normaliseTable entries rest⟩
          exact value.few_of_normalise inValue

end

/-- What a successful `amqp_encode_table` has written, `amqp_decode_table` reads
back from the same start, up to the same offset, when allocations succeed, exactly
if it can count the entries. -/
theorem amqpDecodeTable_of_amqpEncodeTable_iff {view : View} {table : Table}
    {before after : EncodeState} (representable : table.Representable)
    (returned : amqpEncodeTable view table before = .ok () after) :
    amqpDecodeTable { view with mem := after.mem } ⟨before.offset, []⟩ =
        .ok (normaliseTable table) ⟨after.offset, []⟩ ↔
      table.Every Component.Few := by
  constructor
  · intro decoded
    have few := few_of_amqpDecodeTable decoded
    exact (FieldValue.table table).few_of_normalise few
  · intro few
    refine amqpDecodeTable_of_written (emits_amqpEncodeTable view table returned) ?_
    intro component member
    obtain ⟨inLength, countable⟩ := representable component member
    exact ⟨known_of_amqpEncodeTable returned component member, inLength, countable,
      few component member⟩

/-- A nested table, with a key, a string, a boolean and a negative number in it,
written from offset 2 of a blank buffer. -/
theorem amqpDecodeTable_of_amqpEncodeTable_nested :
    ∃ after,
      amqpEncodeTable ⟨0, 64⟩
        [.mk [107] (.table [.mk [] (.array [.boolean 7, .i16 (-3)])]), .mk [108] (.utf8 [97])]
        ⟨.zeros 64 (by omega), 2⟩ = .ok () after ∧
      amqpDecodeTable { base := 0, len := 64, mem := after.mem } ⟨2, []⟩ =
        .ok [.mk [107] (.table [.mk [] (.array [.boolean 1, .i16 (-3)])]), .mk [108] (.utf8 [97])]
          ⟨after.offset, []⟩ := by
  obtain ⟨after, returned⟩ := @accepts_amqpEncodeTable ⟨0, 64⟩
    [.mk [107] (.table [.mk [] (.array [.boolean 7, .i16 (-3)])]), .mk [108] (.utf8 [97])]
    (by simp [Table.Every, FieldValue.components, tableComponents, TableEntry.components,
      arrayComponents, Component.Known])
    ⟨.zeros 64 (by omega), 2⟩ (by simp)
    (by simp [tableWire, sized, tableContent, TableEntry.wire, FieldValue.wire, arrayContent])
  refine ⟨after, returned, (amqpDecodeTable_of_amqpEncodeTable_iff ?_ returned).mpr ?_⟩
  · simp [Table.Representable, Table.Every, FieldValue.components, tableComponents,
      TableEntry.components, arrayComponents, Component.Overlong, Component.Countable, sized,
      tableContent, TableEntry.wire, FieldValue.wire, arrayContent]
  · simp [Table.Every, FieldValue.components, tableComponents, TableEntry.components,
      arrayComponents, Component.Few, maxEntries]

/-! ## An array of void values -/

/-- The only entry, under an empty key, is an array of `count` void values. -/
def voidsTable (count : Nat) : Table := [.mk [] (.array (List.replicate count .void))]

section Voids

variable {count : Nat}

theorem arrayContent_voids : arrayContent (List.replicate count .void) = List.replicate count 86 := by
  induction count with
  | zero => rfl
  | succ count ih =>
      rw [List.replicate_succ, arrayContent, ih, List.replicate_succ]
      rfl

theorem tableContent_voids : tableContent (voidsTable count) =
    [0, 65] ++ sized (List.replicate count 86) := by
  have length : BigEndian.bytes 1 0 = [0] := by decide
  have kind : BigEndian.bytes 1 65 = [65] := by decide
  rw [voidsTable, tableContent, TableEntry.wire, FieldValue.wire, arrayContent_voids, tableContent,
    List.append_nil]
  show BigEndian.bytes 1 0 ++ ([] ++ (BigEndian.bytes 1 65 ++ _)) = _
  rw [length, kind]
  rfl

theorem length_tableContent_voids : (tableContent (voidsTable count)).length = count + 6 := by
  rw [tableContent_voids, List.length_append, length_sized, List.length_replicate]
  simp only [List.length_cons, List.length_nil]
  omega

theorem arrayComponents_voids : ∀ component ∈ arrayComponents (List.replicate count .void),
    component = .value .void := by
  induction count with
  | zero => exact fun _ member => absurd member List.not_mem_nil
  | succ count ih =>
      intro component member
      rcases List.mem_append.mp member with first | rest
      · exact List.mem_singleton.mp first
      · exact ih component rest

/-- Every component is one of four. -/
theorem every_voids {holds : Component → Prop} (table : holds (.value (.table (voidsTable count))))
    (key : holds (.key [])) (array : holds (.value (.array (List.replicate count .void))))
    (void : holds (.value .void)) : (voidsTable count).Every holds := by
  refine List.forall_mem_cons.mpr ⟨table, fun component member => ?_⟩
  simp only [voidsTable, tableComponents, TableEntry.components, List.append_nil] at member
  rcases List.mem_cons.mp member with rfl | inValue
  · exact key
  · rcases List.mem_cons.mp inValue with rfl | inArray
    · exact array
    · rw [arrayComponents_voids component inArray]
      exact void

theorem representable_voids (small : count + 6 < 2 ^ 32) : (voidsTable count).Representable := by
  refine every_voids ⟨id, ?_⟩ ⟨by simp [Component.Overlong], trivial⟩ ⟨id, ?_⟩ ⟨id, trivial⟩
  · rw [Component.Countable, length_tableContent_voids]
    exact small
  · rw [Component.Countable, arrayContent_voids, List.length_replicate]
    omega

/-- The table can be encoded, in a buffer that is large enough. -/
theorem amqpEncodeTable_voids (room : count + 10 < 2 ^ 63) :
    ∃ after, amqpEncodeTable ⟨0, count + 10⟩ (voidsTable count)
      ⟨.zeros (count + 10) room, 0⟩ = .ok () after := by
  have known : (voidsTable count).Every Component.Known :=
    every_voids trivial trivial trivial trivial
  refine accepts_amqpEncodeTable ⟨0, count + 10⟩ known (by simp) ?_
  rw [tableWire, length_sized, length_tableContent_voids]
  simp only
  omega

theorem not_few_voids (many : maxEntries < count) : ¬ (voidsTable count).Every Component.Few := by
  intro few
  have own : (List.replicate count FieldValue.void).length ≤ maxEntries :=
    few (.value (.array (List.replicate count .void)))
      (List.mem_cons_of_mem _ (List.mem_cons_of_mem _ List.mem_cons_self))
  rw [List.length_replicate] at own
  omega

end Voids

/-- `2 ^ 30 + 1` void values are encoded, and cannot be decoded. -/
theorem many_voids_not_decoded :
    ¬ ∀ (view : View) (table : Table) (before after : EncodeState), table.Representable →
      amqpEncodeTable view table before = .ok () after →
        amqpDecodeTable { view with mem := after.mem } ⟨before.offset, []⟩ =
          .ok (normaliseTable table) ⟨after.offset, []⟩ := by
  intro decodes
  obtain ⟨after, returned⟩ := @amqpEncodeTable_voids (maxEntries + 1) (by decide)
  have decoded := decodes _ _ _ _ (representable_voids (by decide)) returned
  have few := (FieldValue.table (voidsTable (maxEntries + 1))).few_of_normalise
    (few_of_amqpDecodeTable decoded)
  exact not_few_voids (Nat.lt_succ_self _) few

end RabbitmqC
