import RabbitmqC.Table.Clone
import RabbitmqC.Table.EntryCount

/-!
# Copying what was decoded

`amqp_decode_table` accepts no kind that `amqp_table_clone` does not know. It does
accept empty keys, and `amqp_table_entry_clone` does not.
-/

set_option autoImplicit false

namespace RabbitmqC

open Effect

/-! ## Refused copies -/

/-- An empty key or an unknown kind makes copying fail. -/
def Refuses {α : Type} (clone : Cloner α) : Prop :=
  clone [] = .error (.status .invalidParameter) []

theorem Refuses.bind {α β : Type} {first : Cloner α} (refuses : Refuses first)
    (next : α → Cloner β) : Refuses (first >>= next) := bind_of_error refuses

theorem Refuses.map {α β : Type} {first : Cloner α} (refuses : Refuses first)
    (change : α → β) : Refuses (change <$> first) := map_of_error refuses

theorem Refuses.after {α β : Type} {first : Cloner α} {next : α → Cloner β} {value : α}
    (copied : first [] = .ok value []) (refuses : Refuses (next value)) :
    Refuses (first >>= next) := by
  unfold Refuses
  rw [bind_of_ok copied]
  exact refuses

/-- Either all components can be copied, or copying fails at one that cannot. -/
def ClonableOrRefused {α : Type} (components : List Component) (clone : Cloner α) : Prop :=
  (∀ component ∈ components, component.Clonable) ∨ Refuses clone

/-- A value that is copied as it is. -/
theorem ClonableOrRefused.single {α : Type} {component : Component} {clone : Cloner α}
    (clonable : component.Clonable) : ClonableOrRefused [component] clone := by
  refine .inl fun other member => ?_
  rw [List.mem_singleton.mp member]
  exact clonable

theorem ClonableOrRefused.cons {α β : Type} {component : Component} {components : List Component}
    {clone : Cloner α} {whole : Cloner β} (clonable : component.Clonable)
    (inner : ClonableOrRefused components clone) (refuses : Refuses clone → Refuses whole) :
    ClonableOrRefused (component :: components) whole := by
  rcases inner with every | refused
  · exact .inl (List.forall_mem_cons.mpr ⟨clonable, every⟩)
  · exact .inr (refuses refused)

/-- The first of two parts refuses, or the second one does behind the copy of the first. -/
theorem ClonableOrRefused.append {α β : Type} {left right : List Component} {clone : Cloner α}
    {whole : Cloner β} (first : ClonableOrRefused left clone)
    (refuses : Refuses clone → Refuses whole)
    (rest : (∀ component ∈ left, component.Clonable) → ClonableOrRefused right whole) :
    ClonableOrRefused (left ++ right) whole := by
  rcases first with every | refused
  · rcases rest every with others | refused
    · exact .inl (List.forall_mem_append.mpr ⟨every, others⟩)
    · exact .inr refused
  · exact .inr (refuses refused)

mutual

theorem clonableOrRefused_fieldValue : (value : FieldValue) →
    ClonableOrRefused value.components (amqpFieldValueClone value)
  | .array [] => .single ⟨trivial, trivial⟩
  | .array (entry :: entries) => by
      refine .cons ⟨trivial, trivial⟩ (clonableOrRefused_arrayEntries (entry :: entries)) ?_
      intro refused
      unfold amqpFieldValueClone
      exact .after poolAlloc_granted (refused.map _)
  | .table [] => .single ⟨trivial, trivial⟩
  | .table (entry :: entries) => by
      refine .cons ⟨trivial, trivial⟩ (clonableOrRefused_tableEntries (entry :: entries)) ?_
      intro refused
      unfold amqpFieldValueClone
      exact .after poolAlloc_granted (refused.map _)
  | .unknown _ => .inr rfl
  | .boolean _ | .i8 _ | .u8 _ | .i16 _ | .u16 _ | .i32 _ | .u32 _ | .i64 _ | .u64 _ | .f32 _
  | .f64 _ | .decimal _ _ | .timestamp _ | .void | .utf8 _ | .bytes _ =>
      .single ⟨trivial, trivial⟩

theorem clonableOrRefused_arrayEntries : (entries : List FieldValue) →
    ClonableOrRefused (arrayComponents entries) (cloneArrayEntries entries)
  | [] => .inl (by simp [arrayComponents])
  | entry :: entries => by
      unfold cloneArrayEntries
      refine (clonableOrRefused_fieldValue entry).append (fun refused => refused.bind _) ?_
      intro every
      have copied := amqpFieldValueClone_granted entry every
      refine (clonableOrRefused_arrayEntries entries).imp id fun refused => ?_
      exact .after copied (refused.bind _)

theorem clonableOrRefused_tableEntry : (entry : TableEntry) →
    ClonableOrRefused entry.components (amqpTableEntryClone entry)
  | .mk key value => by
      unfold amqpTableEntryClone
      by_cases empty : key.length = 0
      · rw [if_pos empty]
        exact .inr rfl
      · rw [if_neg empty]
        refine .cons ⟨trivial, fun isNil => empty (by rw [isNil]; rfl)⟩
          (clonableOrRefused_fieldValue value) ?_
        exact fun refused => .after poolAlloc_granted (refused.bind _)

theorem clonableOrRefused_tableEntries : (entries : List TableEntry) →
    ClonableOrRefused (tableComponents entries) (cloneTableEntries entries)
  | [] => .inl (by simp [tableComponents])
  | entry :: entries => by
      unfold cloneTableEntries
      refine (clonableOrRefused_tableEntry entry).append (fun refused => refused.bind _) ?_
      intro every
      have copied := amqpTableEntryClone_granted entry every
      refine (clonableOrRefused_tableEntries entries).imp id fun refused => ?_
      exact .after copied (refused.bind _)

end

/-- With memory available a table that cannot be copied is refused. -/
theorem amqpTableClone_refused {table : Table} (unclonable : ¬ table.Every Component.Clonable) :
    Refuses (amqpTableClone table) := by
  rcases clonableOrRefused_tableEntries table with every | refused
  · exact absurd (List.forall_mem_cons.mpr ⟨⟨trivial, trivial⟩, every⟩) unclonable
  · unfold amqpTableClone
    split
    · rename_i empty
      rw [List.length_eq_zero_iff.mp empty] at refused
      cases refused
    · exact .after poolAlloc_granted refused

/-- With memory available a decoded table is copied, unless a key in it is empty: that
is answered with `AMQP_STATUS_INVALID_PARAMETER`. -/
theorem amqpTableClone_of_amqpDecodeTable {encoded : Encoded} {table : Table}
    {before after : DecodeState} (decoded : amqpDecodeTable encoded before = .ok table after) :
    (table.Every Component.Named → amqpTableClone table [] = .ok table []) ∧
      (¬ table.Every Component.Named →
        amqpTableClone table [] = .error (.status .invalidParameter) []) := by
  have known := known_of_amqpDecodeTable decoded
  constructor
  · intro named
    exact amqpTableClone_granted fun component member =>
      ⟨known component member, named component member⟩
  · intro unnamed
    refine amqpTableClone_refused fun clonable => unnamed ?_
    exact fun component member => (clonable component member).2

/-- One void field under a key, written and read back. -/
theorem amqpTableClone_of_amqpDecodeTable_void :
    ∃ encoded before after, amqpDecodeTable encoded before = .ok [.mk [107] .void] after ∧
      amqpTableClone [.mk [107] .void] [] = .ok [.mk [107] .void] [] := by
  obtain ⟨after, returned⟩ := @accepts_amqpEncodeTable ⟨0, 64⟩ [.mk [107] .void]
    (by simp [Table.Every, FieldValue.components, tableComponents, TableEntry.components,
      Component.Known])
    ⟨.zeros 64 (by omega), 0⟩ (by simp)
    (by simp [tableWire, sized, tableContent, TableEntry.wire, FieldValue.wire])
  have decoded := amqpDecodeTable_of_written (emits_amqpEncodeTable _ _ returned)
    (Table.every_decodable
      (by simp [Table.Every, FieldValue.components, tableComponents, TableEntry.components,
        Component.Known])
      (by simp [Table.Every, FieldValue.components, tableComponents, TableEntry.components,
        Component.Short, Component.ShortKey, Component.Few, maxEntries])
      (by simp [tableWire, sized, tableContent, TableEntry.wire, FieldValue.wire]))
  refine ⟨_, _, _, decoded, (amqpTableClone_of_amqpDecodeTable decoded).1 ?_⟩
  simp [Table.Every, FieldValue.components, tableComponents, TableEntry.components,
    normaliseTable, TableEntry.normalise, FieldValue.normalise, Component.Named]

/-- The octets of a table with one entry, whose key is empty and whose value is void. -/
def unnamedEntry : Encoded where
  base := 0
  len := 6
  mem := ⟨[0, 0, 0, 2, 0, 86], by simp⟩

/-- It is accepted and cannot be delivered. -/
theorem unnamed_entry_not_cloned :
    ¬ ∀ table after, amqpDecodeTable unnamedEntry ⟨0, []⟩ = .ok table after →
      amqpTableClone table [] = .ok table [] := by
  intro delivers
  have refused : (match amqpDecodeTable unnamedEntry ⟨0, []⟩ with
      | .ok table _ =>
          match amqpTableClone table [] with
          | .ok _ _ => false
          | .error _ _ => true
      | .error _ _ => false) = true := by decide +kernel
  cases decoded : amqpDecodeTable unnamedEntry ⟨0, []⟩ with
  | error failure after =>
      rw [decoded] at refused
      cases refused
  | ok table after =>
      rw [decoded] at refused
      dsimp only at refused
      rw [delivers table after decoded] at refused
      cases refused

end RabbitmqC
