import RabbitmqC.Table.RoundTrip

/-!
# What the table encoder refuses

Key and string lengths are narrowed to the width of their length word without
a test. The encoder therefore refuses a table only for a field of an unknown
kind or for want of room, never for a length that the wire format cannot hold.
-/

set_option autoImplicit false

namespace RabbitmqC

/-- A key or a string, at any depth, is longer than its length word can say. -/
def Table.HasOverlong (table : Table) : Prop :=
  ∃ component ∈ (FieldValue.table table).components, component.Overlong

/-- A field, at any depth, has a kind that the encoder has no case for. -/
def Table.HasUnknown (table : Table) : Prop :=
  ∃ component ∈ (FieldValue.table table).components, ¬ component.Known

/-- An overlong key or string keeps `amqp_encode_table` from succeeding. -/
def RefusesOverlong (view : View) (table : Table) (before : EncodeState) : Prop :=
  table.HasOverlong → ∀ after, amqpEncodeTable view table before ≠ .ok () after

/-- The encoder succeeds exactly when it knows all kinds and has the room. -/
theorem amqpEncodeTable_returns_iff {view : View} {table : Table} {before : EncodeState}
    (inside : view.base + view.len ≤ before.mem.size) :
    (∃ after, amqpEncodeTable view table before = .ok () after) ↔
      ¬ table.HasUnknown ∧ before.offset + (tableWire table).length ≤ view.len := by
  constructor
  · rintro ⟨after, returned⟩
    have known := known_of_amqpEncodeTable returned
    have written := emits_amqpEncodeTable view table returned
    refine ⟨?_, (written.fits (tableWire_ne_nil table)).1⟩
    rintro ⟨component, member, unknown⟩
    exact unknown (known component member)
  · rintro ⟨known, room⟩
    refine accepts_amqpEncodeTable view ?_ inside room
    intro component member
    by_contra unknown
    exact known ⟨component, member, unknown⟩

/-- Overlong lengths are refused only where something else stops the encoder.
Without them, with nested encodings below `2 ^ 32` octets and with at most `2 ^ 30`
entries in each table or array, what was encoded decodes to the table that was
passed in. -/
theorem refusesOverlong_iff {view : View} {table : Table} {before : EncodeState}
    (inside : view.base + view.len ≤ before.mem.size) :
    (RefusesOverlong view table before ↔
      ¬ table.HasOverlong ∨ table.HasUnknown ∨
        view.len < before.offset + (tableWire table).length) ∧
    (¬ table.HasOverlong → table.Every Component.Countable → table.Every Component.Few →
      ∀ after, amqpEncodeTable view table before = .ok () after →
        amqpDecodeTable { view with mem := after.mem } ⟨before.offset, []⟩ =
          .ok (normaliseTable table) ⟨after.offset, []⟩) := by
  have returns := @amqpEncodeTable_returns_iff _ table _ inside
  constructor
  · constructor
    · intro refuses
      by_contra none
      push Not at none
      obtain ⟨overlong, known, room⟩ := none
      obtain ⟨after, returned⟩ := returns.mpr ⟨known, room⟩
      exact refuses overlong after returned
    · intro reason overlong after returned
      obtain ⟨known, room⟩ := returns.mp ⟨after, returned⟩
      rcases reason with short | unknown | full
      · exact short overlong
      · exact known unknown
      · omega
  · intro short countable few after returned
    refine amqpDecodeTable_of_written (emits_amqpEncodeTable view table returned) ?_
    intro component member
    refine ⟨known_of_amqpEncodeTable returned component member, ?_, countable component member,
      few component member⟩
    exact fun overlong => short ⟨component, member, overlong⟩

/-- One empty field under a short key, in a buffer with room for it. -/
theorem refusesOverlong_iff_short :
    RefusesOverlong ⟨0, 16⟩ [.mk [107] .void] ⟨.zeros 16 (by omega), 0⟩ := by
  refine (refusesOverlong_iff (by simp)).1.mpr (.inl ?_)
  simp [Table.HasOverlong, FieldValue.components, tableComponents, TableEntry.components,
    Component.Overlong]

/-- A key of 256 octets is copied in full behind the length octet 0. -/
theorem amqpEncodeTable_accepts_long_key :
    ¬ RefusesOverlong ⟨0, 512⟩ [.mk (List.replicate 256 107) .void]
      ⟨.zeros 512 (by omega), 0⟩ := by
  intro refuses
  obtain ⟨after, returned⟩ := (@amqpEncodeTable_returns_iff ⟨0, 512⟩
    [.mk (List.replicate 256 107) .void] ⟨.zeros 512 (by omega), 0⟩ (by simp)).mpr
    ⟨by simp [-List.reduceReplicate, Table.HasUnknown, FieldValue.components, tableComponents, TableEntry.components,
        Component.Known],
      by simp [-List.reduceReplicate, tableWire, sized, tableContent, TableEntry.wire, FieldValue.wire]⟩
  refine refuses ?_ after returned
  refine ⟨.key (List.replicate 256 107), ?_, ?_⟩
  · simp [-List.reduceReplicate, FieldValue.components, tableComponents, TableEntry.components]
  · simp [-List.reduceReplicate, Component.Overlong]

end RabbitmqC
