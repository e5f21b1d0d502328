import RabbitmqC.Login.Handshake

/-!
# Merging client properties

`amqp_merge_capabilities` works on a copy of `base` that it changes entry by entry.
An entry that `add` has too is found in the copy, but where both are tables the one
to merge into is looked up in `base`. It need not be there when `add` repeats a key.
-/

set_option autoImplicit false

namespace RabbitmqC

open Effect

/-! ## When merging succeeds -/

def HoldsTable : Option FieldValue → Prop
  | some (.table _) => True
  | _ => False

/-- The value that an entry of `add` finds: the one that the latest of the entries of `add`
in front of it has left, or the one of `base`. The latest of them comes first. -/
def precedingValue (key : List UInt8) (earlier base : Table) : Option FieldValue :=
  (amqpTableGetEntryByKey key earlier).or (amqpTableGetEntryByKey key base)

mutual

def EntriesMergeable (base earlier : Table) : List TableEntry → Prop
  | [] => True
  | entry :: entries =>
      EntryMergeable base earlier entry ∧ EntriesMergeable base (entry :: earlier) entries
termination_by structural entries => entries

def EntryMergeable (base earlier : Table) : TableEntry → Prop
  | .mk key value =>
      ValueMergeable (precedingValue key earlier base) (amqpTableGetEntryByKey key base) value
termination_by structural entry => entry

/-- Where a table meets a table, `base` has one too, one of the two to be merged has entries,
and merging them succeeds. -/
def ValueMergeable (preceding inBase : Option FieldValue) : FieldValue → Prop
  | .table add =>
      HoldsTable preceding →
        match inBase with
        | some (.table base) => (base ≠ [] ∨ add ≠ []) ∧ EntriesMergeable base [] add
        | _ => False
  | _ => True
termination_by structural value => value

end

/-- The condition on the two tables. -/
def Mergeable (base add : Table) : Prop := (base ≠ [] ∨ add ≠ []) ∧ EntriesMergeable base [] add

/-- The tables are merged, and nothing that is not a table is taken for one. -/
def MergesCapabilities (base : Table) (add : Option Table) : Prop :=
  ∃ result, amqpMergeCapabilities base add [] = .ok result []

/-! ## Tables as maps -/

abbrev ClonableEntries (table : Table) : Prop :=
  ∀ component ∈ tableComponents table, component.Clonable

abbrev ClonableValue (value : FieldValue) : Prop :=
  ∀ component ∈ value.components, component.Clonable

section Maps

variable {table other : Table} {key : List UInt8} {value : FieldValue}

theorem tableComponents_append :
    tableComponents (table ++ other) = tableComponents table ++ tableComponents other := by
  induction table with
  | nil => rfl
  | cons entry table ih =>
      rw [List.cons_append, tableComponents, tableComponents, ih, List.append_assoc]

theorem clonableEntries_append :
    ClonableEntries (table ++ other) ↔ ClonableEntries table ∧ ClonableEntries other := by
  unfold ClonableEntries
  rw [tableComponents_append, List.forall_mem_append]

theorem clonableEntries_cons :
    ClonableEntries (.mk key value :: table) ↔
      (key ≠ [] ∧ ClonableValue value) ∧ ClonableEntries table := by
  simp only [ClonableEntries, ClonableValue, tableComponents, TableEntry.components,
    List.forall_mem_append, List.forall_mem_cons, Component.Clonable, Component.Known,
    Component.Named, true_and]

theorem ClonableEntries.getEntryByKey (clonable : ClonableEntries table)
    (found : amqpTableGetEntryByKey key table = some value) : ClonableValue value := by
  induction table with
  | nil => cases found
  | cons entry table ih =>
      obtain ⟨name, held⟩ := entry
      obtain ⟨⟨_, own⟩, rest⟩ := clonableEntries_cons.mp clonable
      rw [amqpTableGetEntryByKey] at found
      split at found
      · cases found
        exact own
      · exact ih rest found

theorem ClonableEntries.setEntryByKey (clonable : ClonableEntries table)
    (valueClonable : ClonableValue value) : ClonableEntries (setEntryByKey key value table) := by
  induction table with
  | nil => exact clonable
  | cons entry table ih =>
      obtain ⟨name, held⟩ := entry
      obtain ⟨⟨named, own⟩, rest⟩ := clonableEntries_cons.mp clonable
      rw [RabbitmqC.setEntryByKey]
      split
      · exact clonableEntries_cons.mpr ⟨⟨named, valueClonable⟩, rest⟩
      · exact clonableEntries_cons.mpr ⟨⟨named, own⟩, ih rest⟩

theorem getEntryByKey_append :
    amqpTableGetEntryByKey key (table ++ other) =
      (amqpTableGetEntryByKey key table).or (amqpTableGetEntryByKey key other) := by
  induction table with
  | nil => rfl
  | cons entry table ih =>
      obtain ⟨name, held⟩ := entry
      rw [List.cons_append, amqpTableGetEntryByKey, amqpTableGetEntryByKey]
      split
      · rfl
      · exact ih

theorem getEntryByKey_setEntryByKey_self
    (present : (amqpTableGetEntryByKey key table).isSome) :
    amqpTableGetEntryByKey key (setEntryByKey key value table) = some value := by
  induction table with
  | nil => cases present
  | cons entry table ih =>
      obtain ⟨name, held⟩ := entry
      rw [amqpTableGetEntryByKey] at present
      rw [setEntryByKey]
      split
      · rename_i same
        rw [amqpTableGetEntryByKey, if_pos same]
      · rename_i different
        rw [if_neg different] at present
        rw [amqpTableGetEntryByKey, if_neg different]
        exact ih present

theorem getEntryByKey_setEntryByKey_of_ne {wanted : List UInt8} (different : wanted ≠ key) :
    amqpTableGetEntryByKey wanted (setEntryByKey key value table) =
      amqpTableGetEntryByKey wanted table := by
  induction table with
  | nil => rfl
  | cons entry table ih =>
      obtain ⟨name, held⟩ := entry
      rw [setEntryByKey]
      split
      · rename_i same
        have other : ¬ name = wanted := fun isWanted => different (isWanted.symm.trans same)
        rw [amqpTableGetEntryByKey, amqpTableGetEntryByKey, if_neg other, if_neg other]
      · rw [amqpTableGetEntryByKey, amqpTableGetEntryByKey, ih]

end Maps

/-! ## The loop -/

/-- With memory available, a step succeeds exactly under `condition`, and then with a value
that satisfies `good`. -/
inductive SucceedsIff {α : Type} (good : α → Prop) (condition : Prop) :
    EStateM.Result Failure (List Bool) α → Prop where
  | succeeds {value : α} : condition → good value → SucceedsIff good condition (.ok value [])
  | fails {failure : Failure} {after : List Bool} :
      ¬ condition → SucceedsIff good condition (.error failure after)

section Succeeding

variable {α β : Type} {good : α → Prop} {better : β → Prop} {condition other : Prop}

theorem SucceedsIff.bind {first : Cloner α} {next : α → Cloner β}
    (head : SucceedsIff good condition (first []))
    (tail : ∀ value, good value → SucceedsIff better other (next value [])) :
    SucceedsIff better (condition ∧ other) ((first >>= next) []) := by
  cases ran : first [] with
  | ok value after =>
      rw [ran] at head
      cases head with
      | succeeds holds isGood =>
          rw [bind_of_ok ran]
          have rest := tail value isGood
          generalize next value [] = result at rest
          cases rest with
          | succeeds otherHolds isBetter => exact .succeeds ⟨holds, otherHolds⟩ isBetter
          | fails missing => exact .fails fun both => missing both.2
  | error failure after =>
      rw [ran] at head
      cases head with
      | fails missing =>
          rw [bind_of_error ran]
          exact .fails fun both => missing both.1

theorem SucceedsIff.map {first : Cloner α} {change : α → β}
    (head : SucceedsIff good condition (first []))
    (changes : ∀ value, good value → better (change value)) :
    SucceedsIff better condition ((change <$> first) []) := by
  cases ran : first [] with
  | ok value after =>
      rw [ran] at head
      cases head with
      | succeeds holds isGood =>
          rw [map_of_ok ran]
          exact .succeeds holds (changes value isGood)
  | error failure after =>
      rw [ran] at head
      cases head with
      | fails missing =>
          rw [map_of_error ran]
          exact .fails missing

theorem SucceedsIff.congr {result : EStateM.Result Failure (List Bool) α}
    (succeeds : SucceedsIff good condition result) (same : other ↔ condition) :
    SucceedsIff good other result := by
  cases succeeds with
  | succeeds holds isGood => exact .succeeds (same.mpr holds) isGood
  | fails missing => exact .fails fun holds => missing (same.mp holds)

theorem SucceedsIff.iff {result : EStateM.Result Failure (List Bool) α}
    (succeeds : SucceedsIff good condition result) :
    (∃ value, result = .ok value []) ↔ condition := by
  cases succeeds with
  | succeeds holds _ => exact iff_of_true ⟨_, rfl⟩ holds
  | fails missing =>
      refine iff_of_false ?_ missing
      rintro ⟨value, same⟩
      cases same

end Succeeding

/-- The changed copy of `base` has an entry where one is found, and a table where one was
put last. -/
structure Tracks (base earlier tempResult : Table) : Prop where
  clonable : ClonableEntries tempResult
  present : ∀ key, (amqpTableGetEntryByKey key tempResult).isSome ↔
    (precedingValue key earlier base).isSome
  kind : ∀ key, HoldsTable (amqpTableGetEntryByKey key tempResult) ↔
    HoldsTable (precedingValue key earlier base)

theorem tracks_self {base : Table} (clonable : ClonableEntries base) : Tracks base [] base where
  clonable := clonable
  present _ := Iff.rfl
  kind _ := Iff.rfl

theorem precedingValue_cons {key name : List UInt8} {value : FieldValue} {earlier base : Table} :
    precedingValue key (.mk name value :: earlier) base =
      if name = key then some value else precedingValue key earlier base := by
  unfold precedingValue
  rw [amqpTableGetEntryByKey]
  split <;> rfl

section Steps

variable {base earlier tempResult : Table} {key : List UInt8} {value : FieldValue}

/-- An entry under a new key. -/
theorem Tracks.append (tracks : Tracks base earlier tempResult)
    (clonable : ClonableEntries [.mk key value])
    (absent : amqpTableGetEntryByKey key tempResult = none) :
    Tracks base (.mk key value :: earlier) (tempResult ++ [.mk key value]) := by
  have looked (wanted : List UInt8) :
      amqpTableGetEntryByKey wanted (tempResult ++ [.mk key value]) =
        if key = wanted then some value else amqpTableGetEntryByKey wanted tempResult := by
    rw [getEntryByKey_append, amqpTableGetEntryByKey, amqpTableGetEntryByKey]
    split
    · rename_i same
      rw [← same, absent]
      rfl
    · rw [Option.or_none]
  refine ⟨clonableEntries_append.mpr ⟨tracks.clonable, clonable⟩, fun wanted => ?_,
    fun wanted => ?_⟩
  · rw [looked, precedingValue_cons]
    split
    · exact Iff.rfl
    · exact tracks.present wanted
  · rw [looked, precedingValue_cons]
    split
    · exact Iff.rfl
    · exact tracks.kind wanted

/-- A new value under a key that is there. -/
theorem Tracks.set {new : FieldValue} (tracks : Tracks base earlier tempResult)
    (clonable : ClonableValue new) (kind : HoldsTable (some new) ↔ HoldsTable (some value))
    (present : (amqpTableGetEntryByKey key tempResult).isSome) :
    Tracks base (.mk key value :: earlier) (setEntryByKey key new tempResult) := by
  have looked (wanted : List UInt8) :
      amqpTableGetEntryByKey wanted (setEntryByKey key new tempResult) =
        if key = wanted then some new else amqpTableGetEntryByKey wanted tempResult := by
    split
    · rename_i same
      rw [← same, getEntryByKey_setEntryByKey_self present]
    · rename_i different
      exact getEntryByKey_setEntryByKey_of_ne (Ne.symm different)
  refine ⟨tracks.clonable.setEntryByKey clonable, fun wanted => ?_, fun wanted => ?_⟩
  · rw [looked, precedingValue_cons]
    split
    · exact Iff.rfl
    · exact tracks.present wanted
  · rw [looked, precedingValue_cons]
    split
    · exact kind
    · exact tracks.kind wanted

end Steps

theorem every_clonable_iff {table : Table} :
    table.Every Component.Clonable ↔ ClonableEntries table := by
  unfold Table.Every FieldValue.components
  rw [List.forall_mem_cons]
  exact and_iff_right ⟨trivial, trivial⟩

/-- What stands around the loop fails only for two empty tables. -/
theorem succeedsIff_mergeAround {base add earlier : Table} {loop : Cloner Table}
    {condition : Prop} (looped : SucceedsIff (Tracks base earlier) condition (loop [])) :
    SucceedsIff ClonableEntries ((base ≠ [] ∨ add ≠ []) ∧ condition)
      (mergeAround base add loop []) := by
  unfold mergeAround
  split
  · rename_i empty
    have bothEmpty : base = [] ∧ add = [] := by
      rw [Nat.add_eq_zero_iff, List.length_eq_zero_iff, List.length_eq_zero_iff] at empty
      exact empty
    refine .fails fun holds => ?_
    rcases holds.1 with nonempty | nonempty
    · exact nonempty bothEmpty.1
    · exact nonempty bothEmpty.2
  · rename_i some
    have nonempty : base ≠ [] ∨ add ≠ [] := by
      by_contra none
      push Not at none
      rw [none.1, none.2] at some
      exact some rfl
    rw [bind_of_ok poolAlloc_granted]
    have copied : ∀ tempResult, Tracks base earlier tempResult →
        SucceedsIff ClonableEntries True (amqpTableClone tempResult []) := by
      intro tempResult tracks
      rw [amqpTableClone_granted (every_clonable_iff.mpr tracks.clonable)]
      exact .succeeds trivial tracks.clonable
    refine (looped.bind copied).congr ?_
    rw [and_true, and_iff_right nonempty]

theorem valueMergeable_of_not {preceding inBase : Option FieldValue} (value : FieldValue)
    (notTable : ¬ HoldsTable preceding) : ValueMergeable preceding inBase value := by
  cases value with
  | table add =>
      unfold ValueMergeable
      exact fun isTable => absurd isTable notTable
  | _ => trivial

theorem mergeValue_of_not {found : FieldValue} {inBase : Option FieldValue} (value : FieldValue)
    (notTable : ¬ HoldsTable (some found)) : mergeValue found inBase value = pure value := by
  cases value with
  | table add =>
      cases found with
      | table held => exact absurd trivial notTable
      | _ => simp only [mergeValue]
  | _ => rfl

theorem exists_of_holdsTable {value : FieldValue} (isTable : HoldsTable (some value)) :
    ∃ table, value = .table table := by
  cases value with
  | table table => exact ⟨table, rfl⟩
  | _ => exact isTable.elim

mutual

theorem succeedsIff_mergeEntries {base : Table} (baseClonable : ClonableEntries base) :
    (add : List TableEntry) → {earlier tempResult : Table} → ClonableEntries add →
      Tracks base earlier tempResult →
        SucceedsIff (Tracks base (add.reverse ++ earlier)) (EntriesMergeable base earlier add)
          (mergeEntries base tempResult add [])
  | [], earlier, tempResult, _, tracks => by
      rw [mergeEntries, EntriesMergeable]
      exact .succeeds trivial tracks
  | entry :: entries, earlier, tempResult, clonable, tracks => by
      rw [mergeEntries, EntriesMergeable, List.reverse_cons, List.append_assoc]
      obtain ⟨first, rest⟩ := (@clonableEntries_append [entry] entries).mp clonable
      refine (succeedsIff_mergeEntry baseClonable entry first tracks).bind ?_
      intro changed changedTracks
      exact succeedsIff_mergeEntries baseClonable entries rest changedTracks

theorem succeedsIff_mergeEntry {base : Table} (baseClonable : ClonableEntries base) :
    (entry : TableEntry) → {earlier tempResult : Table} → ClonableEntries [entry] →
      Tracks base earlier tempResult →
        SucceedsIff (Tracks base (entry :: earlier)) (EntryMergeable base earlier entry)
          (mergeEntry base tempResult entry [])
  | .mk key value, earlier, tempResult, clonable, tracks => by
      have valueClonable := (clonableEntries_cons.mp clonable).1.2
      rw [mergeEntry, EntryMergeable]
      cases looked : amqpTableGetEntryByKey key tempResult with
      | none =>
          have notTable := tracks.kind key
          rw [looked] at notTable
          exact .succeeds (valueMergeable_of_not value fun isTable => notTable.mpr isTable)
            (tracks.append clonable looked)
      | some found =>
          have kind := tracks.kind key
          rw [looked] at kind
          have merged := @succeedsIff_mergeValue found (precedingValue key earlier base)
            (amqpTableGetEntryByKey key base) kind
            (fun _ inBase => baseClonable.getEntryByKey inBase) value valueClonable
          have stored : ∀ new, ClonableValue new ∧
              (HoldsTable (some new) ↔ HoldsTable (some value)) →
                SucceedsIff (Tracks base (.mk key value :: earlier)) True
                  ((return setEntryByKey key new tempResult : Cloner Table) []) := by
            intro new good
            exact .succeeds trivial (tracks.set good.1 good.2 (by rw [looked]; rfl))
          refine (merged.bind stored).congr ?_
          rw [and_true]

theorem succeedsIff_mergeValue {found : FieldValue} {preceding inBase : Option FieldValue}
    (kind : HoldsTable (some found) ↔ HoldsTable preceding)
    (inBaseClonable : ∀ held, inBase = some held → ClonableValue held) :
    (value : FieldValue) → ClonableValue value →
      SucceedsIff (fun new => ClonableValue new ∧ (HoldsTable (some new) ↔ HoldsTable (some value)))
        (ValueMergeable preceding inBase value) (mergeValue found inBase value [])
  | .table add, clonable => by
      by_cases isTable : HoldsTable (some found)
      · obtain ⟨held, rfl⟩ := exists_of_holdsTable isTable
        have precedes := kind.mp isTable
        unfold ValueMergeable
        rw [imp_iff_right precedes]
        cases inBase with
        | none =>
            simp only [mergeValue]
            exact .fails id
        | some value =>
            by_cases baseTable : HoldsTable (some value)
            · obtain ⟨base, rfl⟩ := exists_of_holdsTable baseTable
              have baseClonable : ClonableEntries base := fun component member =>
                inBaseClonable _ rfl component (List.mem_cons_of_mem _ member)
              have addClonable : ClonableEntries add := fun component member =>
                clonable component (List.mem_cons_of_mem _ member)
              have merged := @succeedsIff_mergeAround base add _ _ _
                (succeedsIff_mergeEntries baseClonable add addClonable (tracks_self baseClonable))
              simp only [mergeValue]
              refine merged.map fun entries entriesClonable => ⟨?_, Iff.rfl⟩
              exact every_clonable_iff.mpr entriesClonable
            · cases value with
              | table base => exact absurd trivial baseTable
              | _ =>
                  simp only [mergeValue]
                  exact .fails id
      · rw [mergeValue_of_not _ isTable]
        have notTable : ¬ HoldsTable preceding := fun holds => isTable (kind.mpr holds)
        exact .succeeds (valueMergeable_of_not _ notTable) ⟨clonable, Iff.rfl⟩
  | .boolean _, clonable | .i8 _, clonable | .u8 _, clonable | .i16 _, clonable
  | .u16 _, clonable | .i32 _, clonable | .u32 _, clonable | .i64 _, clonable | .u64 _, clonable
  | .f32 _, clonable | .f64 _, clonable | .decimal _ _, clonable | .timestamp _, clonable
  | .void, clonable | .utf8 _, clonable | .bytes _, clonable | .array _, clonable
  | .unknown _, clonable => by
      rw [mergeValue, ValueMergeable]
      · exact .succeeds trivial ⟨clonable, Iff.rfl⟩
      all_goals exact fun _ absurd => by cases absurd

end

/-! ## Every pair of tables -/

/-- With memory available two tables are merged exactly under the condition on them. -/
theorem mergesCapabilities_iff {base : Table} {add : Option Table}
    (baseClonable : base.Every Component.Clonable)
    (addClonable : ∀ table, add = some table → table.Every Component.Clonable) :
    MergesCapabilities base add ↔ ∀ table, add = some table → Mergeable base table := by
  rw [every_clonable_iff] at baseClonable
  cases add with
  | none =>
      refine iff_of_true ⟨base, ?_⟩ (by rintro _ ⟨⟩)
      exact amqpTableClone_granted (every_clonable_iff.mpr baseClonable)
  | some add =>
      have looped := succeedsIff_mergeEntries baseClonable add
        (every_clonable_iff.mp (addClonable add rfl)) (tracks_self baseClonable)
      rw [MergesCapabilities, amqpMergeCapabilities, (succeedsIff_mergeAround looped).iff]
      constructor
      · rintro mergeable _ ⟨⟩
        exact mergeable
      · intro mergeable
        exact mergeable add rfl

/-- A nested table under a key that both tables have. -/
theorem mergesCapabilities_iff_nested :
    MergesCapabilities [.mk [97] (.table [.mk [98] .void])]
      (some [.mk [97] (.table [.mk [98] (.u8 1)])]) := by
  refine (mergesCapabilities_iff ?_ ?_).mpr ?_
  · simp [Table.Every, FieldValue.components, tableComponents, TableEntry.components,
      Component.Clonable, Component.Known, Component.Named]
  · rintro _ ⟨⟩
    simp [Table.Every, FieldValue.components, tableComponents, TableEntry.components,
      Component.Clonable, Component.Known, Component.Named]
  · rintro _ ⟨⟩
    simp [Mergeable, EntriesMergeable, EntryMergeable, ValueMergeable, amqpTableGetEntryByKey]

/-- A key of `add` that comes twice, the first time with a table, is looked up in `base`
where it is not. -/
theorem repeated_key_not_merged :
    ¬ MergesCapabilities [] (some [.mk [97] (.table []), .mk [97] (.table [])]) := by
  rintro ⟨result, returned⟩
  have failed : returned? (amqpMergeCapabilities []
      (some [.mk [97] (.table []), .mk [97] (.table [])]) []) = none := by rfl
  rw [returned] at failed
  cases failed

end RabbitmqC
