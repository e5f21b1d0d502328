import RabbitmqC.Login.Capabilities
import RabbitmqC.Table.Stored

/-!
# Merging as overriding

The table that `amqp_merge_capabilities` is meant to return, and the function as it
works on tables in memory. It changes a temporary array that shares the keys and
values of `base` and `add`, in a pool of its own, and copies the array out of it.
-/

set_option autoImplicit false

namespace RabbitmqC

open Effect

/-! ## The reference merge -/

/-- The first entry of each key takes its value from `new`, if there is one. -/
def replaceFirst (seen : List (List UInt8)) (new : Table) : Table → Table
  | [] => []
  | .mk key value :: entries =>
      .mk key (if key ∈ seen then value else (amqpTableGetEntryByKey key new).getD value) ::
        replaceFirst (key :: seen) new entries

/-- The entries under keys that `base` does not have. -/
def newEntries (base : Table) : Table → Table
  | [] => []
  | .mk key value :: entries =>
      if (amqpTableGetEntryByKey key base).isSome then newEntries base entries
      else .mk key value :: newEntries base entries

mutual

/-- The entries of `add` with the values that they have in the merged table. -/
def overridingEntries (base : Table) : List TableEntry → List TableEntry
  | [] => []
  | entry :: entries => overridingEntry base entry :: overridingEntries base entries
termination_by structural entries => entries

def overridingEntry (base : Table) : TableEntry → TableEntry
  | .mk key value => .mk key (overridingValue (amqpTableGetEntryByKey key base) value)
termination_by structural entry => entry

/-- Two tables are merged in turn. -/
def overridingValue (inBase : Option FieldValue) : FieldValue → FieldValue
  | .table add =>
      match inBase with
      | some (.table base) =>
          .table (replaceFirst [] (overridingEntries base add) base ++ newEntries base add)
      | _ => .table add
  | value => value
termination_by structural value => value

end

/-- The entries of `base` in order, where the first one under a key of `add` has the value of
`add`, or both tables merged, and then the entries of `add` under new keys. -/
def referenceMerge (base add : Table) : Table :=
  replaceFirst [] (overridingEntries base add) base ++ newEntries base add

def TableEntry.key : TableEntry → List UInt8
  | .mk key _ => key

mutual

/-- The keys are pairwise distinct, in nested tables as well. -/
def EntriesDistinct : List TableEntry → Prop
  | [] => True
  | entry :: entries =>
      EntryDistinct entry ∧ entry.key ∉ entries.map TableEntry.key ∧ EntriesDistinct entries

def EntryDistinct : TableEntry → Prop
  | .mk _ value => ValueDistinct value

def ValueDistinct : FieldValue → Prop
  | .table entries => EntriesDistinct entries
  | _ => True

end

/-! ## Lookups -/

section Lookups

variable {base new table other : Table} {key : List UInt8} {value : FieldValue}
  {seen : List (List UInt8)}

theorem getEntryByKey_eq_none :
    amqpTableGetEntryByKey key table = none ↔ key ∉ table.map TableEntry.key := by
  induction table with
  | nil => simp [amqpTableGetEntryByKey]
  | cons entry table ih =>
      obtain ⟨name, held⟩ := entry
      rw [amqpTableGetEntryByKey, List.map_cons, List.mem_cons, not_or, TableEntry.key, ← ih]
      split
      · rename_i same
        simp [same]
      · rename_i different
        exact (and_iff_right (Ne.symm different)).symm

theorem overridingEntries_keys (done : Table) :
    (overridingEntries base done).map TableEntry.key = done.map TableEntry.key := by
  induction done with
  | nil => rfl
  | cons entry done ih =>
      obtain ⟨name, held⟩ := entry
      rw [overridingEntries, List.map_cons, List.map_cons, ih]
      rfl

theorem overridingEntries_append (left right : Table) :
    overridingEntries base (left ++ right) =
      overridingEntries base left ++ overridingEntries base right := by
  induction left with
  | nil => rfl
  | cons entry left ih =>
      rw [List.cons_append, overridingEntries, overridingEntries, ih, List.cons_append]

theorem newEntries_append (left right : Table) :
    newEntries base (left ++ right) = newEntries base left ++ newEntries base right := by
  induction left with
  | nil => rfl
  | cons entry left ih =>
      obtain ⟨name, held⟩ := entry
      rw [List.cons_append, newEntries, newEntries, ih]
      split <;> rfl

theorem mem_keys_newEntries {done : Table}
    (member : key ∈ (newEntries base done).map TableEntry.key) :
    key ∈ done.map TableEntry.key := by
  induction done with
  | nil => cases member
  | cons entry done ih =>
      obtain ⟨name, held⟩ := entry
      rw [List.map_cons]
      rw [newEntries] at member
      split at member
      · exact List.mem_cons_of_mem _ (ih member)
      · rw [List.map_cons] at member
        rcases List.mem_cons.mp member with same | inside
        · rw [same]
          exact List.mem_cons_self
        · exact List.mem_cons_of_mem _ (ih inside)

/-- A key that nothing overrides is found as it is in `base`. -/
theorem getEntryByKey_replaceFirst (absent : amqpTableGetEntryByKey key new = none) :
    amqpTableGetEntryByKey key (replaceFirst seen new base) = amqpTableGetEntryByKey key base := by
  induction base generalizing seen with
  | nil => rfl
  | cons entry base ih =>
      obtain ⟨name, held⟩ := entry
      rw [replaceFirst, amqpTableGetEntryByKey, amqpTableGetEntryByKey, ih]
      split
      · rename_i same
        rw [same, absent]
        simp
      · rfl

theorem getEntryByKey_concat_of_ne {name : List UInt8} (different : key ≠ name) :
    amqpTableGetEntryByKey name (new ++ [.mk key value]) = amqpTableGetEntryByKey name new := by
  rw [getEntryByKey_append, amqpTableGetEntryByKey, if_neg different, amqpTableGetEntryByKey,
    Option.or_none]

/-- A key that has come already, or does not come, need not be overridden. -/
theorem replaceFirst_concat_of_not (done : key ∈ seen ∨ amqpTableGetEntryByKey key base = none) :
    replaceFirst seen (new ++ [.mk key value]) base = replaceFirst seen new base := by
  induction base generalizing seen with
  | nil => rfl
  | cons entry base ih =>
      obtain ⟨name, held⟩ := entry
      have rest : replaceFirst (name :: seen) (new ++ [.mk key value]) base =
          replaceFirst (name :: seen) new base := by
        apply ih
        rcases done with before | never
        · exact .inl (List.mem_cons_of_mem _ before)
        · rw [amqpTableGetEntryByKey] at never
          split at never
          · cases never
          · exact .inr never
      rw [replaceFirst, replaceFirst, rest]
      by_cases isSeen : name ∈ seen
      · rw [if_pos isSeen, if_pos isSeen]
      · have different : key ≠ name := by
          rintro rfl
          rcases done with before | never
          · exact isSeen before
          · rw [amqpTableGetEntryByKey, if_pos rfl] at never
            cases never
        rw [getEntryByKey_concat_of_ne different]

/-- Setting the first entry of a key is overriding it. -/
theorem setEntryByKey_replaceFirst (unseen : key ∉ seen)
    (absent : amqpTableGetEntryByKey key new = none) :
    setEntryByKey key value (replaceFirst seen new base) =
      replaceFirst seen (new ++ [.mk key value]) base := by
  induction base generalizing seen with
  | nil => rfl
  | cons entry base ih =>
      obtain ⟨name, held⟩ := entry
      rw [replaceFirst, replaceFirst, setEntryByKey]
      by_cases same : name = key
      · subst same
        rw [if_pos rfl, if_neg unseen, getEntryByKey_append, absent, amqpTableGetEntryByKey,
          if_pos rfl, replaceFirst_concat_of_not (.inl List.mem_cons_self)]
        rfl
      · rw [if_neg same, ih, getEntryByKey_concat_of_ne (Ne.symm same)]
        intro member
        rcases List.mem_cons.mp member with isName | inSeen
        · exact same isName.symm
        · exact unseen inSeen

theorem setEntryByKey_append (present : (amqpTableGetEntryByKey key table).isSome) :
    setEntryByKey key value (table ++ other) = setEntryByKey key value table ++ other := by
  induction table with
  | nil => cases present
  | cons entry table ih =>
      obtain ⟨name, held⟩ := entry
      rw [amqpTableGetEntryByKey] at present
      rw [List.cons_append, setEntryByKey, setEntryByKey]
      split
      · rfl
      · rename_i different
        rw [if_neg different] at present
        rw [ih present, List.cons_append]

end Lookups

/-! ## The loop on values -/

/-- With memory available, a step returns what is good, if it returns. -/
inductive MergesInto {α : Type} (good : α → Prop) : EStateM.Result Failure (List Bool) α → Prop where
  | returned {value : α} : good value → MergesInto good (.ok value [])
  | failed {failure : Failure} {after : List Bool} : MergesInto good (.error failure after)

section Returning

variable {α β : Type} {good : α → Prop} {better : β → Prop}

theorem MergesInto.bind {first : Cloner α} {next : α → Cloner β} (head : MergesInto good (first []))
    (tail : ∀ value, good value → MergesInto better (next value [])) :
    MergesInto better ((first >>= next) []) := by
  cases ran : first [] with
  | ok value after =>
      rw [ran] at head
      cases head with
      | returned isGood =>
          rw [bind_of_ok ran]
          exact tail value isGood
  | error failure after =>
      rw [bind_of_error ran]
      exact .failed

theorem MergesInto.map {first : Cloner α} {change : α → β} (head : MergesInto good (first []))
    (changes : ∀ value, good value → better (change value)) :
    MergesInto better ((change <$> first) []) := by
  rw [map_eq_pure_bind]
  exact head.bind fun value isGood => .returned (changes value isGood)

theorem mergesInto_amqpTableClone (table : Table) :
    MergesInto (· = table) (amqpTableClone table []) := by
  by_cases clonable : table.Every Component.Clonable
  · rw [amqpTableClone_granted clonable]
    exact .returned rfl
  · rw [show amqpTableClone table [] = _ from amqpTableClone_refused clonable]
    exact .failed

end Returning

theorem replaceFirst_nil {base : Table} {seen : List (List UInt8)} :
    replaceFirst seen [] base = base := by
  induction base generalizing seen with
  | nil => rfl
  | cons entry base ih =>
      obtain ⟨name, held⟩ := entry
      rw [replaceFirst, ih]
      split <;> rfl

theorem referenceMerge_nil {base : Table} : referenceMerge base [] = base := by
  unfold referenceMerge
  rw [overridingEntries, newEntries, replaceFirst_nil, List.append_nil]

section Merging

variable {base done : Table} {key : List UInt8} {value : FieldValue}

/-- Before its turn, a key has the value that it has in `base`. -/
theorem getEntryByKey_referenceMerge (unmerged : key ∉ done.map TableEntry.key) :
    amqpTableGetEntryByKey key (referenceMerge base done) = amqpTableGetEntryByKey key base := by
  have notNew : amqpTableGetEntryByKey key (newEntries base done) = none :=
    getEntryByKey_eq_none.mpr fun member => unmerged (mem_keys_newEntries member)
  have notOverridden : amqpTableGetEntryByKey key (overridingEntries base done) = none := by
    rw [getEntryByKey_eq_none, overridingEntries_keys]
    exact unmerged
  unfold referenceMerge
  rw [getEntryByKey_append, notNew, getEntryByKey_replaceFirst notOverridden, Option.or_none]

/-- The turn of a key that `base` does not have. -/
theorem referenceMerge_new (absent : amqpTableGetEntryByKey key base = none) :
    referenceMerge base done ++ [.mk key value] = referenceMerge base (done ++ [.mk key value]) := by
  unfold referenceMerge
  rw [overridingEntries_append, newEntries_append, overridingEntries, overridingEntry,
    overridingEntries, replaceFirst_concat_of_not (.inr absent), newEntries, newEntries, absent,
    List.append_assoc]
  rfl

/-- The turn of a key that `base` has. -/
theorem referenceMerge_set {held : FieldValue} (unmerged : key ∉ done.map TableEntry.key)
    (present : amqpTableGetEntryByKey key base = some held) :
    setEntryByKey key (overridingValue (some held) value) (referenceMerge base done) =
      referenceMerge base (done ++ [.mk key value]) := by
  have notOverridden : amqpTableGetEntryByKey key (overridingEntries base done) = none := by
    rw [getEntryByKey_eq_none, overridingEntries_keys]
    exact unmerged
  unfold referenceMerge
  rw [setEntryByKey_append, setEntryByKey_replaceFirst List.not_mem_nil notOverridden,
    overridingEntries_append, newEntries_append, overridingEntries, overridingEntry,
    overridingEntries, newEntries, newEntries, present]
  · simp
  · rw [getEntryByKey_replaceFirst notOverridden, present]
    rfl

end Merging

theorem mergesInto_mergeAround {base add merged : Table} {loop : Cloner Table}
    (looped : MergesInto (· = merged) (loop [])) :
    MergesInto (· = merged) (mergeAround base add loop []) := by
  unfold mergeAround
  split
  · exact .failed
  · rw [bind_of_ok poolAlloc_granted]
    refine looped.bind ?_
    rintro _ rfl
    exact mergesInto_amqpTableClone _

mutual

/-- The temporary table is the reference merge of what has had its turn. -/
theorem mergesInto_mergeEntries {base : Table} : (add : List TableEntry) → {done : Table} →
    EntriesDistinct add → (∀ key ∈ add.map TableEntry.key, key ∉ done.map TableEntry.key) →
      MergesInto (· = referenceMerge base (done ++ add))
        (mergeEntries base (referenceMerge base done) add [])
  | [], done, _, _ => by
      rw [mergeEntries, List.append_nil]
      exact .returned rfl
  | entry :: entries, done, distinct, unmerged => by
      obtain ⟨first, notLater, rest⟩ := distinct
      rw [mergeEntries]
      refine (mergesInto_mergeEntry entry first (unmerged _ List.mem_cons_self)).bind ?_
      rintro _ rfl
      rw [List.append_cons]
      apply mergesInto_mergeEntries entries rest
      intro key member merged
      rw [List.map_append] at merged
      rcases List.mem_append.mp merged with earlier | isFirst
      · exact unmerged key (List.mem_cons_of_mem _ member) earlier
      · rw [List.mem_singleton.mp isFirst] at member
        exact notLater member

theorem mergesInto_mergeEntry {base : Table} : (entry : TableEntry) → {done : Table} →
    EntryDistinct entry → entry.key ∉ done.map TableEntry.key →
      MergesInto (· = referenceMerge base (done ++ [entry]))
        (mergeEntry base (referenceMerge base done) entry [])
  | .mk key value, done, distinct, unmerged => by
      have found := @getEntryByKey_referenceMerge base done key unmerged
      rw [mergeEntry, found]
      cases looked : amqpTableGetEntryByKey key base with
      | none => exact .returned (referenceMerge_new looked)
      | some held =>
          refine (mergesInto_mergeValue value distinct).bind ?_
          rintro _ rfl
          exact .returned (referenceMerge_set unmerged looked)

theorem mergesInto_mergeValue {held : FieldValue} : (value : FieldValue) → ValueDistinct value →
    MergesInto (· = overridingValue (some held) value) (mergeValue held (some held) value [])
  | .table add, distinct => by
      by_cases isTable : HoldsTable (some held)
      · obtain ⟨base, rfl⟩ := exists_of_holdsTable isTable
        have looped := @mergesInto_mergeEntries base add [] distinct fun _ _ => List.not_mem_nil
        rw [referenceMerge_nil, List.nil_append] at looped
        simp only [mergeValue]
        refine (mergesInto_mergeAround looped).map ?_
        rintro _ rfl
        rw [overridingValue]
        rfl
      · rw [mergeValue_of_not _ isTable]
        cases held with
        | table base => exact absurd trivial isTable
        | _ => exact .returned rfl
  | .boolean _, _ | .i8 _, _ | .u8 _, _ | .i16 _, _ | .u16 _, _ | .i32 _, _ | .u32 _, _
  | .i64 _, _ | .u64 _, _ | .f32 _, _ | .f64 _, _ | .decimal _ _, _ | .timestamp _, _
  | .void, _ | .utf8 _, _ | .bytes _, _ | .array _, _ | .unknown _, _ => .returned rfl

end

/-- What merging returns on values. -/
theorem mergesInto_amqpMergeCapabilities {base add : Table} (distinct : EntriesDistinct add) :
    MergesInto (· = referenceMerge base add) (amqpMergeCapabilities base (some add) []) := by
  have looped := @mergesInto_mergeEntries base add [] distinct fun _ _ => List.not_mem_nil
  rw [referenceMerge_nil, List.nil_append] at looped
  exact mergesInto_mergeAround looped

/-! ## Merging in memory -/

/-- `amqp_table_get_entry_by_key`: the value. -/
def storedEntryByKey (key : List UInt8) : List StoredEntry → Option StoredValue
  | [] => none
  | .mk found value :: entries =>
      if found.octets = key then some value else storedEntryByKey key entries

def setStoredEntry (key : List UInt8) (value : StoredValue) : List StoredEntry → List StoredEntry
  | [] => []
  | .mk found old :: entries =>
      if found.octets = key then .mk found value :: entries
      else .mk found old :: setStoredEntry key value entries

/-- Another pool in the same heap. -/
def Arena.inPool (arena : Arena) (pool : Pool) : Arena := { arena with pool }

/-- `empty_amqp_pool` of another pool. -/
def Arena.emptying (arena : Arena) (pool : Pool) : Arena :=
  (endState (emptyAmqpPool (arena.inPool pool))).inPool arena.pool

/-- Work in a new pool and what is then done with it in the pool of the caller. The new pool is
emptied on all ways out. -/
def inTempPool {α β : Type} (work : Allocating α) (finish : α → Allocating β) : Allocating β :=
  fun arena =>
    match work (arena.inPool (initAmqpPool 4096)) with
    | .error failure inner => .error failure ((inner.inPool arena.pool).emptying inner.pool)
    | .ok value inner =>
        match finish value (inner.inPool arena.pool) with
        | .error failure outer => .error failure (outer.emptying inner.pool)
        | .ok result outer => .ok result (outer.emptying inner.pool)

/-- The parts of `amqp_merge_capabilities` around its loop over the entries of `add`. -/
def mergeStoredAround (base add : List StoredEntry)
    (loop : Region → Allocating (List StoredEntry)) : Allocating StoredTable :=
  inTempPool
    (do
      let region ← takeRegion (sizeofTableEntry * (base.length + add.length))
      StoredTable.mk (some region) <$> loop region)
    storedTableClone

mutual

def mergeStoredEntries (region : Region) (base tempResult : List StoredEntry) :
    List StoredEntry → Allocating (List StoredEntry)
  | [] => return tempResult
  | entry :: entries => do
      let tempResult ← mergeStoredEntry region base tempResult entry
      mergeStoredEntries region base tempResult entries
termination_by structural entries => entries

/-- Entries are written to the temporary array only. -/
def mergeStoredEntry (region : Region) (base tempResult : List StoredEntry) :
    StoredEntry → Allocating (List StoredEntry)
  | .mk key value => do
      writeRegion region
      match storedEntryByKey key.octets tempResult with
      | none => return tempResult ++ [.mk key value]
      | some found => do
          let value ← mergeStoredValue found (storedEntryByKey key.octets base) value
          return setStoredEntry key.octets value tempResult
termination_by structural entry => entry

def mergeStoredValue (found : StoredValue) (inBase : Option StoredValue) :
    StoredValue → Allocating StoredValue
  | .table place add =>
      match found, inBase with
      | .table _ _, some (.table _ base) =>
          (fun merged => .table merged.place merged.entries) <$>
            mergeStoredAround base add fun region => mergeStoredEntries region base base add
      | .table _ _, some _ => throw (.fault .wrongObject)
      | .table _ _, none => throw (.fault .outOfBoundsRead)
      | _, _ => return .table place add
  | value => return value
termination_by structural value => value

end

/-- `amqp_merge_capabilities`. -/
def mergeStoredCapabilities (base : StoredTable) : Option StoredTable → Allocating StoredTable
  | none => storedTableClone base
  | some add =>
      mergeStoredAround base.entries add.entries fun region =>
        mergeStoredEntries region base.entries base.entries add.entries

/-! ## The temporary pool -/

section Pools

variable {before inner outer : Arena} {regions : List Region}

/-- The new pool starts with blocks that do not exist yet, which are free for any pool. -/
theorem Occupies.beside (sound : before.Sound)
    (inside : Occupies regions (before.inPool (initAmqpPool 4096)) inner) :
    Occupies [] before (inner.inPool before.pool) where
  sound := by
    have has {block : Nat} (old : before.heap.Has block before.pool.pagesize) :
        inner.heap.Has block before.pool.pagesize := ⟨Nat.lt_of_lt_of_le old.1 inside.next, old.2⟩
    refine ⟨sound.used, fun block member => has (sound.pages block member), sound.nodup, ?_⟩
    intro block isCurrent
    obtain ⟨old, ahead⟩ := sound.current block isCurrent
    exact ⟨has old, ahead⟩
  next := inside.next
  allocs := inside.allocs
  shrinks := by
    rintro block byte (later | inPool)
    · exact .inl (Nat.le_trans inside.next later)
    · exact .inr inPool
  free _ member := by cases member
  gone _ member := by cases member
  apart := .nil
  writes := by
    intro region written
    rcases inside.writes region written with earlier | free
    · exact .inl earlier
    · refine .inr fun block byte covers => ?_
      rcases free block byte covers with later | ⟨isCurrent, _⟩ | inPages
      · exact .inl later
      · cases isCurrent
      · cases inPages
  pagesize := rfl
  grows := List.Subset.refl _
  owned recorded _ := ⟨recorded, fun _ member => by cases member⟩

/-- Emptying the other pool only gives its blocks back. -/
theorem Occupies.emptying (occupied : Occupies regions before outer) (pool : Pool) :
    Occupies regions before (outer.emptying pool) :=
  occupied.withFreed _

theorem Occupies.write {region : Region} (occupied : Occupies regions before outer)
    (free : region.FreeIn before) :
    Occupies regions before { outer with written := outer.written ++ [region] } :=
  { occupied with
    sound := ⟨occupied.sound.used, occupied.sound.pages, occupied.sound.nodup,
      occupied.sound.current⟩
    writes := by
      intro written member
      rcases List.mem_append.mp member with old | new
      · exact occupied.writes written old
      · rw [List.mem_singleton.mp new]
        exact .inr free }

end Pools

/-! ## Merging in memory and on values -/

theorem getEntryByKey_erase {key : List UInt8} {entries : List StoredEntry} :
    amqpTableGetEntryByKey key (eraseEntries entries) =
      (storedEntryByKey key entries).map StoredValue.erase := by
  induction entries with
  | nil => rfl
  | cons entry entries ih =>
      obtain ⟨name, held⟩ := entry
      rw [eraseEntries, StoredEntry.erase, amqpTableGetEntryByKey, storedEntryByKey, ih]
      split <;> rfl

theorem eraseEntries_set {key : List UInt8} {value : StoredValue} {entries : List StoredEntry} :
    eraseEntries (setStoredEntry key value entries) =
      setEntryByKey key value.erase (eraseEntries entries) := by
  induction entries with
  | nil => rfl
  | cons entry entries ih =>
      obtain ⟨name, held⟩ := entry
      rw [setStoredEntry, eraseEntries, StoredEntry.erase, setEntryByKey]
      split
      · rfl
      · rw [eraseEntries, StoredEntry.erase, ih]

theorem eraseEntries_append {left right : List StoredEntry} :
    eraseEntries (left ++ right) = eraseEntries left ++ eraseEntries right := by
  induction left with
  | nil => rfl
  | cons entry left ih => rw [List.cons_append, eraseEntries, eraseEntries, ih, List.cons_append]

theorem eraseEntries_length {entries : List StoredEntry} :
    (eraseEntries entries).length = entries.length := by
  induction entries with
  | nil => rfl
  | cons entry entries ih => rw [eraseEntries, List.length_cons, List.length_cons, ih]

section Mirroring

variable {α β γ δ : Type} {start middle : Arena}

theorem mirrors_inTempPool {eraseWork : α → β} {eraseLast : γ → δ} {work : Allocating α}
    {finish : α → Allocating γ} {workValue : Cloner β} {finishValue : β → Cloner δ}
    (sound : start.Sound)
    (worked : Mirrors eraseWork (start.inPool (initAmqpPool 4096)) (workValue [])
      (work (start.inPool (initAmqpPool 4096))))
    (finished : ∀ value after, Arena.Sound after →
      Mirrors eraseLast after (finishValue (eraseWork value) []) (finish value after)) :
    Mirrors eraseLast start ((workValue >>= finishValue) []) (inTempPool work finish start) := by
  unfold inTempPool
  cases ran : work (start.inPool (initAmqpPool 4096)) with
  | error failure inner =>
      rw [ran] at worked
      cases worked with
      | refused same occupied =>
          rw [bind_of_error same]
          exact .refused rfl ((occupied.beside sound).emptying _)
      | scarce _ occupied => exact .scarce False.elim ((occupied.beside sound).emptying _)
  | ok value inner =>
      rw [ran] at worked
      cases worked with
      | copied same occupied =>
          have beside := occupied.beside sound
          have last := finished value _ beside.sound
          rw [bind_of_ok same]
          dsimp only
          cases ended : finish value (inner.inPool start.pool) with
          | ok result outer =>
              rw [ended] at last
              cases last with
              | copied last rest => exact .copied last ((beside.append rest).emptying _)
          | error failure outer =>
              rw [ended] at last
              cases last with
              | refused last rest => exact .refused last ((beside.append rest).emptying _)
              | scarce _ rest => exact .scarce False.elim ((beside.append rest).emptying _)

theorem mirrors_mergeStoredAround {base add : List StoredEntry}
    {loop : Region → Allocating (List StoredEntry)} {loopValue : Cloner Table}
    (sound : start.Sound)
    (looped : ∀ region middle, Occupies [region] (start.inPool (initAmqpPool 4096)) middle →
      Mirrors eraseEntries (start.inPool (initAmqpPool 4096)) (loopValue [])
        (loop region middle)) :
    Mirrors StoredTable.erase start
      (mergeAround (eraseEntries base) (eraseEntries add) loopValue [])
      (mergeStoredAround base add loop start) := by
  have fresh : (start.inPool (initAmqpPool 4096)).Sound := sound_initAmqpPool 4096
  unfold mergeAround mergeStoredAround
  rw [eraseEntries_length, eraseEntries_length]
  by_cases empty : base.length + add.length = 0
  · rw [if_pos empty, empty]
    exact .refused rfl ((Occupies.refl fresh).beside sound |>.emptying _)
  · rw [if_neg empty, ← bind_assoc]
    refine mirrors_inTempPool sound ?_ fun table after afterSound =>
      (@copies_storedTableClone table after afterSound).mirrors
    have taken := (@copies_takeRegion _ fresh
      (sizeofTableEntry * (base.length + add.length))).weaken False.elim
    refine taken.bind fun region middle occupied => ?_
    rw [← id_map loopValue]
    exact (looped region middle occupied).map (fun _ => rfl) fun _ => rfl

theorem mergeValue_scalar {found : FieldValue} {inBase : Option FieldValue} (value : Scalar) :
    mergeValue found inBase value.value = pure value.value := by
  cases value <;> rfl

mutual

theorem mirrors_mergeStoredEntries {region : Region} {base : List StoredEntry} :
    (add : List StoredEntry) → {start middle : Arena} → {tempResult : List StoredEntry} →
      region.FreeIn start → Occupies [] start middle →
        Mirrors eraseEntries start
          (mergeEntries (eraseEntries base) (eraseEntries tempResult) (eraseEntries add) [])
          (mergeStoredEntries region base tempResult add middle)
  | [], start, middle, tempResult, _, occupied => by
      rw [eraseEntries, mergeEntries, mergeStoredEntries]
      exact .copied rfl occupied
  | entry :: entries, start, middle, tempResult, free, occupied => by
      rw [eraseEntries, mergeEntries, mergeStoredEntries]
      refine (mirrors_mergeStoredEntry entry free occupied).bind fun changed after rest => ?_
      exact mirrors_mergeStoredEntries entries free rest
termination_by structural add => add

theorem mirrors_mergeStoredEntry {region : Region} {base : List StoredEntry} :
    (entry : StoredEntry) → {start middle : Arena} → {tempResult : List StoredEntry} →
      region.FreeIn start → Occupies [] start middle →
        Mirrors eraseEntries start
          (mergeEntry (eraseEntries base) (eraseEntries tempResult) entry.erase [])
          (mergeStoredEntry region base tempResult entry middle)
  | .mk key value, start, middle, tempResult, free, occupied => by
      have written := occupied.write free
      have wrote : writeRegion region middle =
        .ok () { middle with written := middle.written ++ [region] } := rfl
      rw [StoredEntry.erase, mergeEntry, mergeStoredEntry, bind_of_ok wrote, getEntryByKey_erase,
        getEntryByKey_erase]
      cases looked : storedEntryByKey key.octets tempResult with
      | none => exact .copied (by rw [eraseEntries_append]; rfl) written
      | some found =>
          refine (mirrors_mergeStoredValue value written).bind_pure (fun new => ?_) fun _ => rfl
          exact eraseEntries_set
termination_by structural entry => entry

theorem mirrors_mergeStoredValue : (value : StoredValue) → {start middle : Arena} →
    {found : StoredValue} → {inBase : Option StoredValue} → Occupies [] start middle →
      Mirrors StoredValue.erase start
        (mergeValue found.erase (inBase.map StoredValue.erase) value.erase [])
        (mergeStoredValue found inBase value middle)
  | .table place add, start, middle, found, inBase, occupied => by
      cases found with
      | table held entries =>
          cases inBase with
          | none => exact .refused rfl occupied
          | some value =>
              cases value with
              | table _ base =>
                  have merged := @mirrors_mergeStoredAround middle base add _ _ occupied.sound
                    fun region inner taken => @mirrors_mergeStoredEntries region base add _ inner
                      base (taken.free region List.mem_cons_self) taken.forget
                  exact (merged.after occupied).map (fun _ => rfl) fun _ => rfl
              | scalar value => cases value <;> exact .refused rfl occupied
              | _ => exact .refused rfl occupied
      | scalar value => cases value <;> exact .copied rfl occupied
      | _ => exact .copied rfl occupied
  | .scalar value, start, middle, found, inBase, occupied => by
      rw [StoredValue.erase, mergeValue_scalar]
      exact .copied rfl occupied
  | .utf8 _, start, middle, found, inBase, occupied
  | .bytes _, start, middle, found, inBase, occupied
  | .nullArray, start, middle, found, inBase, occupied
  | .array _ _, start, middle, found, inBase, occupied
  | .unknown _, start, middle, found, inBase, occupied => .copied rfl occupied
termination_by structural value => value

end

end Mirroring

theorem mirrors_mergeStoredCapabilities {base add : StoredTable} {start : Arena}
    (sound : start.Sound) :
    Mirrors StoredTable.erase start (amqpMergeCapabilities base.erase (some add.erase) [])
      (mergeStoredCapabilities base (some add) start) :=
  mirrors_mergeStoredAround sound fun _ _ taken =>
    mirrors_mergeStoredEntries add.entries (taken.free _ List.mem_cons_self) taken.forget

/-- What `amqp_merge_capabilities` returns is the reference merge, and it does not write to
`base` or `add`, whatever it returns. -/
theorem mergeStoredCapabilities_reference {base add : StoredTable} {heap : Heap} {pool : Pool}
    (sound : Arena.Sound ⟨heap, pool, []⟩) (distinct : EntriesDistinct add.erase)
    (baseLive : base.Live ⟨heap, pool, []⟩) (addLive : add.Live ⟨heap, pool, []⟩) :
    (∀ result after, mergeStoredCapabilities base (some add) ⟨heap, pool, []⟩ = .ok result after →
      result.erase = referenceMerge base.erase add.erase) ∧
      ∀ region ∈ (endState (mergeStoredCapabilities base (some add) ⟨heap, pool, []⟩)).written,
        ∀ other ∈ base.regions ++ add.regions, region.Apart other := by
  have mirrors := @mirrors_mergeStoredCapabilities base add ⟨heap, pool, []⟩ sound
  constructor
  · intro result after ran
    have merges := @mergesInto_amqpMergeCapabilities base.erase add.erase distinct
    rw [ran] at mirrors
    cases mirrors with
    | copied same occupied =>
        rw [same] at merges
        cases merges with
        | returned isReference => exact isReference
  · intro region written other member block byte covers otherCovers
    rcases mirrors.writes region written with earlier | free
    · cases earlier
    · rcases List.mem_append.mp member with inBase | inAdd
      · exact baseLive other inBase block byte otherCovers (free block byte covers)
      · exact addLive other inAdd block byte otherCovers (free block byte covers)

/-- A nested table, in block 0. -/
def storedBase : StoredTable where
  place := some ⟨0, 0, 40⟩
  entries :=
    [.mk ⟨[97], some ⟨0, 40, 1⟩⟩ (.table (some ⟨0, 48, 40⟩)
      [.mk ⟨[98], some ⟨0, 88, 1⟩⟩ (.scalar .void)])]

/-- A nested table under the same key and one more entry, in block 1. -/
def storedAdd : StoredTable where
  place := some ⟨1, 0, 80⟩
  entries :=
    [.mk ⟨[97], some ⟨1, 80, 1⟩⟩ (.table (some ⟨1, 88, 40⟩)
      [.mk ⟨[99], some ⟨1, 128, 1⟩⟩ (.scalar (.u8 1))]),
      .mk ⟨[100], some ⟨1, 129, 1⟩⟩ (.utf8 ⟨[104, 105], some ⟨1, 130, 2⟩⟩)]

def besideBoth : Arena := ⟨⟨[96, 136], [], []⟩, initAmqpPool 4096, []⟩

theorem live_of_block {table : StoredTable} (inside : ∀ region ∈ table.regions, region.block < 2) :
    table.Live besideBoth := by
  rintro region member block byte covers (later | ⟨isCurrent, _⟩ | inPages)
  · have old := inside region member
    rw [← covers.1] at old
    exact absurd old (Nat.not_lt.mpr later)
  · cases isCurrent
  · cases inPages

theorem mergeStoredCapabilities_reference_nested :
    ∃ result after, mergeStoredCapabilities storedBase (some storedAdd) besideBoth =
        .ok result after ∧
      result.erase = [.mk [97] (.table [.mk [98] .void, .mk [99] (.u8 1)]),
        .mk [100] (.utf8 [104, 105])] := by
  have merges : (returned? (mergeStoredCapabilities storedBase (some storedAdd)
      besideBoth)).isSome = true := by decide +kernel
  obtain ⟨result, found⟩ := Option.isSome_iff_exists.mp merges
  obtain ⟨after, ran⟩ := returned?_eq_some.mp found
  have distinct : EntriesDistinct storedAdd.erase := by
    simp [EntriesDistinct, EntryDistinct, ValueDistinct, TableEntry.key, StoredTable.erase,
      storedAdd, eraseEntries, StoredEntry.erase, StoredValue.erase, Scalar.value]
  have baseLive : storedBase.Live besideBoth := live_of_block (by
    simp [StoredTable.regions, storedBase, entriesRegions, StoredEntry.regions,
      StoredValue.regions])
  have addLive : storedAdd.Live besideBoth := live_of_block (by
    simp [StoredTable.regions, storedAdd, entriesRegions, StoredEntry.regions,
      StoredValue.regions])
  have reference := (mergeStoredCapabilities_reference (sound_initAmqpPool 4096) distinct
    baseLive addLive).1 result after ran
  exact ⟨result, after, ran, reference.trans rfl⟩

end RabbitmqC
