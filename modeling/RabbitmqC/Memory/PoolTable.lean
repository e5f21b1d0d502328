import RabbitmqC.Lib.ChainedTable
import RabbitmqC.Memory.Pool
import RabbitmqC.Socket.Transfer

/-!
# The pools of the channels

`pool_table` and its two lookups, with the entries where they lie in memory. Over every
run of lookups the table is a map: a channel keeps the pool that was created for it, and
no other channel has that pool. The list of channels that the reader keeps is this table
without its addresses.
-/

set_option autoImplicit false

namespace RabbitmqC

open Effect LinkedQueue

/-! ## Lookups -/

/-- `amqp_pool_table_entry_t`, whose `next` is that of its link. -/
structure PoolTableEntry where
  channel : UInt16
  pool : Pool

/-- What the lookups use of a connection, and the outcomes of the requests for memory to
come; once these are used up, requests are granted. -/
structure PoolTable where
  entries : ChainedTable PoolTableEntry poolTableSize
  frameMax : Int32
  allocs : List Bool

namespace PoolTable

abbrev Accessing := EStateM Failure PoolTable

/-- `channel % POOL_TABLE_SIZE`. -/
def poolIndex (channel : UInt16) : Fin poolTableSize :=
  ⟨channel.toNat % poolTableSize, Nat.mod_lt _ (Nat.zero_lt_succ _)⟩

/-- The loop of both lookups. A pool is known by the number of its entry. -/
def findEntry (channel : UInt16) : Accessing (Option Nat) := do
  let table ← get
  match table.entries.search (fun entry => entry.channel == channel) table.entries.reach
      table.entries.buckets[poolIndex channel] with
  | none => throw (.fault .outOfBoundsRead)
  | some found => return found

/-- `malloc` of an entry. -/
def mallocEntry : Accessing Bool := do
  let table ← get
  match table.allocs with
  | [] => return true
  | outcome :: rest => do
      set { table with allocs := rest }
      return outcome

def amqpGetOrCreateChannelPool (channel : UInt16) : Accessing (Option Nat) := do
  match ← findEntry channel with
  | some entry => return some entry
  | none =>
      if ← mallocEntry then do
        let table ← get
        let pool := initAmqpPool (sizeOfInt table.frameMax.toInt)
        set { table with entries := table.entries.insert (poolIndex channel) ⟨channel, pool⟩ }
        return some table.entries.links.length
      else
        return none

def amqpGetChannelPool (channel : UInt16) : Accessing (Option Nat) := findEntry channel

/-! ## The table as a map -/

/-- The channels that have entries, by the addresses of these. -/
def channels (table : PoolTable) : List UInt16 := table.entries.keys PoolTableEntry.channel

def Mapped (table : PoolTable) : Prop := table.entries.Maps PoolTableEntry.channel poolIndex

variable {table : PoolTable}

/-- An address is the number of the entry among those that were created. -/
theorem Mapped.findEntry (mapped : table.Mapped) (channel : UInt16) :
    (∃ entry, table.channels[entry]? = some channel ∧
      PoolTable.findEntry channel table = .ok (some entry) table) ∨
    (channel ∉ table.channels ∧ PoolTable.findEntry channel table = .ok none table) := by
  rcases mapped.search channel with ⟨entry, found, stored⟩ | ⟨ended, absent⟩
  · refine .inl ⟨entry, stored, ?_⟩
    simp only [PoolTable.findEntry, bind_of_ok (get_run table), found]
    rfl
  · refine .inr ⟨absent, ?_⟩
    simp only [PoolTable.findEntry, bind_of_ok (get_run table), ended]
    rfl

theorem mallocEntry_run (table : PoolTable) : mallocEntry table =
    .ok (table.allocs.headD true) { table with allocs := table.allocs.tail } := by
  obtain ⟨entries, frameMax, allocs⟩ := table
  cases allocs with
  | nil => rfl
  | cons outcome rest => rfl

/-- What a lookup that may create does. -/
inductive Created (channel : UInt16) (before : PoolTable) : Option Nat → PoolTable → Prop where
  | found {entry : Nat} : before.channels[entry]? = some channel →
      Created channel before (some entry) before
  | refused : channel ∉ before.channels → before.allocs.headD true = false →
      Created channel before none { before with allocs := before.allocs.tail }
  | new {after : PoolTable} : channel ∉ before.channels → before.allocs.headD true = true →
      after.Mapped → after.channels = before.channels ++ [channel] →
      Created channel before (some before.channels.length) after

theorem Mapped.amqpGetOrCreateChannelPool (mapped : table.Mapped) (channel : UInt16) :
    ∃ answer after, PoolTable.amqpGetOrCreateChannelPool channel table = .ok answer after ∧
      Created channel table answer after := by
  rcases mapped.findEntry channel with ⟨entry, stored, found⟩ | ⟨absent, ended⟩
  · exact ⟨some entry, table, bind_of_ok found, .found stored⟩
  · let rest : PoolTable := { table with allocs := table.allocs.tail }
    cases granted : table.allocs.headD true with
    | false =>
        have mallocs : mallocEntry table = .ok false rest := by
          rw [mallocEntry_run, granted]
        refine ⟨none, rest, ?_, .refused absent granted⟩
        exact (bind_of_ok ended).trans (bind_of_ok mallocs)
    | true =>
        have mallocs : mallocEntry table = .ok true rest := by
          rw [mallocEntry_run, granted]
        let value : PoolTableEntry := ⟨channel, initAmqpPool (sizeOfInt table.frameMax.toInt)⟩
        let after : PoolTable :=
          { rest with entries := table.entries.insert (poolIndex channel) value }
        have creates : PoolTable.amqpGetOrCreateChannelPool channel table =
            .ok (some table.entries.links.length) after :=
          (bind_of_ok ended).trans (bind_of_ok mallocs)
        have address : table.entries.links.length = table.channels.length :=
          (ChainedTable.length_keys _ _).symm
        rw [address] at creates
        refine ⟨_, after, creates, .new absent granted ?_ ?_⟩
        · exact @ChainedTable.Maps.insert _ _ _ _ _ _ _ mapped value absent
        · exact ChainedTable.keys_insert _ _ _ _

theorem Created.mapped {channel : UInt16} {answer : Option Nat} {after : PoolTable}
    (created : Created channel table answer after) (mapped : table.Mapped) : after.Mapped := by
  cases created with
  | found => exact mapped
  | refused => exact mapped
  | new _ _ mapped _ => exact mapped

end PoolTable

/-! ## Runs -/

inductive PoolLookup where
  | getOrCreate (channel : UInt16)
  | get (channel : UInt16)

namespace PoolLookup

def channel : PoolLookup → UInt16
  | getOrCreate channel => channel
  | get channel => channel

def perform : PoolLookup → PoolTable.Accessing (Option Nat)
  | getOrCreate channel => PoolTable.amqpGetOrCreateChannelPool channel
  | get channel => PoolTable.amqpGetChannelPool channel

/-- Lookups one after the other, each with what it returned. -/
def performAll : List PoolLookup → PoolTable.Accessing (List (PoolLookup × Option Nat))
  | [] => return []
  | call :: calls => do
      let answer ← call.perform
      let later ← performAll calls
      return (call, answer) :: later

end PoolLookup

/-- The table of a new connection. -/
def PoolTable.fresh (frameMax : Int32) (allocs : List Bool) : PoolTable :=
  ⟨.empty, frameMax, allocs⟩

namespace PoolLookup

variable {log past : List (PoolLookup × Option Nat)} {table after : PoolTable} {call : PoolLookup}
  {answer : Option Nat}

/-- The table is what these lookups have made of a new one. -/
structure Leads (log : List (PoolLookup × Option Nat)) (table : PoolTable) : Prop where
  mapped : table.Mapped
  answered : ∀ call pool, (call, some pool) ∈ log → table.channels[pool]? = some call.channel
  created : ∀ channel ∈ table.channels, ∃ pool, (getOrCreate channel, some pool) ∈ log

/-- What a lookup returns after others. -/
structure Answers (past : List (PoolLookup × Option Nat)) (call : PoolLookup)
    (answer : Option Nat) : Prop where
  get : ∀ channel, call = .get channel →
    (answer = none ↔ ∀ pool, (getOrCreate channel, some pool) ∉ past)
  stable : ∀ pool, (getOrCreate call.channel, some pool) ∈ past → answer = some pool

theorem leads_fresh (frameMax : Int32) (allocs : List Bool) :
    Leads [] (PoolTable.fresh frameMax allocs) where
  mapped := ChainedTable.maps_empty
  answered _ _ member := nomatch member
  created _ member := nomatch member

/-- Two entries of one channel are the same one. -/
theorem Leads.pool_eq (leads : Leads log table) {pool other : Nat} {channel : UInt16}
    (here : table.channels[pool]? = some channel)
    (there : table.channels[other]? = some channel) : pool = other := by
  obtain ⟨inside, _⟩ := List.getElem?_eq_some_iff.mp here
  exact (List.getElem?_inj inside leads.mapped.distinct).mp (here.trans there.symm)

/-- A lookup that finds an entry returns what was returned when it was created. -/
theorem Leads.answers_some (leads : Leads log table) {pool : Nat}
    (stored : table.channels[pool]? = some call.channel) : Answers log call (some pool) where
  get channel isGet := by
    obtain ⟨created, member⟩ := leads.created call.channel (List.mem_of_getElem? stored)
    constructor
    · intro absurdity
      cases absurdity
    · intro never
      subst isGet
      exact absurd member (never created)
  stable other member := by
    rw [leads.pool_eq stored (leads.answered (.getOrCreate call.channel) other member)]

theorem Leads.answers_none (leads : Leads log table) (absent : call.channel ∉ table.channels) :
    Answers log call none where
  get channel isGet := by
    subst isGet
    refine ⟨fun _ pool member => ?_, fun _ => rfl⟩
    exact absent (List.mem_of_getElem? (leads.answered (.getOrCreate channel) pool member))
  stable pool member :=
    absurd (List.mem_of_getElem? (leads.answered (.getOrCreate call.channel) pool member)) absent

/-- A lookup that leaves the channels alone. -/
theorem Leads.record (leads : Leads log table) (mapped : after.Mapped)
    (kept : after.channels = table.channels)
    (stored : ∀ pool, answer = some pool → table.channels[pool]? = some call.channel) :
    Leads (log ++ [(call, answer)]) after where
  mapped := mapped
  answered other pool member := by
    rw [kept]
    cases List.mem_append.mp member with
    | inl before => exact leads.answered other pool before
    | inr last =>
        cases List.mem_singleton.mp last
        exact stored pool rfl
  created channel member := by
    obtain ⟨pool, before⟩ := leads.created channel (kept ▸ member)
    exact ⟨pool, List.mem_append_left _ before⟩

/-- A lookup that creates an entry. -/
theorem Leads.extend (leads : Leads log table) {channel : UInt16} (mapped : after.Mapped)
    (grown : after.channels = table.channels ++ [channel]) :
    Leads (log ++ [(.getOrCreate channel, some table.channels.length)]) after where
  mapped := mapped
  answered other pool member := by
    rw [grown]
    cases List.mem_append.mp member with
    | inl before =>
        have stored := leads.answered other pool before
        obtain ⟨inside, _⟩ := List.getElem?_eq_some_iff.mp stored
        rw [List.getElem?_append_left inside, stored]
    | inr last =>
        cases List.mem_singleton.mp last
        exact List.getElem?_concat_length
  created other member := by
    rw [grown] at member
    cases List.mem_append.mp member with
    | inl before =>
        obtain ⟨pool, created⟩ := leads.created other before
        exact ⟨pool, List.mem_append_left _ created⟩
    | inr last =>
        cases List.mem_singleton.mp last
        exact ⟨_, List.mem_append_right _ List.mem_cons_self⟩

/-- One lookup. -/
theorem Leads.perform (leads : Leads log table) (call : PoolLookup) :
    ∃ answer after, call.perform table = .ok answer after ∧ Answers log call answer ∧
      Leads (log ++ [(call, answer)]) after := by
  cases call with
  | get channel =>
      rcases leads.mapped.findEntry channel with ⟨pool, stored, found⟩ | ⟨absent, ended⟩
      · refine ⟨some pool, table, found, leads.answers_some stored, ?_⟩
        refine leads.record leads.mapped rfl fun other same => ?_
        cases same
        exact stored
      · refine ⟨none, table, ended, leads.answers_none absent, ?_⟩
        exact leads.record leads.mapped rfl fun other same => nomatch same
  | getOrCreate channel =>
      obtain ⟨answer, after, performs, created⟩ :=
        leads.mapped.amqpGetOrCreateChannelPool channel
      refine ⟨answer, after, performs, ?_⟩
      cases created with
      | @found pool stored =>
          refine ⟨leads.answers_some stored, leads.record leads.mapped rfl fun other same => ?_⟩
          cases same
          exact stored
      | refused absent _ =>
          refine ⟨leads.answers_none absent, ?_⟩
          exact leads.record leads.mapped rfl fun other same => nomatch same
      | new absent _ mapped grown =>
          refine ⟨⟨fun _ isGet => (nomatch isGet), fun pool member => ?_⟩,
            leads.extend mapped grown⟩
          exact absurd (List.mem_of_getElem? (leads.answered _ pool member)) absent

theorem Leads.performAll (leads : Leads past table) (calls : List PoolLookup) :
    ∃ log after, PoolLookup.performAll calls table = .ok log after ∧ log.map Prod.fst = calls ∧
      Leads (past ++ log) after ∧
      ∀ before call answer later, log = before ++ (call, answer) :: later →
        Answers (past ++ before) call answer := by
  induction calls generalizing past table with
  | nil =>
      refine ⟨[], table, rfl, rfl, by rwa [List.append_nil], ?_⟩
      intro before call answer later split
      cases List.append_eq_nil_iff.mp split.symm |>.2
  | cons call calls ih =>
      obtain ⟨answer, middle, performs, answers, leads⟩ := leads.perform call
      obtain ⟨log, after, runs, isCalls, leads, history⟩ := ih leads
      refine ⟨(call, answer) :: log, after, ?_, ?_, ?_, ?_⟩
      · exact (bind_of_ok performs).trans (bind_of_ok runs)
      · exact congrArg (call :: ·) isCalls
      · rwa [List.append_assoc] at leads
      · intro before other result later split
        cases before with
        | nil =>
            cases split
            rwa [List.append_nil]
        | cons first before =>
            obtain ⟨isFirst, rest⟩ := List.cons.inj split
            subst isFirst
            have answers := history before other result later rest
            rwa [List.append_assoc] at answers

/-- The table is a map: its lists hold their own channels, each channel once, and the
lookups agree with each other. -/
structure IsMap (log : List (PoolLookup × Option Nat)) (table : PoolTable) : Prop where
  bucket : ∀ index : Fin poolTableSize, ∃ addresses entries,
    Chain table.entries.links table.entries.buckets[index] addresses entries ∧
      ∀ entry ∈ entries, entry.channel.toNat % 16 = index
  distinct : ∀ (entry other : Nat) (link link' : Link PoolTableEntry),
    table.entries.links[entry]? = some link → table.entries.links[other]? = some link' →
      link.data.channel = link'.data.channel → entry = other
  answers : ∀ past call answer later, log = past ++ (call, answer) :: later →
    Answers past call answer
  apart : ∀ call other pool, (call, some pool) ∈ log → (other, some pool) ∈ log →
    call.channel = other.channel

/-- Whatever the lookups and the outcomes of `malloc`, none of them leaves the table, and
the table stays a map. -/
theorem performAll_isMap (frameMax : Int32) (allocs : List Bool) (calls : List PoolLookup) :
    ∃ log after, performAll calls (PoolTable.fresh frameMax allocs) = .ok log after ∧
      log.map Prod.fst = calls ∧ IsMap log after := by
  obtain ⟨log, after, runs, isCalls, leads, history⟩ :=
    (leads_fresh frameMax allocs).performAll calls
  refine ⟨log, after, runs, isCalls, ?_, ?_, history, ?_⟩
  · intro index
    obtain ⟨addresses, chain⟩ := leads.mapped.bucket index
    refine ⟨addresses, _, chain, fun entry member => ?_⟩
    have placed : PoolTable.poolIndex entry.channel = index :=
      of_decide_eq_true (List.mem_filter.mp member).2
    exact congrArg Fin.val placed
  · intro entry other link link' here there same
    refine @Leads.pool_eq _ _ leads _ _ link.data.channel ?_ ?_
    · rw [PoolTable.channels, ChainedTable.keys, List.getElem?_map, here]
      rfl
    · rw [PoolTable.channels, ChainedTable.keys, List.getElem?_map, there, same]
      rfl
  · intro call other pool here there
    have found := leads.answered call pool here
    exact Option.some.inj (found.symm.trans (leads.answered other pool there))

end PoolLookup

/-! ## The list of channels -/

namespace PoolTable

variable {table : PoolTable} {reader : Reader}

/-- The table without its addresses, the newest entry first. -/
def Represents (table : PoolTable) (poolTable : List UInt16) : Prop :=
  table.Mapped ∧ table.channels.reverse = poolTable

theorem Represents.mem_channels {poolTable : List UInt16} (represents : table.Represents poolTable)
    (channel : UInt16) : channel ∈ poolTable ↔ channel ∈ table.channels := by
  rw [← represents.2, List.mem_reverse]

/-- The list of a bucket has the channels that `poolTableChannels` takes from it. -/
theorem Represents.bucket {poolTable : List UInt16} (represents : table.Represents poolTable)
    (index : Fin poolTableSize) : ∃ addresses entries,
      Chain table.entries.links table.entries.buckets[index] addresses entries ∧
        entries.map PoolTableEntry.channel =
          poolTable.filter fun channel => channel.toNat % poolTableSize = index := by
  obtain ⟨addresses, chain⟩ := represents.1.bucket index
  refine ⟨addresses, _, chain, ?_⟩
  have values : table.entries.values.map PoolTableEntry.channel = poolTable :=
    (ChainedTable.map_values _ _).trans represents.2
  rw [← values, List.filter_map]
  refine congrArg (List.map _) (List.filter_congr fun entry _ => ?_)
  exact decide_eq_decide.mpr ⟨congrArg Fin.val, fun same => Fin.ext same⟩

/-- The lookup of the reader is the lookup in the table. -/
theorem Represents.amqpGetOrCreateChannelPool (represents : table.Represents reader.poolTable)
    (memory : FrameMemory) (outcome : table.allocs.headD true = memory.poolEntry)
    (channel : UInt16) : ∃ answer after,
      PoolTable.amqpGetOrCreateChannelPool channel table = .ok answer after ∧
      after.Represents ((RabbitmqC.amqpGetOrCreateChannelPool memory reader channel).elim
        reader.poolTable fun found => found.1.poolTable) ∧
      (answer = none ↔ RabbitmqC.amqpGetOrCreateChannelPool memory reader channel = none) := by
  obtain ⟨answer, after, performs, created⟩ :=
    represents.1.amqpGetOrCreateChannelPool channel
  refine ⟨answer, after, performs, ?_⟩
  unfold RabbitmqC.amqpGetOrCreateChannelPool
  cases created with
  | found stored =>
      have member := (represents.mem_channels channel).mpr (List.mem_of_getElem? stored)
      rw [if_pos member]
      exact ⟨represents, by simp⟩
  | refused absent refused =>
      have unknown := mt (represents.mem_channels channel).mp absent
      rw [if_neg unknown, ← outcome, refused]
      exact ⟨represents, by simp⟩
  | new absent granted mapped grown =>
      have unknown := mt (represents.mem_channels channel).mp absent
      rw [if_neg unknown, ← outcome, granted]
      refine ⟨⟨mapped, ?_⟩, by simp⟩
      rw [grown, List.reverse_concat, represents.2]
      rfl

end PoolTable

end RabbitmqC
