import RabbitmqC.Consumer.Epochs
import RabbitmqC.Login.Phases

/-!
# Where the properties of a connection are kept

The properties of the broker are copied to a pool of their own, the client
properties to the pool of channel 0. The login itself releases that pool, twice, so
that `amqp_get_client_properties` returns a table in recycled memory.
-/

set_option autoImplicit false

namespace RabbitmqC

open Effect

/-! ## Recycled pools stay recycled -/

section Epochs

variable {channel : UInt16} {floor : Nat}

/-- A pool was recycled at least `floor` times. -/
def Recycled (channel : UInt16) (floor : Nat) (world : World) : Prop := floor ≤ world.epoch channel

theorem Recycled.congr {before after : World} (recycled : Recycled channel floor before)
    (same : after.recycled = before.recycled) : Recycled channel floor after := by
  unfold Recycled World.epoch at recycled ⊢
  rw [same]
  exact recycled

theorem callRule_recycled :
    CallRule (Recycled channel floor) (fun _ => Recycled channel floor) := by
  apply CallRule.ofSteps
  · rintro before after ⟨_, _, _, _, _, _, _, _, _, _, _, rfl⟩ recycled
    exact recycled.congr rfl
  · rintro before after ⟨_, _, _, _, rfl⟩ recycled
    exact recycled.congr rfl
  · intro world handled _ recycled
    exact ⟨fun _ => recycled.congr rfl, fun _ => recycled.congr rfl⟩
  · intro world released recycled
    show floor ≤ List.count channel (world.recycled ++ [released])
    rw [List.count_append]
    exact Nat.le_add_right_of_le recycled

theorem recycled_retuned : Retunable (Recycled channel floor) :=
  fun _ _ _ _ recycled => recycled.congr rfl

end Epochs

/-! ## Releasing the pool of channel 0 -/

theorem mem_poolTableChannels {poolTable : List UInt16} {channel : UInt16} :
    channel ∈ poolTableChannels poolTable ↔ channel ∈ poolTable := by
  unfold poolTableChannels
  constructor
  · intro member
    obtain ⟨index, _, found⟩ := List.mem_flatMap.mp member
    exact List.mem_of_mem_filter found
  · intro member
    apply List.mem_flatMap.mpr
    refine ⟨channel.toNat % poolTableSize, ?_, ?_⟩
    · exact List.mem_range.mpr (Nat.mod_lt _ (by decide))
    · exact List.mem_filter.mpr ⟨member, by simp⟩

section Release

variable {world : World}

theorem maybeRelease_of_unqueued {channel : UInt16} (idle : world.reader.state = .idle)
    (unqueued : world.queue = .empty) (pool : channel ∈ world.reader.poolTable) :
    amqpMaybeReleaseBuffersOnChannel channel world =
      .ok () { world with recycled := world.recycled ++ [channel] } := by
  unfold amqpMaybeReleaseBuffersOnChannel
  rw [bind_of_ok (get_run world)]
  rw [if_neg (not_not.mpr idle), unqueued]
  exact congrFun (if_pos pool) _

/-- Between two frames and with nothing queued, every pool is recycled. -/
theorem releaseEach_recycles {channels : List UInt16} {channel : UInt16} {after : World}
    (idle : world.reader.state = .idle) (unqueued : world.queue = .empty)
    (pools : ∀ other ∈ channels, other ∈ world.reader.poolTable) (member : channel ∈ channels)
    (returned : releaseEach channels world = .ok () after) :
    world.epoch channel < after.epoch channel := by
  induction channels generalizing world with
  | nil => cases member
  | cons first channels ih =>
      have pool := pools first List.mem_cons_self
      unfold releaseEach at returned
      rw [bind_of_ok (maybeRelease_of_unqueued idle unqueued pool)] at returned
      have counted : world.epoch channel ≤
          ({ world with recycled := world.recycled ++ [first] } : World).epoch channel := by
        show List.count channel world.recycled ≤ List.count channel (world.recycled ++ [first])
        rw [List.count_append]
        exact Nat.le_add_right _ _
      rcases List.mem_cons.mp member with rfl | later
      · have keeps := @CallRule.releaseEach _ _ (@callRule_recycled channel
          (world.epoch channel + 1)) channels
        refine keeps.ok ?_ returned
        show _ + 1 ≤ List.count channel (world.recycled ++ [channel])
        rw [List.count_append, List.count_singleton_self]
        exact Nat.le_refl _
      · have increased := @ih { world with recycled := world.recycled ++ [first] } idle unqueued
          (fun other isOther => pools other (List.mem_cons_of_mem _ isOther)) later returned
        omega

theorem releaseBuffers_recycles {start : Script} {saslMethod : SaslMethod} {after : World}
    (prepared : Prepared start saslMethod world)
    (returned : amqpReleaseBuffers world = .ok () after) : world.epoch 0 < after.epoch 0 := by
  unfold amqpReleaseBuffers at returned
  rw [bind_of_ok (get_run world), if_neg (not_not.mpr prepared.idle)] at returned
  apply releaseEach_recycles prepared.idle prepared.queue ?_ ?_ returned
  · intro other member
    exact mem_poolTableChannels.mp member
  · exact mem_poolTableChannels.mpr prepared.pool

end Release

/-! ## The client properties -/

theorem length_setEntryByKey (key : List UInt8) (value : FieldValue) (table : Table) :
    (setEntryByKey key value table).length = table.length := by
  induction table with
  | nil => rfl
  | cons entry table ih =>
      obtain ⟨found, old⟩ := entry
      rw [setEntryByKey]
      split
      · rfl
      · rw [List.length_cons, List.length_cons, ih]

/-- Merging keeps the entries that are there. -/
theorem length_mergeEntries {base tempResult merged : Table} {add : List TableEntry}
    {before after : List Bool}
    (returned : mergeEntries base tempResult add before = .ok merged after) :
    tempResult.length ≤ merged.length := by
  induction add generalizing tempResult before with
  | nil =>
      rw [mergeEntries] at returned
      cases returned
      exact Nat.le_refl _
  | cons entry add ih =>
      obtain ⟨key, value⟩ := entry
      rw [mergeEntries] at returned
      obtain ⟨result, middle, merges, returned⟩ := bind_eq_ok.mp returned
      refine Nat.le_trans ?_ (ih returned)
      rw [mergeEntry] at merges
      cases found : amqpTableGetEntryByKey key tempResult with
      | none =>
          rw [found] at merges
          cases merges
          rw [List.length_append]
          exact Nat.le_add_right _ _
      | some value =>
          rw [found] at merges
          obtain ⟨value, _, _, sets⟩ := bind_eq_ok.mp merges
          cases sets
          rw [length_setEntryByKey]

theorem length_cloneTableEntries {entries clones : List TableEntry} {before after : List Bool}
    (returned : cloneTableEntries entries before = .ok clones after) :
    clones.length = entries.length := by
  induction entries generalizing clones before with
  | nil =>
      rw [cloneTableEntries] at returned
      cases returned
      rfl
  | cons entry entries ih =>
      rw [cloneTableEntries] at returned
      obtain ⟨clone, middle, _, returned⟩ := bind_eq_ok.mp returned
      obtain ⟨rest, _, copies, ended⟩ := bind_eq_ok.mp returned
      cases ended
      rw [List.length_cons, List.length_cons, ih copies]

theorem length_amqpTableClone {original clone : Table} {before after : List Bool}
    (returned : amqpTableClone original before = .ok clone after) :
    clone.length = original.length := by
  unfold amqpTableClone at returned
  split at returned
  · rename_i empty
    cases returned
    exact empty.symm
  · obtain ⟨_, middle, _, copies⟩ := bind_eq_ok.mp returned
    exact length_cloneTableEntries copies

theorem length_amqpMergeCapabilities {base merged : Table} {add : Option Table}
    {before after : List Bool}
    (returned : amqpMergeCapabilities base add before = .ok merged after) :
    base.length ≤ merged.length := by
  cases add with
  | none => exact Nat.le_of_eq (length_amqpTableClone returned).symm
  | some add =>
      unfold amqpMergeCapabilities mergeAround at returned
      dsimp only at returned
      split at returned
      · cases returned
      · obtain ⟨_, _, _, returned⟩ := bind_eq_ok.mp returned
        obtain ⟨tempResult, _, merges, copies⟩ := bind_eq_ok.mp returned
        rw [length_amqpTableClone copies]
        exact length_mergeEntries merges

theorem runCloner_eq_ok {α : Type} {clone : Cloner α} {allocs rest : List Bool} {value : α}
    {before after : World} (returned : runCloner clone allocs before = .ok (.ok (value, rest)) after) :
    clone allocs = .ok value rest := by
  unfold runCloner at returned
  cases cloned : clone allocs with
  | ok value rest =>
      rw [cloned] at returned
      cases returned
      rfl
  | error failure rest =>
      rw [cloned] at returned
      cases failure with
      | status status => cases returned
      | fault fault => cases returned

/-- There is something in the pool. -/
theorem prepareStartOk_nonempty {parameters : LoginParameters} {allocs : List Bool}
    {response : List UInt8} {before after : World}
    (returned : prepareStartOk parameters allocs before = .ok (.ok response) after) :
    after.clientProperties ≠ [] := by
  obtain ⟨granted, linked, _, returned⟩ := bind_eq_ok.mp returned
  cases granted with
  | false => cases returned
  | true =>
      obtain ⟨result, answered, _, returned⟩ := bind_eq_ok.mp returned
      cases result with
      | error status => cases returned
      | ok answer =>
          obtain ⟨result, merged, merges, returned⟩ := bind_eq_ok.mp returned
          cases result with
          | error status => cases returned
          | ok properties =>
              obtain ⟨clientProperties, rest⟩ := properties
              cases returned
              have kept := length_amqpMergeCapabilities (runCloner_eq_ok merges)
              intro empty
              rw [show clientProperties = [] from empty] at kept
              exact absurd kept (by simp [defaultClientProperties])

theorem storeProperties_nonempty {parameters : LoginParameters} {allocs : List Bool}
    {deadline : UInt64} {fuel : Nat} {response : List UInt8} {before after : World}
    (returned : storeProperties parameters allocs deadline fuel before = .ok (.ok response) after) :
    after.clientProperties ≠ [] := by
  obtain ⟨result, _, _, returned⟩ := bind_eq_ok.mp returned
  cases result with
  | error status => cases returned
  | ok offered =>
      obtain ⟨result, _, _, returned⟩ := bind_eq_ok.mp returned
      cases result with
      | error status => cases returned
      | ok allocs => exact prepareStartOk_nonempty returned

/-- The login has stored the client properties in the pool of channel 0, at the place that
`stamp` tells. -/
def ClientPropertiesAt (parameters : LoginParameters) (memory : LoginMemory) (fuel : Nat)
    (before : World) (properties : Table) (stamp : Stamp) : Prop :=
  ∃ deadline timed response stored,
    amqpTimeFromNow parameters.timeout before = .ok (.ok deadline) timed ∧
      storeProperties parameters memory.allocs deadline fuel timed = .ok (.ok response) stored ∧
      properties = stored.clientProperties ∧ stamp = stored.stamp 0

/-- Some calls after `start`, and whether the last one has returned. -/
inductive CalledFrom (start : World) : Option Stop → World → Prop where
  | start : CalledFrom start none start
  | call {world : World} {call : PoolCall} {fuel : Nat} : CalledFrom start none world →
      CalledFrom start (stopOf (call.run fuel world)) (endState (call.run fuel world))

/-- The pool that the client properties are in is not recycled as long as the connection is
used. -/
def PropertiesOutlive (parameters : LoginParameters) (memory : LoginMemory) (fuel : Nat)
    (before after : World) : Prop :=
  ∀ properties stamp, ClientPropertiesAt parameters memory fuel before properties stamp →
    properties ≠ [] → ∀ stop later, CalledFrom after stop later → later.stamp stamp.pool = stamp

theorem PoolCall.run_recycled {channel : UInt16} {floor : Nat} (call : PoolCall) (fuel : Nat) :
    Keeps (Recycled channel floor) (call.run fuel) := by
  have rule := @callRule_recycled channel floor
  have waits {run : Call (Except Status Frame)} (ends : Triple (Recycled channel floor) run
      (Waited (Recycled channel floor) fun _ => Recycled channel floor)
      (fun _ => Recycled channel floor)) : Keeps (Recycled channel floor) (frameOf <$> run) :=
    Triple.bind ends fun _ => .pure fun _ waited => rule.waited waited
  cases call with
  | library call =>
      have runs : Keeps (Recycled channel floor) (call.run fuel) := by
        cases call with
        | basicPublish channel exchange routingKey mandatory immediate properties body =>
            exact Triple.bind (rule.basicPublish ..) fun _ => .pure fun _ recycled => recycled
        | sendFrame frame =>
            exact Triple.bind (rule.sendFrameInner ..) fun _ => .pure fun _ recycled => recycled
        | simpleRpc rpcTimeout channel requestId expectedReplyIds decodedRequestMethod =>
            exact Triple.bind (rule.simpleRpc ..) fun _ => .pure fun _ recycled => recycled
        | simpleWaitFrame => exact waits (rule.waitFrameNoblock none)
        | simpleWaitFrameNoblock timeout => exact waits (rule.waitFrameNoblock timeout)
        | readMessage allocs channel =>
            exact Triple.bind (rule.readMessage ..) fun _ => .pure fun _ recycled => recycled
        | consumeMessage allocs timeout =>
            exact Triple.bind (rule.consumeMessage ..) fun _ => .pure fun _ recycled => recycled
      exact Triple.bind runs fun _ => .pure fun _ recycled => recycled
  | waitFrameOnChannel channel =>
      exact Triple.bind (rule.waitFrameOnChannel channel) fun _ =>
        .pure fun _ waited => rule.waited waited
  | releaseBuffers => exact rule.releaseBuffers
  | maybeReleaseBuffers => exact rule.maybeReleaseBuffers
  | maybeReleaseBuffersOnChannel channel => exact rule.release channel

theorem CalledFrom.recycled {channel : UInt16} {floor : Nat} {start world : World}
    {stop : Option Stop} (called : CalledFrom start stop world)
    (recycled : Recycled channel floor start) : Recycled channel floor world := by
  induction called with
  | start => exact recycled
  | @call world call fuel _ ih =>
      have keeps := @PoolCall.run_recycled channel floor call fuel
      cases ran : call.run fuel world with
      | ok _ after => exact keeps.ok ih ran
      | error stop after => exact keeps.error ih ran

section Recycles

variable {script : Script} {parameters : LoginParameters} {memory : LoginMemory} {fuel : Nat}
  {reply : Method} {after : World}

/-- The first release comes after the client properties were stored. -/
theorem login_recycles {states : LoginStates}
    (passed : states.Passed parameters memory fuel (World.new script) reply after) :
    Recycled 0 (states.stored.epoch 0 + 1) after := by
  obtain ⟨stored, sent⟩ := passed.prepared (early_new script)
  have sending : Recycled 0 (states.stored.epoch 0) states.sent :=
    (callRule_recycled.sendStartOk _ _ _).ok (Nat.le_refl _) passed.sent
  have released : Recycled 0 (states.stored.epoch 0 + 1) states.released :=
    Nat.lt_of_le_of_lt sending (releaseBuffers_recycles sent passed.released)
  have tuned := (callRule_recycled.loginTune recycled_retuned parameters memory.outbound
    states.deadline).ok released passed.tuned
  have cleared := callRule_recycled.releaseBuffers.ok tuned passed.cleared
  exact (callRule_recycled.loginOpen parameters.vhost states.deadline).ok cleared passed.opened

theorem LoginStates.Passed.clientPropertiesAt {states : LoginStates} {before : World}
    (passed : states.Passed parameters memory fuel before reply after) :
    ClientPropertiesAt parameters memory fuel before states.stored.clientProperties
      (states.stored.stamp 0) :=
  ⟨_, _, _, _, passed.timed, passed.stored, rfl, rfl⟩

/-- When a login has succeeded, the client properties are in a pool that was recycled
since they were stored. -/
theorem properties_recycled
    (returned : amqpLoginInner parameters memory fuel (World.new script) =
      .ok (.normal reply) after) :
    ¬ PropertiesOutlive parameters memory fuel (World.new script) after := by
  intro outlive
  obtain ⟨_, states, passed⟩ := loginInner_eq_normal returned
  have recycled : states.stored.epoch 0 + 1 ≤ after.epoch 0 := login_recycles passed
  have same := outlive _ _ passed.clientPropertiesAt (storeProperties_nonempty passed.stored)
    none after .start
  have epochs : after.epoch 0 = states.stored.epoch 0 := congrArg Stamp.epoch same
  omega

/-- No login leaves the client properties where they can be read, neither at once nor after
any calls. -/
theorem login_properties_recycled
    (returned : amqpLoginInner parameters memory fuel (World.new script) =
      .ok (.normal reply) after) :
    ¬ PropertiesOutlive parameters memory fuel (World.new script) after ∧
      ∀ properties stamp,
        ClientPropertiesAt parameters memory fuel (World.new script) properties stamp →
          ∀ stop later, CalledFrom after stop later → later.stamp stamp.pool ≠ stamp := by
  refine ⟨properties_recycled returned, ?_⟩
  intro properties stamp stored stop later called same
  obtain ⟨_, states, passed⟩ := loginInner_eq_normal returned
  obtain ⟨deadline, timed, response, world, times, stores, _, rfl⟩ := stored
  cases times.symm.trans passed.timed
  cases stores.symm.trans passed.stored
  have behind : states.stored.epoch 0 + 1 ≤ later.epoch 0 :=
    called.recycled (login_recycles passed)
  have epochs : later.epoch 0 = states.stored.epoch 0 := congrArg Stamp.epoch same
  omega

end Recycles

theorem login_properties_recycled_welcomed :
    (∃ reply, welcomedLogin = .ok (.normal reply) (endState welcomedLogin)) ∧
      ¬ PropertiesOutlive quietParameters ampleMemory 20 (World.new welcomingScript)
        (endState welcomedLogin) := by
  obtain ⟨reply, returned⟩ := welcomedLogin_succeeds
  exact ⟨⟨reply, returned⟩, (login_properties_recycled returned).1⟩

/-- The pool of channel 0 is recycled three times by a login. -/
theorem welcomed_properties_recycled :
    (endState welcomedLogin).epoch 0 = 3 ∧
      ¬ PropertiesOutlive quietParameters ampleMemory 20 (World.new welcomingScript)
        (endState welcomedLogin) := by
  obtain ⟨reply, returned⟩ := welcomedLogin_succeeds
  exact ⟨by decide +kernel, properties_recycled returned⟩

end RabbitmqC
