import RabbitmqC.Consumer.CallRule

/-!
# Recovery after an unexpected frame

`amqp_consume_message` answers a frame it cannot use with
`AMQP_STATUS_UNEXPECTED_STATE` and puts it back. The frame is then the first one
that `amqp_simple_wait_frame` returns, wherever it came from.
-/

set_option autoImplicit false

namespace RabbitmqC

open Effect

/-! ## Memory for links -/

/-- Allocations for the frame queue succeed. -/
def Granted (world : World) : Prop := ∀ outcome ∈ world.script.links, outcome = true

theorem Granted.of_uses {before after : World} (granted : Granted before)
    (uses : before.script.Uses after.script) : Granted after :=
  fun outcome member => granted outcome (uses.links.subset member)

theorem callRule_granted : CallRule Granted fun _ => Granted := by
  apply CallRule.ofSteps
  · rintro before after ⟨_, _, _, _, _, _, _, _, _, _, uses, rfl⟩ granted
    exact granted.of_uses uses
  · rintro before after ⟨_, _, _, uses, rfl⟩ granted
    exact granted.of_uses uses
  · intro world handled _ granted
    exact ⟨fun _ => granted, fun _ => granted⟩
  · intro world channel granted
    exact granted

theorem Granted.allocateLink {world : World} (granted : Granted world) :
    ∃ script, world.script.Uses script ∧ allocateLink world = .ok true { world with script } := by
  unfold RabbitmqC.allocateLink
  rw [bind_of_ok (get_run world)]
  cases answered : world.script.links with
  | nil => exact ⟨world.script, .refl _, rfl⟩
  | cons outcome rest =>
      have success : outcome = true := granted outcome (by rw [answered]; exact List.mem_cons_self)
      subst success
      refine ⟨{ world.script with links := rest }, ?_, rfl⟩
      exact { Script.Uses.refl world.script with links := ⟨[true], answered.symm⟩ }

theorem Granted.createLinkForFrame {world : World} (granted : Granted world) (frame : Frame) :
    ∃ script poolTable stale, amqpCreateLinkForFrame frame world =
      .ok (some (world.queue.create frame stale).2)
        { world with
          script, reader.poolTable := poolTable
          queue := (world.queue.create frame stale).1 } := by
  have pooled : ∃ script poolTable, world.script.Uses script ∧ linkPool frame.channel world =
      .ok true { world with script, reader.poolTable := poolTable } := by
    unfold linkPool
    rw [bind_of_ok (get_run world)]
    split
    · exact ⟨world.script, world.reader.poolTable, .refl _, rfl⟩
    · obtain ⟨script, uses, allocated⟩ := granted.allocateLink
      rw [bind_of_ok allocated]
      exact ⟨script, _, uses, rfl⟩
  obtain ⟨script, poolTable, uses, pooled⟩ := pooled
  have first : Granted { world with script, reader.poolTable := poolTable } := granted.of_uses uses
  obtain ⟨second, uses, linked⟩ := first.allocateLink
  have then_ : Granted { world with script := second, reader.poolTable := poolTable } :=
    first.of_uses uses
  obtain ⟨third, _, copied⟩ := then_.allocateLink
  unfold amqpCreateLinkForFrame
  rw [bind_of_ok pooled, if_pos rfl, bind_of_ok linked, bind_of_ok copied]
  exact ⟨third, poolTable, _, rfl⟩

/-! ## Putting back -/

/-- The next wait finds the frame in front of the queue, and does nothing else. -/
def FoundNext (frame : Frame) (world : World) : Prop :=
  ∀ fuel, ∃ queue, amqpSimpleWaitFrame fuel world = .ok (.ok frame) { world with queue }

theorem amqpPutBackFrame_foundNext {world : World} (granted : Granted world) (frame : Frame) :
    ∃ after, amqpPutBackFrame frame world = .ok (.ok ()) after ∧ FoundNext frame after := by
  obtain ⟨script, poolTable, stale, created⟩ := granted.createLinkForFrame frame
  unfold amqpPutBackFrame
  rw [bind_of_ok created]
  refine ⟨_, rfl, fun fuel => ?_⟩
  obtain ⟨link, front, isFrame⟩ := world.queue.front_prepend frame stale
  unfold amqpSimpleWaitFrame amqpSimpleWaitFrameNoblock
  rw [bind_of_ok (show amqpTimeFromNow none _ = .ok (.ok amqpTimeInfinite) _ from rfl)]
  dsimp only
  rw [bind_of_ok (get_run _)]
  dsimp only
  rw [front, ← isFrame]
  exact ⟨_, rfl⟩

/-! ## What copying fails with -/

def cloneFailures : List Failure :=
  [.status .noMemory, .status .invalidParameter, .fault .wrongObject]

abbrev FailsToClone {α : Type} (clone : Cloner α) : Prop := Raises (· ∈ cloneFailures) clone

theorem failsToClone_poolAlloc : FailsToClone poolAlloc := by
  refine .bind ?_ fun granted => ?_
  · refine .bind .get fun outcomes => ?_
    cases outcomes with
    | nil => exact .pure _
    | cons outcome rest =>
        intro before after failure raised
        cases raised
  · cases granted with
    | true => exact .pure _
    | false => exact .throw (by decide)

theorem failsToClone_cloneBytes (original : List UInt8) : FailsToClone (cloneBytes original) := by
  unfold cloneBytes
  split
  · exact .pure _
  · exact .bind failsToClone_poolAlloc fun _ => .pure _

mutual

theorem failsToClone_fieldValue : (value : FieldValue) → FailsToClone (amqpFieldValueClone value)
  | .utf8 bytes => (failsToClone_cloneBytes bytes).map _
  | .bytes bytes => (failsToClone_cloneBytes bytes).map _
  | .array [] => .pure _
  | .array (entry :: entries) =>
      .bind failsToClone_poolAlloc fun _ => (failsToClone_arrayEntries (entry :: entries)).map _
  | .table [] => .pure _
  | .table (entry :: entries) =>
      .bind failsToClone_poolAlloc fun _ => (failsToClone_tableEntries (entry :: entries)).map _
  | .unknown _ => .throw (by decide)
  | .boolean _ | .i8 _ | .u8 _ | .i16 _ | .u16 _ | .i32 _ | .u32 _ | .i64 _ | .u64 _ => .pure _
  | .f32 _ | .f64 _ | .decimal _ _ | .timestamp _ | .void => .pure _

theorem failsToClone_arrayEntries : (entries : List FieldValue) →
    FailsToClone (cloneArrayEntries entries)
  | [] => .pure _
  | entry :: entries =>
      .bind (failsToClone_fieldValue entry) fun _ =>
        .bind (failsToClone_arrayEntries entries) fun _ => .pure _

theorem failsToClone_tableEntry : (entry : TableEntry) → FailsToClone (amqpTableEntryClone entry)
  | .mk key value => by
      unfold amqpTableEntryClone
      split
      · exact .throw (by decide)
      · exact .bind failsToClone_poolAlloc fun _ =>
          .bind (failsToClone_fieldValue value) fun _ => .pure _

theorem failsToClone_tableEntries : (entries : List TableEntry) →
    FailsToClone (cloneTableEntries entries)
  | [] => .pure _
  | entry :: entries =>
      .bind (failsToClone_tableEntry entry) fun _ =>
        .bind (failsToClone_tableEntries entries) fun _ => .pure _

end

theorem failsToClone_field (domain : Domain) (value : domain.Value) :
    FailsToClone (cloneField domain value) := by
  cases domain with
  | shortstr => exact failsToClone_cloneBytes value
  | longstr => exact failsToClone_cloneBytes value
  | table =>
      show FailsToClone (amqpTableClone value)
      unfold amqpTableClone
      split
      · exact .pure _
      · exact .bind failsToClone_poolAlloc fun _ => failsToClone_tableEntries value
  | octet | short | long | longlong | bits => exact .pure _

theorem failsToClone_properties (flags : UInt32) (properties : List Property)
    (fields : PropertyFields properties) :
    FailsToClone (cloneProperties flags properties fields) := by
  induction properties with
  | nil => exact .pure _
  | cons property properties ih =>
      obtain ⟨field, fields⟩ := fields
      refine .bind ?_ fun _ => .bind (ih fields) fun _ => .pure _
      unfold cloneProperty
      split
      · split
        · exact (failsToClone_field property.domain _).map _
        · exact .pure _
      · split
        · exact .throw (by decide)
        · exact .pure _

theorem failsToClone_declaredProperties (flags : UInt32) (declared : Option (List Property))
    (fields : DeclaredProperties declared) :
    FailsToClone (cloneDeclaredProperties flags declared fields) := by
  cases declared with
  | none => exact .pure _
  | some properties => exact failsToClone_properties flags properties fields

theorem failsToClone_basicProperties {classId : UInt16} (original : Properties classId) :
    FailsToClone (amqpBasicPropertiesClone original) :=
  (failsToClone_declaredProperties original.flags _ original.fields).map _

theorem startMessage_fails {allocs rest : List Bool} {frame : Frame} {status : Status}
    (raised : startMessage allocs frame = .error (.status status) rest) :
    .status status ∈ cloneFailures := by
  unfold startMessage at raised
  split at raised
  · split at raised
    · cases raised
    · rcases bind_eq_error.mp raised with early | ⟨properties, middle, _, late⟩
      · exact failsToClone_basicProperties _ early
      · split at late
        · cases late
        · rcases bind_eq_error.mp late with short | ⟨_, _, _, impossible⟩
          · exact failsToClone_poolAlloc short
          · cases impossible
  · cases raised

/-! ## Consuming -/

section Consuming

variable {allocs : List Bool} {timeout : Option Timeval} {fuel : Nat} {world : World}

/-- A check of `amqp_consume_message`, or the one of `amqp_read_message` for a content
header, objects to `frame`, which the call was handed in the world `met`. -/
inductive Objects (timeout : Option Timeval) (fuel : Nat) (world : World) :
    Frame → World → Prop where
  | delivery {frame : Frame} {met : World} :
      amqpSimpleWaitFrameNoblock timeout fuel world = .ok (.ok frame) met →
      delivery? frame = none → Objects timeout fuel world frame met
  | header {delivery frame : Frame} {between met : World} :
      amqpSimpleWaitFrameNoblock timeout fuel world = .ok (.ok delivery) between →
      (delivery? delivery).isSome →
      amqpSimpleWaitFrameOnChannel delivery.channel fuel between = .ok (.ok frame) met →
      frame.frameType ≠ amqpFrameHeader → closeMethod? frame = none →
      Objects timeout fuel world frame met

/-- A wait has returned `AMQP_STATUS_UNEXPECTED_STATE` itself. -/
inductive Relays (timeout : Option Timeval) (fuel : Nat) (world : World) : Prop where
  | delivery {after : World} :
      amqpSimpleWaitFrameNoblock timeout fuel world = .ok (.error .unexpectedState) after →
      Relays timeout fuel world
  | header {delivery : Frame} {between after : World} :
      amqpSimpleWaitFrameNoblock timeout fuel world = .ok (.ok delivery) between →
      amqpSimpleWaitFrameOnChannel delivery.channel fuel between =
        .ok (.error .unexpectedState) after → Relays timeout fuel world
  | body {delivery header : Frame} {between started after : World} {size : Nat} :
      amqpSimpleWaitFrameNoblock timeout fuel world = .ok (.ok delivery) between →
      amqpSimpleWaitFrameOnChannel delivery.channel fuel between = .ok (.ok header) started →
      readFragments delivery.channel size fuel [] started =
        .ok (.error (.libraryException .unexpectedState)) after → Relays timeout fuel world

theorem Granted.waited {channel : UInt16} {result : Except Status Frame} {after : World}
    (granted : Granted world)
    (returned : amqpSimpleWaitFrameOnChannel channel fuel world = .ok result after) :
    Granted after :=
  callRule_granted.waited ((callRule_granted.waitFrameOnChannel channel).ok granted returned)

/-- How `amqp_read_message` comes to return the code. -/
theorem amqpReadMessage_unexpected {channel : UInt16} {after : World} (granted : Granted world)
    (returned : amqpReadMessage allocs channel fuel world =
      .ok (.error (.libraryException .unexpectedState)) after) :
    (∃ frame met, amqpSimpleWaitFrameOnChannel channel fuel world = .ok (.ok frame) met ∧
        frame.frameType ≠ amqpFrameHeader ∧ closeMethod? frame = none ∧ FoundNext frame after) ∨
      (∃ between, amqpSimpleWaitFrameOnChannel channel fuel world =
        .ok (.error .unexpectedState) between) ∨
      ∃ header started size, amqpSimpleWaitFrameOnChannel channel fuel world =
          .ok (.ok header) started ∧
        readFragments channel size fuel [] started =
          .ok (.error (.libraryException .unexpectedState)) after := by
  unfold amqpReadMessage at returned
  obtain ⟨result, met, waited, returned⟩ := bind_eq_ok.mp returned
  cases result with
  | error status =>
      cases returned
      exact .inr (.inl ⟨_, waited⟩)
  | ok frame =>
      dsimp only at returned
      by_cases isHeader : frame.frameType = amqpFrameHeader
      · rw [if_neg (not_not_intro isHeader)] at returned
        cases started : startMessage allocs frame with
        | error failure rest =>
            rw [started] at returned
            cases failure with
            | fault fault => cases returned
            | status status =>
                cases returned
                exact absurd (startMessage_fails started) (by decide)
        | ok content rest =>
            rw [started] at returned
            obtain ⟨result, final, read, returned⟩ := bind_eq_ok.mp returned
            cases result with
            | error reply =>
                cases returned
                exact .inr (.inr ⟨frame, met, content.2, waited, read⟩)
            | ok body => cases returned
      · rw [if_pos isHeader] at returned
        cases closes : closeMethod? frame with
        | some method =>
            rw [closes] at returned
            cases returned
        | none =>
            rw [closes] at returned
            obtain ⟨final, putBack, found⟩ := amqpPutBackFrame_foundNext (granted.waited waited) frame
            dsimp only at returned
            rw [bind_of_ok putBack] at returned
            cases returned
            exact .inl ⟨frame, met, waited, isHeader, closes, found⟩

/-- A frame that `amqp_consume_message` objects to is returned by the next wait, which
neither reads from the socket nor sends anything. -/
theorem amqpConsumeMessage_recovers {after : World} (granted : Granted world)
    (returned : amqpConsumeMessage allocs timeout fuel world =
      .ok (.error (.libraryException .unexpectedState)) after) :
    (∃ frame met, Objects timeout fuel world frame met ∧ FoundNext frame after) ∨
      Relays timeout fuel world := by
  unfold amqpConsumeMessage at returned
  obtain ⟨result, met, waited, returned⟩ := bind_eq_ok.mp returned
  cases result with
  | error status =>
      cases returned
      exact .inr (.delivery waited)
  | ok frame =>
      have remains : Granted met :=
        callRule_granted.waited ((callRule_granted.waitFrameNoblock timeout).ok granted waited)
      dsimp only at returned
      cases isDelivery : delivery? frame with
      | none =>
          rw [isDelivery] at returned
          obtain ⟨final, putBack, found⟩ := amqpPutBackFrame_foundNext remains frame
          dsimp only at returned
          rw [bind_of_ok putBack] at returned
          cases returned
          exact .inl ⟨frame, met, .delivery waited isDelivery, found⟩
      | some decoded =>
          rw [isDelivery] at returned
          cases decoded with
          | none => cases returned
          | some fields =>
              obtain ⟨consumerTag, deliveryTag, redelivered, exchange, routingKey, _⟩ := fields
              dsimp only at returned
              cases copied : dupStrings consumerTag exchange routingKey allocs with
              | error failure rest =>
                  rw [copied] at returned
                  cases returned
              | ok granted rest =>
                  rw [copied] at returned
                  cases granted with
                  | false => cases returned
                  | true =>
                      obtain ⟨result, final, read, returned⟩ := bind_eq_ok.mp returned
                      cases result with
                      | ok message => cases returned
                      | error reply =>
                          cases returned
                          rcases amqpReadMessage_unexpected remains read with
                            ⟨offending, later, header, other, isOpen, found⟩ | ⟨_, relayed⟩ |
                              ⟨header, started, size, taken, relayed⟩
                          · refine .inl ⟨offending, later, .header waited ?_ header other isOpen,
                              found⟩
                            rw [isDelivery]
                            rfl
                          · exact .inr (.header waited relayed)
                          · exact .inr (.body waited taken relayed)

end Consuming

/-- The code of a library exception. -/
def libraryStatus? {α : Type} : Except RpcReply α → Option Status
  | .error (.libraryException status) => some status
  | _ => none

theorem libraryStatus?_eq_some {α : Type} {result : Except RpcReply α} {status : Status}
    (isStatus : libraryStatus? result = some status) :
    result = .error (.libraryException status) := by
  cases result with
  | ok value => cases isStatus
  | error reply =>
      cases reply with
      | libraryException code =>
          cases isStatus
          rfl
      | normal method => cases isStatus
      | serverException method => cases isStatus

/-- A body frame was read earlier and is in the queue, where a delivery should be. -/
def strayQueuedWorld : World :=
  endState (amqpQueueFrame ⟨amqpFrameBody, 1, .bodyFragment [17]⟩
    (tunedWorld
      { clock := []
        recvs := []
        sends := []
        recvPolls := []
        sendPolls := []
        closes := []
        links := []
        memory := fun _ => grantingMemory }))

/-- What the first wait of the call takes from the queue. -/
def strayTaken : EStateM.Result Stop World (Except Status Frame) :=
  amqpSimpleWaitFrameNoblock none 6 strayQueuedWorld

theorem strayTaken_isBody : ∃ frame, strayTaken = .ok (.ok frame) (endState strayTaken) ∧
    frame.channel = 1 := by
  have found : ((returned? strayTaken).bind Except.toOption).map Frame.channel = some 1 := by
    decide +kernel
  obtain ⟨frame, isFrame, channel⟩ := Option.map_eq_some_iff.mp found
  obtain ⟨result, returned, isOk⟩ := Option.bind_eq_some_iff.mp isFrame
  obtain ⟨after, returned⟩ := returned?_eq_some.mp returned
  refine ⟨frame, ?_, channel⟩
  cases result with
  | error status => cases isOk
  | ok other =>
      cases isOk
      rw [returned]
      rfl

/-- There is nothing else to wait for. -/
theorem not_relays_strayQueued : ¬ Relays none 6 strayQueuedWorld := by
  obtain ⟨frame, taken, channel⟩ := strayTaken_isBody
  have blocks : returned? (amqpSimpleWaitFrameOnChannel 1 6 (endState strayTaken)) |>.isNone := by
    decide +kernel
  have waits {delivery : Frame} {between after : World} {result : Except Status Frame}
      (isDelivery : strayTaken = .ok (.ok delivery) between)
      (waited : amqpSimpleWaitFrameOnChannel delivery.channel 6 between = .ok result after) :
      False := by
    rw [taken] at isDelivery
    cases isDelivery
    rw [channel] at waited
    rw [waited] at blocks
    cases blocks
  rintro (fails | ⟨isDelivery, waited⟩ | ⟨isDelivery, waited, _⟩)
  · cases taken.symm.trans fails
  · exact waits isDelivery waited
  · exact waits isDelivery waited

theorem amqpConsumeMessage_recovers_stray_body : ∃ frame met after,
    amqpConsumeMessage [] none 6 strayQueuedWorld =
        .ok (.error (.libraryException .unexpectedState)) after ∧
      Objects none 6 strayQueuedWorld frame met ∧ FoundNext frame after := by
  have refused : (returned? (amqpConsumeMessage [] none 6 strayQueuedWorld)).bind libraryStatus? =
      some .unexpectedState := by decide +kernel
  obtain ⟨result, returned, isStatus⟩ := Option.bind_eq_some_iff.mp refused
  obtain ⟨after, returned⟩ := returned?_eq_some.mp returned
  rw [libraryStatus?_eq_some isStatus] at returned
  have granted : Granted strayQueuedWorld := fun _ member => absurd member List.not_mem_nil
  obtain ⟨frame, met, objects, found⟩ :=
    (amqpConsumeMessage_recovers granted returned).resolve_right not_relays_strayQueued
  exact ⟨frame, met, after, returned, objects, found⟩

end RabbitmqC
