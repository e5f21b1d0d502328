import RabbitmqC.Tools.Common

/-!
# Consuming a number of messages

`do_consume` of `amqp-consume`, which hands each message to a child. With a limit it
counts the frames that it waits for between messages, and not the messages.
-/

set_option autoImplicit false

namespace RabbitmqC

open Effect

/-! ## The functions -/

/-- The parent's part of `pipeline`. -/
def pipeline : ToolCall Unit := do
  let tool ← get
  let current := tool.handlings.headD .smooth
  set { tool with current, handlings := tool.handlings.tail }
  match current.spawned with
  | .error call => throw (.errno call)
  | .ok () => do
      record .started
      match current.closed with
      | .error call => throw (.errno call)
      | .ok () => return

def finishPipeline : ToolCall Bool := do
  let tool ← get
  match tool.current.exit with
  | .error call => throw (.errno call)
  | .ok success => do
      record (.exited success)
      return success

def amqpBasicAck (deliveryTag : UInt64) : ToolCall (Except Status Unit) := do
  record (.acked deliveryTag)
  let tool ← get
  return tool.current.acked

/-- A turn of the loop of `do_consume` from the delivery on. That
`amqp_maybe_release_buffers` gives memory back is left out. -/
def consumeDelivery (noAck : Bool) (deliveryTag : UInt64) : ToolCall Unit := do
  pipeline
  copyBody
  if (← finishPipeline) && !noAck then
    dieAmqpError "basic.ack" (← amqpBasicAck deliveryTag)

def consumeTurn (noAck : Bool) : ToolCall Unit := do
  let frame ← dieAmqpError "waiting for header frame" (← nextFrame)
  match delivery? frame with
  | none => return
  | some none => throw (.fault .wrongObject)
  | some (some (_, deliveryTag, _)) => consumeDelivery noAck deliveryTag

/-- The loop. Every turn takes a frame. -/
def consumeLoop (noAck : Bool) (count : Int) : Nat → Int → ToolCall Unit
  | 0, _ => throw (.fault .outOfFuel)
  | fuel + 1, i =>
      if count < 0 ∨ i < count then do
        consumeTurn noAck
        consumeLoop noAck count fuel (i + 1)
      else
        return

/-- Which of the requests that `do_consume` starts with are granted. -/
structure ConsumeReplies where
  count : Bool
  prefetchCount : Bool
  consume : Bool

def amqpConsumeMaxPrefetchCount : Int := 65535

def dieRpc (doing : String) (granted : Bool) : ToolCall Unit :=
  if granted then return else throw (.rpcError doing)

/-- The limit is made the prefetch count. -/
def limitsPrefetch (count : Int) : Bool := 0 < count && count ≤ amqpConsumeMaxPrefetchCount

/-- "the maximum number of messages to be received at a time must be less than the global
maximum number of messages." -/
def setsPrefetch (count prefetchCount : Int) : Bool :=
  0 < prefetchCount && prefetchCount ≤ amqpConsumeMaxPrefetchCount &&
    !(limitsPrefetch count && count ≤ prefetchCount)

/-- `amqp_basic_qos` with `die_rpc`. -/
def requestQos (prefetchCount : Int) (granted : Bool) : ToolCall Unit := do
  record (.qos prefetchCount)
  dieRpc "basic.qos" granted

/-- What `do_consume` requests before its loop. -/
def requestConsume (replies : ConsumeReplies) (noAck : Bool) (count prefetchCount : Int) :
    ToolCall Unit := do
  if limitsPrefetch count then requestQos count replies.count
  if setsPrefetch count prefetchCount then requestQos prefetchCount replies.prefetchCount
  record (.consume noAck)
  dieRpc "basic.consume" replies.consume

def doConsume (replies : ConsumeReplies) (noAck : Bool) (count prefetchCount : Int) :
    ToolCall Unit := do
  requestConsume replies noAck count prefetchCount
  let tool ← get
  consumeLoop noAck count (tool.answers.length + 1) 0

/-! ## Streams -/

/-- Fragments that make up a body, the last of which completes it. -/
def FillsBody : Nat → List (List UInt8) → Prop
  | remaining, [] => remaining = 0
  | remaining, octets :: fragments =>
      remaining ≠ 0 ∧ octets.length ≤ remaining ∧ FillsBody (remaining - octets.length) fragments

def deliveryTag? (frame : Frame) : Option UInt64 :=
  match delivery? frame with
  | some (some (_, deliveryTag, _)) => some deliveryTag
  | _ => none

/-- The frames of a message, and how it is handled. -/
structure IncomingMessage where
  deliver : Frame
  header : Frame
  bodies : List Frame
  handling : Handling
  deliveryTag : UInt64
  size : Nat
  fragments : List (List UInt8)
  isDeliver : deliveryTag? deliver = some deliveryTag
  isHeader : header.bodySize? = some size
  areFragments : AreFragments bodies fragments
  fills : FillsBody size fragments

inductive StreamItem where
  | message (incoming : IncomingMessage)
  | other (frame : Frame) (isOther : delivery? frame = none)

namespace StreamItem

def frames : StreamItem → List Frame
  | .message incoming => incoming.deliver :: incoming.header :: incoming.bodies
  | .other frame _ => [frame]

def message? : StreamItem → Option IncomingMessage
  | .message incoming => some incoming
  | .other _ _ => none

end StreamItem

/-- The messages of a stream, in order. -/
def messages (stream : List StreamItem) : List IncomingMessage :=
  stream.filterMap StreamItem.message?

/-- A tool that is going to read a stream. -/
def consuming (stream : List StreamItem) : Tool where
  answers := (stream.flatMap StreamItem.frames).map .ok
  handlings := (messages stream).map IncomingMessage.handling
  current := .smooth
  trace := []

/-! ## Messages -/

/-- The answers of `write` that are left when all fragments are written. -/
def takesAll : List (Option Nat) → List (List UInt8) → Option (List (Option Nat))
  | writes, [] => some writes
  | writes, octets :: fragments =>
      (takes writes octets.length).2.bind fun rest => takesAll rest fragments

section Bodies

variable {tool : Tool} {fragments : List (List UInt8)} {rest : List (Except Status Frame)}

/-- How a body that is filled exactly is copied. -/
inductive BodyCopied (tool : Tool) (fragments : List (List UInt8))
    (rest : List (Except Status Frame)) : EStateM.Result Halt Tool Unit → Prop where
  | all {left : List (Option Nat)} {chunks : List (List UInt8)} :
      takesAll tool.current.writes fragments = some left →
      chunks.flatten = fragments.flatten →
      BodyCopied tool fragments rest (.ok () ({ tool with answers := rest }.writing left chunks))
  | failed {after : Tool} {chunks : List (List UInt8)} :
      takesAll tool.current.writes fragments = none →
      after.trace = tool.trace ++ chunks.map .wrote →
      BodyCopied tool fragments rest (.error (.errno "write") after)

/-- A fragment is copied, and then the others. -/
theorem BodyCopied.cons {octets : List UInt8} {answers : List (Except Status Frame)}
    {left : List (Option Nat)} {chunks : List (List UInt8)}
    {result : EStateM.Result Halt Tool Unit}
    (all : (takes tool.current.writes octets.length).2 = some left)
    (flatten : chunks.flatten = octets)
    (later : BodyCopied ({ tool with answers }.writing left chunks) fragments rest result) :
    BodyCopied tool (octets :: fragments) rest result := by
  have whole : takesAll tool.current.writes (octets :: fragments) = takesAll left fragments := by
    rw [takesAll, all]
    rfl
  cases later with
  | @all left' others takes flatten' =>
      have regrouped :
          { ({ tool with answers }.writing left chunks) with answers := rest }.writing left' others =
            { tool with answers := rest }.writing left' (chunks ++ others) := by
        simp [Tool.writing]
      rw [regrouped]
      refine .all (whole.trans takes) ?_
      rw [List.flatten_append, flatten, flatten']
      rfl
  | @failed after others none same =>
      refine @BodyCopied.failed _ _ _ _ (chunks ++ others) (whole.trans none) ?_
      rw [same]
      simp [Tool.writing]

theorem bodyCopied_copyBodyFrames {bodies : List Frame} {size fuel : Nat}
    (areFragments : AreFragments bodies fragments) (fills : FillsBody size fragments)
    (small : size < 2 ^ 64) (isNext : tool.answers = bodies.map .ok ++ rest)
    (enough : bodies.length < fuel) :
    BodyCopied tool fragments rest (copyBodyFrames fuel size tool) := by
  induction fragments generalizing tool bodies size fuel with
  | nil =>
      obtain rfl : bodies = [] := by
        cases bodies with
        | nil => rfl
        | cons => cases areFragments
      obtain ⟨fuel, rfl⟩ := Nat.exists_eq_succ_of_ne_zero (Nat.ne_of_gt (Nat.zero_lt_of_lt enough))
      cases fills
      rw [copyBodyFrames_zero]
      have unchanged : { tool with answers := rest }.writing tool.current.writes [] = tool := by
        rw [← show tool.answers = rest from isNext]
        simp [Tool.writing]
      have copied : BodyCopied tool [] rest
          (.ok () ({ tool with answers := rest }.writing tool.current.writes [])) := .all rfl rfl
      rwa [unchanged] at copied
  | cons octets fragments ih =>
      obtain ⟨remain, fits, fills⟩ := fills
      cases bodies with
      | nil => cases areFragments
      | cons frame bodies =>
          obtain ⟨isFragment, areFragments⟩ := List.cons.inj areFragments
          obtain ⟨fuel, rfl⟩ := Nat.exists_eq_succ_of_ne_zero
            (Nat.ne_of_gt (Nat.zero_lt_of_lt enough))
          rw [copyBodyFrames_succ remain]
          have copied := @copied_copyBodyFrame tool size
          cases result : copyBodyFrame size tool with
          | error halt after =>
              rw [bind_of_error result]
              rw [result] at copied
              cases copied with
              | failed isNext' isFragment' none _ =>
                  cases isNext.symm.trans isNext'
                  cases isFragment.symm.trans isFragment'
                  refine .failed ?_ rfl
                  rw [takesAll, none]
                  rfl
              | stopped other _ => cases isFragment.symm.trans (other _ _ isNext)
          | ok next after =>
              rw [bind_of_ok result]
              rw [result] at copied
              cases copied with
              | @all _ _ _ left chunks isNext' isFragment' all flatten =>
                  cases isNext.symm.trans isNext'
                  cases isFragment.symm.trans isFragment'
                  rw [sizeSub_of_le fits small]
                  exact .cons all flatten (ih areFragments fills
                    (Nat.lt_of_le_of_lt (Nat.sub_le _ _) small) rfl
                    (Nat.lt_of_succ_lt_succ enough))

theorem bodyCopied_copyBody {header : Frame} {bodies : List Frame} {size : Nat}
    (isHeader : header.bodySize? = some size) (areFragments : AreFragments bodies fragments)
    (fills : FillsBody size fragments)
    (isNext : tool.answers = .ok header :: (bodies.map .ok ++ rest)) :
    BodyCopied tool fragments rest (copyBody tool) := by
  obtain ⟨small, starts⟩ := copyBody_of_header isNext isHeader
  rw [starts]
  let start : Tool := { tool with answers := bodies.map Except.ok ++ rest }
  have enough : bodies.length < start.answers.length + 1 := by
    simp only [start, List.length_append, List.length_map]
    omega
  have copied := @bodyCopied_copyBodyFrames start fragments rest bodies size _ areFragments fills
    small rfl enough
  show BodyCopied tool fragments rest (copyBodyFrames (start.answers.length + 1) size start)
  cases result : copyBodyFrames (start.answers.length + 1) size start with
  | ok _ after =>
      rw [result] at copied
      cases copied with
      | all takes flatten => exact .all takes flatten
  | error halt after =>
      rw [result] at copied
      cases copied with
      | failed none same => exact .failed none same

end Bodies

/-- A call for the message fails, which ends the tool. -/
def IncomingMessage.Fatal (noAck : Bool) (message : IncomingMessage) : Prop :=
  (∃ call, message.handling.spawned = .error call) ∨
  (∃ call, message.handling.closed = .error call) ∨
  takesAll message.handling.writes message.fragments = none ∨
  (∃ call, message.handling.exit = .error call) ∨
  (message.handling.exit = .ok true ∧ noAck = false ∧ ∃ status, message.handling.acked = .error status)

/-- What is done for a message: a child gets its body, and it is acknowledged if the child
succeeds. -/
def IncomingMessage.Handled (noAck : Bool) (message : IncomingMessage)
    (events : List ToolEvent) : Prop :=
  ∃ (chunks : List (List UInt8)) (success : Bool), chunks.flatten = message.fragments.flatten ∧
    events = .started :: (chunks.map .wrote ++ .exited success ::
      if success && !noAck then [.acked message.deliveryTag] else [])

def ToolEvent.tag? : ToolEvent → Option UInt64
  | acked deliveryTag => some deliveryTag
  | _ => none

/-- The tags that are acknowledged. -/
def tags (events : List ToolEvent) : List UInt64 := events.filterMap ToolEvent.tag?

/-- How many children are started. -/
def starts (events : List ToolEvent) : Nat := events.count .started

/-- At most one child is started, and no message but this is acknowledged then. -/
structure IncomingMessage.Touched (message : IncomingMessage) (events : List ToolEvent) :
    Prop where
  starts_le : starts events ≤ 1
  tags : (tags events).Sublist ([message.deliveryTag].take (starts events))

section Turns

variable {tool : Tool} {noAck : Bool} {message : IncomingMessage} {events : List ToolEvent}

@[simp] theorem starts_wrote (chunks : List (List UInt8)) :
    starts (chunks.map .wrote) = 0 := by
  unfold starts
  induction chunks with
  | nil => rfl
  | cons chunk chunks ih => simpa using ih

@[simp] theorem tags_wrote (chunks : List (List UInt8)) : tags (chunks.map .wrote) = [] := by
  unfold tags
  induction chunks with
  | nil => rfl
  | cons chunk chunks ih => simp [ToolEvent.tag?]

theorem starts_append (events later : List ToolEvent) :
    starts (events ++ later) = starts events + starts later :=
  List.count_append

theorem tags_append (events later : List ToolEvent) :
    tags (events ++ later) = tags events ++ tags later :=
  List.filterMap_append

theorem IncomingMessage.Handled.starts_eq (handled : message.Handled noAck events) :
    starts events = 1 := by
  obtain ⟨chunks, success, _, rfl⟩ := handled
  have ending : starts (.exited success ::
      if success && !noAck then [.acked message.deliveryTag] else []) = 0 := by
    split <;> rfl
  rw [← List.singleton_append, starts_append, starts_append, starts_wrote, ending]
  rfl

theorem IncomingMessage.Handled.touched (handled : message.Handled noAck events) :
    message.Touched events := by
  refine ⟨Nat.le_of_eq handled.starts_eq, ?_⟩
  rw [handled.starts_eq]
  obtain ⟨chunks, success, _, rfl⟩ := handled
  have ending : (tags (.exited success ::
      if success && !noAck then [.acked message.deliveryTag] else [])).Sublist
        [message.deliveryTag] := by
    split
    · exact List.Sublist.refl _
    · exact List.nil_sublist _
  rw [← List.singleton_append, tags_append, tags_append, tags_wrote]
  exact ending

/-- How the turn for a message ends. -/
inductive TurnEnds (noAck : Bool) (message : IncomingMessage) (tool : Tool)
    (rest : List (Except Status Frame)) (handlings : List Handling) :
    EStateM.Result Halt Tool Unit → Prop where
  | handled {after : Tool} {events : List ToolEvent} : ¬ message.Fatal noAck →
      after.answers = rest → after.handlings = handlings →
      after.trace = tool.trace ++ events → message.Handled noAck events →
      TurnEnds noAck message tool rest handlings (.ok () after)
  | broken {halt : Halt} {after : Tool} {events : List ToolEvent} : message.Fatal noAck →
      after.trace = tool.trace ++ events → message.Touched events →
      TurnEnds noAck message tool rest handlings (.error halt after)

/-- A child that has been started and given some of the body. -/
theorem IncomingMessage.touched_started (chunks : List (List UInt8)) :
    message.Touched (.started :: chunks.map .wrote) := by
  have split : ToolEvent.started :: chunks.map .wrote = [.started] ++ chunks.map .wrote := rfl
  constructor
  · rw [split, starts_append, starts_wrote]
    exact Nat.le_refl 1
  · rw [split, tags_append, tags_wrote]
    exact List.nil_sublist _

/-- A message whose child runs to its end, and whose acknowledgement is sent if there is one. -/
theorem IncomingMessage.not_fatal {left : List (Option Nat)} {success : Bool}
    (spawned : message.handling.spawned = .ok ()) (closed : message.handling.closed = .ok ())
    (takes : takesAll message.handling.writes message.fragments = some left)
    (exit : message.handling.exit = .ok success)
    (acked : success = true → noAck = false → ∀ status, message.handling.acked ≠ .error status) :
    ¬ message.Fatal noAck := by
  rintro (⟨call, fails⟩ | ⟨call, fails⟩ | none | ⟨call, fails⟩ |
    ⟨succeeds, notNoAck, status, fails⟩)
  · cases spawned.symm.trans fails
  · cases closed.symm.trans fails
  · cases takes.symm.trans none
  · cases exit.symm.trans fails
  · cases exit.symm.trans succeeds
    exact acked rfl notNoAck status fails

/-- The end of a turn, behind the body. -/
theorem turnEnds_finish {rest : List (Except Status Frame)} {handlings : List Handling}
    {left : List (Option Nat)} {chunks : List (List UInt8)} {written : Tool}
    (spawned : message.handling.spawned = .ok ()) (closed : message.handling.closed = .ok ())
    (takes : takesAll message.handling.writes message.fragments = some left)
    (flatten : chunks.flatten = message.fragments.flatten)
    (current : written.current = { message.handling with writes := left })
    (answers : written.answers = rest) (remain : written.handlings = handlings)
    (trace : written.trace = tool.trace ++ .started :: chunks.map .wrote) :
    TurnEnds noAck message tool rest handlings ((do
      if (← finishPipeline) && !noAck then
        dieAmqpError "basic.ack" (← amqpBasicAck message.deliveryTag) : ToolCall Unit)
          written) := by
  have exits : written.current.exit = message.handling.exit := by rw [current]
  cases exit : message.handling.exit with
  | error call =>
      have fails : finishPipeline written = .error (.errno call) written := by
        unfold finishPipeline
        simp only [bind_of_ok (get_run written), exits, exit]
        rfl
      rw [bind_of_error fails]
      exact .broken (.inr (.inr (.inr (.inl ⟨call, exit⟩)))) trace (IncomingMessage.touched_started chunks)
  | ok success =>
      let finished : Tool := { written with trace := written.trace ++ [.exited success] }
      have finishes : finishPipeline written = .ok success finished := by
        unfold finishPipeline
        simp only [bind_of_ok (get_run written), exits, exit]
        rfl
      rw [bind_of_ok finishes]
      cases acks : success && !noAck with
      | false =>
          have sound : ¬ message.Fatal noAck := by
            refine IncomingMessage.not_fatal spawned closed takes exit fun succeeds notNoAck => ?_
            rw [succeeds, notNoAck] at acks
            cases acks
          refine .handled sound answers remain ?_ ⟨chunks, success, flatten, rfl⟩
          rw [acks]
          show written.trace ++ [.exited success] = _
          rw [trace, List.append_assoc]
          rfl
      | true =>
          obtain ⟨rfl, notNoAck⟩ : success = true ∧ noAck = false := by simpa using acks
          let asked : Tool :=
            { finished with trace := finished.trace ++ [.acked message.deliveryTag] }
          have acked : asked.current.acked = message.handling.acked := by
            show written.current.acked = _
            rw [current]
          have events : asked.trace = tool.trace ++ .started :: (chunks.map .wrote ++
              .exited true :: [.acked message.deliveryTag]) := by
            show written.trace ++ [.exited true] ++ [.acked message.deliveryTag] = _
            rw [trace]
            simp
          have asks : amqpBasicAck message.deliveryTag finished =
              .ok message.handling.acked asked := by
            rw [← acked]
            rfl
          have onwards : (do
              if true then
                dieAmqpError "basic.ack" (← amqpBasicAck message.deliveryTag) : ToolCall Unit)
                  finished = dieAmqpError "basic.ack" message.handling.acked asked :=
            bind_of_ok asks
          have handled : message.Handled noAck (.started :: (chunks.map .wrote ++
              .exited true :: [.acked message.deliveryTag])) :=
            ⟨chunks, true, flatten, by rw [acks]; rfl⟩
          rw [onwards]
          cases outcome : message.handling.acked with
          | error status =>
              exact .broken (.inr (.inr (.inr (.inr ⟨exit, notNoAck, status, outcome⟩)))) events
                handled.touched
          | ok _ =>
              have sound : ¬ message.Fatal noAck := by
                refine IncomingMessage.not_fatal spawned closed takes exit fun _ _ status fails => ?_
                cases outcome.symm.trans fails
              exact .handled sound answers remain events handled

theorem turnEnds_consumeDelivery {rest : List (Except Status Frame)} {handlings : List Handling}
    (isNext : tool.answers = .ok message.header :: (message.bodies.map .ok ++ rest))
    (handling : tool.handlings = message.handling :: handlings) :
    TurnEnds noAck message tool rest handlings
      (consumeDelivery noAck message.deliveryTag tool) := by
  cases spawned : message.handling.spawned with
  | error call =>
      let after : Tool := { tool with current := message.handling, handlings }
      have fails : pipeline tool = .error (.errno call) after := by
        unfold pipeline
        simp only [bind_of_ok (get_run tool), handling, List.headD_cons, List.tail_cons,
          bind_of_ok (set_run _ tool), spawned]
        rfl
      have dies : consumeDelivery noAck message.deliveryTag tool = .error (.errno call) after :=
        bind_of_error fails
      rw [dies]
      exact @TurnEnds.broken _ _ _ _ _ _ after [] (.inl ⟨call, spawned⟩)
        (List.append_nil _).symm ⟨Nat.zero_le _, List.nil_sublist _⟩
  | ok _ =>
      let begun : Tool :=
        { tool with
          current := message.handling
          handlings
          trace := tool.trace ++ [.started] }
      have spawns : pipeline tool =
          match message.handling.closed with
          | .error call => .error (.errno call) begun
          | .ok () => .ok () begun := by
        unfold pipeline
        simp only [bind_of_ok (get_run tool), handling, List.headD_cons, List.tail_cons,
          bind_of_ok (set_run _ tool), spawned]
        cases message.handling.closed <;> rfl
      cases closed : message.handling.closed with
      | error call =>
          rw [closed] at spawns
          have dies : consumeDelivery noAck message.deliveryTag tool =
              .error (.errno call) begun := bind_of_error spawns
          rw [dies]
          exact .broken (.inr (.inl ⟨call, closed⟩)) rfl (IncomingMessage.touched_started [])
      | ok _ =>
      rw [closed] at spawns
      have copied := @bodyCopied_copyBody begun message.fragments rest _ _ _ message.isHeader
        message.areFragments message.fills isNext
      have onwards : consumeDelivery noAck message.deliveryTag tool = (do
          copyBody
          if (← finishPipeline) && !noAck then
            dieAmqpError "basic.ack" (← amqpBasicAck message.deliveryTag) : ToolCall Unit) begun :=
        bind_of_ok spawns
      rw [onwards]
      cases result : copyBody begun with
      | error halt after =>
          rw [bind_of_error result]
          rw [result] at copied
          cases copied with
          | @failed _ chunks none same =>
              refine .broken (.inr (.inr (.inl none))) ?_ (IncomingMessage.touched_started chunks)
              rw [same]
              exact List.append_assoc ..
      | ok _ written =>
          rw [bind_of_ok result]
          rw [result] at copied
          cases copied with
          | @all left chunks takes flatten =>
              exact turnEnds_finish spawned closed takes flatten rfl rfl rfl
                (by simp [Tool.writing, begun])

theorem consumeTurn_other {frame : Frame} {rest : List (Except Status Frame)}
    (isOther : delivery? frame = none) (isNext : tool.answers = .ok frame :: rest) :
    consumeTurn noAck tool = .ok () { tool with answers := rest } := by
  refine (bind_of_ok (nextFrame_run isNext)).trans ((bind_of_ok rfl).trans ?_)
  rw [isOther]
  rfl

theorem consumeTurn_message {rest : List (Except Status Frame)}
    (isNext : tool.answers = .ok message.deliver :: rest) : consumeTurn noAck tool =
      consumeDelivery noAck message.deliveryTag { tool with answers := rest } := by
  refine (bind_of_ok (nextFrame_run isNext)).trans ((bind_of_ok rfl).trans ?_)
  have isTag := message.isDeliver
  unfold deliveryTag? at isTag
  cases isDelivery : delivery? message.deliver with
  | none =>
      rw [isDelivery] at isTag
      cases isTag
  | some decoded =>
      cases decoded with
      | none =>
          rw [isDelivery] at isTag
          cases isTag
      | some fields =>
          rw [isDelivery] at isTag
          rw [← Option.some.inj isTag]
          rfl

end Turns

/-! ## Runs -/

def StreamItem.Fatal (noAck : Bool) : StreamItem → Prop
  | .message incoming => incoming.Fatal noAck
  | .other _ _ => False

/-- How the loop ends when `limit` turns are left. -/
inductive LoopEnds (noAck : Bool) (limit : Nat) (stream : List StreamItem) (tool : Tool) :
    EStateM.Result Halt Tool Unit → Prop where
  | returned {after : Tool} {blocks : List (List ToolEvent)} : limit ≤ stream.length →
      (∀ item ∈ stream.take limit, ¬ item.Fatal noAck) →
      after.trace = tool.trace ++ blocks.flatten →
      List.Forall₂ (fun message => message.Handled noAck) (messages (stream.take limit)) blocks →
      LoopEnds noAck limit stream tool (.ok () after)
  | halted {halt : Halt} {after : Tool} {done later : List IncomingMessage}
      {blocks : List (List ToolEvent)} {last : List ToolEvent} :
      (stream.length < limit ∨ ∃ item ∈ stream.take limit, item.Fatal noAck) →
      messages stream = done ++ later →
      List.Forall₂ (fun message => message.Handled noAck) done blocks →
      after.trace = tool.trace ++ (blocks.flatten ++ last) →
      (last = [] ∨ ∃ message rest, later = message :: rest ∧ message.Touched last) →
      LoopEnds noAck limit stream tool (.error halt after)

section Runs

variable {noAck : Bool} {limit fuel : Nat} {stream : List StreamItem} {tool : Tool}
  {result : EStateM.Result Halt Tool Unit} {count i : Int}

/-- A frame that is skipped takes a turn. -/
theorem LoopEnds.other {frame : Frame} {isOther : delivery? frame = none}
    {rest : List (Except Status Frame)}
    (ends : LoopEnds noAck limit stream { tool with answers := rest } result) :
    LoopEnds noAck (limit + 1) (.other frame isOther :: stream) tool result := by
  cases ends with
  | returned enough sound trace handled =>
      refine .returned (Nat.succ_le_succ enough) (fun item member => ?_) trace handled
      cases List.mem_cons.mp member with
      | inl isFirst =>
          rw [isFirst]
          exact id
      | inr later => exact sound item later
  | halted reason split handled trace last =>
      refine .halted ?_ split handled trace last
      rcases reason with short | ⟨item, member, fatal⟩
      · exact .inl (Nat.succ_lt_succ short)
      · exact .inr ⟨item, List.mem_cons_of_mem _ member, fatal⟩

/-- A message that is handled. -/
theorem LoopEnds.message {message : IncomingMessage} {middle : Tool} {events : List ToolEvent}
    (sound : ¬ message.Fatal noAck) (trace : middle.trace = tool.trace ++ events)
    (handled : message.Handled noAck events) (ends : LoopEnds noAck limit stream middle result) :
    LoopEnds noAck (limit + 1) (.message message :: stream) tool result := by
  cases ends with
  | @returned after blocks enough others trace' handled' =>
      refine @LoopEnds.returned _ _ _ _ _ (events :: blocks) (Nat.succ_le_succ enough)
        (fun item member => ?_) ?_ (.cons handled handled')
      · cases List.mem_cons.mp member with
        | inl isFirst =>
            rw [isFirst]
            exact sound
        | inr later => exact others item later
      · rw [trace', trace, List.append_assoc]
        rfl
  | @halted halt after done later blocks last reason split handled' trace' ending =>
      refine @LoopEnds.halted _ _ _ _ _ _ (message :: done) later (events :: blocks) last ?_
        (congrArg (message :: ·) split) (.cons handled handled') ?_ ending
      · rcases reason with short | ⟨item, member, fatal⟩
        · exact .inl (Nat.succ_lt_succ short)
        · exact .inr ⟨item, List.mem_cons_of_mem _ member, fatal⟩
      · rw [trace', trace, List.append_assoc, List.flatten_cons, List.append_assoc]

theorem loopEnds_zero (limited : i + (0 : Nat) = count) (nonneg : 0 ≤ count) :
    LoopEnds noAck 0 stream tool (consumeLoop noAck count (fuel + 1) i tool) := by
  have done : ¬ (count < 0 ∨ i < count) := by omega
  have returns : consumeLoop noAck count (fuel + 1) i tool = .ok () tool :=
    congrFun (if_neg done) tool
  rw [returns]
  exact @LoopEnds.returned _ _ _ _ _ [] (Nat.zero_le _) (fun item member => nomatch member)
    (List.append_nil _).symm .nil

theorem consumeLoop_succ (limited : i + (limit + 1 : Nat) = count) :
    consumeLoop noAck count (fuel + 1) i = (do
      consumeTurn noAck
      consumeLoop noAck count fuel (i + 1)) :=
  if_pos (by omega)

theorem loopEnds_consumeLoop (limited : i + limit = count) (nonneg : 0 ≤ count)
    (answers : tool.answers = (stream.flatMap StreamItem.frames).map .ok)
    (handlings : tool.handlings = (messages stream).map IncomingMessage.handling)
    (enough : stream.length < fuel) :
    LoopEnds noAck limit stream tool (consumeLoop noAck count fuel i tool) := by
  induction stream generalizing limit tool fuel i with
  | nil =>
      obtain ⟨fuel, rfl⟩ := Nat.exists_eq_succ_of_ne_zero (Nat.ne_of_gt (Nat.zero_lt_of_lt enough))
      cases limit with
      | zero => exact loopEnds_zero limited nonneg
      | succ limit =>
          rw [consumeLoop_succ limited]
          have waits : consumeTurn noAck tool = .error .waiting tool :=
            bind_of_error (nextFrame_nil answers)
          rw [bind_of_error waits]
          exact @LoopEnds.halted _ _ _ _ _ _ [] [] [] [] (.inl (Nat.zero_lt_succ _)) rfl .nil
            (List.append_nil _).symm (.inl rfl)
  | cons item stream ih =>
      obtain ⟨fuel, rfl⟩ := Nat.exists_eq_succ_of_ne_zero (Nat.ne_of_gt (Nat.zero_lt_of_lt enough))
      cases limit with
      | zero => exact loopEnds_zero limited nonneg
      | succ limit =>
          rw [consumeLoop_succ limited]
          have limited' : i + 1 + limit = count := by omega
          cases item with
          | other frame isOther =>
              let middle : Tool :=
                { tool with answers := (stream.flatMap StreamItem.frames).map Except.ok }
              have turn : consumeTurn noAck tool = .ok () middle :=
                consumeTurn_other isOther answers
              have ends := @ih limit fuel middle (i + 1) limited' rfl handlings
                (Nat.lt_of_succ_lt_succ enough)
              rw [bind_of_ok turn]
              exact ends.other
          | message message =>
              let rest : List (Except Status Frame) :=
                (stream.flatMap StreamItem.frames).map Except.ok
              let opened : Tool :=
                { tool with
                  answers := .ok message.header :: (message.bodies.map Except.ok ++ rest) }
              have isNext : tool.answers = .ok message.deliver :: opened.answers := by
                simpa [StreamItem.frames, opened, rest] using answers
              have turn : consumeTurn noAck tool =
                  consumeDelivery noAck message.deliveryTag opened := consumeTurn_message isNext
              have ends := @turnEnds_consumeDelivery opened noAck message rest _ rfl handlings
              rw [← turn] at ends
              cases result : consumeTurn noAck tool with
              | ok _ after =>
                  rw [bind_of_ok result]
                  rw [result] at ends
                  cases ends with
                  | handled sound answers handlings trace handled =>
                      exact (@ih limit fuel after (i + 1) limited' answers handlings
                        (Nat.lt_of_succ_lt_succ enough)).message sound trace handled
              | error halt after =>
                  rw [bind_of_error result]
                  rw [result] at ends
                  cases ends with
                  | @broken _ _ events fatal trace touched =>
                      exact @LoopEnds.halted _ _ _ _ _ _ [] (message :: messages stream) [] events
                        (.inr ⟨_, List.mem_cons_self, fatal⟩) rfl .nil trace
                        (.inr ⟨message, _, rfl, touched⟩)

/-- Every item has a frame. -/
theorem length_le_frames (stream : List StreamItem) :
    stream.length ≤ (stream.flatMap StreamItem.frames).length := by
  induction stream with
  | nil => exact Nat.le_refl _
  | cons item stream ih =>
      have atLeast : 1 ≤ item.frames.length := by
        cases item <;> simp [StreamItem.frames]
      rw [List.flatMap_cons, List.length_append, List.length_cons]
      omega

end Runs

/-! ## Requests -/

/-- All that is requested is granted. -/
def ConsumeReplies.Granted (replies : ConsumeReplies) (count prefetchCount : Int) : Prop :=
  (limitsPrefetch count = true → replies.count = true) ∧
  (setsPrefetch count prefetchCount = true → replies.prefetchCount = true) ∧
  replies.consume = true

/-- What is requested before the first message. -/
def requests (noAck : Bool) (count prefetchCount : Int) : List ToolEvent :=
  (if limitsPrefetch count then [.qos count] else []) ++
  (if setsPrefetch count prefetchCount then [.qos prefetchCount] else []) ++ [.consume noAck]

section Requests

variable {replies : ConsumeReplies} {noAck : Bool} {count prefetchCount : Int} {tool : Tool}

/-- Requests do nothing for messages. -/
def Idle (events : List ToolEvent) : Prop := starts events = 0 ∧ tags events = []

theorem Idle.starts_append {events : List ToolEvent} (idle : Idle events)
    (later : List ToolEvent) : starts (events ++ later) = starts later := by
  rw [RabbitmqC.starts_append, idle.1, Nat.zero_add]

theorem Idle.tags_append {events : List ToolEvent} (idle : Idle events)
    (later : List ToolEvent) : tags (events ++ later) = tags later := by
  rw [RabbitmqC.tags_append, idle.2, List.nil_append]

theorem idle_requests : Idle (requests noAck count prefetchCount) := by
  unfold requests
  constructor
  · split <;> split <;> rfl
  · split <;> split <;> rfl

/-- A request, after which the tool goes on or ends. -/
inductive Requested (events : List ToolEvent) (granted : Prop) (tool : Tool) :
    EStateM.Result Halt Tool Unit → Prop where
  | granted : granted →
      Requested events granted tool (.ok () { tool with trace := tool.trace ++ events })
  | refused {halt : Halt} {after : Tool} {some : List ToolEvent} : ¬ granted → Idle some →
      after.trace = tool.trace ++ some → Requested events granted tool (.error halt after)

/-- Requests one after the other. -/
theorem Requested.bind {events later : List ToolEvent} {first second : Prop}
    {run next : ToolCall Unit} (idle : Idle events)
    (requested : Requested events first tool (run tool))
    (then_ : ∀ tool, Requested later second tool (next tool)) :
    Requested (events ++ later) (first ∧ second) tool ((run >>= fun _ => next) tool) := by
  cases result : run tool with
  | error halt after =>
      rw [bind_of_error result]
      rw [result] at requested
      cases requested with
      | refused refuses idle trace => exact .refused (fun both => refuses both.1) idle trace
  | ok _ middle =>
      rw [bind_of_ok result]
      rw [result] at requested
      cases requested with
      | granted grants =>
          have onwards := then_ { tool with trace := tool.trace ++ events }
          cases result' : next { tool with trace := tool.trace ++ events } with
          | error halt after =>
              rw [result'] at onwards
              cases onwards with
              | @refused _ _ some refuses idle' trace =>
                  refine @Requested.refused _ _ _ _ _ (events ++ some)
                    (fun both => refuses both.2) ⟨?_, ?_⟩ ?_
                  · rw [starts_append, idle.1, idle'.1]
                  · rw [tags_append, idle.2, idle'.2]
                    rfl
                  · rw [trace, List.append_assoc]
          | ok _ after =>
              rw [result'] at onwards
              cases onwards with
              | granted grants' =>
                  rw [List.append_assoc]
                  exact .granted ⟨grants, grants'⟩

theorem requested_ite (condition granted : Bool) : Requested
    (if condition then [.qos prefetchCount] else []) (condition = true → granted = true) tool
    ((if condition then requestQos prefetchCount granted else return) tool) := by
  cases condition with
  | false =>
      have unchanged : { tool with trace := tool.trace ++ [] } = tool := by rw [List.append_nil]
      have requested : Requested [] (false = true → granted = true) tool
          (.ok () { tool with trace := tool.trace ++ [] }) := .granted fun absurdity => nomatch absurdity
      rwa [unchanged] at requested
  | true =>
      cases granted with
      | true => exact .granted fun _ => rfl
      | false => exact @Requested.refused _ _ _ _ _ [.qos prefetchCount] (by simp) ⟨rfl, rfl⟩ rfl

theorem requested_requestConsume : Requested (requests noAck count prefetchCount)
    (replies.Granted count prefetchCount) tool
    (requestConsume replies noAck count prefetchCount tool) := by
  have consumes (tool : Tool) : Requested [.consume noAck] (replies.consume = true) tool ((do
      record (.consume noAck)
      dieRpc "basic.consume" replies.consume : ToolCall Unit) tool) := by
    cases granted : replies.consume with
    | true => exact .granted rfl
    | false => exact @Requested.refused _ _ _ _ _ [.consume noAck] (by simp) ⟨rfl, rfl⟩ rfl
  have split : requestConsume replies noAck count prefetchCount =
      ((if limitsPrefetch count then requestQos count replies.count else return) >>= fun _ =>
        (if setsPrefetch count prefetchCount then requestQos prefetchCount replies.prefetchCount
          else return) >>= fun _ => do
            record (.consume noAck)
            dieRpc "basic.consume" replies.consume) := by
    unfold requestConsume
    cases limitsPrefetch count <;> cases setsPrefetch count prefetchCount <;> rfl
  have idle (condition : Bool) (event : Int) : Idle (if condition then [.qos event] else []) := by
    cases condition <;> exact ⟨rfl, rfl⟩
  rw [split, requests, List.append_assoc]
  refine Requested.bind (idle _ _) (requested_ite _ _) fun tool => ?_
  exact Requested.bind (idle _ _) (requested_ite _ _) consumes

end Requests

/-! ## The first messages -/

section Blocks

variable {noAck : Bool} {done later : List IncomingMessage} {blocks : List (List ToolEvent)}
  {last : List ToolEvent}

theorem starts_blocks
    (handled : List.Forall₂ (fun message => message.Handled noAck) done blocks) :
    starts blocks.flatten = done.length := by
  induction handled with
  | nil => rfl
  | cons first _ ih =>
      rw [List.flatten_cons, starts_append, first.starts_eq, ih, List.length_cons, Nat.add_comm]

theorem tags_blocks
    (handled : List.Forall₂ (fun message => message.Handled noAck) done blocks) :
    (tags blocks.flatten).Sublist (done.map IncomingMessage.deliveryTag) := by
  induction handled with
  | nil => exact List.nil_sublist _
  | @cons message events done blocks first _ ih =>
      have own := first.touched.tags
      rw [first.starts_eq] at own
      rw [List.flatten_cons, tags_append]
      exact own.append ih

/-- Only messages whose child has been started are acknowledged, each once at most. -/
theorem tags_sublist
    (handled : List.Forall₂ (fun message => message.Handled noAck) done blocks)
    (ending : last = [] ∨ ∃ message rest, later = message :: rest ∧ message.Touched last) :
    (tags (blocks.flatten ++ last)).Sublist
      (((done ++ later).take (starts (blocks.flatten ++ last))).map
        IncomingMessage.deliveryTag) := by
  rw [starts_append, starts_blocks handled, List.take_length_add_append, List.map_append,
    tags_append]
  refine (tags_blocks handled).append ?_
  rcases ending with rfl | ⟨message, rest, rfl, touched⟩
  · exact List.nil_sublist _
  · refine touched.tags.trans ?_
    cases few : starts last with
    | zero => exact List.nil_sublist _
    | succ more =>
        cases more with
        | zero => exact List.Sublist.refl _
        | succ more =>
            have bounded := touched.starts_le
            omega

end Blocks

/-- When `do_consume` returns it has handled the first messages of the stream, as many as it was
asked for and nothing else. However it ends, it has acknowledged no more than the messages it
has started a child for, each once at most. -/
structure ConsumesFirst (replies : ConsumeReplies) (noAck : Bool) (count : Nat)
    (prefetchCount : Int) (stream : List StreamItem) : Prop where
  returned : ∀ after,
    doConsume replies noAck count prefetchCount (consuming stream) = .ok () after →
      count ≤ (messages stream).length ∧ ∃ blocks,
        after.trace = requests noAck count prefetchCount ++ blocks.flatten ∧
        List.Forall₂ (fun message => message.Handled noAck) ((messages stream).take count) blocks
  acknowledged : ∀ trace,
    trace = (endState (doConsume replies noAck count prefetchCount (consuming stream))).trace →
      (tags trace).Sublist
        (((messages stream).take (starts trace)).map IncomingMessage.deliveryTag)

section First

variable {replies : ConsumeReplies} {noAck : Bool} {count : Nat} {prefetchCount : Int}
  {stream : List StreamItem}

/-- How `do_consume` ends. -/
theorem doConsume_ends :
    (¬ replies.Granted count prefetchCount ∧ ∃ halt after,
      doConsume replies noAck count prefetchCount (consuming stream) = .error halt after ∧
        Idle after.trace) ∨
    (replies.Granted count prefetchCount ∧
      LoopEnds noAck count stream
        { consuming stream with trace := requests noAck count prefetchCount }
        (doConsume replies noAck count prefetchCount (consuming stream))) := by
  have requested := @requested_requestConsume replies noAck count prefetchCount (consuming stream)
  cases result : requestConsume replies noAck count prefetchCount (consuming stream) with
  | error halt after =>
      rw [result] at requested
      cases requested with
      | refused refuses idle trace =>
          exact .inl ⟨refuses, halt, after, bind_of_error result, trace ▸ idle⟩
  | ok _ after =>
      rw [result] at requested
      cases requested with
      | granted grants =>
          have onwards : doConsume replies noAck count prefetchCount (consuming stream) =
              consumeLoop noAck count ((consuming stream).answers.length + 1) 0
                { consuming stream with trace := requests noAck count prefetchCount } :=
            bind_of_ok result
          have enough : stream.length < (consuming stream).answers.length + 1 := by
            have bounded := length_le_frames stream
            simp only [consuming, List.length_map]
            omega
          refine .inr ⟨grants, ?_⟩
          rw [onwards]
          exact loopEnds_consumeLoop (Int.zero_add _) (Int.natCast_nonneg count) rfl rfl enough

theorem messages_take_append (count : Nat) (stream : List StreamItem) :
    messages stream = messages (stream.take count) ++ messages (stream.drop count) := by
  rw [messages, messages, messages, ← List.filterMap_append, List.take_append_drop]

/-- The messages among some items are fewer if one of these is none. -/
theorem length_messages_lt {items : List StreamItem} {item : StreamItem} (member : item ∈ items)
    (isOther : item.message? = none) : (messages items).length < items.length :=
  List.length_filterMap_lt_length_iff_exists.mpr ⟨item, member, isOther⟩

theorem length_messages_eq {items : List StreamItem}
    (all : ∀ item ∈ items, item.message?.isSome = true) :
    (messages items).length = items.length :=
  List.filterMap_length_eq_length.mpr all

/-- However `do_consume` ends, it has acknowledged no other messages than those it has started a
child for. -/
theorem tags_doConsume {result : EStateM.Result Halt Tool Unit}
    (runs : doConsume replies noAck count prefetchCount (consuming stream) = result) :
    (tags (endState result).trace).Sublist
      (((messages stream).take (starts (endState result).trace)).map
        IncomingMessage.deliveryTag) := by
  rcases @doConsume_ends replies noAck count prefetchCount stream with
    ⟨_, halt, last, dies, idle⟩ | ⟨_, ends⟩
  · rw [← runs, dies]
    show (tags last.trace).Sublist _
    rw [idle.2]
    exact List.nil_sublist _
  · rw [runs] at ends
    cases ends with
    | @returned after blocks _ _ trace handled =>
        show (tags after.trace).Sublist
          (((messages stream).take (starts after.trace)).map IncomingMessage.deliveryTag)
        have acknowledged := @tags_sublist noAck _ (messages (stream.drop count)) blocks []
          handled (.inl rfl)
        rw [← messages_take_append, List.append_nil] at acknowledged
        rwa [trace, idle_requests.starts_append, idle_requests.tags_append]
    | @halted halt after _ _ _ _ _ split handled trace ending =>
        show (tags after.trace).Sublist
          (((messages stream).take (starts after.trace)).map IncomingMessage.deliveryTag)
        have acknowledged := tags_sublist handled ending
        rwa [trace, idle_requests.starts_append, idle_requests.tags_append, split]

end First

/-- The first messages are handled unless a frame between them is skipped. -/
theorem consumesFirst_iff (replies : ConsumeReplies) (noAck : Bool) (count : Nat)
    (prefetchCount : Int) (stream : List StreamItem) :
    ConsumesFirst replies noAck count prefetchCount stream ↔
      ¬ replies.Granted count prefetchCount ∨ stream.length < count ∨
      (∃ item ∈ stream.take count, item.Fatal noAck) ∨
      ∀ item ∈ stream.take count, item.message?.isSome = true := by
  have ends := @doConsume_ends replies noAck count prefetchCount stream
  constructor
  · intro consumes
    by_cases granted : replies.Granted count prefetchCount
    · refine .inr ?_
      replace ends := ends.resolve_left fun refused => refused.1 granted
      cases result : doConsume replies noAck count prefetchCount (consuming stream) with
      | error halt after =>
          rw [result] at ends
          cases ends.2 with
          | halted reason => exact reason.imp_right .inl
      | ok _ after =>
          rw [result] at ends
          cases ends.2 with
          | returned enough _ trace handled =>
              obtain ⟨many, blocks, trace', handled'⟩ := consumes.returned after result
              refine .inr (.inr fun item member => ?_)
              cases isMessage : item.message? with
              | some => rfl
              | none =>
                  have fewer := length_messages_lt member isMessage
                  have same := congrArg starts (trace.symm.trans trace')
                  rw [starts_append, starts_append, starts_blocks handled,
                    starts_blocks handled'] at same
                  have lengths := Nat.add_left_cancel same
                  rw [List.length_take_of_le many] at lengths
                  have bounded := List.length_take_le count stream
                  omega
    · exact .inl granted
  · intro condition
    constructor
    · intro after returns
      rcases ends with ⟨_, halt, last, dies, _⟩ | ⟨granted, ends⟩
      · cases dies.symm.trans returns
      · rw [returns] at ends
        cases ends with
        | returned enough sound trace handled =>
            have all : ∀ item ∈ stream.take count, item.message?.isSome = true := by
              rcases condition with refused | short | ⟨item, member, fatal⟩ | all
              · exact absurd granted refused
              · exact absurd short (Nat.not_lt.mpr enough)
              · exact absurd fatal (sound item member)
              · exact all
            have isCount : (messages (stream.take count)).length = count :=
              (length_messages_eq all).trans (List.length_take_of_le enough)
            have split := messages_take_append count stream
            refine ⟨?_, _, trace, ?_⟩
            · rw [split, List.length_append, isCount]
              exact Nat.le_add_right _ _
            · rwa [split, List.take_left' isCount]
    · rintro _ rfl
      exact tags_doConsume rfl

/-- `connection.blocked`. -/
def blockedFrame : Frame := ⟨amqpFrameMethod, 0, .method 0x000A003C none⟩

theorem delivery?_blockedFrame : delivery? blockedFrame = none := rfl

/-- A message without body. -/
def emptyMessage : IncomingMessage where
  deliver := ⟨amqpFrameMethod, 1,
    .method amqpBasicDeliverMethod (some ([], (7 : UInt64), ⟨[0], rfl⟩, [], [], ()))⟩
  header := ⟨amqpFrameHeader, 1, .properties amqpBasicClass 0 none ⟨0, 0⟩⟩
  bodies := []
  handling := .smooth
  deliveryTag := 7
  size := 0
  fragments := []
  isDeliver := rfl
  isHeader := rfl
  areFragments := rfl
  fills := rfl

/-- One message is asked for, and `connection.blocked` is taken for it. -/
theorem blocked_counts_as_message : ¬ ConsumesFirst ⟨true, true, true⟩ false 1 (-1)
    [.other blockedFrame delivery?_blockedFrame, .message emptyMessage] := by
  intro consumes
  obtain ⟨_, blocks, trace, handled⟩ := consumes.returned _ rfl
  have nothing : requests false (1 : Nat) (-1) = requests false (1 : Nat) (-1) ++ blocks.flatten :=
    trace
  have started := congrArg starts nothing
  rw [idle_requests.starts_append, idle_requests.1, starts_blocks handled] at started
  cases started

end RabbitmqC
