import RabbitmqC.Socket.Conservation
import RabbitmqC.Socket.SendDiscipline

/-!
# Remote procedure calls

`simple_rpc_inner` sends a request and waits for a reply, for a `channel.close` on
the same channel or for a `connection.close`. Other frames that arrive meanwhile
are queued.
-/

set_option autoImplicit false

namespace RabbitmqC

open Effect

/-! ## The model -/

/-- `amqp_method_t`. -/
structure Method where
  id : UInt32
  decoded : Option (MethodFields id)

/-- `amqp_rpc_reply_t`, by its `reply_type`. -/
inductive RpcReply where
  | normal (reply : Method)
  | libraryException (libraryError : Status)
  | serverException (reply : Method)

def amqpConnectionCloseMethod : UInt32 := 0x000A0032
def amqpChannelCloseMethod : UInt32 := 0x00140028

/-- The zero that ends a list is left out here; another one ends it earlier. -/
def amqpIdInReplyList (expected : UInt32) : List UInt32 → Bool
  | [] => false
  | id :: list =>
      if id = 0 then false else if id = expected then true else amqpIdInReplyList expected list

/-- `payload.method` of a frame of type `AMQP_FRAME_METHOD`. -/
def Frame.method? (frame : Frame) : Option Method :=
  if frame.frameType = amqpFrameMethod then
    match frame.payload with
    | .method id decoded => some ⟨id, decoded⟩
    | _ => none
  else
    none

/-- The result, if a frame is "something that directly affects us here". -/
def rpcReply? (channel : UInt16) (expectedReplyIds : List UInt32) (frame : Frame) :
    Option RpcReply :=
  match frame.method? with
  | none => none
  | some method =>
      if (frame.channel = channel ∧ (amqpIdInReplyList method.id expectedReplyIds = true ∨
            method.id = amqpChannelCloseMethod)) ∨
          (frame.channel = 0 ∧ method.id = amqpConnectionCloseMethod) then
        some (if amqpIdInReplyList method.id expectedReplyIds then .normal method
          else .serverException method)
      else
        none

/-- `simple_rpc_inner` from `retry` on. -/
def waitReply (channel : UInt16) (expectedReplyIds : List UInt32) (deadline : UInt64) :
    Nat → Call RpcReply
  | 0 => outOfFuel
  | fuel + 1 => do
      match ← waitFrameInner deadline fuel with
      | .error .timeout => do
          let _ ← amqpSocketClose
          return .libraryException .timeout
      | .error status => return .libraryException status
      | .ok frame =>
          match rpcReply? channel expectedReplyIds frame with
          | some reply => return reply
          | none => do
              match ← queueReceived frame with
              | .error status => return .libraryException status
              | .ok () => waitReply channel expectedReplyIds deadline fuel

def simpleRpcInner (channel : UInt16) (requestId : UInt32) (expectedReplyIds : List UInt32)
    (decodedRequestMethod : MethodFields requestId) (deadline : UInt64) (fuel : Nat) :
    Call RpcReply := do
  match ← amqpSendMethod channel requestId decodedRequestMethod fuel with
  | .error status => return .libraryException status
  | .ok () => waitReply channel expectedReplyIds deadline fuel

/-- `rpc_timeout` is a member of the connection that nothing else here uses. -/
def amqpSimpleRpc (rpcTimeout : Option Timeval) (channel : UInt16) (requestId : UInt32)
    (expectedReplyIds : List UInt32) (decodedRequestMethod : MethodFields requestId)
    (fuel : Nat) : Call RpcReply := do
  match ← amqpTimeFromNow rpcTimeout with
  | .error status => return .libraryException status
  | .ok deadline =>
      simpleRpcInner channel requestId expectedReplyIds decodedRequestMethod deadline fuel

/-! ## Replies -/

/-- The ids in front of the zero. -/
def listed (expectedReplyIds : List UInt32) : List UInt32 :=
  expectedReplyIds.takeWhile (· ≠ 0)

theorem amqpIdInReplyList_iff {expected : UInt32} {list : List UInt32} :
    amqpIdInReplyList expected list = true ↔ expected ∈ listed list := by
  induction list with
  | nil => simp [amqpIdInReplyList, listed]
  | cons id list ih =>
      unfold listed at ih ⊢
      rw [amqpIdInReplyList]
      by_cases zero : id = 0
      · simp [zero]
      · by_cases same : id = expected
        · simp [same, same ▸ zero]
        · simp [zero, same, ih, Ne.symm same]

/-- A method frame that closes the channel or the connection. -/
def Closes (channel : UInt16) (frame : Frame) (method : Method) : Prop :=
  frame.method? = some method ∧
    (frame.channel = channel ∧ method.id = amqpChannelCloseMethod ∨
      frame.channel = 0 ∧ method.id = amqpConnectionCloseMethod)

/-- A frame that an RPC on `channel` reports: a method frame on the channel with one of
the expected ids, or one that closes the channel or the connection. -/
def Selects (channel : UInt16) (expectedReplyIds : List UInt32) (frame : Frame)
    (method : Method) : Prop :=
  frame.method? = some method ∧ frame.channel = channel ∧ method.id ∈ listed expectedReplyIds ∨
    Closes channel frame method

section Selection

variable {channel : UInt16} {expectedReplyIds : List UInt32} {frame : Frame} {method : Method}

theorem rpcReply?_of_selects (selects : Selects channel expectedReplyIds frame method) :
    rpcReply? channel expectedReplyIds frame =
      some (if method.id ∈ listed expectedReplyIds then .normal method
        else .serverException method) := by
  have isMethod : frame.method? = some method := selects.elim And.left And.left
  unfold rpcReply?
  rw [isMethod]
  simp only [amqpIdInReplyList_iff]
  refine if_pos ?_
  rcases selects with ⟨_, own, expected⟩ | ⟨_, ⟨own, closes⟩ | ⟨zero, closes⟩⟩
  · exact .inl ⟨own, .inl expected⟩
  · exact .inl ⟨own, .inr closes⟩
  · exact .inr ⟨zero, closes⟩

theorem selects_of_rpcReply? {reply : RpcReply}
    (answered : rpcReply? channel expectedReplyIds frame = some reply) :
    ∃ method, Selects channel expectedReplyIds frame method := by
  unfold rpcReply? at answered
  cases isMethod : frame.method? with
  | none =>
      rw [isMethod] at answered
      cases answered
  | some method =>
      rw [isMethod] at answered
      simp only [amqpIdInReplyList_iff] at answered
      split at answered
      · rename_i affects
        rcases affects with ⟨own, expected | closes⟩ | ⟨zero, closes⟩
        · exact ⟨method, .inl ⟨isMethod, own, expected⟩⟩
        · exact ⟨method, .inr ⟨isMethod, .inl ⟨own, closes⟩⟩⟩
        · exact ⟨method, .inr ⟨isMethod, .inr ⟨zero, closes⟩⟩⟩
      · cases answered

end Selection

/-! ## The waiting phase -/

/-- Heartbeats left out: what `wait_frame_inner` returns of the decoded frames. -/
def withoutBeats (frames : List Frame) : List Frame :=
  frames.filter fun frame => frame.frameType != amqpFrameHeartbeat

@[simp] theorem withoutBeats_nil : withoutBeats [] = [] := rfl

@[simp] theorem withoutBeats_append (left right : List Frame) :
    withoutBeats (left ++ right) = withoutBeats left ++ withoutBeats right :=
  List.filter_append left right

theorem withoutBeats_of_beats {frames : List Frame}
    (beats : ∀ frame ∈ frames, frame.frameType = amqpFrameHeartbeat) :
    withoutBeats frames = [] := by
  refine List.filter_eq_nil_iff.mpr fun frame member => ?_
  simp [beats frame member]

theorem withoutBeats_singleton {frame : Frame} (other : frame.frameType ≠ amqpFrameHeartbeat) :
    withoutBeats [frame] = [frame] := by
  simp [withoutBeats, other]

/-- The frames that `wait_frame_inner` has returned between two worlds. -/
def returnedFrames (before after : World) : List Frame := withoutBeats (newFrames before after)

/-- Since `past` frames were decoded that an RPC on `channel` does not report, and put
behind `queued`; `extra` was decoded behind them. -/
structure Passed (granted : List Bool) (channel : UInt16) (expectedReplyIds : List UInt32)
    (past queued extra : List Frame) (world : World) : Prop where
  provided : Provided granted world
  frames : ∃ new kept, world.decoded = past ++ new ∧ withoutBeats new = kept ++ extra ∧
    world.queue.Represents (queued ++ kept) ∧
    ∀ frame ∈ kept, ∀ method, ¬ Selects channel expectedReplyIds frame method

/-- The frames that were passed over so far. -/
structure Skipped (granted : List Bool) (channel : UInt16) (expectedReplyIds : List UInt32)
    (past queued skipped extra : List Frame) (world : World) : Prop where
  provided : Provided granted world
  frames : ∃ new, world.decoded = past ++ new ∧ withoutBeats new = skipped ++ extra
  queue : world.queue.Represents (queued ++ skipped)
  others : ∀ frame ∈ skipped, ∀ method, ¬ Selects channel expectedReplyIds frame method

section Skipping

variable {granted : List Bool} {channel : UInt16} {expectedReplyIds : List UInt32}
  {past queued skipped extra : List Frame} {world : World}

theorem Skipped.passed
    (kept : Skipped granted channel expectedReplyIds past queued skipped extra world) :
    Passed granted channel expectedReplyIds past queued extra world := by
  obtain ⟨provided, ⟨new, decoded, isKept⟩, represents, others⟩ := kept
  exact ⟨provided, new, skipped, decoded, isKept, represents, others⟩

theorem Passed.toSkipped
    (passed : Passed granted channel expectedReplyIds past queued extra world) :
    ∃ skipped, Skipped granted channel expectedReplyIds past queued skipped extra world := by
  obtain ⟨provided, new, kept, decoded, isKept, represents, others⟩ := passed
  exact ⟨kept, provided, ⟨new, decoded, isKept⟩, represents, others⟩

theorem Skipped.returnedFrames {start : World}
    (kept : Skipped granted channel expectedReplyIds start.decoded queued skipped extra world) :
    returnedFrames start world = skipped ++ extra := by
  obtain ⟨_, ⟨new, decoded, isKept⟩, _, _⟩ := kept
  rw [RabbitmqC.returnedFrames, newFrames_eq decoded, isKept]

end Skipping

/-- How the waiting phase ends. With a library exception one frame may be lost, if there
was no memory for it. -/
def RpcEnds (granted : List Bool) (channel : UInt16) (expectedReplyIds : List UInt32)
    (past queued : List Frame) (reply : RpcReply) (world : World) : Prop :=
  match reply with
  | .libraryException _ => Passed granted channel expectedReplyIds past queued [] world ∨
      granted ≠ [] ∧ ∃ frame, (∀ method, ¬ Selects channel expectedReplyIds frame method) ∧
        Passed granted channel expectedReplyIds past queued [frame] world
  | .normal method => ∃ frame, Passed granted channel expectedReplyIds past queued [frame] world ∧
      Selects channel expectedReplyIds frame method ∧ method.id ∈ listed expectedReplyIds
  | .serverException method => ∃ frame,
      Passed granted channel expectedReplyIds past queued [frame] world ∧
      Selects channel expectedReplyIds frame method ∧ method.id ∉ listed expectedReplyIds

section Waiting

variable {granted : List Bool} {channel : UInt16} {expectedReplyIds : List UInt32}
  {past queued : List Frame} {deadline : UInt64} {fuel : Nat}

theorem Passed.start {world : World} (provided : Provided granted world)
    (represents : world.queue.Represents queued) :
    Passed granted channel expectedReplyIds world.decoded queued [] world :=
  ⟨provided, [], [], by simp, rfl, by simpa using represents, by simp⟩

/-- One turn of the loop decodes heartbeats and then a frame. -/
theorem waitFrameInner_skipped {skipped : List Frame} :
    Triple (Skipped granted channel expectedReplyIds past queued skipped [])
      (waitFrameInner deadline fuel)
      (fun result world => match result with
        | .ok frame => Skipped granted channel expectedReplyIds past queued skipped [frame] world
        | .error _ => Skipped granted channel expectedReplyIds past queued skipped [] world)
      (fun _ => Skipped granted channel expectedReplyIds past queued skipped []) := by
  rintro world ⟨provided, ⟨new, decoded, isKept⟩, represents, others⟩
  rw [List.append_nil] at isKept
  have beatsOnly : ∀ after, OnlyBeats granted (past ++ new) world.queue after →
      Skipped granted channel expectedReplyIds past queued skipped [] after := by
    rintro after ⟨provided, isQueue, beats, areBeats, decoded⟩
    refine ⟨provided, ⟨new ++ beats, ?_, ?_⟩, isQueue ▸ represents, others⟩
    · rw [decoded, List.append_assoc]
    · rw [withoutBeats_append, withoutBeats_of_beats areBeats, isKept]
  have start : OnlyBeats granted (past ++ new) world.queue world :=
    ⟨provided, rfl, [], by simp, by simpa using decoded⟩
  cases returned : waitFrameInner deadline fuel world with
  | error stop after => exact beatsOnly after (waitFrameInner_frames.error start returned)
  | ok result after =>
      have ends := waitFrameInner_frames.ok start returned
      cases result with
      | error status => exact beatsOnly after ends
      | ok frame =>
          obtain ⟨⟨provided, isQueue, beats, areBeats, decoded⟩, notBeat⟩ := ends
          refine ⟨provided, ⟨new ++ beats ++ [frame], ?_, ?_⟩, isQueue ▸ represents, others⟩
          · simp only [decoded, List.append_assoc]
          · simp only [withoutBeats_append, withoutBeats_of_beats areBeats, isKept,
              withoutBeats_singleton notBeat, List.append_nil]

theorem waitFrameInner_passed :
    Triple (Passed granted channel expectedReplyIds past queued [])
      (waitFrameInner deadline fuel)
      (fun result world => match result with
        | .ok frame => Passed granted channel expectedReplyIds past queued [frame] world
        | .error _ => Passed granted channel expectedReplyIds past queued [] world)
      (fun _ => Passed granted channel expectedReplyIds past queued []) := by
  intro world passed
  obtain ⟨skipped, passed⟩ := passed.toSkipped
  cases returned : waitFrameInner deadline fuel world with
  | error stop after => exact (waitFrameInner_skipped.error passed returned).passed
  | ok result after =>
      have ends := waitFrameInner_skipped.ok passed returned
      cases result with
      | error status => exact Skipped.passed ends
      | ok frame => exact Skipped.passed ends

/-- A frame that is not reported is put into the queue, if there is memory for it. -/
theorem queueReceived_skipped {skipped : List Frame} {frame : Frame} {world : World}
    (passed : Skipped granted channel expectedReplyIds past queued skipped [frame] world)
    (other : ∀ method, ¬ Selects channel expectedReplyIds frame method) :
    ∃ result after, queueReceived frame world = .ok result after ∧
      (result = .ok () ∧
          Skipped granted channel expectedReplyIds past queued (skipped ++ [frame]) [] after ∨
        result ≠ .ok () ∧ granted ≠ [] ∧
          Skipped granted channel expectedReplyIds past queued skipped [frame] after) := by
  obtain ⟨provided, ⟨new, decoded, isKept⟩, represents, others⟩ := passed
  obtain ⟨result, after, returned, moved, same, holds⟩ :=
    queueReceived_queues provided represents frame
  refine ⟨result, after, returned, ?_⟩
  by_cases success : result = .ok ()
  · rw [if_pos success] at holds
    refine .inl ⟨success, moved, ⟨new, same.trans decoded, by simpa using isKept⟩,
      by rwa [List.append_assoc] at holds, ?_⟩
    intro one member
    rcases List.mem_append.mp member with earlier | last
    · exact others one earlier
    · rw [List.mem_singleton.mp last]
      exact other
  · rw [if_neg success] at holds
    refine .inr ⟨success, ?_, moved, ⟨new, same.trans decoded, isKept⟩, holds, others⟩
    rintro rfl
    obtain ⟨_, granted, _⟩ := queueReceived_eq provided represents frame
    rw [returned] at granted
    exact success (EStateM.Result.ok.inj granted).1

theorem queueReceived_passed {frame : Frame} {world : World}
    (passed : Passed granted channel expectedReplyIds past queued [frame] world)
    (other : ∀ method, ¬ Selects channel expectedReplyIds frame method) :
    ∃ result after, queueReceived frame world = .ok result after ∧
      (result = .ok () ∧ Passed granted channel expectedReplyIds past queued [] after ∨
        result ≠ .ok () ∧ granted ≠ [] ∧
          Passed granted channel expectedReplyIds past queued [frame] after) := by
  obtain ⟨skipped, passed⟩ := passed.toSkipped
  obtain ⟨result, after, returned, ends⟩ := queueReceived_skipped passed other
  exact ⟨result, after, returned, ends.imp (fun ⟨success, kept⟩ => ⟨success, kept.passed⟩)
    fun ⟨failed, short, kept⟩ => ⟨failed, short, kept.passed⟩⟩

theorem waitReply_ends :
    Triple (Passed granted channel expectedReplyIds past queued [])
      (waitReply channel expectedReplyIds deadline fuel)
      (RpcEnds granted channel expectedReplyIds past queued)
      (fun _ => Passed granted channel expectedReplyIds past queued []) := by
  induction fuel with
  | zero => exact .throw fun _ passed => passed
  | succ fuel ih =>
      have closes : Keeps (Passed granted channel expectedReplyIds past queued [])
          amqpSocketClose := by
        refine still_socketClose.keeps fun before after still passed => ?_
        obtain ⟨provided, frames⟩ := passed
        refine ⟨provided.of_still still, ?_⟩
        rwa [still.decoded, still.queue]
      refine Triple.bind waitFrameInner_passed fun result => ?_
      cases result with
      | error status =>
          show Triple (Passed granted channel expectedReplyIds past queued []) _ _ _
          split
          · exact Triple.bind closes fun _ => .pure fun _ passed => Or.inl passed
          · exact .pure fun _ passed => Or.inl passed
          · rename_i impossible
            cases impossible
      | ok frame =>
          dsimp only
          cases answered : rpcReply? channel expectedReplyIds frame with
          | some reply =>
              obtain ⟨method, selects⟩ := selects_of_rpcReply? answered
              rw [rpcReply?_of_selects selects] at answered
              refine .pure fun world passed => ?_
              by_cases expected : method.id ∈ listed expectedReplyIds
              · rw [if_pos expected] at answered
                cases answered
                exact ⟨frame, passed, selects, expected⟩
              · rw [if_neg expected] at answered
                cases answered
                exact ⟨frame, passed, selects, expected⟩
          | none =>
              have other : ∀ method, ¬ Selects channel expectedReplyIds frame method := by
                intro method selects
                rw [rpcReply?_of_selects selects] at answered
                cases answered
              intro world passed
              obtain ⟨result, after, returned, ends⟩ := queueReceived_passed passed other
              dsimp only
              rw [bind_of_ok returned]
              rcases ends with ⟨rfl, passed⟩ | ⟨failed, short, passed⟩
              · exact ih passed
              · cases result with
                | ok _ => exact absurd rfl failed
                | error status => exact .inr ⟨short, frame, other, passed⟩

end Waiting

/-- The turns of the waiting phase so far, with `left` turns to come: `wait_frame_inner` has returned
the frames one by one, and each was queued since it is not reported. -/
inductive WaitTurns (channel : UInt16) (expectedReplyIds : List UInt32) (deadline : UInt64)
    (fuel : Nat) (start : World) : List Frame → Nat → World → Prop where
  | begin : WaitTurns channel expectedReplyIds deadline fuel start [] fuel start
  | next {skipped : List Frame} {left : Nat} {before middle after : World} {frame : Frame} :
      WaitTurns channel expectedReplyIds deadline fuel start skipped (left + 1) before →
      waitFrameInner deadline left before = .ok (.ok frame) middle →
      (∀ method, ¬ Selects channel expectedReplyIds frame method) →
      queueReceived frame middle = .ok (.ok ()) after →
      WaitTurns channel expectedReplyIds deadline fuel start (skipped ++ [frame]) left after

/-- What the turn behind the frames `skipped` leads to: the frame that `wait_frame_inner` returns is
reported, or it returns none. -/
inductive Reports (channel : UInt16) (expectedReplyIds : List UInt32) (deadline : UInt64)
    (start : World) (skipped : List Frame) :
    Nat → World → EStateM.Result Stop World RpcReply → Prop where
  | normal {left : Nat} {before after : World} {frame : Frame} {method : Method} :
      waitFrameInner deadline left before = .ok (.ok frame) after →
      returnedFrames start after = skipped ++ [frame] →
      Selects channel expectedReplyIds frame method → method.id ∈ listed expectedReplyIds →
      Reports channel expectedReplyIds deadline start skipped (left + 1) before
        (.ok (.normal method) after)
  | serverException {left : Nat} {before after : World} {frame : Frame} {method : Method} :
      waitFrameInner deadline left before = .ok (.ok frame) after →
      returnedFrames start after = skipped ++ [frame] →
      Selects channel expectedReplyIds frame method → method.id ∉ listed expectedReplyIds →
      Reports channel expectedReplyIds deadline start skipped (left + 1) before
        (.ok (.serverException method) after)
  | failed {left : Nat} {before after : World} {status : Status} :
      waitFrameInner deadline left before = .ok (.error status) after → status ≠ .timeout →
      returnedFrames start after = skipped →
      Reports channel expectedReplyIds deadline start skipped (left + 1) before
        (.ok (.libraryException status) after)
  | timedOut {left : Nat} {before middle after : World} {closed : Except Status Unit} :
      waitFrameInner deadline left before = .ok (.error .timeout) middle →
      amqpSocketClose middle = .ok closed after → returnedFrames start after = skipped →
      Reports channel expectedReplyIds deadline start skipped (left + 1) before
        (.ok (.libraryException .timeout) after)
  | stopped {left : Nat} {before after : World} {stop : Stop} :
      waitFrameInner deadline left before = .error stop after →
      returnedFrames start after = skipped →
      Reports channel expectedReplyIds deadline start skipped (left + 1) before (.error stop after)
  | stoppedClosing {left : Nat} {before middle after : World} {stop : Stop} :
      waitFrameInner deadline left before = .ok (.error .timeout) middle →
      amqpSocketClose middle = .error stop after → returnedFrames start after = skipped →
      Reports channel expectedReplyIds deadline start skipped (left + 1) before (.error stop after)
  | exhausted {before : World} : returnedFrames start before = skipped →
      Reports channel expectedReplyIds deadline start skipped 0 before (outOfFuel before)

section Selecting

variable {channel : UInt16} {expectedReplyIds : List UInt32} {deadline : UInt64}
  {past queued skipped : List Frame} {fuel left : Nat} {start world : World}

theorem keeps_amqpSocketClose {granted : List Bool} {extra : List Frame} :
    Keeps (Skipped granted channel expectedReplyIds past queued skipped extra) amqpSocketClose := by
  refine still_socketClose.keeps fun before after still kept => ?_
  obtain ⟨provided, frames, represents, others⟩ := kept
  refine ⟨provided.of_still still, ?_, ?_, others⟩
  · rwa [still.decoded]
  · rwa [still.queue]

/-- How the turns from some state on end. -/
def TurnsEnd (channel : UInt16) (expectedReplyIds : List UInt32) (deadline : UInt64) (fuel : Nat)
    (start : World) (queued : List Frame) (result : EStateM.Result Stop World RpcReply) : Prop :=
  ∃ skipped left before, WaitTurns channel expectedReplyIds deadline fuel start skipped left before ∧
    Reports channel expectedReplyIds deadline start skipped left before result ∧
    (endState result).queue.Represents (queued ++ skipped)

/-- A turn in which `wait_frame_inner` returns no frame is the last one. -/
theorem turnsEnd_of_failed {status : Status} {after : World}
    (turns : WaitTurns channel expectedReplyIds deadline fuel start skipped (left + 1) world)
    (returned : waitFrameInner deadline left world = .ok (.error status) after)
    (kept : Skipped [] channel expectedReplyIds start.decoded queued skipped [] after) :
    TurnsEnd channel expectedReplyIds deadline fuel start queued
      (waitReply channel expectedReplyIds deadline (left + 1) world) := by
  unfold waitReply
  rw [bind_of_ok returned]
  by_cases timedOut : status = .timeout
  · rw [timedOut] at returned ⊢
    dsimp only
    cases closed : amqpSocketClose after with
    | ok answer final =>
        have stillKept := keeps_amqpSocketClose.ok kept closed
        rw [bind_of_ok closed]
        exact ⟨skipped, left + 1, world, turns,
          .timedOut returned closed (by simpa using stillKept.returnedFrames), stillKept.queue⟩
    | error stop final =>
        have stillKept := keeps_amqpSocketClose.error kept closed
        rw [bind_of_error closed]
        exact ⟨skipped, left + 1, world, turns,
          .stoppedClosing returned closed (by simpa using stillKept.returnedFrames),
          stillKept.queue⟩
  · have fails : Reports channel expectedReplyIds deadline start skipped (left + 1) world
        (.ok (.libraryException status) after) :=
      .failed returned timedOut (by simpa using kept.returnedFrames)
    cases status
    case timeout => exact absurd rfl timedOut
    all_goals exact ⟨skipped, left + 1, world, turns, fails, kept.queue⟩

/-- A turn in which `wait_frame_inner` returns a frame that is reported. -/
theorem turnsEnd_of_reply {reply : RpcReply} {frame : Frame} {after : World}
    (turns : WaitTurns channel expectedReplyIds deadline fuel start skipped (left + 1) world)
    (returned : waitFrameInner deadline left world = .ok (.ok frame) after)
    (kept : Skipped [] channel expectedReplyIds start.decoded queued skipped [frame] after)
    (answered : rpcReply? channel expectedReplyIds frame = some reply) :
    TurnsEnd channel expectedReplyIds deadline fuel start queued
      (waitReply channel expectedReplyIds deadline (left + 1) world) := by
  obtain ⟨method, selects⟩ := selects_of_rpcReply? answered
  have reports : Reports channel expectedReplyIds deadline start skipped (left + 1) world
      (.ok reply after) := by
    rw [rpcReply?_of_selects selects] at answered
    by_cases expected : method.id ∈ listed expectedReplyIds
    · rw [if_pos expected] at answered
      cases answered
      exact .normal returned kept.returnedFrames selects expected
    · rw [if_neg expected] at answered
      cases answered
      exact .serverException returned kept.returnedFrames selects expected
  unfold waitReply
  rw [bind_of_ok returned]
  dsimp only
  rw [answered]
  exact ⟨skipped, left + 1, world, turns, reports, kept.queue⟩

theorem waitReply_turnsEnd
    (turns : WaitTurns channel expectedReplyIds deadline fuel start skipped left world)
    (kept : Skipped [] channel expectedReplyIds start.decoded queued skipped [] world) :
    TurnsEnd channel expectedReplyIds deadline fuel start queued
      (waitReply channel expectedReplyIds deadline left world) := by
  induction left generalizing skipped world with
  | zero =>
      exact ⟨skipped, 0, world, turns, .exhausted (by simpa using kept.returnedFrames), kept.queue⟩
  | succ left ih =>
      cases returned : waitFrameInner deadline left world with
      | error stop after =>
          have ends := waitFrameInner_skipped.error kept returned
          unfold waitReply
          rw [bind_of_error returned]
          exact ⟨skipped, left + 1, world, turns,
            .stopped returned (by simpa using ends.returnedFrames), ends.queue⟩
      | ok result after =>
          have ends := waitFrameInner_skipped.ok kept returned
          cases result with
          | error status => exact turnsEnd_of_failed turns returned ends
          | ok frame =>
              cases answered : rpcReply? channel expectedReplyIds frame with
              | some reply => exact turnsEnd_of_reply turns returned ends answered
              | none =>
                  have other : ∀ method, ¬ Selects channel expectedReplyIds frame method := by
                    intro method selects
                    rw [rpcReply?_of_selects selects] at answered
                    cases answered
                  obtain ⟨queueing, final, queues, outcome⟩ := queueReceived_skipped ends other
                  rcases outcome with ⟨rfl, kept⟩ | ⟨_, short, _⟩
                  · unfold waitReply
                    rw [bind_of_ok returned]
                    dsimp only
                    rw [answered]
                    dsimp only
                    rw [bind_of_ok queues]
                    exact ih (.next turns returned other queues) kept
                  · exact absurd rfl short

end Selecting

/-- The first frame that concerns an RPC is reported, and the frames before it are
queued, whatever was in the queue. Only where `wait_frame_inner` returns no frame, none is. -/
theorem waitReply_selects {world : World} {queued : List Frame} (channel : UInt16)
    (expectedReplyIds : List UInt32) (deadline : UInt64) (fuel : Nat)
    (represents : world.queue.Represents queued) (calm : Calm world)
    (links : world.script.links = []) :
    ∃ skipped left before,
      WaitTurns channel expectedReplyIds deadline fuel world skipped left before ∧
      Reports channel expectedReplyIds deadline world skipped left before
        (waitReply channel expectedReplyIds deadline fuel world) ∧
      (endState (waitReply channel expectedReplyIds deadline fuel world)).queue.Represents
        (queued ++ skipped) :=
  waitReply_turnsEnd .begin
    { provided := ⟨calm, links ▸ List.suffix_rfl⟩
      frames := ⟨[], by simp, rfl⟩
      queue := by simpa using represents
      others := by simp }

/-- The broker sends a protocol header, a body frame on channel 1 and `connection.close_ok`. -/
def repliedWorld : World :=
  World.new
    { clock := []
      recvs := [.data ⟨protocolName ++ [0, 0, 9, 1] ++ frameOctets amqpFrameBody 1 [17] ++
        frameOctets amqpFrameMethod 0 [0, 10, 0, 51], by decide, by decide⟩]
      sends := []
      recvPolls := []
      sendPolls := []
      closes := []
      links := []
      memory := fun _ => grantingMemory }

/-- The id of a method that an RPC reports as its reply. -/
def replyId : EStateM.Result Stop World RpcReply → Option UInt32
  | .ok (.normal method) _ => some method.id
  | _ => none

theorem waitReply_selects_close_ok :
    (∃ skipped left before,
      WaitTurns 0 [0x000A0033] amqpTimeInfinite 6 repliedWorld skipped left before ∧
      Reports 0 [0x000A0033] amqpTimeInfinite repliedWorld skipped left before
        (waitReply 0 [0x000A0033] amqpTimeInfinite 6 repliedWorld) ∧
      (endState (waitReply 0 [0x000A0033] amqpTimeInfinite 6 repliedWorld)).queue.Represents
        ([] ++ skipped) ∧ skipped.length = 2) ∧
      replyId (waitReply 0 [0x000A0033] amqpTimeInfinite 6 repliedWorld) = some 0x000A0033 := by
  have empty : repliedWorld.queue.Represents [] := LinkedQueue.represents_empty
  have calm : Calm repliedWorld := .inr fun _ member => absurd member List.not_mem_nil
  obtain ⟨skipped, left, before, turns, reports, represents⟩ :=
    waitReply_selects 0 [0x000A0033] amqpTimeInfinite 6 empty calm rfl
  refine ⟨⟨skipped, left, before, turns, reports, represents, ?_⟩, by decide +kernel⟩
  have two : (endState (waitReply 0 [0x000A0033] amqpTimeInfinite 6
      repliedWorld)).queue.values.length = 2 := by decide +kernel
  rw [represents.values_eq] at two
  exact two

/-! ## Closes -/

/-- A call reports the first close it receives, unless a reply comes first, and it leaves
no close in the queue. -/
structure ReportsClose (channel : UInt16) (expectedReplyIds : List UInt32) (world : World)
    (result : EStateM.Result Stop World RpcReply) : Prop where
  reported : ∀ earlier close later method,
    newFrames world (endState result) = earlier ++ close :: later →
    Closes channel close method → method.id ∉ listed expectedReplyIds →
    (∀ frame ∈ earlier, ∀ other, ¬ Selects channel expectedReplyIds frame other) →
      ∃ after, result = .ok (.serverException method) after
  unburied : ∃ new, (endState result).queue.values = world.queue.values ++ new ∧
    ∀ frame ∈ new, ∀ method, ¬ Closes channel frame method

section Closes

variable {granted : List Bool} {channel : UInt16} {expectedReplyIds : List UInt32}
  {queued : List Frame} {world : World}

theorem Closes.mem_withoutBeats {frames : List Frame} {close : Frame} {method : Method}
    (closes : Closes channel close method) (member : close ∈ frames) :
    close ∈ withoutBeats frames := by
  refine List.mem_filter.mpr ⟨member, ?_⟩
  have isMethod := closes.1
  unfold Frame.method? at isMethod
  split at isMethod
  · rename_i frameType
    rw [frameType]
    decide
  · cases isMethod

/-- Only the last frame that an RPC has decoded can be a close. -/
theorem Passed.reportsClose {past extra : List Frame}
    {result : EStateM.Result Stop World RpcReply} (isPast : world.decoded = past)
    (represents : world.queue.Represents queued)
    (passed : Passed granted channel expectedReplyIds past queued extra (endState result))
    (reports : ∀ close ∈ extra, ∀ method, Closes channel close method →
      method.id ∉ listed expectedReplyIds → ∃ after, result = .ok (.serverException method) after) :
    ReportsClose channel expectedReplyIds world result := by
  obtain ⟨_, new, kept, decoded, isKept, isQueue, others⟩ := passed
  constructor
  · intro earlier close later method frames closes unexpected _
    rw [← isPast] at decoded
    rw [newFrames_eq decoded] at frames
    have found : close ∈ withoutBeats new := closes.mem_withoutBeats (by simp [frames])
    rw [isKept] at found
    rcases List.mem_append.mp found with early | last
    · exact absurd (.inr closes) (others close early method)
    · exact reports close last method closes unexpected
  · refine ⟨kept, by rw [isQueue.values_eq, represents.values_eq], ?_⟩
    intro frame member method closes
    exact others frame member method (.inr closes)

/-- The reported frame is the close that was decoded. -/
theorem RpcEnds.reportsClose {past : List Frame} {reply : RpcReply} {after : World}
    (isPast : world.decoded = past) (represents : world.queue.Represents queued)
    (ends : RpcEnds granted channel expectedReplyIds past queued reply after) :
    ReportsClose channel expectedReplyIds world (.ok reply after) := by
  have same {frame : Frame} {first second : Method}
      (selects : Selects channel expectedReplyIds frame first)
      (closes : Closes channel frame second) : first = second := by
    have isFirst : frame.method? = some first := selects.elim And.left And.left
    exact Option.some.inj (isFirst.symm.trans closes.1)
  cases reply with
  | libraryException status =>
      rcases ends with passed | ⟨_, frame, other, passed⟩
      · exact passed.reportsClose isPast represents fun _ impossible => absurd impossible
          List.not_mem_nil
      · refine passed.reportsClose isPast represents fun close member method closes _ => ?_
        rw [List.mem_singleton.mp member] at closes
        exact absurd (.inr closes) (other method)
  | normal method =>
      obtain ⟨frame, passed, selects, expected⟩ := ends
      refine passed.reportsClose isPast represents fun close member found closes unexpected => ?_
      rw [List.mem_singleton.mp member] at closes
      rw [same selects closes] at expected
      exact absurd expected unexpected
  | serverException method =>
      obtain ⟨frame, passed, selects, _⟩ := ends
      refine passed.reportsClose isPast represents fun close member found closes _ => ?_
      rw [List.mem_singleton.mp member] at closes
      exact ⟨after, by rw [same selects closes]⟩

/-- Where sends do not run late, a close is reported by the call that receives it. -/
theorem simpleRpcInner_reportsClose (requestId : UInt32)
    (decodedRequestMethod : MethodFields requestId) (deadline : UInt64) (fuel : Nat)
    (represents : world.queue.Represents queued) (prompt : Prompt world) :
    ReportsClose channel expectedReplyIds world
      (simpleRpcInner channel requestId expectedReplyIds decodedRequestMethod deadline fuel
        world) := by
  let Passing := Passed world.script.links channel expectedReplyIds world.decoded queued []
  have start : ∀ after, Quiet world after → Passing after := by
    intro after quiet
    refine ⟨⟨.inl (prompt.of_quiet quiet), quiet.uses.links⟩, [], [], ?_, rfl, ?_, by simp⟩
    · rw [quiet.decoded, List.append_nil]
    · rw [quiet.queue, List.append_nil]
      exact represents
  have unreported : ∀ result, Passing (endState result) →
      ReportsClose channel expectedReplyIds world result :=
    fun result passed => passed.reportsClose rfl represents fun _ impossible =>
      absurd impossible List.not_mem_nil
  have sends : Keeps (Quiet world) (amqpSendMethod channel requestId decodedRequestMethod fuel) :=
    prompt.sendFrameInner _ _ _
  unfold simpleRpcInner
  cases sent : amqpSendMethod channel requestId decodedRequestMethod fuel world with
  | error stop after =>
      rw [bind_of_error sent]
      exact unreported _ (start after (sends.error (refl_of Quiet world) sent))
  | ok result after =>
      rw [bind_of_ok sent]
      have passing := start after (sends.ok (refl_of Quiet world) sent)
      cases result with
      | error status => exact unreported _ passing
      | ok _ =>
          show ReportsClose _ _ _ (waitReply channel expectedReplyIds deadline fuel after)
          cases waited : waitReply channel expectedReplyIds deadline fuel after with
          | error stop final => exact unreported _ (waitReply_ends.error passing waited)
          | ok reply final => exact (waitReply_ends.ok passing waited).reportsClose rfl represents

end Closes

/-- An open connection with `frame_max` 4096, between two frames and without heartbeats. -/
def tunedWorld (script : Script) : World :=
  { World.new script with
    reader := { returnToIdle Reader.new with frameMax := 4096 }
    outbound := outbound4096 }

/-- The same connection with a heartbeat interval of one second. -/
def beatingWorld (script : Script) : World :=
  { tunedWorld script with
    heartbeat := 1
    nextRecvHeartbeat := 2000000000
    nextSendHeartbeat := 1000000000 }

/-- `connection.close` with the code 320 on channel 0. -/
def connectionCloseOctets : List UInt8 :=
  frameOctets amqpFrameMethod 0 [0, 10, 0, 50, 1, 64, 0, 0, 0, 0, 0]

def connectionCloseChunk : Chunk := ⟨connectionCloseOctets, by decide, by decide⟩

/-- `channel.open`, which expects `channel.open_ok`, on channel 1. -/
def channelOpen (fuel : Nat) : Call RpcReply :=
  simpleRpcInner 1 0x0014000A [0x0014000B] (([] : List UInt8), ()) amqpTimeInfinite fuel

/-- The request is sent at once, and the broker closes the connection. -/
def closingWorld : World :=
  tunedWorld
    { clock := []
      recvs := [.data connectionCloseChunk]
      sends := [.accepted 100]
      recvPolls := []
      sendPolls := []
      closes := []
      links := []
      memory := fun _ => grantingMemory }

theorem simpleRpcInner_reportsClose_connection_close :
    ReportsClose 1 [0x0014000B] closingWorld (channelOpen 6 closingWorld) ∧
      (newFrames closingWorld (endState (channelOpen 6 closingWorld))).length = 1 :=
  ⟨simpleRpcInner_reportsClose _ _ _ _ LinkedQueue.represents_empty (.inr ⟨by decide, rfl⟩),
    by decide +kernel⟩

/-- The request cannot be sent for some time, and `amqp_try_recv` is called twice. -/
def buryingWorld : World :=
  beatingWorld
    { clock := [1500000000, 2000000000, 2100000000, 4000000000, 4100000000, 4200000000]
      recvs := [.data connectionCloseChunk, .data heartbeatChunk]
      sends := [.needWrite, .needWrite, .accepted 100]
      recvPolls := []
      sendPolls := [.timedOut, .timedOut]
      closes := []
      links := []
      memory := fun _ => grantingMemory }

/-- The channel of a frame, and the id of its method. -/
def Frame.label (frame : Frame) : UInt16 × Option UInt32 :=
  (frame.channel, frame.method?.map Method.id)

/-- The close is queued, and the call goes on waiting. -/
theorem late_send_buries_close :
    ¬ ReportsClose 1 [0x0014000B] buryingWorld (channelOpen 9 buryingWorld) := by
  intro reports
  obtain ⟨new, values, others⟩ := reports.unburied
  have buried : (endState (channelOpen 9 buryingWorld)).queue.values.map Frame.label =
      [(0, some amqpConnectionCloseMethod)] := by decide +kernel
  rw [values, show buryingWorld.queue.values = [] from rfl, List.nil_append] at buried
  have member : (0, some amqpConnectionCloseMethod) ∈ new.map Frame.label := by
    rw [buried]
    exact List.mem_singleton_self _
  obtain ⟨frame, inQueue, label⟩ := List.mem_map.mp member
  obtain ⟨zero, isClose⟩ := Prod.mk.inj label
  obtain ⟨method, isMethod, id⟩ := Option.map_eq_some_iff.mp isClose
  exact others frame inQueue method ⟨isMethod, .inr ⟨zero, id⟩⟩

end RabbitmqC
