import RabbitmqC.Consumer.Reassembly

/-!
# Copying a body to a child

`write_all` and `copy_body`, which the tools use to hand a message to a process of their
own. A body frame that is longer than what remains of the body is written all the same,
and what remains is then a number close to `SIZE_MAX`.
-/

set_option autoImplicit false

namespace RabbitmqC

open Effect

/-! ## What a tool meets -/

/-- What ends a tool with status 1, or keeps it from going on. -/
inductive Halt where
  | amqpError (status : Status) (doing : String)
  | rpcError (doing : String)
  | frameType (message : String) (frameType : UInt8)
  | errno (doing : String)
  /-- No frame arrives any more. -/
  | waiting
  | fault (fault : Fault)
  deriving DecidableEq

/-- How the calls for one message turn out: whether the child is started and the calls behind
that succeed, what the calls of `write` return until they take everything, whether the child
can be waited for and has succeeded, and what `amqp_basic_ack` returns. A call of `write` that
fails is `none`; the other calls that can fail go by their names. -/
structure Handling where
  spawned : Except String Unit
  closed : Except String Unit
  writes : List (Option Nat)
  exit : Except String Bool
  acked : Except Status Unit

/-- A child that takes everything and succeeds. -/
def Handling.smooth : Handling := ⟨.ok (), .ok (), [], .ok true, .ok ()⟩

inductive ToolEvent where
  | qos (prefetchCount : Int)
  | consume (noAck : Bool)
  | started
  | wrote (octets : List UInt8)
  | exited (success : Bool)
  | acked (deliveryTag : UInt64)
  deriving DecidableEq

/-- What `amqp_simple_wait_frame` is going to return, how messages are going to be handled,
and what has been done. -/
structure Tool where
  answers : List (Except Status Frame)
  handlings : List Handling
  current : Handling
  trace : List ToolEvent

abbrev ToolCall := EStateM Halt Tool

def record (event : ToolEvent) : ToolCall Unit :=
  modify fun tool => { tool with trace := tool.trace ++ [event] }

/-- `amqp_simple_wait_frame`. -/
def nextFrame : ToolCall (Except Status Frame) := do
  let tool ← get
  match tool.answers with
  | [] => throw .waiting
  | answer :: answers => do
      set { tool with answers }
      return answer

/-- `die_amqp_error` on what a function has returned. -/
def dieAmqpError {α : Type} (doing : String) : Except Status α → ToolCall α
  | .error status => throw (.amqpError status doing)
  | .ok value => return value

/-! ## The functions -/

/-- `write` to the child. -/
def writeChild (octets : List UInt8) : ToolCall (Option Nat) := do
  let tool ← get
  match tool.current.writes with
  | [] => do
      record (.wrote octets)
      return some octets.length
  | answer :: writes => do
      set { tool with current := { tool.current with writes } }
      match answer with
      | none => return none
      | some count => do
          let taken := min count octets.length
          record (.wrote (octets.take taken))
          return some taken

def writeAllLoop : Nat → List UInt8 → ToolCall Unit
  | 0, _ => throw (.fault .outOfFuel)
  | fuel + 1, octets =>
      if octets.length > 0 then do
        match ← writeChild octets with
        | none => throw (.errno "write")
        | some count => writeAllLoop fuel (octets.drop count)
      else
        return

def writeAll (octets : List UInt8) : ToolCall Unit := do
  let tool ← get
  writeAllLoop (tool.current.writes.length + 2) octets

/-- One turn of the loop of `copy_body`: what remains afterwards. -/
def copyBodyFrame (bodyRemaining : Nat) : ToolCall Nat := do
  let frame ← dieAmqpError "waiting for body frame" (← nextFrame)
  if frame.frameType ≠ amqpFrameBody then
    throw (.frameType "expected body, got frame type 0x%X" frame.frameType)
  else
    match frame.payload with
    | .bodyFragment octets => do
        writeAll octets
        return sizeSub bodyRemaining octets.length
    | _ => throw (.fault .wrongObject)

def copyBodyFrames : Nat → Nat → ToolCall Unit
  | 0, _ => throw (.fault .outOfFuel)
  | fuel + 1, bodyRemaining =>
      if bodyRemaining ≠ 0 then do
        let bodyRemaining ← copyBodyFrame bodyRemaining
        copyBodyFrames fuel bodyRemaining
      else
        return

/-- The header of `copy_body`: the size of the body. -/
def copyHeader : ToolCall Nat := do
  let frame ← dieAmqpError "waiting for header frame" (← nextFrame)
  if frame.frameType ≠ amqpFrameHeader then
    throw (.frameType "expected header, got frame type 0x%X" frame.frameType)
  else
    match frame.payload with
    | .properties _ bodySize _ _ => return bodySize.toNat
    | _ => throw (.fault .wrongObject)

/-- `copy_body`. Every turn of its loop takes a frame. -/
def copyBody : ToolCall Unit := do
  let bodyRemaining ← copyHeader
  let tool ← get
  copyBodyFrames (tool.answers.length + 1) bodyRemaining

/-! ## Writing -/

/-- How many of some octets are written before `write` fails, and the answers that are left
if all of them are. -/
def takes : List (Option Nat) → Nat → Nat × Option (List (Option Nat))
  | [], length => (length, some [])
  | answer :: writes, length =>
      if length = 0 then
        (0, some (answer :: writes))
      else
        match answer with
        | none => (0, none)
        | some count =>
            let later := takes writes (length - min count length)
            (min count length + later.1, later.2)

theorem takes_le (writes : List (Option Nat)) (length : Nat) :
    (takes writes length).1 ≤ length := by
  induction writes generalizing length with
  | nil => exact Nat.le_refl _
  | cons answer writes ih =>
      unfold takes
      split
      · exact Nat.zero_le _
      · cases answer with
        | none => exact Nat.zero_le _
        | some count =>
            have later := ih (length - min count length)
            have bounded := Nat.min_le_right count length
            show min count length + _ ≤ length
            omega

theorem takes_all {writes rest : List (Option Nat)} {length : Nat}
    (all : (takes writes length).2 = some rest) : (takes writes length).1 = length := by
  induction writes generalizing length with
  | nil => rfl
  | cons answer writes ih =>
      unfold takes at all ⊢
      split
      · exact (‹length = 0›).symm
      · rw [if_neg ‹_›] at all
        cases answer with
        | none => cases all
        | some count =>
            have later := ih all
            have bounded := Nat.min_le_right count length
            show min count length + _ = length
            omega

/-- A tool after calls of `write`. -/
def Tool.writing (tool : Tool) (writes : List (Option Nat)) (chunks : List (List UInt8)) : Tool :=
  { tool with
    current := { tool.current with writes }
    trace := tool.trace ++ chunks.map .wrote }

theorem Tool.writing_writing (tool : Tool) (writes others : List (Option Nat))
    (chunks later : List (List UInt8)) :
    (tool.writing writes chunks).writing others later = tool.writing others (chunks ++ later) := by
  simp [Tool.writing]

/-- All octets are written, or those before the call of `write` that fails. -/
inductive Outputs (tool : Tool) (octets : List UInt8) : EStateM.Result Halt Tool Unit → Prop where
  | all {rest : List (Option Nat)} {chunks : List (List UInt8)} :
      (takes tool.current.writes octets.length).2 = some rest → chunks.flatten = octets →
      Outputs tool octets (.ok () (tool.writing rest chunks))
  | failed {rest : List (Option Nat)} {chunks : List (List UInt8)} :
      (takes tool.current.writes octets.length).2 = none →
      chunks.flatten = octets.take (takes tool.current.writes octets.length).1 →
      Outputs tool octets (.error (.errno "write") (tool.writing rest chunks))

section Writing

variable {tool : Tool} {octets : List UInt8} {count : Nat} {writes : List (Option Nat)}

theorem outputs_nothing : Outputs tool [] (.ok () tool) := by
  have unchanged : tool.writing tool.current.writes [] = tool := by
    simp [Tool.writing]
  have nothing : (takes tool.current.writes 0).2 = some tool.current.writes := by
    cases tool.current.writes <;> rfl
  have outputs : Outputs tool [] (.ok () (tool.writing tool.current.writes [])) :=
    .all nothing rfl
  rwa [unchanged] at outputs

/-- A call of `write` in front of others. -/
theorem Outputs.cons {result : EStateM.Result Halt Tool Unit}
    (isNext : tool.current.writes = some count :: writes) (remain : octets.length ≠ 0)
    (outputs : Outputs (tool.writing writes [octets.take (min count octets.length)])
      (octets.drop (min count octets.length)) result) : Outputs tool octets result := by
  have taken : takes tool.current.writes octets.length =
      (min count octets.length + (takes writes (octets.length - min count octets.length)).1,
        (takes writes (octets.length - min count octets.length)).2) := by
    rw [isNext, takes, if_neg remain]
  cases outputs with
  | all rest flatten =>
      rw [Tool.writing_writing]
      refine .all ?_ ?_
      · rw [taken]
        rwa [List.length_drop] at rest
      · rw [List.flatten_append, flatten, List.flatten_singleton, List.take_append_drop]
  | failed rest flatten =>
      rw [Tool.writing_writing]
      refine .failed ?_ ?_
      · rw [taken]
        rwa [List.length_drop] at rest
      · rw [List.flatten_append, flatten, taken, List.length_drop, List.take_add,
          List.flatten_singleton]
        rfl

theorem writeChild_nil (isNext : tool.current.writes = []) :
    writeChild octets tool = .ok (some octets.length) (tool.writing [] [octets]) := by
  unfold writeChild
  simp only [bind_of_ok (get_run tool), isNext]
  rw [← isNext]
  rfl

theorem writeChild_none (isNext : tool.current.writes = none :: writes) :
    writeChild octets tool = .ok none (tool.writing writes []) := by
  unfold writeChild
  simp only [bind_of_ok (get_run tool), isNext, Tool.writing, List.map_nil, List.append_nil]
  rfl

theorem writeChild_some (isNext : tool.current.writes = some count :: writes) :
    writeChild octets tool = .ok (some (min count octets.length))
      (tool.writing writes [octets.take (min count octets.length)]) := by
  unfold writeChild
  simp only [bind_of_ok (get_run tool), isNext]
  rfl

theorem outputs_writeAllLoop (fuel : Nat) (enough : tool.current.writes.length + 1 < fuel) :
    Outputs tool octets (writeAllLoop fuel octets tool) := by
  induction fuel generalizing octets tool with
  | zero => exact absurd enough (Nat.not_lt_zero _)
  | succ fuel ih =>
      by_cases remain : octets.length = 0
      · rw [List.length_eq_zero_iff.mp remain]
        exact outputs_nothing
      · have unfolded : writeAllLoop (fuel + 1) octets = (do
            match ← writeChild octets with
            | none => throw (.errno "write")
            | some count => writeAllLoop fuel (octets.drop count)) :=
          if_pos (Nat.pos_of_ne_zero remain)
        rw [unfolded]
        cases isNext : tool.current.writes with
        | nil =>
            rw [bind_of_ok (writeChild_nil isNext)]
            rw [isNext] at enough
            obtain ⟨fuel, rfl⟩ := Nat.exists_eq_succ_of_ne_zero
              (Nat.ne_of_gt (Nat.lt_of_succ_lt_succ enough))
            show Outputs tool octets (writeAllLoop (fuel + 1) (octets.drop octets.length) _)
            rw [List.drop_length]
            refine .all ?_ (List.flatten_singleton)
            rw [isNext]
            rfl
        | cons answer writes =>
            rw [isNext] at enough
            cases answer with
            | none =>
                rw [bind_of_ok (writeChild_none isNext)]
                have failed : takes tool.current.writes octets.length = (0, none) := by
                  rw [isNext, takes, if_neg remain]
                refine .failed ?_ ?_
                · rw [failed]
                · rw [failed]
                  rfl
            | some count =>
                rw [bind_of_ok (writeChild_some isNext)]
                exact Outputs.cons isNext remain (ih (Nat.lt_of_succ_lt_succ enough))

theorem outputs_writeAll (octets : List UInt8) (tool : Tool) :
    Outputs tool octets (writeAll octets tool) :=
  outputs_writeAllLoop _ (Nat.lt_succ_self _)

end Writing

/-! ## Fragments -/

/-- The size that a content header announces. -/
def Frame.bodySize? (frame : Frame) : Option Nat :=
  if frame.frameType = amqpFrameHeader then
    match frame.payload with
    | .properties _ bodySize _ _ => some bodySize.toNat
    | _ => none
  else
    none

def ToolEvent.octets : ToolEvent → List UInt8
  | wrote octets => octets
  | _ => []

/-- What has been written to children. -/
def Tool.output (tool : Tool) : List UInt8 := tool.trace.flatMap ToolEvent.octets

theorem Tool.output_writing (tool : Tool) (writes : List (Option Nat))
    (chunks : List (List UInt8)) :
    (tool.writing writes chunks).output = tool.output ++ chunks.flatten := by
  simp only [Tool.output, Tool.writing, List.flatMap_append, List.flatMap_map]
  exact congrArg (tool.output ++ ·) List.flatMap_id'

section Copying

variable {tool : Tool} {bodyRemaining : Nat}

/-- How a turn of `copy_body` ends. -/
inductive Copied (bodyRemaining : Nat) (tool : Tool) : EStateM.Result Halt Tool Nat → Prop where
  | all {frame : Frame} {answers : List (Except Status Frame)} {octets : List UInt8}
      {rest : List (Option Nat)} {chunks : List (List UInt8)} :
      tool.answers = .ok frame :: answers → frame.fragment? = some octets →
      (takes tool.current.writes octets.length).2 = some rest → chunks.flatten = octets →
      Copied bodyRemaining tool (.ok (sizeSub bodyRemaining octets.length)
        ({ tool with answers }.writing rest chunks))
  | failed {frame : Frame} {answers : List (Except Status Frame)} {octets : List UInt8}
      {rest : List (Option Nat)} {chunks : List (List UInt8)} :
      tool.answers = .ok frame :: answers → frame.fragment? = some octets →
      (takes tool.current.writes octets.length).2 = none →
      chunks.flatten = octets.take (takes tool.current.writes octets.length).1 →
      Copied bodyRemaining tool (.error (.errno "write")
        ({ tool with answers }.writing rest chunks))
  | stopped {halt : Halt} {after : Tool} :
      (∀ frame answers, tool.answers = .ok frame :: answers → frame.fragment? = none) →
      after.trace = tool.trace → Copied bodyRemaining tool (.error halt after)

theorem nextFrame_run {answer : Except Status Frame} {answers : List (Except Status Frame)}
    (isNext : tool.answers = answer :: answers) :
    nextFrame tool = .ok answer { tool with answers } := by
  unfold nextFrame
  simp only [bind_of_ok (get_run tool), isNext]
  rfl

theorem nextFrame_nil (isNext : tool.answers = []) : nextFrame tool = .error .waiting tool := by
  unfold nextFrame
  simp only [bind_of_ok (get_run tool), isNext]
  rfl

/-- A frame that is waited for does not come, or is refused. -/
theorem refused_nextFrame {α : Type} {message : String} {next : Frame → ToolCall α}
    (refuses : ∀ frame answers, tool.answers = .ok frame :: answers →
      ∃ halt, next frame { tool with answers } = .error halt { tool with answers }) :
    ∃ halt after, (do
        let frame ← dieAmqpError message (← nextFrame)
        next frame) tool = .error halt after ∧ after.trace = tool.trace := by
  cases isNext : tool.answers with
  | nil => exact ⟨_, _, bind_of_error (nextFrame_nil isNext), rfl⟩
  | cons answer answers =>
      have first := nextFrame_run isNext
      cases answer with
      | error status => exact ⟨_, _, (bind_of_ok first).trans (bind_of_error rfl), rfl⟩
      | ok frame =>
          obtain ⟨halt, refused⟩ := refuses frame answers isNext
          exact ⟨halt, _, (bind_of_ok first).trans ((bind_of_ok rfl).trans refused), rfl⟩

theorem copyBodyFrame_of_fragment {frame : Frame} {answers : List (Except Status Frame)}
    {octets : List UInt8} (isNext : tool.answers = .ok frame :: answers)
    (isFragment : frame.fragment? = some octets) :
    copyBodyFrame bodyRemaining tool = (do
      writeAll octets
      return sizeSub bodyRemaining octets.length : ToolCall Nat) { tool with answers } := by
  obtain ⟨isBody, isPayload⟩ := fragment?_eq_some.mp isFragment
  refine (bind_of_ok (nextFrame_run isNext)).trans ((bind_of_ok rfl).trans ?_)
  rw [if_neg (not_not_intro isBody), isPayload]

theorem copyBodyFrame_of_no_fragment (missing : ∀ frame answers,
    tool.answers = .ok frame :: answers → frame.fragment? = none) :
    ∃ halt after, copyBodyFrame bodyRemaining tool = .error halt after ∧
      after.trace = tool.trace := by
  apply refused_nextFrame
  intro frame answers isNext
  have noFragment := missing frame answers isNext
  unfold Frame.fragment? at noFragment
  by_cases isBody : frame.frameType = amqpFrameBody
  · rw [if_pos isBody] at noFragment
    rw [if_neg (not_not_intro isBody)]
    cases isPayload : frame.payload with
    | bodyFragment octets =>
        rw [isPayload] at noFragment
        cases noFragment
    | none | method | properties | protocolHeader => exact ⟨_, rfl⟩
  · rw [if_pos isBody]
    exact ⟨_, rfl⟩

theorem copied_copyBodyFrame : Copied bodyRemaining tool (copyBodyFrame bodyRemaining tool) := by
  by_cases comes : ∃ frame answers octets, tool.answers = .ok frame :: answers ∧
      frame.fragment? = some octets
  · obtain ⟨frame, answers, octets, isNext, isFragment⟩ := comes
    have outputs := outputs_writeAll octets { tool with answers }
    rw [copyBodyFrame_of_fragment isNext isFragment]
    cases result : writeAll octets { tool with answers } with
    | ok written after =>
        rw [bind_of_ok result]
        rw [result] at outputs
        cases outputs with
        | all rest flatten => exact .all isNext isFragment rest flatten
    | error halt after =>
        rw [bind_of_error result]
        rw [result] at outputs
        cases outputs with
        | failed none flatten => exact .failed isNext isFragment none flatten
  · have missing (frame : Frame) (answers : List (Except Status Frame))
        (isNext : tool.answers = .ok frame :: answers) : frame.fragment? = none := by
      cases isFragment : frame.fragment? with
      | none => rfl
      | some octets => exact absurd ⟨frame, answers, octets, isNext, isFragment⟩ comes
    obtain ⟨halt, after, dies, trace⟩ := @copyBodyFrame_of_no_fragment _ bodyRemaining missing
    rw [dies]
    exact .stopped missing trace

/-- A body frame longer than what remains is read, and more of it than that is written. -/
def Overruns : List (Except Status Frame) → List (Option Nat) → Nat → Prop
  | [], _, _ => False
  | answer :: answers, writes, remaining =>
      remaining ≠ 0 ∧ ∃ frame octets, answer = .ok frame ∧ frame.fragment? = some octets ∧
        (remaining < (takes writes octets.length).1 ∨
          octets.length ≤ remaining ∧ ∃ rest, (takes writes octets.length).2 = some rest ∧
            Overruns answers rest (remaining - octets.length))

/-- Without an overrun a fragment that is written fits, and no overrun is behind it. -/
theorem fits_of_not_overruns {frame : Frame} {answers : List (Except Status Frame)}
    {octets : List UInt8} {rest : List (Option Nat)} (remain : bodyRemaining ≠ 0)
    (within : ¬ Overruns tool.answers tool.current.writes bodyRemaining)
    (isNext : tool.answers = .ok frame :: answers) (isFragment : frame.fragment? = some octets)
    (left : (takes tool.current.writes octets.length).2 = some rest) :
    octets.length ≤ bodyRemaining ∧ ¬ Overruns answers rest (bodyRemaining - octets.length) := by
  rw [isNext] at within
  have fits : octets.length ≤ bodyRemaining := by
    refine Nat.le_of_not_lt fun exceeds => within ?_
    refine ⟨remain, frame, octets, rfl, isFragment, .inl ?_⟩
    rwa [takes_all left]
  refine ⟨fits, fun later => within ?_⟩
  exact ⟨remain, frame, octets, rfl, isFragment, .inr ⟨fits, rest, left, later⟩⟩

/-- Frames that are read and written. -/
structure CopiesAll (tool : Tool) (size : Nat) (after : Tool) : Prop where
  frames : ∃ bodies fragments chunks, AreFragments bodies fragments ∧
    tool.answers = bodies.map .ok ++ after.answers ∧ fragments.flatten.length = size ∧
    chunks.flatten = fragments.flatten ∧
    after = { tool with answers := after.answers }.writing after.current.writes chunks

theorem copiesAll_zero : CopiesAll tool 0 tool where
  frames := ⟨[], [], [], rfl, rfl, rfl, rfl, by simp [Tool.writing]⟩

theorem CopiesAll.cons {frame : Frame} {answers : List (Except Status Frame)}
    {octets : List UInt8} {rest : List (Option Nat)} {chunks : List (List UInt8)} {after : Tool}
    (isNext : tool.answers = .ok frame :: answers) (isFragment : frame.fragment? = some octets)
    (flatten : chunks.flatten = octets) (fits : octets.length ≤ bodyRemaining)
    (later : CopiesAll ({ tool with answers }.writing rest chunks)
      (bodyRemaining - octets.length) after) : CopiesAll tool bodyRemaining after := by
  obtain ⟨bodies, fragments, others, areFragments, split, size, same, isAfter⟩ := later
  refine ⟨frame :: bodies, octets :: fragments, chunks ++ others, ?_, ?_, ?_, ?_, ?_⟩
  · exact congrArg₂ List.cons isFragment areFragments
  · rw [isNext]
    exact congrArg (Except.ok frame :: ·) split
  · rw [List.flatten_cons, List.length_append, size, Nat.add_sub_cancel' fits]
  · rw [List.flatten_append, flatten, same]
    rfl
  · rw [isAfter]
    simp [Tool.writing]

theorem copyBodyFrames_zero (fuel : Nat) : copyBodyFrames (fuel + 1) 0 tool = .ok () tool := rfl

theorem copyBodyFrames_succ {fuel : Nat} (remain : bodyRemaining ≠ 0) :
    copyBodyFrames (fuel + 1) bodyRemaining = (do
      let bodyRemaining ← copyBodyFrame bodyRemaining
      copyBodyFrames fuel bodyRemaining) :=
  if_pos remain

/-- Without an overrun all of the body is written, or no more than it when the tool ends. -/
theorem copyBodyFrames_of_not_overruns {fuel : Nat} (enough : tool.answers.length < fuel)
    (small : bodyRemaining < 2 ^ 64)
    (within : ¬ Overruns tool.answers tool.current.writes bodyRemaining) :
    (∃ after, copyBodyFrames fuel bodyRemaining tool = .ok () after ∧
      CopiesAll tool bodyRemaining after) ∨
    ∃ halt after written, copyBodyFrames fuel bodyRemaining tool = .error halt after ∧
      after.output = tool.output ++ written ∧ written.length ≤ bodyRemaining := by
  induction fuel generalizing bodyRemaining tool with
  | zero => exact absurd enough (Nat.not_lt_zero _)
  | succ fuel ih =>
      by_cases remain : bodyRemaining = 0
      · subst remain
        exact .inl ⟨tool, rfl, copiesAll_zero⟩
      · rw [copyBodyFrames_succ remain]
        have copied := @copied_copyBodyFrame tool bodyRemaining
        cases result : copyBodyFrame bodyRemaining tool with
        | error halt after =>
            rw [bind_of_error result]
            rw [result] at copied
            refine .inr ⟨halt, after, ?_⟩
            cases copied with
            | @failed frame answers octets rest chunks isNext isFragment none flatten =>
                refine ⟨_, rfl, Tool.output_writing _ _ _, ?_⟩
                refine Nat.le_of_not_lt fun exceeds => within ?_
                rw [isNext]
                refine ⟨remain, frame, octets, rfl, isFragment, .inl ?_⟩
                rw [flatten, List.length_take, Nat.min_eq_left (takes_le _ _)] at exceeds
                exact exceeds
            | stopped _ same =>
                refine ⟨[], rfl, ?_, Nat.zero_le _⟩
                rw [List.append_nil, Tool.output, same]
                rfl
        | ok next after =>
            rw [bind_of_ok result]
            rw [result] at copied
            cases copied with
            | @all frame answers octets rest chunks isNext isFragment left flatten =>
                obtain ⟨fits, behind⟩ := fits_of_not_overruns remain within isNext isFragment left
                rw [sizeSub_of_le fits small]
                rw [isNext] at enough
                rcases @ih ({ tool with answers }.writing rest chunks)
                  (bodyRemaining - octets.length) (Nat.lt_of_succ_lt_succ enough) (Nat.lt_of_le_of_lt (Nat.sub_le _ _) small)
                  behind with ⟨after, runs, copies⟩ | ⟨halt, after, written, runs, output, bounded⟩
                · exact .inl ⟨after, runs, copies.cons isNext isFragment flatten fits⟩
                · refine .inr ⟨halt, after, octets ++ written, runs, ?_, ?_⟩
                  · rw [output, Tool.output_writing, flatten, List.append_assoc]
                    rfl
                  · rw [List.length_append]
                    omega

/-- Nothing that was written is taken back. -/
theorem output_le_copyBodyFrames (fuel : Nat) (bodyRemaining : Nat) (tool : Tool) :
    tool.output.length ≤ (endState (copyBodyFrames fuel bodyRemaining tool)).output.length := by
  induction fuel generalizing bodyRemaining tool with
  | zero => exact Nat.le_refl _
  | succ fuel ih =>
      by_cases remain : bodyRemaining = 0
      · subst remain
        exact Nat.le_refl _
      · rw [copyBodyFrames_succ remain]
        have copied := @copied_copyBodyFrame tool bodyRemaining
        cases result : copyBodyFrame bodyRemaining tool with
        | error halt after =>
            rw [bind_of_error result]
            rw [result] at copied
            show tool.output.length ≤ after.output.length
            cases copied with
            | failed =>
                rw [Tool.output_writing, List.length_append]
                exact Nat.le_add_right _ _
            | stopped _ same =>
                rw [Tool.output, Tool.output, same]
        | ok next after =>
            rw [bind_of_ok result]
            rw [result] at copied
            refine Nat.le_trans ?_ (ih next after)
            cases copied with
            | all =>
                rw [Tool.output_writing, List.length_append]
                exact Nat.le_add_right _ _

/-- An overrun writes more than what remains of the body. -/
theorem Overruns.output_lt {fuel : Nat} (enough : tool.answers.length < fuel)
    (small : bodyRemaining < 2 ^ 64)
    (overruns : Overruns tool.answers tool.current.writes bodyRemaining) :
    tool.output.length + bodyRemaining <
      (endState (copyBodyFrames fuel bodyRemaining tool)).output.length := by
  induction fuel generalizing bodyRemaining tool with
  | zero => exact absurd enough (Nat.not_lt_zero _)
  | succ fuel ih =>
      cases isNext : tool.answers with
      | nil =>
          rw [isNext] at overruns
          cases overruns
      | cons answer answers =>
          rw [isNext] at overruns enough
          obtain ⟨remain, frame, octets, rfl, isFragment, overrun⟩ := overruns
          rw [copyBodyFrames_succ remain]
          have copied := @copied_copyBodyFrame tool bodyRemaining
          cases result : copyBodyFrame bodyRemaining tool with
          | error halt after =>
              rw [bind_of_error result]
              rw [result] at copied
              show tool.output.length + bodyRemaining < after.output.length
              cases copied with
              | failed isNext' isFragment' none flatten =>
                  cases isNext.symm.trans isNext'
                  cases isFragment.symm.trans isFragment'
                  rw [Tool.output_writing, List.length_append, flatten, List.length_take,
                    Nat.min_eq_left (takes_le _ _)]
                  rcases overrun with exceeds | ⟨_, rest, all, _⟩
                  · exact Nat.add_lt_add_left exceeds _
                  · cases none.symm.trans all
              | stopped other _ => cases isFragment.symm.trans (other _ _ isNext)
          | ok next after =>
              rw [bind_of_ok result]
              rw [result] at copied
              cases copied with
              | @all _ _ _ rest chunks isNext' isFragment' all flatten =>
                  cases isNext.symm.trans isNext'
                  cases isFragment.symm.trans isFragment'
                  let after : Tool := { tool with answers }.writing rest chunks
                  have grown : after.output.length = tool.output.length + octets.length := by
                    rw [Tool.output_writing, List.length_append, flatten]
                    rfl
                  rcases overrun with exceeds | ⟨fits, left, all', later⟩
                  · rw [takes_all all] at exceeds
                    refine Nat.lt_of_lt_of_le ?_ (output_le_copyBodyFrames fuel _ after)
                    rw [grown]
                    exact Nat.add_lt_add_left exceeds _
                  · cases all.symm.trans all'
                    rw [sizeSub_of_le fits small]
                    have onwards := @ih after (bodyRemaining - octets.length)
                      (Nat.lt_of_succ_lt_succ enough) (Nat.lt_of_le_of_lt (Nat.sub_le _ _) small)
                      later
                    rw [grown] at onwards
                    refine Nat.lt_of_le_of_lt (Nat.le_of_eq ?_) onwards
                    omega

/-- Turns of the loop, from what remains of the body before them to what remains after them. -/
inductive Turns : Nat → Tool → Nat → Tool → Prop where
  | refl {bodyRemaining : Nat} {tool : Tool} : Turns bodyRemaining tool bodyRemaining tool
  | step {bodyRemaining next last : Nat} {tool middle after : Tool} : bodyRemaining ≠ 0 →
      copyBodyFrame bodyRemaining tool = .ok next middle → Turns next middle last after →
      Turns bodyRemaining tool last after

/-- A turn without overrun takes off what it has read. -/
theorem le_of_not_overruns {next : Nat} {after : Tool} (remain : bodyRemaining ≠ 0)
    (small : bodyRemaining < 2 ^ 64)
    (within : ¬ Overruns tool.answers tool.current.writes bodyRemaining)
    (turn : copyBodyFrame bodyRemaining tool = .ok next after) :
    next ≤ bodyRemaining ∧ ¬ Overruns after.answers after.current.writes next := by
  have copied := @copied_copyBodyFrame tool bodyRemaining
  rw [turn] at copied
  cases copied with
  | @all frame answers octets rest chunks isNext isFragment left flatten =>
      obtain ⟨fits, behind⟩ := fits_of_not_overruns remain within isNext isFragment left
      rw [sizeSub_of_le fits small]
      exact ⟨Nat.sub_le _ _, behind⟩

theorem Turns.le {next last : Nat} {middle after : Tool}
    (turns : Turns bodyRemaining tool last middle) (small : bodyRemaining < 2 ^ 64)
    (within : ¬ Overruns tool.answers tool.current.writes bodyRemaining) (remain : last ≠ 0)
    (turn : copyBodyFrame last middle = .ok next after) : next ≤ last := by
  induction turns with
  | refl => exact (le_of_not_overruns remain small within turn).1
  | step remains first _ ih =>
      obtain ⟨le, within⟩ := le_of_not_overruns remains small within first
      exact ih (Nat.lt_of_le_of_lt le small) within remain turn

end Copying

/-! ## Bodies -/

/-- `copy_body` returns when it has written the body of the message and nothing else, never
writes more, and never takes more from what remains than is there. -/
structure CopiesBody (tool : Tool) : Prop where
  returned : ∀ after, copyBody tool = .ok () after → ∃ header bodies fragments size,
    tool.answers = .ok header :: (bodies.map .ok ++ after.answers) ∧
      header.bodySize? = some size ∧ AreFragments bodies fragments ∧
      fragments.flatten.length = size ∧ after.output = tool.output ++ fragments.flatten
  bounded : ∀ header answers size, tool.answers = .ok header :: answers →
    header.bodySize? = some size →
      (endState (copyBody tool)).output.length ≤ tool.output.length + size
  unwrapped : ∀ header answers size, tool.answers = .ok header :: answers →
    header.bodySize? = some size → ∀ bodyRemaining next middle after,
      Turns size { tool with answers } bodyRemaining middle → bodyRemaining ≠ 0 →
        copyBodyFrame bodyRemaining middle = .ok next after → next ≤ bodyRemaining

section Bodies

variable {tool : Tool}

/-- The header, and how the loop starts behind it. -/
theorem copyBody_of_header {header : Frame} {answers : List (Except Status Frame)} {size : Nat}
    (isNext : tool.answers = .ok header :: answers) (isHeader : header.bodySize? = some size) :
    size < 2 ^ 64 ∧ copyBody tool =
      copyBodyFrames (answers.length + 1) size { tool with answers } := by
  unfold Frame.bodySize? at isHeader
  by_cases isType : header.frameType = amqpFrameHeader
  · rw [if_pos isType] at isHeader
    cases isPayload : header.payload with
    | properties classId bodySize decoded raw =>
        rw [isPayload] at isHeader
        cases isHeader
        refine ⟨bodySize.toNat_lt, ?_⟩
        have reads : copyHeader tool = .ok bodySize.toNat { tool with answers } := by
          refine (bind_of_ok (nextFrame_run isNext)).trans ((bind_of_ok rfl).trans ?_)
          rw [if_neg (not_not_intro isType), isPayload]
          rfl
        exact bind_of_ok reads
    | none | method | bodyFragment | protocolHeader =>
        rw [isPayload] at isHeader
        cases isHeader
  · rw [if_neg isType] at isHeader
    cases isHeader

/-- Without a header nothing is written. -/
theorem copyBody_of_no_header (missing : ∀ header answers, tool.answers = .ok header :: answers →
    header.bodySize? = none) : ∃ halt after, copyBody tool = .error halt after := by
  have refused : ∃ halt after, copyHeader tool = .error halt after ∧ after.trace = tool.trace := by
    apply refused_nextFrame
    intro header answers isNext
    have noSize := missing header answers isNext
    unfold Frame.bodySize? at noSize
    by_cases isType : header.frameType = amqpFrameHeader
    · rw [if_pos isType] at noSize
      rw [if_neg (not_not_intro isType)]
      cases isPayload : header.payload with
      | properties classId bodySize decoded raw =>
          rw [isPayload] at noSize
          cases noSize
      | none | method | bodyFragment | protocolHeader => exact ⟨_, rfl⟩
    · rw [if_pos isType]
      exact ⟨_, rfl⟩
  obtain ⟨halt, after, dies, _⟩ := refused
  exact ⟨halt, after, bind_of_error dies⟩

end Bodies

/-- A body is copied exactly unless it is overrun. -/
theorem copiesBody_iff (tool : Tool) : CopiesBody tool ↔
    ∀ header answers size, tool.answers = .ok header :: answers →
      header.bodySize? = some size → ¬ Overruns answers tool.current.writes size := by
  constructor
  · intro copies header answers size isNext isHeader overruns
    obtain ⟨small, starts⟩ := copyBody_of_header isNext isHeader
    have bounded := copies.bounded header answers size isNext isHeader
    rw [starts] at bounded
    have exceeds := @Overruns.output_lt { tool with answers } size _ (Nat.lt_succ_self _) small
      overruns
    exact Nat.not_lt.mpr bounded exceeds
  · intro within
    constructor
    · intro after returns
      by_cases started : ∃ header answers size, tool.answers = .ok header :: answers ∧
          header.bodySize? = some size
      · obtain ⟨header, answers, size, isNext, isHeader⟩ := started
        obtain ⟨small, starts⟩ := copyBody_of_header isNext isHeader
        rw [starts] at returns
        rcases @copyBodyFrames_of_not_overruns { tool with answers } size _ (Nat.lt_succ_self _)
          small (within header answers size isNext isHeader) with
          ⟨last, runs, copies⟩ | ⟨halt, last, written, runs, _⟩
        · cases runs.symm.trans returns
          obtain ⟨bodies, fragments, chunks, areFragments, split, isSize, flatten, isAfter⟩ :=
            copies.frames
          refine ⟨header, bodies, fragments, size, ?_, isHeader, areFragments, isSize, ?_⟩
          · rw [isNext]
            exact congrArg (Except.ok header :: ·) split
          · rw [isAfter, Tool.output_writing, flatten]
            rfl
        · cases runs.symm.trans returns
      · obtain ⟨halt, last, dies⟩ := @copyBody_of_no_header tool fun header answers isNext => by
          cases isHeader : header.bodySize? with
          | none => rfl
          | some size => exact absurd ⟨header, answers, size, isNext, isHeader⟩ started
        cases dies.symm.trans returns
    · intro header answers size isNext isHeader
      obtain ⟨small, starts⟩ := copyBody_of_header isNext isHeader
      rw [starts]
      rcases @copyBodyFrames_of_not_overruns { tool with answers } size _ (Nat.lt_succ_self _)
        small (within header answers size isNext isHeader) with
        ⟨last, runs, copies⟩ | ⟨halt, last, written, runs, output, bounded⟩
      · obtain ⟨bodies, fragments, chunks, _, _, isSize, flatten, isAfter⟩ := copies.frames
        rw [runs]
        show last.output.length ≤ _
        rw [isAfter, Tool.output_writing, flatten, List.length_append, isSize]
        exact Nat.le_refl _
      · rw [runs]
        show last.output.length ≤ _
        rw [output, List.length_append]
        exact Nat.add_le_add_left bounded _
    · intro header answers size isNext isHeader bodyRemaining next middle after turns remain turn
      obtain ⟨small, _⟩ := copyBody_of_header isNext isHeader
      exact turns.le small (within header answers size isNext isHeader) remain turn

/-- A message of one octet whose body frame has two, and then no frame for a while. -/
def overlongBody : Tool where
  answers := [.ok ⟨amqpFrameHeader, 1, .properties amqpBasicClass 1 none ⟨0, 0⟩⟩,
    .ok ⟨amqpFrameBody, 1, .bodyFragment [1, 2]⟩]
  handlings := []
  current := .smooth
  trace := []

/-- Both octets are written, and the tool waits for more. -/
theorem overlongBody_is_written : ¬ CopiesBody overlongBody := by
  intro copies
  have bounded := copies.bounded _ _ 1 rfl rfl
  exact absurd bounded (by decide)

end RabbitmqC
