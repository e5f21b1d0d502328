import RabbitmqC.Consumer.Message

/-!
# The class of a content header

`amqp_read_message` hands `frame.payload.properties.decoded` to
`amqp_basic_properties_clone`. The pointer has no type, and the class that the
peer has chosen is not looked at.
-/

set_option autoImplicit false

namespace RabbitmqC

open Effect

/-! ## Any routine for copying -/

/-- A routine in the place of `amqp_basic_properties_clone`, on what the pointer that it
is handed refers to. -/
abbrev CloneRoutine := (classId : UInt16) → Properties classId → Cloner (Properties amqpBasicClass)

/-- The routine of the library. -/
def cloneAsBasic : CloneRoutine := fun classId decoded =>
  match asBasicProperties classId decoded with
  | .error fault => throw (.fault fault)
  | .ok original => amqpBasicPropertiesClone original

/-- `startMessage` over a routine. -/
def startMessageWith (clone : CloneRoutine) (allocs : List Bool) (frame : Frame) :
    EStateM.Result Failure (List Bool) (Properties amqpBasicClass × Nat) :=
  match frame.payload with
  | .properties classId bodySize (some decoded) _ =>
      (do
        let properties ← clone classId decoded
        if bodySize = 0 then
          return (properties, 0)
        else do
          poolAlloc
          return (properties, bodySize.toNat)) allocs
  | _ => .error (.fault .wrongObject) allocs

/-- `amqp_read_message` over a routine. -/
def readMessageWith (clone : CloneRoutine) (allocs : List Bool) (channel : UInt16) (fuel : Nat) :
    Call (Except RpcReply Message) := do
  match ← amqpSimpleWaitFrameOnChannel channel fuel with
  | .error status => return .error (.libraryException status)
  | .ok frame =>
      if frame.frameType ≠ amqpFrameHeader then
        match closeMethod? frame with
        | some method => return .error (.serverException method)
        | none => do
            let _ ← amqpPutBackFrame frame
            return .error (.libraryException .unexpectedState)
      else
        match startMessageWith clone allocs frame with
        | .error (.fault fault) _ => throw (.fault fault)
        | .error (.status status) _ => return .error (.libraryException status)
        | .ok (properties, size) _ => do
            match ← readFragments channel size fuel [] with
            | .error reply => return .error reply
            | .ok body => return .ok ⟨properties, body⟩

theorem startMessage_of_clone {frame : Frame} {original properties : Properties amqpBasicClass}
    {classId : UInt16} {bodySize : UInt64} {decoded : Properties classId} {raw : View}
    (isPayload : frame.payload = .properties classId bodySize (some decoded) raw)
    (basic : asBasicProperties classId decoded = .ok original)
    (cloned : amqpBasicPropertiesClone original [] = .ok properties []) :
    startMessage [] frame = .ok (properties, bodySize.toNat) [] := by
  unfold startMessage
  rw [isPayload]
  simp only [basic]
  rw [bind_of_ok cloned]
  by_cases empty : bodySize = 0
  · rw [if_pos empty, empty]
    rfl
  · rw [if_neg empty, bind_of_ok poolAlloc_granted]
    rfl

theorem startMessageWith_cloneAsBasic (allocs : List Bool) (frame : Frame) :
    startMessageWith cloneAsBasic allocs frame = startMessage allocs frame := by
  obtain ⟨frameType, channel, payload⟩ := frame
  cases payload with
  | method | bodyFragment | none | protocolHeader => rfl
  | properties classId bodySize decoded raw =>
      cases decoded with
      | none => rfl
      | some decoded =>
          simp only [startMessageWith, startMessage, cloneAsBasic]
          cases asBasicProperties classId decoded with
          | error fault => rfl
          | ok original => rfl

/-- With the library's routine it is `amqp_read_message`. -/
theorem readMessageWith_cloneAsBasic : readMessageWith cloneAsBasic = amqpReadMessage := by
  have same : startMessageWith cloneAsBasic = startMessage :=
    funext fun allocs => funext (startMessageWith_cloneAsBasic allocs)
  funext allocs channel fuel
  unfold readMessageWith
  rw [same]
  rfl

/-! ## Classes -/

/-- The class of a content header. -/
def Frame.headerClass? (frame : Frame) : Option UInt16 :=
  if frame.frameType = amqpFrameHeader then
    match frame.payload with
    | .properties classId _ (some _) _ => some classId
    | _ => none
  else
    none

/-- A content header of a class that is not `AMQP_BASIC_CLASS`. -/
def OtherClass (frame : Frame) : Prop :=
  ∃ classId, frame.headerClass? = some classId ∧ classId ≠ amqpBasicClass

/-- The frame that a call takes first. -/
def TakesFirst (channel : UInt16) (fuel : Nat) (world : World) (frame : Frame) : Prop :=
  ∃ after, amqpSimpleWaitFrameOnChannel channel fuel world = .ok (.ok frame) after

/-- Only a struct of the class `AMQP_BASIC_CLASS` is copied: what the routine would do with
another one makes no difference, and a header of another class is an error. -/
structure ChecksClass (channel : UInt16) (fuel : Nat) (world : World) : Prop where
  passes : ∀ clone other : CloneRoutine,
    (∀ original, clone amqpBasicClass original = other amqpBasicClass original) →
    ∀ allocs, readMessageWith clone allocs channel fuel world =
      readMessageWith other allocs channel fuel world
  refuses : ∀ frame, TakesFirst channel fuel world frame → OtherClass frame →
    ∀ allocs, ∃ reply after, amqpReadMessage allocs channel fuel world = .ok (.error reply) after

/-- A routine that fails on the structs of other classes in its own way. -/
def failingWith (failure : Failure) : CloneRoutine := fun classId _ =>
  if classId = amqpBasicClass then throw (.status .noMemory) else throw failure

section Classes

variable {channel : UInt16} {fuel : Nat} {world : World}

theorem headerClass?_eq_some {frame : Frame} {classId : UInt16}
    (isClass : frame.headerClass? = some classId) : ∃ bodySize decoded raw,
      frame = ⟨amqpFrameHeader, frame.channel, .properties classId bodySize (some decoded) raw⟩ := by
  obtain ⟨frameType, channel, payload⟩ := frame
  unfold Frame.headerClass? at isClass
  dsimp only at isClass
  split at isClass
  · rename_i isHeader
    cases isHeader
    split at isClass
    · cases isClass
      exact ⟨_, _, _, rfl⟩
    · cases isClass
  · cases isClass

/-- A struct of another class reaches the routine, so that its failure is seen. -/
theorem readMessageWith_failingWith {frame : Frame} {after : World} (other : OtherClass frame)
    (taken : amqpSimpleWaitFrameOnChannel channel fuel world = .ok (.ok frame) after) :
    readMessageWith (failingWith (.fault .wrongObject)) [] channel fuel world =
        .error (.fault .wrongObject) after ∧
      readMessageWith (failingWith (.status .noMemory)) [] channel fuel world =
        .ok (.error (.libraryException .noMemory)) after := by
  obtain ⟨classId, isClass, differs⟩ := other
  obtain ⟨bodySize, decoded, raw, isHeader⟩ := headerClass?_eq_some isClass
  rw [isHeader] at taken
  unfold readMessageWith
  constructor
  · rw [bind_of_ok taken]
    simp only [ne_eq, not_true_eq_false, if_false, startMessageWith, failingWith, if_neg differs]
    rfl
  · rw [bind_of_ok taken]
    simp only [ne_eq, not_true_eq_false, if_false, startMessageWith, failingWith, if_neg differs]
    rfl

theorem startMessageWith_congr {clone other : CloneRoutine} {frame : Frame}
    (agree : ∀ original, clone amqpBasicClass original = other amqpBasicClass original)
    (isHeader : frame.frameType = amqpFrameHeader) (basic : ¬ OtherClass frame)
    (allocs : List Bool) :
    startMessageWith clone allocs frame = startMessageWith other allocs frame := by
  obtain ⟨frameType, channel, payload⟩ := frame
  cases isHeader
  cases payload with
  | method | bodyFragment | none | protocolHeader => rfl
  | properties classId bodySize decoded raw =>
      cases decoded with
      | none => rfl
      | some decoded =>
          by_cases same : classId = amqpBasicClass
          · subst same
            simp only [startMessageWith, agree]
          · exact absurd ⟨classId, rfl, same⟩ basic

theorem readMessageWith_congr {clone other : CloneRoutine}
    (agree : ∀ original, clone amqpBasicClass original = other amqpBasicClass original)
    (basic : ∀ frame, TakesFirst channel fuel world frame → ¬ OtherClass frame) (allocs : List Bool) :
    readMessageWith clone allocs channel fuel world =
      readMessageWith other allocs channel fuel world := by
  unfold readMessageWith
  cases taken : amqpSimpleWaitFrameOnChannel channel fuel world with
  | error stop after => rw [bind_of_error taken, bind_of_error taken]
  | ok result after =>
      rw [bind_of_ok taken, bind_of_ok taken]
      cases result with
      | error status => rfl
      | ok frame =>
          dsimp only
          by_cases isHeader : frame.frameType = amqpFrameHeader
          · rw [if_neg (not_not_intro isHeader), if_neg (not_not_intro isHeader),
              startMessageWith_congr agree isHeader (basic frame ⟨after, taken⟩)]
          · rw [if_pos isHeader, if_pos isHeader]

end Classes

/-- Nothing but the peer's choice keeps the struct of another class from being copied. -/
theorem checksClass_iff (channel : UInt16) (fuel : Nat) (world : World) :
    ChecksClass channel fuel world ↔
      ∀ frame, TakesFirst channel fuel world frame → ¬ OtherClass frame := by
  constructor
  · rintro checks frame ⟨after, taken⟩ other
    obtain ⟨faulty, failing⟩ := readMessageWith_failingWith other taken
    have same := checks.passes (failingWith (.fault .wrongObject)) (failingWith (.status .noMemory))
      (fun _ => rfl) []
    rw [faulty, failing] at same
    cases same
  · intro basic
    constructor
    · intro clone other agree allocs
      exact readMessageWith_congr agree basic allocs
    · intro frame takes other
      exact absurd other (basic frame takes)

/-- A content header of the class `connection` on channel 1, without flags and with an
empty body. -/
def connectionHeaderWorld : World :=
  tunedWorld
    { clock := []
      recvs := [.data ⟨frameOctets amqpFrameHeader 1 ([0, 10, 0, 0] ++ List.replicate 8 0 ++ [0, 0]),
        by decide, by decide⟩]
      sends := []
      recvPolls := []
      sendPolls := []
      closes := []
      links := []
      memory := fun _ => grantingMemory }

/-- The call returns a message. -/
theorem connection_header_accepted : ¬ ∀ channel fuel world, ChecksClass channel fuel world := by
  intro checks
  have delivered : ((returned? (amqpReadMessage [] 1 6 connectionHeaderWorld)).bind
      Except.toOption).isSome = true := by decide +kernel
  have isClass : ((returned? (amqpSimpleWaitFrameOnChannel 1 6 connectionHeaderWorld)).bind
      Except.toOption).bind Frame.headerClass? = some 10 := by decide +kernel
  obtain ⟨frame, taken, isClass⟩ := Option.bind_eq_some_iff.mp isClass
  obtain ⟨result, taken, isFrame⟩ := Option.bind_eq_some_iff.mp taken
  obtain ⟨after, taken⟩ := returned?_eq_some.mp taken
  cases result with
  | error status => cases isFrame
  | ok found =>
      cases isFrame
      obtain ⟨reply, final, refused⟩ := (checks 1 6 connectionHeaderWorld).refuses frame
        ⟨after, taken⟩ ⟨10, isClass, by decide⟩ []
      rw [refused] at delivered
      cases delivered

end RabbitmqC
