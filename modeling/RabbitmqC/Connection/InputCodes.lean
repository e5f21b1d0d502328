import RabbitmqC.Connection.Reader

/-!
# What `amqp_handle_input` answers

A count of octets or one of four codes. The `default` case of its `switch`, which
ends the process, is not reached, because the idle state has been left before.
-/

set_option autoImplicit false

namespace RabbitmqC

open Effect

/-- The codes of `amqp_handle_input`. -/
def inputCodes : List Status := [.badAmqpData, .noMemory, .unknownMethod, .unknownClass]

/-- A count or one of the codes is returned; undefined behaviour is left open. -/
inductive Answers : Except Fault Handled → Prop where
  | counted {reader : Reader} {count : Int} {frame : Frame} :
      Answers (.ok ⟨reader, .ok count, frame⟩)
  | refused {reader : Reader} {status : Status} {frame : Frame} :
      status ∈ inputCodes → Answers (.ok ⟨reader, .error status, frame⟩)
  | faulty {fault : Fault} : fault ≠ .abort → Answers (.error fault)

/-- A step that does not end the process. -/
def Survives {α : Type} (step : Except Fault α) : Prop := step ≠ .error .abort

theorem Survives.answers {α : Type} {step : Except Fault α} {next : α → Except Fault Handled}
    (survives : Survives step) (answers : ∀ value, Answers (next value)) :
    Answers (step >>= next) := by
  cases step with
  | error fault => exact .faulty fun abort => survives (by rw [abort])
  | ok value => exact answers value

theorem Survives.map {α β : Type} {step : Except Fault α} {change : α → β}
    (survives : Survives step) : Survives (change <$> step) := by
  cases step with
  | error fault =>
      intro abort
      cases abort
      exact survives rfl
  | ok value =>
      intro abort
      cases abort

theorem survives_rawWord {raw : Buffer} {span : View} : Survives (rawWord raw span) := by
  unfold rawWord Survives
  split <;> simp

theorem survives_rawFrame {reader : Reader} : Survives reader.rawFrame := by
  unfold Reader.rawFrame Survives
  split <;> simp

section Cases

variable {memory : FrameMemory} {reader : Reader} {receivedData : List UInt8} {bytesConsumed : Nat}

theorem survives_writeInbound {offset : Nat} {data : List UInt8} :
    Survives (reader.writeInbound offset data) := by
  unfold Reader.writeInbound Survives
  cases reader.inbound with
  | header =>
      dsimp only
      split <;> simp
  | block mem amount =>
      dsimp only
      split <;> simp
  | null => simp

theorem survives_consumeData : Survives (consumeData reader receivedData) :=
  survives_writeInbound.map

/-- The payload is decoded, or the decoder's code is passed on. -/
inductive Decodes : Except Fault (Except Status Unit × Payload) → Prop where
  | decoded {payload : Payload} : Decodes (.ok (.ok (), payload))
  | refused {status : Status} {payload : Payload} :
      status ∈ inputCodes → Decodes (.ok (.error status, payload))
  | faulty {fault : Fault} : fault ≠ .abort → Decodes (.error fault)

theorem code_of_decodeFailures {status : Status} (fails : .status status ∈ decodeFailures) :
    status ∈ inputCodes := by
  simp only [decodeFailures, List.mem_cons, Failure.status.injEq, reduceCtorEq, or_false,
    List.not_mem_nil] at fails
  simpa [inputCodes] using fails

theorem fault_of_decodeFailures {fault : Fault} (fails : .fault fault ∈ decodeFailures) :
    fault ≠ .abort := by
  rintro rfl
  exact absurd fails (by decide)

theorem Survives.decodes {α : Type} {step : Except Fault α}
    {next : α → Except Fault (Except Status Unit × Payload)} (survives : Survives step)
    (decodes : ∀ value, Decodes (next value)) : Decodes (step >>= next) := by
  cases step with
  | error fault => exact .faulty fun abort => survives (by rw [abort])
  | ok value => exact decodes value

theorem decodes_methodPayload {raw : Buffer} {targetSize : Nat} :
    Decodes (methodPayload memory raw targetSize) := by
  apply survives_rawWord.map.decodes
  intro id
  split
  · exact .decoded
  · exact .refused (code_of_decodeFailures (tame_amqpDecodeMethod _ ‹_›))
  · exact .faulty (fault_of_decodeFailures (tame_amqpDecodeMethod _ ‹_›))

theorem decodes_headerPayload {raw : Buffer} {targetSize : Nat} :
    Decodes (headerPayload memory raw targetSize) := by
  apply survives_rawWord.map.decodes
  intro classId
  apply survives_rawWord.map.decodes
  intro bodySize
  split
  · exact .decoded
  · exact .refused (code_of_decodeFailures (tame_amqpDecodeProperties _ ‹_›))
  · exact .faulty (fault_of_decodeFailures (tame_amqpDecodeProperties _ ‹_›))

theorem decodes_bodyPayload {raw : Buffer} {targetSize : Nat} :
    Decodes (bodyPayload raw targetSize) := by
  unfold bodyPayload
  split
  · exact .decoded
  · exact .faulty (by simp)

/-- What follows the inner `switch`. -/
theorem answers_of_decodes {step : Except Fault (Except Status Unit × Payload)}
    {complete : Payload → Frame} (decodes : Decodes step) :
    Answers (do
      let (result, frame) ← (do
        let (result, payload) ← step
        return (result, complete payload) : Except Fault (Except Status Unit × Frame))
      match result with
      | .error status => return ⟨reader, .error status, frame⟩
      | .ok () => return ⟨returnToIdle reader, .ok (intOfSize bytesConsumed), frame⟩) := by
  cases decodes with
  | decoded => exact .counted
  | refused isCode => exact .refused isCode
  | faulty survives => exact .faulty survives

theorem answers_decodePayload {raw : Buffer} {targetSize : Nat} {frameType : UInt8}
    {channel : UInt16} :
    Answers (do
      let (result, frame) ← decodePayload memory raw targetSize frameType channel
      match result with
      | .error status => return ⟨reader, .error status, frame⟩
      | .ok () => return ⟨returnToIdle reader, .ok (intOfSize bytesConsumed), frame⟩) := by
  unfold decodePayload
  split
  · exact answers_of_decodes decodes_methodPayload
  · split
    · exact answers_of_decodes decodes_headerPayload
    · split
      · exact answers_of_decodes decodes_bodyPayload
      · split
        · exact .counted
        · exact .counted

theorem answers_bodyCase : Answers (bodyCase memory reader bytesConsumed) := by
  apply survives_rawFrame.answers
  intro raw
  apply survives_rawWord.answers
  intro frameEnd
  split
  · exact .refused (by decide)
  · apply survives_rawWord.map.answers
    intro frameType
    apply survives_rawWord.map.answers
    intro channel
    split
    · exact .refused (by decide)
    · exact answers_decodePayload

theorem answers_readBody : Answers (readBody memory reader receivedData bytesConsumed) := by
  apply survives_consumeData.answers
  rintro ⟨reader, more⟩
  dsimp only
  split
  · exact .counted
  · exact answers_bodyCase

theorem answers_headerCase : Answers (headerCase memory reader receivedData bytesConsumed) := by
  apply survives_rawFrame.answers
  intro raw
  apply survives_rawWord.map.answers
  intro channel
  apply survives_rawWord.answers
  intro frameSize
  split
  · exact .refused (by decide)
  · split
    · exact .refused (by decide)
    · split
      · exact .refused (by decide)
      · split
        · exact .refused (by decide)
        · have started {amount : Nat} (reader : Reader) (isNew : Bool) (block : PoolBlock amount) :
              Survives (startBody reader isNew block) := by
            unfold startBody Survives
            dsimp only
            split <;> simp
          exact (started _ _ _).answers fun _ => answers_readBody

theorem answers_initialCase : Answers (initialCase memory reader receivedData bytesConsumed) := by
  apply survives_rawFrame.answers
  intro raw
  split
  · exact .faulty (by simp)
  · split
    · apply survives_rawWord.map.answers
      intro transportHigh
      apply survives_rawWord.map.answers
      intro transportLow
      apply survives_rawWord.map.answers
      intro versionMajor
      exact survives_rawWord.map.answers fun _ => .counted
    · exact answers_headerCase

/-- The cases of the `switch` do not include the idle state. -/
theorem answers_handleComplete (left : reader.state ≠ .idle) :
    Answers (handleComplete memory reader receivedData bytesConsumed) := by
  unfold handleComplete
  cases state : reader.state with
  | initial => exact answers_initialCase
  | header => exact answers_headerCase
  | body => exact answers_bodyCase
  | idle => exact absurd state left

theorem state_of_consumeData {after : Reader} {count : Nat}
    (consumed : consumeData reader receivedData = .ok (after, count)) :
    after.state = reader.state := by
  obtain ⟨written, wrote, finished⟩ := except_bind_eq_ok.mp consumed
  cases finished
  unfold Reader.writeInbound at wrote
  split at wrote
  · split at wrote
    · cases wrote
      rfl
    · cases wrote
  · split at wrote
    · cases wrote
      rfl
    · cases wrote
  · cases wrote

theorem leaveIdle_state : (leaveIdle reader).state ≠ .idle := by
  unfold leaveIdle
  split
  · simp
  · assumption

end Cases

theorem amqpHandleInput_answers (memory : FrameMemory) (reader : Reader)
    (receivedData : List UInt8) : Answers (amqpHandleInput memory reader receivedData) := by
  unfold amqpHandleInput
  split
  · exact .counted
  · cases consumed : consumeData (leaveIdle reader) receivedData with
    | error fault => exact .faulty fun abort => survives_consumeData (abort ▸ consumed)
    | ok result =>
        obtain ⟨after, bytesConsumed⟩ := result
        rw [except_bind_ok]
        dsimp only
        split
        · exact .counted
        · apply answers_handleComplete
          rw [state_of_consumeData consumed]
          exact leaveIdle_state

end RabbitmqC
