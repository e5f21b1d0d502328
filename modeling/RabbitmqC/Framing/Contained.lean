import RabbitmqC.Framing.FlagWords
import RabbitmqC.Table.Totality

/-!
# Decoding within a buffer

As long as the octets of a buffer lie in their memory object, the decoders of methods and
of content properties end with a value or with a code. The exceptions are a third flag word
and a table with more entries than are counted.
-/

set_option autoImplicit false

namespace RabbitmqC

open Effect

/-- From an offset in the buffer `decode` comes to another one, or fails with a code. -/
def Settles {α : Type} (encoded : Encoded) (decode : Decoder α) : Prop :=
  Triple (fun state => state.offset ≤ encoded.len) decode
    (fun _ state => state.offset ≤ encoded.len)
    (fun failure _ => ∃ status, failure = .status status)

section Settling

variable {α β : Type} {encoded : Encoded} {decode : Decoder α}

theorem Settles.map (settles : Settles encoded decode) (change : α → β) :
    Settles encoded (change <$> decode) :=
  Triple.bind settles fun _ => .pure fun _ inside => inside

theorem settles_pure {value : α} : Settles encoded (pure value : Decoder α) :=
  .pure fun _ inside => inside

theorem settles_throw {status : Status} : Settles encoded (throw (.status status) : Decoder α) :=
  .throw fun _ _ => ⟨status, rfl⟩

theorem settles_allocate : Settles encoded allocate := by
  apply Triple.get_bind
  intro state inside
  rintro _ rfl
  cases answered : state.allocs with
  | nil => exact inside
  | cons outcome rest => exact inside

end Settling

section Decoders

variable {encoded : Encoded} (inside : encoded.base + encoded.len ≤ encoded.mem.size)
  (small : encoded.len < 2 ^ 32)

include inside small

theorem settles_amqpDecodeBytes {count : Nat} (narrow : count < 2 ^ 32) :
    Settles encoded (amqpDecodeBytes encoded count).orBad := by
  rintro ⟨offset, allocs⟩ within
  dsimp only at within
  have run := @amqpDecodeBytes_run encoded offset count allocs inside (by omega)
  by_cases room : offset + count ≤ encoded.len
  · rw [if_pos room] at run
    obtain ⟨octets, read⟩ := @Buffer.read?_isSome encoded.mem (encoded.base + offset) count
      (by omega)
    rw [read] at run
    rw [orBad_of_some run]
    exact room
  · rw [if_neg room] at run
    rw [orBad_of_none run]
    exact ⟨_, rfl⟩

theorem settles_decodeWord {width : Nat} (narrow : width < 2 ^ 32) :
    Settles encoded (decodeWord width encoded).orBad := by
  unfold decodeWord
  rw [orBad_map]
  exact (settles_amqpDecodeBytes inside small narrow).map _

theorem settles_amqpDecode8 : Settles encoded (amqpDecode8 encoded).orBad := by
  unfold amqpDecode8
  rw [orBad_map]
  exact (settles_decodeWord inside small (by decide)).map _

theorem settles_amqpDecode16 : Settles encoded (amqpDecode16 encoded).orBad := by
  unfold amqpDecode16
  rw [orBad_map]
  exact (settles_decodeWord inside small (by decide)).map _

theorem settles_amqpDecode32 : Settles encoded (amqpDecode32 encoded).orBad := by
  unfold amqpDecode32
  rw [orBad_map]
  exact (settles_decodeWord inside small (by decide)).map _

theorem settles_amqpDecode64 : Settles encoded (amqpDecode64 encoded).orBad := by
  unfold amqpDecode64
  rw [orBad_map]
  exact (settles_decodeWord inside small (by decide)).map _

/-- The flag words that are read lie in the buffer. -/
theorem decodeFlagWords_within (turns flagwordIndex : Nat) (flags : UInt32) :
    Triple (fun state => state.offset ≤ encoded.len)
      (decodeFlagWords encoded turns flagwordIndex flags)
      (fun _ state => state.offset ≤ encoded.len) (fun _ _ => True) := by
  have word := (settles_amqpDecode16 inside small).raise fun _ _ _ => trivial
  induction turns generalizing flagwordIndex flags with
  | zero =>
      apply Triple.bind word
      intro next
      exact .throw fun _ _ => trivial
  | succ turns ih =>
      apply Triple.bind word
      intro next
      apply Triple.ite
      · intro more
        exact ih _ _
      · intro last
        exact .pure fun _ within => within

variable (few : ∀ start, ¬ ContainerOverfull encoded true start)

include few

theorem settles_amqpDecodeTable : Settles encoded (amqpDecodeTable encoded) := by
  rintro ⟨offset, allocs⟩ within
  dsimp only at within
  have outcome := amqpDecodeTable_outcome inside (by omega) (few offset) allocs
  cases returned : amqpDecodeTable encoded ⟨offset, allocs⟩ with
  | ok table after =>
      rw [returned] at outcome
      cases outcome with
      | decoded within _ => exact within
  | error failure after =>
      rw [returned] at outcome
      cases outcome with
      | malformed => exact ⟨_, rfl⟩
      | noMemory _ => exact ⟨_, rfl⟩

theorem settles_decodeField (domain : Domain) : Settles encoded (decodeField encoded domain) := by
  cases domain with
  | octet => exact settles_amqpDecode8 inside small
  | short => exact settles_amqpDecode16 inside small
  | long => exact settles_amqpDecode32 inside small
  | longlong => exact settles_amqpDecode64 inside small
  | shortstr =>
      apply Triple.bind (settles_amqpDecode8 inside small)
      intro len
      have narrow : len.toNat < 2 ^ 32 := Nat.lt_trans len.toNat_lt (by decide)
      exact settles_amqpDecodeBytes inside small narrow
  | longstr =>
      apply Triple.bind (settles_amqpDecode32 inside small)
      intro len
      exact settles_amqpDecodeBytes inside small len.toNat_lt
  | bits count => exact (settles_amqpDecode8 inside small).map _
  | table => exact settles_amqpDecodeTable inside small few

theorem settles_decodeFields (domains : List Domain) :
    Settles encoded (decodeFields encoded domains) := by
  induction domains with
  | nil => exact settles_pure
  | cons domain domains ih =>
      apply Triple.bind (settles_decodeField inside small few domain)
      intro value
      exact Triple.bind ih fun _ => settles_pure

theorem settles_decodeDeclared (declared : Option (List Domain)) :
    Settles encoded (decodeDeclared encoded declared) := by
  cases declared with
  | none => exact settles_throw
  | some domains =>
      apply Triple.bind settles_allocate
      intro granted
      cases granted with
      | false => exact settles_throw
      | true => exact settles_decodeFields inside small few domains

theorem settles_amqpDecodeMethod (methodNumber : UInt32) :
    Settles encoded (amqpDecodeMethod methodNumber encoded) :=
  settles_decodeDeclared inside small few (methodArguments methodNumber)

theorem settles_decodeProperties (flags : UInt32) (properties : List Property) :
    Settles encoded (decodeProperties encoded flags properties) := by
  induction properties with
  | nil => exact settles_pure
  | cons property properties ih =>
      have field : Settles encoded (decodeProperty encoded flags property) := by
        unfold decodeProperty
        split
        · exact (settles_decodeField inside small few property.domain).map _
        · exact settles_pure
      apply Triple.bind field
      intro value
      exact Triple.bind ih fun _ => settles_pure

theorem settles_decodeDeclaredProperties (flags : UInt32) (declared : Option (List Property)) :
    Settles encoded (decodeDeclaredProperties encoded flags declared) := by
  cases declared with
  | none => exact settles_throw
  | some properties =>
      apply Triple.bind settles_allocate
      intro granted
      cases granted with
      | false => exact settles_throw
      | true => exact settles_decodeProperties inside small few flags properties

/-- Without a third flag word the properties are decoded, or refused with a code. -/
theorem amqpDecodeProperties_settles {classId : UInt16} {allocs : List Bool} {failure : Failure}
    {after : DecodeState}
    (notThree : ¬ (encoded.Continues 0 ∧ encoded.Continues 2 ∧ 6 ≤ encoded.len))
    (raised : amqpDecodeProperties classId encoded ⟨0, allocs⟩ = .error failure after) :
    ∃ status, failure = .status status := by
  have words := @decodeFlagWords_loop encoded allocs inside
  rcases bind_eq_error.mp raised with inWords | ⟨flags, between, decoded, inFields⟩
  · rw [inWords] at words
    cases words with
    | short _ => exact ⟨_, rfl⟩
    | shifted first second whole => exact absurd ⟨first, second, whole⟩ notThree
  · have within := (decodeFlagWords_within inside small 2 0 0).ok (Nat.zero_le _) decoded
    have fields := settles_decodeDeclaredProperties inside small few flags (classProperties classId)
    rcases bind_eq_error.mp inFields with inField | ⟨_, _, _, finished⟩
    · exact fields.error within inField
    · cases finished

end Decoders

end RabbitmqC
