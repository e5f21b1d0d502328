import RabbitmqC.Lib.MemoryFunctions
import RabbitmqC.Login.Handshake

/-!
# The search for a SASL mechanism

`sasl_mechanism_in_list` goes through a string of the broker with two cursors, of which
`start` may get past the end. It finds the words between the spaces and reads nothing else.
-/

set_option autoImplicit false

namespace RabbitmqC

open Effect

/-! ## Words -/

/-- A string is a last word, or a word with a space and a string behind it. -/
inductive Words : List UInt8 → Prop where
  | last {word} : space ∉ word → Words word
  | word {word next} : space ∉ word → Words (word ++ space :: next)

theorem words (start : List UInt8) : Words start := by
  induction start with
  | nil => exact .last List.not_mem_nil
  | cons octet start ih =>
      by_cases isSpace : octet = space
      · subst isSpace
        exact @Words.word [] start List.not_mem_nil
      · have different : space ≠ octet := fun same => isSpace same.symm
        cases ih with
        | last unspaced => exact .last (List.not_mem_cons_of_ne_of_not_mem different unspaced)
        | @word word next unspaced =>
            exact @Words.word (octet :: word) next
              (List.not_mem_cons_of_ne_of_not_mem different unspaced)

section Words

variable {mechanism word : List UInt8}

theorem keeps_word (unspaced : space ∉ word) : ∀ octet ∈ word, decide (octet ≠ space) = true := by
  intro octet member
  have different : octet ≠ space := by
    rintro rfl
    exact unspaced member
  simp [different]

theorem takeWhile_last (unspaced : space ∉ word) : word.takeWhile (· ≠ space) = word :=
  List.takeWhile_eq_self_iff.mpr (keeps_word unspaced)

theorem dropWhile_last (unspaced : space ∉ word) : word.dropWhile (· ≠ space) = [] :=
  List.dropWhile_eq_nil_iff.mpr (keeps_word unspaced)

theorem takeWhile_word (unspaced : space ∉ word) (next : List UInt8) :
    (word ++ space :: next).takeWhile (· ≠ space) = word := by
  rw [List.takeWhile_append_of_pos (keeps_word unspaced)]
  simp

theorem dropWhile_word (unspaced : space ∉ word) (next : List UInt8) :
    (word ++ space :: next).dropWhile (· ≠ space) = space :: next := by
  rw [List.dropWhile_append_of_pos (keeps_word unspaced)]
  simp

theorem mechanismInList_last (unspaced : space ∉ word) (fuel : Nat) :
    mechanismInList mechanism (fuel + 1) word = decide (mechanism = word) := by
  unfold mechanismInList
  rw [takeWhile_last unspaced, dropWhile_last unspaced]
  by_cases same : mechanism = word
  · simp [same]
  · simp [same]

theorem mechanismInList_word (unspaced : space ∉ word) (next : List UInt8) (fuel : Nat) :
    mechanismInList mechanism (fuel + 1) (word ++ space :: next) =
      (decide (mechanism = word) || mechanismInList mechanism fuel next) := by
  rw [mechanismInList, takeWhile_word unspaced, dropWhile_word unspaced]
  by_cases same : mechanism = word
  · simp [same]
  · simp [same]

/-- The loop finds the words between spaces. -/
theorem mechanismInList_iff {start : List UInt8} {fuel : Nat} (enough : start.length < fuel) :
    mechanismInList mechanism fuel start = true ↔ mechanism ∈ start.splitOn space := by
  induction fuel generalizing start with
  | zero => exact absurd enough (Nat.not_lt_zero _)
  | succ fuel ih =>
      cases words start with
      | last unspaced =>
          rw [mechanismInList_last unspaced, List.splitOn_eq_singleton unspaced,
            List.mem_singleton, decide_eq_true_iff]
      | @word word next unspaced =>
          have shorter : next.length < fuel := by
            rw [List.length_append, List.length_cons] at enough
            omega
          rw [mechanismInList_word unspaced, List.splitOn_append_cons_self,
            List.splitOn_eq_singleton unspaced, List.singleton_append, List.mem_cons,
            Bool.or_eq_true, decide_eq_true_iff, ih shorter]

end Words

theorem SaslMethod.name_ne_nil {method : SaslMethod} {name : List UInt8}
    (supported : saslMethodName method = .ok name) : name ≠ [] := by
  cases method with
  | undefined => cases supported
  | plain username password =>
      cases supported
      decide +kernel
  | external identity =>
      cases supported
      decide +kernel

theorem saslMechanismInList_eq {mechanisms name : List UInt8} {method : SaslMethod}
    (supported : saslMethodName method = .ok name) :
    saslMechanismInList mechanisms method = .ok (decide (name ∈ mechanisms.splitOn space)) := by
  unfold saslMechanismInList
  rw [supported, except_bind_ok]
  by_cases empty : mechanisms = []
  · have unlisted : name ∉ mechanisms.splitOn space := by
      rw [empty, List.splitOn_nil, List.mem_singleton]
      exact SaslMethod.name_ne_nil supported
    rw [if_pos empty, decide_eq_false unlisted]
    rfl
  · have listed : mechanismInList name (mechanisms.length + 1) mechanisms =
        decide (name ∈ mechanisms.splitOn space) := by
      rw [Bool.eq_iff_iff, mechanismInList_iff (Nat.lt_succ_self _), decide_eq_true_iff]
    rw [if_neg empty, listed]
    rfl

/-! ## Cursors -/

namespace MechanismSearch

/-- A pointer into a memory object. -/
structure Place where
  object : Buffer
  offset : Nat

/-- `amqp_bytes_t`; a null pointer is `none`. -/
structure AmqpBytes where
  len : Nat
  bytes : Option Place

def Place.octets (place : Place) (count : Nat) : Except Fault (List UInt8) :=
  match place.object.read? place.offset count with
  | some octets => .ok octets
  | none => .error .outOfBoundsRead

def memchr (place : Place) (octet : UInt8) (count : Nat) : Except Fault (Option Nat) :=
  match place.object.memchr octet place.offset count with
  | some found => .ok found
  | none => .error .outOfBoundsRead

def amqpCstringBytes (cstr : Buffer) : AmqpBytes where
  len := (CString.read cstr.bytes 0).length
  bytes := some ⟨cstr, 0⟩

def plainLiteral : Buffer := ⟨CString.ascii "PLAIN" ++ [0], by decide +kernel⟩
def externalLiteral : Buffer := ⟨CString.ascii "EXTERNAL" ++ [0], by decide +kernel⟩

def saslMethodName : SaslMethod → Except Fault AmqpBytes
  | .plain _ _ => .ok (amqpCstringBytes plainLiteral)
  | .external _ => .ok (amqpCstringBytes externalLiteral)
  | .undefined => .error .abort

def bytesEqual (memcmp : Memcmp) (l r : AmqpBytes) : Except Fault Bool :=
  if l.len = r.len then
    match l.bytes, r.bytes with
    | some left, some right => do
        let leftOctets ← left.octets l.len
        let rightOctets ← right.octets l.len
        return memcmp.answer leftOctets rightOctets = 0
    | _, _ => return false
  else
    return false

/-- The loop of `sasl_mechanism_in_list`, from the test of its condition on. Both cursors
are offsets in the string, whose end is its size. -/
def searchLoop (memcmp : Memcmp) (mechanism : AmqpBytes) (mechanisms : Buffer) :
    Nat → Nat → Nat → Except Fault Bool
  | 0, _, _ => .error .outOfFuel
  | fuel + 1, start, current =>
      if current = mechanisms.size then
        return false
      else do
        let found ← memchr ⟨mechanisms, start⟩ space (sizeSub mechanisms.size start)
        let current := found.getD mechanisms.size
        let supportedMechanism : AmqpBytes :=
          ⟨sizeSub current start, some ⟨mechanisms, start⟩⟩
        if ← bytesEqual memcmp mechanism supportedMechanism then
          return true
        else
          searchLoop memcmp mechanism mechanisms fuel (current + 1) current

/-- The string fills an object, so that every octet outside it is out of bounds. -/
def saslMechanismInList (memcmp : Memcmp) (fuel : Nat) (mechanisms : Buffer)
    (method : SaslMethod) : Except Fault Bool := do
  let mechanism ← saslMethodName method
  searchLoop memcmp mechanism mechanisms fuel 0 0

/-! ### Reading -/

/-- A pointer that is not null to so many octets. -/
def AmqpBytes.Spells (bytes : AmqpBytes) (octets : List UInt8) : Prop :=
  bytes.len = octets.length ∧
    ∃ place, bytes.bytes = some place ∧ place.octets octets.length = .ok octets

theorem bytesEqual_of_spells {l r : AmqpBytes} {left right : List UInt8} (memcmp : Memcmp)
    (leftSpells : l.Spells left) (rightSpells : r.Spells right) :
    bytesEqual memcmp l r = .ok (decide (left = right)) := by
  obtain ⟨leftLen, leftPlace, leftBytes, readLeft⟩ := leftSpells
  obtain ⟨rightLen, rightPlace, rightBytes, readRight⟩ := rightSpells
  unfold bytesEqual
  by_cases sameLength : left.length = right.length
  · have same : decide (memcmp.answer left right = 0) = decide (left = right) :=
      decide_eq_decide.mpr (memcmp.answer_eq_zero_iff sameLength)
    rw [← leftLen] at readLeft
    rw [← sameLength, ← leftLen] at readRight
    rw [if_pos (leftLen.trans (sameLength.trans rightLen.symm)), leftBytes, rightBytes]
    simp only [readLeft, readRight, except_bind_ok, same]
    rfl
  · have different : left ≠ right := fun same => sameLength (congrArg List.length same)
    have lens : l.len ≠ r.len := fun same => sameLength (leftLen.symm.trans (same.trans rightLen))
    rw [if_neg lens, decide_eq_false different]
    rfl

theorem spells_saslMethodName {method : SaslMethod} {name : List UInt8}
    (supported : RabbitmqC.saslMethodName method = .ok name) :
    ∃ mechanism, saslMethodName method = .ok mechanism ∧ mechanism.Spells name := by
  cases method with
  | undefined => cases supported
  | plain username password =>
      cases supported
      exact ⟨_, rfl, by decide +kernel, _, rfl, by decide +kernel⟩
  | external identity =>
      cases supported
      exact ⟨_, rfl, by decide +kernel, _, rfl, by decide +kernel⟩

section Search

variable {mechanisms : Buffer} {word next name : List UInt8} {mechanism : AmqpBytes}
  {start current : Nat}

theorem spells_word {rest : List UInt8} (inside : start ≤ mechanisms.size)
    (cut : mechanisms.bytes.drop start = word ++ rest) :
    AmqpBytes.Spells ⟨word.length, some ⟨mechanisms, start⟩⟩ word := by
  have room : start + word.length ≤ mechanisms.size := by
    have lengths := congrArg List.length cut
    rw [List.length_drop, List.length_append] at lengths
    unfold Buffer.size at *
    omega
  have read : mechanisms.read? start word.length = some word := by
    unfold Buffer.read?
    rw [if_pos room, List.slice, cut, List.take_left]
  refine ⟨rfl, _, rfl, ?_⟩
  unfold Place.octets
  rw [read]

theorem memchr_space (inside : start ≤ mechanisms.size) :
    memchr ⟨mechanisms, start⟩ space (sizeSub mechanisms.size start) =
      .ok (if space ∈ mechanisms.bytes.drop start then
        some (start + ((mechanisms.bytes.drop start).takeWhile (· ≠ space)).length)
      else none) := by
  have small : mechanisms.size < 2 ^ 64 := Nat.lt_trans mechanisms.size_lt (by decide)
  have whole : mechanisms.bytes.slice start (mechanisms.size - start) =
      mechanisms.bytes.drop start := by
    unfold List.slice
    apply List.take_of_length_le
    rw [List.length_drop]
    exact Nat.le_refl _
  have found := @Buffer.memchr_of_inside mechanisms space start (mechanisms.size - start) (by omega)
  rw [whole] at found
  unfold memchr
  rw [sizeSub_of_le inside small, found]

/-- The last turn. -/
theorem searchLoop_last (memcmp : Memcmp) (spells : mechanism.Spells name)
    (inside : start ≤ mechanisms.size) (unfinished : current ≠ mechanisms.size)
    (unspaced : space ∉ word) (cut : mechanisms.bytes.drop start = word) (fuel : Nat) :
    searchLoop memcmp mechanism mechanisms (fuel + 2) start current =
      .ok (decide (name = word)) := by
  have stop : mechanisms.size - start = word.length := by
    rw [← cut, List.length_drop]
    rfl
  have small : mechanisms.size < 2 ^ 64 := Nat.lt_trans mechanisms.size_lt (by decide)
  have token := spells_word inside (cut.trans (List.append_nil word).symm)
  have found := memchr_space inside
  rw [cut, if_neg unspaced] at found
  rw [searchLoop, if_neg unfinished, found, except_bind_ok]
  simp only [Option.getD_none, sizeSub_of_le inside small, stop,
    bytesEqual_of_spells memcmp spells token, except_bind_ok, decide_eq_true_eq]
  by_cases same : name = word
  · rw [if_pos same, decide_eq_true same]
    rfl
  · rw [if_neg same, decide_eq_false same, searchLoop, if_pos rfl]
    rfl

/-- A turn that finds a space. -/
theorem searchLoop_word (memcmp : Memcmp) (spells : mechanism.Spells name)
    (inside : start ≤ mechanisms.size) (unfinished : current ≠ mechanisms.size)
    (unspaced : space ∉ word) (cut : mechanisms.bytes.drop start = word ++ space :: next)
    (fuel : Nat) :
    searchLoop memcmp mechanism mechanisms (fuel + 1) start current =
      if name = word then .ok true
      else searchLoop memcmp mechanism mechanisms fuel (start + word.length + 1)
        (start + word.length) := by
  have small : start + word.length < 2 ^ 64 := by
    have lengths := congrArg List.length cut
    have bounded := mechanisms.size_lt
    rw [List.length_drop, List.length_append, List.length_cons] at lengths
    omega
  have isSpace : space ∈ word ++ space :: next := List.mem_append_right _ List.mem_cons_self
  have token := spells_word inside cut
  have found := memchr_space inside
  rw [cut, if_pos isSpace, takeWhile_word unspaced] at found
  rw [searchLoop, if_neg unfinished, found, except_bind_ok]
  simp only [Option.getD_some, sizeSub_of_le (Nat.le_add_right _ _) small, Nat.add_sub_cancel_left,
    bytesEqual_of_spells memcmp spells token, except_bind_ok, decide_eq_true_eq]
  rfl

/-- The cursors find what the search in the rest of the string finds. -/
theorem searchLoop_eq (memcmp : Memcmp) (spells : mechanism.Spells name) {fuel : Nat}
    (inside : start ≤ mechanisms.size) (unfinished : current ≠ mechanisms.size)
    (enough : mechanisms.size - start < fuel) :
    searchLoop memcmp mechanism mechanisms (fuel + 1) start current =
      .ok (mechanismInList name fuel (mechanisms.bytes.drop start)) := by
  induction fuel generalizing start current with
  | zero => exact absurd enough (Nat.not_lt_zero _)
  | succ fuel ih =>
      obtain ⟨rest, cut⟩ : ∃ rest, mechanisms.bytes.drop start = rest := ⟨_, rfl⟩
      rw [cut]
      cases words rest with
      | last unspaced =>
          rw [searchLoop_last memcmp spells inside unfinished unspaced cut,
            mechanismInList_last unspaced]
      | @word word next unspaced =>
          have length : mechanisms.size - start = word.length + (next.length + 1) := by
            have lengths := congrArg List.length cut
            rwa [List.length_drop, List.length_append, List.length_cons] at lengths
          have behind : mechanisms.bytes.drop (start + word.length + 1) = next := by
            rw [Nat.add_assoc, ← List.drop_drop, cut, ← List.drop_drop, List.drop_left]
            rfl
          have goesOn := @ih (start + word.length + 1) (start + word.length)
            (by omega) (by omega) (by omega)
          rw [searchLoop_word memcmp spells inside unfinished unspaced cut,
            mechanismInList_word unspaced, goesOn, behind]
          by_cases same : name = word
          · simp [same]
          · simp [same]

/-- The cursors refine the search in the list of octets, which a login makes. -/
theorem saslMechanismInList_refines (memcmp : Memcmp) {mechanisms : Buffer} {method : SaslMethod}
    {name : List UInt8} (supported : RabbitmqC.saslMethodName method = .ok name) {fuel : Nat}
    (enough : mechanisms.size + 1 < fuel) :
    saslMechanismInList memcmp fuel mechanisms method =
      RabbitmqC.saslMechanismInList mechanisms.bytes method := by
  obtain ⟨mechanism, isMechanism, spells⟩ := spells_saslMethodName supported
  obtain ⟨more, rfl⟩ := Nat.exists_eq_add_of_lt enough
  unfold saslMechanismInList
  rw [isMechanism, except_bind_ok, saslMechanismInList_eq supported]
  by_cases empty : mechanisms.size = 0
  · have unlisted : name ∉ mechanisms.bytes.splitOn space := by
      rw [List.length_eq_zero_iff.mp empty, List.splitOn_nil, List.mem_singleton]
      exact SaslMethod.name_ne_nil supported
    rw [decide_eq_false unlisted, searchLoop, if_pos empty.symm]
    rfl
  · rw [searchLoop_eq memcmp spells (Nat.zero_le _) (Ne.symm empty) (by omega), List.drop_zero]
    have listed := @mechanismInList_iff name mechanisms.bytes (mechanisms.size + 1 + more)
      (by unfold Buffer.size; omega)
    rw [Bool.eq_iff_iff.mpr (listed.trans decide_eq_true_iff.symm)]

end Search

/-- The search ends, reads nothing outside the string, and finds the words between spaces. -/
theorem saslMechanismInList_finds (memcmp : Memcmp) (mechanisms : Buffer) {method : SaslMethod}
    {name : List UInt8} (supported : RabbitmqC.saslMethodName method = .ok name) {fuel : Nat}
    (enough : mechanisms.size + 1 < fuel) :
    ∃ found, saslMechanismInList memcmp fuel mechanisms method = .ok found ∧
      (found = true ↔ name ∈ mechanisms.bytes.splitOn space) := by
  refine ⟨decide (name ∈ mechanisms.bytes.splitOn space), ?_, decide_eq_true_iff⟩
  rw [saslMechanismInList_refines memcmp supported enough]
  exact saslMechanismInList_eq supported

/-- The list in which the library's own test looks. -/
def testedMechanisms : Buffer :=
  ⟨CString.ascii "DIGEST-MD5 CRAM-MD5 LOGIN PLAIN", by decide +kernel⟩

theorem saslMechanismInList_finds_tested :
    ∃ found,
      saslMechanismInList .subtracting 40 testedMechanisms (.plain [] []) = .ok found ∧
        (found = true ↔ CString.ascii "PLAIN" ∈ testedMechanisms.bytes.splitOn space) :=
  saslMechanismInList_finds .subtracting testedMechanisms rfl (by decide +kernel)

end MechanismSearch

end RabbitmqC
