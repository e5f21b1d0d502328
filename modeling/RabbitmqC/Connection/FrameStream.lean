import RabbitmqC.Connection.Chunks
import RabbitmqC.Connection.FrameRoundTrip

/-!
# Frames in a stream

A frame that is read in several calls comes out as if it had been read in one, and no
call goes past the end of a frame.
-/

set_option autoImplicit false

namespace RabbitmqC

/-! ## Dividing a call -/

section Dividing

variable {memory : FrameMemory} {reader : Reader} {left right : List UInt8} {handled : Handled}

theorem Handled.later_later (before count : Nat) (handled : Handled) :
    Handled.later before (handled.later count) = handled.later (before + count) := by
  unfold Handled.later
  cases handled.result with
  | error status => rfl
  | ok taken =>
      simp only [Except.map, Int.add_bmod_bmod]
      push_cast
      rw [Int.add_assoc]

theorem Handled.unfinished_later (count : Nat) :
    (handled.later count).unfinished = handled.unfinished := by
  unfold Handled.later Handled.unfinished
  cases handled.result <;> rfl

/-- A call that returns normally leaves the reader ready. -/
theorem amqpHandleInput_ready (ready : reader.Ready) (more : left ≠ [])
    (returned : amqpHandleInput memory reader left = .ok handled) {taken : Int}
    (accepted : handled.result = .ok taken) :
    handled.reader.Ready ∧ ∃ count : Nat, taken = count ∧ count ≤ left.length ∧
      count ≤ int32Max := by
  have feeds := @feed_of_handleInput (fun _ => memory) ⟨reader, 0, [], none⟩ _ ready rfl more
  rw [returned] at feeds
  obtain ⟨after, result, frame⟩ := handled
  cases accepted
  obtain ⟨count, rfl, _, within, bounded, still, _⟩ := feeds
  exact ⟨still, count, rfl, within, by omega⟩

theorem ready_of_unfinished (ready : reader.Ready) (more : left ≠ [])
    (returned : amqpHandleInput memory reader left = .ok handled)
    (waits : handled.unfinished = true) : handled.reader.Ready := by
  cases result : handled.result with
  | error status =>
      unfold Handled.unfinished at waits
      rw [result] at waits
      cases waits
  | ok taken => exact (amqpHandleInput_ready ready more returned result).1

/-- What a call that has used up `count` octets leaves to a call with the rest. -/
def continueWith (memory : FrameMemory) (count : Nat) (rest : List UInt8) (first : Handled) :
    Except Fault Handled :=
  if first.unfinished then
    Handled.later count <$> amqpHandleInput memory first.reader rest
  else
    .ok first

theorem goOn_eq (first : Except Fault Handled) :
    goOn memory right first = first >>= continueWith memory 1 right := rfl

theorem continueWith_later (count before : Nat) (first : Handled) :
    continueWith memory (before + count) right (first.later before) =
      Handled.later before <$> continueWith memory count right first := by
  unfold continueWith
  rw [Handled.unfinished_later]
  by_cases waits : first.unfinished = true
  · rw [if_pos waits, if_pos waits, show (first.later before).reader = first.reader from rfl]
    cases amqpHandleInput memory first.reader right with
    | error fault => rfl
    | ok rest => exact congrArg Except.ok (rest.later_later before count).symm
  · rw [if_neg waits, if_neg waits]
    rfl

/-- A call does what a call with the front part does, and then one with the rest if the
front part ends no frame. -/
theorem amqpHandleInput_append (ready : reader.Ready) (some : left ≠ []) (more : right ≠ []) :
    amqpHandleInput memory reader (left ++ right) =
      amqpHandleInput memory reader left >>= continueWith memory left.length right := by
  induction left generalizing reader with
  | nil => exact absurd rfl some
  | cons octet left ih =>
      by_cases last : left = []
      · rw [last]
        exact amqpHandleInput_cons ready more
      · rw [List.cons_append, amqpHandleInput_cons ready (by simp [last]),
          amqpHandleInput_cons ready last, goOn_eq, goOn_eq]
        cases first : amqpHandleInput memory reader [octet] with
        | error fault => rfl
        | ok front =>
            rw [Effect.except_bind_ok, Effect.except_bind_ok]
            by_cases waits : front.unfinished = true
            · rw [continueWith, continueWith, if_pos waits, if_pos waits,
                ih (ready_of_unfinished ready (by simp) first waits) last]
              cases amqpHandleInput memory front.reader left with
              | error fault => rfl
              | ok behind =>
                  rw [Effect.except_bind_ok, List.length_cons, Nat.add_comm]
                  exact (continueWith_later left.length 1 behind).symm
            · rw [continueWith, continueWith, if_neg waits, if_neg waits]
              exact (if_neg waits).symm

/-- A call that waits for more has taken all octets, and sets no frame. -/
theorem unfinished_taken (ready : reader.Ready) (some : left ≠ []) (small : left.length ≤ int32Max)
    (returned : amqpHandleInput memory reader left = .ok handled)
    (waits : handled.unfinished = true) :
    handled.result = .ok (left.length : Int) ∧ handled.frame = .unset := by
  induction left generalizing reader handled with
  | nil => exact absurd rfl some
  | cons octet left ih =>
      by_cases last : left = []
      · subst last
        cases result : handled.result with
        | error status =>
            unfold Handled.unfinished at waits
            rw [result] at waits
            cases waits
        | ok count =>
            have accepted := octetAccepted_of_ok ready returned result
            exact ⟨result.symm.trans accepted.result, (accepted.unfinished waits).2⟩
      · rw [amqpHandleInput_cons ready last] at returned
        obtain ⟨front, first, rest⟩ := Effect.except_bind_eq_ok.mp returned
        by_cases goes : front.unfinished = true
        · rw [if_pos goes] at rest
          have still := ready_of_unfinished ready (by simp) first goes
          cases second : amqpHandleInput memory front.reader left with
          | error fault =>
              rw [second] at rest
              cases rest
          | ok behind =>
              rw [second] at rest
              cases rest
              rw [Handled.unfinished_later] at waits
              rw [List.length_cons] at small ⊢
              obtain ⟨taken, unset⟩ := ih still last (by omega) second waits
              refine ⟨?_, unset⟩
              unfold Handled.later
              unfold int32Max at small
              rw [taken]
              simp only [Except.map, ← Int.natCast_add]
              rw [Int.bmod_eq_of_le (by omega) (by omega), Nat.add_comm]
        · rw [if_neg goes] at rest
          cases rest
          exact absurd waits goes

/-- What the whole comes to is what the rest comes to behind the front part. -/
theorem rest_of_whole {middle after : Reader} {frame : Frame} (ready : reader.Ready)
    (some : left ≠ []) (more : right ≠ []) (small : left.length ≤ int32Max)
    (front : amqpHandleInput memory reader left = .ok ⟨middle, .ok left.length, .unset⟩)
    (awake : middle.state ≠ .idle) {taken : Nat} (bounded : taken ≤ int32Max)
    (whole : amqpHandleInput memory reader (left ++ right) = .ok ⟨after, .ok taken, frame⟩) :
    amqpHandleInput memory middle right =
      .ok ⟨after, .ok ((taken - left.length : Nat) : Int), frame⟩ := by
  have waits : Handled.unfinished ⟨middle, .ok left.length, .unset⟩ = true := by
    simp [Handled.unfinished, awake]
  have still : middle.Ready := ready_of_unfinished ready some front waits
  rw [amqpHandleInput_append ready some more, front, Effect.except_bind_ok, continueWith,
    if_pos waits] at whole
  unfold int32Max at small bounded
  cases behind : amqpHandleInput memory middle right with
  | error fault =>
      rw [behind] at whole
      cases whole
  | ok rest =>
      obtain ⟨final, result, last⟩ := rest
      rw [behind] at whole
      cases result with
      | error status => cases whole
      | ok count =>
          obtain ⟨_, count, rfl, _, atMost⟩ := amqpHandleInput_ready still more behind rfl
          unfold int32Max at atMost
          have same : Handled.later left.length ⟨final, .ok count, last⟩ =
              ⟨after, .ok taken, frame⟩ := Except.ok.inj whole
          have counts : ((left.length : Int) + count).bmod (2 ^ 32) = taken :=
            Except.ok.inj (congrArg Handled.result same)
          have sum : left.length + count = taken := by
            have remainder := @Int.bmod_emod ((left.length : Int) + count) (2 ^ 32)
            rw [counts] at remainder
            push_cast at remainder
            omega
          obtain rfl : final = after := congrArg Handled.reader same
          obtain rfl : last = frame := congrArg Handled.frame same
          rw [← sum, Nat.add_sub_cancel_left]

end Dividing

/-! ## Reading in pieces -/

/-- Memory for frames of up to `limit` octets. -/
structure FrameMemory.Grants (memory : FrameMemory) (limit : Nat) : Prop where
  poolEntry : memory.poolEntry = true
  block : ∀ amount ≤ limit, (memory.block amount).isSome
  allocs : memory.allocs = []

/-- Octets that a connection with this `frame_max` reads as a frame. -/
inductive Arrives (limit : Nat) : List UInt8 → Frame → Prop where
  | intro {frameType : UInt8} {channel : UInt16} {payload : List UInt8} {frame : Frame} :
      payload.length + headerSize + footerSize ≤ limit →
      DecodesTo frameType channel payload frame →
      Arrives limit (frameOctets frameType channel payload) frame

/-- Of the frame in progress, `part` has been read. -/
inductive Reader.Within (memory : FrameMemory) (limit : Nat) : List UInt8 → Reader → Prop where
  | between {reader : Reader} :
      reader.Begins headerSize → reader.frameMax.toInt = limit →
      Within memory limit [] reader
  | inside {idle reader : Reader} {part : List UInt8} :
      idle.Begins headerSize → idle.frameMax.toInt = limit → part ≠ [] →
      amqpHandleInput memory idle part = .ok ⟨reader, .ok part.length, .unset⟩ →
      reader.state ≠ .idle → Within memory limit part reader

section Pieces

variable {memory : FrameMemory} {reader : Reader} {limit : Nat} {octets part left : List UInt8}
  {frame : Frame}

theorem Reader.Begins.ready (begins : reader.Begins headerSize)
    (isLimit : reader.frameMax.toInt = limit) : reader.Ready where
  invariant := begins.invariant
  room := by
    rw [begins.offset, begins.target]
    decide
  bounded := by
    rw [begins.target]
    decide
  limit := by omega

theorem Arrives.length_le (arrives : Arrives limit octets frame) : octets.length ≤ limit := by
  cases arrives with
  | intro fits decodes =>
      rw [length_frameOctets]
      exact fits

/-- Between two frames, a frame is taken off the front of the input. -/
theorem Arrives.whole (arrives : Arrives limit octets frame) (begins : reader.Begins headerSize)
    (isLimit : reader.frameMax.toInt = limit) (grants : memory.Grants limit)
    (rest : List UInt8) :
    ∃ after, amqpHandleInput memory reader (octets ++ rest) =
        .ok ⟨after, .ok octets.length, frame⟩ ∧
      after.Begins headerSize ∧ after.frameMax.toInt = limit := by
  cases arrives with
  | intro fits decodes =>
      obtain ⟨after, taken, still, sameMax⟩ := amqpHandleInput_of_decodes rest begins decodes
        (by rw [isLimit]; exact Int.ofNat_le.mpr fits) (.inr grants.poolEntry)
        (grants.block _ fits) grants.allocs
      exact ⟨after, taken, still, by rw [sameMax, isLimit]⟩

/-- A part of a frame is read, and the reader waits for the rest. -/
theorem Arrives.front (arrives : Arrives limit octets frame) (begins : reader.Begins headerSize)
    (isLimit : reader.frameMax.toInt = limit) (grants : memory.Grants limit)
    (isOctets : octets = part ++ left) (some : part ≠ []) (more : left ≠ []) :
    ∃ middle, amqpHandleInput memory reader part = .ok ⟨middle, .ok part.length, .unset⟩ ∧
      middle.state ≠ .idle := by
  have ready := begins.ready isLimit
  have fits := arrives.length_le
  have bound := reader.frameMax.toInt_lt
  obtain ⟨after, whole, _⟩ := arrives.whole begins isLimit grants []
  rw [List.append_nil, isOctets, amqpHandleInput_append ready some more] at whole
  have lengths : (part ++ left).length = part.length + left.length := List.length_append
  rw [isOctets] at fits
  have positive := List.length_pos_iff.mpr more
  cases front : amqpHandleInput memory reader part with
  | error fault =>
      rw [front] at whole
      cases whole
  | ok first =>
      rw [front, Effect.except_bind_ok, continueWith] at whole
      by_cases waits : first.unfinished = true
      · obtain ⟨middle, result, unset⟩ := first
        obtain ⟨rfl, rfl⟩ := unfinished_taken ready some (by unfold int32Max; omega) front waits
        exact ⟨middle, rfl, by simpa [Handled.unfinished] using waits⟩
      · rw [if_neg waits] at whole
        cases whole
        obtain ⟨_, count, counts, atMost, _⟩ := amqpHandleInput_ready ready some front rfl
        omega

theorem Reader.Within.limit_lt (within : reader.Within memory limit part) : limit < 2 ^ 31 := by
  cases within with
  | between _ isLimit =>
      have bound := reader.frameMax.toInt_lt
      omega
  | @inside idle _ _ _ isLimit _ _ _ =>
      have bound := idle.frameMax.toInt_lt
      omega

/-- The rest of the frame in progress is taken off the front of the input. -/
theorem Reader.Within.finishes (within : reader.Within memory limit part)
    (arrives : Arrives limit octets frame) (grants : memory.Grants limit)
    (isOctets : octets = part ++ left) (more : left ≠ []) (rest : List UInt8) :
    ∃ after, amqpHandleInput memory reader (left ++ rest) = .ok ⟨after, .ok left.length, frame⟩ ∧
      after.Begins headerSize ∧ after.frameMax.toInt = limit := by
  cases within with
  | between begins isLimit =>
      rw [List.nil_append] at isOctets
      rw [← isOctets]
      exact arrives.whole begins isLimit grants rest
  | @inside idle _ _ begins isLimit some front awake =>
      have fits := arrives.length_le
      have bound := idle.frameMax.toInt_lt
      obtain ⟨after, whole, still, sameMax⟩ := arrives.whole begins isLimit grants rest
      have length : octets.length = part.length + left.length := by
        rw [isOctets, List.length_append]
      refine ⟨after, ?_, still, sameMax⟩
      rw [isOctets, List.append_assoc, ← isOctets] at whole
      have behind := rest_of_whole (begins.ready isLimit) some (by simp [more])
        (by unfold int32Max; omega) front awake (by unfold int32Max; omega) whole
      rwa [length, Nat.add_sub_cancel_left] at behind

/-- A part of the rest is read, and the reader still waits. -/
theorem Reader.Within.goesOn {more : List UInt8} (within : reader.Within memory limit part)
    (arrives : Arrives limit octets frame) (grants : memory.Grants limit)
    (isOctets : octets = part ++ (more ++ left)) (some : more ≠ []) (unread : left ≠ []) :
    ∃ after, amqpHandleInput memory reader more = .ok ⟨after, .ok more.length, .unset⟩ ∧
      after.state ≠ .idle ∧ after.Within memory limit (part ++ more) := by
  cases within with
  | between begins isLimit =>
      rw [List.nil_append] at isOctets ⊢
      obtain ⟨middle, front, awake⟩ := arrives.front begins isLimit grants isOctets some unread
      exact ⟨middle, front, awake, .inside begins isLimit some front awake⟩
  | @inside idle _ _ begins isLimit nonempty front awake =>
      have fits := arrives.length_le
      have bound := idle.frameMax.toInt_lt
      rw [isOctets, List.length_append, List.length_append] at fits
      rw [← List.append_assoc] at isOctets
      obtain ⟨middle, both, stays⟩ := arrives.front begins isLimit grants isOctets
        (by simp [some]) unread
      have behind := rest_of_whole (begins.ready isLimit) nonempty some
        (by unfold int32Max; omega) front awake
        (by rw [List.length_append]; unfold int32Max; omega) both
      rw [List.length_append, Nat.add_sub_cancel_left] at behind
      exact ⟨middle, behind, stays, .inside begins isLimit (by simp [some]) both stays⟩

/-- How a call meets the frame in progress, of which `left` is to come: it ends the frame,
or it takes all octets and waits. -/
inductive Reader.Meets (memory : FrameMemory) (limit : Nat) (frame : Frame)
    (part left octets future rest : List UInt8) : Except Fault Handled → Prop where
  | ends {after : Reader} {extra : List UInt8} :
      octets = left ++ extra → extra ++ future = rest → after.Begins headerSize →
      after.frameMax.toInt = limit →
      Meets memory limit frame part left octets future rest
        (.ok ⟨after, .ok left.length, frame⟩)
  | waits {after : Reader} {behind : List UInt8} :
      left = octets ++ behind → behind ≠ [] → future = behind ++ rest → after.state ≠ .idle →
      after.Within memory limit (part ++ octets) →
      Meets memory limit frame part left octets future rest
        (.ok ⟨after, .ok octets.length, .unset⟩)

theorem Reader.Within.meets {future rest : List UInt8} (within : reader.Within memory limit part)
    (arrives : Arrives limit (part ++ left) frame) (grants : memory.Grants limit)
    (more : left ≠ []) (some : octets ≠ []) (same : octets ++ future = left ++ rest) :
    Meets memory limit frame part left octets future rest
      (amqpHandleInput memory reader octets) := by
  have finishes (extra : List UInt8) (isOctets : octets = left ++ extra)
      (isRest : extra ++ future = rest) : Meets memory limit frame part left octets future rest
        (amqpHandleInput memory reader octets) := by
    obtain ⟨after, taken, begins, isLimit⟩ := within.finishes arrives grants rfl more extra
    rw [isOctets, taken, ← isOctets]
    exact .ends isOctets isRest begins isLimit
  rcases List.append_eq_append_iff.mp same with ⟨behind, isLeft, isFuture⟩ | ⟨extra, isOctets, isRest⟩
  · by_cases last : behind = []
    · subst last
      rw [List.append_nil] at isLeft
      rw [List.nil_append] at isFuture
      exact finishes [] (by rw [isLeft, List.append_nil]) isFuture
    · rw [isLeft] at arrives
      obtain ⟨after, taken, awake, still⟩ := within.goesOn arrives grants rfl some last
      rw [taken]
      exact .waits isLeft last isFuture awake still
  · exact finishes extra isOctets isRest.symm

end Pieces

end RabbitmqC
