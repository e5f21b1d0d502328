import RabbitmqC.Login.Agreement
import RabbitmqC.Socket.Delivery
import RabbitmqC.Socket.Publish

/-!
# The hint on the last part of a message

A frame is sent with `AMQP_SF_MORE` if another one follows, so that the socket can
wait for it. `amqp_basic_publish` decides this for a body frame by the octets that
remain before it, not by those that remain behind it.
-/

set_option autoImplicit false

namespace RabbitmqC

open Effect

/-- The flags of the frames sent so far. -/
def submittedFlags : List WireEvent → List SendFlags
  | [] => []
  | .submitted flags _ :: log => flags :: submittedFlags log
  | .accepted _ :: log => submittedFlags log

@[simp] theorem submittedFlags_append (past later : List WireEvent) :
    submittedFlags (past ++ later) = submittedFlags past ++ submittedFlags later := by
  induction past with
  | nil => rfl
  | cons event past ih => cases event <;> simp [submittedFlags, ih]

@[simp] theorem submittedFlags_accepted (pieces : List (List UInt8)) :
    submittedFlags (pieces.map .accepted) = [] := by
  induction pieces with
  | nil => rfl
  | cons piece pieces ih => exact ih

/-- Each frame but the last one is followed by another. -/
inductive LastPartMarked : List SendFlags → Prop where
  | last : LastPartMarked [.none]
  | more {flags : List SendFlags} : LastPartMarked flags → LastPartMarked (.more :: flags)

/-- The frames that have been sent between two states are so marked. -/
def HintsLastPart (before after : World) : Prop :=
  ∃ flags, submittedFlags after.wire = submittedFlags before.wire ++ flags ∧
    LastPartMarked flags

theorem lastPartMarked_replicate (count : Nat) :
    LastPartMarked (List.replicate count .more ++ [.none]) := by
  induction count with
  | zero => exact .last
  | succ count ih => exact .more ih

theorem not_lastPartMarked_replicate (count : Nat) :
    ¬LastPartMarked (List.replicate count .more) := by
  induction count with
  | zero => exact fun marked => nomatch marked
  | succ count ih =>
      intro marked
      cases marked with
      | more rest => exact ih rest

/-! ## Flags of a message -/

/-- The flags of the body frames for a number of octets. -/
def bodyFlags (usable size : Nat) : List SendFlags :=
  List.replicate (size / usable) .more ++ if size % usable = 0 then [] else [.none]

theorem bodyFlags_zero (usable : Nat) : bodyFlags usable 0 = [] := by
  simp [bodyFlags]

theorem bodyFlags_of_full {usable size : Nat} (positive : 0 < usable) (full : usable ≤ size) :
    bodyFlags usable size = .more :: bodyFlags usable (size - usable) := by
  unfold bodyFlags
  rw [Nat.div_eq_sub_div positive full, Nat.mod_eq_sub_mod full, List.replicate_succ]
  rfl

theorem bodyFlags_of_short {usable size : Nat} (some : 0 < size) (short : size < usable) :
    bodyFlags usable size = [.none] := by
  unfold bodyFlags
  rw [Nat.div_eq_of_lt short, Nat.mod_eq_of_lt short, if_neg (Nat.pos_iff_ne_zero.mp some)]
  rfl

section Flags

variable {channel : UInt16} {usable fuel : Nat} {world after : World}

theorem sendFrameInner_flags {frame : Frame} {flags : SendFlags} {deadline : UInt64}
    (sent : amqpSendFrameInner frame flags deadline fuel world = .ok (.ok ()) after) :
    submittedFlags after.wire = submittedFlags world.wire ++ [flags] := by
  cases isEncoded : encoding? frame world with
  | none => exact absurd sent ((sendFrameInner_unencoded isEncoded).2 after)
  | some encoded =>
      obtain ⟨submitted, isWire, continues⟩ :=
        @sendFrameInner_encoded frame flags deadline fuel world encoded isEncoded
      obtain ⟨pieces, once⟩ := @exactlyOnce_of_submitted flags deadline fuel world encoded
        submitted isWire
      rw [← continues, sent] at once
      have accepts : after.wire = _ := once.accepts
      rw [accepts]
      simp [submittedFlags]

theorem publishBody_flags {remaining : List UInt8} (positive : 0 < usable)
    (sent : publishBody channel usable fuel remaining world = .ok (.ok ()) after) :
    submittedFlags after.wire =
      submittedFlags world.wire ++ bodyFlags usable remaining.length := by
  induction fuel generalizing remaining world with
  | zero => cases sent
  | succ fuel ih =>
      unfold publishBody at sent
      by_cases isEmpty : remaining = []
      · rw [if_pos isEmpty] at sent
        cases sent
        rw [isEmpty, List.length_nil, bodyFlags_zero, List.append_nil]
      · rw [if_neg isEmpty] at sent
        have some : 0 < remaining.length := List.length_pos_iff.mpr isEmpty
        by_cases full : remaining.length ≥ usable
        · rw [if_pos full] at sent
          obtain ⟨result, between, sends, sent⟩ := bind_eq_ok.mp sent
          cases result with
          | error status => cases sent
          | ok _ =>
              rw [ih sent, sendFrameInner_flags sends, List.length_drop,
                bodyFlags_of_full positive full, List.append_assoc]
              rfl
        · rw [if_neg full] at sent
          obtain ⟨result, between, sends, sent⟩ := bind_eq_ok.mp sent
          cases result with
          | error status => cases sent
          | ok _ =>
              rw [ih sent, sendFrameInner_flags sends, List.length_drop, Nat.sub_self,
                bodyFlags_zero, List.append_nil, bodyFlags_of_short some (Nat.lt_of_not_le full)]

/-- The flags of the frames of a message. -/
def messageFlags (usable size : Nat) : List SendFlags :=
  .more :: (if size > 0 then .more else .none) :: bodyFlags usable size

theorem content_flags {message : Publication}
    (positive : 0 < sizeSub (sizeOfInt world.reader.frameMax.toInt) (headerSize + footerSize))
    (sent : message.content fuel world = .ok (.ok ()) after) :
    submittedFlags after.wire = submittedFlags world.wire ++
      messageFlags (sizeSub (sizeOfInt world.reader.frameMax.toInt) (headerSize + footerSize))
        message.body.length := by
  unfold Publication.content publishContent at sent
  rw [bind_of_ok (get_run world)] at sent
  obtain ⟨result, between, method, sent⟩ := bind_eq_ok.mp sent
  cases result with
  | error status => cases sent
  | ok _ =>
      obtain ⟨result, headed, header, sent⟩ := bind_eq_ok.mp sent
      cases result with
      | error status => cases sent
      | ok _ =>
          rw [publishBody_flags positive sent, sendFrameInner_flags header,
            sendFrameInner_flags method, List.append_assoc, List.append_assoc]
          rfl

/-- The last frame of a message is marked as such, unless it is filled by the body. -/
theorem messageFlags_marked_iff {size : Nat} :
    LastPartMarked (messageFlags usable size) ↔ size = 0 ∨ ¬usable ∣ size := by
  unfold messageFlags
  by_cases isEmpty : size = 0
  · rw [isEmpty, bodyFlags_zero]
    exact ⟨fun _ => .inl rfl, fun _ => .more .last⟩
  · rw [if_pos (Nat.pos_of_ne_zero isEmpty), Nat.dvd_iff_mod_eq_zero]
    unfold bodyFlags
    by_cases whole : size % usable = 0
    · rw [if_pos whole, List.append_nil]
      constructor
      · intro marked
        exact absurd marked (not_lastPartMarked_replicate (size / usable + 2))
      · intro condition
        cases condition with
        | inl none => exact absurd none isEmpty
        | inr part => exact absurd whole part
    · rw [if_neg whole]
      exact ⟨fun _ => .inr whole, fun _ => lastPartMarked_replicate (size / usable + 2)⟩

end Flags

/-! ## Published messages -/

section Published

variable {message : Publication} {fuel : Nat} {world after : World}

theorem usable_of_limit {frameMax : Int32} (limit : 8 < frameMax) :
    sizeSub (sizeOfInt frameMax.toInt) (headerSize + footerSize) = frameMax.toInt.toNat - 8 ∧
      0 < frameMax.toInt.toNat - 8 := by
  have above : 8 < frameMax.toInt := Int32.lt_iff_toInt_lt.mp limit
  have below := frameMax.toInt_lt
  rw [sizeOfInt_of_nonneg (by omega) (by omega), sizeSub_of_le]
  · refine ⟨rfl, ?_⟩
    omega
  · simp only [headerSize, footerSize]
    omega
  · omega

/-- A successful publish has sent its frames from a state with the same limit. -/
theorem content_of_publish (published : message.publish fuel world = .ok (.ok ()) after) :
    ∃ before, message.content fuel before = .ok (.ok ()) after ∧ Inward world before ∧
      before.reader.frameMax = world.reader.frameMax := by
  unfold Publication.publish amqpBasicPublish at published
  rw [bind_of_ok (get_run world)] at published
  obtain ⟨past, checked, checks, published⟩ := bind_eq_ok.mp published
  have asks := (asks_timeHasPast _).ok checks
  have inward : Inward world checked := inward_of_asks asks
  have checkedLimit : checked.reader = world.reader := (still_of_asks asks).reader
  have direct (sent : message.content fuel checked = .ok (.ok ()) after) :
      ∃ before, message.content fuel before = .ok (.ok ()) after ∧ Inward world before ∧
        before.reader.frameMax = world.reader.frameMax :=
    ⟨checked, sent, inward, by rw [checkedLimit]⟩
  cases past with
  | ok _ => exact direct published
  | error status =>
      by_cases late : status = .timeout
      · subst late
        obtain ⟨received, caught, receives, published⟩ := bind_eq_ok.mp published
        cases received with
        | error status => cases status <;> cases published
        | ok _ =>
            have keeps : Keeps (fun state => state.settings = checked.settings)
                (amqpTryRecv fuel) := callRule_settings.tryRecv
            have caughtLimit : caught.reader.frameMax = checked.reader.frameMax :=
              congrArg (·.2.1) (keeps.ok rfl receives)
            have caughtInward := trans_of Inward inward ((inward_tryRecv fuel).ok receives)
            refine ⟨caught, published, caughtInward, ?_⟩
            rw [caughtLimit, checkedLimit]
      · cases status <;> first
          | exact direct published
          | exact absurd rfl late
          | cases published

/-- The socket is told to wait for more behind the last frame just when the body fills
all of its frames. -/
theorem publish_hints_iff (limit : 8 < world.reader.frameMax)
    (published : message.publish fuel world = .ok (.ok ()) after) :
    HintsLastPart world after ↔
      message.body.length = 0 ∨
        ¬(world.reader.frameMax.toInt.toNat - 8) ∣ message.body.length := by
  obtain ⟨before, sent, inward, isLimit⟩ := content_of_publish published
  have isWire : before.wire = world.wire := congrArg (·.1.1) inward
  rw [← isLimit] at limit ⊢
  obtain ⟨usable, positive⟩ := usable_of_limit limit
  rw [← usable] at positive ⊢
  have flags := content_flags positive sent
  rw [isWire] at flags
  constructor
  · intro hints
    obtain ⟨marked, same, isMarked⟩ := hints
    rw [flags] at same
    rw [← List.append_cancel_left same] at isMarked
    exact messageFlags_marked_iff.mp isMarked
  · intro condition
    exact ⟨_, flags, messageFlags_marked_iff.mpr condition⟩

end Published

/-- A connection tuned to frames of 22 octets, whose socket takes whole frames. -/
def tightWorld : World :=
  { World.new
      { clock := []
        recvs := []
        sends := [.accepted 22, .accepted 22, .accepted 22]
        recvPolls := []
        sendPolls := []
        closes := []
        links := []
        memory := fun _ => grantingMemory } with
    reader.frameMax := 22
    outbound := ⟨List.replicate 22 0, by decide⟩ }

def paddedMessage (size : Nat) : Publication :=
  { plainMessage with body := List.replicate size 7 }

def isPublished : EStateM.Result Stop World (Except Status Unit) → Bool
  | .ok (.ok _) _ => true
  | _ => false

theorem eq_of_isPublished {result : EStateM.Result Stop World (Except Status Unit)}
    (success : isPublished result = true) : result = .ok (.ok ()) (endState result) := by
  match result with
  | .ok (.ok _) _ => rfl
  | .ok (.error _) _ => cases success
  | .error _ _ => cases success

/-- Thirteen octets do not fill a body frame. -/
theorem publish_hints_iff_short :
    (paddedMessage 13).publish 4 tightWorld =
        .ok (.ok ()) (endState ((paddedMessage 13).publish 4 tightWorld)) ∧
      HintsLastPart tightWorld (endState ((paddedMessage 13).publish 4 tightWorld)) := by
  have published := eq_of_isPublished
    (show isPublished ((paddedMessage 13).publish 4 tightWorld) = true by decide +kernel)
  refine ⟨published, (publish_hints_iff (by decide) published).mpr (.inr ?_)⟩
  decide

/-- Fourteen octets do, and the socket is left waiting for more. -/
theorem full_frame_held_back :
    (paddedMessage 14).publish 4 tightWorld =
        .ok (.ok ()) (endState ((paddedMessage 14).publish 4 tightWorld)) ∧
      submittedFlags (endState ((paddedMessage 14).publish 4 tightWorld)).wire =
        [.more, .more, .more] ∧
      ¬HintsLastPart tightWorld (endState ((paddedMessage 14).publish 4 tightWorld)) := by
  have published := eq_of_isPublished
    (show isPublished ((paddedMessage 14).publish 4 tightWorld) = true by decide +kernel)
  have flags : submittedFlags (endState ((paddedMessage 14).publish 4 tightWorld)).wire =
      [.more, .more, .more] := by
    decide +kernel
  refine ⟨published, flags, ?_⟩
  intro hints
  obtain ⟨marked, same, isMarked⟩ := hints
  rw [flags] at same
  have isFlags : [.more, .more, .more] = marked := same
  rw [← isFlags] at isMarked
  exact not_lastPartMarked_replicate 3 isMarked

end RabbitmqC
