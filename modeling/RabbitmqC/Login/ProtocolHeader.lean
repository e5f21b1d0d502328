import RabbitmqC.Login.Handshake
import RabbitmqC.Socket.Delivery
import RabbitmqC.Socket.SendDiscipline

/-!
# The protocol header

`amqp_try_send` answers a timeout with the number of octets sent so far.
`send_header_inner` returns that number, which is a success if it is zero.
-/

set_option autoImplicit false

namespace RabbitmqC

open Effect

/-- The octets that the socket has accepted between two states. -/
def acceptedSince (before after : World) : List UInt8 :=
  acceptedOctets (after.wire.drop before.wire.length)

theorem acceptedOctets_pieces (pieces : List (List UInt8)) :
    acceptedOctets (pieces.map .accepted) = pieces.flatten := by
  induction pieces with
  | nil => rfl
  | cons piece pieces ih =>
      rw [List.map_cons, List.flatten_cons, ← ih]
      rfl

theorem Delivering.accepted {encoded left : List UInt8} {before after : World}
    (delivering : Delivering before.wire encoded left after) :
    acceptedSince before after ++ left = encoded := by
  obtain ⟨pieces, isWire, isEncoded⟩ := delivering
  unfold acceptedSince
  rw [isWire, List.drop_left, acceptedOctets_pieces]
  exact isEncoded

/-- "AMQP" and the version. -/
def protocolHeader : List UInt8 :=
  [65, 77, 81, 80, 0, protocolVersionMajor, protocolVersionMinor, protocolVersionRevision]

/-- Zero stands for the whole header, and anything less is an error. -/
structure HeaderReported (before : World) (result : Int) (after : World) : Prop where
  success : result = 0 ↔ acceptedSince before after = protocolHeader
  failure : acceptedSince before after ≠ protocolHeader → result < 0

section Header

variable {deadline : UInt64} {fuel : Nat} {before after : World}

theorem headerReported_of_short {result : Int} {left : List UInt8}
    (delivering : Delivering before.wire protocolHeader left after) (some : left ≠ []) :
    HeaderReported before result after ↔ result < 0 := by
  have incomplete : acceptedSince before after ≠ protocolHeader := by
    intro whole
    have rest := delivering.accepted
    rw [whole] at rest
    exact some (List.append_right_eq_self.mp rest)
  constructor
  · intro reported
    exact reported.failure incomplete
  · intro negative
    exact ⟨⟨fun zero => by omega, fun whole => absurd whole incomplete⟩, fun _ => negative⟩

theorem trySend_le {len count : Nat} {left : List UInt8} (nonempty : left ≠ [])
    (returned : trySendLeft len deadline fuel left before = .ok (.ok count) after) :
    count ≤ len := by
  induction fuel generalizing left before with
  | zero => cases returned
  | succ fuel ih =>
      cases sendTurn_of_trySendLeft nonempty returned with
      | complete _ _ => exact Nat.le_refl _
      | onward _ more turned => exact ih more turned
      | ready _ _ _ turned => exact ih nonempty turned
      | expired _ _ _ => exact Nat.sub_le _ _

theorem trySend_negative {len : Nat} {left : List UInt8} {status : Status}
    (nonempty : left ≠ [])
    (returned : trySendLeft len deadline fuel left before = .ok (.error status) after) :
    status.code < 0 := by
  induction fuel generalizing left before with
  | zero => cases returned
  | succ fuel ih =>
      cases sendTurn_of_trySendLeft nonempty returned with
      | onward _ more turned => exact ih more turned
      | ready _ _ _ turned => exact ih nonempty turned
      | unready _ _ polls _ => exact poll_negative polls
      | failed _ _ negative => exact negative

/-- The header is reported as it should be unless the deadline passes in the middle of it. -/
theorem sendHeader_reported_iff {result : Int}
    (returned : sendHeaderInner deadline fuel before = .ok result after) :
    HeaderReported before result after ↔ ¬ OutOfTime deadline protocolHeader before := by
  obtain ⟨tried, sent, tries, returned⟩ := bind_eq_ok.mp returned
  have nonempty : protocolHeader ≠ [] := List.cons_ne_nil _ _
  have reports := (@SendRule.trySend _ protocolHeader deadline fuel
    (@sendRule_delivering before.wire protocolHeader)).ok delivering_start tries
  have late := trySendLeft_short_iff nonempty (Nat.le_refl _) tries
  cases tried with
  | error status =>
      cases returned
      obtain ⟨left, unfinished, delivering⟩ := reports
      rw [headerReported_of_short delivering (unfinished nonempty)]
      constructor
      · intro _ expired
        obtain ⟨count, same, _⟩ := late.mpr expired
        cases same
      · intro _
        exact trySend_negative nonempty tries
  | ok count =>
      cases returned
      have atMost : count ≤ protocolHeader.length := trySend_le nonempty tries
      by_cases complete : count = protocolHeader.length
      · have whole : acceptedSince before after = protocolHeader := by
          have accepted := Delivering.accepted reports
          rwa [complete, List.drop_length, List.append_nil] at accepted
        have inTime : ¬ OutOfTime deadline protocolHeader before := by
          intro expired
          obtain ⟨sent, same, short⟩ := late.mpr expired
          cases same
          exact absurd complete (Nat.ne_of_lt short)
        constructor
        · exact fun _ => inTime
        · intro _
          exact ⟨⟨fun _ => whole, fun _ => if_pos complete⟩, fun other => absurd whole other⟩
      · have short : count < protocolHeader.length := Nat.lt_of_le_of_ne atMost complete
        have some : protocolHeader.drop count ≠ [] := by
          intro none
          exact absurd (List.drop_eq_nil_iff.mp none) (Nat.not_le.mpr short)
        have expired : OutOfTime deadline protocolHeader before := late.mp ⟨count, rfl, short⟩
        have isCount : (if count = protocolHeader.length then (0 : Int) else count) = count :=
          if_neg complete
        rw [headerReported_of_short reports some]
        constructor
        · intro negative
          have counted : (count : Int) < 0 := isCount ▸ negative
          omega
        · exact fun inTime => absurd expired inTime

end Header

/-- The socket answers one send. -/
def sendScript (answer : SendAnswer) : Script where
  clock := [1]
  recvs := []
  sends := [answer]
  recvPolls := []
  sendPolls := [.timedOut]
  closes := []
  links := []
  memory := fun _ => grantingMemory

/-- The header is taken at once. -/
def takingWorld : World := World.new (sendScript (.accepted 8))

theorem sendHeader_reported_iff_taking :
    ∃ after, sendHeaderInner amqpTimeInfinite 2 takingWorld = .ok 0 after ∧
      HeaderReported takingWorld 0 after ∧
      ¬ OutOfTime amqpTimeInfinite protocolHeader takingWorld := by
  refine ⟨_, rfl, ?_⟩
  have iff := sendHeader_reported_iff
    (show sendHeaderInner amqpTimeInfinite 2 takingWorld = .ok 0 _ from rfl)
  have reported : HeaderReported takingWorld 0
      (endState (sendHeaderInner amqpTimeInfinite 2 takingWorld)) :=
    ⟨⟨fun _ => rfl, fun _ => rfl⟩, fun other => absurd rfl other⟩
  exact ⟨reported, iff.mp reported⟩

/-- The socket would block until the deadline. -/
def blockedWorld : World := World.new (sendScript .needWrite)

theorem unsent_header_succeeds :
    ¬ ∀ (deadline : UInt64) (fuel : Nat) (before : World) (result : Int) (after : World),
      sendHeaderInner deadline fuel before = .ok result after →
        HeaderReported before result after := by
  intro reported
  have returned : sendHeaderInner 2000000001 2 blockedWorld =
      .ok 0 (endState (sendHeaderInner 2000000001 2 blockedWorld)) := by rfl
  have whole := (reported _ _ _ _ _ returned).success.mp rfl
  cases whole

end RabbitmqC
