import RabbitmqC.Socket.Footprint

/-!
# A rule for sending

`amqp_try_send` resumes behind what the socket has accepted, and
`amqp_send_frame_inner` resumes behind what `amqp_try_send` reports. Whatever follows
the octets that are left through one accepted piece follows them through both loops.
-/

set_option autoImplicit false

namespace RabbitmqC

open Effect

/-! ## Calls that send nothing -/

theorem receives_doPoll (res : Except Status Unit) (deadline : UInt64) (fuel : Nat) :
    Moves Receives (doPoll res deadline fuel) := by
  have poll := (asks_poll .toSend deadline fuel).mono fun _ _ => receives_of_asks
  refine Moves.bind .get fun world => .ite (fun _ => ?_) fun _ => .pure
  split
  · exact poll
  · exact poll
  · exact .pure

theorem receives_tryRecv (fuel : Nat) : Moves Receives (amqpTryRecv fuel) :=
  (inward_tryRecv fuel).mono fun _ _ => receives_of_inward

theorem receives_scheduleHeartbeat : Moves Receives scheduleHeartbeat := by
  refine Moves.bind .get fun world => ?_
  refine ((asks_timeSFromNow _ _).mono fun _ _ => receives_of_asks).bind fun answer => ?_
  exact Moves.bind (.modify fun _ => rfl) fun _ => .pure

theorem receives_encodeOutbound (frame : Frame) : Moves Receives (encodeOutbound frame) := by
  refine Moves.get_bind fun world => ?_
  cases amqpFrameToBytes frame world.outbound.size world.outbound with
  | ok count outbound => rfl
  | error failure outbound => cases failure <;> rfl

/-! ## The outer loop -/

/-- `amqp_send_frame_inner` from `start_send` up to its final step. -/
def sendLoop (deadline : UInt64) : Nat → List UInt8 → Call (Except Status Unit)
  | 0, _ => outOfFuel
  | fuel + 1, encoded => do
      let world ← get
      let nextTimeout := amqpTimeFirst deadline world.nextRecvHeartbeat
      match ← amqpTrySend encoded nextTimeout fuel with
      | .error status => return .error status
      | .ok sent =>
          if sent = encoded.length then
            return .ok ()
          else if nextTimeout = deadline then
            return .error .timeout
          else do
            match ← amqpTryRecv fuel with
            | .error .timeout => return .error .heartbeatTimeout
            | .error status => return .error status
            | .ok () => sendLoop deadline fuel (encoded.drop sent)

/-- The final step, after everything was sent. -/
def finishSend : Except Status Unit → Call (Except Status Unit)
  | .ok () => scheduleHeartbeat
  | .error status => return .error status

theorem sendEncoded_eq (deadline : UInt64) (fuel : Nat) (encoded : List UInt8) (world : World) :
    sendEncoded deadline fuel encoded world =
      (sendLoop deadline fuel encoded >>= finishSend) world := by
  induction fuel generalizing encoded world with
  | zero => rfl
  | succ fuel ih =>
      unfold sendEncoded sendLoop
      rw [bind_assoc, bind_of_ok (get_run world), bind_of_ok (get_run world), bind_assoc]
      cases tried : amqpTrySend encoded (amqpTimeFirst deadline world.nextRecvHeartbeat) fuel
          world with
      | error stop after => rw [bind_of_error tried, bind_of_error tried]
      | ok result after =>
          rw [bind_of_ok tried, bind_of_ok tried]
          cases result with
          | error status => rfl
          | ok sent =>
              dsimp only
              split
              · rfl
              · split
                · rfl
                · rw [bind_assoc]
                  cases received : amqpTryRecv fuel after with
                  | error stop final => rw [bind_of_error received, bind_of_error received]
                  | ok result final =>
                      rw [bind_of_ok received, bind_of_ok received]
                      cases result with
                      | ok _ => exact ih _ _
                      | error status => cases status <;> rfl

/-! ## The rule -/

/-- What is left to show for `inv` to follow the octets that are left to send. -/
structure SendRule (inv : List UInt8 → World → Prop) : Prop where
  receives : ∀ {left before after}, Receives before after → inv left before → inv left after
  accept : ∀ {sent left world}, world.socketOpen = true → inv (sent ++ left) world →
    inv left { world with wire := world.wire ++ [.accepted sent] }

namespace SendRule

/-- The socket has accepted a number of octets, or none. -/
def Accounts (inv : List UInt8 → World → Prop) (left : List UInt8) :
    Except Status Nat → World → Prop
  | .ok count, world => inv (left.drop count) world
  | .error _, world => inv left world

/-- A call reports how much of `encoded` it has sent, or has not sent all of it. -/
def Reports (inv : List UInt8 → World → Prop) (encoded : List UInt8) :
    Except Status Nat → World → Prop
  | .ok sent, world => inv (encoded.drop sent) world
  | .error _, world => ∃ left, (encoded ≠ [] → left ≠ []) ∧ inv left world

/-- A call has sent everything, or some of it. -/
def Ends (inv : List UInt8 → World → Prop) : Except Status Unit → World → Prop
  | .ok (), world => inv [] world
  | .error _, world => ∃ left, inv left world

variable {inv : List UInt8 → World → Prop} {left encoded : List UInt8} {deadline : UInt64}
  {fuel : Nat}

/-- A call that only receives goes on with the same octets left to send. -/
theorem moves (rule : SendRule inv) {α : Type} {run : Call α} (along : Moves Receives run) :
    Triple (inv left) run (fun _ => inv left) (fun _ world => ∃ left, inv left world) := by
  have keeps : Keeps (inv left) run := along.keeps fun _ _ => rule.receives
  exact keeps.raise fun _ _ holds => ⟨left, holds⟩

theorem socketSend (rule : SendRule inv) :
    Triple (inv left) (amqpSocketSend left) (Accounts inv left) (fun _ => inv left) := by
  apply Triple.get_bind
  intro world holds
  apply Triple.ite
  · intro isOpen
    have asks : Moves Asks (ask (·.sends) fun script sends => { script with sends }) :=
      asks_ask fun script _ _ _ => { Script.Uses.refl script with }
    have kept : Keeps (fun world => inv left world ∧ world.socketOpen = true)
        (ask (·.sends) fun script sends => { script with sends }) := by
      apply asks.keeps
      intro before after asked both
      have receives := receives_of_asks asked
      exact ⟨rule.receives receives both.1, (Prod.mk.inj receives).2.trans both.2⟩
    refine Triple.bind ((kept.strengthen ?_).raise fun _ _ both => both.1) fun answer => ?_
    · rintro _ rfl
      exact ⟨holds, isOpen⟩
    · cases answer with
      | accepted count =>
          refine Triple.bind (.modify fun world both => ?_) fun _ => .pure fun _ holds => holds
          have split : left.take count ++ left.drop (left.take count).length = left := by
            rw [List.length_take, ← List.drop_eq_drop_min]
            exact List.take_append_drop count left
          apply rule.accept both.2
          rw [split]
          exact both.1
      | needRead => exact .pure fun _ both => both.1
      | needWrite => exact .pure fun _ both => both.1
      | failed failure => exact .pure fun _ both => both.1
  · intro _
    apply Triple.pure
    rintro _ rfl
    exact holds

/-- The loop of `amqp_try_send`: the number it returns tells what is left. -/
theorem trySendLeft (rule : SendRule inv)
    (isLeft : encoded.drop (encoded.length - left.length) = left)
    (unfinished : encoded ≠ [] → left ≠ []) :
    Triple (inv left) (trySendLeft encoded.length deadline fuel left) (Reports inv encoded)
      (fun _ world => ∃ left, inv left world) := by
  induction fuel generalizing left with
  | zero => exact .throw fun _ holds => ⟨left, holds⟩
  | succ fuel ih =>
      -- When nothing was sent, the loop polls and starts again with the same octets.
      have again (res : Except Status Nat) (next : Except Status Unit → Call (Except Status Nat))
          (goesOn : next (.ok ()) = RabbitmqC.trySendLeft encoded.length deadline fuel left)
          (gives : next (.error .timeout) = pure (.ok (encoded.length - left.length)))
          (fails : ∀ status, status ≠ .timeout → next (.error status) = pure (.error status)) :
          Triple (inv left) (doPoll (res.map fun _ => ()) deadline fuel >>= next)
            (Reports inv encoded) (fun _ world => ∃ left, inv left world) := by
        apply Triple.bind (rule.moves (receives_doPoll _ deadline fuel))
        intro polled
        cases polled with
        | ok _ =>
            rw [goesOn]
            exact ih isLeft unfinished
        | error status =>
            by_cases late : status = .timeout
            · rw [late, gives]
              apply Triple.pure
              intro world holds
              rwa [Reports, isLeft]
            · rw [fails status late]
              exact .pure fun _ holds => ⟨left, unfinished, holds⟩
      refine Triple.bind (rule.socketSend.raise fun _ _ holds => ⟨left, holds⟩) fun result => ?_
      cases result with
      | error status => exact again _ _ rfl rfl fun status other => by split <;> simp_all
      | ok count =>
          cases count with
          | zero => exact again _ _ rfl rfl fun status other => by split <;> simp_all
          | succ count =>
              apply Triple.ite
              · intro finished
                apply Triple.pure
                intro world holds
                rw [Accounts, finished] at holds
                rwa [Reports, List.drop_length]
              · intro more
                refine ih ?_ fun _ => more
                have within : left.length ≤ encoded.length := by
                  rw [← isLeft, List.length_drop]
                  omega
                have inside : count + 1 < left.length := by
                  simpa [List.drop_eq_nil_iff] using more
                conv_rhs => rw [← isLeft, List.drop_drop]
                rw [List.length_drop]
                congr 1
                omega

theorem trySend (rule : SendRule inv) : Triple (inv encoded) (amqpTrySend encoded deadline fuel)
    (Reports inv encoded) (fun _ world => ∃ left, inv left world) :=
  rule.trySendLeft (by rw [Nat.sub_self, List.drop_zero]) id

theorem sendLoop (rule : SendRule inv) : Triple (inv encoded) (sendLoop deadline fuel encoded)
    (Ends inv) (fun _ world => ∃ left, inv left world) := by
  induction fuel generalizing encoded with
  | zero => exact .throw fun _ holds => ⟨encoded, holds⟩
  | succ fuel ih =>
      apply Triple.read_bind
      intro world
      apply Triple.bind rule.trySend
      intro result
      cases result with
      | error status => exact .pure fun _ ⟨left, _, holds⟩ => ⟨left, holds⟩
      | ok sent =>
          apply Triple.ite
          · intro complete
            apply Triple.pure
            intro after holds
            rwa [Reports, complete, List.drop_length] at holds
          · intro _
            apply Triple.ite
            · intro _
              exact .pure fun _ holds => ⟨_, holds⟩
            · intro _
              apply Triple.bind (rule.moves (receives_tryRecv fuel))
              intro received
              split
              · exact .pure fun _ holds => ⟨_, holds⟩
              · exact .pure fun _ holds => ⟨_, holds⟩
              · exact ih

end SendRule

end RabbitmqC
