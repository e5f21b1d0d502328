import RabbitmqC.Consumer.HeaderClass
import RabbitmqC.Socket.Conservation
import RabbitmqC.Table.Delivery

/-!
# Reassembly

What `amqp_read_message` makes of the frames that arrive on its channel. Where no
heartbeat is sent late, it takes them in the order of their arrival, whether they
are in the queue or still to be received, up to the one that decides.
-/

set_option autoImplicit false

namespace RabbitmqC

open Effect

/-! ## Frames that decide -/

/-- The answer to a frame that does not belong to a message. -/
def replyTo (status : Status) (frame : Frame) : RpcReply :=
  match closeMethod? frame with
  | some method => .serverException method
  | none => .libraryException status

/-- What the loop over the fragments comes to when it is given the frames one by one: the
frames that it leaves and what it returns, if they are enough. -/
def gather (size : Nat) :
    List UInt8 → List Frame → Option (List Frame × Except RpcReply (List UInt8))
  | body, [] => if body.length < size then none else some ([], .ok body)
  | body, frame :: frames =>
      if body.length < size then
        if frame.frameType ≠ amqpFrameBody then
          some (frames, .error (replyTo .badAmqpData frame))
        else
          match frame.payload with
          | .bodyFragment bytes =>
              if body.length + bytes.length > size then
                some (frames, .error (.libraryException .badAmqpData))
              else
                gather size (body ++ bytes) frames
          | _ => none
      else
        some (frame :: frames, .ok body)

/-- What a call comes to. -/
def assemble : List Frame → Option (List Frame × Except RpcReply Message)
  | [] => none
  | frame :: frames =>
      if frame.frameType ≠ amqpFrameHeader then
        some (frames, .error (replyTo .unexpectedState frame))
      else
        match startMessage [] frame with
        | .error (.fault _) _ => none
        | .error (.status status) _ => some (frames, .error (.libraryException status))
        | .ok (properties, size) _ =>
            (gather size [] frames).map fun gathered =>
              (gathered.1, gathered.2.map (Message.mk properties))

section Deciding

variable {size : Nat} {body : List UInt8} {frames rest more : List Frame}

theorem gather_nil (lacks : body.length < size) : gather size body [] = none := by
  rw [gather, if_pos lacks]

theorem gather_other {frame : Frame} (lacks : body.length < size)
    (notBody : frame.frameType ≠ amqpFrameBody) :
    gather size body (frame :: frames) = some (frames, .error (replyTo .badAmqpData frame)) := by
  rw [gather, if_pos lacks, if_pos notBody]

/-- The octets of a body frame. -/
def Frame.fragment? (frame : Frame) : Option (List UInt8) :=
  if frame.frameType = amqpFrameBody then
    match frame.payload with
    | .bodyFragment bytes => some bytes
    | _ => none
  else
    none

theorem fragment?_eq_some {frame : Frame} {bytes : List UInt8} :
    frame.fragment? = some bytes ↔
      frame.frameType = amqpFrameBody ∧ frame.payload = .bodyFragment bytes := by
  unfold Frame.fragment?
  by_cases isBody : frame.frameType = amqpFrameBody
  · rw [if_pos isBody]
    cases frame.payload <;> simp [isBody]
  · rw [if_neg isBody]
    simp [isBody]

theorem gather_fragment {frame : Frame} {bytes : List UInt8} (lacks : body.length < size)
    (isFragment : frame.fragment? = some bytes) (fits : body.length + bytes.length ≤ size) :
    gather size body (frame :: frames) = gather size (body ++ bytes) frames := by
  obtain ⟨isBody, isPayload⟩ := fragment?_eq_some.mp isFragment
  rw [gather, if_pos lacks, if_neg (not_not_intro isBody), isPayload]
  dsimp only
  rw [if_neg (Nat.not_lt.mpr fits)]

theorem gather_excess {frame : Frame} {bytes : List UInt8} (lacks : body.length < size)
    (isFragment : frame.fragment? = some bytes) (exceeds : size < body.length + bytes.length) :
    gather size body (frame :: frames) =
      some (frames, .error (.libraryException .badAmqpData)) := by
  obtain ⟨isBody, isPayload⟩ := fragment?_eq_some.mp isFragment
  rw [gather, if_pos lacks, if_neg (not_not_intro isBody), isPayload]
  dsimp only
  rw [if_pos exceeds]

theorem gather_unreadable {frame : Frame} (lacks : body.length < size)
    (isBody : frame.frameType = amqpFrameBody) (unreadable : frame.fragment? = none) :
    gather size body (frame :: frames) = none := by
  rw [gather, if_pos lacks, if_neg (not_not_intro isBody)]
  unfold Frame.fragment? at unreadable
  rw [if_pos isBody] at unreadable
  cases isPayload : frame.payload with
  | bodyFragment bytes =>
      rw [isPayload] at unreadable
      cases unreadable
  | none | method | properties | protocolHeader => rfl

/-- Frames behind the one that decides are left. -/
theorem gather_append {result : Except RpcReply (List UInt8)}
    (gathered : gather size body frames = some (rest, result)) :
    gather size body (frames ++ more) = some (rest ++ more, result) := by
  induction frames generalizing body with
  | nil =>
      rw [gather] at gathered
      split at gathered
      · cases gathered
      · rename_i enough
        cases gathered
        cases more with
        | nil => rw [List.append_nil, gather, if_neg enough]
        | cons frame more => rw [List.nil_append, gather, if_neg enough]
  | cons frame frames ih =>
      rw [List.cons_append]
      rw [gather] at gathered ⊢
      split at gathered
      · rename_i lacks
        rw [if_pos lacks]
        split at gathered
        · rename_i notBody
          cases gathered
          rw [if_pos notBody]
        · rename_i isBody
          rw [if_neg isBody]
          split at gathered
          · split at gathered
            · rename_i exceeds
              cases gathered
              rw [if_pos exceeds]
            · rename_i fits
              rw [if_neg fits]
              exact ih gathered
          · cases gathered
      · rename_i enough
        cases gathered
        rw [if_neg enough]
        rfl

theorem assemble_other {frame : Frame} (notHeader : frame.frameType ≠ amqpFrameHeader) :
    assemble (frame :: frames) = some (frames, .error (replyTo .unexpectedState frame)) := by
  rw [assemble, if_pos notHeader]

theorem assemble_uncopied {frame : Frame} {status : Status} {left : List Bool}
    (isHeader : frame.frameType = amqpFrameHeader)
    (failed : startMessage [] frame = .error (.status status) left) :
    assemble (frame :: frames) = some (frames, .error (.libraryException status)) := by
  rw [assemble, if_neg (not_not_intro isHeader), failed]

theorem assemble_header {frame : Frame} {properties : Properties amqpBasicClass}
    {left : List Bool} (isHeader : frame.frameType = amqpFrameHeader)
    (started : startMessage [] frame = .ok (properties, size) left) :
    assemble (frame :: frames) = (gather size [] frames).map fun gathered =>
      (gathered.1, gathered.2.map (Message.mk properties)) := by
  rw [assemble, if_neg (not_not_intro isHeader), started]

theorem assemble_append {result : Except RpcReply Message}
    (assembled : assemble frames = some (rest, result)) :
    assemble (frames ++ more) = some (rest ++ more, result) := by
  cases frames with
  | nil => cases assembled
  | cons frame frames =>
      rw [List.cons_append]
      rw [assemble] at assembled ⊢
      split at assembled
      · rename_i notHeader
        cases assembled
        rw [if_pos notHeader]
      · rename_i isHeader
        rw [if_neg isHeader]
        cases started : startMessage [] frame with
        | error failure left =>
            rw [started] at assembled
            cases failure with
            | fault fault => cases assembled
            | status status =>
                cases assembled
                rfl
        | ok start left =>
            rw [started] at assembled
            obtain ⟨gathered, found, isResult⟩ := Option.map_eq_some_iff.mp assembled
            obtain ⟨left, ended⟩ := gathered
            cases isResult
            dsimp only
            rw [gather_append found]
            rfl

end Deciding

/-! ## Frames that arrive -/

def onChannel (channel : UInt16) (frames : List Frame) : List Frame :=
  frames.filter fun frame => channel == frame.channel

/-- The frames on a channel that are queued at first, and those decoded until `after`. The
heartbeats among the latter are not seen by a caller. -/
def arrivals (channel : UInt16) (queued : List Frame) (world after : World) : List Frame :=
  onChannel channel queued ++ ofChannel channel (newFrames world after)

/-- Of the frames that have arrived since `start` the ones in `taken` were handed out, and the
ones in `waiting` are queued. -/
structure Fed (channel : UInt16) (queued : List Frame) (start : World)
    (taken waiting : List Frame) (world : World) : Prop where
  provided : Provided [] world
  queue : ∃ left, world.queue.Represents left ∧ onChannel channel left = waiting
  decoded : ∃ new, world.decoded = start.decoded ++ new
  arrived : arrivals channel queued start world = taken ++ waiting

/-- What a wait for the next frame ends with. -/
def HandsNext (channel : UInt16) (queued : List Frame) (start : World) (taken : List Frame) :
    Except Status Frame → World → Prop
  | .ok frame, world => ∃ left, Fed channel queued start (taken ++ [frame]) left world
  | .error _, world => Fed channel queued start taken [] world

section Arriving

variable {channel : UInt16} {queued taken waiting : List Frame} {start : World} {fuel : Nat}

theorem fed_start (provided : Provided [] start) (represents : start.queue.Represents queued) :
    Fed channel queued start [] (onChannel channel queued) start where
  provided := provided
  queue := ⟨queued, represents, rfl⟩
  decoded := ⟨[], by rw [List.append_nil]⟩
  arrived := by
    unfold arrivals
    rw [newFrames_eq (List.append_nil _).symm, ofChannel_nil, List.append_nil, List.nil_append]

theorem newFrames_append {world after : World} {new more : List Frame}
    (decoded : world.decoded = start.decoded ++ new) (later : after.decoded = world.decoded ++ more) :
    newFrames start after = newFrames start world ++ more := by
  rw [newFrames_eq decoded, newFrames_eq (by rw [later, decoded, List.append_assoc])]

/-- Frames of other channels have come. -/
theorem Fed.others {world after : World} {past left extra : List Frame}
    (fed : Fed channel queued start taken [] world) (absent : onChannel channel left = [])
    (isPast : world.decoded = past)
    (others : OthersQueued past left channel extra after) :
    Fed channel queued start (taken ++ ofChannel channel extra) [] after := by
  obtain ⟨provided, new, apart, decoded, represents, foreign, same⟩ := others
  obtain ⟨earlier, sofar⟩ := fed.decoded
  have none : onChannel channel apart = [] := by
    refine List.filter_eq_nil_iff.mpr fun frame member => ?_
    simpa using Ne.symm (foreign frame member)
  have noneNew : ofChannel channel apart = [] :=
    ofChannel_eq_nil fun frame member isOwn => absurd isOwn (foreign frame member)
  rw [← isPast] at decoded
  refine ⟨provided, ⟨left ++ apart, represents, ?_⟩, ⟨earlier ++ new, ?_⟩, ?_⟩
  · unfold onChannel at absent none ⊢
    rw [List.filter_append, absent, none, List.append_nil]
  · rw [decoded, sofar, List.append_assoc]
  · have before := fed.arrived
    unfold arrivals at before ⊢
    rw [List.append_nil] at before
    rw [newFrames_append sofar decoded, ofChannel_append, ← List.append_assoc, before, same,
      ofChannel_append, noneNew, List.nil_append, List.append_nil]

/-- The next frame on the channel is handed out, or nothing is left. -/
theorem waitFrameOnChannel_feeds :
    Triple (Fed channel queued start taken waiting) (amqpSimpleWaitFrameOnChannel channel fuel)
      (HandsNext channel queued start taken) (fun _ => Fed channel queued start taken []) := by
  refine .get_bind fun world fed => ?_
  obtain ⟨left, represents, rfl⟩ := fed.queue
  cases found : left.find? fun frame => channel == frame.channel with
  | some frame =>
      obtain ⟨wanted, skipped, rest, rfl, others⟩ := List.find?_eq_some_iff_append.mp found
      have before : ∀ other ∈ skipped, (channel == other.channel) = false :=
        fun other member => by simpa using others other member
      obtain ⟨link, search, isFrame, behind⟩ := represents.find_eq_some before wanted
      rw [search]
      rintro _ rfl
      subst isFrame
      have waits : onChannel channel (skipped ++ link.data :: rest) =
          link.data :: onChannel channel rest := by
        have none : onChannel channel skipped = [] :=
          List.filter_eq_nil_iff.mpr fun other member => by simp [before other member]
        unfold onChannel at none ⊢
        rw [List.filter_append, none, List.nil_append, List.filter_cons, if_pos wanted]
      refine ⟨onChannel channel rest, fed.provided.congr rfl rfl rfl rfl, ⟨rest, behind, rfl⟩,
        fed.decoded, ?_⟩
      rw [List.append_assoc, List.singleton_append, ← waits]
      exact fed.arrived
  | none =>
      have absent : ∀ other ∈ left, (channel == other.channel) = false := by
        simpa using List.find?_eq_none.mp found
      have nothing : onChannel channel left = [] :=
        List.filter_eq_nil_iff.mpr fun other member => by simp [absent other member]
      rw [nothing] at fed
      rw [represents.find_eq_none absent]
      have left (after : World) (others : OthersQueued world.decoded left channel [] after) :
          Fed channel queued start taken [] after := by
        have whole := fed.others nothing rfl others
        rwa [ofChannel_nil, List.append_nil] at whole
      refine ((waitFrameForChannel_frames.strengthen ?_).raise fun _ => left).weaken
        fun result after ends => ?_
      · rintro _ rfl
        exact ⟨fed.provided, [], [], by simp, by simpa using represents, by simp, fun _ => rfl⟩
      · cases result with
        | error status => exact left after ends
        | ok frame =>
            obtain ⟨others, isChannel, notBeat⟩ := ends
            have own : ofChannel channel [frame] = [frame] := by
              simp [ofChannel, isChannel, notBeat]
            have whole := fed.others nothing rfl others
            rw [own] at whole
            exact ⟨[], whole⟩

/-- The frames that the loop has taken decide what it returns; if a wait has failed instead,
what has arrived decides nothing. -/
def Gathered (channel : UInt16) (queued : List Frame) (start : World) (taken : List Frame)
    (size : Nat) (body : List UInt8) (result : Except RpcReply (List UInt8)) (world : World) :
    Prop :=
  ∃ more left, Fed channel queued start (taken ++ more) left world ∧
    (gather size body more = some ([], result) ∨
      gather size body (more ++ left) = none ∧ ∀ body, result ≠ .ok body)

/-- The loop has not come to an end for want of frames, or of fuel, and then the last frame
that it has taken is the first one that can decide. -/
def Ungathered (channel : UInt16) (queued : List Frame) (start : World) (taken : List Frame)
    (size : Nat) (body : List UInt8) (fuel : Nat) (world : World) : Prop :=
  ∃ more left, Fed channel queued start (taken ++ more) left world ∧
    (gather size body (more ++ left) = none ∨ fuel ≤ more.length ∧
      ∀ front, front <+: more → front ≠ more → gather size body front = none)

theorem readFragments_gathers {size : Nat} {body : List UInt8} :
    Triple (Fed channel queued start taken waiting) (readFragments channel size fuel body)
      (Gathered channel queued start taken size body)
      (fun _ => Ungathered channel queued start taken size body fuel) := by
  induction fuel generalizing body taken waiting with
  | zero =>
      refine .throw fun world fed => ⟨[], waiting, ?_, .inr ⟨Nat.le_refl _, ?_⟩⟩
      · rwa [List.append_nil]
      · intro front early other
        exact absurd (List.prefix_nil.mp early) other
  | succ fuel ih =>
      refine .ite (fun lacks => ?_) fun enough => .pure fun world fed => ?_
      · refine Triple.bind (waitFrameOnChannel_feeds.raise fun _ world fed => ?_) fun result => ?_
        · exact ⟨[], [], by rwa [List.append_nil], .inl (gather_nil lacks)⟩
        · cases result with
          | error status =>
              refine .pure fun world fed =>
                ⟨[], [], by rwa [List.append_nil], .inr ⟨gather_nil lacks, ?_⟩⟩
              rintro _ ⟨⟩
          | ok frame =>
              dsimp only
              rintro world ⟨left, fed⟩
              by_cases notBody : frame.frameType ≠ amqpFrameBody
              · have decides := @gather_other size body [] frame lacks notBody
                rw [if_pos notBody]
                unfold replyTo at decides
                cases closing : closeMethod? frame with
                | some method =>
                    rw [closing] at decides
                    exact ⟨[frame], left, fed, .inl decides⟩
                | none =>
                    rw [closing] at decides
                    exact ⟨[frame], left, fed, .inl decides⟩
              · rw [if_neg notBody]
                cases isPayload : frame.payload with
                | bodyFragment bytes =>
                    have isFragment := fragment?_eq_some.mpr ⟨not_not.mp notBody, isPayload⟩
                    dsimp only
                    by_cases exceeds : body.length + bytes.length > size
                    · rw [if_pos exceeds]
                      exact ⟨[frame], left, fed, .inl (gather_excess lacks isFragment exceeds)⟩
                    · rw [if_neg exceeds]
                      have fits := Nat.not_lt.mp exceeds
                      refine (((@ih _ _ (body ++ bytes)).raise ?_).weaken ?_) fed
                      · rintro _ after ⟨more, left, fed, rest⟩
                        refine ⟨frame :: more, left, by rwa [List.append_cons], ?_⟩
                        rw [List.cons_append, gather_fragment lacks isFragment fits]
                        refine rest.imp id fun short => ⟨Nat.succ_le_succ short.1, ?_⟩
                        intro front early other
                        cases front with
                        | nil => exact gather_nil lacks
                        | cons first front =>
                            obtain ⟨rfl, behind⟩ := List.cons_prefix_cons.mp early
                            rw [gather_fragment lacks isFragment fits]
                            exact short.2 front behind fun same => other (by rw [same])
                      · rintro result after ⟨more, left, fed, rest⟩
                        refine ⟨frame :: more, left, by rwa [List.append_cons], ?_⟩
                        rw [List.cons_append, gather_fragment lacks isFragment fits,
                          gather_fragment lacks isFragment fits]
                        exact rest
                | none | method | properties | protocolHeader =>
                    refine ⟨[frame], left, fed, .inl ?_⟩
                    rw [List.singleton_append, gather, if_pos lacks, if_neg notBody, isPayload]
      · refine ⟨[], waiting, by rwa [List.append_nil], .inl ?_⟩
        rw [gather, if_neg enough]

/-- What has arrived decides what the call returns, and what is behind a message is left in the
queue. Otherwise a wait has failed. -/
def Decided (channel : UInt16) (queued : List Frame) (start : World)
    (result : Except RpcReply Message) (after : World) : Prop :=
  (∃ left, assemble (arrivals channel queued start after) = some (left, result) ∧
    ∀ message, result = .ok message → onChannel channel after.queue.values = left) ∨
  assemble (arrivals channel queued start after) = none ∧ ∀ message, result ≠ .ok message

/-- The fragments decide for the message. -/
theorem Gathered.decided {frame : Frame} {properties : Properties amqpBasicClass} {size : Nat}
    {rest : List Bool} {result : Except RpcReply (List UInt8)} {after : World}
    (isHeader : frame.frameType = amqpFrameHeader)
    (started : startMessage [] frame = .ok (properties, size) rest)
    (gathered : Gathered channel queued start [frame] size [] result after) :
    Decided channel queued start (result.map (Message.mk properties)) after := by
  obtain ⟨more, left, fed, ends⟩ := gathered
  have arrived : arrivals channel queued start after = frame :: (more ++ left) := by
    rw [fed.arrived, List.append_assoc, List.singleton_append]
  unfold Decided
  rw [arrived, assemble_header isHeader started]
  rcases ends with decides | ⟨undecided, failed⟩
  · refine .inl ⟨left, ?_, fun _ _ => ?_⟩
    · rw [gather_append decides]
      rfl
    · obtain ⟨inQueue, represents, isLeft⟩ := fed.queue
      rw [represents.values_eq, isLeft]
  · refine .inr ⟨by rw [undecided]; rfl, fun message isMessage => ?_⟩
    cases result with
    | error reply => cases isMessage
    | ok body => exact failed body rfl

theorem amqpReadMessage_assembles (provided : Provided [] start)
    (represents : start.queue.Represents queued) :
    Triple (start = ·) (amqpReadMessage [] channel fuel) (Decided channel queued start)
      (fun _ after => assemble (arrivals channel queued start after) = none ∨
        ∃ taken, taken <+: arrivals channel queued start after ∧ fuel ≤ taken.length ∧
          ∀ front, front <+: taken → front ≠ taken → assemble front = none) := by
  have begun : Triple (start = ·) (amqpSimpleWaitFrameOnChannel channel fuel)
      (HandsNext channel queued start []) (fun _ => Fed channel queued start [] []) := by
    rintro _ rfl
    exact waitFrameOnChannel_feeds (fed_start provided represents)
  have nothing (world : World) (fed : Fed channel queued start [] [] world) :
      assemble (arrivals channel queued start world) = none := by
    rw [fed.arrived]
    rfl
  refine Triple.bind (begun.raise fun _ world fed => .inl (nothing world fed)) fun result => ?_
  cases result with
  | error status =>
      refine .pure fun world fed => .inr ⟨nothing world fed, ?_⟩
      rintro _ ⟨⟩
  | ok frame =>
      dsimp only
      rintro world ⟨left, fed⟩
      have arrived : arrivals channel queued start world = frame :: left := fed.arrived
      by_cases notHeader : frame.frameType ≠ amqpFrameHeader
      · rw [if_pos notHeader]
        have decides := @assemble_other left frame notHeader
        unfold replyTo at decides
        cases closing : closeMethod? frame with
        | some method =>
            rw [closing] at decides
            refine .inl ⟨left, by rwa [arrived], ?_⟩
            rintro _ ⟨⟩
        | none =>
            rw [closing] at decides
            obtain ⟨rest, inQueue, _⟩ := fed.queue
            obtain ⟨after, put, _, same, _⟩ := amqpPutBackFrame_eq fed.provided inQueue frame
            dsimp only
            rw [bind_of_ok put]
            have still : arrivals channel queued start after = frame :: left := by
              rw [← arrived, arrivals, arrivals, newFrames, newFrames, same]
            refine .inl ⟨left, by rwa [still], ?_⟩
            rintro _ ⟨⟩
      · rw [if_neg notHeader]
        have isHeader := not_not.mp notHeader
        cases started : startMessage [] frame with
        | error failure rest =>
            cases failure with
            | fault fault =>
                refine .inl ?_
                rw [arrived, assemble, if_neg notHeader, started]
            | status status =>
                refine .inl ⟨left, ?_, by rintro _ ⟨⟩⟩
                rw [arrived, assemble_uncopied isHeader started]
        | ok begun rest =>
            obtain ⟨properties, size⟩ := begun
            have gathers := @readFragments_gathers channel queued [frame] left start fuel size []
            refine Triple.bind (gathers.raise ?_) (fun result => ?_) fed
            · rintro _ after ⟨more, left, fed, ends⟩
              rw [fed.arrived, List.append_assoc, List.singleton_append]
              rcases ends with undecided | ⟨short, undecided⟩
              · refine .inl ?_
                rw [assemble_header isHeader started, undecided]
                rfl
              · refine .inr ⟨frame :: more, ?_, Nat.le_succ_of_le short, ?_⟩
                · exact List.cons_prefix_cons.mpr ⟨rfl, List.prefix_append _ _⟩
                · intro front early other
                  cases front with
                  | nil => rfl
                  | cons first front =>
                      obtain ⟨rfl, behind⟩ := List.cons_prefix_cons.mp early
                      rw [assemble_header isHeader started,
                        undecided front behind fun same => other (by rw [same])]
                      rfl
            · rintro after gathered
              have decided := Gathered.decided isHeader started gathered
              cases result with
              | error reply => exact decided
              | ok body => exact decided

end Arriving

/-! ## Messages -/

/-- A content header of the class `AMQP_BASIC_CLASS` whose properties are copied. -/
structure Announces (header : Frame) (properties : Properties amqpBasicClass)
    (bodySize : UInt64) : Prop where
  isHeader : header.frameType = amqpFrameHeader
  copied : ∃ decoded raw,
    header.payload = .properties amqpBasicClass bodySize (some decoded) raw ∧
      amqpBasicPropertiesClone decoded [] = .ok properties []

/-- The frames are body frames with these fragments. -/
def AreFragments (bodies : List Frame) (fragments : List (List UInt8)) : Prop :=
  bodies.map Frame.fragment? = fragments.map some

/-- A content header and body frames. The sums of the sizes of the fragments are below the size
that the header announces and reach it exactly at the last of them. -/
inductive CompleteMessage : List Frame → Message → Prop where
  | intro {header : Frame} {bodies : List Frame} {properties : Properties amqpBasicClass}
      {bodySize : UInt64} {fragments : List (List UInt8)} :
      Announces header properties bodySize → AreFragments bodies fragments →
      (∀ count < fragments.length, (fragments.take count).flatten.length < bodySize.toNat) →
      fragments.flatten.length = bodySize.toNat →
      CompleteMessage (header :: bodies) ⟨properties, fragments.flatten⟩

/-- The last fragment is too long. -/
inductive Exceeds : List Frame → Prop where
  | intro {header last : Frame} {bodies : List Frame} {properties : Properties amqpBasicClass}
      {bodySize : UInt64} {fragments : List (List UInt8)} {bytes : List UInt8} :
      Announces header properties bodySize → AreFragments bodies fragments →
      fragments.flatten.length < bodySize.toNat → last.fragment? = some bytes →
      bodySize.toNat < fragments.flatten.length + bytes.length →
      Exceeds (header :: (bodies ++ [last]))

/-- The last frame does not belong to a message there, or its properties cannot be copied. -/
inductive Interrupted : List Frame → RpcReply → Prop where
  | first {frame : Frame} : frame.frameType ≠ amqpFrameHeader →
      Interrupted [frame] (replyTo .unexpectedState frame)
  | uncopied {header : Frame} {bodySize : UInt64} {decoded : Properties amqpBasicClass}
      {raw : View} {status : Status} {left : List Bool} :
      header.frameType = amqpFrameHeader →
      header.payload = .properties amqpBasicClass bodySize (some decoded) raw →
      amqpBasicPropertiesClone decoded [] = .error (.status status) left →
      Interrupted [header] (.libraryException status)
  | later {header last : Frame} {bodies : List Frame} {properties : Properties amqpBasicClass}
      {bodySize : UInt64} {fragments : List (List UInt8)} :
      Announces header properties bodySize → AreFragments bodies fragments →
      fragments.flatten.length < bodySize.toNat → last.frameType ≠ amqpFrameBody →
      Interrupted (header :: (bodies ++ [last])) (replyTo .badAmqpData last)

/-- A call returns what the frames that have arrived make, and takes none behind a message. -/
structure ReadsMessages (channel : UInt16) (queued : List Frame) (world : World)
    (run : EStateM.Result Stop World (Except RpcReply Message)) : Prop where
  normal : ∀ message, (∃ after, run = .ok (.ok message) after) ↔
    ∃ taken rest, arrivals channel queued world (endState run) = taken ++ rest ∧
      CompleteMessage taken message
  leaves : ∀ message after, run = .ok (.ok message) after →
    ∃ taken, arrivals channel queued world after =
        taken ++ onChannel channel after.queue.values ∧
      CompleteMessage taken message
  exceeds : ∀ taken rest, arrivals channel queued world (endState run) = taken ++ rest →
    Exceeds taken → ∃ after, run = .ok (.error (.libraryException .badAmqpData)) after
  interrupted : ∀ taken rest reply,
    arrivals channel queued world (endState run) = taken ++ rest →
      Interrupted taken reply → ∃ after, run = .ok (.error reply) after

/-! ## Fragments -/

section Fragments

variable {size : Nat} {body : List UInt8} {bodies rest : List Frame}
  {fragments : List (List UInt8)}

/-- Fragments that are not enough are taken. -/
theorem gather_of_fragments (areFragments : AreFragments bodies fragments)
    (lacks : body.length + fragments.flatten.length < size) :
    gather size body (bodies ++ rest) = gather size (body ++ fragments.flatten) rest := by
  induction bodies generalizing body fragments with
  | nil =>
      obtain rfl := List.map_eq_nil_iff.mp areFragments.symm
      rw [List.flatten_nil, List.append_nil, List.nil_append]
  | cons frame bodies ih =>
      obtain ⟨bytes, fragments, rfl, isFragment, others⟩ := List.map_eq_cons_iff.mp areFragments.symm
      rw [List.flatten_cons, List.length_append] at lacks
      rw [List.cons_append, gather_fragment (by omega) isFragment.symm (by omega),
        ih others.symm (by rw [List.length_append]; omega), List.flatten_cons, List.append_assoc]

/-- Fragments that are just enough make the body. -/
theorem gather_of_reaches (areFragments : AreFragments bodies fragments)
    (below : ∀ count < fragments.length,
      body.length + (fragments.take count).flatten.length < size)
    (reaches : body.length + fragments.flatten.length = size) :
    gather size body bodies = some ([], .ok (body ++ fragments.flatten)) := by
  induction bodies generalizing body fragments with
  | nil =>
      obtain rfl := List.map_eq_nil_iff.mp areFragments.symm
      rw [List.flatten_nil, List.length_nil] at reaches
      rw [gather, if_neg (by omega), List.flatten_nil, List.append_nil]
  | cons frame bodies ih =>
      obtain ⟨bytes, fragments, rfl, isFragment, others⟩ := List.map_eq_cons_iff.mp areFragments.symm
      have lacks := below 0 (by simp)
      rw [List.flatten_cons, List.length_append] at reaches
      rw [gather_fragment (by simpa using lacks) isFragment.symm (by omega), ih others.symm,
        List.flatten_cons, List.append_assoc]
      · intro count inside
        have later := below (count + 1) (by simpa using inside)
        rw [List.take_succ_cons, List.flatten_cons, List.length_append] at later
        rw [List.length_append]
        omega
      · rw [List.length_append]
        omega

/-- A body is made of fragments only. -/
theorem gather_eq_ok {whole : List UInt8} {frames : List Frame} (fits : body.length ≤ size)
    (gathered : gather size body frames = some (rest, .ok whole)) :
    ∃ bodies fragments, frames = bodies ++ rest ∧ AreFragments bodies fragments ∧
      whole = body ++ fragments.flatten ∧ whole.length = size ∧
      ∀ count < fragments.length, body.length + (fragments.take count).flatten.length < size := by
  induction frames generalizing body with
  | nil =>
      rw [gather] at gathered
      split at gathered
      · cases gathered
      · cases gathered
        exact ⟨[], [], rfl, rfl, (List.append_nil _).symm, by omega, by simp⟩
  | cons frame frames ih =>
      by_cases lacks : body.length < size
      · by_cases notBody : frame.frameType ≠ amqpFrameBody
        · rw [gather_other lacks notBody] at gathered
          cases gathered
        · cases isFragment : frame.fragment? with
          | none =>
              rw [gather_unreadable lacks (not_not.mp notBody) isFragment] at gathered
              cases gathered
          | some bytes =>
              by_cases exceeds : size < body.length + bytes.length
              · rw [gather_excess lacks isFragment exceeds] at gathered
                cases gathered
              · rw [gather_fragment lacks isFragment (Nat.not_lt.mp exceeds)] at gathered
                obtain ⟨bodies, fragments, rfl, others, rfl, reaches, below⟩ :=
                  ih (by rw [List.length_append]; omega) gathered
                refine ⟨frame :: bodies, bytes :: fragments, rfl, ?_, ?_, reaches, ?_⟩
                · unfold AreFragments at others ⊢
                  rw [List.map_cons, List.map_cons, isFragment, others]
                · rw [List.flatten_cons, List.append_assoc]
                · intro count inside
                  cases count with
                  | zero => simpa using lacks
                  | succ count =>
                      have later := below count (by simpa using inside)
                      rw [List.length_append] at later
                      rw [List.take_succ_cons, List.flatten_cons, List.length_append]
                      omega
      · rw [gather, if_neg lacks] at gathered
        cases gathered
        exact ⟨[], [], rfl, rfl, (List.append_nil _).symm, by omega, by simp⟩

end Fragments

/-! ## Headers -/

section Headers

variable {frame : Frame} {properties : Properties amqpBasicClass} {bodySize : UInt64}

/-- With memory available there is memory for the next copy as well. -/
abbrev StaysGranted {α : Type} (clone : Cloner α) : Prop := Keeps (· = []) clone

theorem staysGranted_cloneBytes (bytes : List UInt8) : StaysGranted (cloneBytes bytes) := by
  rintro _ rfl
  rw [cloneBytes_granted]

theorem staysGranted_amqpTableClone (table : Table) : StaysGranted (amqpTableClone table) := by
  rintro _ rfl
  by_cases clonable : table.Every Component.Clonable
  · rw [amqpTableClone_granted clonable]
  · rw [show amqpTableClone table [] = _ from amqpTableClone_refused clonable]

theorem staysGranted_cloneField : (domain : Domain) → (value : domain.Value) →
    StaysGranted (cloneField domain value)
  | .shortstr, value => staysGranted_cloneBytes value
  | .longstr, value => staysGranted_cloneBytes value
  | .table, value => staysGranted_amqpTableClone value
  | .octet, _ | .short, _ | .long, _ | .longlong, _ | .bits _, _ => .pure fun _ granted => granted

theorem staysGranted_cloneProperty {flags : UInt32} {property : Property}
    (field : Option property.domain.Value) : StaysGranted (cloneProperty flags property field) := by
  cases field with
  | none =>
      rw [cloneProperty]
      exact .ite (fun _ => .throw fun _ granted => granted) fun _ => .pure fun _ granted => granted
  | some value =>
      rw [cloneProperty]
      refine .ite (fun _ => ?_) fun _ => .pure fun _ granted => granted
      exact Triple.bind (staysGranted_cloneField property.domain value) fun _ =>
        .pure fun _ granted => granted

theorem staysGranted_cloneProperties {flags : UInt32} : (properties : List Property) →
    (fields : PropertyFields properties) → StaysGranted (cloneProperties flags properties fields)
  | [], _ => .pure fun _ granted => granted
  | _ :: properties, (field, fields) =>
      Triple.bind (staysGranted_cloneProperty field) fun _ =>
        Triple.bind (staysGranted_cloneProperties properties fields) fun _ =>
          .pure fun _ granted => granted

theorem staysGranted_basicPropertiesClone (decoded : Properties amqpBasicClass) :
    StaysGranted (amqpBasicPropertiesClone decoded) :=
  Triple.bind (staysGranted_cloneProperties _ decoded.fields) fun _ =>
    .pure fun _ granted => granted

theorem asBasicProperties_self (decoded : Properties amqpBasicClass) :
    asBasicProperties amqpBasicClass decoded = .ok decoded := by
  unfold asBasicProperties
  rw [dif_pos rfl]

theorem Announces.startMessage (announces : Announces frame properties bodySize) :
    startMessage [] frame = .ok (properties, bodySize.toNat) [] := by
  obtain ⟨decoded, raw, isPayload, copied⟩ := announces.copied
  exact startMessage_of_clone isPayload (asBasicProperties_self decoded) copied

/-- A header of the class that is taken, with its properties. -/
theorem announces_of_startMessage {size : Nat} {left : List Bool}
    (isHeader : frame.frameType = amqpFrameHeader) (basic : ¬ OtherClass frame)
    (started : startMessage [] frame = .ok (properties, size) left) :
    ∃ bodySize, Announces frame properties bodySize ∧ size = bodySize.toNat := by
  obtain ⟨frameType, channel, payload⟩ := frame
  cases isHeader
  cases payload with
  | method | bodyFragment | none | protocolHeader => cases started
  | properties classId bodySize decoded raw =>
      cases decoded with
      | none => cases started
      | some decoded =>
          by_cases same : classId = amqpBasicClass
          · subst same
            simp only [RabbitmqC.startMessage, asBasicProperties_self] at started
            obtain ⟨cloned, rest, copied, ends⟩ := bind_eq_ok.mp started
            obtain rfl := (staysGranted_basicPropertiesClone decoded).ok rfl copied
            refine ⟨bodySize, ⟨rfl, decoded, raw, rfl, ?_⟩, ?_⟩
            · by_cases empty : bodySize = 0
              · rw [if_pos empty] at ends
                cases ends
                exact copied
              · rw [if_neg empty, bind_of_ok poolAlloc_granted] at ends
                cases ends
                exact copied
            · by_cases empty : bodySize = 0
              · rw [if_pos empty] at ends
                cases ends
                rw [empty]
                rfl
              · rw [if_neg empty, bind_of_ok poolAlloc_granted] at ends
                cases ends
                rfl
          · exact absurd ⟨classId, rfl, same⟩ basic

end Headers

/-! ## The block for the body -/

/-- `memcpy` to the block. -/
def copyFragment (block : List UInt8) (offset : Nat) (bytes : List UInt8) : Call (List UInt8) :=
  if offset + bytes.length ≤ block.length then
    return block.take offset ++ (bytes ++ block.drop (offset + bytes.length))
  else
    throw (.fault .outOfBoundsWrite)

/-- The loop with the block that it writes to, which has the size of the body. -/
def readFragmentsInto (channel : UInt16) :
    Nat → List UInt8 → Nat → Call (Except RpcReply (List UInt8))
  | 0, _, _ => outOfFuel
  | fuel + 1, block, bodyRead =>
      if bodyRead < block.length then do
        match ← amqpSimpleWaitFrameOnChannel channel fuel with
        | .error status => return .error (.libraryException status)
        | .ok frame =>
            if frame.frameType ≠ amqpFrameBody then
              match closeMethod? frame with
              | some method => return .error (.serverException method)
              | none => return .error (.libraryException .badAmqpData)
            else
              match frame.payload with
              | .bodyFragment bytes =>
                  if bodyRead + bytes.length > block.length then
                    return .error (.libraryException .badAmqpData)
                  else do
                    let block ← copyFragment block bodyRead bytes
                    readFragmentsInto channel fuel block (bodyRead + bytes.length)
              | _ => throw (.fault .wrongObject)
      else
        return .ok block

section Writing

variable {channel : UInt16} {fuel : Nat}

/-- The loop never writes past the end of the block, and fills it with the body. -/
theorem readFragmentsInto_eq {block body : List UInt8}
    (inside : body.length ≤ block.length) (filled : block.take body.length = body) :
    readFragmentsInto channel fuel block body.length =
      readFragments channel block.length fuel body := by
  induction fuel generalizing block body with
  | zero => rfl
  | succ fuel ih =>
      unfold readFragmentsInto readFragments
      by_cases lacks : body.length < block.length
      · rw [if_pos lacks, if_pos lacks]
        congr 1
        funext result
        cases result with
        | error status => rfl
        | ok frame =>
            dsimp only
            by_cases notBody : frame.frameType ≠ amqpFrameBody
            · exact (if_pos notBody).trans (if_pos notBody).symm
            · rw [if_neg notBody, if_neg notBody]
              cases frame.payload with
              | bodyFragment bytes =>
                  dsimp only
                  by_cases exceeds : body.length + bytes.length > block.length
                  · rw [if_pos exceeds, if_pos exceeds]
                  · have fits := Nat.not_lt.mp exceeds
                    rw [if_neg exceeds, if_neg exceeds, copyFragment, if_pos fits, pure_bind,
                      filled]
                    have rest := @ih (body ++ (bytes ++ block.drop (body.length + bytes.length)))
                      (body ++ bytes) (by simp)
                      (by rw [← List.append_assoc, List.take_left])
                    have sameLength : (body ++ (bytes ++
                        block.drop (body.length + bytes.length))).length = block.length := by
                      simp only [List.length_append, List.length_drop]
                      omega
                    rw [sameLength, List.length_append] at rest
                    exact rest
              | none | method | properties | protocolHeader => rfl
      · rw [if_neg lacks, if_neg lacks]
        have whole : block.length = body.length := by omega
        rw [← whole, List.take_length] at filled
        rw [filled]

end Writing

/-! ## Every call -/

section Calls

variable {channel : UInt16} {fuel : Nat} {world : World} {queued taken left frames : List Frame}
  {message : Message}

theorem assemble_of_complete (complete : CompleteMessage taken message) :
    assemble taken = some ([], .ok message) := by
  obtain ⟨announces, areFragments, below, reaches⟩ := complete
  rw [assemble_header announces.isHeader announces.startMessage, gather_of_reaches areFragments]
  · rfl
  · simpa using below
  · simpa using reaches

theorem complete_of_assemble (basic : ∀ frame ∈ frames, ¬ OtherClass frame)
    (assembled : assemble frames = some (left, .ok message)) :
    ∃ taken, frames = taken ++ left ∧ CompleteMessage taken message := by
  cases frames with
  | nil => cases assembled
  | cons header frames =>
      by_cases notHeader : header.frameType ≠ amqpFrameHeader
      · rw [assemble_other notHeader] at assembled
        cases assembled
      · have isHeader := not_not.mp notHeader
        cases started : startMessage [] header with
        | error failure rest =>
            rw [assemble, if_neg notHeader, started] at assembled
            cases failure with
            | fault fault => cases assembled
            | status status => cases assembled
        | ok start rest =>
            obtain ⟨properties, size⟩ := start
            rw [assemble_header isHeader started] at assembled
            obtain ⟨⟨behind, result⟩, gathered, isMessage⟩ := Option.map_eq_some_iff.mp assembled
            cases result with
            | error reply => cases isMessage
            | ok whole =>
                cases isMessage
                obtain ⟨bodySize, announces, rfl⟩ :=
                  announces_of_startMessage isHeader (basic header List.mem_cons_self) started
                obtain ⟨bodies, fragments, rfl, areFragments, rfl, reaches, below⟩ :=
                  gather_eq_ok (Nat.zero_le _) gathered
                refine ⟨header :: bodies, rfl, announces, areFragments, ?_, reaches⟩
                simpa using below

theorem assemble_of_exceeds (exceeds : Exceeds taken) :
    assemble taken = some ([], .error (.libraryException .badAmqpData)) := by
  obtain ⟨announces, areFragments, below, isFragment, exceeds⟩ := exceeds
  rw [assemble_header announces.isHeader announces.startMessage,
    gather_of_fragments areFragments (by simpa using below), List.nil_append,
    gather_excess below isFragment exceeds]
  rfl

theorem assemble_of_interrupted {reply : RpcReply} (interrupted : Interrupted taken reply) :
    assemble taken = some ([], .error reply) := by
  cases interrupted with
  | first notHeader => exact assemble_other notHeader
  | @uncopied header bodySize decoded raw status rest isHeader isPayload failed =>
      have uncopied : startMessage [] header = .error (.status status) rest := by
        unfold startMessage
        rw [isPayload]
        simp only [asBasicProperties_self]
        exact bind_of_error failed
      exact assemble_uncopied isHeader uncopied
  | later announces areFragments below notBody =>
      rw [assemble_header announces.isHeader announces.startMessage,
        gather_of_fragments areFragments (by simpa using below), List.nil_append,
        gather_other below notBody]
      rfl

/-- Once the first frames that have arrived decide, the call has returned. -/
theorem returns_of_assemble (provided : Provided [] world)
    (represents : world.queue.Represents queued)
    (arrived : frames <+: arrivals channel queued world
      (endState (amqpReadMessage [] channel fuel world)))
    (enough : frames.length < fuel) {result : Except RpcReply Message}
    (assembled : assemble frames = some (left, result)) :
    ∃ after, amqpReadMessage [] channel fuel world = .ok result after := by
  have decides := @amqpReadMessage_assembles channel queued world fuel provided represents world rfl
  obtain ⟨more, split⟩ := arrived
  have whole := @assemble_append _ _ more _ assembled
  rw [split] at whole
  cases ran : amqpReadMessage [] channel fuel world with
  | ok returned after =>
      rw [ran] at decides whole
      change assemble (arrivals channel queued world after) = _ at whole
      rcases decides with ⟨rest, same, _⟩ | ⟨undecided, _⟩
      · rw [same] at whole
        cases whole
        exact ⟨after, rfl⟩
      · rw [undecided] at whole
        cases whole
  | error stop after =>
      rw [ran] at decides whole split
      change frames ++ more = arrivals channel queued world after at split
      change assemble (arrivals channel queued world after) = _ at whole
      rcases decides with undecided | ⟨taken, inFront, short, undecided⟩
      · rw [undecided] at whole
        cases whole
      · have both : frames <+: taken := by
          rcases List.prefix_or_prefix_of_prefix ⟨more, split⟩ inFront with before | behind
          · exact before
          · exact absurd behind.length_le (by omega)
        by_cases same : frames = taken
        · rw [same] at enough
          omega
        · rw [undecided frames both same] at assembled
          cases assembled

/-- Where no heartbeat is sent late, a call returns what the frames in the order of their
arrival make. It ends before they decide only where a wait has failed. -/
theorem amqpReadMessage_reassembles (provided : Provided [] world)
    (represents : world.queue.Represents queued)
    (basic : ∀ frame ∈ arrivals channel queued world
      (endState (amqpReadMessage [] channel fuel world)), ¬ OtherClass frame)
    (enough : (arrivals channel queued world
      (endState (amqpReadMessage [] channel fuel world))).length < fuel) :
    ReadsMessages channel queued world (amqpReadMessage [] channel fuel world) ∧
      ∀ block, readFragmentsInto channel fuel block 0 =
        readFragments channel block.length fuel [] := by
  refine ⟨?_, fun block => @readFragmentsInto_eq channel fuel block [] (Nat.zero_le _) rfl⟩
  have decides := @amqpReadMessage_assembles channel queued world fuel provided represents world rfl
  have leaves : ∀ message after, amqpReadMessage [] channel fuel world = .ok (.ok message) after →
      ∃ taken, arrivals channel queued world after =
          taken ++ onChannel channel after.queue.values ∧ CompleteMessage taken message := by
    intro message after ran
    rw [ran] at decides basic
    rcases decides with ⟨rest, assembled, isLeft⟩ | ⟨_, failed⟩
    · rw [isLeft message rfl]
      exact complete_of_assemble basic assembled
    · exact absurd rfl (failed message)
  have returns (taken rest : List Frame) (result : Except RpcReply Message)
      (arrived : arrivals channel queued world
        (endState (amqpReadMessage [] channel fuel world)) = taken ++ rest)
      (assembled : assemble taken = some ([], result)) :
      ∃ after, amqpReadMessage [] channel fuel world = .ok result after := by
    have short : taken.length < fuel := by
      rw [arrived, List.length_append] at enough
      omega
    exact returns_of_assemble provided represents ⟨rest, arrived.symm⟩ short assembled
  refine ⟨fun message => ⟨?_, ?_⟩, leaves, ?_, ?_⟩
  · rintro ⟨after, ran⟩
    obtain ⟨taken, arrived, complete⟩ := leaves message after ran
    rw [ran]
    exact ⟨taken, _, arrived, complete⟩
  · rintro ⟨taken, rest, arrived, complete⟩
    exact returns taken rest _ arrived (assemble_of_complete complete)
  · intro taken rest arrived exceeds
    exact returns taken rest _ arrived (assemble_of_exceeds exceeds)
  · intro taken rest reply arrived interrupted
    exact returns taken rest _ arrived (assemble_of_interrupted interrupted)

end Calls

/-- A content header that announces two octets, on channel 1. -/
def twoOctetHeader : List UInt8 :=
  frameOctets amqpFrameHeader 1 ([0, 60, 0, 0] ++ List.replicate 7 0 ++ [2, 0, 0])

/-- The header and the two octets in two fragments, with a frame of another channel between
them. -/
def fragmentedWorld : World :=
  tunedWorld
    { clock := []
      recvs := [.data ⟨twoOctetHeader ++ frameOctets amqpFrameBody 1 [97] ++
          frameOctets amqpFrameBody 2 [120], by decide, by decide⟩,
        .data ⟨frameOctets amqpFrameBody 1 [98], by decide, by decide⟩]
      sends := []
      recvPolls := []
      sendPolls := []
      closes := []
      links := []
      memory := fun _ => grantingMemory }

/-- Headers of the class `AMQP_BASIC_CLASS` only. -/
theorem basic_of_classes {frames : List Frame}
    (classes : ∀ classId ∈ frames.filterMap Frame.headerClass?, classId = amqpBasicClass) :
    ∀ frame ∈ frames, ¬ OtherClass frame := by
  rintro frame member ⟨classId, isClass, differs⟩
  exact differs (classes classId (List.mem_filterMap.mpr ⟨frame, member, isClass⟩))

theorem amqpReadMessage_reassembles_fragmented :
    ReadsMessages 1 [] fragmentedWorld (amqpReadMessage [] 1 12 fragmentedWorld) ∧
      ((returned? (amqpReadMessage [] 1 12 fragmentedWorld)).bind Except.toOption).map
        Message.body = some [97, 98] := by
  have classes : (arrivals 1 [] fragmentedWorld
      (endState (amqpReadMessage [] 1 12 fragmentedWorld))).filterMap Frame.headerClass? =
        [amqpBasicClass] := by decide +kernel
  refine ⟨(amqpReadMessage_reassembles ⟨.inl (.inr ⟨by decide, rfl⟩), List.nil_suffix⟩
    LinkedQueue.represents_empty (basic_of_classes ?_) (by decide +kernel)).1, by decide +kernel⟩
  rw [classes]
  simp

/-- A heartbeat falls due between the two fragments and cannot be sent, until `amqp_try_recv`
has read the first of them. -/
def lateHeartbeatWorld : World :=
  beatingWorld
    { clock := [500000000, 500000000, 1500000000, 1500000000, 2500000000, 2600000000, 2600000000,
        4600000000, 4700000000]
      recvs := [.data ⟨twoOctetHeader, by decide, by decide⟩,
        .data ⟨frameOctets amqpFrameBody 1 [97], by decide, by decide⟩, .data heartbeatChunk,
        .data ⟨frameOctets amqpFrameBody 1 [98], by decide, by decide⟩]
      sends := [.needWrite, .needWrite, .accepted 100]
      recvPolls := []
      sendPolls := [.timedOut, .timedOut]
      closes := []
      links := []
      memory := fun _ => grantingMemory }

/-- The first fragment is queued and the second one is taken before it. -/
theorem late_heartbeat_swaps_fragments :
    ¬ ∀ channel fuel world queued, world.queue.Represents queued → world.script.links <:+ [] →
      (∀ frame ∈ arrivals channel queued world
        (endState (amqpReadMessage [] channel fuel world)), ¬ OtherClass frame) →
      (arrivals channel queued world
        (endState (amqpReadMessage [] channel fuel world))).length < fuel →
      ReadsMessages channel queued world (amqpReadMessage [] channel fuel world) := by
  intro reads
  have classes : (arrivals 1 [] lateHeartbeatWorld
      (endState (amqpReadMessage [] 1 12 lateHeartbeatWorld))).filterMap Frame.headerClass? =
        [amqpBasicClass] := by decide +kernel
  have basic := @basic_of_classes (arrivals 1 [] lateHeartbeatWorld
    (endState (amqpReadMessage [] 1 12 lateHeartbeatWorld))) (by rw [classes]; simp)
  have holds := reads 1 12 lateHeartbeatWorld [] LinkedQueue.represents_empty List.nil_suffix basic
    (by decide +kernel)
  have body : ((returned? (amqpReadMessage [] 1 12 lateHeartbeatWorld)).bind
      Except.toOption).map Message.body = some [98, 97] := by decide +kernel
  have ordered : ((assemble (arrivals 1 [] lateHeartbeatWorld
      (endState (amqpReadMessage [] 1 12 lateHeartbeatWorld)))).bind
        fun found => found.2.toOption).map Message.body = some [97, 98] := by decide +kernel
  obtain ⟨message, returned, isBody⟩ := Option.map_eq_some_iff.mp body
  obtain ⟨result, returned, isMessage⟩ := Option.bind_eq_some_iff.mp returned
  obtain ⟨after, ran⟩ := returned?_eq_some.mp returned
  cases result with
  | error reply => cases isMessage
  | ok found =>
      cases isMessage
      obtain ⟨taken, rest, arrived, complete⟩ := (holds.normal message).mp ⟨after, ran⟩
      rw [arrived, assemble_append (assemble_of_complete complete)] at ordered
      have same : some message.body = some [97, 98] := ordered
      rw [isBody] at same
      cases same

end RabbitmqC
