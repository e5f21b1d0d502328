import RabbitmqC.Duplex.Sending
import RabbitmqC.Lib.Lines
import RabbitmqC.Tools.Consume

/-!
# Publishing what is on standard input

`amqp-publish` takes a message from its command line, all of standard input, or each of
its lines. A line ends at a newline or where the buffer is full, and is published up to
its first NUL.
-/

set_option autoImplicit false

namespace RabbitmqC

open Effect

/-! ## Options -/

/-- The options of `amqp-publish`, as the octets that `strlen` counts. -/
structure PublishOptions where
  exchange : Option (List UInt8) := none
  routingKey : Option (List UInt8) := none
  /-- 2 for the persistent mode. -/
  delivery : UInt8 := 1
  contentType : Option (List UInt8) := none
  contentEncoding : Option (List UInt8) := none
  replyTo : Option (List UInt8) := none
  headers : List (List UInt8) := []
  body : Option (List UInt8) := none
  lineBuffered : Bool := false

namespace PublishOptions

/-- A header definition, cut at its first `:`, without the spaces behind it. -/
def splitHeader (definition : List UInt8) : Option (List UInt8 × List UInt8) :=
  match definition.dropWhile (· ≠ 58) with
  | [] => none
  | _ :: value => some (definition.takeWhile (· ≠ 58), value.dropWhile (· = 32))

/-- An entry that `calloc` has filled with zeros. -/
def zeroEntry : TableEntry := .mk [] (.unknown ⟨0, by decide⟩)

def headerEntry (field : List UInt8 × List UInt8) : TableEntry := .mk field.1 (.utf8 field.2)

/-- A definition without `:` is skipped, but its entry is counted. -/
def headerTable (headers : List (List UInt8)) : Table :=
  let entries := (headers.filterMap splitHeader).map headerEntry
  entries ++ List.replicate (headers.length - entries.length) zeroEntry

def contentTypeFlag : UInt32 := 0x8000
def contentEncodingFlag : UInt32 := 0x4000
def headersFlag : UInt32 := 0x2000
def deliveryModeFlag : UInt32 := 0x1000
def replyToFlag : UInt32 := 0x200

def flags (options : PublishOptions) : UInt32 :=
  deliveryModeFlag ||| (if options.contentType.isSome then contentTypeFlag else 0) |||
    (if options.contentEncoding.isSome then contentEncodingFlag else 0) |||
    (if options.replyTo.isSome then replyToFlag else 0) |||
    (if options.headers ≠ [] then headersFlag else 0)

/-- `props`. -/
def properties (options : PublishOptions) : Properties amqpBasicClass :=
  ⟨options.flags,
    (options.contentType, options.contentEncoding,
      (if options.headers ≠ [] then some (headerTable options.headers) else none),
      some options.delivery, none, none, options.replyTo, none, none, none, none, none, none,
      none, ())⟩

/-- The arguments of the call of `amqp_basic_publish` for a body. -/
def publication (options : PublishOptions) (body : List UInt8) : Publication where
  channel := 1
  exchange := options.exchange.getD []
  routingKey := options.routingKey.getD []
  mandatory := 0
  immediate := 0
  properties := some options.properties
  body

end PublishOptions

/-! ## Standard input -/

/-- What standard input holds, how many octets the next calls of `read` return at most, with
`none` for one that is interrupted, and whether there is an error behind the octets. -/
structure Stdin where
  octets : List UInt8
  reads : List (Option Nat) := []
  broken : Bool := false

structure Publisher where
  world : World
  stdin : Stdin

abbrev PublishCall := EStateM Halt Publisher

/-- A call into the library. -/
def inLibrary {α : Type} (call : Call α) : PublishCall α := fun publisher =>
  match call publisher.world with
  | .ok value world => .ok value { publisher with world }
  | .error .blocked world => .error .waiting { publisher with world }
  | .error (.fault fault) world => .error (.fault fault) { publisher with world }

/-- How a call of `read` ends. -/
inductive ReadResult where
  | octets (octets : List UInt8)
  | interrupted
  | failed

/-- Take so many octets off standard input, or all if there are fewer. -/
def takeStdin (count : Nat) (reads : List (Option Nat)) : PublishCall ReadResult := do
  let publisher ← get
  set { publisher with
    stdin := { publisher.stdin with octets := publisher.stdin.octets.drop count, reads } }
  return if publisher.stdin.octets = [] ∧ publisher.stdin.broken then .failed
    else .octets (publisher.stdin.octets.take count)

/-- `read` from standard input. It returns nothing only at the end of the file. -/
def readStdin (room : Nat) : PublishCall ReadResult := do
  let publisher ← get
  match publisher.stdin.reads with
  | [] => takeStdin room []
  | none :: reads => do
      set { publisher with stdin := { publisher.stdin with reads } }
      return .interrupted
  | some count :: reads => takeStdin (min room (max 1 count)) reads

/-- The loop of `read_all`. -/
def readAllLoop : Nat → Nat → List UInt8 → PublishCall (List UInt8)
  | 0, _, _ => throw (.fault .outOfFuel)
  | fuel + 1, space, bytes => do
      match ← readStdin (space - bytes.length) with
      | .octets [] => return bytes
      | .octets (octet :: octets) =>
          let bytes := bytes ++ octet :: octets
          let space := if bytes.length = space then space * 2 % 2 ^ 64 else space
          readAllLoop fuel space bytes
      | .interrupted => readAllLoop fuel space bytes
      | .failed => throw (.errno "reading")

/-- `read_all`. That `malloc` and `realloc` return a block is taken for granted, as it is by the
source. -/
def readAll : PublishCall (List UInt8) := do
  let publisher ← get
  readAllLoop (publisher.stdin.octets.length + publisher.stdin.reads.length + 1) 4096 []

def maxLineLength : Nat := 1024 * 32

def isNewline (octet : UInt8) : Bool := octet = 10

/-- `fgets` from standard input, without the NUL it adds. A line is lost if an error comes before
its end. -/
def fgets (size : Nat) : PublishCall (Option (List UInt8)) := do
  let publisher ← get
  let (line, rest) := Lines.next isNewline (size - 1) publisher.stdin.octets
  set { publisher with stdin := { publisher.stdin with octets := rest.getD [] } }
  if rest.isNone ∧ (line = [] ∨ publisher.stdin.broken) then
    return none
  else
    return some line

/-- `strlen` of a line with a NUL behind it. -/
def untilNul (line : List UInt8) : List UInt8 := line.takeWhile (· ≠ 0)

/-! ## The tool -/

def doPublish (options : PublishOptions) (fuel : Nat) (body : List UInt8) : PublishCall Unit := do
  match ← inLibrary ((options.publication body).publish fuel) with
  | .error status => throw (.amqpError status "basic.publish")
  | .ok () => return

def publishLines (options : PublishOptions) (fuel : Nat) : Nat → PublishCall Unit
  | 0 => throw (.fault .outOfFuel)
  | turns + 1 => do
      match ← fgets maxLineLength with
      | none => return
      | some line => do
          doPublish options fuel (untilNul line)
          publishLines options fuel turns

/-- `main` between `make_connection` and `close_connection`. With both a body and lines asked for
nothing is published. -/
def publishInput (options : PublishOptions) (fuel : Nat) : PublishCall Unit :=
  match options.body with
  | some body =>
      if options.lineBuffered then return else doPublish options fuel body
  | none =>
      if options.lineBuffered then do
        let publisher ← get
        publishLines options fuel (publisher.stdin.octets.length + 1)
      else do
        let body ← readAll
        doPublish options fuel body

/-! ## Reading -/

section Reading

variable {publisher : Publisher} {room fuel space : Nat} {bytes : List UInt8}

/-- A publisher whose standard input is read. -/
def Publisher.reading (publisher : Publisher) (octets : List UInt8) (reads : List (Option Nat)) :
    Publisher :=
  { publisher with stdin := { publisher.stdin with octets, reads } }

/-- What a call of `read` does. -/
inductive ReadEnds (publisher : Publisher) (room : Nat) :
    EStateM.Result Halt Publisher ReadResult → Prop where
  | interrupted {reads : List (Option Nat)} : publisher.stdin.reads = none :: reads →
      ReadEnds publisher room (.ok .interrupted (publisher.reading publisher.stdin.octets reads))
  | drained {reads : List (Option Nat)} : publisher.stdin.octets = [] →
      ReadEnds publisher room
        (.ok (if publisher.stdin.broken then .failed else .octets []) (publisher.reading [] reads))
  | some {octet : UInt8} {octets rest : List UInt8} {reads : List (Option Nat)} :
      publisher.stdin.octets = octet :: octets ++ rest → (octet :: octets).length ≤ room →
      reads.length ≤ publisher.stdin.reads.length →
      ReadEnds publisher room (.ok (.octets (octet :: octets)) (publisher.reading rest reads))

theorem takeStdin_ends {count : Nat} {reads : List (Option Nat)} (positive : 0 < count)
    (fits : count ≤ room) (fewer : reads.length ≤ publisher.stdin.reads.length) :
    ReadEnds publisher room (takeStdin count reads publisher) := by
  obtain ⟨count, rfl⟩ := Nat.exists_eq_succ_of_ne_zero (Nat.ne_of_gt positive)
  have runs : takeStdin (count + 1) reads publisher = .ok
      (if publisher.stdin.octets = [] ∧ publisher.stdin.broken then .failed
        else .octets (publisher.stdin.octets.take (count + 1)))
      (publisher.reading (publisher.stdin.octets.drop (count + 1)) reads) := rfl
  rw [runs]
  cases isOctets : publisher.stdin.octets with
  | nil => simpa using @ReadEnds.drained publisher room reads isOctets
  | cons octet octets =>
      rw [if_neg (by simp)]
      have split : octet :: octets = octet :: octets.take count ++ octets.drop count := by simp
      have short : (octet :: octets.take count).length ≤ room := by
        have taken := List.length_take_le count octets
        simp only [List.length_cons]
        omega
      exact .some (isOctets.trans split) short fewer

theorem readStdin_ends (positive : 0 < room) :
    ReadEnds publisher room (readStdin room publisher) := by
  unfold readStdin
  simp only [bind_of_ok (get_run publisher)]
  cases isReads : publisher.stdin.reads with
  | nil => exact takeStdin_ends positive (Nat.le_refl room) (Nat.zero_le _)
  | cons answer reads =>
      have fewer : reads.length ≤ publisher.stdin.reads.length := by
        rw [isReads]
        exact Nat.le_succ _
      cases answer with
      | none => exact .interrupted isReads
      | some count =>
          refine takeStdin_ends ?_ (Nat.min_le_left _ _) fewer
          exact lt_min positive (lt_max_of_lt_left Nat.zero_lt_one)

/-- All of standard input is read in whatever pieces, unless an error is behind it. -/
theorem readAllLoop_ends
    (enough : publisher.stdin.octets.length + publisher.stdin.reads.length < fuel)
    (open_ : bytes.length < space)
    (small : bytes.length + publisher.stdin.octets.length < 2 ^ 63) :
    ∃ after, after.world = publisher.world ∧ readAllLoop fuel space bytes publisher =
      if publisher.stdin.broken then .error (.errno "reading") after
      else .ok (bytes ++ publisher.stdin.octets) after := by
  induction fuel generalizing publisher space bytes with
  | zero => exact absurd enough (Nat.not_lt_zero _)
  | succ fuel ih =>
      have ends := @readStdin_ends publisher (space - bytes.length) (Nat.sub_pos_of_lt open_)
      unfold readAllLoop
      generalize isResult : readStdin (space - bytes.length) publisher = result at ends
      cases ends with
      | @interrupted reads isReads =>
          rw [bind_of_ok isResult]
          rw [isReads, List.length_cons] at enough
          exact @ih (publisher.reading publisher.stdin.octets reads) space bytes
            (Nat.lt_of_succ_lt_succ enough) open_ small
      | @drained reads isOctets =>
          refine ⟨publisher.reading [] reads, rfl, ?_⟩
          rw [bind_of_ok isResult, isOctets, List.append_nil]
          cases publisher.stdin.broken <;> rfl
      | @some octet octets rest reads isOctets fits fewer =>
          rw [bind_of_ok isResult]
          have lengths := congrArg List.length isOctets
          rw [List.length_append, List.length_cons] at lengths
          rw [List.length_cons] at fits
          let grown := if (bytes ++ octet :: octets).length = space then space * 2 % 2 ^ 64 else space
          have open' : (bytes ++ octet :: octets).length < grown := by
            simp only [grown, List.length_append, List.length_cons]
            split <;> omega
          have onwards := @ih (publisher.reading rest reads) grown (bytes ++ octet :: octets)
            (by simp only [Publisher.reading]; omega) open'
            (by simp only [Publisher.reading, List.length_append, List.length_cons]; omega)
          rw [isOctets]
          simpa [Publisher.reading, grown] using onwards

theorem readAll_ends (small : publisher.stdin.octets.length < 2 ^ 63) :
    ∃ after, after.world = publisher.world ∧ readAll publisher =
      if publisher.stdin.broken then .error (.errno "reading") after
      else .ok publisher.stdin.octets after :=
  readAllLoop_ends (Nat.lt_succ_self _) (Nat.zero_lt_succ _) (by simpa using small)

/-- The lines that `fgets` returns. -/
def Stdin.lines (stdin : Stdin) : List (List UInt8) :=
  (Lines.cut isNewline (maxLineLength - 1) [] stdin.octets).1 ++
    let rest := (Lines.cut isNewline (maxLineLength - 1) [] stdin.octets).2
    if rest = [] ∨ stdin.broken then [] else [rest]

/-- A line that is published ends in a newline or fills the buffer, unless standard input ends
inside it. -/
theorem Stdin.complete_of_mem_lines {stdin : Stdin} {line : List UInt8}
    (member : line ∈ stdin.lines) : Lines.Complete isNewline (maxLineLength - 1) line ∨
      line = (Lines.cut isNewline (maxLineLength - 1) [] stdin.octets).2 := by
  unfold Stdin.lines at member
  rcases List.mem_append.mp member with whole | last
  · exact .inl (Lines.complete_of_mem_cut (by decide) (by simp) whole)
  · dsimp only at last
    split at last
    · cases last
    · exact .inr (List.mem_singleton.mp last)

/-- A publisher that has taken a line. -/
def Publisher.left (publisher : Publisher) (octets : List UInt8) : Publisher :=
  { publisher with stdin := { publisher.stdin with octets } }

/-- What `fgets` does. -/
inductive LineEnds (publisher : Publisher) :
    EStateM.Result Halt Publisher (Option (List UInt8)) → Prop where
  | drained : publisher.stdin.lines = [] → LineEnds publisher (.ok none (publisher.left []))
  | line {line rest : List UInt8} :
      publisher.stdin.lines = line :: (publisher.left rest).stdin.lines →
      rest.length < publisher.stdin.octets.length →
      LineEnds publisher (.ok (some line) (publisher.left rest))

theorem fgets_ends : LineEnds publisher (fgets maxLineLength publisher) := by
  unfold fgets
  simp only [bind_of_ok (get_run publisher)]
  have cases_ := @Lines.cut_of_next UInt8 isNewline (maxLineLength - 1) [] publisher.stdin.octets
    (maxLineLength - 1) (Nat.zero_add _) (by decide)
  rcases cases_ with ⟨line, rest, isNext, shorter, isCut⟩ | ⟨isNext, isCut⟩
  · rw [isNext]
    refine .line ?_ shorter
    unfold Stdin.lines
    rw [isCut]
    rfl
  · rw [isNext]
    by_cases isOver : publisher.stdin.octets = [] ∨ publisher.stdin.broken = true
    · have runs : (if (none : Option (List UInt8)).isNone = true ∧
          (publisher.stdin.octets = [] ∨ publisher.stdin.broken = true) then
            (return none : PublishCall (Option (List UInt8)))
          else return some publisher.stdin.octets) = return none := if_pos ⟨rfl, isOver⟩
      have isDrained : publisher.stdin.lines = [] := by
        unfold Stdin.lines
        rw [isCut]
        exact if_pos isOver
      have ends := @LineEnds.drained publisher isDrained
      show LineEnds publisher (((if _ ∧ _ then _ else _) : PublishCall (Option (List UInt8)))
        (publisher.left []))
      rw [runs]
      exact ends
    · have runs : (if (none : Option (List UInt8)).isNone = true ∧
          (publisher.stdin.octets = [] ∨ publisher.stdin.broken = true) then
            (return none : PublishCall (Option (List UInt8)))
          else return some publisher.stdin.octets) = return some publisher.stdin.octets :=
        if_neg fun both => isOver both.2
      have isLine : publisher.stdin.lines =
          publisher.stdin.octets :: (publisher.left []).stdin.lines := by
        unfold Stdin.lines
        rw [isCut]
        exact if_neg isOver
      have shorter : ([] : List UInt8).length < publisher.stdin.octets.length :=
        List.length_pos_iff.mpr fun empty => isOver (.inl empty)
      have ends := LineEnds.line isLine shorter
      show LineEnds publisher (((if _ ∧ _ then _ else _) : PublishCall (Option (List UInt8)))
        (publisher.left []))
      rw [runs]
      exact ends

end Reading

/-! ## Messages -/

/-- The bodies that are to be published. -/
def PublishOptions.messages (options : PublishOptions) (stdin : Stdin) : List (List UInt8) :=
  match options.body with
  | some body => if options.lineBuffered then [] else [body]
  | none => if options.lineBuffered then stdin.lines.map untilNul else [stdin.octets]

/-- All of standard input is needed, and cannot be read. -/
def PublishOptions.Unreadable (options : PublishOptions) (stdin : Stdin) : Prop :=
  options.body = none ∧ options.lineBuffered = false ∧ stdin.broken = true

/-- Bodies that were published one after the other. -/
inductive PublishedAll (options : PublishOptions) (fuel : Nat) :
    World → List (List UInt8) → World → Prop where
  | nil {world : World} : PublishedAll options fuel world [] world
  | cons {world between after : World} {body : List UInt8} {bodies : List (List UInt8)} :
      (options.publication body).publish fuel world = .ok (.ok ()) between →
      PublishedAll options fuel between bodies after →
      PublishedAll options fuel world (body :: bodies) after

/-- All bodies have been published, or those before one that failed. -/
inductive BodiesEnd (options : PublishOptions) (fuel : Nat) (world : World)
    (bodies : List (List UInt8)) : EStateM.Result Halt Publisher Unit → Prop where
  | returned {after : Publisher} : PublishedAll options fuel world bodies after.world →
      BodiesEnd options fuel world bodies (.ok () after)
  | halted {halt : Halt} {after : Publisher} {done later : List (List UInt8)}
      {body : List UInt8} {middle : World} : bodies = done ++ body :: later →
      PublishedAll options fuel world done middle →
      (∀ final, (options.publication body).publish fuel middle ≠ .ok (.ok ()) final) →
      after.world = endState ((options.publication body).publish fuel middle) →
      BodiesEnd options fuel world bodies (.error halt after)

section Messages

variable {options : PublishOptions} {fuel turns : Nat} {world : World} {publisher : Publisher}
  {body : List UInt8} {bodies : List (List UInt8)}

theorem BodiesEnd.cons {between : World} {result : EStateM.Result Halt Publisher Unit}
    (published : (options.publication body).publish fuel world = .ok (.ok ()) between)
    (ends : BodiesEnd options fuel between bodies result) :
    BodiesEnd options fuel world (body :: bodies) result := by
  cases ends with
  | returned all => exact .returned (.cons published all)
  | @halted halt after done later last middle split before fails final =>
      exact @BodiesEnd.halted _ _ _ _ _ _ (body :: done) later last middle
        (congrArg (body :: ·) split) (.cons published before) fails final

theorem inLibrary_of_ok {α : Type} {call : Call α} {value : α} {after : World}
    (returned : call publisher.world = .ok value after) :
    inLibrary call publisher = .ok value { publisher with world := after } := by
  unfold inLibrary
  rw [returned]

theorem inLibrary_of_error {α : Type} {call : Call α} {stop : Stop} {after : World}
    (stopped : call publisher.world = .error stop after) :
    ∃ halt, inLibrary call publisher = .error halt { publisher with world := after } := by
  unfold inLibrary
  rw [stopped]
  cases stop with
  | blocked => exact ⟨_, rfl⟩
  | fault fault => exact ⟨_, rfl⟩

/-- The tool goes on behind a message that is published, and ends behind any other. -/
theorem doPublish_ends :
    (∃ after, (options.publication body).publish fuel publisher.world = .ok (.ok ()) after ∧
      doPublish options fuel body publisher = .ok () { publisher with world := after }) ∨
    (∃ halt after, doPublish options fuel body publisher = .error halt after ∧
      BodiesEnd options fuel publisher.world (body :: bodies) (.error halt after)) := by
  cases isResult : (options.publication body).publish fuel publisher.world with
  | ok value after =>
      have runs := inLibrary_of_ok isResult
      cases value with
      | ok _ => exact .inl ⟨after, rfl, bind_of_ok runs⟩
      | error status =>
          refine .inr ⟨_, _, bind_of_ok runs, ?_⟩
          exact @BodiesEnd.halted _ _ _ _ _ _ [] bodies body _ rfl .nil (by simp [isResult])
            (congrArg endState isResult).symm
  | error stop after =>
      obtain ⟨halt, runs⟩ := inLibrary_of_error isResult
      refine .inr ⟨_, _, bind_of_error runs, ?_⟩
      exact @BodiesEnd.halted _ _ _ _ _ _ [] bodies body _ rfl .nil (by simp [isResult])
        (congrArg endState isResult).symm

theorem bodiesEnd_doPublish :
    BodiesEnd options fuel publisher.world [body] (doPublish options fuel body publisher) := by
  rcases @doPublish_ends options fuel publisher body [] with
    ⟨after, published, runs⟩ | ⟨halt, after, runs, ends⟩
  · rw [runs]
    exact .returned (.cons published .nil)
  · rw [runs]
    exact ends

theorem bodiesEnd_publishLines (enough : publisher.stdin.octets.length < turns) :
    BodiesEnd options fuel publisher.world (publisher.stdin.lines.map untilNul)
      (publishLines options fuel turns publisher) := by
  induction turns generalizing publisher with
  | zero => exact absurd enough (Nat.not_lt_zero _)
  | succ turns ih =>
      unfold publishLines
      have ends := @fgets_ends publisher
      generalize isResult : fgets maxLineLength publisher = result at ends
      cases ends with
      | drained none =>
          rw [bind_of_ok isResult, none]
          exact .returned .nil
      | @line line rest isLines shorter =>
          rw [bind_of_ok isResult, isLines, List.map_cons]
          rcases @doPublish_ends options fuel (publisher.left rest) (untilNul line)
            ((publisher.left rest).stdin.lines.map untilNul) with
            ⟨after, published, runs⟩ | ⟨halt, after, runs, ends⟩
          · have onwards := @ih { publisher.left rest with world := after }
              (Nat.lt_of_lt_of_le shorter (Nat.le_of_lt_succ enough))
            show BodiesEnd options fuel _ _ ((doPublish options fuel (untilNul line) >>=
              fun _ => publishLines options fuel turns) _)
            rw [bind_of_ok runs]
            exact onwards.cons published
          · show BodiesEnd options fuel _ _ ((doPublish options fuel (untilNul line) >>=
              fun _ => publishLines options fuel turns) _)
            rw [bind_of_error runs]
            exact ends

/-- However standard input is divided, its messages are published in order up to the first that
fails. -/
theorem publishInput_ends (small : publisher.stdin.octets.length < 2 ^ 63) :
    (options.Unreadable publisher.stdin ∧ ∃ after, after.world = publisher.world ∧
      publishInput options fuel publisher = .error (.errno "reading") after) ∨
    (¬ options.Unreadable publisher.stdin ∧
      BodiesEnd options fuel publisher.world (options.messages publisher.stdin)
        (publishInput options fuel publisher)) := by
  unfold publishInput PublishOptions.messages PublishOptions.Unreadable
  cases options.body with
  | some body =>
      refine .inr ⟨by simp, ?_⟩
      cases options.lineBuffered with
      | true => exact .returned .nil
      | false => exact bodiesEnd_doPublish
  | none =>
      cases options.lineBuffered with
      | true => exact .inr ⟨by simp, bodiesEnd_publishLines (Nat.lt_succ_self _)⟩
      | false =>
          obtain ⟨after, same, reads⟩ := readAll_ends small
          cases isBroken : publisher.stdin.broken with
          | true =>
              rw [isBroken] at reads
              exact .inl ⟨⟨rfl, rfl, rfl⟩, after, same, bind_of_error reads⟩
          | false =>
              rw [isBroken] at reads
              refine .inr ⟨by simp, ?_⟩
              have ends := @bodiesEnd_doPublish options fuel after publisher.stdin.octets
              rw [same] at ends
              show BodiesEnd options fuel publisher.world [publisher.stdin.octets]
                ((readAll >>= doPublish options fuel) publisher)
              rw [bind_of_ok reads]
              exact ends

/-- Standard input has no NUL, and no error comes inside its last line. -/
structure Stdin.Textual (stdin : Stdin) : Prop where
  noNul : 0 ∉ stdin.octets
  whole : stdin.broken = true →
    (Lines.cut isNewline (maxLineLength - 1) [] stdin.octets).2 = []

theorem untilNul_sublist (line : List UInt8) : (untilNul line).Sublist line :=
  List.takeWhile_sublist _

theorem untilNul_eq_iff {line : List UInt8} : untilNul line = line ↔ 0 ∉ line := by
  unfold untilNul
  rw [List.takeWhile_eq_self_iff]
  constructor
  · intro all member
    simpa using all 0 member
  · intro noNul octet member
    simpa using fun zero : octet = 0 => noNul (zero ▸ member)

theorem flatten_untilNul_sublist (lines : List (List UInt8)) :
    (lines.map untilNul).flatten.Sublist lines.flatten := by
  induction lines with
  | nil => exact .refl _
  | cons line lines ih => exact (untilNul_sublist line).append ih

/-- What is behind a NUL in a line is lost. -/
theorem flatten_untilNul_iff {lines : List (List UInt8)} :
    (lines.map untilNul).flatten = lines.flatten ↔ 0 ∉ lines.flatten := by
  induction lines with
  | nil => simp
  | cons line lines ih =>
      rw [List.map_cons, List.flatten_cons, List.flatten_cons, List.mem_append, not_or,
        ← untilNul_eq_iff, ← ih]
      constructor
      · intro same
        have short := (untilNul_sublist line).length_le
        have shortLater := (flatten_untilNul_sublist lines).length_le
        have lengths := congrArg List.length same
        simp only [List.length_append] at lengths
        exact List.append_inj same (by omega)
      · rintro ⟨own, later⟩
        rw [own, later]

/-- The lines that are published are standard input again if it is a text. -/
theorem flatten_lines_iff (stdin : Stdin) :
    (stdin.lines.map untilNul).flatten = stdin.octets ↔ stdin.Textual := by
  have whole := @Lines.flatten_cut UInt8 isNewline (maxLineLength - 1) [] stdin.octets
  rw [List.nil_append] at whole
  by_cases lost : (Lines.cut isNewline (maxLineLength - 1) [] stdin.octets).2 ≠ [] ∧
      stdin.broken = true
  · have isLines : stdin.lines = (Lines.cut isNewline (maxLineLength - 1) [] stdin.octets).1 := by
      unfold Stdin.lines
      rw [if_pos (.inr lost.2), List.append_nil]
    refine ⟨fun same => ?_, fun textual => absurd (textual.whole lost.2) lost.1⟩
    have short := (flatten_untilNul_sublist stdin.lines).length_le
    rw [same, isLines] at short
    have lengths := congrArg List.length whole
    rw [List.length_append] at lengths
    have some := List.length_pos_iff.mpr lost.1
    omega
  · have isLines : stdin.lines.flatten = stdin.octets := by
      unfold Stdin.lines
      by_cases none : (Lines.cut isNewline (maxLineLength - 1) [] stdin.octets).2 = []
      · rw [none, List.append_nil] at whole
        rw [if_pos (.inl none), List.append_nil, whole]
      · have sound : ¬ stdin.broken = true := fun broken => lost ⟨none, broken⟩
        rw [if_neg (not_or.mpr ⟨none, sound⟩)]
        simpa using whole
    rw [← isLines, flatten_untilNul_iff, isLines]
    refine ⟨fun noNul => ⟨noNul, fun broken => ?_⟩, Stdin.Textual.noNul⟩
    by_contra some
    exact lost ⟨some, broken⟩

end Messages

end RabbitmqC
