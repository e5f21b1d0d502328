import RabbitmqC.Lib.Recorded
import RabbitmqC.Url.Parse

/-!
# What the URL parser reads and writes

`amqp_parse_url` is not told how long the string is. Here it records every access to
the string. `find_delim` writes behind its read cursor, and no scan starts behind the
terminating zero.
-/

set_option autoImplicit false

namespace RabbitmqC

open Effect Recorded
open CString (ascii)

/-! ## The parser, recorded -/

/-- An access to the string; a store with the place of the character read last. -/
inductive Access where
  | read (offset : Nat)
  | store (offset cursor : Nat)
  deriving DecidableEq, Repr

abbrev RecordedParser := EStateM Fault (Logged UrlState Access)

namespace RecordedParser

def charAt (offset : Nat) : RecordedParser UInt8 := do
  observe (fun _ => ()) fun _ => [.read offset]
  quiet (RabbitmqC.charAt offset)

def storeChar (cursor offset : Nat) (ch : UInt8) : RecordedParser Unit := do
  observe (fun _ => ()) fun _ => [.store offset cursor]
  quiet (RabbitmqC.storeChar offset ch)

/-- `sscanf` and `strtol` read a string up to its end. -/
def readString (offset : Nat) : RecordedParser (List UInt8) :=
  observe (fun state => CString.read state.memory offset) fun state =>
    (List.range ((CString.read state.memory offset).length + 1)).map (.read <| offset + ·)

/-- How many characters `strncmp` looks at: it ends with the first difference. -/
def comparedChars : List UInt8 → List UInt8 → Nat
  | expected :: literal, ch :: memory =>
      if expected = ch then comparedChars literal memory + 1 else 1
  | _, _ => 0

/-- `!strncmp(url, literal, n)` with the length of the literal. -/
def startsWith (literal : List UInt8) : RecordedParser Bool :=
  observe (fun state => decide (literal <+: state.memory)) fun state =>
    (List.range (comparedChars literal state.memory)).map .read

def findDelimLoop (colonAndAtSignAreDelims : Bool) (pp : Nat) :
    Nat → Nat → Nat → RecordedParser (UInt8 × Nat)
  | 0, _, _ => throw .outOfFuel
  | fuel + 1, source, target => do
      let ch ← charAt source
      if isDelim colonAndAtSignAreDelims ch then do
        storeChar source target 0
        return (ch, source + 1)
      else if ch = percent then do
        let text ← readString (source + 1)
        match CString.scanHex2 text with
        | none => return (percent, pp)
        | some (val, chars) =>
            if chars ≠ 2 ∨ val > charMax then
              return (percent, pp)
            else do
              storeChar source target (UInt8.ofNat val)
              findDelimLoop colonAndAtSignAreDelims pp fuel (source + 3) (target + 1)
      else do
        storeChar source target ch
        findDelimLoop colonAndAtSignAreDelims pp fuel (source + 1) (target + 1)

def findDelim (pp : Nat) (colonAndAtSignAreDelims : Bool) : RecordedParser (UInt8 × Nat) := do
  let length ← observe (·.memory.length) fun _ => []
  findDelimLoop colonAndAtSignAreDelims pp length pp pp

def stashComponent (locals : UrlLocals) : RecordedParser UrlLocals := do
  if locals.delim = colon then do
    let (delim, url) ← findDelim locals.url true
    return { locals with port := some locals.url, start := locals.url, delim, url }
  else
    return locals

def takeUserinfo (locals : UrlLocals) : RecordedParser UrlLocals := do
  if locals.delim = atSign then do
    quiet (modify fun state => { state with parsed.user := .intoUrl locals.host })
    match locals.port with
    | some port => quiet (modify fun state => { state with parsed.password := .intoUrl port })
    | none => pure ()
    let (delim, url) ← findDelim locals.url true
    return { port := none, host := locals.url, start := locals.url, delim, url }
  else
    return locals

def takeHost (locals : UrlLocals) : RecordedParser (Option UrlLocals) := do
  if locals.delim = openBracket then do
    if locals.host ≠ locals.start then
      return none
    else if (← charAt locals.host) ≠ 0 then
      return none
    else do
      let start := locals.url
      let (delim, url) ← findDelim start false
      if delim ≠ closeBracket then
        return none
      else do
        quiet (modify fun state => { state with parsed.host := .intoUrl start })
        let start := url
        let (delim, url) ← findDelim start true
        if (← charAt start) ≠ 0 then
          return none
        else
          return some { locals with start, delim, url }
  else do
    if (← charAt locals.host) ≠ 0 then do
      quiet (modify fun state => { state with parsed.host := .intoUrl locals.host })
      return some locals
    else
      return some locals

def takePort (locals : UrlLocals) : RecordedParser UrlLocals := do
  if locals.delim = colon then do
    let (delim, url) ← findDelim locals.url true
    return { locals with port := some locals.url, delim, url }
  else
    return locals

def convertPort (locals : UrlLocals) : RecordedParser Bool := do
  match locals.port with
  | none => return true
  | some port => do
      let text ← readString port
      let (portnum, distance) := CString.strtol text
      if distance = 0 then
        return false
      else if (← charAt (port + distance)) ≠ 0 then
        return false
      else if portnum < 0 ∨ portnum > 65535 then
        return false
      else do
        quiet (modify fun state => { state with parsed.port := portnum })
        return true

def takeVhost (locals : UrlLocals) : RecordedParser (Except Status Unit) := do
  if locals.delim = slash then do
    let start := locals.url
    let (delim, _) ← findDelim start true
    if delim ≠ 0 then
      return .error .badUrl
    else do
      quiet (modify fun state => { state with parsed.vhost := .intoUrl start })
      return .ok ()
  else if locals.delim = 0 then
    return .ok ()
  else
    return .error .badUrl

def parseBehindHost (locals : UrlLocals) : RecordedParser (Except Status Unit) := do
  let locals ← takePort locals
  if ← convertPort locals then
    takeVhost locals
  else
    return .error .badUrl

def parseHost (locals : UrlLocals) : RecordedParser (Except Status Unit) := do
  match ← takeHost locals with
  | none => return .error .badUrl
  | some locals => parseBehindHost locals

def parseComponents (url : Nat) : RecordedParser (Except Status Unit) := do
  let start := url
  let (delim, url) ← findDelim start true
  let locals ← stashComponent ⟨start, start, url, none, delim⟩
  let locals ← takeUserinfo locals
  parseHost locals

def amqpParseUrl : RecordedParser (Except Status Unit) := do
  quiet (modify fun state => { state with parsed := amqpDefaultConnectionInfo })
  if ← startsWith (ascii "amqp://") then
    parseComponents 7
  else if ← startsWith (ascii "amqps://") then do
    quiet (modify fun state => { state with parsed.port := 5671, parsed.ssl := true })
    parseComponents 8
  else
    return .error .badUrl

end RecordedParser

/-! ## The recorded parser is the parser -/

theorem charAt_forgets (offset : Nat) :
    Forgets (RecordedParser.charAt offset) (charAt offset) :=
  Forgets.after_recording .quiet

theorem storeChar_forgets (cursor offset : Nat) (ch : UInt8) :
    Forgets (RecordedParser.storeChar cursor offset ch) (storeChar offset ch) :=
  Forgets.after_recording .quiet

theorem findDelimLoop_forgets (colons : Bool) (pp fuel source target : Nat) :
    Forgets (RecordedParser.findDelimLoop colons pp fuel source target)
      (findDelimLoop colons pp fuel source target) := by
  induction fuel generalizing source target with
  | zero => exact Forgets.throw
  | succ fuel ih =>
      unfold RecordedParser.findDelimLoop findDelimLoop
      refine Forgets.bind (charAt_forgets source) fun ch => ?_
      apply Forgets.ite
      · intro _
        exact Forgets.bind (storeChar_forgets _ _ _) fun _ => Forgets.pure
      · intro _
        apply Forgets.ite
        · intro _
          apply Forgets.observe_bind
          intro logged
          cases CString.scanHex2 (CString.read logged.state.memory (source + 1)) with
          | none => rfl
          | some found =>
              obtain ⟨val, chars⟩ := found
              refine Forgets.ite (fun _ => Forgets.pure) (fun _ => ?_) logged
              exact Forgets.bind (storeChar_forgets _ _ _) fun _ => ih _ _
        · intro _
          exact Forgets.bind (storeChar_forgets _ _ _) fun _ => ih _ _

theorem findDelim_forgets (pp : Nat) (colons : Bool) :
    Forgets (RecordedParser.findDelim pp colons) (findDelim pp colons) := by
  apply Forgets.observe_bind
  intro logged
  exact findDelimLoop_forgets _ _ _ _ _ logged

theorem stashComponent_forgets (locals : UrlLocals) :
    Forgets (RecordedParser.stashComponent locals) (stashComponent locals) := by
  apply Forgets.ite
  · intro _
    exact Forgets.bind (findDelim_forgets _ _) fun _ => Forgets.pure
  · intro _
    exact Forgets.pure

theorem takeUserinfo_forgets (locals : UrlLocals) :
    Forgets (RecordedParser.takeUserinfo locals) (takeUserinfo locals) := by
  apply Forgets.ite
  · intro _
    refine Forgets.bind .quiet fun _ => ?_
    cases locals.port with
    | some port =>
        refine Forgets.bind .quiet fun _ => ?_
        exact Forgets.bind (findDelim_forgets _ _) fun _ => Forgets.pure
    | none => exact Forgets.bind (findDelim_forgets _ _) fun _ => Forgets.pure
  · intro _
    exact Forgets.pure

theorem takeHost_forgets (locals : UrlLocals) :
    Forgets (RecordedParser.takeHost locals) (takeHost locals) := by
  apply Forgets.ite
  · intro _
    apply Forgets.ite
    · intro _
      exact Forgets.pure
    · intro _
      refine Forgets.bind (charAt_forgets _) fun ch => ?_
      apply Forgets.ite
      · intro _
        exact Forgets.pure
      · intro _
        refine Forgets.bind (findDelim_forgets _ _) fun _ => ?_
        apply Forgets.ite
        · intro _
          exact Forgets.pure
        · intro _
          refine Forgets.bind .quiet fun _ => ?_
          refine Forgets.bind (findDelim_forgets _ _) fun _ => ?_
          refine Forgets.bind (charAt_forgets _) fun _ => ?_
          exact Forgets.ite (fun _ => Forgets.pure) fun _ => Forgets.pure
  · intro _
    refine Forgets.bind (charAt_forgets _) fun _ => ?_
    apply Forgets.ite
    · intro _
      exact Forgets.bind .quiet fun _ => Forgets.pure
    · intro _
      exact Forgets.pure

theorem takePort_forgets (locals : UrlLocals) :
    Forgets (RecordedParser.takePort locals) (takePort locals) := by
  apply Forgets.ite
  · intro _
    exact Forgets.bind (findDelim_forgets _ _) fun _ => Forgets.pure
  · intro _
    exact Forgets.pure

theorem convertPort_forgets (locals : UrlLocals) :
    Forgets (RecordedParser.convertPort locals) (convertPort locals) := by
  unfold RecordedParser.convertPort convertPort
  cases locals.port with
  | none => exact Forgets.pure
  | some port =>
      apply Forgets.observe_bind
      intro logged
      refine Forgets.ite (fun _ => Forgets.pure) (fun _ => ?_) logged
      refine Forgets.bind (charAt_forgets _) fun _ => ?_
      refine Forgets.ite (fun _ => Forgets.pure) fun _ => ?_
      refine Forgets.ite (fun _ => Forgets.pure) fun _ => ?_
      exact Forgets.bind .quiet fun _ => Forgets.pure

theorem takeVhost_forgets (locals : UrlLocals) :
    Forgets (RecordedParser.takeVhost locals) (takeVhost locals) := by
  apply Forgets.ite
  · intro _
    refine Forgets.bind (findDelim_forgets _ _) fun _ => ?_
    apply Forgets.ite
    · intro _
      exact Forgets.pure
    · intro _
      exact Forgets.bind .quiet fun _ => Forgets.pure
  · intro _
    exact Forgets.ite (fun _ => Forgets.pure) fun _ => Forgets.pure

theorem parseBehindHost_forgets (locals : UrlLocals) :
    Forgets (RecordedParser.parseBehindHost locals) (parseBehindHost locals) := by
  refine Forgets.bind (takePort_forgets locals) fun locals => ?_
  refine Forgets.bind (convertPort_forgets locals) fun _ => ?_
  exact Forgets.ite (fun _ => takeVhost_forgets locals) fun _ => Forgets.pure

theorem parseHost_forgets (locals : UrlLocals) :
    Forgets (RecordedParser.parseHost locals) (parseHost locals) := by
  refine Forgets.bind (takeHost_forgets locals) fun taken => ?_
  cases taken with
  | none => exact Forgets.pure
  | some locals => exact parseBehindHost_forgets locals

theorem parseComponents_forgets (url : Nat) :
    Forgets (RecordedParser.parseComponents url) (parseComponents url) := by
  refine Forgets.bind (findDelim_forgets _ _) fun found => ?_
  refine Forgets.bind (stashComponent_forgets _) fun locals => ?_
  refine Forgets.bind (takeUserinfo_forgets locals) fun locals => ?_
  exact parseHost_forgets locals

theorem startsWith_run (literal : List UInt8) (logged : Logged UrlState Access) :
    RecordedParser.startsWith literal logged = .ok (decide (literal <+: logged.state.memory))
      { logged with events := logged.events ++ (List.range
        (RecordedParser.comparedChars literal logged.state.memory)).map .read } := rfl

/-- Recording changes nothing. -/
theorem amqpParseUrl_forgets : Forgets RecordedParser.amqpParseUrl amqpParseUrl := by
  refine Forgets.bind .quiet fun _ => ?_
  apply Forgets.observe_bind
  intro logged
  by_cases plain : ascii "amqp://" <+: logged.state.memory
  · rw [decide_eq_true plain, if_pos rfl, if_pos plain]
    exact parseComponents_forgets 7 logged
  · rw [decide_eq_false plain, if_neg Bool.false_ne_true, if_neg plain,
      bind_of_ok (startsWith_run _ logged)]
    by_cases secure : ascii "amqps://" <+: logged.state.memory
    · rw [decide_eq_true secure, if_pos rfl, if_pos secure]
      exact Forgets.bind .quiet (fun _ => parseComponents_forgets 8) _
    · rw [decide_eq_false secure, if_neg Bool.false_ne_true, if_neg secure]
      rfl

/-! ## Inside the string -/

/-- A read up to the terminating zero, or a store from the end of the scheme up to
there that is not ahead of the read cursor. -/
def Access.Confined (low bound : Nat) : Access → Prop
  | .read offset => offset ≤ bound
  | .store offset cursor => low ≤ offset ∧ offset ≤ bound ∧ offset ≤ cursor

/-- The default, or a place in the string. -/
def CharPointer.Inside (bound : Nat) (pointer default : CharPointer) : Prop :=
  pointer = default ∨ ∃ offset, pointer = .intoUrl offset ∧ offset ≤ bound

structure ConnectionInfo.Inside (bound : Nat) (parsed : ConnectionInfo) : Prop where
  user : parsed.user.Inside bound amqpDefaultConnectionInfo.user
  password : parsed.password.Inside bound amqpDefaultConnectionInfo.password
  host : parsed.host.Inside bound amqpDefaultConnectionInfo.host
  vhost : parsed.vhost.Inside bound amqpDefaultConnectionInfo.vhost

/-- The zero at `bound` is still there, and nothing behind it was touched. -/
structure StaysInside (low bound : Nat) (logged : Logged UrlState Access) : Prop where
  terminated : logged.state.memory[bound]? = some 0
  confined : ∀ access ∈ logged.events, access.Confined low bound
  pointers : logged.state.parsed.Inside bound

/-- From inside the string the computation returns, and stays there. -/
def Stays {α : Type} (low bound : Nat) (run : RecordedParser α) (returned : α → Prop) : Prop :=
  Triple (StaysInside low bound) run
    (fun value after => returned value ∧ StaysInside low bound after) fun _ _ => False

/-- Where a scan has ended. -/
def ScanEnded (low bound : Nat) (found : UInt8 × Nat) : Prop :=
  low ≤ found.2 ∧ (found.1 ≠ 0 → found.2 ≤ bound)

structure UrlLocals.Inside (low bound : Nat) (locals : UrlLocals) : Prop where
  host : locals.host ≤ bound
  port : ∀ port, locals.port = some port → port ≤ bound
  scan : ScanEnded low bound (locals.delim, locals.url)

section Stays

variable {α β : Type} {low bound : Nat}

theorem Stays.pure {value : α} {returned : α → Prop} (holds : returned value) :
    Stays low bound (pure value) returned :=
  Triple.pure fun _ inside => ⟨holds, inside⟩

theorem Stays.bind {run : RecordedParser α} {next : α → RecordedParser β} {returned : α → Prop}
    {ended : β → Prop} (first : Stays low bound run returned)
    (second : ∀ value, returned value → Stays low bound (next value) ended) :
    Stays low bound (run >>= next) ended := by
  apply Triple.bind first
  intro value logged reached
  exact second value reached.1 reached.2

theorem Stays.ite {condition : Prop} [Decidable condition] {run other : RecordedParser α}
    {returned : α → Prop} (yes : condition → Stays low bound run returned)
    (no : ¬ condition → Stays low bound other returned) :
    Stays low bound (if condition then run else other) returned :=
  Triple.ite yes no

theorem Stays.returns {run : RecordedParser α} {returned : α → Prop}
    {logged : Logged UrlState Access} (stays : Stays low bound run returned)
    (inside : StaysInside low bound logged) :
    ∃ value final, run logged = .ok value final ∧ returned value ∧ StaysInside low bound final := by
  cases runs : run logged with
  | ok value final => exact ⟨value, final, rfl, stays.ok inside runs⟩
  | error fault final => exact (stays.error inside runs).elim

theorem StaysInside.record {logged : Logged UrlState Access} (inside : StaysInside low bound logged)
    {further : List Access} (confined : ∀ access ∈ further, access.Confined low bound) :
    StaysInside low bound { logged with events := logged.events ++ further } where
  terminated := inside.terminated
  confined := by
    intro access member
    cases List.mem_append.mp member with
    | inl earlier => exact inside.confined access earlier
    | inr new => exact confined access new
  pointers := inside.pointers

theorem Stays.after_recording {access : Access} {run : RecordedParser α} {returned : α → Prop}
    (confined : access.Confined low bound) (stays : Stays low bound run returned) :
    Stays low bound (observe (fun _ => ()) (fun _ => [access]) >>= fun _ => run) returned := by
  intro logged inside
  apply stays
  apply inside.record
  simpa using confined

theorem StaysInside.length {logged : Logged UrlState Access} (inside : StaysInside low bound logged) :
    bound < logged.state.memory.length :=
  (List.getElem?_eq_some_iff.mp inside.terminated).1

theorem charAt_stays {offset : Nat} (atMost : offset ≤ bound) :
    Stays low bound (RecordedParser.charAt offset) fun ch => offset = bound → ch = 0 := by
  apply Stays.after_recording
  · exact atMost
  · apply triple_quiet
    intro logged inside
    have room := Nat.lt_of_le_of_lt atMost inside.length
    refine ⟨_, _, charAt_of_some (List.getElem?_eq_getElem room), ?_, inside⟩
    rintro rfl
    exact (List.getElem?_eq_some_iff.mp inside.terminated).2

theorem storeChar_stays {offset cursor : Nat} {ch : UInt8} (atLeast : low ≤ offset)
    (atMost : offset ≤ bound) (behind : offset ≤ cursor) (ends : offset = bound → ch = 0) :
    Stays low bound (RecordedParser.storeChar cursor offset ch) fun _ => True := by
  apply Stays.after_recording
  · exact ⟨atLeast, atMost, behind⟩
  · apply triple_quiet
    intro logged inside
    have room := Nat.lt_of_le_of_lt atMost inside.length
    refine ⟨_, _, storeChar_of_lt room, trivial, ?_, inside.confined, inside.pointers⟩
    rw [List.getElem?_set]
    by_cases isLast : offset = bound
    · rw [if_pos isLast, if_pos room, ends isLast]
    · rw [if_neg isLast]
      exact inside.terminated

theorem readString_stays {offset : Nat} (atMost : offset ≤ bound) :
    Stays low bound (RecordedParser.readString offset) fun text => offset + text.length ≤ bound := by
  apply triple_observe
  intro logged inside
  have ends := CString.read_le inside.terminated atMost
  refine ⟨ends, inside.record ?_⟩
  intro access member
  obtain ⟨count, isCount, rfl⟩ := List.mem_map.mp member
  have small := List.mem_range.mp isCount
  show offset + count ≤ bound
  omega

theorem findDelimLoop_stays {colons : Bool} {pp fuel source target : Nat} (first : low ≤ pp)
    (startsInside : pp ≤ bound) (begun : pp ≤ target) (behind : target ≤ source)
    (atMost : source ≤ bound) (enough : bound < source + fuel) :
    Stays low bound (RecordedParser.findDelimLoop colons pp fuel source target)
      (ScanEnded low bound) := by
  induction fuel generalizing source target with
  | zero => omega
  | succ fuel ih =>
      unfold RecordedParser.findDelimLoop
      refine Stays.bind (charAt_stays atMost) fun ch ends => ?_
      apply Stays.ite
      · intro isDelim
        refine Stays.bind (storeChar_stays (by omega) (by omega) behind fun _ => rfl) fun _ _ => ?_
        apply Stays.pure
        refine ⟨Nat.le_trans (by omega) (Nat.le_succ source), fun nonzero => ?_⟩
        exact Nat.lt_of_le_of_ne atMost fun isLast => nonzero (ends isLast)
      · intro notDelim
        -- The terminating zero is a delimiter.
        have notLast : source ≠ bound := by
          intro isLast
          rw [ends isLast] at notDelim
          exact notDelim isDelim_zero
        apply Stays.ite
        · intro isPercent
          refine Stays.bind (readString_stays (by omega)) fun text fits => ?_
          cases scanned : CString.scanHex2 text with
          | none => exact Stays.pure ⟨first, fun _ => startsInside⟩
          | some found =>
              obtain ⟨val, chars⟩ := found
              apply Stays.ite
              · intro _
                exact Stays.pure ⟨first, fun _ => startsInside⟩
              · intro accepted
                have isTwo : chars = 2 := by
                  by_contra other
                  exact accepted (.inl other)
                subst isTwo
                have long := CString.scanHex2_le scanned
                refine Stays.bind (storeChar_stays (by omega) (by omega) behind (by omega))
                  fun _ _ => ?_
                exact ih (by omega) (by omega) (by omega) (by omega)
        · intro _
          refine Stays.bind (storeChar_stays (by omega) (by omega) behind (by omega)) fun _ _ => ?_
          exact ih (by omega) (by omega) (by omega) (by omega)

theorem findDelim_stays {pp : Nat} (colons : Bool) (first : low ≤ pp) (atMost : pp ≤ bound) :
    Stays low bound (RecordedParser.findDelim pp colons) (ScanEnded low bound) := by
  have measured : Stays low bound (observe (·.memory.length) fun _ => []) (bound < ·) := by
    apply triple_observe
    intro logged inside
    exact ⟨inside.length, inside.record (by simp)⟩
  refine Stays.bind measured fun length enough => ?_
  exact findDelimLoop_stays first atMost (Nat.le_refl _) (Nat.le_refl _) atMost (by omega)

theorem modify_stays {change : UrlState → UrlState}
    (sameMemory : ∀ state, (change state).memory = state.memory)
    (pointers : ∀ state, state.parsed.Inside bound → (change state).parsed.Inside bound) :
    Stays low bound (quiet (modify change)) fun _ => True := by
  apply triple_quiet
  intro logged inside
  refine ⟨⟨⟩, change logged.state, rfl, trivial, ?_, inside.confined, pointers _ inside.pointers⟩
  rw [sameMemory]
  exact inside.terminated

end Stays

/-! ### The stages -/

section Stages

variable {low bound : Nat} {locals : UrlLocals}

theorem UrlLocals.Inside.url_le (inside : locals.Inside low bound) {delim : UInt8}
    (isDelim : locals.delim = delim) (nonzero : delim ≠ 0) : locals.url ≤ bound := by
  apply inside.scan.2
  rw [isDelim]
  exact nonzero

theorem stashComponent_stays (inside : locals.Inside low bound) :
    Stays low bound (RecordedParser.stashComponent locals) (UrlLocals.Inside low bound) := by
  apply Stays.ite
  · intro isColon
    have atMost := inside.url_le isColon (by decide)
    refine Stays.bind (findDelim_stays true inside.scan.1 atMost) fun found ended => ?_
    apply Stays.pure
    refine ⟨inside.host, ?_, ended⟩
    intro port isPort
    cases isPort
    exact atMost
  · intro _
    exact Stays.pure inside

theorem takeUserinfo_stays (inside : locals.Inside low bound) :
    Stays low bound (RecordedParser.takeUserinfo locals) (UrlLocals.Inside low bound) := by
  apply Stays.ite
  · intro isAt
    have atMost := inside.url_le isAt (by decide)
    have scanned : Stays low bound (do
        let (delim, url) ← RecordedParser.findDelim locals.url true
        return { port := none, host := locals.url, start := locals.url, delim, url })
        (UrlLocals.Inside low bound) := by
      refine Stays.bind (findDelim_stays true inside.scan.1 atMost) fun found ended => ?_
      apply Stays.pure
      refine ⟨atMost, ?_, ended⟩
      intro port isPort
      cases isPort
    have user : Stays low bound (quiet (modify fun state =>
        { state with parsed.user := .intoUrl locals.host })) fun _ => True := by
      apply modify_stays
      · intro state
        rfl
      · intro state pointers
        exact { pointers with user := .inr ⟨_, rfl, inside.host⟩ }
    refine Stays.bind user fun _ _ => ?_
    cases isPort : locals.port with
    | none => exact scanned
    | some port =>
        have password : Stays low bound (quiet (modify fun state =>
            { state with parsed.password := .intoUrl port })) fun _ => True := by
          apply modify_stays
          · intro state
            rfl
          · intro state pointers
            exact { pointers with password := .inr ⟨_, rfl, inside.port port isPort⟩ }
        exact Stays.bind password fun _ _ => scanned
  · intro _
    exact Stays.pure inside

theorem storeHost_stays {offset : Nat} (atMost : offset ≤ bound) :
    Stays low bound (quiet (modify fun state =>
      { state with parsed.host := .intoUrl offset })) fun _ => True := by
  apply modify_stays
  · intro state
    rfl
  · intro state pointers
    exact { pointers with host := .inr ⟨_, rfl, atMost⟩ }

theorem takeHost_stays (inside : locals.Inside low bound) :
    Stays low bound (RecordedParser.takeHost locals)
      fun taken => ∀ next, taken = some next → next.Inside low bound := by
  have stops : Stays low bound (pure none : RecordedParser (Option UrlLocals))
      fun taken => ∀ next, taken = some next → next.Inside low bound := by
    apply Stays.pure
    intro next isSome
    cases isSome
  have continues : Stays low bound (pure (some locals) : RecordedParser (Option UrlLocals))
      fun taken => ∀ next, taken = some next → next.Inside low bound := by
    apply Stays.pure
    intro next isSome
    cases isSome
    exact inside
  apply Stays.ite
  · intro isBracket
    have atMost := inside.url_le isBracket (by decide)
    refine Stays.ite (fun _ => stops) fun _ => ?_
    refine Stays.bind (charAt_stays inside.host) fun ch _ => ?_
    refine Stays.ite (fun _ => stops) fun _ => ?_
    refine Stays.bind (findDelim_stays false inside.scan.1 atMost) fun found ended => ?_
    refine Stays.ite (fun _ => stops) fun isClosed => ?_
    have behind : found.2 ≤ bound := ended.2 (by rw [not_not.mp isClosed]; decide)
    refine Stays.bind (storeHost_stays atMost) fun _ _ => ?_
    refine Stays.bind (findDelim_stays true ended.1 behind) fun next endedNext => ?_
    refine Stays.bind (charAt_stays behind) fun ch _ => ?_
    refine Stays.ite (fun _ => stops) fun _ => ?_
    apply Stays.pure
    intro after isSome
    cases isSome
    exact ⟨inside.host, inside.port, endedNext⟩
  · intro _
    refine Stays.bind (charAt_stays inside.host) fun ch _ => ?_
    apply Stays.ite
    · intro _
      exact Stays.bind (storeHost_stays inside.host) fun _ _ => continues
    · intro _
      exact continues

theorem takePort_stays (inside : locals.Inside low bound) :
    Stays low bound (RecordedParser.takePort locals) (UrlLocals.Inside low bound) := by
  apply Stays.ite
  · intro isColon
    have atMost := inside.url_le isColon (by decide)
    refine Stays.bind (findDelim_stays true inside.scan.1 atMost) fun found ended => ?_
    apply Stays.pure
    refine ⟨inside.host, ?_, ended⟩
    intro port isPort
    cases isPort
    exact atMost
  · intro _
    exact Stays.pure inside

theorem convertPort_stays (inside : locals.Inside low bound) :
    Stays low bound (RecordedParser.convertPort locals) fun _ => True := by
  unfold RecordedParser.convertPort
  cases isPort : locals.port with
  | none => exact Stays.pure trivial
  | some port =>
      have atMost := inside.port port isPort
      refine Stays.bind (readString_stays atMost) fun text fits => ?_
      have inText := CString.strtol_le text
      cases isRead : CString.strtol text with
      | mk portnum distance =>
          rw [isRead] at inText
          refine Stays.ite (fun _ => Stays.pure trivial) fun _ => ?_
          have inString : port + distance ≤ bound :=
            Nat.le_trans (Nat.add_le_add_left inText port) fits
          refine Stays.bind (charAt_stays inString) fun ch _ => ?_
          refine Stays.ite (fun _ => Stays.pure trivial) fun _ => ?_
          refine Stays.ite (fun _ => Stays.pure trivial) fun _ => ?_
          refine Stays.bind (modify_stays (fun _ => rfl) ?_) fun _ _ => Stays.pure trivial
          intro state pointers
          exact ⟨pointers.user, pointers.password, pointers.host, pointers.vhost⟩

theorem takeVhost_stays (inside : locals.Inside low bound) :
    Stays low bound (RecordedParser.takeVhost locals) fun _ => True := by
  apply Stays.ite
  · intro isSlash
    have atMost := inside.url_le isSlash (by decide)
    refine Stays.bind (findDelim_stays true inside.scan.1 atMost) fun found _ => ?_
    refine Stays.ite (fun _ => Stays.pure trivial) fun _ => ?_
    refine Stays.bind (modify_stays (fun _ => rfl) ?_) fun _ _ => Stays.pure trivial
    intro state pointers
    exact { pointers with vhost := .inr ⟨_, rfl, atMost⟩ }
  · intro _
    exact Stays.ite (fun _ => Stays.pure trivial) fun _ => Stays.pure trivial

theorem parseHost_stays (inside : locals.Inside low bound) :
    Stays low bound (RecordedParser.parseHost locals) fun _ => True := by
  refine Stays.bind (takeHost_stays inside) fun taken inside => ?_
  cases taken with
  | none => exact Stays.pure trivial
  | some locals =>
      refine Stays.bind (takePort_stays (inside locals rfl)) fun locals inside => ?_
      refine Stays.bind (convertPort_stays inside) fun _ _ => ?_
      exact Stays.ite (fun _ => takeVhost_stays inside) fun _ => Stays.pure trivial

theorem parseComponents_stays {url : Nat} (atLeast : low ≤ url) (atMost : url ≤ bound) :
    Stays low bound (RecordedParser.parseComponents url) fun _ => True := by
  refine Stays.bind (findDelim_stays true atLeast atMost) fun found ended => ?_
  have inside : UrlLocals.Inside low bound ⟨url, url, found.2, none, found.1⟩ := by
    refine ⟨atMost, ?_, ended⟩
    intro port isPort
    cases isPort
  refine Stays.bind (stashComponent_stays inside) fun locals inside => ?_
  refine Stays.bind (takeUserinfo_stays inside) fun locals inside => ?_
  exact parseHost_stays inside

theorem comparedChars_le {literal memory : List UInt8} (noZero : 0 ∉ literal)
    (terminated : memory[bound]? = some 0) :
    RecordedParser.comparedChars literal memory ≤ bound + 1 := by
  induction literal generalizing memory bound with
  | nil =>
      unfold RecordedParser.comparedChars
      exact Nat.zero_le _
  | cons expected literal ih =>
      cases memory with
      | nil => cases terminated
      | cons ch memory =>
          unfold RecordedParser.comparedChars
          by_cases same : expected = ch
          · rw [if_pos same]
            cases bound with
            | zero =>
                cases terminated
                exact absurd (List.mem_cons.mpr (.inl same.symm)) noZero
            | succ bound =>
                exact Nat.succ_le_succ (ih (List.not_mem_of_not_mem_cons noZero) terminated)
          · rw [if_neg same]
            exact Nat.succ_le_succ (Nat.zero_le _)

theorem length_le_of_starts {literal memory : List UInt8} (noZero : 0 ∉ literal)
    (terminated : memory[bound]? = some 0) (starts : literal <+: memory) :
    literal.length ≤ bound := by
  obtain ⟨rest, rfl⟩ := starts
  by_contra beyond
  rw [List.getElem?_append_left (Nat.lt_of_not_le beyond)] at terminated
  exact noZero (List.mem_of_getElem? terminated)

theorem startsWith_stays {literal : List UInt8} (noZero : 0 ∉ literal) :
    Stays low bound (RecordedParser.startsWith literal)
      fun starts => starts = true → literal.length ≤ bound := by
  apply triple_observe
  intro logged inside
  constructor
  · intro starts
    exact length_le_of_starts noZero inside.terminated (of_decide_eq_true starts)
  · apply inside.record
    intro access member
    obtain ⟨offset, isOffset, rfl⟩ := List.mem_map.mp member
    have small := List.mem_range.mp isOffset
    have most := comparedChars_le noZero inside.terminated
    exact Nat.le_of_lt_succ (Nat.lt_of_lt_of_le small most)

end Stages

/-! ## The whole parser -/

/-- Where the scheme ends. -/
def schemeEnd (memory : List UInt8) : Nat :=
  if ascii "amqp://" <+: memory then 7 else 8

/-- The default, or a place in the string with a zero behind it. -/
def CharPointer.Ends (memory : List UInt8) (bound : Nat) (pointer default : CharPointer) : Prop :=
  pointer = default ∨ ∃ offset place, pointer = .intoUrl offset ∧ offset ≤ place ∧
    place ≤ bound ∧ memory[place]? = some 0

theorem CharPointer.Inside.ends {memory : List UInt8} {bound : Nat} {pointer default : CharPointer}
    (inside : pointer.Inside bound default) (terminated : memory[bound]? = some 0) :
    CharPointer.Ends memory bound pointer default := by
  cases inside with
  | inl isDefault => exact .inl isDefault
  | inr place =>
      obtain ⟨offset, isPlace, atMost⟩ := place
      exact .inr ⟨offset, bound, isPlace, atMost, Nat.le_refl _, terminated⟩

/-- What `amqp_parse_url` leaves behind on a string that a zero ends at `bound`. -/
structure StringKept (bound : Nat) (before : List UInt8) (after : UrlState)
    (accesses : List Access) : Prop where
  reads : ∀ offset, .read offset ∈ accesses → offset ≤ bound
  stores : ∀ offset cursor, .store offset cursor ∈ accesses →
    schemeEnd before ≤ offset ∧ offset ≤ bound ∧ offset ≤ cursor
  user : CharPointer.Ends after.memory bound after.parsed.user amqpDefaultConnectionInfo.user
  password : CharPointer.Ends after.memory bound after.parsed.password
    amqpDefaultConnectionInfo.password
  host : CharPointer.Ends after.memory bound after.parsed.host amqpDefaultConnectionInfo.host
  vhost : CharPointer.Ends after.memory bound after.parsed.vhost amqpDefaultConnectionInfo.vhost

theorem StaysInside.kept {bound : Nat} {before : List UInt8} {logged : Logged UrlState Access}
    (inside : StaysInside (schemeEnd before) bound logged) :
    StringKept bound before logged.state logged.events where
  reads _ member := inside.confined _ member
  stores _ _ member := inside.confined _ member
  user := inside.pointers.user.ends inside.terminated
  password := inside.pointers.password.ends inside.terminated
  host := inside.pointers.host.ends inside.terminated
  vhost := inside.pointers.vhost.ends inside.terminated

theorem staysInside_start {low bound : Nat} {memory : List UInt8}
    (terminated : memory[bound]? = some 0) :
    StaysInside low bound ⟨⟨memory, amqpDefaultConnectionInfo⟩, []⟩ where
  terminated := terminated
  confined _ member := nomatch member
  pointers := ⟨.inl rfl, .inl rfl, .inl rfl, .inl rfl⟩

theorem recordedParseUrl_stays {bound : Nat} {memory : List UInt8} (parsed : ConnectionInfo)
    (terminated : memory[bound]? = some 0) :
    ∃ answer final, RecordedParser.amqpParseUrl ⟨⟨memory, parsed⟩, []⟩ = .ok answer final ∧
      StaysInside (schemeEnd memory) bound final := by
  have noZero : 0 ∉ ascii "amqp://" := by decide +kernel
  have noZeroEither : 0 ∉ ascii "amqps://" := by decide +kernel
  have begun := @staysInside_start (schemeEnd memory) bound memory terminated
  have compared := ((startsWith_stays noZero).ok begun (startsWith_run _ _)).2
  have cleared : (quiet (modify fun state => { state with parsed := amqpDefaultConnectionInfo }) :
      RecordedParser Unit) ⟨⟨memory, parsed⟩, []⟩ =
      .ok () ⟨⟨memory, amqpDefaultConnectionInfo⟩, []⟩ := rfl
  unfold RecordedParser.amqpParseUrl
  rw [bind_of_ok cleared, bind_of_ok (startsWith_run _ _)]
  by_cases plain : ascii "amqp://" <+: memory
  · have isEnd : schemeEnd memory = 7 := if_pos plain
    have long : 7 ≤ bound := length_le_of_starts noZero terminated plain
    rw [decide_eq_true plain, if_pos rfl]
    obtain ⟨answer, final, runs, _, inside⟩ :=
      (parseComponents_stays (Nat.le_of_eq isEnd) long).returns compared
    exact ⟨answer, final, runs, inside⟩
  · have isEnd : schemeEnd memory = 8 := if_neg plain
    rw [decide_eq_false plain, if_neg Bool.false_ne_true]
    have secured : Stays (schemeEnd memory) bound (do
        if ← RecordedParser.startsWith (ascii "amqps://") then do
          quiet (modify fun state => { state with parsed.port := 5671, parsed.ssl := true })
          RecordedParser.parseComponents 8
        else
          return .error .badUrl) fun _ => True := by
      refine Stays.bind (startsWith_stays noZeroEither) fun starts long => ?_
      apply Stays.ite
      · intro isSecure
        refine Stays.bind (modify_stays (fun _ => rfl) ?_) fun _ _ => ?_
        · intro state pointers
          exact ⟨pointers.user, pointers.password, pointers.host, pointers.vhost⟩
        · exact parseComponents_stays (Nat.le_of_eq isEnd) (long isSecure)
      · intro _
        exact Stays.pure trivial
    obtain ⟨answer, final, runs, _, inside⟩ := secured.returns compared
    exact ⟨answer, final, runs, inside⟩

/-- Up to any zero of the array, and so up to the first, the parser stays inside. -/
theorem amqpParseUrl_keeps_string (text more : List UInt8) (parsed : ConnectionInfo) :
    ∃ answer after accesses,
      RecordedParser.amqpParseUrl ⟨⟨text ++ 0 :: more, parsed⟩, []⟩ = .ok answer ⟨after, accesses⟩ ∧
      amqpParseUrl ⟨text ++ 0 :: more, parsed⟩ = .ok answer after ∧
      StringKept text.length (text ++ 0 :: more) after accesses := by
  have terminated : (text ++ 0 :: more)[text.length]? = some 0 := by simp
  obtain ⟨answer, final, runs, inside⟩ := recordedParseUrl_stays parsed terminated
  exact ⟨answer, final.state, final.events, runs, amqpParseUrl_forgets.ok runs, inside.kept⟩

end RabbitmqC
