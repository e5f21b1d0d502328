import RabbitmqC.Lib.CString
import RabbitmqC.Lib.Effect
import RabbitmqC.Status

/-!
# Parsing a connection URL

`amqp_parse_url` works in the memory of the string: it ends the components with
zeros and decodes them in place. The members of the result point into the string.
-/

set_option autoImplicit false

namespace RabbitmqC

open Effect
open CString (ascii)

/-! ## The model -/

/-- A `char *` of the result: a string of the library, or a place in the URL. -/
inductive CharPointer where
  | literal (text : List UInt8)
  | intoUrl (offset : Nat)

def CharPointer.text (memory : List UInt8) : CharPointer → List UInt8
  | literal text => text
  | intoUrl offset => CString.read memory offset

/-- `struct amqp_connection_info`. -/
structure ConnectionInfo where
  user : CharPointer
  password : CharPointer
  host : CharPointer
  vhost : CharPointer
  port : Int
  ssl : Bool

def amqpDefaultConnectionInfo : ConnectionInfo where
  user := .literal (ascii "guest")
  password := .literal (ascii "guest")
  host := .literal (ascii "localhost")
  port := 5672
  vhost := .literal (ascii "/")
  ssl := false

/-- The array that holds the string, and `*parsed`. -/
structure UrlState where
  memory : List UInt8
  parsed : ConnectionInfo

abbrev UrlParser := EStateM Fault UrlState

def charAt (offset : Nat) : UrlParser UInt8 := do
  let state ← get
  match state.memory[offset]? with
  | some ch => return ch
  | none => throw .outOfBoundsRead

def storeChar (offset : Nat) (ch : UInt8) : UrlParser Unit := do
  let state ← get
  if offset < state.memory.length then
    set { state with memory := state.memory.set offset ch }
  else
    throw .outOfBoundsWrite

/-- The characters at which `find_delim` stops. -/
def isDelim (colonAndAtSignAreDelims : Bool) (ch : UInt8) : Bool :=
  ch = 0 || (ascii "/?#[]").contains ch || (colonAndAtSignAreDelims && (ascii ":@").contains ch)

def colon : UInt8 := 58
def atSign : UInt8 := 64
def slash : UInt8 := 47
def percent : UInt8 := 37
def openBracket : UInt8 := 91
def closeBracket : UInt8 := 93

/-- `CHAR_MAX`; `char` is signed. -/
def charMax : Nat := 127

/-- The loop of `find_delim`: the delimiter and `*pp`. -/
def findDelimLoop (colonAndAtSignAreDelims : Bool) (pp : Nat) :
    Nat → Nat → Nat → UrlParser (UInt8 × Nat)
  | 0, _, _ => throw .outOfFuel
  | fuel + 1, source, target => do
      let ch ← charAt source
      if isDelim colonAndAtSignAreDelims ch then do
        storeChar target 0
        return (ch, source + 1)
      else if ch = percent then do
        let state ← get
        match CString.scanHex2 (CString.read state.memory (source + 1)) with
        | none => return (percent, pp)
        | some (val, chars) =>
            if chars ≠ 2 ∨ val > charMax then
              return (percent, pp)
            else do
              storeChar target (UInt8.ofNat val)
              findDelimLoop colonAndAtSignAreDelims pp fuel (source + 3) (target + 1)
      else do
        storeChar target ch
        findDelimLoop colonAndAtSignAreDelims pp fuel (source + 1) (target + 1)

/-- Every turn of the loop moves on, so that the length of the array is enough fuel. -/
def findDelim (pp : Nat) (colonAndAtSignAreDelims : Bool) : UrlParser (UInt8 × Nat) := do
  let state ← get
  findDelimLoop colonAndAtSignAreDelims pp state.memory.length pp pp

/-- The local variables of `amqp_parse_url`. -/
structure UrlLocals where
  host : Nat
  start : Nat
  url : Nat
  port : Option Nat
  delim : UInt8

/-- "The colon could be introducing the port or the password part of the userinfo." -/
def stashComponent (locals : UrlLocals) : UrlParser UrlLocals := do
  if locals.delim = colon then do
    let (delim, url) ← findDelim locals.url true
    return { locals with port := some locals.url, start := locals.url, delim, url }
  else
    return locals

/-- "What might have been the host and port were in fact the username and password." -/
def takeUserinfo (locals : UrlLocals) : UrlParser UrlLocals := do
  if locals.delim = atSign then do
    modify fun state => { state with parsed.user := .intoUrl locals.host }
    match locals.port with
    | some port => modify fun state => { state with parsed.password := .intoUrl port }
    | none => pure ()
    let (delim, url) ← findDelim locals.url true
    return { port := none, host := locals.url, start := locals.url, delim, url }
  else
    return locals

/-- The host; `none` is `goto out`. -/
def takeHost (locals : UrlLocals) : UrlParser (Option UrlLocals) := do
  if locals.delim = openBracket then do
    if locals.host ≠ locals.start then
      return none
    else if (← charAt locals.host) ≠ 0 then
      return none
    else do
      let start := locals.url
      let (delim, url) ← findDelim start false
      if delim ≠ closeBracket then
        return none
      else do
        modify fun state => { state with parsed.host := .intoUrl start }
        let start := url
        let (delim, url) ← findDelim start true
        if (← charAt start) ≠ 0 then
          return none
        else
          return some { locals with start, delim, url }
  else do
    if (← charAt locals.host) ≠ 0 then do
      modify fun state => { state with parsed.host := .intoUrl locals.host }
      return some locals
    else
      return some locals

def takePort (locals : UrlLocals) : UrlParser UrlLocals := do
  if locals.delim = colon then do
    let (delim, url) ← findDelim locals.url true
    return { locals with port := some locals.url, delim, url }
  else
    return locals

/-- Whether the port, if there is one, is a number of the right size. -/
def convertPort (locals : UrlLocals) : UrlParser Bool := do
  match locals.port with
  | none => return true
  | some port => do
      let state ← get
      let (portnum, distance) := CString.strtol (CString.read state.memory port)
      if distance = 0 then
        return false
      else if (← charAt (port + distance)) ≠ 0 then
        return false
      else if portnum < 0 ∨ portnum > 65535 then
        return false
      else do
        modify fun state => { state with parsed.port := portnum }
        return true

def takeVhost (locals : UrlLocals) : UrlParser (Except Status Unit) := do
  if locals.delim = slash then do
    let start := locals.url
    let (delim, _) ← findDelim start true
    if delim ≠ 0 then
      return .error .badUrl
    else do
      modify fun state => { state with parsed.vhost := .intoUrl start }
      return .ok ()
  else if locals.delim = 0 then
    return .ok ()
  else
    return .error .badUrl

/-- `amqp_parse_url` behind the host. -/
def parseBehindHost (locals : UrlLocals) : UrlParser (Except Status Unit) := do
  let locals ← takePort locals
  if ← convertPort locals then
    takeVhost locals
  else
    return .error .badUrl

def parseHost (locals : UrlLocals) : UrlParser (Except Status Unit) := do
  match ← takeHost locals with
  | none => return .error .badUrl
  | some locals => parseBehindHost locals

/-- `amqp_parse_url` behind the scheme. -/
def parseComponents (url : Nat) : UrlParser (Except Status Unit) := do
  let start := url
  let (delim, url) ← findDelim start true
  let locals ← stashComponent ⟨start, start, url, none, delim⟩
  let locals ← takeUserinfo locals
  parseHost locals

/-- The string starts where the array does. -/
def amqpParseUrl : UrlParser (Except Status Unit) := do
  modify fun state => { state with parsed := amqpDefaultConnectionInfo }
  let state ← get
  if ascii "amqp://" <+: state.memory then
    parseComponents 7
  else if ascii "amqps://" <+: state.memory then do
    modify fun state => { state with parsed.port := 5671, parsed.ssl := true }
    parseComponents 8
  else
    return .error .badUrl

/-! ## Scanning -/

/-- The text up to the next delimiter with its escapes decoded, the delimiter, and what
is behind it. An escape of zero would end the text early. -/
def nextDelim (colonAndAtSignAreDelims : Bool) :
    List UInt8 → Option (List UInt8 × UInt8 × List UInt8)
  | [] => none
  | ch :: rest =>
      if isDelim colonAndAtSignAreDelims ch then
        some ([], ch, rest)
      else if ch = percent then
        match rest with
        | first :: second :: rest =>
            match CString.hexValue? first, CString.hexValue? second with
            | some high, some low =>
                if 0 < 16 * high + low ∧ 16 * high + low ≤ charMax then
                  (nextDelim colonAndAtSignAreDelims rest).map fun (text, found) =>
                    (UInt8.ofNat (16 * high + low) :: text, found)
                else none
            | _, _ => none
        | _ => none
      else
        (nextDelim colonAndAtSignAreDelims rest).map fun (text, found) => (ch :: text, found)

/-- What `nextDelim` finds, by the way it goes. -/
inductive Scans (colons : Bool) : List UInt8 → List UInt8 → UInt8 → List UInt8 → Prop where
  | stop {ch : UInt8} {left : List UInt8} :
      isDelim colons ch = true → Scans colons (ch :: left) [] ch left
  | plain {ch delim : UInt8} {rest text left : List UInt8} :
      isDelim colons ch = false → ch ≠ percent → Scans colons rest text delim left →
      Scans colons (ch :: rest) (ch :: text) delim left
  | escaped {first second delim : UInt8} {high low : Nat} {rest text left : List UInt8} :
      CString.hexValue? first = some high → CString.hexValue? second = some low →
      0 < 16 * high + low → 16 * high + low ≤ charMax → Scans colons rest text delim left →
      Scans colons (percent :: first :: second :: rest) (UInt8.ofNat (16 * high + low) :: text)
        delim left

/-- What `find_delim` goes past: `sscanf` has its own notion of two hexadecimal digits. -/
inductive Lexes (colons : Bool) : List UInt8 → List UInt8 → UInt8 → List UInt8 → Prop where
  | stop {ch : UInt8} {left : List UInt8} :
      isDelim colons ch = true → Lexes colons (ch :: left) [] ch left
  | plain {ch delim : UInt8} {rest text left : List UInt8} :
      isDelim colons ch = false → ch ≠ percent → Lexes colons rest text delim left →
      Lexes colons (ch :: rest) (ch :: text) delim left
  | escaped {first second delim : UInt8} {val : Nat} {rest text left : List UInt8} :
      CString.scanHex2 ((first :: second :: rest).takeWhile (· ≠ 0)) = some (val, 2) →
      val ≤ charMax → Lexes colons rest text delim left →
      Lexes colons (percent :: first :: second :: rest) (UInt8.ofNat val :: text) delim left

section Scanning

variable {colons : Bool} {encoded text left : List UInt8} {delim : UInt8}

theorem isDelim_zero : isDelim colons 0 = true := by
  cases colons <;> rfl

theorem isDelim_percent : isDelim colons percent = false := by
  cases colons <;> decide

theorem nextDelim_eq_some :
    nextDelim colons encoded = some (text, delim, left) ↔ Scans colons encoded text delim left := by
  constructor
  · intro found
    fun_induction nextDelim colons encoded generalizing text with
    | case1 => cases found
    | case2 ch rest isDelim =>
        cases found
        exact .stop isDelim
    | case3 first second rest high low isLow isHigh bounds notDelim ih =>
        obtain ⟨⟨behind, _⟩, scanned, same⟩ := Option.map_eq_some_iff.mp found
        cases same
        exact .escaped isHigh isLow bounds.1 bounds.2 (ih scanned)
    | case4 => cases found
    | case5 => cases found
    | case6 => cases found
    | case7 ch rest notDelim notPercent ih =>
        obtain ⟨⟨behind, _⟩, scanned, same⟩ := Option.map_eq_some_iff.mp found
        cases same
        exact .plain (by simpa using notDelim) notPercent (ih scanned)
  · intro scans
    induction scans with
    | stop isDelim =>
        unfold nextDelim
        rw [if_pos isDelim]
    | plain notDelim notPercent _ ih =>
        unfold nextDelim
        rw [if_neg (by simp [notDelim]), if_neg notPercent, ih]
        rfl
    | escaped isHigh isLow positive small _ ih =>
        unfold nextDelim
        rw [if_neg (by simp [isDelim_percent]), if_pos rfl]
        dsimp only
        rw [isHigh, isLow]
        dsimp only
        rw [if_pos ⟨positive, small⟩, ih]
        rfl

theorem Scans.noZero (scans : Scans colons encoded text delim left) : 0 ∉ text := by
  induction scans with
  | stop _ => simp
  | plain notDelim _ _ ih =>
      refine List.not_mem_cons_of_ne_of_not_mem ?_ ih
      rintro rfl
      cases colons <;> cases notDelim
  | @escaped _ _ _ high low _ _ _ _ _ positive small _ ih =>
      refine List.not_mem_cons_of_ne_of_not_mem ?_ ih
      intro zero
      have value := congrArg UInt8.toNat zero
      rw [UInt8.toNat_ofNat', UInt8.toNat_zero] at value
      unfold charMax at small
      omega

section Memory

variable {state : UrlState} {offset : Nat} {ch : UInt8}

theorem charAt_of_some (found : state.memory[offset]? = some ch) :
    charAt offset state = .ok ch state := by
  unfold charAt
  rw [bind_of_ok (get_run state), found]
  rfl

theorem charAt_append (passed rest : List UInt8) (ch : UInt8) (parsed : ConnectionInfo) :
    charAt passed.length ⟨passed ++ ch :: rest, parsed⟩ = .ok ch ⟨passed ++ ch :: rest, parsed⟩ :=
  charAt_of_some (by simp)

theorem storeChar_of_lt (inside : offset < state.memory.length) :
    storeChar offset ch state = .ok () { state with memory := state.memory.set offset ch } := by
  unfold storeChar
  rw [bind_of_ok (get_run state), if_pos inside]
  rfl

/-- A store into a piece that was read already. -/
theorem storeChar_written (written piece rest : List UInt8) (nonempty : piece ≠ [])
    (ch : UInt8) :
    ∃ gap, (∀ parsed, storeChar written.length ch ⟨written ++ piece ++ rest, parsed⟩ =
        .ok () ⟨written ++ [ch] ++ gap ++ rest, parsed⟩) ∧ gap.length + 1 = piece.length := by
  obtain ⟨head, gap, rfl⟩ := List.exists_cons_of_ne_nil nonempty
  refine ⟨gap, fun parsed => ?_, rfl⟩
  rw [storeChar_of_lt (by simp), List.append_assoc,
    List.set_append_right _ _ (Nat.le_refl _), Nat.sub_self]
  simp

end Memory

theorem scanHex2_of_escape {first second : UInt8} {high low : Nat} {rest : List UInt8}
    (isHigh : CString.hexValue? first = some high) (isLow : CString.hexValue? second = some low) :
    CString.scanHex2 ((first :: second :: rest).takeWhile (· ≠ 0)) = some (16 * high + low, 2) := by
  have nonzero : ∀ digit : UInt8, (CString.hexValue? digit).isSome = true → digit ≠ 0 := by
    rintro digit isHex rfl
    cases isHex
  rw [List.takeWhile_cons_of_pos (by simpa using nonzero first (by rw [isHigh]; rfl)),
    List.takeWhile_cons_of_pos (by simpa using nonzero second (by rw [isLow]; rfl))]
  exact CString.scanHex2_of_digits isHigh isLow

theorem Scans.lexes (scans : Scans colons encoded text delim left) :
    Lexes colons encoded text delim left := by
  induction scans with
  | stop isDelim => exact .stop isDelim
  | plain notDelim notPercent _ ih => exact .plain notDelim notPercent ih
  | escaped isHigh isLow _ small _ ih =>
      exact .escaped (scanHex2_of_escape isHigh isLow) small ih

/-- What stands behind the character at the cursor. -/
theorem read_behind (passed rest : List UInt8) (ch : UInt8) :
    CString.read (passed ++ ch :: rest) (passed.length + 1) = rest.takeWhile (· ≠ 0) := by
  have dropped : (passed ++ ch :: rest).drop (passed.length + 1) = rest := by
    rw [← List.drop_drop, List.drop_left]
    rfl
  unfold CString.read
  rw [dropped]

section Turns

variable {pp fuel : Nat} {rest : List UInt8} (written gap : List UInt8)

/-- One turn past a character, with the octets up to `written` stored and those behind
`gap` still to read. -/
theorem findDelimLoop_plain {ch : UInt8} (notDelim : isDelim colons ch = false)
    (notPercent : ch ≠ percent) :
    ∃ gap', ∀ parsed, findDelimLoop colons pp (fuel + 1) (written ++ gap).length written.length
        ⟨written ++ gap ++ ch :: rest, parsed⟩ =
      findDelimLoop colons pp fuel (written ++ [ch] ++ gap').length (written ++ [ch]).length
        ⟨written ++ [ch] ++ gap' ++ rest, parsed⟩ := by
  obtain ⟨gap', stored, isLength⟩ := storeChar_written written (gap ++ [ch]) rest (by simp) ch
  have regrouped : written ++ gap ++ ch :: rest = written ++ (gap ++ [ch]) ++ rest := by simp
  have source : (written ++ gap).length + 1 = (written ++ [ch] ++ gap').length := by
    simp at isLength ⊢
    omega
  have target : written.length + 1 = (written ++ [ch]).length := by simp
  refine ⟨gap', fun parsed => ?_⟩
  rw [findDelimLoop, bind_of_ok (charAt_append (written ++ gap) rest ch parsed),
    if_neg (by simp [notDelim]), if_neg notPercent, regrouped, bind_of_ok (stored parsed), source,
    target]

/-- One turn past an escape. -/
theorem findDelimLoop_escaped {first second : UInt8} {val : Nat}
    (scanned : CString.scanHex2 ((first :: second :: rest).takeWhile (· ≠ 0)) = some (val, 2))
    (small : val ≤ charMax) :
    ∃ gap', ∀ parsed, findDelimLoop colons pp (fuel + 1) (written ++ gap).length written.length
        ⟨written ++ gap ++ percent :: first :: second :: rest, parsed⟩ =
      findDelimLoop colons pp fuel (written ++ [UInt8.ofNat val] ++ gap').length
        (written ++ [UInt8.ofNat val]).length
        ⟨written ++ [UInt8.ofNat val] ++ gap' ++ rest, parsed⟩ := by
  obtain ⟨gap', stored, isLength⟩ := storeChar_written written
    (gap ++ [percent, first, second]) rest (by simp) (UInt8.ofNat val)
  have regrouped : written ++ gap ++ percent :: first :: second :: rest =
      written ++ (gap ++ [percent, first, second]) ++ rest := by simp
  have source : (written ++ gap).length + 3 =
      (written ++ [UInt8.ofNat val] ++ gap').length := by
    simp at isLength ⊢
    omega
  have target : written.length + 1 = (written ++ [UInt8.ofNat val]).length := by simp
  refine ⟨gap', fun parsed => ?_⟩
  rw [findDelimLoop, bind_of_ok (charAt_append (written ++ gap) _ percent parsed),
    if_neg (by simp [isDelim_percent]), if_pos rfl, bind_of_ok (get_run _)]
  dsimp only
  rw [read_behind, scanned]
  dsimp only
  rw [if_neg (by simpa using small), regrouped, bind_of_ok (stored parsed), source, target]

end Turns

theorem findDelimLoop_of_lexes {pp fuel : Nat} (lexes : Lexes colons encoded text delim left)
    (enough : encoded.length ≤ fuel) (written gap : List UInt8) :
    ∃ behind, ∀ parsed, findDelimLoop colons pp fuel (written ++ gap).length written.length
        ⟨written ++ gap ++ encoded, parsed⟩ =
      .ok (delim, (written ++ text ++ 0 :: behind).length)
        ⟨written ++ text ++ 0 :: behind ++ left, parsed⟩ := by
  induction lexes generalizing fuel written gap with
  | @stop ch left isDelim =>
      obtain ⟨fuel, rfl⟩ := Nat.exists_eq_add_one.mpr (Nat.lt_of_lt_of_le (by simp) enough)
      obtain ⟨behind, stored, isLength⟩ :=
        storeChar_written written (gap ++ [ch]) left (by simp) 0
      have regrouped : written ++ gap ++ ch :: left = written ++ (gap ++ [ch]) ++ left := by simp
      refine ⟨behind, fun parsed => ?_⟩
      unfold findDelimLoop
      rw [bind_of_ok (charAt_append (written ++ gap) left ch parsed), if_pos isDelim, regrouped,
        bind_of_ok (stored parsed)]
      have moved : (written ++ gap).length + 1 = (written ++ [] ++ 0 :: behind).length := by
        simp at isLength ⊢
        omega
      rw [moved]
      simp
  | @plain ch delim rest text left notDelim notPercent lexes ih =>
      obtain ⟨fuel, rfl⟩ := Nat.exists_eq_add_one.mpr (Nat.lt_of_lt_of_le (by simp) enough)
      obtain ⟨gap', turns⟩ := findDelimLoop_plain written gap notDelim notPercent
      obtain ⟨behind, found⟩ := ih (Nat.le_of_succ_le_succ enough) (written ++ [ch]) gap'
      refine ⟨behind, fun parsed => ?_⟩
      rw [turns, found]
      simp
  | @escaped first second delim val rest text left scanned small lexes ih =>
      obtain ⟨fuel, rfl⟩ := Nat.exists_eq_add_one.mpr (Nat.lt_of_lt_of_le (by simp) enough)
      have less : rest.length ≤ fuel := by
        simp only [List.length_cons] at enough
        omega
      obtain ⟨gap', turns⟩ := findDelimLoop_escaped written gap scanned small
      obtain ⟨behind, found⟩ := ih less (written ++ [UInt8.ofNat val]) gap'
      refine ⟨behind, fun parsed => ?_⟩
      rw [turns, found]
      simp

/-- The text is decoded in place, and behind it the cursor stands on what is left. -/
theorem findDelim_of_lexes (lexes : Lexes colons encoded text delim left)
    (passed : List UInt8) :
    ∃ behind, ∀ parsed, findDelim passed.length colons ⟨passed ++ encoded, parsed⟩ =
      .ok (delim, (passed ++ text ++ 0 :: behind).length)
        ⟨passed ++ text ++ 0 :: behind ++ left, parsed⟩ := by
  have enough : encoded.length ≤ (passed ++ encoded).length := by simp
  obtain ⟨behind, found⟩ :=
    @findDelimLoop_of_lexes _ _ _ _ _ passed.length _ lexes enough passed []
  rw [List.append_nil] at found
  refine ⟨behind, fun parsed => ?_⟩
  unfold findDelim
  rw [bind_of_ok (get_run _)]
  exact found parsed

theorem findDelim_of_scans (scans : Scans colons encoded text delim left)
    (passed : List UInt8) :
    ∃ behind, ∀ parsed, findDelim passed.length colons ⟨passed ++ encoded, parsed⟩ =
      .ok (delim, (passed ++ text ++ 0 :: behind).length)
        ⟨passed ++ text ++ 0 :: behind ++ left, parsed⟩ :=
  findDelim_of_lexes scans.lexes passed

end Scanning

end RabbitmqC
