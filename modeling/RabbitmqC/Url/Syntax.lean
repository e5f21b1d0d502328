import RabbitmqC.Url.Parse

/-!
# The syntax of URLs

The parser accepts the documented form of a URL. It also accepts a component
between the host and the port, which it ignores, and whatever `strtol` reads as a
port: spaces and a sign in front of the digits.
-/

set_option autoImplicit false

namespace RabbitmqC

open Effect
open CString (ascii Stands)

/-! ## The documented form -/

inductive UrlHost where
  | name (text : List UInt8)
  | bracketed (text : List UInt8)

/-- The components of a URL as they are spelled. -/
structure UrlParts where
  ssl : Bool
  userinfo : Option (List UInt8 × Option (List UInt8))
  host : UrlHost
  port : Option (List UInt8)
  vhost : Option (List UInt8)

def behind (delim : UInt8) : Option (List UInt8) → List UInt8
  | none => []
  | some text => delim :: text

def schemeText (ssl : Bool) : List UInt8 := if ssl then ascii "amqps://" else ascii "amqp://"

def userinfoText : Option (List UInt8 × Option (List UInt8)) → List UInt8
  | none => []
  | some (user, password) => user ++ behind colon password ++ [atSign]

def UrlHost.text : UrlHost → List UInt8
  | name text => text
  | bracketed text => openBracket :: text ++ [closeBracket]

def UrlParts.text (parts : UrlParts) : List UInt8 :=
  schemeText parts.ssl ++ userinfoText parts.userinfo ++ parts.host.text ++
    behind colon parts.port ++ behind slash parts.vhost

/-- None of the delimiters occurs. -/
def Free (colonAndAtSign : Bool) (text : List UInt8) : Prop :=
  ∀ ch ∈ text, isDelim colonAndAtSign ch = false

instance (colonAndAtSign : Bool) (text : List UInt8) : Decidable (Free colonAndAtSign text) :=
  List.decidableBAll _ text

structure UrlParts.WellFormed (parts : UrlParts) : Prop where
  user : ∀ user password, parts.userinfo = some (user, password) → Free true user
  password : ∀ user password, parts.userinfo = some (user, some password) → Free true password
  name : ∀ text, parts.host = .name text → Free true text
  bracketed : ∀ text, parts.host = .bracketed text → Free false text
  port : ∀ text, parts.port = some text →
    text ≠ [] ∧ (∀ ch ∈ text, CString.isDigit ch = true) ∧ CString.decimal text ≤ 65535
  vhost : ∀ text, parts.vhost = some text → Free true text

/-- What the members of a `struct amqp_connection_info` stand for. -/
structure ConnectionValues where
  user : List UInt8
  password : List UInt8
  host : List UInt8
  vhost : List UInt8
  port : Int
  ssl : Bool

def ConnectionInfo.values (memory : List UInt8) (info : ConnectionInfo) : ConnectionValues where
  user := info.user.text memory
  password := info.password.text memory
  host := info.host.text memory
  vhost := info.vhost.text memory
  port := info.port
  ssl := info.ssl

def UrlHost.value : UrlHost → List UInt8
  | name [] => ascii "localhost"
  | name text => text
  | bracketed text => text

/-- The components, or the defaults for those that are absent. -/
def UrlParts.values (parts : UrlParts) : ConnectionValues where
  user := (parts.userinfo.map Prod.fst).getD (ascii "guest")
  password := (parts.userinfo.bind Prod.snd).getD (ascii "guest")
  host := parts.host.value
  vhost := parts.vhost.getD (ascii "/")
  port := (parts.port.map fun text => (CString.decimal text : Int)).getD
    (if parts.ssl then 5671 else 5672)
  ssl := parts.ssl

/-- The parser accepts with these values, or refuses with this code. -/
inductive Yields : EStateM.Result Fault UrlState (Except Status Unit) →
    Except Status ConnectionValues → Prop where
  | accepted {after : UrlState} {values : ConnectionValues} :
      after.parsed.values after.memory = values → Yields (.ok (.ok ()) after) (.ok values)
  | refused {after : UrlState} {status : Status} :
      Yields (.ok (.error status) after) (.error status)

/-- The parser does with a URL what its form says. -/
structure ParsesByForm (url : List UInt8) (parsed : ConnectionInfo) : Prop where
  accepts : ∀ parts : UrlParts, parts.WellFormed → parts.text = url →
    Yields (amqpParseUrl ⟨url ++ [0], parsed⟩) (.ok parts.values)
  refuses : (∀ parts : UrlParts, parts.WellFormed → parts.text ≠ url) →
    Yields (amqpParseUrl ⟨url ++ [0], parsed⟩) (.error .badUrl)

/-! ## The accepted form -/

/-- A port that `strtol` reads to the end as a number of the right size. -/
def portNumber? (text : List UInt8) : Option Int :=
  if (CString.strtol text).2 = text.length ∧ text ≠ [] ∧ 0 ≤ (CString.strtol text).1 ∧
      (CString.strtol text).1 ≤ 65535 then
    some (CString.strtol text).1
  else
    none

/-- A component may stand between the host and the port. -/
structure UrlShape extends UrlParts where
  skipped : Option (List UInt8)

def UrlShape.text (shape : UrlShape) : List UInt8 :=
  schemeText shape.ssl ++ userinfoText shape.userinfo ++ shape.host.text ++
    behind colon shape.skipped ++ behind colon shape.port ++ behind slash shape.vhost

/-- The components are where the parser looks for them; the port may be anything. -/
structure UrlShape.Spelled (shape : UrlShape) : Prop where
  user : ∀ user password, shape.userinfo = some (user, password) → Free true user
  password : ∀ user password, shape.userinfo = some (user, some password) → Free true password
  name : ∀ text, shape.host = .name text → Free true text
  bracketed : ∀ text, shape.host = .bracketed text → Free false text
  port : ∀ text, shape.port = some text → Free true text
  vhost : ∀ text, shape.vhost = some text → Free true text
  skipped : ∀ text, shape.skipped = some text → Free true text ∧ shape.userinfo = none ∧
    (∃ name, shape.host = .name name) ∧ ∃ port, shape.port = some port

/-- The port is digits with spaces or a sign in front. -/
def Decorated (text : List UInt8) : Prop := ∃ numeral : CString.Numeral,
  numeral.text = text ∧ (numeral.spaces ≠ [] ∨ numeral.sign ≠ [])

/-- What is accepted beyond the documented form: there is a component in front of the
port, or something in front of its digits. -/
def Lenient (url : List UInt8) : Prop := ∃ shape : UrlShape, shape.Spelled ∧ shape.text = url ∧
  (∀ port, shape.port = some port → (portNumber? port).isSome) ∧
  (shape.skipped ≠ none ∨ ∃ port, shape.port = some port ∧ Decorated port)

/-! ## Reading a component at a time -/

/-- The parser's view of a URL that was read up to `delim`. -/
structure UrlReading where
  userinfo : Option (List UInt8 × Option (List UInt8))
  host : List UInt8
  port : Option (List UInt8)
  delim : UInt8
  left : List UInt8

/-- Nothing was read of the userinfo yet. -/
def UrlReading.first (host : List UInt8) (delim : UInt8) (left : List UInt8) : UrlReading :=
  ⟨none, host, none, delim, left⟩

def readStash (reading : UrlReading) : Option UrlReading :=
  if reading.delim = colon then
    (nextDelim true reading.left).map fun (text, delim, left) =>
      { reading with port := some text, delim, left }
  else
    some reading

def readUserinfo (reading : UrlReading) : Option UrlReading :=
  if reading.delim = atSign then
    (nextDelim true reading.left).map fun (host, delim, left) =>
      ⟨some (reading.host, reading.port), host, none, delim, left⟩
  else
    some reading

def readHost (reading : UrlReading) : Option (UrlHost × UrlReading) :=
  if reading.delim = openBracket then
    if reading.port ≠ none ∨ reading.host ≠ [] then none
    else
      match nextDelim false reading.left with
      | some (address, delim, left) =>
          if delim = closeBracket then
            match nextDelim true left with
            | some ([], delim, left) => some (.bracketed address, { reading with delim, left })
            | _ => none
          else none
      | none => none
  else
    some (.name reading.host, reading)

/-- The component that is skipped, if any, and the reading behind the port. -/
def readPort (reading : UrlReading) : Option (Option (List UInt8) × UrlReading) :=
  if reading.delim = colon then
    (nextDelim true reading.left).map fun (port, delim, left) =>
      (reading.port, { reading with port := some port, delim, left })
  else
    some (none, reading)

def readVhost (reading : UrlReading) : Option (Option (List UInt8)) :=
  if reading.delim = slash then
    match nextDelim true reading.left with
    | some (vhost, delim, _) => if delim = 0 then some (some vhost) else none
    | none => none
  else if reading.delim = 0 then
    some none
  else
    none

def readComponents (ssl : Bool) (text : List UInt8) : Option UrlShape := do
  let (host, delim, left) ← nextDelim true text
  let reading ← readStash (.first host delim left)
  let reading ← readUserinfo reading
  let (host, reading) ← readHost reading
  let (skipped, reading) ← readPort reading
  let vhost ← readVhost reading
  return ⟨⟨ssl, reading.userinfo, host, reading.port, vhost⟩, skipped⟩

section Plain

variable {colons : Bool} {encoded text left : List UInt8} {delim : UInt8}

theorem free_of_scans (scans : Scans colons encoded text delim left) (plain : percent ∉ encoded) :
    encoded = text ++ delim :: left ∧ Free colons text ∧ isDelim colons delim = true := by
  induction scans with
  | stop isDelim => exact ⟨rfl, by simp [Free], isDelim⟩
  | plain notDelim _ _ ih =>
      obtain ⟨rfl, free, isDelim⟩ := ih fun member => plain (List.mem_cons_of_mem _ member)
      refine ⟨rfl, ?_, isDelim⟩
      intro ch member
      rcases List.mem_cons.mp member with rfl | behind
      · exact notDelim
      · exact free ch behind
  | escaped _ _ _ _ _ _ => exact absurd List.mem_cons_self plain

theorem scans_of_free (free : Free colons text) (plain : percent ∉ text)
    (isDelim : isDelim colons delim = true) :
    Scans colons (text ++ delim :: left) text delim left := by
  induction text with
  | nil => exact .stop isDelim
  | cons ch text ih =>
      refine .plain (free ch List.mem_cons_self) ?_ (ih ?_ ?_)
      · rintro rfl
        exact plain List.mem_cons_self
      · exact fun ch member => free ch (List.mem_cons_of_mem _ member)
      · exact fun member => plain (List.mem_cons_of_mem _ member)

/-- A text without escapes that ends with a zero has a next delimiter. -/
theorem exists_scans (plain : percent ∉ encoded) (ends : 0 ∈ encoded) :
    ∃ text delim left, Scans colons encoded text delim left ∧ (delim = 0 ∨ 0 ∈ left) := by
  induction encoded with
  | nil => simp at ends
  | cons ch rest ih =>
      have isZero : isDelim colons 0 = true := by cases colons <;> decide
      cases isDelim : isDelim colons ch with
      | true =>
          refine ⟨[], ch, rest, .stop isDelim, ?_⟩
          rcases List.mem_cons.mp ends with zero | behind
          · exact .inl zero.symm
          · exact .inr behind
      | false =>
          have behind : 0 ∈ rest := by
            rcases List.mem_cons.mp ends with rfl | behind
            · rw [isZero] at isDelim
              cases isDelim
            · exact behind
          obtain ⟨text, delim, left, scans, ends⟩ :=
            ih (fun member => plain (List.mem_cons_of_mem _ member)) behind
          refine ⟨ch :: text, delim, left, .plain isDelim ?_ scans, ends⟩
          rintro rfl
          exact plain List.mem_cons_self

end Plain

/-! ## The parser follows the reading -/

/-- A nonempty string in front of which the parser stands. -/
structure Points (passed : List UInt8) (offset : Nat) (text : List UInt8) : Prop where
  stands : Stands passed offset text
  noZero : 0 ∉ text

section Points

variable {passed text : List UInt8} {offset : Nat}

theorem Points.append (points : Points passed offset text) (more : List UInt8) :
    Points (passed ++ more) offset text :=
  ⟨points.stands.append more, points.noZero⟩

theorem Points.lt (points : Points passed offset text) : offset < passed.length := by
  obtain ⟨⟨before, behind, rfl, rfl⟩, _⟩ := points
  simp

theorem Points.charAt {state : UrlState} {left : List UInt8} (points : Points passed offset text)
    (isMemory : state.memory = passed ++ left) {count : Nat} (inside : count ≤ text.length) :
    ∃ ch, charAt (offset + count) state = .ok ch state ∧ (ch = 0 ↔ count = text.length) := by
  have found := (points.stands.append left).getElem? inside
  rw [← isMemory] at found
  refine ⟨_, charAt_of_some found, ?_⟩
  rcases Nat.lt_or_eq_of_le inside with less | rfl
  · have member : (text ++ [0]).getD count 0 ∈ text := by
      rw [List.getD_eq_getElem?_getD, List.getElem?_append_left less,
        List.getElem?_eq_getElem less]
      exact List.getElem_mem less
    constructor
    · intro zero
      rw [zero] at member
      exact absurd member points.noZero
    · intro same
      omega
  · simp

/-- Whether a string is empty. -/
theorem Points.firstChar (points : Points passed offset text) (left : List UInt8) :
    ∃ ch, (∀ parsed, RabbitmqC.charAt offset ⟨passed ++ left, parsed⟩ =
      .ok ch ⟨passed ++ left, parsed⟩) ∧ (ch ≠ 0 ↔ text ≠ []) := by
  have found := (points.stands.append left).getElem? (Nat.zero_le _)
  refine ⟨(text ++ [0]).getD 0 0, fun parsed => charAt_of_some found, ?_⟩
  cases text with
  | nil => simp
  | cons head tail =>
      have nonzero : head ≠ 0 := fun zero => points.noZero (zero ▸ List.mem_cons_self)
      simp [nonzero]

end Points

inductive CharPointer.Shows (passed : List UInt8) : CharPointer → List UInt8 → Prop where
  | literal {text : List UInt8} : Shows passed (.literal text) text
  | intoUrl {offset : Nat} {text : List UInt8} :
      Points passed offset text → Shows passed (.intoUrl offset) text

theorem CharPointer.Shows.append {passed text : List UInt8} {pointer : CharPointer}
    (shows : pointer.Shows passed text) (more : List UInt8) :
    pointer.Shows (passed ++ more) text := by
  cases shows with
  | literal => exact .literal
  | intoUrl points => exact .intoUrl (points.append more)

theorem CharPointer.Shows.text_eq {passed text : List UInt8} {pointer : CharPointer}
    (shows : pointer.Shows passed text) : pointer.text passed = text := by
  cases shows with
  | literal => rfl
  | intoUrl points => exact points.stands.read points.noZero

structure ConnectionInfo.Shows (passed : List UInt8) (info : ConnectionInfo)
    (values : ConnectionValues) : Prop where
  user : info.user.Shows passed values.user
  password : info.password.Shows passed values.password
  host : info.host.Shows passed values.host
  vhost : info.vhost.Shows passed values.vhost
  port : info.port = values.port
  ssl : info.ssl = values.ssl

theorem ConnectionInfo.Shows.append {passed : List UInt8} {info : ConnectionInfo}
    {values : ConnectionValues} (shown : info.Shows passed values) (more : List UInt8) :
    info.Shows (passed ++ more) values :=
  ⟨shown.user.append more, shown.password.append more, shown.host.append more,
    shown.vhost.append more, shown.port, shown.ssl⟩

theorem ConnectionInfo.Shows.values_eq {passed : List UInt8} {info : ConnectionInfo}
    {values : ConnectionValues} (shown : info.Shows passed values) :
    info.values passed = values := by
  unfold ConnectionInfo.values
  rw [shown.user.text_eq, shown.password.text_eq, shown.host.text_eq, shown.vhost.text_eq,
    shown.port, shown.ssl]

/-- The values of the components that were read so far. -/
def valuesOf (ssl : Bool) (userinfo : Option (List UInt8 × Option (List UInt8)))
    (host : List UInt8) (port : Option Int) (vhost : Option (List UInt8)) : ConnectionValues where
  user := (userinfo.map Prod.fst).getD (ascii "guest")
  password := (userinfo.bind Prod.snd).getD (ascii "guest")
  host
  vhost := vhost.getD (ascii "/")
  port := port.getD (if ssl then 5671 else 5672)
  ssl

/-- The local variables point to what was read, and `*parsed` shows the values. -/
structure Follows (values : ConnectionValues) (passed : List UInt8) (reading : UrlReading)
    (locals : UrlLocals) (state : UrlState) : Prop where
  memory : state.memory = passed ++ reading.left
  url : locals.url = passed.length
  delim : locals.delim = reading.delim
  host : Points passed locals.host reading.host
  port : Option.Rel (Points passed) locals.port reading.port
  parsed : state.parsed.Shows passed values

section Following

variable {values : ConnectionValues} {passed : List UInt8} {reading : UrlReading}
  {locals : UrlLocals} {state : UrlState}

theorem rel_append {port : Option Nat} {text : Option (List UInt8)}
    (rel : Option.Rel (Points passed) port text) (more : List UInt8) :
    Option.Rel (Points (passed ++ more)) port text := by
  cases rel with
  | some points => exact .some (points.append more)
  | none => exact .none

/-- The next component is decoded behind what was passed. -/
theorem Follows.scan {colons : Bool} {text left : List UInt8} {delim : UInt8}
    (follows : Follows values passed reading locals state)
    (scans : Scans colons reading.left text delim left) :
    ∃ more, (∀ parsed, findDelim locals.url colons ⟨state.memory, parsed⟩ =
        .ok (delim, (passed ++ more).length) ⟨passed ++ more ++ left, parsed⟩) ∧
      Points (passed ++ more) locals.url text := by
  obtain ⟨behind, found⟩ := findDelim_of_scans scans passed
  rw [← follows.url, ← follows.memory] at found
  refine ⟨text ++ 0 :: behind, fun parsed => ?_, ⟨passed, behind, by simp, follows.url.symm⟩,
    scans.noZero⟩
  rw [found]
  simp

theorem Follows.stash {after : UrlReading} (follows : Follows values passed reading locals state)
    (fresh : reading.port = none) (same : locals.host = locals.start)
    (read : readStash reading = some after) :
    ∃ passed locals' state', stashComponent locals state = .ok locals' state' ∧
      Follows values passed after locals' state' ∧
      (locals'.host = locals'.start ↔ after.port = none) := by
  unfold readStash at read
  unfold stashComponent
  rw [follows.delim]
  split at read
  · rename_i isColon
    obtain ⟨⟨text, delim, left⟩, found, rfl⟩ := Option.map_eq_some_iff.mp read
    obtain ⟨more, scanned, points⟩ := follows.scan (nextDelim_eq_some.mp found)
    rw [if_pos isColon, bind_of_ok (scanned state.parsed)]
    refine ⟨passed ++ more, _, _, rfl, ⟨rfl, rfl, rfl, follows.host.append more, .some points,
      follows.parsed.append more⟩, ?_⟩
    have less := follows.host.lt
    rw [← follows.url] at less
    simp only [reduceCtorEq, iff_false]
    omega
  · rename_i other
    cases read
    rw [if_neg other]
    exact ⟨passed, locals, state, rfl, follows, by simp [same, fresh]⟩

theorem Follows.userinfo {ssl : Bool} {host : List UInt8} {after : UrlReading}
    (follows : Follows (valuesOf ssl reading.userinfo host none none) passed reading locals state)
    (fresh : reading.userinfo = none) (same : locals.host = locals.start ↔ reading.port = none)
    (read : readUserinfo reading = some after) :
    ∃ passed locals' state', takeUserinfo locals state = .ok locals' state' ∧
      Follows (valuesOf ssl after.userinfo host none none) passed after locals' state' ∧
      (locals'.host = locals'.start ↔ after.port = none) := by
  unfold readUserinfo at read
  unfold takeUserinfo
  rw [follows.delim]
  split at read
  · rename_i isAt
    obtain ⟨⟨text, delim, left⟩, found, rfl⟩ := Option.map_eq_some_iff.mp read
    obtain ⟨more, scanned, points⟩ := follows.scan (nextDelim_eq_some.mp found)
    have shown := follows.parsed
    rw [fresh] at shown
    rw [if_pos isAt, bind_of_ok (modify_run _ _)]
    have port := follows.port
    revert port
    generalize locals.port = stashed
    generalize reading.port = component
    intro port
    cases port with
    | none =>
        refine ⟨passed ++ more, _, _, bind_of_ok (scanned _), ⟨rfl, rfl, rfl, points, .none, ?_⟩,
          by simp⟩
        exact ⟨.intoUrl (follows.host.append more), shown.password.append more,
          shown.host.append more, shown.vhost.append more, shown.port, shown.ssl⟩
    | some stashedPoints =>
        refine ⟨passed ++ more, _, _, bind_of_ok (scanned _), ⟨rfl, rfl, rfl, points, .none, ?_⟩,
          by simp⟩
        exact ⟨.intoUrl (follows.host.append more), .intoUrl (stashedPoints.append more),
          shown.host.append more, shown.vhost.append more, shown.port, shown.ssl⟩
  · rename_i other
    cases read
    rw [if_neg other]
    exact ⟨passed, locals, state, rfl, follows, same⟩

/-- Whether the component that the parser took for the host is empty. -/
theorem Follows.hostChar (follows : Follows values passed reading locals state) :
    ∃ ch, charAt locals.host state = .ok ch state ∧ (ch ≠ 0 ↔ reading.host ≠ []) := by
  obtain ⟨ch, found, isEmpty⟩ := follows.host.firstChar reading.left
  rw [← follows.memory] at found
  exact ⟨ch, found state.parsed, isEmpty⟩

theorem Follows.hostTaken {ssl : Bool} {host : UrlHost} {after : UrlReading}
    (follows : Follows (valuesOf ssl reading.userinfo (ascii "localhost") none none) passed
      reading locals state)
    (same : locals.host = locals.start ↔ reading.port = none)
    (read : readHost reading = some (host, after)) :
    ∃ passed locals' state', takeHost locals state = .ok (some locals') state' ∧
      Follows (valuesOf ssl after.userinfo host.value none none) passed after locals' state' := by
  obtain ⟨ch, hostChar, isEmpty⟩ := follows.hostChar
  unfold readHost at read
  unfold takeHost
  rw [follows.delim]
  split at read
  · rename_i isBracket
    rw [if_pos isBracket]
    split at read
    · cases read
    · rename_i first
      rw [not_or, not_not, not_not] at first
      have zero : ¬ ch ≠ 0 := fun nonzero => isEmpty.mp nonzero first.2
      rw [if_neg (not_not.mpr (same.mpr first.1)), bind_of_ok hostChar, if_neg zero]
      split at read
      · rename_i address delim left found
        obtain ⟨more, scanned, points⟩ := follows.scan (nextDelim_eq_some.mp found)
        rw [bind_of_ok (scanned state.parsed)]
        split at read
        · rename_i isClose
          dsimp only
          rw [if_neg (not_not.mpr isClose), bind_of_ok (modify_run _ _)]
          have shown := follows.parsed
          have follows' : Follows (valuesOf ssl reading.userinfo address none none)
              (passed ++ more) { reading with delim, left }
              { locals with url := (passed ++ more).length, delim }
              ⟨passed ++ more ++ left,
                { state.parsed with host := .intoUrl locals.url }⟩ :=
            ⟨rfl, rfl, rfl, follows.host.append more, rel_append follows.port more,
              shown.user.append more, shown.password.append more, .intoUrl points,
              shown.vhost.append more, shown.port, shown.ssl⟩
          split at read
          · rename_i behindDelim behindLeft foundBehind
            cases read
            obtain ⟨further, scanned, points⟩ := follows'.scan (nextDelim_eq_some.mp foundBehind)
            obtain ⟨ch, found, isEmpty⟩ := points.firstChar behindLeft
            have zero : ¬ ch ≠ 0 := fun nonzero => isEmpty.mp nonzero rfl
            rw [bind_of_ok (scanned _)]
            dsimp only
            rw [bind_of_ok (found _), if_neg zero]
            exact ⟨passed ++ more ++ further, _, _, rfl, rfl, rfl, rfl,
              follows'.host.append further, rel_append follows'.port further,
              follows'.parsed.append further⟩
          · cases read
        · cases read
      · cases read
  · rename_i other
    cases read
    rw [if_neg other, bind_of_ok hostChar]
    have shown := follows.parsed
    by_cases empty : reading.host = []
    · rw [if_neg fun nonzero => isEmpty.mp nonzero empty, empty]
      exact ⟨passed, locals, state, rfl, follows⟩
    · rw [if_pos (isEmpty.mpr empty)]
      have isValue : (UrlHost.name reading.host).value = reading.host := by
        unfold UrlHost.value
        split
        · rename_i isName
          exact absurd (UrlHost.name.inj isName) empty
        · rename_i isName
          exact (UrlHost.name.inj isName).symm
        · rename_i isName
          cases isName
      rw [isValue]
      exact ⟨passed, locals, _, rfl, follows.memory, follows.url, follows.delim, follows.host,
        follows.port, shown.user, shown.password, .intoUrl follows.host, shown.vhost, shown.port,
        shown.ssl⟩

/-- The bracket is not where a host begins, or the host does not end behind it. -/
theorem Follows.hostRefused (follows : Follows values passed reading locals state)
    (same : locals.host = locals.start ↔ reading.port = none) (plain : percent ∉ reading.left)
    (ends : reading.delim = 0 ∨ 0 ∈ reading.left) (unread : readHost reading = none) :
    ∃ state', takeHost locals state = .ok none state' := by
  obtain ⟨ch, hostChar, isEmpty⟩ := follows.hostChar
  unfold readHost at unread
  unfold takeHost
  rw [follows.delim]
  split at unread
  · rename_i isBracket
    rw [if_pos isBracket]
    split at unread
    · rename_i misplaced
      by_cases stashed : reading.port = none
      · have named : reading.host ≠ [] := misplaced.resolve_left fun other => other stashed
        rw [if_neg (not_not.mpr (same.mpr stashed)), bind_of_ok hostChar,
          if_pos (isEmpty.mpr named)]
        exact ⟨state, rfl⟩
      · rw [if_pos fun isStart => stashed (same.mp isStart)]
        exact ⟨state, rfl⟩
    · rename_i first
      rw [not_or, not_not, not_not] at first
      have zero : ¬ ch ≠ 0 := fun nonzero => isEmpty.mp nonzero first.2
      rw [if_neg (not_not.mpr (same.mpr first.1)), bind_of_ok hostChar, if_neg zero]
      have notEnded : 0 ∈ reading.left := by
        refine ends.resolve_left fun isZero => ?_
        rw [isBracket] at isZero
        cases isZero
      obtain ⟨address, delim, left, scans, ends⟩ := @exists_scans false _ plain notEnded
      rw [nextDelim_eq_some.mpr scans] at unread
      dsimp only at unread
      obtain ⟨more, scanned, points⟩ := follows.scan scans
      rw [bind_of_ok (scanned state.parsed)]
      dsimp only
      split at unread
      · rename_i isClose
        rw [if_neg (not_not.mpr isClose), bind_of_ok (modify_run _ _)]
        obtain ⟨isLeft, _, _⟩ := free_of_scans scans plain
        have plain : percent ∉ left := fun member =>
          plain (isLeft ▸ List.mem_append_right _ (List.mem_cons_of_mem _ member))
        have notEnded : 0 ∈ left := by
          refine ends.resolve_left fun isZero => ?_
          rw [isClose] at isZero
          cases isZero
        obtain ⟨text, behindDelim, behindLeft, scansBehind, _⟩ := @exists_scans true _ plain notEnded
        rw [nextDelim_eq_some.mpr scansBehind] at unread
        have follows' : Follows { values with host := address } (passed ++ more)
            { reading with delim, left } { locals with url := (passed ++ more).length, delim }
            ⟨passed ++ more ++ left, { state.parsed with host := .intoUrl locals.url }⟩ :=
          ⟨rfl, rfl, rfl, follows.host.append more, rel_append follows.port more,
            follows.parsed.user.append more, follows.parsed.password.append more, .intoUrl points,
            follows.parsed.vhost.append more, follows.parsed.port, follows.parsed.ssl⟩
        obtain ⟨further, scanned, points⟩ := follows'.scan scansBehind
        obtain ⟨ch, found, isEmpty⟩ := points.firstChar behindLeft
        have named : text ≠ [] := by
          rintro rfl
          cases unread
        rw [bind_of_ok (scanned _)]
        dsimp only
        rw [bind_of_ok (found _), if_pos (isEmpty.mpr named)]
        exact ⟨_, rfl⟩
      · rename_i other
        rw [if_pos other]
        exact ⟨_, rfl⟩
  · cases unread

theorem Follows.portTaken {after : UrlReading} {skipped : Option (List UInt8)}
    (follows : Follows values passed reading locals state)
    (read : readPort reading = some (skipped, after)) :
    ∃ passed locals' state', takePort locals state = .ok locals' state' ∧
      Follows values passed after locals' state' ∧ after.userinfo = reading.userinfo := by
  unfold readPort at read
  unfold takePort
  rw [follows.delim]
  split at read
  · rename_i isColon
    obtain ⟨⟨text, delim, left⟩, found, same⟩ := Option.map_eq_some_iff.mp read
    cases same
    obtain ⟨more, scanned, points⟩ := follows.scan (nextDelim_eq_some.mp found)
    rw [if_pos isColon, bind_of_ok (scanned state.parsed)]
    exact ⟨passed ++ more, _, _, rfl, ⟨rfl, rfl, rfl, follows.host.append more, .some points,
      follows.parsed.append more⟩, rfl⟩
  · rename_i other
    cases read
    rw [if_neg other]
    exact ⟨passed, locals, state, rfl, follows, rfl⟩

section Convert

variable {offset : Nat} {text left : List UInt8}

/-- `strtol` and the tests behind it. -/
theorem convertPort_of_points (isPort : locals.port = some offset) (points : Points passed offset text)
    (isMemory : state.memory = passed ++ left) :
    convertPort locals state =
      if portNumber? text = none then .ok false state
      else .ok true { state with parsed.port := (CString.strtol text).1 } := by
  have isText : CString.read state.memory offset = text := by
    rw [isMemory]
    exact (points.stands.append left).read points.noZero
  obtain ⟨ch, found, isZero⟩ := points.charAt isMemory (CString.strtol_le text)
  unfold convertPort portNumber?
  rw [isPort]
  dsimp only
  rw [bind_of_ok (get_run state), isText]
  generalize CString.strtol text = converted at found isZero ⊢
  obtain ⟨portnum, distance⟩ := converted
  dsimp only at found isZero ⊢
  by_cases none : distance = 0
  · rw [if_pos none, if_pos]
    · rfl
    · rw [if_neg]
      rintro ⟨all, nonempty, _⟩
      rw [none] at all
      exact nonempty (List.length_eq_zero_iff.mp all.symm)
  · rw [if_neg none, bind_of_ok found]
    by_cases all : distance = text.length
    · have nonempty : text ≠ [] := by
        rintro rfl
        exact none all
      rw [if_neg (not_not.mpr (isZero.mpr all))]
      by_cases bounds : portnum < 0 ∨ portnum > 65535
      · rw [if_pos bounds, if_pos]
        · rfl
        · rw [if_neg]
          rintro ⟨_, _, atLeast, atMost⟩
          omega
      · have whole : distance = text.length ∧ text ≠ [] ∧ 0 ≤ portnum ∧ portnum ≤ 65535 :=
          ⟨all, nonempty, by omega, by omega⟩
        rw [if_neg bounds, if_neg (by simp [whole])]
        rfl
    · rw [if_pos fun zero => all (isZero.mp zero), if_pos]
      · rfl
      · rw [if_neg fun whole => all whole.1]

end Convert

/-- A port that is a number is stored. -/
theorem Follows.portConverted {ssl : Bool} {host : List UInt8}
    (follows : Follows (valuesOf ssl reading.userinfo host none none) passed reading locals state)
    (numbers : ∀ text, reading.port = some text → portNumber? text ≠ none) :
    ∃ state', convertPort locals state = .ok true state' ∧
      Follows (valuesOf ssl reading.userinfo host (reading.port.bind portNumber?) none) passed
        reading locals state' := by
  have port := follows.port
  revert port
  generalize isPort : locals.port = stashed
  generalize isText : reading.port = component
  intro port
  cases port with
  | none =>
      refine ⟨state, ?_, follows⟩
      unfold convertPort
      rw [isPort]
      rfl
  | @some offset text points =>
      have number := numbers text isText
      rw [convertPort_of_points isPort points follows.memory, if_neg number]
      have isNumber : portNumber? text = some (CString.strtol text).1 := by
        unfold portNumber? at number ⊢
        split at number
        · rw [if_pos ‹_›]
        · exact absurd rfl number
      refine ⟨_, rfl, follows.memory, follows.url, follows.delim, follows.host, follows.port,
        follows.parsed.user, follows.parsed.password, follows.parsed.host, follows.parsed.vhost,
        ?_, follows.parsed.ssl⟩
      rw [Option.bind_some, isNumber]
      rfl

theorem Follows.portRefused {text : List UInt8}
    (follows : Follows values passed reading locals state) (isText : reading.port = some text)
    (number : portNumber? text = none) : convertPort locals state = .ok false state := by
  have port := follows.port
  rw [isText] at port
  cases isPort : locals.port with
  | none =>
      rw [isPort] at port
      cases port
  | some offset =>
      rw [isPort] at port
      cases port with
      | some points => rw [convertPort_of_points isPort points follows.memory, if_pos number]

/-- The rest of the URL is the vhost, if anything. -/
theorem Follows.vhostTaken {ssl : Bool} {host : List UInt8} {port : Option Int}
    {vhost : Option (List UInt8)}
    (follows : Follows (valuesOf ssl reading.userinfo host port none) passed reading locals state)
    (read : readVhost reading = some vhost) :
    Yields (takeVhost locals state) (.ok (valuesOf ssl reading.userinfo host port vhost)) := by
  unfold readVhost at read
  unfold takeVhost
  rw [follows.delim]
  have shown := follows.parsed
  split at read
  · rename_i isSlash
    rw [if_pos isSlash]
    split at read
    · rename_i text delim left found
      obtain ⟨more, scanned, points⟩ := follows.scan (nextDelim_eq_some.mp found)
      rw [bind_of_ok (scanned state.parsed)]
      dsimp only
      split at read
      · rename_i ended
        cases read
        rw [if_neg (not_not.mpr ended)]
        have shownVhost : ({ state.parsed with vhost := .intoUrl locals.url } :
            ConnectionInfo).Shows (passed ++ more)
              (valuesOf ssl reading.userinfo host port (some text)) :=
          ⟨shown.user.append more, shown.password.append more, shown.host.append more,
            .intoUrl points, shown.port, shown.ssl⟩
        exact .accepted (shownVhost.append left).values_eq
      · cases read
    · cases read
  · rename_i notSlash
    rw [if_neg notSlash]
    split at read
    · rename_i ended
      cases read
      rw [if_pos ended]
      refine .accepted (ConnectionInfo.Shows.values_eq ?_)
      rw [follows.memory]
      exact shown.append reading.left
    · cases read

theorem Follows.vhostRefused (follows : Follows values passed reading locals state)
    (plain : percent ∉ reading.left) (ends : reading.delim = 0 ∨ 0 ∈ reading.left)
    (unread : readVhost reading = none) : Yields (takeVhost locals state) (.error .badUrl) := by
  unfold readVhost at unread
  unfold takeVhost
  rw [follows.delim]
  split at unread
  · rename_i isSlash
    have notEnded : 0 ∈ reading.left := by
      refine ends.resolve_left fun isZero => ?_
      rw [isSlash] at isZero
      cases isZero
    obtain ⟨text, delim, left, scans, _⟩ := @exists_scans true _ plain notEnded
    obtain ⟨more, scanned, points⟩ := follows.scan scans
    rw [nextDelim_eq_some.mpr scans] at unread
    rw [if_pos isSlash, bind_of_ok (scanned state.parsed)]
    dsimp only at unread ⊢
    split at unread
    · cases unread
    · rename_i notEnded
      rw [if_pos notEnded]
      exact .refused
  · rename_i notSlash
    rw [if_neg notSlash]
    split at unread
    · cases unread
    · rename_i notEnded
      rw [if_neg notEnded]
      exact .refused

end Following

/-! ## Runs -/

/-- `*parsed` behind the scheme. -/
def infoBehindScheme (ssl : Bool) : ConnectionInfo :=
  if ssl then { amqpDefaultConnectionInfo with port := 5671, ssl := true }
  else amqpDefaultConnectionInfo

theorem shows_infoBehindScheme (ssl : Bool) (passed : List UInt8) :
    (infoBehindScheme ssl).Shows passed (valuesOf ssl none (ascii "localhost") none none) := by
  cases ssl with
  | true => exact ⟨.literal, .literal, .literal, .literal, rfl, rfl⟩
  | false => exact ⟨.literal, .literal, .literal, .literal, rfl, rfl⟩

section Runs

variable {ssl : Bool} {scheme text : List UInt8} {first : List UInt8} {delim : UInt8}
  {left : List UInt8} {stashed reading behindHost behindPort : UrlReading} {host : UrlHost}
  {skipped : Option (List UInt8)}

/-- The parser up to the host. -/
theorem parseComponents_upToHost (found : nextDelim true text = some (first, delim, left))
    (stash : readStash (.first first delim left) = some stashed)
    (fresh : stashed.userinfo = none) (userinfo : readUserinfo stashed = some reading) :
    ∃ passed locals state, parseComponents scheme.length ⟨scheme ++ text, infoBehindScheme ssl⟩ =
        parseHost locals state ∧
      Follows (valuesOf ssl reading.userinfo (ascii "localhost") none none) passed reading locals
        state ∧ (locals.host = locals.start ↔ reading.port = none) := by
  obtain ⟨behind, scanned⟩ := findDelim_of_scans (nextDelim_eq_some.mp found) scheme
  have start : Follows (valuesOf ssl none (ascii "localhost") none none)
      (scheme ++ first ++ 0 :: behind) (.first first delim left)
      ⟨scheme.length, scheme.length, (scheme ++ first ++ 0 :: behind).length, none, delim⟩
      ⟨scheme ++ first ++ 0 :: behind ++ left, infoBehindScheme ssl⟩ :=
    ⟨rfl, rfl, rfl, ⟨⟨scheme, behind, rfl, rfl⟩, (nextDelim_eq_some.mp found).noZero⟩, .none,
      shows_infoBehindScheme ssl _⟩
  obtain ⟨_, _, _, stashes, follows, same⟩ := start.stash rfl rfl stash
  rw [← fresh] at follows
  obtain ⟨passed, locals, state, takes, follows, same⟩ := follows.userinfo fresh same userinfo
  refine ⟨passed, locals, state, ?_, follows, same⟩
  unfold parseComponents
  rw [bind_of_ok (scanned _)]
  dsimp only
  rw [bind_of_ok stashes, bind_of_ok takes]

/-- The parser up to the port. -/
theorem parseComponents_upToPort (found : nextDelim true text = some (first, delim, left))
    (stash : readStash (.first first delim left) = some stashed)
    (fresh : stashed.userinfo = none) (userinfo : readUserinfo stashed = some reading)
    (isHost : readHost reading = some (host, behindHost))
    (isPort : readPort behindHost = some (skipped, behindPort)) :
    ∃ passed locals state, parseComponents scheme.length ⟨scheme ++ text, infoBehindScheme ssl⟩ =
        (do if ← convertPort locals then takeVhost locals else return .error .badUrl :
          UrlParser (Except Status Unit)) state ∧
      Follows (valuesOf ssl behindPort.userinfo host.value none none) passed behindPort locals
        state := by
  obtain ⟨_, _, _, runs, follows, same⟩ :=
    @parseComponents_upToHost ssl scheme _ _ _ _ _ _ found stash fresh userinfo
  obtain ⟨_, _, _, takesHost, follows⟩ := follows.hostTaken same isHost
  obtain ⟨passed, locals, state, takesPort, follows, kept⟩ := follows.portTaken isPort
  rw [← kept] at follows
  refine ⟨passed, locals, state, ?_, follows⟩
  rw [runs]
  unfold parseHost parseBehindHost
  rw [bind_of_ok takesHost]
  dsimp only
  rw [bind_of_ok takesPort]

theorem readStash_userinfo (stash : readStash (.first first delim left) = some stashed) :
    stashed.userinfo = none := by
  unfold readStash at stash
  split at stash
  · obtain ⟨_, _, rfl⟩ := Option.map_eq_some_iff.mp stash
    rfl
  · cases stash
    rfl

/-- The steps of a reading. -/
structure ReadSteps (ssl : Bool) (text : List UInt8) (shape : UrlShape) (first : List UInt8)
    (delim : UInt8) (left : List UInt8) (stashed reading behindHost behindPort : UrlReading) :
    Prop where
  found : nextDelim true text = some (first, delim, left)
  stash : readStash (.first first delim left) = some stashed
  userinfo : readUserinfo stashed = some reading
  host : readHost reading = some (shape.host, behindHost)
  port : readPort behindHost = some (shape.skipped, behindPort)
  vhost : readVhost behindPort = some shape.vhost
  isSsl : shape.ssl = ssl
  isUserinfo : shape.userinfo = behindPort.userinfo
  isPort : shape.port = behindPort.port

theorem readComponents_eq_some {shape : UrlShape} : readComponents ssl text = some shape ↔
    ∃ first delim left stashed reading behindHost behindPort,
      ReadSteps ssl text shape first delim left stashed reading behindHost behindPort := by
  constructor
  · intro read
    obtain ⟨⟨first, delim, left⟩, found, read⟩ := Option.bind_eq_some_iff.mp read
    obtain ⟨stashed, stash, read⟩ := Option.bind_eq_some_iff.mp read
    obtain ⟨reading, userinfo, read⟩ := Option.bind_eq_some_iff.mp read
    obtain ⟨⟨host, behindHost⟩, isHost, read⟩ := Option.bind_eq_some_iff.mp read
    obtain ⟨⟨skipped, behindPort⟩, isPort, read⟩ := Option.bind_eq_some_iff.mp read
    obtain ⟨vhost, isVhost, read⟩ := Option.bind_eq_some_iff.mp read
    cases read
    exact ⟨first, delim, left, stashed, reading, behindHost, behindPort, found, stash, userinfo,
      isHost, isPort, isVhost, rfl, rfl, rfl⟩
  · rintro ⟨first, delim, left, stashed, reading, behindHost, behindPort, steps⟩
    unfold readComponents
    simp only [steps.found, steps.stash, steps.userinfo, steps.host, steps.port, steps.vhost,
      Option.bind_eq_bind, Option.bind_some, Option.pure_def, ← steps.isUserinfo, ← steps.isPort,
      ← steps.isSsl]

/-- A URL whose components can be read is accepted if its port is a number. -/
theorem parseComponents_of_read {shape : UrlShape} (read : readComponents ssl text = some shape) :
    Yields (parseComponents scheme.length ⟨scheme ++ text, infoBehindScheme ssl⟩)
      (if ∃ port, shape.port = some port ∧ portNumber? port = none then .error .badUrl
        else .ok (valuesOf ssl shape.userinfo shape.host.value (shape.port.bind portNumber?)
          shape.vhost)) := by
  obtain ⟨_, _, _, _, _, _, _, steps⟩ := readComponents_eq_some.mp read
  obtain ⟨passed, locals, state, runs, follows⟩ := @parseComponents_upToPort ssl scheme _ _ _ _ _ _
    _ _ _ _ steps.found steps.stash (readStash_userinfo steps.stash) steps.userinfo steps.host
    steps.port
  rw [runs, steps.isPort, steps.isUserinfo]
  split
  · rename_i refused
    obtain ⟨port, isPort, number⟩ := refused
    rw [bind_of_ok (follows.portRefused isPort number)]
    exact .refused
  · rename_i numbers
    obtain ⟨state, converts, follows⟩ := follows.portConverted fun port isPort number =>
      numbers ⟨port, isPort, number⟩
    rw [bind_of_ok converts]
    exact follows.vhostTaken steps.vhost

end Runs

/-! ## Spelling -/

/-- The text behind the scheme is what was read, the delimiter and what is left. The
host is spelled as `host`. -/
structure Spells (text host : List UInt8) (reading : UrlReading) : Prop where
  same : text = userinfoText reading.userinfo ++ host ++ behind colon reading.port ++
    reading.delim :: reading.left
  user : ∀ user password, reading.userinfo = some (user, password) → Free true user
  password : ∀ user password, reading.userinfo = some (user, some password) → Free true password
  port : ∀ port, reading.port = some port → Free true port
  ends : reading.delim = 0 ∨ 0 ∈ reading.left

section Spelling

variable {text host : List UInt8} {reading : UrlReading}

theorem Spells.plain (spells : Spells text host reading) (plain : percent ∉ text) :
    percent ∉ reading.left := by
  intro member
  rw [spells.same] at plain
  exact plain (List.mem_append_right _ (List.mem_cons_of_mem _ member))

/-- A delimiter that is not the end has another one behind it. -/
theorem Spells.scans (spells : Spells text host reading) (plain : percent ∉ text) (colons : Bool)
    {delim : UInt8} (isDelim : reading.delim = delim) (notEnd : delim ≠ 0) :
    ∃ found next left, nextDelim colons reading.left = some (found, next, left) ∧
      reading.left = found ++ next :: left ∧ Free colons found ∧ (next = 0 ∨ 0 ∈ left) := by
  have notEnded : 0 ∈ reading.left := by
    refine spells.ends.resolve_left fun zero => notEnd ?_
    rw [← isDelim, zero]
  obtain ⟨found, next, left, scans, ends⟩ := @exists_scans colons _ (spells.plain plain) notEnded
  obtain ⟨same, free, _⟩ := free_of_scans scans (spells.plain plain)
  exact ⟨found, next, left, nextDelim_eq_some.mpr scans, same, free, ends⟩

theorem Spells.stashRead (spells : Spells text reading.host reading) (plain : percent ∉ text)
    (userinfo : reading.userinfo = none) (port : reading.port = none)
    (free : Free true reading.host) :
    ∃ stashed, readStash reading = some stashed ∧ Spells text stashed.host stashed ∧
      stashed.userinfo = none ∧ Free true stashed.host := by
  unfold readStash
  split
  · rename_i isColon
    obtain ⟨found, next, left, scanned, same, isFree, ends⟩ :=
      spells.scans plain true isColon (by decide)
    rw [scanned]
    refine ⟨_, rfl, ⟨?_, ?_, ?_, ?_, ends⟩, userinfo, free⟩
    · have spelled := spells.same
      rw [userinfo, port, isColon, same] at spelled
      rw [spelled, userinfo]
      simp [userinfoText, behind]
    · exact spells.user
    · exact spells.password
    · rintro port ⟨⟩
      exact isFree
  · exact ⟨reading, rfl, spells, userinfo, free⟩

theorem Spells.userinfoRead (spells : Spells text reading.host reading) (plain : percent ∉ text)
    (userinfo : reading.userinfo = none) (free : Free true reading.host) :
    ∃ after, readUserinfo reading = some after ∧ Spells text after.host after ∧
      Free true after.host ∧ (after.port ≠ none → after.userinfo = none) := by
  unfold readUserinfo
  split
  · rename_i isAt
    obtain ⟨found, next, left, scanned, same, isFree, ends⟩ :=
      spells.scans plain true isAt (by decide)
    rw [scanned]
    refine ⟨_, rfl, ⟨?_, ?_, ?_, by simp, ends⟩, isFree, by simp⟩
    · have spelled := spells.same
      rw [userinfo, isAt, same] at spelled
      rw [spelled]
      simp [userinfoText, behind]
    · rintro user password ⟨⟩
      exact free
    · intro user password isUserinfo
      exact spells.port password (Prod.mk.inj (Option.some.inj isUserinfo)).2
  · exact ⟨reading, rfl, spells, free, fun _ => userinfo⟩

/-- What the host may be. -/
structure UrlHost.Spelled (host : UrlHost) : Prop where
  name : ∀ text, host = .name text → Free true text
  bracketed : ∀ text, host = .bracketed text → Free false text

theorem Spells.hostRead {after : UrlReading} {isHost : UrlHost}
    (spells : Spells text reading.host reading) (plain : percent ∉ text)
    (free : Free true reading.host) (read : readHost reading = some (isHost, after)) :
    Spells text isHost.text after ∧ isHost.Spelled ∧ after.port = reading.port ∧
      after.userinfo = reading.userinfo ∧ (after.port ≠ none → ∃ name, isHost = .name name) := by
  unfold readHost at read
  split at read
  · rename_i isBracket
    split at read
    · cases read
    · rename_i first
      rw [not_or, not_not, not_not] at first
      split at read
      · rename_i address delim left found
        split at read
        · rename_i isClose
          split at read
          · rename_i behindDelim behindLeft foundBehind
            cases read
            obtain ⟨_, _, _, scanned, same, isFree, ends⟩ :=
              spells.scans plain false isBracket (by decide)
            rw [found] at scanned
            cases scanned
            have plainLeft : percent ∉ left := fun member => spells.plain plain
              (same ▸ List.mem_append_right _ (List.mem_cons_of_mem _ member))
            have notEnded : 0 ∈ left := by
              refine ends.resolve_left fun zero => ?_
              rw [isClose] at zero
              cases zero
            obtain ⟨_, _, _, scans, ends⟩ := @exists_scans true _ plainLeft notEnded
            have sameBehind := (free_of_scans scans plainLeft).1
            rw [nextDelim_eq_some.mpr scans] at foundBehind
            cases foundBehind
            refine ⟨⟨?_, spells.user, spells.password, spells.port, ends⟩, ⟨by simp, ?_⟩, rfl, rfl, ?_⟩
            · have spelled := spells.same
              rw [first.1, first.2, isBracket, same, isClose, sameBehind] at spelled
              rw [spelled, first.1]
              simp [UrlHost.text, behind]
            · rintro text ⟨⟩
              exact isFree
            · exact fun stashed => absurd first.1 stashed
          · cases read
        · cases read
      · cases read
  · cases read
    refine ⟨spells, ⟨?_, by simp⟩, rfl, rfl, fun _ => ⟨_, rfl⟩⟩
    rintro text ⟨⟩
    exact free

theorem Spells.portRead (spells : Spells text host reading) (plain : percent ∉ text) :
    ∃ skipped after, readPort reading = some (skipped, after) ∧
      after.userinfo = reading.userinfo ∧
      text = userinfoText after.userinfo ++ host ++ behind colon skipped ++
        behind colon after.port ++ after.delim :: after.left ∧
      (∀ port, after.port = some port → Free true port) ∧
      (∀ text, skipped = some text → Free true text ∧ reading.port ≠ none ∧ after.port ≠ none) ∧
      percent ∉ after.left ∧ (after.delim = 0 ∨ 0 ∈ after.left) := by
  unfold readPort
  split
  · rename_i isColon
    obtain ⟨found, next, left, scanned, same, isFree, ends⟩ :=
      spells.scans plain true isColon (by decide)
    rw [scanned]
    refine ⟨_, _, rfl, rfl, ?_, ?_, ?_, ?_, ends⟩
    · have spelled := spells.same
      rw [isColon, same] at spelled
      rw [spelled]
      simp [behind]
    · rintro port ⟨⟩
      exact isFree
    · intro skipped isSkipped
      exact ⟨spells.port skipped isSkipped, by simp [isSkipped], by simp⟩
    · exact fun member => spells.plain plain
        (same ▸ List.mem_append_right _ (List.mem_cons_of_mem _ member))
  · refine ⟨none, reading, rfl, rfl, ?_, spells.port, by simp, spells.plain plain, spells.ends⟩
    rw [spells.same]
    simp [behind]

/-- A zero in the middle would not have been the end. -/
theorem append_zero_inj {front left rest : List UInt8} (same : front ++ 0 :: left = rest ++ [0])
    (noZero : 0 ∉ rest) : front = rest ∧ left = [] := by
  induction front generalizing rest with
  | nil =>
      cases rest with
      | nil =>
          injection same with _ isLeft
          exact ⟨rfl, isLeft⟩
      | cons head tail =>
          injection same with isHead _
          exact absurd (isHead ▸ List.mem_cons_self) noZero
  | cons head front ih =>
      cases rest with
      | nil =>
          injection same with _ behind
          cases front <;> cases behind
      | cons other tail =>
          injection same with isHead behind
          obtain ⟨rfl, isLeft⟩ := ih behind fun member => noZero (List.mem_cons_of_mem _ member)
          exact ⟨by rw [isHead], isLeft⟩

theorem readVhost_spelled {front rest : List UInt8} {vhost : Option (List UInt8)}
    (read : readVhost reading = some vhost)
    (spelled : rest ++ [0] = front ++ reading.delim :: reading.left) (noZero : 0 ∉ rest)
    (plain : percent ∉ reading.left) :
    rest = front ++ behind slash vhost ∧ ∀ text, vhost = some text → Free true text := by
  unfold readVhost at read
  split at read
  · rename_i isSlash
    split at read
    · rename_i text delim left found
      split at read
      · rename_i isEnd
        cases read
        obtain ⟨same, free, _⟩ := free_of_scans (nextDelim_eq_some.mp found) plain
        have whole : (front ++ slash :: text) ++ 0 :: left = rest ++ [0] := by
          rw [spelled, isSlash, same, isEnd]
          simp
        refine ⟨(append_zero_inj whole noZero).1.symm, ?_⟩
        rintro text ⟨⟩
        exact free
      · cases read
    · cases read
  · split at read
    · rename_i isEnd
      cases read
      rw [isEnd] at spelled
      refine ⟨?_, by simp⟩
      rw [behind, List.append_nil]
      exact (append_zero_inj spelled.symm noZero).1.symm
    · cases read

end Spelling

section Shapes

variable {ssl : Bool} {rest : List UInt8}

theorem percent_not_mem_append (plain : percent ∉ rest) : percent ∉ rest ++ [0] := by
  intro member
  rcases List.mem_append.mp member with inRest | isZero
  · exact plain inRest
  · exact absurd isZero (by decide)

theorem spells_first {text first left : List UInt8} {delim : UInt8}
    (plain : percent ∉ text) (found : nextDelim true text = some (first, delim, left))
    (ends : delim = 0 ∨ 0 ∈ left) :
    Spells text (UrlReading.first first delim left).host (.first first delim left) ∧
      Free true (UrlReading.first first delim left).host := by
  obtain ⟨same, free, _⟩ := free_of_scans (nextDelim_eq_some.mp found) plain
  exact ⟨⟨by simp [same, UrlReading.first, userinfoText, behind], by simp [UrlReading.first],
    by simp [UrlReading.first], by simp [UrlReading.first], ends⟩, free⟩

/-- What is left to read up to the host, of any text without escapes. -/
theorem exists_reading (plain : percent ∉ rest) :
    ∃ first delim left stashed reading,
      nextDelim true (rest ++ [0]) = some (first, delim, left) ∧
      readStash (.first first delim left) = some stashed ∧ readUserinfo stashed = some reading ∧
      Spells (rest ++ [0]) reading.host reading ∧ Free true reading.host ∧
      (reading.port ≠ none → reading.userinfo = none) := by
  have noEscape := percent_not_mem_append plain
  obtain ⟨first, delim, left, scans, ends⟩ := @exists_scans true _ noEscape (by simp)
  have found := nextDelim_eq_some.mpr scans
  obtain ⟨spells, free⟩ := spells_first noEscape found ends
  obtain ⟨stashed, stash, spells, fresh, free⟩ := spells.stashRead noEscape rfl rfl free
  obtain ⟨reading, userinfo, spells, free, exclusive⟩ := spells.userinfoRead noEscape fresh free
  exact ⟨first, delim, left, stashed, reading, found, stash, userinfo, spells, free, exclusive⟩

/-- A shape that was read is spelled in the text. -/
theorem spelled_of_read {shape : UrlShape} (plain : percent ∉ rest) (noZero : 0 ∉ rest)
    (read : readComponents ssl (rest ++ [0]) = some shape) :
    shape.Spelled ∧ shape.text = schemeText ssl ++ rest := by
  have noEscape := percent_not_mem_append plain
  obtain ⟨_, _, _, _, _, behindHost, behindPort, steps⟩ := readComponents_eq_some.mp read
  obtain ⟨_, _, _, _, reading, found, stash, userinfo, spells, free, exclusive⟩ :=
    exists_reading plain
  -- The reading up to the host is determined by the text.
  cases found.symm.trans steps.found
  cases stash.symm.trans steps.stash
  cases userinfo.symm.trans steps.userinfo
  obtain ⟨spells, isHost, samePort, sameUser, named⟩ := spells.hostRead noEscape free steps.host
  obtain ⟨_, _, port, kept, spelled, isPort, isSkipped, plainLeft, _⟩ := spells.portRead noEscape
  cases port.symm.trans steps.port
  obtain ⟨isRest, isVhost⟩ := readVhost_spelled steps.vhost spelled noZero plainLeft
  have isUserinfo : shape.userinfo = behindHost.userinfo := steps.isUserinfo.trans kept
  constructor
  · refine ⟨?_, ?_, isHost.name, isHost.bracketed, ?_, isVhost, ?_⟩
    · rw [isUserinfo]
      exact spells.user
    · rw [isUserinfo]
      exact spells.password
    · rw [steps.isPort]
      exact isPort
    · intro text skipped
      obtain ⟨freeText, stashed, ported⟩ := isSkipped text skipped
      refine ⟨freeText, ?_, named stashed, ?_⟩
      · rw [isUserinfo, sameUser]
        exact exclusive (samePort ▸ stashed)
      · rw [steps.isPort]
        exact Option.ne_none_iff_exists'.mp ported
  · unfold UrlShape.text
    rw [isRest, steps.isUserinfo, steps.isPort, steps.isSsl]
    simp only [List.append_assoc]

/-- A text whose components cannot be read is refused. -/
theorem parseComponents_of_unread {scheme : List UInt8} (plain : percent ∉ rest)
    (unread : readComponents ssl (rest ++ [0]) = none) :
    Yields (parseComponents scheme.length ⟨scheme ++ (rest ++ [0]), infoBehindScheme ssl⟩)
      (.error .badUrl) := by
  have noEscape := percent_not_mem_append plain
  obtain ⟨_, _, _, _, reading, found, stash, userinfo, spells, free, _⟩ := exists_reading plain
  have fresh := readStash_userinfo stash
  cases hostRead : readHost reading with
  | none =>
      obtain ⟨_, locals, state, runs, follows, same⟩ :=
        @parseComponents_upToHost ssl scheme _ _ _ _ _ _ found stash fresh userinfo
      obtain ⟨_, refused⟩ :=
        follows.hostRefused same (spells.plain noEscape) spells.ends hostRead
      rw [runs, parseHost, bind_of_ok refused]
      exact .refused
  | some isRead =>
      obtain ⟨host, behindHost⟩ := isRead
      obtain ⟨spells, _⟩ := spells.hostRead noEscape free hostRead
      obtain ⟨skipped, behindPort, port, _, _, _, _, plainLeft, ends⟩ := spells.portRead noEscape
      obtain ⟨_, locals, state, runs, follows⟩ := @parseComponents_upToPort ssl scheme _ _ _ _ _ _
        _ _ _ _ found stash fresh userinfo hostRead port
      have notVhost : readVhost behindPort = none := by
        cases vhost : readVhost behindPort with
        | none => rfl
        | some vhost =>
            have read := readComponents_eq_some.mpr ⟨_, _, _, _, _, _, _,
              (⟨found, stash, userinfo, hostRead, port, vhost, rfl, rfl, rfl⟩ : ReadSteps ssl _
                ⟨⟨ssl, behindPort.userinfo, host, behindPort.port, _⟩, skipped⟩ _ _ _ _ _ _ _)⟩
            rw [unread] at read
            cases read
      rw [runs]
      by_cases refused : ∃ port, behindPort.port = some port ∧ portNumber? port = none
      · obtain ⟨port, isPort, number⟩ := refused
        rw [bind_of_ok (follows.portRefused isPort number)]
        exact .refused
      · obtain ⟨state, converts, follows⟩ := follows.portConverted fun port isPort number =>
          refused ⟨port, isPort, number⟩
        rw [bind_of_ok converts]
        exact follows.vhostRefused plainLeft ends notVhost

end Shapes

/-! ## Reading what is spelled -/

/-- What stands behind the host: maybe a port or a component in front of it, maybe a
vhost, and the end. -/
def tailText (port vhost : Option (List UInt8)) : List UInt8 :=
  behind colon port ++ (behind slash vhost ++ [0])

section Tail

variable {port vhost : Option (List UInt8)}

/-- A tail begins with a delimiter. -/
theorem exists_tail (port vhost : Option (List UInt8)) :
    ∃ delim left, tailText port vhost = delim :: left ∧ isDelim true delim = true ∧
      delim ≠ atSign ∧ delim ≠ openBracket ∧ (delim = colon ↔ port ≠ none) := by
  cases port with
  | some port => exact ⟨colon, _, rfl, by decide, by decide, by decide, by simp⟩
  | none =>
      cases vhost with
      | some vhost => exact ⟨slash, _, rfl, by decide, by decide, by decide, by decide⟩
      | none => exact ⟨0, [], rfl, by decide, by decide, by decide, by decide⟩

theorem readVhost_tail {reading : UrlReading} (free : ∀ text, vhost = some text → Free true text)
    (plain : ∀ text, vhost = some text → percent ∉ text)
    (isTail : reading.delim :: reading.left = tailText none vhost) :
    readVhost reading = some vhost := by
  unfold readVhost
  cases vhost with
  | none =>
      injection isTail with isEnd _
      rw [isEnd]
      rfl
  | some vhost =>
      injection isTail with isSlash isLeft
      have scans : Scans true reading.left vhost 0 [] := by
        rw [isLeft]
        exact scans_of_free (free vhost rfl) (plain vhost rfl) (by decide)
      rw [if_pos isSlash, nextDelim_eq_some.mpr scans]
      rfl

theorem readPort_tail {reading : UrlReading} (freePort : ∀ text, port = some text → Free true text)
    (plainPort : ∀ text, port = some text → percent ∉ text)
    (free : ∀ text, vhost = some text → Free true text)
    (plain : ∀ text, vhost = some text → percent ∉ text)
    (isTail : reading.delim :: reading.left = tailText port vhost) :
    ∃ after, readPort reading = some (port.bind fun _ => reading.port, after) ∧
      after.userinfo = reading.userinfo ∧ after.port = (port <|> reading.port) ∧
      readVhost after = some vhost := by
  cases port with
  | none =>
      refine ⟨reading, ?_, rfl, rfl, readVhost_tail free plain isTail⟩
      obtain ⟨delim, left, same, _, _, _, isColon⟩ := exists_tail none vhost
      have notColon : reading.delim ≠ colon := by
        rw [same] at isTail
        injection isTail with isDelim _
        intro colon
        exact isColon.mp (isDelim ▸ colon) rfl
      unfold readPort
      rw [if_neg notColon]
      rfl
  | some port =>
      injection isTail with isColon isLeft
      obtain ⟨delim, left, same, isDelim, _⟩ := exists_tail none vhost
      have scans : Scans true reading.left port delim left := by
        have regrouped : reading.left = port ++ delim :: left :=
          isLeft.trans (congrArg (port ++ ·) same)
        rw [regrouped]
        exact scans_of_free (freePort port rfl) (plainPort port rfl) isDelim
      refine ⟨{ reading with port := some port, delim, left }, ?_, rfl, rfl,
        readVhost_tail free plain same.symm⟩
      unfold readPort
      rw [if_pos isColon, nextDelim_eq_some.mpr scans]
      rfl

/-- The host behind a userinfo, or one in brackets. -/
theorem readHost_tail {host : UrlHost} (isHost : host.Spelled) (plain : percent ∉ host.text)
    (userinfo : Option (List UInt8 × Option (List UInt8))) :
    ∃ first delim left after,
      nextDelim true (host.text ++ tailText port vhost) = some (first, delim, left) ∧
      delim ≠ atSign ∧ (delim = colon → ∃ name, host = .name name) ∧
      readHost ⟨userinfo, first, none, delim, left⟩ = some (host, after) ∧
      after.userinfo = userinfo ∧ after.port = none ∧
      after.delim :: after.left = tailText port vhost := by
  obtain ⟨delim, left, same, isDelim, notAt, notBracket, _⟩ := exists_tail port vhost
  cases host with
  | name text =>
      have scans : Scans true (text ++ delim :: left) text delim left :=
        scans_of_free (isHost.name text rfl) plain isDelim
      refine ⟨text, delim, left, ⟨userinfo, text, none, delim, left⟩, ?_, notAt,
        fun _ => ⟨text, rfl⟩, ?_, rfl, rfl, same.symm⟩
      · rw [UrlHost.text, same, nextDelim_eq_some.mpr scans]
      · unfold readHost
        rw [if_neg notBracket]
  | bracketed address =>
      have plainAddress : percent ∉ address := by
        intro member
        exact plain (List.mem_cons_of_mem _ (List.mem_append_left _ member))
      have scansFirst : Scans true (openBracket :: (address ++ closeBracket :: delim :: left)) []
          openBracket (address ++ closeBracket :: delim :: left) := .stop (by decide)
      have scans : Scans false (address ++ closeBracket :: delim :: left) address closeBracket
          (delim :: left) :=
        scans_of_free (isHost.bracketed address rfl) plainAddress (by decide)
      have scansBehind : Scans true (delim :: left) [] delim left := .stop isDelim
      refine ⟨[], openBracket, address ++ closeBracket :: delim :: left,
        ⟨userinfo, [], none, delim, left⟩, ?_, by decide,
        fun isColon => absurd isColon (by decide), ?_, rfl, rfl, same.symm⟩
      · have regrouped : (UrlHost.bracketed address).text ++ tailText port vhost =
            openBracket :: (address ++ closeBracket :: delim :: left) := by
          rw [same]
          simp [UrlHost.text]
        rw [regrouped, nextDelim_eq_some.mpr scansFirst]
      · unfold readHost
        rw [if_pos rfl, if_neg (by simp)]
        dsimp only
        rw [nextDelim_eq_some.mpr scans]
        dsimp only
        rw [if_pos rfl, nextDelim_eq_some.mpr scansBehind]

end Tail

section Spelled

variable {ssl : Bool} {user text : List UInt8} {host : UrlHost}
  {password port vhost : Option (List UInt8)}

/-- A URL without userinfo, up to a name that is the host. -/
theorem readComponents_of_name (free : Free true text) (plain : percent ∉ text)
    (freeVhost : ∀ text, vhost = some text → Free true text)
    (plainVhost : ∀ text, vhost = some text → percent ∉ text) :
    readComponents ssl (text ++ tailText none vhost) =
      some ⟨⟨ssl, none, .name text, none, vhost⟩, none⟩ := by
  obtain ⟨delim, left, same, isDelim, notAt, notBracket, isColon⟩ := exists_tail none vhost
  have notColon : delim ≠ colon := fun colon => isColon.mp colon rfl
  have found := nextDelim_eq_some.mpr (@scans_of_free true text left delim free plain isDelim)
  obtain ⟨after, portRead, kept, isPort, vhostRead⟩ :=
    @readPort_tail none vhost ⟨none, text, none, delim, left⟩ (by simp) (by simp) freeVhost
      plainVhost same.symm
  refine readComponents_eq_some.mpr ⟨text, delim, left, .first text delim left,
    .first text delim left, .first text delim left, after, ?_⟩
  exact
    { found := by rw [same, found]
      stash := if_neg notColon
      userinfo := if_neg notAt
      host := if_neg notBracket
      port := portRead
      vhost := vhostRead
      isSsl := rfl
      isUserinfo := kept.symm
      isPort := isPort.symm }

/-- One with a component that is stashed, whether it turns out to be the port or not. -/
theorem readComponents_of_stash {component : List UInt8} (free : Free true text)
    (plain : percent ∉ text) (freeComponent : Free true component)
    (plainComponent : percent ∉ component) (freePort : ∀ text, port = some text → Free true text)
    (plainPort : ∀ text, port = some text → percent ∉ text)
    (freeVhost : ∀ text, vhost = some text → Free true text)
    (plainVhost : ∀ text, vhost = some text → percent ∉ text) :
    readComponents ssl (text ++ colon :: (component ++ tailText port vhost)) =
      some ⟨⟨ssl, none, .name text, port <|> some component, vhost⟩,
        port.bind fun _ => some component⟩ := by
  obtain ⟨delim, left, same, isDelim, notAt, notBracket, _⟩ := exists_tail port vhost
  have found := nextDelim_eq_some.mpr
    (@scans_of_free true text (component ++ tailText port vhost) colon free plain (by decide))
  have foundComponent := nextDelim_eq_some.mpr
    (@scans_of_free true component left delim freeComponent plainComponent isDelim)
  obtain ⟨after, portRead, kept, isPort, vhostRead⟩ :=
    @readPort_tail port vhost ⟨none, text, some component, delim, left⟩ freePort plainPort freeVhost
      plainVhost same.symm
  refine readComponents_eq_some.mpr ⟨text, colon, component ++ tailText port vhost,
    ⟨none, text, some component, delim, left⟩, ⟨none, text, some component, delim, left⟩,
    ⟨none, text, some component, delim, left⟩, after, ?_⟩
  exact
    { found := found
      stash := by
        unfold readStash UrlReading.first
        rw [if_pos rfl, same, foundComponent]
        rfl
      userinfo := if_neg notAt
      host := if_neg notBracket
      port := portRead
      vhost := vhostRead
      isSsl := rfl
      isUserinfo := kept.symm
      isPort := isPort.symm }

theorem readComponents_of_bracketed {address : List UInt8} (free : Free false address)
    (plain : percent ∉ address) (freePort : ∀ text, port = some text → Free true text)
    (plainPort : ∀ text, port = some text → percent ∉ text)
    (freeVhost : ∀ text, vhost = some text → Free true text)
    (plainVhost : ∀ text, vhost = some text → percent ∉ text) :
    readComponents ssl ((UrlHost.bracketed address).text ++ tailText port vhost) =
      some ⟨⟨ssl, none, .bracketed address, port, vhost⟩, none⟩ := by
  have isHost : (UrlHost.bracketed address).Spelled := by
    refine ⟨by simp, ?_⟩
    rintro text ⟨⟩
    exact free
  have plainText : percent ∉ (UrlHost.bracketed address).text := by
    simp only [UrlHost.text, List.cons_append, List.mem_cons, List.mem_append, List.not_mem_nil,
      or_false, not_or]
    exact ⟨by decide, plain, by decide⟩
  obtain ⟨first, delim, left, behindHost, found, notAt, isName, hostRead, keptHost, noPort, isTail⟩ :=
    @readHost_tail port vhost _ isHost plainText none
  have notColon : delim ≠ colon := by
    intro isColon
    obtain ⟨_, name⟩ := isName isColon
    cases name
  obtain ⟨after, portRead, kept, isPort, vhostRead⟩ :=
    readPort_tail freePort plainPort freeVhost plainVhost isTail
  rw [noPort] at portRead isPort
  refine readComponents_eq_some.mpr ⟨first, delim, left, .first first delim left,
    .first first delim left, behindHost, after, ?_⟩
  exact
    { found := found
      stash := if_neg notColon
      userinfo := if_neg notAt
      host := hostRead
      port := by simpa using portRead
      vhost := vhostRead
      isSsl := rfl
      isUserinfo := (kept.trans keptHost).symm
      isPort := by simp [isPort] }

/-- A URL with a userinfo. -/
theorem readComponents_of_userinfo (free : Free true user) (plain : percent ∉ user)
    (freePassword : ∀ text, password = some text → Free true text)
    (plainPassword : ∀ text, password = some text → percent ∉ text)
    (isHost : host.Spelled) (plainHost : percent ∉ host.text)
    (freePort : ∀ text, port = some text → Free true text)
    (plainPort : ∀ text, port = some text → percent ∉ text)
    (freeVhost : ∀ text, vhost = some text → Free true text)
    (plainVhost : ∀ text, vhost = some text → percent ∉ text) :
    readComponents ssl (user ++ (behind colon password ++
        atSign :: (host.text ++ tailText port vhost))) =
      some ⟨⟨ssl, some (user, password), host, port, vhost⟩, none⟩ := by
  obtain ⟨first, delim, left, behindHost, found, _, _, hostRead, keptHost, noPort, isTail⟩ :=
    @readHost_tail port vhost _ isHost plainHost (some (user, password))
  obtain ⟨after, portRead, kept, isPort, vhostRead⟩ :=
    readPort_tail freePort plainPort freeVhost plainVhost isTail
  rw [noPort] at portRead isPort
  have userinfoRead : readUserinfo ⟨none, user, password, atSign, host.text ++ tailText port vhost⟩ =
      some ⟨some (user, password), first, none, delim, left⟩ := by
    unfold readUserinfo
    rw [if_pos rfl, found]
    rfl
  have stashRead : ∃ delim left, nextDelim true (user ++ (behind colon password ++
        atSign :: (host.text ++ tailText port vhost))) = some (user, delim, left) ∧
      readStash (.first user delim left) =
        some ⟨none, user, password, atSign, host.text ++ tailText port vhost⟩ := by
    cases password with
    | none => exact ⟨atSign, _, nextDelim_eq_some.mpr (scans_of_free free plain (by decide)), rfl⟩
    | some password =>
        refine ⟨colon, password ++ atSign :: (host.text ++ tailText port vhost),
          nextDelim_eq_some.mpr (scans_of_free free plain (by decide)), ?_⟩
        have scans := @scans_of_free true password (host.text ++ tailText port vhost) atSign
          (freePassword password rfl) (plainPassword password rfl) (by decide)
        unfold readStash UrlReading.first
        rw [if_pos rfl, nextDelim_eq_some.mpr scans]
        rfl
  obtain ⟨userDelim, behindUser, userFound, stash⟩ := stashRead
  refine readComponents_eq_some.mpr ⟨user, userDelim, behindUser,
    ⟨none, user, password, atSign, host.text ++ tailText port vhost⟩,
    ⟨some (user, password), first, none, delim, left⟩, behindHost, after, ?_⟩
  exact
    { found := userFound
      stash := stash
      userinfo := userinfoRead
      host := hostRead
      port := by simpa using portRead
      vhost := vhostRead
      isSsl := rfl
      isUserinfo := (kept.trans keptHost).symm
      isPort := by simp [isPort] }

end Spelled

theorem plain_of_behind {delim : UInt8} {component : Option (List UInt8)}
    (plain : percent ∉ behind delim component) :
    ∀ text, component = some text → percent ∉ text := by
  rintro text rfl member
  exact plain (List.mem_cons_of_mem _ member)

/-- The components are read as they are spelled. -/
theorem readComponents_of_spelled {shape : UrlShape} (spelled : shape.Spelled)
    {rest : List UInt8} (isText : shape.text = schemeText shape.ssl ++ rest)
    (plain : percent ∉ rest) : readComponents shape.ssl (rest ++ [0]) = some shape := by
  obtain ⟨⟨ssl, userinfo, host, port, vhost⟩, skipped⟩ := shape
  obtain ⟨user, password, name, bracketed, freePort, freeVhost, isSkipped⟩ := spelled
  dsimp only at user password name bracketed freePort freeVhost isSkipped isText ⊢
  have isRest : rest = userinfoText userinfo ++ (host.text ++ (behind colon skipped ++
      (behind colon port ++ behind slash vhost))) := by
    unfold UrlShape.text at isText
    simp only [List.append_assoc] at isText
    exact (List.append_cancel_left isText).symm
  rw [isRest] at plain ⊢
  simp only [List.mem_append, not_or] at plain
  obtain ⟨plainUserinfo, plainHost, plainSkipped, plainPort, plainVhost⟩ := plain
  have plainPort := plain_of_behind plainPort
  have plainVhost := plain_of_behind plainVhost
  cases userinfo with
  | some userinfo =>
      obtain ⟨isUser, isPassword⟩ := userinfo
      have noSkipped : skipped = none := by
        cases skipped with
        | none => rfl
        | some text => cases (isSkipped text rfl).2.1
      simp only [userinfoText, List.mem_append, not_or] at plainUserinfo
      have read := @readComponents_of_userinfo ssl isUser host isPassword port vhost
        (user _ _ rfl) plainUserinfo.1.1 (fun text isText => password _ _ (by rw [isText]))
        (plain_of_behind plainUserinfo.1.2) ⟨name, bracketed⟩ plainHost freePort plainPort freeVhost
        plainVhost
      rw [noSkipped, ← read]
      simp [userinfoText, behind, tailText]
  | none =>
      cases host with
      | bracketed address =>
          have noSkipped : skipped = none := by
            cases skipped with
            | none => rfl
            | some text =>
                obtain ⟨_, _, ⟨_, isName⟩, _⟩ := isSkipped text rfl
                cases isName
          have plainAddress : percent ∉ address := fun member =>
            plainHost (List.mem_cons_of_mem _ (List.mem_append_left _ member))
          have read := @readComponents_of_bracketed ssl port vhost address (bracketed _ rfl)
            plainAddress freePort plainPort freeVhost plainVhost
          rw [noSkipped, ← read]
          simp [userinfoText, behind, tailText]
      | name text =>
          cases skipped with
          | some component =>
              obtain ⟨freeComponent, _, _, ⟨isPort, rfl⟩⟩ := isSkipped component rfl
              have read := @readComponents_of_stash ssl text (some isPort) vhost component
                (name _ rfl) plainHost freeComponent (plain_of_behind plainSkipped _ rfl) freePort
                plainPort freeVhost plainVhost
              refine Eq.trans ?_ read
              simp [userinfoText, behind, tailText, UrlHost.text]
          | none =>
              cases port with
              | none =>
                  have read := @readComponents_of_name ssl text vhost (name _ rfl) plainHost freeVhost
                    plainVhost
                  rw [← read]
                  simp [userinfoText, behind, tailText, UrlHost.text]
              | some isPort =>
                  have read := @readComponents_of_stash ssl text none vhost isPort (name _ rfl)
                    plainHost (freePort _ rfl) (plainPort _ rfl) (by simp) (by simp) freeVhost
                    plainVhost
                  refine Eq.trans ?_ read
                  simp [userinfoText, behind, tailText, UrlHost.text]

/-! ## Ports -/

section Ports

variable {text : List UInt8}

/-- Digits alone, as a number. -/
def plainNumeral (text : List UInt8) (nonempty : text ≠ [])
    (isDigits : ∀ ch ∈ text, CString.isDigit ch = true) : CString.Numeral where
  spaces := []
  sign := []
  digits := text
  isSpaces := by simp
  isSign := .inl rfl
  isDigits
  nonempty

theorem portNumber?_of_digits (nonempty : text ≠ [])
    (isDigits : ∀ ch ∈ text, CString.isDigit ch = true) (small : CString.decimal text ≤ 65535) :
    portNumber? text = some (CString.decimal text : Int) := by
  have converted := CString.strtol_text (plainNumeral text nonempty isDigits)
  have isText : (plainNumeral text nonempty isDigits).text = text := by
    simp [plainNumeral, CString.Numeral.text]
  have isValue : (plainNumeral text nonempty isDigits).value = CString.decimal text := by
    unfold CString.Numeral.value plainNumeral
    rw [if_neg (by simp)]
    dsimp only
    omega
  rw [isText, isValue] at converted
  unfold portNumber?
  rw [converted]
  dsimp only
  rw [if_pos ⟨rfl, nonempty, by omega, by omega⟩]

theorem not_decorated_of_digits (isDigits : ∀ ch ∈ text, CString.isDigit ch = true) :
    ¬ Decorated text := by
  rintro ⟨numeral, rfl, decorated⟩
  have member {ch : UInt8} (inText : ch ∈ numeral.spaces ∨ ch ∈ numeral.sign) :
      CString.isDigit ch = true := by
    refine isDigits ch ?_
    unfold CString.Numeral.text
    rw [List.append_assoc]
    rcases inText with inSpaces | inSign
    · exact List.mem_append_left _ inSpaces
    · exact List.mem_append_right _ (List.mem_append_left _ inSign)
  rcases decorated with spaces | signed
  · obtain ⟨ch, rest, isSpaces⟩ := List.exists_cons_of_ne_nil spaces
    have first : ch ∈ numeral.spaces := by simp [isSpaces]
    have digit := CString.isSpace_of_isDigit ch (member (.inl first))
    rw [numeral.isSpaces ch first] at digit
    cases digit.1
  · rcases numeral.isSign with isSign | isSign | isSign
    · exact signed isSign
    · exact absurd (member (.inr (by rw [isSign]; exact List.mem_cons_self))) (by decide)
    · exact absurd (member (.inr (by rw [isSign]; exact List.mem_cons_self))) (by decide)

theorem digits_of_portNumber? (number : portNumber? text ≠ none) (bare : ¬ Decorated text) :
    text ≠ [] ∧ (∀ ch ∈ text, CString.isDigit ch = true) ∧ CString.decimal text ≤ 65535 := by
  unfold portNumber? at number
  split at number
  · rename_i converted
    obtain ⟨all, nonempty, _, atMost⟩ := converted
    obtain ⟨numeral, rfl⟩ := CString.numeral_of_strtol all nonempty
    have noSpaces : numeral.spaces = [] := by
      by_contra spaces
      exact bare ⟨numeral, rfl, .inl spaces⟩
    have noSign : numeral.sign = [] := by
      by_contra sign
      exact bare ⟨numeral, rfl, .inr sign⟩
    have isDigits : numeral.text = numeral.digits := by
      unfold CString.Numeral.text
      rw [noSpaces, noSign]
      rfl
    rw [CString.strtol_text] at atMost
    unfold CString.Numeral.value at atMost
    rw [noSign, if_neg (by simp)] at atMost
    rw [isDigits]
    refine ⟨numeral.nonempty, numeral.isDigits, ?_⟩
    dsimp only at atMost
    omega
  · exact absurd rfl number

theorem free_of_digits (isDigits : ∀ ch ∈ text, CString.isDigit ch = true) : Free true text := by
  have notDelim : ∀ ch, CString.isDigit ch = true → isDelim true ch = false := by
    apply CString.forall_octet
    decide +kernel
  exact fun ch member => notDelim ch (isDigits ch member)

end Ports

/-! ## Whole URLs -/

theorem schemeText_inj {left right : Bool} {rest other : List UInt8}
    (same : schemeText left ++ rest = schemeText right ++ other) :
    left = right ∧ rest = other := by
  cases left <;> cases right <;> simp_all [schemeText, ascii]

theorem amqpParseUrl_of_scheme (ssl : Bool) (rest : List UInt8) (parsed : ConnectionInfo) :
    amqpParseUrl ⟨schemeText ssl ++ rest, parsed⟩ =
      parseComponents (schemeText ssl).length ⟨schemeText ssl ++ rest, infoBehindScheme ssl⟩ := by
  unfold amqpParseUrl
  rw [bind_of_ok (modify_run _ _), bind_of_ok (get_run _)]
  cases ssl with
  | false => exact congrFun (if_pos (List.prefix_append _ _)) _
  | true =>
      have notPlain : ¬ ascii "amqp://" <+: schemeText true ++ rest := by
        rintro ⟨other, same⟩
        cases (@schemeText_inj false true other rest same).1
      have isSecure : ascii "amqps://" <+: schemeText true ++ rest := List.prefix_append _ _
      dsimp only
      rw [if_neg notPlain, if_pos isSecure]
      rfl

theorem amqpParseUrl_of_otherScheme {memory : List UInt8} {parsed : ConnectionInfo}
    (other : ∀ ssl rest, memory ≠ schemeText ssl ++ rest) :
    Yields (amqpParseUrl ⟨memory, parsed⟩) (.error .badUrl) := by
  have notPlain : ¬ ascii "amqp://" <+: memory := by
    rintro ⟨rest, same⟩
    exact other false rest same.symm
  have notSecure : ¬ ascii "amqps://" <+: memory := by
    rintro ⟨rest, same⟩
    exact other true rest same.symm
  unfold amqpParseUrl
  rw [bind_of_ok (modify_run _ _), bind_of_ok (get_run _)]
  dsimp only
  rw [if_neg notPlain, if_neg notSecure]
  exact .refused

section Urls

variable {url : List UInt8}

/-- The scheme of a shape, and the text behind it. -/
theorem exists_rest (shape : UrlShape) : ∃ rest, shape.text = schemeText shape.ssl ++ rest := by
  unfold UrlShape.text
  simp only [List.append_assoc]
  exact ⟨_, rfl⟩

theorem Yields.functional {run : EStateM.Result Fault UrlState (Except Status Unit)}
    {left right : Except Status ConnectionValues} (first : Yields run left)
    (second : Yields run right) : left = right := by
  cases first with
  | accepted isLeft =>
      cases second with
      | accepted isRight => rw [← isLeft, isRight]
  | refused =>
      cases second with
      | refused => rfl

/-- A URL is spelled in one way. -/
theorem UrlShape.eq_of_text {left right : UrlShape} (isLeft : left.Spelled)
    (isRight : right.Spelled) (same : left.text = right.text) (plain : percent ∉ left.text) :
    left = right := by
  obtain ⟨rest, isRest⟩ := exists_rest left
  obtain ⟨other, isOther⟩ := exists_rest right
  obtain ⟨sameSsl, rfl⟩ := schemeText_inj (isRest.symm.trans (same.trans isOther))
  rw [isRest] at plain
  have plain : percent ∉ rest := fun member => plain (List.mem_append_right _ member)
  have first := readComponents_of_spelled isLeft isRest plain
  have second := readComponents_of_spelled isRight isOther plain
  rw [sameSsl, second] at first
  exact (Option.some.inj first).symm

/-- What the parser says about a URL that is spelled as a shape. -/
theorem amqpParseUrl_of_spelled {shape : UrlShape} (spelled : shape.Spelled)
    (isText : shape.text = url) (plain : percent ∉ url) (parsed : ConnectionInfo) :
    Yields (amqpParseUrl ⟨url ++ [0], parsed⟩)
      (if ∃ port, shape.port = some port ∧ portNumber? port = none then .error .badUrl
        else .ok (valuesOf shape.ssl shape.userinfo shape.host.value
          (shape.port.bind portNumber?) shape.vhost)) := by
  obtain ⟨rest, isRest⟩ := exists_rest shape
  rw [← isText, isRest] at plain ⊢
  have plain : percent ∉ rest := fun member => plain (List.mem_append_right _ member)
  rw [List.append_assoc, amqpParseUrl_of_scheme]
  exact parseComponents_of_read (readComponents_of_spelled spelled isRest plain)

/-- A URL that is not spelled as any shape is refused. -/
theorem amqpParseUrl_of_unspelled (noZero : 0 ∉ url) (plain : percent ∉ url)
    (unspelled : ∀ shape : UrlShape, shape.Spelled → shape.text ≠ url) (parsed : ConnectionInfo) :
    Yields (amqpParseUrl ⟨url ++ [0], parsed⟩) (.error .badUrl) := by
  by_cases scheme : ∃ ssl rest, url = schemeText ssl ++ rest
  · obtain ⟨ssl, rest, rfl⟩ := scheme
    have plain : percent ∉ rest := fun member => plain (List.mem_append_right _ member)
    have noZero : 0 ∉ rest := fun member => noZero (List.mem_append_right _ member)
    rw [List.append_assoc, amqpParseUrl_of_scheme]
    cases read : readComponents ssl (rest ++ [0]) with
    | none => exact parseComponents_of_unread plain read
    | some shape =>
        obtain ⟨spelled, isText⟩ := spelled_of_read plain noZero read
        exact absurd isText (unspelled shape spelled)
  · refine amqpParseUrl_of_otherScheme fun ssl rest same => scheme ?_
    rcases List.eq_nil_or_concat rest with rfl | ⟨front, last, rfl⟩
    · have noZeroScheme : 0 ∉ schemeText ssl := by cases ssl <;> decide
      rw [List.append_nil] at same
      exact absurd (same ▸ List.mem_append_right _ List.mem_cons_self) noZeroScheme
    · rw [List.concat_eq_append, ← List.append_assoc] at same
      exact ⟨ssl, front, (List.append_inj_left' same rfl)⟩

theorem UrlParts.WellFormed.spelled {parts : UrlParts} (wellFormed : parts.WellFormed) :
    (UrlShape.mk parts none).Spelled where
  user := wellFormed.user
  password := wellFormed.password
  name := wellFormed.name
  bracketed := wellFormed.bracketed
  port text isPort := free_of_digits (wellFormed.port text isPort).2.1
  vhost := wellFormed.vhost
  skipped := by simp

theorem UrlParts.text_eq (parts : UrlParts) : (UrlShape.mk parts none).text = parts.text := by
  simp [UrlShape.text, UrlParts.text, behind]

theorem UrlParts.WellFormed.values_eq {parts : UrlParts} (wellFormed : parts.WellFormed) :
    valuesOf parts.ssl parts.userinfo parts.host.value (parts.port.bind portNumber?) parts.vhost =
      parts.values := by
  have ports : parts.port.bind portNumber? =
      parts.port.map fun text => (CString.decimal text : Int) := by
    cases isPort : parts.port with
    | none => rfl
    | some text =>
        obtain ⟨nonempty, isDigits, small⟩ := wellFormed.port text isPort
        exact portNumber?_of_digits nonempty isDigits small
  unfold valuesOf UrlParts.values
  rw [ports]

/-- A shape that is accepted and not lenient is one of the documented form. -/
theorem wellFormed_of_strict {shape : UrlShape} (spelled : shape.Spelled)
    (isText : shape.text = url) (strict : ¬ Lenient url)
    (numbers : ∀ port, shape.port = some port → portNumber? port ≠ none) :
    shape.skipped = none ∧ shape.toUrlParts.WellFormed := by
  have numbered : ∀ port, shape.port = some port → (portNumber? port).isSome := fun port isPort =>
    Option.isSome_iff_ne_none.mpr (numbers port isPort)
  constructor
  · by_contra skipped
    exact strict ⟨shape, spelled, isText, numbered, .inl skipped⟩
  · refine ⟨spelled.user, spelled.password, spelled.name, spelled.bracketed, ?_, spelled.vhost⟩
    intro port isPort
    refine digits_of_portNumber? (numbers port isPort) fun decorated => ?_
    exact strict ⟨shape, spelled, isText, numbered, .inr ⟨port, isPort, decorated⟩⟩

/-- A URL of the documented form is not lenient. -/
theorem UrlParts.WellFormed.strict {parts : UrlParts} (wellFormed : parts.WellFormed)
    (isParts : parts.text = url) (plain : percent ∉ url) : ¬ Lenient url := by
  rintro ⟨shape, spelled, isText, _, beyond⟩
  have same := UrlShape.eq_of_text spelled wellFormed.spelled
    (isText.trans (isParts.symm.trans parts.text_eq.symm)) (isText ▸ plain)
  rcases beyond with skipped | ⟨port, isPort, decorated⟩
  · rw [same] at skipped
    exact skipped rfl
  · rw [same] at isPort
    exact not_decorated_of_digits (wellFormed.port port isPort).2.1 decorated

/-- A lenient URL is accepted though it is not of the documented form. -/
theorem not_parsesByForm_of_lenient (lenient : Lenient url) (plain : percent ∉ url)
    (parsed : ConnectionInfo) : ¬ ParsesByForm url parsed := by
  intro byForm
  have unformed := fun parts (wellFormed : UrlParts.WellFormed parts) isParts =>
    wellFormed.strict isParts plain lenient
  obtain ⟨shape, spelled, isText, numbers, _⟩ := lenient
  have notRefused : ¬ ∃ port, shape.port = some port ∧ portNumber? port = none := by
    rintro ⟨port, isPort, refused⟩
    have number := numbers port isPort
    rw [refused] at number
    cases number
  have accepted := amqpParseUrl_of_spelled spelled isText plain parsed
  rw [if_neg notRefused] at accepted
  cases accepted.functional (byForm.refuses unformed)

/-- The parser goes by the documented form of a URL unless the URL has a component in
front of its port or something in front of the port's digits. -/
theorem parsesByForm_iff (noZero : 0 ∉ url) (plain : percent ∉ url) (parsed : ConnectionInfo) :
    ParsesByForm url parsed ↔ ¬ Lenient url := by
  constructor
  · intro byForm lenient
    exact not_parsesByForm_of_lenient lenient plain parsed byForm
  · intro strict
    constructor
    · intro parts wellFormed isParts
      have accepted := amqpParseUrl_of_spelled wellFormed.spelled
        (parts.text_eq.trans isParts) plain parsed
      have numbers : ¬ ∃ port, parts.port = some port ∧ portNumber? port = none := by
        rintro ⟨port, isPort, refused⟩
        obtain ⟨nonempty, isDigits, small⟩ := wellFormed.port port isPort
        rw [portNumber?_of_digits nonempty isDigits small] at refused
        cases refused
      rw [if_neg numbers, wellFormed.values_eq] at accepted
      exact accepted
    · intro unformed
      by_cases spelled : ∃ shape : UrlShape, shape.Spelled ∧ shape.text = url
      · obtain ⟨shape, spelled, isText⟩ := spelled
        have answered := amqpParseUrl_of_spelled spelled isText plain parsed
        by_cases refused : ∃ port, shape.port = some port ∧ portNumber? port = none
        · rw [if_pos refused] at answered
          exact answered
        · have numbers : ∀ port, shape.port = some port → portNumber? port ≠ none :=
            fun port isPort number => refused ⟨port, isPort, number⟩
          obtain ⟨noSkipped, wellFormed⟩ := wellFormed_of_strict spelled isText strict numbers
          refine absurd ?_ (unformed shape.toUrlParts wellFormed)
          rw [← UrlParts.text_eq, ← noSkipped]
          exact isText
      · exact amqpParseUrl_of_unspelled noZero plain
          (fun shape isSpelled isText => spelled ⟨shape, isSpelled, isText⟩) parsed

end Urls

/-- `amqps://guest:pw@[::1]:5671/v`. -/
def fullUrlParts : UrlParts where
  ssl := true
  userinfo := some (ascii "guest", some (ascii "pw"))
  host := .bracketed (ascii "::1")
  port := some (ascii "5671")
  vhost := some (ascii "v")

theorem fullUrlParts_wellFormed : fullUrlParts.WellFormed where
  user := by
    rintro user password ⟨⟩
    decide
  password := by
    rintro user password ⟨⟩
    decide
  name := by rintro text ⟨⟩
  bracketed := by
    rintro text ⟨⟩
    decide
  port := by
    rintro text ⟨⟩
    exact ⟨by decide, List.all_eq_true.mp (by decide), by decide⟩
  vhost := by
    rintro text ⟨⟩
    decide

theorem parsesByForm_iff_full :
    ParsesByForm fullUrlParts.text amqpDefaultConnectionInfo ∧
      Yields (amqpParseUrl ⟨fullUrlParts.text ++ [0], amqpDefaultConnectionInfo⟩)
        (.ok fullUrlParts.values) := by
  have plain : percent ∉ fullUrlParts.text := by decide
  have byForm := (parsesByForm_iff (by decide) plain amqpDefaultConnectionInfo).mpr
    (fullUrlParts_wellFormed.strict rfl plain)
  exact ⟨byForm, byForm.accepts fullUrlParts fullUrlParts_wellFormed rfl⟩

/-- Of three components the second one is ignored. -/
theorem three_components_accepted :
    ¬ ParsesByForm (ascii "amqp://foo:bar:123") amqpDefaultConnectionInfo := by
  refine not_parsesByForm_of_lenient ⟨⟨⟨false, none, .name (ascii "foo"), some (ascii "123"), none⟩,
    some (ascii "bar")⟩, ?_, by decide, ?_, .inl (by simp)⟩ (by decide) _
  · refine ⟨by simp, by simp, ?_, by simp, ?_, by simp, ?_⟩
    · rintro text ⟨⟩
      decide
    · rintro text ⟨⟩
      decide
    · rintro text ⟨⟩
      refine ⟨?_, rfl, ⟨_, rfl⟩, ⟨_, rfl⟩⟩
      decide
  · rintro port ⟨⟩
    decide

end RabbitmqC
