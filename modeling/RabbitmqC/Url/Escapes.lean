import RabbitmqC.Url.Syntax

/-!
# Escapes

A URL that is built from its components, with every octet escaped that is not
unreserved, is taken apart into the same components.
-/

set_option autoImplicit false

namespace RabbitmqC

open CString (ascii)

/-- A letter, a digit, or one of `-`, `.`, `_` and `~`. -/
def unreserved (ch : UInt8) : Bool :=
  (65 ≤ ch && ch ≤ 90) || (97 ≤ ch && ch ≤ 122) || CString.isDigit ch || (ascii "-._~").contains ch

/-- An encoding of a text, with digits of either case. -/
inductive Escaped : List UInt8 → List UInt8 → Prop where
  | nil : Escaped [] []
  | plain {ch : UInt8} {text encoded : List UInt8} :
      unreserved ch = true → Escaped text encoded → Escaped (ch :: text) (ch :: encoded)
  | escape {ch first second : UInt8} {text encoded : List UInt8} :
      unreserved ch = false → CString.hexValue? first = some (ch.toNat / 16) →
      CString.hexValue? second = some (ch.toNat % 16) → Escaped text encoded →
      Escaped (ch :: text) (percent :: first :: second :: encoded)

/-- Octets from 0x01 to 0x7F. -/
def AsciiText (text : List UInt8) : Prop := ∀ ch ∈ text, 1 ≤ ch ∧ ch ≤ 0x7F

instance (text : List UInt8) : Decidable (AsciiText text) := List.decidableBAll _ text

/-- The components as a URL spells them. -/
structure EscapedUrl where
  ssl : Bool
  user : List UInt8
  password : List UInt8
  host : List UInt8
  port : List UInt8
  vhost : List UInt8

def EscapedUrl.text (url : EscapedUrl) : List UInt8 :=
  schemeText url.ssl ++ (url.user ++ colon :: (url.password ++ atSign :: (url.host ++
    colon :: (url.port ++ slash :: url.vhost))))

theorem not_delim_of_unreserved : ∀ ch, unreserved ch = true →
    isDelim true ch = false ∧ ch ≠ percent := by
  apply CString.forall_octet
  decide +kernel

/-- An escaped text is decoded up to the delimiter behind it. -/
theorem Escaped.scans {text encoded left : List UInt8} {delim : UInt8}
    (escaped : Escaped text encoded) (isAscii : AsciiText text)
    (isDelim : isDelim true delim = true) : Scans true (encoded ++ delim :: left) text delim left := by
  induction escaped with
  | nil => exact .stop isDelim
  | plain isPlain _ ih =>
      obtain ⟨notDelim, notPercent⟩ := not_delim_of_unreserved _ isPlain
      exact .plain notDelim notPercent (ih fun ch member => isAscii ch (List.mem_cons_of_mem _ member))
  | @escape ch first second text encoded _ isHigh isLow _ ih =>
      obtain ⟨positive, small⟩ := isAscii ch List.mem_cons_self
      have value : 16 * (ch.toNat / 16) + ch.toNat % 16 = ch.toNat := Nat.div_add_mod ch.toNat 16
      have behind := ih fun ch member => isAscii ch (List.mem_cons_of_mem _ member)
      have atLeast : 0 < 16 * (ch.toNat / 16) + ch.toNat % 16 := by
        rw [value]
        exact positive
      have atMost : 16 * (ch.toNat / 16) + ch.toNat % 16 ≤ charMax := by
        rw [value]
        exact small
      have scans := Scans.escaped isHigh isLow atLeast atMost behind
      rw [value, UInt8.ofNat_toNat] at scans
      exact scans

section RoundTrip

variable {user password host vhost : List UInt8} {url : EscapedUrl}

/-- The reading of a URL with all five components. -/
theorem readComponents_of_escaped (isUser : Escaped user url.user) (asciiUser : AsciiText user)
    (isPassword : Escaped password url.password) (asciiPassword : AsciiText password)
    (isHost : Escaped host url.host) (asciiHost : AsciiText host)
    (isPort : ∀ ch ∈ url.port, CString.isDigit ch = true)
    (isVhost : Escaped vhost url.vhost) (asciiVhost : AsciiText vhost) :
    readComponents url.ssl ((url.user ++ colon :: (url.password ++ atSign :: (url.host ++
        colon :: (url.port ++ slash :: url.vhost)))) ++ [0]) =
      some ⟨⟨url.ssl, some (user, some password), .name host, some url.port, some vhost⟩, none⟩ := by
  have plainPort : percent ∉ url.port := fun member => absurd (isPort percent member) (by decide)
  have userFound := nextDelim_eq_some.mpr (@Escaped.scans _ _ (url.password ++ atSign ::
    (url.host ++ colon :: (url.port ++ slash :: (url.vhost ++ [0])))) colon isUser asciiUser
    (by decide))
  have passwordFound := nextDelim_eq_some.mpr (@Escaped.scans _ _
    (url.host ++ colon :: (url.port ++ slash :: (url.vhost ++ [0]))) atSign isPassword asciiPassword
    (by decide))
  have hostFound := nextDelim_eq_some.mpr (@Escaped.scans _ _
    (url.port ++ slash :: (url.vhost ++ [0])) colon isHost asciiHost (by decide))
  have portFound := nextDelim_eq_some.mpr (@scans_of_free true url.port (url.vhost ++ [0]) slash
    (free_of_digits isPort) plainPort (by decide))
  have vhostFound := nextDelim_eq_some.mpr (@Escaped.scans _ _ [] 0 isVhost asciiVhost (by decide))
  have whole : (url.user ++ colon :: (url.password ++ atSign :: (url.host ++
      colon :: (url.port ++ slash :: url.vhost)))) ++ [0] = url.user ++ colon :: (url.password ++
      atSign :: (url.host ++ colon :: (url.port ++ slash :: (url.vhost ++ [0])))) := by simp
  rw [whole]
  generalize url.vhost ++ [0] = behindPort at *
  generalize url.port ++ slash :: behindPort = behindHost at *
  generalize url.host ++ colon :: behindHost = behindPassword at *
  generalize url.password ++ atSign :: behindPassword = behindUser at *
  refine readComponents_eq_some.mpr ⟨user, colon, behindUser,
    ⟨none, user, some password, atSign, behindPassword⟩,
    ⟨some (user, some password), host, none, colon, behindHost⟩,
    ⟨some (user, some password), host, none, colon, behindHost⟩,
    ⟨some (user, some password), host, some url.port, slash, behindPort⟩, ?_⟩
  exact
    { found := userFound
      stash := by
        unfold readStash UrlReading.first
        rw [if_pos rfl, passwordFound]
        rfl
      userinfo := by
        unfold readUserinfo
        rw [if_pos rfl, hostFound]
        rfl
      host := if_neg (show colon ≠ openBracket by decide)
      port := by
        unfold readPort
        rw [if_pos rfl, portFound]
        rfl
      vhost := by
        unfold readVhost
        rw [if_pos rfl, vhostFound]
        rfl
      isSsl := rfl
      isUserinfo := rfl
      isPort := rfl }

/-- The parser gives back the components of a URL. -/
theorem amqpParseUrl_of_escaped (isUser : Escaped user url.user) (asciiUser : AsciiText user)
    (isPassword : Escaped password url.password) (asciiPassword : AsciiText password)
    (isHost : Escaped host url.host) (asciiHost : AsciiText host) (named : host ≠ [])
    (ported : url.port ≠ []) (isPort : ∀ ch ∈ url.port, CString.isDigit ch = true)
    (small : CString.decimal url.port ≤ 65535) (isVhost : Escaped vhost url.vhost)
    (asciiVhost : AsciiText vhost) (parsed : ConnectionInfo) :
    Yields (amqpParseUrl ⟨url.text ++ [0], parsed⟩)
      (.ok ⟨user, password, host, vhost, CString.decimal url.port, url.ssl⟩) := by
  have read := readComponents_of_escaped isUser asciiUser isPassword asciiPassword isHost asciiHost
    isPort isVhost asciiVhost
  have number := portNumber?_of_digits ported isPort small
  have yields := @parseComponents_of_read url.ssl (schemeText url.ssl) _ _ read
  rw [if_neg (by simp [number])] at yields
  have isValue : (UrlHost.name host).value = host := by
    cases host with
    | nil => exact absurd rfl named
    | cons first rest => rfl
  unfold EscapedUrl.text
  rw [List.append_assoc, amqpParseUrl_of_scheme]
  simpa only [valuesOf, isValue, number, Option.map_some, Option.bind_some, Option.getD_some]
    using yields

end RoundTrip

/-- `amqp://a%40:b@h:10/%2f`. -/
def slashUrl : EscapedUrl where
  ssl := false
  user := ascii "a%40"
  password := ascii "b"
  host := ascii "h"
  port := ascii "10"
  vhost := ascii "%2f"

theorem amqpParseUrl_of_escaped_slash :
    Yields (amqpParseUrl ⟨slashUrl.text ++ [0], amqpDefaultConnectionInfo⟩)
      (.ok ⟨ascii "a@", ascii "b", ascii "h", ascii "/", 10, false⟩) := by
  have digits : slashUrl.port.all CString.isDigit = true := by decide
  refine amqpParseUrl_of_escaped ?_ ?_ ?_ ?_ ?_ ?_ (by decide) (by decide)
    (List.all_eq_true.mp digits) (by decide) ?_ ?_ amqpDefaultConnectionInfo
  · exact .plain (by decide) (.escape (by decide) rfl rfl .nil)
  · decide
  · exact .plain (by decide) .nil
  · decide
  · exact .plain (by decide) .nil
  · decide
  · exact .escape (by decide) rfl rfl .nil
  · decide

end RabbitmqC
