import Mathlib.Data.List.Induction
import RabbitmqC.Lib.Effect
import RabbitmqC.Status

/-!
# TLS versions

`amqp_ssl_socket_set_ssl_versions`. The options that forbid the versions are bits of the
option word of an SSL context, which keeps them from one call to the next. A window that
starts above TLS 1.2 still leaves TLS 1.2 enabled.
-/

set_option autoImplicit false

namespace RabbitmqC

open Effect

/-! ## Options of a context -/

inductive TlsVersion where
  | tlsv1 | tlsv1_1 | tlsv1_2 | tlsv1_3
  deriving DecidableEq

/-- `amqp_tls_version_t`. -/
def TlsVersion.code : TlsVersion → UInt32
  | tlsv1 => 1
  | tlsv1_1 => 2
  | tlsv1_2 => 3
  | tlsv1_3 => 4

def amqpTlsvLatest : UInt32 := 0xFFFF

/-- Where OpenSSL has `SSL_OP_NO_TLSv1` to `SSL_OP_NO_TLSv1_3` in its option words. -/
structure SslOptions where
  bit : TlsVersion → Fin 64
  distinct : Function.Injective bit

namespace SslOptions

variable (options : SslOptions)

def mask (version : TlsVersion) : BitVec 64 := BitVec.twoPow 64 (options.bit version)

/-- `clear_options`. -/
def clearOptions : BitVec 64 :=
  options.mask .tlsv1 ||| options.mask .tlsv1_1 ||| options.mask .tlsv1_2 |||
    options.mask .tlsv1_3

/-- `set_options`. -/
def setOptions (min max : UInt32) : BitVec 64 :=
  (if TlsVersion.tlsv1.code < min then options.mask .tlsv1 else 0) |||
  (if TlsVersion.tlsv1_1.code < min ∨ max < TlsVersion.tlsv1_1.code then options.mask .tlsv1_1
    else 0) |||
  (if max < TlsVersion.tlsv1_2.code then options.mask .tlsv1_2 else 0) |||
  (if max < TlsVersion.tlsv1_3.code then options.mask .tlsv1_3 else 0)

end SslOptions

/-- A function on the option word of a context. -/
abbrev Setting := EStateM Status (BitVec 64)

def sslCtxSetOptions (mask : BitVec 64) : Setting Unit := modify fun word => word ||| mask

def sslCtxClearOptions (mask : BitVec 64) : Setting Unit := modify fun word => word &&& ~~~mask

def maxSupported : UInt32 := TlsVersion.tlsv1_3.code

def resolveVersion (version : UInt32) : UInt32 :=
  if version = amqpTlsvLatest then maxSupported else version

def amqpSslSocketSetSslVersions (options : SslOptions) (min max : UInt32) : Setting Unit := do
  let max := resolveVersion max
  let min := resolveVersion min
  if max < min then
    throw .invalidParameter
  else if maxSupported < max ∨ maxSupported < min then
    throw .unsupported
  else do
    sslCtxClearOptions options.clearOptions
    sslCtxSetOptions (options.setOptions min max)

/-! ## One call -/

/-- The versions that `set_options` forbids. -/
def TlsVersion.Forbidden (min max : UInt32) : TlsVersion → Prop
  | tlsv1 => tlsv1.code < min
  | tlsv1_1 => tlsv1_1.code < min ∨ max < tlsv1_1.code
  | tlsv1_2 => max < tlsv1_2.code
  | tlsv1_3 => max < tlsv1_3.code

namespace SslOptions

variable (options : SslOptions)

theorem getLsbD_mask (version : TlsVersion) (bit : Nat) :
    (options.mask version).getLsbD bit = decide ((options.bit version).val = bit) := by
  simp [mask, BitVec.getLsbD_twoPow]

theorem getLsbD_clearOptions (version : TlsVersion) :
    options.clearOptions.getLsbD (options.bit version) = true := by
  cases version <;> simp [clearOptions, getLsbD_mask]

theorem getLsbD_setOptions (min max : UInt32) (version : TlsVersion) :
    (options.setOptions min max).getLsbD (options.bit version) = true ↔
      version.Forbidden min max := by
  have alone (other : TlsVersion) : (options.mask other).getLsbD (options.bit version) =
      decide (other = version) := by
    rw [getLsbD_mask]
    exact decide_eq_decide.mpr ⟨fun same => options.distinct (Fin.ext same), fun same => same ▸ rfl⟩
  have chosen (other : TlsVersion) (condition : Prop) [Decidable condition] :
      (if condition then options.mask other else 0).getLsbD (options.bit version) =
        (decide condition && decide (other = version)) := by
    split
    · rw [alone, decide_eq_true ‹condition›, Bool.true_and]
    · simp [*]
  simp only [setOptions, BitVec.getLsbD_or, chosen]
  cases version <;> simp [TlsVersion.Forbidden]

/-- The other options. -/
def Other (bit : Nat) : Prop := ∀ version, (options.bit version).val ≠ bit

variable {options} in
theorem Other.getLsbD_clearOptions {bit : Nat} (other : options.Other bit) :
    options.clearOptions.getLsbD bit = false := by
  simp [clearOptions, getLsbD_mask, other _]

variable {options} in
theorem Other.getLsbD_setOptions {bit : Nat} (other : options.Other bit) (min max : UInt32) :
    (options.setOptions min max).getLsbD bit = false := by
  have none (version : TlsVersion) (condition : Prop) [Decidable condition] :
      (if condition then options.mask version else 0).getLsbD bit = false := by
    split
    · simp [getLsbD_mask, other version]
    · simp
  simp only [setOptions, BitVec.getLsbD_or, none, Bool.or_false]

end SslOptions

/-- The windows that are accepted. -/
def AcceptableWindow (min max : UInt32) : Prop :=
  resolveVersion min ≤ resolveVersion max ∧ resolveVersion max ≤ maxSupported

instance (min max : UInt32) : Decidable (AcceptableWindow min max) :=
  inferInstanceAs (Decidable (_ ∧ _))

section Calls

variable {options : SslOptions} {min max : UInt32}

/-- The word after an accepted call. -/
def SslOptions.narrowed (options : SslOptions) (min max : UInt32) (word : BitVec 64) :
    BitVec 64 :=
  (word &&& ~~~options.clearOptions) |||
    options.setOptions (resolveVersion min) (resolveVersion max)

theorem AcceptableWindow.run (acceptable : AcceptableWindow min max) (word : BitVec 64) :
    amqpSslSocketSetSslVersions options min max word = .ok () (options.narrowed min max word) := by
  have ordered : ¬ resolveVersion max < resolveVersion min := UInt32.not_lt.mpr acceptable.1
  have supported : ¬ (maxSupported < resolveVersion max ∨ maxSupported < resolveVersion min) := by
    intro above
    cases above with
    | inl above => exact UInt32.not_lt.mpr acceptable.2 above
    | inr above => exact UInt32.not_lt.mpr (UInt32.le_trans acceptable.1 acceptable.2) above
  unfold amqpSslSocketSetSslVersions
  simp only [if_neg ordered, if_neg supported]
  rfl

/-- A call that is rejected changes nothing. -/
theorem run_of_not_acceptable (rejected : ¬ AcceptableWindow min max) (word : BitVec 64) :
    ∃ status, amqpSslSocketSetSslVersions options min max word = .error status word := by
  unfold amqpSslSocketSetSslVersions
  by_cases ordered : resolveVersion max < resolveVersion min
  · simp only [if_pos ordered]
    exact ⟨_, rfl⟩
  · have above : maxSupported < resolveVersion max := by
      refine UInt32.not_le.mp fun supported => rejected ⟨UInt32.not_lt.mp ordered, supported⟩
    simp only [if_neg ordered, if_pos (Or.inl above : _ ∨ _)]
    exact ⟨_, rfl⟩

/-- The options do not forbid a version. -/
def SslOptions.Enabled (options : SslOptions) (word : BitVec 64) (version : TlsVersion) : Prop :=
  word.getLsbD (options.bit version) = false

theorem enabled_narrowed (word : BitVec 64) (version : TlsVersion) :
    options.Enabled (options.narrowed min max word) version ↔
      ¬ version.Forbidden (resolveVersion min) (resolveVersion max) := by
  unfold SslOptions.Enabled SslOptions.narrowed
  simp only [BitVec.getLsbD_or, BitVec.getLsbD_and, BitVec.getLsbD_not, Bool.not_true,
    options.getLsbD_clearOptions, ← options.getLsbD_setOptions, Bool.and_false, Bool.false_or,
    Bool.not_eq_true]

theorem SslOptions.Other.narrowed {bit : Nat} (other : options.Other bit) (word : BitVec 64) :
    (options.narrowed min max word).getLsbD bit = word.getLsbD bit := by
  unfold SslOptions.narrowed
  by_cases inside : bit < 64
  · simp only [BitVec.getLsbD_or, BitVec.getLsbD_and, BitVec.getLsbD_not, inside, decide_true,
      other.getLsbD_clearOptions, other.getLsbD_setOptions, Bool.not_false, Bool.and_true,
      Bool.or_false]
  · simp [BitVec.getLsbD_of_ge _ _ (Nat.le_of_not_lt inside)]

/-- A version is in the window of a call. -/
def TlsVersion.Within (min max : UInt32) (version : TlsVersion) : Prop :=
  resolveVersion min ≤ version.code ∧ version.code ≤ resolveVersion max

/-- What is left enabled is the window if it starts at TLS 1.2 at the latest. -/
theorem enabled_iff_within (acceptable : AcceptableWindow min max) (word : BitVec 64) :
    (∀ version, options.Enabled (options.narrowed min max word) version ↔
      version.Within min max) ↔
    resolveVersion min ≤ TlsVersion.tlsv1_2.code ∧ TlsVersion.tlsv1.code ≤ resolveVersion max := by
  obtain ⟨ordered, supported⟩ := acceptable
  simp only [enabled_narrowed, TlsVersion.Within]
  generalize resolveVersion min = min at *
  generalize resolveVersion max = max at *
  simp only [maxSupported, TlsVersion.code, UInt32.le_iff_toNat_le] at *
  constructor
  · intro exactly
    have first := exactly .tlsv1
    have third := exactly .tlsv1_2
    simp only [TlsVersion.Forbidden, TlsVersion.code, UInt32.lt_iff_toNat_lt] at first third
    constructor <;> grind
  · intro inside version
    cases version <;>
      simp only [TlsVersion.Forbidden, TlsVersion.code, UInt32.lt_iff_toNat_lt] <;> grind

end Calls

/-! ## Runs -/

/-- The options of a context, and the window that was accepted last. -/
structure SslContext where
  word : BitVec 64
  accepted : Option (UInt32 × UInt32)

namespace SslContext

def set (options : SslOptions) (context : SslContext) (call : UInt32 × UInt32) : SslContext :=
  match amqpSslSocketSetSslVersions options call.1 call.2 context.word with
  | .ok _ word => ⟨word, some call⟩
  | .error _ word => ⟨word, context.accepted⟩

/-- A context after calls. -/
def after (options : SslOptions) (initial : BitVec 64) (calls : List (UInt32 × UInt32)) :
    SslContext :=
  calls.foldl (set options) ⟨initial, none⟩

end SslContext

/-- The last of the calls whose window is acceptable. -/
def lastAcceptable (calls : List (UInt32 × UInt32)) : Option (UInt32 × UInt32) :=
  calls.reverse.find? fun call => AcceptableWindow call.1 call.2

section Runs

variable {options : SslOptions} {initial : BitVec 64} {calls : List (UInt32 × UInt32)}
  {call : UInt32 × UInt32}

theorem SslContext.after_concat : SslContext.after options initial (calls ++ [call]) =
    (SslContext.after options initial calls).set options call := by
  simp [SslContext.after]

theorem SslContext.set_of_acceptable (acceptable : AcceptableWindow call.1 call.2)
    (context : SslContext) : context.set options call =
      ⟨options.narrowed call.1 call.2 context.word, some call⟩ := by
  simp only [SslContext.set, acceptable.run]

theorem SslContext.set_of_not_acceptable (rejected : ¬ AcceptableWindow call.1 call.2)
    (context : SslContext) : context.set options call = context := by
  obtain ⟨status, unchanged⟩ := @run_of_not_acceptable options _ _ rejected context.word
  simp only [SslContext.set, unchanged]

theorem lastAcceptable_concat : lastAcceptable (calls ++ [call]) =
    if AcceptableWindow call.1 call.2 then some call else lastAcceptable calls := by
  unfold lastAcceptable
  rw [List.reverse_concat, List.find?_cons]
  by_cases acceptable : AcceptableWindow call.1 call.2 <;> simp [acceptable]

theorem SslContext.accepted_after :
    (SslContext.after options initial calls).accepted = lastAcceptable calls := by
  induction calls using List.reverseRecOn with
  | nil => rfl
  | append_singleton calls call ih =>
      rw [after_concat, lastAcceptable_concat]
      by_cases acceptable : AcceptableWindow call.1 call.2
      · rw [set_of_acceptable acceptable, if_pos acceptable]
      · rw [set_of_not_acceptable acceptable, if_neg acceptable, ih]

/-- The word is what the accepted call has made of one before. -/
theorem SslContext.word_after (isLast : lastAcceptable calls = some call) :
    AcceptableWindow call.1 call.2 ∧ ∃ word, (SslContext.after options initial calls).word =
      options.narrowed call.1 call.2 word := by
  induction calls using List.reverseRecOn with
  | nil => cases isLast
  | append_singleton calls other ih =>
      rw [lastAcceptable_concat] at isLast
      rw [after_concat]
      by_cases acceptable : AcceptableWindow other.1 other.2
      · rw [if_pos acceptable] at isLast
        cases isLast
        rw [set_of_acceptable acceptable]
        exact ⟨acceptable, _, rfl⟩
      · rw [if_neg acceptable] at isLast
        rw [set_of_not_acceptable acceptable]
        exact ih isLast

theorem SslOptions.Other.word_after {bit : Nat} (other : options.Other bit) :
    (SslContext.after options initial calls).word.getLsbD bit = initial.getLsbD bit := by
  induction calls using List.reverseRecOn with
  | nil => rfl
  | append_singleton calls call ih =>
      rw [SslContext.after_concat]
      by_cases acceptable : AcceptableWindow call.1 call.2
      · rw [SslContext.set_of_acceptable acceptable, other.narrowed, ih]
      · rw [SslContext.set_of_not_acceptable acceptable, ih]

end Runs

/-- The options forbid what is outside of the window that was accepted last. Nothing but an
accepted call changes them, and the other options stay. -/
structure KeepsWindow (options : SslOptions) (initial : BitVec 64)
    (calls : List (UInt32 × UInt32)) : Prop where
  window : ∀ min max, (SslContext.after options initial calls).accepted = some (min, max) →
    ∀ version, options.Enabled (SslContext.after options initial calls).word version ↔
      version.Within min max
  rejected : ∀ past min max later status word, calls = past ++ (min, max) :: later →
    amqpSslSocketSetSslVersions options min max (SslContext.after options initial past).word =
      .error status word → word = (SslContext.after options initial past).word
  others : ∀ bit, options.Other bit →
    (SslContext.after options initial calls).word.getLsbD bit = initial.getLsbD bit

/-- A window is kept unless it leaves out TLS 1.2 because it starts with TLS 1.3, or lies
below TLS 1.0. -/
theorem keepsWindow_iff (options : SslOptions) (initial : BitVec 64)
    (calls : List (UInt32 × UInt32)) : KeepsWindow options initial calls ↔
      ∀ min max, lastAcceptable calls = some (min, max) →
        resolveVersion min ≤ TlsVersion.tlsv1_2.code ∧
          TlsVersion.tlsv1.code ≤ resolveVersion max := by
  constructor
  · intro keeps min max isLast
    obtain ⟨acceptable, word, narrowed⟩ := @SslContext.word_after options initial _ _ isLast
    have window := keeps.window min max (SslContext.accepted_after.trans isLast)
    rw [narrowed] at window
    exact (enabled_iff_within acceptable word).mp window
  · intro inside
    refine ⟨fun min max accepted => ?_, ?_, fun bit other => other.word_after⟩
    · have isLast := SslContext.accepted_after.symm.trans accepted
      obtain ⟨acceptable, word, narrowed⟩ := @SslContext.word_after options initial _ _ isLast
      rw [narrowed]
      exact (enabled_iff_within acceptable word).mpr (inside min max isLast)
    · intro past min max later status word _ fails
      by_cases acceptable : AcceptableWindow min max
      · rw [acceptable.run] at fails
        cases fails
      · obtain ⟨_, unchanged⟩ := @run_of_not_acceptable options _ _ acceptable
          (SslContext.after options initial past).word
        cases unchanged.symm.trans fails
        rfl

/-- Where OpenSSL 1.1.1 and later have these options. -/
def opensslOptions : SslOptions where
  bit
    | .tlsv1 => 26
    | .tlsv1_1 => 28
    | .tlsv1_2 => 27
    | .tlsv1_3 => 29
  distinct := by
    intro version other same
    cases version <;> cases other <;> first | rfl | cases same

/-- TLS 1.3 alone is asked for, and TLS 1.2 stays enabled. -/
theorem tlsv1_3_keeps_tlsv1_2 : ¬ KeepsWindow opensslOptions 0
    [(TlsVersion.tlsv1_3.code, TlsVersion.tlsv1_3.code)] := by
  intro keeps
  have enabled := (keeps.window _ _ rfl .tlsv1_2).mp (by unfold SslOptions.Enabled; decide)
  exact absurd enabled.1 (by decide)

end RabbitmqC
