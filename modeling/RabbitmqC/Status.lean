import Mathlib.Tactic.Linarith
import Mathlib.Tactic.Ring

/-!
# Status codes and undefined behaviour

The negative values of `amqp_status_enum` and `amqp_status_private_enum`. A C
function that returns `AMQP_STATUS_OK` or one of them is modelled by `Except`.
-/

set_option autoImplicit false

namespace RabbitmqC

inductive Status where
  | noMemory | badAmqpData | unknownClass | unknownMethod | hostnameResolutionFailed
  | incompatibleAmqpVersion | connectionClosed | badUrl | socketError | invalidParameter
  | tableTooBig | wrongMethod | timeout | timerFailure | heartbeatTimeout | unexpectedState
  | socketClosed | socketInuse | brokerUnsupportedSaslMethod | unsupported
  | tcpError | tcpSocketlibInitError
  | sslError | sslHostnameVerifyFailed | sslPeerVerifyFailed | sslConnectionFailed
  | sslSetEngineFailed
  | privateSocketNeedread | privateSocketNeedwrite
  /-- A negative number that is none of these and was returned as a status. -/
  | other (code : Int)
  deriving DecidableEq, Repr

namespace Status

def code : Status → Int
  | noMemory => -0x0001
  | badAmqpData => -0x0002
  | unknownClass => -0x0003
  | unknownMethod => -0x0004
  | hostnameResolutionFailed => -0x0005
  | incompatibleAmqpVersion => -0x0006
  | connectionClosed => -0x0007
  | badUrl => -0x0008
  | socketError => -0x0009
  | invalidParameter => -0x000A
  | tableTooBig => -0x000B
  | wrongMethod => -0x000C
  | timeout => -0x000D
  | timerFailure => -0x000E
  | heartbeatTimeout => -0x000F
  | unexpectedState => -0x0010
  | socketClosed => -0x0011
  | socketInuse => -0x0012
  | brokerUnsupportedSaslMethod => -0x0013
  | unsupported => -0x0014
  | tcpError => -0x0100
  | tcpSocketlibInitError => -0x0101
  | sslError => -0x0200
  | sslHostnameVerifyFailed => -0x0201
  | sslPeerVerifyFailed => -0x0202
  | sslConnectionFailed => -0x0203
  | sslSetEngineFailed => -0x0204
  | privateSocketNeedread => -0x1301
  | privateSocketNeedwrite => -0x1302
  | other code => code

def named : List Status :=
  [noMemory, badAmqpData, unknownClass, unknownMethod, hostnameResolutionFailed,
    incompatibleAmqpVersion, connectionClosed, badUrl, socketError, invalidParameter, tableTooBig,
    wrongMethod, timeout, timerFailure, heartbeatTimeout, unexpectedState, socketClosed,
    socketInuse, brokerUnsupportedSaslMethod, unsupported, tcpError, tcpSocketlibInitError,
    sslError, sslHostnameVerifyFailed, sslPeerVerifyFailed, sslConnectionFailed,
    sslSetEngineFailed, privateSocketNeedread, privateSocketNeedwrite]

/-- What a caller takes a negative number for. -/
def ofCode (code : Int) : Status :=
  (named.find? fun status => status.code == code).getD (.other code)

end Status

/-- What C leaves undefined, or what ends the process. The last one is no
behaviour of the program: a recursion was given less fuel than it needs. -/
inductive Fault where
  | outOfBoundsRead
  | outOfBoundsWrite
  /-- A struct is read as another type, or before it was filled in. -/
  | wrongObject
  /-- A shift by the width of the shifted type or more. -/
  | shiftOverflow
  /-- An `int` is set to a number that it cannot hold. -/
  | signedOverflow
  /-- `amqp_abort` was called. -/
  | abort
  | outOfFuel
  deriving DecidableEq, Repr

/-- Why a codec function does not return success. -/
inductive Failure where
  | status (status : Status)
  | fault (fault : Fault)
  deriving DecidableEq, Repr

/-! ## Sizes

`size_t` is 64 bits wide. -/

/-- `a + b` in `size_t`. -/
def sizeAdd (a b : Nat) : Nat := (a + b) % 2 ^ 64

/-- `a - b` in `size_t`. -/
def sizeSub (a b : Nat) : Nat := (2 ^ 64 + a - b) % 2 ^ 64

/-- Conversion of an `int` to `size_t`. -/
def sizeOfInt (value : Int) : Nat := (value % 2 ^ 64).toNat

/-- Conversion of a `size_t` to `int`, as two's complement narrowing. -/
def intOfSize (value : Nat) : Int := (value : Int).bmod (2 ^ 32)

theorem sizeAdd_of_lt {a b : Nat} (small : a + b < 2 ^ 64) : sizeAdd a b = a + b :=
  Nat.mod_eq_of_lt small

theorem sizeSub_of_le {a b : Nat} (ordered : b ≤ a) (small : a < 2 ^ 64) :
    sizeSub a b = a - b := by
  unfold sizeSub
  omega

theorem intOfSize_of_lt {value : Nat} (small : value < 2 ^ 31) : intOfSize value = value := by
  unfold intOfSize
  rw [Int.bmod_eq_of_le] <;> omega

theorem sizeOfInt_of_nonneg {value : Int} (nonneg : 0 ≤ value) (small : value < 2 ^ 31) :
    sizeOfInt value = value.toNat := by
  unfold sizeOfInt
  rw [Int.emod_eq_of_lt nonneg (by omega)]

theorem sizeOfInt_natCast {count : Nat} (small : count < 2 ^ 31) :
    sizeOfInt (count : Int) = count :=
  sizeOfInt_of_nonneg (Int.natCast_nonneg count) (by exact_mod_cast small)

end RabbitmqC
