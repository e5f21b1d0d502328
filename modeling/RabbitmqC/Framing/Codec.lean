import RabbitmqC.Table.Basic

/-!
# Methods and content properties

The generated codecs of `amqp_framing.c`. Every case of its `switch` statements
encodes or decodes the fields of one struct in order, so a case is given by the
domains of its fields, and one encoder and one decoder serve all of them.
-/

set_option autoImplicit false

namespace RabbitmqC

/-! ## Fields -/

/-- The types of method arguments and of properties. Adjacent bits share an octet. -/
inductive Domain where
  | octet | short | long | longlong | shortstr | longstr
  | bits (count : Fin 9)
  | table
  deriving DecidableEq, Repr

/-- The struct member, or members, of a domain. -/
def Domain.Value : Domain → Type
  | .octet => UInt8
  | .short => UInt16
  | .long => UInt32
  | .longlong => UInt64
  | .shortstr => List UInt8
  | .longstr => List UInt8
  | .bits count => { flags : List Int32 // flags.length = count }
  | .table => Table

/-- The members of a struct. -/
def Fields : List Domain → Type
  | [] => Unit
  | domain :: domains => domain.Value × Fields domains

/-- `UINT8_MAX` and `UINT32_MAX`. -/
def uint8Max : Nat := 255
def uint32Max : Nat := 2 ^ 32 - 1

/-- `bit_buffer` after the flags from number `index` on. -/
def packBits (index : Nat) (buffer : UInt8) : List Int32 → UInt8
  | [] => buffer
  | flag :: flags =>
      packBits (index + 1) (if flag ≠ 0 then buffer ||| UInt8.ofNat (2 ^ index) else buffer) flags

/-- The `count` flags from number `index` on in `bit_buffer`. -/
def unpackBits (buffer : UInt8) : Nat → Nat → List Int32
  | _, 0 => []
  | index, count + 1 =>
      (if buffer &&& UInt8.ofNat (2 ^ index) ≠ 0 then 1 else 0) ::
        unpackBits buffer (index + 1) count

@[simp] theorem length_unpackBits (buffer : UInt8) (index count : Nat) :
    (unpackBits buffer index count).length = count := by
  induction count generalizing index with
  | zero => rfl
  | succ count ih => simp only [unpackBits, List.length_cons, ih]

def encodeShortstr (view : View) (value : List UInt8) : Encoder Unit := do
  if uint8Max < value.length then
    throw (.status .badAmqpData)
  else do
    (amqpEncode8 view (UInt8.ofNat value.length)).orFail .badAmqpData
    (amqpEncodeBytes view value).orFail .badAmqpData

def encodeLongstr (view : View) (value : List UInt8) : Encoder Unit := do
  if uint32Max < value.length then
    throw (.status .badAmqpData)
  else do
    (amqpEncode32 view (UInt32.ofNat value.length)).orFail .badAmqpData
    (amqpEncodeBytes view value).orFail .badAmqpData

def decodeShortstr (encoded : Encoded) : Decoder (List UInt8) := do
  let len ← (amqpDecode8 encoded).orBad
  (amqpDecodeBytes encoded len.toNat).orBad

def decodeLongstr (encoded : Encoded) : Decoder (List UInt8) := do
  let len ← (amqpDecode32 encoded).orBad
  (amqpDecodeBytes encoded len.toNat).orBad

def encodeField (view : View) : (domain : Domain) → domain.Value → Encoder Unit
  | .octet, value => (amqpEncode8 view value).orFail .badAmqpData
  | .short, value => (amqpEncode16 view value).orFail .badAmqpData
  | .long, value => (amqpEncode32 view value).orFail .badAmqpData
  | .longlong, value => (amqpEncode64 view value).orFail .badAmqpData
  | .shortstr, value => encodeShortstr view value
  | .longstr, value => encodeLongstr view value
  | .bits _, value => (amqpEncode8 view (packBits 0 0 (Subtype.val value))).orFail .badAmqpData
  | .table, value => amqpEncodeTable view value

def decodeField (encoded : Encoded) : (domain : Domain) → Decoder domain.Value
  | .octet => (amqpDecode8 encoded).orBad
  | .short => (amqpDecode16 encoded).orBad
  | .long => (amqpDecode32 encoded).orBad
  | .longlong => (amqpDecode64 encoded).orBad
  | .shortstr => decodeShortstr encoded
  | .longstr => decodeLongstr encoded
  | .bits count =>
      (fun buffer => ⟨unpackBits buffer 0 count, length_unpackBits buffer 0 count⟩) <$>
        (amqpDecode8 encoded).orBad
  | .table => amqpDecodeTable encoded

def encodeFields (view : View) : (domains : List Domain) → Fields domains → Encoder Unit
  | [], _ => return
  | domain :: domains, (value, values) => do
      encodeField view domain value
      encodeFields view domains values

def decodeFields (encoded : Encoded) : (domains : List Domain) → Decoder (Fields domains)
  | [] => return ()
  | domain :: domains => do
      let value ← decodeField encoded domain
      let values ← decodeFields encoded domains
      return (value, values)

/-- Run an encoder from offset 0, as the generated functions do, and return the
offset it reached. The caller's state is the memory alone. -/
def fromStart (encode : Encoder Unit) : EStateM Failure Buffer Nat := fun mem =>
  match encode ⟨mem, 0⟩ with
  | .ok () state => .ok state.offset state.mem
  | .error failure state => .error failure state.mem

/-! ## Methods -/

/-- The method numbers of `framing.h`, each with the members of its struct. -/
def methodTable : List (UInt32 × List Domain) :=
  [ -- connection_start: version_major, version_minor, server_properties, mechanisms, locales
    (0x000A000A, [.octet, .octet, .table, .longstr, .longstr]),
    -- connection_start_ok: client_properties, mechanism, response, locale
    (0x000A000B, [.table, .shortstr, .longstr, .shortstr]),
    -- connection_secure: challenge
    (0x000A0014, [.longstr]),
    -- connection_secure_ok: response
    (0x000A0015, [.longstr]),
    -- connection_tune: channel_max, frame_max, heartbeat
    (0x000A001E, [.short, .long, .short]),
    -- connection_tune_ok: channel_max, frame_max, heartbeat
    (0x000A001F, [.short, .long, .short]),
    -- connection_open: virtual_host, capabilities, insist
    (0x000A0028, [.shortstr, .shortstr, .bits 1]),
    -- connection_open_ok: known_hosts
    (0x000A0029, [.shortstr]),
    -- connection_close: reply_code, reply_text, class_id, method_id
    (0x000A0032, [.short, .shortstr, .short, .short]),
    -- connection_close_ok
    (0x000A0033, []),
    -- connection_blocked: reason
    (0x000A003C, [.shortstr]),
    -- connection_unblocked
    (0x000A003D, []),
    -- connection_update_secret: new_secret, reason
    (0x000A0046, [.longstr, .shortstr]),
    -- connection_update_secret_ok
    (0x000A0047, []),
    -- channel_open: out_of_band
    (0x0014000A, [.shortstr]),
    -- channel_open_ok: channel_id
    (0x0014000B, [.longstr]),
    -- channel_flow: active
    (0x00140014, [.bits 1]),
    -- channel_flow_ok: active
    (0x00140015, [.bits 1]),
    -- channel_close: reply_code, reply_text, class_id, method_id
    (0x00140028, [.short, .shortstr, .short, .short]),
    -- channel_close_ok
    (0x00140029, []),
    -- access_request: realm, exclusive, passive, active, write, read
    (0x001E000A, [.shortstr, .bits 5]),
    -- access_request_ok: ticket
    (0x001E000B, [.short]),
    -- exchange_declare: ticket, exchange, type, passive, durable, auto_delete, internal, nowait,
    --   arguments
    (0x0028000A, [.short, .shortstr, .shortstr, .bits 5, .table]),
    -- exchange_declare_ok
    (0x0028000B, []),
    -- exchange_delete: ticket, exchange, if_unused, nowait
    (0x00280014, [.short, .shortstr, .bits 2]),
    -- exchange_delete_ok
    (0x00280015, []),
    -- exchange_bind: ticket, destination, source, routing_key, nowait, arguments
    (0x0028001E, [.short, .shortstr, .shortstr, .shortstr, .bits 1, .table]),
    -- exchange_bind_ok
    (0x0028001F, []),
    -- exchange_unbind: ticket, destination, source, routing_key, nowait, arguments
    (0x00280028, [.short, .shortstr, .shortstr, .shortstr, .bits 1, .table]),
    -- exchange_unbind_ok
    (0x00280033, []),
    -- queue_declare: ticket, queue, passive, durable, exclusive, auto_delete, nowait, arguments
    (0x0032000A, [.short, .shortstr, .bits 5, .table]),
    -- queue_declare_ok: queue, message_count, consumer_count
    (0x0032000B, [.shortstr, .long, .long]),
    -- queue_bind: ticket, queue, exchange, routing_key, nowait, arguments
    (0x00320014, [.short, .shortstr, .shortstr, .shortstr, .bits 1, .table]),
    -- queue_bind_ok
    (0x00320015, []),
    -- queue_purge: ticket, queue, nowait
    (0x0032001E, [.short, .shortstr, .bits 1]),
    -- queue_purge_ok: message_count
    (0x0032001F, [.long]),
    -- queue_delete: ticket, queue, if_unused, if_empty, nowait
    (0x00320028, [.short, .shortstr, .bits 3]),
    -- queue_delete_ok: message_count
    (0x00320029, [.long]),
    -- queue_unbind: ticket, queue, exchange, routing_key, arguments
    (0x00320032, [.short, .shortstr, .shortstr, .shortstr, .table]),
    -- queue_unbind_ok
    (0x00320033, []),
    -- basic_qos: prefetch_size, prefetch_count, global
    (0x003C000A, [.long, .short, .bits 1]),
    -- basic_qos_ok
    (0x003C000B, []),
    -- basic_consume: ticket, queue, consumer_tag, no_local, no_ack, exclusive, nowait, arguments
    (0x003C0014, [.short, .shortstr, .shortstr, .bits 4, .table]),
    -- basic_consume_ok: consumer_tag
    (0x003C0015, [.shortstr]),
    -- basic_cancel: consumer_tag, nowait
    (0x003C001E, [.shortstr, .bits 1]),
    -- basic_cancel_ok: consumer_tag
    (0x003C001F, [.shortstr]),
    -- basic_publish: ticket, exchange, routing_key, mandatory, immediate
    (0x003C0028, [.short, .shortstr, .shortstr, .bits 2]),
    -- basic_return: reply_code, reply_text, exchange, routing_key
    (0x003C0032, [.short, .shortstr, .shortstr, .shortstr]),
    -- basic_deliver: consumer_tag, delivery_tag, redelivered, exchange, routing_key
    (0x003C003C, [.shortstr, .longlong, .bits 1, .shortstr, .shortstr]),
    -- basic_get: ticket, queue, no_ack
    (0x003C0046, [.short, .shortstr, .bits 1]),
    -- basic_get_ok: delivery_tag, redelivered, exchange, routing_key, message_count
    (0x003C0047, [.longlong, .bits 1, .shortstr, .shortstr, .long]),
    -- basic_get_empty: cluster_id
    (0x003C0048, [.shortstr]),
    -- basic_ack: delivery_tag, multiple
    (0x003C0050, [.longlong, .bits 1]),
    -- basic_reject: delivery_tag, requeue
    (0x003C005A, [.longlong, .bits 1]),
    -- basic_recover_async: requeue
    (0x003C0064, [.bits 1]),
    -- basic_recover: requeue
    (0x003C006E, [.bits 1]),
    -- basic_recover_ok
    (0x003C006F, []),
    -- basic_nack: delivery_tag, multiple, requeue
    (0x003C0078, [.longlong, .bits 2]),
    -- tx_select
    (0x005A000A, []),
    -- tx_select_ok
    (0x005A000B, []),
    -- tx_commit
    (0x005A0014, []),
    -- tx_commit_ok
    (0x005A0015, []),
    -- tx_rollback
    (0x005A001E, []),
    -- tx_rollback_ok
    (0x005A001F, []),
    -- confirm_select: nowait
    (0x0055000A, [.bits 1]),
    -- confirm_select_ok
    (0x0055000B, [])]

/-- The members of the struct of a method; `none` for the `default` case. -/
def methodArguments (methodNumber : UInt32) : Option (List Domain) :=
  methodTable.lookup methodNumber

/-- The members of a struct, if there is one. -/
def DeclaredFields : Option (List Domain) → Type
  | some domains => Fields domains
  | none => Unit

/-- What `decoded` points to for a method number. -/
abbrev MethodFields (methodNumber : UInt32) : Type := DeclaredFields (methodArguments methodNumber)

def encodeDeclared (view : View) :
    (declared : Option (List Domain)) → DeclaredFields declared → Encoder Unit
  | some domains, fields => encodeFields view domains fields
  | none, _ => throw (.status .unknownMethod)

def decodeDeclared (encoded : Encoded) :
    (declared : Option (List Domain)) → Decoder (DeclaredFields declared)
  | some domains => do
      if ← allocate then
        decodeFields encoded domains
      else
        throw (.status .noMemory)
  | none => throw (.status .unknownMethod)

def amqpEncodeMethod (methodNumber : UInt32) (decoded : MethodFields methodNumber)
    (view : View) : EStateM Failure Buffer Nat :=
  fromStart (encodeDeclared view (methodArguments methodNumber) decoded)

def amqpDecodeMethod (methodNumber : UInt32) (encoded : Encoded) :
    Decoder (MethodFields methodNumber) :=
  decodeDeclared encoded (methodArguments methodNumber)

/-! ## Properties -/

/-- A property: the number of its flag bit and its domain. -/
structure Property where
  bit : Nat
  domain : Domain

/-- The properties of a class; `none` for the `default` case. -/
def classProperties (classId : UInt16) : Option (List Property) :=
  if classId = 60 then
    some
      [ -- content_type, content_encoding, headers, delivery_mode, priority
        ⟨15, .shortstr⟩, ⟨14, .shortstr⟩, ⟨13, .table⟩, ⟨12, .octet⟩, ⟨11, .octet⟩,
        -- correlation_id, reply_to, expiration, message_id, timestamp
        ⟨10, .shortstr⟩, ⟨9, .shortstr⟩, ⟨8, .shortstr⟩, ⟨7, .shortstr⟩, ⟨6, .longlong⟩,
        -- type, user_id, app_id, cluster_id
        ⟨5, .shortstr⟩, ⟨4, .shortstr⟩, ⟨3, .shortstr⟩, ⟨2, .shortstr⟩]
  else if classId ∈ [10, 20, 30, 40, 50, 90, 85] then
    some []
  else
    none

/-- The members of a properties struct, each possibly not filled in. -/
def PropertyFields : List Property → Type
  | [] => Unit
  | property :: properties => Option property.domain.Value × PropertyFields properties

def DeclaredProperties : Option (List Property) → Type
  | some properties => PropertyFields properties
  | none => Unit

/-- What `decoded` points to for a class: the flags come first in every struct. -/
structure Properties (classId : UInt16) where
  flags : UInt32
  fields : DeclaredProperties (classProperties classId)

/-- `flags & AMQP_…_FLAG`. -/
def flagged (flags : UInt32) (property : Property) : Bool :=
  flags &&& UInt32.ofNat (2 ^ property.bit) ≠ 0

/-- The loop over `remaining_flags`. A 32-bit value has at most two words of flags. -/
def encodeFlagWords (view : View) : Nat → UInt32 → Encoder Unit
  | 0, _ => return
  | turns + 1, remainingFlags => do
      let remainder := remainingFlags >>> 16
      let word := remainingFlags.toUInt16 &&& 0xFFFE
      let word := if remainder ≠ 0 then word ||| 1 else word
      (amqpEncode16 view word).orFail .badAmqpData
      if remainder ≠ 0 then
        encodeFlagWords view turns remainder
      else
        return

/-- The loop over the flag words. The third one would be shifted by the whole
width of an `int`. -/
def decodeFlagWords (encoded : Encoded) : Nat → Nat → UInt32 → Decoder UInt32
  | 0, _, _ => do
      let _ ← (amqpDecode16 encoded).orBad
      throw (.fault .shiftOverflow)
  | turns + 1, flagwordIndex, flags => do
      let word ← (amqpDecode16 encoded).orBad
      let flags := flags ||| word.toUInt32 <<< UInt32.ofNat (flagwordIndex * 16)
      if word &&& 1 ≠ 0 then
        decodeFlagWords encoded turns (flagwordIndex + 1) flags
      else
        return flags

/-- The `if` of one property. -/
def encodeProperty (view : View) (flags : UInt32) (property : Property) :
    Option property.domain.Value → Encoder Unit
  | some value => if flagged flags property then encodeField view property.domain value else return
  | none => if flagged flags property then throw (.fault .wrongObject) else return

def decodeProperty (encoded : Encoded) (flags : UInt32) (property : Property) :
    Decoder (Option property.domain.Value) :=
  if flagged flags property then some <$> decodeField encoded property.domain else return none

def encodeProperties (view : View) (flags : UInt32) :
    (properties : List Property) → PropertyFields properties → Encoder Unit
  | [], _ => return
  | property :: properties, (field, fields) => do
      encodeProperty view flags property field
      encodeProperties view flags properties fields

def decodeProperties (encoded : Encoded) (flags : UInt32) :
    (properties : List Property) → Decoder (PropertyFields properties)
  | [] => return ()
  | property :: properties => do
      let field ← decodeProperty encoded flags property
      let fields ← decodeProperties encoded flags properties
      return (field, fields)

def encodeDeclaredProperties (view : View) (flags : UInt32) :
    (declared : Option (List Property)) → DeclaredProperties declared → Encoder Unit
  | some properties, fields => encodeProperties view flags properties fields
  | none, _ => throw (.status .unknownClass)

def decodeDeclaredProperties (encoded : Encoded) (flags : UInt32) :
    (declared : Option (List Property)) → Decoder (DeclaredProperties declared)
  | some properties => do
      if ← allocate then
        decodeProperties encoded flags properties
      else
        throw (.status .noMemory)
  | none => throw (.status .unknownClass)

def amqpEncodeProperties (classId : UInt16) (decoded : Properties classId) (view : View) :
    EStateM Failure Buffer Nat :=
  fromStart do
    encodeFlagWords view 2 decoded.flags
    encodeDeclaredProperties view decoded.flags (classProperties classId) decoded.fields

def amqpDecodeProperties (classId : UInt16) (encoded : Encoded) : Decoder (Properties classId) := do
  let flags ← decodeFlagWords encoded 2 0 0
  let fields ← decodeDeclaredProperties encoded flags (classProperties classId)
  return ⟨flags, fields⟩

/-! ## How decoding fails -/

section Failing

variable {encoded : Encoded}

theorem plain_decodeField (domain : Domain) : Plain (decodeField encoded domain) := by
  cases domain with
  | octet => exact plain_amqpDecode8.orBad
  | short => exact plain_amqpDecode16.orBad
  | long => exact plain_amqpDecode32.orBad
  | longlong => exact plain_amqpDecode64.orBad
  | shortstr => exact .bind plain_amqpDecode8.orBad fun _ => plain_amqpDecodeBytes.orBad
  | longstr => exact .bind plain_amqpDecode32.orBad fun _ => plain_amqpDecodeBytes.orBad
  | bits count => exact plain_amqpDecode8.orBad.map _
  | table => exact plain_amqpDecodeTable

theorem plain_decodeFields (domains : List Domain) :
    Plain (decodeFields encoded domains) := by
  induction domains with
  | nil => exact .pure _
  | cons domain domains ih =>
      exact .bind (plain_decodeField domain) fun _ => .bind ih fun _ => .pure _

theorem plain_decodeDeclared (declared : Option (List Domain)) :
    Plain (decodeDeclared encoded declared) := by
  cases declared with
  | none => exact .throw (by decide)
  | some domains =>
      refine .bind plain_allocate fun granted => ?_
      cases granted with
      | false => exact .throw (by decide)
      | true => exact plain_decodeFields domains

theorem tame_amqpDecodeMethod (methodNumber : UInt32) :
    Tame (amqpDecodeMethod methodNumber encoded) :=
  (plain_decodeDeclared _).tame

theorem tame_decodeFlagWords (turns flagwordIndex : Nat) (flags : UInt32) :
    Tame (decodeFlagWords encoded turns flagwordIndex flags) := by
  induction turns generalizing flagwordIndex flags with
  | zero => exact .bind plain_amqpDecode16.orBad.tame fun _ => .throw (by decide)
  | succ turns ih =>
      refine .bind plain_amqpDecode16.orBad.tame fun word => ?_
      dsimp only
      split
      · exact ih _ _
      · exact .pure _

theorem plain_decodeProperties (flags : UInt32) (properties : List Property) :
    Plain (decodeProperties encoded flags properties) := by
  induction properties with
  | nil => exact .pure _
  | cons property properties ih =>
      refine .bind ?_ fun _ => .bind ih fun _ => .pure _
      unfold decodeProperty
      split
      · exact (plain_decodeField property.domain).map _
      · exact .pure _

theorem plain_decodeDeclaredProperties (flags : UInt32)
    (declared : Option (List Property)) :
    Plain (decodeDeclaredProperties encoded flags declared) := by
  cases declared with
  | none => exact .throw (by decide)
  | some properties =>
      refine .bind plain_allocate fun granted => ?_
      cases granted with
      | false => exact .throw (by decide)
      | true => exact plain_decodeProperties flags properties

theorem tame_amqpDecodeProperties (classId : UInt16) :
    Tame (amqpDecodeProperties classId encoded) :=
  .bind (tame_decodeFlagWords 2 0 0) fun flags =>
    .bind (plain_decodeDeclaredProperties flags _).tame fun _ => .pure _

end Failing

end RabbitmqC
