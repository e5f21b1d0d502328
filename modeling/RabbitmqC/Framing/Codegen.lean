import RabbitmqC.Framing.RoundTrip

/-!
# The generator of the method codecs

`codegen.py` prints one case of `amqp_encode_method` and one of
`amqp_decode_method` for each method of a specification. Two emitter objects keep
track of the bit that comes next: the one for encoding holds an octet back until
it is full or another member follows, the one for decoding asks for an octet when
its first bit is needed.
-/

set_option autoImplicit false

namespace RabbitmqC

namespace Codegen

/-! ## Specifications and structs -/

/-- The keys of `types`. -/
inductive DomainName where
  | octet | short | long | longlong | shortstr | longstr | bit | table | timestamp
  deriving DecidableEq, Repr

/-- `types`. A `SimpleType`, a `StrType` or a `TableType` is the domain whose lines it
emits, and `none` is the `BitType`. -/
def types : DomainName → Option Domain
  | .octet => some .octet
  | .short => some .short
  | .long => some .long
  | .longlong => some .longlong
  | .shortstr => some .shortstr
  | .longstr => some .longstr
  | .bit => none
  | .table => some .table
  | .timestamp => some .longlong

inductive Member where
  | plain (domain : Domain) (value : domain.Value)
  | bit (flag : Int32)

/-- The member has the type that its struct declares. -/
inductive Member.Declared : DomainName → Member → Prop where
  | plain {name : DomainName} {domain : Domain} {value : domain.Value} :
      types name = some domain → Declared name (.plain domain value)
  | bit {flag : Int32} : Declared .bit (.bit flag)

/-! ## Encoding -/

/-- What `genEncodeMethodFields` prints. A member is named by its position. -/
inductive EncodeStmt where
  /-- `bit_buffer = 0;` -/
  | clearBitBuffer
  /-- `if (value) bit_buffer |= (1 << bit);` -/
  | setBit (value bit : Nat)
  /-- `if (!amqp_encode_8(encoded, &offset, bit_buffer)) return AMQP_STATUS_BAD_AMQP_DATA;` -/
  | encodeBitBuffer
  /-- The lines of a `SimpleType`, a `StrType` or a `TableType`. -/
  | encode (domain : Domain) (value : Nat)

structure BitEncoder where
  bit : Nat

namespace BitEncoder

/-- A method of an emitter returns what it prints, and the emitter afterwards. -/
def flush (self : BitEncoder) : List EncodeStmt × BitEncoder :=
  if self.bit ≠ 0 then ([.encodeBitBuffer], ⟨0⟩) else ([], self)

def emit (self : BitEncoder) (line : EncodeStmt) : List EncodeStmt × BitEncoder :=
  let (flushed, self) := self.flush
  (flushed ++ [line], self)

def encodeBit (self : BitEncoder) (value : Nat) : List EncodeStmt × BitEncoder :=
  let cleared := if self.bit = 0 then [EncodeStmt.clearBitBuffer] else []
  let lines := cleared ++ [.setBit value self.bit]
  let self : BitEncoder := ⟨self.bit + 1⟩
  if self.bit = 8 then
    let (flushed, self) := self.flush
    (lines ++ flushed, self)
  else
    (lines, self)

/-- `typeFor(spec, f).encode`. -/
def encodeMember (self : BitEncoder) (name : DomainName) (value : Nat) :
    List EncodeStmt × BitEncoder :=
  match types name with
  | some domain => self.emit (.encode domain value)
  | none => self.encodeBit value

/-- The loop over the arguments from number `index` on, and the last `flush`. -/
def encodeMembers (self : BitEncoder) (index : Nat) : List DomainName → List EncodeStmt
  | [] => self.flush.1
  | name :: names =>
      let (lines, self) := self.encodeMember name index
      lines ++ self.encodeMembers (index + 1) names

end BitEncoder

def genEncodeMethodFields (arguments : List DomainName) : List EncodeStmt :=
  (BitEncoder.mk 0).encodeMembers 0 arguments

/-- One statement with its value of `bit_buffer`. -/
def EncodeStmt.exec (view : View) (members : List Member) (bitBuffer : UInt8) :
    EncodeStmt → Encoder UInt8
  | .clearBitBuffer => return 0
  | .setBit value bit =>
      match members[value]? with
      | some (.bit flag) =>
          return if flag ≠ 0 then bitBuffer ||| UInt8.ofNat (2 ^ bit) else bitBuffer
      | _ => throw (.fault .wrongObject)
  | .encodeBitBuffer => do
      (amqpEncode8 view bitBuffer).orFail .badAmqpData
      return bitBuffer
  | .encode domain value =>
      match members[value]? with
      | some (.plain found value) =>
          if found = domain then do
            encodeField view found value
            return bitBuffer
          else
            throw (.fault .wrongObject)
      | _ => throw (.fault .wrongObject)

def execEncode (view : View) (members : List Member) : UInt8 → List EncodeStmt → Encoder Unit
  | _, [] => return
  | bitBuffer, stmt :: stmts => do
      let bitBuffer ← stmt.exec view members bitBuffer
      execEncode view members bitBuffer stmts

/-- Run the case for these arguments. The local variable `bit_buffer` has any value at the
beginning; the offset is returned as an `int`. -/
def encodeMethodFields (arguments : List DomainName) (members : List Member) (bitBuffer : UInt8)
    (view : View) : EStateM Failure Buffer Int :=
  intOfSize <$> fromStart (execEncode view members bitBuffer (genEncodeMethodFields arguments))

/-! ## Decoding -/

/-- What `genDecodeMethodFields` prints between the allocation and the end. -/
inductive DecodeStmt where
  /-- `if (!amqp_decode_8(encoded, &offset, &bit_buffer)) return AMQP_STATUS_BAD_AMQP_DATA;` -/
  | decodeBitBuffer
  /-- `lvalue = (bit_buffer & (1 << bit)) ? 1 : 0;` -/
  | testBit (lvalue bit : Nat)
  /-- The lines of a `SimpleType`, a `StrType` or a `TableType`. -/
  | decode (domain : Domain) (lvalue : Nat)

structure BitDecoder where
  bit : Nat

namespace BitDecoder

def emit (_self : BitDecoder) (line : DecodeStmt) : List DecodeStmt × BitDecoder :=
  ([line], ⟨0⟩)

def decodeBit (self : BitDecoder) (lvalue : Nat) : List DecodeStmt × BitDecoder :=
  let loaded := if self.bit = 0 then [DecodeStmt.decodeBitBuffer] else []
  let lines := loaded ++ [.testBit lvalue self.bit]
  let self : BitDecoder := ⟨self.bit + 1⟩
  (lines, if self.bit = 8 then ⟨0⟩ else self)

/-- `typeFor(spec, f).decode`. -/
def decodeMember (self : BitDecoder) (name : DomainName) (lvalue : Nat) :
    List DecodeStmt × BitDecoder :=
  match types name with
  | some domain => self.emit (.decode domain lvalue)
  | none => self.decodeBit lvalue

def decodeMembers (self : BitDecoder) (index : Nat) : List DomainName → List DecodeStmt
  | [] => []
  | name :: names =>
      let (lines, self) := self.decodeMember name index
      lines ++ self.decodeMembers (index + 1) names

end BitDecoder

def genDecodeMethodFields (arguments : List DomainName) : List DecodeStmt :=
  (BitDecoder.mk 0).decodeMembers 0 arguments

/-- A struct whose members are filled in one after the other. -/
abbrev Struct := Nat → Option Member

def Struct.assign (struct : Struct) (lvalue : Nat) (member : Member) : Struct :=
  fun index => if index = lvalue then some member else struct index

/-- One statement with its values of `bit_buffer` and the struct. -/
def DecodeStmt.exec (encoded : Encoded) (bitBuffer : UInt8) (struct : Struct) :
    DecodeStmt → Decoder (UInt8 × Struct)
  | .decodeBitBuffer => do
      let bitBuffer ← (amqpDecode8 encoded).orBad
      return (bitBuffer, struct)
  | .testBit lvalue bit =>
      return (bitBuffer,
        struct.assign lvalue (.bit (if bitBuffer &&& UInt8.ofNat (2 ^ bit) ≠ 0 then 1 else 0)))
  | .decode domain lvalue => do
      let value ← decodeField encoded domain
      return (bitBuffer, struct.assign lvalue (.plain domain value))

def execDecode (encoded : Encoded) :
    UInt8 → Struct → List DecodeStmt → Decoder Struct
  | _, struct, [] => return struct
  | bitBuffer, struct, stmt :: stmts => do
      let (bitBuffer, struct) ← stmt.exec encoded bitBuffer struct
      execDecode encoded bitBuffer struct stmts

/-- Run the case for these arguments: what `*decoded` points to when 0 is returned. -/
def decodeMethodFields (arguments : List DomainName) (bitBuffer : UInt8) (encoded : Encoded) :
    Decoder Struct := do
  if ← allocate then
    execDecode encoded bitBuffer (fun _ => none) (genDecodeMethodFields arguments)
  else
    throw (.status .noMemory)

/-! ## The wire form -/

/-- An octet of bits, the lowest one first. -/
def bitOctet (flags : List Int32) : List UInt8 := BigEndian.bytes 1 (packBits 0 0 flags).toNat

/-- The octet of bits that have no octet yet. -/
def heldOctet (pending : List Int32) : List UInt8 :=
  if pending = [] then [] else bitOctet pending

/-- Eight bits fill an octet, and so do fewer at the end or in front of another member. -/
def methodWire (pending : List Int32) : List Member → List UInt8
  | [] => heldOctet pending
  | .bit flag :: members =>
      if pending.length = 7 then bitOctet (pending ++ [flag]) ++ methodWire [] members
      else methodWire (pending ++ [flag]) members
  | .plain domain value :: members =>
      heldOctet pending ++ (domain.wire value ++ methodWire [] members)

/-- What the encoder tests of a member, or cannot test. -/
def Member.Encodable : Member → Prop
  | .plain .shortstr value => List.length value ≤ uint8Max
  | .plain .longstr value => List.length value ≤ uint32Max
  | .plain .table value => Table.Every Component.Known value ∧ Table.Every Component.Short value
  | _ => True

def Member.normalise : Member → Member
  | .plain domain value => .plain domain (domain.normalise value)
  | .bit flag => .bit (normaliseBit flag)

theorem packBits_concat (index : Nat) (buffer : UInt8) (flags : List Int32) (flag : Int32) :
    packBits index buffer (flags ++ [flag]) =
      if flag ≠ 0 then packBits index buffer flags ||| UInt8.ofNat (2 ^ (index + flags.length))
      else packBits index buffer flags := by
  induction flags generalizing index buffer with
  | nil => rfl
  | cons first flags ih =>
      have position : index + 1 + flags.length = index + (flags.length + 1) := by omega
      simp only [List.cons_append, packBits, ih, List.length_cons, position]

/-! ## What the encoder writes -/

/-- `encode` writes `data` whenever there is room for it. -/
structure Writes (view : View) (encode : Encoder Unit) (data : List UInt8) : Prop where
  emits : Emits view encode data
  accepts : Accepts view encode data

theorem Writes.andThen {view : View} {first second : Encoder Unit} {left right : List UInt8}
    (head : Writes view first left) (tail : Writes view second right) :
    Writes view (first >>= fun _ => second) (left ++ right) :=
  ⟨head.emits.andThen tail.emits, head.accepts.andThen head.emits tail.accepts⟩

section Encoding

variable {view : View} {members rest : List Member} {names : List DomainName} {index : Nat}
  {pending : List Int32} {bitBuffer : UInt8} {lines : List EncodeStmt} {data : List UInt8}

theorem accepts_encodeField {domain : Domain} {value : domain.Value}
    (encodable : (Member.plain domain value).Encodable) :
    Accepts view (encodeField view domain value) (domain.wire value) := by
  cases domain with
  | octet => exact accepts_amqpEncode8
  | short => exact accepts_amqpEncode16
  | long => exact accepts_amqpEncode32
  | longlong => exact accepts_amqpEncode64
  | shortstr =>
      simp only [encodeField, encodeShortstr]
      rw [if_neg (Nat.not_lt.mpr encodable)]
      exact accepts_amqpEncode8.andThen emits_amqpEncode8 accepts_amqpEncodeBytes
  | longstr =>
      simp only [encodeField, encodeLongstr]
      rw [if_neg (Nat.not_lt.mpr encodable)]
      exact accepts_amqpEncode32.andThen emits_amqpEncode32 accepts_amqpEncodeBytes
  | bits count => exact accepts_amqpEncode8
  | table => exact accepts_amqpEncodeTable view encodable.1

theorem writes_encodeBitBuffer (tail : Writes view (execEncode view members bitBuffer lines) data) :
    Writes view (execEncode view members bitBuffer (.encodeBitBuffer :: lines))
      (BigEndian.bytes 1 bitBuffer.toNat ++ data) := by
  simp only [execEncode, EncodeStmt.exec, bind_assoc, pure_bind]
  exact Writes.andThen ⟨emits_amqpEncode8, accepts_amqpEncode8⟩ tail

/-- The octet that is held back comes first. -/
theorem writes_flush (held : pending ≠ [] → bitBuffer = packBits 0 0 pending)
    (tail : Writes view (execEncode view members bitBuffer lines) data) :
    Writes view (execEncode view members bitBuffer
      ((BitEncoder.flush ⟨pending.length⟩).1 ++ lines)) (heldOctet pending ++ data) := by
  cases pending with
  | nil => exact tail
  | cons flag flags =>
      have isBuffer := held (by simp)
      subst isBuffer
      exact writes_encodeBitBuffer tail

theorem execEncode_setBit {flag : Int32} (here : members[index]? = some (.bit flag))
    (held : pending ≠ [] → bitBuffer = packBits 0 0 pending) :
    execEncode view members bitBuffer
        ((if pending.length = 0 then [EncodeStmt.clearBitBuffer] else []) ++
          .setBit index pending.length :: lines) =
      execEncode view members (packBits 0 0 (pending ++ [flag])) lines := by
  rw [packBits_concat, Nat.zero_add]
  cases pending with
  | nil => simp only [List.length_nil, if_true, List.cons_append, List.nil_append, execEncode,
      EncodeStmt.exec, pure_bind, here, packBits]
  | cons first flags =>
      rw [held (by simp)]
      simp only [List.length_cons, Nat.add_eq_zero_iff, one_ne_zero, and_false, if_false,
        List.nil_append, execEncode, EncodeStmt.exec, pure_bind, here]

theorem writes_encode {domain : Domain} {value : domain.Value}
    (here : members[index]? = some (.plain domain value))
    (encodable : (Member.plain domain value).Encodable)
    (tail : Writes view (execEncode view members bitBuffer lines) data) :
    Writes view (execEncode view members bitBuffer (.encode domain index :: lines))
      (domain.wire value ++ data) := by
  simp only [execEncode, EncodeStmt.exec, here, if_true, bind_assoc, pure_bind]
  exact Writes.andThen ⟨emits_encodeField view domain value, accepts_encodeField encodable⟩ tail

/-- The emitter has printed code for `pending` whose octet is not written yet. -/
theorem writes_encodeMembers (declared : List.Forall₂ Member.Declared names rest)
    (encodable : ∀ member ∈ rest, member.Encodable) (here : members.drop index = rest)
    (small : pending.length ≤ 7) (held : pending ≠ [] → bitBuffer = packBits 0 0 pending) :
    Writes view (execEncode view members bitBuffer
      ((BitEncoder.mk pending.length).encodeMembers index names)) (methodWire pending rest) := by
  induction declared generalizing index pending bitBuffer with
  | nil =>
      have nothing : Writes view (execEncode view members bitBuffer []) [] :=
        ⟨emits_pure, accepts_pure⟩
      have flushed := writes_flush held nothing
      rw [List.append_nil, List.append_nil] at flushed
      exact flushed
  | @cons name member names rest isDeclared declared ih =>
      have first : members[index]? = some member := by
        rw [← List.head?_drop, here, List.head?_cons]
      have behind : members.drop (index + 1) = rest := by
        rw [← List.tail_drop, here, List.tail_cons]
      have others : ∀ member ∈ rest, member.Encodable :=
        fun member inside => encodable member (List.mem_cons_of_mem _ inside)
      cases isDeclared with
      | @plain _ domain value isType =>
          have after : ((BitEncoder.mk pending.length).flush).2 = ⟨0⟩ := by
            cases pending with
            | nil => rfl
            | cons flag flags => rfl
          have tail := @ih (index + 1) [] bitBuffer others behind (by simp) (by simp)
          have written := writes_encode first (encodable _ List.mem_cons_self) tail
          have flushed := writes_flush held written
          simp only [BitEncoder.encodeMembers, BitEncoder.encodeMember, isType, BitEncoder.emit,
            after, List.append_assoc, List.singleton_append]
          exact flushed
      | @bit flag =>
          have same := @execEncode_setBit view members index pending bitBuffer
          simp only [BitEncoder.encodeMembers, BitEncoder.encodeMember, types, BitEncoder.encodeBit,
            methodWire]
          by_cases last : pending.length = 7
          · have full : pending.length + 1 = 8 := by omega
            have flushes : (BitEncoder.mk (pending.length + 1)).flush = ([.encodeBitBuffer], ⟨0⟩) :=
              if_pos (by simp)
            rw [if_pos last, if_pos full, flushes]
            simp only [List.append_assoc, List.cons_append, List.nil_append]
            rw [same first held]
            exact writes_encodeBitBuffer (@ih (index + 1) [] _ others behind (by simp) (by simp))
          · have open' : pending.length + 1 ≠ 8 := by omega
            rw [if_neg last, if_neg open']
            simp only [List.append_assoc, List.singleton_append]
            rw [same first held]
            have longer : (pending ++ [flag]).length = pending.length + 1 := List.length_append
            rw [← longer]
            exact ih others behind (by omega) fun _ => rfl

end Encoding

/-! ## Reading back -/

/-- The octet that `bit_buffer` was read from, while some of its bits are still to come. -/
def openOctet (pending : List Int32) (bitBuffer : UInt8) : List UInt8 :=
  if pending = [] then [] else BigEndian.bytes 1 bitBuffer.toNat

/-- The members in their places, reduced to what can be read back. -/
def restored (index : Nat) (struct : Struct) : List Member → Struct
  | [] => struct
  | member :: members => restored (index + 1) (struct.assign index member.normalise) members

section Decoding

variable {encoded : Encoded} {rest : List Member} {names : List DomainName} {index : Nat}
  {pending : List Int32} {bitBuffer : UInt8} {struct : Struct} {data : List UInt8}

/-- Bits that have been begun start with an octet that holds them all. -/
theorem methodWire_open (begun : pending ≠ []) (small : pending.length ≤ 7)
    (rest : List Member) :
    ∃ more behind, (pending ++ more).length ≤ 8 ∧
      methodWire pending rest = bitOctet (pending ++ more) ++ behind := by
  induction rest generalizing pending with
  | nil =>
      refine ⟨[], [], by rw [List.append_nil]; omega, ?_⟩
      rw [methodWire, heldOctet, if_neg begun, List.append_nil, List.append_nil]
  | cons member rest ih =>
      cases member with
      | plain domain value =>
          refine ⟨[], domain.wire value ++ methodWire [] rest, by rw [List.append_nil]; omega, ?_⟩
          rw [methodWire, heldOctet, if_neg begun, List.append_nil]
      | bit flag =>
          rw [methodWire]
          by_cases last : pending.length = 7
          · rw [if_pos last]
            exact ⟨[flag], _, by rw [List.length_append, last]; rfl, rfl⟩
          · rw [if_neg last]
            have longer : (pending ++ [flag]).length = pending.length + 1 := List.length_append
            obtain ⟨more, behind, short, isWire⟩ := @ih (pending ++ [flag]) (by simp) (by omega)
            refine ⟨flag :: more, behind, ?_, ?_⟩
            · simpa using short
            · rw [isWire, List.append_assoc, List.singleton_append]

theorem bytes_one_inj {left right : UInt8} {tail others : List UInt8}
    (same : BigEndian.bytes 1 left.toNat ++ tail = BigEndian.bytes 1 right.toNat ++ others) :
    left = right ∧ tail = others := by
  have single (octet : UInt8) : BigEndian.bytes 1 octet.toNat = [octet] := by
    simp [BigEndian.bytes]
  rw [single, single] at same
  exact List.cons.inj same

theorem unpackBits_get {buffer : UInt8} {start count position : Nat} (inside : position < count) :
    (unpackBits buffer start count)[position]? =
      some (if buffer &&& UInt8.ofNat (2 ^ (start + position)) ≠ 0 then 1 else 0) := by
  induction count generalizing start position with
  | zero => omega
  | succ count ih =>
      cases position with
      | zero => rfl
      | succ position =>
          have moved : start + 1 + position = start + (position + 1) := by omega
          rw [unpackBits, List.getElem?_cons_succ, ih (by omega), moved]

theorem testBit_packBits {flags : List Int32} {position : Nat} {flag : Int32}
    (small : flags.length ≤ 8) (here : flags[position]? = some flag) :
    (if packBits 0 0 flags &&& UInt8.ofNat (2 ^ position) ≠ 0 then 1 else 0) =
      normaliseBit flag := by
  have inside : position < flags.length := (List.getElem?_eq_some_iff.mp here).1
  have unpacked := @unpackBits_get (packBits 0 0 flags) 0 flags.length position inside
  rw [unpackBits_packBits small, List.getElem?_map, here, Nat.zero_add] at unpacked
  exact (Option.some.inj unpacked).symm

/-- Behind the octet that was read stands what comes behind the octet that was held back. -/
theorem eq_of_heldOctet {tail : List UInt8}
    (same : heldOctet pending ++ tail = openOctet pending bitBuffer ++ data) : data = tail := by
  cases pending with
  | nil => exact same.symm
  | cons flag flags => exact (bytes_one_inj same).2.symm

theorem reads_testBit {flags : List Int32} {flag : Int32} {lines : List DecodeStmt} {position : Nat}
    {result : Struct} (small : flags.length ≤ 8) (isBuffer : bitBuffer = packBits 0 0 flags)
    (here : flags[position]? = some flag)
    (tail : Reads encoded (execDecode encoded bitBuffer
      (struct.assign index (.bit (normaliseBit flag))) lines) data result) :
    Reads encoded (execDecode encoded bitBuffer struct (.testBit index position :: lines)) data
      result := by
  simp only [execDecode, DecodeStmt.exec, pure_bind]
  rw [isBuffer, testBit_packBits small here, ← isBuffer]
  exact tail

/-- The emitter has printed code for `pending`, and their octet was read. -/
theorem reads_decodeMembers (declared : List.Forall₂ Member.Declared names rest)
    (decodable : ∀ domain value, Member.plain domain value ∈ rest → domain.Decodable value)
    (small : pending.length ≤ 7)
    (isWire : methodWire pending rest = openOctet pending bitBuffer ++ data) :
    Reads encoded (execDecode encoded bitBuffer struct
      ((BitDecoder.mk pending.length).decodeMembers index names)) data
      (restored index struct rest) := by
  induction declared generalizing index pending bitBuffer struct data with
  | nil =>
      rw [eq_of_heldOctet ((List.append_nil _).trans isWire)]
      exact reads_pure
  | @cons name member names rest isDeclared declared ih =>
      have others : ∀ domain value, Member.plain domain value ∈ rest → domain.Decodable value :=
        fun domain value inside => decodable domain value (List.mem_cons_of_mem _ inside)
      cases isDeclared with
      | @plain _ domain value isType =>
          simp only [BitDecoder.decodeMembers, BitDecoder.decodeMember, isType, BitDecoder.emit,
            List.singleton_append, execDecode, DecodeStmt.exec, bind_assoc, pure_bind]
          rw [eq_of_heldOctet isWire]
          exact (reads_decodeField encoded domain (decodable _ _ List.mem_cons_self)).andThen
            (@ih (index + 1) [] bitBuffer _ _ others (by simp) rfl)
      | @bit flag =>
          have longer : (pending ++ [flag]).length = pending.length + 1 := List.length_append
          simp only [BitDecoder.decodeMembers, BitDecoder.decodeMember, types, BitDecoder.decodeBit]
          rw [methodWire] at isWire
          by_cases last : pending.length = 7
          · have begun : pending ≠ [] := by
              rintro rfl
              cases last
            have full : pending.length + 1 = 8 := by omega
            rw [if_pos last, openOctet, if_neg begun] at isWire
            obtain ⟨isBuffer, rfl⟩ := bytes_one_inj isWire
            rw [if_neg (by omega), if_pos full]
            refine reads_testBit (by omega) isBuffer.symm List.getElem?_concat_length ?_
            exact @ih (index + 1) [] bitBuffer _ _ others (by simp) rfl
          · have unfilled : pending.length + 1 ≠ 8 := by omega
            rw [if_neg last] at isWire
            rw [if_neg unfilled, ← longer]
            obtain ⟨more, behind, short, opened⟩ :=
              @methodWire_open (pending ++ [flag]) (by simp) (by omega) rest
            rw [opened] at isWire
            have tested (octet : UInt8) (isOctet : octet = packBits 0 0 (pending ++ [flag] ++ more)) :
                Reads encoded (execDecode encoded octet struct (.testBit index pending.length ::
                  (BitDecoder.mk (pending ++ [flag]).length).decodeMembers (index + 1) names)) behind
                  (restored index struct (.bit flag :: rest)) := by
              refine @reads_testBit _ _ _ _ _ _ flag _ _ _ short isOctet ?_ ?_
              · rw [List.getElem?_append_left (by omega), List.getElem?_concat_length]
              · refine @ih (index + 1) (pending ++ [flag]) octet _ _ others (by omega) ?_
                rw [opened, openOctet, if_neg (by simp), isOctet]
                rfl
            cases pending with
            | nil =>
                have isData : data = bitOctet ([] ++ [flag] ++ more) ++ behind := isWire.symm
                rw [isData]
                simp only [List.length_nil, if_true, List.cons_append, List.nil_append] at tested ⊢
                rw [execDecode, DecodeStmt.exec, bind_assoc]
                simp only [pure_bind]
                exact (@reads_amqpDecode8 encoded (packBits 0 0 _)).orBad.andThen (tested _ rfl)
            | cons first flags =>
                obtain ⟨isBuffer, rfl⟩ := bytes_one_inj isWire
                exact tested bitBuffer isBuffer.symm

theorem restored_apply (members : List Member) (index : Nat) (struct : Struct) (position : Nat) :
    restored index struct members position =
      if position < index then struct position
      else (members[position - index]?.map Member.normalise).or (struct position) := by
  induction members generalizing index struct with
  | nil => simp [restored]
  | cons member members ih =>
      rw [restored, ih]
      unfold Struct.assign
      rcases Nat.lt_trichotomy position index with before | rfl | behind
      · rw [if_pos (by omega), if_neg (by omega), if_pos before]
      · simp
      · have next : position - index = (position - (index + 1)) + 1 := by omega
        rw [if_neg (by omega), if_neg (by omega), if_neg (by omega), next, List.getElem?_cons_succ]

theorem length_wire_le {domain : Domain} {value : domain.Value} (pending : List Int32)
    (inside : Member.plain domain value ∈ rest) :
    (domain.wire value).length ≤ (methodWire pending rest).length := by
  induction rest generalizing pending with
  | nil => cases inside
  | cons member rest ih =>
      cases member with
      | plain other found =>
          rw [methodWire, List.length_append, List.length_append]
          rcases List.mem_cons.mp inside with isFirst | later
          · cases isFirst
            omega
          · have short := ih [] later
            omega
      | bit flag =>
          have later : Member.plain domain value ∈ rest := by simpa using inside
          rw [methodWire]
          split
          · have short := ih [] later
            rw [List.length_append]
            omega
          · exact ih _ later

theorem decodable_of_encodable (encodable : ∀ member ∈ rest, member.Encodable)
    (small : (methodWire [] rest).length < 2 ^ 32) (domain : Domain) (value : domain.Value)
    (inside : Member.plain domain value ∈ rest) : domain.Decodable value := by
  have short := length_wire_le [] inside
  have checked := encodable _ inside
  cases domain with
  | octet | short | long | longlong | bits count => trivial
  | shortstr => exact checked
  | longstr => exact checked
  | table =>
      refine Table.every_decodable checked.1 checked.2 ?_
      exact Nat.lt_of_le_of_lt short small

end Decoding

/-! ## The round trip -/

section RoundTrip

variable {arguments : List DomainName} {members : List Member} {view : View} {mem : Buffer}

/-- With room for it the wire form is written; its length is returned as an `int`. -/
theorem encodeMethodFields_of_room (declared : List.Forall₂ Member.Declared arguments members)
    (encodable : ∀ member ∈ members, member.Encodable) (inside : view.base + view.len ≤ mem.size)
    (room : (methodWire [] members).length ≤ view.len) (bitBuffer : UInt8) :
    ∃ after, Written view (methodWire [] members) ⟨mem, 0⟩ after ∧
      encodeMethodFields arguments members bitBuffer view mem =
        .ok (intOfSize (methodWire [] members).length) after.mem := by
  have writes := @writes_encodeMembers view members members arguments 0 [] bitBuffer declared
    encodable rfl (by simp) (by simp)
  obtain ⟨after, returned⟩ := @writes.accepts ⟨mem, 0⟩ inside (by simpa using room)
  have written := writes.emits returned
  refine ⟨after, written, ?_⟩
  have started : fromStart (execEncode view members bitBuffer (genEncodeMethodFields arguments))
      mem = .ok after.offset after.mem := by
    unfold fromStart
    rw [show execEncode view members bitBuffer (genEncodeMethodFields arguments) ⟨mem, 0⟩ =
      .ok () after from returned]
  unfold encodeMethodFields
  rw [Effect.map_of_ok started, written.offset, Nat.zero_add]

/-- What the generated encoder has written, the generated decoder reads back, for any
arguments. A bit takes the next place in its octet, and any other member starts a new one. -/
theorem decodeMethodFields_of_encodeMethodFields
    (declared : List.Forall₂ Member.Declared arguments members)
    (encodable : ∀ member ∈ members, member.Encodable) (inside : view.base + view.len ≤ mem.size)
    (room : (methodWire [] members).length ≤ view.len)
    (short : (methodWire [] members).length < 2 ^ 31) (bitBuffer otherBuffer : UInt8) :
    ∃ written,
      encodeMethodFields arguments members bitBuffer view mem =
        .ok (methodWire [] members).length written ∧
      written.bytes = mem.bytes.splice view.base (methodWire [] members) ∧
      decodeMethodFields arguments otherBuffer
          { base := view.base, len := (methodWire [] members).length, mem := written } ⟨0, []⟩ =
        .ok (fun position => members[position]?.map Member.normalise)
          ⟨(methodWire [] members).length, []⟩ := by
  obtain ⟨after, written, returned⟩ := encodeMethodFields_of_room declared encodable inside room
    bitBuffer
  rw [intOfSize_of_lt short] at returned
  refine ⟨after.mem, returned, written.bytes, ?_⟩
  have decodable := decodable_of_encodable encodable (by omega)
  have reads := @reads_decodeMembers
    { base := view.base, len := (methodWire [] members).length, mem := after.mem } members arguments
    0 [] otherBuffer (fun _ => none) (methodWire [] members) declared decodable (by simp) rfl
  have isStruct : restored 0 (fun _ => none) members =
      fun position => members[position]?.map Member.normalise := by
    funext position
    rw [restored_apply]
    simp
  rw [isStruct] at reads
  have stored := written.holds (by simp only; omega)
  have allocates : allocate ⟨0, []⟩ = .ok true ⟨0, []⟩ := rfl
  have decoded := @reads 0 stored (by simp)
  rw [Nat.zero_add] at decoded
  unfold decodeMethodFields
  rw [Effect.bind_of_ok allocates]
  exact decoded

end RoundTrip

/-- Nine bits with a string between the first and the others. -/
def strewnBits : List Member :=
  .bit 5 :: .plain .shortstr [97] :: List.replicate 8 (.bit 1)

theorem decodeMethodFields_of_encodeMethodFields_strewn : ∃ written,
    encodeMethodFields (.bit :: .shortstr :: List.replicate 8 .bit) strewnBits 0xAA ⟨0, 4⟩
        (.zeros 4 (by decide)) = .ok 4 written ∧
      written.bytes = [1, 1, 97, 255] ∧
      decodeMethodFields (.bit :: .shortstr :: List.replicate 8 .bit) 0x55
          { base := 0, len := 4, mem := written } ⟨0, []⟩ =
        .ok (fun position => strewnBits[position]?.map Member.normalise) ⟨4, []⟩ := by
  have isWire : methodWire [] strewnBits = [1, 1, 97, 255] := by decide +kernel
  have declared : List.Forall₂ Member.Declared (.bit :: .shortstr :: List.replicate 8 .bit)
      strewnBits := by
    refine .cons .bit (.cons (.plain rfl) ?_)
    iterate 8 apply List.Forall₂.cons .bit
    exact .nil
  have encodable : ∀ member ∈ strewnBits, member.Encodable := by
    simp [strewnBits, Member.Encodable, uint8Max]
  obtain ⟨written, returned, isBytes, decoded⟩ := @decodeMethodFields_of_encodeMethodFields _ _
    ⟨0, 4⟩ (.zeros 4 (by decide)) declared encodable (by simp) (by rw [isWire]; decide)
    (by rw [isWire]; decide) 0xAA 0x55
  rw [isWire] at returned isBytes decoded
  exact ⟨written, returned, isBytes, decoded⟩

/-- A table with a value of a kind that no codec knows. -/
def unknownKind : Member := .plain .table [.mk [107] (.unknown ⟨122, by decide⟩)]

/-- The length of a string of 2 GiB fits into its length field, but the length of the whole
comes back as a negative number. A value of an unknown kind is refused. -/
theorem huge_string_returns_negative :
    (¬ ∀ arguments members (view : View) (mem : Buffer) bitBuffer,
      List.Forall₂ Member.Declared arguments members →
      (∀ member ∈ members, member.Encodable) → view.base + view.len ≤ mem.size →
      (methodWire [] members).length ≤ view.len →
      ∃ count written, encodeMethodFields arguments members bitBuffer view mem = .ok count written ∧
        0 ≤ count) ∧
    ∀ count written,
      encodeMethodFields [.table] [unknownKind] 0 ⟨0, 64⟩ (.zeros 64 (by decide)) ≠
        .ok count written := by
  constructor
  · intro returns
    obtain ⟨huge, isHuge⟩ : ∃ huge : List UInt8, huge.length = 2 ^ 31 :=
      ⟨List.replicate (2 ^ 31) 0, List.length_replicate⟩
    obtain ⟨mem, isSize⟩ : ∃ mem : Buffer, mem.size = 2 ^ 31 + 4 :=
      ⟨.zeros (2 ^ 31 + 4) (by decide), Buffer.size_zeros _ _⟩
    have declared : List.Forall₂ Member.Declared [.longstr] [.plain .longstr huge] :=
      .cons (.plain rfl) .nil
    have encodable : ∀ member ∈ [Member.plain .longstr huge], member.Encodable := by
      intro member inside
      rw [List.mem_singleton.mp inside]
      show huge.length ≤ uint32Max
      rw [isHuge]
      decide
    have isLength : (methodWire [] [.plain .longstr huge]).length = 2 ^ 31 + 4 := by
      show ([] ++ (sized huge ++ [])).length = _
      rw [List.nil_append, List.append_nil, length_sized, isHuge, Nat.add_comm]
    have inside : 0 + (2 ^ 31 + 4) ≤ mem.size := by
      rw [isSize, Nat.zero_add]
    have room : (methodWire [] [.plain .longstr huge]).length ≤ 2 ^ 31 + 4 := Nat.le_of_eq isLength
    obtain ⟨count, written, returned, nonnegative⟩ :=
      returns _ _ ⟨0, 2 ^ 31 + 4⟩ mem 0 declared encodable inside room
    obtain ⟨after, _, encoded⟩ :=
      @encodeMethodFields_of_room _ _ ⟨0, 2 ^ 31 + 4⟩ mem declared encodable inside room 0
    have isCount := (EStateM.Result.ok.inj (returned.symm.trans encoded)).1
    have negative : intOfSize (2 ^ 31 + 4) < 0 := by decide
    rw [← isLength, ← isCount] at negative
    omega
  · intro count written returned
    have refused : Effect.returned? (encodeMethodFields [.table] [unknownKind] 0 ⟨0, 64⟩
        (.zeros 64 (by decide))) = none := by decide +kernel
    rw [returned] at refused
    cases refused

end Codegen

end RabbitmqC
