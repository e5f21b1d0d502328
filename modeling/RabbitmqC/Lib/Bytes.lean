import Mathlib.Tactic.Linarith
import Mathlib.Tactic.Ring
import Mathlib.Data.List.Basic

/-!
# Byte strings in bounded memory objects

Big-endian words, splicing a byte string into another one, and memory objects
whose size stays below the largest pointer difference. A read or a write of an
object answers `none` when it would leave the object.
-/

set_option autoImplicit false

/-! ## Big-endian words -/

namespace BigEndian

/-- The `width` low octets of `value`, the most significant one first. -/
def bytes : Nat → Nat → List UInt8
  | 0, _ => []
  | width + 1, value => UInt8.ofNat (value / 256 ^ width) :: bytes width value

/-- The number a byte string denotes, its first octet being the most significant. -/
def value : List UInt8 → Nat
  | [] => 0
  | head :: tail => head.toNat * 256 ^ tail.length + value tail

@[simp] theorem length_bytes (width number : Nat) : (bytes width number).length = width := by
  induction width with
  | zero => rfl
  | succ width ih => simp only [bytes, List.length_cons, ih]

theorem value_lt (octets : List UInt8) : value octets < 256 ^ octets.length := by
  induction octets with
  | nil => simp [value]
  | cons head tail ih =>
      have headBound : head.toNat < 256 := head.toNat_lt
      have product : (head.toNat + 1) * 256 ^ tail.length ≤ 256 * 256 ^ tail.length :=
        Nat.mul_le_mul_right _ headBound
      simp only [value, List.length_cons, Nat.pow_succ]
      linarith

/-- Reading back a written word loses only what does not fit its width. -/
theorem value_bytes (width number : Nat) :
    value (bytes width number) = number % 256 ^ width := by
  induction width with
  | zero => simp [bytes, value, Nat.mod_one]
  | succ width ih =>
      have digits : number % 256 ^ (width + 1) =
          number % 256 ^ width + 256 ^ width * (number / 256 ^ width % 256) := by
        rw [Nat.pow_succ, Nat.mod_mul]
      simp only [bytes, value, length_bytes, ih, UInt8.toNat_ofNat']
      rw [digits, Nat.mul_comm, Nat.add_comm]

theorem value_bytes_of_lt {width number : Nat} (fits : number < 256 ^ width) :
    value (bytes width number) = number := by
  rw [value_bytes, Nat.mod_eq_of_lt fits]

/-- Writing a word that was read reproduces its octets. -/
theorem bytes_value (octets : List UInt8) : bytes octets.length (value octets) = octets := by
  induction octets with
  | nil => rfl
  | cons head tail ih =>
      have bound := value_lt tail
      have positive : 0 < 256 ^ tail.length := Nat.pow_pos (by omega)
      have high : (head.toNat * 256 ^ tail.length + value tail) / 256 ^ tail.length =
          head.toNat := by
        rw [Nat.mul_comm, Nat.mul_add_div positive, Nat.div_eq_of_lt bound, Nat.add_zero]
      have low (width : Nat) (within : width ≤ tail.length) :
          bytes width (head.toNat * 256 ^ tail.length + value tail) = bytes width (value tail) := by
        induction width with
        | zero => rfl
        | succ width rest =>
            obtain ⟨more, split⟩ := Nat.exists_eq_add_of_lt within
            have factor : head.toNat * 256 ^ tail.length =
                256 ^ width * (256 * (head.toNat * 256 ^ more)) := by
              rw [split]
              ring
            have dropped : UInt8.ofNat
                ((head.toNat * 256 ^ tail.length + value tail) / 256 ^ width) =
                  UInt8.ofNat (value tail / 256 ^ width) := by
              rw [factor, Nat.mul_add_div (Nat.pow_pos (by omega))]
              apply UInt8.toNat_inj.mp
              rw [UInt8.toNat_ofNat', UInt8.toNat_ofNat']
              omega
            simp only [bytes, dropped, rest (by omega)]
      simp only [List.length_cons, bytes, value, high, UInt8.ofNat_toNat]
      rw [low _ (Nat.le_refl _), ih]

end BigEndian

/-! ## Splicing -/

namespace List

variable {α : Type}

/-- `values` with the elements from `offset` on replaced by `data`. -/
def splice (values : List α) (offset : Nat) (data : List α) : List α :=
  values.take offset ++ data ++ values.drop (offset + data.length)

/-- The `count` elements of `values` from `offset` on. -/
def slice (values : List α) (offset count : Nat) : List α :=
  (values.drop offset).take count

@[simp] theorem splice_nil (values : List α) (offset : Nat) : values.splice offset [] = values := by
  simp [splice]

@[simp] theorem slice_zero (values : List α) (offset : Nat) : values.slice offset 0 = [] := by
  simp [slice]

theorem length_splice {values data : List α} {offset : Nat}
    (fits : offset + data.length ≤ values.length) :
    (values.splice offset data).length = values.length := by
  simp only [splice, length_append, length_take, length_drop]
  omega

theorem length_slice {values : List α} {offset count : Nat}
    (fits : offset + count ≤ values.length) : (values.slice offset count).length = count := by
  simp only [slice, length_take, length_drop]
  omega

/-- A slice splits where the counts do. -/
theorem slice_add (values : List α) (offset left right : Nat) :
    values.slice offset (left + right) =
      values.slice offset left ++ values.slice (offset + left) right := by
  simp only [slice, List.take_add, List.drop_drop]

theorem slice_append_right (left right : List α) (offset count : Nat) :
    (left ++ right).slice (left.length + offset) count = right.slice offset count := by
  simp only [slice, ← List.drop_drop, List.drop_left]

/-- Slices that agree agree on the parts of them. -/
theorem slice_eq_of_slice_eq {values others : List α} {base otherBase offset count size : Nat}
    (same : values.slice base size = others.slice otherBase size)
    (inside : offset + count ≤ size) :
    values.slice (base + offset) count = others.slice (otherBase + offset) count := by
  have narrowed (list : List α) (base : Nat) :
      (list.slice base size).slice offset count = list.slice (base + offset) count := by
    simp only [slice, List.drop_take, List.take_take, List.drop_drop]
    congr 1
    omega
  rw [← narrowed values, ← narrowed others, same]

theorem slice_splice_self {values data : List α} {offset : Nat}
    (fits : offset + data.length ≤ values.length) :
    (values.splice offset data).slice offset data.length = data := by
  have short : (values.take offset).length = offset := by simp; omega
  simp only [slice, splice, append_assoc]
  rw [List.drop_append_of_le_length (by omega), List.drop_of_length_le (by omega)]
  simp

theorem slice_splice_before {values data : List α} {offset start count : Nat}
    (fits : offset + data.length ≤ values.length) (before : start + count ≤ offset) :
    (values.splice offset data).slice start count = values.slice start count := by
  have short : (values.take offset).length = offset := by simp; omega
  simp only [slice, splice, append_assoc]
  rw [List.drop_append_of_le_length (by omega),
    List.take_append_of_le_length (by simp only [length_drop]; omega),
    List.drop_take, List.take_take]
  congr 1
  omega

theorem slice_splice_after {values data : List α} {offset start count : Nat}
    (fits : offset + data.length ≤ values.length) (after : offset + data.length ≤ start) :
    (values.splice offset data).slice start count = values.slice start count := by
  have short : (values.take offset ++ data).length = offset + data.length := by simp; omega
  simp only [slice, splice]
  rw [List.drop_append, List.drop_of_length_le (by omega), List.nil_append, short, List.drop_drop]
  congr 2
  omega

/-- Writing `tail` and then `head` right in front of it is one write of both. -/
theorem splice_splice_before {values head tail : List α} {offset : Nat}
    (fits : offset + head.length + tail.length ≤ values.length) :
    (values.splice (offset + head.length) tail).splice offset head =
      values.splice offset (head ++ tail) := by
  have taken : (values.splice (offset + head.length) tail).take offset = values.take offset := by
    have before := @slice_splice_before _ values tail (offset + head.length) 0 offset
      (by omega) (by omega)
    simpa [slice] using before
  have dropped : (values.splice (offset + head.length) tail).drop (offset + head.length) =
      tail ++ values.drop (offset + head.length + tail.length) := by
    have short : (values.take (offset + head.length)).length = offset + head.length := by
      simp; omega
    simp only [splice, append_assoc]
    rw [List.drop_append_of_le_length (by omega), List.drop_of_length_le (by omega)]
    simp
  unfold splice at taken dropped ⊢
  rw [taken, dropped]
  simp [Nat.add_assoc]

/-- Writing `head` and then `tail` right after it is one write of both. -/
theorem splice_splice_after {values head tail : List α} {offset : Nat}
    (fits : offset + head.length + tail.length ≤ values.length) :
    (values.splice offset head).splice (offset + head.length) tail =
      values.splice offset (head ++ tail) := by
  have short : (values.take offset ++ head).length = offset + head.length := by simp; omega
  have taken : (values.splice offset head).take (offset + head.length) =
      values.take offset ++ head := by
    unfold splice
    rw [List.take_append_of_le_length (by omega), List.take_of_length_le (by omega)]
  have dropped : (values.splice offset head).drop (offset + head.length + tail.length) =
      values.drop (offset + (head ++ tail).length) := by
    unfold splice
    rw [List.drop_append, List.drop_of_length_le (by omega), List.nil_append, short,
      List.drop_drop]
    congr 1
    simp only [length_append]
    omega
  show (values.splice offset head).take (offset + head.length) ++ tail ++
      (values.splice offset head).drop (offset + head.length + tail.length) = _
  rw [taken, dropped]
  simp [splice]

end List

/-! ## Memory objects -/

/-- A memory object. No object is larger than the largest pointer difference,
so sums of two positions inside it never wrap around a 64-bit size. -/
structure Buffer where
  bytes : List UInt8
  size_lt : bytes.length < 2 ^ 63

namespace Buffer

def size (buffer : Buffer) : Nat := buffer.bytes.length

@[ext] theorem ext {left right : Buffer} (same : left.bytes = right.bytes) : left = right := by
  cases left
  cases right
  congr

/-- Read `count` octets at `offset`; `none` is an access outside the object. -/
def read? (buffer : Buffer) (offset count : Nat) : Option (List UInt8) :=
  if offset + count ≤ buffer.size then some (buffer.bytes.slice offset count) else none

/-- Write `data` at `offset`; `none` is an access outside the object. -/
def write? (buffer : Buffer) (offset : Nat) (data : List UInt8) : Option Buffer :=
  if fits : offset + data.length ≤ buffer.bytes.length then
    some ⟨buffer.bytes.splice offset data, by
      rw [List.length_splice fits]
      exact buffer.size_lt⟩
  else none

/-- The object of `count` zero octets. -/
def zeros (count : Nat) (bounded : count < 2 ^ 63) : Buffer :=
  ⟨List.replicate count 0, by rwa [List.length_replicate]⟩

@[simp] theorem size_zeros (count : Nat) (bounded : count < 2 ^ 63) :
    (zeros count bounded).size = count :=
  List.length_replicate

/-- The same object with every octet zero. -/
def clear (buffer : Buffer) : Buffer := zeros buffer.size buffer.size_lt

@[simp] theorem size_clear (buffer : Buffer) : buffer.clear.size = buffer.size :=
  size_zeros _ _

/-- `data` is stored at `offset`. -/
def Holds (buffer : Buffer) (offset : Nat) (data : List UInt8) : Prop :=
  offset + data.length ≤ buffer.size ∧ buffer.bytes.slice offset data.length = data

variable {buffer written : Buffer} {offset count : Nat} {data left right : List UInt8}

theorem holds_bytes (buffer : Buffer) : buffer.Holds 0 buffer.bytes :=
  ⟨by rw [Nat.zero_add, size], List.take_length⟩

theorem write?_eq_some_iff : buffer.write? offset data = some written ↔
    offset + data.length ≤ buffer.size ∧ written.bytes = buffer.bytes.splice offset data := by
  unfold write? size
  split
  · rename_i fits
    constructor
    · intro same
      cases same
      exact ⟨fits, rfl⟩
    · intro ⟨_, same⟩
      exact congrArg some (Buffer.ext same.symm)
  · rename_i outside
    constructor
    · intro same
      cases same
    · intro ⟨fits, _⟩
      exact absurd fits outside

theorem write?_isSome (fits : offset + data.length ≤ buffer.size) :
    ∃ written, buffer.write? offset data = some written := by
  unfold write? size at *
  simp [fits]

theorem size_of_write? (stored : buffer.write? offset data = some written) :
    written.size = buffer.size := by
  obtain ⟨fits, same⟩ := write?_eq_some_iff.mp stored
  simp only [size, same]
  exact List.length_splice fits

theorem holds_of_write? (stored : buffer.write? offset data = some written) :
    written.Holds offset data := by
  obtain ⟨fits, same⟩ := write?_eq_some_iff.mp stored
  refine ⟨by rw [size_of_write? stored]; exact fits, ?_⟩
  rw [same]
  exact List.slice_splice_self fits

/-- A write leaves what lies entirely on one side of it alone. -/
theorem Holds.write? {start : Nat} (kept : buffer.Holds start data)
    (stored : buffer.write? offset right = some written)
    (apart : start + data.length ≤ offset ∨ offset + right.length ≤ start) :
    written.Holds start data := by
  obtain ⟨fits, same⟩ := write?_eq_some_iff.mp stored
  refine ⟨by rw [size_of_write? stored]; exact kept.1, ?_⟩
  rw [same]
  rcases apart with before | after
  · rw [List.slice_splice_before fits before]
    exact kept.2
  · rw [List.slice_splice_after fits after]
    exact kept.2

theorem holds_append : buffer.Holds offset (left ++ right) ↔
    buffer.Holds offset left ∧ buffer.Holds (offset + left.length) right := by
  unfold Holds
  simp only [List.length_append]
  constructor
  · intro ⟨fits, same⟩
    have leftLength : (buffer.bytes.slice offset left.length).length = left.length :=
      List.length_slice (by unfold size at fits; omega)
    rw [List.slice_add] at same
    obtain ⟨leftSame, rightSame⟩ := List.append_inj same leftLength
    exact ⟨⟨by omega, leftSame⟩, by omega, rightSame⟩
  · intro ⟨⟨_, leftSame⟩, fits, rightSame⟩
    refine ⟨by omega, ?_⟩
    rw [List.slice_add, leftSame, rightSame]

theorem Holds.read? (stored : buffer.Holds offset data) :
    buffer.read? offset data.length = some data := by
  unfold Buffer.read?
  rw [if_pos stored.1, stored.2]

theorem read?_eq_some_iff : buffer.read? offset count = some data ↔
    data.length = count ∧ buffer.Holds offset data := by
  unfold Buffer.read? Holds
  split
  · rename_i fits
    constructor
    · intro same
      have filled : buffer.bytes.slice offset count = data := Option.some.inj same
      have length : data.length = count := by rw [← filled]; exact List.length_slice fits
      exact ⟨length, by rw [length]; exact fits, by rw [length]; exact filled⟩
    · intro ⟨length, _, same⟩
      rw [← length, same]
  · rename_i outside
    constructor
    · intro same
      cases same
    · intro ⟨length, fits, _⟩
      exact absurd (length ▸ fits) outside

theorem read?_isSome (fits : offset + count ≤ buffer.size) :
    ∃ data, buffer.read? offset count = some data := by
  unfold Buffer.read?
  simp [fits]

end Buffer
