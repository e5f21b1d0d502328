import Mathlib.Data.List.Basic
import Mathlib.Data.List.Induction
import Mathlib.Tactic.Common
import RabbitmqC.Lib.HexText

/-!
# Hex dumps

`utils::AmqpDump` prints a buffer in rows of sixteen octets and dots in place of rows that
it takes for repetitions. It compares a row with an array into which `memccpy` copies no
more than the first octet of the row before, so that a row of which all but the first octet
are zero may be left out after a different one.
-/

set_option autoImplicit false

namespace RabbitmqC

/-! ## The functions -/

/-- `memccpy(dst, src, c, n)`: octets are copied up to the first `c`, and `n` of them at
most. -/
def memccpy : List UInt8 → List UInt8 → UInt8 → Nat → List UInt8
  | _ :: dst, octet :: src, c, n + 1 =>
      octet :: if octet = c then dst else memccpy dst src c n
  | dst, _, _, _ => dst

/-- `sizeof(int)`. -/
def sizeOfIntType : Nat := 4

/-- The memory of an array of `int` with octets for values. -/
def intStorage (values : List UInt8) : List UInt8 := values.flatMap fun value => [value, 0, 0, 0]

/-- What is printed before the ninth column. `left` columns come behind this one. -/
def columnGap (left : Nat) : List Char := if left = 7 then [' ', ':'] else []

/-- The sixteen columns of a row, of which `left` are to come: those with values, and blanks. -/
def dumpColumns : Nat → List UInt8 → List Char
  | 0, _ => []
  | left + 1, [] => columnGap left ++ ([' ', ' ', ' '] ++ dumpColumns left [])
  | left + 1, value :: row =>
      columnGap left ++ (hexField 2 value.toNat ++ dumpColumns left row)

/-- `isprint`. -/
def isPrint (value : UInt8) : Bool := 0x20 ≤ value.toNat && value.toNat < 0x7F

/-- `DumpRow` without the end of the line. -/
def dumpRow (count : Nat) (chs : List UInt8) : List Char :=
  hexField 8 (count - chs.length) ++
    if chs.length > 0 then
      dumpColumns 16 chs ++ [' ', ' '] ++
        chs.map fun value => if isPrint value then Char.ofNat value.toNat else '.'
    else
      []

/-- `RowsEq`, with the memory of `oldchs`. -/
def rowsEq (oldchs : List UInt8) (chs : List UInt8) : Bool := oldchs == intStorage chs

def dotsLine : List Char := "          .. .. .. .. .. .. .. .. : .. .. .. .. .. .. .. ..".toList

/-- The variables of `AmqpDump`, with the first `numinrow` values of `chs` and the memory of
`oldchs`, and the lines that have been printed. -/
structure Dumper where
  count : Nat
  chs : List UInt8
  oldchs : List UInt8
  showedDots : Bool
  lines : List (List Char)

/-- What is done about a row when the next octet does not belong to it. -/
def Dumper.endRow (dumper : Dumper) : Dumper :=
  let printed :=
    if rowsEq dumper.oldchs dumper.chs then
      if dumper.showedDots then
        dumper
      else
        { dumper with showedDots := true, lines := dumper.lines ++ [dotsLine] }
    else
      { dumper with
        showedDots := false
        lines := dumper.lines ++ [dumpRow dumper.count dumper.chs] }
  { printed with
    oldchs := memccpy dumper.oldchs (intStorage dumper.chs) 16 sizeOfIntType
    chs := [] }

/-- A turn of the loop. -/
def Dumper.next (dumper : Dumper) (ch : UInt8) : Dumper :=
  let ready := if dumper.chs.length = 16 then dumper.endRow else dumper
  { ready with count := ready.count + 1, chs := ready.chs ++ [ch] }

def Dumper.start : Dumper := ⟨0, [], intStorage (List.replicate 16 0), false, []⟩

/-- The lines that `AmqpDump` prints. -/
def amqpDump (buffer : List UInt8) : List (List Char) :=
  let dumper := buffer.foldl Dumper.next .start
  dumper.lines ++ [dumpRow dumper.count dumper.chs] ++
    if dumper.chs.length ≠ 0 then [hexField 8 dumper.count] else []

/-! ## Lines -/

/-- What a line of a dump says. -/
inductive DumpLine where
  | row (offset : Nat) (octets : List UInt8)
  | dots
  | total (count : Nat)
  deriving DecidableEq

namespace DumpLine

def text : DumpLine → List Char
  | row offset octets => dumpRow (offset + octets.length) octets
  | dots => dotsLine
  | total count => hexField 8 count

/-- The values in the columns of a row, of which `left` are to come. -/
def readColumns : Nat → List Char → List UInt8
  | 0, _ => []
  | left + 1, text =>
      match text.drop (columnGap left).length with
      | high :: low :: rest =>
          if high = ' ' then [] else UInt8.ofNat (readHex [high, low]) :: readColumns left rest
      | _ => []

/-- The line with a text. What follows the offset of a row takes 52 characters. -/
def read (text : List Char) : DumpLine :=
  if text.head? = some ' ' then
    dots
  else if ' ' ∈ text then
    row (readHex (text.take (text.length - 52))) (readColumns 16 (text.drop (text.length - 52)))
  else
    total (readHex text)

end DumpLine

/-- The octets of the lines. Between a row and the one before it that one is repeated. -/
def rebuildRows (written previous : List UInt8) : List DumpLine → List UInt8
  | [] => written
  | .row offset row :: lines =>
      let repeated := List.replicate ((offset - written.length) / 16) previous
      rebuildRows (written ++ repeated.flatten ++ row) row lines
  | _ :: lines => rebuildRows written previous lines

/-- The buffer that a dump is read as. -/
def rebuild (lines : List (List Char)) : List UInt8 :=
  rebuildRows [] (List.replicate 16 0) (lines.map DumpLine.read)

/-! ## Reading a line -/

section Reading

theorem length_dumpColumns (left : Nat) (row : List UInt8) (fits : row.length ≤ left) :
    (dumpColumns left row).length + row.length = 3 * left + if 8 ≤ left then 2 else 0 := by
  induction left generalizing row with
  | zero =>
      obtain rfl := List.length_eq_zero_iff.mp (Nat.le_zero.mp fits)
      rfl
  | succ left ih =>
      cases row with
      | nil =>
          have later := ih [] (Nat.zero_le _)
          simp only [dumpColumns, columnGap, List.length_append, List.length_nil,
            List.length_cons] at later ⊢
          split_ifs at later ⊢ <;> simp only [List.length_cons, List.length_nil] <;> omega
      | cons value row =>
          have later := ih row (Nat.le_of_succ_le_succ fits)
          have width : (hexField 2 value.toNat).length = 2 :=
            length_hexField (by decide) value.toNat_lt
          simp only [dumpColumns, columnGap, List.length_append, List.length_cons,
            width] at later ⊢
          split_ifs at later ⊢ <;> simp only [List.length_cons, List.length_nil] <;> omega

theorem hexField_octet (value : UInt8) : ∃ high low, hexField 2 value.toNat = [high, low] ∧
    high ≠ ' ' := by
  have width : (hexField 2 value.toNat).length = 2 := length_hexField (by decide) value.toNat_lt
  obtain ⟨high, low, isField⟩ := List.length_eq_two.mp width
  refine ⟨high, low, isField, fun blank => blank_not_mem_hexField 2 value.toNat ?_⟩
  rw [isField, blank]
  exact List.mem_cons_self

/-- The columns of a row are read back, whatever is behind them. -/
theorem readColumns_dumpColumns (left : Nat) (row : List UInt8) (rest : List Char)
    (fits : row.length ≤ left) :
    DumpLine.readColumns left (dumpColumns left row ++ rest) = row := by
  induction left generalizing row with
  | zero =>
      obtain rfl := List.length_eq_zero_iff.mp (Nat.le_zero.mp fits)
      rfl
  | succ left ih =>
      cases row with
      | nil =>
          rw [dumpColumns, List.append_assoc, DumpLine.readColumns, List.drop_left]
          rfl
      | cons value row =>
          obtain ⟨high, low, isField, notBlank⟩ := hexField_octet value
          have isValue : readHex [high, low] = value.toNat := by
            rw [← isField, readHex_hexField]
          rw [dumpColumns, List.append_assoc, DumpLine.readColumns, List.drop_left, isField]
          show (if high = ' ' then [] else
            _ :: DumpLine.readColumns left (dumpColumns left row ++ rest)) = _
          rw [if_neg notBlank, ih row (Nat.le_of_succ_le_succ fits), isValue, UInt8.ofNat_toNat]

/-- A number starts with a digit. -/
theorem head?_hexField_append {width : Nat} (value : Nat) (rest : List Char)
    (positive : 0 < width) : (hexField width value ++ rest).head? ≠ some ' ' := by
  have digits := le_length_hexField width value
  cases isField : hexField width value with
  | nil =>
      rw [isField] at digits
      exact absurd positive (Nat.not_lt.mpr digits)
  | cons digit digits =>
      intro blank
      refine blank_not_mem_hexField width value ?_
      rw [isField, ← Option.some.inj blank]
      exact List.mem_cons_self

/-- Lines with a row of up to sixteen octets. -/
def DumpLine.Printable : DumpLine → Prop
  | row _ octets => 0 < octets.length ∧ octets.length ≤ 16
  | _ => True

/-- The text of a row behind its offset. -/
def rowText (octets : List UInt8) : List Char :=
  dumpColumns 16 octets ++ [' ', ' '] ++
    octets.map fun value => if isPrint value then Char.ofNat value.toNat else '.'

theorem dumpRow_eq {offset : Nat} {octets : List UInt8} (some_ : 0 < octets.length) :
    dumpRow (offset + octets.length) octets = hexField 8 offset ++ rowText octets := by
  unfold dumpRow
  rw [Nat.add_sub_cancel, if_pos some_]
  rfl

theorem length_rowText {octets : List UInt8} (fits : octets.length ≤ 16) :
    (rowText octets).length = 52 := by
  have columns := length_dumpColumns 16 octets fits
  simp only [rowText, List.length_append, List.length_map, List.length_cons, List.length_nil]
  simp only [show 8 ≤ 16 from by decide, if_true] at columns
  omega

/-- The text of a line says what the line says. -/
theorem DumpLine.read_text {line : DumpLine} (printable : line.Printable) :
    read line.text = line := by
  cases line with
  | dots => rfl
  | total count =>
      have digit := head?_hexField_append count [] (Nat.zero_lt_succ 7)
      rw [List.append_nil] at digit
      have noBlank := blank_not_mem_hexField 8 count
      rw [text, read, if_neg digit, if_neg noBlank, readHex_hexField]
  | row offset octets =>
      obtain ⟨some_, fits⟩ := printable
      have digit := head?_hexField_append offset (rowText octets) (Nat.zero_lt_succ 7)
      have blank : ' ' ∈ hexField 8 offset ++ rowText octets := by
        simp [rowText]
      have isOffset : (hexField 8 offset ++ rowText octets).length - 52 =
          (hexField 8 offset).length := by
        rw [List.length_append, length_rowText fits, Nat.add_sub_cancel]
      have columns : readColumns 16 (rowText octets) = octets := by
        unfold rowText
        rw [List.append_assoc]
        exact readColumns_dumpColumns 16 octets _ fits
      rw [text, dumpRow_eq some_, read, if_neg digit, if_pos blank, isOffset, List.take_left,
        List.drop_left, readHex_hexField, columns]

end Reading

/-! ## The rows of a dump -/

/-- What the row before is taken for. -/
def comparedRow (previous : List UInt8) : List UInt8 := previous.headD 0 :: List.replicate 15 0

/-- The lines for rows that are followed by more octets, with the row before them. -/
def dumpLines (previous : List UInt8) (showedDots : Bool) (offset : Nat) :
    List (List UInt8) → List DumpLine
  | [] => []
  | row :: rows =>
      if row = comparedRow previous then
        (if showedDots then [] else [.dots]) ++ dumpLines row true (offset + 16) rows
      else
        .row offset row :: dumpLines row false (offset + 16) rows

/-- Complete rows, and the row behind them. -/
structure IsRows (rows : List (List UInt8)) (last : List UInt8) : Prop where
  complete : ∀ row ∈ rows, row.length = 16
  nonempty : 0 < last.length
  fits : last.length ≤ 16

section Rows

variable {dumper : Dumper} {rows : List (List UInt8)} {row previous last octets : List UInt8}

theorem intStorage_cons (value : UInt8) (values : List UInt8) :
    intStorage (value :: values) = value :: 0 :: 0 :: 0 :: intStorage values := rfl

theorem intStorage_injective (values others : List UInt8) :
    intStorage values = intStorage others ↔ values = others := by
  refine ⟨fun same => ?_, congrArg intStorage⟩
  induction values generalizing others with
  | nil =>
      cases others with
      | nil => rfl
      | cons => cases same
  | cons value values ih =>
      cases others with
      | nil => cases same
      | cons other others =>
          simp only [intStorage_cons, List.cons.injEq, true_and] at same
          rw [same.1, ih others same.2]

theorem memccpy_zero (dst src : List UInt8) (c : UInt8) : memccpy dst src c 0 = dst := by
  cases dst <;> cases src <;> rfl

/-- `memccpy` copies the first value and nothing else. -/
theorem memccpy_intStorage (complete : row.length = 16) :
    memccpy (intStorage (comparedRow previous)) (intStorage row) 16 sizeOfIntType =
      intStorage (comparedRow row) := by
  cases row with
  | nil => cases complete
  | cons value values =>
      have zero : (0 : UInt8) ≠ 16 := by decide
      simp only [comparedRow, intStorage_cons, sizeOfIntType, memccpy, List.headD_cons, if_neg zero,
        memccpy_zero, ite_self]

/-- Octets that fit into the row. -/
theorem foldl_next_fill (fits : dumper.chs.length + octets.length ≤ 16) :
    octets.foldl Dumper.next dumper =
      { dumper with count := dumper.count + octets.length, chs := dumper.chs ++ octets } := by
  induction octets generalizing dumper with
  | nil => simp
  | cons octet octets ih =>
      rw [List.length_cons] at fits
      have ready : dumper.next octet =
          { dumper with count := dumper.count + 1, chs := dumper.chs ++ [octet] } := by
        unfold Dumper.next
        rw [if_neg (by omega)]
      rw [List.foldl_cons, ready, ih (by simp only [List.length_append, List.length_singleton]; omega)]
      simp only [List.length_cons, List.append_assoc, List.singleton_append]
      congr 1
      omega

/-- A row ends where more octets follow. -/
theorem foldl_next_endRow (complete : dumper.chs.length = 16) (more : octets ≠ []) :
    octets.foldl Dumper.next dumper = octets.foldl Dumper.next dumper.endRow := by
  cases octets with
  | nil => exact absurd rfl more
  | cons octet octets =>
      have same : dumper.next octet = dumper.endRow.next octet := by
        unfold Dumper.next
        rw [if_pos complete]
        rfl
      rw [List.foldl_cons, List.foldl_cons, same]

/-- A dumper between two rows. -/
structure Dumper.Between (dumper : Dumper) (previous : List UInt8) : Prop where
  chs : dumper.chs = []
  oldchs : dumper.oldchs = intStorage (comparedRow previous)

/-- A row that equals the one it is compared with. -/
theorem Dumper.Between.endRow_repeated (between : dumper.Between previous)
    (complete : row.length = 16) (same : row = comparedRow previous) :
    ({ dumper with count := dumper.count + 16, chs := row } : Dumper).endRow =
      ⟨dumper.count + 16, [], intStorage (comparedRow row), true,
        dumper.lines ++ if dumper.showedDots then [] else [dotsLine]⟩ := by
  have equal : rowsEq dumper.oldchs row = true := by
    rw [rowsEq, between.oldchs, ← same]
    exact beq_self_eq_true _
  have copied := @memccpy_intStorage row previous complete
  rw [← between.oldchs] at copied
  unfold Dumper.endRow
  simp only [equal, if_true, copied]
  cases dumper.showedDots <;> simp

theorem Dumper.Between.endRow_different (between : dumper.Between previous)
    (complete : row.length = 16) (different : row ≠ comparedRow previous) :
    ({ dumper with count := dumper.count + 16, chs := row } : Dumper).endRow =
      ⟨dumper.count + 16, [], intStorage (comparedRow row), false,
        dumper.lines ++ [dumpRow (dumper.count + row.length) row]⟩ := by
  have unequal : rowsEq dumper.oldchs row = false := by
    rw [rowsEq, between.oldchs]
    refine beq_eq_false_iff_ne.mpr fun same => different ?_
    exact ((intStorage_injective _ _).mp same).symm
  have copied := @memccpy_intStorage row previous complete
  rw [← between.oldchs] at copied
  unfold Dumper.endRow
  simp only [unequal, Bool.false_eq_true, if_false, copied, complete]

theorem foldl_next (between : dumper.Between previous) (isRows : IsRows rows last) :
    let final := (rows.flatten ++ last).foldl Dumper.next dumper
    final.count = dumper.count + 16 * rows.length + last.length ∧ final.chs = last ∧
      final.lines = dumper.lines ++
        (dumpLines previous dumper.showedDots dumper.count rows).map DumpLine.text := by
  induction rows generalizing dumper previous with
  | nil =>
      have fits : dumper.chs.length + last.length ≤ 16 := by
        rw [between.chs]
        exact Nat.le_trans (Nat.le_of_eq (Nat.zero_add _)) isRows.fits
      intro final
      have isFinal : final = _ := foldl_next_fill fits
      rw [isFinal, between.chs]
      exact ⟨rfl, rfl, (List.append_nil _).symm⟩
  | cons row rows ih =>
      have complete := isRows.complete row List.mem_cons_self
      have others : IsRows rows last :=
        ⟨fun other member => isRows.complete other (List.mem_cons_of_mem _ member),
          isRows.nonempty, isRows.fits⟩
      have more : rows.flatten ++ last ≠ [] := by
        intro empty
        exact absurd isRows.nonempty (by rw [(List.append_eq_nil_iff.mp empty).2]; decide)
      let filled : Dumper := { dumper with count := dumper.count + 16, chs := row }
      have fills : row.foldl Dumper.next dumper = filled := by
        rw [foldl_next_fill (by rw [between.chs, complete]; decide), between.chs, complete]
        rfl
      have onwards : ((row :: rows).flatten ++ last).foldl Dumper.next dumper =
          (rows.flatten ++ last).foldl Dumper.next filled.endRow := by
        rw [List.flatten_cons, List.append_assoc, List.foldl_append, fills,
          foldl_next_endRow complete more]
      intro final
      have isFinal : final = _ := onwards
      rw [isFinal]
      by_cases same : row = comparedRow previous
      · have ended : filled.endRow = _ := between.endRow_repeated complete same
        have after : filled.endRow.Between row := by
          rw [ended]
          exact ⟨rfl, rfl⟩
        obtain ⟨count, chs, lines⟩ := ih after others
        refine ⟨?_, chs, ?_⟩
        · rw [count, ended, List.length_cons]
          dsimp only
          omega
        · rw [lines, ended, dumpLines, if_pos same]
          cases dumper.showedDots <;> simp [DumpLine.text]
      · have ended : filled.endRow = _ := between.endRow_different complete same
        have after : filled.endRow.Between row := by
          rw [ended]
          exact ⟨rfl, rfl⟩
        obtain ⟨count, chs, lines⟩ := ih after others
        refine ⟨?_, chs, ?_⟩
        · rw [count, ended, List.length_cons]
          dsimp only
          omega
        · rw [lines, ended, dumpLines, if_neg same]
          simp [DumpLine.text]

/-- The first row is compared with zeros. -/
def zeroRow : List UInt8 := List.replicate 16 0

theorem between_start : Dumper.start.Between zeroRow where
  chs := rfl
  oldchs := rfl

/-- What a dump consists of. -/
theorem amqpDump_eq (isRows : IsRows rows last) : amqpDump (rows.flatten ++ last) =
    (dumpLines zeroRow false 0 rows ++ [DumpLine.row (16 * rows.length) last,
      DumpLine.total (16 * rows.length + last.length)]).map DumpLine.text := by
  obtain ⟨count, chs, lines⟩ := foldl_next between_start isRows
  have some_ : last.length ≠ 0 := Nat.ne_of_gt isRows.nonempty
  unfold amqpDump
  simp only [count, chs, lines, if_pos some_]
  simp [Dumper.start, DumpLine.text]

end Rows

/-! ## What a dump loses -/

/-- The row before the next one. -/
def preceding : List UInt8 → List (List UInt8) → List UInt8
  | previous, [] => previous
  | _, row :: before => preceding row before

/-- A row that is left out repeats the one before it. -/
def Faithful (previous : List UInt8) : List (List UInt8) → Prop
  | [] => True
  | row :: rows => (row = comparedRow previous → row = previous) ∧ Faithful row rows

section Losses

variable {rows before after : List (List UInt8)} {row previous last : List UInt8}
  {showedDots : Bool} {offset : Nat}

theorem faithful_iff : Faithful previous rows ↔ ∀ before row after,
    rows = before ++ row :: after → row = comparedRow (preceding previous before) →
      row = preceding previous before := by
  induction rows generalizing previous with
  | nil => simp [Faithful]
  | cons first rows ih =>
      constructor
      · intro faithful before row after split same
        cases before with
        | nil =>
            cases split
            exact faithful.1 same
        | cons other before =>
            obtain ⟨rfl, rest⟩ := List.cons.inj split
            exact ih.mp faithful.2 before row after rest same
      · intro all
        refine ⟨all [] first rows rfl, ih.mpr fun before row after split => ?_⟩
        exact all (first :: before) row after (congrArg (first :: ·) split)

/-- The rows that are printed are those that differ from the one they are compared with. -/
theorem mem_dumpLines {start : Nat} :
    DumpLine.row offset row ∈ dumpLines previous showedDots start rows ↔
      ∃ before after, rows = before ++ row :: after ∧ offset = start + 16 * before.length ∧
        row ≠ comparedRow (preceding previous before) := by
  induction rows generalizing previous showedDots start with
  | nil => simp [dumpLines]
  | cons first rows ih =>
      have later (showedDots : Bool) :
          DumpLine.row offset row ∈ dumpLines first showedDots (start + 16) rows ↔
            ∃ before after, first :: rows = (first :: before) ++ row :: after ∧
              offset = start + 16 * (first :: before).length ∧
              row ≠ comparedRow (preceding previous (first :: before)) := by
        rw [ih]
        constructor
        · rintro ⟨before, after, split, isOffset, different⟩
          refine ⟨before, after, congrArg (first :: ·) split, ?_, different⟩
          rw [isOffset, List.length_cons]
          omega
        · rintro ⟨before, after, split, isOffset, different⟩
          refine ⟨before, after, (List.cons.inj split).2, ?_, different⟩
          rw [isOffset, List.length_cons]
          omega
      have behind (showedDots : Bool)
          (found : DumpLine.row offset row ∈ dumpLines first showedDots (start + 16) rows) :
          ∃ before after, first :: rows = before ++ row :: after ∧
            offset = start + 16 * before.length ∧
            row ≠ comparedRow (preceding previous before) := by
        obtain ⟨before, after, facts⟩ := (later showedDots).mp found
        exact ⟨first :: before, after, facts⟩
      by_cases same : first = comparedRow previous
      · rw [dumpLines, if_pos same]
        constructor
        · intro found
          refine behind true ((List.mem_append.mp found).resolve_left fun dots => ?_)
          cases showedDots with
          | true => cases dots
          | false => cases List.mem_singleton.mp dots
        · rintro ⟨before, after, split, isOffset, different⟩
          cases before with
          | nil =>
              cases split
              exact absurd same different
          | cons other before =>
              obtain ⟨rfl, _⟩ := List.cons.inj split
              exact List.mem_append_right _
                ((later true).mpr ⟨before, after, split, isOffset, different⟩)
      · rw [dumpLines, if_neg same]
        constructor
        · intro found
          cases List.mem_cons.mp found with
          | inl isFirst =>
              cases isFirst
              exact ⟨[], rows, rfl, rfl, same⟩
          | inr found => exact behind false found
        · rintro ⟨before, after, split, isOffset, different⟩
          cases before with
          | nil =>
              cases split
              rw [isOffset]
              exact List.mem_cons_self
          | cons other before =>
              obtain ⟨rfl, _⟩ := List.cons.inj split
              exact List.mem_cons_of_mem _
                ((later false).mpr ⟨before, after, split, isOffset, different⟩)

/-- Dots make no difference to what is rebuilt. -/
theorem rebuildRows_dots (written : List UInt8) (lines : List DumpLine) :
    rebuildRows written previous ((if showedDots then [] else [.dots]) ++ lines) =
      rebuildRows written previous lines := by
  cases showedDots <;> rfl

/-- A faithful dump is read back, with `count` repetitions of the row before. -/
theorem rebuildRows_of_faithful {written : List UInt8} {count total : Nat}
    (faithful : Faithful previous rows) (complete : ∀ row ∈ rows, row.length = 16)
    (wide : previous.length = 16) (isOffset : offset = written.length + 16 * count) :
    rebuildRows written previous (dumpLines previous showedDots offset rows ++
        [DumpLine.row (offset + 16 * rows.length) last, DumpLine.total total]) =
      written ++ (List.replicate count previous).flatten ++ rows.flatten ++ last := by
  induction rows generalizing previous showedDots offset written count with
  | nil =>
      have repeated : (offset + 16 * 0 - written.length) / 16 = count := by omega
      simp only [dumpLines, List.nil_append, rebuildRows, List.length_nil, repeated,
        List.flatten_nil, List.append_nil]
  | cons row rows ih =>
      have others : ∀ row ∈ rows, row.length = 16 :=
        fun other member => complete other (List.mem_cons_of_mem _ member)
      have wide' := complete row List.mem_cons_self
      have isEnd : offset + 16 * (row :: rows).length = offset + 16 + 16 * rows.length := by
        rw [List.length_cons]
        omega
      rw [isEnd]
      by_cases same : row = comparedRow previous
      · obtain rfl := faithful.1 same
        rw [dumpLines, if_pos same, List.append_assoc, rebuildRows_dots]
        rw [@ih row true (offset + 16) written (count + 1) faithful.2 others wide (by omega)]
        simp [List.replicate_succ']
      · have repeated : (offset - written.length) / 16 = count := by omega
        have width : (List.replicate count previous).flatten.length = 16 * count := by
          simp [wide, Nat.mul_comm]
        rw [dumpLines, if_neg same, List.cons_append, rebuildRows, repeated,
          @ih row false (offset + 16) _ 0 faithful.2 others wide' ?_]
        · simp
        · simp only [List.length_append, width, wide']
          omega

end Losses

/-! ## Buffers -/

/-- A row of a buffer, which is shorter at the end. -/
def rowAt (buffer : List UInt8) (index : Nat) : List UInt8 :=
  (buffer.drop (16 * index)).take 16

/-- The row before, or zeros for the first one. -/
def rowBefore (buffer : List UInt8) : Nat → List UInt8
  | 0 => zeroRow
  | index + 1 => rowAt buffer index

section Buffers

variable {rows before after : List (List UInt8)} {row last buffer : List UInt8}

theorem exists_rows {buffer : List UInt8} (some_ : buffer ≠ []) :
    ∃ rows last, IsRows rows last ∧ buffer = rows.flatten ++ last := by
  by_cases short : buffer.length ≤ 16
  · refine ⟨[], buffer, ⟨?_, List.length_pos_iff.mpr some_, short⟩, rfl⟩
    intro row member
    cases member
  · have more : buffer.drop 16 ≠ [] := by
      intro empty
      exact short (List.drop_eq_nil_iff.mp empty)
    obtain ⟨rows, last, isRows, split⟩ := exists_rows more
    have complete : (buffer.take 16).length = 16 := by
      rw [List.length_take]
      omega
    refine ⟨buffer.take 16 :: rows, last, ⟨?_, isRows.nonempty, isRows.fits⟩, ?_⟩
    · intro row member
      cases List.mem_cons.mp member with
      | inl isFirst => rw [isFirst, complete]
      | inr later => exact isRows.complete row later
    · rw [List.flatten_cons, List.append_assoc, ← split, List.take_append_drop]
termination_by buffer.length
decreasing_by
  rw [List.length_drop]
  omega

theorem length_flatten_rows (complete : ∀ row ∈ rows, row.length = 16) :
    rows.flatten.length = 16 * rows.length := by
  induction rows with
  | nil => rfl
  | cons row rows ih =>
      have others := ih fun other member => complete other (List.mem_cons_of_mem _ member)
      rw [List.flatten_cons, List.length_append, complete row List.mem_cons_self, others,
        List.length_cons]
      omega

theorem preceding_concat (previous row : List UInt8) (before : List (List UInt8)) :
    preceding previous (before ++ [row]) = row := by
  induction before generalizing previous with
  | nil => rfl
  | cons first before ih => exact ih first

theorem IsRows.rowAt_last (isRows : IsRows rows last) :
    rowAt (rows.flatten ++ last) rows.length = last := by
  unfold rowAt
  rw [List.drop_left' (length_flatten_rows isRows.complete), List.take_of_length_le isRows.fits]

theorem IsRows.rowAt (isRows : IsRows (before ++ row :: after) last) :
    RabbitmqC.rowAt ((before ++ row :: after).flatten ++ last) before.length = row := by
  have earlier : ∀ other ∈ before, other.length = 16 :=
    fun other member => isRows.complete other (List.mem_append_left _ member)
  have complete : row.length = 16 :=
    isRows.complete row (List.mem_append_right _ List.mem_cons_self)
  unfold RabbitmqC.rowAt
  rw [List.flatten_append, List.flatten_cons, List.append_assoc,
    List.drop_left' (length_flatten_rows earlier), List.append_assoc, List.take_left' complete]

theorem IsRows.rowBefore (isRows : IsRows (before ++ after) last) :
    RabbitmqC.rowBefore ((before ++ after).flatten ++ last) before.length =
      preceding zeroRow before := by
  induction before using List.reverseRecOn with
  | nil => rfl
  | append_singleton before row _ =>
      rw [List.append_assoc] at isRows ⊢
      rw [List.length_append, preceding_concat]
      exact isRows.rowAt

theorem exists_before {index : Nat} (bound : index < rows.length) :
    ∃ before row after, rows = before ++ row :: after ∧ before.length = index := by
  refine ⟨rows.take index, rows[index], rows.drop (index + 1), ?_, ?_⟩
  · rw [← List.drop_eq_getElem_cons bound, List.take_append_drop]
  · rw [List.length_take, Nat.min_eq_left (Nat.le_of_lt bound)]

/-- The lines of a dump with these rows. -/
def linesOf (rows : List (List UInt8)) (last : List UInt8) : List DumpLine :=
  dumpLines zeroRow false 0 rows ++
    [.row (16 * rows.length) last, .total (16 * rows.length + last.length)]

theorem IsRows.printable (isRows : IsRows rows last) : ∀ line ∈ linesOf rows last,
    line.Printable := by
  intro line member
  cases line with
  | dots => trivial
  | total => trivial
  | row offset octets =>
      cases List.mem_append.mp member with
      | inl complete =>
          obtain ⟨before, after, split, _⟩ := mem_dumpLines.mp complete
          have width := isRows.complete octets
            (split ▸ List.mem_append_right _ List.mem_cons_self)
          exact ⟨by omega, by omega⟩
      | inr ending =>
          rcases List.mem_cons.mp ending with isLast | isTotal
          · cases isLast
            exact ⟨isRows.nonempty, isRows.fits⟩
          · cases List.mem_singleton.mp isTotal

/-- The text of a dump says what its lines say. -/
theorem IsRows.map_read (isRows : IsRows rows last) :
    (amqpDump (rows.flatten ++ last)).map DumpLine.read = linesOf rows last := by
  rw [amqpDump_eq isRows, List.map_map]
  refine (List.map_congr_left fun line member => ?_).trans (List.map_id _)
  exact DumpLine.read_text (isRows.printable line member)

/-- A row is printed if its line is one of the dump. -/
theorem IsRows.mem_amqpDump (isRows : IsRows rows last) {line : DumpLine}
    (printable : line.Printable) :
    line.text ∈ amqpDump (rows.flatten ++ last) ↔ line ∈ linesOf rows last := by
  constructor
  · intro member
    have said : DumpLine.read line.text ∈
        (amqpDump (rows.flatten ++ last)).map DumpLine.read := List.mem_map_of_mem member
    rwa [DumpLine.read_text printable, isRows.map_read] at said
  · intro member
    rw [amqpDump_eq isRows]
    exact List.mem_map_of_mem member

/-- A complete row is printed if it differs from the one it is compared with. -/
theorem IsRows.row_mem (isRows : IsRows (before ++ row :: after) last) :
    (DumpLine.row (16 * before.length) row).text ∈
        amqpDump ((before ++ row :: after).flatten ++ last) ↔
      row ≠ comparedRow (preceding zeroRow before) := by
  have complete : row.length = 16 :=
    isRows.complete row (List.mem_append_right _ List.mem_cons_self)
  have printable : (DumpLine.row (16 * before.length) row).Printable := ⟨by omega, by omega⟩
  rw [isRows.mem_amqpDump printable]
  constructor
  · intro member
    cases List.mem_append.mp member with
    | inl inside =>
        obtain ⟨before', after', split, isOffset, different⟩ := mem_dumpLines.mp inside
        have sameLength : before.length = before'.length := by omega
        rw [(List.append_inj split sameLength).1]
        exact different
    | inr ending =>
        rcases List.mem_cons.mp ending with isLast | isTotal
        · have isOffset := (DumpLine.row.inj isLast).1
          rw [List.length_append, List.length_cons] at isOffset
          omega
        · cases List.mem_singleton.mp isTotal
  · intro different
    exact List.mem_append_left _ (mem_dumpLines.mpr ⟨before, after, rfl, by omega, different⟩)

theorem IsRows.length_eq (isRows : IsRows rows last) :
    (rows.flatten ++ last).length = 16 * rows.length + last.length := by
  rw [List.length_append, length_flatten_rows isRows.complete]

end Buffers

/-- A row that is left out equals the one before it, every other row is printed with its offset,
and the buffer can be rebuilt. -/
structure LosesNothing (buffer : List UInt8) : Prop where
  printed : ∀ index, 16 * index < buffer.length →
    (DumpLine.row (16 * index) (rowAt buffer index)).text ∈ amqpDump buffer ∨
      rowAt buffer index = rowBefore buffer index
  rebuilt : rebuild (amqpDump buffer) = buffer

/-- A buffer is dumped without loss if every row with zeros behind its first octet, and more
octets behind it, equals the row before it or differs from that in the first octet. -/
theorem losesNothing_iff (buffer : List UInt8) : LosesNothing buffer ↔
    ∀ index, 16 * (index + 1) < buffer.length →
      rowAt buffer index = comparedRow (rowBefore buffer index) →
        rowAt buffer index = rowBefore buffer index := by
  by_cases some_ : buffer = []
  · subst some_
    refine ⟨fun _ index bound => absurd bound (Nat.not_lt_zero _), fun _ => ⟨?_, rfl⟩⟩
    exact fun index bound => absurd bound (Nat.not_lt_zero _)
  · obtain ⟨rows, last, isRows, rfl⟩ := exists_rows some_
    have fits := isRows.fits
    have nonempty := isRows.nonempty
    constructor
    · intro loses index bound same
      rw [isRows.length_eq] at bound
      obtain ⟨before, row, after, rfl, rfl⟩ := @exists_before rows index (by omega)
      rcases loses.printed before.length (by rw [isRows.length_eq]; omega) with printed | equal
      · rw [isRows.rowAt, isRows.rowBefore] at same
        rw [isRows.rowAt] at printed
        exact absurd same (isRows.row_mem.mp printed)
      · exact equal
    · intro condition
      constructor
      · intro index bound
        rw [isRows.length_eq] at bound
        rcases Nat.lt_or_ge index rows.length with inside | isLast
        · obtain ⟨before, row, after, rfl, rfl⟩ := exists_before inside
          by_cases same : row = comparedRow (preceding zeroRow before)
          · refine .inr (condition before.length ?_ ?_)
            · rw [isRows.length_eq]
              omega
            · rw [isRows.rowAt, isRows.rowBefore]
              exact same
          · refine .inl ?_
            rw [isRows.rowAt]
            exact isRows.row_mem.mpr same
        · obtain rfl : index = rows.length := by omega
          refine .inl ?_
          rw [isRows.rowAt_last]
          have printable : (DumpLine.row (16 * rows.length) last).Printable := ⟨nonempty, fits⟩
          exact (isRows.mem_amqpDump printable).mpr (List.mem_append_right _ List.mem_cons_self)
      · have faithful : Faithful zeroRow rows := by
          refine faithful_iff.mpr fun before row after split same => ?_
          subst split
          have bound : 16 * (before.length + 1) <
              ((before ++ row :: after).flatten ++ last).length := by
            rw [isRows.length_eq, List.length_append, List.length_cons]
            omega
          have equal := condition before.length bound
          rw [isRows.rowAt, isRows.rowBefore] at equal
          exact equal same
        have rebuilt := @rebuildRows_of_faithful rows zeroRow last false 0 [] 0
          (16 * rows.length + last.length) faithful isRows.complete rfl rfl
        rw [Nat.zero_add] at rebuilt
        unfold rebuild
        rw [isRows.map_read]
        exact rebuilt

/-- A row of zeros behind one that starts with a zero but has another octet. -/
def zerosBehindRow : List UInt8 :=
  0 :: 1 :: List.replicate 14 0 ++ List.replicate 16 0 ++ [2]

/-- The row of zeros is left out, and the dump is read as another buffer. -/
theorem zerosBehindRow_is_lost : ¬ LosesNothing zerosBehindRow := by
  intro loses
  have different : rebuild (amqpDump zerosBehindRow) ≠ zerosBehindRow := by decide +kernel
  exact different loses.rebuilt

end RabbitmqC
