import Aesd.Lib.Bytes
import Aesd.Lib.Hex
import Aesd.Server.Dispatch

/-!
# The text of a hex dump

`hexDump` prints one line for every sixteen bytes. A line has three fields at fixed places: the
offset in front of the first blank, the hex columns behind it, and the characters between the bars.
Read back from the hex columns, the text gives the bytes that were dumped (`hexDump_faithful`).
-/

namespace Aesd

open CInt Bytes

/-! ### Reading a dump -/

/-- The offset: what is in front of the first blank. -/
def offsetField (line : Text) : Text := line.takeWhile (· ≠ 32)

/-- The line from its hex columns on: two blanks come between the offset and them. -/
def behindOffset (line : Text) : Text := (line.dropWhile (· ≠ 32)).drop 2

/-- The sixteen hex columns of three characters, with one more blank in the middle. -/
def hexField (line : Text) : Text := (behindOffset line).take 49

/-- The characters between the bars. -/
def barField (line : Text) : Text := ((behindOffset line).drop 51).dropLast

/-- The byte that a numeral stands for. -/
def readNumeral (numeral : Text) : Option Byte := (Hex.value numeral).map UInt8.ofNat

/-- The bytes that the numerals of a field stand for. -/
def readHexField (field : Text) : Option (List Byte) := (words (· == 32) field).mapM readNumeral

/-- The bytes in the hex columns of all lines, one line after the other. -/
def readHexDump (text : Text) : Option (List Byte) :=
  ((splitLines newline text).mapM fun line => readHexField (hexField line)).map List.flatten

/-- The character that is shown for a byte. -/
def shownChar (b : Byte) : Byte := if isprint b then b else 46

/-- `text` is a dump of `data`: it consists of lines with bars, as many as there are groups of
sixteen bytes. The offsets count in sixteens, the hex columns give the data, and between the bars
there is a character for each byte. -/
structure DumpOf (data : List Byte) (text : Text) : Prop where
  lines : text = (splitLines newline text).flatMap fun line => line ++ [newline]
  count : (splitLines newline text).length = (data.length + 15) / 16
  fields : ∀ line ∈ splitLines newline text,
    line = offsetField line ++ str "  " ++ hexField line ++ str " |" ++ barField line ++ str "|"
  offsets : ∀ i line, (splitLines newline text)[i]? = some line →
    8 ≤ (offsetField line).length ∧ Hex.value (offsetField line) = some (16 * i)
  hex : readHexDump text = some data
  chars : ∀ i line, (splitLines newline text)[i]? = some line →
    (barField line).length = min 16 (data.length - 16 * i) ∧
      ∀ j < (barField line).length, (barField line)[j]? = data[16 * i + j]?.map shownChar

/-! ### One line -/

/-- Column `j` of a row, with the blank behind the eighth. -/
def hexColumn (row : List Byte) (j : ℕ) : Text :=
  (row[j]?.elim (str "   ") fun b => hexPadded true 2 b.toNat ++ str " ") ++
    if j = 7 then str " " else []

/-- The hex columns of a row. -/
def hexColumns (row : List Byte) : Text := (List.range 16).flatMap (hexColumn row)

/-- The line of a row at offset `i`. -/
def dumpLine (i : ℕ) (row : List Byte) : Text :=
  hexPadded false 8 i ++ str "  " ++ hexColumns row ++ str " |" ++ row.map shownChar ++ str "|"

variable {i j : ℕ} {row data : List Byte}

lemma hexPadded_eq (upper : Bool) (width n : ℕ) :
    hexPadded upper width n = Hex.padded upper width n := by
  simp only [hexPadded, Hex.padded, Hex.digits, List.length_map, List.map_map]
  rfl

/-- The pieces that are printed make up the line. -/
lemma flatten_hexDumpLine (i : ℕ) (row : List Byte) :
    (hexDumpLine i row).flatten = dumpLine i row ++ [newline] := by
  have hcolumns : ((List.range 16).flatMap fun j =>
      [row[j]?.elim (str "   ") fun b => hexPadded true 2 b.toNat ++ str " "] ++
        if j = 7 then [str " "] else []).flatten = hexColumns row := by
    rw [List.flatten_eq_flatMap, List.flatMap_assoc, hexColumns]
    refine List.flatMap_congr fun j _ => ?_
    unfold hexColumn
    split_ifs <;> simp
  have hchars : (row.map fun b => [if isprint b then b else 46]).flatten = row.map shownChar := by
    rw [← List.flatMap_def, List.map_eq_flatMap]
    rfl
  have hend : str "|\n" = str "|" ++ [newline] := by decide
  rw [hexDumpLine, List.flatten_append, List.flatten_append, List.flatten_append,
    List.flatten_append, hcolumns, hchars, dumpLine]
  simp [hend]

/-- A numeral has no bytes that are not digits. -/
lemma ne_of_mem_hexPadded {upper : Bool} {width n : ℕ} {b c : Byte}
    (hb : b ∈ hexPadded upper width n) (hc : Hex.digitValue c = none) : b ≠ c := by
  rintro rfl
  rw [hexPadded_eq] at hb
  have hdigit := Hex.isSome_of_mem_padded hb
  rw [hc] at hdigit
  cases hdigit

lemma hexPadded_ne_nil (upper : Bool) (width n : ℕ) : hexPadded upper width n ≠ [] := by
  rw [hexPadded_eq]
  exact Hex.padded_ne_nil

lemma length_hexPadded_byte (b : Byte) : (hexPadded true 2 b.toNat).length = 2 := by
  rw [hexPadded_eq]
  exact Hex.length_padded_of_lt (by decide) b.toNat_lt

lemma length_hexColumn (row : List Byte) (j : ℕ) :
    (hexColumn row j).length = 3 + if j = 7 then 1 else 0 := by
  have hgap : (if j = 7 then str " " else []).length = if j = 7 then 1 else 0 := by
    split_ifs <;> rfl
  rw [hexColumn, List.length_append, hgap]
  cases row[j]? with
  | none => rfl
  | some b =>
    rw [Option.elim_some, List.length_append, length_hexPadded_byte]
    rfl

lemma length_hexColumns (row : List Byte) : (hexColumns row).length = 49 := by
  simp only [hexColumns, List.length_flatMap, length_hexColumn]
  rfl

lemma str_blank : str " " = [32] := by decide

/-- A column ends with a blank. -/
lemma hexColumn_eq (row : List Byte) (j : ℕ) :
    ∃ s sep, (sep == 32) = true ∧ hexColumn row j = s ++ [sep] := by
  obtain ⟨s, hs⟩ : ∃ s : Text, (row[j]?.elim (str "   ") fun b =>
      hexPadded true 2 b.toNat ++ str " ") = s ++ [32] := by
    cases row[j]? with
    | none => exact ⟨[32, 32], by decide⟩
    | some b => exact ⟨hexPadded true 2 b.toNat, congrArg _ str_blank⟩
  rw [hexColumn, hs]
  split_ifs
  · exact ⟨s ++ [32], 32, rfl, congrArg _ str_blank⟩
  · exact ⟨s, 32, rfl, List.append_nil _⟩

/-- The word in a column is the numeral of its byte. -/
lemma words_hexColumn (row : List Byte) (j : ℕ) : words (· == 32) (hexColumn row j) =
    (row[j]?.map fun b => hexPadded true 2 b.toNat).toList := by
  have hgap : ∀ b ∈ (if j = 7 then str " " else []), (b == 32) = true := by
    split_ifs <;> simp [str_blank]
  rw [hexColumn, words_append_separators _ _ hgap]
  cases row[j]? with
  | none => decide
  | some b =>
    rw [Option.elim_some, words_append_separators _ _ (by simp [str_blank]), words_of_none]
    · rfl
    · intro c hc
      rw [beq_eq_false_iff_ne]
      exact ne_of_mem_hexPadded hc (by decide)
    · exact hexPadded_ne_nil _ _ _

/-- The words in the columns are the numerals of the row. -/
lemma words_hexColumns (hrow : row.length ≤ 16) : words (· == 32) (hexColumns row) =
    row.map fun b => hexPadded true 2 b.toNat := by
  rw [hexColumns, words_flatMap _ fun j _ => hexColumn_eq row j]
  simp only [words_hexColumn]
  rw [← List.filterMap_eq_flatMap_toList, ← List.map_filterMap, filterMap_range_getElem?,
    List.take_of_length_le hrow]

lemma readHexField_hexColumns (hrow : row.length ≤ 16) :
    readHexField (hexColumns row) = some row := by
  have hread : ∀ b ∈ row, readNumeral (hexPadded true 2 b.toNat) = some b := by
    intro b _
    rw [readNumeral, hexPadded_eq, Hex.value_padded, Option.map_some, UInt8.ofNat_toNat]
  rw [readHexField, words_hexColumns hrow, mapM_map_of_forall hread, List.map_id']

lemma takeWhile_dumpLine (i : ℕ) (row : List Byte) :
    offsetField (dumpLine i row) = hexPadded false 8 i ∧
      behindOffset (dumpLine i row) =
        hexColumns row ++ str " |" ++ row.map shownChar ++ str "|" := by
  have hblanks : str "  " = [32, 32] := by decide
  have hoffset : ∀ b ∈ hexPadded false 8 i, decide (b ≠ 32) = true := by
    intro b hb
    exact decide_eq_true (ne_of_mem_hexPadded hb (by decide))
  have hline : dumpLine i row = hexPadded false 8 i ++ 32 :: 32 ::
      (hexColumns row ++ str " |" ++ row.map shownChar ++ str "|") := by
    simp [dumpLine, hblanks]
  constructor
  · rw [offsetField, hline, List.takeWhile_append_of_pos hoffset,
      List.takeWhile_cons_of_neg (by simp),
      List.append_nil]
  · rw [behindOffset, hline, List.dropWhile_append_of_pos hoffset,
      List.dropWhile_cons_of_neg (by simp)]
    rfl

lemma offsetField_dumpLine (i : ℕ) (row : List Byte) :
    offsetField (dumpLine i row) = hexPadded false 8 i := (takeWhile_dumpLine i row).1

lemma hexField_dumpLine (i : ℕ) (row : List Byte) :
    hexField (dumpLine i row) = hexColumns row := by
  rw [hexField, (takeWhile_dumpLine i row).2, List.append_assoc, List.append_assoc]
  exact List.take_left' (length_hexColumns row)

lemma barField_dumpLine (i : ℕ) (row : List Byte) :
    barField (dumpLine i row) = row.map shownChar := by
  have hlength : (hexColumns row ++ str " |").length = 51 := by
    rw [List.length_append, length_hexColumns]
    rfl
  have hbar : str "|" = [124] := by decide
  rw [barField, (takeWhile_dumpLine i row).2, List.append_assoc, List.drop_left' hlength, hbar,
    List.dropLast_concat]

/-- There is no newline inside a line. -/
lemma newline_notMem_dumpLine (i : ℕ) (row : List Byte) : newline ∉ dumpLine i row := by
  have hnumeral : ∀ upper width n, newline ∉ hexPadded upper width n :=
    fun upper width n h => ne_of_mem_hexPadded h (by decide) rfl
  have hcolumns : newline ∉ hexColumns row := by
    intro h
    obtain ⟨j, -, h⟩ := List.mem_flatMap.mp h
    rcases List.mem_append.mp h with h | h
    · cases hb : row[j]? with
      | none =>
        rw [hb] at h
        revert h
        decide
      | some b =>
        rw [hb, Option.elim_some] at h
        rcases List.mem_append.mp h with h | h
        · exact hnumeral _ _ _ h
        · revert h
          decide
    · split_ifs at h
      · revert h
        decide
      · cases h
  have hchars : newline ∉ row.map shownChar := by
    intro h
    obtain ⟨b, -, h⟩ := List.mem_map.mp h
    rw [shownChar] at h
    split_ifs at h with hprint
    · rw [h] at hprint
      revert hprint
      decide
    · revert h
      decide
  simp only [dumpLine, List.mem_append, not_or]
  exact ⟨⟨⟨⟨⟨hnumeral _ _ _, by decide⟩, hcolumns⟩, by decide⟩, hchars⟩, by decide⟩

/-! ### The whole text -/

/-- The bytes of line `i`. -/
def dumpRow (data : List Byte) (i : ℕ) : List Byte := (data.drop (16 * i)).take 16

/-- The lines of a dump. -/
def dumpLines (data : List Byte) : List Text :=
  (List.range ((data.length + 15) / 16)).map fun i => dumpLine (16 * i) (dumpRow data i)

lemma flatten_hexDump (data : List Byte) :
    (hexDump data).flatten = (dumpLines data).flatMap fun line => line ++ [newline] := by
  rw [hexDump, List.flatten_eq_flatMap, List.flatMap_assoc, dumpLines, List.flatMap_map]
  refine List.flatMap_congr fun i _ => ?_
  rw [← List.flatten_eq_flatMap]
  exact flatten_hexDumpLine _ _

/-- The text falls apart into the lines. -/
lemma splitLines_hexDump (data : List Byte) :
    splitLines newline (hexDump data).flatten = dumpLines data := by
  rw [flatten_hexDump]
  apply splitLines_flatMap
  intro line hline
  obtain ⟨i, -, rfl⟩ := List.mem_map.mp hline
  exact newline_notMem_dumpLine _ _

lemma getElem?_dumpLines {line : Text} (hline : (dumpLines data)[i]? = some line) :
    line = dumpLine (16 * i) (dumpRow data i) := by
  rw [dumpLines, List.getElem?_map, Option.map_eq_some_iff] at hline
  obtain ⟨k, hk, rfl⟩ := hline
  obtain ⟨hlt, rfl⟩ := List.getElem?_eq_some_iff.mp hk
  rw [List.getElem_range]

lemma flatMap_dumpRow (data : List Byte) :
    (List.range ((data.length + 15) / 16)).flatMap (dumpRow data) = data := by
  have hpieces := flatMap_pieces 16 ((data.length + 15) / 16) data
  rwa [List.take_of_length_le (by omega)] at hpieces

/-- The hex columns of all lines give the data. -/
lemma readHexDump_hexDump (data : List Byte) : readHexDump (hexDump data).flatten = some data := by
  have hread : ∀ i ∈ List.range ((data.length + 15) / 16),
      readHexField (hexField (dumpLine (16 * i) (dumpRow data i))) = some (dumpRow data i) := by
    intro i _
    rw [hexField_dumpLine]
    exact readHexField_hexColumns (List.length_take_le _ _)
  rw [readHexDump, splitLines_hexDump, dumpLines,
    mapM_map_of_forall (g := fun line => readHexField (hexField line)) hread, Option.map_some,
    ← List.flatMap_def, flatMap_dumpRow]

/-- The dump is a faithful picture of the bytes, and different bytes have different dumps. -/
theorem hexDump_faithful :
    (∀ data : List Byte, DumpOf data (hexDump data).flatten) ∧
      Function.Injective fun data : List Byte => (hexDump data).flatten := by
  constructor
  · intro data
    have hlines := splitLines_hexDump data
    refine ⟨?_, ?_, ?_, ?_, readHexDump_hexDump data, ?_⟩
    · -- the text is that of its lines
      rw [hlines]
      exact flatten_hexDump data
    · -- there is one for every sixteen bytes
      rw [hlines, dumpLines, List.length_map, List.length_range]
    · -- they have the shape of a line
      intro line hline
      rw [hlines] at hline
      obtain ⟨i, -, rfl⟩ := List.mem_map.mp hline
      rw [offsetField_dumpLine, hexField_dumpLine, barField_dumpLine]
      rfl
    · -- the offset
      intro i line hline
      rw [hlines] at hline
      rw [getElem?_dumpLines hline, offsetField_dumpLine, hexPadded_eq]
      exact ⟨Hex.width_le_length_padded, Hex.value_padded _ _ _⟩
    · -- the text column
      intro i line hline
      rw [hlines] at hline
      rw [getElem?_dumpLines hline, barField_dumpLine, List.length_map]
      constructor
      · rw [dumpRow, List.length_take, List.length_drop]
      · intro j hj
        rw [List.getElem?_map, dumpRow, List.getElem?_take_of_lt, List.getElem?_drop]
        exact hj.trans_le (List.length_take_le _ _)
  · intro data data' h
    have hread := readHexDump_hexDump data
    rw [show (hexDump data).flatten = (hexDump data').flatten from h] at hread
    exact Option.some.inj (hread.symm.trans (readHexDump_hexDump data'))

end Aesd
