import TaskFlow.Proofs.FileSystem.Basic
import TaskFlow.Proofs.Json.Lines
import TaskFlow.Proofs.Json.Sorted
import TaskFlow.Proofs.Rows.Tidy

namespace TaskFlow

namespace Table

variable {n : Nat} {row : Row} {rows : List Row}

theorem tidy_lineRow {line : Text.Bytes} (h : lineRow line = .ok (some row)) :
    row.Tidy Json.maxDepth := by
  unfold lineRow at h
  dsimp only at h
  split at h
  · obtain ⟨s, -, h⟩ := bind_eq_ok.mp h
    split at h
    · cases h
    · split at h
      · next parsed =>
        cases h
        exact Json.tidy_of_parse parsed
      · cases h
  · cases h

theorem tidy_linesRows {lines : List Text.Bytes} (h : linesRows lines = .ok rows) :
    Rows.Tidy Json.maxDepth rows := by
  induction lines generalizing rows with
  | nil =>
    cases h
    exact Rows.tidy_nil
  | cons line lines ih =>
    obtain ⟨r, hr, h⟩ := bind_eq_ok.mp h
    obtain ⟨rs, hrs, h⟩ := bind_eq_ok.mp h
    cases h
    refine Rows.tidy_append.mpr ⟨fun row hrow => ?_, ih hrs⟩
    rw [Option.mem_toList.mp hrow] at hr
    exact tidy_lineRow hr

theorem tidy_csvRow (columns cells : List String) : (csvRow columns cells).Tidy (n + 1) := by
  refine Json.tidy_ofFields fun f hf => ?_
  obtain ⟨i, c, -, rfl⟩ := List.mem_mapIdx.mp hf
  exact .str _

theorem tidy_csvRows {columns : List String} {records : List Csv.RawRecord}
    (h : csvRows columns records = .ok rows) : Rows.Tidy (n + 1) rows := by
  induction records generalizing rows with
  | nil =>
    cases h
    exact Rows.tidy_nil
  | cons record records ih =>
    obtain ⟨cells, -, h⟩ := bind_eq_ok.mp h
    obtain ⟨rest, hrest, h⟩ := bind_eq_ok.mp h
    cases h
    split
    · exact ih hrest
    · exact List.forall_mem_cons.mpr ⟨tidy_csvRow columns cells, ih hrest⟩

/-- A table of tidy rows with the columns of its rows. -/
structure Tidy (t : Table) : Prop where
  rows : Rows.Tidy Json.maxDepth t.rows
  columns : ofRows t.rows = t

theorem tidy_ofRows (h : Rows.Tidy Json.maxDepth rows) : (ofRows rows).Tidy := ⟨h, rfl⟩

theorem lineRow_jsonlLine (tidy : row.Tidy Json.maxDepth) (legible : row.Legible) :
    lineRow (jsonlLine row) = .ok (some row) := by
  have line : Text.lineText? (jsonlLine row) = some row.text := Json.lineText?_text row
  have blank : Text.blank row.text = false := Json.blank_text tidy.fits legible
  have parsed : Json.parse row.text = .ok row := by
    have scanned := Json.scan_text tidy.fits legible .nil
    rw [List.append_nil] at scanned
    exact Json.parse_eq_ok.mpr ⟨_, _, scanned, Json.Doc.read_ofJson tidy, rfl⟩
  rw [lineRow, line]
  dsimp only
  rw [pure_bind, blank, if_neg Bool.false_ne_true, parsed]
  rfl

theorem linesRows_jsonlLine (tidy : Rows.Tidy Json.maxDepth rows)
    (legible : ∀ row ∈ rows, row.Legible) : linesRows (rows.map jsonlLine) = .ok rows := by
  induction rows with
  | nil => rfl
  | cons row rows ih =>
    obtain ⟨first, others⟩ := List.forall_mem_cons.mp tidy
    obtain ⟨legibleFirst, legibleOthers⟩ := List.forall_mem_cons.mp legible
    exact bind_eq_ok.mpr ⟨some row, lineRow_jsonlLine first legibleFirst,
      bind_eq_ok.mpr ⟨rows, ih others legibleOthers, rfl⟩⟩

theorem lines_toJsonl (t : Table) : Text.lines t.toJsonl = t.rows.map jsonlLine :=
  Text.lines_flatMap Json.newline_not_mem_text t.rows

theorem parseJsonl_toJsonl {t : Table} (tidy : Rows.Tidy Json.maxDepth t.rows)
    (legible : ∀ row ∈ t.rows, row.Legible) : parseJsonl t.toJsonl = .ok t.rows := by
  rw [parseJsonl, lines_toJsonl, linesRows_jsonlLine tidy legible]

end Table

namespace FileSystem

variable {fs : FileSystem} {path : String} {rows : List Row}

theorem tidy_readJsonl (h : fs.readJsonl path = .ok rows) : Rows.Tidy Json.maxDepth rows := by
  obtain ⟨content, -, parsed⟩ := bind_eq_ok.mp h
  exact Table.tidy_linesRows parsed

theorem tidy_readCsv (h : fs.readCsv path = .ok rows) : Rows.Tidy Json.maxDepth rows := by
  obtain ⟨content, -, h⟩ := bind_eq_ok.mp h
  obtain ⟨columns, -, parsed⟩ := bind_eq_ok.mp h
  exact Table.tidy_csvRows parsed

theorem tidy_readRows (h : fs.readRows path = .ok rows) : Rows.Tidy Json.maxDepth rows := by
  unfold readRows at h
  dsimp only at h
  split at h
  · exact tidy_readCsv h
  · split at h
    · exact tidy_readJsonl h
    · cases h

theorem readTable_of_read {t : Table} (h : fs.read path = .ok t.toJsonl) (tidy : t.Tidy)
    (legible : ∀ row ∈ t.rows, row.Legible) : fs.readTable path = .ok t := by
  have rows : fs.readJsonl path = .ok t.rows := by
    rw [readJsonl, h]
    exact Table.parseJsonl_toJsonl tidy.rows legible
  rw [readTable, rows]
  exact congrArg Except.ok tidy.columns

/-- Tidy rows are written in full where a file can be, one a line, and the table is read back as it
was. -/
theorem readTable_writeJsonl (tidy : Rows.Tidy Json.maxDepth rows)
    (legible : ∀ row ∈ rows, row.Legible) (writable : (fs.write path []).2 = .ok ()) :
    ∃ written content,
      fs.writeJsonl path (Table.ofRows rows) = (written, .ok content.length) ∧
      written.read path = .ok content ∧
      (Text.lines content).map Table.lineRow = rows.map (fun row => .ok (some row)) ∧
      written.readTable path = .ok (Table.ofRows rows) := by
  set t := Table.ofRows rows
  have wrote : fs.write path t.toJsonl = ((fs.write path t.toJsonl).1, .ok ()) :=
    Prod.ext rfl ((write_snd t.toJsonl []).trans writable)
  have read := read_write wrote
  refine ⟨(fs.write path t.toJsonl).1, t.toJsonl, ?_, read, ?_, ?_⟩
  · rw [writeJsonl, wrote]
  · rw [Table.lines_toJsonl, List.map_map]
    exact List.map_congr_left fun row hrow =>
      Table.lineRow_jsonlLine (tidy row hrow) (legible row hrow)
  · exact readTable_of_read read (Table.tidy_ofRows tidy) legible

/-- Rows of several shapes, with the ends of lines and blanks in their texts. -/
def assorted : List Row :=
  [.obj [("", .str "a\r\nb\u2028\"\\"),
      ("x", .arr [.null, .num (.real (.finite false (3 * 2 ^ 51) (-52))), .num (.int (-7))])],
    .null, .arr [], .str " \u0085\n", .str ""]

theorem assorted_read_back :
    Rows.Tidy Json.maxDepth assorted ∧ (∀ row ∈ assorted, row.Legible) ∧
    ∃ written content,
      FileSystem.writeJsonl {} "out/a.jsonl" (Table.ofRows assorted) =
        (written, .ok content.length) ∧
      written.read "out/a.jsonl" = .ok content ∧
      (Text.lines content).map Table.lineRow = assorted.map (fun row => .ok (some row)) ∧
      written.readTable "out/a.jsonl" = .ok (Table.ofRows assorted) := by
  have small : (Number.int (-7)).Spelled := by
    unfold Number.Spelled
    decide
  have tidy : Rows.Tidy Json.maxDepth assorted := by
    simp only [Rows.Tidy, assorted, List.forall_mem_cons]
    refine ⟨.obj (by unfold Json.InOrder; decide +kernel) ?_, .null, .arr (List.forall_mem_nil _),
      .str _, .str _, List.forall_mem_nil _⟩
    simp only [List.forall_mem_cons]
    refine ⟨.str _, .arr ?_, List.forall_mem_nil _⟩
    simp only [List.forall_mem_cons]
    exact ⟨.null, .num trivial, .num small, List.forall_mem_nil _⟩
  have legible : ∀ row ∈ assorted, row.Legible := by
    unfold Json.Legible
    decide +kernel
  exact ⟨tidy, legible, readTable_writeJsonl tidy legible (by decide +kernel)⟩

end FileSystem

end TaskFlow
