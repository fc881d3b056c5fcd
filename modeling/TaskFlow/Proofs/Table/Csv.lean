import Mathlib.Data.List.Forall2
import TaskFlow.Proofs.Csv.Records
import TaskFlow.Proofs.FileSystem.Basic
import TaskFlow.Proofs.Json.Fields

namespace TaskFlow

namespace Table

variable {columns : List String} {row : Row} {rows : List Row} {t : Table}

/-- Column names that a header keeps: there are some, all different, and reading takes nothing from
either end of them. -/
structure Headed (columns : List String) : Prop where
  nonempty : columns ≠ []
  distinct : columns.Nodup
  trimmed : ∀ c ∈ columns, Text.trim c = c
  unmarked : ∀ c ∈ columns, c.toList.dropWhile (· = '\ufeff') = c.toList

def Filled (columns : List String) (row : Row) : Prop :=
  ∃ c ∈ columns, Text.blank (cell row c) = false

instance (columns : List String) (row : Row) : Decidable (Filled columns row) :=
  inferInstanceAs (Decidable (∃ c ∈ columns, Text.blank (cell row c) = false))

/-- A row that has just the trimmed cells of another under their columns. -/
def HasCells (columns : List String) (row other : Row) : Prop :=
  ∃ fs, other = .obj fs ∧ fs.Perm (columns.map fun c => (c, .str (Text.trim (cell row c))))

theorem Headed.cleanHeader (h : Headed columns) : columns.map Csv.cleanHeader = columns := by
  refine (List.map_congr_left fun c hc => ?_).trans columns.map_id
  rw [Csv.cleanHeader, h.trimmed c hc, h.unmarked c hc, String.ofList_toList, id]

theorem Headed.head?_ne {column : String} (h : Headed columns) (there : column ∈ columns) :
    column.toList.head? ≠ some '\ufeff' := by
  intro mark
  obtain ⟨cs, text⟩ := List.head?_eq_some_iff.mp mark
  have kept := h.unmarked column there
  rw [text, List.dropWhile_cons_of_pos (by decide)] at kept
  have shorter := (List.dropWhile_suffix (· = '\ufeff') (l := cs)).length_le
  rw [kept, List.length_cons] at shorter
  omega

theorem csvRow_map (columns : List String) (f : String → String) :
    csvRow columns (columns.map f) = Json.ofFields (columns.map fun c => (c, .str (f c))) := by
  refine congrArg Json.ofFields (List.ext_getElem (by simp) fun i _ inside => ?_)
  rw [List.length_map] at inside
  simp [List.getElem?_eq_getElem inside]

theorem hasCells_csvRow (distinct : columns.Nodup) (row : Row) :
    HasCells columns row (csvRow columns ((columns.map (cell row)).map Text.trim)) := by
  rw [List.map_map, csvRow_map]
  refine Json.ofFields_perm ?_
  rw [List.map_map]
  exact (columns.map_id).symm ▸ distinct

theorem all_isEmpty_iff :
    ((columns.map (cell row)).map Text.trim).all String.isEmpty = true ↔ ¬Filled columns row := by
  simp [Filled, Text.isEmpty_trim]

theorem csvRows_of_fields (distinct : columns.Nodup) {records : List Csv.RawRecord}
    (h : records.map (·.fields) = rows.map fun r => (columns.map (cell r)).map Text.utf8) :
    ∃ out, csvRows columns records = .ok out ∧
      List.Forall₂ (HasCells columns) (rows.filter fun r => Filled columns r) out := by
  induction rows generalizing records with
  | nil =>
    rw [List.map_eq_nil_iff.mp h]
    exact ⟨[], rfl, .nil⟩
  | cons row rows ih =>
    obtain ⟨r, rs, rfl, fields, rest⟩ := List.map_eq_cons_iff.mp h
    obtain ⟨out, read, cells⟩ := ih rest
    have texts := Csv.dataTexts_of_fields fields
    rw [csvRows, texts, read]
    by_cases filled : Filled columns row
    · rw [List.filter_cons_of_pos (by simpa using filled)]
      refine ⟨_, ?_, .cons (hasCells_csvRow distinct row) cells⟩
      refine congrArg Except.ok (if_neg ?_)
      rw [all_isEmpty_iff]
      exact not_not_intro filled
    · rw [List.filter_cons_of_neg (by simpa using filled)]
      exact ⟨out, congrArg Except.ok (if_pos (all_isEmpty_iff.mpr filled)), cells⟩

theorem parseCsv_toCsv (headed : Headed t.columns) :
    ∃ rows, parseCsv t.toCsv = .ok rows ∧
      List.Forall₂ (HasCells t.columns) (t.rows.filter fun r => Filled t.columns r) rows := by
  obtain ⟨c, cs, names⟩ := List.exists_cons_of_ne_nil headed.nonempty
  have wide : ∀ r ∈ t.rows.map fun r => t.columns.map (cell r), r ≠ [] := by
    simp [headed.nonempty]
  have first := headed.head?_ne (names ▸ List.mem_cons_self ..)
  have fields := Csv.map_fields_records c cs first wide
  rw [← names] at fields
  obtain ⟨header, data, read, header', data'⟩ := List.map_eq_cons_iff.mp fields
  rw [List.map_map] at data'
  obtain ⟨rows, parsed, cells⟩ := csvRows_of_fields headed.distinct data'
  refine ⟨rows, ?_, cells⟩
  have columns := Csv.headers_of_fields header' data
  rw [headed.cleanHeader] at columns
  rw [parseCsv, toCsv, read, columns]
  exact parsed

end Table

namespace FileSystem

variable {fs : FileSystem} {path : String} {t : Table}

/-- A table that was written is read back as text: each row with a cell that is not blank, in order,
its cells without blanks around them. -/
theorem readCsv_writeCsv (headed : Table.Headed t.columns)
    (writable : (fs.write path []).2 = .ok ()) :
    ∃ written rows, fs.writeCsv path t = (written, .ok ()) ∧
      written.readCsv path = .ok rows ∧
      List.Forall₂ (Table.HasCells t.columns)
        (t.rows.filter fun r => Table.Filled t.columns r) rows := by
  have wrote : fs.write path t.toCsv = ((fs.write path t.toCsv).1, .ok ()) :=
    Prod.ext rfl ((write_snd t.toCsv []).trans writable)
  obtain ⟨rows, parsed, cells⟩ := Table.parseCsv_toCsv headed
  refine ⟨(fs.write path t.toCsv).1, rows, ?_, ?_, cells⟩
  · rw [writeCsv, wrote]
  · exact bind_eq_ok.mpr ⟨t.toCsv, by rw [read_write wrote]; rfl, parsed⟩

/-- Separators, quotes and ends of lines in names and cells, a row of blanks, a row that is no
object and one without a column. -/
def sheet : Table where
  columns := ["", "a,\"b\"", "c"]
  rows := [.obj [("", .str " x\r\ny,"), ("a,\"b\"", .arr [.str "\"", .null]), ("c", .str "\u00a0")],
    .obj [("c", .null), ("", .str "\t")], .str "c", .obj [("c", .bool true), ("d", .str "e")]]

theorem sheet_read_back : Table.Headed sheet.columns ∧
    ∃ written rows, FileSystem.writeCsv {} "out/a.csv" sheet = (written, .ok ()) ∧
      written.readCsv "out/a.csv" = .ok rows ∧ rows.length = 2 ∧
      List.Forall₂ (Table.HasCells sheet.columns)
        (sheet.rows.filter fun r => Table.Filled sheet.columns r) rows := by
  have headed : Table.Headed sheet.columns :=
    ⟨by decide, by decide, by decide +kernel, by decide +kernel⟩
  have writable : (FileSystem.write {} "out/a.csv" []).2 = .ok () := by decide +kernel
  obtain ⟨written, rows, wrote, read, cells⟩ := readCsv_writeCsv headed writable
  have two : (sheet.rows.filter fun r => Table.Filled sheet.columns r).length = 2 := by
    decide +kernel
  exact ⟨headed, written, rows, wrote, read, cells.length_eq.symm.trans two, cells⟩

end FileSystem

end TaskFlow
