import Mathlib.Data.List.Basic
import TaskFlow.Proofs.Json.Fields
import TaskFlow.Table.Files

namespace TaskFlow.Table

variable {columns names : List String} {a b name : String} {row : Row} {rows : List Row}

/-- The names of the fields of all rows, row by row; rows that are no objects have none. -/
def occurrences (rows : List Row) : List String := rows.flatMap fun row => row.fields.map (·.1)

def firstRow (rows : List Row) (name : String) : Nat :=
  rows.findIdx fun row => (row.field? name).isSome

/-- A name is found in an earlier row than another, or comes before it in the same row. -/
def AppearsBefore (rows : List Row) (a b : String) : Prop :=
  firstRow rows a < firstRow rows b ∨ firstRow rows a = firstRow rows b ∧ a < b

/-- Columns that are the names of the fields of rows, each once, as they appear. -/
structure Deduced (rows : List Row) (columns : List String) : Prop where
  distinct : columns.Nodup
  named : ∀ name, name ∈ columns ↔ ∃ fs, Json.obj fs ∈ rows ∧ name ∈ fs.map (·.1)
  ordered : columns.Pairwise fun a b => (occurrences rows).idxOf a < (occurrences rows).idxOf b

theorem addColumns_append (columns names others : List String) :
    addColumns columns (names ++ others) = addColumns (addColumns columns names) others :=
  List.foldl_append

theorem addColumns_singleton (columns : List String) (name : String) :
    addColumns columns [name] = if name ∈ columns then columns else columns ++ [name] := by
  simp [addColumns]

theorem mem_addColumns : name ∈ addColumns columns names ↔ name ∈ columns ∨ name ∈ names := by
  induction names using List.reverseRecOn with
  | nil => simp [addColumns]
  | append_singleton names n ih =>
    rw [addColumns_append, addColumns_singleton]
    split <;> grind

theorem prefix_addColumns (columns names : List String) : columns <+: addColumns columns names := by
  induction names using List.reverseRecOn with
  | nil => exact List.prefix_rfl
  | append_singleton names n ih =>
    rw [addColumns_append, addColumns_singleton]
    split
    · exact ih
    · exact ih.trans (List.prefix_append ..)

theorem pairwise_addColumns (names : List String) :
    (addColumns [] names).Pairwise fun a b => names.idxOf a < names.idxOf b := by
  -- From the end: a name that comes last leaves the places of all others as they are.
  induction names using List.reverseRecOn with
  | nil => exact .nil
  | append_singleton names n ih =>
    have met {a : String} (h : a ∈ addColumns [] names) : a ∈ names := by
      simpa [mem_addColumns] using h
    have earlier : (addColumns [] names).Pairwise fun a b =>
        (names ++ [n]).idxOf a < (names ++ [n]).idxOf b :=
      ih.imp_of_mem fun ha hb lt => by
        rwa [List.idxOf_append_of_mem (met ha), List.idxOf_append_of_mem (met hb)]
    rw [addColumns_append, addColumns_singleton]
    split
    · exact earlier
    · next fresh =>
      have unmet : n ∉ names := by simpa [mem_addColumns] using fresh
      refine List.pairwise_append.mpr ⟨earlier, List.pairwise_singleton .., fun a ha b hb => ?_⟩
      rw [List.mem_singleton.mp hb, List.idxOf_append_of_mem (met ha),
        List.idxOf_append_of_notMem unmet]
      exact Nat.lt_add_right _ (List.idxOf_lt_length_of_mem (met ha))

theorem columns_ofRows (rows : List Row) :
    (ofRows rows).columns = addColumns [] (occurrences rows) :=
  List.foldl_flatMap.symm

theorem mem_occurrences :
    name ∈ occurrences rows ↔ ∃ fs, Json.obj fs ∈ rows ∧ name ∈ fs.map (·.1) := by
  rw [occurrences, List.mem_flatMap]
  constructor
  · rintro ⟨row, there, found⟩
    cases row with
    | obj fs => exact ⟨fs, there, found⟩
    | _ => cases found
  · rintro ⟨fs, there, found⟩
    exact ⟨.obj fs, there, found⟩

theorem mem_columns_ofRows : name ∈ (ofRows rows).columns ↔ name ∈ occurrences rows := by
  rw [columns_ofRows, mem_addColumns]
  simp

theorem deduced_ofRows (rows : List Row) : Deduced rows (ofRows rows).columns := by
  have ordered := pairwise_addColumns (occurrences rows)
  rw [← columns_ofRows] at ordered
  refine ⟨ordered.imp fun lt => ?_, fun _ => mem_columns_ofRows.trans mem_occurrences, ordered⟩
  rintro rfl
  exact Nat.lt_irrefl _ lt

theorem Deduced.eq {others : List String} (h : Deduced rows columns) (h' : Deduced rows others) :
    columns = others := by
  have perm : columns.Perm others := (List.perm_ext_iff_of_nodup h.distinct h'.distinct).mpr
    fun name => (h.named name).trans (h'.named name).symm
  exact perm.eq_of_pairwise (fun _ _ _ _ lt gt => absurd gt (Nat.lt_asymm lt)) h.ordered h'.ordered

theorem columns_prefix (rows more : List Row) :
    (ofRows rows).columns <+: (ofRows (rows ++ more)).columns := by
  have split : occurrences (rows ++ more) = occurrences rows ++ occurrences more :=
    List.flatMap_append
  rw [columns_ofRows, columns_ofRows, split, addColumns_append]
  exact prefix_addColumns ..

theorem cell_eq_empty (there : row ∈ rows) (h : name ∉ (ofRows rows).columns) :
    cell row name = "" := by
  have absent : row.field? name = none := Json.lookup_eq_none.mpr fun found =>
    h (mem_columns_ofRows.mpr (List.mem_flatMap.mpr ⟨row, there, found⟩))
  rw [cell, absent]

theorem firstRow_cons : firstRow (row :: rows) name =
    if name ∈ row.fields.map (·.1) then 0 else firstRow rows name + 1 := by
  rw [firstRow, List.findIdx_cons, Json.field?]
  simp only [← Json.lookup_isSome]
  cases (Json.lookup name row.fields).isSome <;> rfl

theorem lt_of_idxOf_lt (sorted : names.Pairwise (· < ·)) (ha : a ∈ names) (hb : b ∈ names)
    (lt : names.idxOf a < names.idxOf b) : a < b := by
  have := List.pairwise_iff_getElem.mp sorted _ _ (List.idxOf_lt_length_of_mem ha)
    (List.idxOf_lt_length_of_mem hb) lt
  rwa [List.getElem_idxOf, List.getElem_idxOf] at this

theorem appearsBefore_of_idxOf_lt (sorted : ∀ row ∈ rows, Json.InOrder row.fields)
    (ha : a ∈ occurrences rows) (hb : b ∈ occurrences rows)
    (lt : (occurrences rows).idxOf a < (occurrences rows).idxOf b) : AppearsBefore rows a b := by
  induction rows with
  | nil => cases ha
  | cons row rows ih =>
    obtain ⟨first, others⟩ := List.forall_mem_cons.mp sorted
    simp only [occurrences, List.flatMap_cons] at ha hb lt
    rw [AppearsBefore, firstRow_cons, firstRow_cons]
    by_cases inA : a ∈ row.fields.map (·.1) <;> by_cases inB : b ∈ row.fields.map (·.1)
    · rw [List.idxOf_append_of_mem inA, List.idxOf_append_of_mem inB] at lt
      rw [if_pos inA, if_pos inB]
      exact .inr ⟨rfl, lt_of_idxOf_lt (List.pairwise_map.mpr first) inA inB lt⟩
    · rw [if_pos inA, if_neg inB]
      exact .inl (Nat.succ_pos _)
    · -- A name of this row cannot be met after one that is only in later rows.
      have before := List.idxOf_lt_length_of_mem inB
      rw [List.idxOf_append_of_notMem inA, List.idxOf_append_of_mem inB] at lt
      omega
    · rw [List.idxOf_append_of_notMem inA, List.idxOf_append_of_notMem inB] at lt
      rw [if_neg inA, if_neg inB]
      have later := ih others ((List.mem_append.mp ha).resolve_left inA)
        ((List.mem_append.mp hb).resolve_left inB) (Nat.lt_of_add_lt_add_left lt)
      exact later.imp Nat.succ_lt_succ (And.imp_left (congrArg _))

theorem pairwise_appearsBefore (sorted : ∀ row ∈ rows, Json.InOrder row.fields) :
    (ofRows rows).columns.Pairwise (AppearsBefore rows) :=
  (deduced_ofRows rows).ordered.imp_of_mem fun ha hb lt =>
    appearsBefore_of_idxOf_lt sorted (mem_columns_ofRows.mp ha) (mem_columns_ofRows.mp hb) lt

/-- The columns are the names of all fields, each once, in the order in which they are met first;
later rows only add to them. -/
theorem columns_as_they_appear (rows : List Row) :
    (∀ t, t = ofRows rows ↔ t.rows = rows ∧ Deduced rows t.columns) ∧
    ((∀ row ∈ rows, Json.InOrder row.fields) →
      (ofRows rows).columns.Pairwise (AppearsBefore rows)) ∧
    (∀ first, first <+: rows → (ofRows first).columns <+: (ofRows rows).columns) ∧
    ∀ row ∈ rows, ∀ name, name ∉ (ofRows rows).columns → cell row name = "" := by
  refine ⟨fun t => ⟨?_, ?_⟩, pairwise_appearsBefore, ?_, fun row there name => cell_eq_empty there⟩
  · rintro rfl
    exact ⟨rfl, deduced_ofRows rows⟩
  · rintro ⟨rfl, deduced⟩
    -- the columns are determined by what is asked of them
    obtain ⟨columns, rows⟩ := t
    exact congrArg (Table.mk · rows) (deduced.eq (deduced_ofRows rows))
  · rintro first ⟨more, rfl⟩
    exact columns_prefix first more

/-- Rows with fields in common and of their own, between rows that are no objects. -/
def uneven : List Row :=
  [.obj [("b", .null), ("d", .str "x")], .arr [.obj [("e", .null)]], .obj [],
    .obj [("a", .str "y"), ("b", .str "z"), ("é", .null)], .str "f",
    .obj [("c", .null), ("d", .null)]]

theorem columns_of_uneven : (∀ row ∈ uneven, Json.InOrder row.fields) ∧
    (ofRows uneven).columns = ["b", "d", "a", "é", "c"] ∧ Deduced uneven (ofRows uneven).columns ∧
    (ofRows uneven).columns.Pairwise (AppearsBefore uneven) ∧
    (ofRows (uneven.take 3)).columns <+: (ofRows uneven).columns ∧
    "e" ∉ (ofRows uneven).columns ∧ cell (.arr [.obj [("e", .null)]]) "e" = "" := by
  have sorted : ∀ row ∈ uneven, Json.InOrder row.fields := by
    unfold Json.InOrder
    decide +kernel
  have absent : "e" ∉ (ofRows uneven).columns := by decide +kernel
  obtain ⟨determined, ordered, growing, complete⟩ := columns_as_they_appear uneven
  exact ⟨sorted, by decide +kernel, ((determined _).mp rfl).2, ordered sorted,
    growing _ (List.take_prefix 3 uneven), absent, complete _ (by simp [uneven]) "e" absent⟩

end TaskFlow.Table
