import TaskFlow.Proofs.Json.Fits
import TaskFlow.Rows.FuzzyJoin

namespace TaskFlow

namespace Json

variable {n : Nat} {j v : Json} {name : String} {fs gs : List (String × Json)}

structure TidyFields (n : Nat) (fs : List (String × Json)) : Prop where
  ordered : InOrder fs
  each : ∀ f ∈ fs, f.2.Tidy n

namespace TidyFields

theorem nil : TidyFields n [] := ⟨.nil, List.forall_mem_nil _⟩

theorem obj (h : TidyFields n fs) : (Json.obj fs).Tidy (n + 1) := .obj h.ordered h.each

theorem insertField (h : TidyFields n fs) (value : v.Tidy n) :
    TidyFields n (insertField name v fs) := by
  refine ⟨inOrder_insertField h.ordered, fun f hf => ?_⟩
  rcases mem_insertField hf with rfl | hf
  · exact value
  · exact h.each f hf

end TidyFields

theorem Tidy.fields (h : j.Tidy (n + 1)) : TidyFields n j.fields := by
  cases h with
  | obj ordered h => exact ⟨ordered, h⟩
  | null | bool | num | str | arr => exact .nil

theorem Tidy.field? (h : j.Tidy (n + 1)) (found : j.field? name = some v) : v.Tidy n := by
  obtain ⟨f, hf, rfl⟩ := Option.map_eq_some_iff.mp found
  exact h.fields.each f (List.mem_of_find?_eq_some hf)

theorem tidy_ofFields (h : ∀ f ∈ fs, f.2.Tidy n) : (ofFields fs).Tidy (n + 1) := by
  obtain ⟨gs, made, ordered, given⟩ := ofFields_eq fs
  rw [made]
  exact .obj ordered fun g hg => h g (given g hg)

theorem tidy_ofDouble (x : Double) : (ofDouble x).Tidy n := by
  unfold ofDouble
  split
  · exact .num trivial
  · exact .null

theorem tidy_ofSum (x : Double) : (ofSum x).Tidy n := by
  unfold ofSum
  split
  · split
    · next k _ small =>
      have bound : k.natAbs < UInt64.size / 2 := by simp_all
      refine .num ?_
      simp only [Number.Spelled, UInt64.size] at bound ⊢
      omega
    · exact tidy_ofDouble x
  · exact .null

end Json

namespace Rows

def Tidy (n : Nat) (rows : List Row) : Prop := ∀ row ∈ rows, Json.Tidy n row

variable {n : Nat} {rows left right : List Row} {key : String}

theorem tidy_nil : Tidy n [] := List.forall_mem_nil _

theorem tidy_append : Tidy n (left ++ right) ↔ Tidy n left ∧ Tidy n right :=
  List.forall_mem_append

theorem Tidy.of_subset (h : Tidy n rows) (sub : left ⊆ rows) : Tidy n left :=
  fun row hrow => h row (sub hrow)

theorem Tidy.mono {m : Nat} (h : Tidy n rows) (le : n ≤ m) : Tidy m rows :=
  fun row hrow => (h row hrow).mono le

theorem Tidy.filter (h : Tidy n rows) (field : String) (expected : Json) :
    Tidy n (filter field expected rows) := h.of_subset List.filter_sublist.subset

theorem Tidy.select (h : Tidy (n + 1) rows) (fields : List String) :
    Tidy (n + 1) (select fields rows) := by
  refine List.forall_mem_map.mpr fun row hrow => Json.tidy_ofFields ?_
  refine List.forall_mem_map.mpr fun name _ => ?_
  cases found : row.field? name with
  | none => exact .null
  | some v => exact (h row hrow).field? found

theorem tidy_reduceByKey (key value : String) (rows : List Row) :
    Tidy (n + 1) (reduceByKey key value rows) := by
  refine List.forall_mem_map.mpr fun sum _ => Json.tidy_ofFields ?_
  exact List.forall_mem_cons.mpr ⟨.str sum.1,
    List.forall_mem_singleton.mpr (Json.tidy_ofSum sum.2)⟩

theorem tidy_addRight {fs : List (String × Json)} {f : String × Json} (h : Json.TidyFields n fs)
    (value : f.2.Tidy n) : Json.TidyFields n (addRight fs f) := by
  unfold addRight
  split
  · exact h.insertField value
  · exact h.insertField value

theorem tidy_foldl_addRight {fs gs : List (String × Json)} (h : Json.TidyFields n fs)
    (values : ∀ g ∈ gs, g.2.Tidy n) : Json.TidyFields n (gs.foldl addRight fs) := by
  induction gs generalizing fs with
  | nil => exact h
  | cons g gs ih =>
    obtain ⟨first, others⟩ := List.forall_mem_cons.mp values
    exact ih (tidy_addRight h first) others

variable {l r : Row}

theorem tidy_merge (hl : l.Tidy (n + 1)) (hr : r.Tidy (n + 1)) :
    (merge key l r).Tidy (n + 1) :=
  (tidy_foldl_addRight hl.fields fun f hf => hr.fields.each f (List.mem_of_mem_filter hf)).obj

theorem tidy_mergeScored (hl : l.Tidy (n + 1)) (hr : r.Tidy (n + 1)) (score : Double) :
    (mergeScored l r score).Tidy (n + 1) := by
  have fields := tidy_foldl_addRight hl.fields hr.fields.each
  exact (fields.insertField (Json.tidy_ofDouble _)).obj

theorem tidy_index_add {ix : Index} (h : ∀ e ∈ ix, Tidy n e.2) (row : r.Tidy n) :
    ∀ e ∈ ix.add key r, Tidy n e.2 := by
  induction ix with
  | nil => exact List.forall_mem_singleton.mpr (List.forall_mem_singleton.mpr row)
  | cons e ix ih =>
    obtain ⟨first, others⟩ := List.forall_mem_cons.mp h
    rw [Index.add]
    split
    · exact List.forall_mem_cons.mpr
        ⟨tidy_append.mpr ⟨first, List.forall_mem_singleton.mpr row⟩, others⟩
    · exact List.forall_mem_cons.mpr ⟨first, ih others⟩

theorem Tidy.index (h : Tidy n rows) (key : String) : ∀ e ∈ index key rows, Tidy n e.2 := by
  unfold Rows.index
  refine List.foldlRecOn rows _ (motive := fun ix : Index => ∀ e ∈ ix, Tidy n e.2)
    (List.forall_mem_nil _) fun ix kept row hrow => ?_
  split
  · exact tidy_index_add kept (h row hrow)
  · exact kept

theorem tidy_find {ix : Index} (h : ∀ e ∈ ix, Tidy n e.2) (key : String) :
    Tidy n (ix.find key) := by
  unfold Index.find
  cases found : ix.find? (·.1 == key) with
  | none => exact tidy_nil
  | some e => exact h e (List.mem_of_find?_eq_some found)

theorem tidy_joinByKey (hl : Tidy (n + 1) left) (hr : Tidy (n + 1) right) (key : String) :
    Tidy (n + 1) (joinByKey key left right) := by
  intro row hrow
  obtain ⟨l, hl', hrow⟩ := List.mem_flatMap.mp hrow
  split at hrow
  · next k _ =>
    obtain ⟨r, hr', rfl⟩ := List.mem_map.mp hrow
    exact tidy_merge (hl l hl') (tidy_find (hr.index key) k r hr')
  · cases hrow

theorem Tidy.keyed (h : Tidy n rows) (field : String) :
    ∀ e ∈ keyed field rows, Json.Tidy n e.2 := by
  intro e he
  obtain ⟨row, hrow, keyed⟩ := List.mem_filterMap.mp he
  obtain ⟨k, -, rfl⟩ := Option.map_eq_some_iff.mp keyed
  exact h row hrow

theorem tidy_fuzzyJoin (keys : FuzzyKeys) (hl : Tidy (n + 1) left) (hr : Tidy (n + 1) right) :
    Tidy (n + 1) (fuzzyJoin keys left right) := by
  intro row hrow
  obtain ⟨⟨lk, l⟩, hl', hrow⟩ := List.mem_flatMap.mp hrow
  obtain ⟨⟨rk, r⟩, hr', hrow⟩ := List.mem_filterMap.mp hrow
  dsimp only at hrow
  split at hrow
  · cases hrow
    exact tidy_mergeScored (hl.keyed keys.leftOn _ hl') (hr.keyed keys.rightOn _ hr') _
  · cases hrow

end Rows

end TaskFlow
