import Mathlib.Data.List.Sort
import TaskFlow.Proofs.Binary.Rounding
import TaskFlow.Proofs.Json.Fields
import TaskFlow.Proofs.Store
import TaskFlow.Proofs.Text.ByteOrder
import TaskFlow.Rows.Basic

namespace TaskFlow.Rows

variable {key value k : String} {rows others : List Row} {r : Row} {x : Double}

def numberIn? (value : String) (r : Row) : Option Double := (r.field? value).bind Json.number?

/-- Whether a row counts for a key: it has that key, and a number. -/
def CountsFor (key value k : String) (r : Row) : Prop :=
  r.keyIn? key = some k ∧ (numberIn? value r).isSome

instance (key value k : String) (r : Row) : Decidable (CountsFor key value k r) :=
  inferInstanceAs (Decidable (_ ∧ _))

/-- The numbers of the rows that count for a key, in the order of the rows. -/
def summands (key value k : String) (rows : List Row) : List Double :=
  (rows.filter fun r => CountsFor key value k r).filterMap (numberIn? value)

/-- The sum of a key: its numbers added to zero, one after another. -/
def total (key value k : String) (rows : List Row) : Double :=
  (summands key value k rows).foldl Binary.add Binary.zero

theorem summands_append : summands key value k (rows ++ [r]) =
    summands key value k rows ++
      if r.keyIn? key = some k then (numberIn? value r).toList else [] := by
  rw [summands, List.filter_append, List.filterMap_append, ← summands]
  refine congrArg (_ ++ ·) ?_
  cases h : numberIn? value r <;> by_cases same : r.keyIn? key = some k <;>
    simp [CountsFor, h, same]

theorem total_append : total key value k (rows ++ [r]) =
    (if r.keyIn? key = some k then (numberIn? value r).toList else []).foldl Binary.add
      (total key value k rows) := by
  rw [total, summands_append, List.foldl_append]
  rfl

theorem total_of_nil (h : summands key value k rows = []) :
    total key value k rows = Binary.zero := by
  rw [total, h]
  rfl

theorem summands_eq_nil :
    summands key value k rows = [] ↔ ∀ r ∈ rows, ¬CountsFor key value k r := by
  rw [summands, List.filterMap_eq_nil_iff, List.forall_mem_filter]
  refine forall₂_congr fun r _ => ⟨fun h counts => ?_, fun h counts => ?_⟩
  · exact Option.isSome_iff_ne_none.mp counts.2 (h (decide_eq_true counts))
  · exact absurd (of_decide_eq_true counts) h

theorem get?_addSum (sums : Store Double) (key : String) (x : Double) :
    Store.get? (addSum key x sums) k =
      if key = k then some (((sums.get? k).getD Binary.zero).add x) else sums.get? k := by
  induction sums with
  | nil => simp [addSum, Store.get?_cons]
  | cons e sums ih =>
    obtain ⟨k', s⟩ := e
    rw [addSum]
    split <;> grind [Store.get?_cons]

theorem mem_ids_addSum (sums : Store Double) (key : String) (x : Double) :
    k ∈ Store.ids (addSum key x sums) ↔ k = key ∨ k ∈ sums.ids := by
  rw [Store.mem_ids, Store.mem_ids, get?_addSum]
  by_cases same : key = k
  · simp [same]
  · simp [same, Ne.symm same]

theorem nodup_addSum {sums : Store Double} (nodup : sums.ids.Nodup) (key : String) (x : Double) :
    (Store.ids (addSum key x sums)).Nodup := by
  induction sums with
  | nil => exact List.nodup_singleton key
  | cons e sums ih =>
    obtain ⟨k', s⟩ := e
    obtain ⟨fresh, nodup⟩ := List.nodup_cons.mp nodup
    rw [addSum]
    split
    · exact List.nodup_cons.mpr ⟨fresh, nodup⟩
    · next other =>
      refine List.nodup_cons.mpr ⟨fun there => ?_, ih nodup⟩
      exact ((mem_ids_addSum sums key x).mp there).elim other fresh

theorem sums_append : sums key value (rows ++ [r]) =
    match r.keyIn? key, numberIn? value r with
    | some k, some x => addSum k x (sums key value rows)
    | _, _ => sums key value rows := by
  rw [sums, List.foldl_append]
  rfl

/-- After the pass the keys that rows count for have their sums, and no others have one. -/
theorem get?_sums : Store.get? (sums key value rows) k =
    if summands key value k rows = [] then none else some (total key value k rows) := by
  induction rows using List.reverseRecOn with
  | nil => rfl
  | append_singleton rows r ih =>
    rw [sums_append, total_append, summands_append]
    cases keyed : r.keyIn? key with
    | none => simpa using ih
    | some k' =>
      cases counted : numberIn? value r with
      | none => simpa using ih
      | some x =>
        dsimp only
        rw [get?_addSum]
        by_cases same : k' = k
        · subst same
          have before : (Store.get? (sums key value rows) k').getD Binary.zero =
              total key value k' rows := by
            rw [ih]
            split
            · next none => exact (total_of_nil none).symm
            · rfl
          rw [if_pos rfl, if_pos rfl, before, if_neg (by simp)]
          rfl
        · simpa [same] using ih

theorem nodup_sums (key value : String) (rows : List Row) :
    (Store.ids (sums key value rows)).Nodup := by
  induction rows using List.reverseRecOn with
  | nil => exact List.nodup_nil
  | append_singleton rows r ih =>
    rw [sums_append]
    split
    · exact nodup_addSum ih _ _
    · exact ih

theorem reduceByKey_reorder {found : List (String × Double)}
    (perm : found.Perm (sums key value rows)) :
    (found.mergeSort fun a b => a.1 ≤ b.1).map (sumRow key value) = reduceByKey key value rows := by
  have sorted := Store.mergeSort_eq_of_perm (fun a b : String × Double => a.1 ≤ b.1)
    (fun a b c => by simpa using le_trans) (fun a b => by simpa using le_total a.1 b.1)
    (fun a ha b hb hab hba => List.inj_on_of_nodup_map (nodup_sums key value rows) ha hb
      (le_antisymm (of_decide_eq_true hab) (of_decide_eq_true hba))) perm.symm
  rw [reduceByKey, sorted]

def summedKeys (key value : String) (rows : List Row) : List String :=
  (Store.ids (sums key value rows)).mergeSort fun a b => a ≤ b

theorem mem_summedKeys :
    k ∈ summedKeys key value rows ↔ ∃ r ∈ rows, CountsFor key value k r := by
  rw [summedKeys, List.mem_mergeSort, Store.mem_ids, get?_sums]
  have some_iff : summands key value k rows ≠ [] ↔ ∃ r ∈ rows, CountsFor key value k r := by
    simpa using summands_eq_nil.not
  rw [← some_iff]
  split <;> simp_all

theorem summedKeys_pairwise (key value : String) (rows : List Row) :
    (summedKeys key value rows).Pairwise (· < ·) := by
  have sorted : (summedKeys key value rows).Pairwise (· ≤ ·) := List.pairwise_mergeSort' (· ≤ ·) _
  have nodup : (summedKeys key value rows).Nodup :=
    (List.mergeSort_perm _ _).nodup_iff.mpr (nodup_sums key value rows)
  exact (sorted.and nodup).imp fun h => lt_of_le_of_ne h.1 h.2

theorem reduceByKey_eq_map (key value : String) (rows : List Row) :
    reduceByKey key value rows =
      (summedKeys key value rows).map fun k => sumRow key value (k, total key value k rows) := by
  have pass : sums key value rows =
      (Store.ids (sums key value rows)).map fun k => (k, total key value k rows) := by
    rw [Store.ids, List.map_map]
    refine (List.map_id _).symm.trans (List.map_congr_left fun e he => Prod.ext rfl ?_)
    have found := Store.get?_of_mem (nodup_sums key value rows) he
    rw [get?_sums] at found
    split at found
    · cases found
    · exact (Option.some.inj found).symm
  have sorted := List.map_mergeSort (r := fun a b : String => decide (a ≤ b))
    (s := fun a b : String × Double => decide (a.1 ≤ b.1))
    (f := fun k => (k, total key value k rows)) (l := Store.ids (sums key value rows))
    fun _ _ _ _ => rfl
  rw [reduceByKey, pass, ← sorted, List.map_map]
  rfl

/-- How a sum stands in a row: as an integer where it is one below 2^63, as null where it is not
finite, else as a fraction. -/
inductive Written (x : Double) : Json → Prop
  | integer (n : Int) : x.isFinite = true → x.value = n → n.natAbs < 2 ^ 63 →
    Written x (.num (.int n))
  | fraction : x.isFinite = true → (∀ n : Int, x.value = n → 2 ^ 63 ≤ n.natAbs) →
    Written x (.num (.real x))
  | undefined : x.isFinite = false → Written x .null

theorem written_ofSum (x : Double) : Written x (Json.ofSum x) := by
  cases finite : x.isFinite with
  | false =>
    have none : x.truncate? = none := by cases x <;> first | rfl | cases finite
    rw [Json.ofSum, none]
    exact .undefined finite
  | true =>
    obtain ⟨n, truncated⟩ : ∃ n, x.truncate? = some n := by
      cases x <;> first | exact ⟨_, rfl⟩ | cases finite
    rw [Json.ofSum, truncated]
    dsimp only
    split
    · next small =>
      obtain ⟨whole, below⟩ := Bool.and_eq_true_iff.mp small
      obtain ⟨m, same, value⟩ := Binary.value_of_isInteger whole
      obtain rfl : n = m := Option.some.inj (truncated.symm.trans same)
      exact .integer n finite value (of_decide_eq_true below)
    · next large =>
      rw [Json.ofDouble, if_pos finite]
      refine .fraction finite fun m value => ?_
      have whole := Binary.isInteger_of_value finite value
      obtain ⟨k, same, value'⟩ := Binary.value_of_isInteger whole
      obtain rfl : n = k := Option.some.inj (truncated.symm.trans same)
      obtain rfl : n = m := by exact_mod_cast value'.symm.trans value
      by_contra below
      exact large (Bool.and_eq_true_iff.mpr ⟨whole, decide_eq_true (not_le.mp below)⟩)

/-- One row for each key that rows count for, in the order of the bytes of the keys, with just the
key and its sum. -/
def Grouped (key value : String) (rows out : List Row) : Prop :=
  ∃ keys : List String, keys.Pairwise (fun a b => Text.utf8 a < Text.utf8 b) ∧
    (∀ k, k ∈ keys ↔ ∃ r ∈ rows, CountsFor key value k r) ∧
      List.Forall₂ (fun k row => ∃ v fs, Written (total key value k rows) v ∧ row = .obj fs ∧
        fs.Perm [(key, .str k), (value, v)]) keys out

/-- Summing by key gives one row for each key, with the sum of its numbers in the order of the rows;
the order across keys does not matter. -/
theorem reduceByKey_groups (key value : String) (rows : List Row) (apart : key ≠ value) :
    Grouped key value rows (reduceByKey key value rows) ∧
      ∀ others : List Row, (∀ k, (others.filter fun r => CountsFor key value k r) =
          rows.filter fun r => CountsFor key value k r) →
        reduceByKey key value others = reduceByKey key value rows := by
  constructor
  · refine ⟨summedKeys key value rows, ?_, fun k => mem_summedKeys, ?_⟩
    · exact (summedKeys_pairwise key value rows).imp Text.utf8_lt_iff.mpr
    · rw [reduceByKey_eq_map, List.forall₂_map_right_iff, List.forall₂_same]
      intro k _
      obtain ⟨fs, row, fields⟩ : ∃ fs, sumRow key value (k, total key value k rows) = .obj fs ∧
          fs.Perm [(key, .str k), (value, Json.ofSum (total key value k rows))] :=
        Json.ofFields_perm (by simpa using apart)
      exact ⟨_, fs, written_ofSum _, row, fields⟩
  · intro others same
    have totals (k : String) : total key value k others = total key value k rows := by
      rw [total, total, summands, summands, same k]
    -- both lists of keys are sorted, so they are the same if they have the same members
    have keys : summedKeys key value others = summedKeys key value rows := by
      refine (summedKeys_pairwise ..).eq_of_mem_iff (summedKeys_pairwise ..) fun k => ?_
      rw [mem_summedKeys, mem_summedKeys]
      have counted := congrArg (fun rs => ∃ r, r ∈ rs) (same k)
      simpa [List.mem_filter] using counted
    rw [reduceByKey_eq_map, reduceByKey_eq_map, keys]
    exact List.map_congr_left fun k _ => by rw [totals]

def counted (token count : Json) : Row := .obj [("count", count), ("token", token)]

/-- Rows for two tokens in turn, one of them spelled as a number and as a text, and rows that do not
count. -/
def tally : List Row :=
  [counted (.str "b") (.ofNat 1), counted (.ofNat 1) (.str " 2.5 "), counted .null (.ofNat 7),
    counted (.str "b") (.str "x"), counted (.str "1") (.str ".5"), counted (.str "b") (.ofNat 2)]

def sortedTally : List Row :=
  [counted (.ofNat 1) (.str " 2.5 "), counted (.str "1") (.str ".5"),
    counted (.str "b") (.ofNat 1), counted (.str "b") (.ofNat 2)]

theorem countsFor_counted (token count : Json) : CountsFor "token" "count" k (counted token count) ↔
    token.keyText? = some k ∧ count.number?.isSome := Iff.rfl

theorem tally_sorted : "token" ≠ "count" ∧
    (∀ k, (sortedTally.filter fun r => CountsFor "token" "count" k r) =
      tally.filter fun r => CountsFor "token" "count" k r) ∧
    Grouped "token" "count" tally (reduceByKey "token" "count" tally) ∧
    reduceByKey "token" "count" sortedTally = reduceByKey "token" "count" tally := by
  have apart : "token" ≠ "count" := by decide
  have same : ∀ k, (sortedTally.filter fun r => CountsFor "token" "count" k r) =
      tally.filter fun r => CountsFor "token" "count" k r := by
    intro k
    have one : (Json.ofNat 1).keyText? = some "1" := by decide +kernel
    have point : (Json.str " 2.5 ").number?.isSome ∧ (Json.str ".5").number?.isSome := by
      decide +kernel
    have word : (Json.str "x").number? = none := by decide +kernel
    have number (n : Nat) : (Json.ofNat n).number?.isSome := rfl
    have text (s : String) : (Json.str s).keyText? = some s := rfl
    have absent : Json.null.keyText? = none := rfl
    simp only [sortedTally, tally, List.filter_cons, List.filter_nil, countsFor_counted, one, point,
      word, number, text, absent]
    by_cases b : "b" = k
    · subst b
      simp
    · simp [b]
  obtain ⟨grouped, reordered⟩ := reduceByKey_groups "token" "count" tally apart
  exact ⟨apart, same, grouped, reordered sortedTally same⟩

end TaskFlow.Rows
