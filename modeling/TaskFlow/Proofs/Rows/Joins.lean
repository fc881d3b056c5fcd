import Mathlib.Data.List.Induction
import Mathlib.Data.List.ProdSigma
import TaskFlow.Rows.FuzzyJoin

namespace TaskFlow.Rows

variable {key k leftOn rightOn : String} {goes : String → String → Prop} {left right : List Row}
  {l : Row}

/-- Whether two rows have keys in their fields, and these go together. -/
def Meet (leftOn rightOn : String) (goes : String → String → Prop) (p : Row × Row) : Prop :=
  ∃ a ∈ p.1.keyIn? leftOn, ∃ b ∈ p.2.keyIn? rightOn, goes a b

instance [DecidableRel goes] (p : Row × Row) : Decidable (Meet leftOn rightOn goes p) :=
  inferInstanceAs (Decidable (∃ a ∈ p.1.keyIn? leftOn, ∃ b ∈ p.2.keyIn? rightOn, goes a b))

/-- The pairs of a left and a right row whose keys go together; left rows in order, and for each the
right ones in order. -/
def pairs (leftOn rightOn : String) (goes : String → String → Prop) [DecidableRel goes]
    (left right : List Row) : List (Row × Row) :=
  (left ×ˢ right).filter fun p => Meet leftOn rightOn goes p

theorem pairs_cons [DecidableRel goes] :
    pairs leftOn rightOn goes (l :: left) right =
      (right.filter fun r => Meet leftOn rightOn goes (l, r)).map (Prod.mk l) ++
        pairs leftOn rightOn goes left right := by
  rw [pairs, List.product_cons, List.filter_append, List.filter_map]
  rfl

/-- A left row with a key is paired with the right rows whose keys go with it. -/
theorem meet_of_some (h : l.keyIn? leftOn = some k) (r : Row) :
    Meet leftOn rightOn goes (l, r) ↔ ∃ b ∈ r.keyIn? rightOn, goes k b := by
  simp [Meet, h]

theorem Meet.keyed {p : Row × Row} (h : Meet leftOn rightOn goes p) :
    (p.1.keyIn? leftOn).isSome ∧ (p.2.keyIn? rightOn).isSome := by
  obtain ⟨a, ha, b, hb, -⟩ := h
  exact ⟨Option.isSome_of_mem ha, Option.isSome_of_mem hb⟩

theorem filter_meet_of_not_keyed [DecidableRel goes] (h : ¬(l.keyIn? leftOn).isSome)
    (right : List Row) : (right.filter fun r => Meet leftOn rightOn goes (l, r)) = [] :=
  List.filter_eq_nil_iff.mpr fun _ _ met => h (of_decide_eq_true met).keyed.1

theorem Index.find_nil : Index.find [] key = [] := rfl

theorem Index.find_cons (e : String × List Row) (ix : Index) :
    Index.find (e :: ix) key = if e.1 = key then e.2 else ix.find key := by
  by_cases h : e.1 = key <;> simp [Index.find, h]

theorem Index.find_add (ix : Index) (r : Row) :
    (Index.add k r ix).find key = ix.find key ++ if k = key then [r] else [] := by
  induction ix with
  | nil => simp [Index.add, Index.find_cons, Index.find_nil]
  | cons e ix ih =>
    obtain ⟨k', rs⟩ := e
    rw [Index.add]
    split
    · next same =>
      subst same
      rw [Index.find_cons, Index.find_cons]
      split <;> simp
    · next other =>
      rw [Index.find_cons, Index.find_cons, ih]
      grind

theorem find_index (rows : List Row) :
    (index key rows).find k = rows.filter fun r => r.keyIn? key = some k := by
  induction rows using List.reverseRecOn with
  | nil => rfl
  | append_singleton rows r ih =>
    rw [index, List.foldl_append, List.foldl_cons, List.foldl_nil, ← index, List.filter_append,
      ← ih]
    cases h : r.keyIn? key with
    | none => simp [h]
    | some k' =>
      dsimp only
      rw [Index.find_add]
      simp [h, List.filter_cons]

theorem meet_eq_iff (h : l.keyIn? leftOn = some k) (r : Row) :
    Meet leftOn rightOn (· = ·) (l, r) ↔ r.keyIn? rightOn = some k := by
  simp [meet_of_some h]

theorem joinByKey_cons (key : String) (l : Row) (left right : List Row) :
    joinByKey key (l :: left) right =
      (right.filter fun r => Meet key key (· = ·) (l, r)).map (merge key l) ++
        joinByKey key left right := by
  rw [joinByKey, List.flatMap_cons]
  refine congrArg (· ++ _) ?_
  cases h : l.keyIn? key with
  | none =>
    rw [filter_meet_of_not_keyed (by simp [h])]
    rfl
  | some k => simp only [meet_eq_iff h, find_index]

theorem joinByKey_eq_map_pairs (key : String) (left right : List Row) :
    joinByKey key left right =
      (pairs key key (· = ·) left right).map fun p => merge key p.1 p.2 := by
  induction left with
  | nil => rfl
  | cons l left ih =>
    rw [joinByKey_cons, pairs_cons, List.map_append, List.map_map, ← ih]
    rfl

/-- Among the pairs with one left row are those of a key if the row has it, and no others. -/
theorem countP_pairs_left (k : String) (l : Row) (right : List Row) :
    (((right.filter fun r => Meet key key (· = ·) (l, r)).map (Prod.mk l)).countP
      fun p => p.1.keyIn? key = some k) =
        if l.keyIn? key = some k then right.countP fun r => r.keyIn? key = some k else 0 := by
  rw [List.countP_map, List.countP_filter]
  split
  · next h => simp [meet_eq_iff h, h]
  · next h => simp [h]

theorem countP_pairs (key k : String) (left right : List Row) :
    ((pairs key key (· = ·) left right).countP fun p => p.1.keyIn? key = some k) =
      (left.countP fun l => l.keyIn? key = some k) *
        right.countP fun r => r.keyIn? key = some k := by
  induction left with
  | nil => simp [pairs]
  | cons l left ih =>
    rw [pairs_cons, List.countP_append, countP_pairs_left, ih, List.countP_cons]
    by_cases h : l.keyIn? key = some k
    · rw [if_pos h, if_pos (by simpa using h), Nat.succ_mul, Nat.add_comm]
    · simp [h]

theorem pairs_filter_keyed [DecidableRel goes] (left right : List Row) :
    pairs leftOn rightOn goes (left.filter fun l => (l.keyIn? leftOn).isSome)
      (right.filter fun r => (r.keyIn? rightOn).isSome) = pairs leftOn rightOn goes left right := by
  induction left with
  | nil => rfl
  | cons l left ih =>
    have rights : ((right.filter fun r => (r.keyIn? rightOn).isSome).filter fun r =>
        Meet leftOn rightOn goes (l, r)) =
          right.filter fun r => Meet leftOn rightOn goes (l, r) := by
      rw [List.filter_filter]
      refine List.filter_congr fun r _ => ?_
      simpa using fun met : Meet leftOn rightOn goes (l, r) => met.keyed.2
    rw [List.filter_cons, pairs_cons]
    split
    · rw [pairs_cons, rights, ih]
    · next absent =>
      rw [filter_meet_of_not_keyed absent, ih]
      rfl

/-- The join by key is a loop over all pairs of rows, left rows first; rows without a key give none.
-/
theorem joinByKey_nested_loop (key : String) (left right : List Row) :
    joinByKey key left right =
      (pairs key key (· = ·) left right).map (fun p => merge key p.1 p.2) ∧
    (∀ k, ((pairs key key (· = ·) left right).countP fun p => p.1.keyIn? key = some k) =
      (left.countP fun l => l.keyIn? key = some k) *
        right.countP fun r => r.keyIn? key = some k) ∧
    joinByKey key (left.filter fun l => (l.keyIn? key).isSome)
      (right.filter fun r => (r.keyIn? key).isSome) = joinByKey key left right := by
  refine ⟨joinByKey_eq_map_pairs key left right, fun k => countP_pairs key k left right, ?_⟩
  rw [joinByKey_eq_map_pairs, joinByKey_eq_map_pairs, pairs_filter_keyed]

/-- A number and a text that spells it are one key. -/
example : (joinByKey "id" [.obj [("id", .ofNat 1)], .null, .obj [("id", .str "1")]]
    [.obj [("id", .str "1")], .obj [("id", .ofNat 1)], .obj [("id", .arr [])]]).length = 4 := by
  decide +kernel

end TaskFlow.Rows
