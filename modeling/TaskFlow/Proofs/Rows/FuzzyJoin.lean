import TaskFlow.Proofs.Binary.Rounding
import TaskFlow.Proofs.EditDistance
import TaskFlow.Proofs.Rows.Joins

namespace TaskFlow

variable {a b : String}

def exactSimilarity (a b : String) : ℚ :=
  let a := normalForm a
  let b := normalForm b
  let longer := max a.length b.length
  if longer = 0 then 1 else 1 - editDistance a b / longer

theorem normalForm_eq_of_longer (h : max (normalForm a).length (normalForm b).length = 0) :
    normalForm a = normalForm b := by
  obtain ⟨ha, hb⟩ := Nat.max_eq_zero_iff.mp h
  rw [String.length_eq_zero_iff.mp ha, String.length_eq_zero_iff.mp hb]

theorem editDistance_div_mem {a b : String} (some : max a.length b.length ≠ 0) :
    0 ≤ (editDistance a b : ℚ) / (max a.length b.length : Nat) ∧
      (editDistance a b : ℚ) / (max a.length b.length : Nat) ≤ 1 := by
  have positive : (0 : ℚ) < (max a.length b.length : Nat) :=
    Nat.cast_pos.mpr (Nat.pos_of_ne_zero some)
  have within : (editDistance a b : ℚ) ≤ (max a.length b.length : Nat) :=
    Nat.cast_le.mpr (editDistance_le_max a b)
  exact ⟨div_nonneg (Nat.cast_nonneg _) positive.le, (div_le_one positive).mpr within⟩

theorem exactSimilarity_mem (a b : String) : 0 ≤ exactSimilarity a b ∧ exactSimilarity a b ≤ 1 := by
  unfold exactSimilarity
  dsimp only
  split
  · exact ⟨zero_le_one, le_rfl⟩
  · next some =>
    obtain ⟨low, high⟩ := editDistance_div_mem some
    exact ⟨sub_nonneg.mpr high, sub_le_self 1 low⟩

theorem exactSimilarity_comm (a b : String) : exactSimilarity a b = exactSimilarity b a := by
  simp only [exactSimilarity, max_comm (normalForm a).length,
    editDistance_comm (normalForm a)]

theorem exactSimilarity_eq_one : exactSimilarity a b = 1 ↔ normalForm a = normalForm b := by
  unfold exactSimilarity
  dsimp only
  split
  · next none => exact iff_of_true rfl (normalForm_eq_of_longer none)
  · next some =>
    have positive : ((max (normalForm a).length (normalForm b).length : Nat) : ℚ) ≠ 0 :=
      Nat.cast_ne_zero.mpr some
    rw [sub_eq_self, div_eq_zero_iff, or_iff_left positive, Nat.cast_eq_zero,
      editDistance_eq_zero]

theorem similarity_comm (a b : String) : similarity a b = similarity b a := by
  simp only [similarity, max_comm (normalForm a).length, editDistance_comm (normalForm a)]

/-- A text whose normal form has a length of a full mantissa at most. -/
def Short (s : String) : Prop := (normalForm s).length < 2 ^ 53

instance (s : String) : Decidable (Short s) := inferInstanceAs (Decidable (_ < _))

/-- The similarity of short texts keeps the bounds of the exact one, and reaches them where that
does. -/
theorem value_similarity (ha : Short a) (hb : Short b) :
    ∃ m e, similarity a b = .finite false m e ∧
      0 ≤ Binary.value (.finite false m e : Double) ∧
      Binary.value (.finite false m e : Double) ≤ 1 ∧
        (Binary.value (.finite false m e : Double) = 1 ↔ normalForm a = normalForm b) := by
  unfold similarity
  dsimp only
  split
  · next none =>
    obtain ⟨m, e, one, value⟩ := Binary.value_one_double
    exact ⟨m, e, one, value ▸ zero_le_one, value.le,
      iff_of_true value (normalForm_eq_of_longer none)⟩
  · next some =>
    rw [← editDistance_eq_zero]
    exact Binary.value_one_sub_ofNat_div some (editDistance_le_max _ _) (Nat.max_lt.mpr ⟨ha, hb⟩)

theorem zero_le_similarity (ha : Short a) (hb : Short b) :
    Binary.zero.le (similarity a b) = true := by
  obtain ⟨m, e, shape, low, -⟩ := value_similarity ha hb
  rw [shape]
  refine Binary.le_finite.mpr ?_
  exact Binary.value_zero.le.trans low

theorem one_le_similarity (ha : Short a) (hb : Short b) :
    (Binary.ofNat 1 : Double).le (similarity a b) = true ↔ normalForm a = normalForm b := by
  obtain ⟨m, e, shape, -, high, full⟩ := value_similarity ha hb
  obtain ⟨k, c, one, value⟩ := Binary.value_one_double
  rw [shape, one, Binary.le_finite, value, ← full]
  exact ⟨high.antisymm, ge_of_eq⟩

namespace Rows

variable {leftOn rightOn column : String} {goes goes' : String → String → Prop}
  {left right rows : List Row} {l : Row} {k : String}

def mergeKeyed (leftOn rightOn : String) (p : Row × Row) : Row :=
  mergeScored p.1 p.2
    (similarity ((p.1.keyIn? leftOn).getD "") ((p.2.keyIn? rightOn).getD ""))

/-- The rows of the pairs whose keys go together; left rows in order, and for each the right ones
in order. -/
def joinedBy (leftOn rightOn : String) (goes : String → String → Prop) [DecidableRel goes]
    (left right : List Row) : List Row :=
  (pairs leftOn rightOn goes left right).map (mergeKeyed leftOn rightOn)

def exactJoin (leftOn rightOn : String) (threshold : ℚ) (left right : List Row) : List Row :=
  joinedBy leftOn rightOn (fun a b => threshold ≤ exactSimilarity a b) left right

def ShortKeys (column : String) (rows : List Row) : Prop :=
  ∀ r ∈ rows, ∀ k ∈ r.keyIn? column, Short k

instance (column : String) (rows : List Row) : Decidable (ShortKeys column rows) :=
  inferInstanceAs (Decidable (∀ r ∈ rows, ∀ k ∈ r.keyIn? column, Short k))

theorem keyed_cons_none (h : l.keyIn? column = none) (rows : List Row) :
    keyed column (l :: rows) = keyed column rows := by
  simp [keyed, h]

theorem keyed_cons_some (h : l.keyIn? column = some k) (rows : List Row) :
    keyed column (l :: rows) = (k, l) :: keyed column rows := by
  simp [keyed, h]

section Relations

variable [DecidableRel goes] [DecidableRel goes']

theorem joinedBy_congr
    (h : ∀ l ∈ left, ∀ a ∈ l.keyIn? leftOn, ∀ r ∈ right, ∀ b ∈ r.keyIn? rightOn,
      goes a b ↔ goes' a b) :
    joinedBy leftOn rightOn goes left right = joinedBy leftOn rightOn goes' left right := by
  refine congrArg _ (List.filter_congr fun p there => decide_eq_decide.mpr ?_)
  obtain ⟨hl, hr⟩ := List.pair_mem_product.mp there
  exact exists_congr fun a => and_congr_right fun ha => exists_congr fun b =>
    and_congr_right fun hb => h p.1 hl a ha p.2 hr b hb

theorem joinedBy_sublist (h : ∀ a b, goes a b → goes' a b) :
    (joinedBy leftOn rightOn goes left right).Sublist
      (joinedBy leftOn rightOn goes' left right) := by
  refine List.Sublist.map _ (List.monotone_filter_right _ fun p met => ?_)
  obtain ⟨a, ha, b, hb, together⟩ := of_decide_eq_true met
  exact decide_eq_true ⟨a, ha, b, hb, h a b together⟩

theorem filterMap_keyed (h : l.keyIn? leftOn = some k) (right : List Row) :
    ((keyed rightOn right).filterMap fun (rk, r) =>
        if goes k rk then some (mergeScored l r (similarity k rk)) else none) =
      ((right.filter fun r => Meet leftOn rightOn goes (l, r)).map (Prod.mk l)).map
        (mergeKeyed leftOn rightOn) := by
  induction right with
  | nil => rfl
  | cons r right ih =>
    rw [List.filter_cons]
    cases hr : r.keyIn? rightOn with
    | none => simpa [keyed_cons_none hr, meet_of_some h, hr] using ih
    | some rk =>
      rw [keyed_cons_some hr]
      by_cases together : goes k rk
      · simpa [meet_of_some h, hr, together, mergeKeyed, h] using ih
      · simpa [meet_of_some h, hr, together] using ih

end Relations

theorem fuzzyJoin_eq_joinedBy (leftOn rightOn : String) (threshold : Double)
    (left right : List Row) :
    fuzzyJoin ⟨leftOn, rightOn, threshold⟩ left right =
      joinedBy leftOn rightOn (fun a b => threshold.le (similarity a b)) left right := by
  induction left with
  | nil => rfl
  | cons l left ih =>
    rw [joinedBy, pairs_cons, List.map_append, ← joinedBy, ← ih]
    cases h : l.keyIn? leftOn with
    | none =>
      rw [fuzzyJoin, keyed_cons_none h, filter_meet_of_not_keyed (by simp [h])]
      rfl
    | some k =>
      rw [fuzzyJoin, keyed_cons_some h, ← filterMap_keyed h]
      rfl

theorem exactJoin_one (leftOn rightOn : String) (left right : List Row) :
    exactJoin leftOn rightOn 1 left right =
      joinedBy leftOn rightOn (fun a b => normalForm a = normalForm b) left right := by
  refine joinedBy_congr fun _ _ a _ _ _ b _ => ?_
  rw [← exactSimilarity_eq_one]
  exact ⟨(exactSimilarity_mem a b).2.antisymm, ge_of_eq⟩

theorem exactJoin_zero (leftOn rightOn : String) (left right : List Row) :
    exactJoin leftOn rightOn 0 left right =
      joinedBy leftOn rightOn (fun _ _ => True) left right :=
  joinedBy_congr fun _ _ a _ _ _ b _ => iff_true_intro (exactSimilarity_mem a b).1

theorem fuzzyJoin_one (hl : ShortKeys leftOn left) (hr : ShortKeys rightOn right) :
    fuzzyJoin ⟨leftOn, rightOn, .ofNat 1⟩ left right =
      joinedBy leftOn rightOn (fun a b => normalForm a = normalForm b) left right := by
  rw [fuzzyJoin_eq_joinedBy]
  exact joinedBy_congr fun l there a ha r there' b hb =>
    one_le_similarity (hl l there a ha) (hr r there' b hb)

theorem fuzzyJoin_zero (hl : ShortKeys leftOn left) (hr : ShortKeys rightOn right) :
    fuzzyJoin ⟨leftOn, rightOn, .zero⟩ left right =
      joinedBy leftOn rightOn (fun _ _ => True) left right := by
  rw [fuzzyJoin_eq_joinedBy]
  exact joinedBy_congr fun l there a ha r there' b hb =>
    iff_true_intro (zero_le_similarity (hl l there a ha) (hr r there' b hb))

/-- Similarity is symmetric and between zero and one; threshold one takes equal normal forms, zero
takes all pairs, and a higher threshold a subsequence. -/
theorem fuzzyJoin_thresholds (leftOn rightOn : String) (left right : List Row) :
    (∀ a b, 0 ≤ exactSimilarity a b ∧ exactSimilarity a b ≤ 1 ∧
      exactSimilarity a b = exactSimilarity b a) ∧
    exactJoin leftOn rightOn 1 left right =
      joinedBy leftOn rightOn (fun a b => normalForm a = normalForm b) left right ∧
    exactJoin leftOn rightOn 0 left right =
      joinedBy leftOn rightOn (fun _ _ => True) left right ∧
    (∀ s t : ℚ, s ≤ t →
      (exactJoin leftOn rightOn t left right).Sublist (exactJoin leftOn rightOn s left right)) ∧
    (∀ a b, similarity a b = similarity b a) ∧
    (∀ t : Double, fuzzyJoin ⟨leftOn, rightOn, t⟩ left right =
      joinedBy leftOn rightOn (fun a b => t.le (similarity a b)) left right) ∧
    (∀ s t : Double, s.le t →
      (fuzzyJoin ⟨leftOn, rightOn, t⟩ left right).Sublist
        (fuzzyJoin ⟨leftOn, rightOn, s⟩ left right)) ∧
    (ShortKeys leftOn left → ShortKeys rightOn right →
      fuzzyJoin ⟨leftOn, rightOn, .ofNat 1⟩ left right =
        joinedBy leftOn rightOn (fun a b => normalForm a = normalForm b) left right ∧
      fuzzyJoin ⟨leftOn, rightOn, .zero⟩ left right =
        joinedBy leftOn rightOn (fun _ _ => True) left right) := by
  refine ⟨fun a b => ?_, exactJoin_one .., exactJoin_zero .., fun s t lower => ?_,
    similarity_comm, fun t => fuzzyJoin_eq_joinedBy .., fun s t lower => ?_, fun hl hr => ?_⟩
  · exact ⟨(exactSimilarity_mem a b).1, (exactSimilarity_mem a b).2, exactSimilarity_comm a b⟩
  · exact joinedBy_sublist fun _ _ reached => lower.trans reached
  · rw [fuzzyJoin_eq_joinedBy, fuzzyJoin_eq_joinedBy]
    exact joinedBy_sublist fun _ _ reached => Binary.le_trans lower reached
  · exact ⟨fuzzyJoin_one hl hr, fuzzyJoin_zero hl hr⟩

/-- Rows with names, one of them without, to be joined with those below. -/
def named : List Row :=
  [.obj [("name", .str "Red  Wheel")], .obj [("name", .null)], .obj [("name", .str "lamp")]]

/-- Rows with the same names in other spellings, and one without a key. -/
def spelled : List Row :=
  [.obj [("full", .str " LAMP")], .obj [("full", .arr [])], .obj [("full", .str "red wheel")]]

theorem fuzzyJoin_named : ShortKeys "name" named ∧ ShortKeys "full" spelled ∧
    fuzzyJoin ⟨"name", "full", .ofNat 1⟩ named spelled =
      joinedBy "name" "full" (fun a b => normalForm a = normalForm b) named spelled ∧
    (fuzzyJoin ⟨"name", "full", .ofNat 1⟩ named spelled).length = 2 ∧
    (fuzzyJoin ⟨"name", "full", .zero⟩ named spelled).length = 4 := by
  have hl : ShortKeys "name" named := by decide +kernel
  have hr : ShortKeys "full" spelled := by decide +kernel
  obtain ⟨-, -, -, -, -, -, -, short⟩ := fuzzyJoin_thresholds "name" "full" named spelled
  obtain ⟨one, zero⟩ := short hl hr
  exact ⟨hl, hr, one, by rw [one]; decide +kernel, by rw [zero]; decide +kernel⟩

end Rows

end TaskFlow
