import TaskFlow.Proofs.Text.Lines

namespace TaskFlow.Text

section Strip

variable {α : Type} {p q : α → Bool} (weaker : ∀ a, q a = true → p a = true)

include weaker

theorem strip_dropWhile (xs : List α) : strip p (xs.dropWhile q) = strip p xs := by
  induction xs with
  | nil => rfl
  | cons x xs ih =>
    by_cases hx : q x = true
    · rw [List.dropWhile_cons_of_pos hx, ih, strip, strip, List.dropWhile_cons_of_pos (weaker x hx)]
    · rw [List.dropWhile_cons_of_neg hx]

theorem strip_reverse_dropWhile (xs : List α) :
    strip p (xs.dropWhile q).reverse = strip p xs.reverse := by
  induction xs with
  | nil => rfl
  | cons x xs ih =>
    by_cases hx : q x = true
    · rw [List.dropWhile_cons_of_pos hx, ih, List.reverse_cons, strip_concat _ (weaker x hx)]
    · rw [List.dropWhile_cons_of_neg hx]

theorem strip_strip (xs : List α) : strip p (strip q xs) = strip p xs := by
  rw [strip.eq_def q, strip_reverse_dropWhile weaker, List.reverse_reverse, strip_dropWhile weaker]

end Strip

section FlatMap

variable {α β : Type} {p : β → Bool} {q : α → Bool} {g : α → List β}
  (nonempty : ∀ a, g a ≠ []) (same : ∀ a, ∀ b ∈ g a, p b = q a)

include nonempty same

theorem dropWhile_flatMap (xs : List α) :
    (xs.flatMap g).dropWhile p = (xs.dropWhile q).flatMap g := by
  induction xs with
  | nil => rfl
  | cons x xs ih =>
    rw [List.flatMap_cons]
    by_cases hx : q x = true
    · rw [List.dropWhile_cons_of_pos hx, ← ih]
      exact List.dropWhile_append_of_pos fun b hb => (same x b hb).trans hx
    · rw [List.dropWhile_cons_of_neg hx, List.flatMap_cons]
      obtain ⟨b, bs, start⟩ := List.exists_cons_of_ne_nil (nonempty x)
      have first : p b = q x := same x b (start ▸ List.mem_cons_self ..)
      rw [start, List.cons_append, List.dropWhile_cons_of_neg (first ▸ hx)]

/-- Where all that stands for an element is like it, both are taken from the ends alike. -/
theorem strip_flatMap (xs : List α) : strip p (xs.flatMap g) = (strip q xs).flatMap g := by
  have backward : ((xs.dropWhile q).reverse.flatMap (List.reverse ∘ g)).dropWhile p =
      ((xs.dropWhile q).reverse.dropWhile q).flatMap (List.reverse ∘ g) :=
    dropWhile_flatMap (fun a => mt List.reverse_eq_nil_iff.mp (nonempty a))
      (fun a b hb => same a b (List.mem_reverse.mp hb)) _
  rw [strip, strip, dropWhile_flatMap nonempty same, List.reverse_flatMap, backward,
    List.reverse_flatMap]
  simp only [Function.comp_def, List.reverse_reverse]

end FlatMap

section Between

variable {α : Type} {p : α → Bool} {before core after : List α}

theorem strip_append_of_pos (taken : ∀ a ∈ after, p a = true) (xs : List α) :
    strip p (xs ++ after) = strip p xs := by
  induction after generalizing xs with
  | nil => rw [List.append_nil]
  | cons a after ih =>
    obtain ⟨ha, rest⟩ := List.forall_mem_cons.mp taken
    rw [List.append_cons, ih rest, strip_concat _ ha]

theorem strip_append_append (first : ∀ a ∈ before, p a = true) (kept : ∀ a ∈ core, ¬p a = true)
    (last : ∀ a ∈ after, p a = true) : strip p (before ++ core ++ after) = core := by
  have whole {xs : List α} (h : ∀ a ∈ xs, ¬p a = true) : xs.dropWhile p = xs :=
    List.dropWhile_eq_self_iff.mpr fun inside => h _ (List.getElem_mem inside)
  rw [strip_append_of_pos last, strip, List.dropWhile_append_of_pos first, whole kept,
    whole fun a ha => kept a (List.mem_reverse.mp ha), List.reverse_reverse]

variable (p) in
theorem exists_strip (xs : List α) : ∃ before after, xs = before ++ strip p xs ++ after ∧
    (∀ a ∈ before, p a = true) ∧ ∀ a ∈ after, p a = true := by
  refine ⟨xs.takeWhile p, ((xs.dropWhile p).reverse.takeWhile p).reverse, ?_,
    fun a ha => List.mem_takeWhile_imp ha,
    fun a ha => List.mem_takeWhile_imp (List.mem_reverse.mp ha)⟩
  rw [strip, List.append_assoc, ← List.reverse_append, List.takeWhile_append_dropWhile,
    List.reverse_reverse, List.takeWhile_append_dropWhile]

end Between

theorem strip_eq_nil_iff {α : Type} {p : α → Bool} {xs : List α} :
    strip p xs = [] ↔ ∀ x ∈ xs, p x = true := by
  rw [strip, List.reverse_eq_nil_iff, List.dropWhile_eq_nil_iff]
  constructor
  · intro h x hx
    rw [← List.takeWhile_append_dropWhile (p := p) (l := xs)] at hx
    rcases List.mem_append.mp hx with early | late
    · exact List.mem_takeWhile_imp early
    · exact h x (List.mem_reverse.mpr late)
  · exact fun h x hx => h x ((List.dropWhile_suffix p).subset (List.mem_reverse.mp hx))

theorem isEmpty_trim (s : String) : (trim s).isEmpty = blank s := by
  rw [Bool.eq_iff_iff, String.isEmpty_iff, trim, blank, String.ofList_eq_empty_iff,
    strip_eq_nil_iff, List.all_eq_true]

end TaskFlow.Text
