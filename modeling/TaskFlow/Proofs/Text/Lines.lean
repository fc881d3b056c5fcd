import Mathlib.Data.List.TakeWhile
import TaskFlow.Proofs.Text.Utf8
import TaskFlow.Text.Blank

namespace TaskFlow.Text

theorem strip_concat {α : Type} {p : α → Bool} {a : α} (xs : List α) (h : p a = true) :
    strip p (xs ++ [a]) = strip p xs := by
  unfold strip
  rw [List.dropWhile_append]
  split
  · next blank =>
    rw [List.isEmpty_iff.mp blank, List.dropWhile_cons_of_pos h]
    rfl
  · rw [List.reverse_append, List.reverse_singleton, List.singleton_append,
      List.dropWhile_cons_of_pos h]

theorem strip_between {α : Type} {p : α → Bool} {a b : α} (xs : List α) (first : p a = false)
    (last : p b = false) : strip p (a :: xs ++ [b]) = a :: xs ++ [b] := by
  have first : ¬p a = true := by rw [first]; decide
  have last : ¬p b = true := by rw [last]; decide
  rw [strip, List.cons_append, List.dropWhile_cons_of_neg first, ← List.cons_append,
    List.reverse_concat, List.dropWhile_cons_of_neg last, ← List.reverse_concat,
    List.reverse_reverse]

theorem strip_chomp (cs : List Char) : strip isBlank (chomp cs) = strip isBlank cs := by
  unfold chomp
  split
  · next r h =>
    have : cs = r.reverse ++ ['\r'] ++ ['\n'] := by
      rw [← List.reverse_reverse cs, h]
      simp
    rw [this, strip_concat _ (by decide), strip_concat _ (by decide)]
  · next r _ h =>
    have : cs = r.reverse ++ ['\n'] := by
      rw [← List.reverse_reverse cs, h]
      simp
    rw [this, strip_concat _ (by decide)]
  · rfl

theorem trim_chomp (s : String) : trim (.ofList (chomp s.toList)) = trim s := by
  rw [trim, trim, String.toList_ofList, strip_chomp]

theorem trim_newline (s : String) : trim (s ++ "\n") = trim s := by
  rw [trim, trim, String.toList_append]
  exact congrArg _ (strip_concat _ (by decide))

def OneLine (cs : List Char) : Prop := ∀ c ∈ cs, c ≠ '\n' ∧ c ≠ '\r'

instance (cs : List Char) : Decidable (OneLine cs) :=
  List.decidableBAll (fun c => c ≠ '\n' ∧ c ≠ '\r') cs

theorem oneLine_append {cs ds : List Char} : OneLine (cs ++ ds) ↔ OneLine cs ∧ OneLine ds :=
  List.forall_mem_append

theorem oneLine_cons {c : Char} {cs : List Char} :
    OneLine (c :: cs) ↔ (c ≠ '\n' ∧ c ≠ '\r') ∧ OneLine cs := List.forall_mem_cons

theorem chomp_newline {cs : List Char} (h : OneLine cs) : chomp (cs ++ ['\n']) = cs := by
  unfold chomp
  rw [List.reverse_append, List.reverse_singleton, List.singleton_append]
  split
  · next r same =>
    have last : '\r' ∈ cs := by
      rw [← List.mem_reverse, (List.cons.inj same).2]
      exact List.mem_cons_self ..
    exact absurd rfl (h _ last).2
  · next r _ same =>
    rw [← (List.cons.inj same).2, List.reverse_reverse]
  · next other => exact absurd rfl (other _)

theorem newline_not_mem_utf8 {s : String} (h : '\n' ∉ s.toList) : newline ∉ utf8 s := by
  intro feed
  obtain ⟨before, after, cut⟩ := List.append_of_mem feed
  have pieces : s.toList.map some =
      Utf8.piecesFrom none before ++ some '\n' :: Utf8.piecesFrom none after := by
    rw [← pieces_encode, ← Utf8.piecesFrom_newline none (by simp), ← cut]
    rfl
  have found : some '\n' ∈ s.toList.map some := by
    rw [pieces]
    exact List.mem_append_right _ (List.mem_cons_self ..)
  obtain ⟨c, hc, same⟩ := List.mem_map.mp found
  exact h (Option.some.inj same ▸ hc)

theorem lines_of_not_mem {bs : Bytes} (h : newline ∉ bs) :
    lines bs = if bs = [] then [] else [bs] := by
  induction bs with
  | nil => rfl
  | cons b bs ih =>
    obtain ⟨hb, hbs⟩ := not_or.mp (mt List.mem_cons.mpr h)
    rw [lines, if_neg (Ne.symm hb), ih hbs]
    cases bs <;> rfl

theorem lines_append_newline {l : Bytes} (rest : Bytes) (h : newline ∉ l) :
    lines (l ++ newline :: rest) = (l ++ [newline]) :: lines rest := by
  induction l with
  | nil => rfl
  | cons b l ih =>
    obtain ⟨hb, hl⟩ := not_or.mp (mt List.mem_cons.mpr h)
    rw [List.cons_append, lines, if_neg (Ne.symm hb), ih hl]
    rfl

section Joined

variable {α : Type} {line : α → Bytes} (h : ∀ x, newline ∉ line x) (xs : List α)

include h

theorem lines_flatMap :
    lines (xs.flatMap fun x => line x ++ [newline]) = xs.map fun x => line x ++ [newline] := by
  induction xs with
  | nil => rfl
  | cons x xs ih =>
    rw [List.flatMap_cons, List.append_assoc, List.singleton_append,
      lines_append_newline _ (h x), ih, List.map_cons]

/-- At its line feeds the whole falls into the lines, and nothing is left after the last. -/
theorem splitOn_flatMap :
    (xs.flatMap fun x => line x ++ [newline]).splitOn newline = xs.map line ++ [[]] := by
  induction xs with
  | nil => rfl
  | cons x xs ih =>
    rw [List.flatMap_cons, List.append_assoc, List.singleton_append,
      List.splitOn_append_cons_self_of_not_mem (h x), ih, List.map_cons, List.cons_append]

theorem count_flatMap :
    (xs.flatMap fun x => line x ++ [newline]).count newline = xs.length := by
  induction xs with
  | nil => rfl
  | cons x xs ih =>
    rw [List.flatMap_cons, List.append_assoc, List.count_append,
      List.count_eq_zero.mpr (h x), List.singleton_append, List.count_cons_self, ih,
      List.length_cons, Nat.zero_add]

end Joined

end TaskFlow.Text
