import Mathlib.Data.List.Induction
import Mathlib.Order.Bounds.Basic
import TaskFlow.EditDistance

namespace TaskFlow

namespace EditDistance

/-- A change of a single character at a position. -/
inductive Edit
  | insert (i : Nat) (c : Char)
  | delete (i : Nat)
  | replace (i : Nat) (c : Char)
  deriving DecidableEq, Repr

def Edit.result? (cs : List Char) : Edit → Option (List Char)
  | .insert i c => if i ≤ cs.length then some (cs.insertIdx i c) else none
  | .delete i => if i < cs.length then some (cs.eraseIdx i) else none
  | .replace i c => if i < cs.length then some (cs.set i c) else none

def Edit.shift : Edit → Edit
  | .insert i c => .insert (i + 1) c
  | .delete i => .delete (i + 1)
  | .replace i c => .replace (i + 1) c

def scriptResult? : List Edit → List Char → Option (List Char)
  | [], cs => some cs
  | e :: es, cs => (e.result? cs).bind (scriptResult? es)

variable {as bs cs ds p : List Char} {a b c d : Char} {l m n : Nat} {row : List Nat}

theorem result?_shift (e : Edit) : e.shift.result? (c :: cs) = (e.result? cs).map (c :: ·) := by
  cases e <;> simp only [Edit.shift, Edit.result?, List.length_cons, Nat.add_le_add_iff_right,
    Nat.add_lt_add_iff_right] <;> split <;> rfl

theorem scriptResult?_shift (script : List Edit) :
    scriptResult? (script.map Edit.shift) (c :: cs) = (scriptResult? script cs).map (c :: ·) := by
  induction script generalizing cs with
  | nil => rfl
  | cons e es ih =>
    rw [List.map_cons, scriptResult?, scriptResult?, result?_shift]
    cases e.result? cs with
    | none => rfl
    | some ds => exact ih

/-- Whether one text becomes another with at most a number of changes, all made in one pass from
left to right. -/
inductive Within : Nat → List Char → List Char → Prop
  | nil {n : Nat} : Within n [] []
  | keep {n : Nat} {as bs : List Char} (c : Char) : Within n as bs → Within n (c :: as) (c :: bs)
  | insert {n : Nat} {as bs : List Char} (c : Char) : Within n as bs → Within (n + 1) as (c :: bs)
  | delete {n : Nat} {as bs : List Char} (c : Char) : Within n as bs → Within (n + 1) (c :: as) bs
  | replace {n : Nat} {as bs : List Char} (c d : Char) :
    Within n as bs → Within (n + 1) (c :: as) (d :: bs)

namespace Within

theorem refl (n : Nat) (cs : List Char) : Within n cs cs := by
  induction cs with
  | nil => exact .nil
  | cons c cs ih => exact .keep c ih

theorem mono (h : Within m as bs) (le : m ≤ n) : Within n as bs := by
  induction h generalizing n with
  | nil => exact .nil
  | keep c _ ih => exact .keep c (ih le)
  | insert c _ ih =>
    obtain ⟨n, rfl⟩ := Nat.exists_eq_add_of_le' (Nat.one_le_of_lt le)
    exact .insert c (ih (by omega))
  | delete c _ ih =>
    obtain ⟨n, rfl⟩ := Nat.exists_eq_add_of_le' (Nat.one_le_of_lt le)
    exact .delete c (ih (by omega))
  | replace c d _ ih =>
    obtain ⟨n, rfl⟩ := Nat.exists_eq_add_of_le' (Nat.one_le_of_lt le)
    exact .replace c d (ih (by omega))

/-- Two passes can be made in one: a character that the first one brought or changed goes through
the second one as well. -/
theorem trans : {m n : Nat} → {as bs cs : List Char} → Within m as bs → Within n bs cs →
    Within (m + n) as cs
  | _, _, _, _, _, h, .insert c h' => .insert c (h.trans h')
  | _, _, _, _, _, .delete c h, h' => (Within.delete c (h.trans h')).mono (by omega)
  | _, _, _, _, _, .nil, .nil => .nil
  | _, _, _, _, _, .keep c h, .keep _ h' => .keep c (h.trans h')
  | _, _, _, _, _, .keep c h, .delete _ h' => .delete c (h.trans h')
  | _, _, _, _, _, .keep c h, .replace _ d h' => .replace c d (h.trans h')
  | _, _, _, _, _, .insert _ h, .keep c h' => (Within.insert c (h.trans h')).mono (by omega)
  | _, _, _, _, _, .insert _ h, .delete _ h' => (h.trans h').mono (by omega)
  | _, _, _, _, _, .insert _ h, .replace _ d h' => (Within.insert d (h.trans h')).mono (by omega)
  | _, _, _, _, _, .replace c _ h, .keep d h' => (Within.replace c d (h.trans h')).mono (by omega)
  | _, _, _, _, _, .replace c _ h, .delete _ h' => (Within.delete c (h.trans h')).mono (by omega)
  | _, _, _, _, _, .replace c _ h, .replace _ d h' =>
    (Within.replace c d (h.trans h')).mono (by omega)
termination_by _ _ as bs cs => as.length + bs.length + cs.length

theorem append (h : Within m as bs) (h' : Within n cs ds) :
    Within (m + n) (as ++ cs) (bs ++ ds) := by
  induction h with
  | nil => exact h'.mono (Nat.le_add_left ..)
  | keep c _ ih => exact .keep c ih
  | insert c _ ih => exact (Within.insert c ih).mono (by omega)
  | delete c _ ih => exact (Within.delete c ih).mono (by omega)
  | replace c d _ ih => exact (Within.replace c d ih).mono (by omega)

theorem reverse (h : Within n as bs) : Within n as.reverse bs.reverse := by
  induction h with
  | nil => exact .nil
  | keep c _ ih => simpa using ih.append (refl 0 [c])
  | insert c _ ih => simpa using ih.append (.insert c (n := 0) .nil)
  | delete c _ ih => simpa using ih.append (.delete c (n := 0) .nil)
  | replace c d _ ih => simpa using ih.append (.replace c d (n := 0) .nil)

theorem min (h : Within m as bs) (h' : Within n as bs) : Within (min m n) as bs := by
  rcases Nat.le_total m n with le | le
  · rwa [Nat.min_eq_left le]
  · rwa [Nat.min_eq_right le]

theorem length_le (h : Within n as bs) :
    as.length ≤ bs.length + n ∧ bs.length ≤ as.length + n := by
  induction h <;> simp only [List.length_cons, List.length_nil] <;> omega

theorem insertAll (bs : List Char) : Within bs.length [] bs := by
  induction bs with
  | nil => exact .nil
  | cons b bs ih => exact .insert b ih

theorem deleteAll (as : List Char) : Within as.length as [] := by
  induction as with
  | nil => exact .nil
  | cons a as ih => exact .delete a ih

/-- What becomes of the last characters: they are the same, or there is a change less without one
of them or without both. -/
theorem of_concat (h : Within n (as ++ [c]) (bs ++ [d])) : c = d ∧ Within n as bs ∨
    ∃ m, n = m + 1 ∧
      (Within m as bs ∨ Within m as (bs ++ [d]) ∨ Within m (as ++ [c]) bs) := by
  have back : Within n (c :: as.reverse) (d :: bs.reverse) := by simpa using h.reverse
  cases back with
  | keep _ h =>
    left
    exact ⟨rfl, by simpa using h.reverse⟩
  | insert _ h =>
    right
    exact ⟨_, rfl, .inr (.inr (by simpa using h.reverse))⟩
  | delete _ h =>
    right
    exact ⟨_, rfl, .inr (.inl (by simpa using h.reverse))⟩
  | replace _ _ h =>
    right
    exact ⟨_, rfl, .inl (by simpa using h.reverse)⟩

theorem symm (h : Within n as bs) : Within n bs as := by
  induction h with
  | nil => exact .nil
  | keep c _ ih => exact .keep c ih
  | insert c _ ih => exact .delete c ih
  | delete c _ ih => exact .insert c ih
  | replace c d _ ih => exact .replace d c ih

theorem eq_of_zero (h : Within 0 as bs) : as = bs := by
  induction as generalizing bs with
  | nil => cases h; rfl
  | cons a as ih =>
    cases h with
    | keep _ h => exact congrArg (a :: ·) (ih h)

theorem maxLength (as bs : List Char) : Within (max as.length bs.length) as bs := by
  induction as generalizing bs with
  | nil => simpa using insertAll bs
  | cons a as ih =>
    cases bs with
    | nil => simpa using deleteAll (a :: as)
    | cons b bs =>
      rw [List.length_cons, List.length_cons, Nat.add_max_add_right]
      exact .replace a b (ih bs)

end Within

theorem within_insertIdx (i : Nat) (c : Char) (as : List Char) :
    Within 1 as (as.insertIdx i c) := by
  induction as generalizing i with
  | nil =>
    cases i with
    | zero => exact .insert c .nil
    | succ i => exact .nil
  | cons a as ih =>
    cases i with
    | zero => exact .insert c (.refl 0 (a :: as))
    | succ i => exact .keep a (ih i)

theorem within_eraseIdx (i : Nat) (as : List Char) : Within 1 as (as.eraseIdx i) := by
  induction as generalizing i with
  | nil => exact .nil
  | cons a as ih =>
    cases i with
    | zero => exact .delete a (.refl 0 as)
    | succ i => exact .keep a (ih i)

theorem within_set (i : Nat) (c : Char) (as : List Char) : Within 1 as (as.set i c) := by
  induction as generalizing i with
  | nil => exact .nil
  | cons a as ih =>
    cases i with
    | zero => exact .replace a c (.refl 0 as)
    | succ i => exact .keep a (ih i)

theorem within_of_result? {e : Edit} (h : e.result? as = some bs) : Within 1 as bs := by
  cases e <;> simp only [Edit.result?, Option.ite_none_right_eq_some, Option.some.injEq] at h <;>
    obtain ⟨-, rfl⟩ := h
  · exact within_insertIdx _ _ as
  · exact within_eraseIdx _ as
  · exact within_set _ _ as

theorem within_of_scriptResult? {script : List Edit} (h : scriptResult? script as = some bs) :
    Within script.length as bs := by
  induction script generalizing as with
  | nil =>
    obtain rfl : as = bs := Option.some.inj h
    exact .refl 0 as
  | cons e es ih =>
    obtain ⟨cs, first, others⟩ := Option.bind_eq_some_iff.mp h
    exact ((within_of_result? first).trans (ih others)).mono (by rw [List.length_cons]; omega)

theorem Within.exists_script (h : Within n as bs) :
    ∃ script, script.length ≤ n ∧ scriptResult? script as = some bs := by
  induction h with
  | nil => exact ⟨[], Nat.zero_le _, rfl⟩
  | keep c _ ih =>
    obtain ⟨script, short, turns⟩ := ih
    exact ⟨script.map Edit.shift, by simpa using short, by rw [scriptResult?_shift, turns]; rfl⟩
  | @insert n as bs c _ ih =>
    obtain ⟨script, short, turns⟩ := ih
    have first : (Edit.insert 0 c).result? as = some (c :: as) := by
      simp [Edit.result?]
    refine ⟨.insert 0 c :: script.map Edit.shift, by simpa using short, ?_⟩
    rw [scriptResult?, first, Option.bind_some, scriptResult?_shift, turns]
    rfl
  | @delete n as bs c _ ih =>
    obtain ⟨script, short, turns⟩ := ih
    have first : (Edit.delete 0).result? (c :: as) = some as := by simp [Edit.result?]
    refine ⟨.delete 0 :: script, by simpa using short, ?_⟩
    rw [scriptResult?, first, Option.bind_some, turns]
  | @replace n as bs c d _ ih =>
    obtain ⟨script, short, turns⟩ := ih
    have first : (Edit.replace 0 d).result? (c :: as) = some (d :: as) := by simp [Edit.result?]
    refine ⟨.replace 0 d :: script.map Edit.shift, by simpa using short, ?_⟩
    rw [scriptResult?, first, Option.bind_some, scriptResult?_shift, turns]
    rfl

/-- The least number of changes that turn one text into another. -/
def IsDistance (n : Nat) (as bs : List Char) : Prop := IsLeast {m | Within m as bs} n

theorem isDistance_nil_left (bs : List Char) : IsDistance bs.length [] bs :=
  ⟨.insertAll bs, fun _ h => by simpa using h.length_le.2⟩

theorem isDistance_nil_right (as : List Char) : IsDistance as.length as [] :=
  ⟨.deleteAll as, fun _ h => by simpa using h.length_le.1⟩

/-- A cell of a row: the distance of two texts from those without the last character of one of
them, or of both. -/
theorem IsDistance.cell (above : IsDistance m as (bs ++ [d]))
    (left : IsDistance l (as ++ [c]) bs) (diagonal : IsDistance n as bs) :
    IsDistance (min (min (m + 1) (l + 1)) (n + if c = d then 0 else 1))
      (as ++ [c]) (bs ++ [d]) := by
  constructor
  · have deletes : Within (m + 1) (as ++ [c]) (bs ++ [d]) := by
      simpa using above.1.append (.delete c (n := 0) .nil)
    have inserts : Within (l + 1) (as ++ [c]) (bs ++ [d]) := by
      simpa using left.1.append (.insert d (n := 0) .nil)
    have meets : Within (n + if c = d then 0 else 1) (as ++ [c]) (bs ++ [d]) := by
      split
      · next same => exact same ▸ diagonal.1.append (.refl 0 [c])
      · exact diagonal.1.append (.replace c d .nil)
    exact (deletes.min inserts).min meets
  · intro k h
    rcases h.of_concat with ⟨same, h⟩ | ⟨k, rfl, h | h | h⟩
    · have : n ≤ k := diagonal.2 h
      rw [if_pos same]
      omega
    · have : n ≤ k := diagonal.2 h
      split <;> omega
    · have : m ≤ k := above.2 h
      omega
    · have : l ≤ k := left.2 h
      omega

/-- A row that holds the distances of one text to a prefix of another, and to that prefix with more
and more of the characters that follow. -/
inductive IsRow (as : List Char) : List Char → List Char → List Nat → Prop
  | last {p : List Char} {n : Nat} : IsDistance n as p → IsRow as p [] [n]
  | next {p ds : List Char} {d : Char} {n : Nat} {row : List Nat} :
    IsDistance n as p → IsRow as (p ++ [d]) ds row → IsRow as p (d :: ds) (n :: row)

theorem IsRow.head (h : IsRow as p ds (n :: row)) : IsDistance n as p := by
  cases h <;> assumption

theorem IsRow.nextCells (h : IsRow as p ds row) (left : IsDistance l (as ++ [c]) p) :
    IsRow (as ++ [c]) p ds (l :: nextCells c ds row l) := by
  induction h generalizing l with
  | last _ => exact .last left
  | @next p ds d n row diagonal rest ih =>
    cases row with
    | nil => cases rest
    | cons m row => exact .next left (ih (rest.head.cell left diagonal))

theorem IsRow.nextRow (h : IsRow as [] bs row) : IsRow (as ++ [c]) [] bs (nextRow bs row c) := by
  have first : row.headD 0 = as.length := by
    cases row with
    | nil => cases h
    | cons n row => exact IsLeast.unique h.head (isDistance_nil_right as)
  refine h.nextCells ?_
  rw [first]
  simpa using isDistance_nil_right (as ++ [c])

theorem isRow_range (p ds : List Char) :
    IsRow [] p ds (List.range' p.length (ds.length + 1)) := by
  induction ds generalizing p with
  | nil => exact .last (isDistance_nil_left p)
  | cons d ds ih =>
    refine .next (isDistance_nil_left p) ?_
    simpa using ih (p ++ [d])

/-- After each character of the first text the row holds its distances to all prefixes of the
second. -/
theorem isRow_lastRow (as bs : List Char) : IsRow as [] bs (lastRow as bs) := by
  induction as using List.reverseRecOn with
  | nil =>
    rw [lastRow, List.foldl_nil, List.range_eq_range']
    exact isRow_range [] bs
  | append_singleton as a ih =>
    rw [lastRow, List.foldl_append]
    exact ih.nextRow

theorem IsRow.getLastD (h : IsRow as p ds row) (k : Nat) :
    IsDistance (row.getLastD k) as (p ++ ds) := by
  induction h generalizing k with
  | last distance => simpa using distance
  | @next p ds d n row _ _ ih =>
    rw [List.getLastD_cons]
    simpa using ih n

theorem isDistance_ofLists (as bs : List Char) : IsDistance (ofLists as bs) as bs :=
  (isRow_lastRow as bs).getLastD 0

theorem IsDistance.comm (h : IsDistance n as bs) : IsDistance n bs as :=
  ⟨h.1.symm, fun _ h' => h.2 (Within.symm h')⟩

end EditDistance

section Metric

variable {a b : String}

theorem isDistance_editDistance (a b : String) :
    EditDistance.IsDistance (editDistance a b) a.toList b.toList :=
  EditDistance.isDistance_ofLists a.toList b.toList

theorem editDistance_comm (a b : String) : editDistance a b = editDistance b a :=
  IsLeast.unique (isDistance_editDistance a b) (isDistance_editDistance b a).comm

theorem editDistance_eq_zero : editDistance a b = 0 ↔ a = b := by
  have distance := isDistance_editDistance a b
  refine ⟨fun h => ?_, ?_⟩
  · rw [h] at distance
    exact String.toList_inj.mp (EditDistance.Within.eq_of_zero distance.1)
  · rintro rfl
    exact Nat.le_zero.mp (distance.2 (EditDistance.Within.refl 0 a.toList))

theorem editDistance_le_max (a b : String) : editDistance a b ≤ max a.length b.length := by
  have within := EditDistance.Within.maxLength a.toList b.toList
  rw [String.length_toList, String.length_toList] at within
  exact (isDistance_editDistance a b).2 within

end Metric

/-- Some sequence of edits that turns one text into the other is as long as their distance, and none
is shorter. -/
theorem editDistance_isLeast (a b : String) :
    IsLeast {n | ∃ script : List EditDistance.Edit, script.length = n ∧
      EditDistance.scriptResult? script a.toList = some b.toList} (editDistance a b) := by
  -- the last cell of the last row; a pass from left to right is as short as any script
  have distance : EditDistance.IsDistance (editDistance a b) a.toList b.toList :=
    EditDistance.isDistance_ofLists a.toList b.toList
  have shortest : ∀ script : List EditDistance.Edit,
      EditDistance.scriptResult? script a.toList = some b.toList →
      editDistance a b ≤ script.length := fun _ turns =>
    distance.2 (EditDistance.within_of_scriptResult? turns)
  constructor
  · obtain ⟨script, short, turns⟩ := distance.1.exists_script
    exact ⟨script, le_antisymm short (shortest script turns), turns⟩
  · rintro n ⟨script, rfl, turns⟩
    exact shortest script turns

example : editDistance "kitten" "sitting" = 3 := by decide

end TaskFlow
