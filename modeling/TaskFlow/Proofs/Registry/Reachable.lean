import Mathlib.Data.Prod.Lex
import TaskFlow.Proofs.Registry.Slots
import TaskFlow.Proofs.Text.ByteOrder

namespace TaskFlow.Registry

def Operation.KeepsId : Operation → Prop
  | .call _ => True
  | .transition _ _ _ change => ∀ t, (change t).id = t.id

/-- The states of a registry: a new one, and those after operations. The records may be found in
another order at any time. -/
inductive Reachable : Registry → Prop
  | new (free : Nat) : Reachable { free }
  | apply {r : Registry} (op : Operation) (keeps : op.KeepsId) (h : Reachable r) :
    Reachable (op.apply r)
  | reorder {r : Registry} {tasks : Store TaskRecord} (perm : tasks.Perm r.tasks)
    (h : Reachable r) : Reachable { r with tasks }

/-- A registry with one record for an identifier, of the task with that identifier. -/
structure Sound (r : Registry) : Prop where
  nodup : r.tasks.ids.Nodup
  keyed : ∀ e ∈ r.tasks, e.2.info.id = e.1

/-- What an operation does to the records: it adds a fresh one, changes one, or takes some away. -/
inductive Reshapes (s : Store TaskRecord) : Store TaskRecord → Prop
  | insert (info : TaskInfo) : Reshapes s (s.insert info.id ⟨info, []⟩)
  | modify (id : String) (f : TaskRecord → TaskRecord) :
    (∀ t, (f t).info.id = t.info.id) → Reshapes s (s.modify id f)
  | filter (p : String × TaskRecord → Bool) : Reshapes s (s.filter p)

variable {r : Registry} {s s' : Store TaskRecord} {id : String} {next : Status} {now : Instant}
  {change : TaskInfo → TaskInfo} {op : Operation}

theorem Reshapes.same (s : Store TaskRecord) : Reshapes s s := by
  have all := Reshapes.filter (s := s) fun _ => true
  rwa [List.filter_true] at all

theorem reshapes_update {f : TaskRecord → TaskRecord} (keeps : ∀ t, (f t).info.id = t.info.id) :
    Reshapes r.tasks (r.update id f).tasks :=
  .modify id f keeps

theorem reshapes_transition (keeps : ∀ t, (change t).id = t.id) :
    Reshapes r.tasks (r.transition id next now change).1.tasks := by
  rw [tasks_transition]
  split
  · exact reshapes_update fun t => keeps _
  · exact .same _

theorem removeAll_fst (ids : List String) :
    (r.removeAll ids).1 = { r with tasks := r.tasks.filter fun e => !ids.contains e.1 } := by
  induction ids generalizing r with
  | nil => simp [removeAll]
  | cons id ids ih =>
    simp only [removeAll, ih, remove, Store.erase, List.filter_filter, List.contains_cons]
    simp only [Bool.not_or, Bool.and_comm]

theorem reshapes_apply (keeps : op.KeepsId) : Reshapes r.tasks (op.apply r).tasks := by
  cases op with
  | transition id next now change => exact reshapes_transition keeps
  | call c =>
    cases c with
    | insert info withSlot =>
      cases withSlot with
      | false => exact tasks_insert (r := r) ▸ .insert info
      | true =>
        simp only [Operation.apply, Call.apply]
        split
        · next r' acquired =>
          obtain ⟨-, rfl⟩ := acquire?_eq_some.mp acquired
          exact tasks_insert (r := { r with free := r.free - 1 }) ▸ .insert info
        · exact .same _
    | markRunning id now => exact reshapes_transition fun _ => rfl
    | complete id result now => exact reshapes_transition fun _ => rfl
    | fail id failure now => exact reshapes_transition fun _ => rfl
    | cancel id now =>
      simp only [Operation.apply, Call.apply, cancel_fst]
      exact reshapes_transition fun _ => rfl
    | setProgress id fraction message =>
      simp only [Operation.apply, Call.apply, setProgress]
      split
      · exact reshapes_update fun _ => rfl
      · exact .same _
    | recordMemory id sample =>
      simp only [Operation.apply, Call.apply, recordMemory]
      split
      · exact reshapes_update fun _ => rfl
      · exact .same _
    | releaseSlot id =>
      simp only [Operation.apply, Call.apply, releaseSlot, tasks_dropSlot]
      exact .same _
    | remove id => exact .filter _
    | sweep now ttl =>
      simp only [Operation.apply, Call.apply, sweep, removeAll_fst]
      exact .filter _

theorem Reshapes.sound (h : Reshapes r.tasks s) (sound : r.Sound) :
    Sound { r with tasks := s } := by
  cases h with
  | insert info =>
    refine ⟨Store.nodup_insert sound.nodup, fun e he => ?_⟩
    rcases List.mem_cons.mp he with rfl | he
    · rfl
    · exact sound.keyed e (List.mem_of_mem_filter he)
  | modify id f keeps =>
    refine ⟨(Store.ids_modify (s := r.tasks)).symm ▸ sound.nodup, fun e he => ?_⟩
    obtain ⟨e, there, rfl⟩ := List.mem_map.mp he
    split
    · exact (keeps e.2).trans (sound.keyed e there)
    · exact sound.keyed e there
  | filter p =>
    exact ⟨sound.nodup.sublist (List.filter_sublist.map _),
      fun e he => sound.keyed e (List.mem_of_mem_filter he)⟩

theorem Reachable.sound (h : r.Reachable) : r.Sound := by
  induction h with
  | new free => exact ⟨.nil, by simp⟩
  | apply op keeps _ ih =>
    have next := (reshapes_apply keeps).sound ih
    exact ⟨next.nodup, next.keyed⟩
  | reorder perm _ ih =>
    exact ⟨(perm.map _).nodup_iff.mpr ih.nodup, fun e he => ih.keyed e (perm.subset he)⟩

theorem Reachable.after (h : r.Reachable) (calls : List Call) : (r.after calls).Reachable := by
  induction calls generalizing r with
  | nil => exact h
  | cons c calls ih => exact ih (h.apply (.call c) trivial)

/-- Whether a task stands before another one: it was created earlier, or at the same time and the
bytes of its identifier come first. -/
def Precedes (a b : TaskInfo) : Prop :=
  a.createdAt.le b.createdAt ∧ a.createdAt ≠ b.createdAt ∨
    a.createdAt = b.createdAt ∧ Text.utf8 a.id < Text.utf8 b.id

/-- By what tasks are listed: the two parts of their creation time, then their identifier. -/
def listingKey (t : TaskInfo) : Int ×ₗ Nat ×ₗ String :=
  toLex (t.createdAt.seconds, toLex (t.createdAt.nanos, t.id))

variable {a b : TaskInfo} {tasks : Store TaskRecord}

theorem createdAt_eq_iff : a.createdAt = b.createdAt ↔
    a.createdAt.seconds = b.createdAt.seconds ∧ a.createdAt.nanos = b.createdAt.nanos := by
  rw [← Instant.mk.injEq]

theorem listedBefore_iff : listedBefore a b = true ↔ listingKey a ≤ listingKey b := by
  simp only [listedBefore, listingKey, Prod.Lex.toLex_le_toLex, Instant.le, createdAt_eq_iff]
  split <;> grind

theorem precedes_iff : Precedes a b ↔ listingKey a < listingKey b := by
  simp only [Precedes, listingKey, Prod.Lex.toLex_lt_toLex, Instant.le, Text.utf8_lt_iff,
    ne_eq, createdAt_eq_iff]
  grind

theorem listedBefore_trans (a b c : TaskInfo) (hab : listedBefore a b) (hbc : listedBefore b c) :
    listedBefore a c :=
  listedBefore_iff.mpr (le_trans (listedBefore_iff.mp hab) (listedBefore_iff.mp hbc))

theorem listedBefore_total (a b : TaskInfo) : listedBefore a b || listedBefore b a := by
  rw [Bool.or_eq_true, listedBefore_iff, listedBefore_iff]
  exact le_total _ _

theorem id_eq_of_listedBefore (hab : listedBefore a b) (hba : listedBefore b a) : a.id = b.id :=
  have same := le_antisymm (listedBefore_iff.mp hab) (listedBefore_iff.mp hba)
  congrArg (fun k : Int ×ₗ Nat ×ₗ String => (ofLex (ofLex k).2).2) same

variable (r) in
theorem list_perm : r.list.Perm (r.tasks.map (·.2.info)) := by
  rw [list, Store.values, List.map_map]
  exact List.mergeSort_perm _ _

theorem Sound.nodup_infos (h : r.Sound) : ((r.tasks.map (·.2.info)).map (·.id)).Nodup := by
  rw [List.map_map, Function.comp_def, List.map_congr_left h.keyed]
  exact h.nodup

theorem Sound.list_pairwise (h : r.Sound) : r.list.Pairwise Precedes := by
  have sorted : r.list.Pairwise fun a b => listedBefore a b = true :=
    List.pairwise_mergeSort listedBefore_trans listedBefore_total _
  have apart : r.list.Pairwise fun a b => a.id ≠ b.id :=
    List.pairwise_map.mp (((list_perm r).map _).nodup_iff.mpr h.nodup_infos)
  refine (sorted.and apart).imp fun ⟨before, apart⟩ => precedes_iff.mpr ?_
  refine lt_of_le_not_ge (listedBefore_iff.mp before) fun after => apart ?_
  exact id_eq_of_listedBefore before (listedBefore_iff.mpr after)

theorem Sound.list_reorder (h : r.Sound) (perm : tasks.Perm r.tasks) :
    ({ r with tasks } : Registry).list = r.list := by
  have found : (r.tasks.map (·.2.info)).Perm (tasks.map (·.2.info)) := (perm.map _).symm
  have sorted := Store.mergeSort_eq_of_perm listedBefore listedBefore_trans listedBefore_total
    (fun a ha b hb hab hba =>
      List.inj_on_of_nodup_map h.nodup_infos ha hb (id_eq_of_listedBefore hab hba)) found
  simpa only [list, Store.values, List.map_map, Function.comp_def] using sorted.symm

end TaskFlow.Registry
