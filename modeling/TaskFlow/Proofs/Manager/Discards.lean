import TaskFlow.Proofs.Cache.Recency
import TaskFlow.Proofs.Manager.Protocol
import TaskFlow.Proofs.Manager.Endings
import TaskFlow.Proofs.Registry.Records

namespace TaskFlow

namespace Recency

variable {l : Recency} {budget bytes : Nat} {k : Kept} {id : String}

/-- Drops tables from the front until there is room for some more bytes. -/
def makeRoom (budget bytes : Nat) : Recency → Recency
  | [] => []
  | k :: l => if total (k :: l) + bytes > budget then makeRoom budget bytes l else k :: l

theorem makeRoom_suffix : l.makeRoom budget bytes <:+ l := by
  induction l with
  | nil => exact List.suffix_refl _
  | cons k l ih =>
    rw [makeRoom]
    split
    · exact ih.trans (List.suffix_cons k l)
    · exact List.suffix_refl _

theorem makeRoom_of_room (room : total l + bytes ≤ budget) : l.makeRoom budget bytes = l := by
  cases l with
  | nil => rfl
  | cons k l => exact if_neg (Nat.not_lt.mpr room)

theorem trim_concat : trim budget (l ++ [k]) = l.makeRoom budget k.bytes ++ [k] := by
  induction l with
  | nil => rfl
  | cons first l ih =>
    rw [List.cons_append, trim_cons (by simp), makeRoom, ih, ← List.cons_append, total_append]
    exact (apply_ite (· ++ [k]) ..).symm

theorem without_of_absent (absent : l.get? id = none) : l.without id = l :=
  List.filter_eq_self.mpr fun k hk => by
    have other := List.find?_eq_none.mp absent k hk
    simpa using other

theorem evict_put (table : Table) (absent : l.get? id = none) :
    ((l.put budget id table bytes).1.evict id).1 = l.makeRoom budget bytes := by
  have still : Recency.get? (l.makeRoom budget bytes) id = none :=
    List.find?_eq_none.mpr fun k hk =>
      List.find?_eq_none.mp absent k (makeRoom_suffix.subset hk)
  rw [put, absent, trim_concat, evict]
  change (makeRoom budget bytes l ++ [_]).filter _ = _
  rw [List.filter_append, List.filter_cons_of_neg (by simp), List.filter_nil, List.append_nil]
  exact without_of_absent still

end Recency

theorem Cache.Reflects.evict_put {c : Cache} {l : Recency} {id : String} {bytes : Nat}
    (table : Table) (h : c.Reflects l) (fits : c.totalBytes + bytes < UInt64.size)
    (absent : c.entries.has id = false) :
    ((c.put id table bytes).1.evict id).1.Reflects (l.makeRoom c.maxBytes bytes) := by
  obtain ⟨es, h, rfl⟩ := h
  have missing : Recency.get? (es.map Kept.ofEntry) id = none := by
    rw [← Option.not_isSome_iff_eq_none, h.get?_isSome, absent]
    exact Bool.false_ne_true
  obtain ⟨⟨es', stored, same⟩, -⟩ : (c.put id table bytes).1.Reflects _ ∧ _ :=
    h.put fun _ => fits
  rw [← Recency.evict_put table missing, ← same]
  exact stored.evict.1

namespace Manager

variable {m : Manager} {id : String} {table : Table} {bytes : Nat} {l : Recency}
  {e : TransitionError}

theorem fail_of_rejected {result : ResultRef} (failure : TaskFailure)
    (rejected : (m.registry.complete id result m.now).2 = .error e) :
    (m.registry.fail id failure m.now).1 = m.registry := by
  cases failed : (m.registry.fail id failure m.now).2 with
  | error e => exact Registry.transition_of_error failed
  | ok s =>
    obtain ⟨t, ht, legal, -⟩ := Registry.get?_transition_of_ok failed
    have running : t.info.status.canBecome .completed = true := by
      rw [Status.canBecome_failed legal]
      rfl
    rw [Registry.complete, Registry.transition_of_legal ht running] at rejected
    cases rejected

theorem commit_of_rejected
    (rejected : (m.registry.complete id ⟨id, table.length, bytes⟩ m.now).2 = .error e) :
    ((commit id table bytes).run m).1 =
      { m with cache := if m.cache.contains id then m.cache
        else ((m.cache.put id table bytes).1.evict id).1 } := by
  have stored : (Action.store id table bytes).apply m =
      ({ m with cache := (m.cache.put id table bytes).1 },
        if m.cache.entries.has id = true then .error (.alreadyStored id)
        else .ok ⟨id, table.length, bytes⟩) := Prod.ext rfl Cache.put_snd
  rw [commit, Op.run_bind, Op.run_perform, stored, Cache.contains]
  dsimp only
  cases has : m.cache.entries.has id with
  | true =>
    have same : (m.cache.put id table bytes).1 = m.cache := by rw [Cache.put, if_pos has]
    rw [if_pos rfl, if_pos rfl, same]
    exact congrArg (fun registry => { m with registry }) (fail_of_rejected _ rejected)
  | false =>
    have refused : (Action.complete id ⟨id, table.length, bytes⟩).apply
        { m with cache := (m.cache.put id table bytes).1 } =
          ({ m with cache := (m.cache.put id table bytes).1 }, .error e) :=
      Prod.ext (congrArg (Manager.mk _ _ · _ _ _ _ _ _) (Registry.transition_of_error rejected))
        rejected
    rw [if_neg Bool.false_ne_true, if_neg Bool.false_ne_true]
    dsimp only
    rw [Op.run_bind, Op.run_perform, refused]
    rfl

/-- A result that comes too late is not kept, but the tables that were accessed longest ago are gone
for it if there was no room. -/
theorem late_result_makes_room (id : String) (table : Table) (bytes : Nat)
    (reflects : m.cache.Reflects l) (fits : m.cache.totalBytes + bytes < UInt64.size)
    (rejected : (m.registry.complete id ⟨id, table.length, bytes⟩ m.now).2 = .error e) :
    let after := ((commit id table bytes).run m).1
    let left := l.makeRoom m.cache.maxBytes bytes
    after = { m with cache := after.cache } ∧
    (m.cache.contains id = true → after.cache = m.cache) ∧
    (m.cache.contains id = false → (after.cache.entries.map Kept.ofEntry).Perm left ∧
      after.cache.totalBytes = Recency.total left) ∧
    left <:+ l ∧ (m.cache.totalBytes + bytes ≤ m.cache.maxBytes → left = l) := by
  simp only [commit_of_rejected rejected]
  refine ⟨trivial, fun has => if_pos has, fun absent => ?_, Recency.makeRoom_suffix, fun room => ?_⟩
  · -- the late result is at the end of the list, so dropping it again brings nothing back
    obtain ⟨es, inOrder, same⟩ := reflects.evict_put table fits absent
    rw [if_neg (by simp [absent]), ← same]
    exact ⟨inOrder.perm.symm.map _, inOrder.bytes⟩
  · obtain ⟨es, inOrder, rfl⟩ := reflects
    exact Recency.makeRoom_of_room (inOrder.bytes ▸ room)

/-- Of two tasks one completes; the other one is canceled while its artifact is loaded. -/
def late : List Event × System :=
  let two := twoTasks.2
  let a := ((⟨{ two.manager with files := spool ["a", "b"] }, two.threads⟩ : System).call
    (.supervision "a" success)).follow [2, 2, 2, 2, 2, 2, 2, 2]
  let b := (a.2.call (.supervision "b" success)).follow [3, 3, 3]
  let c := (b.2.call (.cancellation "b")).follow [4, 4, 4, 4]
  (((twoTasks.1 ++ a.1) ++ b.1) ++ c.1, c.2)

theorem run_late : Run twoSlots late.1 late.2 := by
  have a := ((run_twoTasks.write (spool ["a", "b"])).call (.supervision "a" success)
    (System.admits_of_roles [small "a", small "b"] rfl (by simp [Role.Beside, small])
      (by rintro id c ⟨⟩; rfl))).follow [2, 2, 2, 2, 2, 2, 2, 2]
  have b := (a.call (.supervision "b" success)
    (System.admits_of_roles [small "a", small "b", .supervision "a" success] rfl
      (by simp [Role.Beside, small]) (by rintro id c ⟨⟩; rfl))).follow [3, 3, 3]
  refine (b.call (.cancellation "b") ?_).follow [4, 4, 4, 4]
  exact System.admits_of_roles
    [small "a", small "b", .supervision "a" success, .supervision "b" success] rfl
    (by simp [Role.Beside, small]) (by simp)

/-- The result of the other task is dropped along with the late one. -/
theorem late_result_drops_other : Run twoSlots late.1 late.2 ∧
    (late.2.manager.registry.complete "b" ⟨"b", 1, 2⟩ late.2.manager.now).2 =
      .error (.illegal .canceled .completed) ∧
    late.2.manager.cache.contains "a" = true ∧
    ((commit "b" (Table.ofRows [.ofNat 1]) 2).run late.2.manager).1.cache.contains "a" = false :=
  ⟨run_late, by decide +kernel, by decide +kernel, by decide +kernel⟩

/-- There was no room for both results, and none is left. -/
theorem late_result_leaves_none :
    late.2.manager.cache.contains "b" = false ∧
    (late.2.manager.registry.complete "b" ⟨"b", 1, 2⟩ late.2.manager.now).2 =
      .error (.illegal .canceled .completed) ∧
    ((commit "b" (Table.ofRows [.ofNat 1]) 2).run late.2.manager).1.cache.entries.map
      Kept.ofEntry = [] := by
  let entries := late.2.manager.cache.entries
  have absent : late.2.manager.cache.contains "b" = false := by decide +kernel
  have rejected : (late.2.manager.registry.complete "b" ⟨"b", 1, 2⟩ late.2.manager.now).2 =
      .error (.illegal .canceled .completed) := by decide +kernel
  have inOrder : late.2.manager.cache.InOrder entries :=
    ⟨.refl _, by decide +kernel, by decide +kernel, by decide +kernel, by decide +kernel⟩
  have fits : late.2.manager.cache.totalBytes + 2 < UInt64.size := by decide +kernel
  obtain ⟨-, -, kept, -⟩ := late_result_makes_room "b" (Table.ofRows [.ofNat 1]) 2
    ⟨entries, inOrder, rfl⟩ fits rejected
  have full : (Recency.makeRoom late.2.manager.cache.maxBytes 2
      (entries.map Kept.ofEntry)).isEmpty = true := by decide +kernel
  rw [List.isEmpty_iff.mp full] at kept
  exact ⟨absent, rejected, (kept absent).1.eq_nil⟩

end Manager

end TaskFlow
