import TaskFlow.Proofs.Cache.Recency

namespace TaskFlow.Cache

/-- A cache whose entries were accessed at different times up to now. -/
structure Stamped (c : Cache) : Prop where
  nodup : c.entries.ids.Nodup
  apart : (c.entries.map (·.2.lastAccess)).Nodup
  past : ∀ e ∈ c.entries, e.2.lastAccess ≤ c.clock

/-- The states of a cache under a budget: the empty one, and those after requests. The entries may
be found in another order at any time. -/
inductive Reachable (budget : Nat) : Cache → Prop
  | empty : Reachable budget { maxBytes := budget }
  | apply {c : Cache} (q : Request) (h : Reachable budget c) : Reachable budget (q.apply c).1
  | reorder {c : Cache} {entries : Store CacheEntry} (perm : entries.Perm c.entries)
    (h : Reachable budget c) : Reachable budget { c with entries }

variable {c d : Cache} {id keep : String} {e : CacheEntry} {entries : Store CacheEntry}
  {table : Table} {bytes budget fuel : Nat} {q : Request}

theorem Stamped.reorder (h : c.Stamped) (perm : entries.Perm c.entries) :
    Stamped { c with entries } where
  nodup := (perm.map _).nodup_iff.mpr h.nodup
  apart := (perm.map _).nodup_iff.mpr h.apart
  past e he := h.past e (perm.subset he)

theorem Stamped.drop (h : c.Stamped) : (c.drop id).Stamped := by
  unfold Cache.drop
  split
  · exact h
  · exact ⟨Store.nodup_erase h.nodup, h.apart.sublist (List.filter_sublist.map _),
      fun e he => h.past e (List.mem_of_mem_filter he)⟩

theorem Stamped.push (h : c.Stamped) (next : e.lastAccess = c.clock + 1) {total : Nat} :
    Stamped { c with
      entries := c.entries.insert id e, totalBytes := total, clock := c.clock + 1 } := by
  have before : ∀ x ∈ c.entries.erase id, x.2.lastAccess ≤ c.clock := fun x hx =>
    h.past x (List.mem_of_mem_filter hx)
  refine ⟨Store.nodup_insert h.nodup,
    List.nodup_cons.mpr ⟨?_, h.apart.sublist (List.filter_sublist.map _)⟩, ?_⟩
  · intro there
    obtain ⟨x, hx, same⟩ := List.mem_map.mp there
    have := before x hx
    simp only [next] at same
    omega
  · intro x hx
    rcases List.mem_cons.mp hx with rfl | hx
    · exact Nat.le_of_eq next
    · exact Nat.le_succ_of_le (before x hx)

theorem Stamped.enforceBudget (h : c.Stamped) : (c.enforceBudget keep fuel).Stamped := by
  induction fuel generalizing c with
  | zero => exact h
  | succ fuel ih =>
    rw [Cache.enforceBudget]
    split
    · split
      · exact ih h.drop
      · exact h
    · exact h

theorem Stamped.added (h : c.Stamped) : (c.added id table bytes).Stamped := h.push rfl

theorem put_fst (absent : c.entries.has id = false) : (c.put id table bytes).1 =
    (c.added id table bytes).enforceBudget id (c.added id table bytes).entries.length := by
  simp only [Cache.put, absent]
  rfl

theorem Stamped.apply (h : c.Stamped) : (q.apply c).1.Stamped := by
  cases q with
  | put id table bytes =>
    cases has : c.entries.has id with
    | true => simpa [Request.apply, Cache.put, has] using h
    | false => exact (put_fst has) ▸ h.added.enforceBudget
  | get id =>
    simp only [Request.apply, Cache.get]
    split
    · exact ⟨h.nodup, h.apart, fun e he => Nat.le_succ_of_le (h.past e he)⟩
    · next e found =>
      have moved := Store.modify_perm (f := readAt (c.clock + 1)) h.nodup found
      have front := moved.trans (List.perm_append_singleton ..)
      exact (h.push (e := readAt (c.clock + 1) e) rfl).reorder front
  | evict id => exact h.drop
  | acknowledge id =>
    simp only [Request.apply, Cache.acknowledge]
    split
    · exact h
    · split
      · exact h.drop
      · exact h

theorem Reachable.stamped (h : c.Reachable budget) : c.Stamped := by
  induction h with
  | empty => exact ⟨.nil, .nil, by simp⟩
  | apply q _ ih => exact ih.apply
  | reorder perm _ ih => exact ih.reorder perm

theorem oldest?_eq_none_iff : c.oldest? keep = none ↔ ∀ x ∈ c.entries, x.1 = keep := by
  have others : (c.entries.filter fun e => !(e.1 == keep)) = [] ↔
      ∀ x ∈ c.entries, x.1 = keep := by
    simp [List.filter_eq_nil_iff]
  rw [← others, oldest?]
  split
  · next none => simp only [none]
  · next some => simp only [some, reduceCtorEq]

theorem exists_of_oldest? (h : c.oldest? keep = some id) :
    ∃ e, (id, e) ∈ c.entries ∧ id ≠ keep ∧
      ∀ x ∈ c.entries, x.1 ≠ keep → e.lastAccess ≤ x.2.lastAccess := by
  unfold oldest? at h
  split at h
  · cases h
  · next e es found =>
    cases h
    have mine : es.foldl older e ∈ c.entries.filter fun e => !(e.1 == keep) :=
      found ▸ foldl_older_mem
    obtain ⟨there, other⟩ := List.mem_filter.mp mine
    refine ⟨_, there, by simpa using other, fun x hx hk => foldl_older_le ?_⟩
    rw [← found]
    exact List.mem_filter.mpr ⟨hx, by simpa using hk⟩

theorem Stamped.oldest?_reorder (h : c.Stamped) (perm : entries.Perm c.entries) :
    ({ c with entries } : Cache).oldest? keep = c.oldest? keep := by
  cases found : c.oldest? keep with
  | none =>
    rw [oldest?_eq_none_iff] at found ⊢
    exact fun x hx => found x (perm.subset hx)
  | some id =>
    obtain ⟨e, he, hid, least⟩ := exists_of_oldest? found
    cases other : ({ c with entries } : Cache).oldest? keep with
    | none => exact absurd (oldest?_eq_none_iff.mp other _ (perm.symm.subset he)) hid
    | some id' =>
      obtain ⟨e', he', hid', least'⟩ := exists_of_oldest? other
      have there : (id', e') ∈ c.entries := perm.subset he'
      have same : e'.lastAccess = e.lastAccess :=
        Nat.le_antisymm (least' _ (perm.symm.subset he) hid) (least _ there hid')
      cases List.inj_on_of_nodup_map h.apart there he same
      rfl

def Reordered (c d : Cache) : Prop :=
  ∃ entries : Store CacheEntry, entries.Perm c.entries ∧ d = { c with entries }

theorem Reordered.refl (c : Cache) : Reordered c c := ⟨c.entries, .refl _, rfl⟩

theorem Reordered.symm (h : Reordered c d) : Reordered d c := by
  obtain ⟨entries, perm, rfl⟩ := h
  exact ⟨c.entries, perm.symm, rfl⟩

theorem Reordered.trans {e : Cache} (h : Reordered c d) (h' : Reordered d e) : Reordered c e := by
  obtain ⟨entries, perm, rfl⟩ := h
  obtain ⟨entries', perm', rfl⟩ := h'
  exact ⟨entries', perm'.trans perm, rfl⟩

theorem Reordered.stamped (h : Reordered c d) (stamped : c.Stamped) : d.Stamped := by
  obtain ⟨entries, perm, rfl⟩ := h
  exact stamped.reorder perm

theorem Reordered.get? (h : Reordered c d) (stamped : c.Stamped) :
    d.entries.get? id = c.entries.get? id := by
  obtain ⟨entries, perm, rfl⟩ := h
  exact (Store.get?_perm stamped.nodup perm.symm).symm

theorem Reordered.drop (h : Reordered c d) (stamped : c.Stamped) :
    Reordered (c.drop id) (d.drop id) := by
  have same : d.entries.get? id = c.entries.get? id := h.get? stamped
  obtain ⟨entries, perm, rfl⟩ := h
  simp only [Cache.drop, same]
  split
  · exact ⟨entries, perm, rfl⟩
  · exact ⟨_, perm.filter _, rfl⟩

theorem Reordered.added (h : Reordered c d) :
    Reordered (c.added id table bytes) (d.added id table bytes) := by
  obtain ⟨entries, perm, rfl⟩ := h
  exact ⟨_, (perm.filter _).cons _, rfl⟩

def victim? (c : Cache) (keep : String) : Option String :=
  if c.totalBytes > c.maxBytes then c.oldest? keep else none

/-- Entries go, one after another, until none has to. At each step they may be found in another
order. -/
inductive Evicts (keep : String) : Cache → List String → Cache → Prop
  | stop {c d : Cache} (found : Reordered c d) (done : d.victim? keep = none) : Evicts keep c [] d
  | evict {c d e : Cache} {id : String} {ids : List String} (found : Reordered c d)
    (next : d.victim? keep = some id) (rest : Evicts keep (d.drop id) ids e) :
    Evicts keep c (id :: ids) e

theorem Reordered.victim? (h : Reordered c d) (stamped : c.Stamped) :
    d.victim? keep = c.victim? keep := by
  obtain ⟨entries, perm, rfl⟩ := h
  simp only [Cache.victim?, stamped.oldest?_reorder perm]

theorem enforceBudget_succ : c.enforceBudget keep (fuel + 1) =
    match c.victim? keep with
    | some id => (c.drop id).enforceBudget keep fuel
    | none => c := by
  rw [Cache.enforceBudget, victim?]
  split <;> rfl

theorem length_drop_lt (h : c.victim? keep = some id) :
    (c.drop id).entries.length < c.entries.length := by
  obtain ⟨-, oldest⟩ := Option.ite_none_right_eq_some.mp h
  obtain ⟨e, there, -, -⟩ := exists_of_oldest? oldest
  unfold Cache.drop
  split
  · next absent => exact absurd (Store.mem_ids_of_mem there) (Store.not_mem_ids absent)
  · exact List.length_filter_lt_length_iff_exists.mpr ⟨_, there, by simp⟩

theorem victim?_nil (empty : c.entries = []) : c.victim? keep = none := by
  have none : c.oldest? keep = none := oldest?_eq_none_iff.mpr (by simp [empty])
  simp [victim?, none]

theorem evicts_enforceBudget (enough : c.entries.length ≤ fuel) :
    ∃ ids, Evicts keep c ids (c.enforceBudget keep fuel) := by
  induction fuel generalizing c with
  | zero =>
    have empty : c.entries = [] := List.length_eq_zero_iff.mp (Nat.le_zero.mp enough)
    exact ⟨[], .stop (.refl c) (victim?_nil empty)⟩
  | succ fuel ih =>
    rw [enforceBudget_succ]
    split
    · next id next =>
      have shorter := length_drop_lt next
      obtain ⟨ids, rest⟩ := ih (c := c.drop id) (by omega)
      exact ⟨id :: ids, .evict (.refl c) next rest⟩
    · next done => exact ⟨[], .stop (.refl c) done⟩

/-- In whatever order the entries are found at each step, the same ones go in the same order, and
the same ones stay. -/
theorem Evicts.determined {c' d' : Cache} {ids ids' : List String} (h : Evicts keep c ids d)
    (stamped : c.Stamped) (same : Reordered c c') (h' : Evicts keep c' ids' d') :
    ids' = ids ∧ Reordered d d' := by
  induction h generalizing c' ids' d' with
  | stop found done =>
    cases h' with
    | stop found' _ => exact ⟨rfl, found.symm.trans (same.trans found')⟩
    | evict found' next' _ =>
      have aside := found.symm.trans (same.trans found')
      rw [aside.victim? (found.stamped stamped), done] at next'
      cases next'
  | evict found next _ ih =>
    cases h' with
    | stop found' done' =>
      have aside := found.symm.trans (same.trans found')
      rw [aside.victim? (found.stamped stamped), next] at done'
      cases done'
    | evict found' next' rest' =>
      have stamped := found.stamped stamped
      have aside := found.symm.trans (same.trans found')
      rw [aside.victim? stamped, next] at next'
      cases next'
      obtain ⟨rfl, after⟩ := ih stamped.drop (aside.drop stamped) rest'
      exact ⟨rfl, after⟩

theorem evicts_put (table : Table) (bytes : Nat) (absent : c.entries.has id = false) :
    ∃ ids, Evicts id (c.added id table bytes) ids (c.put id table bytes).1 := by
  rw [put_fst absent]
  exact evicts_enforceBudget (Nat.le_refl _)

/-- The entries that go when a table is stored, and those that stay, do not tell in which order the
entries were found. -/
theorem Stamped.put_reorder (stamped : c.Stamped) (same : Reordered c d) :
    (d.put id table bytes).2 = (c.put id table bytes).2 ∧
    Reordered (c.put id table bytes).1 (d.put id table bytes).1 ∧
    (c.entries.has id = false → ∃ ids,
      Evicts id (c.added id table bytes) ids (c.put id table bytes).1 ∧
      ∀ ids' after, Evicts id (d.added id table bytes) ids' after →
        ids' = ids ∧ Reordered (c.put id table bytes).1 after) := by
  have has : d.entries.has id = c.entries.has id := by
    rw [Store.has, Store.has, same.get? stamped]
  refine ⟨by rw [put_snd, put_snd, has], ?_, fun absent => ?_⟩
  · cases stored : c.entries.has id with
    | true =>
      rw [stored] at has
      simpa [Cache.put, stored, has] using same
    | false =>
      obtain ⟨ids, run⟩ := evicts_put table bytes stored
      obtain ⟨ids', run'⟩ := evicts_put table bytes (has.trans stored)
      exact (run.determined stamped.added same.added run').2
  · obtain ⟨ids, run⟩ := evicts_put table bytes absent
    exact ⟨ids, run, fun ids' after run' => run.determined stamped.added same.added run'⟩

end TaskFlow.Cache
