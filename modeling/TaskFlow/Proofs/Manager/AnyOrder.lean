import TaskFlow.Proofs.Cache.Eviction
import TaskFlow.Proofs.Registry.Reachable
import TaskFlow.Proofs.Rows.Sums

namespace TaskFlow

/-- The list of tasks, the evictions and the sums by key do not tell in which order the entries of a
table are found. -/
theorem answers_in_any_order {r : Registry} {tasks : Store TaskRecord} {budget : Nat}
    {c d : Cache} {found : Store Double} (id : String) (table : Table) (bytes : Nat)
    (key value : String) (rows : List Row)
    (registry : r.Reachable) (records : tasks.Perm r.tasks)
    (cache : c.Reachable budget) (entries : Cache.Reordered c d)
    (sums : found.Perm (Rows.sums key value rows)) :
    (({ r with tasks } : Registry).list = r.list ∧ r.list.Perm (r.tasks.map (·.2.info)) ∧
      r.list.Pairwise Registry.Precedes) ∧
    ((d.put id table bytes).2 = (c.put id table bytes).2 ∧
      Cache.Reordered (c.put id table bytes).1 (d.put id table bytes).1 ∧
      (c.entries.has id = false → ∃ ids,
        Cache.Evicts id (c.added id table bytes) ids (c.put id table bytes).1 ∧
        ∀ ids' after, Cache.Evicts id (d.added id table bytes) ids' after →
          ids' = ids ∧ Cache.Reordered (c.put id table bytes).1 after)) ∧
    (found.mergeSort fun a b => a.1 ≤ b.1).map (Rows.sumRow key value) =
      Rows.reduceByKey key value rows :=
  ⟨⟨registry.sound.list_reorder records, r.list_perm, registry.sound.list_pairwise⟩,
    cache.stamped.put_reorder entries, Rows.reduceByKey_reorder sums⟩

def threeTasks : Registry :=
  ({ free := 1 } : Registry).after [
    .insert (.queued "c" .execute ⟨20, 0⟩) false, .insert (.queued "a" .execute ⟨60, 0⟩) true,
    .insert (.queued "b" .execute ⟨60, 0⟩) false]

def twoTables : Cache :=
  (((({ maxBytes := 100 } : Cache).put "a" default 40).1.put "b" default 40).1.get "a").1

/-- The same is answered if all that was found is found in reverse. -/
theorem answers_in_reverse :
    threeTasks.list.map (·.id) = ["c", "a", "b"] ∧
    (∃ d, Cache.Evicts "c"
        (({ twoTables with entries := twoTables.entries.reverse } : Cache).added "c" default 40)
        ["b"] d ∧ Cache.Reordered (twoTables.put "c" default 40).1 d) ∧
    ((Rows.sums "token" "count" Rows.tally).reverse.mergeSort fun a b => a.1 ≤ b.1).map
        (Rows.sumRow "token" "count") = Rows.reduceByKey "token" "count" Rows.tally := by
  have registry : threeTasks.Reachable := (Registry.Reachable.new 1).after _
  have cache : twoTables.Reachable 100 :=
    ((Cache.Reachable.empty.apply (.put "a" default 40)).apply (.put "b" default 40)).apply
      (.get "a")
  obtain ⟨⟨list, -, -⟩, ⟨-, -, evicted⟩, sums⟩ :=
    answers_in_any_order "c" default 40 "token" "count" Rows.tally registry (List.reverse_perm _)
      cache ⟨_, List.reverse_perm _, rfl⟩ (List.reverse_perm _)
  refine ⟨?_, ?_, sums⟩
  · rw [← list, Registry.list, List.mergeSort_of_pairwise (by decide)]
    rfl
  · have run : Cache.Evicts "c"
        (({ twoTables with entries := twoTables.entries.reverse } : Cache).added "c" default 40)
        ["b"] ((({ twoTables with entries := twoTables.entries.reverse } : Cache).added "c" default
          40).drop "b") :=
      .evict (.refl _) (by decide) (.stop (.refl _) (by decide))
    obtain ⟨ids, -, same⟩ := evicted (by decide)
    exact ⟨_, run, (same _ _ run).2⟩

end TaskFlow
