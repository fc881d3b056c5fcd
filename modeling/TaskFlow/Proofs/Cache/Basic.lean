import TaskFlow.Manager.Cache
import TaskFlow.Proofs.Store

namespace TaskFlow

/-- What tells of the table of a task: its rows and its bytes. -/
def CacheEntry.reference (id : String) (e : CacheEntry) : ResultRef := ⟨id, e.table.length, e.bytes⟩

def CacheEntry.Alike (a b : CacheEntry) : Prop := a.table = b.table ∧ a.bytes = b.bytes

theorem CacheEntry.Alike.reference {a b : CacheEntry} (h : a.Alike b) (id : String) :
    a.reference id = b.reference id := by
  rw [CacheEntry.reference, h.1, h.2]
  rfl

namespace Cache

variable {c : Cache} {id key : String} {table : Table} {bytes : Nat} {e : CacheEntry}

@[simp] theorem get?_drop :
    (c.drop id).entries.get? key = if key = id then none else c.entries.get? key := by
  unfold drop
  split
  · next h =>
    by_cases hk : key = id
    · simp [hk, h]
    · simp [hk]
  · simp

@[simp] theorem has_drop : (c.drop id).entries.has key = (key != id && c.entries.has key) := by
  by_cases hk : key = id <;> simp [Store.has, hk]

theorem get?_of_enforceBudget {fuel : Nat}
    (h : (c.enforceBudget id fuel).entries.get? key = some e) : c.entries.get? key = some e := by
  induction fuel generalizing c with
  | zero => exact h
  | succ fuel ih =>
    rw [enforceBudget] at h
    split at h
    · split at h
      · have kept := ih h
        rw [get?_drop] at kept
        split at kept
        · cases kept
        · exact kept
      · exact h
    · exact h

theorem put_snd : (c.put id table bytes).2 =
    if c.entries.has id = true then .error (.alreadyStored id)
    else .ok ⟨id, table.length, bytes⟩ := by
  unfold put
  split <;> rfl

theorem get?_of_put (h : (c.put id table bytes).1.entries.get? key = some e) (hk : key ≠ id) :
    c.entries.get? key = some e := by
  unfold put at h
  split at h
  · exact h
  · simpa [hk] using get?_of_enforceBudget h

theorem alike_of_put (h : (c.put id table bytes).1.entries.get? id = some e)
    (absent : c.entries.has id = false) : e.table = table ∧ e.bytes = bytes := by
  rw [put, if_neg (by simp [absent])] at h
  have stored := get?_of_enforceBudget h
  rw [Store.get?_insert, if_pos rfl] at stored
  cases stored
  exact ⟨rfl, rfl⟩

theorem reference_of_put (h : (c.put id table bytes).1.entries.get? id = some e)
    (absent : c.entries.has id = false) : e.reference id = ⟨id, table.length, bytes⟩ := by
  obtain ⟨rfl, rfl⟩ := alike_of_put h absent
  rfl

theorem alike_of_get (h : (c.get id).1.entries.get? key = some e) :
    ∃ before, c.entries.get? key = some before ∧ before.Alike e := by
  unfold get at h
  split at h
  · exact ⟨e, h, rfl, rfl⟩
  · simp only [Store.get?_modify] at h
    split at h
    · obtain ⟨before, found, rfl⟩ := Option.map_eq_some_iff.mp h
      exact ⟨before, found, rfl, rfl⟩
    · exact ⟨e, h, rfl, rfl⟩

theorem found_of_get (h : (c.get id).2 = .ok table) :
    ∃ e, c.entries.get? id = some e ∧ e.table = table := by
  unfold get at h
  split at h
  · cases h
  · next e found =>
    cases h
    exact ⟨e, found, rfl⟩

theorem absent_of_get {error : CacheError} (h : (c.get id).2 = .error error) :
    c.entries.get? id = none := by
  unfold get at h
  split at h
  · next absent => exact absent
  · cases h

theorem get?_of_acknowledge (h : (c.acknowledge id).1.entries.get? key = some e) :
    c.entries.get? key = some e := by
  unfold acknowledge at h
  split at h
  · exact h
  · split at h
    · rw [get?_drop] at h
      split at h
      · cases h
      · exact h
    · exact h

end Cache

end TaskFlow
