import Mathlib.Data.List.Nodup
import TaskFlow.Proofs.Registry.Calls

namespace TaskFlow.Registry

/-- What can be done to a registry: a call, or a transition into any state with any change along
with it. -/
inductive Operation
  | call (c : Call)
  | transition (id : String) (next : Status) (now : Instant) (change : TaskInfo → TaskInfo)

def finishes (r : Registry) (id : String) (next : Status) (now : Instant)
    (change : TaskInfo → TaskInfo) : Bool :=
  (next == .completed || next == .failed) && (r.transition id next now change).2.isOk

namespace Operation

def apply : Operation → Registry → Registry
  | .call c, r => (c.apply r).1
  | .transition id next now change, r => (r.transition id next now change).1

def taken (r : Registry) : Operation → List String
  | .call (.insert info true) => if 0 < r.free then [info.id] else []
  | _ => []

/-- Whether a task that holds a slot gives it back in an operation. -/
def givesBack (r : Registry) (id : String) : Operation → Bool
  | .call (.insert info true) => info.id == id && 0 < r.free
  | .call (.complete key result now) => key == id && (r.complete key result now).2.isOk
  | .call (.fail key failure now) => key == id && (r.fail key failure now).2.isOk
  | .call (.releaseSlot key) => key == id
  | .transition key next now change => key == id && r.finishes key next now change
  | _ => false

end Operation

def afterAll (r : Registry) (ops : List Operation) : Registry :=
  ops.foldl (fun r op => op.apply r) r

/-- Whether a task that holds a slot gives it back in one of some operations. -/
def givesBackAmong (id : String) : Registry → List Operation → Bool
  | _, [] => false
  | r, op :: ops => op.givesBack r id || givesBackAmong id (op.apply r) ops

/-- Slots change hands: some tasks take free ones, and some of those that held one give it back. -/
structure Exchanges (taken : List String) (givesBack : String → Bool) (r r' : Registry) : Prop where
  free : r'.free + taken.length = r.free + (r.slots.filter givesBack).length
  slots : r'.slots = taken ++ r.slots.filter fun id => !givesBack id

structure SameSlots (r r' : Registry) : Prop where
  free : r'.free = r.free
  slots : r'.slots = r.slots

variable {r r' : Registry} {id : String} {now : Instant} {next : Status} {op : Operation}
  {change : TaskInfo → TaskInfo} {taken : List String} {givesBack : String → Bool} {n : Nat}

theorem SameSlots.exchanges (h : SameSlots r r') : Exchanges [] (fun _ => false) r r' := by
  constructor
  · simp [h.free]
  · simp [h.slots]

theorem exchanges_dropSlot (nodup : r.slots.Nodup) (id : String) :
    Exchanges [] (id == ·) r (r.dropSlot id) := by
  have kept : (r.dropSlot id).slots = r.slots.filter fun key => !(id == key) := by
    rw [slots_dropSlot, nodup.erase_eq_filter]
    exact List.filter_congr fun key _ => by simp [bne, eq_comm]
  have size : (r.dropSlot id).free + (r.dropSlot id).slots.length = r.free + r.slots.length :=
    size_dropSlot
  have split := List.length_eq_length_filter_add (l := r.slots) (id == ·)
  rw [kept] at size
  refine ⟨?_, kept⟩
  simp only [List.length_nil]
  omega

theorem Exchanges.total (h : Exchanges taken givesBack r r') :
    r'.free + r'.slots.length = r.free + r.slots.length := by
  have slots : r'.slots.length =
      taken.length + (r.slots.filter fun id => !givesBack id).length := by
    rw [h.slots, List.length_append]
  have split := List.length_eq_length_filter_add (l := r.slots) givesBack
  have free := h.free
  omega

theorem Exchanges.keeps (h : Exchanges taken givesBack r r') (held : id ∈ r.slots)
    (keeps : givesBack id = false) : id ∈ r'.slots := by
  rw [h.slots]
  exact List.mem_append_right _ (List.mem_filter.mpr ⟨held, by simp [keeps]⟩)

theorem sameSlots_transition (h : next ≠ .completed ∧ next ≠ .failed) :
    SameSlots r (r.transition id next now change).1 := by
  have slots : (r.transition id next now change).1.slots = r.slots :=
    slots_transition_of_ne h.1 h.2
  have size : (r.transition id next now change).1.free +
      (r.transition id next now change).1.slots.length = r.free + r.slots.length := size_transition
  rw [slots] at size
  exact ⟨by omega, slots⟩

theorem sameSlots_cancel : SameSlots r (r.cancel id now).1 := by
  rw [cancel_fst]
  exact sameSlots_transition (by simp)

theorem sameSlots_removeAll (ids : List String) : SameSlots r (r.removeAll ids).1 := by
  induction ids generalizing r with
  | nil => exact ⟨rfl, rfl⟩
  | cons id ids ih =>
    have rest : SameSlots (r.remove id).1 ((r.remove id).1.removeAll ids).1 := ih
    exact ⟨rest.free, rest.slots⟩

theorem exchanges_transition (nodup : r.slots.Nodup) (id : String) (next : Status) (now : Instant)
    (change : TaskInfo → TaskInfo) :
    Exchanges [] (fun key => id == key && r.finishes id next now change) r
      (r.transition id next now change).1 := by
  have same_of_not (same : SameSlots r (r.transition id next now change).1)
      (no : r.finishes id next now change = false) :
      Exchanges [] (fun key => id == key && r.finishes id next now change) r
        (r.transition id next now change).1 := by
    simpa only [no, Bool.and_false] using same.exchanges
  have refused (e : TransitionError) (h : r.transition id next now change = (r, .error e)) :
      Exchanges [] (fun key => id == key && r.finishes id next now change) r
        (r.transition id next now change).1 := by
    have no : r.finishes id next now change = false := by
      simp [finishes, h, Except.isOk, Except.toBool]
    refine same_of_not ?_ no
    rw [h]
    exact ⟨rfl, rfl⟩
  cases h : r.tasks.get? id with
  | none => exact refused _ (transition_of_absent h)
  | some t =>
    cases legal : t.info.status.canBecome next with
    | false => exact refused _ (transition_of_illegal h legal)
    | true =>
      by_cases ends : next = .completed ∨ next = .failed
      · have gives : r.finishes id next now change = true := by
          rcases ends with rfl | rfl <;>
            simp [finishes, transition_of_legal h legal, Except.isOk, Except.toBool]
        simp only [gives, Bool.and_true]
        rw [transition_of_legal h legal, if_pos ends]
        have drops := exchanges_dropSlot (r := r.update id (moved next now change)) nodup id
        exact ⟨drops.free, drops.slots⟩
      · refine same_of_not (sameSlots_transition (not_or.mp ends)) ?_
        rw [not_or] at ends
        simp [finishes, ends]

/-- An insertion with a slot takes a free one, and the task gives back one that it held before. -/
theorem exchanges_insert (nodup : r.slots.Nodup) (info : TaskInfo) :
    Exchanges (if 0 < r.free then [info.id] else []) (fun id => info.id == id && 0 < r.free) r
      ((Call.insert info true).apply r).1 := by
  by_cases free : 0 < r.free
  · have acquired : r.acquire? = some { r with free := r.free - 1 } :=
      acquire?_eq_some.mpr ⟨free, rfl⟩
    have drops := exchanges_dropSlot (r := { r with free := r.free - 1 }) nodup info.id
    have less : (dropSlot { r with free := r.free - 1 } info.id).free =
        r.free - 1 + (r.slots.filter (info.id == ·)).length := drops.free
    have kept : (dropSlot { r with free := r.free - 1 } info.id).slots =
        r.slots.filter fun key => !(info.id == key) := drops.slots
    simp only [free, if_true, decide_true, Bool.and_true, Call.apply, acquired]
    constructor
    · simp only [insert, if_true, less, List.length_singleton]
      omega
    · simp only [insert, if_true, kept, List.singleton_append]
  · have none : r.acquire? = .none := by
      simp only [acquire?, Nat.eq_zero_of_not_pos free, if_true]
    have same : SameSlots r r := ⟨rfl, rfl⟩
    simpa only [free, if_false, decide_false, Bool.and_false, Call.apply, none] using
      same.exchanges

theorem exchanges_apply (nodup : r.slots.Nodup) (op : Operation) :
    Exchanges (op.taken r) (op.givesBack r) r (op.apply r) := by
  cases op with
  | transition id next now change => exact exchanges_transition nodup id next now change
  | call c =>
    cases c with
    | insert info withSlot =>
      cases withSlot with
      | true => exact exchanges_insert nodup info
      | false => exact SameSlots.exchanges ⟨rfl, rfl⟩
    | markRunning id now => exact (sameSlots_transition (by simp)).exchanges
    | complete id result now => exact exchanges_transition nodup id .completed now _
    | fail id failure now => exact exchanges_transition nodup id .failed now _
    | cancel id now => exact sameSlots_cancel.exchanges
    | setProgress id fraction message =>
      exact SameSlots.exchanges ⟨free_setProgress, slots_setProgress⟩
    | recordMemory id sample => exact SameSlots.exchanges ⟨free_recordMemory, slots_recordMemory⟩
    | releaseSlot id => exact exchanges_dropSlot nodup id
    | remove id => exact SameSlots.exchanges ⟨rfl, rfl⟩
    | sweep now ttl => exact (sameSlots_removeAll _).exchanges

theorem Operation.givesBack_of_mem_taken (h : id ∈ op.taken r) : op.givesBack r id = true := by
  unfold taken at h
  split at h
  · split at h
    · next free =>
      rw [List.mem_singleton.mp h]
      simpa [givesBack] using free
    · cases h
  · cases h

theorem Operation.nodup_taken : (op.taken r).Nodup := by
  unfold taken
  split
  · split <;> simp
  · exact .nil

theorem nodup_slots_apply (nodup : r.slots.Nodup) : (op.apply r).slots.Nodup := by
  rw [(exchanges_apply nodup op).slots]
  refine List.Nodup.append Operation.nodup_taken (nodup.filter _) fun id new old => ?_
  have kept : op.givesBack r id = false := by simpa using (List.mem_filter.mp old).2
  exact absurd (Operation.givesBack_of_mem_taken new) (by simp [kept])

theorem afterAll_cons {ops : List Operation} : r.afterAll (op :: ops) = (op.apply r).afterAll ops :=
  rfl

theorem nodup_slots_afterAll {ops : List Operation} (nodup : r.slots.Nodup) :
    (r.afterAll ops).slots.Nodup := by
  induction ops generalizing r with
  | nil => exact nodup
  | cons op ops ih => exact ih (nodup_slots_apply nodup)

theorem size_afterAll {ops : List Operation} (nodup : r.slots.Nodup) :
    (r.afterAll ops).free + (r.afterAll ops).slots.length = r.free + r.slots.length := by
  induction ops generalizing r with
  | nil => rfl
  | cons op ops ih =>
    rw [afterAll_cons, ih (nodup_slots_apply nodup)]
    exact (exchanges_apply nodup op).total

theorem givesBackAmong_of_lost {ops : List Operation} (nodup : r.slots.Nodup) (held : id ∈ r.slots)
    (lost : id ∉ (r.afterAll ops).slots) : givesBackAmong id r ops = true := by
  induction ops generalizing r with
  | nil => exact absurd held lost
  | cons op ops ih =>
    rw [givesBackAmong, Bool.or_eq_true]
    cases gives : op.givesBack r id with
    | true => exact .inl rfl
    | false =>
      right
      exact ih (nodup_slots_apply nodup) ((exchanges_apply nodup op).keeps held gives) lost

/-- Free slots and held ones make up what there was in the beginning, and each operation gives back
exactly the slots that it should. -/
theorem slots_conserved (n : Nat) (ops : List Operation) :
    let r := ({ free := n } : Registry).afterAll ops
    r.free + r.slots.length = n ∧ r.slots.Nodup ∧
    (∀ op : Operation, Exchanges (op.taken r) (op.givesBack r) r (op.apply r)) ∧
    (∀ id now ttl, SameSlots r (r.cancel id now).1 ∧ SameSlots r (r.remove id).1 ∧
      SameSlots r (r.sweep now ttl).1) ∧
    (∀ id, (r.releaseSlot id).2 = true ↔ id ∈ r.slots) ∧
    ∀ id later, id ∈ r.slots → id ∉ (r.afterAll later).slots →
      givesBackAmong id r later = true := by
  intro r
  have none : ({ free := n } : Registry).slots.Nodup := .nil
  have nodup : r.slots.Nodup := nodup_slots_afterAll none
  refine ⟨size_afterAll none, nodup, exchanges_apply nodup, fun id now ttl => ?_, fun id => ?_,
    fun id later => givesBackAmong_of_lost nodup⟩
  · exact ⟨sameSlots_cancel, ⟨rfl, rfl⟩, sameSlots_removeAll _⟩
  · exact List.contains_iff_mem

def outlived : List Operation :=
  [.call (.insert (.queued "a" .execute default) true), .call (.markRunning "a" default),
    .call (.cancel "a" default), .call (.remove "a")]

/-- The slot is held although the task is gone, until it is released. -/
theorem outlived_holds : (({ free := 1 } : Registry).afterAll outlived).tasks.has "a" = false ∧
    "a" ∈ (({ free := 1 } : Registry).afterAll outlived).slots ∧
    givesBackAmong "a" (({ free := 1 } : Registry).afterAll outlived)
      [.call (.releaseSlot "a")] = true := by
  obtain ⟨-, -, -, -, -, gone⟩ := slots_conserved 1 outlived
  have held : "a" ∈ (({ free := 1 } : Registry).afterAll outlived).slots := by decide
  exact ⟨rfl, held, gone "a" [.call (.releaseSlot "a")] held (by decide)⟩

end TaskFlow.Registry
