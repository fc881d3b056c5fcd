import Mathlib.Tactic.IntervalCases
import TaskFlow.Manager.Monitor
import TaskFlow.Proofs.Registry.Samples

namespace TaskFlow.Monitor

open Registry

/-- A reading, and the calls of others before its result is noted. -/
structure Round where
  now : Instant
  reading : Reading
  calls : List Call := []

namespace Round

def tick (x : Round) : Tick := { now := x.now, reading := x.reading, change := (·.after x.calls) }

def sample? (x : Round) : Option MemorySample :=
  match x.reading with
  | .size bytes => some ⟨x.now, bytes⟩
  | _ => none

end Round

def beside (r : Registry) (rounds : List Round) : Registry := r.after (rounds.flatMap Round.calls)

/-- Whether the calls of others leave the samples of a task alone. -/
def Spared (id : String) (rounds : List Round) : Prop := ∀ x ∈ rounds, ∀ c ∈ x.calls, c.Spares id

/-- A task that runs when the results of the first `k` rounds are noted, and does not in the later
ones. -/
def LeavesAt (r : Registry) (id : String) (rounds : List Round) (k : Nat) : Prop :=
  ∀ i < rounds.length, (beside r (rounds.take (i + 1))).isRunning id = decide (i < k)

/-- A round that ends the monitor: the reading breaks down, or a size is read when the task no
longer runs. -/
def IsEnd (k i : Nat) (x : Round) : Prop :=
  x.reading = .breakdown ∨ k ≤ i ∧ ∃ bytes, x.reading = .size bytes

def FirstEnd (k : Nat) (rounds : List Round) (n : Nat) : Prop :=
  (∃ x, rounds[n]? = some x ∧ IsEnd k n x) ∧ ∀ i < n, ∀ x, rounds[i]? = some x → ¬IsEnd k i x

/-- The samples of the sizes that were read in the first `k` rounds, up to a breakdown. -/
def samplesBefore (k : Nat) (rounds : List Round) : List MemorySample :=
  ((rounds.take k).takeWhile fun x => x.reading ≠ .breakdown).filterMap Round.sample?

/-- After some rounds: others did what they do anyway, the samples were added, and the monitor ended
where it should. -/
structure Watched (r : Registry) (id : String) (k : Nat) (rounds : List Round) (o : Outcome) :
    Prop where
  registry : o.registry =
    (beside r (rounds.take o.calls)).addSamples id (samplesBefore k rounds)
  ended : ∀ n, FirstEnd k rounds n → o.stopped = true ∧ o.calls = n + 1
  goesOn : (∀ n, ¬FirstEnd k rounds n) → o.stopped = false ∧ o.calls = rounds.length

variable {r : Registry} {id : String} {k n i : Nat} {x : Round} {rounds : List Round} {o : Outcome}

@[simp] theorem beside_nil : beside r [] = r := rfl

@[simp] theorem beside_cons : beside r (x :: rounds) = beside (r.after x.calls) rounds := by
  simp [beside]

theorem Spared.take (h : Spared id rounds) (n : Nat) : Spared id (rounds.take n) :=
  fun x hx => h x (List.mem_of_mem_take hx)

theorem Spared.calls (h : Spared id rounds) : ∀ c ∈ rounds.flatMap Round.calls, c.Spares id := by
  intro c hc
  obtain ⟨x, hx, hc⟩ := List.mem_flatMap.mp hc
  exact h x hx c hc

theorem spared_cons :
    Spared id (x :: rounds) ↔ (∀ c ∈ x.calls, c.Spares id) ∧ Spared id rounds :=
  List.forall_mem_cons

theorem beside_addSamples {samples : List MemorySample} (spared : Spared id rounds) :
    beside (r.addSamples id samples) rounds = (beside r rounds).addSamples id samples :=
  after_addSamples spared.calls

theorem leavesAt_cons : LeavesAt r id (x :: rounds) k ↔
    (r.after x.calls).isRunning id = decide (0 < k) ∧
      LeavesAt (r.after x.calls) id rounds (k - 1) := by
  have shift (i : Nat) : i + 1 < k ↔ i < k - 1 := by omega
  constructor
  · intro h
    refine ⟨by simpa using h 0 (Nat.succ_pos _), fun i hi => ?_⟩
    simpa [shift] using h (i + 1) (Nat.succ_lt_succ hi)
  · rintro ⟨first, rest⟩ (_ | i) hi
    · simpa using first
    · simpa [shift] using rest i (Nat.lt_of_succ_lt_succ hi)

theorem isEnd_succ : IsEnd k (i + 1) x ↔ IsEnd (k - 1) i x := by
  rw [IsEnd, IsEnd, Nat.sub_le_iff_le_add]

theorem firstEnd_of_isEnd (h : IsEnd k 0 x) : FirstEnd k (x :: rounds) n ↔ n = 0 := by
  constructor
  · intro first
    by_contra later
    exact first.2 0 (Nat.pos_of_ne_zero later) x rfl h
  · rintro rfl
    exact ⟨⟨x, rfl, h⟩, fun i hi => absurd hi (Nat.not_lt_zero i)⟩

theorem firstEnd_cons (h : ¬IsEnd k 0 x) :
    FirstEnd k (x :: rounds) n ↔ ∃ m, n = m + 1 ∧ FirstEnd (k - 1) rounds m := by
  constructor
  · rintro ⟨⟨y, hy, ends⟩, before⟩
    obtain _ | m := n
    · cases hy
      exact absurd ends h
    · exact ⟨m, rfl, ⟨y, hy, isEnd_succ.mp ends⟩, fun i hi z hz =>
        mt isEnd_succ.mpr (before (i + 1) (Nat.succ_lt_succ hi) z hz)⟩
  · rintro ⟨m, rfl, ⟨y, hy, ends⟩, before⟩
    refine ⟨⟨y, hy, isEnd_succ.mpr ends⟩, ?_⟩
    rintro (_ | i) hi z hz
    · cases hz
      exact h
    · exact mt isEnd_succ.mp (before i (Nat.lt_of_succ_lt_succ hi) z hz)

theorem samplesBefore_of_isEnd (h : IsEnd k 0 x) : samplesBefore k (x :: rounds) = [] := by
  obtain _ | k := k
  · rfl
  · rcases h with breakdown | late
    · simp [samplesBefore, breakdown]
    · exact absurd late.1 (Nat.not_succ_le_zero k)

theorem samplesBefore_cons (h : ¬IsEnd k 0 x) :
    samplesBefore k (x :: rounds) = x.sample?.toList ++ samplesBefore (k - 1) rounds := by
  obtain ⟨sound, early⟩ := not_or.mp h
  obtain _ | k := k
  · have unread : x.sample? = none := by
      unfold Round.sample?
      split
      · next bytes read => exact absurd ⟨Nat.le_refl 0, bytes, read⟩ early
      · rfl
    simp [samplesBefore, unread]
  · have taken : (List.takeWhile (fun x => decide (x.reading ≠ .breakdown)) (x :: rounds.take k)) =
        x :: (rounds.take k).takeWhile fun x => x.reading ≠ .breakdown :=
      List.takeWhile_cons_of_pos (by simpa using sound)
    rw [samplesBefore, List.take_succ_cons, taken, List.filterMap_cons]
    cases x.sample? <;> rfl

theorem Watched.last (h : IsEnd k 0 x) :
    Watched r id k (x :: rounds) ⟨r.after x.calls, 1, true⟩ where
  registry := by simp [samplesBefore_of_isEnd h]
  ended n first := by
    obtain rfl := (firstEnd_of_isEnd h).mp first
    exact ⟨rfl, rfl⟩
  goesOn never := absurd ((firstEnd_of_isEnd h).mpr rfl) (never 0)

theorem Watched.next (h : ¬IsEnd k 0 x) (spared : Spared id rounds)
    (rest : Watched ((r.after x.calls).addSamples id x.sample?.toList) id (k - 1) rounds o) :
    Watched r id k (x :: rounds) o.after where
  registry := by
    simp only [Outcome.after, rest.registry, beside_addSamples (spared.take _),
      addSamples_addSamples, samplesBefore_cons h, List.take_succ_cons, beside_cons]
  ended n first := by
    obtain ⟨m, rfl, later⟩ := (firstEnd_cons h).mp first
    obtain ⟨stopped, calls⟩ := rest.ended m later
    exact ⟨stopped, congrArg Nat.succ calls⟩
  goesOn never := by
    obtain ⟨stopped, calls⟩ := rest.goesOn fun m first =>
      never (m + 1) ((firstEnd_cons h).mpr ⟨m, rfl, first⟩)
    exact ⟨stopped, congrArg Nat.succ calls⟩

theorem watched_watch (spared : Spared id rounds) (leaves : LeavesAt r id rounds k) :
    Watched r id k rounds (watch id r (rounds.map Round.tick)) := by
  induction rounds generalizing r k with
  | nil =>
    refine ⟨?_, ?_, fun _ => ⟨rfl, rfl⟩⟩
    · simp [watch, samplesBefore]
    · rintro n ⟨⟨x, hx, -⟩, -⟩
      cases hx
  | cons x rounds ih =>
    obtain ⟨running, later⟩ := leavesAt_cons.mp leaves
    obtain ⟨-, spared⟩ := spared_cons.mp spared
    -- whatever is noted now, the task leaves its state when others make it
    have rest (samples : List MemorySample) :
        Watched ((r.after x.calls).addSamples id samples) id (k - 1) rounds
          (watch id ((r.after x.calls).addSamples id samples) (rounds.map Round.tick)) := by
      refine ih spared fun i hi => ?_
      rw [beside_addSamples (spared.take _), isRunning_addSamples]
      exact later i hi
    rw [List.map_cons, watch]
    cases read : x.reading with
    | breakdown =>
      simp only [Round.tick, read]
      exact .last (.inl read)
    | nothing =>
      have on : ¬IsEnd k 0 x := by simp [IsEnd, read]
      have unread : x.sample?.toList = [] := by simp [Round.sample?, read]
      have rest := rest x.sample?.toList
      simp only [Round.tick, read]
      rw [unread, addSamples_nil] at rest
      exact .next on spared (by rwa [unread, addSamples_nil])
    | size bytes =>
      simp only [Round.tick, read, recordMemory, running]
      by_cases early : 0 < k
      · have on : ¬IsEnd k 0 x := by simp [IsEnd, read, Nat.pos_iff_ne_zero.mp early]
        have sample : x.sample?.toList = [⟨x.now, bytes⟩] := by simp [Round.sample?, read]
        rw [if_pos (decide_eq_true early)]
        exact .next on spared (sample ▸ rest _)
      · rw [if_neg (by simpa using early)]
        exact .last (.inr ⟨Nat.le_of_not_gt early, bytes, read⟩)

theorem inserts_of_spares {c : Call} (h : c.Spares id) : c.inserts id = false := by
  cases c with
  | insert info withSlot => exact beq_false_of_ne h
  | _ => rfl

theorem running_of_develops {t u : TaskRecord} (d : Develops t u) (h : t.info.status = .running) :
    u.info.status = .running ∨ u.info.status.isTerminal = true := by
  cases d with
  | same => exact .inl h
  | run now queued => cases h.symm.trans queued
  | progress fraction message _ => exact .inl h
  | memory sample _ => exact .inl h
  | _ => exact .inr rfl

theorem running_or_inactive_apply {c : Call} (spares : c.Spares id)
    (h : r.isRunning id = true ∨ r.Inactive id) :
    (c.apply r).1.isRunning id = true ∨ (c.apply r).1.Inactive id := by
  have once := inserts_of_spares spares
  rcases h with running | inactive
  · cases hu : (c.apply r).1.tasks.get? id with
    | none => exact .inr (inactive_of_none hu)
    | some u =>
      obtain ⟨t, ht, develops⟩ := develops_apply once hu
      rcases running_of_develops develops ((isRunning_of_some ht).mp running) with still | ended
      · exact .inl ((isRunning_of_some hu).mpr still)
      · exact .inr (inactive_of_some hu ended)
  · exact .inr (inactive_apply inactive once)

theorem running_or_inactive_after {calls : List Call} (spared : ∀ c ∈ calls, c.Spares id)
    (h : r.isRunning id = true ∨ r.Inactive id) :
    (r.after calls).isRunning id = true ∨ (r.after calls).Inactive id := by
  induction calls generalizing r with
  | nil => exact h
  | cons c calls ih =>
    simp only [List.forall_mem_cons] at spared
    exact ih spared.2 (running_or_inactive_apply spared.1 h)

theorem leavesAt_zero (spared : Spared id rounds) (h : r.Inactive id) :
    LeavesAt r id rounds 0 := by
  intro i _
  have once : ∀ c ∈ (rounds.take (i + 1)).flatMap Round.calls, c.inserts id = false :=
    fun c hc => inserts_of_spares ((spared.take _).calls c hc)
  refine isRunning_of_inactive ?_
  rcases get?_after_of_inactive h once with same | gone
  · exact fun t ht => h t (same ▸ ht)
  · exact inactive_of_none gone

/-- A task that runs in the beginning leaves that state once at most, and one that is not active is
never running. -/
theorem exists_leavesAt (spared : Spared id rounds)
    (h : r.isRunning id = true ∨ r.Inactive id) : ∃ k, LeavesAt r id rounds k := by
  induction rounds generalizing r with
  | nil => exact ⟨0, fun i hi => absurd hi (Nat.not_lt_zero i)⟩
  | cons x rounds ih =>
    obtain ⟨first, spared⟩ := spared_cons.mp spared
    rcases running_or_inactive_after first h with running | inactive
    · obtain ⟨k, later⟩ := ih spared (.inl running)
      exact ⟨k + 1, leavesAt_cons.mpr ⟨by simpa using running, later⟩⟩
    · refine ⟨0, leavesAt_cons.mpr ⟨?_, leavesAt_zero spared inactive⟩⟩
      simpa using isRunning_of_inactive inactive

theorem Watched.memory (h : Watched r id k rounds o) (spared : Spared id rounds)
    (known : o.registry.tasks.has id = true) :
    o.registry.memory id = r.memory id ++ samplesBefore k rounds := by
  obtain ⟨u, hu⟩ := Store.has_iff.mp known
  have added := hu
  rw [h.registry, addSamples, update, Store.get?_modify, if_pos rfl,
    Option.map_eq_some_iff] at added
  obtain ⟨v, hv, rfl⟩ := added
  obtain ⟨t, ht, same⟩ := memory_after (spared.take _).calls hv
  simp [Registry.memory, hu, ht, withSamples, same]

/-- The samples are the sizes read while the task ran, up to a breakdown, whatever others do in
between; the monitor then ends and changes nothing else. -/
theorem notes_sizes_read_while_running (spared : Spared id rounds) :
    (r.isRunning id = true ∨ r.Inactive id → ∃ k, LeavesAt r id rounds k) ∧
    ∀ k, LeavesAt r id rounds k →
      let o := watch id r (rounds.map Round.tick)
      (∀ n, FirstEnd k rounds n → o.stopped = true ∧ o.calls = n + 1) ∧
      ((∀ n, ¬FirstEnd k rounds n) → o.stopped = false ∧ o.calls = rounds.length) ∧
      o.registry = (beside r (rounds.take o.calls)).addSamples id (samplesBefore k rounds) ∧
      (∀ key, o.registry.get? key = (beside r (rounds.take o.calls)).get? key) ∧
      (o.registry.tasks.has id = true →
        o.registry.memory id = r.memory id ++ samplesBefore k rounds) := by
  refine ⟨exists_leavesAt spared, ?_⟩
  intro k leaves o
  have watched : Watched r id k rounds o := watched_watch spared leaves
  refine ⟨watched.ended, watched.goesOn, watched.registry, fun key => ?_, watched.memory spared⟩
  rw [watched.registry, get?_addSamples]

def started : Registry :=
  ({ free := 1 } : Registry).after
    [.insert (.queued "a" .execute default) true, .markRunning "a" default]

/-- Two sizes are read with a gap between them while the task runs; then it is canceled, a reading
yields nothing, and two more sizes could be read. -/
def overtaken : List Round :=
  [⟨⟨1, 0⟩, .size 10, []⟩, ⟨⟨2, 0⟩, .nothing, [.setProgress "a" .nan none]⟩,
    ⟨⟨3, 0⟩, .size 20, [.insert (.queued "b" .execute default) false]⟩,
    ⟨⟨4, 0⟩, .nothing, [.cancel "a" ⟨4, 0⟩]⟩, ⟨⟨5, 0⟩, .size 30, []⟩, ⟨⟨6, 0⟩, .size 40, []⟩]

/-- The monitor ends with the first size after the cancellation, and the task stays canceled. -/
theorem overtaken_ends : Spared "a" overtaken ∧ LeavesAt started "a" overtaken 3 ∧
    FirstEnd 3 overtaken 4 ∧
    let o := watch "a" started (overtaken.map Round.tick)
    o.stopped = true ∧ o.calls = 5 ∧
      o.registry.memory "a" = [⟨⟨1, 0⟩, 10⟩, ⟨⟨3, 0⟩, 20⟩] ∧
      (o.registry.get? "a").map (·.status) = some .canceled := by
  have spared : Spared "a" overtaken := by simp [Spared, overtaken, Call.Spares, TaskInfo.queued]
  have leaves : LeavesAt started "a" overtaken 3 := by
    unfold LeavesAt
    decide
  have first : FirstEnd 3 overtaken 4 := by
    refine ⟨⟨_, rfl, .inr ⟨by decide, 30, rfl⟩⟩, fun i hi x hx => ?_⟩
    interval_cases i <;> cases hx <;> simp [IsEnd]
  obtain ⟨ended, -, -, infos, memory⟩ := (notes_sizes_read_while_running spared).2 3 leaves
  obtain ⟨stopped, calls⟩ := ended 4 first
  refine ⟨spared, leaves, first, stopped, calls, ?_, ?_⟩
  · exact memory rfl
  · rw [infos, calls]
    rfl

end TaskFlow.Monitor
