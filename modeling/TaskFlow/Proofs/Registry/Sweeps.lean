import TaskFlow.Proofs.Registry.Reachable

namespace TaskFlow

namespace Instant

def InLeapSecond (t : Instant) : Prop := perSecond ≤ t.nanos

instance (t : Instant) : Decidable t.InLeapSecond := inferInstanceAs (Decidable (_ ≤ _))

variable {a b c : Instant}

theorem since_eq (ha : ¬a.InLeapSecond) (hc : ¬c.InLeapSecond) :
    a.since c = (a.seconds - c.seconds) * perSecond + a.nanos - c.nanos := by
  unfold InLeapSecond at ha hc
  rw [since, if_neg fun h => hc h.2, if_neg fun h => ha h.2, Int.add_zero]

theorem since_mono (h : a.le b = true) (ha : ¬a.InLeapSecond) (hb : ¬b.InLeapSecond)
    (hc : ¬c.InLeapSecond) : a.since c ≤ b.since c := by
  rw [since_eq ha hc, since_eq hb hc]
  unfold InLeapSecond perSecond at *
  simp only [le, Bool.or_eq_true, Bool.and_eq_true, decide_eq_true_eq] at h
  omega

end Instant

namespace Registry

/-- A task that has ended, and did so more than `ttl` nanoseconds ago. -/
def Expired (now : Instant) (ttl : Int) (t : TaskInfo) : Prop :=
  t.status.isTerminal = true ∧ ∃ ended, t.endedAt = some ended ∧ ttl < now.since ended

variable {r : Registry} {ids : List String} {now next : Instant} {ttl : Int} {t : TaskInfo}

theorem isExpired_iff : isExpired now ttl t = true ↔ Expired now ttl t := by
  rw [isExpired, Expired, Bool.and_eq_true]
  cases t.endedAt <;> simp

instance (now : Instant) (ttl : Int) (t : TaskInfo) : Decidable (Expired now ttl t) :=
  decidable_of_iff _ isExpired_iff

theorem removeAll_snd (nodup : ids.Nodup) (known : ∀ id ∈ ids, r.tasks.has id = true) :
    (r.removeAll ids).2 = ids.length := by
  induction ids generalizing r with
  | nil => rfl
  | cons id ids ih =>
    obtain ⟨fresh, nodup⟩ := List.nodup_cons.mp nodup
    have there : (r.remove id).2.isSome = true := by
      rw [remove, get?_eq, Option.isSome_map]
      exact known id List.mem_cons_self
    have rest : ((r.remove id).1.removeAll ids).2 = ids.length := by
      refine ih nodup fun key hk => ?_
      have other : key ≠ id := fun same => fresh (same ▸ hk)
      rw [remove, Store.has_erase, known key (List.mem_cons_of_mem _ hk)]
      simpa using other
    simp only [removeAll, there, rest, if_true, List.length_cons]

theorem expired_eq (sound : r.Sound) :
    r.expired now ttl = Store.ids (r.tasks.filter fun e => Expired now ttl e.2.info) := by
  rw [expired, Store.values, List.filter_map, List.map_map, Store.ids]
  have same : (r.tasks.filter fun e => isExpired now ttl e.2.info) =
      r.tasks.filter fun e => Expired now ttl e.2.info :=
    List.filter_congr fun e _ => Bool.eq_iff_iff.mpr (by simp [isExpired_iff])
  rw [← same]
  exact List.map_congr_left fun e he => sound.keyed e (List.mem_of_mem_filter he)

theorem mem_expired (sound : r.Sound) {e : String × TaskRecord} (he : e ∈ r.tasks) :
    e.1 ∈ r.expired now ttl ↔ Expired now ttl e.2.info := by
  rw [expired_eq sound, Store.ids, List.mem_map]
  constructor
  · rintro ⟨x, hx, same⟩
    obtain ⟨hx, expired⟩ := List.mem_filter.mp hx
    -- an identifier has one record, so the one that was found is this one
    have found : r.tasks.get? e.1 = some x.2 := Store.get?_of_mem sound.nodup (same ▸ hx)
    rw [Store.get?_of_mem sound.nodup (a := e.2) he, Option.some.injEq] at found
    rw [found]
    exact of_decide_eq_true expired
  · exact fun expired => ⟨e, List.mem_filter.mpr ⟨he, decide_eq_true expired⟩, rfl⟩

theorem sweep_fst (sound : r.Sound) (now : Instant) (ttl : Int) : (r.sweep now ttl).1 =
    { r with tasks := r.tasks.filter fun e => ¬Expired now ttl e.2.info } := by
  rw [sweep, removeAll_fst]
  congr 1
  refine List.filter_congr fun e he => Bool.eq_iff_iff.mpr ?_
  simp [mem_expired sound he]

theorem sweep_snd (sound : r.Sound) (now : Instant) (ttl : Int) : (r.sweep now ttl).2 =
    r.tasks.countP fun e => Expired now ttl e.2.info := by
  have ids : r.expired now ttl = Store.ids (r.tasks.filter fun e => Expired now ttl e.2.info) :=
    expired_eq sound
  rw [sweep, removeAll_snd, ids, Store.ids, List.length_map, List.countP_eq_length_filter]
  · exact ids ▸ sound.nodup.sublist (List.filter_sublist.map _)
  · intro id hid
    rw [ids] at hid
    obtain ⟨e, he, rfl⟩ := List.mem_map.mp hid
    exact Store.has_iff.mpr ⟨e.2, Store.get?_of_mem sound.nodup (List.mem_of_mem_filter he)⟩

theorem sound_sweep (sound : r.Sound) : (r.sweep now ttl).1.Sound := by
  rw [sweep_fst sound]
  exact Reshapes.sound (.filter _) sound

theorem sweep_sweep (sound : r.Sound) : ((r.sweep now ttl).1.sweep next ttl).1 =
    { r with tasks := r.tasks.filter fun e =>
        ¬Expired next ttl e.2.info ∧ ¬Expired now ttl e.2.info } := by
  rw [sweep_fst (sound_sweep sound), sweep_fst sound]
  simp only [List.filter_filter, Bool.decide_and]

theorem Expired.later (h : Expired now ttl t) (le : now.le next = true)
    (hn : ¬now.InLeapSecond) (hl : ¬next.InLeapSecond)
    (ends : ∀ ended, t.endedAt = some ended → ¬ended.InLeapSecond) : Expired next ttl t := by
  obtain ⟨terminal, ended, at_, old⟩ := h
  have mono := Instant.since_mono le hn hl (ends ended at_)
  exact ⟨terminal, ended, at_, Int.lt_of_lt_of_le old mono⟩

/-- A sweep removes exactly the expired records, and an earlier sweep makes no difference to a later
one unless a leap second comes between. -/
theorem sweep_removes_expired (h : r.Reachable) (now : Instant) (ttl : Int) :
    r.sweep now ttl =
      ({ r with tasks := r.tasks.filter fun e => ¬Expired now ttl e.2.info },
        r.tasks.countP fun e => Expired now ttl e.2.info) ∧
    (r.sweep now ttl).1.sweep now ttl = ((r.sweep now ttl).1, 0) ∧
    ∀ next, now.le next = true → ¬now.InLeapSecond → ¬next.InLeapSecond →
      (∀ e ∈ r.tasks, e.2.info.status.isTerminal = true →
        ∀ ended, e.2.info.endedAt = some ended → ¬ended.InLeapSecond) →
      ((r.sweep now ttl).1.sweep next ttl).1 = (r.sweep next ttl).1 := by
  have sound := h.sound
  refine ⟨Prod.ext (sweep_fst sound now ttl) (sweep_snd sound now ttl), Prod.ext ?_ ?_, ?_⟩
  · rw [sweep_sweep sound, sweep_fst sound]
    simp only [and_self]
  · rw [sweep_snd (sound_sweep sound), sweep_fst sound, List.countP_filter, List.countP_eq_zero]
    simp
  · intro next le hn hl ends
    rw [sweep_sweep sound, sweep_fst sound]
    congr 1
    refine List.filter_congr fun e he => decide_eq_decide.mpr ?_
    -- who has expired stays expired as long as instants compare as their nanoseconds do
    have older : Expired now ttl e.2.info → Expired next ttl e.2.info := fun old =>
      Expired.later old le hn hl (ends e he old.1)
    exact ⟨And.left, fun young => ⟨young, fun old => young (older old)⟩⟩

/-- An expired task, one that ended just as long ago as is allowed, one that will end in the future,
and a running one. -/
def variety : Registry :=
  ({ free := 2 } : Registry).after [
    .insert (.queued "old" .execute default) true, .cancel "old" ⟨40, 0⟩,
    .insert (.queued "due" .execute default) false, .cancel "due" ⟨60, 0⟩,
    .insert (.queued "early" .execute default) false, .cancel "early" ⟨300, 0⟩,
    .insert (.queued "busy" .execute default) true, .markRunning "busy" default,
    .recordMemory "busy" ⟨⟨50, 0⟩, 7⟩]

theorem reachable_variety : variety.Reachable := (Reachable.new 2).after _

/-- One task has expired; another one has when the next sweep comes. -/
theorem variety_swept :
    (∀ e ∈ variety.tasks, e.2.info.status.isTerminal = true →
      ∀ ended, e.2.info.endedAt = some ended → ¬ended.InLeapSecond) ∧
    (variety.sweep ⟨120, 0⟩ 60000000000).2 = 1 ∧
    (variety.sweep ⟨120, 0⟩ 60000000000).1.slots = ["busy", "old"] ∧
    (variety.sweep ⟨120, 0⟩ 60000000000).1.memory "busy" = [⟨⟨50, 0⟩, 7⟩] ∧
    (variety.sweep ⟨120, 0⟩ 60000000000).1.sweep ⟨120, 0⟩ 60000000000 =
      ((variety.sweep ⟨120, 0⟩ 60000000000).1, 0) ∧
    ((variety.sweep ⟨120, 0⟩ 60000000000).1.sweep ⟨121, 0⟩ 60000000000).1 =
      (variety.sweep ⟨121, 0⟩ 60000000000).1 := by
  obtain ⟨swept, again, later⟩ :=
    sweep_removes_expired reachable_variety ⟨120, 0⟩ 60000000000
  have ends : ∀ e ∈ variety.tasks, e.2.info.status.isTerminal = true →
      ∀ ended, e.2.info.endedAt = some ended → ¬ended.InLeapSecond := by
    decide
  exact ⟨ends, by rw [swept]; decide, by rw [swept]; rfl, by rw [swept]; decide, again,
    later ⟨121, 0⟩ (by decide) (by decide) (by decide) ends⟩

def canceledAt (ended : Instant) : Registry :=
  ({ free := 0 } : Registry).after
    [.insert (.queued "a" .execute default) false, .cancel "a" ended]

/-- The end of a task, the instants of two sweeps, and the age at which they remove it. -/
structure Sweeps where
  ended : Instant
  now : Instant
  next : Instant
  ttl : Int

/-- The first sweep removes the task and the second one alone keeps it, although it is not
earlier. -/
def Sweeps.Disagree (s : Sweeps) : Prop :=
  (canceledAt s.ended).Reachable ∧ s.now.le s.next = true ∧
    (((canceledAt s.ended).sweep s.now s.ttl).1.sweep s.next s.ttl).1.tasks.has "a" = false ∧
    ((canceledAt s.ended).sweep s.next s.ttl).1.tasks.has "a" = true

/-- A leap second makes the task younger, whether the first sweep lies in one, or the second one, or
the end of the task. -/
theorem younger_after_leap_second :
    Sweeps.Disagree ⟨⟨1483225200, 0⟩, ⟨1483228799, 1900000000⟩, ⟨1483228800, 0⟩, 3600500000000⟩ ∧
    Sweeps.Disagree ⟨⟨1483185600, 0⟩, ⟨1483271999, 900000000⟩, ⟨1483271999, 1000000000⟩,
      86399500000000⟩ ∧
    Sweeps.Disagree ⟨⟨1483185599, 1000000000⟩, ⟨1483228799, 900000000⟩, ⟨1483228800, 0⟩,
      43200500000000⟩ :=
  ⟨⟨(Reachable.new 0).after _, by decide⟩, ⟨(Reachable.new 0).after _, by decide⟩,
    ⟨(Reachable.new 0).after _, by decide⟩⟩

end Registry

end TaskFlow
