import TaskFlow.Proofs.Manager.Slots

namespace TaskFlow.Manager

variable {config : Config} {es : List Event} {s : System} {m : Manager} {g g' : Progress}
  {role : Role} {action : Action} {id : String} {t : Thread}

theorem Tracked.closed (h : Tracked config es s g) {q : Closing} (hq : g.shutdown = some q)
    (begun : q ≠ .closing) : s.manager.accepting = false := by
  induction h generalizing q with
  | start => cases hq
  | call role _ _ _ ih =>
    cases role with
    | shutdown =>
      cases hq
      exact absurd rfl begun
    | _ => exact ih hq begun
  | @act _ m _ _ role action _ g g' _ moves _ ih =>
    cases moves with
    | free => exact accepting_apply (ih hq begun)
    | submission => exact accepting_apply (ih hq begun)
    | supervision => exact accepting_apply (ih hq begun)
    | shutdown hc moves =>
      cases hq
      cases moves with
      | close => rfl
      | _ => exact accepting_apply (ih hc (by simp))
  | elapse _ _ ih => exact ih hq begun
  | write _ _ ih => exact ih hq begun

/-- Whether a submission will take its record back, or see that the manager shuts down. -/
def Submission.IsLate : Submission → Prop
  | .withdrawing _ | .launching | .registering | .rechecking | .settling => True
  | _ => False

/-- Whether a submission is at work on a record that the shutdown may have missed. -/
def Progress.Late (g : Progress) (id : String) : Prop :=
  ∃ q, g.submission id = some q ∧ q.IsLate

/-- Somebody will still end the task: the shutdown before it has listed the active tasks, then
whoever is on its list, or the submission. -/
def Progress.WillEnd (g : Progress) (id : String) : Prop :=
  match g.shutdown with
  | some (.canceling ids) => id ∈ ids ∨ g.Late id
  | some (.sending _) => g.Late id
  | _ => True

theorem Progress.Late.willEnd (h : g.Late id) : g.WillEnd id := by
  unfold WillEnd
  split
  · exact .inr h
  · exact h
  · trivial

theorem Progress.WillEnd.keep (h : g.WillEnd id) (hs : g'.shutdown = g.shutdown)
    (late : ∀ q, g.shutdown = some q → q ≠ .closing → g.Late id → g'.Late id) :
    g'.WillEnd id := by
  unfold WillEnd at h ⊢
  rw [hs]
  split
  · next ids hc =>
    rw [hc] at h
    exact h.imp_right (late _ hc (by simp))
  · next ids hc =>
    rw [hc] at h
    exact late _ hc (by simp) h
  · trivial

/-- A late submission comes to the end of its record, for it sees that nothing is accepted. -/
theorem Submission.Moves.isLate {q q' : Submission} {b : action.Answer}
    (hb : (action.apply m).2 = b) (moves : q.Moves id action b q')
    (closed : m.accepting = false) (late : q.IsLate)
    (active : ¬(action.apply m).1.registry.Inactive id) : q'.IsLate := by
  cases moves with
  | withdraw reason t => exact absurd Registry.inactive_remove active
  | settle r => exact absurd Registry.inactive_cancel active
  | goOn => cases closed.symm.trans hb
  | _ => first | exact late | trivial

theorem Progress.late_setSubmission {q : Submission} (h : q.IsLate) :
    (g.setSubmission id q).Late id := ⟨q, by simp, h⟩

theorem Progress.Late.of_submission {key : String} {q' : Submission} (h : g.Late id)
    (own : ∀ q, id = key → g.submission id = some q → q.IsLate → q'.IsLate) :
    (g.setSubmission key q').Late id := by
  obtain ⟨q, hq, late⟩ := h
  by_cases hk : id = key
  · exact ⟨q', by simp [hk], own q hk hq late⟩
  · exact ⟨q, by simp [hk, hq], late⟩

theorem Tracked.willEnd (h : Tracked config es s g) (active : ¬s.manager.registry.Inactive id) :
    g.WillEnd id := by
  induction h with
  | start => trivial
  | call role _ _ lacks ih =>
    have will := ih active
    cases role with
    | submission key =>
      refine will.keep rfl fun _ _ _ late => late.of_submission fun q hk hq _ => ?_
      rw [hk, show _ = none from lacks] at hq
      cases hq
    | supervision key c => exact will.keep rfl fun _ _ _ late => late
    | shutdown => trivial
    | _ => exact will
  | @act _ m _ _ role action _ g g' tracked moves _ ih =>
    -- a new record is active, and its submission will look after it; no other action makes a task
    -- active that was not
    by_cases hr : ∃ kind, action = .record id kind
    · obtain ⟨kind, rfl⟩ := hr
      cases moves with
      | free _ free => exact free.elim
      | submission _ moves =>
        refine Progress.Late.willEnd ?_
        cases moves with
        | recordInVain => exact Progress.late_setSubmission trivial
        | record => exact Progress.late_setSubmission trivial
      | supervision _ moves => cases moves
      | shutdown _ moves => cases moves
    have will := ih fun h => active (inactive_apply h (not_exists.mp hr))
    generalize hb : (action.apply m).2 = b at moves
    cases moves with
    | free => exact will
    | @submission key _ _ _ _ _ q q' hq moves =>
      refine will.keep rfl fun c hc begun late => late.of_submission fun q₀ hk hq₀ late => ?_
      subst hk
      cases hq.symm.trans hq₀
      exact moves.isLate hb (tracked.closed hc begun) late active
    | supervision => exact will.keep rfl fun _ _ _ late => late
    | shutdown hq moves =>
      simp only [Progress.WillEnd, hq] at will
      cases moves with
      | close => trivial
      | halt => trivial
      | list ids =>
        -- whoever is recorded later sees that nothing is accepted, so the list may miss them
        left
        rw [← hb]
        exact Registry.mem_activeIds tracked.keyed active
      | cancel key ids r =>
        rcases will with listed | late
        · rcases List.mem_cons.mp listed with rfl | listed
          · exact absurd Registry.inactive_cancel active
          · exact .inl listed
        · exact .inr late
      | drain pending => exact will.resolve_left (by simp)
      | send key ids b => exact will
  | elapse _ _ ih => exact ih active
  | write _ _ ih => exact ih active

/-- Whether a submission will check whether its task is still wanted. -/
def Submission.IsChecking : Submission → Prop
  | .rechecking | .settling | .inspecting false | .stopping => True
  | _ => False

/-- Who will ask a worker to stop: its own submission, or the shutdown. -/
inductive Pursued (supervisors : List String) (g : Progress) (id : String) : Prop
  | launched : g.submission id = some .registering → Pursued supervisors g id
  | supervised : (∀ ids, g.shutdown ≠ some (.sending ids)) → id ∈ supervisors →
    Pursued supervisors g id
  | listed (ids : List String) : g.shutdown = some (.sending ids) → id ∈ ids →
    Pursued supervisors g id
  | checking (q : Submission) (ids : List String) : g.shutdown = some (.sending ids) →
    id ∈ supervisors → g.submission id = some q → q.IsChecking → Pursued supervisors g id
  | sending : g.submission id = some .sending → Pursued supervisors g id

theorem Pursued.keep {before after : List String} (h : Pursued before g id)
    (hq : g'.submission id = g.submission id) (hs : g'.shutdown = g.shutdown)
    (sup : id ∈ before → id ∈ after) : Pursued after g' id := by
  cases h with
  | launched h => exact .launched (hq.trans h)
  | supervised quiet h => exact .supervised (by simpa only [hs] using quiet) (sup h)
  | listed ids hi h => exact .listed ids (hs.trans hi) h
  | checking q ids hi h hq' checking =>
    exact .checking q ids (hs.trans hi) (sup h) (hq.trans hq') checking
  | sending h => exact .sending (hq.trans h)

theorem Pursued.submission {q q' : Submission} {b : action.Answer} (hb : (action.apply m).2 = b)
    (hq : g.submission id = some q) (moves : q.Moves id action b q')
    (closed : ∀ ids, g.shutdown = some (.sending ids) → m.accepting = false)
    (unsent : ∀ mode, action ≠ .send id mode) (h : Pursued m.supervisors g id) :
    Pursued (action.apply m).1.supervisors (g.setSubmission id q') id := by
  have sup (h : id ∈ m.supervisors) : id ∈ (action.apply m).1.supervisors :=
    supervisor_apply h (by cases moves <;> simp) (by cases moves <;> simp)
  cases h with
  | launched h =>
    cases hq.symm.trans h
    cases moves with
    | register =>
      have registered : id ∈ ((Action.register id).apply m).1.supervisors := List.mem_cons_self
      -- registered after the supervisors were drained: the shutdown does not know this one
      by_cases late : ∃ ids, g.shutdown = some (.sending ids)
      · obtain ⟨ids, hi⟩ := late
        exact .checking .rechecking ids hi registered (by simp) trivial
      · exact .supervised (not_exists.mp late) registered
  | supervised quiet h => exact .supervised quiet (sup h)
  | listed ids hi h => exact .listed ids hi h
  | checking q₀ ids hi h hq₀ checking =>
    cases hq.symm.trans hq₀
    have next {q : Submission} (checking : q.IsChecking) :
        Pursued (action.apply m).1.supervisors (g.setSubmission id q) id :=
      .checking q ids hi (sup h) (by simp) checking
    cases moves with
    | goOn => cases (closed ids hi).symm.trans hb
    | giveUp => exact next trivial
    | settle r => exact next trivial
    | dismiss accepting t unwanted => exact next trivial
    | unsupervised =>
      have : m.supervisors.contains id = false := hb
      simp [h] at this
    | supervised => exact .sending (by simp)
    | _ => exact checking.elim
  | sending h =>
    cases hq.symm.trans h
    cases moves with
    | send b => exact absurd rfl (unsent _)

theorem Pursued.shutdown {q q' : Closing} {b : action.Answer} (hb : (action.apply m).2 = b)
    (hq : g.shutdown = some q) (moves : q.Moves action b q')
    (unsent : ∀ mode, action ≠ .send id mode) (h : Pursued m.supervisors g id) :
    Pursued (action.apply m).1.supervisors (g.setShutdown q') id := by
  cases h with
  | launched h => exact .launched h
  | supervised quiet h =>
    cases moves with
    | drain pending => exact .listed pending rfl (hb ▸ h)
    | send key ids b => exact absurd hq (quiet _)
    | _ => exact .supervised (by simp) h
  | listed ids hi h =>
    cases hq.symm.trans hi
    cases moves with
    | send key ids b =>
      rcases List.mem_cons.mp h with rfl | h
      · exact absurd rfl (unsent _)
      · exact .listed ids rfl h
  | checking q₀ ids hi h hq₀ checking =>
    cases hq.symm.trans hi
    cases moves with
    | send key ids b => exact .checking q₀ ids rfl h hq₀ checking
  | sending h => exact .sending h

theorem Pursued.call {supervisors : List String} (h : Pursued supervisors g id)
    (lacks : g.Lacks role) : Pursued supervisors (g.enter role) id := by
  cases role with
  | submission key =>
    by_cases hk : id = key
    · subst hk
      have none : g.submission id = none := lacks
      cases h with
      | launched h => cases none.symm.trans h
      | supervised quiet h => exact .supervised quiet h
      | listed ids hi h => exact .listed ids hi h
      | checking q ids hi h hq => cases none.symm.trans hq
      | sending h => cases none.symm.trans h
    · exact h.keep (by simp [Progress.enter, hk]) rfl fun h => h
  | supervision key c => exact h.keep rfl rfl fun h => h
  | shutdown =>
    have none : g.shutdown = none := lacks
    cases h with
    | launched h => exact .launched h
    | supervised quiet h => exact .supervised (by simp [Progress.enter]) h
    | listed ids hi h => cases none.symm.trans hi
    | checking q ids hi => cases none.symm.trans hi
    | sending h => exact .sending h
  | _ => exact h

theorem Tracked.pursued (h : Tracked config es s g) (unasked : Unasked s.manager id) :
    Pursued s.manager.supervisors g id := by
  induction h with
  | start started =>
    obtain ⟨files, rfl⟩ := start_ok started
    obtain ⟨l, hl, -⟩ := unasked
    cases hl
  | call role _ _ lacks ih => exact (ih unasked).call lacks
  | @act _ m _ _ role action _ g g' tracked moves _ ih =>
    -- a worker that nobody asked to stop is a new one, or was there before
    by_cases hl : ∃ job, action = .launch id job
    · obtain ⟨job, rfl⟩ := hl
      cases moves with
      | free _ free => exact free.elim
      | submission _ moves =>
        cases moves with
        | launch => exact .launched (by simp)
      | supervision _ moves => cases moves
      | shutdown _ moves => cases moves
    obtain ⟨before, unsent⟩ := unasked_of_apply unasked (not_exists.mp hl)
    have pursued := ih before
    generalize hb : (action.apply m).2 = b at moves
    cases moves with
    | free _ free =>
      exact pursued.keep rfl rfl fun h =>
        supervisor_apply h (by rintro rfl; exact free) (by rintro rfl; exact free)
    | @submission key _ _ _ _ _ q q' hq moves =>
      by_cases hk : id = key
      · subst hk
        exact pursued.submission hb hq moves (fun ids hi => tracked.closed hi (by simp)) unsent
      · exact pursued.keep (by simp [hk]) rfl fun h =>
          supervisor_apply h (by cases moves <;> simp) (by cases moves <;> simp)
    | @supervision key c _ _ q q' hq moves =>
      refine pursued.keep rfl rfl fun h => supervisor_apply h ?_ (by cases moves <;> simp)
      rintro rfl
      cases moves with
      | leave =>
        -- whose supervision leaves has no worker any more
        have fits := (tracked.accounted id).fits
        rw [Progress.phase_of_supervised hq] at fits
        obtain ⟨l, hl, -⟩ := before
        exact Bool.noConfusion (fits.2.1.symm.trans (Store.has_iff.mpr ⟨l, hl⟩))
    | shutdown hq moves => exact pursued.shutdown hb hq moves unsent
  | elapse _ _ ih => exact ih unasked
  | write _ _ ih => exact ih unasked

theorem Tracked.closed_of_mem (h : Tracked config es s g) {e : Event} (he : e ∈ es)
    (hs : e.action = .stopAccepting) : s.manager.accepting = false := by
  induction h with
  | start => cases he
  | call _ _ _ _ ih => exact ih he
  | act _ _ _ ih =>
    rcases List.mem_append.mp he with he | he
    · exact accepting_apply (ih he)
    · cases List.mem_singleton.mp he
      cases hs
      rfl
  | elapse _ _ ih => exact ih he
  | write _ _ ih => exact ih he

theorem Tracked.asking (h : Tracked config es s g) (idle : ∀ e ∈ es, ¬e.role.Submits id)
    {q : Submission} (hq : g.submission id = some q) : q = .asking := by
  induction h with
  | start => cases hq
  | call role _ _ _ ih =>
    cases role with
    | submission key =>
      by_cases hk : id = key
      · simpa [Progress.enter, hk, eq_comm] using hq
      · exact ih idle (by simpa [Progress.enter, hk] using hq)
    | _ => exact ih idle hq
  | @act es m before after role action rest g g' _ moves _ ih =>
    have idle' := fun e he => idle e (List.mem_append_left _ he)
    cases moves with
    | @submission key =>
      have hk : id ≠ key := Ne.symm (idle _ List.mem_concat_self)
      exact ih idle' (by simpa [hk] using hq)
    | _ => exact ih idle' hq
  | elapse _ _ ih => exact ih idle hq
  | write _ _ ih => exact ih idle hq

/-- Whether a submission has asked for nothing yet, or was turned away. -/
def Progress.TurnsAway (g : Progress) (id : String) : Prop :=
  ∀ q, g.submission id = some q → q = .asking ∨ q = .answered (.error .shuttingDown)

theorem Progress.Moves.turnsAway {b : action.Answer} (hb : (action.apply m).2 = b)
    (moves : g.Moves role action b g') (closed : m.accepting = false) (h : g.TurnsAway id) :
    g'.TurnsAway id ∧ (role.Submits id → (action.apply m).1 = m) := by
  cases moves with
  | free free_role _ =>
    exact ⟨h, by cases role <;> first | exact False.elim | cases free_role⟩
  | @submission key _ _ _ _ _ q q' hq moves =>
    by_cases hk : id = key
    · subst hk
      obtain rfl | rfl := h q hq
      · cases moves with
        | turnAway => exact ⟨by simp [TurnsAway], fun _ => rfl⟩
        | reject e => cases closed.symm.trans hb
        | ask => cases closed.symm.trans hb
      · cases moves
    · exact ⟨by simpa [TurnsAway, hk] using h, fun own => absurd own.symm hk⟩
  | supervision => exact ⟨h, False.elim⟩
  | shutdown => exact ⟨h, False.elim⟩

theorem Tracked.turned_away (h : Tracked config es s g) {before after : List Event} {swap : Event}
    (he : es = before ++ swap :: after) (hs : swap.action = .stopAccepting)
    (late : ∀ e ∈ before, ¬e.role.Submits id) :
    g.TurnsAway id ∧ ∀ e ∈ after, e.role.Submits id → e.after = e.before.manager := by
  -- by induction on the run, which ends with the event that closes the manager or goes on after it
  induction h generalizing after with
  | start => simp at he
  | call role _ _ _ ih =>
    obtain ⟨turns, unchanged⟩ := ih he
    refine ⟨fun q hq => ?_, unchanged⟩
    cases role with
    | submission key =>
      by_cases hk : id = key
      · left
        simpa [Progress.enter, hk, eq_comm] using hq
      · exact turns q (by simpa [Progress.enter, hk] using hq)
    | _ => exact turns q hq
  | @act es m ts ts' role action rest g g' tracked moves _ ih =>
    rcases List.eq_nil_or_concat after with rfl | ⟨earlier, e, rfl⟩
    · -- the manager is closed right now, and the submission has done nothing yet
      obtain ⟨rfl, hswap⟩ := List.append_inj' he rfl
      cases hswap
      cases hs
      refine ⟨fun q hq => .inl ?_, by simp⟩
      cases moves with
      | free _ free => exact free.elim
      | submission _ moves => cases moves
      | supervision _ moves => cases moves
      | shutdown => exact tracked.asking late hq
    · rw [List.concat_eq_append, ← List.cons_append, ← List.append_assoc] at he
      obtain ⟨hes, hlast⟩ := List.append_inj' he rfl
      cases hlast
      obtain ⟨turns, unchanged⟩ := ih hes
      have closed : m.accepting = false := tracked.closed_of_mem (e := swap) (by simp [hes]) hs
      obtain ⟨turns', idle⟩ := moves.turnsAway rfl closed turns
      refine ⟨turns', fun e he => ?_⟩
      rw [List.concat_eq_append] at he
      rcases List.mem_append.mp he with he | he
      · exact unchanged e he
      · cases List.mem_singleton.mp he
        exact idle
  | elapse _ _ ih => exact ih he
  | write _ _ ih => exact ih he

def Thread.IsDone (t : Thread) : Prop := t.rest.next? = none

def System.AllReturned (s : System) : Prop :=
  ∀ t ∈ s.threads, t.IsDone ∨ ∃ id c, t.role = .supervision id c

theorem Tracked.submission_answered (h : Tracked config es s g) (returned : s.AllReturned)
    {q : Submission} (hq : g.submission id = some q) : ∃ reply, q = .answered reply := by
  obtain ⟨kind, payload, e, rest, mem, follows⟩ := h.describes.submission_thread hq
  rcases returned _ mem with done | ⟨key, c, hr⟩
  · cases rest with
    | done reply => exact ⟨reply, follows⟩
    | take => cases done
  · cases hr

theorem Tracked.shutdown_over (h : Tracked config es s g) (returned : s.AllReturned)
    (called : ∃ t ∈ s.threads, t.role = .shutdown) : g.shutdown = some (.sending []) := by
  obtain ⟨⟨role, rest⟩, mem, rfl⟩ := called
  obtain ⟨q, hq, follows⟩ := h.describes.at_place _ mem
  rcases returned _ mem with done | ⟨key, c, hr⟩
  · cases rest with
    | done reply =>
      cases follows
      exact hq
    | take => cases done
  · cases hr

/-- After a shutdown every launched worker has ended or was asked to stop, no task is active, and
every later submission was turned away. -/
theorem no_worker_escapes_shutdown (h : Run config es s) (returned : s.AllReturned)
    (called : ∃ t ∈ s.threads, t.role = .shutdown) :
    (∀ id, Launched id es →
      Reaped id es ∨ ∃ l, s.manager.workers.get? id = some l ∧ l.stops ≠ []) ∧
    (∀ id t, s.manager.registry.tasks.get? id = some t → t.info.status.isTerminal = true) ∧
    ∀ id kind payload launchError? reply,
      ⟨.submission id kind payload launchError?, .done reply⟩ ∈ s.threads →
      ∀ before swap after, es = before ++ swap :: after → swap.action = .stopAccepting →
        (∀ e ∈ before, ¬e.role.Submits id) →
        reply = .error .shuttingDown ∧
          ∀ e ∈ after, e.role.Submits id → e.after = e.before.manager := by
  obtain ⟨g, tracked⟩ := h.tracked
  have sent := tracked.shutdown_over returned called
  have answered {id : String} {q : Submission} (hq : g.submission id = some q) :=
    tracked.submission_answered returned hq
  refine ⟨fun id launched => ?_, fun id => ?_, ?_⟩
  · by_cases alive : Reaped id es
    · exact .inl alive
    obtain ⟨l, hl⟩ := Store.has_iff.mp (tracked.worker_of_launched launched alive)
    refine .inr ⟨l, hl, fun unasked => ?_⟩
    -- whoever would still ask this worker has returned, so each of them has asked or does not exist
    cases tracked.pursued ⟨l, hl, unasked⟩ with
    | launched hq =>
      obtain ⟨reply, answer⟩ := answered hq
      cases answer
    | supervised quiet => exact quiet _ sent
    | listed ids hi mem =>
      cases sent.symm.trans hi
      cases mem
    | checking q ids _ _ hq checking =>
      obtain ⟨reply, rfl⟩ := answered hq
      exact checking
    | sending hq =>
      obtain ⟨reply, answer⟩ := answered hq
      cases answer
  · by_contra active
    have will := tracked.willEnd active
    -- after the shutdown only a submission could still end the task
    rw [Progress.WillEnd, sent] at will
    obtain ⟨q, hq, late⟩ := will
    obtain ⟨reply, rfl⟩ := answered hq
    exact late
  · intro id kind payload launchError? reply mem before swap after he hs late
    obtain ⟨turns, unchanged⟩ := tracked.turned_away he hs late
    obtain ⟨q, hq, rfl⟩ := tracked.describes.at_place _ mem
    exact ⟨by simpa using turns _ hq, unchanged⟩

/-- A shutdown comes between the launch of a worker and its registration, and another submission
comes late. -/
def overtaken : List Event × System :=
  let a := ((⟨idle, []⟩ : System).call (small "a")).follow [0, 0, 0, 0]
  let b := (a.2.call .shutdown).follow [1, 1, 1, 1, 1]
  let c := (b.2.call (small "b")).follow [0, 0, 0, 0, 0, 0, 2]
  ((a.1 ++ b.1) ++ c.1, c.2)

theorem run_overtaken : Run oneSlot overtaken.1 overtaken.2 := by
  have a := (run_idle.callSmall "a" [] rfl (by simp)).follow [0, 0, 0, 0]
  have b := (a.call .shutdown (System.admits_of_roles [small "a"] rfl
    (by simp [Role.Beside, small]) (by simp))).follow [1, 1, 1, 1, 1]
  exact (b.callSmall "b" [small "a", .shutdown] rfl
    (by simp [Role.Beside, small])).follow [0, 0, 0, 0, 0, 0, 2]

/-- The overtaken worker is asked to stop by its submission, and its task is canceled. -/
theorem overtaken_asked : overtaken.2.AllReturned ∧
    (∃ l, overtaken.2.manager.workers.get? "a" = some l ∧ l.stops ≠ []) ∧
    ∀ t, overtaken.2.manager.registry.tasks.get? "a" = some t →
      t.info.status.isTerminal = true := by
  have done : overtaken.2.threads.all (·.rest.next?.isNone) = true := rfl
  have returned : overtaken.2.AllReturned := fun t ht =>
    .inl (Option.isNone_iff_eq_none.mp (List.all_eq_true.mp done t ht))
  have called : ∃ t ∈ overtaken.2.threads, t.role = .shutdown := ⟨_, .tail _ (.head _), rfl⟩
  have launched : Launched "a" overtaken.1 := ⟨_, .tail _ (.tail _ (.tail _ (.head _))), _, rfl⟩
  have unreaped : overtaken.1.all (fun e => match e.action with
    | .reap _ => false
    | _ => true) = true := rfl
  obtain ⟨asked, ended, -⟩ := no_worker_escapes_shutdown run_overtaken returned called
  refine ⟨returned, (asked "a" launched).resolve_left ?_, ended "a"⟩
  rintro ⟨e, he, hr⟩
  have := List.all_eq_true.mp unreaped e he
  simp [hr] at this

end TaskFlow.Manager
