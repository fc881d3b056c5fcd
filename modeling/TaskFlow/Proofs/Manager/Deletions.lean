import TaskFlow.Proofs.Manager.Endings

namespace TaskFlow.Manager

inductive Deletion
  | looking
  | found
  | evicting
  | deleted
  | refused

inductive Deletion.Moves (id : String) : Deletion → (act : Action) → act.Answer → Deletion → Prop
  | miss : Moves id .looking (.info id) none .refused
  | find (t : TaskInfo) : Moves id .looking (.info id) (some t) .found
  -- a task that is active is canceled first, which may take some actions
  | spare (act : Action) (b : act.Answer) (h : act.Spares) : Moves id .found act b .found
  | forget (t : Option TaskInfo) : Moves id .found (.forget id) t .evicting
  | evict (b : Bool) : Moves id .evicting (.evict id) b .deleted

def Deletion.Ends : Deletion → Except TaskError Unit → Prop
  | .deleted, .ok () | .refused, .error _ | .found, .error _ => True
  | _, _ => False

theorem follows_delete (id : String) :
    (delete id).Follows (Deletion.Moves id) Deletion.Ends .looking := by
  have look : (status id).Follows (Deletion.Moves id)
      (fun q known => q = match known with | .ok _ => .found | .error _ => .refused) .looking := by
    rintro (_ | t)
    · exact ⟨_, .miss, rfl⟩
    · exact ⟨_, .find t, rfl⟩
  have clear : (do let _ ← forget id; let _ ← perform (.evict id); return .ok () :
      Op (Except TaskError Unit)).Follows (Deletion.Moves id) Deletion.Ends .found :=
    fun t => ⟨_, .forget t, fun b => ⟨_, .evict b, trivial⟩⟩
  refine look.bind ?_
  rintro (e | t) q rfl
  · trivial
  simp only
  split
  · exact clear
  · refine ((uses_cancel id).follows fun act b h => .spare act b h).bind ?_
    rintro (e | a) q rfl
    · trivial
    · exact clear

theorem Deletion.next?_of_evicting {id : String} {p : Op (Except TaskError Unit)}
    (h : p.Follows (Deletion.Moves id) Deletion.Ends .evicting) : p.next? = some (.evict id) := by
  cases p with
  | done a => cases a <;> exact h.elim
  | take act rest =>
    obtain ⟨b⟩ : Nonempty act.Answer := inferInstance
    obtain ⟨q, moves, -⟩ := h b
    cases moves
    rfl

variable {config : Config} {es : List Event} {s : System} {g g' : Progress} {m : Manager}
  {role : Role} {action : Action} {id : String} {r : Registry}

/-- What belongs to the place of a deletion: once it has found its task, the task has been recorded
and will not be again. -/
def Deletion.Fits (g : Progress) (r : Registry) (id : String) : Deletion → Prop
  | .looking | .refused => True
  | .found => ¬g.Unborn id
  | .evicting | .deleted => ¬g.Unborn id ∧ r.tasks.get? id = none

/-- Whether a thread forgets no tasks, or is one of those that may. -/
def Thread.MayForget (g : Progress) (r : Registry) : Thread → Prop
  | ⟨.deletion id, rest⟩ =>
    ∃ q : Deletion, q.Fits g r id ∧ rest.Follows (Deletion.Moves id) Deletion.Ends q
  | ⟨.sweep _, _⟩ | ⟨.submission .., _⟩ | ⟨.supervision .., _⟩ | ⟨.shutdown, _⟩ => True
  | ⟨_, rest⟩ => rest.Uses Action.Spares

theorem Thread.mayForget_start (g : Progress) (r : Registry) (role : Role) :
    (start role).MayForget g r := by
  cases role with
  | deletion id => exact ⟨.looking, trivial, follows_delete id⟩
  | status id => exact uses_status id
  | list => exact ⟨trivial, fun _ => trivial⟩
  | result id => exact uses_result id
  | memory id => exact ⟨trivial, fun _ => trivial⟩
  | cancellation id => exact uses_cancel id
  | acknowledgement id => exact uses_acknowledge id
  | sampling id bytes => exact ⟨trivial, fun _ => trivial⟩
  | _ => trivial

theorem Deletion.Fits.enter {q : Deletion} (h : q.Fits g r id) (lacks : g.Lacks role) :
    q.Fits (g.enter role) r id := by
  have born (h : ¬g.Unborn id) : ¬(g.enter role).Unborn id :=
    fun unborn => h (Progress.unborn_of_enter lacks unborn)
  cases q with
  | found => exact born h
  | evicting => exact ⟨born h.1, h.2⟩
  | deleted => exact ⟨born h.1, h.2⟩
  | _ => trivial

theorem Deletion.Fits.act {q : Deletion} {b : action.Answer} (h : q.Fits g m.registry id)
    (moves : g.Moves role action b g') : q.Fits g' (action.apply m).1.registry id := by
  have born (h : ¬g.Unborn id) : ¬g'.Unborn id := fun unborn => h (moves.unborn unborn).1
  have gone (h : ¬g.Unborn id ∧ m.registry.tasks.get? id = none) :
      (action.apply m).1.registry.tasks.get? id = none := by
    refine absent_apply h.2 ?_
    rintro kind rfl
    exact h.1 moves.unborn_of_record
  cases q with
  | found => exact born h
  | evicting => exact ⟨born h.1, gone h⟩
  | deleted => exact ⟨born h.1, gone h⟩
  | _ => trivial

theorem Deletion.Moves.fits {q q' : Deletion} {b : action.Answer}
    (hb : (action.apply m).2 = b) (moves : q.Moves id action b q') (story : Story es m g id)
    (progress : g.Moves role action b g') (h : q.Fits g m.registry id) :
    q'.Fits g' (action.apply m).1.registry id := by
  cases moves with
  | miss => trivial
  | find t =>
    -- who is known has been recorded
    intro unborn
    have known : m.registry.get? id = some t := hb
    rw [Registry.get?_eq, (story.unborn (progress.unborn unborn).1).1] at known
    cases known
  | spare act b free => exact h.act progress
  | forget t =>
    refine ⟨fun unborn => h (progress.unborn unborn).1, ?_⟩
    simp [Action.apply, onRegistry, Registry.remove]
  | evict b => exact h.act progress

theorem Thread.MayForget.enter {t : Thread} (h : t.MayForget g r) (lacks : g.Lacks role) :
    t.MayForget (g.enter role) r := by
  obtain ⟨role', rest⟩ := t
  cases role' with
  | deletion id =>
    obtain ⟨q, fits, follows⟩ := h
    exact ⟨q, fits.enter lacks, follows⟩
  | _ => exact h

theorem Thread.MayForget.other {t : Thread} {b : action.Answer} (h : t.MayForget g m.registry)
    (moves : g.Moves role action b g') : t.MayForget g' (action.apply m).1.registry := by
  obtain ⟨role', rest⟩ := t
  cases role' with
  | deletion id =>
    obtain ⟨q, fits, follows⟩ := h
    exact ⟨q, fits.act moves, follows⟩
  | _ => exact h

theorem Thread.MayForget.act {rest : action.Answer → Op role.Reply}
    (h : MayForget g m.registry ⟨role, .take action rest⟩) (story : ∀ id, Story es m g id)
    (moves : g.Moves role action (action.apply m).2 g') :
    MayForget g' (action.apply m).1.registry ⟨role, rest (action.apply m).2⟩ := by
  cases role with
  | deletion id =>
    obtain ⟨q, fits, follows⟩ := h
    obtain ⟨q', goes, follows⟩ := follows (action.apply m).2
    exact ⟨q', goes.fits rfl (story id) moves fits, follows⟩
  | sweep => trivial
  | submission => trivial
  | supervision => trivial
  | shutdown => trivial
  | _ => exact h.2 _

theorem Tracked.mayForget (h : Tracked config es s g) :
    ∀ t ∈ s.threads, t.MayForget g s.manager.registry := by
  induction h with
  | start => simp
  | @call es s g role _ _ lacks ih =>
    intro t ht
    rcases List.mem_append.mp ht with ht | ht
    · exact (ih t ht).enter lacks
    · rw [List.mem_singleton.mp ht]
      exact Thread.mayForget_start _ _ role
  | @act es m before after role action rest g g' tracked moves _ ih =>
    intro t ht
    rcases mem_middle.mp ht with rfl | ht
    · exact (ih ⟨role, .take action rest⟩ (by simp)).act tracked.story moves
    · exact (ih t (mem_middle.mpr (.inr ht))).other moves
  | elapse _ _ ih => exact ih
  | write _ _ ih => exact ih

/-- Who forgets a task: a deletion of it, which then drops the result, a sweep, or a submission that
could not launch its worker. -/
theorem Thread.MayForget.forget {rest : Option TaskInfo → Op role.Reply}
    {b : (Action.forget id).Answer} (h : MayForget g r ⟨role, .take (.forget id) rest⟩)
    (moves : g.Moves role (.forget id) b g') :
    (rest b).next? = some (.evict id) ∨ (∃ ttl, role = .sweep ttl) ∨
      ∃ reason, g.submission id = some (.withdrawing reason) := by
  cases role with
  | deletion key =>
    obtain ⟨q, -, follows⟩ := h
    obtain ⟨q', goes, follows⟩ := follows b
    cases goes with
    | spare _ _ h => exact h.elim
    | forget t => exact .inl (Deletion.next?_of_evicting follows)
  | sweep ttl => exact .inr (.inl ⟨ttl, rfl⟩)
  | submission => cases moves with
    | free hr => cases hr
    | submission hq goes =>
      cases goes
      exact .inr (.inr ⟨_, hq⟩)
  | supervision => cases moves with
    | free hr => cases hr
    | supervision _ goes => cases goes
  | shutdown => cases moves with
    | free hr => cases hr
    | shutdown _ goes => cases goes
  | _ => exact h.1.elim

theorem Thread.MayForget.evict {rest : action.Answer → Op (Except TaskError Unit)}
    {b : action.Answer} (h : MayForget g r ⟨.deletion id, .take action rest⟩)
    (finished : rest b = .done (.ok ())) : action = .evict id := by
  obtain ⟨q, -, follows⟩ := h
  obtain ⟨q', goes, follows⟩ := follows b
  have ends : q'.Ends (.ok ()) := by rwa [finished] at follows
  cases goes with
  | evict => rfl
  | _ => exact ends.elim

theorem Tracked.absent_of_deleted (h : Tracked config es s g)
    (deleted : ⟨.deletion id, .done (.ok ())⟩ ∈ s.threads) :
    s.manager.registry.tasks.get? id = none := by
  obtain ⟨q, fits, ends⟩ := h.mayForget _ deleted
  cases q with
  | deleted => exact fits.2
  | _ => exact ends.elim

end TaskFlow.Manager
