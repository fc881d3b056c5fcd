import TaskFlow.Proofs.Manager.Answers

namespace TaskFlow.Manager

variable {config : Config} {es : List Event} {s s' : System} {m m' : Manager} {g g' : Progress}
  {role : Role} {action : Action} {id : String} {i : Nat} {a b : Except TaskError Table}

inductive Reading
  | looking
  | fetching
  | told (a : Except TaskError Table)

inductive Reading.Moves (id : String) : Reading → (act : Action) → act.Answer → Reading → Prop
  -- unless the task has completed its record tells all there is to know
  | tell (known : Option TaskInfo) (a : Except TaskError Table)
    (h : ∀ m : Manager, m.registry.get? id = known → m.answer id = a) :
    Moves id .looking (.info id) known (.told a)
  | find (t : TaskInfo) (completed : t.status = .completed) :
    Moves id .looking (.info id) (some t) .fetching
  | fetch (table : Table) : Moves id .fetching (.fetch id) (.ok table) (.told (.ok table))
  | miss (e : CacheError) :
    Moves id .fetching (.fetch id) (.error e) (.told (.error (.notFound id)))

theorem follows_result (id : String) :
    (result id).Follows (Reading.Moves id) (fun q a => q = .told a) .looking := by
  rintro (_ | t)
  · exact ⟨_, .tell none _ fun m known => by rw [answer_eq, known], rfl⟩
  · cases status : t.status with
    | completed =>
      refine ⟨_, .find t status, ?_⟩
      simp only [Procedure.bind, status]
      rintro (e | table)
      · exact ⟨_, .miss e, rfl⟩
      · exact ⟨_, .fetch table, rfl⟩
    | queued | running =>
      refine ⟨_, .tell (some t) (.error (.notReady t.id t.status)) fun m known => ?_, ?_⟩
      · exact answer_of_active known (by rw [status]; rfl)
      · simp only [Procedure.bind, status]
        rfl
    | canceled =>
      refine ⟨_, .tell (some t) (.error (.canceled t.id)) fun m known => ?_, ?_⟩
      · rw [answer_eq, known]
        simp only [status]
      · simp only [Procedure.bind, status]
        rfl
    | failed =>
      let told := (t.error.map TaskError.ofFailure).getD (.application "falla sin detalle")
      refine ⟨_, .tell (some t) (.error told) fun m known => ?_, ?_⟩
      · rw [answer_eq, known]
        simp only [status, told]
      · simp only [Procedure.bind, status]
        rfl

/-- Whether a call for the result of a task was answered. -/
def System.Answers (s : System) (id : String) (i : Nat) (a : Except TaskError Table) : Prop :=
  s.threads[i]? = some ⟨.result id, .done a⟩

/-- Whether a call for the result of a task is under way. -/
def System.Asks (s : System) (id : String) (i : Nat) : Prop :=
  ∃ act rest, s.threads[i]? = some ⟨.result id, .take act rest⟩

/-- Some event found the call under way when the right answer was the one that it was told, or will
be told if it finds a table. -/
def Backed (es : List Event) (m : Manager) (g : Progress) (id : String) (i : Nat) : Reading → Prop
  | .looking => True
  | .fetching => Sealed g m id ∧ ∃ ev ∈ es, ev.before.Asks id i ∧
    ∀ e, m.cache.entries.get? id = some e → ev.before.manager.answer id = .ok e.table
  | .told a => ∃ ev ∈ es, ev.before.Asks id i ∧ ev.before.manager.answer id = a

theorem Backed.congr {q : Reading} (h : Backed es m g id i q)
    (registry : m'.registry = m.registry) (cache : m'.cache = m.cache) :
    Backed es m' g id i q := by
  cases q with
  | looking => trivial
  | fetching =>
    obtain ⟨⟨born, stored, record⟩, backed⟩ := h
    rw [← registry] at record
    rw [← cache] at backed
    exact ⟨⟨born, stored, record⟩, backed⟩
  | told a => exact h

theorem Backed.call {q : Reading} (h : Backed es m g id i q) (lacks : g.Lacks role) :
    Backed es m (g.enter role) id i q := by
  cases q with
  | looking => trivial
  | fetching =>
    obtain ⟨⟨born, stored, record⟩, backed⟩ := h
    exact ⟨⟨fun unborn => born (Progress.unborn_of_enter lacks unborn), stored.enter lacks, record⟩,
      backed⟩
  | told a => exact h

theorem Backed.act {q : Reading} {ev : Event} {answered : action.Answer}
    (h : Backed es m g id i q) (moves : g.Moves role action answered g') :
    Backed (es ++ [ev]) (action.apply m).1 g' id i q := by
  cases q with
  | looking => trivial
  | fetching =>
    obtain ⟨sealed, e, he, asks, backed⟩ := h
    obtain ⟨sealed, old⟩ := sealed.act moves
    refine ⟨sealed, e, List.mem_append_left _ he, asks, fun entry cached => ?_⟩
    obtain ⟨before, found, table⟩ := old entry cached
    exact table ▸ backed before found
  | told a =>
    obtain ⟨e, he, asked⟩ := h
    exact ⟨e, List.mem_append_left _ he, asked⟩

/-- A call that goes on has its answer backed by what it finds now, or by what it found before. -/
theorem Tracked.backed_act {q q' : Reading} (h : Tracked config es s g)
    (backed : Backed es s.manager g id i q) (asks : s.Asks id i)
    (moves : g.Moves role action (action.apply s.manager).2 g')
    (reads : q.Moves id action (action.apply s.manager).2 q') :
    Backed (es ++ [⟨s, role, action⟩]) (action.apply s.manager).1 g' id i q' := by
  have here {a : Except TaskError Table} (answer : s.manager.answer id = a) :
      Backed (es ++ [⟨s, role, action⟩]) (action.apply s.manager).1 g' id i (.told a) :=
    ⟨_, List.mem_concat_self, asks, answer⟩
  generalize hb : (action.apply s.manager).2 = b at reads
  cases reads with
  | tell known a told => exact here (told s.manager hb)
  | find t completed =>
    have known : s.manager.registry.get? id = some t := hb
    obtain ⟨sealed, -⟩ := (h.sealed_of_completed known completed).act moves
    refine ⟨sealed, _, List.mem_concat_self, asks, fun e cached => ?_⟩
    exact (Ended.completed known completed cached).answer h.keyed
  | fetch table =>
    obtain ⟨sealed, ev, he, asked, backed⟩ := backed
    refine ⟨ev, List.mem_append_left _ he, asked, ?_⟩
    obtain ⟨e, cached, rfl⟩ := Cache.found_of_get hb
    exact backed e cached
  | miss e =>
    obtain ⟨sealed, -⟩ := backed
    exact here (Gone.answer fun t known => ⟨sealed.record t known, Cache.absent_of_get hb⟩)

theorem getElem?_middle {before after : List Thread} {t u : Thread} (other : i ≠ before.length) :
    (before ++ t :: after)[i]? = (before ++ u :: after)[i]? := by
  rcases Nat.lt_or_gt_of_ne other with lower | upper
  · rw [List.getElem?_append_left lower, List.getElem?_append_left lower]
  · obtain ⟨k, rfl⟩ := Nat.exists_eq_add_of_lt upper
    rw [List.getElem?_append_right (by omega), List.getElem?_append_right (by omega),
      show before.length + k + 1 - before.length = k + 1 by omega, List.getElem?_cons_succ,
      List.getElem?_cons_succ]

theorem getElem?_middle_self {before after : List Thread} {t : Thread} :
    (before ++ t :: after)[before.length]? = some t := by simp

theorem Tracked.backed (h : Tracked config es s g) {p : Op (Except TaskError Table)}
    (thread : s.threads[i]? = some ⟨.result id, p⟩) :
    ∃ q, p.Follows (Reading.Moves id) (fun q a => q = .told a) q ∧
      Backed es s.manager g id i q := by
  -- an action is the call's own one if it is taken at the position of the call
  induction h generalizing p with
  | start => cases thread
  | @call es s g role _ _ lacks ih =>
    rw [List.getElem?_append] at thread
    split at thread
    · obtain ⟨q, follows, backed⟩ := ih thread
      exact ⟨q, follows, backed.call lacks⟩
    · have started : (⟨.result id, p⟩ : Thread) = ⟨role, role.procedure⟩ :=
        List.mem_singleton.mp (List.mem_of_getElem? thread)
      cases started
      exact ⟨.looking, follows_result id, trivial⟩
  | @act es m before after role action rest g g' tracked moves _ ih =>
    by_cases here : i = before.length
    · subst here
      cases getElem?_middle_self.symm.trans thread
      obtain ⟨q, follows, backed⟩ := ih getElem?_middle_self
      obtain ⟨q', reads, follows⟩ := follows (action.apply m).2
      exact ⟨q', follows,
        tracked.backed_act backed ⟨action, rest, getElem?_middle_self⟩ moves reads⟩
    · obtain ⟨q, follows, backed⟩ := ih ((getElem?_middle here).trans thread)
      exact ⟨q, follows, backed.act moves⟩
  | elapse now _ ih =>
    obtain ⟨q, follows, backed⟩ := ih thread
    exact ⟨q, follows, backed.congr rfl rfl⟩
  | write files _ ih =>
    obtain ⟨q, follows, backed⟩ := ih thread
    exact ⟨q, follows, backed.congr rfl rfl⟩

/-- A call is told what it would have been told at once at some moment while it was under way. -/
theorem Tracked.asked_of_answered (h : Tracked config es s g) (answered : s.Answers id i a) :
    ∃ ev ∈ es, ev.before.Asks id i ∧ ev.before.manager.answer id = a := by
  obtain ⟨q, rfl, backed⟩ := h.backed answered
  exact backed

/-- What lies between two moments of a run: calls start, and stay answered once they are. -/
structure Grows (s s' : System) : Prop where
  length_le : s.threads.length ≤ s'.threads.length
  answered : ∀ id i a, s.Answers id i a → s'.Answers id i a

theorem Grows.trans {s'' : System} (h : Grows s s') (h' : Grows s' s'') : Grows s s'' where
  length_le := Nat.le_trans h.length_le h'.length_le
  answered id i a before := h'.answered id i a (h.answered id i a before)

theorem Run.grows (h : Run config es s) : (moments es s).Pairwise Grows := by
  have trans (x y z : System) (h : Grows x y) (h' : Grows y z) : Grows x z := h.trans h'
  induction h with
  | start => exact List.pairwise_singleton ..
  | call role _ _ ih =>
    refine pairwise_replace trans ih ⟨by simp, fun id i a answered => ?_⟩
    have inside := (List.getElem?_eq_some_iff.mp answered).choose
    exact (List.getElem?_append_left inside).trans answered
  | act run ih =>
    rw [moments_concat]
    refine pairwise_extend trans ih ⟨by simp, fun id i a answered => ?_⟩
    refine (getElem?_middle fun here => ?_).trans answered
    subst here
    cases getElem?_middle_self.symm.trans answered
  | elapse now _ ih => exact pairwise_replace trans ih ⟨Nat.le_refl _, fun _ _ _ h => h⟩
  | write files _ ih => exact pairwise_replace trans ih ⟨Nat.le_refl _, fun _ _ _ h => h⟩

def Precedes (es : List Event) (i j : Nat) : Prop :=
  ∀ ev ∈ es, j < ev.before.threads.length → ∃ id a, ev.before.Answers id i a

theorem System.Asks.lt_length (h : s.Asks id i) : i < s.threads.length := by
  obtain ⟨act, rest, thread⟩ := h
  exact (List.getElem?_eq_some_iff.mp thread).choose

theorem System.Asks.unanswered {key : String} (h : s.Asks id i) : ¬s.Answers key i a := by
  obtain ⟨act, rest, thread⟩ := h
  intro answered
  cases thread.symm.trans answered

section Recorded

variable {before after : List Event} {e : Event} {kind : JobKind}

theorem Run.mem_after (h : Run config (before ++ e :: after) s)
    (began : e.before.threads.length ≤ i) {ev : Event} (mem : ev ∈ before ++ e :: after)
    (knows : i < ev.before.threads.length) : ev ∈ after := by
  have grows := (List.pairwise_append.mp h.grows).1
  rw [List.pairwise_map] at grows
  rcases List.mem_append.mp mem with mem | mem
  · have length := ((List.pairwise_append.mp grows).2.2 ev mem e List.mem_cons_self).length_le
    omega
  · rcases List.mem_cons.mp mem with rfl | mem
    · omega
    · exact mem

theorem Run.asked_after (h : Run config (before ++ e :: after) s)
    (began : e.before.threads.length ≤ i) (answered : s.Answers id i a) :
    ∃ ev ∈ after, ev.before.Asks id i ∧ ev.before.manager.answer id = a := by
  obtain ⟨g, tracked⟩ := h.tracked
  obtain ⟨ev, mem, asks, told⟩ := tracked.asked_of_answered answered
  exact ⟨ev, h.mem_after began mem asks.lt_length, asks, told⟩

theorem Run.phases_after (h : Run config (before ++ e :: after) s)
    (recorded : e.action = .record id kind) :
    ∃ waiting ended gone a, moments after s = waiting ++ ended ++ gone ∧
      (∀ u ∈ waiting, ∃ status, status.isTerminal = false ∧
        u.manager.answer id = .error (.notReady id status)) ∧
      (∀ u ∈ ended, Ended u.manager id a ∧ u.manager.answer id = a) ∧
      ∀ u ∈ gone, u.manager.answer id = .error (.notFound id) := by
  obtain ⟨g, tracked⟩ := h.tracked
  have reached (u : System) (hu : u ∈ moments after s) : ∃ es' g, Tracked config es' u g := by
    refine h.at_moments u ?_
    simp only [moments, List.map_append, List.map_cons, List.mem_append, List.mem_cons] at hu ⊢
    tauto
  obtain ⟨waiting, ended, gone, a, same, waits, ends, lost⟩ :=
    split_of_onward (tracked.onward rfl recorded).2 fun u hu => by
      obtain ⟨es', g', here⟩ := reached u hu
      exact here.phases id
  rw [same] at reached
  refine ⟨waiting, ended, gone, a, same, fun u hu => ?_, fun u hu => ⟨ends u hu, ?_⟩,
    fun u hu => (lost u hu).answer⟩
  · obtain ⟨es', g', here⟩ := reached u (by simp [hu])
    exact (waits u hu).answer here.keyed
  · obtain ⟨es', g', here⟩ := reached u (by simp [hu])
    exact (ends u hu).answer here.keyed

/-- Of two moments after its record one comes first, and its answer leads to the other one. -/
theorem Run.ordered_after (h : Run config (before ++ e :: after) s)
    (recorded : e.action = .record id kind) {ev ev' : Event} (mem : ev ∈ after)
    (mem' : ev' ∈ after) : ev = ev' ∨
    (Grows ev.before ev'.before ∧
      LeadsTo id (ev.before.manager.answer id) (ev'.before.manager.answer id)) ∨
    (Grows ev'.before ev.before ∧
      LeadsTo id (ev'.before.manager.answer id) (ev.before.manager.answer id)) := by
  obtain ⟨g, tracked⟩ := h.tracked
  have reached {ev : Event} (mem : ev ∈ after) : ∃ es' g, Tracked config es' ev.before g := by
    obtain ⟨es', run⟩ := h.reached ev (by simp [mem])
    exact ⟨es', run.tracked⟩
  have ahead := (List.pairwise_append.mp (tracked.onward rfl recorded).2).1
  have grows := (List.pairwise_append.mp h.grows).1
  rw [List.pairwise_map] at ahead grows
  have grows := (List.pairwise_cons.mp (List.pairwise_append.mp grows).2.1).2
  obtain ⟨es₁, g₁, here⟩ := reached mem
  obtain ⟨es₂, g₂, there⟩ := reached mem'
  refine (either_before (grows.and ahead) mem mem').imp_right (Or.imp ?_ ?_)
  · exact fun ⟨grown, onward⟩ => ⟨grown, onward.leadsTo here there⟩
  · exact fun ⟨grown, onward⟩ => ⟨grown, onward.leadsTo there here⟩

theorem Run.leadsTo_of_precedes (h : Run config (before ++ e :: after) s)
    (recorded : e.action = .record id kind) {j : Nat} (began : e.before.threads.length ≤ i)
    (first : s.Answers id i a) (second : s.Answers id j b)
    (precedes : Precedes (before ++ e :: after) i j) : LeadsTo id a b := by
  obtain ⟨g, tracked⟩ := h.tracked
  obtain ⟨ev, mem, asks, rfl⟩ := h.asked_after began first
  obtain ⟨ev', mem', asks', rfl⟩ := tracked.asked_of_answered second
  obtain ⟨key, c, answered⟩ := precedes ev' mem' asks'.lt_length
  have inside : i < ev'.before.threads.length := (List.getElem?_eq_some_iff.mp answered).choose
  -- at that moment the first call was answered, so it was under way before
  rcases h.ordered_after recorded mem (h.mem_after began mem' inside) with
    rfl | ⟨-, leads⟩ | ⟨grown, -⟩
  · exact absurd answered asks.unanswered
  · exact leads
  · exact absurd (grown.answered _ _ _ answered) asks.unanswered

theorem LeadsTo.eq_of_ok {t u : Table} (h : LeadsTo id (.ok t) (.ok u)) : t = u := by
  rcases h with ⟨status, waits⟩ | same | gone
  · cases waits
  · exact Except.ok.inj same
  · cases gone

/-- Answers go from not ready to one ending and from there to not found; each was right at some
moment while its call was under way. -/
theorem answers_move_forward (h : Run config (before ++ e :: after) s)
    (recorded : e.action = .record id kind) :
    (∃ waiting ended gone a, moments after s = waiting ++ ended ++ gone ∧
      (∀ u ∈ waiting, ∃ status, status.isTerminal = false ∧
        u.manager.answer id = .error (.notReady id status)) ∧
      (∀ u ∈ ended, Ended u.manager id a ∧ u.manager.answer id = a) ∧
      ∀ u ∈ gone, u.manager.answer id = .error (.notFound id)) ∧
    (∀ i a, e.before.threads.length ≤ i → s.Answers id i a →
      ∃ ev ∈ after, ev.before.Asks id i ∧ ev.before.manager.answer id = a) ∧
    (∀ i j a b, e.before.threads.length ≤ i → s.Answers id i a → s.Answers id j b →
      Precedes (before ++ e :: after) i j → LeadsTo id a b) ∧
    ∀ i j t u, e.before.threads.length ≤ i → e.before.threads.length ≤ j →
      s.Answers id i (.ok t) → s.Answers id j (.ok u) → t = u := by
  refine ⟨h.phases_after recorded, fun i a => h.asked_after, fun i j a b began first second =>
    h.leadsTo_of_precedes recorded began first second, fun i j t u began began' first second => ?_⟩
  obtain ⟨ev, mem, -, told⟩ := h.asked_after began first
  obtain ⟨ev', mem', -, told'⟩ := h.asked_after began' second
  -- calls that overlap are ordered by the moments at which their answers were right
  have order := h.ordered_after recorded mem mem'
  rw [told, told'] at order
  rcases order with rfl | ⟨-, leads⟩ | ⟨-, leads⟩
  · exact Except.ok.inj (told.symm.trans told')
  · exact leads.eq_of_ok
  · exact leads.eq_of_ok.symm

end Recorded

/-- The result of a task that has completed is read, the task is deleted, and somebody asks for the
result again. -/
def readAndDeleted : List Event × System :=
  let read := (succeeded.2.call (.result "a")).follow [2, 2]
  let deleted := (read.2.call (.deletion "a")).follow [3, 3, 3]
  let again := (deleted.2.call (.result "a")).follow [4]
  (((succeeded.1 ++ read.1) ++ deleted.1) ++ again.1, again.2)

theorem run_readAndDeleted : Run oneSlot readAndDeleted.1 readAndDeleted.2 := by
  have read := (run_succeeded.call (.result "a")
    (System.admits_of_roles [small "a", .supervision "a" success] rfl
      (by simp [Role.Beside, small]) (by simp))).follow [2, 2]
  have deleted := (read.call (.deletion "a")
    (System.admits_of_roles [small "a", .supervision "a" success, .result "a"] rfl
      (by simp [Role.Beside, small]) (by simp))).follow [3, 3, 3]
  refine (deleted.call (.result "a") ?_).follow [4]
  exact System.admits_of_roles
    [small "a", .supervision "a" success, .result "a", .deletion "a"] rfl
    (by simp [Role.Beside, small]) (by simp)

/-- The first call got the table, which was there while it was under way; the second one came after
it, and found nothing. -/
theorem readAndDeleted_told : ∃ before e after table,
    readAndDeleted.1 = before ++ e :: after ∧ e.action = .record "a" .execute ∧
    e.before.threads.length ≤ 2 ∧
    readAndDeleted.2.Answers "a" 2 (.ok table) ∧
    (∃ ev ∈ after, ev.before.Asks "a" 2 ∧ ev.before.manager.answer "a" = .ok table) ∧
    readAndDeleted.2.Answers "a" 4 (.error (.notFound "a")) ∧
    Precedes readAndDeleted.1 2 4 ∧ LeadsTo "a" (.ok table) (.error (.notFound "a")) := by
  obtain ⟨before, e, after, split, recorded, began⟩ : ∃ before e after,
      readAndDeleted.1 = before ++ e :: after ∧ e.action = .record "a" .execute ∧
        e.before.threads.length ≤ 2 :=
    ⟨readAndDeleted.1.take 2, _, readAndDeleted.1.drop 3, rfl, rfl, by decide⟩
  obtain ⟨table, first⟩ : ∃ table, readAndDeleted.2.Answers "a" 2 (.ok table) := ⟨_, rfl⟩
  have second : readAndDeleted.2.Answers "a" 4 (.error (.notFound "a")) := rfl
  have precedes : Precedes readAndDeleted.1 2 4 := by
    -- the second call is there at its own action only
    have few : (readAndDeleted.1.take 20).all (·.before.threads.length ≤ 4) = true := by
      decide +kernel
    rw [show readAndDeleted.1 = readAndDeleted.1.take 20 ++ [_] from rfl]
    intro ev mem knows
    rcases List.mem_append.mp mem with mem | mem
    · have short := of_decide_eq_true (List.all_eq_true.mp few ev mem)
      omega
    · obtain rfl := List.mem_singleton.mp mem
      exact ⟨"a", .ok table, first⟩
  have run := run_readAndDeleted
  rw [split] at run
  obtain ⟨-, asked, leads, -⟩ := answers_move_forward run recorded
  exact ⟨before, e, after, table, split, recorded, began, first, asked 2 _ began first, second,
    precedes, leads 2 4 _ _ began first second (split ▸ precedes)⟩

end TaskFlow.Manager
