import TaskFlow.Worker.Child

namespace TaskFlow

def Message.firstResultOnly : List Message → List Message
  | [] => []
  | m :: ms =>
    if m.isTerminal then m :: ms.filter fun m => !m.isTerminal else m :: firstResultOnly ms

def Occurrence.IsRequest : Occurrence → Prop
  | .request .. => True
  | _ => False

namespace Supervision

/-- What is on its way to a supervisor: messages, perhaps their end, and stop requests, each of
which may wait for an acknowledgement. -/
structure Inbox where
  messages : List Message
  isOpen : Bool := true
  requests : List (StopMode × Bool)

/-- What can be taken next, and what is on its way afterwards. The end of the messages comes last;
the grace is over only once begun. -/
inductive Ready (s : Supervision) : Inbox → Occurrence → Inbox → Prop
  | message (m : Message) (ms : List Message) (rs : List (StopMode × Bool)) :
    Ready s ⟨m :: ms, true, rs⟩ (.message m) ⟨ms, true, rs⟩
  | closed (rs : List (StopMode × Bool)) : Ready s ⟨[], true, rs⟩ .closed ⟨[], false, rs⟩
  | request (ms : List Message) (isOpen : Bool) (mode : StopMode) (acknowledged : Bool)
    (rs : List (StopMode × Bool)) (now : Nat) (reachable : Bool) :
    Ready s ⟨ms, isOpen, (mode, acknowledged) :: rs⟩ (.request mode now reachable acknowledged)
      ⟨ms, isOpen, rs⟩
  | graceOver (inbox : Inbox) : s.deadline.isSome = true → Ready s inbox .graceOver inbox

/-- The orders in which a supervisor can take what is on its way, until the worker ends: that may
be at any moment, and leaves the rest. -/
inductive Watches : Supervision → Inbox → List Occurrence → Inbox → Prop
  | exit (s : Supervision) (inbox : Inbox) : Watches s inbox [] inbox
  | take {s : Supervision} {inbox next left : Inbox} {o : Occurrence} {os : List Occurrence} :
    Ready s inbox o next → Watches (s.step o).1 next os left → Watches s inbox (o :: os) left

variable {s : Supervision} {m : Message} {ms : List Message} {o : Occurrence}
  {os : List Occurrence} {inbox left : Inbox}

def counting (s : Supervision) (ms : List Message) : List Message :=
  if s.reported.isSome then ms.filter fun m => !m.isTerminal else Message.firstResultOnly ms

def firstResult (s : Supervision) (ms : List Message) : Option Message :=
  s.reported.or (ms.find? (·.isTerminal))

theorem delivered_append (rs rs' : List Reaction) :
    Child.delivered (rs ++ rs') = Child.delivered rs ++ Child.delivered rs' :=
  List.filterMap_append

theorem counting_observe :
    Child.delivered (s.observe m).2 ++ (s.observe m).1.counting ms = s.counting (m :: ms) := by
  unfold observe
  cases terminal : m.isTerminal with
  | false =>
    cases reported : s.reported.isSome <;>
      simp [counting, reported, terminal, Child.delivered, Message.firstResultOnly]
  | true =>
    cases reported : s.reported with
    | some r => simp [counting, reported, terminal, Child.delivered]
    | none => simp [counting, reported, terminal, Child.delivered, Message.firstResultOnly]

theorem firstResult_observe : (s.observe m).1.firstResult ms = s.firstResult (m :: ms) := by
  unfold observe
  cases terminal : m.isTerminal with
  | false => simp [firstResult, terminal]
  | true => cases reported : s.reported <;> simp [firstResult, reported, terminal]

theorem stopMode_observe : (s.observe m).1.stopMode = s.stopMode := by
  unfold observe
  split
  · split <;> rfl
  · rfl

theorem observeAll_cons : s.observeAll (m :: ms) =
    (((s.observe m).1.observeAll ms).1, (s.observe m).2 ++ ((s.observe m).1.observeAll ms).2) :=
  rfl

theorem delivered_observeAll : Child.delivered (s.observeAll ms).2 = s.counting ms := by
  induction ms generalizing s with
  | nil => cases h : s.reported.isSome <;> simp [observeAll, counting, h, Child.delivered,
      Message.firstResultOnly]
  | cons m ms ih => rw [observeAll_cons, delivered_append, ih, counting_observe]

theorem reported_observeAll : (s.observeAll ms).1.reported = s.firstResult ms := by
  induction ms generalizing s with
  | nil => simp [observeAll, firstResult]
  | cons m ms ih => rw [observeAll_cons, ih, firstResult_observe]

theorem stopMode_observeAll : (s.observeAll ms).1.stopMode = s.stopMode := by
  induction ms generalizing s with
  | nil => rfl
  | cons m ms ih => rw [observeAll_cons, ih, stopMode_observe]

theorem step_quiet (h : ∀ m, o ≠ .message m) :
    Child.delivered (s.step o).2 = [] ∧ (s.step o).1.reported = s.reported := by
  cases o with
  | message m => exact absurd rfl (h m)
  | closed => exact ⟨rfl, rfl⟩
  | request mode now reachable acknowledged =>
    have acked : Child.delivered (if acknowledged then [Reaction.acknowledge] else []) = [] := by
      cases acknowledged <;> rfl
    rw [step, delivered_append, acked, List.append_nil]
    cases mode with
    | force => exact ⟨rfl, rfl⟩
    | graceful =>
      simp only [request]
      split
      · exact ⟨rfl, rfl⟩
      · split <;> exact ⟨rfl, rfl⟩
  | graceOver =>
    rw [step, graceOver]
    split <;> exact ⟨rfl, rfl⟩

theorem stopMode_step :
    (s.step o).1.stopMode.isSome = true ↔ s.stopMode.isSome = true ∨ o.IsRequest := by
  cases o with
  | message m => simp [step, stopMode_observe, Occurrence.IsRequest]
  | closed => simp [step, Occurrence.IsRequest]
  | request mode now reachable acknowledged =>
    have stopped : (s.request mode now reachable).1.stopMode.isSome = true := by
      cases mode with
      | force => rfl
      | graceful =>
        simp only [request]
        split
        · rfl
        · split <;> rfl
    simpa [step, Occurrence.IsRequest] using stopped
  | graceOver =>
    rw [step, graceOver]
    split <;> simp [Occurrence.IsRequest]

theorem Ready.step {next : Inbox} (h : s.Ready inbox o next) :
    Child.delivered (s.step o).2 ++ (s.step o).1.counting next.messages =
        s.counting inbox.messages ∧
      (s.step o).1.firstResult next.messages = s.firstResult inbox.messages := by
  have quiet (ho : ∀ m, o ≠ .message m) (same : next.messages = inbox.messages) :
      Child.delivered (s.step o).2 ++ (s.step o).1.counting next.messages =
          s.counting inbox.messages ∧
        (s.step o).1.firstResult next.messages = s.firstResult inbox.messages := by
    obtain ⟨silent, reported⟩ := step_quiet (s := s) ho
    rw [silent, same, counting, counting, firstResult, firstResult, reported]
    exact ⟨rfl, rfl⟩
  cases h with
  | message m ms rs => exact ⟨counting_observe, firstResult_observe⟩
  | closed rs => exact quiet (by simp) rfl
  | request ms isOpen mode acknowledged rs now reachable => exact quiet (by simp) rfl
  | graceOver _ started => exact quiet (by simp) rfl

theorem steps_cons : s.steps (o :: os) =
    (((s.step o).1.steps os).1, (s.step o).2 ++ ((s.step o).1.steps os).2) := rfl

/-- In whatever order things are taken, no message is lost and the first result stays the same. -/
theorem Watches.steps (h : Watches s inbox os left) :
    Child.delivered (s.steps os).2 ++ (s.steps os).1.counting left.messages =
        s.counting inbox.messages ∧
      (s.steps os).1.firstResult left.messages = s.firstResult inbox.messages := by
  induction h with
  | exit s inbox => exact ⟨rfl, rfl⟩
  | take ready _ ih =>
    obtain ⟨messages, result⟩ := ready.step
    rw [steps_cons, delivered_append, List.append_assoc, ih.1, ih.2]
    exact ⟨messages, result⟩

theorem stopMode_steps : (s.steps os).1.stopMode.isSome = true ↔
    s.stopMode.isSome = true ∨ ∃ o ∈ os, o.IsRequest := by
  induction os generalizing s with
  | nil => simp [Supervision.steps]
  | cons o os ih => rw [steps_cons, ih, stopMode_step]; simp [or_assoc]

theorem ofExit_ne_stopped (exit : ExitStatus) (reported : Option Message) (forced : Bool) :
    Outcome.ofExit exit reported ≠ .stopped forced := by
  unfold Outcome.ofExit
  split <;> simp

/-- What became of a worker that was not asked to stop goes by its end and its first result. -/
theorem Watches.outcome {grace : Nat} {written : List Message}
    {requests : List (StopMode × Bool)} (exit : ExitStatus)
    (watches : Watches { grace } ⟨written, true, requests⟩ os left)
    (unrequested : ¬∃ o ∈ os, o.IsRequest) :
    (supervise grace os exit left.messages).2 = .ofExit exit (written.find? (·.isTerminal)) := by
  let last := ({ grace } : Supervision).steps os
  have free : (last.1.observeAll left.messages).1.stopMode.isSome = false := by
    rw [stopMode_observeAll]
    exact Bool.eq_false_iff.mpr fun stopped => unrequested (by simpa using stopMode_steps.mp stopped)
  change (last.1.observeAll left.messages).1.outcome exit = _
  rw [Supervision.outcome, free, reported_observeAll, watches.steps.2]
  rfl

/-- In whatever order a supervisor takes things, it delivers the messages that count, and the same
becomes of a worker that nobody stopped. -/
theorem supervision_confluent {grace : Nat} {written : List Message}
    {requests : List (StopMode × Bool)} (exit : ExitStatus)
    (watches : Watches { grace } ⟨written, true, requests⟩ os left) :
    let (reactions, outcome) := supervise grace os exit left.messages
    Child.delivered reactions = Message.firstResultOnly written ∧
      ((∃ forced, outcome = .stopped forced) ↔ ∃ o ∈ os, o.IsRequest) ∧
      ((¬∃ o ∈ os, o.IsRequest) →
        outcome = .ofExit exit (written.find? (·.isTerminal))) := by
  obtain ⟨messages, result⟩ := watches.steps
  let last := ({ grace } : Supervision).steps os
  -- messages that are still on their way at the end request nothing
  have stopped : (last.1.observeAll left.messages).1.stopMode.isSome = true ↔
      ∃ o ∈ os, o.IsRequest := by
    rw [stopMode_observeAll]
    simpa using stopMode_steps (s := { grace })
  have unstopped (h : ¬∃ o ∈ os, o.IsRequest) :
      (last.1.observeAll left.messages).1.outcome exit =
        .ofExit exit (written.find? (·.isTerminal)) := by
    have free := Bool.eq_false_iff.mpr (mt stopped.mp h)
    rw [outcome, free, reported_observeAll, result]
    rfl
  refine ⟨?_, ⟨?_, fun requested => ?_⟩, unstopped⟩
  · rw [delivered_append, delivered_observeAll, messages]
    rfl
  · rintro ⟨forced, ended⟩
    refine Classical.not_not.mp fun h => ?_
    exact ofExit_ne_stopped _ _ _ ((unstopped h).symm.trans ended)
  · exact ⟨_, if_pos (stopped.mpr requested)⟩

def twoResults : List Message :=
  [.started, .completed "a.jsonl" 1 2, .progress Binary.zero none, .failed "late"]

def undisturbed : List Occurrence := [.message .started, .message (.completed "a.jsonl" 1 2)]

/-- What is taken of it if it is asked to stop in between, and killed when the grace is over. -/
def disturbed : List Occurrence :=
  [.message .started, .request .graceful 0 true true, .message (.completed "a.jsonl" 1 2),
    .graceOver]

/-- The same messages are delivered in both orders; the worker has succeeded if nobody stopped it. -/
theorem twoResults_delivered :
    Child.delivered (supervise 5 undisturbed (.code 0) (twoResults.drop 2)).1 =
        twoResults.take 3 ∧
      (supervise 5 undisturbed (.code 0) (twoResults.drop 2)).2 = .succeeded "a.jsonl" 1 2 ∧
      Child.delivered (supervise 5 disturbed (.signal 9) (twoResults.drop 2)).1 =
        twoResults.take 3 ∧
      ∃ forced, (supervise 5 disturbed (.signal 9) (twoResults.drop 2)).2 = .stopped forced := by
  have ended : Watches { grace := 5 } ⟨twoResults, true, [(.graceful, true)]⟩ undisturbed
      ⟨twoResults.drop 2, true, [(.graceful, true)]⟩ :=
    .take (.message ..) (.take (.message ..) (.exit ..))
  have killed : Watches { grace := 5 } ⟨twoResults, true, [(.graceful, true)]⟩ disturbed
      ⟨twoResults.drop 2, true, []⟩ :=
    .take (.message ..) (.take (.request ..) (.take (.message ..)
      (.take (.graceOver _ rfl) (.exit ..))))
  have unrequested : ¬∃ o ∈ undisturbed, o.IsRequest := by
    rintro ⟨o, ho, requested⟩
    simp only [undisturbed, List.mem_cons, List.not_mem_nil, or_false] at ho
    rcases ho with rfl | rfl <;> exact requested
  obtain ⟨delivered, -, outcome⟩ := supervision_confluent (.code 0) ended
  obtain ⟨delivered', stopped, -⟩ := supervision_confluent (.signal 9) killed
  exact ⟨delivered, outcome unrequested, delivered',
    stopped.mpr ⟨.request .graceful 0 true true, .tail _ (.head _), trivial⟩⟩

end Supervision

end TaskFlow
