import TaskFlow.Proofs.Worker.Supervision

namespace TaskFlow

namespace Outcome

variable {exit : ExitStatus} {reported : Option Message} {codes codes' : Nat → Prop} {o : Outcome}

/-- What the first result and the end of a worker mean, if certain codes go with a failure. -/
inductive Meaning (codes : Nat → Prop) (reported : Option Message) (exit : ExitStatus) :
    Outcome → Prop
  | succeeded {path : String} {rows bytes : Nat} :
    reported = some (.completed path rows bytes) → exit = Worker.exitCompleted →
      Meaning codes reported exit (.succeeded path rows bytes)
  | failed {error : String} {n : Nat} :
    reported = some (.failed error) → exit = .code n → codes n →
      Meaning codes reported exit (.failed error)
  | crashed {detail : String} :
    (¬∃ path rows bytes,
      reported = some (.completed path rows bytes) ∧ exit = Worker.exitCompleted) →
    (¬∃ error n, reported = some (.failed error) ∧ exit = .code n ∧ codes n) →
      Meaning codes reported exit (.crashed detail)

/-- What the protocol prescribes: a failure has a code of its own. -/
def Prescribed : Option Message → ExitStatus → Outcome → Prop :=
  Meaning fun n => .code n = Worker.exitFailed

/-- A failure was reported, but the code of the exit is not that of a failure. -/
def Misreported (reported : Option Message) (exit : ExitStatus) : Prop :=
  ∃ error n, reported = some (.failed error) ∧ exit = .code n ∧ .code n ≠ Worker.exitFailed

theorem meaning_ofExit : Meaning (fun _ => True) reported exit (ofExit exit reported) := by
  unfold ofExit
  split
  · exact .succeeded rfl rfl
  · exact .failed rfl rfl trivial
  · next notCompleted notFailed =>
    refine .crashed ?_ ?_
    · rintro ⟨path, rows, bytes, rfl, rfl⟩
      exact notCompleted _ _ _ rfl rfl
    · rintro ⟨error, n, rfl, rfl, -⟩
      exact notFailed _ _ rfl rfl

theorem Meaning.succeeded_iff (h : Meaning codes reported exit o) {path : String}
    {rows bytes : Nat} : o = .succeeded path rows bytes ↔
      reported = some (.completed path rows bytes) ∧ exit = Worker.exitCompleted := by
  cases h with
  | succeeded report zero => simp [report, zero]
  | failed report => simp [report]
  | crashed notCompleted => exact iff_of_false nofun fun h => notCompleted ⟨path, rows, bytes, h⟩

theorem Meaning.failed_iff (h : Meaning codes reported exit o) {error : String} :
    o = .failed error ↔ reported = some (.failed error) ∧ ∃ n, exit = .code n ∧ codes n := by
  cases h with
  | succeeded report => simp [report]
  | failed report code ok => simp [report, code, ok]
  | crashed _ notFailed =>
    exact iff_of_false nofun fun ⟨report, n, h⟩ => notFailed ⟨error, n, report, h⟩

theorem Meaning.crashed_iff (h : Meaning codes reported exit o) :
    (∃ detail, o = .crashed detail) ↔
      (¬∃ path rows bytes,
        reported = some (.completed path rows bytes) ∧ exit = Worker.exitCompleted) ∧
        ¬∃ error n, reported = some (.failed error) ∧ exit = .code n ∧ codes n := by
  cases h with
  | succeeded report zero => simp [report, zero]
  | failed report code ok => simp [report, code, ok]
  | crashed notCompleted notFailed => exact iff_of_true ⟨_, rfl⟩ ⟨notCompleted, notFailed⟩

theorem Meaning.congr (h : Meaning codes reported exit o)
    (same : ∀ error n, reported = some (.failed error) → exit = .code n → (codes n ↔ codes' n)) :
    Meaning codes' reported exit o := by
  cases h with
  | succeeded report zero => exact .succeeded report zero
  | failed report code ok => exact .failed report code ((same _ _ report code).mp ok)
  | crashed notCompleted notFailed =>
    refine .crashed notCompleted ?_
    rintro ⟨error, n, report, code, ok⟩
    exact notFailed ⟨error, n, report, code, (same _ _ report code).mpr ok⟩

/-- What a supervisor makes of an end is what the protocol prescribes, unless a failure came with
another code. -/
theorem prescribed_ofExit_iff :
    Prescribed reported exit (ofExit exit reported) ↔ ¬Misreported reported exit := by
  constructor
  · rintro prescribed ⟨error, n, rfl, rfl, other⟩
    obtain ⟨-, m, code, expected⟩ := prescribed.failed_iff.mp rfl
    exact other (code.trans expected)
  · intro fitting
    refine meaning_ofExit.congr fun error n report code => ⟨fun _ => ?_, fun _ => trivial⟩
    exact Classical.not_not.mp fun other => fitting ⟨error, n, report, code, other⟩

end Outcome

namespace Supervision

open Worker

variable {os : List Occurrence} {left : Inbox}

/-- The first result and the end decide what became of a worker that nobody stopped: what the
protocol prescribes, unless a failure comes with another code. -/
theorem unrequested_outcome {grace : Nat} {written : List Message}
    {requests : List (StopMode × Bool)} (exit : ExitStatus)
    (watches : Watches { grace } ⟨written, true, requests⟩ os left)
    (unrequested : ¬∃ o ∈ os, o.IsRequest) :
    let first := written.find? (·.isTerminal)
    let outcome := (supervise grace os exit left.messages).2
    (∀ path rows bytes, outcome = .succeeded path rows bytes ↔
        first = some (.completed path rows bytes) ∧ exit = exitCompleted) ∧
      (∀ error, outcome = .failed error ↔ first = some (.failed error) ∧ ∃ n, exit = .code n) ∧
      ((∃ detail, outcome = .crashed detail) ↔
        (¬∃ path rows bytes, first = some (.completed path rows bytes) ∧ exit = exitCompleted) ∧
          ¬∃ error n, first = some (.failed error) ∧ exit = .code n) ∧
      (Outcome.Prescribed first exit outcome ↔ ¬Outcome.Misreported first exit) := by
  intro first outcome
  have ended : outcome = .ofExit exit first := watches.outcome exit unrequested
  -- to a supervisor any code goes with a failure, to the protocol a single one
  have meaning : Outcome.Meaning (fun _ => True) first exit outcome :=
    ended ▸ Outcome.meaning_ofExit
  refine ⟨fun _ _ _ => meaning.succeeded_iff, fun error => ?_, ?_, ?_⟩
  · rw [meaning.failed_iff]
    simp only [and_true]
  · rw [meaning.crashed_iff]
    simp only [and_true]
  · rw [ended]
    exact Outcome.prescribed_ofExit_iff

def failsFirst : List Message := [.started, .failed "no column", .completed "a.jsonl" 1 2]

/-- The failure counts, though the worker ends with the code of a completion. -/
theorem failsFirst_failed :
    (¬∃ o ∈ [.message .started], Occurrence.IsRequest o) ∧
      (supervise 5 [.message .started] exitCompleted (failsFirst.drop 1)).2 =
        .failed "no column" := by
  have watches : Watches { grace := 5 } ⟨failsFirst, true, [(.force, true)]⟩
      [.message .started] ⟨failsFirst.drop 1, true, [(.force, true)]⟩ :=
    .take (.message ..) (.exit ..)
  have unrequested : ¬∃ o ∈ [.message .started], Occurrence.IsRequest o := by
    simp [Occurrence.IsRequest]
  obtain ⟨-, failed, -, -⟩ := unrequested_outcome exitCompleted watches unrequested
  exact ⟨unrequested, (failed _).mpr ⟨rfl, 0, rfl⟩⟩

/-- A failure that was reported before the code 7 is not the crash that the protocol prescribes. -/
theorem unexpected_code_is_no_crash :
    Watches { grace := 5 } ⟨[.failed "no column"], true, []⟩ [.message (.failed "no column")]
        ⟨[], true, []⟩ ∧
      (¬∃ o ∈ [.message (.failed "no column")], Occurrence.IsRequest o) ∧
      (supervise 5 [.message (.failed "no column")] (.code 7) []).2 = .failed "no column" ∧
      ¬Outcome.Prescribed (some (.failed "no column")) (.code 7)
        (supervise 5 [.message (.failed "no column")] (.code 7) []).2 := by
  refine ⟨.take (.message ..) (.exit ..), by simp [Occurrence.IsRequest], rfl, fun prescribed => ?_⟩
  obtain ⟨-, n, code, expected⟩ := prescribed.failed_iff.mp rfl
  exact absurd (code.trans expected) (by decide)

end Supervision

end TaskFlow
