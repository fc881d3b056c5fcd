import TaskFlow.Proofs.Worker.Framing
import TaskFlow.Proofs.Worker.Run
import TaskFlow.Proofs.Worker.Supervision

namespace TaskFlow

/-- Whether an error is one of the job itself, of its files or its steps. -/
def JobError.IsFailure : JobError → Prop
  | .storage _ | .application _ => True
  | .canceled | .aborted => False

namespace Worker

variable {thread : Thread} {input : Text.Bytes} {files : FileSystem} {conditions : Conditions}

/-- What can become of a thread for jobs: it runs a job to its end, or it panics on the way, having
written a part of the messages. -/
def Thread.Runs (thread : Thread) (conditions : Conditions) : Prop := ∀ a s,
  thread a s = jobThread conditions a s ∨
    (thread a s).1 = .panicked ∧ s.messages <+: (thread a s).2.messages ∧
      (thread a s).2.messages <+: (jobThread conditions a s).2.messages

def start (files : FileSystem) : Session := { files, messages := [.started] }

/-- The job of a process succeeded: it returned its counts, and no cancellation was seen at the
end. -/
def Succeeds (thread : Thread) (input : Text.Bytes) (files : FileSystem) (conditions : Conditions)
    (path : String) (rows bytes : Nat) : Prop :=
  ∃ a s, assignment input = .ok a ∧ thread a (start files) = (.returned (.ok ⟨rows, bytes⟩), s) ∧
    conditions.canceled s.looked.moment = false ∧ path = a.artifactPath

/-- A process failed: there was no assignment in its input, or the job returned an error. -/
def Fails (thread : Thread) (input : Text.Bytes) (files : FileSystem) (error : String) : Prop :=
  assignment input = .error error ∨
    ∃ a e s, assignment input = .ok a ∧ thread a (start files) = (.returned (.error e), s) ∧
      e.IsFailure ∧ error = e.text

theorem Thread.Runs.reports (runs : thread.Runs conditions) (a : Assignment) (s : Session) :
    ∃ ps : List Message, (∀ m ∈ ps, m.IsProgress) ∧ (thread a s).2.messages = s.messages ++ ps := by
  obtain ⟨ps, progress, messages⟩ := Run.reports_job a.job a.artifactPath conditions s
  rcases runs a s with same | ⟨-, ⟨more, later⟩, part⟩
  · rw [same]
    exact ⟨ps, progress, messages⟩
  · have part : s.messages ++ more <+: s.messages ++ ps := by
      rw [later, ← messages]
      exact part
    have part : more <+: ps := (List.prefix_append_right_inj _).mp part
    exact ⟨more, fun m hm => progress m (part.subset hm), later.symm⟩

/-- The last message of a process and its exit tell whether the job succeeded or failed. -/
structure Verdict (thread : Thread) (input : Text.Bytes) (files : FileSystem)
    (conditions : Conditions) (last : Option Message) (exit : ExitStatus) : Prop where
  succeeds : ∀ path rows bytes, last = some (.completed path rows bytes) ↔
    Succeeds thread input files conditions path rows bytes
  fails : ∀ error, last = some (.failed error) ↔ Fails thread input files error
  terminal : ∀ m ∈ last, m.isTerminal = true
  zero : exit = .code 0 ↔ ∃ path rows bytes, last = some (.completed path rows bytes)
  one : exit = .code 1 ↔ ∃ error, last = some (.failed error)
  exits : exit ∈ [.code 0, .code 1, .code 3, .code 101, .signal 6]

end Worker

namespace Message

end Message

namespace Supervision

variable {s : Supervision} {inbox left : Inbox} {os : List Occurrence}

theorem Watches.unrequested (h : Watches s inbox os left) (none : inbox.requests = []) :
    ¬∃ o ∈ os, o.IsRequest := by
  induction h with
  | exit => simp
  | take ready _ ih =>
    cases ready with
    | request => cases none
    | message | closed | graceOver =>
      simpa [Occurrence.IsRequest] using ih none

end Supervision

namespace Worker

open Message Supervision

variable {thread : Thread} {input : Text.Bytes} {files : FileSystem} {conditions : Conditions}

/-- The last message and the exit of a process lead a supervisor to what became of the job. -/
theorem Verdict.ofExit {last : Option Message} {exit : ExitStatus}
    (h : Verdict thread input files conditions last exit) :
    (∀ path rows bytes, Outcome.ofExit exit last = .succeeded path rows bytes ↔
        Succeeds thread input files conditions path rows bytes) ∧
      (∀ error, Outcome.ofExit exit last = .failed error ↔ Fails thread input files error) ∧
      ((∃ detail, Outcome.ofExit exit last = .crashed detail) ↔
        (¬∃ path rows bytes, Succeeds thread input files conditions path rows bytes) ∧
          ¬∃ error, Fails thread input files error) := by
  simp only [← h.succeeds, ← h.fails]
  cases last with
  | none => simp [Outcome.ofExit]
  | some m =>
    cases m with
    | completed path rows bytes =>
      rw [h.zero.mpr ⟨path, rows, bytes, rfl⟩]
      simp [Outcome.ofExit]
    | failed error =>
      rw [h.one.mpr ⟨error, rfl⟩]
      simp [Outcome.ofExit]
    | started | progress => exact absurd (h.terminal _ rfl) (by simp [Message.isTerminal])

theorem Verdict.readable {last : Option Message} {exit : ExitStatus}
    (h : Verdict thread input files conditions last exit)
    (bounded : ∀ path rows bytes, Succeeds thread input files conditions path rows bytes →
      rows < UInt64.size ∧ bytes < UInt64.size) : ∀ m ∈ last, m.Readable := by
  rintro m rfl
  cases m with
  | completed path rows bytes => exact bounded path rows bytes ((h.succeeds _ _ _).mp rfl)
  | failed error => trivial
  | started | progress => exact absurd (h.terminal _ rfl) (by simp [Message.isTerminal])

end Worker

end TaskFlow
