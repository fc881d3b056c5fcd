import TaskFlow.Proofs.FileSystem.Basic
import TaskFlow.Proofs.Manager.Effects
import TaskFlow.Proofs.Manager.Protocol
import TaskFlow.Proofs.Manager.Schedule

namespace TaskFlow

def Outcome.IsFailure : Outcome → Prop
  | .failed _ | .crashed _ => True
  | .succeeded .. | .stopped _ => False

namespace Manager

variable {α : Type} {m : Manager} {id : String} {o : Outcome} {content : Text.Bytes}

theorem Action.Commits.keepsFiles {act : Action} (h : act.Commits id) : act.KeepsFiles := by
  cases act <;> trivial

theorem uses_finalize_of_failure (failed : o.IsFailure) :
    (finalize id o).Uses Action.KeepsFiles := by
  cases o with
  | failed | crashed =>
    exact ⟨trivial, fun _ => (uses_recordFailure id _).mono fun _ => Action.Commits.keepsFiles⟩
  | succeeded | stopped => exact failed.elim

/-- Whether a procedure leaves the files alone until its last action, which removes the artifact. -/
def Clears (id : String) (p : Op Unit) : Prop :=
  ∃ note : Op Unit, note.Uses Action.KeepsFiles ∧ p = note >>= fun _ => removeArtifact id

theorem Clears.take {act : Action} {rest : act.Answer → Op Unit} (keeps : act.KeepsFiles)
    (h : ∀ b, Clears id (rest b)) : Clears id (.take act rest) := by
  choose note uses same using h
  exact ⟨.take act note, ⟨keeps, uses⟩, congrArg (Procedure.take act) (funext same)⟩

theorem clears_finalize (id : String) (h : ¬o.IsFailure) : Clears id (finalize id o) := by
  cases o with
  | succeeded path rows bytes =>
    refine .take trivial fun _ => .take trivial ?_
    rintro (e | ⟨table, size⟩)
    · exact ⟨_, (uses_recordFailure id _).mono fun _ => Action.Commits.keepsFiles, rfl⟩
    · exact ⟨_, (uses_commit id table size).mono fun _ => Action.Commits.keepsFiles, rfl⟩
  | stopped forced => exact .take trivial fun _ => ⟨.done (), trivial, rfl⟩
  | failed | crashed => exact absurd trivial h

theorem files_run {p : Op α} (id : String) (h : p.Uses Action.KeepsFiles) :
    (p.run m).1.files = m.files ∧ (p.run m).1.artifactPath id = m.artifactPath id :=
  h.run (I := fun m' : Manager => m'.files = m.files ∧ m'.artifactPath id = m.artifactPath id)
    (fun _ _ keeps same => ⟨(files_apply keeps).trans same.1, artifactPath_apply.trans same.2⟩)
    ⟨rfl, rfl⟩

theorem find_withoutArtifact :
    (m.withoutArtifact id).files.find (m.artifactPath id) ≠ .ok (.file content) := by
  rw [Ne, ← FileSystem.read_eq_ok, withoutArtifact, FileSystem.read_removed]
  cases m.files.read (m.artifactPath id) <;> nofun

/-- When the end of a worker has been noted, its artifact is still there just if it was there before
and the worker failed or crashed. -/
theorem artifact_left_iff_failure :
    ((finalize id o).run m).1.files.find (m.artifactPath id) = .ok (.file content) ↔
      o.IsFailure ∧ m.files.find (m.artifactPath id) = .ok (.file content) := by
  by_cases failed : o.IsFailure
  · rw [(files_run id (uses_finalize_of_failure failed)).1, and_iff_right failed]
  · obtain ⟨note, keeps, same⟩ := clears_finalize id failed
    obtain ⟨-, path⟩ := files_run (m := m) id keeps
    rw [iff_false_intro failed, false_and, iff_false, same, Op.run_bind, ← path]
    exact find_withoutArtifact

def failure : Course := ⟨0, [.message (.failed "roto")], .code 1, []⟩

def leftover : List Event × System :=
  let a := ((⟨idle, []⟩ : System).call (small "a")).follow [0, 0, 0, 0, 0, 0, 0]
  let b := ((⟨{ a.2.manager with files := spool ["a"] }, a.2.threads⟩ : System).call
    (.supervision "a" failure)).follow [1, 1, 1, 1, 1]
  (a.1 ++ b.1, b.2)

/-- The supervision of the worker is over, and the artifact is still there. -/
theorem leftover_stays : Run oneSlot leftover.1 leftover.2 ∧
    ⟨.supervision "a" failure, .done ()⟩ ∈ leftover.2.threads ∧
    leftover.2.manager.files.find (leftover.2.manager.artifactPath "a") = .ok (.file [49, 10]) := by
  have a := (run_idle.callSmall "a" [] rfl (by simp)).follow [0, 0, 0, 0, 0, 0, 0]
  have written := a.write (spool ["a"])
  refine ⟨(written.call (.supervision "a" failure) ?_).follow [1, 1, 1, 1, 1], ?_, ?_⟩
  · refine System.admits_of_roles [small "a"] rfl (by simp [Role.Beside, small]) ?_
    rintro id c ⟨⟩
    rfl
  · exact .tail _ (.head _)
  · decide +kernel

end Manager

end TaskFlow
