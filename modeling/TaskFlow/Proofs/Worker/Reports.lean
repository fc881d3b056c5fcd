import TaskFlow.Proofs.Worker.Run

namespace TaskFlow

variable {c : Conditions}

theorem Conditions.written_append (n : Nat) (ms more : List Message) :
    c.written n (ms ++ more) = c.written n ms ++ c.written (n + ms.length) more := by
  induction ms generalizing n with
  | nil => rfl
  | cons m ms ih =>
    have attempts : n + 1 + ms.length = n + (m :: ms).length := by rw [List.length_cons]; omega
    rw [List.cons_append, written, ih, written, List.append_assoc, attempts]

theorem Conditions.written_sublist (n : Nat) (ms : List Message) : (c.written n ms).Sublist ms := by
  induction ms generalizing n with
  | nil => exact .slnil
  | cons m ms ih =>
    rw [written]
    cases c.writable (n + 1) with
    | true => exact .cons_cons m (ih (n + 1))
    | false => exact .cons m (ih (n + 1))

/-- Cancellations go by the number of looks and by the time slept, and some or all reports can be
written. -/
def Conditions.scheduled (cancels : Nat → Nat → Bool) (writable : Nat → Bool := fun _ => true) :
    Conditions :=
  { canceled := fun m => cancels m.checks m.elapsed, writable }

/-- Two states that runs from the same state have come to, `s` with all reports and `t` with those
that could be written. -/
structure Session.Muted (c : Conditions) (start s t : Session) : Prop where
  files : t.files = s.files
  attempts : t.attempts = s.attempts
  checks : t.checks = s.checks
  elapsed : t.elapsed = s.elapsed
  told : ∃ ms, s.attempts = start.attempts + ms.length ∧ s.messages = start.messages ++ ms ∧
    t.messages = start.messages ++ c.written start.attempts ms

namespace Session.Muted

variable {start s t : Session}

theorem refl (s : Session) : Muted c s s s :=
  ⟨rfl, rfl, rfl, rfl, [], rfl, (List.append_nil _).symm, (List.append_nil _).symm⟩

theorem looked (h : Muted c start s t) : Muted c start s.looked t.looked :=
  ⟨h.files, h.attempts, congrArg (· + 1) h.checks, h.elapsed, h.told⟩

theorem reported (h : Muted c start s t) (m : Message) : Muted c start (s.reported m)
    (if c.writable (t.attempts + 1) then t.reported m else t.unreported) := by
  obtain ⟨ms, attempts, sent, written⟩ := h.told
  have attempts' : (s.reported m).attempts = start.attempts + (ms ++ [m]).length := by
    rw [List.length_append, ← Nat.add_assoc, ← attempts]
    rfl
  have sent' : (s.reported m).messages = start.messages ++ (ms ++ [m]) := by
    rw [← List.append_assoc, ← sent]
    rfl
  have last : start.messages ++ c.written start.attempts (ms ++ [m]) =
      t.messages ++ if c.writable (t.attempts + 1) then [m] else [] := by
    rw [Conditions.written_append, ← List.append_assoc, ← written, ← attempts, ← h.attempts,
      Conditions.written, Conditions.written, List.append_nil]
  have count := congrArg (· + 1) h.attempts
  cases could : c.writable (t.attempts + 1) <;> rw [could] at last
  · exact ⟨h.files, count, h.checks, h.elapsed, _, attempts', sent',
      ((List.append_nil _).symm.trans last.symm : t.messages = _)⟩
  · exact ⟨h.files, count, h.checks, h.elapsed, _, attempts', sent', last.symm⟩

end Session.Muted

namespace Run

variable {cancels : Nat → Nat → Bool} {writable : Nat → Bool} {start : Session}

/-- A part of a run that does the same whether its reports can be written or not. -/
def Tolerates (cancels : Nat → Nat → Bool) (writable : Nat → Bool) (start : Session) {α : Type}
    (r : Run α) : Prop := ∀ s t, start.Muted (.scheduled cancels writable) s t →
  (r.exec (.scheduled cancels writable) t).1 = (r.exec (.scheduled cancels) s).1 ∧
    start.Muted (.scheduled cancels writable) (r.exec (.scheduled cancels) s).2
      (r.exec (.scheduled cancels writable) t).2

theorem compositional_tolerates : Compositional (Tolerates cancels writable start) where
  pure _ _ _ h := ⟨rfl, h⟩
  throw _ _ _ h := ⟨rfl, h⟩
  bind {_ _ r f} first next s t h := by
    obtain ⟨same, muted⟩ := first s t h
    rcases broken : r.exec (.scheduled cancels writable) t with ⟨result, t'⟩
    rcases whole : r.exec (.scheduled cancels) s with ⟨e | a, s'⟩ <;>
      rw [whole, broken] at same muted <;> subst same
    · rw [exec_bind_of_error whole, exec_bind_of_error broken]
      exact ⟨rfl, muted⟩
    · rw [exec_bind_of_ok whole, exec_bind_of_ok broken]
      exact next a s' t' muted
  sense f each s t h := by
    rw [exec_bind_of_ok exec_get, exec_bind_of_ok exec_get, h.files, h.elapsed]
    exact each s.files s.elapsed s t h
  pass _ _ _ h := ⟨rfl, h.files, h.attempts, h.checks, rfl, h.told⟩
  check s t h := by
    have seen : (Conditions.scheduled cancels writable).canceled t.looked.moment =
        (Conditions.scheduled cancels).canceled s.looked.moment := by
      change cancels t.looked.checks t.looked.elapsed = cancels s.looked.checks s.looked.elapsed
      rw [h.looked.checks, h.looked.elapsed]
    rw [exec_check, exec_check, seen]
    exact ⟨rfl, h.looked⟩

theorem tolerates_progress (fraction : Single) (message : String) :
    Tolerates cancels writable start (progress fraction message) := fun s t h => by
  have sent : (progress fraction message).exec (.scheduled cancels) s =
      (.ok (), s.reported (.progress fraction (some message))) := rfl
  rw [exec_progress, sent]
  exact ⟨rfl, h.reported _⟩

theorem tolerates_writing {α : Type} (f : FileSystem → FileSystem × Except StorageError α) :
    Tolerates cancels writable start (writing f) := fun s t h => by
  rw [exec_writing, exec_writing, h.files]
  exact ⟨rfl, rfl, h.attempts, h.checks, h.elapsed, h.told⟩

/-- Whichever reports are lost, a job ends the same way and leaves the same files, and the other
reports are written. -/
theorem lost_reports_tolerated (j : Job) (path : String) (cancels : Nat → Nat → Bool)
    (writable : Nat → Bool) (s : Session) :
    let whole := j.run path (.scheduled cancels) s
    let broken := j.run path (.scheduled cancels writable) s
    broken.1 = whole.1 ∧ broken.2.files = whole.2.files ∧
    ∃ reports, whole.2.messages = s.messages ++ reports ∧
      broken.2.messages =
        s.messages ++ (Conditions.scheduled cancels writable).written s.attempts reports ∧
      ((Conditions.scheduled cancels writable).written s.attempts reports).Sublist reports := by
  -- the property is kept where parts follow one another, so only the parts that report have to be
  -- looked at
  have tolerated : Tolerates cancels writable s (job j path) :=
    compositional_tolerates.job tolerates_progress tolerates_writing j path
  obtain ⟨same, muted⟩ := tolerated s s (.refl s)
  obtain ⟨reports, -, whole, broken⟩ := muted.told
  exact ⟨same, muted.files, reports, whole, broken, Conditions.written_sublist _ _⟩

end Run

end TaskFlow
