import TaskFlow.Proofs.FileSystem.Basic
import TaskFlow.Proofs.Worker.Run

namespace TaskFlow.Run

variable {α β : Type} {r : Run α} {f : α → Run β} {c : Conditions} {s : Session}

/-- A part of a run that leaves the files as they are. -/
def KeepsFiles (r : Run α) : Prop := ∀ c s, (r.exec c s).2.files = s.files

theorem closed_keepsFiles : Closed KeepsFiles :=
  closed_of_preorder (R := fun s s' => s'.files = s.files) (fun _ => rfl)
    (fun first next => next.trans first) (fun _ _ => rfl) fun _ => rfl

theorem keepsFiles_progress (fraction : Single) (message : String) :
    KeepsFiles (progress fraction message) := by
  intro c s
  rw [exec_progress]
  split <;> rfl

def Raised (c : Conditions) (s : Session) : Prop :=
  ∀ m : RunMoment, s.messages.length ≤ m.sent → c.canceled m = true

theorem Raised.of_messages {s' : Session} (h : Raised c s) (same : s'.messages = s.messages) :
    Raised c s' := fun m sent => h m (same ▸ sent)

theorem exec_check_of_raised (h : Raised c s) : check.exec c s = (.error .canceled, s.looked) := by
  rw [exec_check, h _ (Nat.le_refl _)]
  rfl

/-- A part of a run that writes no more once the run is canceled, and fails only in allowed ways. -/
def Heeds (allowed : JobError → Prop) (r : Run α) : Prop := ∀ c s, Raised c s →
  (r.exec c s).2.messages = s.messages ∧ (r.exec c s).2.files = s.files ∧
    ∀ e, (r.exec c s).1 = .error e → allowed e

variable {allowed : JobError → Prop}

theorem heeds_pure (a : α) : Heeds allowed (pure a : Run α) := fun _ _ _ => ⟨rfl, rfl, nofun⟩

theorem heeds_throw {e : JobError} (h : allowed e) : Heeds allowed (throw e : Run α) := by
  intro c s _
  refine ⟨rfl, rfl, fun e' same => ?_⟩
  cases same
  exact h

theorem heeds_check {f : Unit → Run α} (h : allowed .canceled) : Heeds allowed (check >>= f) := by
  intro c s raised
  rw [exec_bind_of_error (exec_check_of_raised raised)]
  refine ⟨rfl, rfl, fun e same => ?_⟩
  cases same
  exact h

theorem Heeds.bind (first : Heeds allowed r) (then_ : ∀ a, Heeds allowed (f a)) :
    Heeds allowed (r >>= f) := by
  intro c s raised
  obtain ⟨messages, files, errors⟩ := first c s raised
  rcases h : r.exec c s with ⟨e | a, s'⟩ <;> rw [h] at messages files errors
  · rw [exec_bind_of_error h]
    refine ⟨messages, files, fun e' same => ?_⟩
    cases same
    exact errors e rfl
  · rw [exec_bind_of_ok h]
    obtain ⟨messages', files', errors'⟩ := then_ a c s' (raised.of_messages messages)
    exact ⟨messages'.trans messages, files'.trans files, errors'⟩

theorem Heeds.mono {more : JobError → Prop} (h : Heeds allowed r)
    (weaker : ∀ e, allowed e → more e) : Heeds more r := fun c s raised =>
  ⟨(h c s raised).1, (h c s raised).2.1, fun e failed => weaker e ((h c s raised).2.2 e failed)⟩

/-- A part of a run that a cancellation that has come can only stop. -/
abbrev Stops (r : Run α) : Prop := Heeds (· = .canceled) r

theorem stops_stepsFrom (total done : Nat) (current : List Row) (ss : List Step) :
    Stops (stepsFrom total done current ss) := by
  cases ss with
  | nil => exact heeds_pure current
  | cons st ss => exact heeds_check (by rfl)

theorem stops_filesFrom (format : InputFormat) (total done : Nat) (rows : List Row)
    (paths : List String) : Stops (filesFrom format total done rows paths) := by
  cases paths with
  | nil => exact heeds_pure rows
  | cons path paths => exact heeds_check (by rfl)

theorem stops_chunksFrom (keys : Rows.FuzzyKeys) (right : List Row) (total done : Nat)
    (out : List Row) (pieces : List (List Row)) :
    Stops (chunksFrom keys right total done out pieces) := by
  cases pieces with
  | nil => exact heeds_pure out
  | cons piece pieces => exact heeds_check (by rfl)

/-- A part of a run that neither reports nor writes, whatever happens. -/
def Quiet (r : Run α) : Prop := ∀ c s,
  (r.exec c s).2.messages = s.messages ∧ (r.exec c s).2.files = s.files

theorem Quiet.heeds (h : Quiet r) : Heeds (fun _ => True) r := fun c s _ =>
  ⟨(h c s).1, (h c s).2, fun _ _ => trivial⟩

theorem closed_quiet : Closed Quiet :=
  closed_of_preorder (R := fun s s' => s'.messages = s.messages ∧ s'.files = s.files)
    (fun _ => ⟨rfl, rfl⟩) (fun first next => ⟨next.1.trans first.1, next.2.trans first.2⟩)
    (fun _ _ => ⟨rfl, rfl⟩) fun _ => ⟨rfl, rfl⟩

/-- No table is computed under a cancellation that has come with a report or a file written. -/
theorem heeds_table (j : Job) : Heeds (fun _ => True) (table j) := by
  cases j with
  | execute ss =>
    exact ((stops_stepsFrom _ _ _ ss).mono fun _ _ => trivial).bind fun _ => heeds_pure _
  | writeResults ss path format =>
    exact ((stops_stepsFrom _ _ _ ss).mono fun _ _ => trivial).bind fun _ => heeds_check trivial
  | createTable pattern format =>
    refine closed_quiet.get.heeds.bind fun s => ?_
    cases s.files.globFiles pattern with
    | error e => exact heeds_throw trivial
    | ok paths =>
      exact ((stops_filesFrom _ _ _ _ _).mono fun _ _ => trivial).bind fun _ => heeds_pure _
  | fuzzyJoin left right leftOn rightOn threshold =>
    exact (closed_quiet.load left).heeds.bind fun _ => (closed_quiet.load right).heeds.bind fun _ =>
      heeds_check trivial

def undisturbed (writable : Nat → Bool) : Conditions := { writable }

/-- The run is canceled as soon as a number of messages is written. -/
def canceledAt (n : Nat) (writable : Nat → Bool) : Conditions :=
  { canceled := fun m => n ≤ m.sent, writable }

variable {n : Nat} {w : Nat → Bool}

theorem raised_canceledAt (h : n ≤ s.messages.length) : Raised (canceledAt n w) s := fun _ sent =>
  decide_eq_true (h.trans sent)

/-- A part of a run that reports nothing, and that a cancellation that is to come with a report
does not touch. -/
def Steady (r : Run α) : Prop := ∀ n w s, s.messages.length < n →
  r.exec (canceledAt n w) s = r.exec (undisturbed w) s ∧
    (r.exec (undisturbed w) s).2.messages = s.messages

theorem closed_steady : Closed Steady where
  pure _ _ _ _ _ := ⟨rfl, rfl⟩
  throw _ _ _ _ _ := ⟨rfl, rfl⟩
  bind {_ _ r f} first then_ n w s early := by
    obtain ⟨same, messages⟩ := first n w s early
    rcases h : r.exec (undisturbed w) s with ⟨e | a, s'⟩ <;> rw [h] at same messages
    · rw [exec_bind_of_error h, exec_bind_of_error same]
      exact ⟨rfl, messages⟩
    · obtain ⟨same', messages'⟩ := then_ a n w s' (messages ▸ early)
      rw [exec_bind_of_ok h, exec_bind_of_ok same]
      exact ⟨same', messages'.trans messages⟩
  get _ _ _ _ := ⟨rfl, rfl⟩
  pass _ _ _ _ _ := ⟨rfl, rfl⟩
  check n w s early := by
    have free : (canceledAt n w).canceled s.looked.moment = false :=
      decide_eq_false (Nat.not_le.mpr early)
    rw [exec_check, exec_check, free]
    exact ⟨rfl, rfl⟩

theorem steady_writing (g : FileSystem → FileSystem × Except StorageError α) :
    Steady (writing g) := by
  intro n w s _
  rw [exec_writing, exec_writing]
  exact ⟨rfl, rfl⟩

/-- Canceled with message number `n`, a part ends as it would otherwise if that message is still to
come, and else right after it, no file written. -/
def Tracks (n : Nat) (s : Session) (free stopped : Except JobError α × Session) : Prop :=
  (free.2.messages.length < n ∧ stopped = free) ∨
    (n ≤ free.2.messages.length ∧ stopped.2.messages = free.2.messages.take n ∧
      stopped.2.files = s.files ∧ ∀ e, stopped.1 = .error e → e = .canceled)

/-- A part of a run that obeys a cancellation that comes with one of its reports. -/
def Obeys (r : Run α) : Prop := ∀ n w s, s.messages.length < n →
  Tracks n s (r.exec (undisturbed w) s) (r.exec (canceledAt n w) s)

theorem Steady.obeys (h : Steady r) : Obeys r := by
  intro n w s early
  obtain ⟨same, messages⟩ := h n w s early
  exact .inl ⟨messages ▸ early, same⟩

theorem obeys_progress (fraction : Single) (message : String) :
    Obeys (progress fraction message) := by
  intro n w s early
  rw [exec_progress, exec_progress]
  by_cases written : w (s.attempts + 1) = true
  · have length : (s.reported (.progress fraction (some message))).messages.length =
        s.messages.length + 1 := List.length_append
    have sent (c : Conditions) (same : c.writable = w) : (if c.writable (s.attempts + 1) then
        s.reported (.progress fraction (some message)) else s.unreported) =
          s.reported (.progress fraction (some message)) := by
      rw [same]
      exact if_pos written
    rw [sent (undisturbed w) rfl, sent (canceledAt n w) rfl]
    by_cases last : s.messages.length + 1 < n
    · exact .inl ⟨length ▸ last, rfl⟩
    · refine .inr ⟨by rw [length]; omega, (List.take_of_length_le ?_).symm, rfl, nofun⟩
      rw [length]
      exact early
  · exact .inl ⟨by rw [undisturbed, if_neg written]; exact early, rfl⟩

theorem tracks_bind_of_same (same : r.exec (canceledAt n w) s = r.exec (undisturbed w) s)
    (early : (r.exec (undisturbed w) s).2.messages.length < n)
    (kept : (r.exec (undisturbed w) s).2.files = s.files) (then_ : ∀ a, Obeys (f a)) :
    Tracks n s ((r >>= f).exec (undisturbed w) s) ((r >>= f).exec (canceledAt n w) s) := by
  rcases h : r.exec (undisturbed w) s with ⟨e | a, s'⟩ <;> rw [h] at same early kept
  · rw [exec_bind_of_error h, exec_bind_of_error same]
    exact .inl ⟨early, rfl⟩
  · rw [exec_bind_of_ok h, exec_bind_of_ok same, Tracks, ← kept]
    exact then_ a n w s' early

theorem Steady.bind_obeys (steady : Steady r) (keeps : KeepsFiles r) (then_ : ∀ a, Obeys (f a)) :
    Obeys (r >>= f) := by
  intro n w s early
  obtain ⟨same, messages⟩ := steady n w s early
  exact tracks_bind_of_same same (by rwa [messages]) (keeps _ s) then_

theorem Obeys.bind (first : Obeys r) (keeps : KeepsFiles r) (then_ : ∀ a, Obeys (f a))
    (stops : ∀ a, Stops (f a)) (reports : ∀ a, Reports (f a)) :
    Obeys (r >>= f) := by
  intro n w s early
  rcases first n w s early with ⟨before, same⟩ | ⟨late, messages, files, errors⟩
  · exact tracks_bind_of_same same before (keeps _ s) then_
  obtain ⟨more, further⟩ : ∃ more, ((r >>= f).exec (undisturbed w) s).2.messages =
      (r.exec (undisturbed w) s).2.messages ++ more := by
    rcases h : r.exec (undisturbed w) s with ⟨e | a, s'⟩
    · exact ⟨[], by rw [exec_bind_of_error h, List.append_nil]⟩
    · obtain ⟨more, -, messages⟩ := reports a (undisturbed w) s'
      exact ⟨more, by rw [exec_bind_of_ok h, messages]⟩
  have first_n : ((r >>= f).exec (undisturbed w) s).2.messages.take n =
      (r.exec (undisturbed w) s).2.messages.take n := by
    rw [further, List.take_append_of_le_length late]
  refine .inr ⟨by rw [further, List.length_append]; omega, ?_⟩
  rw [first_n, ← messages]
  rcases h : r.exec (canceledAt n w) s with ⟨e | a, s'⟩ <;> rw [h] at messages files errors
  · rw [exec_bind_of_error h]
    refine ⟨rfl, files, fun e' failed => ?_⟩
    cases failed
    exact errors e rfl
  · have raised : Raised (canceledAt n w) s' := raised_canceledAt (by
      rw [messages, List.length_take]
      omega)
    obtain ⟨same, files', errors'⟩ := stops a _ s' raised
    rw [exec_bind_of_ok h]
    exact ⟨same, files'.trans files, errors'⟩

theorem Obeys.of_report {fraction : Single} {message : String} (then_ : Obeys r) (stops : Stops r)
    (reports : Reports r) : Obeys (progress fraction message >>= fun _ => r) :=
  (obeys_progress fraction message).bind (keepsFiles_progress _ _) (fun _ => then_)
    (fun _ => stops) fun _ => reports

/-- A turn of a loop: a look, a part without reports, a report, and the turns after it. -/
theorem obeys_turn {fraction : Single} {message : α → String} (steady : Steady r)
    (keeps : KeepsFiles r) (then_ : ∀ a, Obeys (f a)) (stops : ∀ a, Stops (f a))
    (reports : ∀ a, Reports (f a)) :
    Obeys (check >>= fun _ => r >>= fun a => progress fraction (message a) >>= fun _ => f a) :=
  closed_steady.check.bind_obeys closed_keepsFiles.check fun _ =>
    steady.bind_obeys keeps fun a => (then_ a).of_report (stops a) (reports a)

theorem obeys_stepsFrom (total done : Nat) (current : List Row) (ss : List Step) :
    Obeys (stepsFrom total done current ss) := by
  induction ss generalizing done current with
  | nil => exact (closed_steady.pure current).obeys
  | cons st ss ih =>
    exact obeys_turn (closed_steady.step current st) (closed_keepsFiles.step current st)
      (fun _ => ih _ _) (fun _ => stops_stepsFrom _ _ _ _)
      fun _ => closed_reports.stepsFrom reports_progress _ _ _ _

theorem obeys_filesFrom (format : InputFormat) (total done : Nat) (rows : List Row)
    (paths : List String) : Obeys (filesFrom format total done rows paths) := by
  induction paths generalizing done rows with
  | nil => exact (closed_steady.pure rows).obeys
  | cons path paths ih =>
    exact obeys_turn (closed_steady.readAs format path)
      (closed_keepsFiles.readAs format path) (fun _ => ih _ _)
      (fun _ => stops_filesFrom _ _ _ _ _)
      fun _ => closed_reports.filesFrom reports_progress _ _ _ _ _

theorem obeys_chunksFrom (keys : Rows.FuzzyKeys) (right : List Row) (total done : Nat)
    (out : List Row) (pieces : List (List Row)) :
    Obeys (chunksFrom keys right total done out pieces) := by
  induction pieces generalizing done out with
  | nil => exact (closed_steady.pure out).obeys
  | cons piece pieces ih =>
    exact closed_steady.check.bind_obeys closed_keepsFiles.check fun _ =>
      (ih _ _).of_report (stops_chunksFrom _ _ _ _ _ _)
        (closed_reports.chunksFrom reports_progress _ _ _ _ _ _)

theorem Obeys.then_pure {g : α → β} (h : Obeys r) (keeps : KeepsFiles r) :
    Obeys (r >>= fun a => pure (g a)) :=
  h.bind keeps (fun _ => (closed_steady.pure _).obeys) (fun _ => heeds_pure _)
    fun _ => closed_reports.pure _

theorem obeys_table (j : Job) : Obeys (table j) := by
  have keeps := closed_keepsFiles
  cases j with
  | execute ss =>
    exact (obeys_stepsFrom _ _ _ ss).then_pure (keeps.steps keepsFiles_progress ss)
  | writeResults ss path format =>
    exact (obeys_stepsFrom _ _ _ ss).bind (keeps.steps keepsFiles_progress ss)
      (fun rows => (closed_steady.leaveResults steady_writing path format rows).obeys)
      (fun _ => heeds_check (by rfl))
      fun rows => closed_reports.leaveResults reports_writing path format rows
  | createTable pattern format =>
    refine closed_steady.get.bind_obeys keeps.get fun s => ?_
    cases s.files.globFiles pattern with
    | error e => exact (closed_steady.throw _).obeys
    | ok paths =>
      exact (obeys_filesFrom _ _ _ _ _).then_pure (keeps.filesFrom keepsFiles_progress _ _ _ _ _)
  | fuzzyJoin left right leftOn rightOn threshold =>
    exact (closed_steady.load left).bind_obeys (keeps.load left) fun _ =>
      (closed_steady.load right).bind_obeys (keeps.load right) fun _ =>
        closed_steady.check.bind_obeys keeps.check fun _ =>
          (closed_steady.checkColumn _ _ _).bind_obeys (keeps.checkColumn _ _ _) fun _ =>
            (closed_steady.checkColumn _ _ _).bind_obeys (keeps.checkColumn _ _ _) fun _ =>
              (obeys_chunksFrom _ _ _ _ _ _).then_pure
                (keeps.chunksFrom keepsFiles_progress _ _ _ _ _ _)

theorem leaveResults_files (p : String) (format : FileFormat) (rows : List Row) (c : Conditions)
    (s : Session) : ((leaveResults p format rows).exec c s).2.files = s.files ∨
      ∃ content, ((leaveResults p format rows).exec c s).2.files =
        (s.files.write p content).1 := by
  have written {α β : Type} (g : FileSystem → FileSystem × Except StorageError α) (b : β) :
      ((writing g >>= fun _ => pure b).exec c s.looked).2.files = (g s.files).1 := by
    rw [exec_bind, exec_writing]
    cases (g s.looked.files).2 <;> rfl
  rw [leaveResults, exec_check_bind]
  split
  · exact .inl rfl
  · cases format with
    | csv =>
      refine .inr ⟨(Table.ofRows rows).toCsv, ?_⟩
      exact (written (·.writeCsv p (Table.ofRows rows)) _).trans FileSystem.writeCsv_fst
    | jsonl =>
      refine .inr ⟨(Table.ofRows rows).toJsonl, ?_⟩
      exact (written (·.writeJsonl p (Table.ofRows rows)) _).trans FileSystem.writeJsonl_fst

theorem table_file? (j : Job) (c : Conditions) (s : Session) {l : Location}
    (other : ∀ ss p format, j = .writeResults ss p format →
      ((table j).exec c s).2.files.locate p ≠ .ok l) :
    ((table j).exec c s).2.files.file? l = s.files.file? l := by
  by_cases quiet : ∀ ss p format, j ≠ .writeResults ss p format
  · rw [closed_keepsFiles.table_of_output keepsFiles_progress j quiet]
  obtain ⟨ss, p, format, rfl⟩ : ∃ ss p format, j = .writeResults ss p format := by
    simpa using quiet
  have other := other ss p format rfl
  have kept := closed_keepsFiles.steps keepsFiles_progress ss c s
  rw [table, writeResults_eq] at other ⊢
  rcases h : (steps ss).exec c s with ⟨e | rows, s'⟩ <;> rw [h] at kept
  · rw [exec_bind_of_error h, kept]
  · rw [exec_bind_of_ok h] at other ⊢
    rw [← kept]
    rcases leaveResults_files p format rows c s' with same | ⟨content, wrote⟩
    · rw [same]
    · rw [wrote] at other ⊢
      exact FileSystem.write_file? other

theorem Ended.messages {j : Job} {path : String} {out : Except JobError JobOutput × Session}
    (h : Ended j path c s out) : out.2.messages = ((table j).exec c s).2.messages := by
  cases h with
  | failed made => rw [made]
  | canceled made | unwritten made | written made => rw [made]; rfl

theorem Ended.files_of_canceled {j : Job} {path : String} {s' : Session}
    (h : Ended j path c s (.error .canceled, s')) :
    s'.files = ((table j).exec c s).2.files := by
  cases h with
  | failed made => rw [made]
  | canceled made => rw [made]; rfl

end TaskFlow.Run

namespace TaskFlow.Job

open Run

variable {j : Job} {path : String} {c : Conditions} {s s' : Session}
  {result : Except JobError JobOutput}

theorem canceled_with_report {n : Nat} {w : Nat → Bool} (early : s.messages.length < n)
    (late : n ≤ (j.run path (undisturbed w) s).2.messages.length)
    (ran : j.run path (canceledAt n w) s = (result, s')) :
    result = .error .canceled ∧ s'.files = s.files ∧
      s'.messages = (j.run path (undisturbed w) s).2.messages.take n := by
  have free := (job_ended j path (undisturbed w) s).messages
  have ended := ran ▸ job_ended j path (canceledAt n w) s
  rw [free] at late ⊢
  rcases obeys_table j n w s early with ⟨before, -⟩ | ⟨-, messages, files, errors⟩
  · exact absurd late (Nat.not_le.mpr before)
  have reached : n ≤ s'.messages.length := by
    rw [ended.messages, messages, List.length_take]
    omega
  cases ended with
  | failed made =>
    rw [made] at messages files errors
    exact ⟨congrArg _ (errors _ rfl), files, messages⟩
  | canceled made =>
    rw [made] at messages files
    exact ⟨rfl, files, messages⟩
  | unwritten made free => exact absurd reached (of_decide_eq_false free)
  | written made free => exact absurd reached (of_decide_eq_false free)

theorem canceled_from_start (raised : Raised c s) (ran : j.run path c s = (result, s')) :
    (∀ out, result ≠ .ok out) ∧ s'.messages = s.messages ∧ s'.files = s.files := by
  have ended := ran ▸ job_ended j path c s
  obtain ⟨messages, files, -⟩ := heeds_table j c s raised
  have seen : Raised c s' := raised.of_messages (ended.messages.trans messages)
  cases ended with
  | failed made =>
    rw [made] at messages files
    exact ⟨nofun, messages, files⟩
  | canceled made =>
    rw [made] at messages files
    exact ⟨nofun, messages, files⟩
  | unwritten made free =>
    exact absurd free (by rw [seen _ (Nat.le_refl _)]; decide)
  | written made free =>
    exact absurd free (by rw [seen _ (Nat.le_refl _)]; decide)

/-- A job that ends as canceled has written no file but perhaps the output of a script, and nothing
comes after the report that it was canceled with. -/
theorem cancellation_atomic (j : Job) (path : String) (w : Nat → Bool) (s : Session) :
    (∀ n result s', 1 ≤ n →
      s.messages.length + n ≤ (j.run path { writable := w } s).2.messages.length →
      j.run path { canceled := fun m => s.messages.length + n ≤ m.sent, writable := w } s =
        (result, s') →
      result = .error .canceled ∧ s'.files = s.files ∧
        s'.messages =
          (j.run path { writable := w } s).2.messages.take (s.messages.length + n)) ∧
    (∀ result s', j.run path { canceled := fun _ => true, writable := w } s = (result, s') →
      (∀ out, result ≠ .ok out) ∧ s'.messages = s.messages ∧ s'.files = s.files) ∧
    ∀ canceled s', j.run path { canceled, writable := w } s = (.error .canceled, s') →
      ((∀ ss p format, j ≠ .writeResults ss p format) → s'.files = s.files) ∧
        ∀ l, (∀ ss p format, j = .writeResults ss p format → s'.files.locate p ≠ .ok l) →
          s'.files.file? l = s.files.file? l := by
  refine ⟨fun n result s' some_ late ran => canceled_with_report (by omega) late ran,
    fun result s' ran => canceled_from_start (fun _ _ => rfl) ran, fun canceled s' ran => ?_⟩
  -- only a script with an output of its own writes before the artifact
  have files := (ran ▸ job_ended j path _ s : Ended ..).files_of_canceled
  rw [files]
  exact ⟨fun quiet => closed_keepsFiles.table_of_output keepsFiles_progress j quiet _ s,
    fun l other => table_file? j _ s other⟩

/-- A script of two steps whose rows go to a file of their own. -/
def exported : Job := .writeResults [.rows [.obj [], .obj []], .limit 1] "out.csv" .csv

/-- The script is stopped with its second report. If it is canceled when its output is written, the
artifact is not. -/
theorem exported_stops :
    2 ≤ (exported.run "a.jsonl" {} { files := {} }).2.messages.length ∧
    (exported.run "a.jsonl" { canceled := fun m => 2 ≤ m.sent } { files := {} }).1 =
      .error .canceled ∧
    (exported.run "a.jsonl" { canceled := fun m => 2 ≤ m.sent } { files := {} }).2.files = {} ∧
    (exported.run "a.jsonl" { canceled := fun m => 4 ≤ m.checks } { files := {} }).1 =
      .error .canceled ∧
    (exported.run "a.jsonl" { canceled := fun m => 4 ≤ m.checks } { files := {} }).2.files.file?
      ["work", "a.jsonl"] = none := by
  have reports : 2 ≤ (exported.run "a.jsonl" {} { files := {} }).2.messages.length := by
    decide +kernel
  have late : (exported.run "a.jsonl" { canceled := fun m => 4 ≤ m.checks } { files := {} }).1 =
      .error .canceled := by decide +kernel
  have elsewhere : (exported.run "a.jsonl" { canceled := fun m => 4 ≤ m.checks }
      { files := {} }).2.files.locate "out.csv" = .ok ["work", "out.csv"] := by decide +kernel
  obtain ⟨withReport, -, whenever⟩ :=
    cancellation_atomic exported "a.jsonl" (fun _ => true) { files := {} }
  obtain ⟨canceled, files, -⟩ := withReport 2 _ _ (by decide) reports rfl
  refine ⟨reports, canceled, files, late, ?_⟩
  rcases ran : exported.run "a.jsonl" { canceled := fun m => 4 ≤ m.checks } { files := {} } with
    ⟨result, s'⟩
  rw [ran] at late elsewhere
  obtain rfl : result = .error .canceled := late
  refine (whenever _ s' ran).2 _ fun ss p format same => ?_
  cases same
  rw [elsewhere]
  decide

end TaskFlow.Job
