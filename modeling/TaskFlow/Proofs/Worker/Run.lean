import TaskFlow.Worker.Run

namespace TaskFlow

def Session.looked (s : Session) : Session := { s with checks := s.checks + 1 }

def Session.reported (s : Session) (m : Message) : Session :=
  { s with attempts := s.attempts + 1, messages := s.messages ++ [m] }

def Session.unreported (s : Session) : Session := { s with attempts := s.attempts + 1 }

def Message.IsProgress : Message → Prop
  | .progress .. => True
  | _ => False

theorem Message.IsProgress.not_terminal {m : Message} (h : m.IsProgress) :
    m.isTerminal = false := by
  cases m with
  | progress => rfl
  | started | completed | failed => exact h.elim

namespace Run

variable {α β : Type} {c : Conditions} {s : Session}

/-- The result of a part of a run, and the state it leaves. -/
def exec (r : Run α) (c : Conditions) (s : Session) : Except JobError α × Session :=
  ((r.run c).run).run s

theorem exec_get : (get : Run Session).exec c s = (.ok s, s) := rfl

theorem exec_modify (f : Session → Session) :
    (modify f : Run Unit).exec c s = (.ok (), f s) := rfl

theorem exec_bind (r : Run α) (f : α → Run β) : (r >>= f).exec c s =
    match r.exec c s with
    | (.ok a, s') => (f a).exec c s'
    | (.error e, s') => (.error e, s') := by
  rw [exec, ReaderT.run_bind, ExceptT.run_bind, StateT.run_bind]
  change ((r.exec c s) >>= _ : Id _) = _
  rcases r.exec c s with ⟨_ | a, s'⟩ <;> rfl

theorem exec_bind_of_ok {r : Run α} {f : α → Run β} {a : α} {s' : Session}
    (h : r.exec c s = (.ok a, s')) : (r >>= f).exec c s = (f a).exec c s' := by
  rw [exec_bind, h]

theorem exec_bind_of_error {r : Run α} {f : α → Run β} {e : JobError} {s' : Session}
    (h : r.exec c s = (.error e, s')) : (r >>= f).exec c s = (.error e, s') := by
  rw [exec_bind, h]

theorem exec_bind_eq_ok {r : Run α} {f : α → Run β} {b : β} {s' : Session}
    (h : (r >>= f).exec c s = (.ok b, s')) :
    ∃ a s₁, r.exec c s = (.ok a, s₁) ∧ (f a).exec c s₁ = (.ok b, s') := by
  rw [exec_bind] at h
  rcases first : r.exec c s with ⟨_ | a, s₁⟩ <;> rw [first] at h
  · cases h
  · exact ⟨a, s₁, rfl, h⟩

theorem exec_check : check.exec c s =
    (if c.canceled s.looked.moment then .error .canceled else .ok (), s.looked) := by
  change (if c.canceled s.looked.moment then throw .canceled else pure () : Run Unit).exec c
    s.looked = _
  split <;> rfl

theorem exec_check_bind (f : Unit → Run α) : (check >>= f).exec c s =
    if c.canceled s.looked.moment then (.error .canceled, s.looked)
    else (f ()).exec c s.looked := by
  rw [exec_bind, exec_check]
  cases c.canceled s.looked.moment <;> rfl

theorem exec_progress (fraction : Single) (message : String) :
    (progress fraction message).exec c s = (.ok (), if c.writable (s.attempts + 1)
      then s.reported (.progress fraction (some message)) else s.unreported) := rfl

theorem exec_reading (f : FileSystem → Except StorageError α) :
    (reading f).exec c s = ((f s.files).mapError .storage, s) := by
  rw [reading, exec_bind, exec_get]
  dsimp only
  cases f s.files <;> rfl

theorem exec_writing (f : FileSystem → FileSystem × Except StorageError α) :
    (writing f).exec c s =
      ((f s.files).2.mapError .storage, { s with files := (f s.files).1 }) := by
  rw [writing, exec_bind, exec_get]
  dsimp only
  rw [exec_bind, exec_modify]
  dsimp only
  cases (f s.files).2 <;> rfl

/-- What becomes of the rows of a script that are written to a file. -/
def leaveResults (path : String) (format : FileFormat) (rows : List Row) : Run Table := do
  let table := Table.ofRows rows
  check
  match format with
  | .csv => writing (·.writeCsv path table)
  | .jsonl => let _ ← writing (·.writeJsonl path table)
  return Table.ofRows [Json.ofFields [("path", .str path), ("format", .str format.name),
    ("rows", Json.ofNat table.length)]]

theorem writeResults_eq (ss : List Step) (path : String) (format : FileFormat) :
    writeResults ss path format = steps ss >>= leaveResults path format := rfl

def gather (pattern : String) (format : InputFormat) :
    Except Glob.PatternError (List String) → Run Table
  | .error e =>
    throw (.application ("patrón input_glob inválido " ++ pattern ++ ": " ++ e.text))
  | .ok paths => do return Table.ofRows (← filesFrom format paths.length 0 [] paths)

theorem createTable_eq (pattern : String) (format : InputFormat) : createTable pattern format =
    (get : Run Session) >>= fun s => gather pattern format (s.files.globFiles pattern) := by
  refine congrArg (bind (get : Run Session)) (funext fun s => ?_)
  cases s.files.globFiles pattern <;> rfl

/-- Kept where one part of a run follows another; a part that only uses files and time has it if it
has it for all files and times. -/
structure Compositional (P : ∀ {α : Type}, Run α → Prop) : Prop where
  pure : ∀ {α : Type} (a : α), P (pure a : Run α)
  throw : ∀ {α : Type} (e : JobError), P (throw e : Run α)
  bind : ∀ {α β : Type} {r : Run α} {f : α → Run β}, P r → (∀ a, P (f a)) → P (r >>= f)
  sense : ∀ {α : Type} (f : FileSystem → Nat → Run α), (∀ files now, P (f files now)) →
    P ((get : Run Session) >>= fun s => f s.files s.elapsed)
  pass : ∀ now, P (modify fun s => { s with elapsed := now } : Run Unit)
  check : P check

/-- A property of parts of a run that is kept where one part follows another, and that looking
around and the passing of time have. -/
structure Closed (P : ∀ {α : Type}, Run α → Prop) : Prop extends Compositional P where
  get : P (get : Run Session)
  sense := fun _ h => bind get fun s => h s.files s.elapsed

theorem closed_of_preorder {R : Session → Session → Prop} (refl : ∀ s, R s s)
    (trans : ∀ {s₁ s₂ s₃}, R s₁ s₂ → R s₂ s₃ → R s₁ s₃)
    (pass : ∀ s now, R s { s with elapsed := now }) (look : ∀ s, R s s.looked) :
    Closed fun r => ∀ c s, R s (r.exec c s).2 where
  pure _ _ s := refl s
  throw _ _ s := refl s
  bind {_ _ r f} first next c s := by
    have moved := first c s
    rcases h : r.exec c s with ⟨e | a, s'⟩ <;> rw [h] at moved
    · rw [exec_bind_of_error h]
      exact moved
    · rw [exec_bind_of_ok h]
      exact trans moved (next a c s')
  get _ s := refl s
  pass now _ s := pass s now
  check c s := by
    rw [exec_check]
    exact look s

namespace Compositional

variable {P : ∀ {α : Type}, Run α → Prop} (h : Compositional P)

include h

theorem reading (f : FileSystem → Except StorageError α) : P (reading f) := by
  have lifted : Run.reading f = (get : Run Session) >>= fun s =>
      MonadExcept.ofExcept ((f s.files).mapError .storage) :=
    bind_congr fun s => by cases f s.files <;> rfl
  rw [lifted]
  refine h.sense (fun files _ => MonadExcept.ofExcept ((f files).mapError .storage)) fun files _ => ?_
  cases f files with
  | ok a => exact h.pure a
  | error e => exact h.throw _

theorem sleepUntil (deadline slices : Nat) : P (sleepUntil deadline slices) := by
  induction slices with
  | zero => exact h.check
  | succ slices ih =>
    refine h.bind h.check fun _ => h.sense (fun _ now => if now < deadline then do
      modify fun s => { s with elapsed := now + min sleepSlice (deadline - now) }
      Run.sleepUntil deadline slices else Pure.pure ()) fun _ now => ?_
    split
    · exact h.bind (h.pass _) fun _ => ih
    · exact h.pure ()

theorem sleep (milliseconds : Nat) : P (sleep milliseconds) :=
  h.sense (fun _ now => Run.sleepUntil (now + milliseconds) _) fun _ _ => h.sleepUntil _ _

theorem step (current : List Row) (st : Step) : P (step current st) := by
  cases st with
  | rows rows => exact h.pure _
  | readCsv path => exact h.reading (·.readCsv path)
  | readJsonl path => exact h.reading (·.readJsonl path)
  | filter field equals => exact h.pure _
  | select fields => exact h.pure _
  | reduceByKey key value => exact h.pure _
  | join path key => exact h.bind (h.reading (·.readRows path)) fun _ => h.pure _
  | limit n => exact h.pure _
  | sleep ms => exact h.bind (h.sleep ms) fun _ => h.pure _
  | fail message => exact h.throw _
  | abort => exact h.throw _

theorem readAs (format : InputFormat) (path : String) : P (readAs format path) := by
  cases format with
  | csv => exact h.reading (·.readCsv path)
  | jsonl => exact h.reading (·.readJsonl path)
  | infer => exact h.reading (·.readRows path)

theorem load (source : DataSource) : P (load source) := by
  cases source with
  | rows rows => exact h.pure rows
  | csv path => exact h.reading (·.readCsv path)
  | jsonl path => exact h.reading (·.readJsonl path)

theorem checkColumn (column side : String) (rows : List Row) : P (checkColumn column side rows) := by
  unfold Run.checkColumn
  split
  · exact h.throw _
  · exact h.pure _

theorem leaveResults
    (writes : ∀ {α : Type} (f : FileSystem → FileSystem × Except StorageError α), P (writing f))
    (path : String) (format : FileFormat) (rows : List Row) :
    P (leaveResults path format rows) := by
  refine h.bind h.check fun _ => ?_
  cases format with
  | csv => exact h.bind (writes (·.writeCsv path (Table.ofRows rows))) fun _ => h.pure _
  | jsonl => exact h.bind (writes (·.writeJsonl path (Table.ofRows rows))) fun _ => h.pure _

section Progress

variable (reports : ∀ fraction message, P (progress fraction message))

include reports

theorem stepsFrom (total done : Nat) (current : List Row) (ss : List Step) :
    P (stepsFrom total done current ss) := by
  induction ss generalizing done current with
  | nil => exact h.pure current
  | cons st ss ih =>
    exact h.bind h.check fun _ => h.bind (h.step current st) fun _ =>
      h.bind (reports _ _) fun _ => ih _ _

theorem filesFrom (format : InputFormat) (total done : Nat) (rows : List Row)
    (paths : List String) : P (filesFrom format total done rows paths) := by
  induction paths generalizing done rows with
  | nil => exact h.pure rows
  | cons path paths ih =>
    exact h.bind h.check fun _ => h.bind (h.readAs format path) fun _ =>
      h.bind (reports _ _) fun _ => ih _ _

theorem createTable (pattern : String) (format : InputFormat) : P (createTable pattern format) := by
  rw [createTable_eq]
  refine h.sense (fun files _ => gather pattern format (files.globFiles pattern)) fun files _ => ?_
  cases files.globFiles pattern with
  | error e => exact h.throw _
  | ok paths => exact h.bind (h.filesFrom reports _ _ _ _ _) fun _ => h.pure _

theorem chunksFrom (keys : Rows.FuzzyKeys) (right : List Row) (total done : Nat) (out : List Row)
    (pieces : List (List Row)) : P (chunksFrom keys right total done out pieces) := by
  induction pieces generalizing done out with
  | nil => exact h.pure out
  | cons piece pieces ih =>
    exact h.bind h.check fun _ => h.bind (reports _ _) fun _ => ih _ _

theorem fuzzyJoin (left right : DataSource) (keys : Rows.FuzzyKeys) :
    P (fuzzyJoin left right keys) :=
  h.bind (h.load left) fun _ => h.bind (h.load right) fun _ => h.bind h.check fun _ =>
    h.bind (h.checkColumn _ _ _) fun _ => h.bind (h.checkColumn _ _ _) fun _ =>
      h.bind (h.chunksFrom reports _ _ _ _ _ _) fun _ => h.pure _

theorem steps (ss : List Step) : P (steps ss) := h.stepsFrom reports _ _ _ ss

theorem table_of_output (j : Job) (quiet : ∀ ss path format, j ≠ .writeResults ss path format) :
    P (table j) := by
  cases j with
  | execute ss => exact h.bind (h.steps reports ss) fun _ => h.pure _
  | writeResults ss path format => exact absurd rfl (quiet ss path format)
  | createTable pattern format => exact h.createTable reports pattern format
  | fuzzyJoin left right leftOn rightOn threshold => exact h.fuzzyJoin reports left right _

section Writing

variable (writes : ∀ {α : Type} (f : FileSystem → FileSystem × Except StorageError α),
  P (writing f))

include writes

theorem table (j : Job) : P (table j) := by
  cases j with
  | writeResults ss path format =>
    exact h.bind (h.steps reports ss) fun rows => h.leaveResults writes path format rows
  | execute | createTable | fuzzyJoin => exact h.table_of_output reports _ (by simp)

theorem job (j : Job) (path : String) : P (job j path) :=
  h.bind (h.table reports writes j) fun t => h.bind h.check fun _ =>
    h.bind (writes (·.writeJsonl path t)) fun _ => h.pure _

end Writing

end Progress

end Compositional

/-- The ways in which a job can end: without a table, canceled before the artifact, without the
artifact, or with it. -/
inductive Ended (j : Job) (path : String) (c : Conditions) (s : Session) :
    Except JobError JobOutput × Session → Prop
  | failed {e : JobError} {s' : Session} (failed : (table j).exec c s = (.error e, s')) :
    Ended j path c s (.error e, s')
  | canceled {t : Table} {s' : Session} (made : (table j).exec c s = (.ok t, s'))
    (seen : c.canceled s'.looked.moment = true) : Ended j path c s (.error .canceled, s'.looked)
  | unwritten {t : Table} {s' : Session} {files : FileSystem} {e : StorageError}
    (made : (table j).exec c s = (.ok t, s')) (free : c.canceled s'.looked.moment = false)
    (failed : s'.files.writeJsonl path t = (files, .error e)) :
    Ended j path c s (.error (.storage e), { s'.looked with files })
  | written {t : Table} {s' : Session} {files : FileSystem} {bytes : Nat}
    (made : (table j).exec c s = (.ok t, s')) (free : c.canceled s'.looked.moment = false)
    (wrote : s'.files.writeJsonl path t = (files, .ok bytes)) :
    Ended j path c s (.ok ⟨t.length, bytes⟩, { s'.looked with files })

theorem job_ended (j : Job) (path : String) (c : Conditions) (s : Session) :
    Ended j path c s (j.run path c s) := by
  change Ended j path c s ((job j path).exec c s)
  rcases made : (table j).exec c s with ⟨e | t, s'⟩
  · have ended : (job j path).exec c s = (.error e, s') := exec_bind_of_error made
    rw [ended]
    exact .failed made
  · have ended : (job j path).exec c s = _ := exec_bind_of_ok made
    rw [ended, exec_check_bind]
    split
    · next seen => exact .canceled made seen
    · next seen =>
      have free := Bool.eq_false_iff.mpr seen
      rw [exec_bind, exec_writing]
      rcases wrote : s'.looked.files.writeJsonl path t with ⟨files, e | bytes⟩
      · exact .unwritten made free wrote
      · exact .written made free wrote

/-- A part of a run that writes reports of progress only. -/
def Reports {α : Type} (r : Run α) : Prop := ∀ c s, ∃ ms : List Message,
  (∀ m ∈ ms, m.IsProgress) ∧ (r.exec c s).2.messages = s.messages ++ ms

theorem closed_reports : Closed Reports := by
  have still {s s' : Session} (same : s'.messages = s.messages) : ∃ ms : List Message,
      (∀ m ∈ ms, m.IsProgress) ∧ s'.messages = s.messages ++ ms :=
    ⟨[], List.forall_mem_nil _, by rw [same, List.append_nil]⟩
  refine closed_of_preorder (R := fun s s' => ∃ ms : List Message, (∀ m ∈ ms, m.IsProgress) ∧
    s'.messages = s.messages ++ ms) (fun _ => still rfl) ?_ (fun _ _ => still rfl) fun _ => still rfl
  rintro s₁ s₂ s₃ ⟨ms, progress, messages⟩ ⟨more, progress', messages'⟩
  refine ⟨ms ++ more, List.forall_mem_append.mpr ⟨progress, progress'⟩, ?_⟩
  rw [messages', messages, List.append_assoc]

theorem reports_progress (fraction : Single) (message : String) :
    Reports (progress fraction message) := by
  intro c s
  rw [exec_progress]
  split
  · exact ⟨[.progress fraction (some message)], List.forall_mem_singleton.mpr trivial, rfl⟩
  · exact ⟨[], List.forall_mem_nil _, (List.append_nil _).symm⟩

theorem reports_writing {α : Type} (f : FileSystem → FileSystem × Except StorageError α) :
    Reports (writing f) := fun c s =>
  ⟨[], List.forall_mem_nil _, by rw [exec_writing, List.append_nil]⟩

theorem reports_job (j : Job) (path : String) : Reports (job j path) :=
  closed_reports.job reports_progress reports_writing j path

end Run

/-- The reports of a row of attempts that can be written, given the number of attempts before. -/
def Conditions.written (c : Conditions) : Nat → List Message → List Message
  | _, [] => []
  | n, m :: ms => (if c.writable (n + 1) then [m] else []) ++ c.written (n + 1) ms

theorem Conditions.written_eq_self {c : Conditions} (h : ∀ n, c.writable n = true) (n : Nat)
    (ms : List Message) : c.written n ms = ms := by
  induction ms generalizing n with
  | nil => rfl
  | cons m ms ih => rw [written, if_pos (h _), ih, List.singleton_append]

/-- A part of a run that only tries to report certain messages, one after another. -/
structure Session.Tells (c : Conditions) (s : Session) (ms : List Message) (s' : Session) :
    Prop where
  files : s'.files = s.files
  attempts : s'.attempts = s.attempts + ms.length
  messages : s'.messages = s.messages ++ c.written s.attempts ms

namespace Session.Tells

variable {c : Conditions} {s s' : Session} {m : Message} {ms : List Message}

theorem refl (s : Session) : Tells c s [] s := ⟨rfl, rfl, (List.append_nil _).symm⟩

theorem after_look (h : Tells c s.looked ms s') : Tells c s ms s' :=
  ⟨h.files, h.attempts, h.messages⟩

theorem cons
    (h : Tells c (if c.writable (s.attempts + 1) then s.reported m else s.unreported) ms s') :
    Tells c s (m :: ms) s' := by
  obtain ⟨files, attempts, messages⟩ := h
  cases w : c.writable (s.attempts + 1) <;> rw [w] at files attempts messages
  · exact ⟨files, attempts.trans (by simp [unreported]; omega),
      messages.trans (by simp [unreported, Conditions.written, w])⟩
  · exact ⟨files, attempts.trans (by simp [reported]; omega),
      messages.trans (by simp [reported, Conditions.written, w])⟩

end Session.Tells

end TaskFlow
