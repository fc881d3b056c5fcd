import TaskFlow.Proofs.FileSystem.Basic
import TaskFlow.Proofs.Job.Tidy
import TaskFlow.Proofs.Table.Files
import TaskFlow.Proofs.Worker.Run

namespace TaskFlow

namespace Run

variable {α β : Type} {c : Conditions} {s s' : Session} {P Q : α → Prop} {R : β → Prop}

/-- A part of a run whose results, if there are any, have a property. -/
def Yields (r : Run α) (Q : α → Prop) : Prop :=
  ∀ c s a s', r.exec c s = (.ok a, s') → Q a

namespace Yields

theorem pure {a : α} (h : Q a) : Yields (pure a) Q := by
  intro c s b s' ran
  cases ran
  exact h

theorem throw (e : JobError) : Yields (throw e) Q := by
  intro c s a s' ran
  cases ran

theorem bind {r : Run α} {f : α → Run β} (h : Yields r Q) (next : ∀ a, Q a → Yields (f a) R) :
    Yields (r >>= f) R := by
  intro c s b s' ran
  obtain ⟨a, s₁, first, second⟩ := exec_bind_eq_ok ran
  exact next a (h c s a s₁ first) c s₁ b s' second

theorem after (r : Run α) {f : α → Run β} (next : ∀ a, Yields (f a) R) : Yields (r >>= f) R :=
  bind (Q := fun _ => True) (fun _ _ _ _ _ => trivial) fun a _ => next a

theorem reading (f : FileSystem → Except StorageError α) (h : ∀ fs a, f fs = .ok a → Q a) :
    Yields (reading f) Q := by
  intro c s a s' ran
  rw [exec_reading] at ran
  rcases read : f s.files with e | b <;> rw [read] at ran <;> cases ran
  exact h _ _ read

end Yields

abbrev TidyRows (rows : List Row) : Prop := Rows.Tidy Json.maxDepth rows

theorem tidy_step {current : List Row} {st : Step} (rows : TidyRows current)
    (tidy : st.Tidy Json.maxDepth) : Yields (step current st) TidyRows := by
  cases st with
  | rows rows => exact .pure tidy
  | readCsv path => exact .reading (·.readCsv path) fun _ _ => FileSystem.tidy_readCsv
  | readJsonl path => exact .reading (·.readJsonl path) fun _ _ => FileSystem.tidy_readJsonl
  | filter field equals => exact .pure (rows.filter field equals)
  | select fields => exact .pure (rows.select fields)
  | reduceByKey key value => exact .pure (Rows.tidy_reduceByKey key value current)
  | join path key =>
    exact .bind (.reading (·.readRows path) fun _ _ => FileSystem.tidy_readRows) fun right tidy =>
      .pure (Rows.tidy_joinByKey rows tidy key)
  | limit n => exact .pure (rows.of_subset (List.take_subset n current))
  | sleep ms => exact .after _ fun _ => .pure rows
  | fail message => exact .throw _
  | abort => exact .throw _

theorem tidy_stepsFrom (total done : Nat) {current : List Row} {ss : List Step}
    (rows : TidyRows current) (tidy : ∀ st ∈ ss, st.Tidy Json.maxDepth) :
    Yields (stepsFrom total done current ss) TidyRows := by
  induction ss generalizing done current with
  | nil => exact .pure rows
  | cons st ss ih =>
    obtain ⟨first, others⟩ := List.forall_mem_cons.mp tidy
    exact .after _ fun _ => .bind (tidy_step rows first) fun _ rows => .after _ fun _ =>
      ih _ rows others

theorem tidy_steps {ss : List Step} (tidy : ∀ st ∈ ss, st.Tidy Json.maxDepth) :
    Yields (steps ss) TidyRows := tidy_stepsFrom _ _ Rows.tidy_nil tidy

/-- The row that tells of a file is tidy if the number in it has a text. -/
theorem tidy_leaveResults (path : String) (format : FileFormat) {rows : List Row}
    (few : rows.length < UInt64.size) :
    Yields (leaveResults path format rows) Table.Tidy := by
  have count : (Number.int rows.length).Spelled := by
    simp only [Number.Spelled, UInt64.size] at few ⊢
    omega
  have told : (Table.ofRows [Json.ofFields [("path", .str path), ("format", .str format.name),
      ("rows", Json.ofNat rows.length)]]).Tidy := by
    refine Table.tidy_ofRows (List.forall_mem_singleton.mpr (Json.tidy_ofFields ?_))
    exact List.forall_mem_cons.mpr ⟨.str _, List.forall_mem_cons.mpr
      ⟨.str _, List.forall_mem_singleton.mpr (.num count)⟩⟩
  refine .after _ fun _ => ?_
  cases format with
  | csv => exact .after _ fun _ => .pure told
  | jsonl => exact .after _ fun _ => .pure told

theorem tidy_readAs (format : InputFormat) (path : String) :
    Yields (readAs format path) TidyRows := by
  cases format with
  | csv => exact .reading (·.readCsv path) fun _ _ => FileSystem.tidy_readCsv
  | jsonl => exact .reading (·.readJsonl path) fun _ _ => FileSystem.tidy_readJsonl
  | infer => exact .reading (·.readRows path) fun _ _ => FileSystem.tidy_readRows

theorem tidy_filesFrom (format : InputFormat) (total done : Nat) {rows : List Row}
    (paths : List String) (tidy : TidyRows rows) :
    Yields (filesFrom format total done rows paths) TidyRows := by
  induction paths generalizing done rows with
  | nil => exact .pure tidy
  | cons path paths ih =>
    exact .after _ fun _ => .bind (tidy_readAs format path) fun _ more => .after _ fun _ =>
      ih _ (Rows.tidy_append.mpr ⟨tidy, more⟩)

theorem tidy_createTable (pattern : String) (format : InputFormat) :
    Yields (createTable pattern format) Table.Tidy := by
  refine .after _ fun s => ?_
  cases s.files.globFiles pattern with
  | error e => exact .throw _
  | ok paths =>
    exact .bind (tidy_filesFrom format _ _ paths Rows.tidy_nil) fun _ rows =>
      .pure (Table.tidy_ofRows rows)

theorem tidy_load {source : DataSource} (tidy : source.Tidy Json.maxDepth) :
    Yields (load source) TidyRows := by
  cases source with
  | rows rows => exact .pure tidy
  | csv path => exact .reading (·.readCsv path) fun _ _ => FileSystem.tidy_readCsv
  | jsonl path => exact .reading (·.readJsonl path) fun _ _ => FileSystem.tidy_readJsonl

theorem tidy_chunks {rows : List Row} (fuel : Nat) (tidy : TidyRows rows) :
    ∀ piece ∈ chunks fuel rows, TidyRows piece := by
  induction fuel generalizing rows with
  | zero => exact List.forall_mem_nil _
  | succ fuel ih =>
    rw [chunks]
    split
    · exact List.forall_mem_nil _
    · exact List.forall_mem_cons.mpr ⟨tidy.of_subset (List.take_subset ..),
        ih (tidy.of_subset (List.drop_subset ..))⟩

theorem tidy_chunksFrom (keys : Rows.FuzzyKeys) {right : List Row} (total done : Nat)
    {out : List Row} {pieces : List (List Row)} (tidyRight : TidyRows right)
    (tidyOut : TidyRows out) (tidy : ∀ piece ∈ pieces, TidyRows piece) :
    Yields (chunksFrom keys right total done out pieces) TidyRows := by
  induction pieces generalizing done out with
  | nil => exact .pure tidyOut
  | cons piece pieces ih =>
    obtain ⟨first, others⟩ := List.forall_mem_cons.mp tidy
    have joined := Rows.tidy_fuzzyJoin keys first tidyRight
    exact .after _ fun _ => .after _ fun _ =>
      ih _ (Rows.tidy_append.mpr ⟨tidyOut, joined⟩) others

theorem tidy_fuzzyJoin {left right : DataSource} (keys : Rows.FuzzyKeys)
    (tidyLeft : left.Tidy Json.maxDepth) (tidyRight : right.Tidy Json.maxDepth) :
    Yields (fuzzyJoin left right keys) Table.Tidy := by
  refine .bind (tidy_load tidyLeft) fun left hl => .bind (tidy_load tidyRight) fun right hr => ?_
  refine .after _ fun _ => .after _ fun _ => .after _ fun _ => ?_
  exact .bind (tidy_chunksFrom keys _ _ hr Rows.tidy_nil (tidy_chunks _ hl)) fun _ rows =>
    .pure (Table.tidy_ofRows rows)

end Run

/-- The rows that a script writes to a file are few enough to be counted in 64 bits. -/
def Job.Countable : Job → Conditions → Session → Prop
  | .writeResults ss _ _, c, s =>
    ∀ rows s', (Run.steps ss).exec c s = (.ok rows, s') → rows.length < UInt64.size
  | _, _, _ => True

variable {j : Job} {path : String} {c : Conditions} {s s' : Session} {t : Table}

theorem Run.tidy_table (tidy : j.Tidy Json.maxDepth) (countable : j.Countable c s)
    (made : (table j).exec c s = (.ok t, s')) : t.Tidy := by
  cases j with
  | execute ss =>
    have yields : Yields (table (.execute ss)) Table.Tidy :=
      .bind (tidy_steps tidy) fun _ rows => .pure (Table.tidy_ofRows rows)
    exact yields c s t s' made
  | writeResults ss path format =>
    obtain ⟨rows, s₁, ran, left⟩ := exec_bind_eq_ok (r := steps ss) made
    exact tidy_leaveResults path format (countable rows s₁ ran) c s₁ t s' left
  | createTable pattern format => exact tidy_createTable pattern format c s t s' made
  | fuzzyJoin left right leftOn rightOn threshold =>
    exact tidy_fuzzyJoin _ tidy.1 tidy.2 c s t s' made

end TaskFlow
