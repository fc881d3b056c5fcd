import TaskFlow.Proofs.FileSystem.Glob
import TaskFlow.Proofs.Worker.Run

namespace TaskFlow

def InputFormat.rowsIn (format : InputFormat) (files : FileSystem) (path : String) :
    Except StorageError (List Row) :=
  match format with
  | .csv => files.readCsv path
  | .jsonl => files.readJsonl path
  | .infer => files.readRows path

namespace FileSystem

variable {fs : FileSystem} {path path' : String} {content content' : Text.Bytes}

theorem extension_of_components (same : components path' = components path) :
    extension path' = extension path := by
  rw [extension, extension, same]

/-- Two paths with the same steps read alike, but for the path that an error may tell. -/
theorem rowsIn_of_components (format : InputFormat) (h : fs.isFile path = true)
    (h' : fs.isFile path' = true) (same : components path' = components path) :
    (format.rowsIn fs path').toOption = (format.rowsIn fs path).toOption := by
  obtain ⟨content, found⟩ := isFile_iff.mp h
  obtain ⟨content', found'⟩ := isFile_iff.mp h'
  have read : fs.read path' = fs.read path := by
    rw [read_eq_ok.mpr found, read_eq_ok.mpr found', content_of_components found' found same]
  have csv : fs.readCsv path' = fs.readCsv path := by rw [readCsv, readCsv, read]
  have jsonl : fs.readJsonl path' = fs.readJsonl path := by rw [readJsonl, readJsonl, read]
  cases format with
  | csv => exact congrArg _ csv
  | jsonl => exact congrArg _ jsonl
  | infer =>
    change (fs.readRows path').toOption = (fs.readRows path).toOption
    rw [readRows, readRows, extension_of_components same, csv, jsonl]
    split
    · rfl
    · split <;> rfl

/-- Files that stand in the same order by the steps of their paths are read alike, one by one. -/
theorem readings_eq (format : InputFormat) {gathered files : List String}
    (here : ∀ path ∈ gathered, fs.isFile path = true)
    (there : ∀ path ∈ files, fs.isFile path = true)
    (steps : gathered.map components = files.map components) :
    gathered.map (fun path => (components path, (format.rowsIn fs path).toOption)) =
      files.map fun path => (components path, (format.rowsIn fs path).toOption) := by
  induction gathered generalizing files with
  | nil =>
    obtain rfl : files = [] := List.map_eq_nil_iff.mp steps.symm
    rfl
  | cons g gathered ih =>
    obtain ⟨f, files, rfl, first, rest⟩ := List.map_eq_cons_iff.mp steps.symm
    obtain ⟨fileG, here⟩ := List.forall_mem_cons.mp here
    obtain ⟨fileF, there⟩ := List.forall_mem_cons.mp there
    rw [List.map_cons, List.map_cons, ih here there rest.symm,
      rowsIn_of_components format fileF fileG first.symm, first]

theorem read_of_readings {format : InputFormat} {gathered files : List String}
    {records : String → List Row}
    (readings : gathered.map (fun path => (components path, (format.rowsIn fs path).toOption)) =
      files.map fun path => (components path, (format.rowsIn fs path).toOption))
    (ok : ∀ path ∈ files, format.rowsIn fs path = .ok (records path)) :
    gathered.map (fun path => (format.rowsIn fs path).toOption) =
      (files.map records).map some := by
  have second := congrArg (List.map Prod.snd) readings
  rw [List.map_map, List.map_map] at second
  rw [List.map_map]
  exact second.trans (List.map_congr_left fun path mem => toOption_eq_some.mpr (ok path mem))

end FileSystem

namespace Run

variable {c : Conditions} {s : Session} {pattern : String} {format : InputFormat}

def gathered (done total : Nat) : Message :=
  .progress (share done total)
    (some ("archivo " ++ toString done ++ "/" ++ toString total))

/-- The reports on a number of files that follow the first `done` of `total`. -/
def gatheredFrom (total done n : Nat) : List Message :=
  (List.range' done n).map fun i => gathered (i + 1) total

theorem exec_readAs (format : InputFormat) (path : String) :
    (readAs format path).exec c s = ((format.rowsIn s.files path).mapError .storage, s) := by
  cases format with
  | csv => exact exec_reading (·.readCsv path)
  | jsonl => exact exec_reading (·.readJsonl path)
  | infer => exact exec_reading (·.readRows path)

theorem exec_filesFrom_append (free : ∀ m, c.canceled m = false)
    (total done : Nat) (rows : List Row) {first : List String} (rest : List String)
    {records : List (List Row)}
    (read : first.map (fun path => (format.rowsIn s.files path).toOption) = records.map some) :
    ∃ s', (filesFrom format total done rows (first ++ rest)).exec c s =
        (filesFrom format total (done + first.length) (rows ++ records.flatten) rest).exec c s' ∧
      s.Tells c (gatheredFrom total done first.length) s' := by
  -- on the files that can be read; a report that gets lost leaves the files as they are, too
  induction first generalizing s done rows records with
  | nil =>
    obtain rfl : records = [] := List.map_eq_nil_iff.mp read.symm
    rw [List.flatten_nil, List.append_nil]
    exact ⟨s, rfl, .refl s⟩
  | cons path first ih =>
    obtain ⟨r, records, rfl, here, later⟩ := List.map_eq_cons_iff.mp read.symm
    have here : (readAs format path).exec c s.looked = (.ok r, s.looked) := by
      rw [exec_readAs]
      exact congrArg (fun x => (Except.mapError _ x, _)) (toOption_eq_some.mp here.symm)
    have files : (if c.writable (s.looked.attempts + 1) then
        s.looked.reported (gathered (done + 1) total) else s.looked.unreported).files =
        s.files := by split <;> rfl
    obtain ⟨s', gone, told⟩ := ih (done + 1) (rows ++ r) (by rw [files, later])
    refine ⟨s', ?_, .after_look (.cons told)⟩
    have count : done + (path :: first).length = done + 1 + first.length := by
      rw [List.length_cons]
      omega
    have all : rows ++ (r :: records).flatten = rows ++ r ++ records.flatten := by
      rw [List.flatten_cons, List.append_assoc]
    rw [count, all, ← gone, List.cons_append, filesFrom, exec_check_bind, if_neg (by simp [free]),
      exec_bind_of_ok here]
    exact exec_bind_of_ok (exec_progress ..)

theorem exec_createTable (free : ∀ m, c.canceled m = false) {paths : List String}
    {records : List (List Row)} (matched : s.files.globFiles pattern = .ok paths)
    (read : paths.map (fun path => (format.rowsIn s.files path).toOption) = records.map some) :
    ∃ s', (createTable pattern format).exec c s = (.ok (Table.ofRows records.flatten), s') ∧
      s.Tells c (gatheredFrom paths.length 0 paths.length) s' := by
  obtain ⟨s', gone, told⟩ := exec_filesFrom_append free paths.length 0 [] [] read
  rw [List.append_nil, List.nil_append] at gone
  refine ⟨s', ?_, told⟩
  rw [createTable_eq, exec_bind_of_ok exec_get, matched]
  exact exec_bind_of_ok gone

theorem run_createTable_of_error (free : ∀ m, c.canceled m = false) {first rest : List String}
    {bad : String} {records : List (List Row)} {e : StorageError}
    (matched : s.files.globFiles pattern = .ok (first ++ bad :: rest))
    (read : first.map (fun path => (format.rowsIn s.files path).toOption) = records.map some)
    (failed : format.rowsIn s.files bad = .error e) (artifact : String) :
    ∃ s', (Job.createTable pattern format).run artifact c s = (.error (.storage e), s') ∧
      s.Tells c (gatheredFrom (first ++ bad :: rest).length 0 first.length) s' := by
  obtain ⟨s', gone, told⟩ := exec_filesFrom_append free (first ++ bad :: rest).length 0 []
    (bad :: rest) read
  have stopped : (readAs format bad).exec c s'.looked = (.error (.storage e), s'.looked) := by
    rw [exec_readAs]
    change ((format.rowsIn s'.files bad).mapError _, s'.looked) = _
    rw [told.files, failed]
    rfl
  rw [filesFrom, exec_check_bind, if_neg (by simp [free]), exec_bind_of_error stopped] at gone
  refine ⟨s'.looked, ?_, told.files, told.attempts, told.messages⟩
  refine exec_bind_of_error (r := createTable pattern format) ?_
  rw [createTable_eq, exec_bind_of_ok exec_get, matched]
  exact exec_bind_of_error gone

theorem gatheredFrom_zero (total n : Nat) :
    gatheredFrom total 0 n = (List.range n).map fun i => gathered (i + 1) total := by
  rw [gatheredFrom, List.range_eq_range']

/-- A table out of files holds their rows in the order of their paths, as often as the pattern has
found each. -/
theorem files_gathered (format : InputFormat) {listed : FileSystem} {found files : List String}
    (matched : listed.glob pattern = .ok found) (same : listed.Rearranged s.files)
    (each : files.Perm (found.filter s.files.isFile))
    (sorted : files.Pairwise fun a b => (FileSystem.comparePaths a b).isLE) (artifact : String) :
    let reports n := (List.range n).map fun i => gathered (i + 1) files.length
    (∀ records : String → List Row,
      (∀ path ∈ files, format.rowsIn s.files path = .ok (records path)) →
      ∃ s', (createTable pattern format).exec {} s =
          (.ok (Table.ofRows (files.flatMap records)), s') ∧
        s'.files = s.files ∧ s'.messages = s.messages ++ reports files.length) ∧
    ∀ before bad after, files = before ++ bad :: after →
      (∀ path ∈ before, ∃ rows, format.rowsIn s.files path = .ok rows) →
      (∀ rows, format.rowsIn s.files bad ≠ .ok rows) →
      ∃ path ∈ files, FileSystem.components path = FileSystem.components bad ∧
        ∃ e s', format.rowsIn s.files path = .error e ∧
          (Job.createTable pattern format).run artifact {} s = (.error (.storage e), s') ∧
          s'.files = s.files ∧ s'.messages = s.messages ++ reports before.length := by
  -- folders may list their names in another order, which changes the order of what is found only
  obtain ⟨found', matched', again⟩ := same.glob matched
  have each' : files.Perm (found'.filter s.files.isFile) := each.trans (again.symm.filter _)
  obtain ⟨sortedPaths, gathers, gatheredPerm, steps⟩ :=
    FileSystem.globFiles_sorted matched' each' sorted
  have known : ∀ path ∈ files, s.files.isFile path = true := fun path mem =>
    (List.mem_filter.mp (each'.mem_iff.mp mem)).2
  -- files that compare equal have the same steps, and so the same rows
  have read := FileSystem.readings_eq format
    (fun path mem => known path (gatheredPerm.mem_iff.mp mem)) known steps
  have length : sortedPaths.length = files.length := gatheredPerm.length_eq
  refine ⟨fun records ok => ?_, fun before bad after split ok failed => ?_⟩
  · obtain ⟨s', made, told⟩ := exec_createTable (c := {}) (fun _ => rfl) gathers
      (FileSystem.read_of_readings read ok)
    refine ⟨s', ?_, told.files, ?_⟩
    · rw [made, List.flatMap_def]
    · rw [told.messages, Conditions.written_eq_self (fun _ => rfl), length, gatheredFrom_zero]
  · subst split
    rw [List.map_append, List.map_cons] at read
    -- the sorted paths are cut where the file is that cannot be read
    obtain ⟨first, rest, rfl, readFirst, read⟩ := List.map_eq_append_iff.mp read
    obtain ⟨g, rest, rfl, readBad, -⟩ := List.map_eq_cons_iff.mp read
    obtain ⟨step, readBad⟩ := Prod.ext_iff.mp readBad
    dsimp only at step readBad
    have unread : (format.rowsIn s.files bad).toOption = none :=
      Option.eq_none_iff_forall_ne_some.mpr fun rows h => failed rows (toOption_eq_some.mp h)
    obtain ⟨e, failed⟩ := toOption_eq_none.mp (readBad.trans unread)
    choose! records ok using ok
    have count : first.length = before.length := by
      have := congrArg List.length readFirst
      simpa using this
    obtain ⟨s', ended, told⟩ := run_createTable_of_error (c := {}) (fun _ => rfl) gathers
      (FileSystem.read_of_readings readFirst ok) failed artifact
    refine ⟨g, gatheredPerm.mem_iff.mp (by simp), step, e, s', failed, ended, told.files, ?_⟩
    rw [told.messages, Conditions.written_eq_self (fun _ => rfl), length, count, gatheredFrom_zero]

def shelf : FileSystem where
  entries := [(["data", "c.txt"], .file (Text.utf8 "3")),
    (["data", "b.csv"], .file (Text.utf8 "k\n2\n")),
    (["data", "a.csv"], .file (Text.utf8 "k\n1\n")), (["data"], .folder)]

def shelfReversed : FileSystem where
  entries := shelf.entries.reverse

def sheetRow (cell : String) : Row := Json.ofFields [("k", .str cell)]

theorem shelf_gathered :
    (∃ s', (createTable "/data/*.csv" .csv).exec {} { files := shelfReversed } =
        (.ok (Table.ofRows [sheetRow "1", sheetRow "2"]), s') ∧
      s'.messages = [gathered 1 2, gathered 2 2]) ∧
    ∃ s', (Job.createTable "../data/*" .infer).run "out/t.jsonl" {} { files := shelfReversed } =
        (.error (.storage (.unknownFormat "txt" "../data/c.txt")), s') ∧
      s'.files = shelfReversed ∧ s'.messages = [gathered 1 3, gathered 2 3] := by
  have same : shelf.Rearranged shelfReversed :=
    .of_perm (by decide) (List.reverse_perm shelf.entries) rfl
  have sheets : shelf.glob "/data/*.csv" = .ok ["/data/b.csv", "/data/a.csv"] := by decide +kernel
  have all : shelf.glob "../data/*" =
      .ok ["../data/c.txt", "../data/b.csv", "../data/a.csv"] := by decide +kernel
  have sheetsSorted : ["/data/a.csv", "/data/b.csv"].Pairwise
      fun a b => (FileSystem.comparePaths a b).isLE := by decide +kernel
  have allSorted : ["../data/a.csv", "../data/b.csv", "../data/c.txt"].Pairwise
      fun a b => (FileSystem.comparePaths a b).isLE := by decide +kernel
  constructor
  · obtain ⟨s', made, -, told⟩ := (files_gathered (s := { files := shelfReversed }) .csv sheets same
      (by decide +kernel) sheetsSorted "out/t.jsonl").1
      (fun path => [sheetRow (if path = "/data/a.csv" then "1" else "2")])
      (by simp only [List.forall_mem_cons]; exact ⟨by rfl, by rfl, nofun⟩)
    exact ⟨s', made, told⟩
  · obtain ⟨path, mem, step, e, s', failed, ended, files, told⟩ :=
      (files_gathered (s := { files := shelfReversed }) .infer all same (by decide +kernel)
        allSorted "out/t.jsonl").2
        ["../data/a.csv", "../data/b.csv"] "../data/c.txt" [] rfl
        (by simp only [List.forall_mem_cons]; exact ⟨⟨_, by rfl⟩, ⟨_, by rfl⟩, nofun⟩)
        (fun rows h => by cases h)
    have only : path = "../data/c.txt" := by
      simp only [List.mem_cons, List.not_mem_nil, or_false] at mem
      obtain rfl | rfl | rfl := mem
      · exact absurd step (by decide +kernel)
      · exact absurd step (by decide +kernel)
      · rfl
    subst only
    have unknown : InputFormat.infer.rowsIn shelfReversed "../data/c.txt" =
        .error (.unknownFormat "txt" "../data/c.txt") := by rfl
    obtain rfl := Except.error.inj (failed.symm.trans unknown)
    exact ⟨s', ended, files, told⟩

def nested : FileSystem where
  entries := [(["work", "a"], .folder), (["work", "a", "a"], .folder),
    (["work", "a", "a", "b.csv"], .file (Text.utf8 "k\n1\n"))]

/-- A pattern may find one file twice, and then its records are in the table twice. -/
theorem found_twice_gathered_twice :
    nested.files = [(["work", "a", "a", "b.csv"], Text.utf8 "k\n1\n")] ∧
    nested.readCsv "a/a/b.csv" = .ok [sheetRow "1"] ∧
    ∃ s', (createTable "**/a/**/b.csv" .csv).exec {} { files := nested } =
        (.ok (Table.ofRows [sheetRow "1", sheetRow "1"]), s') ∧
      s'.messages = [gathered 1 2, gathered 2 2] := by
  have read : nested.readCsv "a/a/b.csv" = .ok [sheetRow "1"] := by rfl
  have matched : nested.glob "**/a/**/b.csv" = .ok (List.replicate 2 "a/a/b.csv") := by
    decide +kernel
  have sorted : (List.replicate 2 "a/a/b.csv").Pairwise
      fun a b => (FileSystem.comparePaths a b).isLE := by decide +kernel
  obtain ⟨gathers, paths, same, -⟩ :=
    FileSystem.globFiles_sorted matched (by decide +kernel) sorted
  obtain rfl := List.perm_replicate.mp same
  have rows : ["a/a/b.csv", "a/a/b.csv"].map (fun path =>
      (InputFormat.csv.rowsIn nested path).toOption) =
        [[sheetRow "1"], [sheetRow "1"]].map some := by
    change [(nested.readCsv "a/a/b.csv").toOption, (nested.readCsv "a/a/b.csv").toOption] = _
    rw [read]
    rfl
  obtain ⟨s', made, told⟩ := exec_createTable (c := {}) (s := { files := nested }) (fun _ => rfl)
    paths rows
  refine ⟨rfl, read, s', made, ?_⟩
  rw [told.messages, Conditions.written_eq_self fun _ => rfl]
  rfl

end Run

end TaskFlow
