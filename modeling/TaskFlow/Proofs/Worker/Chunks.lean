import Mathlib.Algebra.Order.Floor.Div
import TaskFlow.Client.Run
import TaskFlow.Proofs.Json.Fits
import TaskFlow.Proofs.Rows.FuzzyJoin
import TaskFlow.Proofs.Worker.Run

namespace TaskFlow

variable {c : Conditions} {s s' : Session}

def DataSource.rowsIn (files : FileSystem) : DataSource → Except StorageError (List Row)
  | .rows rs => .ok rs
  | .csv path => files.readCsv path
  | .jsonl path => files.readJsonl path

theorem Rows.fuzzyJoin_append (keys : FuzzyKeys) (left left' right : List Row) :
    fuzzyJoin keys (left ++ left') right =
      fuzzyJoin keys left right ++ fuzzyJoin keys left' right := by
  simp only [fuzzyJoin, keyed, List.filterMap_append, List.flatMap_append]

namespace Run

variable {keys : Rows.FuzzyKeys} {left right : List Row} {total : Nat}

section Cutting

variable {α : Type} {x : α} {xs : List α} {n : Nat}

theorem chunks_cons : chunks (n + 1) (x :: xs) =
    (x :: xs).take chunkSize :: chunks n ((x :: xs).drop chunkSize) := rfl

theorem length_drop_chunkSize_le (enough : (x :: xs).length ≤ n + 1) :
    ((x :: xs).drop chunkSize).length ≤ n := by
  rw [List.length_drop, chunkSize]
  omega

theorem length_ceilDiv_chunkSize (x : α) (xs : List α) :
    (x :: xs).length ⌈/⌉ chunkSize = ((x :: xs).drop chunkSize).length ⌈/⌉ chunkSize + 1 := by
  rw [Nat.ceilDiv_eq_add_pred_div, Nat.ceilDiv_eq_add_pred_div, List.length_drop, List.length_cons,
    chunkSize]
  omega

theorem flatten_chunks (enough : xs.length ≤ n) :
    (chunks n xs).flatten = xs := by
  induction n generalizing xs with
  | zero => exact (List.length_eq_zero_iff.mp (Nat.le_zero.mp enough)).symm
  | succ n ih =>
    cases xs with
    | nil => rfl
    | cons x xs =>
      rw [chunks_cons, List.flatten_cons, ih (length_drop_chunkSize_le enough),
        List.take_append_drop]

end Cutting

def compared (done total : Nat) : Message :=
  .progress (share done total)
    (some (toString done ++ "/" ++ toString total ++ " filas comparadas"))

/-- The reports on the pieces that follow the first `done` of `total` left rows. -/
def comparedFrom (total : Nat) : Nat → List (List Row) → List Message
  | _, [] => []
  | done, piece :: pieces =>
    compared (done + piece.length) total :: comparedFrom total (done + piece.length) pieces

/-- The reports of a join with a number of left rows: one a chunk, on all rows up to its end. -/
def joinReports (total : Nat) : List Message :=
  (List.range (total ⌈/⌉ chunkSize)).map fun i => compared (min ((i + 1) * chunkSize) total) total

/-- However the left rows are cut, the rows of the whole join come out, and a report a piece. -/
theorem exec_chunksFrom (keys : Rows.FuzzyKeys) (right : List Row) (total : Nat)
    (free : ∀ m, c.canceled m = false) (done : Nat) (out : List Row) (pieces : List (List Row)) :
    ∃ s',
      (chunksFrom keys right total done out pieces).exec c s =
        (.ok (out ++ Rows.fuzzyJoin keys pieces.flatten right), s') ∧
      s.Tells c (comparedFrom total done pieces) s' := by
  induction pieces generalizing done out s with
  | nil =>
    have nothing : out ++ Rows.fuzzyJoin keys [].flatten right = out := List.append_nil out
    rw [nothing]
    exact ⟨s, rfl, .refl s⟩
  | cons piece pieces ih =>
    obtain ⟨s', joined, told⟩ := ih (s := if c.writable (s.looked.attempts + 1) then
      s.looked.reported (compared (done + piece.length) total) else s.looked.unreported)
      (done + piece.length) (out ++ Rows.fuzzyJoin keys piece right)
    refine ⟨s', ?_, .after_look (.cons told)⟩
    have whole : out ++ Rows.fuzzyJoin keys (piece :: pieces).flatten right =
        out ++ Rows.fuzzyJoin keys piece right ++ Rows.fuzzyJoin keys pieces.flatten right := by
      rw [List.flatten_cons, Rows.fuzzyJoin_append, List.append_assoc]
    rw [whole, ← joined, chunksFrom, exec_check_bind, if_neg (by simp [free])]
    exact exec_bind_of_ok (exec_progress ..)

/-- The reports on chunks are on whole chunks, but for the last one, which is on all rows. -/
theorem comparedFrom_chunks {n k : Nat} {xs : List Row} (enough : xs.length ≤ n)
    (rest : xs.length = total - k * chunkSize) :
    comparedFrom total (min (k * chunkSize) total) (chunks n xs) =
      (List.range' k (xs.length ⌈/⌉ chunkSize)).map fun i =>
        compared (min ((i + 1) * chunkSize) total) total := by
  induction n generalizing k xs with
  | zero =>
    rw [List.length_eq_zero_iff.mp (Nat.le_zero.mp enough)]
    rfl
  | succ n ih =>
    cases xs with
    | nil => rfl
    | cons x xs =>
      have done : min (k * chunkSize) total + ((x :: xs).take chunkSize).length =
          min ((k + 1) * chunkSize) total := by
        rw [List.length_take, rest]
        simp only [chunkSize]
        omega
      have rest' : ((x :: xs).drop chunkSize).length = total - (k + 1) * chunkSize := by
        rw [List.length_drop, rest, Nat.succ_mul, Nat.sub_sub]
      rw [chunks_cons, comparedFrom, done, ih (length_drop_chunkSize_le enough) rest',
        length_ceilDiv_chunkSize, List.range'_succ, List.map_cons]

theorem comparedFrom_all (xs : List Row) :
    comparedFrom xs.length 0 (chunks xs.length xs) = joinReports xs.length := by
  have start : min (0 * chunkSize) xs.length = 0 := by simp
  rw [← start, comparedFrom_chunks le_rfl (by simp), joinReports, List.range_eq_range']

theorem length_joinReports (n : Nat) : (joinReports n).length = n ⌈/⌉ chunkSize := by
  rw [joinReports, List.length_map, List.length_range]

theorem getLast?_joinReports {n : Nat} (h : n ≠ 0) :
    (joinReports n).getLast? = some (compared n n) := by
  obtain ⟨m, hm⟩ : ∃ m, n ⌈/⌉ chunkSize = m + 1 := by
    refine Nat.exists_eq_succ_of_ne_zero ?_
    rw [Nat.ceilDiv_eq_add_pred_div, chunkSize]
    omega
  have all : min ((m + 1) * chunkSize) n = n := by
    rw [Nat.ceilDiv_eq_add_pred_div] at hm
    simp only [chunkSize] at hm ⊢
    omega
  rw [joinReports, hm, List.range_succ, List.map_append, List.map_singleton, List.getLast?_concat,
    all]

theorem exec_load (source : DataSource) :
    (load source).exec c s = ((source.rowsIn s.files).mapError .storage, s) := by
  cases source with
  | rows rows => rfl
  | csv path => exact exec_reading (·.readCsv path)
  | jsonl path => exact exec_reading (·.readJsonl path)

theorem exec_checkColumn {column side : String} {rows : List Row}
    (h : rows ≠ [] → hasColumn column rows = true) :
    (checkColumn column side rows).exec c s = (.ok (), s) := by
  have passed : (!hasColumn column rows && !rows.isEmpty) = false := by
    cases rows with
    | nil => simp
    | cons r rs => simp [h (List.cons_ne_nil r rs)]
  rw [checkColumn, passed]
  rfl

theorem exec_fuzzyJoin {l r : DataSource} (hl : l.rowsIn s.files = .ok left)
    (hr : r.rowsIn s.files = .ok right) (leftColumn : left ≠ [] → hasColumn keys.leftOn left = true)
    (rightColumn : right ≠ [] → hasColumn keys.rightOn right = true)
    (free : ∀ m, c.canceled m = false) :
    ∃ s', (fuzzyJoin l r keys).exec c s = (.ok (Table.ofRows (Rows.fuzzyJoin keys left right)), s') ∧
      s.Tells c (joinReports left.length) s' := by
  obtain ⟨s', joined, told⟩ := exec_chunksFrom (s := s.looked) keys right left.length free 0 []
    (chunks left.length left)
  rw [flatten_chunks le_rfl, List.nil_append] at joined
  rw [comparedFrom_all] at told
  refine ⟨s', ?_, told.after_look⟩
  have loadLeft : (load l).exec c s = (.ok left, s) := by rw [exec_load, hl]; rfl
  have loadRight : (load r).exec c s = (.ok right, s) := by rw [exec_load, hr]; rfl
  rw [fuzzyJoin, exec_bind_of_ok loadLeft, exec_bind_of_ok loadRight, exec_check_bind,
    if_neg (by simp [free]), exec_bind_of_ok (exec_checkColumn leftColumn),
    exec_bind_of_ok (exec_checkColumn rightColumn), exec_bind_of_ok joined]
  rfl

theorem run_fuzzyJoin (ask : Http.Request → Except Cli.Failure Http.Response) {files : FileSystem}
    {leftPath rightPath : String} (output : String) (hl : files.readCsv leftPath = .ok left)
    (hr : files.readCsv rightPath = .ok right) : ∃ before,
      Client.run ask files
          (.fuzzyJoin leftPath rightPath keys.leftOn keys.rightOn keys.threshold output) =
        (none, Client.save files output (Table.ofRows (Rows.fuzzyJoin keys left right)) before
          ("Join completado: " ++
            toString (Table.ofRows (Rows.fuzzyJoin keys left right)).length ++ " filas en " ++
            output)) := by
  have readLeft : Client.readRows files leftPath = .ok left := by rw [Client.readRows, hl]; rfl
  have readRight : Client.readRows files rightPath = .ok right := by rw [Client.readRows, hr]; rfl
  have alone : Client.run ask files
      (.fuzzyJoin leftPath rightPath keys.leftOn keys.rightOn keys.threshold output) =
        (none, Client.joinFiles files leftPath rightPath keys output) := rfl
  rw [alone, Client.joinFiles, readLeft, readRight]
  exact ⟨_, rfl⟩

/-- A worker computes the table of the whole join, reporting once a chunk of 64 left rows, and a
client without a worker saves the same table. -/
theorem chunked_join_agrees {l r : DataSource} {keys : Rows.FuzzyKeys} {left right : List Row}
    (hl : l.rowsIn s.files = .ok left) (hr : r.rowsIn s.files = .ok right)
    (leftColumn : left ≠ [] → hasColumn keys.leftOn left = true)
    (rightColumn : right ≠ [] → hasColumn keys.rightOn right = true)
    (free : ∀ m, c.canceled m = false) :
    let table := Table.ofRows (Rows.fuzzyJoin keys left right)
    let reports := joinReports left.length
    (∃ s', (fuzzyJoin l r keys).exec c s = (.ok table, s') ∧ s.Tells c reports s' ∧
      ((∀ n, c.writable n = true) → s'.messages = s.messages ++ reports)) ∧
    reports.length = left.length ⌈/⌉ 64 ∧
    (left ≠ [] → reports.getLast? = some (.progress (share left.length left.length)
      (some (toString left.length ++ "/" ++ toString left.length ++ " filas comparadas")))) ∧
    ∀ ask files leftPath rightPath output, files.readCsv leftPath = .ok left →
      files.readCsv rightPath = .ok right → ∃ before,
        Client.run ask files
            (.fuzzyJoin leftPath rightPath keys.leftOn keys.rightOn keys.threshold output) =
          (none, Client.save files output table before
            ("Join completado: " ++ toString table.length ++ " filas en " ++ output)) := by
  obtain ⟨s', joined, told⟩ := exec_fuzzyJoin hl hr leftColumn rightColumn free
  refine ⟨⟨s', joined, told, fun working => ?_⟩, length_joinReports _, fun some => ?_,
    fun ask files leftPath rightPath output => run_fuzzyJoin ask output⟩
  · rw [told.messages, Conditions.written_eq_self working]
  · exact getLast?_joinReports (mt List.length_eq_zero_iff.mp some)

/-- Two files, one of them with a row more than a chunk has. -/
def sheets : FileSystem :=
  { entries :=
    [(["work", "l.csv"], .file (Text.utf8 ("k\n" ++ String.join (List.replicate 65 "a\n")))),
      (["work", "r.csv"], .file (Text.utf8 "k\nb\n"))] }

def sheetKeys : Rows.FuzzyKeys := ⟨"k", "k", .ofNat 1⟩

theorem sheets_joined : ∃ left right s',
    sheets.readCsv "l.csv" = .ok left ∧ sheets.readCsv "r.csv" = .ok right ∧ left.length = 65 ∧
    (fuzzyJoin (.csv "l.csv") (.csv "r.csv") sheetKeys).exec {} { files := sheets } =
      (.ok (Table.ofRows (Rows.fuzzyJoin sheetKeys left right)), s') ∧
    s'.messages.length = 2 ∧ s'.messages.getLast? = some (compared 65 65) ∧
    ∀ ask output, ∃ before,
      Client.run ask sheets (.fuzzyJoin "l.csv" "r.csv" "k" "k" (.ofNat 1) output) =
        (none, Client.save sheets output (Table.ofRows (Rows.fuzzyJoin sheetKeys left right)) before
          ("Join completado: " ++
            toString (Table.ofRows (Rows.fuzzyJoin sheetKeys left right)).length ++ " filas en " ++
            output)) := by
  have readLeft : passes (sheets.readCsv "l.csv") (fun rows =>
      rows.length == 65 && hasColumn "k" rows) = true := by decide +kernel
  have readRight : passes (sheets.readCsv "r.csv") (hasColumn "k") = true := by decide +kernel
  obtain ⟨left, hl, h⟩ := exists_of_passes readLeft
  obtain ⟨right, hr, rightColumn⟩ := exists_of_passes readRight
  obtain ⟨number, leftColumn⟩ := Bool.and_eq_true_iff.mp h
  have number : left.length = 65 := beq_iff_eq.mp number
  have leftColumn : left ≠ [] → hasColumn sheetKeys.leftOn left = true := fun _ => leftColumn
  have rightColumn : right ≠ [] → hasColumn sheetKeys.rightOn right = true := fun _ => rightColumn
  obtain ⟨⟨s', joined, -, written⟩, reports, last, client⟩ := chunked_join_agrees
    (l := .csv "l.csv") (r := .csv "r.csv") (c := {}) (s := { files := sheets }) hl hr leftColumn
    rightColumn fun _ => rfl
  have messages : s'.messages = joinReports left.length := written fun _ => rfl
  have some : left ≠ [] := List.ne_nil_of_length_eq_add_one number
  refine ⟨left, right, s', hl, hr, number, joined, ?_, ?_, fun ask output =>
    client ask sheets "l.csv" "r.csv" output hl hr⟩
  · rw [messages, reports, number]
    rfl
  · rw [messages, last some, number]
    rfl

end Run

end TaskFlow
