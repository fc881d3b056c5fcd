import TaskFlow.Proofs.Job.Codec
import TaskFlow.Proofs.Rows.Tidy

namespace TaskFlow

open Json.Decode

variable {src : Json.Source} {d : Json.Doc} {n m : Nat}

theorem Rows.tidy_of_encodes {rows : List Row} (h : Encodes (list json) n rows (.arr rows)) :
    Rows.Tidy n rows := by
  obtain ⟨m, rfl, each⟩ := encodes_of_list id faithful_json (by rwa [List.map_id])
  exact fun row hrow => (json_encodes_iff.mp (each row hrow)).mono (Nat.le_succ m)

def Step.Tidy (n : Nat) : Step → Prop
  | .rows rs => Rows.Tidy n rs
  | _ => True

def DataSource.Tidy (n : Nat) : DataSource → Prop
  | .rows rs => Rows.Tidy n rs
  | _ => True

theorem Step.Tidy.mono {s : Step} (h : s.Tidy n) (le : n ≤ m) : s.Tidy m := by
  cases s with
  | rows rs => exact Rows.Tidy.mono h le
  | _ => trivial

theorem DataSource.Tidy.mono {s : DataSource} (h : s.Tidy n) (le : n ≤ m) : s.Tidy m := by
  cases s with
  | rows rs => exact Rows.Tidy.mono h le
  | _ => trivial

theorem Step.tidy_of_encodes {s : Step} (h : Encodes decode n s s.toJson) : s.Tidy n := by
  cases s with
  | rows rs =>
    cases h.fits with
    | @obj m _ fits =>
      have fits : ∀ g ∈ [("rows", Json.arr rs)], g.2.Fits m := (List.forall_mem_cons.mp fits).2
      have apart : "op" ∉ ["rows"] := by decide
      have read := h.again .value
      rw [toJson, decode, tagged_of_find apart rfl] at read
      obtain ⟨_, ⟨a, ⟨⟩⟩, ⟨⟩, same, came, -⟩ :=
        record_eq_ok (Json.Doc.fits_ofJson (.obj fits)) read
      cases same
      exact (Rows.tidy_of_encodes (came.encodes ⟨rfl, rfl⟩ faithful_rows)).mono (Nat.le_succ m)
  | _ => trivial

theorem DataSource.tidy_of_encodes {s : DataSource} (h : Encodes decode n s s.toJson) :
    s.Tidy n := by
  cases s with
  | rows rs =>
    cases h.fits with
    | @obj m _ fits =>
      have fits : (Json.arr rs).Fits m := fits _ (List.mem_singleton_self _)
      have read : (list json .value (Json.Doc.ofJson (.arr rs))).map DataSource.rows =
          .ok (.rows rs) := h.again .value
      obtain ⟨a, read, same⟩ := map_eq_ok.mp read
      cases same
      have encoded := faithful_rows (Json.Doc.fits_ofJson fits) read
      exact (Rows.tidy_of_encodes encoded).mono (Nat.le_succ m)
  | _ => trivial

namespace Job

def Tidy (n : Nat) : Job → Prop
  | .execute steps | .writeResults steps _ _ => ∀ s ∈ steps, s.Tidy n
  | .createTable .. => True
  | .fuzzyJoin left right _ _ _ => left.Tidy n ∧ right.Tidy n

theorem Tidy.mono {j : Job} (h : j.Tidy n) (le : n ≤ m) : j.Tidy m := by
  cases j with
  | execute | writeResults => exact fun s hs => (h s hs).mono le
  | createTable => trivial
  | fuzzyJoin => exact ⟨h.1.mono le, h.2.mono le⟩

theorem tidy_of_steps {steps : List Step} (h : Encodes (list Step.decode) n steps
    (.arr (steps.map Step.toJson))) : ∀ s ∈ steps, s.Tidy n := by
  obtain ⟨m, rfl, each⟩ := encodes_of_list Step.toJson Step.faithful h
  exact fun s hs => (Step.tidy_of_encodes (each s hs)).mono (Nat.le_succ m)

theorem tidy_of_decodePayload {k : JobKind} {j : Job} (fits : d.Fits n)
    (h : decodePayload k src d = .ok j) : j.Tidy n := by
  cases k with
  | execute =>
    obtain ⟨m, ⟨steps, ⟨⟩⟩, rfl, rfl, came, -⟩ := record_eq_ok fits h
    have steps := came.encodes ⟨rfl, rfl⟩ (faithful_list Step.faithful)
    exact Tidy.mono (tidy_of_steps steps) (Nat.le_succ m)
  | writeResults =>
    obtain ⟨m, ⟨steps, path, format, ⟨⟩⟩, rfl, rfl, came, -⟩ := record_eq_ok fits h
    have steps := came.encodes ⟨rfl, rfl⟩ (faithful_list Step.faithful)
    exact Tidy.mono (tidy_of_steps steps) (Nat.le_succ m)
  | createTable =>
    obtain ⟨m, ⟨glob, format, ⟨⟩⟩, rfl, rfl, -⟩ := record_eq_ok fits h
    trivial
  | fuzzyJoin =>
    obtain ⟨m, ⟨left, right, leftOn, rightOn, threshold, ⟨⟩⟩, rfl, rfl, came₁, came₂, -⟩ :=
      record_eq_ok fits h
    have left := came₁.encodes ⟨rfl, rfl⟩ DataSource.faithful
    have right := came₂.encodes ⟨rfl, rfl⟩ DataSource.faithful
    exact ⟨(DataSource.tidy_of_encodes left).mono (Nat.le_succ m),
      (DataSource.tidy_of_encodes right).mono (Nat.le_succ m)⟩

theorem tidy_of_decode {j : Job} (fits : d.Fits n) (h : decode src d = .ok j) : j.Tidy n := by
  obtain ⟨m, rfl, o, ho, src', d', fits', read⟩ := adjacent_eq_ok fits h
  obtain ⟨k, -, rfl⟩ := List.mem_map.mp ho
  exact (tidy_of_decodePayload fits' read).mono (Nat.le_succ m)

end Job

theorem Worker.tidy_of_assignment {input : Text.Bytes} {a : Assignment}
    (h : assignment input = .ok a) : a.job.Tidy Json.maxDepth := by
  unfold assignment at h
  split at h
  · cases h
  · split at h
    · next parsed =>
      cases h
      obtain ⟨d, fits, read⟩ := fits_of_fromText parsed
      obtain ⟨m, ⟨taskId, path, job, ⟨⟩⟩, hm, rfl, -, -, came, -⟩ := record_eq_ok fits read
      obtain ⟨⟨⟩⟩ | ⟨⟨⟩⟩ | ⟨src, d, fits, read⟩ := came
      exact (Job.tidy_of_decode fits read).mono (by omega)
    · cases h

end TaskFlow
