import TaskFlow.Job.Validation
import TaskFlow.Proofs.Json.Decode
import TaskFlow.Proofs.Text.Utf8
import TaskFlow.Worker.Process

namespace TaskFlow

open Json.Decode

variable {src : Json.Source} {d : Json.Doc} {n : Nat}

theorem faithful_rows : Faithful (list json) Json.arr := by
  have := faithful_list faithful_json
  simpa only [List.map_id] using this

theorem faithful_texts : Faithful (list string) Json.ofTexts := faithful_list faithful_string

namespace Step

variable {α β : Type}

theorem one_encodes {title name : String} {read : Json.Decoder α} {make : α → Step} {a : α}
    {j : Json} (h : Encodes read n a j) :
    Encodes (one title name read make) (n + 1) (make a) (.obj [(name, j)]) := by
  have fields : Fields.Keep n (.cons { name, read } .nil) (a, ()) [(name, j)] := ⟨rfl, h, rfl⟩
  exact record_encodes fields (List.pairwise_singleton ..)

theorem two_encodes {title name₁ name₂ : String} {read₁ : Json.Decoder α}
    {read₂ : Json.Decoder β} {make : α → β → Step} {a : α} {b : β} {j₁ j₂ : Json}
    (h₁ : Encodes read₁ n a j₁) (h₂ : Encodes read₂ n b j₂) (nodup : [name₁, name₂].Nodup) :
    Encodes (two title name₁ read₁ name₂ read₂ make) (n + 1) (make a b)
      (.obj [(name₁, j₁), (name₂, j₂)]) := by
  have fields : Fields.Keep n
      (.cons { name := name₁, read := read₁ } (.cons { name := name₂, read := read₂ } .nil))
      (a, b, ()) [(name₁, j₁), (name₂, j₂)] := ⟨rfl, h₁, rfl, h₂, rfl⟩
  exact record_encodes fields nodup

theorem keeps_one {title op name : String} {read : Json.Decoder α} {make : α → Step}
    {write : α → Json} (faithful : Faithful read write) (apart : "op" ≠ name)
    (written : ∀ a, (make a).toJson = .obj [("op", .str op), (name, write a)]) :
    KeepsFields "op" op (one title name read make) toJson := by
  intro m d s fits h
  obtain ⟨m, ⟨a, ⟨⟩⟩, ⟨⟩, rfl, came, -⟩ := record_eq_ok fits h
  have encoded := came.encodes ⟨rfl, rfl⟩ faithful
  exact ⟨[(name, write a)], written a, by simpa using apart, one_encodes encoded⟩

theorem keeps_two {title op name₁ name₂ : String} {read₁ : Json.Decoder α}
    {read₂ : Json.Decoder β} {make : α → β → Step} {write₁ : α → Json} {write₂ : β → Json}
    (faithful₁ : Faithful read₁ write₁) (faithful₂ : Faithful read₂ write₂)
    (apart : ["op", name₁, name₂].Nodup)
    (written : ∀ a b, (make a b).toJson =
      .obj [("op", .str op), (name₁, write₁ a), (name₂, write₂ b)]) :
    KeepsFields "op" op (two title name₁ read₁ name₂ read₂ make) toJson := by
  intro m d s fits h
  obtain ⟨m, ⟨a, b, ⟨⟩⟩, ⟨⟩, rfl, came₁, came₂, -⟩ := record_eq_ok fits h
  have encoded₁ := came₁.encodes ⟨rfl, rfl⟩ faithful₁
  have encoded₂ := came₂.encodes ⟨rfl, rfl⟩ faithful₂
  obtain ⟨apart, nodup⟩ := List.nodup_cons.mp apart
  exact ⟨[(name₁, write₁ a), (name₂, write₂ b)], written a b, apart,
    two_encodes encoded₁ encoded₂ nodup⟩

theorem keeps_abort : KeepsFields "op" "abort" (bare .abort) toJson := by
  intro m d s fits h
  have : s = .abort := by
    unfold bare at h
    split at h
    · obtain ⟨⟨⟩, -, h⟩ := bind_eq_ok.mp h
      cases h
      rfl
    · cases h
      rfl
  subst this
  exact ⟨[], rfl, List.not_mem_nil, .obj (List.forall_mem_nil _), fun _ => rfl⟩

theorem faithful : Faithful decode toJson := by
  refine faithful_tagged (by decide) ?_
  simp only [List.forall_mem_cons]
  exact ⟨keeps_one faithful_rows (by decide) fun _ => rfl,
    keeps_one faithful_string (by decide) fun _ => rfl,
    keeps_one faithful_string (by decide) fun _ => rfl,
    keeps_two faithful_string faithful_json (by decide) fun _ _ => rfl,
    keeps_one faithful_texts (by decide) fun _ => rfl,
    keeps_two faithful_string faithful_string (by decide) fun _ _ => rfl,
    keeps_two faithful_string faithful_string (by decide) fun _ _ => rfl,
    keeps_one (faithful_natural _) (by decide) fun _ => rfl,
    keeps_one (faithful_natural _) (by decide) fun _ => rfl,
    keeps_one faithful_string (by decide) fun _ => rfl,
    keeps_abort, List.forall_mem_nil _⟩

end Step

theorem FileFormat.faithful : Faithful decode fun f => .str f.name :=
  faithful_names (by decide) (List.forall_mem_map.mpr fun _ _ => rfl)

theorem InputFormat.decode_name (f : InputFormat) (src : Json.Source) :
    decode src (.str f.name) = .ok f := by
  cases f <;> rfl

namespace DataSource

variable {α : Type}

theorem keeps_mapped {read : Json.Decoder α} {write : α → Json} {make : α → DataSource}
    {name : String} (faithful : Faithful read write)
    (written : ∀ a, (make a).toJson = .obj [(name, write a)]) :
    ∃ r : Json.Decoder DataSource,
      Carried.holding (fun src d => (read src d).map make) = .holding r ∧
      ∀ ⦃m src d s⦄, d.Fits m → r src d = .ok s →
        ∃ j, s.toJson = .obj [(name, j)] ∧ Encodes r m s j := by
  refine ⟨_, rfl, fun m src d s fits h => ?_⟩
  obtain ⟨a, ha, rfl⟩ := map_eq_ok.mp h
  have encoded := faithful fits ha
  exact ⟨write a, written a, encoded.fits, fun src => map_eq_ok.mpr ⟨a, encoded.again src, rfl⟩⟩

theorem faithful : Faithful decode toJson := by
  refine faithful_choice (by decide) ?_
  simp only [List.forall_mem_cons]
  exact ⟨keeps_mapped faithful_rows fun _ => rfl, keeps_mapped faithful_string fun _ => rfl,
    keeps_mapped faithful_string fun _ => rfl, List.forall_mem_nil _⟩

end DataSource

theorem JobKind.mem_all (k : JobKind) : k ∈ JobKind.all := by
  cases k <;> decide

namespace Job

def threshold? : Job → Option Double
  | .fuzzyJoin _ _ _ _ threshold => some threshold
  | _ => none

/-- The numbers of a job that are no integers: its threshold, and those in its rows. -/
def fractions (j : Job) : List Double := j.threshold?.toList ++ j.payload.fractions

theorem fits_ofDouble (x : Double) : (Json.ofDouble x).Fits n := by
  unfold Json.ofDouble
  split
  · exact .num trivial
  · exact .null

theorem double_again {x : Double} (finite : x.isFinite = true) (src : Json.Source) :
    double src (Json.Doc.ofJson (Json.ofDouble x)) = .ok x := by
  rw [Json.ofDouble, if_pos finite]
  rfl

theorem finite_of_readsBack {x : Double} (h : (Number.real x).ReadsBack) : x.isFinite = true := by
  by_contra infinite
  have null : (Number.real x).text = "null" := if_neg infinite
  rw [Number.ReadsBack, null] at h
  cases h

theorem legible_of_readsBack {j : Job} (h : ∀ x ∈ j.fractions, (Number.real x).ReadsBack) :
    (∀ x ∈ j.threshold?, x.isFinite = true) ∧ j.payload.Legible := by
  obtain ⟨threshold, payload⟩ := List.forall_mem_append.mp h
  exact ⟨fun x hx => finite_of_readsBack (threshold x (Option.mem_toList.mpr hx)), payload⟩

theorem execute_encodes {steps : List Step}
    (hs : Encodes (list Step.decode) n steps (.arr (steps.map Step.toJson))) :
    Encodes decodeExecute (n + 1) (.execute steps) (execute steps).payload := by
  have fields : Fields.Keep n (.cons { name := "steps", read := list Step.decode } .nil)
      (steps, ()) [("steps", .arr (steps.map Step.toJson))] := ⟨rfl, hs, rfl⟩
  exact record_encodes fields (by decide)

theorem writeResults_encodes {steps : List Step} {path : String} {format : FileFormat}
    (hs : Encodes (list Step.decode) n steps (.arr (steps.map Step.toJson)))
    (hp : Encodes string n path (.str path))
    (hf : Encodes FileFormat.decode n format (.str format.name)) :
    Encodes decodeWriteResults (n + 1) (.writeResults steps path format)
      (writeResults steps path format).payload := by
  have fields : Fields.Keep n
      (.cons { name := "steps", read := list Step.decode }
        (.cons { name := "path", read := string }
          (.cons { name := "format", read := FileFormat.decode } .nil)))
      (steps, path, format, ())
      [("steps", .arr (steps.map Step.toJson)), ("path", .str path),
        ("format", .str format.name)] := ⟨rfl, hs, rfl, hp, rfl, hf, rfl⟩
  exact record_encodes fields (by decide)

theorem createTable_encodes {glob : String} {format : InputFormat}
    (hg : Encodes string n glob (.str glob))
    (hf : Encodes InputFormat.decode n format (.str format.name)) :
    Encodes decodeCreateTable (n + 1) (.createTable glob format)
      (createTable glob format).payload := by
  have fields : Fields.Keep n
      (.cons { name := "input_glob", read := string }
        (.cons { name := "format", read := InputFormat.decode, absent := some .infer,
                 beyond := some .infer } .nil))
      (glob, format, ()) [("input_glob", .str glob), ("format", .str format.name)] :=
    ⟨rfl, hg, rfl, hf, rfl⟩
  exact record_encodes fields (by decide)

theorem fuzzyJoin_encodes {left right : DataSource} {leftOn rightOn : String} {threshold : Double}
    (hl : Encodes DataSource.decode n left left.toJson)
    (hr : Encodes DataSource.decode n right right.toJson)
    (hlo : Encodes string n leftOn (.str leftOn)) (hro : Encodes string n rightOn (.str rightOn))
    (ht : Encodes double n threshold (.ofDouble threshold)) :
    Encodes decodeFuzzyJoin (n + 1) (.fuzzyJoin left right leftOn rightOn threshold)
      (fuzzyJoin left right leftOn rightOn threshold).payload := by
  have fields : Fields.Keep n
      (.cons { name := "left", read := DataSource.decode }
        (.cons { name := "right", read := DataSource.decode }
          (.cons { name := "left_on", read := string }
            (.cons { name := "right_on", read := string }
              (.cons { name := "threshold", read := double, absent := some defaultThreshold,
                       beyond := some defaultThreshold } .nil)))))
      (left, right, leftOn, rightOn, threshold, ())
      [("left", left.toJson), ("right", right.toJson), ("left_on", .str leftOn),
        ("right_on", .str rightOn), ("threshold", .ofDouble threshold)] :=
    ⟨rfl, hl, rfl, hr, rfl, hlo, rfl, hro, rfl, ht, rfl⟩
  exact record_encodes fields (by decide)

theorem kind_of_decodePayload {k : JobKind} {j : Job} (h : decodePayload k src d = .ok j) :
    j.kind = k := by
  cases k <;> obtain ⟨vs, rfl⟩ := exists_make_of_record h <;> rfl

theorem decoded_of_parse {kind : JobKind} {payload : Json} {job : Job}
    (h : Job.parse kind payload = .ok job) :
    fromJson (decodePayload kind) payload = .ok job := by
  obtain ⟨j, read, h⟩ := bind_eq_ok.mp h
  obtain ⟨⟨⟩, -, h⟩ := bind_eq_ok.mp h
  cases h
  unfold ofPayload at read
  cases decoded : fromJson (decodePayload kind) payload with
  | error e =>
    rw [decoded] at read
    cases read
  | ok j =>
    rw [decoded] at read
    cases read
    rfl

/-- A payload is read back from how it is written, if the threshold in it has a text. -/
theorem payload_encodes {k : JobKind} {j : Job} (fits : d.Fits n)
    (h : decodePayload k src d = .ok j) (finite : ∀ x ∈ j.threshold?, x.isFinite = true) :
    j.kind = k ∧ Encodes (decodePayload k) n j j.payload := by
  cases k with
  | execute =>
    obtain ⟨m, ⟨steps, ⟨⟩⟩, rfl, rfl, came, -⟩ := record_eq_ok fits h
    have steps := came.encodes ⟨rfl, rfl⟩ (faithful_list Step.faithful)
    exact ⟨rfl, execute_encodes steps⟩
  | writeResults =>
    obtain ⟨m, ⟨steps, path, format, ⟨⟩⟩, rfl, rfl, came₁, came₂, came₃, -⟩ := record_eq_ok fits h
    have steps := came₁.encodes ⟨rfl, rfl⟩ (faithful_list Step.faithful)
    have path := came₂.encodes ⟨rfl, rfl⟩ faithful_string
    have format := came₃.encodes ⟨rfl, rfl⟩ FileFormat.faithful
    exact ⟨rfl, writeResults_encodes steps path format⟩
  | createTable =>
    -- The format may be a default, which no document was read for.
    obtain ⟨m, ⟨glob, format, ⟨⟩⟩, rfl, rfl, came, -, -⟩ := record_eq_ok fits h
    have glob := came.encodes ⟨rfl, rfl⟩ faithful_string
    exact ⟨rfl, createTable_encodes glob ⟨.str _, InputFormat.decode_name format⟩⟩
  | fuzzyJoin =>
    -- So may the threshold; any that has a text is read back from it.
    obtain ⟨m, ⟨left, right, leftOn, rightOn, threshold, ⟨⟩⟩, rfl, rfl, came₁, came₂, came₃, came₄,
      -, -⟩ := record_eq_ok fits h
    have left := came₁.encodes ⟨rfl, rfl⟩ DataSource.faithful
    have right := came₂.encodes ⟨rfl, rfl⟩ DataSource.faithful
    have leftOn := came₃.encodes ⟨rfl, rfl⟩ faithful_string
    have rightOn := came₄.encodes ⟨rfl, rfl⟩ faithful_string
    exact ⟨rfl, fuzzyJoin_encodes left right leftOn rightOn
      ⟨fits_ofDouble threshold, double_again (finite threshold rfl)⟩⟩

theorem toJson_encodes {j : Job} (h : Encodes (decodePayload j.kind) n j j.payload) :
    Encodes decode (n + 1) j j.toJson := by
  have ho : (j.kind.name, decodePayload j.kind) ∈
      JobKind.all.map fun k => (k.name, decodePayload k) :=
    List.mem_map.mpr ⟨j.kind, JobKind.mem_all _, rfl⟩
  refine ⟨.obj (List.forall_mem_cons.mpr ⟨.str _, List.forall_mem_singleton.mpr h.fits⟩), ?_⟩
  exact fun src =>
    (adjacent_of_find (by decide) (find?_of_mem (by decide) ho)).mpr (h.again src)

/-- A job that was read is read back from how it is written, if the threshold in it has a text. -/
theorem encodes_of_decode {j : Job} (fits : d.Fits n) (h : decode src d = .ok j)
    (finite : ∀ x ∈ j.threshold?, x.isFinite = true) :
    ∃ m, n = m + 1 ∧ Encodes (decodePayload j.kind) m j j.payload := by
  obtain ⟨m, rfl, o, ho, src', d', fits', read⟩ := adjacent_eq_ok fits h
  obtain ⟨k, hk, rfl⟩ := List.mem_map.mp ho
  obtain ⟨rfl, encoded⟩ := payload_encodes fits' read finite
  exact ⟨m, rfl, encoded⟩

end Job

namespace Assignment

theorem toJson_encodes {a : Assignment}
    (h : Encodes (Job.decodePayload a.job.kind) n a.job a.job.payload) :
    Encodes decode (n + 2) a a.toJson := by
  have fields : Fields.Keep (n + 1)
      (.cons { name := "task_id", read := string }
        (.cons { name := "artifact_path", read := string }
          (.cons { name := "job", read := Job.decode } .nil)))
      (a.taskId, a.artifactPath, a.job, ())
      [("task_id", .str a.taskId), ("artifact_path", .str a.artifactPath),
        ("job", a.job.toJson)] :=
    ⟨rfl, ⟨.str _, fun _ => rfl⟩, rfl, ⟨.str _, fun _ => rfl⟩, rfl, Job.toJson_encodes h, rfl⟩
  exact record_encodes fields (by decide)

theorem encodes_of_decode {a : Assignment} (fits : d.Fits n) (h : decode src d = .ok a)
    (finite : ∀ x ∈ a.job.threshold?, x.isFinite = true) :
    ∃ m, n = m + 2 ∧ Encodes (Job.decodePayload a.job.kind) m a.job a.job.payload := by
  obtain ⟨m, ⟨taskId, artifactPath, job, ⟨⟩⟩, rfl, rfl, -, -, came, -⟩ := record_eq_ok fits h
  obtain ⟨⟨⟩⟩ | ⟨⟨⟩⟩ | ⟨src, d, fits, read⟩ := came
  obtain ⟨m, rfl, encoded⟩ := Job.encodes_of_decode fits read finite
  exact ⟨m, rfl, encoded⟩

theorem legible_toJson {a : Assignment} (h : a.job.payload.Legible) : a.toJson.Legible := by
  have job : a.job.toJson.Legible := Json.legible_obj.mpr (List.forall_mem_cons.mpr
    ⟨Json.legible_str _, List.forall_mem_singleton.mpr h⟩)
  exact Json.legible_obj.mpr (List.forall_mem_cons.mpr ⟨Json.legible_str _,
    List.forall_mem_cons.mpr ⟨Json.legible_str _, List.forall_mem_singleton.mpr job⟩⟩)

theorem read_input {a : Assignment} (encoded : Encodes decode Json.maxDepth a a.toJson)
    (legible : a.job.payload.Legible) :
    Worker.assignment (Text.utf8 (a.toJson.text ++ "\n")) = .ok a := by
  have parsed : parse (a.toJson.text ++ "\n") = .ok a :=
    fromText_text "\n" encoded (legible_toJson legible) .newline (by decide)
  rw [Worker.assignment, Text.fromUtf8?_utf8]
  dsimp only
  rw [parsed]

def oneAndHalf : Double := .finite false (3 * 2 ^ 51) (-52)

/-- An assignment in an order of its own: a kind and a payload without names, steps without names,
and a field that no step has. -/
def script : Json :=
  .obj [("job", .arr [.str "execute", .arr [.arr [
      .arr [.str "filter", .str "x", .num (.real oneAndHalf)],
      .obj [("n", .ofNat 2), ("by", .arr []), ("op", .str "limit")]]]]),
    ("task_id", .str "t"), ("artifact_path", .str "t.jsonl")]

end Assignment

end TaskFlow
