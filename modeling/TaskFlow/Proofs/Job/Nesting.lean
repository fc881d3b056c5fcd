import TaskFlow.Client.Run
import TaskFlow.Manager.Router
import TaskFlow.Proofs.Job.Codec
import TaskFlow.Proofs.Manager.Protocol
import TaskFlow.Proofs.Table.Files

namespace TaskFlow

open Json.Decode

/-- A manager takes a request as the submission of a job, as far as the request itself tells. -/
def Router.Accepts (r : Http.Request) (job : Job) : Prop :=
  ∃ s kind, submission r = .ok s ∧ JobKind.parse s.kind = .ok kind ∧
    Job.parse kind s.payload = .ok job

def Manager.Action.Launches (only : Job → Prop) : Action → Prop
  | .launch _ job => only job
  | _ => True

theorem Manager.Action.Spares.launches {only : Job → Prop} {act : Action} (h : act.Spares) :
    act.Launches only := by
  cases act <;> trivial

theorem Manager.uses_settle {only : Job → Prop} (id : String) :
    (settle id).Uses (Action.Launches only) := by
  have stop : (signalStop id .graceful).Uses (Action.Launches only) :=
    (uses_signalStop id .graceful).mono fun _ => Action.Spares.launches
  refine ⟨trivial, fun accepting => ?_⟩
  have known : (do
      let known ← info? id
      if !accepting || known.all (·.status.isTerminal) then
        let _ ← signalStop id .graceful : Op Unit).Uses (Action.Launches only) := by
    refine ⟨trivial, fun known => ?_⟩
    dsimp only [Procedure.bind]
    split
    · exact stop.bind fun _ => trivial
    · trivial
  cases accepting with
  | false => exact ⟨trivial, fun _ => known⟩
  | true => exact known

theorem Manager.uses_accept {only : Job → Prop} (id : String) {job : Job}
    (launchError? : Option FileError) (h : only job) :
    (accept id job launchError?).Uses (Action.Launches only) := by
  refine ⟨trivial, ?_⟩
  rintro (e | ⟨⟩)
  · trivial
  cases launchError? with
  | some e => exact ⟨trivial, fun _ => ⟨trivial, fun _ => ⟨trivial, fun _ => trivial⟩⟩⟩
  | none =>
    refine ⟨trivial, fun _ => ⟨h, fun _ => ⟨trivial, fun _ => ?_⟩⟩⟩
    exact (uses_settle id).bind fun _ => trivial

theorem Router.launches_accepted {r : Http.Request} {s : Submission} (h : submission r = .ok s)
    (fresh : String) (launchError? : Option FileError) :
    (submit fresh launchError? s).Uses (Manager.Action.Launches (Accepts r)) := by
  unfold submit
  cases hk : JobKind.parse s.kind with
  | error e => trivial
  | ok kind =>
    refine Procedure.Uses.bind ⟨trivial, fun accepting => ?_⟩ fun _ => trivial
    cases accepting with
    | false => trivial
    | true =>
      cases hj : Job.parse kind s.payload with
      | error e => trivial
      | ok job => exact Manager.uses_accept fresh launchError? ⟨s, kind, h, hk, hj⟩

theorem Router.fits_of_submission {r : Http.Request} {s : Submission} (h : submission r = .ok s) :
    s.payload.Fits 126 := by
  have read : fromStart Submission.decode r.body = .ok s := by
    unfold submission at h
    split at h
    · cases h
    · split at h
      · cases h
      · split at h
        · next read =>
          cases h
          exact read
        · split at h <;> cases h
  -- Of the 127 containers that may be nested the submission itself is one.
  have fits := Json.fits_scan r.body.toList
  obtain ⟨m, ⟨kind, payload, ⟨⟩⟩, hm, rfl, -, came, -⟩ := record_eq_ok fits read
  obtain rfl : m = 126 := (Nat.succ.inj hm).symm
  obtain ⟨⟨⟩⟩ | ⟨⟨⟩⟩ | ⟨src, d, fits, read⟩ := came
  · exact .null
  · exact .null
  · have read : json src d = .ok payload := read
    exact (faithful_json fits read).fits

theorem Job.encodes_of_parse {kind : JobKind} {payload : Json} {job : Job} {n : Nat}
    (fits : payload.Fits n) (h : Job.parse kind payload = .ok job)
    (finite : ∀ x ∈ job.threshold?, x.isFinite = true) :
    job.kind = kind ∧ Encodes (decodePayload kind) n job job.payload :=
  payload_encodes (Json.Doc.fits_ofJson fits) (decoded_of_parse h) finite

theorem Worker.depth_le_of_assignment {input : Text.Bytes} {a : Assignment}
    (h : assignment input = .ok a) (finite : ∀ x ∈ a.job.threshold?, x.isFinite = true) :
    a.job.payload.depth ≤ 125 := by
  unfold assignment at h
  split at h
  · cases h
  · split at h
    · next parsed =>
      cases h
      obtain ⟨d, fits, read⟩ := fits_of_fromText parsed
      obtain ⟨m, hm, encoded⟩ := Assignment.encodes_of_decode fits read finite
      obtain rfl : m = 125 := (Nat.succ.inj (Nat.succ.inj hm)).symm
      exact encoded.fits.depth_le
    · cases h

namespace Table

theorem encodes_of_readTable {files : FileSystem} {path : String} {t : Table}
    (h : files.readTable path = .ok t) : ∀ row ∈ t.rows, Encodes json Json.maxDepth row row := by
  obtain ⟨rows, read, rfl⟩ := map_eq_ok.mp h
  exact fun row hrow => json_encodes_iff.mpr (FileSystem.tidy_readJsonl read row hrow)

theorem toJson_encodes {t : Table} {n : Nat} (h : ∀ row ∈ t.rows, Encodes json n row row) :
    Encodes decode (n + 2) t t.toJson := by
  have columns : Encodes (list string) (n + 1) t.columns (Json.ofTexts t.columns) :=
    list_encodes Json.str fun c _ => ⟨.str c, fun _ => rfl⟩
  have rows : Encodes (list json) (n + 1) t.rows (.arr t.rows) := by
    have := list_encodes id h
    rwa [List.map_id] at this
  have fields : Fields.Keep (n + 1)
      (.cons { name := "columns", read := list string }
        (.cons { name := "rows", read := list json } .nil))
      (t.columns, t.rows, ()) [("columns", Json.ofTexts t.columns), ("rows", .arr t.rows)] :=
    ⟨rfl, columns, rfl, rows, rfl⟩
  exact record_encodes fields (by decide)

theorem depth_le_of_decode {t : Table} {src : Json.Source} {d : Json.Doc} {n : Nat}
    (fits : d.Fits (n + 2)) (h : decode src d = .ok t) : ∀ row ∈ t.rows, row.depth ≤ n := by
  obtain ⟨m, ⟨columns, rows, ⟨⟩⟩, hm, rfl, -, came, -⟩ := record_eq_ok fits h
  obtain rfl : m = n + 1 := (Nat.succ.inj hm).symm
  cases (came.encodes ⟨rfl, rfl⟩ faithful_rows).fits with
  | arr fits => exact fun row hrow => (fits row hrow).depth_le

theorem legible_toJson {t : Table} (h : ∀ row ∈ t.rows, row.Legible) : t.toJson.Legible := by
  have columns : (Json.ofTexts t.columns).Legible :=
    Json.legible_arr.mpr (List.forall_mem_map.mpr fun c _ => Json.legible_str c)
  exact Json.legible_obj.mpr (List.forall_mem_cons.mpr
    ⟨columns, List.forall_mem_singleton.mpr (Json.legible_arr.mpr h)⟩)

/-- A client reads a table from the result that a manager sends exactly if two more containers fit
around each of its rows. -/
theorem valueOf_iff {t : Table} (encoded : ∀ row ∈ t.rows, Encodes json Json.maxDepth row row)
    (legible : ∀ row ∈ t.rows, row.Legible) :
    Client.valueOf decode (.ofJson 200 t.toJson) = .ok t ↔ ∀ row ∈ t.rows, row.depth ≤ 125 := by
  have success : Client.check (.ofJson 200 t.toJson) = .ok (.ofJson 200 t.toJson) :=
    if_pos (show Http.isSuccess 200 = true by decide)
  constructor
  · intro h
    obtain ⟨r, hr, h⟩ := bind_eq_ok.mp h
    rw [success] at hr
    cases hr
    split at h
    · next parsed =>
      cases h
      obtain ⟨d, fits, read⟩ := fits_of_fromText parsed
      exact depth_le_of_decode fits read
    · cases h
  · intro shallow
    have fitting : Encodes decode Json.maxDepth t t.toJson :=
      toJson_encodes fun row hrow => (encoded row hrow).of_depth_le (shallow row hrow)
    have parsed := fromText_text "" fitting (legible_toJson legible) .nil rfl
    rw [String.append_empty] at parsed
    refine bind_eq_ok.mpr ⟨_, success, ?_⟩
    rw [Http.Response.ofJson, parsed]
    rfl

end Table

def Json.nested : Nat → Json
  | 0 => .obj []
  | n + 1 => .obj [("x", nested n)]

theorem Json.nested_encodes (n : Nat) : Encodes json (n + 1) (nested n) (nested n) := by
  induction n with
  | zero => exact json_encodes_obj .nil (List.forall_mem_nil _)
  | succ n ih =>
    exact json_encodes_obj (List.pairwise_singleton ..) (List.forall_mem_singleton.mpr ih)

theorem Json.fractions_nested (n : Nat) : (nested n).fractions = [] := by
  induction n with
  | zero => rfl
  | succ n ih => simp [nested, fractions, fractionsOfFields, ih]

theorem Json.depth_nested (n : Nat) : (nested n).depth = n + 1 := by
  induction n with
  | zero => rfl
  | succ n ih => simp [nested, depth, depthOfFields, ih]

def nestedJob (n : Nat) : Job := .execute [.rows [.nested n]]

/-- The submission of a script with one row in which records are nested. -/
def nestedSubmission (n : Nat) : Json :=
  .obj [("kind", .str "execute"), ("payload", (nestedJob n).payload)]

def nestedRequest (n : Nat) : Http.Request where
  method := "POST"
  path := "/api/v1/tasks"
  contentType := some "application/json"
  body := (nestedSubmission n).text

theorem nestedJob_encodes (n : Nat) :
    Encodes (Job.decodePayload .execute) (n + 5) (nestedJob n) (nestedJob n).payload := by
  have rows : Encodes (list json) (n + 2) [.nested n] (.arr [.nested n]) :=
    list_encodes id (List.forall_mem_singleton.mpr (Json.nested_encodes n))
  have step : Encodes Step.decode (n + 3) (.rows [.nested n]) (Step.rows [.nested n]).toJson := by
    have fits : ∀ g ∈ [("rows", Json.arr [.nested n])], g.2.Fits (n + 2) :=
      List.forall_mem_singleton.mpr rows.fits
    have apart : "op" ∉ ["rows"] := by decide
    refine ⟨.obj (List.forall_mem_cons.mpr ⟨.str _, fits⟩), fun src => ?_⟩
    exact (tagged_of_find apart rfl).trans ((Step.one_encodes rows).again .buffered)
  have steps : Encodes (list Step.decode) (n + 4) [.rows [.nested n]]
      (.arr [(Step.rows [.nested n]).toJson]) :=
    list_encodes Step.toJson (List.forall_mem_singleton.mpr step)
  exact Job.execute_encodes steps

theorem parse_nestedJob (n : Nat) :
    Job.parse .execute (nestedJob n).payload = .ok (nestedJob n) := by
  have read : Job.ofPayload .execute (nestedJob n).payload = .ok (nestedJob n) := by
    rw [Job.ofPayload, fromJson, (nestedJob_encodes n).again .value]
    rfl
  exact bind_eq_ok.mpr ⟨_, read, rfl⟩

theorem nested_payload_encodes (n : Nat) :
    Encodes json (n + 5) (nestedJob n).payload (nestedJob n).payload := by
  have rows : Encodes json (n + 2) (.arr [.nested n]) (.arr [.nested n]) :=
    json_encodes_arr (List.forall_mem_singleton.mpr (Json.nested_encodes n))
  have ordered : Json.InOrder [("op", .str "rows"), ("rows", .arr [.nested n])] :=
    List.pairwise_pair.mpr (show "op" < "rows" by decide)
  have step : Encodes json (n + 3) (Step.rows [.nested n]).toJson (Step.rows [.nested n]).toJson :=
    json_encodes_obj ordered (List.forall_mem_cons.mpr
      ⟨⟨.str _, fun _ => rfl⟩, List.forall_mem_singleton.mpr rows⟩)
  exact json_encodes_obj (List.pairwise_singleton ..) <| List.forall_mem_singleton.mpr <|
    json_encodes_arr (List.forall_mem_singleton.mpr step)

theorem depth_nestedJob (n : Nat) : (nestedJob n).payload.depth = n + 5 := by
  simp [nestedJob, Job.payload, Step.toJson, Json.depth, Json.depthOfFields, Json.depthOfItems,
    Json.depth_nested]

theorem fractions_nestedJob (n : Nat) : (nestedJob n).fractions = [] := by
  simp [nestedJob, Job.fractions, Job.threshold?, Job.payload, Step.toJson, Json.fractions,
    Json.fractionsOfFields, Json.fractionsOfItems, Json.fractions_nested]

theorem Json.length_chars_nested (n : Nat) : (nested n).chars.length = 6 * n + 2 := by
  induction n with
  | zero => rfl
  | succ n ih =>
    have name : (quote "x").length = 3 := by decide
    simp only [nested, chars, charsOfFields, List.length_append, List.length_cons, List.length_nil,
      name, ih]
    omega

theorem length_chars_nestedSubmission (n : Nat) :
    (nestedSubmission n).chars.length = 6 * n + 66 := by
  have names : (Json.quote "kind").length = 6 ∧ (Json.quote "execute").length = 9 ∧
      (Json.quote "payload").length = 9 ∧ (Json.quote "steps").length = 7 ∧
      (Json.quote "op").length = 4 ∧ (Json.quote "rows").length = 6 := by decide
  simp only [nestedSubmission, nestedJob, Job.payload, Step.toJson, List.map_cons, List.map_nil,
    Json.chars, Json.charsOfFields, Json.charsOfItems, List.length_append, List.length_cons,
    List.length_nil, Json.length_chars_nested, names]
  omega

/-- A manager takes the script as long as no more than 127 containers are nested in its request. -/
theorem accepts_nestedRequest {n : Nat} (shallow : n ≤ 121) :
    Router.Accepts (nestedRequest n) (nestedJob n) := by
  -- long requests are refused, but a container takes six characters only
  have short : (Text.utf8 (nestedSubmission n).text).length ≤ Router.maxBody := by
    have chars : (nestedSubmission n).text.toList = (nestedSubmission n).chars :=
      String.toList_ofList
    have bytes := Text.length_utf8_le (nestedSubmission n).text
    rw [chars, length_chars_nestedSubmission] at bytes
    rw [Router.maxBody]
    omega
  have payload : Encodes json 126 (nestedJob n).payload (nestedJob n).payload :=
    (nested_payload_encodes n).of_depth_le (by rw [depth_nestedJob]; omega)
  have fields : Fields.Keep 126
      (.cons { name := "kind", read := string }
        (.cons { name := "payload", read := json, absent := some .null, beyond := some .null }
          .nil))
      ("execute", (nestedJob n).payload, ())
      [("kind", .str "execute"), ("payload", (nestedJob n).payload)] :=
    ⟨rfl, ⟨.str _, fun _ => rfl⟩, rfl, payload, rfl⟩
  have encoded : Encodes Submission.decode Json.maxDepth ⟨"execute", (nestedJob n).payload⟩
      (nestedSubmission n) := record_encodes fields (by decide)
  have readBack : ∀ x ∈ (nestedJob n).fractions, (Number.real x).ReadsBack := by
    simp [fractions_nestedJob]
  have legible : (nestedSubmission n).Legible := Json.legible_obj.mpr (List.forall_mem_cons.mpr
    ⟨Json.legible_str _, List.forall_mem_singleton.mpr (Job.legible_of_readsBack readBack).2⟩)
  have scanned := Json.scan_text encoded.fits legible .nil
  rw [List.append_nil] at scanned
  have read : fromStart Submission.decode (nestedRequest n).body =
      .ok ⟨"execute", (nestedJob n).payload⟩ := by
    rw [nestedRequest, fromStart, scanned]
    exact encoded.again .text
  have isJson : ((some "application/json").bind Http.MediaType.parse?).any
      Http.MediaType.isJson = true := by decide +kernel
  have contentType : (nestedRequest n).contentType = some "application/json" := rfl
  have body : (nestedRequest n).body = (nestedSubmission n).text := rfl
  have submitted : Router.submission (nestedRequest n) =
      .ok ⟨"execute", (nestedJob n).payload⟩ := by
    rw [Router.submission, contentType, isJson, if_neg (by decide), body,
      if_neg (not_lt.mpr short), ← body, read]
  exact ⟨_, .execute, submitted, rfl, parse_nestedJob n⟩

/-- What one hop accepts the next one accepts exactly if two more containers fit around it: in an
assignment, and in a result. -/
theorem hops_agree_iff (r : Http.Request) (a : Assignment) (files : FileSystem) (path : String)
    (t : Table) :
    (Router.Accepts r a.job → (∀ x ∈ a.job.fractions, (Number.real x).ReadsBack) →
      (Worker.assignment (Text.utf8 (a.toJson.text ++ "\n")) = .ok a ↔
        a.job.payload.depth ≤ 125)) ∧
    (files.readTable path = .ok t → (∀ row ∈ t.rows, row.Legible) →
      (Client.valueOf Table.decode (.ofJson 200 t.toJson) = .ok t ↔
        ∀ row ∈ t.rows, row.depth ≤ 125)) := by
  refine ⟨fun accepted readBack => ?_, fun loaded => ?_⟩
  · -- The assignment adds its own container and the one that names the kind.
    obtain ⟨s, kind, submitted, -, valid⟩ := accepted
    obtain ⟨finite, legible⟩ := Job.legible_of_readsBack readBack
    constructor
    · intro h
      exact Worker.depth_le_of_assignment h finite
    · intro shallow
      have fits := Router.fits_of_submission submitted
      obtain ⟨rfl, encoded⟩ := Job.encodes_of_parse fits valid finite
      exact Assignment.read_input (Assignment.toJson_encodes (encoded.of_depth_le shallow)) legible
  · exact Table.valueOf_iff (Table.encodes_of_readTable loaded)

def nestedFiles : FileSystem :=
  { entries := [(["work", "t.jsonl"], .file (Text.utf8 ((Json.nested 1).text ++ "\n")))] }

/-- A worker gets the script as long as only 125 containers are nested in its payload. -/
theorem nested_delivered :
    (∃ a : Assignment, Router.Accepts (nestedRequest 120) a.job ∧ a.job.fractions = [] ∧
      Worker.assignment (Text.utf8 (a.toJson.text ++ "\n")) = .ok a) ∧
    ∃ t, nestedFiles.readTable "t.jsonl" = .ok t ∧ (∀ row ∈ t.rows, row.Legible) ∧
      Client.valueOf Table.decode (.ofJson 200 t.toJson) = .ok t := by
  let a : Assignment := ⟨"t", "t.jsonl", nestedJob 120⟩
  have accepted : Router.Accepts (nestedRequest 120) a.job := accepts_nestedRequest (by decide)
  have fractions : a.job.fractions = [] := fractions_nestedJob 120
  have readBack : ∀ x ∈ a.job.fractions, (Number.real x).ReadsBack := by simp [fractions]
  have shallow : a.job.payload.depth ≤ 125 := (depth_nestedJob 120).le
  have stored : passes (nestedFiles.readTable "t.jsonl") (fun t => t.rows.all fun row =>
      row.fractions == [] && decide (row.depth ≤ 125)) = true := by decide +kernel
  obtain ⟨t, loaded, h⟩ := exists_of_passes stored
  simp only [List.all_eq_true, Bool.and_eq_true, beq_iff_eq, decide_eq_true_eq] at h
  have legible : ∀ row ∈ t.rows, row.Legible := fun row hrow x hx => by
    rw [(h row hrow).1] at hx
    cases hx
  obtain ⟨script, table⟩ := hops_agree_iff (nestedRequest 120) a nestedFiles "t.jsonl" t
  exact ⟨⟨a, accepted, fractions, (script accepted readBack).mpr shallow⟩,
    t, loaded, legible, (table loaded legible).mpr fun row hrow => (h row hrow).2⟩

/-- With one container more the manager takes the script, but no worker gets it. -/
theorem nested_not_delivered :
    Router.Accepts (nestedRequest 121) (nestedJob 121) ∧ (nestedJob 121).fractions = [] ∧
      ∀ (input : Text.Bytes) (a : Assignment), Worker.assignment input = .ok a →
        a.job ≠ nestedJob 121 := by
  refine ⟨accepts_nestedRequest (by decide), fractions_nestedJob 121, fun input a h same => ?_⟩
  have shallow := Worker.depth_le_of_assignment h (by rw [same]; nofun)
  rw [same, depth_nestedJob] at shallow
  omega

end TaskFlow
