import TaskFlow.Proofs.Json.Decode

namespace TaskFlow.Json

theorem ScansAs.field {n : Nat} {j k : Json} (name : String) (h : ScansAs n j k) :
    FieldScansAs n (name, j) (name, k) := ⟨rfl, h⟩

theorem scansAs_null {n : Nat} : ScansAs n .null .null :=
  .scalar rfl (by decide) (by decide) fun _ _ _ => scanScalar_null

theorem scansAs_ofNat {n k : Nat} (h : k < UInt64.size) :
    ScansAs n (Json.ofNat k) (Json.ofNat k) :=
  scansAs_num (spells_int ⟨by omega, Int.ofNat_lt.mpr h⟩)

namespace Decode

theorem single_eq_ok {src : Source} {d : Doc} {x : Single} (h : single src d = .ok x) :
    ∃ y, d = .num y := by
  unfold single at h
  split at h
  · exact ⟨_, rfl⟩
  · exact ⟨_, rfl⟩
  · exact ⟨_, rfl⟩
  · exact absurd h wrongType_ne_ok

theorem single_num {src : Source} (src' : Source) {y : Number} {x : Single}
    (h : single src (.num y) = .ok x) : single src' (.num y) = .ok x := by
  cases y <;> exact h

/-- A fraction that is read back is a number, and its text spells one that has its 32 bits. -/
theorem spells_fraction {x : Single} (h : fromText single (Number.single x).text = .ok x) :
    ∃ y, Json.ofSingle x = .num (.single x) ∧ (∀ n, Encodes single n x (.num y)) ∧
      Spells (Number.single x).text.toList y := by
  obtain ⟨d, after, scanned, read, whole⟩ := fromText_eq_ok.mp h
  obtain ⟨y, rfl⟩ := single_eq_ok read
  have spells : Spells (Number.single x).text.toList y :=
    spells_of_parse (parse_eq_ok.mpr ⟨_, after, scanned, rfl, whole⟩)
  have fits := fits_scan (Number.single x).text.toList
  rw [scanned] at fits
  refine ⟨y, if_pos ?_, fun n => ⟨?_, fun src => single_num src read⟩, spells⟩
  · by_contra infinite
    have null : (Number.single x).text = "null" := if_neg infinite
    have none : (fromText single "null").toOption = none := by decide +kernel
    rw [← null, h] at none
    cases none
  · cases fits with
    | num spelled => exact .num spelled

/-- A JSON value whose text is scanned as one from which a value is read. -/
def Carries {α : Type} (read : Decoder α) (n : Nat) (a : α) (j : Json) : Prop :=
  ∃ k, ScansAs n j k ∧ Encodes read n a k

variable {α : Type} {n : Nat} {read : Decoder α} {a : α} {j : Json}

theorem Carries.fromText (h : Carries read maxDepth a j) : fromText read j.text = .ok a := by
  obtain ⟨k, scans, encoded⟩ := h
  have whole := fromText_scansAs "" scans (encoded.again .text) .nil rfl
  rwa [String.append_empty] at whole

theorem Carries.map {β : Type} (h : Carries read n a j) (f : α → β) :
    Carries (fun src d => (read src d).map f) n (f a) j := by
  obtain ⟨k, scans, encoded⟩ := h
  exact ⟨k, scans, encoded.fits, fun src => by rw [encoded.again src]; rfl⟩

theorem carries_string (s : String) : Carries string n s (.str s) :=
  ⟨_, scansAs_str s, .str s, fun _ => rfl⟩

theorem carries_natural {expected : String} {k : Nat} (h : k < UInt64.size) :
    Carries (natural expected) n k (Json.ofNat k) :=
  ⟨_, scansAs_ofNat h, .num ⟨by omega, Int.ofNat_lt.mpr h⟩, fun _ => rfl⟩

theorem carries_single {x : Single} (h : Decode.fromText single (Number.single x).text = .ok x) :
    Carries single n x (Json.ofSingle x) := by
  obtain ⟨y, number, encoded, spells⟩ := spells_fraction h
  rw [number]
  exact ⟨_, scansAs_num spells, encoded n⟩

theorem carries_names {options : List (String × α)} {name k : String}
    (found : options.find? (·.1 == name) = some (k, a)) : Carries (names options) n a (.str name) :=
  ⟨_, scansAs_str name, .str name, fun _ => names_of_find found⟩

theorem carries_null : Carries (optional read) n none .null :=
  ⟨.null, scansAs_null, .null, fun _ => rfl⟩

theorem Carries.optional (h : Carries read n a j) (refuses : ∀ src, read src .null ≠ .ok a) :
    Carries (optional read) n (some a) j := by
  obtain ⟨k, scans, encoded⟩ := h
  refine ⟨k, scans, encoded.fits, fun src => ?_⟩
  have again := encoded.again src
  unfold Decode.optional
  split
  · next null =>
    rw [null] at again
    exact absurd again (refuses src)
  · rw [again]
    rfl

theorem carries_list {write : α → Json} {xs : List α} (h : ∀ x ∈ xs, Carries read n x (write x)) :
    Carries (list read) (n + 1) xs (.arr (xs.map write)) := by
  choose! again scans encoded using h
  exact ⟨_, scansAs_arr (List.forall₂_map_left_iff.mpr (List.forall₂_map_right_iff.mpr
    (List.forall₂_same.mpr scans))), list_encodes again encoded⟩

/-- An object with a tag and a content carries what the option that the tag names reads. -/
theorem carries_adjacent {title tag content name k : String} {options : List (String × Decoder α)}
    (apart : content ≠ tag) (found : options.find? (·.1 == name) = some (k, read))
    (h : Carries read n a j) : Carries (adjacent title tag content options) (n + 1) a
      (.obj [(tag, .str name), (content, j)]) := by
  obtain ⟨i, scans, encoded⟩ := h
  refine ⟨_, scansAs_obj (.cons ((scansAs_str name).field tag) (.cons (scans.field content) .nil)),
    ?_, fun src => (adjacent_of_find apart found).mpr (encoded.again src)⟩
  exact .obj (List.forall_mem_cons.mpr ⟨.str name, List.forall_mem_singleton.mpr encoded.fits⟩)

/-- Fields of an object that carry the values of a record, in order. -/
def Fields.Carry (n : Nat) {αs : List Type} (fs : Fields αs) (vs : Values αs)
    (gs : List (String × Json)) : Prop :=
  ∃ ks, List.Forall₂ (FieldScansAs n) gs ks ∧ fs.Keep n vs ks

theorem Fields.Carry.nil : Fields.nil.Carry n () [] := ⟨[], .nil, rfl⟩

theorem Fields.Carry.cons {αs : List Type} {f : FieldSpec α} {fs : Fields αs} {vs : Values αs}
    {gs : List (String × Json)} (first : Carries f.read n a j) (rest : fs.Carry n vs gs) :
    (Fields.cons f fs).Carry n (a, vs) ((f.name, j) :: gs) := by
  obtain ⟨k, scans, encoded⟩ := first
  obtain ⟨ks, scanned, kept⟩ := rest
  exact ⟨(f.name, k) :: ks, .cons (scans.field f.name) scanned, rfl, encoded, kept⟩

theorem carries_record {αs : List Type} {title : String} {strict : Bool} {fs : Fields αs}
    {make : Values αs → α} {vs : Values αs} {gs : List (String × Json)} (h : fs.Carry n vs gs)
    (nodup : fs.names.Nodup) :
    Carries (record title strict fs make) (n + 1) (make vs) (.obj gs) := by
  obtain ⟨ks, scanned, kept⟩ := h
  exact ⟨.obj ks, scansAs_obj scanned, record_encodes kept nodup⟩

end Decode

end TaskFlow.Json
