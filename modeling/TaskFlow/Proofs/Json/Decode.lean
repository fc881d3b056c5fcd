import TaskFlow.Proofs.Json.Objects
import TaskFlow.Proofs.Json.Text

namespace TaskFlow.Json.Decode

variable {α : Type} {src : Source} {d : Doc} {n : Nat}

theorem wrongType_ne_ok {expected : String} {a : α} : wrongType src expected d ≠ .ok a := by
  cases d <;> nofun

/-- A JSON value that fits, and from which a value is read whatever it is part of. -/
structure Encodes (read : Decoder α) (n : Nat) (a : α) (j : Json) : Prop where
  fits : j.Fits n
  again : ∀ src, read src (Doc.ofJson j) = .ok a

theorem Encodes.of_depth_le {read : Decoder α} {a : α} {j : Json} {m : Nat} (h : Encodes read n a j)
    (le : j.depth ≤ m) : Encodes read m a j := ⟨h.fits.of_depth_le le, h.again⟩

/-- A decoder that reads back how the values it makes are written. -/
def Faithful (read : Decoder α) (write : α → Json) : Prop :=
  ∀ ⦃n : Nat⦄ ⦃src : Source⦄ ⦃d : Doc⦄ ⦃a : α⦄, d.Fits n → read src d = .ok a →
    Encodes read n a (write a)

theorem json_encodes_iff {j : Json} : Encodes json n j j ↔ j.Tidy n := by
  constructor
  · intro h
    exact Doc.read_tidy (Doc.fits_ofJson h.fits) (lift_eq_ok.mp (h.again .value))
  · intro tidy
    exact ⟨tidy.fits, fun _ => lift_eq_ok.mpr (Doc.read_ofJson tidy)⟩

theorem faithful_json : Faithful json id := by
  intro n src d j fits h
  exact json_encodes_iff.mpr (Doc.read_tidy fits (lift_eq_ok.mp h))

theorem json_encodes_arr {xs : List Json} (h : ∀ x ∈ xs, Encodes json n x x) :
    Encodes json (n + 1) (.arr xs) (.arr xs) :=
  json_encodes_iff.mpr (.arr fun x hx => json_encodes_iff.mp (h x hx))

theorem json_encodes_obj {fs : List (String × Json)} (ordered : InOrder fs)
    (h : ∀ f ∈ fs, Encodes json n f.2 f.2) : Encodes json (n + 1) (.obj fs) (.obj fs) :=
  json_encodes_iff.mpr (.obj ordered fun f hf => json_encodes_iff.mp (h f hf))

theorem faithful_string : Faithful string .str := by
  intro n src d s _ h
  exact ⟨.str s, fun _ => rfl⟩

theorem natural_eq_ok {expected : String} {k : Nat} (h : natural expected src d = .ok k) :
    d = .num (.int k) := by
  unfold natural at h
  split at h
  · split at h
    · next nonneg =>
      cases h
      rw [Int.toNat_of_nonneg nonneg]
    · cases h
  · exact absurd h wrongType_ne_ok

theorem faithful_natural (expected : String) : Faithful (natural expected) Json.ofNat := by
  intro n src d k fits h
  obtain rfl := natural_eq_ok h
  cases fits with
  | num spelled => exact ⟨.num spelled, fun _ => rfl⟩

theorem items_encodes {read : Decoder α} {write : α → Json} (h : Faithful read write) {i : Nat}
    {ds : List Doc} {xs : List α} (fits : ∀ d ∈ ds, d.Fits n)
    (ok : items read src i ds = .ok xs) : ∀ x ∈ xs, Encodes read n x (write x) := by
  induction ds generalizing i xs with
  | nil =>
    cases ok
    exact List.forall_mem_nil _
  | cons d ds ih =>
    obtain ⟨fit, fits⟩ := List.forall_mem_cons.mp fits
    obtain ⟨x, hx, ok⟩ := bind_eq_ok.mp ok
    obtain ⟨xs, hxs, ok⟩ := bind_eq_ok.mp ok
    cases ok
    exact List.forall_mem_cons.mpr ⟨h fit (inPart_eq_ok.mp hx), ih fits hxs⟩

theorem items_again {read : Decoder α} {write : α → Json} {i : Nat} {xs : List α}
    (h : ∀ x ∈ xs, Encodes read n x (write x)) :
    items read src i (Doc.ofItems (xs.map write)) = .ok xs := by
  induction xs generalizing i with
  | nil => rfl
  | cons x xs ih =>
    obtain ⟨first, others⟩ := List.forall_mem_cons.mp h
    exact bind_eq_ok.mpr ⟨x, inPart_eq_ok.mpr (first.again src), bind_eq_ok.mpr
      ⟨xs, ih others, rfl⟩⟩

theorem list_eq_ok {read : Decoder α} {xs : List α} (h : list read src d = .ok xs) :
    ∃ ds cut, d = .arr ds cut ∧ items read src 0 ds = .ok xs := by
  unfold list at h
  split at h
  · next ds cut =>
    obtain ⟨xs, hxs, h⟩ := bind_eq_ok.mp h
    obtain ⟨⟨⟩, -, h⟩ := bind_eq_ok.mp h
    cases h
    exact ⟨ds, cut, rfl, hxs⟩
  · exact absurd h wrongType_ne_ok

theorem list_encodes {read : Decoder α} (write : α → Json) {xs : List α}
    (h : ∀ x ∈ xs, Encodes read n x (write x)) :
    Encodes (list read) (n + 1) xs (.arr (xs.map write)) :=
  ⟨.arr (List.forall_mem_map.mpr fun x hx => (h x hx).fits), fun _ =>
    bind_eq_ok.mpr ⟨xs, items_again h, rfl⟩⟩

theorem faithful_list {read : Decoder α} {write : α → Json} (h : Faithful read write) :
    Faithful (list read) fun xs => .arr (xs.map write) := by
  intro n src d xs fits ok
  obtain ⟨ds, cut, rfl, hxs⟩ := list_eq_ok ok
  cases fits with
  | arr fits => exact list_encodes write (items_encodes h fits hxs)

/-- What a list that is read back is made of is read back one level further in. -/
theorem encodes_of_list {read : Decoder α} (write : α → Json) (faithful : Faithful read write)
    {xs : List α} (h : Encodes (list read) n xs (.arr (xs.map write))) :
    ∃ m, n = m + 1 ∧ ∀ x ∈ xs, Encodes read m x (write x) := by
  obtain ⟨ds, cut, same, items⟩ := list_eq_ok (h.again .value)
  obtain ⟨rfl, -⟩ := Doc.arr.inj same
  cases h.fits with
  | arr fits =>
    rw [Doc.ofItems_eq_map] at items
    exact ⟨_, rfl, items_encodes faithful
      (List.forall_mem_map.mpr fun x hx => Doc.fits_ofJson (fits x hx)) items⟩

namespace Fields

variable {αs : List Type}

/-- A property of the values of the fields that are known. -/
def EachKnown (P : ∀ {α : Type}, FieldSpec α → α → Prop) :
    {αs : List Type} → Fields αs → Slots αs → Prop
  | _, .nil, _ => True
  | _, .cons f fs, (slot, slots) => (∀ v, slot = some v → P f v) ∧ fs.EachKnown P slots

/-- Where the value of a field may come from: a default, or a document that fits. -/
def CameFrom (n : Nat) {α : Type} (f : FieldSpec α) (v : α) : Prop :=
  f.absent = some v ∨ f.beyond = some v ∨ ∃ src d, d.Fits n ∧ f.read src d = .ok v

theorem CameFrom.encodes {f : FieldSpec α} {write : α → Json} {v : α} (h : CameFrom n f v)
    (required : f.absent = none ∧ f.beyond = none) (faithful : Faithful f.read write) :
    Encodes f.read n v (write v) := by
  rcases h with h | h | ⟨src, d, fits, h⟩
  · rw [required.1] at h
    cases h
  · rw [required.2] at h
    cases h
  · exact faithful fits h

theorem eachKnown_noSlots (P : ∀ {α : Type}, FieldSpec α → α → Prop) (fs : Fields αs) :
    fs.EachKnown P fs.noSlots := by
  induction fs with
  | nil => trivial
  | cons f fs ih => exact ⟨nofun, ih⟩

theorem eachKnown_store {name : String} {fs : Fields αs} {slots slots' : Slots αs}
    (fits : d.Fits n) (known : fs.EachKnown (CameFrom n) slots)
    (h : fs.store src name d slots = .stored slots') : fs.EachKnown (CameFrom n) slots' := by
  induction fs with
  | nil => cases h
  | cons f fs ih =>
    obtain ⟨slot, slots⟩ := slots
    obtain ⟨first, others⟩ := known
    rw [store] at h
    split at h
    · split at h
      · cases h
      · split at h
        · next v read =>
          cases h
          refine ⟨fun w hw => ?_, others⟩
          cases hw
          exact .inr (.inr ⟨src, d, fits, read⟩)
        · cases h
    · split at h
      · cases h
      · cases h
      · cases h
      · next stored =>
        cases h
        exact ⟨first, ih others stored⟩

theorem eachKnown_readObject {strict : Bool} {fs : Fields αs} {i : Nat}
    {fields : List (Key × Doc)} {slots slots' : Slots αs} (fits : ∀ f ∈ fields, f.2.Fits n)
    (known : fs.EachKnown (CameFrom n) slots)
    (h : fs.readObject src strict i fields slots = .ok slots') :
    fs.EachKnown (CameFrom n) slots' := by
  induction fields generalizing i slots with
  | nil =>
    cases h
    exact known
  | cons f fields ih =>
    obtain ⟨fit, fits⟩ := List.forall_mem_cons.mp fits
    obtain ⟨name, -, h⟩ := bind_eq_ok.mp h
    split at h
    · split at h
      · cases h
      · obtain ⟨⟨⟩, -, h⟩ := bind_eq_ok.mp h
        exact ih fits known h
    · cases h
    · rw [inPart_eq_ok] at h
      cases h
    · next stored => exact ih fits (eachKnown_store fit known stored) h

theorem each_complete {fs : Fields αs} {slots : Slots αs} {vs : Values αs}
    (known : fs.EachKnown (CameFrom n) slots) (h : fs.complete slots = .ok vs) :
    fs.Each (CameFrom n) vs := by
  induction fs with
  | nil => trivial
  | cons f fs ih =>
    obtain ⟨slot, slots⟩ := slots
    obtain ⟨first, others⟩ := known
    rw [complete] at h
    split at h
    · next v hv =>
      obtain ⟨_, ⟨⟩, h⟩ := bind_eq_ok.mp h
      obtain ⟨vs, hvs, h⟩ := bind_eq_ok.mp h
      cases h
      refine ⟨?_, ih others hvs⟩
      cases slot with
      | some w =>
        cases hv
        exact first _ rfl
      | none => exact .inl hv
    · cases h

theorem each_readArray {fs : Fields αs} {i : Nat} {ds rest : List Doc} {vs : Values αs}
    (fits : ∀ d ∈ ds, d.Fits n) (h : fs.readArray src i ds = .ok (vs, rest)) :
    fs.Each (CameFrom n) vs := by
  induction fs generalizing i ds with
  | nil => trivial
  | cons f fs ih =>
    cases ds with
    | nil =>
      rw [readArray] at h
      split at h
      · next v beyond =>
        obtain ⟨_, ⟨⟩, h⟩ := bind_eq_ok.mp h
        obtain ⟨⟨vs, ds⟩, hvs, h⟩ := bind_eq_ok.mp h
        cases h
        exact ⟨.inr (.inl beyond), ih fits hvs⟩
      · cases h
    | cons d ds =>
      obtain ⟨fit, fits⟩ := List.forall_mem_cons.mp fits
      rw [readArray] at h
      obtain ⟨v, hv, h⟩ := bind_eq_ok.mp h
      obtain ⟨⟨vs, ds⟩, hvs, h⟩ := bind_eq_ok.mp h
      cases h
      exact ⟨.inr (.inr ⟨src, d, fit, inPart_eq_ok.mp (mapError_eq_ok.mp hv)⟩), ih fits hvs⟩

/-- Fields of an object that hold the values of a record, in order. -/
def Keep (n : Nat) : {αs : List Type} → Fields αs → Values αs → List (String × Json) → Prop
  | _, .nil, _, gs => gs = []
  | _, .cons _ _, _, [] => False
  | _, .cons f fs, (v, vs), (name, j) :: gs =>
    name = f.name ∧ Encodes f.read n v j ∧ fs.Keep n vs gs

theorem Keep.fits {fs : Fields αs} {gs : List (String × Json)} {vs : Values αs}
    (h : fs.Keep n vs gs) : ∀ g ∈ gs, g.2.Fits n := by
  induction fs generalizing gs with
  | nil =>
    cases h
    exact List.forall_mem_nil _
  | cons f fs ih =>
    obtain _ | ⟨⟨name, j⟩, gs⟩ := gs
    · exact h.elim
    obtain ⟨v, vs⟩ := vs
    obtain ⟨-, encoded, h⟩ := h
    exact List.forall_mem_cons.mpr ⟨encoded.fits, ih h⟩

theorem Keep.names {fs : Fields αs} {gs : List (String × Json)} {vs : Values αs}
    (h : fs.Keep n vs gs) : gs.map (·.1) = fs.names := by
  induction fs generalizing gs with
  | nil =>
    cases h
    rfl
  | cons f fs ih =>
    obtain _ | ⟨⟨name, j⟩, gs⟩ := gs
    · exact h.elim
    obtain ⟨v, vs⟩ := vs
    obtain ⟨rfl, -, h⟩ := h
    rw [List.map_cons, ih h]
    rfl

theorem Keep.given (src : Source) {fs : Fields αs} {gs : List (String × Json)} {vs : Values αs}
    (h : fs.Keep n vs gs) (nodup : fs.names.Nodup) : fs.Each (Given src gs) vs := by
  induction fs generalizing gs with
  | nil => trivial
  | cons f fs ih =>
    obtain _ | ⟨⟨name, j⟩, gs⟩ := gs
    · exact h.elim
    obtain ⟨v, vs⟩ := vs
    obtain ⟨rfl, encoded, h⟩ := h
    obtain ⟨fresh, nodup⟩ := List.nodup_cons.mp nodup
    refine ⟨.read ?_ (encoded.again src), Each.mono (fun g w hg => ?_) (ih h nodup)⟩
    · rw [under_cons_self, under_of_not_mem (h.names ▸ fresh)]
    · have other : g.name ≠ f.name := fun same => fresh (same ▸ hg)
      exact (given_cons other).mpr

end Fields

theorem exists_make_of_record {αs : List Type} {title : String} {strict : Bool}
    {fs : Fields αs} {make : Values αs → α} {a : α}
    (h : record title strict fs make src d = .ok a) : ∃ vs, a = make vs := by
  unfold record at h
  split at h
  · obtain ⟨slots, -, h⟩ := bind_eq_ok.mp h
    obtain ⟨⟨⟩, -, h⟩ := bind_eq_ok.mp h
    split at h
    · next vs _ =>
      cases h
      exact ⟨vs, rfl⟩
    · cases h
  · split at h
    · cases h
    · obtain ⟨⟨⟩, -, h⟩ := bind_eq_ok.mp h
      cases h
    · next vs rest _ =>
      obtain ⟨⟨⟩, -, h⟩ := bind_eq_ok.mp h
      cases h
      exact ⟨vs, rfl⟩
  · exact absurd h wrongType_ne_ok

/-- The values of a record each came from a document one level further in, or were left out. -/
theorem record_eq_ok {αs : List Type} {title : String} {strict : Bool} {fs : Fields αs}
    {make : Values αs → α} {a : α} (fits : d.Fits n)
    (h : record title strict fs make src d = .ok a) :
    ∃ m vs, n = m + 1 ∧ a = make vs ∧ fs.Each (Fields.CameFrom m) vs := by
  unfold record at h
  split at h
  · obtain ⟨slots, hs, h⟩ := bind_eq_ok.mp h
    obtain ⟨⟨⟩, -, h⟩ := bind_eq_ok.mp h
    split at h
    · next vs complete =>
      cases h
      cases fits with
      | obj fits =>
        exact ⟨_, vs, rfl, rfl, Fields.each_complete
          (Fields.eachKnown_readObject fits (Fields.eachKnown_noSlots _ fs) hs) complete⟩
    · cases h
  · split at h
    · cases h
    · obtain ⟨⟨⟩, -, h⟩ := bind_eq_ok.mp h
      cases h
    · next vs rest read =>
      obtain ⟨⟨⟩, -, h⟩ := bind_eq_ok.mp h
      cases h
      cases fits with
      | arr fits => exact ⟨_, vs, rfl, rfl, Fields.each_readArray fits read⟩
  · exact absurd h wrongType_ne_ok

theorem record_encodes {αs : List Type} {title : String} {strict : Bool} {fs : Fields αs}
    {make : Values αs → α} {gs : List (String × Json)} {vs : Values αs}
    (h : fs.Keep n vs gs) (nodup : fs.names.Nodup) :
    Encodes (record title strict fs make) (n + 1) (make vs) (.obj gs) := by
  refine ⟨.obj h.fits, fun src => ?_⟩
  refine (record_obj_iff nodup).mpr ⟨vs, rfl, h.given src nodup, fun _ g hg => ?_⟩
  rw [← h.names]
  exact List.mem_map_of_mem hg

theorem find?_of_mem {β : Type} {options : List (String × β)} {o : String × β}
    (nodup : (options.map (·.1)).Nodup) (h : o ∈ options) :
    options.find? (·.1 == o.1) = some o := by
  induction options with
  | nil => cases h
  | cons p options ih =>
    obtain ⟨fresh, nodup⟩ := List.nodup_cons.mp nodup
    rcases List.mem_cons.mp h with rfl | h
    · exact List.find?_cons_of_pos (beq_self_eq_true _)
    · have other : p.1 ≠ o.1 := fun same => fresh (List.mem_map.mpr ⟨o, h, same.symm⟩)
      rw [List.find?_cons_of_neg (by simpa using other), ih nodup h]

theorem option_eq_ok {options : List (String × α)} {name : String} {moment : Moment} {a : α}
    (h : option src options name moment = .ok a) : ∃ k, (k, a) ∈ options := by
  obtain ⟨o, found, rfl⟩ := Option.map_eq_some_iff.mp (option_iff.mp h)
  exact ⟨o.1, List.mem_of_find?_eq_some found⟩

theorem option_of_find {options : List (String × α)} {name k : String} {moment : Moment} {a : α}
    (h : options.find? (·.1 == name) = some (k, a)) : option src options name moment = .ok a :=
  option_iff.mpr (Option.map_eq_some_iff.mpr ⟨_, h, rfl⟩)

theorem choice_eq_ok {options : List (String × Carried α)} {a : α} (fits : d.Fits n)
    (h : choice options src d = .ok a) : ∃ o ∈ options, o.2.named = .ok a ∨
      ∃ m src' d', n = m + 1 ∧ d'.Fits m ∧ o.2.read src' d' = .ok a := by
  unfold choice at h
  split at h
  · obtain ⟨c, chosen, h⟩ := bind_eq_ok.mp h
    obtain ⟨k, hk⟩ := option_eq_ok chosen
    exact ⟨_, hk, .inl h⟩
  · next fields cut =>
    split at h
    · split at h <;> cases h
    · next key part more =>
      obtain ⟨name, -, h⟩ := bind_eq_ok.mp h
      obtain ⟨c, chosen, h⟩ := bind_eq_ok.mp h
      obtain ⟨k, hk⟩ := option_eq_ok chosen
      have read : c.read .text part = .ok a := by
        dsimp only at h
        split at h
        · cases h
        · obtain ⟨b, read, h⟩ := bind_eq_ok.mp h
          split at h
          · cases h
            exact read
          · split at h <;> cases h
          · cases h
      cases fits with
      | obj fits =>
        exact ⟨_, hk, .inr ⟨_, .text, part, rfl, fits _ (List.mem_cons_self ..), read⟩⟩
    · obtain ⟨c, chosen, h⟩ := bind_eq_ok.mp h
      obtain ⟨k, hk⟩ := option_eq_ok chosen
      cases fits with
      | obj fits => exact ⟨_, hk, .inr ⟨_, src, _, rfl, fits _ (List.mem_singleton_self _), h⟩⟩
    · cases h
  · cases h
  · cases h
  · split at h
    · cases h
    · exact absurd h wrongType_ne_ok

theorem unit_alone {a b : α} (h : (Carried.alone a).read src d = .ok b) : b = a := by
  have read : (unit src d).map (fun _ => a) = .ok b := h
  cases hu : unit src d <;> rw [hu] at read <;> cases read
  rfl

theorem names_eq_ok {options : List (String × α)} {a : α} (fits : d.Fits n)
    (h : names options src d = .ok a) : ∃ k, (k, a) ∈ options := by
  obtain ⟨o, ho, h⟩ := choice_eq_ok fits h
  obtain ⟨⟨k, b⟩, hb, rfl⟩ := List.mem_map.mp ho
  refine ⟨k, ?_⟩
  rcases h with h | ⟨m, src', d', -, -, h⟩
  · cases h
    exact hb
  · exact unit_alone h ▸ hb

theorem names_of_find {options : List (String × α)} {name k : String} {a : α}
    (h : options.find? (·.1 == name) = some (k, a)) :
    names options src (.str name) = .ok a := by
  have found : (options.map fun o => (o.1, Carried.alone o.2)).find? (·.1 == name) =
      some (k, .alone a) := by
    rw [List.find?_map]
    exact congrArg _ h
  exact bind_eq_ok.mpr ⟨_, option_of_find found, rfl⟩

theorem choice_of_find {options : List (String × Carried α)} {name k : String} {read : Decoder α}
    {j : Json} {a : α} (found : options.find? (·.1 == name) = some (k, .holding read))
    (h : read src (Doc.ofJson j) = .ok a) :
    choice options src (Doc.ofJson (.obj [(name, j)])) = .ok a :=
  choice_obj_iff.mpr ⟨name, j, _, rfl, Option.map_eq_some_iff.mpr ⟨_, found, rfl⟩, h⟩

theorem faithful_choice {options : List (String × Carried α)} {write : α → Json}
    (nodup : (options.map (·.1)).Nodup)
    (keeps : ∀ o ∈ options, ∃ read : Decoder α, o.2 = .holding read ∧
      ∀ ⦃m src d a⦄, d.Fits m → read src d = .ok a →
        ∃ j, write a = .obj [(o.1, j)] ∧ Encodes read m a j) :
    Faithful (choice options) write := by
  intro n src d a fits h
  obtain ⟨⟨name, c⟩, ho, h⟩ := choice_eq_ok fits h
  obtain ⟨read, hc, keeps⟩ := keeps _ ho
  dsimp only at hc h
  subst hc
  rcases h with h | ⟨m, src', d', rfl, fits', h⟩
  · cases h
  · obtain ⟨j, written, encoded⟩ := keeps fits' h
    rw [written]
    exact ⟨.obj (List.forall_mem_singleton.mpr encoded.fits), fun src =>
      choice_of_find (find?_of_mem nodup ho) (encoded.again src)⟩

theorem faithful_names {options : List (String × α)} {write : α → Json}
    (nodup : (options.map (·.1)).Nodup) (written : ∀ o ∈ options, write o.2 = .str o.1) :
    Faithful (names options) write := by
  intro n src d a fits h
  obtain ⟨k, hk⟩ := names_eq_ok fits h
  rw [written _ hk]
  exact ⟨.str k, fun _ => names_of_find (find?_of_mem nodup hk)⟩

theorem tagName_eq_ok {options : List (String × α)} {a : α}
    (h : tagName options src d = .ok a) : ∃ k, (k, a) ∈ options := by
  unfold tagName at h
  split at h
  · exact option_eq_ok h
  · exact absurd h wrongType_ne_ok

theorem splitTag_eq_ok {tag : String} {options : List (String × α)} {i : Nat}
    {fields others : List (Key × Doc)} {before found : Option α}
    (fits : ∀ f ∈ fields, f.2.Fits n)
    (h : splitTag src tag options i fields before = .ok (found, others)) :
    (∀ a, found = some a → before = some a ∨ ∃ k, (k, a) ∈ options) ∧
      ∀ f ∈ others, f.2.Fits n := by
  induction fields generalizing i before others with
  | nil =>
    cases h
    exact ⟨fun a => .inl, List.forall_mem_nil _⟩
  | cons f fields ih =>
    obtain ⟨fit, fits⟩ := List.forall_mem_cons.mp fits
    obtain ⟨name, -, h⟩ := bind_eq_ok.mp h
    split at h
    · split at h
      · cases h
      · obtain ⟨b, chosen, h⟩ := bind_eq_ok.mp h
        obtain ⟨named, others⟩ := ih fits h
        refine ⟨fun a ha => .inr ?_, others⟩
        rcases named a ha with h | h
        · cases h
          exact tagName_eq_ok (inPart_eq_ok.mp chosen)
        · exact h
    · obtain ⟨⟨⟩, -, h⟩ := bind_eq_ok.mp h
      obtain ⟨⟨found', others'⟩, rest, h⟩ := bind_eq_ok.mp h
      cases h
      obtain ⟨named, others⟩ := ih fits rest
      exact ⟨named, List.forall_mem_cons.mpr ⟨fit, others⟩⟩

theorem tagged_eq_ok {title tag : String} {options : List (String × Decoder α)} {a : α}
    (fits : d.Fits n) (h : tagged title tag options src d = .ok a) :
    ∃ m, n = m + 1 ∧ ∃ o ∈ options, ∃ d', d'.Fits n ∧ o.2 .buffered d' = .ok a := by
  unfold tagged at h
  split at h
  · obtain ⟨⟨found, others⟩, gathered, h⟩ := bind_eq_ok.mp h
    obtain ⟨⟨⟩, -, h⟩ := bind_eq_ok.mp h
    cases fits with
    | obj fits =>
      obtain ⟨named, fitting⟩ := splitTag_eq_ok fits gathered
      split at h
      · obtain ⟨⟨⟩⟩ | ⟨k, hk⟩ := named _ rfl
        exact ⟨_, rfl, _, hk, _, .obj fitting, h⟩
      · cases h
  · obtain ⟨⟨⟩, -, h⟩ := bind_eq_ok.mp h
    cases h
  · obtain ⟨read, chosen, h⟩ := bind_eq_ok.mp h
    obtain ⟨⟨⟩, -, h⟩ := bind_eq_ok.mp h
    obtain ⟨⟨⟩, -, h⟩ := bind_eq_ok.mp h
    obtain ⟨k, hk⟩ := tagName_eq_ok (inPart_eq_ok.mp chosen)
    cases fits with
    | arr fits => exact ⟨_, rfl, _, hk, _, .arr (List.forall_mem_cons.mp fits).2, h⟩
  · exact absurd h wrongType_ne_ok

theorem tagged_of_find {title tag name k : String} {options : List (String × Decoder α)}
    {read : Decoder α} {gs : List (String × Json)} (apart : tag ∉ gs.map (·.1))
    (found : options.find? (·.1 == name) = some (k, read)) :
    tagged title tag options src (Doc.ofJson (.obj ((tag, .str name) :: gs))) =
      read .buffered (Doc.ofJson (.obj gs)) := by
  have gathered : splitTag src tag options 0 (Doc.ofFields ((tag, .str name) :: gs)) none =
      .ok (some read, Doc.ofFields gs) := by
    rw [splitTag_iff, under_cons_self, under_of_not_mem apart, besides_cons_self,
      besides_of_not_mem apart]
    exact ⟨.one (option_of_find found), rfl⟩
  rw [Doc.ofJson, tagged, gathered]
  rfl

/-- An option that is read back from the fields that are written beside its tag. -/
def KeepsFields (tag name : String) (read : Decoder α) (write : α → Json) : Prop :=
  ∀ ⦃m : Nat⦄ ⦃d : Doc⦄ ⦃a : α⦄, d.Fits (m + 1) → read .buffered d = .ok a →
    ∃ gs, write a = .obj ((tag, .str name) :: gs) ∧ tag ∉ gs.map (·.1) ∧
      Encodes read (m + 1) a (.obj gs)

theorem faithful_tagged {title tag : String} {options : List (String × Decoder α)}
    {write : α → Json} (nodup : (options.map (·.1)).Nodup)
    (keeps : ∀ o ∈ options, KeepsFields tag o.1 o.2 write) :
    Faithful (tagged title tag options) write := by
  intro n src d a fits h
  obtain ⟨m, rfl, o, ho, d', fits', read⟩ := tagged_eq_ok fits h
  obtain ⟨gs, written, apart, encoded⟩ := keeps o ho fits' read
  rw [written]
  cases encoded.fits with
  | obj fitting =>
    refine ⟨.obj (List.forall_mem_cons.mpr ⟨.str _, fitting⟩), fun src => ?_⟩
    rw [tagged_of_find apart (find?_of_mem nodup ho), encoded.again]

/-- What is known of a choice came from one of its options and from documents that fit. -/
structure Adjacent.Sound (options : List (String × Decoder α)) (n : Nat) (known : Adjacent α) :
    Prop where
  tag : ∀ read, known.tag = some read → ∃ k, (k, read) ∈ options
  content : ∀ c, known.content = some c → c.Fits n
  value : ∀ a, known.value = some a → ∃ o ∈ options, ∃ src d, d.Fits n ∧ o.2 src d = .ok a

theorem Adjacent.sound_unknown (options : List (String × Decoder α)) (n : Nat) :
    Adjacent.Sound options n {} := by
  constructor <;> nofun

theorem sound_readAdjacent {tag content : String} {options : List (String × Decoder α)} {i : Nat}
    {fields : List (Key × Doc)} {known known' : Adjacent α} (fits : ∀ f ∈ fields, f.2.Fits n)
    (sound : known.Sound options n)
    (h : readAdjacent src tag content options i fields known = .ok known') :
    known'.Sound options n := by
  induction fields generalizing i known with
  | nil =>
    cases h
    exact sound
  | cons f fields ih =>
    obtain ⟨fit, fits⟩ := List.forall_mem_cons.mp fits
    obtain ⟨name, -, h⟩ := bind_eq_ok.mp h
    split at h
    · split at h
      · cases h
      · obtain ⟨read, chosen, h⟩ := bind_eq_ok.mp h
        obtain ⟨k, hk⟩ := names_eq_ok fit (inPart_eq_ok.mp chosen)
        -- A content that came before its tag was put aside, and is read now.
        split at h
        · refine ih fits ?_ h
          refine ⟨fun r hr => ?_, sound.content, sound.value⟩
          cases hr
          exact ⟨k, hk⟩
        · next c waiting =>
          obtain ⟨a, made, h⟩ := bind_eq_ok.mp h
          refine ih fits ?_ h
          refine ⟨fun r hr => ?_, sound.content, fun b hb => ?_⟩
          · cases hr
            exact ⟨k, hk⟩
          · cases hb
            exact ⟨_, hk, _, c, sound.content c waiting, inPart_eq_ok.mp made⟩
    · split at h
      · split at h
        · cases h
        · split at h
          · next read chosen =>
            obtain ⟨a, made, h⟩ := bind_eq_ok.mp h
            obtain ⟨k, hk⟩ := sound.tag read chosen
            refine ih fits ?_ h
            refine ⟨sound.tag, fun c hc => ?_, fun b hb => ?_⟩
            · cases hc
              exact fit
            · cases hb
              exact ⟨_, hk, _, _, fit, inPart_eq_ok.mp made⟩
          · obtain ⟨⟨⟩, -, h⟩ := bind_eq_ok.mp h
            refine ih fits ?_ h
            refine ⟨sound.tag, fun c hc => ?_, sound.value⟩
            cases hc
            exact fit
      · obtain ⟨⟨⟩, -, h⟩ := bind_eq_ok.mp h
        exact ih fits sound h

theorem adjacent_eq_ok {title tag content : String} {options : List (String × Decoder α)} {a : α}
    (fits : d.Fits n) (h : adjacent title tag content options src d = .ok a) :
    ∃ m, n = m + 1 ∧ ∃ o ∈ options, ∃ src d, d.Fits m ∧ o.2 src d = .ok a := by
  unfold adjacent at h
  split at h
  · obtain ⟨known, read, h⟩ := bind_eq_ok.mp h
    obtain ⟨⟨⟩, -, h⟩ := bind_eq_ok.mp h
    split at h
    · next b value =>
      cases h
      cases fits with
      | obj fits =>
        have sound := sound_readAdjacent fits (Adjacent.sound_unknown _ _) read
        exact ⟨_, rfl, sound.value _ value⟩
    · cases h
  · obtain ⟨⟨⟩, -, h⟩ := bind_eq_ok.mp h
    cases h
  · obtain ⟨_, -, h⟩ := bind_eq_ok.mp h
    obtain ⟨⟨⟩, -, h⟩ := bind_eq_ok.mp h
    cases h
  · obtain ⟨read, chosen, h⟩ := bind_eq_ok.mp h
    obtain ⟨b, made, h⟩ := bind_eq_ok.mp h
    obtain ⟨⟨⟩, -, h⟩ := bind_eq_ok.mp h
    cases h
    cases fits with
    | arr fits =>
      obtain ⟨first, fits⟩ := List.forall_mem_cons.mp fits
      obtain ⟨second, -⟩ := List.forall_mem_cons.mp fits
      obtain ⟨k, hk⟩ := names_eq_ok first (inPart_eq_ok.mp chosen)
      exact ⟨_, rfl, _, hk, _, _, second, inPart_eq_ok.mp made⟩
  · exact absurd h wrongType_ne_ok

/-- An object with a tag and a content is read just as the option that the tag names reads the
content. -/
theorem adjacent_of_find {title tag content name k : String}
    {options : List (String × Decoder α)} {read : Decoder α} {j : Json} {a : α}
    (apart : content ≠ tag) (found : options.find? (·.1 == name) = some (k, read)) :
    adjacent title tag content options src
      (Doc.ofJson (.obj [(tag, .str name), (content, j)])) = .ok a ↔
        read src (Doc.ofJson j) = .ok a := by
  have named : names options src (.str name) = .ok read := names_of_find found
  constructor
  · intro h
    obtain ⟨known, gathered, h⟩ := bind_eq_ok.mp h
    obtain ⟨_, ⟨⟩, gathered⟩ := bind_eq_ok.mp gathered
    rw [if_pos rfl] at gathered
    obtain ⟨r, hr, gathered⟩ := bind_eq_ok.mp gathered
    obtain rfl : read = r := Except.ok.inj (named.symm.trans (inPart_eq_ok.mp hr))
    obtain ⟨_, ⟨⟩, gathered⟩ := bind_eq_ok.mp gathered
    rw [if_neg apart, if_pos rfl] at gathered
    obtain ⟨b, made, gathered⟩ := bind_eq_ok.mp gathered
    cases gathered
    obtain ⟨⟨⟩, -, h⟩ := bind_eq_ok.mp h
    cases h
    exact inPart_eq_ok.mp made
  · intro h
    have known : readAdjacent src tag content options 0
        (Doc.ofFields [(tag, .str name), (content, j)]) {} =
          .ok ⟨some read, some (Doc.ofJson j), some a⟩ := by
      refine bind_eq_ok.mpr ⟨tag, rfl, ?_⟩
      rw [if_pos rfl]
      refine bind_eq_ok.mpr ⟨read, inPart_eq_ok.mpr named, ?_⟩
      refine bind_eq_ok.mpr ⟨content, rfl, ?_⟩
      rw [if_neg apart, if_pos rfl]
      exact bind_eq_ok.mpr ⟨a, inPart_eq_ok.mpr h, rfl⟩
    rw [Doc.ofJson, adjacent, known]
    rfl

theorem fromText_eq_ok {read : Decoder α} {s : String} {a : α} : fromText read s = .ok a ↔
    ∃ d after, scan s.toList = (d, after) ∧ read .text d = .ok a ∧ checkRest after = .ok () := by
  unfold fromText
  generalize scan s.toList = scanned
  obtain ⟨d, after⟩ := scanned
  constructor
  · intro h
    obtain ⟨a, read, h⟩ := bind_eq_ok.mp h
    obtain ⟨⟨⟩, whole, h⟩ := bind_eq_ok.mp h
    cases h
    exact ⟨d, after, rfl, read, lift_eq_ok.mp whole⟩
  · rintro ⟨d, after, same, read, whole⟩
    cases same
    exact bind_eq_ok.mpr ⟨a, read, bind_eq_ok.mpr ⟨(), lift_eq_ok.mpr whole, rfl⟩⟩

theorem fits_of_fromText {read : Decoder α} {s : String} {a : α} (h : fromText read s = .ok a) :
    ∃ d, d.Fits maxDepth ∧ read .text d = .ok a := by
  obtain ⟨d, after, scanned, read, -⟩ := fromText_eq_ok.mp h
  have fits := fits_scan s.toList
  rw [scanned] at fits
  exact ⟨d, fits, read⟩

/-- A value is read from a text that is scanned as its document, also if white space follows. -/
theorem fromText_scansAs {read : Decoder α} {a : α} {j k : Json} (tail : String)
    (scans : ScansAs maxDepth j k) (again : read .text (Doc.ofJson k) = .ok a)
    (ends : Ends tail.toList) (blank : skipSpace tail.toList = []) :
    fromText read (j.text ++ tail) = .ok a := by
  refine fromText_eq_ok.mpr ⟨Doc.ofJson k, some tail.toList, ?_, again, ?_⟩
  · rw [String.toList_append]
    exact scans.scan_text ends
  · unfold checkRest
    rw [Option.map_some, blank]

theorem fromText_text {read : Decoder α} {a : α} {j : Json} (tail : String)
    (encoded : Encodes read maxDepth a j) (legible : j.Legible) (ends : Ends tail.toList)
    (blank : skipSpace tail.toList = []) : fromText read (j.text ++ tail) = .ok a :=
  fromText_scansAs tail (scansAs_of_fits encoded.fits legible) (encoded.again .text) ends blank

end TaskFlow.Json.Decode
