import TaskFlow.Json.Decode
import TaskFlow.Proofs.Json.Sorted

namespace TaskFlow.Json.Decode

variable {α β : Type} {src : Source} {d : Doc} {j : Json} {gs : List (String × Json)}

@[simp] theorem lift_eq_ok {r : Except Fault α} {a : α} : lift r = .ok a ↔ r = .ok a := by
  cases r <;> simp [lift]

theorem lift_bind {a : α} {f : α → Except Failure β} : (lift (.ok a) >>= f) = f a := rfl

@[simp] theorem inPart_eq_ok {i : Nat} {r : Except Failure α} {a : α} :
    inPart src i r = .ok a ↔ r = .ok a := by
  unfold inPart
  split <;> simp

mutual

theorem skip_ofJson : (j : Json) → (Doc.ofJson j).skip = .ok ()
  | .null | .bool _ | .num _ | .str _ => rfl
  | .arr xs => by
    rw [Doc.ofJson, Doc.skip, skipItems_ofItems xs]
    rfl
  | .obj fs => by
    rw [Doc.ofJson, Doc.skip, skipFields_ofFields fs]
    rfl

theorem skipItems_ofItems : (xs : List Json) → Doc.skipItems (Doc.ofItems xs) = .ok ()
  | [] => rfl
  | x :: xs => by
    rw [Doc.ofItems, Doc.skipItems, skip_ofJson x]
    exact skipItems_ofItems xs

theorem skipFields_ofFields :
    (fs : List (String × Json)) → Doc.skipFields (Doc.ofFields fs) = .ok ()
  | [] => rfl
  | (_, v) :: fs => by
    rw [Doc.ofFields, Doc.skipFields, skip_ofJson v]
    exact skipFields_ofFields fs

end

def under (name : String) (gs : List (String × Json)) : List (String × Json) :=
  gs.filter fun g => g.1 == name

def besides (name : String) (gs : List (String × Json)) : List (String × Json) :=
  gs.filter fun g => g.1 != name

section Named

variable {name k : String}

theorem under_cons_self : under k ((k, j) :: gs) = (k, j) :: under k gs :=
  List.filter_cons_of_pos (beq_self_eq_true k)

theorem besides_cons_self : besides k ((k, j) :: gs) = besides k gs :=
  List.filter_cons_of_neg (by simp)

theorem under_cons_of_ne (h : name ≠ k) : under k ((name, j) :: gs) = under k gs :=
  List.filter_cons_of_neg (by simpa using h)

theorem besides_cons_of_ne (h : name ≠ k) :
    besides k ((name, j) :: gs) = (name, j) :: besides k gs :=
  List.filter_cons_of_pos (by simpa using h)

theorem under_of_not_mem (h : k ∉ gs.map (·.1)) : under k gs = [] :=
  List.filter_eq_nil_iff.mpr fun _ hg same =>
    h (beq_iff_eq.mp same ▸ List.mem_map_of_mem hg)

theorem besides_of_not_mem (h : k ∉ gs.map (·.1)) : besides k gs = gs :=
  List.filter_eq_self.mpr fun _ hg =>
    bne_iff_ne.mpr fun same => h (same ▸ List.mem_map_of_mem hg)

theorem under_besides (h : name ≠ k) : under name (besides k gs) = under name gs := by
  rw [under, besides, List.filter_filter]
  refine List.filter_congr fun g _ => ?_
  by_cases same : g.1 = name
  · simp [same, h]
  · simp [same]

end Named

/-- What becomes known of a field from the fields of an object that have its name. -/
inductive Held (src : Source) (f : FieldSpec α) :
    Option α → List (String × Json) → Option α → Prop
  | none (slot : Option α) : Held src f slot [] slot
  | one {name : String} {j : Json} {v : α} : f.read src (Doc.ofJson j) = .ok v →
    Held src f none [(name, j)] (some v)

theorem held_cons_iff {f : FieldSpec α} {slot slot' : Option α} {name : String} :
    Held src f slot ((name, j) :: gs) slot' ↔
      slot = none ∧ ∃ v, f.read src (Doc.ofJson j) = .ok v ∧ Held src f (some v) gs slot' := by
  constructor
  · rintro (_ | read)
    exact ⟨rfl, _, read, .none _⟩
  · rintro ⟨rfl, v, read, _ | _⟩
    exact .one read

namespace Fields

variable {αs : List Type} {strict : Bool}

def Each (P : ∀ {α : Type}, FieldSpec α → α → Prop) :
    {αs : List Type} → Fields αs → Values αs → Prop
  | _, .nil, _ => True
  | _, .cons f fs, (v, vs) => P f v ∧ fs.Each P vs

def push {α : Type} (slot : Option α) (slots : Slots αs) : Slots (α :: αs) := (slot, slots)

theorem store_tail {α : Type} {f : FieldSpec α} {fs : Fields αs} {k : String} {slot : Option α}
    {slots : Slots αs} (other : f.name ≠ k) :
    (Fields.cons f fs).store src k d (push slot slots) =
      match fs.store src k d slots with
      | .unknown => .unknown
      | .duplicate => .duplicate
      | .failed e => .failed e
      | .stored slots => .stored (push slot slots) := by
  change (if f.name = k then _ else _) = _
  rw [if_neg other]
  rfl

theorem readObject_field_iff {fs : Fields αs} {i : Nat} {name : String} {slots s : Slots αs} :
    fs.readObject src strict i (Doc.ofFields ((name, j) :: gs)) slots = .ok s ↔
      (fs.store src name (Doc.ofJson j) slots = .unknown ∧ strict = false ∧
        fs.readObject src strict (i + 1) (Doc.ofFields gs) slots = .ok s) ∨
      ∃ slots', fs.store src name (Doc.ofJson j) slots = .stored slots' ∧
        fs.readObject src strict (i + 1) (Doc.ofFields gs) slots' = .ok s := by
  rw [Doc.ofFields, readObject, lift_bind]
  cases fs.store src name (Doc.ofJson j) slots with
  | unknown =>
    rw [skip_ofJson]
    cases strict with
    | true => simp [fail]
    | false => simp [lift, bind, Except.bind]
  | duplicate => simp [fail]
  | failed e => simp
  | stored slots' => simp

theorem store_unknown_iff {f : FieldSpec α} {fs : Fields αs} {name : String} {d : Doc}
    {slot : Option α} {slots : Slots αs} :
    (cons f fs).store src name d (push slot slots) = .unknown ↔
      f.name ≠ name ∧ fs.store src name d slots = .unknown := by
  by_cases h : f.name = name
  · refine iff_of_false ?_ fun other => other.1 h
    change ¬(if f.name = name then _ else _) = _
    rw [if_pos h]
    split
    · nofun
    · split <;> nofun
  · rw [store_tail h]
    cases fs.store src name d slots <;> simp [h]

theorem store_stored_iff {f : FieldSpec α} {fs : Fields αs} {name : String} {d : Doc}
    {slot : Option α} {slots : Slots αs} {s : Slots (α :: αs)} :
    (cons f fs).store src name d (push slot slots) = .stored s ↔
      (f.name = name ∧ slot = none ∧ ∃ v, f.read src d = .ok v ∧ s = push (some v) slots) ∨
      (f.name ≠ name ∧ ∃ slots', fs.store src name d slots = .stored slots' ∧
        s = push slot slots') := by
  by_cases h : f.name = name
  · change (if f.name = name then _ else _) = _ ↔ _
    rw [if_pos h]
    cases slot with
    | some v => simp [h]
    | none =>
      cases read : f.read src d with
      | ok v =>
        constructor
        · intro stored
          exact .inl ⟨h, rfl, v, rfl, (Stored.stored.inj stored).symm⟩
        · rintro (⟨-, -, w, same, rfl⟩ | ⟨other, -⟩)
          · cases same
            rfl
          · exact absurd h other
      | error e => simp [h]
  · rw [store_tail h]
    cases fs.store src name d slots <;> simp [h, eq_comm]

/-- What is read from an object of one more field comes from the fields under its name. -/
theorem readObject_cons_iff {f : FieldSpec α} {fs : Fields αs} {i k : Nat} {slot : Option α}
    {slots : Slots αs} {s : Slots (α :: αs)} :
    (cons f fs).readObject src strict i (Doc.ofFields gs) (push slot slots) = .ok s ↔
      ∃ slot' slots', s = push slot' slots' ∧ Held src f slot (under f.name gs) slot' ∧
        fs.readObject src strict k (Doc.ofFields (besides f.name gs)) slots = .ok slots' := by
  -- on the fields of the object: each one is for the first field of the record or for the others
  induction gs generalizing i k slot slots with
  | nil =>
    constructor
    · intro h
      cases h
      exact ⟨slot, slots, rfl, .none _, rfl⟩
    · rintro ⟨slot', slots', rfl, held, rest⟩
      cases held
      cases rest
      rfl
  | cons g gs ih =>
    obtain ⟨name, j⟩ := g
    rw [readObject_field_iff]
    by_cases same : f.name = name
    · subst same
      rw [under_cons_self, besides_cons_self]
      constructor
      · rintro (⟨unknown, -, -⟩ | ⟨_, stored, rest⟩)
        · exact absurd rfl (store_unknown_iff.mp unknown).1
        · obtain ⟨-, rfl, v, read, rfl⟩ | ⟨other, -⟩ := store_stored_iff.mp stored
          · obtain ⟨slot', slots', rfl, held, rest⟩ := ih.mp rest
            exact ⟨slot', slots', rfl, held_cons_iff.mpr ⟨rfl, v, read, held⟩, rest⟩
          · exact absurd rfl other
      · rintro ⟨slot', slots', rfl, held, rest⟩
        obtain ⟨rfl, v, read, held⟩ := held_cons_iff.mp held
        exact .inr ⟨_, store_stored_iff.mpr (.inl ⟨rfl, rfl, v, read, rfl⟩),
          ih.mpr ⟨slot', slots', rfl, held, rest⟩⟩
    · rw [under_cons_of_ne (Ne.symm same), besides_cons_of_ne (Ne.symm same)]
      constructor
      · rintro (⟨unknown, lenient, rest⟩ | ⟨_, stored, rest⟩)
        · obtain ⟨slot', slots', rfl, held, rest⟩ := ih.mp rest
          exact ⟨slot', slots', rfl, held, readObject_field_iff.mpr
            (.inl ⟨(store_unknown_iff.mp unknown).2, lenient, rest⟩)⟩
        · obtain ⟨named, -⟩ | ⟨-, slots'', kept, rfl⟩ := store_stored_iff.mp stored
          · exact absurd named same
          · obtain ⟨slot', slots', rfl, held, rest⟩ := ih.mp rest
            exact ⟨slot', slots', rfl, held, readObject_field_iff.mpr
              (.inr ⟨slots'', kept, rest⟩)⟩
      · rintro ⟨slot', slots', rfl, held, rest⟩
        rcases readObject_field_iff.mp rest with ⟨unknown, lenient, rest⟩ | ⟨slots'', stored, rest⟩
        · exact .inl ⟨store_unknown_iff.mpr ⟨same, unknown⟩, lenient,
            ih.mpr ⟨slot', slots', rfl, held, rest⟩⟩
        · exact .inr ⟨push slot slots'', store_stored_iff.mpr (.inr ⟨same, slots'', stored, rfl⟩),
            ih.mpr ⟨slot', slots', rfl, held, rest⟩⟩

theorem readObject_nil_iff {i : Nat} {slots s : Slots []} :
    Fields.nil.readObject src strict i (Doc.ofFields gs) slots = .ok s ↔
      (strict = true → gs = []) := by
  induction gs generalizing i with
  | nil => exact iff_of_true rfl fun _ => rfl
  | cons g gs ih =>
    rw [readObject_field_iff, ih]
    cases strict <;> simp [store]

/-- Where a record finds the value of a field in an object: in the only field of its name, or in its
default if there is none. -/
inductive Given (src : Source) (gs : List (String × Json)) {α : Type} (f : FieldSpec α) (v : α) :
    Prop
  | absent : under f.name gs = [] → f.absent = some v → Given src gs f v
  | read {j : Json} : under f.name gs = [(f.name, j)] → f.read src (Doc.ofJson j) = .ok v →
    Given src gs f v

theorem given_iff {f : FieldSpec α} {v : α} : Given src gs f v ↔
    ∃ slot, Held src f none (under f.name gs) slot ∧ slot.or f.absent = some v := by
  have named : ∀ g ∈ under f.name gs, g.1 = f.name := fun g hg =>
    beq_iff_eq.mp (List.mem_filter.mp hg).2
  constructor
  · rintro (⟨empty, default⟩ | ⟨only, read⟩)
    · exact ⟨none, empty ▸ .none none, default⟩
    · exact ⟨some v, only ▸ .one read, rfl⟩
  · rintro ⟨slot, held, value⟩
    generalize fields : under f.name gs = us at held named
    cases held with
    | none => exact .absent fields value
    | @one name j w read =>
      obtain rfl : name = f.name := named _ (List.mem_singleton_self _)
      cases value
      exact .read fields read

theorem Each.mono {P Q : ∀ {α : Type}, FieldSpec α → α → Prop} {fs : Fields αs} {vs : Values αs}
    (imp : ∀ {α : Type} (f : FieldSpec α) (v : α), f.name ∈ fs.names → P f v → Q f v)
    (h : fs.Each P vs) : fs.Each Q vs := by
  induction fs with
  | nil => trivial
  | cons f fs ih =>
    obtain ⟨v, vs⟩ := vs
    exact ⟨imp f v (List.mem_cons_self ..) h.1,
      ih (fun g w hg => imp g w (List.mem_cons_of_mem _ hg)) h.2⟩

theorem given_besides {k : String} {f : FieldSpec α} {v : α} (other : f.name ≠ k) :
    Given src (besides k gs) f v ↔ Given src gs f v := by
  rw [given_iff, given_iff, under_besides other]

theorem given_cons {k : String} {f : FieldSpec α} {v : α} (other : f.name ≠ k) :
    Given src ((k, j) :: gs) f v ↔ Given src gs f v := by
  rw [given_iff, given_iff, under_cons_of_ne (Ne.symm other)]

theorem complete_cons_iff {f : FieldSpec α} {fs : Fields αs} {slot : Option α} {slots : Slots αs}
    {v : α} {vs : Values αs} : (cons f fs).complete (push slot slots) = .ok (v, vs) ↔
      slot.or f.absent = some v ∧ fs.complete slots = .ok vs := by
  rw [push, complete]
  cases slot.or f.absent with
  | none =>
    constructor
    · intro h
      cases h
    · rintro ⟨⟨⟩, -⟩
  | some w =>
    constructor
    · intro h
      obtain ⟨_, ⟨⟩, h⟩ := bind_eq_ok.mp h
      obtain ⟨ws, rest, h⟩ := bind_eq_ok.mp h
      cases h
      exact ⟨rfl, rest⟩
    · rintro ⟨⟨⟩, rest⟩
      exact bind_eq_ok.mpr ⟨v, rfl, bind_eq_ok.mpr ⟨vs, rest, rfl⟩⟩

/-- The values of a record are read from an object just if each is given there and, if the record is
strict, no field is unknown. -/
theorem exists_slots_iff {fs : Fields αs} (nodup : fs.names.Nodup) {i : Nat} {vs : Values αs} :
    (∃ slots, fs.readObject src strict i (Doc.ofFields gs) fs.noSlots = .ok slots ∧
        fs.complete slots = .ok vs) ↔
      fs.Each (Given src gs) vs ∧ (strict = true → ∀ g ∈ gs, g.1 ∈ fs.names) := by
  induction fs generalizing gs with
  | nil =>
    constructor
    · rintro ⟨slots, read, -⟩
      refine ⟨trivial, fun isStrict => ?_⟩
      rw [readObject_nil_iff.mp read isStrict]
      exact List.forall_mem_nil _
    · rintro ⟨-, known⟩
      refine ⟨(), readObject_nil_iff.mpr fun isStrict => ?_, rfl⟩
      exact List.eq_nil_iff_forall_not_mem.mpr fun g hg =>
        List.not_mem_nil (known isStrict g hg)
  | cons f fs ih =>
    obtain ⟨v, vs⟩ := vs
    obtain ⟨fresh, nodup⟩ := List.nodup_cons.mp nodup
    -- names are distinct, so what is left for the other fields does not depend on the first one
    have others : fs.Each (Given src (besides f.name gs)) vs ↔ fs.Each (Given src gs) vs := by
      have apart {α : Type} {g : FieldSpec α} (hg : g.name ∈ fs.names) : g.name ≠ f.name := by
        rintro same
        exact fresh (same ▸ hg)
      exact ⟨Each.mono fun g w hg => (given_besides (apart hg)).mp,
        Each.mono fun g w hg => (given_besides (apart hg)).mpr⟩
    have known : (∀ g ∈ besides f.name gs, g.1 ∈ fs.names) ↔
        ∀ g ∈ gs, g.1 ∈ (cons f fs).names := by
      refine forall_congr' fun g => ?_
      rw [besides, List.mem_filter, names, List.mem_cons, bne_iff_ne, and_imp]
      exact imp_congr_right fun _ => or_iff_not_imp_left.symm
    change (∃ slots, (cons f fs).readObject src strict i (Doc.ofFields gs)
      (push none fs.noSlots) = .ok slots ∧ _) ↔ (Given src gs f v ∧ fs.Each (Given src gs) vs) ∧ _
    rw [given_iff, ← others, ← known, and_assoc, ← ih nodup]
    constructor
    · rintro ⟨_, read, complete⟩
      obtain ⟨slot, slots, rfl, held, rest⟩ := (readObject_cons_iff (k := i)).mp read
      obtain ⟨value, complete⟩ := complete_cons_iff.mp complete
      exact ⟨⟨slot, held, value⟩, slots, rest, complete⟩
    · rintro ⟨⟨slot, held, value⟩, slots, rest, complete⟩
      exact ⟨push slot slots, (readObject_cons_iff (k := i)).mpr ⟨slot, slots, rfl, held, rest⟩,
        complete_cons_iff.mpr ⟨value, complete⟩⟩

end Fields

theorem record_obj_iff {αs : List Type} {title : String} {strict : Bool} {fs : Fields αs}
    {make : Values αs → α} {a : α} (nodup : fs.names.Nodup) :
    record title strict fs make src (Doc.ofJson (.obj gs)) = .ok a ↔
      ∃ vs, a = make vs ∧ fs.Each (Fields.Given src gs) vs ∧
        (strict = true → ∀ g ∈ gs, g.1 ∈ fs.names) := by
  simp only [← Fields.exists_slots_iff nodup (i := 0)]
  constructor
  · intro h
    obtain ⟨slots, read, h⟩ := bind_eq_ok.mp h
    obtain ⟨⟨⟩, -, h⟩ := bind_eq_ok.mp h
    split at h
    · next vs complete =>
      cases h
      exact ⟨vs, rfl, slots, read, complete⟩
    · cases h
  · rintro ⟨vs, rfl, slots, read, complete⟩
    refine bind_eq_ok.mpr ⟨slots, read, bind_eq_ok.mpr ⟨(), rfl, ?_⟩⟩
    rw [complete]
    rfl

theorem option_iff {options : List (String × α)} {name : String} {moment : Moment} {a : α} :
    option src options name moment = .ok a ↔
      (options.find? (·.1 == name)).map (·.2) = some a := by
  unfold option
  cases options.find? (·.1 == name) with
  | none => exact iff_of_false nofun nofun
  | some o => simp

/-- An object names an option if it has a single field, which holds what the option carries. -/
theorem choice_obj_iff {options : List (String × Carried α)} {a : α} :
    choice options src (Doc.ofJson (.obj gs)) = .ok a ↔
      ∃ name j c, gs = [(name, j)] ∧ (options.find? (·.1 == name)).map (·.2) = some c ∧
        c.read src (Doc.ofJson j) = .ok a := by
  constructor
  · intro h
    obtain _ | ⟨⟨name, j⟩, _ | ⟨g, gs⟩⟩ := gs
    · cases src <;> cases h
    · cases src with
      | text =>
        obtain ⟨_, ⟨⟩, h⟩ := bind_eq_ok.mp h
        obtain ⟨c, chosen, h⟩ := bind_eq_ok.mp h
        dsimp only at h
        split at h
        · cases h
        · obtain ⟨b, read, h⟩ := bind_eq_ok.mp h
          cases h
          exact ⟨name, j, c, rfl, option_iff.mp chosen, read⟩
      | value | buffered =>
        obtain ⟨c, chosen, read⟩ := bind_eq_ok.mp h
        exact ⟨name, j, c, rfl, option_iff.mp chosen, read⟩
    · cases src with
      | text =>
        obtain ⟨_, ⟨⟩, h⟩ := bind_eq_ok.mp h
        obtain ⟨c, chosen, h⟩ := bind_eq_ok.mp h
        dsimp only at h
        split at h
        · cases h
        · obtain ⟨b, read, h⟩ := bind_eq_ok.mp h
          cases h
      | value | buffered => cases h
  · rintro ⟨name, j, c, rfl, found, read⟩
    cases src with
    | text =>
      refine bind_eq_ok.mpr ⟨name, rfl, bind_eq_ok.mpr ⟨c, option_iff.mpr found, ?_⟩⟩
      rw [read]
      rfl
    | value | buffered => exact bind_eq_ok.mpr ⟨c, option_iff.mpr found, read⟩

theorem splitTag_iff {tag : String} {options : List (String × α)} {i : Nat}
    {before found : Option α} {others : List (Key × Doc)} :
    splitTag src tag options i (Doc.ofFields gs) before = .ok (found, others) ↔
      Held src { name := tag, read := tagName options } before (under tag gs) found ∧
        others = Doc.ofFields (besides tag gs) := by
  induction gs generalizing i before others with
  | nil =>
    constructor
    · intro h
      cases h
      exact ⟨.none _, rfl⟩
    · rintro ⟨held, rfl⟩
      cases held
      rfl
  | cons g gs ih =>
    obtain ⟨name, j⟩ := g
    by_cases same : name = tag
    · subst same
      rw [under_cons_self, besides_cons_self, held_cons_iff, Doc.ofFields, splitTag]
      change (if name = name then _ else _) = _ ↔ _
      rw [if_pos rfl]
      cases before with
      | some a => exact iff_of_false nofun fun h => nomatch h.1.1
      | none =>
        constructor
        · intro h
          obtain ⟨a, named, h⟩ := bind_eq_ok.mp h
          obtain ⟨held, others⟩ := ih.mp h
          exact ⟨⟨rfl, a, inPart_eq_ok.mp named, held⟩, others⟩
        · rintro ⟨⟨-, a, named, held⟩, others⟩
          exact bind_eq_ok.mpr ⟨a, inPart_eq_ok.mpr named, ih.mpr ⟨held, others⟩⟩
    · rw [under_cons_of_ne same, besides_cons_of_ne same, Doc.ofFields, splitTag]
      change (if name = tag then _ else _) = _ ↔ _
      rw [if_neg same]
      constructor
      · intro h
        obtain ⟨⟨⟩, -, h⟩ := bind_eq_ok.mp h
        obtain ⟨⟨found', others'⟩, rest, h⟩ := bind_eq_ok.mp h
        cases h
        obtain ⟨held, rfl⟩ := ih.mp rest
        exact ⟨held, rfl⟩
      · rintro ⟨held, rfl⟩
        exact bind_eq_ok.mpr ⟨(), lift_eq_ok.mpr (Doc.check_ofJson j), bind_eq_ok.mpr
          ⟨(found, Doc.ofFields (besides tag gs)), ih.mpr ⟨held, rfl⟩, rfl⟩⟩

theorem tagged_obj_iff {title tag : String} {options : List (String × Decoder α)} {a : α} :
    tagged title tag options src (Doc.ofJson (.obj gs)) = .ok a ↔
      ∃ name t read, under tag gs = [(name, t)] ∧
        tagName options src (Doc.ofJson t) = .ok read ∧
        read .buffered (Doc.ofJson (.obj (besides tag gs))) = .ok a := by
  constructor
  · intro h
    obtain ⟨⟨found, others⟩, gathered, ended⟩ := bind_eq_ok.mp h
    obtain ⟨⟨⟩, -, ok⟩ := bind_eq_ok.mp ended
    obtain ⟨held, rfl⟩ := splitTag_iff.mp gathered
    cases found with
    | none => cases ok
    | some read =>
      generalize under tag gs = us at held
      cases held with
      | one named => exact ⟨_, _, read, rfl, named, ok⟩
  · rintro ⟨name, t, read, only, named, ok⟩
    have gathered : splitTag src tag options 0 (Doc.ofFields gs) none =
        .ok (some read, Doc.ofFields (besides tag gs)) :=
      splitTag_iff.mpr ⟨only ▸ .one named, rfl⟩
    exact bind_eq_ok.mpr ⟨_, gathered, bind_eq_ok.mpr ⟨(), rfl, ok⟩⟩

end TaskFlow.Json.Decode
