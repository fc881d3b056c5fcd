import TaskFlow.Proofs.Json.Decode

namespace TaskFlow.Json.Decode

variable {α β : Type} {src src' : Source} {j : Json} {n : Nat} {gs : List (String × Json)}

/-- A decoder that makes the same of a value and of the value put in order. Parts set aside need not
make the same. -/
def Steady (read : Decoder α) : Prop :=
  ∀ ⦃src src' : Source⦄ ⦃j : Json⦄ ⦃a : α⦄, (src = .buffered → src' = .buffered) →
    read src (Doc.ofJson j) = .ok a → read src' (Doc.ofJson j.sorted) = .ok a

theorem steady_json : Steady json := by
  intro src src' j a _ h
  have same : (.ok j.sorted : Except Fault Json) = .ok a :=
    (read_ofJson_eq_sorted j).symm.trans (lift_eq_ok.mp h)
  cases same
  refine lift_eq_ok.mpr ?_
  rw [read_ofJson_eq_sorted, sorted_sorted]

theorem steady_string : Steady string := by
  intro src src' j s _ h
  cases j with
  | str t => exact h
  | null | bool | num | arr | obj => cases h

theorem steady_double : Steady double := by
  intro src src' j x _ h
  cases j with
  | num y => exact h
  | null | bool | str | arr | obj => cases h

theorem steady_natural (expected : String) : Steady (natural expected) := by
  intro src src' j k _ h
  have same := natural_eq_ok h
  cases j with
  | num y =>
    cases same
    rfl
  | null | bool | str | arr | obj => cases same

theorem Steady.map {read : Decoder α} (steady : Steady read) (f : α → β) :
    Steady fun src d => (read src d).map f := by
  intro src src' j b lenient h
  obtain ⟨a, ha, rfl⟩ := map_eq_ok.mp h
  exact map_eq_ok.mpr ⟨a, steady lenient ha, rfl⟩

theorem items_steady {read : Decoder α} (steady : Steady read)
    (lenient : src = .buffered → src' = .buffered) {i k : Nat} {xs : List Json} {ys : List α}
    (h : items read src i (Doc.ofItems xs) = .ok ys) :
    items read src' k (Doc.ofItems (sortedItems xs)) = .ok ys := by
  induction xs generalizing i k ys with
  | nil => exact h
  | cons x xs ih =>
    obtain ⟨y, hy, h⟩ := bind_eq_ok.mp h
    obtain ⟨ys, hys, h⟩ := bind_eq_ok.mp h
    cases h
    exact bind_eq_ok.mpr ⟨y, inPart_eq_ok.mpr (steady lenient (inPart_eq_ok.mp hy)),
      bind_eq_ok.mpr ⟨ys, ih hys, rfl⟩⟩

theorem Steady.list {read : Decoder α} (steady : Steady read) : Steady (list read) := by
  intro src src' j ys lenient h
  obtain ⟨ds, cut, same, read⟩ := list_eq_ok h
  cases j with
  | arr xs =>
    cases same
    exact bind_eq_ok.mpr ⟨ys, items_steady steady lenient read, rfl⟩
  | null | bool | num | str | obj => cases same

theorem steady_unit : Steady unit := by
  intro src src' j a lenient h
  cases j with
  | null => rfl
  | bool | num | str | arr => cases src <;> cases h
  | obj fs =>
    cases fs with
    | cons => cases src <;> cases h
    | nil =>
      cases src with
      | text | value => cases h
      | buffered =>
        rw [lenient rfl]
        rfl

theorem steady_alone (a : α) : Steady (Carried.alone a).read := steady_unit.map fun _ => a

theorem steady_choice {options : List (String × Carried α)}
    (steady : ∀ o ∈ options, Steady o.2.read) : Steady (choice options) := by
  intro src src' j a lenient h
  cases j with
  | str s =>
    obtain ⟨c, chosen, named⟩ := bind_eq_ok.mp h
    exact bind_eq_ok.mpr ⟨c, option_iff.mpr (option_iff.mp chosen), named⟩
  | obj gs =>
    obtain ⟨name, j, c, rfl, found, read⟩ := choice_obj_iff.mp h
    obtain ⟨o, ho, rfl⟩ := Option.map_eq_some_iff.mp found
    exact choice_obj_iff.mpr ⟨name, j.sorted, o.2, rfl, found,
      steady o (List.mem_of_find?_eq_some ho) lenient read⟩
  | null | bool | num | arr => cases src <;> cases h

theorem steady_names (options : List (String × α)) : Steady (names options) :=
  steady_choice (List.forall_mem_map.mpr fun o _ => steady_alone o.2)

theorem under_sortedFields {name : String} :
    under name (sortedFields gs) = sortedFields (under name gs) :=
  filter_sortedFields (· == name)

theorem besides_sortedFields {name : String} :
    besides name (sortedFields gs) = sortedFields (besides name gs) :=
  filter_sortedFields (· != name)

namespace Fields

variable {αs : List Type}

def AllSteady : {αs : List Type} → Fields αs → Prop
  | _, .nil => True
  | _, .cons f fs => Steady f.read ∧ fs.AllSteady

theorem Given.sorted {f : FieldSpec α} {v : α} (steady : Steady f.read)
    (lenient : src = .buffered → src' = .buffered) (h : Given src gs f v) :
    Given src' (sortedFields gs) f v := by
  cases h with
  | absent empty default => exact .absent (by rw [under_sortedFields, empty]; rfl) default
  | read only read => exact .read (by rw [under_sortedFields, only]; rfl) (steady lenient read)

theorem Each.sorted {fs : Fields αs} {vs : Values αs} (steady : fs.AllSteady)
    (lenient : src = .buffered → src' = .buffered) (h : fs.Each (Given src gs) vs) :
    fs.Each (Given src' (sortedFields gs)) vs := by
  induction fs with
  | nil => trivial
  | cons f fs ih =>
    obtain ⟨v, vs⟩ := vs
    exact ⟨h.1.sorted steady.1 lenient, ih steady.2 h.2⟩

theorem readArray_sorted {fs : Fields αs} (steady : fs.AllSteady)
    (lenient : src = .buffered → src' = .buffered) {i : Nat} {xs : List Json} {vs : Values αs}
    (h : fs.readArray src i (Doc.ofItems xs) = .ok (vs, [])) :
    fs.readArray src' i (Doc.ofItems (sortedItems xs)) = .ok (vs, []) := by
  -- on the fields of the record; items may run out, and then the rest are defaults
  induction fs generalizing i xs with
  | nil =>
    cases xs with
    | nil => rfl
    | cons => cases h
  | cons f fs ih =>
    cases xs with
    | nil =>
      rw [Doc.ofItems, readArray] at h
      rw [sortedItems, Doc.ofItems, readArray]
      split at h
      · next v beyond =>
        obtain ⟨_, ⟨⟩, h⟩ := bind_eq_ok.mp h
        obtain ⟨⟨vs, ds⟩, hvs, h⟩ := bind_eq_ok.mp h
        cases h
        have rest : fs.readArray src' i (Doc.ofItems (sortedItems [])) = .ok (vs, []) :=
          ih steady.2 hvs
        exact bind_eq_ok.mpr ⟨v, rfl, bind_eq_ok.mpr ⟨_, rest, rfl⟩⟩
      · cases h
    | cons x xs =>
      rw [Doc.ofItems, readArray] at h
      rw [sortedItems, Doc.ofItems, readArray]
      obtain ⟨v, hv, h⟩ := bind_eq_ok.mp h
      obtain ⟨⟨vs, ds⟩, hvs, h⟩ := bind_eq_ok.mp h
      cases h
      have read := steady.1 lenient (inPart_eq_ok.mp (mapError_eq_ok.mp hv))
      exact bind_eq_ok.mpr ⟨v, mapError_eq_ok.mpr (inPart_eq_ok.mpr read),
        bind_eq_ok.mpr ⟨_, ih steady.2 hvs, rfl⟩⟩

end Fields

theorem noMore_iff {count : Nat} {rest : List Doc} :
    noMore src count rest none = .ok () ↔ rest = [] := by
  unfold noMore
  cases src <;> cases rest <;> simp [fail]

theorem record_arr_iff {αs : List Type} {title : String} {strict : Bool} {fs : Fields αs}
    {make : Values αs → α} {xs : List Json} {a : α} :
    record title strict fs make src (Doc.ofJson (.arr xs)) = .ok a ↔
      ∃ vs, a = make vs ∧ fs.readArray src 0 (Doc.ofItems xs) = .ok (vs, []) := by
  rw [Doc.ofJson, record]
  split
  · next e failed => exact iff_of_false nofun fun ⟨vs, _, read⟩ => nomatch failed.symm.trans read
  · next short =>
    refine iff_of_false (fun h => ?_) fun ⟨vs, _, read⟩ => nomatch short.symm.trans read
    obtain ⟨⟨⟩, -, h⟩ := bind_eq_ok.mp h
    cases h
  · next vs rest read =>
    constructor
    · intro h
      obtain ⟨⟨⟩, whole, made⟩ := bind_eq_ok.mp h
      obtain rfl := noMore_iff.mp whole
      cases made
      exact ⟨vs, rfl, read⟩
    · rintro ⟨ws, rfl, again⟩
      cases read.symm.trans again
      exact bind_eq_ok.mpr ⟨(), noMore_iff.mpr rfl, rfl⟩

theorem steady_record {αs : List Type} {title : String} {strict : Bool} {fs : Fields αs}
    {make : Values αs → α} (steady : fs.AllSteady) (nodup : fs.names.Nodup) :
    Steady (record title strict fs make) := by
  intro src src' j a lenient h
  cases j with
  | obj gs =>
    obtain ⟨vs, rfl, given, known⟩ := (record_obj_iff nodup).mp h
    refine (record_obj_iff nodup).mpr ⟨vs, rfl, given.sorted steady lenient, ?_⟩
    intro isStrict g hg
    obtain ⟨v, hv, -⟩ := mem_sortedFields hg
    exact known isStrict (g.1, v) hv
  | arr xs =>
    obtain ⟨vs, rfl, read⟩ := record_arr_iff.mp h
    exact record_arr_iff.mpr ⟨vs, rfl, Fields.readArray_sorted steady lenient read⟩
  | null | bool | num | str => cases h

theorem steady_tagName (options : List (String × α)) : Steady (tagName options) := by
  intro src src' j a _ h
  cases j with
  | str s => exact option_iff.mpr (option_iff.mp h)
  | null | bool | num | arr | obj => cases h

theorem checkItems_eq_ok (xs : List Json) : checkItems (Doc.ofItems xs) = .ok () := by
  induction xs with
  | nil => rfl
  | cons x xs ih => exact bind_eq_ok.mpr ⟨(), lift_eq_ok.mpr (Doc.check_ofJson x), ih⟩

theorem steady_tagged {title tag : String} {options : List (String × Decoder α)}
    (steady : ∀ o ∈ options, Steady o.2) : Steady (tagged title tag options) := by
  intro src src' j a lenient h
  cases j with
  | obj gs =>
    obtain ⟨name, t, read, only, named, ok⟩ := tagged_obj_iff.mp h
    obtain ⟨k, hk⟩ := tagName_eq_ok named
    have rest := steady _ hk (fun _ => rfl) ok
    refine tagged_obj_iff.mpr ⟨name, t.sorted, read, ?_, steady_tagName options lenient named, ?_⟩
    · rw [under_sortedFields, only]
      rfl
    · rw [besides_sortedFields]
      exact rest
  | arr xs =>
    cases xs with
    | nil => cases h
    | cons x xs =>
      obtain ⟨read, named, h⟩ := bind_eq_ok.mp h
      obtain ⟨⟨⟩, -, h⟩ := bind_eq_ok.mp h
      obtain ⟨⟨⟩, -, ok⟩ := bind_eq_ok.mp h
      obtain ⟨k, hk⟩ := tagName_eq_ok (inPart_eq_ok.mp named)
      have rest : read .buffered (Doc.ofJson (Json.arr xs).sorted) = .ok a :=
        steady _ hk (fun _ => rfl) ok
      refine bind_eq_ok.mpr ⟨read, inPart_eq_ok.mpr
        (steady_tagName options lenient (inPart_eq_ok.mp named)), bind_eq_ok.mpr ⟨(), ?_,
          bind_eq_ok.mpr ⟨(), rfl, rest⟩⟩⟩
      exact checkItems_eq_ok _
  | null | bool | num | str => cases h

theorem steady_bare (a : α) : Steady (bare a) := by
  intro src src' j b _ h
  cases j with
  | arr xs =>
    obtain ⟨⟨⟩, whole, h⟩ := bind_eq_ok.mp h
    cases h
    cases xs with
    | nil => exact bind_eq_ok.mpr ⟨(), noMore_iff.mpr rfl, rfl⟩
    | cons => cases noMore_iff.mp whole
  | null | bool | num | str | obj => exact h

theorem scan_text_toList {j : Json} (fits : j.Fits maxDepth) (legible : j.Legible) :
    scan j.text.toList = (Doc.ofJson j, some []) := by
  have := scan_text fits legible .nil
  rwa [List.append_nil] at this

theorem fromText_iff {read : Decoder α} {j : Json} {a : α} (fits : j.Fits maxDepth)
    (legible : j.Legible) : fromText read j.text = .ok a ↔ read .text (Doc.ofJson j) = .ok a := by
  rw [fromText_eq_ok, scan_text_toList fits legible]
  constructor
  · rintro ⟨_, _, ⟨⟩, read, -⟩
    exact read
  · exact fun read => ⟨_, _, rfl, read, rfl⟩

theorem parse_text {j : Json} (fits : j.Fits maxDepth) (legible : j.Legible) :
    Json.parse j.text = .ok j.sorted :=
  parse_eq_ok.mpr ⟨_, _, scan_text_toList fits legible, read_ofJson_eq_sorted j, rfl⟩

end TaskFlow.Json.Decode
