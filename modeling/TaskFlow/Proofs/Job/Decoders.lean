import TaskFlow.Proofs.Job.Codec
import TaskFlow.Proofs.Json.Steady

namespace TaskFlow

open Json.Decode

variable {src : Json.Source} {n : Nat}

theorem Step.steady_one {α : Type} {title name : String} {read : Json.Decoder α} {make : α → Step}
    (steady : Steady read) : Steady (one title name read make) :=
  steady_record ⟨steady, trivial⟩ (List.pairwise_singleton ..)

theorem Step.steady_two {α β : Type} {title name₁ name₂ : String} {read₁ : Json.Decoder α}
    {read₂ : Json.Decoder β} {make : α → β → Step} (steady₁ : Steady read₁)
    (steady₂ : Steady read₂) (nodup : [name₁, name₂].Nodup) :
    Steady (two title name₁ read₁ name₂ read₂ make) :=
  steady_record ⟨steady₁, steady₂, trivial⟩ nodup

theorem Step.steady : Steady decode := by
  refine steady_tagged ?_
  simp only [List.forall_mem_cons]
  exact ⟨steady_one steady_json.list, steady_one steady_string, steady_one steady_string,
    steady_two steady_string steady_json (by decide), steady_one steady_string.list,
    steady_two steady_string steady_string (by decide),
    steady_two steady_string steady_string (by decide), steady_one (steady_natural _),
    steady_one (steady_natural _), steady_one steady_string, steady_bare _, List.forall_mem_nil _⟩

theorem DataSource.steady : Steady decode := by
  refine steady_choice ?_
  simp only [List.forall_mem_cons]
  exact ⟨steady_json.list.map _, steady_string.map _, steady_string.map _, List.forall_mem_nil _⟩

namespace Job

theorem steady_decodePayload (k : JobKind) : Steady (decodePayload k) := by
  cases k with
  | execute => exact steady_record ⟨Step.steady.list, trivial⟩ (by decide)
  | writeResults =>
    exact steady_record ⟨Step.steady.list, steady_string, steady_names _, trivial⟩ (by decide)
  | createTable => exact steady_record ⟨steady_string, steady_names _, trivial⟩ (by decide)
  | fuzzyJoin =>
    exact steady_record ⟨DataSource.steady, DataSource.steady, steady_string, steady_string,
      steady_double, trivial⟩ (by decide)

def withKind (k : JobKind) (payload : Json) : Json :=
  .obj [("kind", k.toJson), ("payload", payload)]

theorem parse_iff {k : JobKind} {v : Json} {j : Job} :
    parse k v = .ok j ↔ fromJson (decodePayload k) v = .ok j ∧ j.validate = .ok () := by
  constructor
  · intro h
    refine ⟨decoded_of_parse h, ?_⟩
    obtain ⟨i, -, h⟩ := bind_eq_ok.mp h
    obtain ⟨⟨⟩, valid, h⟩ := bind_eq_ok.mp h
    cases h
    exact valid
  · rintro ⟨read, valid⟩
    exact bind_eq_ok.mpr ⟨j, mapError_eq_ok.mpr read, bind_eq_ok.mpr ⟨(), valid, rfl⟩⟩

theorem decode_withKind {k : JobKind} {v : Json} {j : Job} :
    decode src (Json.Doc.ofJson (withKind k v)) = .ok j ↔
      decodePayload k src (Json.Doc.ofJson v) = .ok j := by
  have known : (k.name, decodePayload k) ∈ JobKind.all.map fun k => (k.name, decodePayload k) :=
    List.mem_map.mpr ⟨k, JobKind.mem_all k, rfl⟩
  exact adjacent_of_find (by decide) (find?_of_mem (by decide) known)

theorem finite_of_validate {j : Job} (valid : j.validate = .ok ()) :
    ∀ x ∈ j.threshold?, x.isFinite = true := by
  rintro x hx
  cases j with
  | execute | writeResults | createTable => cases hx
  | fuzzyJoin left right leftOn rightOn threshold =>
    cases hx
    have within : (Binary.zero.le x && x.le (.ofNat 1)) = true := by
      unfold validate objection? at valid
      dsimp only at valid
      split at valid
      · next sound =>
        split at sound
        · cases sound
        · split at sound
          · assumption
          · cases sound
      · cases valid
    obtain ⟨above, below⟩ := Bool.and_eq_true_iff.mp within
    cases x with
    | finite => rfl
    | nan => cases above
    | infinite s =>
      cases s with
      | true => cases above
      | false => exact absurd below (by decide)

theorem fits_withKind {k : JobKind} {v : Json} (fits : v.Fits n) : (withKind k v).Fits (n + 1) :=
  .obj (List.forall_mem_cons.mpr ⟨.str _, List.forall_mem_singleton.mpr fits⟩)

theorem legible_withKind {k : JobKind} {v : Json} (legible : v.Legible) :
    (withKind k v).Legible :=
  Json.legible_obj.mpr (List.forall_mem_cons.mpr
    ⟨Json.legible_str _, List.forall_mem_singleton.mpr legible⟩)

theorem decodePayload_text_iff {k : JobKind} {v : Json} {j : Job} (tidy : v.Tidy n) :
    decodePayload k .text (Json.Doc.ofJson v) = .ok j ↔
      fromJson (decodePayload k) v = .ok j := by
  have steady {src src' : Json.Source} (h : src = .buffered → src' = .buffered)
      (read : decodePayload k src (Json.Doc.ofJson v) = .ok j) :
      decodePayload k src' (Json.Doc.ofJson v) = .ok j := by
    have sorted := steady_decodePayload k h read
    rwa [Json.sorted_of_tidy tidy] at sorted
  exact ⟨steady nofun, steady nofun⟩

/-- Both decoders take the same payloads for valid jobs of a kind, and a job is read back from the
value and the text it is written as. -/
theorem decoders_agree (k : JobKind) (v : Json) (j : Job) :
    (parse k v = .ok j ↔ fromJson decode (withKind k v) = .ok j ∧ j.validate = .ok ()) ∧
    (parse k v = .ok j → j.kind = k) ∧
    ∀ n, v.Tidy n →
      (parse k v = .ok j → ∃ w p, fromJson json j.toJson = .ok w ∧ w.field? "payload" = some p ∧
        parse k p = .ok j ∧ (n ≤ 126 → (∀ x ∈ j.fractions, (Number.real x).ReadsBack) →
          Json.parse j.toJson.text = .ok w)) ∧
      (n ≤ 126 → v.Legible → (parse k v = .ok j ↔
        fromText decode (withKind k v).text = .ok j ∧ j.validate = .ok ())) := by
  refine ⟨?_, fun h => kind_of_decodePayload (decoded_of_parse h), fun n tidy => ⟨fun h => ?_, ?_⟩⟩
  · rw [parse_iff]
    exact and_congr_left' decode_withKind.symm
  · obtain ⟨read, valid⟩ := parse_iff.mp h
    obtain ⟨rfl, encoded⟩ :=
      payload_encodes (Json.Doc.fits_ofJson tidy.fits) read (finite_of_validate valid)
    -- the object of the text is sorted when it is read as a value, which no decoder minds
    have again : fromJson (decodePayload j.kind) j.payload.sorted = .ok j :=
      steady_decodePayload j.kind id (encoded.again .value)
    refine ⟨j.toJson.sorted, j.payload.sorted, lift_eq_ok.mpr (Json.read_ofJson_eq_sorted _), ?_,
      parse_iff.mpr ⟨again, valid⟩, fun small readBack => ?_⟩
    · exact Json.lookup_sortedFields
    · have fits : j.toJson.Fits (n + 1) := fits_withKind encoded.fits
      have deep : j.toJson.depth ≤ Json.maxDepth := fits.depth_le.trans (Nat.succ_le_succ small)
      exact parse_text (fits.of_depth_le deep)
        (legible_withKind (legible_of_readsBack readBack).2)
  · intro small legible
    have fits : (withKind k v).Fits Json.maxDepth :=
      (fits_withKind tidy.fits).of_depth_le
        ((fits_withKind tidy.fits).depth_le.trans (Nat.succ_le_succ small))
    rw [parse_iff, fromText_iff fits (legible_withKind legible), decode_withKind,
      decodePayload_text_iff tidy]

/-- A payload without names and without a threshold, with a number that is no integer. -/
def sides : Json :=
  .arr [.obj [("csv", .str "a.csv")],
    .obj [("rows", .arr [.obj [("n", .num (.real Assignment.oneAndHalf))]])], .str "n", .str "m"]

def joinedFractions : List Double := [defaultThreshold, Assignment.oneAndHalf, defaultThreshold]

theorem tidy_sides : sides.Tidy 4 := by
  have row : (Json.obj [("n", .num (.real Assignment.oneAndHalf))]).Tidy 1 :=
    .obj (List.pairwise_singleton ..) (List.forall_mem_singleton.mpr (.num trivial))
  refine .arr (List.forall_mem_cons.mpr ⟨?_, List.forall_mem_cons.mpr ⟨?_,
    List.forall_mem_cons.mpr ⟨.str _, List.forall_mem_singleton.mpr (.str _)⟩⟩⟩)
  · exact .obj (List.pairwise_singleton ..) (List.forall_mem_singleton.mpr (.str _))
  · exact .obj (List.pairwise_singleton ..)
      (List.forall_mem_singleton.mpr (.arr (List.forall_mem_singleton.mpr row)))

theorem sides_agree : ∃ j, parse .fuzzyJoin sides = .ok j ∧ j.kind = .fuzzyJoin ∧
    j.fractions = joinedFractions ∧
    fromText decode (withKind .fuzzyJoin sides).text = .ok j ∧
    ∃ w p, Json.parse j.toJson.text = .ok w ∧ w.field? "payload" = some p ∧
      parse .fuzzyJoin p = .ok j := by
  have known : passes (parse .fuzzyJoin sides) (·.fractions == joinedFractions) = true := by
    decide +kernel
  have readBack : ∀ x ∈ joinedFractions, (Number.real x).ReadsBack := by decide +kernel
  have legible : sides.Legible := by
    intro x hx
    obtain rfl := List.mem_singleton.mp hx
    exact readBack _ (by decide)
  obtain ⟨j, parsed, same⟩ := exists_of_passes known
  have fractions := beq_iff_eq.mp same
  obtain ⟨-, kind, tidy⟩ := decoders_agree .fuzzyJoin sides j
  obtain ⟨again, text⟩ := tidy 4 tidy_sides
  obtain ⟨w, p, -, payload, parsed', spelled⟩ := again parsed
  exact ⟨j, parsed, kind parsed, fractions, ((text (by decide) legible).mp parsed).1, w, p,
    spelled (by decide) (fractions ▸ readBack), payload, parsed'⟩

end Job

end TaskFlow
