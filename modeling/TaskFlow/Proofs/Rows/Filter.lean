import TaskFlow.Proofs.Json.Fields
import TaskFlow.Proofs.Rows.Joins
import TaskFlow.Proofs.Worker.Run

namespace TaskFlow

/-- Values that a filter looks for by their text alone. Fractions are not among them, since zeros of
both signs are equal. -/
inductive Json.IsKey : Json → Prop
  | str (s : String) : IsKey (.str s)
  | bool (b : Bool) : IsKey (.bool b)
  | int (n : Int) : IsKey (.num (.int n))

namespace Json.IsKey

variable {k v : Json}

theorem exists_keyText? (h : k.IsKey) : ∃ t, k.keyText? = some t := by
  cases h <;> exact ⟨_, rfl⟩

theorem keyText?_of_same (h : k.IsKey) (same : v.same k = true) : v.keyText? = k.keyText? := by
  cases h with
  | str s =>
    cases v with
    | str t => exact congrArg some (beq_iff_eq.mp same)
    | null | bool | num | arr | obj => cases same
  | bool b =>
    cases v with
    | bool a => rw [beq_iff_eq.mp same]
    | null | num | str | arr | obj => cases same
  | int n =>
    cases v with
    | num m =>
      cases m with
      | int m => rw [beq_iff_eq.mp same]
      | real | single => cases same
    | null | bool | str | arr | obj => cases same

end Json.IsKey

namespace Rows

variable {field : String} {k v : Json} {rows : List Row}

theorem matchesValue_iff (h : k.IsKey) : matchesValue v k = true ↔ v.keyText? = k.keyText? := by
  obtain ⟨t, text⟩ := h.exists_keyText?
  rw [matchesValue, Bool.or_eq_true, text]
  constructor
  · rintro (same | texts)
    · rw [h.keyText?_of_same same, text]
    · cases own : v.keyText? with
      | none =>
        rw [own] at texts
        cases texts
      | some u =>
        rw [own, beq_iff_eq] at texts
        rw [texts]
  · intro own
    rw [own]
    exact .inr (beq_self_eq_true t)

theorem filter_eq (h : k.IsKey) (field : String) (rows : List Row) :
    filter field k rows = rows.filter fun r => r.keyIn? field = k.keyText? := by
  refine List.filter_congr fun r _ => ?_
  obtain ⟨t, text⟩ := h.exists_keyText?
  rw [Bool.eq_iff_iff, decide_eq_true_eq, Json.keyIn?]
  cases r.field? field with
  | none => simp [text]
  | some v => exact matchesValue_iff h

/-- A row that has the key and nothing else adds nothing to the rows that it is joined to. -/
theorem merge_key_only {l : Row} (object : l.isObject = true) :
    merge field l (Json.ofFields [(field, k)]) = l := by
  have nothing : ((Json.ofFields [(field, k)]).fields.filter fun f => f.1 ≠ field) = [] :=
    List.filter_cons_of_neg (by simp)
  rw [merge, nothing]
  cases l with
  | obj fs => rfl
  | _ => cases object

theorem isObject_of_keyed {r : Row} {t : String} (h : r.keyIn? field = some t) :
    r.isObject = true := by
  cases r with
  | obj => rfl
  | _ => cases h

theorem joinByKey_key_only (h : k.IsKey) (field : String) (rows : List Row) :
    joinByKey field rows [Json.ofFields [(field, k)]] =
      rows.filter fun r => r.keyIn? field = k.keyText? := by
  obtain ⟨t, text⟩ := h.exists_keyText?
  have key : (Json.ofFields [(field, k)]).keyIn? field = some t := by
    have value : (Json.ofFields [(field, k)]).field? field = some k := by
      simp [Json.field?, Json.ofFields, Json.fields, Json.insertField, Json.lookup_cons]
    rw [Json.keyIn?, value, Option.bind_some, text]
  induction rows with
  | nil => rfl
  | cons l rows ih =>
    rw [joinByKey_cons, ih, List.filter_cons, List.filter_cons, text]
    by_cases same : l.keyIn? field = some t
    · have met : Meet field field (· = ·) (l, Json.ofFields [(field, k)]) :=
        (meet_eq_iff same _).mpr key
      simp [met, same, merge_key_only (isObject_of_keyed same)]
    · have apart : ¬Meet field field (· = ·) (l, Json.ofFields [(field, k)]) := by
        rintro ⟨a, ha, b, hb, rfl⟩
        exact same (ha.trans (hb.symm.trans key))
      simp [apart, same]

/-- Keeping the rows whose field has a value gives, in order, what a join by the field with that
value alone gives. -/
theorem filter_step_joins (h : k.IsKey) (field : String) (rows : List Row) :
    (∀ c s, (Run.step rows (.filter field k)).exec c s =
      (.ok (joinByKey field rows [Json.ofFields [(field, k)]]), s)) ∧
    joinByKey field rows [Json.ofFields [(field, k)]] =
      rows.filter (fun r => r.keyIn? field = k.keyText?) ∧
    (∀ r ∈ joinByKey field rows [Json.ofFields [(field, k)]], r.isObject = true) ∧
    ∀ k', k'.IsKey → k'.keyText? = k.keyText? →
      filter field k' rows = filter field k rows ∧
        joinByKey field rows [Json.ofFields [(field, k')]] =
          joinByKey field rows [Json.ofFields [(field, k)]] := by
  have joined := joinByKey_key_only h field rows
  refine ⟨fun c s => ?_, joined, fun r hr => ?_, fun k' h' same => ⟨?_, ?_⟩⟩
  · have step : (Run.step rows (.filter field k)).exec c s = (.ok (filter field k rows), s) := rfl
    rw [step, joined, filter_eq h]
  · obtain ⟨t, text⟩ := h.exists_keyText?
    rw [joined, text] at hr
    exact isObject_of_keyed (of_decide_eq_true (List.mem_filter.mp hr).2)
  · rw [filter_eq h', filter_eq h, same]
  · rw [joinByKey_key_only h', joined, same]

def threes : List Row :=
  [.obj [("n", .ofNat 3)], .ofNat 3, .obj [("n", .str "3"), ("right_n", .null)],
    .obj [("n", .arr [.ofNat 3])], .obj [("n", .ofDouble (.ofNat 3))], .obj [("m", .ofNat 3)]]

theorem threes_kept : (Json.ofNat 3).IsKey ∧
    (∀ c s, (Run.step threes (.filter "n" (.ofNat 3))).exec c s =
      (.ok [.obj [("n", .ofNat 3)], .obj [("n", .str "3"), ("right_n", .null)]], s)) ∧
    filter "n" (.str "3") threes = filter "n" (.ofNat 3) threes := by
  have three : (Json.ofNat 3).IsKey := .int 3
  obtain ⟨step, joined, -, alike⟩ := filter_step_joins three "n" threes
  refine ⟨three, fun c s => ?_, (alike (.str "3") (.str "3") (by decide +kernel)).1⟩
  rw [step, joined]
  rfl

end Rows

end TaskFlow
