import TaskFlow.Json.Scan
import TaskFlow.Proofs.Json.Fields

namespace TaskFlow

theorem bind_eq_ok {ε α β : Type} {x : Except ε α} {f : α → Except ε β} {b : β} :
    x >>= f = .ok b ↔ ∃ a, x = .ok a ∧ f a = .ok b := by
  cases x <;> simp [bind, Except.bind]

theorem map_eq_ok {ε α β : Type} {x : Except ε α} {f : α → β} {b : β} :
    x.map f = .ok b ↔ ∃ a, x = .ok a ∧ f a = b := by
  cases x <;> simp [Except.map]

theorem toOption_eq_some {ε α : Type} {x : Except ε α} {a : α} :
    x.toOption = some a ↔ x = .ok a := by
  cases x <;> simp [Except.toOption]

theorem toOption_eq_none {ε α : Type} {x : Except ε α} : x.toOption = none ↔ ∃ e, x = .error e := by
  cases x <;> simp [Except.toOption]

theorem mapError_eq_ok {ε ε' : Type} {f : ε → ε'} {x : Except ε α} {a : α} :
    x.mapError f = .ok a ↔ x = .ok a := by
  cases x <;> simp [Except.mapError]

def passes {ε α : Type} (x : Except ε α) (test : α → Bool) : Bool :=
  match x with
  | .ok a => test a
  | .error _ => false

theorem exists_of_passes {ε α : Type} {x : Except ε α} {test : α → Bool}
    (h : passes x test = true) : ∃ a, x = .ok a ∧ test a = true := by
  cases x with
  | ok a => exact ⟨a, rfl, h⟩
  | error e => cases h

/-- Whether texts hold a number: an integer of 64 bits, or a binary number of 64 bits. -/
def Number.Spelled : Number → Prop
  | .int n => -(UInt64.size / 2 : Nat) ≤ n ∧ n < UInt64.size
  | .real _ => True
  | .single _ => False

namespace Json

/-- A value with at most a number of containers nested and with numbers that texts hold. -/
inductive Fits : Nat → Json → Prop
  | null {n : Nat} : Fits n .null
  | bool {n : Nat} (b : Bool) : Fits n (.bool b)
  | num {n : Nat} {x : Number} (h : x.Spelled) : Fits n (.num x)
  | str {n : Nat} (s : String) : Fits n (.str s)
  | arr {n : Nat} {xs : List Json} (h : ∀ x ∈ xs, Fits n x) : Fits (n + 1) (.arr xs)
  | obj {n : Nat} {fs : List (String × Json)} (h : ∀ f ∈ fs, Fits n f.2) : Fits (n + 1) (.obj fs)

mutual

def depth : Json → Nat
  | .arr xs => depthOfItems xs + 1
  | .obj fs => depthOfFields fs + 1
  | _ => 0

def depthOfItems : List Json → Nat
  | [] => 0
  | x :: xs => max (depth x) (depthOfItems xs)

def depthOfFields : List (String × Json) → Nat
  | [] => 0
  | (_, v) :: fs => max (depth v) (depthOfFields fs)

end

theorem depthOfItems_le {n : Nat} {xs : List Json} :
    depthOfItems xs ≤ n ↔ ∀ x ∈ xs, x.depth ≤ n := by
  induction xs with
  | nil => simp [depthOfItems]
  | cons x xs ih => rw [depthOfItems, max_le_iff, ih, List.forall_mem_cons]

theorem depthOfFields_le {n : Nat} {fs : List (String × Json)} :
    depthOfFields fs ≤ n ↔ ∀ f ∈ fs, f.2.depth ≤ n := by
  induction fs with
  | nil => simp [depthOfFields]
  | cons f fs ih => rw [depthOfFields, max_le_iff, ih, List.forall_mem_cons]

namespace Fits

variable {n m : Nat} {j : Json}

theorem of_depth_le (h : j.Fits n) (le : j.depth ≤ m) : j.Fits m := by
  induction h generalizing m with
  | null => exact .null
  | bool b => exact .bool b
  | num h => exact .num h
  | str s => exact .str s
  | arr _ ih =>
    obtain _ | m := m
    · rw [depth] at le
      omega
    · exact .arr fun x hx => ih x hx (depthOfItems_le.mp (Nat.le_of_succ_le_succ le) x hx)
  | obj _ ih =>
    obtain _ | m := m
    · rw [depth] at le
      omega
    · exact .obj fun f hf => ih f hf (depthOfFields_le.mp (Nat.le_of_succ_le_succ le) f hf)

theorem depth_le (h : j.Fits n) : j.depth ≤ n := by
  induction h with
  | null | bool | num | str => exact Nat.zero_le _
  | arr _ ih => exact Nat.succ_le_succ (depthOfItems_le.mpr ih)
  | obj _ ih => exact Nat.succ_le_succ (depthOfFields_le.mpr ih)

end Fits

namespace Doc

/-- A document with at most a number of containers nested and with numbers that texts hold. -/
inductive Fits : Nat → Doc → Prop
  | null {n : Nat} : Fits n .null
  | bool {n : Nat} (b : Bool) : Fits n (.bool b)
  | num {n : Nat} {x : Number} (h : x.Spelled) : Fits n (.num x)
  | str {n : Nat} (s : String) : Fits n (.str s)
  | arr {n : Nat} {ds : List Doc} {cut : Option Break} (h : ∀ d ∈ ds, Fits n d) :
      Fits (n + 1) (.arr ds cut)
  | obj {n : Nat} {fs : List (Key × Doc)} {cut : Option Break} (h : ∀ f ∈ fs, Fits n f.2) :
      Fits (n + 1) (.obj fs cut)
  | unreadable {n : Nat} (f : Fault) : Fits n (.unreadable f)
  | broken {n : Nat} (b : Break) : Fits n (.broken b)

theorem ofItems_eq_map (xs : List Json) : ofItems xs = xs.map ofJson := by
  induction xs with
  | nil => rfl
  | cons x xs ih => rw [ofItems, ih, List.map_cons]

theorem ofFields_eq_map (fs : List (String × Json)) :
    ofFields fs = fs.map fun f => (.ok f.1, ofJson f.2) := by
  induction fs with
  | nil => rfl
  | cons f fs ih => rw [ofFields, ih, List.map_cons]

theorem fits_ofJson {n : Nat} {j : Json} (h : j.Fits n) : (ofJson j).Fits n := by
  induction h with
  | null => exact .null
  | bool b => exact .bool b
  | num h => exact .num h
  | str s => exact .str s
  | arr _ ih =>
    rw [ofJson, ofItems_eq_map]
    exact .arr (List.forall_mem_map.mpr ih)
  | obj _ ih =>
    rw [ofJson, ofFields_eq_map]
    exact .obj (List.forall_mem_map.mpr ih)

end Doc

theorem Numeral.value?_spelled {n : Numeral} {x : Number} (h : n.value? = some x) : x.Spelled := by
  have real {y : Number} (hy : n.real?.map Number.real = some y) : y.Spelled := by
    obtain ⟨r, -, rfl⟩ := Option.map_eq_some_iff.mp hy
    exact trivial
  unfold value? at h
  split at h
  · dsimp only at h
    split at h
    · split at h
      · next small =>
        cases h
        simp only [Number.Spelled, UInt64.size] at small ⊢
        omega
      · exact real h
    · split at h
      · next small =>
        cases h
        simp only [Number.Spelled, greatest, UInt64.size] at small ⊢
        omega
      · exact real h
  · exact real h

theorem scanScalar_fits (fuel depth : Nat) (c : Char) (cs : List Char) :
    (scanScalar fuel c cs).1.Fits depth := by
  rw [scanScalar]
  dsimp only
  split
  · split
    · exact .null
    · exact .broken _
  split
  · split
    · exact .bool _
    · exact .broken _
  split
  · split
    · exact .bool _
    · exact .broken _
  split
  · split
    · exact .str _
    · exact .unreadable _
    · exact .broken _
  split
  · split
    · split
      · next h => exact .num (Numeral.value?_spelled h)
      · exact .unreadable _
    · exact .broken _
  · exact .broken _

theorem overDeep_fits (f : Fault) (d : Doc) (n : Nat) : (overDeep f d).Fits n := by
  rw [overDeep]
  split
  · exact .unreadable _
  · exact .broken _

theorem container_fits {depth : Nat} {f : Fault} {d : Doc}
    (h : ∀ m, depth = m + 1 → d.Fits (m + 1)) :
    (if depth = 0 then overDeep f d else d).Fits depth := by
  split
  · exact overDeep_fits f d depth
  · obtain ⟨m, rfl⟩ := Nat.exists_eq_succ_of_ne_zero ‹_›
    exact h m rfl

variable {fuel depth : Nat} {cs : List Char}

theorem scanValue_fits (items : ∀ m cs, ∀ d ∈ (scanItems fuel m cs).1, d.Fits m)
    (fields : ∀ m cs, ∀ f ∈ (scanFields fuel m cs).1, f.2.Fits m) :
    (scanValue (fuel + 1) depth cs).1.Fits depth := by
  rw [scanValue]
  split
  · exact .broken _
  · next c cs _ =>
    split
    · split
      next ds cut rest h =>
      refine container_fits fun m hm => .arr fun d hd => ?_
      split at h
      · cases h
        cases hd
      · cases h
        cases hd
      · have := items (depth - 1) _ d (by rw [h]; exact hd)
        rwa [hm] at this
    split
    · split
      next fs cut rest h =>
      refine container_fits fun m hm => .obj fun f hf => ?_
      split at h
      · cases h
        cases hf
      · cases h
        cases hf
      · have := fields (depth - 1) _ f (by rw [h]; exact hf)
        rwa [hm] at this
    · exact scanScalar_fits ..

theorem scanItems_fits (values : ∀ cs, (scanValue fuel depth cs).1.Fits depth)
    (items : ∀ cs, ∀ d ∈ (scanItems fuel depth cs).1, d.Fits depth) :
    ∀ d ∈ (scanItems (fuel + 1) depth cs).1, d.Fits depth := by
  have first {d : Doc} {r : Option (List Char)} (h : scanValue fuel depth cs = (d, r)) :
      d.Fits depth := by
    have := values cs
    rwa [h] at this
  rw [scanItems]
  split
  · next h => exact List.forall_mem_singleton.mpr (first h)
  · next h =>
    split
    · exact List.forall_mem_singleton.mpr (first h)
    · split
      · exact List.forall_mem_singleton.mpr (first h)
      · exact List.forall_mem_singleton.mpr (first h)
      · exact List.forall_mem_cons.mpr ⟨first h, items _⟩
    · exact List.forall_mem_singleton.mpr (first h)

theorem scanFields_fits (values : ∀ cs, (scanValue fuel depth cs).1.Fits depth)
    (fields : ∀ cs, ∀ f ∈ (scanFields fuel depth cs).1, f.2.Fits depth) :
    ∀ f ∈ (scanFields (fuel + 1) depth cs).1, f.2.Fits depth := by
  unfold scanFields
  split
  · split
    · exact List.forall_mem_nil _
    split
    · next rest _ =>
      have first {d : Doc} {r : Option (List Char)} (h : scanValue fuel depth rest = (d, r)) :
          d.Fits depth := by
        have := values rest
        rwa [h] at this
      split
      · next h => exact List.forall_mem_singleton.mpr (first h)
      · next h =>
        split
        · exact List.forall_mem_singleton.mpr (first h)
        · split
          · exact List.forall_mem_singleton.mpr (first h)
          · exact List.forall_mem_singleton.mpr (first h)
          · exact List.forall_mem_cons.mpr ⟨first h, fields _⟩
        · exact List.forall_mem_singleton.mpr (first h)
    · exact List.forall_mem_singleton.mpr (.broken _)
  · exact List.forall_mem_nil _

/-- A scan finds no more nested containers than it may open, and numbers of 64 bits only. -/
theorem scan_fits (fuel : Nat) :
    (∀ depth cs, (scanValue fuel depth cs).1.Fits depth) ∧
    (∀ depth cs, ∀ d ∈ (scanItems fuel depth cs).1, d.Fits depth) ∧
    ∀ depth cs, ∀ f ∈ (scanFields fuel depth cs).1, f.2.Fits depth := by
  -- The scans call each other, each time with less fuel, so all three go into one induction.
  induction fuel with
  | zero =>
    refine ⟨fun depth cs => ?_, fun depth cs => ?_, fun depth cs => ?_⟩
    · rw [scanValue]
      exact .broken _
    · rw [scanItems]
      exact List.forall_mem_nil _
    · unfold scanFields
      exact List.forall_mem_nil _
  | succ fuel ih =>
    obtain ⟨values, items, fields⟩ := ih
    exact ⟨fun _ _ => scanValue_fits items fields,
      fun _ _ => scanItems_fits (values _) (items _),
      fun _ _ => scanFields_fits (values _) (fields _)⟩

theorem fits_scan (cs : List Char) : (scan cs).1.Fits maxDepth := (scan_fits _).1 maxDepth cs

/-- A value as readers make them: it fits, and the fields of its objects are in order. -/
inductive Tidy : Nat → Json → Prop
  | null {n : Nat} : Tidy n .null
  | bool {n : Nat} (b : Bool) : Tidy n (.bool b)
  | num {n : Nat} {x : Number} (h : x.Spelled) : Tidy n (.num x)
  | str {n : Nat} (s : String) : Tidy n (.str s)
  | arr {n : Nat} {xs : List Json} (h : ∀ x ∈ xs, Tidy n x) : Tidy (n + 1) (.arr xs)
  | obj {n : Nat} {fs : List (String × Json)} (ordered : InOrder fs)
      (h : ∀ f ∈ fs, Tidy n f.2) : Tidy (n + 1) (.obj fs)

theorem Tidy.mono {n m : Nat} {j : Json} (h : j.Tidy n) (le : n ≤ m) : j.Tidy m := by
  induction h generalizing m with
  | null => exact .null
  | bool b => exact .bool b
  | num h => exact .num h
  | str s => exact .str s
  | arr _ ih =>
    obtain ⟨m, rfl⟩ := Nat.exists_eq_add_of_le' (Nat.one_le_of_lt le)
    exact .arr fun x hx => ih x hx (Nat.le_of_succ_le_succ le)
  | obj ordered _ ih =>
    obtain ⟨m, rfl⟩ := Nat.exists_eq_add_of_le' (Nat.one_le_of_lt le)
    exact .obj ordered fun f hf => ih f hf (Nat.le_of_succ_le_succ le)

theorem Tidy.fits {n : Nat} {j : Json} (h : j.Tidy n) : j.Fits n := by
  induction h with
  | null => exact .null
  | bool b => exact .bool b
  | num h => exact .num h
  | str s => exact .str s
  | arr _ ih => exact .arr ih
  | obj _ _ ih => exact .obj ih

namespace Doc

variable {n : Nat}

theorem readItems_tidy {ds : List Doc} {xs : List Json}
    (ih : ∀ d ∈ ds, ∀ j, d.read = .ok j → j.Tidy n) (h : readItems ds = .ok xs) :
    ∀ x ∈ xs, x.Tidy n := by
  induction ds generalizing xs with
  | nil =>
    cases h
    exact List.forall_mem_nil _
  | cons d ds next =>
    obtain ⟨x, hx, h⟩ := bind_eq_ok.mp h
    obtain ⟨xs, hxs, h⟩ := bind_eq_ok.mp h
    cases h
    exact List.forall_mem_cons.mpr ⟨ih d (List.mem_cons_self ..) x hx,
      next (fun d hd => ih d (List.mem_cons_of_mem _ hd)) hxs⟩

theorem readFields_tidy {fs : List (Key × Doc)} {gs : List (String × Json)}
    (ih : ∀ f ∈ fs, ∀ j, f.2.read = .ok j → j.Tidy n) (h : readFields fs = .ok gs) :
    ∀ g ∈ gs, g.2.Tidy n := by
  induction fs generalizing gs with
  | nil =>
    cases h
    exact List.forall_mem_nil _
  | cons f fs next =>
    obtain ⟨k, -, h⟩ := bind_eq_ok.mp h
    obtain ⟨v, hv, h⟩ := bind_eq_ok.mp h
    obtain ⟨gs, hgs, h⟩ := bind_eq_ok.mp h
    cases h
    exact List.forall_mem_cons.mpr ⟨ih f (List.mem_cons_self ..) v hv,
      next (fun f hf => ih f (List.mem_cons_of_mem _ hf)) hgs⟩

theorem read_tidy {d : Doc} {j : Json} (fits : d.Fits n) (h : d.read = .ok j) : j.Tidy n := by
  induction fits generalizing j with
  | null | bool | str =>
    cases h
    constructor
  | num hx =>
    cases h
    exact .num hx
  | arr _ ih =>
    obtain ⟨xs, hxs, h⟩ := bind_eq_ok.mp h
    obtain ⟨-, -, h⟩ := bind_eq_ok.mp h
    cases h
    exact .arr (readItems_tidy (fun d hd j => ih d hd) hxs)
  | obj _ ih =>
    obtain ⟨gs, hgs, h⟩ := bind_eq_ok.mp h
    obtain ⟨-, -, h⟩ := bind_eq_ok.mp h
    -- Sorting drops fields under a name that comes again, so only those left are known to be tidy.
    obtain ⟨fs, hfs, ordered, given⟩ := ofFields_eq gs
    have tidy := readFields_tidy (fun f hf j => ih f hf) hgs
    rw [hfs] at h
    cases h
    exact .obj ordered fun f hf => tidy f (given f hf)
  | unreadable | broken => cases h

end Doc

theorem parse_eq_ok {s : String} {j : Json} : parse s = .ok j ↔
    ∃ d after, scan s.toList = (d, after) ∧ d.read = .ok j ∧ checkRest after = .ok () := by
  unfold parse
  generalize scan s.toList = scanned
  obtain ⟨d, after⟩ := scanned
  constructor
  · intro h
    obtain ⟨j, read, h⟩ := bind_eq_ok.mp h
    obtain ⟨⟨⟩, whole, h⟩ := bind_eq_ok.mp h
    cases h
    exact ⟨d, after, rfl, read, whole⟩
  · rintro ⟨d, after, same, read, whole⟩
    cases same
    exact bind_eq_ok.mpr ⟨j, read, bind_eq_ok.mpr ⟨(), whole, rfl⟩⟩

theorem tidy_of_parse {s : String} {j : Json} (h : parse s = .ok j) : j.Tidy maxDepth := by
  obtain ⟨d, after, scanned, read, -⟩ := parse_eq_ok.mp h
  have fits := fits_scan s.toList
  rw [scanned] at fits
  exact Doc.read_tidy fits read

end Json

end TaskFlow
