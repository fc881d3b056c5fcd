import Mathlib.Data.List.Forall2
import TaskFlow.Proofs.Json.Numbers

namespace TaskFlow.Json

variable {cs rest : List Char} {fuel n : Nat}

theorem hexValue?_hexDigit {k : Nat} (h : k < 16) : hexValue? (hexDigit k) = some k := by
  have : ∀ k < 16, hexValue? (hexDigit k) = some k := by decide
  exact this k h

theorem scanUnicode_low {k : Nat} (cs : List Char) (h : k < 0x20) :
    scanUnicode ('0' :: '0' :: hexDigit (k / 16) :: hexDigit (k % 16) :: cs) =
      .ok (.ofNat k, cs) := by
  have zero : hexValue? '0' = some 0 := by decide
  have hex : scanHex ('0' :: '0' :: hexDigit (k / 16) :: hexDigit (k % 16) :: cs) =
      .ok (k, cs) := by
    rw [scanHex, zero, hexValue?_hexDigit (by omega), hexValue?_hexDigit (by omega)]
    dsimp only
    congr 2
    omega
  refine bind_eq_ok.mpr ⟨_, hex, ?_⟩
  have low : isLowSurrogate k = false := by simp [isLowSurrogate]; omega
  have high : isHighSurrogate k = false := by simp [isHighSurrogate]; omega
  dsimp only
  rw [low, high]
  rfl

def consChar (c : Char) (r : Except Fault (List Char × List Char)) :
    Except Fault (List Char × List Char) := do
  let (xs, rest) ← r
  return (c :: xs, rest)

theorem scanQuoted_raw {c : Char} (quote : c ≠ '"') (slash : c ≠ '\\') (high : ¬c.toNat < 0x20) :
    scanQuoted (fuel + 1) (c :: cs) = consChar c (scanQuoted fuel cs) := by
  rw [scanQuoted.eq_def]
  dsimp only
  rw [if_neg quote, if_neg slash, if_neg high]
  rfl

theorem scanQuoted_short {c e : Char} (h : shortEscape? e = some c) :
    scanQuoted (fuel + 1) ('\\' :: e :: cs) = consChar c (scanQuoted fuel cs) := by
  have short : e ≠ 'u' := by
    rintro rfl
    rw [show shortEscape? 'u' = none by decide] at h
    cases h
  rw [scanQuoted.eq_def]
  dsimp only
  rw [if_neg (by decide), if_pos rfl]
  split
  · next nil => cases nil
  · next unicode => exact absurd (List.cons.inj unicode).1 short
  · next same =>
    obtain ⟨rfl, rfl⟩ := List.cons.inj same
    rw [h]
    rfl

theorem scanQuoted_unicode {c : Char} (h : scanUnicode cs = .ok (c, rest)) :
    scanQuoted (fuel + 1) ('\\' :: 'u' :: cs) = consChar c (scanQuoted fuel rest) := by
  rw [scanQuoted, if_neg (by decide), if_pos rfl]
  dsimp only
  rw [h]
  rfl

theorem scanQuoted_escape (c : Char) :
    scanQuoted (fuel + 1) (escape c ++ cs) = consChar c (scanQuoted fuel cs) := by
  by_cases quote : c = '"'
  · subst quote
    exact scanQuoted_short (by decide)
  by_cases slash : c = '\\'
  · subst slash
    exact scanQuoted_short (by decide)
  rw [escape, if_neg quote, if_neg slash]
  split
  · next h => exact h ▸ scanQuoted_short (by decide)
  split
  · next h => exact h ▸ scanQuoted_short (by decide)
  split
  · next h => exact h ▸ scanQuoted_short (by decide)
  split
  · next h => exact h ▸ scanQuoted_short (by decide)
  split
  · next h => exact h ▸ scanQuoted_short (by decide)
  split
  · next low =>
    have := scanUnicode_low cs low
    rw [Char.ofNat_toNat] at this
    exact scanQuoted_unicode this
  · next high => exact scanQuoted_raw quote slash high

theorem scanQuoted_flatMap {xs : List Char} (h : xs.length < fuel) :
    scanQuoted fuel (xs.flatMap escape ++ '"' :: rest) = .ok (xs, rest) := by
  induction xs generalizing fuel with
  | nil =>
    obtain _ | fuel := fuel
    · omega
    · rfl
  | cons c xs ih =>
    obtain _ | fuel := fuel
    · omega
    · rw [List.flatMap_cons, List.append_assoc, scanQuoted_escape,
        ih (Nat.lt_of_succ_lt_succ h)]
      rfl

theorem scanString_quote {s : String} (h : s.length < fuel) :
    scanString fuel (s.toList.flatMap escape ++ '"' :: rest) = .ok (.ok s, rest) := by
  rw [scanString, scanQuoted_flatMap h]
  dsimp only
  rw [String.ofList_toList]

theorem length_le_flatMap (xs : List Char) : xs.length ≤ (xs.flatMap escape).length := by
  induction xs with
  | nil => exact Nat.le_refl _
  | cons c xs ih =>
    have : 0 < (escape c).length := by
      unfold escape
      repeat' split
      all_goals exact Nat.succ_pos _
    rw [List.flatMap_cons, List.length_append, List.length_cons]
    omega

mutual

def fractions : Json → List Double
  | .num (.real x) => [x]
  | .arr xs => fractionsOfItems xs
  | .obj fs => fractionsOfFields fs
  | _ => []

def fractionsOfItems : List Json → List Double
  | [] => []
  | x :: xs => fractions x ++ fractionsOfItems xs

def fractionsOfFields : List (String × Json) → List Double
  | [] => []
  | (_, v) :: fs => fractions v ++ fractionsOfFields fs

end

theorem mem_fractionsOfItems {r : Double} {xs : List Json} :
    r ∈ fractionsOfItems xs ↔ ∃ x ∈ xs, r ∈ x.fractions := by
  induction xs with
  | nil => simp [fractionsOfItems]
  | cons x xs ih => simp [fractionsOfItems, ih]

theorem mem_fractionsOfFields {r : Double} {fs : List (String × Json)} :
    r ∈ fractionsOfFields fs ↔ ∃ f ∈ fs, r ∈ f.2.fractions := by
  induction fs with
  | nil => simp [fractionsOfFields]
  | cons f fs ih => simp [fractionsOfFields, ih]

def Legible (j : Json) : Prop := ∀ x ∈ j.fractions, (Number.real x).ReadsBack

theorem legible_arr {xs : List Json} : (Json.arr xs).Legible ↔ ∀ x ∈ xs, x.Legible := by
  constructor
  · exact fun h x hx r hr => h r (mem_fractionsOfItems.mpr ⟨x, hx, hr⟩)
  · intro h r hr
    obtain ⟨x, hx, hr⟩ := mem_fractionsOfItems.mp hr
    exact h x hx r hr

theorem legible_obj {fs : List (String × Json)} :
    (Json.obj fs).Legible ↔ ∀ f ∈ fs, f.2.Legible := by
  constructor
  · exact fun h f hf r hr => h r (mem_fractionsOfFields.mpr ⟨f, hf, hr⟩)
  · intro h r hr
    obtain ⟨f, hf, hr⟩ := mem_fractionsOfFields.mp hr
    exact h f hf r hr

theorem legible_str (s : String) : (Json.str s).Legible := List.forall_mem_nil _

/-- A text that starts neither with white space nor with the end of a list. -/
def Starts (cs : List Char) : Prop := ∃ c ds, cs = c :: ds ∧ isSpace c = false ∧ c ≠ ']'

/-- A value whose text, where a value may end, is scanned as the document of another value. -/
structure ScansAs (n : Nat) (j k : Json) : Prop where
  start : Starts j.chars
  scan : ∀ fuel rest, 2 * j.chars.length ≤ fuel → Ends rest →
    scanValue fuel n (j.chars ++ rest) = (Doc.ofJson k, some rest)

/-- A field whose text is scanned as a field of the same name. -/
def FieldScansAs (n : Nat) (f g : String × Json) : Prop := f.1 = g.1 ∧ ScansAs n f.2 g.2

theorem Starts.append (h : Starts cs) : Starts (cs ++ rest) := by
  obtain ⟨c, cs, rfl, h⟩ := h
  exact ⟨c, cs ++ rest, rfl, h⟩

theorem starts_charsOfItems {x : Json} {xs : List Json} (h : Starts x.chars) :
    Starts (charsOfItems (x :: xs)) := by
  cases xs with
  | nil => exact h
  | cons y ys => exact h.append

theorem scanItems_last {d : Doc} (h : scanValue fuel n cs = (d, some (']' :: rest))) :
    scanItems (fuel + 1) n cs = ([d], none, some rest) := by
  rw [scanItems, h]
  rfl

theorem scanItems_next {d : Doc} (h : scanValue fuel n cs = (d, some (',' :: rest)))
    (more : Starts rest) : scanItems (fuel + 1) n cs =
      (d :: (scanItems fuel n rest).1, (scanItems fuel n rest).2) := by
  obtain ⟨c, ds, rfl, blank, going⟩ := more
  rw [scanItems, h]
  dsimp only
  rw [skipSpace_of_not_space (by decide)]
  split
  · next other => exact absurd (List.cons.inj other).1 (by decide)
  · next same =>
    obtain ⟨-, rfl⟩ := List.cons.inj same
    rw [skipSpace_of_not_space blank]
    split
    · next nil => cases nil
    · next last => exact absurd (List.cons.inj last).1 going
    · rfl
  · next other => exact absurd rfl (other _)

theorem scanItems_chars {xs ys : List Json} (h : List.Forall₂ (ScansAs n) xs ys)
    (given : xs ≠ []) (enough : 2 * (charsOfItems xs).length < fuel) :
    scanItems fuel n (charsOfItems xs ++ ']' :: rest) = (Doc.ofItems ys, none, some rest) := by
  induction h generalizing fuel with
  | nil => exact absurd rfl given
  | @cons x y xs ys first others ih =>
    obtain _ | fuel := fuel
    · omega
    cases others with
    | nil =>
      rw [charsOfItems] at enough ⊢
      rw [scanItems_last (first.scan _ _ (by omega) .bracket)]
      rfl
    | @cons x' y' xs ys second others =>
      rw [charsOfItems, List.length_append, List.length_cons] at enough
      have next : scanItems fuel n (charsOfItems (x' :: xs) ++ ']' :: rest) =
          (Doc.ofItems (y' :: ys), none, some rest) := ih (List.cons_ne_nil _ _) (by omega)
      have start : Starts (charsOfItems (x' :: xs) ++ ']' :: rest) :=
        (starts_charsOfItems second.start).append
      rw [charsOfItems, List.append_assoc, List.cons_append,
        scanItems_next (first.scan _ _ (by omega) .comma) start, next]
      rfl

theorem scanFields_last {k : Key} {d : Doc} {tail : List Char}
    (name : scanString fuel cs = .ok (k, ':' :: tail))
    (h : scanValue fuel n tail = (d, some ('}' :: rest))) :
    scanFields (fuel + 1) n ('"' :: cs) = ([(k, d)], none, some rest) := by
  rw [scanFields, name]
  dsimp only
  rw [skipSpace_of_not_space (by decide)]
  split
  · next same =>
    obtain ⟨-, rfl⟩ := List.cons.inj same
    rw [h]
    rfl
  · next other => exact absurd rfl (other _)

theorem scanFields_next {k : Key} {d : Doc} {tail : List Char}
    (name : scanString fuel cs = .ok (k, ':' :: tail))
    (h : scanValue fuel n tail = (d, some (',' :: '"' :: rest))) :
    scanFields (fuel + 1) n ('"' :: cs) =
      ((k, d) :: (scanFields fuel n ('"' :: rest)).1, (scanFields fuel n ('"' :: rest)).2) := by
  rw [scanFields, name]
  dsimp only
  rw [skipSpace_of_not_space (by decide)]
  split
  · next same =>
    obtain ⟨-, rfl⟩ := List.cons.inj same
    rw [h]
    rfl
  · next other => exact absurd rfl (other _)

theorem starts_charsOfFields (f : String × Json) (fs : List (String × Json)) :
    ∃ more, charsOfFields (f :: fs) = '"' :: more := by
  cases fs with
  | nil => exact ⟨_, rfl⟩
  | cons g gs => exact ⟨_, rfl⟩

theorem quote_append (s : String) (rest : List Char) :
    quote s ++ rest = '"' :: (s.toList.flatMap escape ++ '"' :: rest) := by
  simp [quote]

theorem length_quote (s : String) : s.length + 2 ≤ (quote s).length := by
  have := length_le_flatMap s.toList
  simp only [quote, List.length_append, List.length_cons, List.length_nil]
  rw [← String.length_toList]
  omega

theorem scanFields_chars {fs gs : List (String × Json)}
    (h : List.Forall₂ (FieldScansAs n) fs gs) (given : fs ≠ [])
    (enough : 2 * (charsOfFields fs).length < fuel) :
    scanFields fuel n (charsOfFields fs ++ '}' :: rest) = (Doc.ofFields gs, none, some rest) := by
  induction h generalizing fuel with
  | nil => exact absurd rfl given
  | @cons f g fs gs first others ih =>
    obtain ⟨k, v⟩ := f
    obtain ⟨l, w⟩ := g
    obtain ⟨rfl, value⟩ : k = l ∧ ScansAs n v w := first
    have short := length_quote k
    obtain _ | fuel := fuel
    · omega
    cases others with
    | nil =>
      rw [charsOfFields, List.length_append, List.length_cons] at enough
      rw [charsOfFields, List.append_assoc, quote_append, List.cons_append,
        scanFields_last (scanString_quote (by omega)) (value.scan _ _ (by omega) .brace)]
      rfl
    | @cons f g fs gs second others =>
      rw [charsOfFields, List.length_append, List.length_append, List.length_cons,
        List.length_cons] at enough
      have next : scanFields fuel n (charsOfFields (f :: fs) ++ '}' :: rest) =
          (Doc.ofFields (g :: gs), none, some rest) := ih (List.cons_ne_nil _ _) (by omega)
      obtain ⟨more, start⟩ := starts_charsOfFields f fs
      rw [start] at next
      rw [charsOfFields, start, List.append_assoc, List.append_assoc, quote_append,
        List.cons_append, List.cons_append, List.cons_append,
        scanFields_next (scanString_quote (by omega)) (value.scan _ _ (by omega) .comma)]
      rw [List.cons_append] at next
      rw [next]
      rfl

theorem scanWord_append (w : List Char) : scanWord w (w ++ rest) = .ok rest := by
  induction w with
  | nil => rfl
  | cons c w ih => rw [List.cons_append, scanWord, if_pos rfl, ih]

theorem scanScalar_null : scanScalar fuel 'n' ("ull".toList ++ rest) = (.null, some rest) := by
  rw [scanScalar]
  dsimp only
  rw [if_pos rfl, scanWord_append]

theorem scanScalar_true : scanScalar fuel 't' ("rue".toList ++ rest) = (.bool true, some rest) := by
  rw [scanScalar]
  dsimp only
  rw [if_neg (by decide), if_pos rfl, scanWord_append]

theorem scanScalar_false :
    scanScalar fuel 'f' ("alse".toList ++ rest) = (.bool false, some rest) := by
  rw [scanScalar]
  dsimp only
  rw [if_neg (by decide), if_neg (by decide), if_pos rfl, scanWord_append]

theorem scanScalar_quote {s : String} (h : s.length < fuel) :
    scanScalar fuel '"' (s.toList.flatMap escape ++ '"' :: rest) = (.str s, some rest) := by
  rw [scanScalar]
  dsimp only
  rw [if_neg (by decide), if_neg (by decide), if_neg (by decide), if_pos rfl, scanString_quote h]

theorem ScansAs.scalar {j : Json} {c : Char} (chars : j.chars = c :: cs)
    (blank : isSpace c = false) (apart : c ≠ '[' ∧ c ≠ ']' ∧ c ≠ '{')
    (h : ∀ fuel rest, 2 * (c :: cs).length ≤ fuel + 1 →
      scanScalar fuel c (cs ++ rest) = (Doc.ofJson j, some rest)) : ScansAs n j j := by
  refine ⟨⟨c, cs, chars, blank, apart.2.1⟩, fun fuel rest enough _ => ?_⟩
  rw [chars] at enough ⊢
  obtain _ | fuel := fuel
  · rw [List.length_cons] at enough
    omega
  · rw [List.cons_append, scanValue_scalar blank apart.1 apart.2.2]
    exact h fuel rest enough

theorem scansAs_num {x y : Number} (h : Spells x.text.toList y) :
    ScansAs n (.num x) (.num y) := by
  obtain ⟨c, cs, chars, start⟩ := h.start
  refine ⟨⟨c, cs, chars, start.not_space, start.ne (by decide)⟩, fun fuel rest enough ends => ?_⟩
  obtain _ | fuel := fuel
  · rw [Json.chars, chars, List.length_cons] at enough
    omega
  · exact h.scanValue ends

theorem scanValue_list {ds : List Doc} {cut : Option Break} {after : Option (List Char)}
    (start : Starts cs) (h : scanItems fuel n cs = (ds, cut, after)) :
    scanValue (fuel + 1) (n + 1) ('[' :: cs) = (.arr ds cut, after) := by
  obtain ⟨c, cs, rfl, blank, going⟩ := start
  rw [scanValue, skipSpace_of_not_space (by decide)]
  dsimp only
  rw [if_pos rfl, skipSpace_of_not_space blank, if_neg (Nat.succ_ne_zero n)]
  split
  · next nil => cases nil
  · next last => exact absurd (List.cons.inj last).1 going
  · rw [Nat.add_sub_cancel, h]

theorem scanValue_map {fs : List (Key × Doc)} {cut : Option Break} {after : Option (List Char)}
    (h : scanFields fuel n ('"' :: cs) = (fs, cut, after)) :
    scanValue (fuel + 1) (n + 1) ('{' :: '"' :: cs) = (.obj fs cut, after) := by
  rw [scanValue, skipSpace_of_not_space (by decide)]
  dsimp only
  rw [if_neg (by decide), if_pos rfl, skipSpace_of_not_space (by decide),
    if_neg (Nat.succ_ne_zero n)]
  split
  · next nil => cases nil
  · next last => exact absurd (List.cons.inj last).1 (by decide)
  · rw [Nat.add_sub_cancel, h]

theorem scansAs_arr {xs ys : List Json} (h : List.Forall₂ (ScansAs n) xs ys) :
    ScansAs (n + 1) (.arr xs) (.arr ys) := by
  refine ⟨⟨'[', _, rfl, by decide, by decide⟩, fun fuel rest enough _ => ?_⟩
  rw [chars, List.length_append, List.length_cons] at enough
  obtain _ | fuel := fuel
  · omega
  cases h with
  | nil => rfl
  | @cons x y xs ys first others =>
    have start : Starts (charsOfItems (x :: xs) ++ ']' :: rest) :=
      (starts_charsOfItems first.start).append
    rw [chars, List.append_assoc, List.cons_append, List.singleton_append, scanValue_list start
      (scanItems_chars (.cons first others) (List.cons_ne_nil _ _) (by omega))]
    rfl

theorem scansAs_obj {fs gs : List (String × Json)} (h : List.Forall₂ (FieldScansAs n) fs gs) :
    ScansAs (n + 1) (.obj fs) (.obj gs) := by
  refine ⟨⟨'{', _, rfl, by decide, by decide⟩, fun fuel rest enough _ => ?_⟩
  rw [chars, List.length_append, List.length_cons] at enough
  obtain _ | fuel := fuel
  · omega
  cases h with
  | nil => rfl
  | @cons f g fs gs first others =>
    obtain ⟨more, start⟩ := starts_charsOfFields f fs
    have scanned : scanFields fuel n (charsOfFields (f :: fs) ++ '}' :: rest) =
        (Doc.ofFields (g :: gs), none, some rest) :=
      scanFields_chars (.cons first others) (List.cons_ne_nil _ _) (by omega)
    rw [start, List.cons_append] at scanned
    rw [chars, start, List.append_assoc, List.cons_append, List.cons_append, List.singleton_append,
      scanValue_map scanned]
    rfl

theorem scansAs_str (s : String) : ScansAs n (.str s) (.str s) := by
  have chars : (Json.str s).chars = '"' :: (s.toList.flatMap escape ++ ['"']) := rfl
  refine .scalar chars (by decide) (by decide) fun fuel rest enough => ?_
  have short := length_le_flatMap s.toList
  rw [String.length_toList] at short
  rw [List.length_cons, List.length_append] at enough
  rw [List.append_assoc]
  exact scanScalar_quote (by omega)

theorem spells_num {x : Number} (spelled : x.Spelled) (legible : (Json.num x).Legible) :
    Spells x.text.toList x := by
  cases x with
  | int i => exact spells_int spelled
  | real x => exact spells_real (legible x (List.mem_singleton_self x))
  | single x => exact spelled.elim

/-- A value that fits is scanned from its text, if its fractions are read back from theirs. -/
theorem scansAs_of_fits {j : Json} (fits : j.Fits n) (legible : j.Legible) : ScansAs n j j := by
  induction fits with
  | null => exact .scalar rfl (by decide) (by decide) fun _ _ _ => scanScalar_null
  | bool b =>
    cases b
    · exact .scalar rfl (by decide) (by decide) fun _ _ _ => scanScalar_false
    · exact .scalar rfl (by decide) (by decide) fun _ _ _ => scanScalar_true
  | num spelled => exact scansAs_num (spells_num spelled legible)
  | str s => exact scansAs_str s
  | arr _ ih =>
    exact scansAs_arr (List.forall₂_same.mpr fun x hx => ih x hx (legible_arr.mp legible x hx))
  | obj _ ih =>
    exact scansAs_obj (List.forall₂_same.mpr fun f hf =>
      ⟨rfl, ih f hf (legible_obj.mp legible f hf)⟩)

theorem ScansAs.scan_text {j k : Json} (h : ScansAs maxDepth j k) (ends : Ends rest) :
    Json.scan (j.text.toList ++ rest) = (Doc.ofJson k, some rest) := by
  rw [text, String.toList_ofList, Json.scan]
  refine h.scan _ rest ?_ ends
  rw [scanFuel, List.length_append]
  omega

theorem scan_text {j : Json} (fits : j.Fits maxDepth) (legible : j.Legible) (ends : Ends rest) :
    scan (j.text.toList ++ rest) = (Doc.ofJson j, some rest) :=
  (scansAs_of_fits fits legible).scan_text ends

end TaskFlow.Json
