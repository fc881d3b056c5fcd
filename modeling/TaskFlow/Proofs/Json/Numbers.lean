import Mathlib.Data.List.TakeWhile
import TaskFlow.Json.Printer
import TaskFlow.Proofs.Json.Fits

namespace TaskFlow

def Number.ReadsBack (x : Number) : Prop := Json.parse x.text = .ok (.num x)

instance (x : Number) : Decidable x.ReadsBack :=
  match h : Json.parse x.text with
  | .ok (.num y) => decidable_of_iff (y = x) (by simp [Number.ReadsBack, h])
  | .ok .null | .ok (.bool _) | .ok (.str _) | .ok (.arr _) | .ok (.obj _) | .error _ =>
    .isFalse (by simp [Number.ReadsBack, h])

namespace Json

/-- Whether a number may end here: either the text does, or what follows belongs to a container or
ends a line. -/
def Ends (rest : List Char) : Prop :=
  ∀ c ∈ rest.head?, c = ',' ∨ c = ']' ∨ c = '}' ∨ c = '\n'

namespace Ends

variable {rest : List Char}

theorem nil : Ends [] := by simp [Ends]

theorem comma : Ends (',' :: rest) := by simp [Ends]

theorem bracket : Ends (']' :: rest) := by simp [Ends]

theorem brace : Ends ('}' :: rest) := by simp [Ends]

theorem newline : Ends ('\n' :: rest) := by simp [Ends]

theorem not_digit (h : Ends rest) : ∀ c ∈ rest.head?, c.isDigit = false := by
  intro c hc
  rcases h c hc with rfl | rfl | rfl | rfl <;> decide

end Ends

variable {cs ds rest tail : List Char}

theorem takeWhile_append_of_head {p : Char → Bool} (cs : List Char)
    (h : ∀ c ∈ rest.head?, p c = false) :
    (cs ++ rest).takeWhile p = cs.takeWhile p ∧
      (cs ++ rest).dropWhile p = cs.dropWhile p ++ rest := by
  induction cs with
  | nil =>
    cases rest with
    | nil => exact ⟨rfl, rfl⟩
    | cons c rest =>
      have : ¬p c = true := by simpa using h c rfl
      exact ⟨List.takeWhile_cons_of_neg this, List.dropWhile_cons_of_neg this⟩
  | cons c cs ih =>
    by_cases hc : p c = true
    · simpa [hc] using ih
    · simp [hc]

namespace Numeral

theorem scanWhole_of_ne {c : Char} (h : c ≠ '0') : scanWhole (c :: cs) =
    if ((c :: cs).takeWhile Char.isDigit).isEmpty then .error (malformed (c :: cs))
    else .ok ((c :: cs).takeWhile Char.isDigit, (c :: cs).dropWhile Char.isDigit) := by
  unfold scanWhole
  split
  · next same =>
    cases same
    exact absurd rfl h
  · rfl

theorem scanWhole_append (h : scanWhole cs = .ok (ds, tail)) (ends : Ends rest) :
    scanWhole (cs ++ rest) = .ok (ds, tail ++ rest) := by
  obtain _ | ⟨c, cs⟩ := cs
  · cases h
  by_cases zero : c = '0'
  · subst zero
    -- A digit after a leading zero is an error, so what follows must not start with one.
    obtain _ | ⟨d, cs⟩ := cs
    · cases h
      obtain _ | ⟨d, rest⟩ := rest
      · rfl
      · change (if d.isDigit = true then _ else _) = _
        rw [ends.not_digit d rfl]
        rfl
    · change (if d.isDigit = true then _ else _) = _ at h
      change (if d.isDigit = true then _ else _) = _
      split at h
      · cases h
      · next other =>
        cases h
        rw [if_neg other]
        rfl
  · obtain ⟨digits, others⟩ := takeWhile_append_of_head (c :: cs) ends.not_digit
    rw [scanWhole_of_ne zero] at h
    rw [List.cons_append, scanWhole_of_ne zero, ← List.cons_append, digits, others]
    split at h
    · cases h
    · next full =>
      cases h
      rw [if_neg full]

theorem scanFraction_of_ne (h : cs.head? ≠ some '.') : scanFraction cs = .ok (none, cs) := by
  unfold scanFraction
  split
  · exact absurd rfl h
  · rfl

theorem scanFraction_append {digits : Option (List Char)}
    (h : scanFraction cs = .ok (digits, tail)) (ends : Ends rest) :
    scanFraction (cs ++ rest) = .ok (digits, tail ++ rest) := by
  by_cases point : cs.head? = some '.'
  · obtain ⟨cs, rfl⟩ : ∃ ds, cs = '.' :: ds := ⟨_, List.eq_cons_of_mem_head? point⟩
    obtain ⟨digits, others⟩ := takeWhile_append_of_head cs ends.not_digit
    rw [List.cons_append, scanFraction, digits, others]
    rw [scanFraction] at h
    split at h
    · cases h
    · next full =>
      cases h
      rw [if_neg full]
  · rw [scanFraction_of_ne point] at h
    cases h
    refine scanFraction_of_ne ?_
    obtain _ | ⟨c, cs⟩ := cs
    · intro hc
      rcases ends _ hc with h | h | h | h <;> exact absurd h (by decide)
    · exact point

theorem exponentSign_append (h : (exponentSign cs).2 ≠ []) :
    exponentSign (cs ++ rest) = ((exponentSign cs).1, (exponentSign cs).2 ++ rest) := by
  obtain _ | ⟨c, cs⟩ := cs
  · exact absurd rfl h
  · rw [List.cons_append]
    unfold exponentSign
    split
    · next minus =>
      cases minus
      rfl
    · next plus =>
      cases plus
      rfl
    · next noMinus noPlus =>
      split
      · next minus =>
        cases minus
        exact absurd rfl (noMinus _)
      · next plus =>
        cases plus
        exact absurd rfl (noPlus _)
      · rfl

theorem scanExponent_append {exponent : Option (Bool × List Char)}
    (h : scanExponent cs = .ok (exponent, tail)) (ends : Ends rest) :
    scanExponent (cs ++ rest) = .ok (exponent, tail ++ rest) := by
  obtain _ | ⟨c, cs⟩ := cs
  · cases h
    obtain _ | ⟨c, rest⟩ := rest
    · rfl
    · have : ¬(c = 'e' ∨ c = 'E') := by
        rcases ends c rfl with rfl | rfl | rfl | rfl <;> decide
      exact if_neg this
  · rw [scanExponent] at h
    rw [List.cons_append, scanExponent]
    split at h
    · next letter =>
      rw [if_pos letter]
      obtain ⟨sign, after, hs⟩ : ∃ s ds, exponentSign cs = (s, ds) := ⟨_, _, rfl⟩
      obtain ⟨digits, others⟩ := takeWhile_append_of_head after ends.not_digit
      rw [hs] at h
      dsimp only at h
      split at h
      · cases h
      · next full =>
        cases h
        have more : (exponentSign cs).2 ≠ [] := by
          rw [hs]
          rintro rfl
          exact full rfl
        rw [exponentSign_append more, hs]
        dsimp only
        rw [digits, others, if_neg full]
    · next other =>
      cases h
      rw [if_neg other]
      rfl

def scanUnsigned (negative : Bool) (cs : List Char) : Except Break (Numeral × List Char) := do
  let (whole, cs) ← scanWhole cs
  let (fraction, cs) ← scanFraction cs
  let (exponent, cs) ← scanExponent cs
  return (⟨negative, whole, fraction, exponent⟩, cs)

theorem scan_minus (cs : List Char) : scan ('-' :: cs) = scanUnsigned true cs := rfl

theorem scan_of_ne (h : cs.head? ≠ some '-') : scan cs = scanUnsigned false cs := by
  unfold scan
  split
  · next minus =>
    split at minus
    · exact absurd rfl h
    · cases minus
      rfl

theorem scanUnsigned_append {negative : Bool} {n : Numeral}
    (h : scanUnsigned negative cs = .ok (n, tail)) (ends : Ends rest) :
    scanUnsigned negative (cs ++ rest) = .ok (n, tail ++ rest) := by
  obtain ⟨⟨whole, cs₁⟩, hw, h⟩ := bind_eq_ok.mp h
  obtain ⟨⟨fraction, cs₂⟩, hf, h⟩ := bind_eq_ok.mp h
  obtain ⟨⟨exponent, cs₃⟩, he, h⟩ := bind_eq_ok.mp h
  cases h
  exact bind_eq_ok.mpr ⟨_, scanWhole_append hw ends, bind_eq_ok.mpr
    ⟨_, scanFraction_append hf ends, bind_eq_ok.mpr ⟨_, scanExponent_append he ends, rfl⟩⟩⟩

theorem scan_append {n : Numeral} (h : scan cs = .ok (n, [])) (ends : Ends rest) :
    scan (cs ++ rest) = .ok (n, rest) := by
  obtain _ | ⟨c, cs⟩ := cs
  · cases h
  by_cases minus : c = '-'
  · subst minus
    have unsigned : scanUnsigned true cs = .ok (n, []) := h
    exact scanUnsigned_append unsigned ends
  · have head : (c :: cs).head? ≠ some '-' := fun same => minus (Option.some.inj same)
    rw [scan_of_ne head] at h
    rw [scan_of_ne (by exact head)]
    exact scanUnsigned_append h ends

theorem scanWhole_suffix (h : scanWhole cs = .ok (ds, tail)) : tail <:+ cs := by
  obtain _ | ⟨c, cs⟩ := cs
  · cases h
  by_cases zero : c = '0'
  · subst zero
    obtain _ | ⟨d, cs⟩ := cs
    · cases h
      exact List.suffix_cons ..
    · change (if d.isDigit = true then _ else _) = _ at h
      split at h <;> cases h
      exact List.suffix_cons ..
  · rw [scanWhole_of_ne zero] at h
    split at h <;> cases h
    exact List.dropWhile_suffix _

theorem scanFraction_suffix {digits : Option (List Char)}
    (h : scanFraction cs = .ok (digits, tail)) : tail <:+ cs := by
  unfold scanFraction at h
  split at h
  · dsimp only at h
    split at h <;> cases h
    exact (List.dropWhile_suffix _).trans (List.suffix_cons ..)
  · cases h
    exact List.suffix_rfl

theorem exponentSign_suffix (cs : List Char) : (exponentSign cs).2 <:+ cs := by
  unfold exponentSign
  split
  · exact List.suffix_cons ..
  · exact List.suffix_cons ..
  · exact List.suffix_rfl

theorem scanExponent_suffix {exponent : Option (Bool × List Char)}
    (h : scanExponent cs = .ok (exponent, tail)) : tail <:+ cs := by
  obtain _ | ⟨c, cs⟩ := cs
  · cases h
    exact List.suffix_rfl
  · rw [scanExponent] at h
    split at h
    · obtain ⟨sign, after, hs⟩ : ∃ s ds, exponentSign cs = (s, ds) := ⟨_, _, rfl⟩
      have signed : after <:+ cs := by
        have := exponentSign_suffix cs
        rwa [hs] at this
      rw [hs] at h
      dsimp only at h
      split at h <;> cases h
      exact ((List.dropWhile_suffix _).trans signed).trans (List.suffix_cons ..)
    · cases h
      exact List.suffix_rfl

theorem scan_suffix {n : Numeral} (h : scan cs = .ok (n, tail)) : tail <:+ cs := by
  have unsigned {negative : Bool} {cs : List Char}
      (h : scanUnsigned negative cs = .ok (n, tail)) : tail <:+ cs := by
    obtain ⟨⟨whole, cs₁⟩, hw, h⟩ := bind_eq_ok.mp h
    obtain ⟨⟨fraction, cs₂⟩, hf, h⟩ := bind_eq_ok.mp h
    obtain ⟨⟨exponent, cs₃⟩, he, h⟩ := bind_eq_ok.mp h
    cases h
    exact ((scanExponent_suffix he).trans (scanFraction_suffix hf)).trans (scanWhole_suffix hw)
  by_cases minus : cs.head? = some '-'
  · obtain ⟨ds, rfl⟩ : ∃ ds, cs = '-' :: ds := ⟨_, List.eq_cons_of_mem_head? minus⟩
    exact (unsigned h).trans (List.suffix_cons ..)
  · rw [scan_of_ne minus] at h
    exact unsigned h

end Numeral

def StartsNumber (c : Char) : Prop := c = '-' ∨ c.isDigit = true

theorem StartsNumber.ne {c d : Char} (h : StartsNumber c) (hd : ¬(d = '-' ∨ d.isDigit = true)) :
    c ≠ d := by
  rintro rfl
  exact hd h

theorem StartsNumber.not_space {c : Char} (h : StartsNumber c) : isSpace c = false := by
  have blank := h.ne (d := ' ') (by decide)
  have feed := h.ne (d := '\n') (by decide)
  have tab := h.ne (d := '\t') (by decide)
  have back := h.ne (d := '\r') (by decide)
  simp [isSpace, blank, feed, tab, back]

structure Spells (cs : List Char) (x : Number) : Prop where
  start : ∃ c rest, cs = c :: rest ∧ StartsNumber c
  numeral : ∃ n, Numeral.scan cs = .ok (n, []) ∧ n.value? = some x

theorem skipSpace_of_not_space {c : Char} (h : isSpace c = false) :
    skipSpace (c :: cs) = c :: cs :=
  List.dropWhile_cons_of_neg (by rw [h]; decide)

theorem scanValue_scalar {c : Char} {fuel depth : Nat} (h : isSpace c = false) (list : c ≠ '[')
    (map : c ≠ '{') : scanValue (fuel + 1) depth (c :: cs) = scanScalar fuel c cs := by
  rw [scanValue, skipSpace_of_not_space h]
  dsimp only
  rw [if_neg list, if_neg map]

theorem scanScalar_number {c : Char} {fuel : Nat} (h : StartsNumber c) : scanScalar fuel c cs =
    match Numeral.scan (c :: cs) with
    | .ok (n, rest) => match n.value? with
      | some x => (.num x, some rest)
      | none => (.unreadable (n.outOfRange rest), some rest)
    | .error b => (.broken b, none) := by
  rw [scanScalar]
  dsimp only
  rw [if_neg (h.ne (by decide)), if_neg (h.ne (by decide)), if_neg (h.ne (by decide)),
    if_neg (h.ne (by decide))]
  exact if_pos h

theorem Spells.scanValue {x : Number} {fuel depth : Nat} (h : Spells cs x) (ends : Ends rest) :
    scanValue (fuel + 1) depth (cs ++ rest) = (.num x, some rest) := by
  obtain ⟨⟨c, cs, rfl, start⟩, n, numeral, value⟩ := h
  have scanned := Numeral.scan_append numeral ends
  rw [List.cons_append] at scanned ⊢
  rw [scanValue_scalar start.not_space (start.ne (by decide)) (start.ne (by decide)),
    scanScalar_number start, scanned]
  dsimp only
  rw [value]

theorem digitsValue_toDigits (n : Nat) : digitsValue (Nat.toDigits 10 n) = n := by
  have swap : (fun n (c : Char) => n * 10 + (c.toNat - '0'.toNat)) =
      fun n c => 10 * n + (c.toNat - '0'.toNat) := by
    funext n c
    rw [Nat.mul_comm]
  rw [digitsValue, swap]
  exact Nat.ofDigitChars_ten_toDigits

theorem toDigits_head {n : Nat} (h : n ≠ 0) : (Nat.toDigits 10 n).head? ≠ some '0' := by
  induction n using Nat.strong_induction_on with
  | h n ih =>
    rw [Nat.toDigits_eq_if (by decide)]
    split
    · next small =>
      have : ∀ m < 10, m ≠ 0 → [Nat.digitChar m].head? ≠ some '0' := by decide
      exact this n small h
    · next large =>
      have : n / 10 ≠ 0 := by omega
      rw [List.head?_append_of_ne_nil _ Nat.toDigits_ne_nil]
      exact ih _ (by omega) this

theorem scanUnsigned_toDigits (negative : Bool) (n : Nat) :
    Numeral.scanUnsigned negative (Nat.toDigits 10 n) =
      .ok (⟨negative, Nat.toDigits 10 n, none, none⟩, []) := by
  by_cases zero : n = 0
  · subst zero
    rfl
  · have head := toDigits_head zero
    have digits : ∀ c ∈ Nat.toDigits 10 n, c.isDigit = true := fun c =>
      Nat.isDigit_of_mem_toDigits (by decide) (by decide)
    obtain ⟨c, cs, hc⟩ := List.exists_cons_of_ne_nil (Nat.toDigits_ne_nil (n := n) (b := 10))
    rw [hc] at head digits ⊢
    have whole : Numeral.scanWhole (c :: cs) = .ok (c :: cs, []) := by
      rw [Numeral.scanWhole_of_ne fun same => head (congrArg some same),
        List.takeWhile_eq_self_iff.mpr digits, List.dropWhile_eq_nil_iff.mpr digits]
      rfl
    exact bind_eq_ok.mpr ⟨_, whole, rfl⟩

theorem startsNumber_toDigits (n : Nat) :
    ∃ c cs, Nat.toDigits 10 n = c :: cs ∧ StartsNumber c ∧ c ≠ '-' := by
  obtain ⟨c, cs, hc⟩ := List.exists_cons_of_ne_nil (Nat.toDigits_ne_nil (n := n) (b := 10))
  have digit : c.isDigit = true :=
    Nat.isDigit_of_mem_toDigits (b := 10) (n := n) (by decide) (by decide) (by simp [hc])
  refine ⟨c, cs, hc, .inr digit, ?_⟩
  rintro rfl
  exact absurd digit (by decide)

theorem natText_eq (n : Nat) : (Number.int (.ofNat n)).text.toList = Nat.toDigits 10 n :=
  String.toList_ofList

theorem negSuccText_eq (n : Nat) :
    (Number.int (.negSucc n)).text.toList = '-' :: Nat.toDigits 10 (n + 1) := by
  change ("-" ++ (n + 1).repr).toList = _
  rw [String.toList_append]
  exact congrArg _ String.toList_ofList

theorem spells_int {n : Int} (h : (Number.int n).Spelled) :
    Spells (Number.int n).text.toList (.int n) := by
  obtain ⟨low, high⟩ := h
  cases n with
  | ofNat n =>
    have text := natText_eq n
    obtain ⟨c, cs, hc, start, unsigned⟩ := startsNumber_toDigits n
    refine ⟨⟨c, cs, text.trans hc, start⟩, ⟨false, Nat.toDigits 10 n, none, none⟩, ?_, ?_⟩
    · rw [text, Numeral.scan_of_ne, scanUnsigned_toDigits]
      rw [hc]
      exact fun same => unsigned (Option.some.inj same)
    · have fits : n ≤ Numeral.greatest := by
        have high : (n : Int) < UInt64.size := high
        simp only [Numeral.greatest, UInt64.size] at high ⊢
        omega
      rw [Numeral.value?]
      dsimp only
      rw [digitsValue_toDigits, if_neg (by decide), if_pos fits]
      rfl
  | negSucc n =>
    have text := negSuccText_eq n
    refine ⟨⟨_, _, text, .inl rfl⟩, ⟨true, Nat.toDigits 10 (n + 1), none, none⟩, ?_, ?_⟩
    · rw [text, Numeral.scan_minus, scanUnsigned_toDigits]
    · have fits : n + 1 ≠ 0 ∧ n + 1 ≤ UInt64.size / 2 := by
        simp only [UInt64.size] at low ⊢
        omega
      rw [Numeral.value?]
      dsimp only
      rw [digitsValue_toDigits, if_pos rfl, if_pos fits]
      rfl

def Plain (cs : List Char) : Prop := ∀ c ∈ cs, isSpace c = false

instance (cs : List Char) : Decidable (Plain cs) :=
  List.decidableBAll (fun c => isSpace c = false) cs

theorem plain_append : Plain (cs ++ ds) ↔ Plain cs ∧ Plain ds := List.forall_mem_append

theorem plain_cons {c : Char} : Plain (c :: cs) ↔ isSpace c = false ∧ Plain cs :=
  List.forall_mem_cons

theorem plain_toDigits (n : Nat) : Plain (Nat.toDigits 10 n) := fun _ hc =>
  StartsNumber.not_space (.inr (Nat.isDigit_of_mem_toDigits (by decide) (by decide) hc))

theorem plain_replicate (n : Nat) : Plain (List.replicate n '0') := by
  intro c hc
  rw [List.eq_of_mem_replicate hc]
  decide

theorem plain_exponentText (e : Int) : Plain (exponentText e).toList := by
  rw [exponentText, String.toList_append, plain_append, Nat.toString_eq_ofList_toDigits,
    String.toList_ofList]
  refine ⟨?_, plain_toDigits _⟩
  split <;> decide

theorem plain_text (l : NumberLayout) (d : Decimal) : Plain (l.text d).toList := by
  have digits := plain_toDigits d.digits
  have first (k : Nat) : Plain ((Nat.toDigits 10 d.digits).take k) :=
    fun c hc => digits c (List.mem_of_mem_take hc)
  have others (k : Nat) : Plain ((Nat.toDigits 10 d.digits).drop k) :=
    fun c hc => digits c (List.mem_of_mem_drop hc)
  have pointed (k : Nat) : Plain ((Nat.toDigits 10 d.digits).take k ++
      '.' :: (Nat.toDigits 10 d.digits).drop k) :=
    plain_append.mpr ⟨first k, plain_cons.mpr ⟨by decide, others k⟩⟩
  unfold NumberLayout.text
  refine iteInduction (motive := fun s : String => Plain s.toList) (fun _ => ?_) fun _ => ?_
  · split
    · rw [String.toList_append, String.toList_ofList, plain_append, plain_append]
      refine ⟨⟨digits, plain_replicate _⟩, ?_⟩
      split <;> decide
    split
    · rw [String.toList_ofList]
      exact pointed _
    · rw [String.toList_ofList, plain_cons, plain_cons, plain_append]
      exact ⟨by decide, by decide, plain_replicate _, digits⟩
  · split
    · next c single =>
      rw [String.toList_append, plain_append]
      refine ⟨?_, plain_exponentText _⟩
      rw [single] at digits
      rwa [Char.toString_eq_singleton, String.toList_singleton]
    · rw [String.toList_append, plain_append, String.toList_ofList]
      exact ⟨pointed 1, plain_exponentText _⟩

theorem plain_realText {f : BinaryFormat} (l : NumberLayout) (x : Binary f) :
    Plain (Number.realText l x).toList := by
  unfold Number.realText
  split
  · next finite =>
    cases x with
    | nan | infinite => cases finite
    | finite s m e =>
      rw [Binary.text, String.toList_append, plain_append]
      refine ⟨?_, ?_⟩
      · split <;> decide
      · split
        · split <;> decide
        · exact plain_text l _
  · decide

theorem plain_intText (n : Int) : Plain (Number.int n).text.toList := by
  cases n with
  | ofNat n =>
    rw [natText_eq]
    exact plain_toDigits n
  | negSucc n =>
    rw [negSuccText_eq, plain_cons]
    exact ⟨by decide, plain_toDigits _⟩

theorem plain_numberText (x : Number) : Plain x.text.toList := by
  cases x with
  | int n => exact plain_intText n
  | real x => exact plain_realText _ x
  | single x => exact plain_realText _ x

theorem read_eq_num {d : Doc} {x : Number} (h : d.read = .ok (.num x)) : d = .num x := by
  cases d with
  | arr =>
    obtain ⟨_, -, h⟩ := bind_eq_ok.mp h
    obtain ⟨_, -, h⟩ := bind_eq_ok.mp h
    cases h
  | obj =>
    obtain ⟨_, -, h⟩ := bind_eq_ok.mp h
    obtain ⟨_, -, h⟩ := bind_eq_ok.mp h
    cases h
  | _ => cases h <;> rfl

theorem scanScalar_eq_num {c : Char} {fuel : Nat} {x : Number} {after : Option (List Char)}
    (h : scanScalar fuel c cs = (.num x, after)) :
    StartsNumber c ∧ ∃ n rest, Numeral.scan (c :: cs) = .ok (n, rest) ∧ n.value? = some x ∧
      after = some rest := by
  by_cases start : StartsNumber c
  · rw [scanScalar_number start] at h
    split at h
    · next n rest scanned =>
      split at h
      · next y value =>
        cases h
        exact ⟨start, n, rest, scanned, value, rfl⟩
      · cases h
    · cases h
  · rw [scanScalar] at h
    dsimp only at h
    split at h
    · split at h <;> cases h
    split at h
    · split at h <;> cases h
    split at h
    · split at h <;> cases h
    split at h
    · split at h <;> cases h
    split at h
    · next here => exact absurd here start
    · cases h

theorem scanValue_ne_num {c : Char} {fuel depth : Nat} {x : Number}
    {after : Option (List Char)} (h : c = '[' ∨ c = '{') :
    scanValue (fuel + 1) (depth + 1) (c :: cs) ≠ (.num x, after) := by
  have blank : isSpace c = false := by
    rcases h with rfl | rfl <;> decide
  intro scanned
  rw [scanValue, skipSpace_of_not_space blank] at scanned
  dsimp only at scanned
  have parsed := congrArg Prod.fst scanned
  rcases h with rfl | rfl
  · rw [if_pos rfl] at parsed
    cases parsed
  · rw [if_neg (by decide), if_pos rfl] at parsed
    cases parsed

theorem nil_of_checkRest (plain : Plain cs) (h : checkRest (some cs) = .ok ()) : cs = [] := by
  obtain _ | ⟨c, cs⟩ := cs
  · rfl
  · unfold checkRest at h
    rw [Option.map_some, skipSpace_of_not_space (plain_cons.mp plain).1] at h
    cases h

theorem spells_of_parse {x y : Number} (h : parse x.text = .ok (.num y)) :
    Spells x.text.toList y := by
  have plain : Plain x.text.toList := plain_numberText x
  obtain ⟨d, after, scanned, read, whole⟩ := parse_eq_ok.mp h
  obtain rfl := read_eq_num read
  rcases hc : x.text.toList with _ | ⟨c, cs⟩
  · rw [hc] at scanned
    cases scanned
  · rw [hc] at plain scanned
    obtain ⟨blank, plain⟩ := plain_cons.mp plain
    have list : c ≠ '[' := fun same => scanValue_ne_num (.inl same) scanned
    have map : c ≠ '{' := fun same => scanValue_ne_num (.inr same) scanned
    have scalar := (scanValue_scalar blank list map).symm.trans scanned
    obtain ⟨start, n, rest, numeral, value, rfl⟩ := scanScalar_eq_num scalar
    -- After the number only white space may be left, and the text of a number has none.
    have left : Plain rest := fun d hd =>
      (plain_cons.mpr ⟨blank, plain⟩) d ((Numeral.scan_suffix numeral).subset hd)
    obtain rfl : rest = [] := nil_of_checkRest left whole
    exact ⟨⟨c, cs, rfl, start⟩, n, numeral, value⟩

theorem spells_real {x : Double} (h : (Number.real x).ReadsBack) :
    Spells (Number.real x).text.toList (.real x) := spells_of_parse h

end Json

end TaskFlow
