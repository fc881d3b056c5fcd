import Mathlib.Data.Rat.Floor
import Mathlib.Tactic.FieldSimp
import Mathlib.Tactic.Linarith
import TaskFlow.Proofs.Binary.Order

namespace TaskFlow.Binary

variable {f : BinaryFormat} {s : Bool} {m num den : Nat} {e : Int} {q : ℚ}

theorem powPos_pos (e : Int) : 0 < powPos e := Nat.pow_pos two_pos

theorem powPos_div_powPos_neg (e : Int) : (powPos e : ℚ) / powPos (-e) = 2 ^ e := by
  rcases le_total 0 e with h | h
  · have one : powPos (-e) = 1 := by rw [powPos, Int.toNat_of_nonpos (by omega)]
    rw [one, Nat.cast_one, div_one, cast_powPos h]
  · have one : powPos e = 1 := by rw [powPos, Int.toNat_of_nonpos h]
    rw [one, Nat.cast_one, cast_powPos (by omega), zpow_neg, one_div, inv_inv]

theorem div_eq_mul_zpow (num den : Nat) (e : Int) :
    (num : ℚ) / den = ((num * powPos (-e) : Nat) : ℚ) / (den * powPos e : Nat) * 2 ^ e := by
  have up : (powPos e : ℚ) ≠ 0 := Nat.cast_ne_zero.mpr (powPos_pos _).ne'
  have down : (powPos (-e) : ℚ) ≠ 0 := Nat.cast_ne_zero.mpr (powPos_pos _).ne'
  rw [← powPos_div_powPos_neg, Nat.cast_mul, Nat.cast_mul, mul_div_mul_comm, mul_assoc,
    div_mul_div_cancel₀ up, div_self down, mul_one]

section Ratio

variable (pos : 0 < den)

include pos

theorem div_le_zpow_iff (k : Nat) (e : Int) :
    (num : ℚ) / den ≤ k * 2 ^ e ↔ num * powPos (-e) ≤ k * (den * powPos e) := by
  have unit : (0 : ℚ) < 2 ^ e := zpow_pos two_pos _
  have scaled : (0 : ℚ) < (den * powPos e : Nat) :=
    Nat.cast_pos.mpr (Nat.mul_pos pos (powPos_pos e))
  rw [div_eq_mul_zpow num den e, mul_le_mul_iff_left₀ unit, div_le_iff₀ scaled]
  exact_mod_cast Iff.rfl

theorem zpow_le_div_iff (k : Nat) (e : Int) :
    (k * 2 ^ e : ℚ) ≤ num / den ↔ k * (den * powPos e) ≤ num * powPos (-e) := by
  have unit : (0 : ℚ) < 2 ^ e := zpow_pos two_pos _
  have scaled : (0 : ℚ) < (den * powPos e : Nat) :=
    Nat.cast_pos.mpr (Nat.mul_pos pos (powPos_pos e))
  rw [div_eq_mul_zpow num den e, mul_le_mul_iff_left₀ unit, le_div_iff₀ scaled]
  exact_mod_cast Iff.rfl

end Ratio

theorem natAbs_signed (s : Bool) (n : Nat) : (signed s n).natAbs = n := by
  cases s <;> simp [signed]

theorem value_eq_div (s : Bool) (m : Nat) (e : Int) :
    value (.finite s m e : Binary f) = signed s (m * powPos e) / powPos (-e) := by
  rw [value, ← powPos_div_powPos_neg, ← mul_div_assoc]
  cases s <;> simp [signed]

theorem value_of_isInteger {x : Binary f} (h : x.isInteger = true) :
    ∃ n, x.truncate? = some n ∧ x.value = n := by
  cases x with
  | nan => cases h
  | infinite => cases h
  | finite s m e =>
    have pos : (powPos (-e) : ℚ) ≠ 0 := Nat.cast_ne_zero.mpr (powPos_pos _).ne'
    obtain ⟨k, exact_⟩ : powPos (-e) ∣ m * powPos e := Nat.dvd_of_mod_eq_zero (beq_iff_eq.mp h)
    refine ⟨_, rfl, ?_⟩
    rw [value_eq_div, div_eq_iff pos, exact_, Nat.mul_div_cancel_left _ (powPos_pos _)]
    cases s <;> simp [signed, mul_comm]

theorem isInteger_of_value {x : Binary f} (finite : x.isFinite = true) {n : Int}
    (h : x.value = n) : x.isInteger = true := by
  cases x with
  | nan => cases finite
  | infinite => cases finite
  | finite s m e =>
    have pos : (powPos (-e) : ℚ) ≠ 0 := Nat.cast_ne_zero.mpr (powPos_pos _).ne'
    rw [value_eq_div, div_eq_iff pos] at h
    have whole : signed s (m * powPos e) = n * (powPos (-e) : Int) := by exact_mod_cast h
    have divides : powPos (-e) ∣ m * powPos e := by
      rw [← natAbs_signed s (m * powPos e), whole, Int.natAbs_mul, Int.natAbs_natCast]
      exact Nat.dvd_mul_left ..
    exact beq_iff_eq.mpr (Nat.mod_eq_zero_of_dvd divides)

theorem roundDiv_le {a b k : Nat} (pos : 0 < b) (h : a ≤ k * b) : roundDiv a b ≤ k := by
  have split := Nat.div_add_mod a b
  have small := Nat.mod_lt a pos
  have quotient : a / b ≤ k := Nat.div_le_of_le_mul (by rwa [mul_comm])
  unfold roundDiv
  dsimp only
  split_ifs with up
  · by_contra more
    obtain rfl : a / b = k := by omega
    rw [mul_comm b] at split
    omega
  · exact quotient

theorem le_roundDiv {a b k : Nat} (pos : 0 < b) (h : k * b ≤ a) : k ≤ roundDiv a b := by
  have quotient : k ≤ a / b := (Nat.le_div_iff_mul_le pos).mpr h
  unfold roundDiv
  dsimp only
  split_ifs
  · exact quotient.trans (Nat.le_succ _)
  · exact quotient

theorem two_zpow_sub (a b : Nat) : (2 : ℚ) ^ ((a : Int) - b) = 2 ^ a / 2 ^ b := by
  rw [zpow_sub₀ two_ne_zero, zpow_natCast, zpow_natCast]

theorem natCast_div_lt_zpow (hn : num ≠ 0) (hd : den ≠ 0) :
    (2 : ℚ) ^ ((num.log2 : Int) - den.log2 - 1) < num / den ∧
      (num : ℚ) / den < 2 ^ ((num.log2 : Int) - den.log2 + 1) := by
  have numLow : (2 : ℚ) ^ num.log2 ≤ num := by exact_mod_cast Nat.log2_self_le hn
  have numHigh : (num : ℚ) < 2 ^ (num.log2 + 1) := by exact_mod_cast Nat.lt_log2_self
  have denLow : (2 : ℚ) ^ den.log2 ≤ den := by exact_mod_cast Nat.log2_self_le hd
  have denHigh : (den : ℚ) < 2 ^ (den.log2 + 1) := by exact_mod_cast Nat.lt_log2_self
  have denPos : (0 : ℚ) < den := by positivity
  have below : (num.log2 : Int) - den.log2 - 1 = num.log2 - (den.log2 + 1 : Nat) := by omega
  have above : (num.log2 : Int) - den.log2 + 1 = (num.log2 + 1 : Nat) - den.log2 := by omega
  rw [below, above, two_zpow_sub, two_zpow_sub]
  exact ⟨div_lt_div₀' numLow denHigh (by positivity) denPos,
    div_lt_div₀ numHigh denLow (by positivity) (by positivity)⟩

/-- At its last bit a ratio has a mantissa of full length, or a shorter one if that bit is the least
there is. -/
theorem lastBit_bounds (hn : num ≠ 0) (hd : den ≠ 0) :
    (num : ℚ) / den < 2 ^ (lastBit f num den + f.precision) ∧
      (f.minExponent < lastBit f num den →
        (2 : ℚ) ^ (lastBit f num den + f.precision - 1) ≤ num / den) := by
  obtain ⟨low, high⟩ := natCast_div_lt_zpow hn hd
  have pos : 0 < den := Nat.pos_of_ne_zero hd
  -- The exponent of the ratio itself, of which the two logarithms are off by one at most.
  obtain ⟨t, lower, upper, last⟩ : ∃ t : Int, (2 : ℚ) ^ t ≤ num / den ∧
      (num : ℚ) / den < 2 ^ (t + 1) ∧
        lastBit f num den = Max.max f.minExponent (t - f.precision + 1) := by
    have below : (2 : ℚ) ^ ((num.log2 : Int) - den.log2) ≤ num / den ↔
        den * powPos ((num.log2 : Int) - den.log2) ≤
          num * powPos (-((num.log2 : Int) - den.log2)) := by
      simpa only [Nat.cast_one, one_mul] using zpow_le_div_iff pos 1 _
    unfold lastBit
    dsimp only
    split_ifs with less
    · refine ⟨_, low.le, ?_, rfl⟩
      rw [sub_add_cancel]
      exact lt_of_not_ge fun ge => absurd less (Nat.not_lt.mpr (below.mp ge))
    · exact ⟨_, below.mpr (Nat.not_lt.mp less), high, rfl⟩
  constructor
  · refine upper.trans_le (zpow_le_zpow_right₀ one_le_two ?_)
    omega
  · intro above
    refine (zpow_le_zpow_right₀ one_le_two ?_).trans lower
    omega

def Representable (f : BinaryFormat) (q : ℚ) : Prop :=
  ∃ (k : Nat) (c : Int), k < 2 ^ f.precision ∧ f.minExponent ≤ c ∧ c ≤ f.maxExponent ∧
    q = k * 2 ^ c

def mantissaOf (f : BinaryFormat) (num den : Nat) : Nat :=
  roundDiv (num * powPos (-lastBit f num den)) (den * powPos (lastBit f num den))

def rounded (f : BinaryFormat) (num den : Nat) : ℚ :=
  mantissaOf f num den * 2 ^ lastBit f num den

/-- A number of the format with a smaller last bit than a ratio has is below the ratio. -/
theorem lt_of_lt_lastBit {k : Nat} {c : Int} (hn : num ≠ 0) (hd : den ≠ 0)
    (small : k < 2 ^ f.precision) (least : f.minExponent ≤ c) (h : c < lastBit f num den) :
    (k * 2 ^ c : ℚ) < 2 ^ (lastBit f num den + f.precision - 1) ∧
      (2 : ℚ) ^ (lastBit f num den + f.precision - 1) ≤ num / den := by
  refine ⟨?_, (lastBit_bounds hn hd).2 (least.trans_lt h)⟩
  have unit : (0 : ℚ) < 2 ^ c := zpow_pos two_pos _
  have mantissa : (k : ℚ) < 2 ^ f.precision := by exact_mod_cast small
  calc (k * 2 ^ c : ℚ) < 2 ^ f.precision * 2 ^ c := mul_lt_mul_of_pos_right mantissa unit
    _ = 2 ^ ((f.precision : Int) + c) := by rw [zpow_add₀ two_ne_zero, zpow_natCast]
    _ ≤ 2 ^ (lastBit f num den + f.precision - 1) := zpow_le_zpow_right₀ one_le_two (by omega)

theorem mul_zpow_of_le (k : Nat) {c e : Int} (h : e ≤ c) :
    (k * 2 ^ c : ℚ) = (k * powPos (c - e) : Nat) * 2 ^ e := by
  rw [Nat.cast_mul, cast_powPos (by omega), mul_assoc, ← zpow_add₀ two_ne_zero,
    sub_add_cancel]

theorem rounded_le (hn : num ≠ 0) (hd : den ≠ 0) (h : Representable f q)
    (le : (num : ℚ) / den ≤ q) : rounded f num den ≤ q := by
  obtain ⟨k, c, small, least, -, rfl⟩ := h
  have pos : 0 < den := Nat.pos_of_ne_zero hd
  rcases le_or_gt (lastBit f num den) c with above | below
  · rw [mul_zpow_of_le k above] at le ⊢
    have mantissa : mantissaOf f num den ≤ k * powPos (c - lastBit f num den) :=
      roundDiv_le (Nat.mul_pos pos (powPos_pos _)) ((div_le_zpow_iff pos _ _).mp le)
    exact mul_le_mul_of_nonneg_right (Nat.cast_le.mpr mantissa) (zpow_nonneg zero_le_two _)
  · obtain ⟨lt, ge⟩ := lt_of_lt_lastBit hn hd small least below
    exact absurd le (not_le.mpr (lt.trans_le ge))

theorem le_rounded (hn : num ≠ 0) (hd : den ≠ 0) (h : Representable f q)
    (le : q ≤ (num : ℚ) / den) : q ≤ rounded f num den := by
  obtain ⟨k, c, small, least, -, rfl⟩ := h
  have pos : 0 < den := Nat.pos_of_ne_zero hd
  have units {k : Nat} (le : (k * 2 ^ lastBit f num den : ℚ) ≤ num / den) :
      (k * 2 ^ lastBit f num den : ℚ) ≤ rounded f num den := by
    have mantissa : k ≤ mantissaOf f num den :=
      le_roundDiv (Nat.mul_pos pos (powPos_pos _)) ((zpow_le_div_iff pos _ _).mp le)
    exact mul_le_mul_of_nonneg_right (Nat.cast_le.mpr mantissa) (zpow_nonneg zero_le_two _)
  rcases le_or_gt (lastBit f num den) c with above | below
  · rw [mul_zpow_of_le k above] at le ⊢
    exact units le
  · obtain ⟨lt, ge⟩ := lt_of_lt_lastBit hn hd small least below
    obtain rfl | some := Nat.eq_zero_or_pos k
    · simp only [Nat.cast_zero, zero_mul]
      exact mul_nonneg (Nat.cast_nonneg _) (zpow_nonneg zero_le_two _)
    · have bits : f.precision ≠ 0 := by
        intro none
        rw [none, Nat.pow_zero] at small
        omega
      have full : (2 : ℚ) ^ (lastBit f num den + f.precision - 1) =
          (2 ^ (f.precision - 1) : Nat) * 2 ^ lastBit f num den := by
        rw [Nat.cast_pow, Nat.cast_two, ← zpow_natCast, ← zpow_add₀ two_ne_zero]
        congr 1
        omega
      rw [full] at lt ge
      exact lt.le.trans (units ge)

/-- The mantissa that a ratio is rounded to has at most one bit more than there is room for, and
then it is a power of two. -/
theorem ofRatio_of_ne_zero (s : Bool) (hn : num ≠ 0) :
    (ofRatio s num den : Binary f) =
      if mantissaOf f num den = 2 ^ f.precision then
        if lastBit f num den + 1 > f.maxExponent then .infinite s
        else .finite s (mantissaOf f num den / 2) (lastBit f num den + 1)
      else if lastBit f num den > f.maxExponent then .infinite s
      else .finite s (mantissaOf f num den) (lastBit f num den) := by
  have room : Nat.pow 2 f.precision = 2 ^ f.precision := rfl
  unfold ofRatio
  rw [if_neg hn]
  dsimp only
  rw [← mantissaOf, room]
  by_cases full : mantissaOf f num den = 2 ^ f.precision
  · rw [if_pos full, if_pos full]
  · rw [if_neg full, if_neg full]

/-- A ratio that is no greater than some number of the format is rounded to a finite number. -/
theorem ofRatio_eq_finite (s : Bool) (hn : num ≠ 0) (hd : den ≠ 0) (h : Representable f q)
    (le : (num : ℚ) / den ≤ q) :
    ∃ m e, ofRatio s num den = (.finite s m e : Binary f) ∧
      (m * 2 ^ e : ℚ) = rounded f num den := by
  have bounded := rounded_le hn hd h le
  obtain ⟨k, c, small, least, most, rfl⟩ := h
  have positive : (0 : ℚ) < num / den := by positivity
  have some : k ≠ 0 := by
    rintro rfl
    simp only [Nat.cast_zero, zero_mul] at le
    exact absurd le (not_le.mpr positive)
  have bits : f.precision ≠ 0 := by
    intro none
    rw [none, pow_zero] at small
    omega
  rw [ofRatio_of_ne_zero s hn]
  -- only a number beyond the format could be too large, and `q` is one of the format above it
  split_ifs with full large large
  · have lt : (2 : ℚ) ^ (f.precision + lastBit f num den) < 2 ^ (f.precision + c) := by
      rw [rounded, full, Nat.cast_pow, Nat.cast_two] at bounded
      rw [zpow_add₀ two_ne_zero, zpow_add₀ two_ne_zero, zpow_natCast]
      refine bounded.trans_lt (mul_lt_mul_of_pos_right ?_ (zpow_pos two_pos _))
      exact_mod_cast small
    have := (zpow_lt_zpow_iff_right₀ one_lt_two).mp lt
    omega
  · refine ⟨_, _, rfl, ?_⟩
    have half : mantissaOf f num den = mantissaOf f num den / 2 * 2 := by
      rw [full, Nat.div_mul_cancel (dvd_pow_self 2 bits)]
    rw [rounded, half, Nat.mul_div_cancel _ two_pos, zpow_add_one₀ two_ne_zero, Nat.cast_mul]
    push_cast
    ring
  · have below : c < lastBit f num den := by omega
    obtain ⟨lt, ge⟩ := lt_of_lt_lastBit hn hd small least below
    exact absurd le (not_le.mpr (lt.trans_le ge))
  · exact ⟨_, _, rfl, rfl⟩

/-- A finite number without a sign that a value may be rounded to: no number of the format lies
between the two. -/
structure RoundsTo (q : ℚ) (x : Binary f) : Prop where
  unsigned : ∃ m e, x = .finite false m e
  above : ∀ a, Representable f a → a ≤ q → a ≤ x.value
  below : ∀ b, Representable f b → q ≤ b → x.value ≤ b

variable {a b : ℚ} {x y : Binary f}

theorem RoundsTo.eq (h : RoundsTo q x) (exact_ : Representable f q) : x.value = q :=
  le_antisymm (h.below q exact_ le_rfl) (h.above q exact_ le_rfl)

theorem value_unsigned (m : Nat) (e : Int) : value (.finite false m e : Binary f) = m * 2 ^ e := rfl

theorem Representable.nonneg (h : Representable f q) : 0 ≤ q := by
  obtain ⟨k, c, -, -, -, rfl⟩ := h
  exact mul_nonneg (Nat.cast_nonneg _) (zpow_nonneg zero_le_two _)

theorem roundsTo_ofRatio (hd : den ≠ 0) (h : Representable f b) (le : (num : ℚ) / den ≤ b) :
    RoundsTo (num / den) (ofRatio false num den : Binary f) := by
  obtain rfl | hn := eq_or_ne num 0
  · rw [Nat.cast_zero, zero_div]
    refine ⟨⟨_, _, rfl⟩, fun a _ ha => ha.trans value_zero.ge, fun b hb _ => ?_⟩
    exact value_zero.le.trans hb.nonneg
  · obtain ⟨m, e, result, value⟩ := ofRatio_eq_finite false hn hd h le
    rw [result]
    refine ⟨⟨m, e, rfl⟩, fun a ha le => ?_, fun b hb le => ?_⟩
    · rw [value_unsigned, value]
      exact le_rounded hn hd ha le
    · rw [value_unsigned, value]
      exact rounded_le hn hd hb le

theorem roundsTo_ofSigned {n : Int} (nonneg : 0 ≤ n) (h : Representable f b)
    (le : (n * 2 ^ e : ℚ) ≤ b) : RoundsTo (n * 2 ^ e : ℚ) (ofSigned false n e : Binary f) := by
  have ratio : (n * 2 ^ e : ℚ) = ((n.natAbs * powPos e : Nat) : ℚ) / (powPos (-e) : Nat) := by
    rw [Nat.cast_mul, mul_div_assoc, powPos_div_powPos_neg, Nat.cast_natAbs, abs_of_nonneg nonneg]
  rw [ratio] at le ⊢
  unfold ofSigned ofDyadic
  have positive : decide (n < 0) = false := decide_eq_false (not_lt.mpr nonneg)
  rw [positive]
  split
  · next zero =>
    subst zero
    have rounds : RoundsTo (((0 : Nat) : ℚ) / (powPos (-e) : Nat))
        (ofRatio false 0 (powPos (-e)) : Binary f) :=
      roundsTo_ofRatio (powPos_pos (-e)).ne' h (by simpa using h.nonneg)
    simpa [ofRatio] using rounds
  · exact roundsTo_ofRatio (powPos_pos _).ne' h le

theorem roundsTo_div {m n : Nat} {c d : Int} (hn : n ≠ 0) (h : Representable f b)
    (le : value (.finite false m c : Binary f) / value (.finite false n d : Binary f) ≤ b) :
    RoundsTo (value (.finite false m c : Binary f) / value (.finite false n d : Binary f))
      ((.finite false m c : Binary f).div (.finite false n d)) := by
  have ratio : value (.finite false m c : Binary f) / value (.finite false n d : Binary f) =
      ((m * powPos (c - d) : Nat) : ℚ) / (n * powPos (d - c) : Nat) := by
    have swap : d - c = -(c - d) := by ring
    rw [value_unsigned, value_unsigned, Nat.cast_mul, Nat.cast_mul, mul_div_mul_comm,
      mul_div_mul_comm, swap, powPos_div_powPos_neg, zpow_sub₀ two_ne_zero]
  rw [ratio] at le ⊢
  rw [div, if_neg hn]
  exact roundsTo_ofRatio (Nat.mul_ne_zero hn (powPos_pos _).ne') h le

theorem value_negative (m : Nat) (e : Int) :
    value (.finite true m e : Binary f) = -value (.finite false m e : Binary f) := by
  simp [value, signed]

theorem roundsTo_sub {m n : Nat} {c d : Int} (h : Representable f b)
    (order : value (.finite false n d : Binary f) ≤ value (.finite false m c : Binary f))
    (le : value (.finite false m c : Binary f) - value (.finite false n d : Binary f) ≤ b) :
    RoundsTo (value (.finite false m c : Binary f) - value (.finite false n d : Binary f))
      ((.finite false m c : Binary f).sub (.finite false n d)) := by
  have scaled : value (.finite false m c : Binary f) - value (.finite false n d : Binary f) =
      ((signed false m * powPos (c - min c d) + signed true n * powPos (d - min c d) : Int) : ℚ) *
        2 ^ min c d := by
    rw [Int.cast_add, add_mul, value_scaled (f := f) false m (min_le_left c d),
      value_scaled (f := f) true n (min_le_right c d), value_negative, sub_eq_add_neg]
  rw [← sub_nonneg, scaled] at order
  rw [scaled] at le ⊢
  have nonneg : 0 ≤ signed false m * (powPos (c - min c d) : Int) +
      signed true n * powPos (d - min c d) :=
    Int.cast_nonneg_iff.mp (nonneg_of_mul_nonneg_left order (zpow_pos two_pos _))
  exact roundsTo_ofSigned nonneg h le

theorem representable_natCast {n : Nat} (h : n < 2 ^ 53) : Representable .double n :=
  ⟨n, 0, h, by decide, by decide, by simp⟩

theorem value_ofNat {n : Nat} (h : n < 2 ^ 53) :
    ∃ m e, (ofNat n : Double) = .finite false m e ∧ value (.finite false m e : Double) = n := by
  have rounds : RoundsTo ((n : ℚ) / (1 : Nat)) (ofNat n : Double) :=
    roundsTo_ofRatio one_ne_zero (representable_natCast h) (by simp)
  rw [Nat.cast_one, div_one] at rounds
  obtain ⟨m, e, shape⟩ := rounds.unsigned
  exact ⟨m, e, shape, shape ▸ rounds.eq (representable_natCast h)⟩

theorem value_one_double :
    ∃ m e, (ofNat 1 : Double) = .finite false m e ∧ value (.finite false m e : Double) = 1 := by
  exact_mod_cast value_ofNat (n := 1) (by decide)

theorem value_ofNat_div {d n : Nat} (some : n ≠ 0) (within : d ≤ n) (small : n < 2 ^ 53) :
    ∃ m e, (ofNat d).div (ofNat n) = (.finite false m e : Double) ∧
      RoundsTo ((d : ℚ) / n) (.finite false m e : Double) := by
  obtain ⟨m, c, part, partValue⟩ := value_ofNat (within.trans_lt small)
  obtain ⟨k, e, whole, wholeValue⟩ := value_ofNat small
  have nonzero : (n : ℚ) ≠ 0 := Nat.cast_ne_zero.mpr some
  have positive : (0 : ℚ) < n := Nat.cast_pos.mpr (Nat.pos_of_ne_zero some)
  have mantissa : k ≠ 0 := by
    rintro rfl
    rw [value_unsigned, Nat.cast_zero, zero_mul] at wholeValue
    exact nonzero wholeValue.symm
  rw [part, whole]
  have most : (d : ℚ) / n ≤ (1 : Nat) := by
    rw [Nat.cast_one, div_le_one positive]
    exact Nat.cast_le.mpr within
  rw [← partValue, ← wholeValue] at most ⊢
  have rounds := roundsTo_div mantissa (representable_natCast (by decide)) most
  obtain ⟨m', e', shape⟩ := rounds.unsigned
  rw [shape] at rounds ⊢
  exact ⟨m', e', rfl, rounds⟩

/-- One minus a share, both rounded, stays between zero and one, and is one for no share at all
only. -/
theorem value_one_sub_ofNat_div {d n : Nat} (some : n ≠ 0) (within : d ≤ n) (small : n < 2 ^ 53) :
    ∃ m e, (ofNat 1).sub ((ofNat d).div (ofNat n)) =
        (.finite false m e : Double) ∧
      0 ≤ value (.finite false m e : Double) ∧ value (.finite false m e : Double) ≤ 1 ∧
        (value (.finite false m e : Double) = 1 ↔ d = 0) := by
  have zero : Representable .double 0 := by simpa using representable_natCast (n := 0) (by decide)
  have one : Representable .double 1 := by simpa using representable_natCast (n := 1) (by decide)
  have positive : (0 : ℚ) < n := Nat.cast_pos.mpr (Nat.pos_of_ne_zero some)
  have share : (d : ℚ) / n ≤ 1 := (div_le_one positive).mpr (Nat.cast_le.mpr within)
  obtain ⟨m, e, quotient, rounds⟩ := value_ofNat_div some within small
  obtain ⟨k, c, unit, unitValue⟩ := value_one_double
  have low := rounds.above 0 zero (div_nonneg (Nat.cast_nonneg _) positive.le)
  have high := rounds.below 1 one share
  rw [quotient, unit]
  have difference := roundsTo_sub (m := k) (c := c) (n := m) (d := e) one (by rwa [unitValue])
    (by rw [unitValue]; exact sub_le_self 1 low)
  rw [unitValue] at difference
  obtain ⟨m', e', shape⟩ := difference.unsigned
  rw [shape] at difference ⊢
  refine ⟨m', e', rfl, difference.above 0 zero (sub_nonneg.mpr high),
    difference.below 1 one (sub_le_self 1 low), ⟨fun full => ?_, ?_⟩⟩
  · by_contra more
    -- The number below one is a step of 2^-53 away, and any other share is at least that.
    have grid {k : Nat} (h : k < 2 ^ 53) : Representable .double (k * 2 ^ (-53 : Int)) :=
      ⟨k, -53, h, by decide, by decide, rfl⟩
    have least : (1 : Nat) * (2 : ℚ) ^ (-53 : Int) ≤ d / n := by
      rw [Nat.cast_one, one_mul, zpow_neg, ← one_div]
      gcongr
      · exact_mod_cast Nat.one_le_iff_ne_zero.mpr more
      · exact_mod_cast small.le
    have step := rounds.above _ (grid (by decide)) least
    have below := difference.below ((2 ^ 53 - 1 : Nat) * 2 ^ (-53 : Int))
      (grid (by decide)) (by norm_num at step ⊢; linarith)
    rw [full] at below
    norm_num at below
  · rintro rfl
    rw [Nat.cast_zero, zero_div] at rounds
    rw [rounds.eq zero, sub_zero] at difference
    exact difference.eq one

end TaskFlow.Binary
