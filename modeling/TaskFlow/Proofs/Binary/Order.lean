import Mathlib.Algebra.Order.Field.Rat
import Mathlib.Order.WithBot
import Mathlib.Tactic.NormNum
import Mathlib.Tactic.Ring
import TaskFlow.Binary.Basic

namespace TaskFlow.Binary

variable {f : BinaryFormat} {x y z : Single}

/-- The value of a finite number; infinite and undefined ones count as zero. -/
def value : Binary f → ℚ
  | .finite s m e => signed s m * 2 ^ e
  | _ => 0

theorem cast_powPos {e : Int} (h : 0 ≤ e) : (powPos e : ℚ) = 2 ^ e := by
  have hp : powPos e = 2 ^ e.toNat := rfl
  rw [hp, Nat.cast_pow, Nat.cast_ofNat, ← zpow_natCast, Int.toNat_of_nonneg h]

theorem value_scaled (s : Bool) (m : Nat) {a e : Int} (h : e ≤ a) :
    ((signed s m * powPos (a - e) : Int) : ℚ) * 2 ^ e = value (.finite s m a : Binary f) := by
  have split : (2 : ℚ) ^ (a - e) * 2 ^ e = 2 ^ a := by
    rw [← zpow_add₀ two_ne_zero, Int.sub_add_cancel]
  rw [value, Int.cast_mul, Int.cast_natCast, cast_powPos (Int.sub_nonneg_of_le h), mul_assoc, split]

theorem scaled_lt_iff (s t : Bool) (m n : Nat) (a b : Int) :
    signed s m * powPos (a - min a b) < signed t n * powPos (b - min a b) ↔
      value (.finite s m a : Binary f) < value (.finite t n b : Binary f) := by
  have pos : (0 : ℚ) < 2 ^ min a b := zpow_pos two_pos _
  rw [← value_scaled s m (min_le_left a b), ← value_scaled t n (min_le_right a b),
    mul_lt_mul_iff_left₀ pos, Int.cast_lt]

theorem lt_finite {s t : Bool} {m n : Nat} {a b : Int} :
    lt (.finite s m a : Binary f) (.finite t n b) = true ↔
      value (.finite s m a : Binary f) < value (.finite t n b : Binary f) := by
  rw [← scaled_lt_iff, ← compare_lt_iff_lt]
  simp [lt, compare?]

theorem le_finite {s t : Bool} {m n : Nat} {a b : Int} :
    le (.finite s m a : Binary f) (.finite t n b) = true ↔
      value (.finite s m a : Binary f) ≤ value (.finite t n b : Binary f) := by
  have flip := scaled_lt_iff (f := f) t s n m b a
  rw [min_comm] at flip
  rw [← not_lt, ← flip, ← compare_gt_iff_gt]
  simp only [le, compare?]
  cases compare (signed s m * (powPos (a - min a b) : Int)) (signed t n * powPos (b - min a b)) <;>
    simp

def place : Binary f → WithBot (WithTop ℚ)
  | .infinite true => ⊥
  | .infinite false => ⊤
  | x => (x.value : WithTop ℚ)

theorem le_iff_place {x y : Binary f} :
    x.le y = true ↔ x ≠ .nan ∧ y ≠ .nan ∧ x.place ≤ y.place := by
  rcases x with _ | ⟨_ | _⟩ | _ <;> rcases y with _ | ⟨_ | _⟩ | _
  case finite.finite => simp [le_finite, place]
  all_goals simp [le, compare?, place]

theorem le_trans {x y z : Binary f} (h : x.le y = true) (h' : y.le z = true) :
    x.le z = true := by
  rw [le_iff_place] at h h' ⊢
  exact ⟨h.1, h'.2.1, h.2.2.trans h'.2.2⟩

def InUnit (x : Single) : Prop := zero.le x = true ∧ x.le (ofNat 1) = true

instance (x : Single) : Decidable x.InUnit := inferInstanceAs (Decidable (_ ∧ _))

theorem ofNat_one : (ofNat 1 : Single) = .finite false 8388608 (-23) := rfl

theorem value_zero : value (zero : Binary f) = 0 := by
  simp [zero, signedZero, value, signed]

theorem value_one : value (ofNat 1 : Single) = 1 := by
  rw [ofNat_one, value, signed]
  norm_num

theorem inUnit_finite {s : Bool} {m : Nat} {e : Int} :
    InUnit (.finite s m e) ↔
      0 ≤ value (.finite s m e : Single) ∧ value (.finite s m e : Single) ≤ 1 := by
  have low : zero.le (.finite s m e : Single) = true ↔ 0 ≤ value (.finite s m e : Single) := by
    rw [← value_zero (f := .single)]
    exact le_finite
  have high : le (.finite s m e : Single) (ofNat 1) = true ↔ value (.finite s m e : Single) ≤ 1 := by
    rw [← value_one]
    exact le_finite
  rw [InUnit, low, high]

theorem lt_zero {s : Bool} {m : Nat} {e : Int} :
    lt (.finite s m e : Binary f) zero = true ↔ value (.finite s m e : Binary f) < 0 := by
  rw [← value_zero (f := f)]
  exact lt_finite

theorem one_lt {s : Bool} {m : Nat} {e : Int} :
    lt (ofNat 1) (.finite s m e : Single) = true ↔ 1 < value (.finite s m e : Single) := by
  rw [← value_one]
  exact lt_finite

theorem InUnit.exists_finite (h : x.InUnit) : ∃ s m e, x = .finite s m e := by
  cases x with
  | nan => exact absurd h.1 (by simp [zero, signedZero, le, compare?])
  | infinite s => cases s <;> exact absurd h (by decide)
  | finite s m e => exact ⟨s, m, e, rfl⟩

theorem inUnit_zero : InUnit zero := by decide

theorem inUnit_one : InUnit (ofNat 1) := by decide

theorem max_finite {s t : Bool} {m n : Nat} {a b : Int} :
    max (.finite s m a : Binary f) (.finite t n b) =
      if lt (.finite s m a : Binary f) (.finite t n b) then .finite t n b else .finite s m a := rfl

theorem InUnit.max (hx : x.InUnit) (hy : y.InUnit) : (x.max y).InUnit := by
  obtain ⟨s, m, a, rfl⟩ := hx.exists_finite
  obtain ⟨t, n, b, rfl⟩ := hy.exists_finite
  rw [max_finite]
  split
  · exact hy
  · exact hx

theorem InUnit.le_max (hx : x.InUnit) (hy : y.InUnit) :
    x.le (x.max y) = true := by
  obtain ⟨s, m, a, rfl⟩ := hx.exists_finite
  obtain ⟨t, n, b, rfl⟩ := hy.exists_finite
  rw [max_finite]
  split
  · next h => exact le_finite.mpr (lt_finite.mp h).le
  · exact le_finite.mpr le_rfl

theorem InUnit.le_refl (hx : x.InUnit) : x.le x = true := by
  obtain ⟨s, m, a, rfl⟩ := hx.exists_finite
  exact le_finite.mpr le_rfl

theorem InUnit.le_trans (hx : x.InUnit) (hy : y.InUnit) (hz : z.InUnit) (h : x.le y = true)
    (h' : y.le z = true) : x.le z = true := by
  obtain ⟨s, m, a, rfl⟩ := hx.exists_finite
  obtain ⟨t, n, b, rfl⟩ := hy.exists_finite
  obtain ⟨u, k, c, rfl⟩ := hz.exists_finite
  rw [le_finite] at h h' ⊢
  exact h.trans h'

end TaskFlow.Binary
