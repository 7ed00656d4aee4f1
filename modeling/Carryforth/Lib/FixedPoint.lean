import Mathlib.Tactic

/-!
# Rounded division

Integer division rounded to the nearest integer, halves up.  A quotient is compared with an integer,
or with another quotient, by cross multiplication; rounding keeps each of these comparisons.
-/

namespace FixedPoint

variable {n n' d d' k : Nat}

/-- Division rounded to the nearest integer, halves up. -/
def roundDiv (n d : Nat) : Nat := (n + d / 2) / d

theorem le_roundDiv_iff (pos : 0 < d) : k ≤ roundDiv n d ↔ 2 * (k * d) ≤ 2 * n + d := by
  unfold roundDiv
  rw [Nat.le_div_iff_mul_le pos]
  omega

theorem le_roundDiv (pos : 0 < d) (le : k * d ≤ n) : k ≤ roundDiv n d := by
  rw [le_roundDiv_iff pos]
  omega

/-- With a divisor of zero the quotient is zero. -/
theorem roundDiv_le (le : n ≤ k * d) : roundDiv n d ≤ k := by
  rcases Nat.eq_zero_or_pos d with rfl | pos
  · simp [roundDiv]
  · unfold roundDiv
    rw [← Nat.lt_succ_iff, Nat.div_lt_iff_lt_mul pos, Nat.succ_mul]
    omega

theorem roundDiv_le_roundDiv (pos : 0 < d) (pos' : 0 < d') (le : n * d' ≤ n' * d) :
    roundDiv n d ≤ roundDiv n' d' := by
  have below : 2 * (roundDiv n d * d) ≤ 2 * n + d := (le_roundDiv_iff pos).1 le_rfl
  rw [le_roundDiv_iff pos']
  -- cross multiplied, and the common factor `d` taken out again
  refine Nat.le_of_mul_le_mul_right ?_ pos
  calc 2 * (roundDiv n d * d') * d
      = 2 * (roundDiv n d * d) * d' := by ring
    _ ≤ (2 * n + d) * d' := Nat.mul_le_mul_right d' below
    _ = 2 * (n * d') + d' * d := by ring
    _ ≤ 2 * (n' * d) + d' * d := by omega
    _ = (2 * n' + d') * d := by ring

theorem roundDiv_mono (le : n ≤ n') : roundDiv n d ≤ roundDiv n' d :=
  Nat.div_le_div_right (Nat.add_le_add_right le _)

/-- The rounded harmonic mean of two positive numbers grows with each of them. -/
theorem roundDiv_harmonic_mono {a a' b : Nat} (pos : 0 < a) (pos' : 0 < b) (le : a ≤ a') :
    roundDiv (2 * a * b) (a + b) ≤ roundDiv (2 * a' * b) (a' + b) := by
  refine roundDiv_le_roundDiv (by omega) (by omega) ?_
  have grows : a * (b * b) ≤ a' * (b * b) := Nat.mul_le_mul_right _ le
  calc 2 * a * b * (a' + b) = 2 * (a * a' * b) + 2 * (a * (b * b)) := by ring
    _ ≤ 2 * (a * a' * b) + 2 * (a' * (b * b)) := by omega
    _ = 2 * a' * b * (a + b) := by ring

theorem roundDiv_harmonic_between {a b : Nat} (pos : 0 < a) (le : a ≤ b) :
    a ≤ roundDiv (2 * a * b) (a + b) ∧ roundDiv (2 * a * b) (a + b) ≤ b := by
  have low : a * a ≤ a * b := Nat.mul_le_mul_left a le
  have high : a * b ≤ b * b := Nat.mul_le_mul_right b le
  constructor
  · refine le_roundDiv (by omega) ?_
    calc a * (a + b) = a * a + a * b := by ring
      _ ≤ 2 * a * b := by linarith
  · refine roundDiv_le ?_
    calc 2 * a * b ≤ a * b + b * b := by linarith
      _ = b * (a + b) := by ring

end FixedPoint
