import Mathlib.Data.Nat.Basic
import Mathlib.Tactic

/-!
# Numbers as bytes

`Bytes.bigEndian w n` are the lowest `w` bytes of a number, the highest first.
-/

namespace Bytes

/-- The lowest `w` bytes of `n`, the highest first. -/
def bigEndian : Nat → Nat → List UInt8
  | 0, _ => []
  | w + 1, n => bigEndian w (n / 256) ++ [UInt8.ofNat n]

@[simp] theorem length_bigEndian (w n : Nat) : (bigEndian w n).length = w := by
  induction w generalizing n with
  | zero => rfl
  | succ w ih => rw [bigEndian, List.length_append, ih, List.length_singleton]

theorem bigEndian_inj {w n m : Nat} (small : n < 256 ^ w) (small' : m < 256 ^ w)
    (same : bigEndian w n = bigEndian w m) : n = m := by
  induction w generalizing n m with
  | zero =>
    rw [Nat.pow_zero] at small small'
    omega
  | succ w ih =>
    rw [Nat.pow_succ] at small small'
    obtain ⟨high, low⟩ := List.append_inj' same rfl
    have quotients := ih (Nat.div_lt_of_lt_mul (by omega)) (Nat.div_lt_of_lt_mul (by omega)) high
    have remainders := congrArg UInt8.toNat (List.singleton_inj.1 low)
    rw [UInt8.toNat_ofNat', UInt8.toNat_ofNat'] at remainders
    omega

end Bytes
