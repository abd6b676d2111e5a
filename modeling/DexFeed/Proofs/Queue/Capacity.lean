import Mathlib.Algebra.Group.Nat.Defs
import DexFeed.Queue.Capacity

/-!
# Rounding a capacity up

Doubling from 2 passes through the powers of two in turn and stops at the first that is no smaller
than the request. For requests up to `2 ^ 63` the doublings suffice and none of them wraps around.
-/

namespace DexFeed.Capacity

/-- Below the last power of two a doubling does not wrap around. -/
theorem toNat_doubled {capacity : UInt64} {j : Nat} (hc : capacity.toNat = 2 ^ j) (hj : j < 63) :
    (capacity <<< 1).toNat = 2 ^ (j + 1) := by
  have hlt : 2 ^ (j + 1) < 2 ^ 64 := Nat.pow_lt_pow_right (by decide) (by omega)
  have hone : (1 : UInt64).toNat % 64 = 1 := rfl
  rw [UInt64.toNat_shiftLeft, hone, hc, Nat.shiftLeft_eq, Nat.pow_one, ← Nat.pow_succ,
    Nat.mod_eq_of_lt hlt]

/-- Doubling stops at the first power of two that is large enough, unless it runs out of steps. -/
theorem double_eq (n : UInt64) (steps : Nat) {capacity : UInt64} {j : Nat}
    (hc : capacity.toNat = 2 ^ j) (hj : j + steps ≤ 63) :
    ∃ k, j ≤ k ∧ k ≤ j + steps ∧ (double n steps capacity).toNat = 2 ^ k ∧
      (n.toNat ≤ 2 ^ k ∨ k = j + steps) ∧ ∀ i, j ≤ i → i < k → 2 ^ i < n.toNat := by
  induction steps generalizing capacity j with
  | zero => exact ⟨j, Nat.le_refl j, Nat.le_refl j, hc, Or.inr rfl, fun i hi hik => by omega⟩
  | succ steps ih =>
    rw [double]
    by_cases hlt : capacity < n
    · rw [if_pos hlt]
      rw [UInt64.lt_iff_toNat_lt, hc] at hlt
      obtain ⟨k, hjk, hk, heq, hn, hleast⟩ := ih (toNat_doubled hc (by omega)) (by omega)
      refine ⟨k, by omega, by omega, heq, by omega, fun i hi hik => ?_⟩
      rcases Nat.eq_or_lt_of_le hi with rfl | hi
      · exact hlt
      · exact hleast i hi hik
    · rw [if_neg hlt]
      rw [UInt64.lt_iff_toNat_lt, hc, Nat.not_lt] at hlt
      exact ⟨j, Nat.le_refl j, by omega, hc, Or.inl hlt, fun i hi hik => by omega⟩

/-- A request up to `2 ^ 63` is rounded up to the least power of two from 2 on that is no smaller,
and a larger one to a power of two as well. -/
theorem roundUp_eq (n : UInt64) :
    ∃ k, 1 ≤ k ∧ k ≤ 63 ∧ (roundUp n).toNat = 2 ^ k ∧ (n.toNat ≤ 2 ^ 63 → n.toNat ≤ 2 ^ k) ∧
      ∀ i, 1 ≤ i → i < k → 2 ^ i < n.toNat := by
  have htwo : (2 : UInt64).toNat = 2 ^ 1 := rfl
  obtain ⟨k, hk, hk', heq, hle, hleast⟩ := double_eq n 62 htwo (by decide)
  refine ⟨k, hk, hk', heq, fun hn => ?_, hleast⟩
  rcases hle with hle | rfl
  · exact hle
  · exact hn

end DexFeed.Capacity
