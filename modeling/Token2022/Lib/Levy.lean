/-
**A proportional levy with a cap, and its inverse.**

A levy of `rate` parts in `base` on an amount, rounded up, never more than `cap`; what is left of
the amount; and the least amount that leaves a given rest.

* `levy`, `net` — the levy and what is left.
* **`net_eq_max`** — what is left is the larger of the scaled amount and the amount less the cap.
* `gross` — the amount to start from; **`gross_isLeast`**: the least one that leaves the rest, for
  a rate below the base; `gross_isLeast_of_full` for a rate of the whole base.
* **`excess_mul_lt`** — an amount with the same rest exceeds the least one by less than
  `base / (base - rate)`.
-/

import Mathlib.Tactic.Ring
import Token2022.Lib.LeastPreimage

namespace Levy

open LeastPreimage

variable (rate base cap : ℕ)

/-- `rate` parts in `base` of the amount, rounded up, but no more than `cap`. -/
def levy (amount : ℕ) : ℕ := min ((amount * rate) ⌈/⌉ base) cap

/-- What is left of the amount. -/
def net (amount : ℕ) : ℕ := amount - levy rate base cap amount

variable {rate base cap}

/-! ### What is left -/

/-- Rounding the levy up rounds the rest down. -/
theorem sub_ceilDiv (le : rate ≤ base) (positive : 0 < base) (amount : ℕ) :
    amount - (amount * rate) ⌈/⌉ base = amount * (base - rate) / base := by
  refine eq_of_forall_le_iff fun rest => ?_
  have split : amount * (base - rate) + amount * rate = amount * base := by
    rw [← Nat.mul_add, Nat.sub_add_cancel le]
  have small : (amount * rate) ⌈/⌉ base ≤ amount := by
    rw [ceilDiv_le_iff_le_mul positive, mul_comm base]
    exact Nat.mul_le_mul_left amount le
  calc rest ≤ amount - (amount * rate) ⌈/⌉ base
      ↔ rest ≤ amount ∧ (amount * rate) ⌈/⌉ base ≤ amount - rest := by omega
    _ ↔ rest ≤ amount ∧ amount * rate ≤ base * (amount - rest) := by
        rw [ceilDiv_le_iff_le_mul positive]
    _ ↔ rest * base ≤ amount * (base - rate) := by
        constructor
        · rintro ⟨less, fits⟩
          have parts : base * (amount - rest) + rest * base = amount * base := by
            rw [mul_comm base, ← Nat.add_mul, Nat.sub_add_cancel less]
          omega
        · intro fits
          have less : rest ≤ amount :=
            Nat.le_of_mul_le_mul_right (by omega : rest * base ≤ amount * base) positive
          have parts : base * (amount - rest) + rest * base = amount * base := by
            rw [mul_comm base, ← Nat.add_mul, Nat.sub_add_cancel less]
          exact ⟨less, by omega⟩
    _ ↔ rest ≤ amount * (base - rate) / base := (Nat.le_div_iff_mul_le positive).symm

/-- The levy is no more than the amount. -/
theorem levy_le (le : rate ≤ base) (positive : 0 < base) (amount : ℕ) :
    levy rate base cap amount ≤ amount := by
  refine (Nat.min_le_left _ _).trans ?_
  rw [ceilDiv_le_iff_le_mul positive, mul_comm base]
  exact Nat.mul_le_mul_left amount le

/-- **What is left is the larger of the scaled amount and the amount less the cap.** -/
theorem net_eq_max (le : rate ≤ base) (positive : 0 < base) (amount : ℕ) :
    net rate base cap amount = max (amount * (base - rate) / base) (amount - cap) := by
  rw [← sub_ceilDiv le positive amount]
  unfold net levy
  omega

theorem levy_monotone (positive : 0 < base) : Monotone (levy rate base cap) := by
  intro a b less
  refine min_le_min_right cap ?_
  exact (gc_mul_ceilDiv positive).monotone_l (Nat.mul_le_mul_right rate less)

theorem net_unitSteps (le : rate ≤ base) (positive : 0 < base) :
    UnitSteps (net rate base cap) := by
  have shape : net rate base cap = fun amount =>
      max (amount * (base - rate) / base) (amount - cap) := by
    funext amount
    exact net_eq_max le positive amount
  rw [shape]
  exact (unitSteps_scale (Nat.sub_le base rate) positive).max (unitSteps_sub cap)

/-! ### The amount to start from -/

/-- The least amount that leaves `rest`: scaled up, or with the whole cap on top. -/
def gross (rate base cap rest : ℕ) : ℕ := min ((rest * base) ⌈/⌉ (base - rate)) (rest + cap)

theorem gross_threshold (less : rate < base) {rest : ℕ} (positive : 0 < rest) :
    Threshold (net rate base cap) rest (gross rate base cap rest) := by
  have basePositive : 0 < base := Nat.zero_lt_of_lt less
  intro amount
  rw [net_eq_max less.le basePositive]
  exact (threshold_scale (Nat.sub_pos_of_lt less) basePositive rest).max
    (threshold_sub cap positive) amount

/-- **Below a rate of the whole base, `gross` is the least amount that leaves the rest.** -/
theorem gross_isLeast (less : rate < base) {rest : ℕ} (positive : 0 < rest) :
    IsLeast {amount | net rate base cap amount = rest} (gross rate base cap rest) :=
  (net_unitSteps less.le (Nat.zero_lt_of_lt less)).isLeast (gross_threshold less positive)

/-- Where the rate is the whole base, the cap is what has to be put on top. -/
theorem gross_isLeast_of_full (basePositive : 0 < base) {rest : ℕ} (positive : 0 < rest) :
    IsLeast {amount | net base base cap amount = rest} (rest + cap) := by
  refine (net_unitSteps le_rfl basePositive).isLeast ?_
  intro amount
  rw [net_eq_max le_rfl basePositive, Nat.sub_self, Nat.mul_zero, Nat.zero_div, Nat.zero_max]
  exact threshold_sub cap positive amount

/-- Nothing is the least amount that leaves nothing. -/
theorem zero_isLeast (le : rate ≤ base) (basePositive : 0 < base) :
    IsLeast {amount | net rate base cap amount = 0} 0 :=
  (net_unitSteps le basePositive).isLeast (threshold_bot _)

/-! ### How far the least amount is from another one -/

/-- **An amount with the same rest exceeds the least one by less than `base / (base - rate)`.** -/
theorem excess_mul_lt (le : rate ≤ base) (positive : 0 < base) {amount least : ℕ}
    (isLeast : IsLeast {a | net rate base cap a = net rate base cap amount} least) :
    (amount - least) * (base - rate) < base := by
  have below : least ≤ amount := isLeast.2 rfl
  have scaled : least * (base - rate) / base ≤ amount * (base - rate) / base :=
    Nat.div_le_div_right (Nat.mul_le_mul_right _ below)
  have same : max (least * (base - rate) / base) (least - cap) =
      max (amount * (base - rate) / base) (amount - cap) := by
    rw [← net_eq_max le positive, ← net_eq_max le positive]
    exact isLeast.1
  by_cases proportional : amount * (base - rate) / base = least * (base - rate) / base
  · -- the two scaled amounts lie in one interval between multiples of the base
    have upper := Nat.lt_div_mul_add positive (a := amount * (base - rate))
    have lower := Nat.div_mul_le_self (least * (base - rate)) base
    rw [proportional] at upper
    rw [Nat.sub_mul]
    omega
  · -- the cap decides for one of the two, and then they are the same
    have equal : amount - least = 0 := by
      generalize least * (base - rate) / base = leastScaled at *
      generalize amount * (base - rate) / base = amountScaled at *
      omega
    rw [equal, Nat.zero_mul]
    exact positive

end Levy
