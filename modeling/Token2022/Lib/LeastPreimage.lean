/-
**Least preimages of slowly growing functions.**

A function that starts at zero and rises by at most one at a time takes every value on its way, so
where its values first reach `y` is the least argument with the value `y`.

* `Threshold u y x₀` — the values of `u` reach `y` exactly from `x₀` on; `Threshold.max`,
  `threshold_sub`, `threshold_scale` find it for a maximum, a truncated difference and a scaling.
* `UnitSteps u` — `u` starts at zero, never falls and rises by at most one at a time;
  `UnitSteps.max`, `unitSteps_sub`, `unitSteps_scale`.
* **`UnitSteps.isLeast`** — with unit steps, the threshold of `y` is the least preimage of `y`.
-/

import Mathlib.Algebra.Order.Floor.Div
import Mathlib.GroupTheory.GroupAction.Ring
import Mathlib.Order.Bounds.Basic
import Mathlib.Tactic.Common

namespace LeastPreimage

/-! ### Thresholds -/

section Threshold

variable {α β : Type*}

/-- The values of `u` reach `y` exactly from `x₀` on. -/
def Threshold [LE α] [LE β] (u : α → β) (y : β) (x₀ : α) : Prop := ∀ x, y ≤ u x ↔ x₀ ≤ x

/-- A maximum reaches `y` as soon as one of the two does. -/
theorem Threshold.max [LinearOrder α] [LinearOrder β] {u v : α → β} {y : β} {a b : α}
    (left : Threshold u y a) (right : Threshold v y b) :
    Threshold (fun x => max (u x) (v x)) y (min a b) := by
  intro x
  rw [le_max_iff, min_le_iff, left x, right x]

/-- The least value is reached at the least argument. -/
theorem threshold_bot [Preorder α] [OrderBot α] [Preorder β] [OrderBot β] (u : α → β) :
    Threshold u ⊥ ⊥ := fun _ => iff_of_true bot_le bot_le

end Threshold

/-- A difference reaches a positive `y` at `y + m`. -/
theorem threshold_sub (m : ℕ) {y : ℕ} (positive : 0 < y) :
    Threshold (fun x => x - m) y (y + m) := by
  intro x
  show y ≤ x - m ↔ y + m ≤ x
  omega

/-- A scaling by `n / d`, rounded down, reaches `y` at `y * d / n`, rounded up. -/
theorem threshold_scale {n d : ℕ} (nPositive : 0 < n) (dPositive : 0 < d) (y : ℕ) :
    Threshold (fun x => x * n / d) y ((y * d) ⌈/⌉ n) := by
  intro x
  show y ≤ x * n / d ↔ (y * d) ⌈/⌉ n ≤ x
  rw [Nat.le_div_iff_mul_le dPositive, ceilDiv_le_iff_le_mul nPositive, mul_comm n x]

/-! ### Unit steps -/

/-- `u` starts at zero, never falls and rises by at most one at a time. -/
structure UnitSteps (u : ℕ → ℕ) : Prop where
  zero : u 0 = 0
  monotone : Monotone u
  step : ∀ x, u (x + 1) ≤ u x + 1

/-- **With unit steps, the threshold of a value is its least preimage.** -/
theorem UnitSteps.isLeast {u : ℕ → ℕ} (steps : UnitSteps u) {y x₀ : ℕ}
    (threshold : Threshold u y x₀) : IsLeast {x | u x = y} x₀ := by
  have reached : y ≤ u x₀ := (threshold x₀).2 le_rfl
  have notPassed : u x₀ ≤ y := by
    cases x₀ with
    | zero =>
      rw [steps.zero]
      exact Nat.zero_le y
    | succ x =>
      have below : ¬y ≤ u x := fun early => Nat.not_succ_le_self x ((threshold x).1 early)
      have next := steps.step x
      omega
  refine ⟨le_antisymm notPassed reached, ?_⟩
  intro x value
  exact (threshold x).1 (ge_of_eq value)

theorem UnitSteps.max {u v : ℕ → ℕ} (left : UnitSteps u) (right : UnitSteps v) :
    UnitSteps fun x => max (u x) (v x) where
  zero := by rw [left.zero, right.zero, Nat.max_self]
  monotone := left.monotone.max right.monotone
  step x := by
    have leftStep := left.step x
    have rightStep := right.step x
    omega

theorem unitSteps_sub (m : ℕ) : UnitSteps fun x => x - m where
  zero := Nat.zero_sub m
  monotone _ _ le := Nat.sub_le_sub_right le m
  step x := by omega

theorem unitSteps_scale {n d : ℕ} (le : n ≤ d) (positive : 0 < d) :
    UnitSteps fun x => x * n / d where
  zero := by rw [Nat.zero_mul, Nat.zero_div]
  monotone _ _ less := Nat.div_le_div_right (Nat.mul_le_mul_right n less)
  step x := by
    calc (x + 1) * n / d ≤ (x * n + d) / d :=
          Nat.div_le_div_right (by rw [Nat.succ_mul]; exact Nat.add_le_add_left le _)
      _ = x * n / d + 1 := Nat.add_div_right _ positive

end LeastPreimage
