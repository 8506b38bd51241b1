/-
**Sums of a weight over a finite family, and point updates.**

A quantity that a store holds in total is the sum, over its locations, of a weight of the content;
a write changes one term.

* **`total_update`** — one write: the new total plus the old term is the old total plus the new one.
* `weight_le_total` — a term is below the total.
* `total_eq_zero_iff` — a total of naturals is zero iff every term is.
-/

import Mathlib.Algebra.BigOperators.Group.Finset.Basic
import Mathlib.Algebra.Order.BigOperators.Group.Finset
import Mathlib.Data.Fintype.BigOperators

namespace WeightedSum

section Total

variable {ι α : Type*} [Fintype ι]

/-- The total weight of the family `f`. -/
def total (w : α → ℕ) (f : ι → α) : ℕ := ∑ i, w (f i)

theorem total_congr {w : α → ℕ} {f g : ι → α} (same : ∀ i, w (f i) = w (g i)) :
    total w f = total w g := Finset.sum_congr rfl fun i _ => same i

theorem weight_le_total (w : α → ℕ) (f : ι → α) (i : ι) : w (f i) ≤ total w f :=
  Finset.single_le_sum (f := fun j => w (f j)) (fun _ _ => Nat.zero_le _) (Finset.mem_univ i)

theorem total_eq_zero_iff {w : α → ℕ} {f : ι → α} : total w f = 0 ↔ ∀ i, w (f i) = 0 := by
  simp [total, Finset.sum_eq_zero_iff]

end Total

section Update

variable {ι α : Type*} [Fintype ι] [DecidableEq ι]

/-- **One write moves the total by the difference of the two weights.** -/
theorem total_update (w : α → ℕ) (f : ι → α) (i : ι) (a : α) :
    total w (Function.update f i a) + w (f i) = total w f + w a := by
  unfold total
  rw [← Finset.add_sum_erase _ _ (Finset.mem_univ i),
    ← Finset.add_sum_erase (f := fun j => w (f j)) _ (Finset.mem_univ i)]
  have rest : ∑ j ∈ Finset.univ.erase i, w (Function.update f i a j) =
      ∑ j ∈ Finset.univ.erase i, w (f j) := by
    refine Finset.sum_congr rfl fun j member => ?_
    rw [Function.update_of_ne (Finset.ne_of_mem_erase member)]
  rw [rest, Function.update_self]
  omega

end Update

end WeightedSum
