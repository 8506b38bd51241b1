/-
**Splitting an amount, and combining many.**

An amount is encrypted in two parts, of its low bits and of the rest. The prover splits it with
shifts, the processor of deposits with a mask and a shift, and the client combines what many credits
have added up to with a shift and an addition.

* `verifyAndSplitDepositAmount_eq_ok_iff` — what the processor splits, and into what.
* `sum_combine` — the sums of the parts are the parts of the sum.
* **`amount_splitting`** — the three agree.
-/

import Mathlib.Algebra.BigOperators.Group.List.Basic
import Token2022.Confidential.Client
import Token2022.Confidential.Generation
import Token2022.Processor.ConfidentialTransfer

namespace Token2022

open Fallible Ristretto

/-- **The processor splits the amounts below `2 ^ 48`**, into sixteen bits and the rest. -/
theorem verifyAndSplitDepositAmount_eq_ok_iff {amount : ℕ} {parts : ℕ × ℕ} :
    verifyAndSplitDepositAmount amount = .ok parts ↔
      amount < 2 ^ 48 ∧ parts = (amount % 2 ^ 16, amount / 2 ^ 16) := by
  have bound : amount ≤ maximumDepositTransferAmount ↔ amount < 2 ^ 48 := by
    rw [maximumDepositTransferAmount]
    omega
  simp only [verifyAndSplitDepositAmount, require_bind_eq_ok_iff, bound, Except.ok.injEq]
  exact and_congr_right fun _ => eq_comm

/-- **The sums of the parts are the parts of the sum.** -/
theorem sum_combine {amounts : List ℕ} {parts : List (ℕ × ℕ)}
    (split : List.Forall₂ (fun amount part => part.1 + 2 ^ 16 * part.2 = amount) amounts parts) :
    (parts.map Prod.fst).sum + 2 ^ 16 * (parts.map Prod.snd).sum = amounts.sum := by
  induction split with
  | nil => rfl
  | @cons amount part amounts parts one _ ih =>
    simp only [List.map_cons, List.sum_cons]
    omega

/-- **Amounts are split in the same way everywhere.** The prover splits each `u64` at each bit below
64 into what lies below the bit and what does not; the processor of deposits splits exactly the
amounts below `2 ^ 48`, and as the prover does at the bit 16; and what the processor splits, in any
number of credits that total less than `2 ^ 64`, the client combines to the total. -/
theorem amount_splitting :
    (∀ amount bitLength : ℕ, amount < 2 ^ 64 → bitLength < 64 →
      ∃ lo hi, trySplitU64 amount bitLength = some (lo, hi) ∧ lo < 2 ^ bitLength ∧
        lo + 2 ^ bitLength * hi = amount) ∧
    (∀ amount : ℕ, amount < 2 ^ 64 →
      ((∃ parts, verifyAndSplitDepositAmount amount = .ok parts) ↔ amount < 2 ^ 48) ∧
      ∀ parts, verifyAndSplitDepositAmount amount = .ok parts →
        trySplitU64 amount 16 = some parts) ∧
    ∀ (amounts : List ℕ) (parts : List (ℕ × ℕ)),
      List.Forall₂ (fun amount part => verifyAndSplitDepositAmount amount = .ok part) amounts
        parts → amounts.sum < 2 ^ 64 →
      combineBalances (parts.map Prod.fst).sum (parts.map Prod.snd).sum = some amounts.sum := by
  refine ⟨fun amount bitLength _ small => ?_, fun amount _ => ⟨?_, ?_⟩,
    fun amounts parts split fits => ?_⟩
  · exact ⟨_, _, trySplitU64_eq amount small, Nat.mod_lt _ (Nat.two_pow_pos _),
      Nat.mod_add_div _ _⟩
  · simp only [verifyAndSplitDepositAmount_eq_ok_iff, exists_and_left, exists_eq, and_true]
  · rintro parts split
    obtain ⟨-, rfl⟩ := verifyAndSplitDepositAmount_eq_ok_iff.mp split
    exact trySplitU64_sixteen amount
  · have total := sum_combine (split.imp fun amount part split => by
      obtain ⟨-, rfl⟩ := verifyAndSplitDepositAmount_eq_ok_iff.mp split
      exact Nat.mod_add_div amount (2 ^ 16))
    rw [← total] at fits ⊢
    exact combineBalances_eq fits

/-- Two deposits of 65535 and one of 65537 have low parts beyond sixteen bits together. -/
theorem amount_splitting_three :
    combineBalances (65535 + 65535 + 1) 1 = some (65535 + 65535 + 65537) :=
  amount_splitting.2.2 [65535, 65535, 65537] [(65535, 0), (65535, 0), (1, 1)]
    (.cons rfl (.cons rfl (.cons rfl .nil))) (by decide)

end Token2022
