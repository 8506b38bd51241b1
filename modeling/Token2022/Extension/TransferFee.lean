/-
**The fee of a transfer, and the amount to send for a given rest.**

* `calculatePostFeeAmount`, `calculatePreFeeAmount`, `calculateInverseFee` — what is left of an
  amount, the amount that leaves it, and the fee on that one, in checked arithmetic.
* `calculateFee_eq`, `calculatePostFeeAmount_eq`, `calculatePreFeeAmount_eq` — no intermediate step
  overflows: the code computes a capped levy, its rest and the least amount with that rest.
* **`calculatePreFeeAmount_exact`** — the pre-fee amount is the least amount with the post-fee
  amount, and is missing iff there is none.
* **`inverse_fee_bounds`** — the fee is monotone and within the amount, and the inverse fee is below
  it by less than `10000 / (10000 - bps)`.
-/

import Token2022.Lib.Levy
import Token2022.Processor.Token

namespace Token2022

open Fallible LeastPreimage Levy

namespace TransferFee

/-! ### The interface functions -/

/-- `calculate_post_fee_amount`. -/
def calculatePostFeeAmount (fee : TransferFee) (preFeeAmount : ℕ) : Option ℕ := do
  let due ← fee.calculateFee preFeeAmount
  checkedSub preFeeAmount due

/-- `calculate_pre_fee_amount`. -/
def calculatePreFeeAmount (fee : TransferFee) (postFeeAmount : ℕ) : Option ℕ :=
  if fee.transferFeeBasisPoints = 0 then some postFeeAmount
  else if postFeeAmount = 0 then some 0
  else if fee.transferFeeBasisPoints = 10000 then
    checkedAdd (2 ^ 64) fee.maximumFee postFeeAmount
  else do
    let numerator := postFeeAmount * 10000
    if numerator < 2 ^ 128 then
      let denominator ← checkedSub 10000 fee.transferFeeBasisPoints
      let rawPreFeeAmount ← ceilDiv numerator denominator
      let raised ← checkedSub rawPreFeeAmount postFeeAmount
      if fee.maximumFee ≤ raised then checkedAdd (2 ^ 64) postFeeAmount fee.maximumFee
      else if rawPreFeeAmount < 2 ^ 64 then some rawPreFeeAmount else none
    else none

/-- `calculate_inverse_fee`. -/
def calculateInverseFee (fee : TransferFee) (postFeeAmount : ℕ) : Option ℕ := do
  let preFeeAmount ← fee.calculatePreFeeAmount postFeeAmount
  fee.calculateFee preFeeAmount

/-! ### No step overflows -/

variable {fee : TransferFee}

/-- The fee that the amount owes. -/
def levyOn (fee : TransferFee) (amount : ℕ) : ℕ :=
  levy fee.transferFeeBasisPoints 10000 fee.maximumFee amount

/-- The least amount that leaves the post-fee amount, of any size. -/
def leastPreFee (fee : TransferFee) (postFeeAmount : ℕ) : ℕ :=
  if postFeeAmount = 0 then 0
  else if fee.transferFeeBasisPoints = 10000 then postFeeAmount + fee.maximumFee
  else gross fee.transferFeeBasisPoints 10000 fee.maximumFee postFeeAmount

theorem ceilDiv_eq {numerator denominator : ℕ} (positive : 0 < denominator)
    (fits : numerator + denominator < 2 ^ 128) :
    ceilDiv numerator denominator = some (numerator ⌈/⌉ denominator) := by
  have sum : checkedAdd (2 ^ 128) numerator denominator = some (numerator + denominator) :=
    checkedAdd_eq_some_iff.2 ⟨fits, rfl⟩
  have less : checkedSub (numerator + denominator) 1 = some (numerator + denominator - 1) :=
    checkedSub_eq_some_iff.2 ⟨by omega, rfl⟩
  simp only [ceilDiv, sum, less, Option.bind_eq_bind, Option.bind_some, if_neg positive.ne']
  rw [Nat.ceilDiv_eq_add_pred_div]

/-- **The fee is a levy of `bps` parts in 10000, capped.** -/
theorem calculateFee_eq (bpsLe : fee.transferFeeBasisPoints ≤ 10000) {amount : ℕ}
    (amountLt : amount < 2 ^ 64) : fee.calculateFee amount = some (fee.levyOn amount) := by
  unfold calculateFee
  split
  · rename_i free
    have nothing : amount * fee.transferFeeBasisPoints = 0 := by
      rcases free with free | free <;> rw [free]
      · exact Nat.mul_zero _
      · exact Nat.zero_mul _
    rw [levyOn, levy, nothing, zero_ceilDiv, Nat.zero_min]
  · have numeratorLe : amount * fee.transferFeeBasisPoints ≤ amount * 10000 :=
      Nat.mul_le_mul_left amount bpsLe
    have rawFee := ceilDiv_eq (by norm_num : 0 < 10000)
      (by omega : amount * fee.transferFeeBasisPoints + 10000 < 2 ^ 128)
    have rawFeeLe : (amount * fee.transferFeeBasisPoints) ⌈/⌉ 10000 ≤ amount := by
      rw [ceilDiv_le_iff_le_mul (by norm_num), mul_comm 10000]
      exact numeratorLe
    simp only [if_pos (by omega : amount * fee.transferFeeBasisPoints < 2 ^ 128), rawFee,
      Option.bind_eq_bind, Option.bind_some, if_pos (rawFeeLe.trans_lt amountLt)]
    rfl

theorem levyOn_le (bpsLe : fee.transferFeeBasisPoints ≤ 10000) (amount : ℕ) :
    fee.levyOn amount ≤ amount := levy_le bpsLe (by norm_num) amount

/-- The rest is the amount less the levy. -/
theorem calculatePostFeeAmount_eq (bpsLe : fee.transferFeeBasisPoints ≤ 10000) {amount : ℕ}
    (amountLt : amount < 2 ^ 64) :
    fee.calculatePostFeeAmount amount = some (amount - fee.levyOn amount) := by
  rw [calculatePostFeeAmount, calculateFee_eq bpsLe amountLt, Option.bind_eq_bind,
    Option.bind_some, checkedSub_eq_some_iff]
  exact ⟨levyOn_le bpsLe amount, rfl⟩

/-- **`leastPreFee` is the least amount, of any size, that leaves the rest.** -/
theorem leastPreFee_isLeast (bpsLe : fee.transferFeeBasisPoints ≤ 10000) (rest : ℕ) :
    IsLeast {amount | amount - fee.levyOn amount = rest} (fee.leastPreFee rest) := by
  unfold leastPreFee
  split
  · rename_i nothing
    rw [nothing]
    exact zero_isLeast bpsLe (by norm_num)
  · rename_i something
    have positive : 0 < rest := Nat.pos_of_ne_zero something
    split
    · rename_i full
      have least : IsLeast {amount | net 10000 10000 fee.maximumFee amount = rest}
          (rest + fee.maximumFee) := gross_isLeast_of_full (by norm_num) positive
      simpa only [levyOn, net, full] using least
    · rename_i notFull
      exact gross_isLeast (lt_of_le_of_ne bpsLe notFull) positive

/-- Scaling up does not make an amount smaller. -/
theorem le_scaled {bps : ℕ} (less : bps < 10000) (rest : ℕ) :
    rest ≤ (rest * 10000) ⌈/⌉ (10000 - bps) := by
  have positive : 0 < 10000 - bps := Nat.sub_pos_of_lt less
  have covers : rest * 10000 ≤ (10000 - bps) * ((rest * 10000) ⌈/⌉ (10000 - bps)) :=
    le_smul_ceilDiv positive
  have part : (10000 - bps) * rest ≤ rest * 10000 := by
    rw [mul_comm]
    exact Nat.mul_le_mul_left rest (Nat.sub_le 10000 bps)
  exact Nat.le_of_mul_le_mul_left (part.trans covers) positive

/-- **The pre-fee amount is the least amount that leaves the rest, where it fits 64 bits.** -/
theorem calculatePreFeeAmount_eq (bpsLe : fee.transferFeeBasisPoints ≤ 10000) {rest : ℕ}
    (restLt : rest < 2 ^ 64) :
    fee.calculatePreFeeAmount rest =
      if fee.leastPreFee rest < 2 ^ 64 then some (fee.leastPreFee rest) else none := by
  unfold calculatePreFeeAmount leastPreFee
  by_cases free : fee.transferFeeBasisPoints = 0
  · have unchanged : (rest * 10000) ⌈/⌉ 10000 = rest := by
      rw [mul_comm, ← smul_eq_mul, smul_ceilDiv (by norm_num)]
    have same : (if rest = 0 then 0 else rest) = rest := ite_eq_right_iff.2 Eq.symm
    rw [if_pos free, if_neg (free ▸ by norm_num : fee.transferFeeBasisPoints ≠ 10000), gross, free,
      Nat.sub_zero, unchanged, Nat.min_eq_left (Nat.le_add_right _ _), same, if_pos restLt]
  rw [if_neg free]
  by_cases nothing : rest = 0
  · rw [if_pos nothing, if_pos nothing, if_pos (by norm_num)]
  rw [if_neg nothing, if_neg nothing]
  by_cases full : fee.transferFeeBasisPoints = 10000
  · rw [if_pos full, if_pos full, Nat.add_comm, checkedAdd, Nat.add_comm]
  rw [if_neg full, if_neg full]
  have less : fee.transferFeeBasisPoints < 10000 := lt_of_le_of_ne bpsLe full
  have denominator : checkedSub 10000 fee.transferFeeBasisPoints =
      some (10000 - fee.transferFeeBasisPoints) := checkedSub_eq_some_iff.2 ⟨bpsLe, rfl⟩
  have raw := ceilDiv_eq (Nat.sub_pos_of_lt less)
    (by omega : rest * 10000 + (10000 - fee.transferFeeBasisPoints) < 2 ^ 128)
  have raised := checkedSub_eq_some_iff.2 ⟨le_scaled less rest, rfl⟩
  simp only [if_pos (by omega : rest * 10000 < 2 ^ 128), denominator, raw, raised,
    Option.bind_eq_bind, Option.bind_some, checkedAdd]
  have more := le_scaled less rest
  by_cases capped :
      fee.maximumFee ≤ (rest * 10000) ⌈/⌉ (10000 - fee.transferFeeBasisPoints) - rest
  · have topped : gross fee.transferFeeBasisPoints 10000 fee.maximumFee rest =
        rest + fee.maximumFee := Nat.min_eq_right (by omega)
    rw [if_pos capped, topped]
  · have scaled : gross fee.transferFeeBasisPoints 10000 fee.maximumFee rest =
        (rest * 10000) ⌈/⌉ (10000 - fee.transferFeeBasisPoints) := Nat.min_eq_left (by omega)
    rw [if_neg capped, scaled]

/-! ### The inverse is exact -/

/-- **The pre-fee amount is the least 64-bit amount with the given post-fee amount, and there is
none iff no 64-bit amount has it.** -/
theorem calculatePreFeeAmount_exact (fee : TransferFee)
    (bpsLe : fee.transferFeeBasisPoints ≤ 10000) (y : ℕ) (yLt : y < 2 ^ 64) :
    (∀ x, fee.calculatePreFeeAmount y = some x ↔
      IsLeast {x | x < 2 ^ 64 ∧ fee.calculatePostFeeAmount x = some y} x) ∧
    (fee.calculatePreFeeAmount y = none ↔
      ∀ x < 2 ^ 64, fee.calculatePostFeeAmount x ≠ some y) := by
  have least := leastPreFee_isLeast bpsLe y
  have leaves : ∀ x < 2 ^ 64, fee.calculatePostFeeAmount x = some y ↔ x - fee.levyOn x = y := by
    intro x xLt
    rw [calculatePostFeeAmount_eq bpsLe xLt, Option.some_inj]
  rw [calculatePreFeeAmount_eq bpsLe yLt]
  by_cases fits : fee.leastPreFee y < 2 ^ 64
  · have bounded : IsLeast {x | x < 2 ^ 64 ∧ fee.calculatePostFeeAmount x = some y}
        (fee.leastPreFee y) := by
      refine ⟨⟨fits, (leaves _ fits).2 least.1⟩, ?_⟩
      rintro x ⟨xLt, value⟩
      exact least.2 ((leaves x xLt).1 value)
    rw [if_pos fits]
    refine ⟨fun x => ⟨?_, ?_⟩, ?_⟩
    · intro same
      exact Option.some_inj.1 same ▸ bounded
    · intro other
      exact congrArg some (bounded.unique other)
    · exact iff_of_false nofun fun missing => missing _ fits ((leaves _ fits).2 least.1)
  · have missing : ∀ x < 2 ^ 64, fee.calculatePostFeeAmount x ≠ some y := by
      intro x xLt value
      exact fits ((least.2 ((leaves x xLt).1 value)).trans_lt xLt)
    rw [if_neg fits]
    refine ⟨fun x => iff_of_false nofun ?_, iff_of_true rfl missing⟩
    rintro ⟨⟨xLt, value⟩, -⟩
    exact missing x xLt value

/-- A fee of a tenth, at most 1000: 10 and 11 both leave 9, and 10 is the pre-fee amount. -/
theorem calculatePreFeeAmount_exact_tenth :
    IsLeast {x | x < 2 ^ 64 ∧ calculatePostFeeAmount ⟨0, 1000, 1000⟩ x = some 9} 10 :=
  ((calculatePreFeeAmount_exact ⟨0, 1000, 1000⟩ (by decide) 9 (by decide)).1 10).1 (by decide)

/-! ### Bounds -/

/-- **The fee is the capped share of the amount; it and the rest grow with the amount; and the fee
found from the rest is a fixed point below it by less than `10000 / (10000 - bps)`.** -/
theorem inverse_fee_bounds (fee : TransferFee) (bpsLe : fee.transferFeeBasisPoints ≤ 10000)
    (x : ℕ) (xLt : x < 2 ^ 64) :
    ∃ f g, fee.calculateFee x = some f ∧
      f = min ((x * fee.transferFeeBasisPoints) ⌈/⌉ 10000) fee.maximumFee ∧ f ≤ x ∧
      (∀ x' f', x ≤ x' → x' < 2 ^ 64 → fee.calculateFee x' = some f' →
        f ≤ f' ∧ x - f ≤ x' - f') ∧
      fee.calculateInverseFee (x - f) = some g ∧ g ≤ f ∧
      x - f + g < 2 ^ 64 ∧ fee.calculateFee (x - f + g) = some g ∧
      (fee.transferFeeBasisPoints < 10000 →
        (f - g) * (10000 - fee.transferFeeBasisPoints) < 10000) := by
  have least := leastPreFee_isLeast bpsLe (x - fee.levyOn x)
  have leastLe : fee.leastPreFee (x - fee.levyOn x) ≤ x := least.2 rfl
  have leastLt := leastLe.trans_lt xLt
  have within := levyOn_le bpsLe (fee.leastPreFee (x - fee.levyOn x))
  have xWithin := levyOn_le bpsLe x
  have sameRest : fee.leastPreFee (x - fee.levyOn x) -
      fee.levyOn (fee.leastPreFee (x - fee.levyOn x)) = x - fee.levyOn x := least.1
  have sum : x - fee.levyOn x + fee.levyOn (fee.leastPreFee (x - fee.levyOn x)) =
      fee.leastPreFee (x - fee.levyOn x) := by omega
  refine ⟨fee.levyOn x, fee.levyOn (fee.leastPreFee (x - fee.levyOn x)),
    calculateFee_eq bpsLe xLt, rfl, xWithin, ?_, ?_, levy_monotone (by norm_num) leastLe,
    sum.trans_lt leastLt, ?_, ?_⟩
  · intro x' f' le x'Lt due
    rw [calculateFee_eq bpsLe x'Lt, Option.some_inj] at due
    subst due
    exact ⟨levy_monotone (by norm_num) le, (net_unitSteps bpsLe (by norm_num)).monotone le⟩
  · rw [calculateInverseFee, calculatePreFeeAmount_eq bpsLe (by omega), if_pos leastLt,
      Option.bind_eq_bind, Option.bind_some, calculateFee_eq bpsLe leastLt]
  · rw [sum, calculateFee_eq bpsLe leastLt]
  · intro _
    have excess := excess_mul_lt bpsLe (by norm_num) least
    have difference : fee.levyOn x - fee.levyOn (fee.leastPreFee (x - fee.levyOn x)) =
        x - fee.leastPreFee (x - fee.levyOn x) := by omega
    rw [difference]
    exact excess

/-- A fee of a tenth on 11 is 2, and the fee found from the rest 9 is 1. -/
theorem inverse_fee_bounds_tenth :
    ∃ f g, calculateFee ⟨0, 1000, 1000⟩ 11 = some f ∧
      calculateInverseFee ⟨0, 1000, 1000⟩ (11 - f) = some g ∧ g ≤ f := by
  obtain ⟨f, g, due, -, -, -, inverse, le, -⟩ :=
    inverse_fee_bounds ⟨0, 1000, 1000⟩ (by decide) 11 (by decide)
  exact ⟨f, g, due, inverse, le⟩

end TransferFee

end Token2022
