/-
**What movements do to the tokens of a holding.**

The tokens of a holding are natural numbers; an encrypted balance counts by its plaintexts, which
are scalars. Below `2 ^ 64` the two arithmetics agree.

* `SpendsEncrypted.value`, `ReceivesEncrypted.value`, `ReceivesEncryptedWithFee.value` — a
  confidential movement takes and gives what its amount stands for.
* `value_deposit`, `value_withdraw`, `value_applyPending` — movements within a holding.
-/

import Token2022.Abstract.Effect

namespace Token2022

/-! ### Scalars -/

theorem val_lt_groupOrder_of_lt {n : ℕ} (small : n < 2 ^ 64) : n < groupOrder :=
  small.trans u64_lt_groupOrder

/-- Two small scalars add as integers. -/
theorem val_add_of_small {a b : Scalar} (smallA : a.val < 2 ^ 64) (smallB : b.val < 2 ^ 64) :
    (a + b).val = a.val + b.val :=
  val_add_of_lt (lt_trans (add_lt_add smallA smallB) (by decide))

/-- The plaintext of a small amount. -/
theorem val_natCast_of_small {n : ℕ} (small : n < 2 ^ 64) : ((n : ℕ) : Scalar).val = n :=
  val_natCast_of_lt (val_lt_groupOrder_of_lt small)

/-- An amount is its low part and its high part. -/
theorem pendingTotal_split (n : ℕ) :
    pendingTotal ((n % 2 ^ 16 : ℕ) : Scalar) ((n / 2 ^ 16 : ℕ) : Scalar) = (n : Scalar) := by
  have split : n % 2 ^ 16 + 2 ^ 16 * (n / 2 ^ 16) = n := Nat.mod_add_div n (2 ^ 16)
  calc pendingTotal ((n % 2 ^ 16 : ℕ) : Scalar) ((n / 2 ^ 16 : ℕ) : Scalar)
      = ((n % 2 ^ 16 + 2 ^ 16 * (n / 2 ^ 16) : ℕ) : Scalar) := by
        unfold pendingTotal pendingBalanceLoBitLength
        push_cast
        rfl
    _ = (n : Scalar) := by rw [split]

/-! ### The value of a holding -/

namespace Holding

theorem balance_of_encrypted {h : Holding} {e : EncryptedBalance} (held : h.encrypted = some e) :
    h.balance = e := by
  rw [balance, held]
  rfl

theorem balance_of_none {h : Holding} (none : h.encrypted = none) : h.balance = 0 := by
  rw [balance, none]
  rfl

/-- The tokens of a holding, place by place. -/
theorem value_eq {h : Holding} {e : EncryptedBalance} (held : h.encrypted = some e) :
    h.value = h.base.amount + (e.available.val + e.pending.val) +
      (h.withheld.getD 0 + (h.encryptedWithheld.getD 0).val) := by
  rw [value, funds, balance_of_encrypted held]
  rfl

theorem fees_le_value (h : Holding) : h.fees ≤ h.value := Nat.le_add_left _ _

theorem funds_le_value (h : Holding) : h.funds ≤ h.value := Nat.le_add_right _ _

theorem amount_le_value (h : Holding) : h.base.amount ≤ h.value :=
  (Nat.le_add_right _ _).trans h.funds_le_value

end Holding

/-! ### Confidential movements -/

/-- **What is spent is what the amount stands for.** -/
theorem SpendsEncrypted.value {i : Invocation} {h h' : Holding} {m : Address} {lo hi : Scalar}
    (spends : SpendsEncrypted i h h' m lo hi) : h.value = h'.value + (pendingTotal lo hi).val := by
  obtain ⟨e, remaining, encrypted, moved, bounded, rfl⟩ := spends.moved
  have small : (pendingTotal lo hi).val < 2 ^ 64 := spends.split.val_total.2.trans (by decide)
  have sum : e.available.val = remaining.val + (pendingTotal lo hi).val := by
    rw [moved, val_add_of_small bounded small]
  rw [Holding.value_eq encrypted, Holding.value_eq rfl, sum]
  simp only [EncryptedBalance.pending]
  omega

/-- **What is received is what the amount stands for.** -/
theorem ReceivesEncrypted.value {h h' : Holding} {m : Address} {lo hi : Scalar}
    (receives : ReceivesEncrypted h h' m lo hi) (small : h.value < 2 ^ 64) :
    h'.value = h.value + (pendingTotal lo hi).val := by
  obtain ⟨e, encrypted, rfl⟩ := receives.moved
  rw [Holding.value_eq encrypted] at small
  have sum : (pendingTotal (e.pendingLo + lo) (e.pendingHi + hi)).val =
      e.pending.val + (pendingTotal lo hi).val := by
    rw [pendingTotal_add]
    show (e.pending + pendingTotal lo hi).val = _
    exact val_add_of_small (by omega) (receives.split.val_total.2.trans (by decide))
  rw [Holding.value_eq encrypted, Holding.value_eq rfl]
  simp only [EncryptedBalance.pending] at sum ⊢
  rw [sum]
  omega

/-- **What is received with a fee is what the amount stands for**, the fee in its own place. -/
theorem ReceivesEncryptedWithFee.value {h h' : Holding} {m : Address} {lo hi feeLo feeHi : Scalar}
    (receives : ReceivesEncryptedWithFee h h' m lo hi feeLo feeHi) (small : h.value < 2 ^ 64) :
    h'.value = h.value + (pendingTotal lo hi).val := by
  obtain ⟨e, w, encrypted, withheld, rfl⟩ := receives.moved
  rw [Holding.value_eq encrypted, withheld, Option.getD_some] at small
  have amountSmall := receives.split.val_total.2
  have feeSmall := receives.fee.val_total.2
  have le := receives.fee_le
  have before : (e.pending + pendingTotal lo hi).val = e.pending.val + (pendingTotal lo hi).val :=
    val_add_of_small (by omega) (amountSmall.trans (by decide))
  have pending : (pendingTotal (e.pendingLo + lo - feeLo) (e.pendingHi + hi - feeHi)).val =
      e.pending.val + (pendingTotal lo hi).val - (pendingTotal feeLo feeHi).val := by
    rw [pendingTotal_sub, pendingTotal_add]
    show (e.pending + pendingTotal lo hi - pendingTotal feeLo feeHi).val = _
    rw [val_sub_of_le (by omega), before]
  have fees : (w + pendingTotal feeLo feeHi).val = w.val + (pendingTotal feeLo feeHi).val :=
    val_add_of_small (by omega) (feeSmall.trans (by decide))
  rw [Holding.value_eq encrypted, Holding.value_eq rfl, withheld, Option.getD_some,
    Option.getD_some, fees]
  simp only [EncryptedBalance.pending] at pending before ⊢
  rw [pending]
  omega

/-- What is received with a fee leaves the holder no less than before. -/
theorem ReceivesEncryptedWithFee.funds_le {h h' : Holding} {m : Address}
    {lo hi feeLo feeHi : Scalar} (receives : ReceivesEncryptedWithFee h h' m lo hi feeLo feeHi)
    (small : h.value < 2 ^ 64) : h.funds ≤ h'.funds := by
  have value := receives.value small
  have le := receives.fee_le
  have feeSmall := receives.fee.val_total.2
  obtain ⟨e, w, encrypted, withheld, rfl⟩ := receives.moved
  have fees : (w + pendingTotal feeLo feeHi).val = w.val + (pendingTotal feeLo feeHi).val := by
    refine val_add_of_small ?_ (feeSmall.trans (by decide))
    have part := h.fees_le_value
    rw [Holding.fees, withheld, Option.getD_some] at part
    omega
  simp only [Holding.value, Holding.fees, withheld, Option.getD_some, fees] at value
  omega

/-! ### Movements within a holding -/

/-- **A deposit keeps the tokens of a holding.** -/
theorem value_deposit {h : Holding} {e : EncryptedBalance} {n : ℕ} (encrypted : h.encrypted = some e)
    (enough : n ≤ h.base.amount) (bounded : n < 2 ^ 48) (small : h.value < 2 ^ 64) :
    ({ h.withAmount (h.base.amount - n) with
      encrypted := some { e with
        pendingLo := e.pendingLo + ((n % 2 ^ 16 : ℕ) : Scalar)
        pendingHi := e.pendingHi + ((n / 2 ^ 16 : ℕ) : Scalar) } } : Holding).value = h.value := by
  rw [Holding.value_eq encrypted] at small
  have pending : (pendingTotal (e.pendingLo + ((n % 2 ^ 16 : ℕ) : Scalar))
      (e.pendingHi + ((n / 2 ^ 16 : ℕ) : Scalar))).val = e.pending.val + n := by
    have cast : ((n : ℕ) : Scalar).val = n := val_natCast_of_small (bounded.trans (by decide))
    rw [pendingTotal_add, pendingTotal_split]
    show (e.pending + (n : Scalar)).val = _
    rw [val_add_of_small (by omega) (by rw [cast]; omega), cast]
  rw [Holding.value_eq rfl, Holding.value_eq encrypted]
  simp only [EncryptedBalance.pending, Holding.withAmount] at pending ⊢
  rw [pending]
  omega

/-- **A withdrawal keeps the tokens of a holding.** -/
theorem value_withdraw {h : Holding} {e : EncryptedBalance} {n : ℕ} {remaining : Scalar}
    (encrypted : h.encrypted = some e) (moved : e.available = remaining + (n : Scalar))
    (bounded : remaining.val < 2 ^ 64) (small : n < 2 ^ 64) :
    ({ h.withAmount (h.base.amount + n) with
      encrypted := some { e with available := remaining } } : Holding).value = h.value := by
  have cast : ((n : ℕ) : Scalar).val = n := val_natCast_of_small small
  have available : e.available.val = remaining.val + n := by
    rw [moved, val_add_of_small bounded (by omega), cast]
  rw [Holding.value_eq rfl, Holding.value_eq encrypted, available]
  simp only [EncryptedBalance.pending, Holding.withAmount]
  omega

/-- **Applying the pending balance keeps the tokens of a holding.** -/
theorem value_applyPending {h : Holding} {e : EncryptedBalance} (encrypted : h.encrypted = some e)
    (small : h.value < 2 ^ 64) :
    ({ h with encrypted := some ⟨e.available + e.pending, 0, 0⟩ } : Holding).value = h.value := by
  rw [Holding.value_eq encrypted] at small
  have sum : (e.available + e.pending).val = e.available.val + e.pending.val :=
    val_add_of_small (by omega) (by omega)
  rw [Holding.value_eq rfl, Holding.value_eq encrypted]
  simp only [EncryptedBalance.pending, pendingTotal_zero, ZMod.val_zero] at sum ⊢
  rw [sum]
  omega

end Token2022
