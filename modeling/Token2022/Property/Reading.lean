/-
**What the statements read off the accounts.**

The statements about the program speak of its accounts and mints as a ledger has them; the book
keeps the same quantities under its own names.

* `withheldAmount`, `availableBalance`, `pendingBalance` — of a token account; zero where it does not
  have the extension.
* `Ledger.sumAccounts` — a quantity summed over the token accounts of a mint.
* **`run_account`**, **`run_mint`** — what a successful instruction does to a token account, to a
  mint.
* **`Ledger.total_heldOf`** — the sum of what its accounts hold is what the book holds of the mint.
-/

import Token2022.Abstract.Reading
import Token2022.Invariant.Conservation

namespace Token2022

open LabelledRun WeightedSum

/-! ### Token accounts -/

namespace StateWithExtensions

section Account

variable (st : TokenAccountState)

/-- `TransferFeeAmount.withheld_amount`. -/
def withheldAmount : ℕ :=
  ((st.get .transferFeeAmount).map TransferFeeAmount.withheldAmount).getD 0

/-- The plaintext of `available_balance`. -/
def availableBalance : Scalar :=
  ((st.get .confidentialTransferAccount).map
    ConfidentialTransferAccount.availableBalance).getD 0

/-- The plaintext of `pending_balance_lo + 2^16 * pending_balance_hi`. -/
def pendingBalance : Scalar :=
  ((st.get .confidentialTransferAccount).map
    fun e => pendingTotal e.pendingBalanceLo e.pendingBalanceHi).getD 0

/-- The plaintext of `ConfidentialTransferFeeAmount.withheld_amount`. -/
def confidentialWithheldAmount : Scalar :=
  ((st.get .confidentialTransferFeeAmount).map
    ConfidentialTransferFeeAmount.withheldAmount).getD 0

/-- The confidential balances, as integers below the order of the group. -/
def confidentialBalance : ℕ := st.availableBalance.val + st.pendingBalance.val

theorem available_holding : st.holding.balance.available = st.availableBalance := by
  unfold Holding.balance availableBalance
  rw [encrypted_holding]
  cases st.get .confidentialTransferAccount <;> rfl

theorem pending_holding : st.holding.balance.pending = st.pendingBalance := by
  unfold Holding.balance pendingBalance
  rw [encrypted_holding]
  cases st.get .confidentialTransferAccount with
  | none => exact EncryptedBalance.pending_zero
  | some e => rfl

theorem balance_holding : st.holding.balance.value = st.confidentialBalance := by
  rw [EncryptedBalance.value, available_holding, pending_holding]
  rfl

theorem encryptedWithheld_getD_holding :
    st.holding.encryptedWithheld.getD 0 = st.confidentialWithheldAmount := rfl

theorem plain_holding : st.holding.plain = st.base.amount + st.withheldAmount := rfl

/-- The tokens of an account, place by place. -/
theorem value_holding : st.holding.value = st.base.amount + st.withheldAmount +
    (st.confidentialBalance + st.confidentialWithheldAmount.val) := by
  rw [Holding.value_eq_plain, plain_holding, balance_holding, encryptedWithheld_getD_holding]

end Account

section Mint

variable (st : MintState)

/-- `TransferFeeConfig.withheld_amount`. -/
def mintWithheldAmount : ℕ :=
  ((st.get .transferFeeConfig).map TransferFeeConfig.withheldAmount).getD 0

/-- The plaintext of `ConfidentialTransferFeeConfig.withheld_amount`. -/
def mintConfidentialWithheldAmount : Scalar :=
  ((st.get .confidentialTransferFeeConfig).map
    ConfidentialTransferFeeConfig.withheldAmount).getD 0

theorem retained_issuance :
    st.issuance.retained = st.mintWithheldAmount + st.mintConfidentialWithheldAmount.val := rfl

end Mint

end StateWithExtensions

/-! ### Sums over the accounts of a mint -/

namespace Ledger

variable {L : Ledger} {m : Address}

/-- A quantity of the token accounts of the mint at `m`, summed over them. -/
def sumAccounts (L : Ledger) (m : Address) (quantity : TokenAccountState → ℕ) : ℕ :=
  ∑ a : Address, match L.account? a with
    | some st => if st.base.mint = m then quantity st else 0
    | none => 0

/-- The slot of a ledger that has no token account there. -/
theorem heldOf_eq_zero {a : Address} (none : L.account? a = none) : (L.book.slot a).heldOf m = 0 := by
  cases slot : L.book.slot a with
  | holding h =>
    obtain ⟨st, held, -⟩ := slot_holding_iff.mp slot
    simp [none] at held
  | _ => rfl

/-- **What the book holds of a mint** is summed over the accounts. -/
theorem total_heldOf (L : Ledger) (m : Address) :
    total (Slot.heldOf m) L.book.slot = L.sumAccounts m fun st => st.holding.value := by
  refine Finset.sum_congr rfl fun a _ => ?_
  cases held : L.account? a with
  | none => exact heldOf_eq_zero held
  | some st =>
    rw [slot_holding_iff.mpr ⟨st, held, rfl⟩]
    rfl

theorem sumAccounts_congr {v w : TokenAccountState → ℕ}
    (same : ∀ a st, L.account? a = some st → st.base.mint = m → v st = w st) :
    L.sumAccounts m v = L.sumAccounts m w := by
  refine Finset.sum_congr rfl fun a _ => ?_
  cases held : L.account? a with
  | none => rfl
  | some st =>
    by_cases mint : st.base.mint = m
    · simp only [if_pos mint, same a st held mint]
    · simp only [if_neg mint]

/-- One account is part of the sum. -/
theorem le_sumAccounts {a : Address} {st : TokenAccountState} (held : L.account? a = some st)
    (mint : st.base.mint = m) (quantity : TokenAccountState → ℕ) :
    quantity st ≤ L.sumAccounts m quantity := by
  have part := Finset.single_le_sum (f := fun b => match L.account? b with
    | some st => if st.base.mint = m then quantity st else 0
    | none => 0) (fun _ _ => Nat.zero_le _) (Finset.mem_univ a)
  simp only [held, if_pos mint] at part
  exact part

/-- The slot of a mint. -/
theorem slot_of_mint? {st : MintState} (held : L.mint? m = some st) :
    L.book.slot m = .issue st.issuance := slot_issue_iff.mpr ⟨st, held, rfl⟩

/-- The slot of a token account. -/
theorem slot_of_account? {a : Address} {st : TokenAccountState} (held : L.account? a = some st) :
    L.book.slot a = .holding st.holding := slot_holding_iff.mpr ⟨st, held, rfl⟩

/-- Where there is no mint, nothing is issued or due. -/
theorem issued_of_no_mint (none : L.mint? m = none) :
    (L.book.slot m).issued = 0 ∧ (L.book.slot m).due = 0 := by
  cases slot : L.book.slot m with
  | issue iss =>
    obtain ⟨st, held, -⟩ := slot_issue_iff.mp slot
    simp [none] at held
  | _ => exact ⟨rfl, rfl⟩

end Ledger

/-! ### One instruction, at one token account -/

/-- What becomes of the token account `st` at `a`: it stays one, or it is closed. -/
inductive AccountStep (i : Invocation) (B : Book) (a : Address) (st : TokenAccountState)
    (outcome : Outcome) : Prop
  | stays {st' : TokenAccountState} {l : ℕ} (held : outcome.ledger.account? a = some st')
      (step : SlotStep i B a outcome.validated outcome.arm (.holding st.holding)
        (.holding st'.holding) l)
      (lamports : l ≤ (outcome.ledger a).lamports)
  | closes {l : ℕ} (gone : outcome.ledger.account? a = none)
      (step : SlotStep i B a outcome.validated outcome.arm (.holding st.holding) .foreign l)

/-- **A successful instruction, at a token account.** The book is the one that the instruction met:
that of the ledger, after the rest of the world had its turn. -/
theorem run_account {i : Invocation} {L : Ledger} {outcome : Outcome} {a : Address}
    {st : TokenAccountState} (ok : i.run L = .ok outcome) (held : L.account? a = some st) :
    ∃ B, Book.External L.book B ∧ B.slot a = .holding st.holding ∧
      AccountStep i B a st outcome := by
  obtain ⟨B, s, s', l, ext, before, step, own, foreign⟩ := run_slotStep ok a
  have there : B.slot a = .holding st.holding := ext.holding (Ledger.slot_of_account? held)
  obtain rfl : s = .holding st.holding := before.symm.trans there
  refine ⟨B, ext, there, ?_⟩
  cases s' with
  | foreign =>
    refine .closes ?_ step
    cases gone : outcome.ledger.account? a with
    | none => rfl
    | some st' =>
      have slot := Ledger.slot_of_account? gone
      rcases foreign rfl with same | ⟨len, same⟩ <;> simp [same] at slot
  | holding h' =>
    obtain ⟨after, lamports⟩ := own (by simp)
    obtain ⟨st', held', rfl⟩ := Ledger.slot_holding_iff.mp after
    exact .stays held' step lamports
  | _ =>
    generalize outcome.validated = v, outcome.arm = arm at step
    cases step

/-- What becomes of the mint `mint` at `m`: it stays one, or it is closed. -/
inductive MintStep (i : Invocation) (B : Book) (m : Address) (mint : MintState)
    (outcome : Outcome) : Prop
  | stays {mint' : MintState} {l : ℕ} (held : outcome.ledger.mint? m = some mint')
      (step : SlotStep i B m outcome.validated outcome.arm (.issue mint.issuance)
        (.issue mint'.issuance) l)
  | closes {l : ℕ} (gone : outcome.ledger.mint? m = none)
      (step : SlotStep i B m outcome.validated outcome.arm (.issue mint.issuance) .foreign l)

/-- **A successful instruction, at a mint.** -/
theorem run_mint {i : Invocation} {L : Ledger} {outcome : Outcome} {m : Address} {mint : MintState}
    (ok : i.run L = .ok outcome) (issued : L.mint? m = some mint) :
    ∃ B, Book.External L.book B ∧ B.slot m = .issue mint.issuance ∧ MintStep i B m mint outcome := by
  obtain ⟨B, s, s', l, ext, before, step, own, foreign⟩ := run_slotStep ok m
  have there : B.slot m = .issue mint.issuance := ext.issue (Ledger.slot_of_mint? issued)
  obtain rfl : s = .issue mint.issuance := before.symm.trans there
  refine ⟨B, ext, there, ?_⟩
  cases s' with
  | foreign =>
    refine .closes ?_ step
    cases gone : outcome.ledger.mint? m with
    | none => rfl
    | some mint' =>
      have slot := Ledger.slot_of_mint? gone
      rcases foreign rfl with same | ⟨len, same⟩ <;> simp [same] at slot
  | issue iss' =>
    obtain ⟨after, -⟩ := own (by simp)
    obtain ⟨mint', held', rfl⟩ := Ledger.slot_issue_iff.mp after
    exact .stays held' step
  | _ =>
    generalize outcome.validated = v, outcome.arm = arm at step
    cases step

/-- The mint that an instruction meets is the one of the ledger. -/
theorem Book.External.mint? {L : Ledger} {B : Book} (ext : Book.External L.book B) {m : Address}
    {iss : Issuance} (issued : B.slot m = .issue iss) :
    ∃ st, L.mint? m = some st ∧ st.issuance = iss :=
  Ledger.slot_issue_iff.mp (ext.issue_back issued)

end Token2022
