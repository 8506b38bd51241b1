/-
**The effects of the confidential instructions.**

The proofs that an instruction comes with say how its amounts split and what is left; the state says
where they go.

* `verifyThreeProofs_suffix` — proofs are taken from the front of the accounts.
* `debitConfidential_spec`, `creditConfidential_spec` — the two sides of a confidential movement.
* **`processConfidentialTransfer_refines`**, **`processDeposit_refines`**,
  **`processWithdraw_refines`**, **`processConfidentialMint_refines`**,
  **`processConfidentialBurn_refines`**.
* `processConfigureAccount_refines`, `processEmptyAccount_refines`, `updateConfidentialAccount_spec`
  — what changes in an account alone.
-/

import Token2022.Refinement.Fee

namespace Token2022

open Fallible

variable {i : Invocation} {env : Env} {L : Ledger} {accounts : List AccountMeta} {outcome : Outcome}

/-! ### Contexts of proofs -/

/-- Proofs are taken from the front of the accounts. -/
theorem verifyAndExtractContext_suffix {C : Type} {select : VerifiedContext → Option C} {offset : ℤ}
    {sysvar : Option AccountMeta} {context : C} {rest : List AccountMeta}
    (ok : env.verifyAndExtractContext L select accounts offset sysvar = .ok (context, rest)) :
    rest <:+ accounts := by
  unfold Env.verifyAndExtractContext at ok
  split at ok
  · simp only [bind_eq_ok_iff, Prod.exists, nextAccountInfo_eq_ok_iff] at ok
    obtain ⟨info, _, rfl, _, -, ok⟩ := ok
    split at ok
    · obtain ⟨_, -, same⟩ := bind_eq_ok_iff.mp ok
      obtain ⟨-, rfl⟩ := Prod.mk.inj (Except.ok.inj same)
      exact List.suffix_cons ..
    · cases ok
  · simp only [bind_eq_ok_iff, Prod.exists] at ok
    obtain ⟨info, left, next, _, -, _, -, _, -, same⟩ := ok
    obtain ⟨-, rfl⟩ := Prod.mk.inj (Except.ok.inj same)
    cases sysvar with
    | some sysvar =>
      obtain ⟨-, rfl⟩ := Prod.mk.inj (Except.ok.inj next)
      exact List.suffix_rfl
    | none =>
      obtain rfl := nextAccountInfo_eq_ok_iff.mp next
      exact List.suffix_cons ..

theorem nextSysvarInfo_suffix {offsets : List ℤ} {sysvar : Option AccountMeta}
    {rest : List AccountMeta} (ok : nextSysvarInfo offsets accounts = .ok (sysvar, rest)) :
    rest <:+ accounts := by
  unfold nextSysvarInfo at ok
  split at ok
  · simp only [bind_eq_ok_iff, Prod.exists, nextAccountInfo_eq_ok_iff] at ok
    obtain ⟨info, _, rfl, same⟩ := ok
    obtain ⟨-, rfl⟩ := Prod.mk.inj (Except.ok.inj same)
    exact List.suffix_cons ..
  · obtain ⟨-, rfl⟩ := Prod.mk.inj (Except.ok.inj ok)
    exact List.suffix_rfl

theorem verifyWithdrawProof_suffix {equality range : ℤ} {context : WithdrawProofContext}
    {rest : List AccountMeta}
    (ok : verifyWithdrawProof env L accounts equality range = .ok (context, rest)) :
    rest <:+ accounts := by
  simp only [verifyWithdrawProof, bind_eq_ok_iff, Prod.exists] at ok
  obtain ⟨_, _, next, _, _, first, _, _, second, _, -, same⟩ := ok
  obtain ⟨-, rfl⟩ := Prod.mk.inj (Except.ok.inj same)
  exact (verifyAndExtractContext_suffix second).trans
    ((verifyAndExtractContext_suffix first).trans (nextSysvarInfo_suffix next))

theorem verifyThreeProofs_suffix {C : Type} {equality validity range : ℤ}
    {verify : CiphertextCommitmentEqualityProofContext →
      BatchedGroupedCiphertext3HandlesValidityProofContext → BatchedRangeProofContext →
      ProgramResult C} {context : C} {rest : List AccountMeta}
    (ok : verifyThreeProofs env L accounts equality validity range verify = .ok (context, rest)) :
    rest <:+ accounts := by
  simp only [verifyThreeProofs, bind_eq_ok_iff, Prod.exists] at ok
  obtain ⟨_, _, next, _, _, first, _, _, second, _, _, third, _, -, same⟩ := ok
  obtain ⟨-, rfl⟩ := Prod.mk.inj (Except.ok.inj same)
  exact (verifyAndExtractContext_suffix third).trans ((verifyAndExtractContext_suffix second).trans
    ((verifyAndExtractContext_suffix first).trans (nextSysvarInfo_suffix next)))

theorem verifyTransferWithFeeProof_suffix {equality validity sigma feeValidity range : ℤ}
    {parameters : TransferFee} {context : TransferWithFeeProofContext} {rest : List AccountMeta}
    (ok : verifyTransferWithFeeProof env L accounts equality validity sigma feeValidity range
      parameters = .ok (context, rest)) : rest <:+ accounts := by
  simp only [verifyTransferWithFeeProof, bind_eq_ok_iff, Prod.exists] at ok
  obtain ⟨_, _, next, _, _, first, _, _, second, _, _, third, _, _, fourth, _, _, fifth, _, -, same⟩ :=
    ok
  obtain ⟨-, rfl⟩ := Prod.mk.inj (Except.ok.inj same)
  exact (verifyAndExtractContext_suffix fifth).trans ((verifyAndExtractContext_suffix fourth).trans
    ((verifyAndExtractContext_suffix third).trans ((verifyAndExtractContext_suffix second).trans
      ((verifyAndExtractContext_suffix first).trans (nextSysvarInfo_suffix next)))))

/-! ### Configuring accounts -/

/-- **The effect of a configuration**: an encrypted balance of zero. -/
theorem configureAccount_spec {L' : Ledger} {a m : Address} {elgamalPubkey : ElGamalPubkey}
    {decryptable : AeCiphertext} {maximum : ℕ} {account : TokenAccountState}
    {validated : List Address} (owned : (L a).owner = programId)
    (data : (L a).data = .account account) (mint : account.base.mint = m)
    (ok : configureAccount L a m elgamalPubkey decryptable maximum = .ok L') :
    Effect i validated none L.book L'.book := by
  simp only [configureAccount, bind_eq_ok_iff, unpackAccount_eq_ok_iff, unpackMint_eq_ok_iff,
    checkProgramAccount_eq_ok_iff, exists_const] at ok
  obtain ⟨st, data', owned', issuer, data'', confidential, held, configured, first, final, second,
    stored⟩ := ok
  obtain rfl : account = st := AccountData.account.inj (data.symm.trans data')
  obtain ⟨-, absent, rfl⟩ := StateWithExtensions.initExtension_eq_ok first
  have vacant : account.holding.encrypted = none := by
    rw [StateWithExtensions.encrypted_holding, absent rfl]
    rfl
  have issued : L.book.slot account.holding.base.mint = .issue issuer.issuance := by
    rw [StateWithExtensions.base_holding, mint]
    exact Ledger.slot_of_unpackMint owned' data''
  have marked : issuer.issuance.confidential = true := by
    rw [StateWithExtensions.confidential_issuance, StateWithExtensions.has,
      StateWithExtensions.getExtension_eq_ok_iff.mp held]
    rfl
  have slot := Ledger.slot_of_unpackAccount owned data
  rw [Ledger.book_writeData owned stored]
  simp only [AccountData.slot]
  split at second
  · obtain ⟨-, noFees, rfl⟩ := StateWithExtensions.initExtension_eq_ok second
    rw [StateWithExtensions.holding_set_confidentialTransferFeeAmount,
      StateWithExtensions.holding_set_confidentialTransferAccount]
    refine Effect.adjust slot (Adjustment.configure true issued marked vacant fun _ => ?_)
    have absentFees : account.get .confidentialTransferFeeAmount = none := by
      rw [← noFees rfl, StateWithExtensions.get_set_of_ne _ (by decide)]
    rw [StateWithExtensions.encryptedWithheld_holding, absentFees]
    rfl
  · obtain rfl := Except.ok.inj second
    rw [StateWithExtensions.holding_set_confidentialTransferAccount]
    exact Effect.adjust slot (Adjustment.configure false issued marked vacant fun no => by simp at no)

theorem processConfigureAccount_refines {decryptable : AeCiphertext} {maximum : ℕ} {offset : ℤ}
    (ok : processConfigureAccount env L accounts decryptable maximum offset = .ok outcome) :
    Refines i L outcome := by
  simp only [processConfigureAccount, bind_eq_ok_iff, Prod.exists, nextAccountInfo_eq_ok_iff,
    checkProgramAccount_eq_ok_iff, unpackAccount_eq_ok_iff, require_eq_ok_iff, exists_const] at ok
  obtain ⟨info, _, -, mintInfo, _, -, context, _, -, owned, account, data, mint, _, _, -, _, -,
    ledger, configured, same⟩ := ok
  obtain rfl := Except.ok.inj same
  exact .of_effect (configureAccount_spec owned data mint configured)

/-- The account that a configuration with a registry makes room in keeps its holding. -/
theorem reallocateForConfigure_external {L' : Ledger} {info payer : AccountMeta}
    (ok : reallocateForConfigureAccountWithRegistry env L info payer = .ok L') :
    Book.External L.book L'.book := by
  simp only [reallocateForConfigureAccountWithRegistry, bind_eq_ok_iff,
    unpackAccount_eq_ok_iff] at ok
  obtain ⟨account, data, neededLen, -, ok⟩ := ok
  split at ok
  · obtain rfl := Except.ok.inj ok
    exact .refl _
  · simp only [bind_eq_ok_iff] at ok
    obtain ⟨resized, grown, mid, stored, funded⟩ := ok
    exact (grow_external data grown stored funded).2

theorem processConfigureAccountWithRegistry_refines
    (ok : processConfigureAccountWithRegistry env L accounts = .ok outcome) :
    Refines i L outcome := by
  simp only [processConfigureAccountWithRegistry, bind_eq_ok_iff, Prod.exists,
    nextAccountInfo_eq_ok_iff, checkProgramAccount_eq_ok_iff, unpackAccount_eq_ok_iff,
    require_eq_ok_iff, exists_const] at ok
  obtain ⟨info, _, -, mintInfo, _, -, registryInfo, accounts, -, -, grown, grow, registry, -, owned,
    account, data, mint, -, ledger, configured, same⟩ := ok
  obtain rfl := Except.ok.inj same
  have ext : Book.External L.book grown.book := by
    split at grow
    · obtain rfl := Except.ok.inj grow
      exact .refl _
    · simp only [bind_eq_ok_iff, Prod.exists] at grow
      obtain ⟨_, _, -, grow⟩ := grow
      exact reallocateForConfigure_external grow
  exact ⟨grown.book, _, ext, configureAccount_spec owned data mint configured, .refl _⟩

/-! ### Settings of an account -/

/-- A write to the confidential extension that leaves its balances, on the book. -/
theorem book_writeBalance_same {L' : Ledger} {a : Address} {account : TokenAccountState}
    {e e' : ConfidentialTransferAccount} (data : (L a).data = .account account)
    (held : account.getExtension .confidentialTransferAccount = .ok e)
    (same : e'.balance = e.balance)
    (stored : L.writeData a (.account (account.set .confidentialTransferAccount e')) = .ok L') :
    L'.book = L.book := by
  refine Ledger.book_writeData_same stored fun _ => ?_
  rw [data]
  exact congrArg Slot.holding (StateWithExtensions.holding_set_same_balance account
    (StateWithExtensions.getExtension_eq_ok_iff.mp held) same)

theorem processApproveAccount_refines (ok : processApproveAccount L accounts = .ok outcome) :
    Refines i L outcome := by
  simp only [processApproveAccount, bind_eq_ok_iff, Prod.exists, nextAccountInfo_eq_ok_iff,
    checkProgramAccount_eq_ok_iff, unpackAccount_eq_ok_iff, require_eq_ok_iff, exists_const] at ok
  obtain ⟨info, _, -, mintInfo, _, -, _, _, -, owned, account, data, -, -, _, -, _, -, _, -, -, e, held,
    ledger, stored, same⟩ := ok
  obtain rfl := Except.ok.inj same
  refine .of_same (book_writeBalance_same data held ?_ stored)
  exact rfl

/-- **An account that is emptied was empty**: the proof says so of the available balance, and the
account's own check of the pending one. -/
theorem processEmptyAccount_refines {offset : ℤ}
    (ok : processEmptyAccount env L accounts offset = .ok outcome) : Refines i L outcome := by
  simp only [processEmptyAccount, bind_eq_ok_iff, Prod.exists, nextAccountInfo_eq_ok_iff,
    checkProgramAccount_eq_ok_iff, unpackAccount_eq_ok_iff, require_eq_ok_iff, exists_const] at ok
  obtain ⟨info, _, -, context, _, -, _, _, -, owned, account, data, _, -, e, held, -, zero, _, -,
    ledger, stored, same⟩ := ok
  obtain rfl := Except.ok.inj same
  refine .of_same (book_writeBalance_same data held ?_ stored)
  unfold ConfidentialTransferAccount.balance
  rw [zero, context.holds]

/-- What an owner changes in the confidential extension. -/
theorem updateConfidentialAccount_spec {check : TokenAccountState → ProgramResult Unit}
    {update : ConfidentialTransferAccount → ProgramResult ConfidentialTransferAccount}
    (ok : updateConfidentialAccount L accounts check update = .ok outcome) :
    ∃ a account e e', (accounts[0]?).map AccountMeta.key = some a ∧ (L a).owner = programId ∧
      (L a).data = .account account ∧
      check account = .ok () ∧ account.getExtension .confidentialTransferAccount = .ok e ∧
      update e = .ok e' ∧
      L.writeData a (.account (account.set .confidentialTransferAccount e')) = .ok outcome.ledger ∧
      outcome.validated = [account.base.owner] ∧ outcome.arm = none := by
  simp only [updateConfidentialAccount, bind_eq_ok_iff, Prod.exists, nextAccountInfo_eq_ok_iff,
    checkProgramAccount_eq_ok_iff, unpackAccount_eq_ok_iff, exists_const] at ok
  obtain ⟨info, _, rfl, _, _, -, owned, account, data, _, -, _, checked, e, held, e', updated, ledger,
    stored, same⟩ := ok
  obtain rfl := Except.ok.inj same
  exact ⟨info.key, account, e, e', rfl, owned, data, checked, held, updated, stored, rfl, rfl⟩

/-- Switches are no part of the book. -/
theorem updateConfidentialAccount_refines {check : TokenAccountState → ProgramResult Unit}
    {update : ConfidentialTransferAccount → ProgramResult ConfidentialTransferAccount}
    (ok : updateConfidentialAccount L accounts check update = .ok outcome)
    (same : ∀ e e', update e = .ok e' → e'.balance = e.balance) : Refines i L outcome := by
  obtain ⟨a, account, e, e', -, owned, data, -, held, updated, stored, -, -⟩ :=
    updateConfidentialAccount_spec ok
  exact .of_same (book_writeBalance_same data held (same e e' updated) stored)

/-- **The effect of applying the pending balance.** -/
theorem processApplyPendingBalance_refines {counter : ℕ} {decryptable : AeCiphertext}
    (ok : processApplyPendingBalance L accounts counter decryptable = .ok outcome) :
    Refines i L outcome := by
  obtain ⟨a, account, e, e', -, owned, data, thawed, held, updated, stored, validated, arm⟩ :=
    updateConfidentialAccount_spec ok
  simp only [bind_eq_ok_iff, okOr_eq_ok_iff, CiphertextArithmetic.addWithLoHi, Option.some.injEq,
    Except.ok.injEq] at updated
  obtain ⟨_, rfl, rfl⟩ := updated
  rw [require_eq_ok_iff] at thawed
  apply Refines.of_effect
  rw [validated, arm, Ledger.book_writeData owned stored]
  simp only [AccountData.slot]
  rw [StateWithExtensions.holding_set_confidentialTransferAccount]
  exact Effect.adjust (Ledger.slot_of_unpackAccount owned data)
    (Adjustment.applyPending thawed (encrypted_of_getExtension held))

/-! ### Deposits and withdrawals -/

/-- The account of a deposit or a withdrawal. -/
theorem confidentialExchangeAccount_spec {info mintInfo authorityInfo : AccountMeta}
    {signers : List AccountMeta} {account : TokenAccountState}
    (ok : confidentialExchangeAccount L info mintInfo authorityInfo signers = .ok account) :
    (L info.key).owner = programId ∧ (L info.key).data = .account account ∧
      account.holding.nonTransferable = false ∧ account.base.isFrozen = false ∧
      account.base.mint = mintInfo.key ∧ account.base.isNativeAccount = false := by
  simp only [confidentialExchangeAccount, bind_eq_ok_iff, checkProgramAccount_eq_ok_iff,
    unpackAccount_eq_ok_iff, require_eq_ok_iff, exists_const] at ok
  obtain ⟨owned, account, data, transferable, _, -, thawed, mint, plain, same⟩ := ok
  obtain rfl := Except.ok.inj same
  exact ⟨owned, data, transferable, thawed, mint, plain⟩

theorem incrementPendingBalanceCreditCounter_balance {e e' : ConfidentialTransferAccount}
    (ok : e.incrementPendingBalanceCreditCounter = .ok e') : e'.balance = e.balance := by
  simp only [ConfidentialTransferAccount.incrementPendingBalanceCreditCounter, bind_eq_ok_iff,
    Except.ok.injEq] at ok
  obtain ⟨_, -, rfl⟩ := ok
  rfl

/-- **The effect of a deposit.** -/
theorem processDeposit_refines {amount decimals : ℕ}
    (ok : processDeposit L accounts amount decimals = .ok outcome) : Refines i L outcome := by
  simp only [processDeposit, bind_eq_ok_iff, Prod.exists, nextAccountInfo_eq_ok_iff,
    checkProgramAccount_eq_ok_iff, unpackMint_eq_ok_iff, require_eq_ok_iff, okOr_eq_ok_iff,
    checkedSub_eq_some_iff, verifyAndSplitDepositAmount, CiphertextArithmetic.addToWithOffset,
    Option.some.injEq, Except.ok.injEq, Prod.mk.injEq, exists_const] at ok
  obtain ⟨info, _, -, mintInfo, _, -, _, _, -, owned', mint, data', running, -, noMintBurn, account,
    exchanged, _, ⟨enough, rfl⟩, e, held, _, -, _, _, ⟨bounded, rfl, rfl⟩, _, rfl, _, rfl, credited,
    counted, ledger, stored, rfl⟩ := ok
  obtain ⟨owned, data, transferable, thawed, sameMint, plain⟩ :=
    confidentialExchangeAccount_spec exchanged
  have issued : L.book.slot account.holding.base.mint = .issue mint.issuance := by
    rw [StateWithExtensions.base_holding, sameMint]
    exact Ledger.slot_of_unpackMint owned' data'
  have small : amount < 2 ^ 48 := lt_of_le_of_lt bounded (by decide)
  apply Refines.of_effect
  show Effect i [account.base.owner] none L.book ledger.book
  rw [Ledger.book_writeData owned stored]
  simp only [AccountData.slot]
  rw [StateWithExtensions.holding_set_confidentialTransferAccount,
    incrementPendingBalanceCreditCounter_balance counted]
  exact Effect.deposit (Ledger.slot_of_unpackAccount owned data) issued running
    (StateWithExtensions.mintBurn_issuance_eq_none mint |>.mpr noMintBurn) transferable thawed plain
    enough small (encrypted_of_getExtension held)

/-- **The proof of a withdrawal leaves a 64-bit balance.** -/
theorem verifyWithdrawProof_sound {equality range : ℤ} {context : WithdrawProofContext}
    {rest : List AccountMeta}
    (ok : verifyWithdrawProof env L accounts equality range = .ok (context, rest)) :
    context.remainingBalanceCiphertext.val < 2 ^ 64 := by
  simp only [verifyWithdrawProof, bind_eq_ok_iff, Prod.exists] at ok
  obtain ⟨_, _, -, _, _, -, _, _, -, context', composed, same⟩ := ok
  obtain ⟨rfl, -⟩ := Prod.mk.inj (Except.ok.inj same)
  exact WithdrawProofContext.sound composed

/-- **The effect of a withdrawal.** -/
theorem processWithdraw_refines {amount decimals : ℕ} {decryptable : AeCiphertext}
    {equality range : ℤ}
    (ok : processWithdraw env L accounts amount decimals decryptable equality range = .ok outcome) :
    Refines i L outcome := by
  simp only [processWithdraw, bind_eq_ok_iff, Prod.exists, nextAccountInfo_eq_ok_iff,
    checkProgramAccount_eq_ok_iff, unpackMint_eq_ok_iff, require_eq_ok_iff, okOr_eq_ok_iff,
    checkedAdd_eq_some_iff, exists_const] at ok
  obtain ⟨info, _, -, mintInfo, _, -, context, _, verified, _, _, -, owned', mint, data', -, noMintBurn,
    running, account, exchanged, e, held, _, -, -, remaining, taken, matched, _, ⟨small, rfl⟩, ledger,
    stored, same⟩ := ok
  obtain rfl := Except.ok.inj same
  obtain ⟨owned, data, transferable, thawed, sameMint, plain⟩ :=
    confidentialExchangeAccount_spec exchanged
  have issued : L.book.slot account.holding.base.mint = .issue mint.issuance := by
    rw [StateWithExtensions.base_holding, sameMint]
    exact Ledger.slot_of_unpackMint owned' data'
  have moved : e.availableBalance = remaining + (amount : Scalar) := by
    split at taken
    · simp only [okOr_eq_ok_iff, CiphertextArithmetic.subtractFrom, Option.some.injEq] at taken
      rw [← taken, sub_add_cancel]
    · rename_i zero
      obtain rfl := Except.ok.inj taken
      rw [Nat.eq_zero_of_not_pos zero, Nat.cast_zero, add_zero]
  have bounded : remaining.val < 2 ^ 64 := matched ▸ verifyWithdrawProof_sound verified
  apply Refines.of_effect
  show Effect i [account.base.owner] none L.book ledger.book
  rw [Ledger.book_writeData owned stored]
  simp only [AccountData.slot]
  rw [StateWithExtensions.holding_withBase,
    StateWithExtensions.holding_set_confidentialTransferAccount]
  exact Effect.withdraw (Ledger.slot_of_unpackAccount owned data) issued running
    (StateWithExtensions.mintBurn_issuance_eq_none mint |>.mpr noMintBurn) transferable thawed plain
    small (encrypted_of_getExtension held) moved bounded

/-! ### The sides of a movement -/

theorem debitAvailable_spec {e e' : ConfidentialTransferAccount} {lo hi remaining : Scalar}
    {decryptable : AeCiphertext} (ok : e.debitAvailable lo hi remaining decryptable = .ok e') :
    e.balance.available = remaining + pendingTotal lo hi ∧
      e'.balance = { e.balance with available := remaining } := by
  simp only [ConfidentialTransferAccount.debitAvailable, bind_eq_ok_iff, okOr_eq_ok_iff,
    CiphertextArithmetic.subtractWithLoHi, Option.some.injEq, require_eq_ok_iff, exists_const,
    Except.ok.injEq] at ok
  obtain ⟨_, rfl, left, rfl⟩ := ok
  subst left
  exact ⟨(sub_add_cancel _ _).symm, rfl⟩

theorem creditPending_spec {e e' : ConfidentialTransferAccount} {lo hi : Scalar}
    (ok : e.creditPending lo hi = .ok e') :
    e'.balance = { e.balance with
      pendingLo := e.balance.pendingLo + lo
      pendingHi := e.balance.pendingHi + hi } := by
  simp only [ConfidentialTransferAccount.creditPending, bind_eq_ok_iff, okOr_eq_ok_iff,
    CiphertextArithmetic.add, Option.some.injEq] at ok
  obtain ⟨_, rfl, _, rfl, counted⟩ := ok
  rw [incrementPendingBalanceCreditCounter_balance counted]
  rfl

/-- **The source of a confidential transfer.** -/
theorem debitConfidential_spec {sourceInfo mintInfo authorityInfo : AccountMeta}
    {signers : List AccountMeta} {sourcePubkey : ElGamalPubkey}
    {lo hi : GroupedElGamalCiphertext3Handles} {remaining : Scalar} {decryptable : AeCiphertext}
    {L' : Ledger} {key : Address} (agrees : Agrees3 lo hi) (bounded : remaining.val < 2 ^ 64)
    (ok : debitConfidential i.env L sourceInfo mintInfo authorityInfo signers sourcePubkey lo hi
      remaining decryptable = .ok (L', key)) :
    ∃ h h', L.book.slot sourceInfo.key = .holding h ∧ h.nonTransferable = false ∧
      key = h.base.owner ∧ SpendsEncrypted i h h' mintInfo.key lo.commitment hi.commitment ∧
      L'.book = L.book.write sourceInfo.key (.holding h') := by
  simp only [debitConfidential, bind_eq_ok_iff, checkProgramAccount_eq_ok_iff,
    unpackAccount_eq_ok_iff, require_eq_ok_iff, exists_const, Except.ok.injEq, Prod.mk.injEq] at ok
  obtain ⟨owned, account, data, transferable, _, valid, unguarded, thawed, mint, e, held, _, -, -, e',
    debited, ledger, stored, rfl, rfl⟩ := ok
  obtain ⟨moved, balance⟩ := debitAvailable_spec debited
  rw [agrees.valid_lo.1, agrees.valid_hi.1] at moved
  refine ⟨account.holding, _, Ledger.slot_of_unpackAccount owned data, transferable, rfl,
    ⟨mint, thawed, fun guarded => unguarded ⟨validateOwner_key valid, guarded⟩, agrees.split,
      e.balance, remaining, encrypted_of_getExtension held, moved, bounded, rfl⟩, ?_⟩
  rw [Ledger.book_writeData owned stored]
  simp only [AccountData.slot]
  rw [StateWithExtensions.holding_set_confidentialTransferAccount, balance]

/-- **The destination of a confidential movement**, before it is written. -/
theorem creditConfidential_spec {destinationInfo mintInfo : AccountMeta}
    {destinationPubkey : ElGamalPubkey} {lo hi : GroupedElGamalCiphertext3Handles}
    {account : TokenAccountState} {credited : ConfidentialTransferAccount} (agrees : Agrees3 lo hi)
    (ok : creditConfidential env L destinationInfo mintInfo destinationPubkey lo hi =
      .ok (account, credited)) :
    (L destinationInfo.key).owner = programId ∧ (L destinationInfo.key).data = .account account ∧
      account.base.mint = mintInfo.key ∧ account.base.isFrozen = false ∧
      ∃ e, account.holding.encrypted = some e ∧ credited.balance = { e with
        pendingLo := e.pendingLo + lo.commitment, pendingHi := e.pendingHi + hi.commitment } := by
  simp only [creditConfidential, bind_eq_ok_iff, checkProgramAccount_eq_ok_iff,
    unpackAccount_eq_ok_iff, require_eq_ok_iff, exists_const, Except.ok.injEq, Prod.mk.injEq] at ok
  obtain ⟨owned, account, data, thawed, mint, _, -, e, held, _, -, -, credited, credit, rfl, rfl⟩ := ok
  refine ⟨owned, data, mint, thawed, e.balance, encrypted_of_getExtension held, ?_⟩
  rw [creditPending_spec credit, agrees.valid_lo.2.1, agrees.valid_hi.2.1]

theorem processDestinationForTransfer_spec {destinationInfo mintInfo : AccountMeta}
    {context : TransferProofContext} {L' : Ledger}
    (agrees : Agrees3 context.ciphertextLo context.ciphertextHi)
    (ok : processDestinationForTransfer env L destinationInfo mintInfo context = .ok L') :
    ∃ h h', L.book.slot destinationInfo.key = .holding h ∧
      ReceivesEncrypted h h' mintInfo.key context.ciphertextLo.commitment
        context.ciphertextHi.commitment ∧
      L'.book = L.book.write destinationInfo.key (.holding h') := by
  simp only [processDestinationForTransfer, bind_eq_ok_iff, Prod.exists] at ok
  obtain ⟨account, credited, credit, stored⟩ := ok
  obtain ⟨owned, data, mint, thawed, e, encrypted, balance⟩ := creditConfidential_spec agrees credit
  refine ⟨account.holding, _, Ledger.slot_of_unpackAccount owned data,
    ⟨mint, thawed, agrees.split, e, encrypted, rfl⟩, ?_⟩
  rw [Ledger.book_writeData owned stored]
  simp only [AccountData.slot]
  rw [StateWithExtensions.holding_set_confidentialTransferAccount, balance]

theorem processDestinationForTransferWithFee_spec {destinationInfo mintInfo : AccountMeta}
    {context : TransferWithFeeProofContext} {isSelfTransfer : Bool} {L' : Ledger}
    (agrees : Agrees3 context.ciphertextLo context.ciphertextHi)
    (validLo : context.feeCiphertextLo.Valid) (validHi : context.feeCiphertextHi.Valid)
    (split : SplitAmount context.feeCiphertextLo.commitment context.feeCiphertextHi.commitment)
    (le : (pendingTotal context.feeCiphertextLo.commitment context.feeCiphertextHi.commitment).val ≤
      (pendingTotal context.ciphertextLo.commitment context.ciphertextHi.commitment).val)
    (ok : processDestinationForTransferWithFee env L destinationInfo mintInfo context
      isSelfTransfer = .ok L') :
    ∃ h h', L.book.slot destinationInfo.key = .holding h ∧
      (ReceivesEncrypted h h' mintInfo.key context.ciphertextLo.commitment
          context.ciphertextHi.commitment ∨
        isSelfTransfer = false ∧ ReceivesEncryptedWithFee h h' mintInfo.key
          context.ciphertextLo.commitment context.ciphertextHi.commitment
          context.feeCiphertextLo.commitment context.feeCiphertextHi.commitment) ∧
      L'.book = L.book.write destinationInfo.key (.holding h') := by
  simp only [processDestinationForTransferWithFee, bind_eq_ok_iff, Prod.exists] at ok
  obtain ⟨account, credited, credit, ok⟩ := ok
  obtain ⟨owned, data, mint, thawed, e, encrypted, balance⟩ := creditConfidential_spec agrees credit
  have slot := Ledger.slot_of_unpackAccount owned data
  split at ok
  · refine ⟨account.holding, _, slot, .inl ⟨mint, thawed, agrees.split, e, encrypted, rfl⟩, ?_⟩
    rw [Ledger.book_writeData owned ok]
    simp only [AccountData.slot]
    rw [StateWithExtensions.holding_set_confidentialTransferAccount, balance]
  · rename_i other
    simp only [bind_eq_ok_iff, okOr_eq_ok_iff, CiphertextArithmetic.subtract,
      CiphertextArithmetic.addWithLoHi, Option.some.injEq] at ok
    obtain ⟨_, rfl, _, rfl, fees, held, _, rfl, stored⟩ := ok
    have withheld : account.holding.encryptedWithheld = some fees.withheldAmount := by
      have read := StateWithExtensions.getExtension_eq_ok_iff.mp held
      rw [StateWithExtensions.get_set_of_ne _ (by decide)] at read
      rw [StateWithExtensions.encryptedWithheld_holding, read]
      rfl
    refine ⟨account.holding, _, slot, .inr ⟨by simpa using other, mint, thawed, agrees.split, split,
      le, e, fees.withheldAmount, encrypted, withheld, rfl⟩, ?_⟩
    have lo : credited.pendingBalanceLo = e.pendingLo + context.ciphertextLo.commitment :=
      congrArg EncryptedBalance.pendingLo balance
    have hi : credited.pendingBalanceHi = e.pendingHi + context.ciphertextHi.commitment :=
      congrArg EncryptedBalance.pendingHi balance
    have available : credited.availableBalance = e.available :=
      congrArg EncryptedBalance.available balance
    rw [Ledger.book_writeData owned stored]
    simp only [AccountData.slot]
    rw [StateWithExtensions.holding_set_confidentialTransferFeeAmount,
      StateWithExtensions.holding_set_confidentialTransferAccount, validLo.1, validHi.1, validLo.2,
      validHi.2]
    unfold ConfidentialTransferAccount.balance
    rw [lo, hi, available]

/-! ### Transfers -/

theorem setTransferringAt_book {L' : Ledger} {a : Address} (ok : setTransferringAt L a = .ok L') :
    L'.book = L.book := by
  simp only [setTransferringAt, bind_eq_ok_iff, unpackAccount_eq_ok_iff] at ok
  obtain ⟨account, data, flagged, set, stored⟩ := ok
  refine Ledger.book_writeData_same stored fun _ => ?_
  rw [data]
  exact congrArg Slot.holding (setTransferring_holding set)

/-- The hook program acts as the rest of the world does. -/
theorem finishConfidentialTransfer_external {L' : Ledger}
    {sourceInfo mintInfo destinationInfo authorityInfo : AccountMeta} {signers : List AccountMeta}
    {hookProgramId : Option Address}
    (ok : finishConfidentialTransfer env L sourceInfo mintInfo destinationInfo authorityInfo signers
      hookProgramId = .ok L') : Book.External L.book L'.book := by
  unfold finishConfidentialTransfer at ok
  split at ok
  · obtain rfl := Except.ok.inj ok
    exact .refl _
  · simp only [bind_eq_ok_iff] at ok
    obtain ⟨flagged, setSource, flagged', setDestination, called, hook, unset, unsetSource,
      unsetDestination⟩ := ok
    have ext := (env.programs.invokeExecute_external hook).book
    rwa [setTransferringAt_book setDestination, setTransferringAt_book setSource,
      ← unsetTransferring_book unsetSource, ← unsetTransferring_book unsetDestination] at ext

/-- **The three proofs of a transfer, a mint or a burn.** -/
theorem verifyThreeProofs_eq_ok {C : Type} {equality validity range : ℤ}
    {verifyAndExtract : CiphertextCommitmentEqualityProofContext →
      BatchedGroupedCiphertext3HandlesValidityProofContext → BatchedRangeProofContext →
      ProgramResult C} {context : C} {rest : List AccountMeta}
    (ok : verifyThreeProofs env L accounts equality validity range verifyAndExtract =
      .ok (context, rest)) : ∃ e v r, verifyAndExtract e v r = .ok context := by
  simp only [verifyThreeProofs, bind_eq_ok_iff, Prod.exists] at ok
  obtain ⟨_, _, -, e, _, -, v, _, -, r, _, -, context', composed, same⟩ := ok
  obtain ⟨rfl, -⟩ := Prod.mk.inj (Except.ok.inj same)
  exact ⟨e, v, r, composed⟩

theorem verifyTransferWithFeeProof_eq_ok {equality validity sigma feeValidity range : ℤ}
    {fee : TransferFee} {context : TransferWithFeeProofContext} {rest : List AccountMeta}
    (ok : verifyTransferWithFeeProof env L accounts equality validity sigma feeValidity range fee =
      .ok (context, rest)) :
    ∃ e v s w r, TransferWithFeeProofContext.verifyAndExtract e v s w r
      fee.transferFeeBasisPoints fee.maximumFee = .ok context := by
  simp only [verifyTransferWithFeeProof, bind_eq_ok_iff, Prod.exists] at ok
  obtain ⟨_, _, -, e, _, -, v, _, -, s, _, -, w, _, -, r, _, -, context', composed, same⟩ := ok
  obtain ⟨rfl, -⟩ := Prod.mk.inj (Except.ok.inj same)
  exact ⟨e, v, s, w, r, composed⟩

/-- **The effect of a confidential transfer**, with and without fee. -/
theorem processConfidentialTransfer_refines {decryptable : AeCiphertext} {auditorLo auditorHi : Scalar}
    {offsets : ConfidentialTransferOffsets}
    (ok : processConfidentialTransfer i.env L accounts decryptable auditorLo auditorHi offsets =
      .ok outcome) : Refines i L outcome := by
  simp only [processConfidentialTransfer, bind_eq_ok_iff, Prod.exists, nextAccountInfo_eq_ok_iff,
    checkProgramAccount_eq_ok_iff, unpackMint_eq_ok_iff, require_eq_ok_iff, exists_const] at ok
  obtain ⟨sourceInfo, _, -, mintInfo, _, -, destinationInfo, _, -, owned, mint, data, running,
    confidential, -, moved, key, authorityInfo, signers, movement, ledger, finished, same⟩ := ok
  obtain rfl := Except.ok.inj same
  have issued := Ledger.slot_of_unpackMint owned data
  have ext := finishConfidentialTransfer_external finished
  split at movement
  · simp only [confidentialTransferWithoutFee, bind_eq_ok_iff, Prod.exists,
      nextAccountInfo_eq_ok_iff, require_eq_ok_iff, exists_const, Except.ok.injEq,
      Prod.mk.injEq] at movement
    obtain ⟨context, _, verified, authorityInfo, signers, -, -, _, -, mid, key, source, moved,
      destination, rfl, rfl, rfl, rfl⟩ := movement
    obtain ⟨e, v, r, composed⟩ := verifyThreeProofs_eq_ok verified
    obtain ⟨bounded, agrees⟩ := TransferProofContext.sound composed
    obtain ⟨h, h', held, transferable, rfl, spends, book⟩ :=
      debitConfidential_spec agrees bounded source
    obtain ⟨hd, hd', held', receives, book'⟩ := processDestinationForTransfer_spec agrees destination
    rw [book] at held' book'
    exact ⟨L.book, _, .refl _, Effect.confidentialTransfer issued running held transferable spends
      held' (.inl receives), book' ▸ ext⟩
  · simp only [confidentialTransferWithFee, bind_eq_ok_iff, Prod.exists, nextAccountInfo_eq_ok_iff,
      require_eq_ok_iff, okOr_eq_ok_iff, exists_const, Except.ok.injEq, Prod.mk.injEq] at movement
    obtain ⟨_, -, _, -, context, _, verified, authorityInfo, signers, -, -, _, -, -, _, -, mid, key,
      source, moved, destination, rfl, rfl, rfl, rfl⟩ := movement
    obtain ⟨e, v, s, w, r, composed⟩ := verifyTransferWithFeeProof_eq_ok verified
    obtain ⟨bounded, agrees, validLo, validHi, split, le⟩ :=
      TransferWithFeeProofContext.sound composed
    obtain ⟨h, h', held, transferable, rfl, spends, book⟩ :=
      debitConfidential_spec agrees bounded source
    obtain ⟨hd, hd', held', receives, book'⟩ :=
      processDestinationForTransferWithFee_spec agrees validLo validHi split le destination
    rw [book] at held' book'
    refine ⟨L.book, _, .refl _, Effect.confidentialTransfer issued running held transferable spends
      held' ?_, book' ▸ ext⟩
    rcases receives with receives | ⟨other, receives⟩
    · exact .inl receives
    · exact .inr ⟨by simpa using other, _, _, receives⟩

/-! ### Confidential mints and burns -/

/-- **The effect of a confidential mint.** -/
theorem processConfidentialMint_refines {data : MintInstructionData}
    (ok : processConfidentialMint env L accounts data = .ok outcome) : Refines i L outcome := by
  simp only [processConfidentialMint, bind_eq_ok_iff, Prod.exists, nextAccountInfo_eq_ok_iff,
    checkProgramAccount_eq_ok_iff, unpackMint_eq_ok_iff, unpackAccount_eq_ok_iff, require_eq_ok_iff,
    exists_const] at ok
  obtain ⟨info, _, -, mintInfo, _, -, owned', mint, data', _, -, running, owned, account, data, marked,
    mintBurn, supplied, context, _, verified, authorityInfo, _, -, key, -, thawed, sameMint, -, e, held,
    _, -, -, -, _, -, credited, credit, increased, increase, mid, first, last, second, same⟩ := ok
  obtain rfl := Except.ok.inj same
  obtain ⟨_, _, _, composed⟩ := verifyThreeProofs_eq_ok verified
  obtain ⟨bounded, agrees⟩ := MintProofContext.sound composed
  simp only [ConfidentialMintBurn.increaseSupply, bind_eq_ok_iff, okOr_eq_ok_iff,
    CiphertextArithmetic.addWithLoHi, Option.some.injEq, require_eq_ok_iff, exists_const,
    Except.ok.injEq] at increase
  obtain ⟨-, _, rfl, total, rfl⟩ := increase
  have supply : mint.issuance.mintBurn = some mintBurn.encryptedSupply := by
    rw [StateWithExtensions.mintBurn_issuance, StateWithExtensions.getExtension_eq_ok_iff.mp supplied]
    rfl
  rw [agrees.valid_lo.2.1, agrees.valid_hi.2.1] at total
  apply Refines.of_effect
  show Effect i [key] none L.book last.book
  rw [book_writeAccount_writeMint owned owned' first second,
    StateWithExtensions.holding_set_confidentialTransferAccount,
    StateWithExtensions.issuance_set_confidentialMintBurn, creditPending_spec credit,
    agrees.valid_lo.1, agrees.valid_hi.1, agrees.valid_lo.2.1, agrees.valid_hi.2.1]
  refine Effect.confidentialMint (Ledger.slot_of_unpackMint owned' data') running
    (Ledger.slot_of_unpackAccount owned data) (marked_of_check marked)
    ⟨sameMint, thawed, agrees.split, e.balance, encrypted_of_getExtension held, rfl⟩ supply ?_
  rw [← total] at bounded
  exact bounded

/-- **The effect of a confidential burn.** -/
theorem processConfidentialBurn_refines {data : BurnInstructionData} {permissioned : Bool}
    (ok : processConfidentialBurn i.env L accounts data permissioned = .ok outcome) :
    Refines i L outcome := by
  simp only [processConfidentialBurn, bind_eq_ok_iff, Prod.exists, nextAccountInfo_eq_ok_iff,
    checkProgramAccount_eq_ok_iff, unpackMint_eq_ok_iff, unpackAccount_eq_ok_iff, require_eq_ok_iff,
    exists_const] at ok
  obtain ⟨info, _, -, mintInfo, _, -, owned', mint, data', _, -, running, context, _, verified, _, _, -,
    authorityInfo, _, -, _, -, mintBurn, supplied, owned, account, data, _, valid, unguarded, thawed,
    sameMint, e, held, _, -, -, _, -, debited, debit, -, burning, burn, mid, first, last, second,
    same⟩ := ok
  obtain rfl := Except.ok.inj same
  obtain ⟨_, _, _, composed⟩ := verifyThreeProofs_eq_ok verified
  obtain ⟨bounded, agrees⟩ := BurnProofContext.sound composed
  simp only [ConfidentialMintBurn.addPendingBurn, bind_eq_ok_iff, okOr_eq_ok_iff,
    CiphertextArithmetic.addWithLoHi, Option.some.injEq, require_eq_ok_iff, exists_const,
    Except.ok.injEq] at burn
  obtain ⟨-, _, rfl, rfl⟩ := burn
  have supply : mint.issuance.mintBurn = some mintBurn.encryptedSupply := by
    rw [StateWithExtensions.mintBurn_issuance, StateWithExtensions.getExtension_eq_ok_iff.mp supplied]
    rfl
  obtain ⟨moved, balance⟩ := debitAvailable_spec debit
  rw [agrees.valid_lo.1, agrees.valid_hi.1] at moved
  apply Refines.of_effect
  show Effect i [account.base.owner] none L.book last.book
  rw [book_writeAccount_writeMint owned owned' first second,
    StateWithExtensions.holding_set_confidentialTransferAccount,
    StateWithExtensions.issuance_set_confidentialMintBurn, balance, agrees.valid_lo.2.1,
    agrees.valid_hi.2.1]
  exact Effect.confidentialBurn (Ledger.slot_of_unpackMint owned' data') running
    (Ledger.slot_of_unpackAccount owned data)
    ⟨sameMint, thawed, fun guarded => unguarded ⟨validateOwner_key valid, guarded⟩, agrees.split,
      e.balance, _, encrypted_of_getExtension held, moved, bounded, rfl⟩ supply

/-- **The effect of taking the pending burns off the supply.** -/
theorem processApplyPendingBurn_refines (ok : processApplyPendingBurn L accounts = .ok outcome) :
    Refines i L outcome := by
  simp only [processApplyPendingBurn, bind_eq_ok_iff, Prod.exists, nextAccountInfo_eq_ok_iff,
    checkProgramAccount_eq_ok_iff, unpackMint_eq_ok_iff, okOr_eq_ok_iff,
    CiphertextArithmetic.subtract, Option.some.injEq, exists_const] at ok
  obtain ⟨info, _, -, owned, mint, data, mintBurn, held, _, _, -, key, -, _, rfl, ledger, stored,
    same⟩ := ok
  obtain rfl := Except.ok.inj same
  have supply : mint.issuance.mintBurn = some mintBurn.encryptedSupply := by
    rw [StateWithExtensions.mintBurn_issuance, StateWithExtensions.getExtension_eq_ok_iff.mp held]
    rfl
  apply Refines.of_effect
  show Effect i [key] none L.book ledger.book
  rw [Ledger.book_writeData owned stored]
  simp only [AccountData.slot]
  rw [StateWithExtensions.issuance_set_confidentialMintBurn]
  exact Effect.applyPendingBurn (Ledger.slot_of_unpackMint owned data) supply

/-- **A rotation of the key of the supply keeps the supply**: the two ciphertexts hold the same. -/
theorem processRotateSupplyElgamalPubkey_refines {offset : ℤ}
    (ok : processRotateSupplyElgamalPubkey env L accounts offset = .ok outcome) :
    Refines i L outcome := by
  simp only [processRotateSupplyElgamalPubkey, bind_eq_ok_iff, Prod.exists,
    nextAccountInfo_eq_ok_iff, checkProgramAccount_eq_ok_iff, unpackMint_eq_ok_iff, require_eq_ok_iff,
    exists_const] at ok
  obtain ⟨info, _, -, owned, mint, data, mintBurn, held, context, _, -, -, supply, pending, _, _, -,
    key, -, ledger, stored, same⟩ := ok
  obtain rfl := Except.ok.inj same
  apply Refines.of_effect
  show Effect i [key] none L.book ledger.book
  rw [Ledger.book_writeData owned stored]
  refine Effect.configureMint (Ledger.slot_of_unpackMint owned data)
    (configOnly_set (StateWithExtensions.getExtension_eq_ok_iff.mp held) ?_)
  show EncryptedSupply.mk context.secondCiphertext mintBurn.pendingBurn = mintBurn.encryptedSupply
  rw [← context.holds, ← supply]
  rfl

theorem processUpdateDecryptableSupply_refines {decryptable : AeCiphertext}
    (ok : processUpdateDecryptableSupply L accounts decryptable = .ok outcome) :
    Refines i L outcome := by
  simp only [processUpdateDecryptableSupply, bind_eq_ok_iff, Prod.exists, nextAccountInfo_eq_ok_iff,
    checkProgramAccount_eq_ok_iff, unpackMint_eq_ok_iff, exists_const] at ok
  obtain ⟨info, _, -, owned, mint, data, mintBurn, held, _, _, -, key, -, ledger, stored, same⟩ := ok
  obtain rfl := Except.ok.inj same
  apply Refines.of_effect
  show Effect i [key] none L.book ledger.book
  rw [Ledger.book_writeData owned stored]
  refine Effect.configureMint (Ledger.slot_of_unpackMint owned data)
    (configOnly_set (StateWithExtensions.getExtension_eq_ok_iff.mp held) ?_)
  exact rfl

/-- The configuration of confidential transfers is no part of the book. -/
theorem processUpdateConfidentialTransferMint_refines {auto : Bool}
    {auditor : MaybeNull ElGamalPubkey}
    (ok : processUpdateConfidentialTransferMint L accounts auto auditor = .ok outcome) :
    Refines i L outcome := by
  simp only [processUpdateConfidentialTransferMint, bind_eq_ok_iff, Prod.exists,
    nextAccountInfo_eq_ok_iff, checkProgramAccount_eq_ok_iff, unpackMint_eq_ok_iff, require_eq_ok_iff,
    exists_const] at ok
  obtain ⟨info, _, -, _, _, -, owned, mint, data, e, held, _, -, -, -, ledger, stored, same⟩ := ok
  obtain rfl := Except.ok.inj same
  exact .of_same (book_writeMint_same data
    (StateWithExtensions.issuance_set_confidentialTransferMint mint
      (StateWithExtensions.getExtension_eq_ok_iff.mp held)) stored)

/-! ### The instructions of the two extensions -/

theorem processConfidentialTransferInstruction_refines
    {instruction : ConfidentialTransferInstruction}
    (ok : processConfidentialTransferInstruction i.env L accounts instruction = .ok outcome) :
    Refines i L outcome := by
  cases instruction
  case initializeMint => exact initializeMintExtension_refines ok fun _ _ => .inl rfl
  case updateMint => exact processUpdateConfidentialTransferMint_refines ok
  case configureAccount => exact processConfigureAccount_refines ok
  case approveAccount => exact processApproveAccount_refines ok
  case emptyAccount => exact processEmptyAccount_refines ok
  case deposit => exact processDeposit_refines ok
  case withdraw => exact processWithdraw_refines ok
  case transfer => exact processConfidentialTransfer_refines ok
  case transferWithFee => exact processConfidentialTransfer_refines ok
  case applyPendingBalance => exact processApplyPendingBalance_refines ok
  case configureAccountWithRegistry => exact processConfigureAccountWithRegistry_refines ok
  all_goals
    refine updateConfidentialAccount_refines ok fun e e' updated => ?_
    obtain rfl := Except.ok.inj updated
    exact rfl

theorem processConfidentialMintBurnInstruction_refines
    {instruction : ConfidentialMintBurnInstruction}
    (ok : processConfidentialMintBurnInstruction i.env L accounts instruction = .ok outcome) :
    Refines i L outcome := by
  cases instruction
  case initializeMint =>
    refine initializeMintExtension_refines ok fun v given => ?_
    obtain rfl := Except.ok.inj given
    exact ⟨rfl, rfl⟩
  case rotateSupplyElgamalPubkey => exact processRotateSupplyElgamalPubkey_refines ok
  case updateDecryptableSupply => exact processUpdateDecryptableSupply_refines ok
  case mint => exact processConfidentialMint_refines ok
  case burn => exact processConfidentialBurn_refines ok
  case applyPendingBurn => exact processApplyPendingBurn_refines ok

end Token2022
