/-
**The writes of settings, of metadata and groups, and of withheld fees.**

* `updateMintExtension_writes` — one extension of a mint, on behalf of the authority it names.
* `updateMetadataWith_writes`, `updateGroupWith_writes`, `processInitializeMember_writes` — what a
  mint carries about itself.
* `harvestToMint_loop`, `withdrawFromAccounts_loop` — the loops over accounts with withheld fees.
* **`processSettingInstruction_writes`**, **`processTransferFeeInstruction_writes`**,
  **`processTokenMetadataInstruction_writes`**, **`processTokenGroupInstruction_writes`**.
-/

import Token2022.Writes.Token

namespace Token2022

open Fallible Relation

variable {i : Invocation} {start L L' : Ledger} {outcome : Outcome} {validated : List Address}

/-! ### One extension of a mint -/

/-- **An update of an extension on behalf of its authority.** -/
theorem updateMintExtension_writes {t : ExtensionType}
    {authorityOf : Extension t → MaybeNull Address} {missing : TokenError}
    {update : Extension t → ProgramResult (Extension t)}
    (ok : updateMintExtension L i.accounts t authorityOf missing update = .ok outcome)
    (updates : ∀ mint e key e', (authorityOf e).toOption = some key → key ∈ outcome.validated →
      update e = .ok e' → MintUpdate i outcome.validated mint t e e') :
    Writes i L outcome.validated L outcome.ledger := by
  simp only [updateMintExtension, bind_eq_ok_iff, Prod.exists, nextAccountInfo_eq_ok_iff,
    checkProgramAccount_eq_ok_iff, unpackMint_eq_ok_iff, okOr_eq_ok_iff, exists_const] at ok
  obtain ⟨mintInfo, _, -, authority, signers, -, owned, mint, data, e, held, key, holder, _, -, e',
    updated, ledger, stored, done⟩ := ok
  obtain rfl := Except.ok.inj done
  exact .ofChange owned data (.mintUpdate data (StateWithExtensions.getExtension_eq_ok_iff.mp held)
    (updates mint e key e' holder (List.mem_singleton_self _) updated)) stored

theorem processUpdateDefaultAccountState_writes {state : AccountState}
    (ok : processUpdateDefaultAccountState L i.accounts state = .ok outcome) :
    Writes i L outcome.validated L outcome.ledger := by
  simp only [processUpdateDefaultAccountState, bind_eq_ok_iff, Prod.exists,
    nextAccountInfo_eq_ok_iff, checkProgramAccount_eq_ok_iff, unpackMint_eq_ok_iff, okOr_eq_ok_iff,
    exists_const] at ok
  obtain ⟨default, -, info, _, -, authority, signers, -, owned, mint, data, key, freeze, _, -, e,
    held, ledger, stored, same⟩ := ok
  obtain rfl := Except.ok.inj same
  exact .ofChange owned data (.mintUpdate data (StateWithExtensions.getExtension_eq_ok_iff.mp held)
    (.updateDefaultAccountState freeze (List.mem_singleton_self _))) stored

theorem processUpdateRate_writes {rate : Int16}
    (named : i.instruction = .interestBearingMintExtension (.updateRate rate))
    (ok : processUpdateRate i.env L i.accounts rate.toInt = .ok outcome) :
    Writes i L outcome.validated L outcome.ledger := by
  refine updateMintExtension_writes ok fun mint e key e' authority signed updated => ?_
  simp only [bind_eq_ok_iff, okOr_eq_ok_iff, Except.ok.injEq] at updated
  obtain ⟨average, averaged, rfl⟩ := updated
  exact .updateRate named authority signed averaged

theorem processUpdateTransferHook_writes {program : MaybeNull Address}
    (ok : processUpdateTransferHook L i.accounts program = .ok outcome) :
    Writes i L outcome.validated L outcome.ledger := by
  refine updateMintExtension_writes ok fun mint e key e' authority signed updated => ?_
  obtain ⟨-, same⟩ := require_bind_eq_ok_iff.mp updated
  obtain rfl := Except.ok.inj same
  exact .updateTransferHook authority signed

theorem processUpdateMetadataPointer_writes {address : MaybeNull Address}
    (ok : processUpdateMetadataPointer L i.accounts address = .ok outcome) :
    Writes i L outcome.validated L outcome.ledger := by
  refine updateMintExtension_writes ok fun mint e key e' authority signed updated => ?_
  obtain rfl := Except.ok.inj updated
  exact .updateMetadataPointer authority signed

theorem processUpdateGroupPointer_writes {address : MaybeNull Address}
    (ok : processUpdateGroupPointer L i.accounts address = .ok outcome) :
    Writes i L outcome.validated L outcome.ledger := by
  refine updateMintExtension_writes ok fun mint e key e' authority signed updated => ?_
  obtain rfl := Except.ok.inj updated
  exact .updateGroupPointer authority signed

theorem processUpdateGroupMemberPointer_writes {address : MaybeNull Address}
    (ok : processUpdateGroupMemberPointer L i.accounts address = .ok outcome) :
    Writes i L outcome.validated L outcome.ledger := by
  refine updateMintExtension_writes ok fun mint e key e' authority signed updated => ?_
  obtain rfl := Except.ok.inj updated
  exact .updateGroupMemberPointer authority signed

theorem processUpdateMultiplier_writes {multiplier : PodF64} {timestamp : Int64}
    (named : i.instruction = .scaledUiAmountExtension (.updateMultiplier multiplier timestamp))
    (ok : processUpdateMultiplier i.env L i.accounts multiplier timestamp.toInt = .ok outcome) :
    Writes i L outcome.validated L outcome.ledger := by
  refine updateMintExtension_writes ok fun mint e key e' authority signed updated => ?_
  obtain ⟨_, -, same⟩ := bind_eq_ok_iff.mp updated
  obtain rfl := Except.ok.inj same
  exact .updateMultiplier named authority signed rfl

theorem processTogglePause_writes {pause : Bool}
    (ok : processTogglePause L i.accounts pause = .ok outcome) :
    Writes i L outcome.validated L outcome.ledger := by
  refine updateMintExtension_writes ok fun mint e key e' authority signed updated => ?_
  obtain rfl := Except.ok.inj updated
  exact .togglePause authority signed

/-- **The writes of the instructions of one setting.** -/
theorem processSettingInstruction_writes {instruction : TokenInstruction}
    (named : i.instruction = instruction)
    (ok : processSettingInstruction i.env L i.accounts instruction = .ok outcome) :
    Writes i L outcome.validated L outcome.ledger := by
  cases instruction
  case defaultAccountStateExtension instruction =>
    cases instruction
    case initializeExtension =>
      obtain ⟨default, -, rest⟩ := bind_eq_ok_iff.mp ok
      exact initializeMintExtension_writes (by rw [named]; rfl) (by decide) rest
    case update => exact processUpdateDefaultAccountState_writes ok
  case memoTransferExtension instruction =>
    cases instruction
    all_goals exact processToggleRequiredMemoTransfers_writes ok
  case cpiGuardExtension instruction =>
    cases instruction
    all_goals exact processToggleCpiGuard_writes ok
  case interestBearingMintExtension instruction =>
    cases instruction
    case initializeExtension =>
      exact initializeMintExtension_writes (by rw [named]; rfl) (by decide) ok
    case updateRate => exact processUpdateRate_writes named ok
  case transferHookExtension instruction =>
    cases instruction
    case initializeExtension =>
      exact initializeMintExtension_writes (by rw [named]; rfl) (by decide) ok
    case update => exact processUpdateTransferHook_writes ok
  case metadataPointerExtension instruction =>
    cases instruction
    case initializeExtension =>
      exact initializeMintExtension_writes (by rw [named]; rfl) (by decide) ok
    case update => exact processUpdateMetadataPointer_writes ok
  case groupPointerExtension instruction =>
    cases instruction
    case initializeExtension =>
      exact initializeMintExtension_writes (by rw [named]; rfl) (by decide) ok
    case update => exact processUpdateGroupPointer_writes ok
  case groupMemberPointerExtension instruction =>
    cases instruction
    case initializeExtension =>
      exact initializeMintExtension_writes (by rw [named]; rfl) (by decide) ok
    case update => exact processUpdateGroupMemberPointer_writes ok
  case scaledUiAmountExtension instruction =>
    cases instruction
    case initializeExtension =>
      exact initializeMintExtension_writes (by rw [named]; rfl) (by decide) ok
    case updateMultiplier => exact processUpdateMultiplier_writes named ok
  case pausableExtension instruction =>
    cases instruction
    case initializeExtension =>
      exact initializeMintExtension_writes (by rw [named]; rfl) (by decide) ok
    case pause => exact processTogglePause_writes ok
    case resume => exact processTogglePause_writes ok
  all_goals cases ok

/-! ### Metadata -/

theorem processInitializeMetadata_writes {name symbol uri : String}
    (ok : processInitializeMetadata L i.accounts name symbol uri = .ok outcome) :
    Writes i L outcome.validated L outcome.ledger := by
  simp only [processInitializeMetadata, checkMintAuthority, bind_eq_ok_iff, Prod.exists,
    nextAccountInfo_eq_ok_iff, checkProgramAccount_eq_ok_iff, unpackMint_eq_ok_iff,
    require_eq_ok_iff, exists_const] at ok
  obtain ⟨info, _, shape, _, _, shape₁, mintInfo, _, shape₂, minter, _, shape₃, here, owned, mint,
    data, ⟨signer, authority, pointer⟩, _, -, updated, written, ledger, stored, same⟩ := ok
  obtain rfl := Except.ok.inj same
  rw [here] at stored
  exact .ofChange owned data (.addMetadata authority pointer written
    ⟨minter, by simp [shape, shape₁, shape₂, shape₃], rfl, signer⟩) stored

/-- **A change of the metadata**, which its own authority vouches for. -/
theorem updateMetadataWith_writes {update : TokenMetadata → ProgramResult TokenMetadata}
    (ok : updateMetadataWith L i.accounts update = .ok outcome) :
    Writes i L outcome.validated L outcome.ledger := by
  simp only [updateMetadataWith, checkMetadataUpdateAuthority, bind_eq_ok_iff, Prod.exists,
    nextAccountInfo_eq_ok_iff, checkProgramAccount_eq_ok_iff, unpackMint_eq_ok_iff,
    require_eq_ok_iff, okOr_eq_ok_iff, exists_const] at ok
  obtain ⟨info, _, shape, updater, _, shape₁, owned, mint, data, metadata, held,
    ⟨signer, key, holder, same⟩, _, -, updated, written, ledger, stored, done⟩ := ok
  obtain rfl := Except.ok.inj done
  exact .ofChange owned data (.updateMetadata (StateWithExtensions.getExtension_eq_ok_iff.mp held)
    holder written ⟨updater, by simp [shape, shape₁], same.symm, signer⟩) stored

theorem processEmit_writes (ok : processEmit L i.accounts = .ok outcome) :
    Writes i L outcome.validated L outcome.ledger := by
  simp only [processEmit, bind_eq_ok_iff, Prod.exists] at ok
  obtain ⟨_, _, -, _, -, _, -, _, -, same⟩ := ok
  obtain rfl := Except.ok.inj same
  exact .refl

theorem processTokenMetadataInstruction_writes {instruction : TokenMetadataInstruction}
    (ok : processTokenMetadataInstruction i.env L i.accounts instruction = .ok outcome) :
    Writes i L outcome.validated L outcome.ledger := by
  cases instruction
  case initializeMetadata => exact processInitializeMetadata_writes ok
  case emit => exact processEmit_writes ok
  all_goals exact updateMetadataWith_writes ok

/-! ### Groups -/

theorem processInitializeGroup_writes {updateAuthority : MaybeNull Address} {maxSize : ℕ}
    (ok : processInitializeGroup L i.accounts updateAuthority maxSize = .ok outcome) :
    Writes i L outcome.validated L outcome.ledger := by
  simp only [processInitializeGroup, checkMintAuthority, bind_eq_ok_iff, Prod.exists,
    nextAccountInfo_eq_ok_iff, checkProgramAccount_eq_ok_iff, unpackMint_eq_ok_iff,
    require_eq_ok_iff, exists_const] at ok
  obtain ⟨info, _, shape, mintInfo, _, shape₁, minter, _, shape₂, here, owned, mint, data,
    ⟨signer, authority, pointer⟩, updated, written, ledger, stored, same⟩ := ok
  obtain rfl := Except.ok.inj same
  rw [here] at stored
  exact .ofChange owned data (.addGroup authority pointer rfl written
    ⟨minter, by simp [shape, shape₁, shape₂], rfl, signer⟩) stored

/-- **A change of a group**, which its own authority vouches for. -/
theorem updateGroupWith_writes {update : TokenGroup → ProgramResult TokenGroup}
    (ok : updateGroupWith L i.accounts update = .ok outcome)
    (updates : ∀ mint e key e', e.updateAuthority.toOption = some key → i.SignedBy key →
      update e = .ok e' → MintUpdate i [] mint .tokenGroup e e') :
    Writes i L outcome.validated L outcome.ledger := by
  simp only [updateGroupWith, checkGroupUpdateAuthority, bind_eq_ok_iff, Prod.exists,
    nextAccountInfo_eq_ok_iff, checkProgramAccount_eq_ok_iff, unpackMint_eq_ok_iff,
    require_eq_ok_iff, okOr_eq_ok_iff, exists_const] at ok
  obtain ⟨info, _, shape, updater, _, shape₁, owned, mint, data, group, held,
    ⟨signer, key, holder, same⟩, group', updated, ledger, stored, done⟩ := ok
  obtain rfl := Except.ok.inj done
  exact .ofChange owned data (.mintUpdate data (StateWithExtensions.getExtension_eq_ok_iff.mp held)
    (updates mint group key group' holder ⟨updater, by simp [shape, shape₁], same.symm, signer⟩
      updated)) stored

/-- **The writes of a new member**: the group counts it, and its mint says so. -/
theorem processInitializeMember_writes
    (named : i.instruction = .tokenGroup .initializeMember)
    (ok : processInitializeMember i.env L i.accounts = .ok outcome) :
    Writes i L outcome.validated L outcome.ledger := by
  simp only [processInitializeMember, checkMintAuthority, checkGroupUpdateAuthority, bind_eq_ok_iff,
    Prod.exists, nextAccountInfo_eq_ok_iff, checkProgramAccount_eq_ok_iff, unpackMint_eq_ok_iff,
    require_eq_ok_iff, okOr_eq_ok_iff, exists_const] at ok
  obtain ⟨info, _, shape, mintInfo, _, shape₁, minter, _, shape₂, groupInfo, _, shape₃, updater, _,
    shape₄, owned', here, owned, mint, data, ⟨signer, authority, pointer⟩, distinct, groupMint, data',
    group, held, ⟨signer', key, holder, same⟩, group', counted, mid, first, updated, written, last,
    second, done⟩ := ok
  obtain rfl := Except.ok.inj done
  obtain ⟨room, rfl⟩ := i.env.programs.incrementGroupSize_spec.mp counted
  rw [here] at second distinct
  exact writes_of_both (Ne.symm distinct) owned' owned data' data
    (.single (.mintUpdate data' (StateWithExtensions.getExtension_eq_ok_iff.mp held)
      (.enroll named holder room
        ⟨updater, by simp [shape, shape₁, shape₂, shape₃, shape₄], same.symm, signer'⟩)))
    (.single (.addMember authority pointer written
      ⟨minter, by simp [shape, shape₁, shape₂], rfl, signer⟩)) first second

theorem processTokenGroupInstruction_writes {instruction : TokenGroupInstruction}
    (named : i.instruction = .tokenGroup instruction)
    (ok : processTokenGroupInstruction i.env L i.accounts instruction = .ok outcome) :
    Writes i L outcome.validated L outcome.ledger := by
  cases instruction
  case initializeGroup => exact processInitializeGroup_writes ok
  case initializeMember => exact processInitializeMember_writes named ok
  case updateGroupMaxSize =>
    refine updateGroupWith_writes ok fun mint e key e' authority signed updated => ?_
    obtain ⟨fits, rfl⟩ := i.env.programs.updateGroupMaxSize_spec.mp updated
    exact .updateGroupMaxSize authority fits signed
  case updateGroupAuthority =>
    refine updateGroupWith_writes ok fun mint e key e' authority signed updated => ?_
    obtain rfl := Except.ok.inj updated
    exact .updateGroupAuthority authority signed

/-! ### Withheld fees -/

/-- **What is taken from one account.** -/
theorem harvestFromAccount_writes {m a : Address} {n : ℕ}
    (ok : harvestFromAccount L m a = .ok (n, L')) :
    Writes i start validated L L' ∧ ∀ b, b ≠ a → L' b = L b := by
  simp only [harvestFromAccount, bind_eq_ok_iff, unpackAccount_eq_ok_iff, require_eq_ok_iff,
    checkProgramAccount_eq_ok_iff, exists_const, Except.ok.injEq, Prod.mk.injEq] at ok
  obtain ⟨account, data, mint, owned, w, held, ledger, stored, rfl, rfl⟩ := ok
  refine ⟨.ofChange owned data (.accountUpdate (StateWithExtensions.getExtension_eq_ok_iff.mp held)
    .withhold) stored, fun b ne => ?_⟩
  obtain ⟨-, rfl⟩ := Ledger.writeData_eq_ok_iff.mp stored
  exact Function.update_of_ne ne ..

/-- **A loop of harvests** leaves the mint to be written at its end. -/
theorem harvestToMint_loop {m : Address} {items : List AccountMeta} {n n' : ℕ}
    (ok : items.foldlM (harvestToMintStep m) (L, n) = .ok (L', n')) :
    Writes i start validated L L' ∧ L' m = L m := by
  refine foldlM_invariant (P := fun state : Ledger × ℕ =>
    Writes i start validated L state.1 ∧ state.1 m = L m) ?_ ⟨.refl, rfl⟩ ok
  rintro info - ⟨M, total⟩ ⟨M', total'⟩ ⟨writes, kept⟩ step
  simp only [harvestToMintStep, bind_eq_ok_iff, require_eq_ok_iff, exists_const] at step
  obtain ⟨ne, step⟩ := step
  split at step
  · rename_i w ledger harvested
    simp only [bind_eq_ok_iff, Except.ok.injEq, Prod.mk.injEq] at step
    obtain ⟨_, -, rfl, -⟩ := step
    obtain ⟨more, others⟩ := harvestFromAccount_writes harvested
    exact ⟨writes.trans more, (others m (Ne.symm ne)).trans kept⟩
  · obtain ⟨rfl, -⟩ := Prod.mk.inj (Except.ok.inj step)
    exact ⟨writes, kept⟩

/-- **The writes of a harvest.** -/
theorem processHarvestWithheldTokensToMint_writes
    (ok : processHarvestWithheldTokensToMint L i.accounts = .ok outcome) :
    Writes i L outcome.validated L outcome.ledger := by
  simp only [processHarvestWithheldTokensToMint, bind_eq_ok_iff, Prod.exists,
    nextAccountInfo_eq_ok_iff, checkProgramAccount_eq_ok_iff, unpackMint_eq_ok_iff,
    exists_const] at ok
  obtain ⟨mintInfo, _, -, owned, mint, data, config, held, M, total, loop, last, stored, same⟩ := ok
  obtain rfl := Except.ok.inj same
  obtain ⟨writes, kept⟩ : Writes i L [] _ _ ∧ _ := harvestToMint_loop loop
  refine writes.trans (Writes.ofChange ?_ ?_ (.mintUpdate data
    (StateWithExtensions.getExtension_eq_ok_iff.mp held) .withhold) stored)
  · rw [kept, owned]
  · rw [kept, data]

/-- **A loop of withdrawals** keeps the destination in memory, to be written at its end. -/
theorem withdrawFromAccounts_loop {m d : Address} {destination destination' : TokenAccountState}
    {items : List AccountMeta}
    (ok : items.foldlM (withdrawFromAccountStep m d) (L, destination) = .ok (L', destination')) :
    Writes i start validated L L' ∧ L' d = L d ∧
      Changes i start validated d (.account destination) (.account destination') := by
  refine foldlM_invariant (P := fun state : Ledger × TokenAccountState =>
    Writes i start validated L state.1 ∧ state.1 d = L d ∧
      Changes i start validated d (.account destination) (.account state.2)) ?_
    ⟨.refl, rfl, .refl⟩ ok
  rintro info - ⟨M, st⟩ ⟨M', st'⟩ ⟨writes, kept, changes⟩ step
  simp only [withdrawFromAccountStep, bind_eq_ok_iff, require_eq_ok_iff, exists_const] at step
  obtain ⟨-, step⟩ := step
  split at step
  · simp only [bind_eq_ok_iff, okOr_eq_ok_iff, Except.ok.injEq, Prod.mk.injEq] at step
    obtain ⟨w, withheld, _, -, rfl, rfl⟩ := step
    refine ⟨writes, kept, (changes.tail (.accountUpdate withheld .withhold)).tail
      (.accountBase (.of_same ?_ ?_))⟩
    · rfl
    · rfl
  · rename_i ne
    split at step
    · rename_i w ledger harvested
      simp only [bind_eq_ok_iff, Except.ok.injEq, Prod.mk.injEq] at step
      obtain ⟨_, -, rfl, rfl⟩ := step
      obtain ⟨more, others⟩ := harvestFromAccount_writes harvested
      refine ⟨writes.trans more, (others d (Ne.symm ne)).trans kept,
        changes.tail (.accountBase (.of_same ?_ ?_))⟩
      · rfl
      · rfl
    · obtain ⟨rfl, rfl⟩ := Prod.mk.inj (Except.ok.inj step)
      exact ⟨writes, kept, changes⟩

/-- **The writes of a withdrawal from accounts.** -/
theorem processWithdrawWithheldTokensFromAccounts_writes {numTokenAccounts : ℕ}
    (ok : processWithdrawWithheldTokensFromAccounts L i.accounts numTokenAccounts = .ok outcome) :
    Writes i L outcome.validated L outcome.ledger := by
  simp only [processWithdrawWithheldTokensFromAccounts, bind_eq_ok_iff, Prod.exists,
    nextAccountInfo_eq_ok_iff, checkProgramAccount_eq_ok_iff, unpackMint_eq_ok_iff,
    unpackAccount_eq_ok_iff, okOr_eq_ok_iff, require_eq_ok_iff, exists_const] at ok
  obtain ⟨mintInfo, _, -, info, _, -, authority, _, -, -, owned, _, -, _, -, key, -, _, -, destination,
    data, -, -, M, destination', loop, last, stored, same⟩ := ok
  obtain rfl := Except.ok.inj same
  obtain ⟨writes, kept, changes⟩ : Writes i L [key] _ _ ∧ _ ∧ Changes i L [key] _ _ _ :=
    withdrawFromAccounts_loop loop
  refine writes.trans (Writes.ofWriteData ?_ ?_ changes stored)
  · rw [kept, owned]
  · rw [kept, data]

/-- **The writes of a withdrawal from the mint.** -/
theorem processWithdrawWithheldTokensFromMint_writes
    (ok : processWithdrawWithheldTokensFromMint L i.accounts = .ok outcome) :
    Writes i L outcome.validated L outcome.ledger := by
  simp only [processWithdrawWithheldTokensFromMint, bind_eq_ok_iff, Prod.exists,
    nextAccountInfo_eq_ok_iff, checkProgramAccount_eq_ok_iff, unpackMint_eq_ok_iff,
    unpackAccount_eq_ok_iff, okOr_eq_ok_iff, require_eq_ok_iff, exists_const] at ok
  obtain ⟨mintInfo, _, -, info, _, -, authority, signers, -, owned', owned, mint, data', config, held,
    key, -, _, -, destination, data, -, -, _, -, mid, first, last, second, same⟩ := ok
  obtain rfl := Except.ok.inj same
  refine writes_of_both (Ne.symm (ne_of_data data data')) owned' owned data' data
    (.single (.mintUpdate data' (StateWithExtensions.getExtension_eq_ok_iff.mp held) .withhold))
    (.single (.accountBase (.of_same ?_ ?_))) first second
  · rfl
  · rfl

theorem processTransferFeeInstruction_writes {instruction : TransferFeeInstruction}
    (named : i.instruction = .transferFeeExtension instruction)
    (ok : processTransferFeeInstruction i.env L i.accounts instruction = .ok outcome) :
    Writes i L outcome.validated L outcome.ledger := by
  cases instruction
  case initializeTransferFeeConfig =>
    exact initializeMintExtension_writes (by rw [named]; rfl) (by decide) ok
  case transferCheckedWithFee => exact processTransfer_writes (by rw [named]; rfl) ok
  case withdrawWithheldTokensFromMint => exact processWithdrawWithheldTokensFromMint_writes ok
  case withdrawWithheldTokensFromAccounts =>
    exact processWithdrawWithheldTokensFromAccounts_writes ok
  case harvestWithheldTokensToMint => exact processHarvestWithheldTokensToMint_writes ok
  case setTransferFee =>
    refine updateMintExtension_writes ok fun mint e key e' authority signed updated => ?_
    obtain ⟨-, same⟩ := require_bind_eq_ok_iff.mp updated
    obtain rfl := Except.ok.inj same
    exact .setTransferFee named authority signed rfl

end Token2022
