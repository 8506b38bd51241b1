/-
**Every instruction is a chain of writes.**

* **`run_writes`** — a successful instruction leads to its ledger by writes.
* `run_creditsOf`, `run_credits` — the instructions that credit a pending balance do so, once.
* `run_configures` — the instructions that configure an account do so.
* **`Reachable.data_invariant`** — what holds of new data, and is kept by every change, holds of all
  data of the program in every reachable ledger.
* **`Step.follow`** — what is kept of the data of one account until it is closed.
-/

import Token2022.Writes.Confidential

namespace Token2022

open Fallible Relation

variable {i : Invocation} {L L' : Ledger} {outcome : Outcome}

/-- **A successful instruction is a chain of writes.** -/
theorem run_writes (ok : i.run L = .ok outcome) :
    Writes i L outcome.validated L outcome.ledger := by
  unfold Invocation.run at ok
  cases named : i.instruction
  all_goals rw [named] at ok
  case initializeMint => exact processInitializeMintWith_writes (by rw [named]; rfl) ok
  case initializeMint2 => exact processInitializeMintWith_writes (by rw [named]; rfl) ok
  case initializeAccount =>
    replace ok : processInitializeAccountWith i.env L i.accounts none true = .ok outcome := ok
    exact processInitializeAccountWith_writes (by rw [named]; rfl) ok
  case initializeAccount2 owner =>
    replace ok : processInitializeAccountWith i.env L i.accounts (some owner) true = .ok outcome := ok
    exact processInitializeAccountWith_writes (by rw [named]; rfl) ok
  case initializeAccount3 owner =>
    replace ok : processInitializeAccountWith i.env L i.accounts (some owner) false = .ok outcome :=
      ok
    exact processInitializeAccountWith_writes (by rw [named]; rfl) ok
  case initializeMultisig => exact processInitializeMultisigWith_writes ok
  case initializeMultisig2 => exact processInitializeMultisigWith_writes ok
  case transfer => exact processTransfer_writes (by rw [named]; rfl) ok
  case transferChecked => exact processTransfer_writes (by rw [named]; rfl) ok
  case approve => exact processApprove_writes ok
  case approveChecked => exact processApprove_writes ok
  case revoke => exact processRevoke_writes ok
  case setAuthority => exact processSetAuthority_writes named ok
  case mintTo => exact processMintTo_writes ok
  case mintToChecked => exact processMintTo_writes ok
  case burn => exact processBurn_writes ok
  case burnChecked => exact processBurn_writes ok
  case closeAccount => exact processCloseAccount_writes named ok
  case freezeAccount => exact processToggleFreezeAccount_writes ok
  case thawAccount => exact processToggleFreezeAccount_writes ok
  case syncNative => exact processSyncNative_writes ok
  case getAccountDataSize => exact processGetAccountDataSize_writes ok
  case initializeImmutableOwner =>
    exact processInitializeImmutableOwner_writes (by rw [named]; rfl) ok
  case amountToUiAmount => exact processUiConversion_writes ok
  case uiAmountToAmount => exact processUiConversion_writes ok
  case initializeMintCloseAuthority =>
    exact initializeMintExtension_writes (by rw [named]; rfl) (by decide) ok
  case initializeNonTransferableMint =>
    exact initializeMintExtension_writes (by rw [named]; rfl) (by decide) ok
  case initializePermanentDelegate =>
    exact initializeMintExtension_writes (by rw [named]; rfl) (by decide) ok
  case transferFeeExtension => exact processTransferFeeInstruction_writes named ok
  case confidentialTransferExtension => exact processConfidentialTransferInstruction_writes named ok
  case confidentialTransferFeeExtension =>
    exact processConfidentialTransferFeeInstruction_writes named ok
  case confidentialMintBurnExtension => exact processConfidentialMintBurnInstruction_writes named ok
  case reallocate => exact processReallocate_writes ok
  case createNativeMint => exact processCreateNativeMint_writes named ok
  case withdrawExcessLamports => exact processWithdrawExcessLamports_writes ok
  case unwrapLamports => exact processUnwrapLamports_writes ok
  case permissionedBurnExtension instruction =>
    cases instruction
    case initializeExtension =>
      exact initializeMintExtension_writes (by rw [named]; rfl) (by decide) ok
    case burn => exact processBurn_writes ok
    case burnChecked => exact processBurn_writes ok
    case confidentialBurn => exact processConfidentialBurn_writes (by rw [named]; rfl) ok
  case tokenMetadata => exact processTokenMetadataInstruction_writes ok
  case tokenGroup => exact processTokenGroupInstruction_writes named ok
  all_goals exact processSettingInstruction_writes named ok

/-! ### Credits of pending balances -/

/-- The offsets of the proofs of a confidential transfer. -/
def TokenInstruction.transferOffsets? : TokenInstruction → Option ConfidentialTransferOffsets
  | .confidentialTransferExtension (.transfer _ _ _ equality validity range) =>
    some {
      equalityProof := equality.toInt
      ciphertextValidityProof := validity.toInt
      feeSigmaProof := none
      feeCiphertextValidityProof := none
      rangeProof := range.toInt }
  | .confidentialTransferExtension
      (.transferWithFee _ _ _ equality validity feeSigma feeValidity range) =>
    some {
      equalityProof := equality.toInt
      ciphertextValidityProof := validity.toInt
      feeSigmaProof := some feeSigma.toInt
      feeCiphertextValidityProof := some feeValidity.toInt
      rangeProof := range.toInt }
  | _ => none

/-- **What the proofs say of the fee** that an invocation takes from what it credits: it makes a
confidential transfer, of a mint with fees, between two accounts. -/
def Invocation.feeContext? (i : Invocation) (L : Ledger) : Option TransferWithFeeProofContext :=
  match i.accounts, i.instruction.transferOffsets? with
  | sourceInfo :: mintInfo :: destinationInfo :: accounts, some offsets =>
    match (L mintInfo.key).data with
    | .mint mint =>
      transferFeeContext? i.env L sourceInfo.key destinationInfo.key accounts mint offsets
    | _ => none
  | _, _ => none

theorem Invocation.feeContext?_eq_none (named : i.instruction.transferOffsets? = none) :
    i.feeContext? L = none := by
  unfold Invocation.feeContext?
  rw [named]
  split
  · rename_i other
    cases other
  · rfl

theorem Invocation.feeContext?_eq {offsets : ConfidentialTransferOffsets}
    {sourceInfo mintInfo destinationInfo : AccountMeta} {accounts : List AccountMeta}
    {mint : MintState} (named : i.instruction.transferOffsets? = some offsets)
    (shape : i.accounts = sourceInfo :: mintInfo :: destinationInfo :: accounts)
    (data : (L mintInfo.key).data = .mint mint) :
    i.feeContext? L =
      transferFeeContext? i.env L sourceInfo.key destinationInfo.key accounts mint offsets := by
  unfold Invocation.feeContext?
  rw [shape, named]
  simp only [data]

/-- **The instruction may write what the original writes** besides a credit: it transfers between the
same accounts, brings what is left of an available balance, and sets an encrypted supply. -/
structure TokenInstruction.StandsFor (instruction original : TokenInstruction) : Prop where
  transfers : original.destinationPlace? = some 2 → instruction.destinationPlace? = some 2
  spends : instruction.spendDecryptable? = original.spendDecryptable? ∨
    ∃ amount decimals, instruction = .transferChecked amount decimals
  mints : ∀ data, original = .confidentialMintBurnExtension (.mint data) →
    instruction.setsSupply = true

theorem TokenInstruction.StandsFor.refl (instruction : TokenInstruction) :
    instruction.StandsFor instruction where
  transfers := id
  spends := .inl rfl
  mints data same := by
    rw [same]
    rfl

/-- An instruction that makes the writes around a credit, and credits nothing. -/
def TokenInstruction.uncredited : TokenInstruction → TokenInstruction
  | .confidentialMintBurnExtension (.mint data) =>
    .confidentialMintBurnExtension (.updateDecryptableSupply data.newDecryptableSupply)
  | _ => .transferChecked 0 0

theorem TokenInstruction.uncredited_standsFor (instruction : TokenInstruction) :
    instruction.uncredited.StandsFor instruction := by
  unfold TokenInstruction.uncredited
  split
  · exact ⟨nofun, .inl rfl, fun _ _ => rfl⟩
  · rename_i other
    exact ⟨fun _ => rfl, .inr ⟨0, 0, rfl⟩, fun data same => absurd same (other data)⟩

/-- **The instructions that credit a pending balance do, once.** What they write besides, any
instruction may write that stands for them. -/
theorem run_creditsOf {a : Address} (named : i.creditsPending? = some a)
    (ok : i.run L = .ok outcome) (instruction : TokenInstruction)
    (stands : instruction.StandsFor i.instruction) :
    ∃ e lo hi, CreditAmounts (i.feeContext? L) L a e lo hi ∧
      CreditsOf { i with instruction } L outcome.validated a e lo hi L outcome.ledger := by
  unfold Invocation.run at ok
  unfold Invocation.creditsPending? at named
  split at named
  case h_1 _ deposit =>
    have none : i.feeContext? L = none := Invocation.feeContext?_eq_none (by rw [deposit]; rfl)
    rw [deposit] at ok
    obtain ⟨b, e, lo, hi, first, split, credits⟩ :=
      processDeposit_creditsOf (i := { i with instruction }) ok
    obtain rfl := Option.some.inj (first.symm.trans named)
    exact ⟨e, lo, hi, .whole none split, credits⟩
  case h_2 _ transfer | h_3 _ transfer =>
    rw [transfer] at ok stands
    obtain ⟨sourceInfo, mintInfo, destinationInfo, rest, mint, e, lo, hi, shape, data, amounts,
      credits⟩ :=
        processConfidentialTransfer_creditsOf (i := { i with instruction }) (stands.transfers rfl)
          stands.spends ok
    obtain rfl := Option.some.inj ((key?_two shape).symm.trans named)
    have fee : i.feeContext? L = transferFeeContext? i.env L _ _ rest mint _ :=
      Invocation.feeContext?_eq (by rw [transfer]; rfl) shape data
    exact ⟨e, lo, hi, fee ▸ amounts, credits⟩
  case h_4 _ mint =>
    have none : i.feeContext? L = none := Invocation.feeContext?_eq_none (by rw [mint]; rfl)
    rw [mint] at ok
    obtain ⟨b, e, lo, hi, first, split, credits⟩ :=
      processConfidentialMint_creditsOf (i := { i with instruction }) (stands.mints _ mint) ok
    obtain rfl := Option.some.inj (first.symm.trans named)
    exact ⟨e, lo, hi, .whole none split, credits⟩
  case h_5 => cases named

/-- **The instructions that credit a pending balance do.** -/
theorem run_credits {a : Address} (named : i.creditsPending? = some a)
    (ok : i.run L = .ok outcome) : Credits i L outcome.validated a L outcome.ledger := by
  obtain ⟨e, lo, hi, -, credits⟩ := run_creditsOf named ok i.instruction (.refl _)
  exact credits.credits

/-- **The instructions that configure an account do**, where it is not configured yet. -/
theorem run_configures {a : Address} (named : i.configures? = some a)
    (ok : i.run L = .ok outcome) : Configures i L outcome.validated a L outcome.ledger := by
  have target : ∀ b, i.key? 0 = some b → i.configures? = some b := by
    intro b first
    unfold Invocation.configures? at named ⊢
    split at named
    · exact first
    · exact first
    · cases named
  unfold Invocation.run at ok
  unfold Invocation.configures? at named
  split at named
  case h_1 _ configure =>
    rw [configure] at ok
    obtain ⟨b, first, configures⟩ := processConfigureAccount_configures target ok
    obtain rfl := Option.some.inj (first.symm.trans named)
    exact configures
  case h_2 _ configure =>
    rw [configure] at ok
    obtain ⟨b, first, configures⟩ := processConfigureAccountWithRegistry_configures target ok
    obtain rfl := Option.some.inj (first.symm.trans named)
    exact configures
  case h_3 => cases named

/-! ### The invariant rules of the system -/

/-- **The invariant rule for the data of the program.** -/
theorem Reachable.data_invariant {P : Address → AccountData → Prop} (reachable : Reachable L)
    (fresh : ∀ a len, P a (.zeroed ⟨[], len⟩))
    (keep : ∀ i start validated a old new, P a old → Change i start validated a old new → P a new) :
    ∀ a, (L a).owner = programId → P a (L a).data := by
  refine reachable.invariant (I := fun L => ∀ a, (L a).owner = programId → P a (L a).data)
    (fun G genesis a owned => absurd owned (genesis.unowned a)) fun L e L' holds step => ?_
  cases step with
  | invoke ok => exact (run_writes ok).data_invariant fresh (keep _ _ _) holds
  | external ext => exact ext.data_invariant fresh holds

/-- The event closes the account. -/
def Event.closes (e : Event) (a : Address) : Prop :=
  ∃ i, e = .invoke i ∧ i.closes a

/-- **The step rule for the data of an account that stays open.** -/
theorem Step.follow {R : AccountData → Prop} {a : Address} {e : Event} (step : Step L e L')
    (stays : ¬ e.closes a)
    (keep : ∀ i outcome old new, e = .invoke i → i.run L = .ok outcome → R old →
      Change i L outcome.validated a old new → R new)
    (init : (L a).owner = programId ∧ R (L a).data) :
    (L' a).owner = programId ∧ R (L' a).data := by
  cases step with
  | @invoke i outcome ok =>
    exact (run_writes ok).follow (fun closes => stays ⟨i, rfl, closes⟩)
      (fun old new => keep i outcome old new rfl ok) init
  | external ext =>
    obtain ⟨owned, data, -⟩ := ext.kept a init.1
    exact ⟨owned, data ▸ init.2⟩

end Token2022
