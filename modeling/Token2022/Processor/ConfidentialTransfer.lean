/-
**The confidential-transfer extension.**

A token account has, next to its amount, a balance in encrypted form: `available`, which its owner
spends, and `pending`, in a low and a high part, which deposits and transfers credit. Each processor
takes its proofs first (`verifyWithdrawProof`, `verifyTransferProof`, `verifyTransferWithFeeProof`)
and checks them against the state.

* `debitConfidential`, `creditConfidential` — the two sides of a confidential transfer.
* `processDeposit`, `processWithdraw` — between the amount and the encrypted balance.
* `processConfidentialTransfer`, `processApplyPendingBalance`, `processEmptyAccount`.
-/

import Token2022.Processor.AccountConfig

namespace Token2022

open Fallible

/-- `MAXIMUM_DEPOSIT_TRANSFER_AMOUNT`. -/
def maximumDepositTransferAmount : ℕ := (2 ^ 16 - 1) + 2 ^ 16 * (2 ^ 32 - 1)

/-- `DEFAULT_MAXIMUM_PENDING_BALANCE_CREDIT_COUNTER`. -/
def defaultMaximumPendingBalanceCreditCounter : ℕ := 65536

/-! ### What an account says -/

namespace ConfidentialTransferAccount

/-- `valid_as_source`: the account is approved. -/
def validAsSource (account : ConfidentialTransferAccount) : ProgramResult Unit :=
  require account.approved TokenError.confidentialTransferAccountNotApproved

/-- `valid_as_withheld_amount_destination`. -/
def validAsWithheldAmountDestination (account : ConfidentialTransferAccount) :
    ProgramResult Unit := do
  account.validAsSource
  require account.allowConfidentialCredits
    TokenError.confidentialTransferDepositsAndTransfersDisabled

/-- `valid_as_destination`: one more credit is within the maximum. -/
def validAsDestination (account : ConfidentialTransferAccount) : ProgramResult Unit := do
  account.validAsWithheldAmountDestination
  let counter ← okOr (checkedAdd (2 ^ 64) account.pendingBalanceCreditCounter 1) TokenError.overflow
  require (counter ≤ account.maximumPendingBalanceCreditCounter)
    TokenError.maximumPendingBalanceCreditCounterExceeded

/-- `increment_pending_balance_credit_counter`. -/
def incrementPendingBalanceCreditCounter (account : ConfidentialTransferAccount) :
    ProgramResult ConfidentialTransferAccount := do
  let counter ← okOr (checkedAdd (2 ^ 64) account.pendingBalanceCreditCounter 1) TokenError.overflow
  .ok { account with pendingBalanceCreditCounter := counter }

/-- Add a low and a high ciphertext to the pending balance, as one more credit. -/
def creditPending (account : ConfidentialTransferAccount) (lo hi : ElGamalCiphertext) :
    ProgramResult ConfidentialTransferAccount := do
  let pendingBalanceLo ← okOr (CiphertextArithmetic.add account.pendingBalanceLo lo)
    TokenError.ciphertextArithmeticFailed
  let pendingBalanceHi ← okOr (CiphertextArithmetic.add account.pendingBalanceHi hi)
    TokenError.ciphertextArithmeticFailed
  incrementPendingBalanceCreditCounter { account with pendingBalanceLo, pendingBalanceHi }

/-- Take a low and a high ciphertext from the available balance; what is left is what the proof was
made for. -/
def debitAvailable (account : ConfidentialTransferAccount) (lo hi remaining : ElGamalCiphertext)
    (decryptable : AeCiphertext) : ProgramResult ConfidentialTransferAccount := do
  let availableBalance ← okOr (CiphertextArithmetic.subtractWithLoHi account.availableBalance lo hi)
    TokenError.ciphertextArithmeticFailed
  require (availableBalance = remaining) TokenError.confidentialTransferBalanceMismatch
  .ok { account with availableBalance, decryptableAvailableBalance := decryptable }

end ConfidentialTransferAccount

/-- `check_auditor_ciphertext`. -/
def checkAuditorCiphertext (instructionDataLo instructionDataHi proofContextLo proofContextHi :
    ElGamalCiphertext) : ProgramResult Unit := do
  require (instructionDataLo = proofContextLo) TokenError.confidentialTransferBalanceMismatch
  require (instructionDataHi = proofContextHi) TokenError.confidentialTransferBalanceMismatch

/-! ### Proofs of an instruction -/

/-- The next account as the instructions sysvar, where one of the proofs is at an offset. -/
def nextSysvarInfo (offsets : List ℤ) (accounts : List AccountMeta) :
    ProgramResult (Option AccountMeta × List AccountMeta) :=
  if offsets.any (· ≠ 0) then do
    let (info, accounts) ← nextAccountInfo accounts
    .ok (some info, accounts)
  else .ok (none, accounts)

/-- `verify_withdraw_proof`. -/
def verifyWithdrawProof (env : Env) (L : Ledger) (accounts : List AccountMeta)
    (equalityProofInstructionOffset rangeProofInstructionOffset : ℤ) :
    ProgramResult (WithdrawProofContext × List AccountMeta) := do
  let (sysvar, accounts) ←
    nextSysvarInfo [equalityProofInstructionOffset, rangeProofInstructionOffset] accounts
  let (equality, accounts) ← env.verifyAndExtractContext L
    VerifiedContext.asCiphertextCommitmentEquality accounts equalityProofInstructionOffset sysvar
  let (range, accounts) ← env.verifyAndExtractContext L
    VerifiedContext.asBatchedRangeProofU64 accounts rangeProofInstructionOffset sysvar
  let context ← WithdrawProofContext.verifyAndExtract equality range
  .ok (context, accounts)

/-- The three contexts that transfers without fee, mints and burns come with. -/
def verifyThreeProofs {C : Type} (env : Env) (L : Ledger) (accounts : List AccountMeta)
    (equalityProofInstructionOffset ciphertextValidityProofInstructionOffset
      rangeProofInstructionOffset : ℤ)
    (verifyAndExtract : CiphertextCommitmentEqualityProofContext →
      BatchedGroupedCiphertext3HandlesValidityProofContext → BatchedRangeProofContext →
      ProgramResult C) : ProgramResult (C × List AccountMeta) := do
  let (sysvar, accounts) ← nextSysvarInfo [equalityProofInstructionOffset,
    ciphertextValidityProofInstructionOffset, rangeProofInstructionOffset] accounts
  let (equality, accounts) ← env.verifyAndExtractContext L
    VerifiedContext.asCiphertextCommitmentEquality accounts equalityProofInstructionOffset sysvar
  let (validity, accounts) ← env.verifyAndExtractContext L
    VerifiedContext.asBatchedGroupedCiphertext3HandlesValidity accounts
    ciphertextValidityProofInstructionOffset sysvar
  let (range, accounts) ← env.verifyAndExtractContext L
    VerifiedContext.asBatchedRangeProofU128 accounts rangeProofInstructionOffset sysvar
  let context ← verifyAndExtract equality validity range
  .ok (context, accounts)

/-- `verify_transfer_proof`. -/
def verifyTransferProof (env : Env) (L : Ledger) (accounts : List AccountMeta)
    (equalityProofInstructionOffset ciphertextValidityProofInstructionOffset
      rangeProofInstructionOffset : ℤ) : ProgramResult (TransferProofContext × List AccountMeta) :=
  verifyThreeProofs env L accounts equalityProofInstructionOffset
    ciphertextValidityProofInstructionOffset rangeProofInstructionOffset
    TransferProofContext.verifyAndExtract

/-- `verify_transfer_with_fee_proof`. -/
def verifyTransferWithFeeProof (env : Env) (L : Ledger) (accounts : List AccountMeta)
    (equalityProofInstructionOffset transferAmountCiphertextValidityProofInstructionOffset
      feeSigmaProofInstructionOffset feeCiphertextValidityProofInstructionOffset
      rangeProofInstructionOffset : ℤ) (feeParameters : TransferFee) :
    ProgramResult (TransferWithFeeProofContext × List AccountMeta) := do
  let (sysvar, accounts) ← nextSysvarInfo [equalityProofInstructionOffset,
    transferAmountCiphertextValidityProofInstructionOffset, feeSigmaProofInstructionOffset,
    feeCiphertextValidityProofInstructionOffset, rangeProofInstructionOffset] accounts
  let (equality, accounts) ← env.verifyAndExtractContext L
    VerifiedContext.asCiphertextCommitmentEquality accounts equalityProofInstructionOffset sysvar
  let (amountValidity, accounts) ← env.verifyAndExtractContext L
    VerifiedContext.asBatchedGroupedCiphertext3HandlesValidity accounts
    transferAmountCiphertextValidityProofInstructionOffset sysvar
  let (feeSigma, accounts) ← env.verifyAndExtractContext L
    VerifiedContext.asPercentageWithCap accounts feeSigmaProofInstructionOffset sysvar
  let (feeValidity, accounts) ← env.verifyAndExtractContext L
    VerifiedContext.asBatchedGroupedCiphertext2HandlesValidity accounts
    feeCiphertextValidityProofInstructionOffset sysvar
  let (range, accounts) ← env.verifyAndExtractContext L
    VerifiedContext.asBatchedRangeProofU256 accounts rangeProofInstructionOffset sysvar
  let context ← TransferWithFeeProofContext.verifyAndExtract equality amountValidity feeSigma
    feeValidity range feeParameters.transferFeeBasisPoints feeParameters.maximumFee
  .ok (context, accounts)

/-! ### The mint -/

/-- `confidential_transfer::process_initialize_mint`. -/
def processInitializeConfidentialTransferMint (L : Ledger) (accounts : List AccountMeta)
    (authority : MaybeNull Address) (autoApproveNewAccounts : Bool)
    (auditorElgamalPubkey : MaybeNull ElGamalPubkey) : ProgramResult Outcome :=
  initializeMintExtension L accounts .confidentialTransferMint
    (.ok { authority, autoApproveNewAccounts, auditorElgamalPubkey })

/-- `process_update_mint`. The authority signs for itself. -/
def processUpdateConfidentialTransferMint (L : Ledger) (accounts : List AccountMeta)
    (autoApproveNewAccounts : Bool) (auditorElgamalPubkey : MaybeNull ElGamalPubkey) :
    ProgramResult Outcome := do
  let (mintInfo, accounts) ← nextAccountInfo accounts
  let (authorityInfo, _) ← nextAccountInfo accounts
  checkProgramAccount (L mintInfo.key).owner
  let mint ← unpackMint (L mintInfo.key).data
  let extension ← mint.getExtension .confidentialTransferMint
  let authority ← okOr extension.authority.toOption TokenError.noAuthorityExists
  require authorityInfo.isSigner .missingRequiredSignature
  require (authority = authorityInfo.key) TokenError.ownerMismatch
  let ledger ← L.writeData mintInfo.key (.mint (mint.set .confidentialTransferMint
    { extension with autoApproveNewAccounts, auditorElgamalPubkey }))
  .ok { ledger, validated := [] }

/-! ### Configuring accounts -/

/-- The confidential extension of a newly configured account. -/
def newConfidentialTransferAccount (approved : Bool) (elgamalPubkey : ElGamalPubkey)
    (decryptableZeroBalance : AeCiphertext) (maximumPendingBalanceCreditCounter : ℕ) :
    ConfidentialTransferAccount where
  approved
  elgamalPubkey
  pendingBalanceLo := 0
  pendingBalanceHi := 0
  availableBalance := 0
  decryptableAvailableBalance := decryptableZeroBalance
  allowConfidentialCredits := true
  allowNonConfidentialCredits := true
  pendingBalanceCreditCounter := 0
  maximumPendingBalanceCreditCounter
  expectedPendingBalanceCreditCounter := 0
  actualPendingBalanceCreditCounter := 0

/-- The end of `process_configure_account`: the extensions of the account, and of its fees where the
mint has them. -/
def configureAccount (L : Ledger) (tokenAccount mintKey : Address) (elgamalPubkey : ElGamalPubkey)
    (decryptableZeroBalance : AeCiphertext) (maximumPendingBalanceCreditCounter : ℕ) :
    ProgramResult Ledger := do
  let account ← unpackAccount (L tokenAccount).data
  checkProgramAccount (L mintKey).owner
  let mint ← unpackMint (L mintKey).data
  let confidentialMint ← mint.getExtension .confidentialTransferMint
  let account ← account.initExtension .confidentialTransferAccount
    (newConfidentialTransferAccount confidentialMint.autoApproveNewAccounts elgamalPubkey
      decryptableZeroBalance maximumPendingBalanceCreditCounter) false
  let account ← (if mint.has .transferFeeConfig then
    account.initExtension .confidentialTransferFeeAmount ⟨0⟩ false else .ok account)
  L.writeData tokenAccount (.account account)

/-- `process_configure_account`, with the key from a proof of its validity. -/
def processConfigureAccount (env : Env) (L : Ledger) (accounts : List AccountMeta)
    (decryptableZeroBalance : AeCiphertext) (maximumPendingBalanceCreditCounter : ℕ)
    (proofInstructionOffset : ℤ) : ProgramResult Outcome := do
  let (tokenAccountInfo, accounts) ← nextAccountInfo accounts
  let (mintInfo, accounts) ← nextAccountInfo accounts
  let (context, accounts) ← env.verifyAndExtractContext L VerifiedContext.asPubkeyValidity accounts
    proofInstructionOffset none
  checkProgramAccount (L tokenAccountInfo.key).owner
  let account ← unpackAccount (L tokenAccountInfo.key).data
  require (account.base.mint = mintInfo.key) TokenError.mintMismatch
  let (authorityInfo, signers) ← nextAccountInfo accounts
  validateOwner L account.base.owner authorityInfo signers
  let ledger ← configureAccount L tokenAccountInfo.key mintInfo.key context.pubkey
    decryptableZeroBalance maximumPendingBalanceCreditCounter
  .ok { ledger, validated := [account.base.owner] }

/-- `reallocate_for_configure_account_with_registry`. -/
def reallocateForConfigureAccountWithRegistry (env : Env) (L : Ledger)
    (tokenAccountInfo payerInfo : AccountMeta) : ProgramResult Ledger := do
  let account ← unpackAccount (L tokenAccountInfo.key).data
  let types := account.extensionTypes ++ [.confidentialTransferAccount] ++
    (if account.has .transferFeeAmount then [.confidentialTransferFeeAmount] else [])
  let neededLen ← tryCalculateAccountLen .account types
  if neededLen ≤ account.tlv.len then .ok L
  else
    let resized ← account.resize neededLen
    let ledger ← L.writeData tokenAccountInfo.key (.account resized)
    let lamportsDiff := env.minimumBalance neededLen - (L tokenAccountInfo.key).lamports
    if 0 < lamportsDiff then
      env.programs.systemTransfer ledger payerInfo tokenAccountInfo lamportsDiff
    else .ok ledger

/-- `process_configure_account_with_registry`: the registry's owner stands in for the account's. -/
def processConfigureAccountWithRegistry (env : Env) (L : Ledger) (accounts : List AccountMeta) :
    ProgramResult Outcome := do
  let (tokenAccountInfo, accounts) ← nextAccountInfo accounts
  let (mintInfo, accounts) ← nextAccountInfo accounts
  let (registryInfo, accounts) ← nextAccountInfo accounts
  require ((L registryInfo.key).owner = elgamalRegistryId) .incorrectProgramId
  let grown ← (match accounts with
    | [] => .ok L
    | payerInfo :: accounts => do
      let (_, _) ← nextAccountInfo accounts
      reallocateForConfigureAccountWithRegistry env L tokenAccountInfo payerInfo)
  let registry ← readElGamalRegistry (grown registryInfo.key).data
  checkProgramAccount (grown tokenAccountInfo.key).owner
  let account ← unpackAccount (grown tokenAccountInfo.key).data
  require (account.base.mint = mintInfo.key) TokenError.mintMismatch
  require (registry.owner = account.base.owner) TokenError.ownerMismatch
  let ledger ← configureAccount grown tokenAccountInfo.key mintInfo.key registry.elgamalPubkey 0
    defaultMaximumPendingBalanceCreditCounter
  .ok { ledger, validated := [] }

/-- `process_approve_account`. The mint's authority signs for itself. -/
def processApproveAccount (L : Ledger) (accounts : List AccountMeta) : ProgramResult Outcome := do
  let (tokenAccountInfo, accounts) ← nextAccountInfo accounts
  let (mintInfo, accounts) ← nextAccountInfo accounts
  let (authorityInfo, _) ← nextAccountInfo accounts
  checkProgramAccount (L tokenAccountInfo.key).owner
  let account ← unpackAccount (L tokenAccountInfo.key).data
  require (mintInfo.key = account.base.mint) TokenError.mintMismatch
  checkProgramAccount (L mintInfo.key).owner
  let mint ← unpackMint (L mintInfo.key).data
  let confidentialMint ← mint.getExtension .confidentialTransferMint
  let authority ← okOr confidentialMint.authority.toOption TokenError.noAuthorityExists
  require (authorityInfo.isSigner ∧ authorityInfo.key = authority) .missingRequiredSignature
  let extension ← account.getExtension .confidentialTransferAccount
  let ledger ← L.writeData tokenAccountInfo.key
    (.account (account.set .confidentialTransferAccount { extension with approved := true }))
  .ok { ledger, validated := [] }

/-- `process_empty_account`. It is not stopped by a freeze. -/
def processEmptyAccount (env : Env) (L : Ledger) (accounts : List AccountMeta)
    (proofInstructionOffset : ℤ) : ProgramResult Outcome := do
  let (tokenAccountInfo, accounts) ← nextAccountInfo accounts
  let (context, accounts) ← env.verifyAndExtractContext L VerifiedContext.asZeroCiphertext accounts
    proofInstructionOffset none
  let (authorityInfo, signers) ← nextAccountInfo accounts
  checkProgramAccount (L tokenAccountInfo.key).owner
  let account ← unpackAccount (L tokenAccountInfo.key).data
  validateOwner L account.base.owner authorityInfo signers
  let extension ← account.getExtension .confidentialTransferAccount
  require (extension.elgamalPubkey = context.pubkey)
    TokenError.confidentialTransferElGamalPubkeyMismatch
  require (extension.availableBalance = context.ciphertext)
    TokenError.confidentialTransferBalanceMismatch
  let emptied := { extension with availableBalance := 0 }
  emptied.closable
  let ledger ← L.writeData tokenAccountInfo.key
    (.account (account.set .confidentialTransferAccount emptied))
  .ok { ledger, validated := [account.base.owner] }

/-! ### Deposits and withdrawals -/

/-- `verify_and_split_deposit_amount`. -/
def verifyAndSplitDepositAmount (amount : ℕ) : ProgramResult (ℕ × ℕ) := do
  require (amount ≤ maximumDepositTransferAmount) TokenError.maximumDepositAmountExceeded
  .ok (amount % 2 ^ 16, amount / 2 ^ 16)

/-- The checks that deposits and withdrawals make of the mint, in the order of the deposit, and of
the account, in the order of both. -/
def confidentialExchangeAccount (L : Ledger) (tokenAccountInfo mintInfo authorityInfo : AccountMeta)
    (signers : List AccountMeta) : ProgramResult TokenAccountState := do
  checkProgramAccount (L tokenAccountInfo.key).owner
  let account ← unpackAccount (L tokenAccountInfo.key).data
  require (account.has .nonTransferableAccount = false) TokenError.nonTransferable
  validateOwner L account.base.owner authorityInfo signers
  require (account.base.isFrozen = false) TokenError.accountFrozen
  require (account.base.mint = mintInfo.key) TokenError.mintMismatch
  require (account.base.isNativeAccount = false) TokenError.nativeNotSupported
  .ok account

/-- `process_deposit`. -/
def processDeposit (L : Ledger) (accounts : List AccountMeta) (amount expectedDecimals : ℕ) :
    ProgramResult Outcome := do
  let (tokenAccountInfo, accounts) ← nextAccountInfo accounts
  let (mintInfo, accounts) ← nextAccountInfo accounts
  let (authorityInfo, signers) ← nextAccountInfo accounts
  checkProgramAccount (L mintInfo.key).owner
  let mint ← unpackMint (L mintInfo.key).data
  require (mint.paused = false) TokenError.mintPaused
  require (expectedDecimals = mint.base.decimals) TokenError.mintDecimalsMismatch
  require (mint.has .confidentialMintBurn = false) TokenError.illegalMintBurnConversion
  let account ← confidentialExchangeAccount L tokenAccountInfo mintInfo authorityInfo signers
  let newAmount ← okOr (checkedSub account.base.amount amount) TokenError.overflow
  let extension ← account.getExtension .confidentialTransferAccount
  extension.validAsDestination
  let (amountLo, amountHi) ← verifyAndSplitDepositAmount amount
  let pendingBalanceLo ← okOr (CiphertextArithmetic.addToWithOffset extension.elgamalPubkey
    extension.pendingBalanceLo amountLo) TokenError.ciphertextArithmeticFailed
  let pendingBalanceHi ← okOr (CiphertextArithmetic.addToWithOffset extension.elgamalPubkey
    extension.pendingBalanceHi amountHi) TokenError.ciphertextArithmeticFailed
  let credited ← ConfidentialTransferAccount.incrementPendingBalanceCreditCounter
    { extension with pendingBalanceLo, pendingBalanceHi }
  let ledger ← L.writeData tokenAccountInfo.key
    (.account ((account.withBase { account.base with amount := newAmount }).set
      .confidentialTransferAccount credited))
  .ok { ledger, validated := [account.base.owner] }

/-- `process_withdraw`. -/
def processWithdraw (env : Env) (L : Ledger) (accounts : List AccountMeta)
    (amount expectedDecimals : ℕ) (newDecryptableAvailableBalance : AeCiphertext)
    (equalityProofInstructionOffset rangeProofInstructionOffset : ℤ) : ProgramResult Outcome := do
  let (tokenAccountInfo, accounts) ← nextAccountInfo accounts
  let (mintInfo, accounts) ← nextAccountInfo accounts
  let (context, accounts) ← verifyWithdrawProof env L accounts equalityProofInstructionOffset
    rangeProofInstructionOffset
  let (authorityInfo, signers) ← nextAccountInfo accounts
  checkProgramAccount (L mintInfo.key).owner
  let mint ← unpackMint (L mintInfo.key).data
  require (expectedDecimals = mint.base.decimals) TokenError.mintDecimalsMismatch
  require (mint.has .confidentialMintBurn = false) TokenError.illegalMintBurnConversion
  require (mint.paused = false) TokenError.mintPaused
  let account ← confidentialExchangeAccount L tokenAccountInfo mintInfo authorityInfo signers
  let extension ← account.getExtension .confidentialTransferAccount
  extension.validAsSource
  require (extension.elgamalPubkey = context.sourcePubkey)
    TokenError.confidentialTransferElGamalPubkeyMismatch
  let availableBalance ← (if 0 < amount then
      okOr (CiphertextArithmetic.subtractFrom extension.availableBalance amount)
        TokenError.ciphertextArithmeticFailed
    else .ok extension.availableBalance)
  require (availableBalance = context.remainingBalanceCiphertext)
    TokenError.confidentialTransferBalanceMismatch
  let newAmount ← okOr (checkedAdd (2 ^ 64) account.base.amount amount) TokenError.overflow
  let debited := { extension with
    availableBalance
    decryptableAvailableBalance := newDecryptableAvailableBalance }
  let ledger ← L.writeData tokenAccountInfo.key
    (.account ((account.set .confidentialTransferAccount debited).withBase
      { account.base with amount := newAmount }))
  .ok { ledger, validated := [account.base.owner] }

/-! ### Transfers -/

/-- The common part of the source side: the owner signs, and the amount leaves the available
balance. -/
def debitConfidential (env : Env) (L : Ledger) (sourceInfo mintInfo authorityInfo : AccountMeta)
    (signers : List AccountMeta) (sourcePubkey : ElGamalPubkey)
    (ciphertextLo ciphertextHi : GroupedElGamalCiphertext3Handles)
    (newSourceCiphertext : ElGamalCiphertext) (newSourceDecryptable : AeCiphertext) :
    ProgramResult (Ledger × Address) := do
  checkProgramAccount (L sourceInfo.key).owner
  let account ← unpackAccount (L sourceInfo.key).data
  require (account.has .nonTransferableAccount = false) TokenError.nonTransferable
  validateOwner L account.base.owner authorityInfo signers
  require (¬ (authorityInfo.key = account.base.owner ∧ account.cpiLocked ∧ env.inCpi))
    TokenError.cpiGuardTransferBlocked
  require (account.base.isFrozen = false) TokenError.accountFrozen
  require (account.base.mint = mintInfo.key) TokenError.mintMismatch
  let extension ← account.getExtension .confidentialTransferAccount
  extension.validAsSource
  require (sourcePubkey = extension.elgamalPubkey)
    TokenError.confidentialTransferElGamalPubkeyMismatch
  let debited ← extension.debitAvailable ciphertextLo.first ciphertextHi.first newSourceCiphertext
    newSourceDecryptable
  let ledger ← L.writeData sourceInfo.key
    (.account (account.set .confidentialTransferAccount debited))
  .ok (ledger, account.base.owner)

/-- `process_source_for_transfer`. -/
def processSourceForTransfer (env : Env) (L : Ledger)
    (sourceInfo mintInfo authorityInfo : AccountMeta) (signers : List AccountMeta)
    (context : TransferProofContext) (newSourceDecryptable : AeCiphertext) :
    ProgramResult (Ledger × Address) :=
  debitConfidential env L sourceInfo mintInfo authorityInfo signers context.transferPubkeys.source
    context.ciphertextLo context.ciphertextHi context.newSourceCiphertext newSourceDecryptable

/-- `process_source_for_transfer_with_fee`. -/
def processSourceForTransferWithFee (env : Env) (L : Ledger)
    (sourceInfo mintInfo authorityInfo : AccountMeta) (signers : List AccountMeta)
    (context : TransferWithFeeProofContext) (newSourceDecryptable : AeCiphertext) :
    ProgramResult (Ledger × Address) :=
  debitConfidential env L sourceInfo mintInfo authorityInfo signers
    context.transferWithFeePubkeys.source context.ciphertextLo context.ciphertextHi
    context.newSourceCiphertext newSourceDecryptable

/-- The common part of the destination side: the account, and its confidential extension with the
amount in the pending balance. -/
def creditConfidential (env : Env) (L : Ledger) (destinationInfo mintInfo : AccountMeta)
    (destinationPubkey : ElGamalPubkey)
    (ciphertextLo ciphertextHi : GroupedElGamalCiphertext3Handles) :
    ProgramResult (TokenAccountState × ConfidentialTransferAccount) := do
  checkProgramAccount (L destinationInfo.key).owner
  let account ← unpackAccount (L destinationInfo.key).data
  require (account.base.isFrozen = false) TokenError.accountFrozen
  require (account.base.mint = mintInfo.key) TokenError.mintMismatch
  let _ ← (if account.memoRequired then env.checkPreviousSiblingInstructionIsMemo else .ok ())
  let extension ← account.getExtension .confidentialTransferAccount
  extension.validAsDestination
  require (destinationPubkey = extension.elgamalPubkey)
    TokenError.confidentialTransferElGamalPubkeyMismatch
  let credited ← extension.creditPending ciphertextLo.second ciphertextHi.second
  .ok (account, credited)

/-- `process_destination_for_transfer`. -/
def processDestinationForTransfer (env : Env) (L : Ledger) (destinationInfo mintInfo : AccountMeta)
    (context : TransferProofContext) : ProgramResult Ledger := do
  let (account, credited) ← creditConfidential env L destinationInfo mintInfo
    context.transferPubkeys.destination context.ciphertextLo context.ciphertextHi
  L.writeData destinationInfo.key (.account (account.set .confidentialTransferAccount credited))

/-- `process_destination_for_transfer_with_fee`. -/
def processDestinationForTransferWithFee (env : Env) (L : Ledger)
    (destinationInfo mintInfo : AccountMeta) (context : TransferWithFeeProofContext)
    (isSelfTransfer : Bool) : ProgramResult Ledger := do
  let (account, credited) ← creditConfidential env L destinationInfo mintInfo
    context.transferWithFeePubkeys.destination context.ciphertextLo context.ciphertextHi
  if isSelfTransfer then
    L.writeData destinationInfo.key (.account (account.set .confidentialTransferAccount credited))
  else
    let pendingBalanceLo ← okOr
      (CiphertextArithmetic.subtract credited.pendingBalanceLo context.feeCiphertextLo.first)
      TokenError.ciphertextArithmeticFailed
    let pendingBalanceHi ← okOr
      (CiphertextArithmetic.subtract credited.pendingBalanceHi context.feeCiphertextHi.first)
      TokenError.ciphertextArithmeticFailed
    let account := account.set .confidentialTransferAccount
      { credited with pendingBalanceLo, pendingBalanceHi }
    let feeAmount ← account.getExtension .confidentialTransferFeeAmount
    let withheldAmount ← okOr (CiphertextArithmetic.addWithLoHi feeAmount.withheldAmount
      context.feeCiphertextLo.second context.feeCiphertextHi.second)
      TokenError.ciphertextArithmeticFailed
    L.writeData destinationInfo.key
      (.account (account.set .confidentialTransferFeeAmount ⟨withheldAmount⟩))

/-- `set_transferring`, on the account at an address. -/
def setTransferringAt (L : Ledger) (a : Address) : ProgramResult Ledger := do
  let account ← unpackAccount (L a).data
  let account ← setTransferring account
  L.writeData a (.account account)

/-- The end of a confidential transfer: the hook program, where the mint has one, is called with the
largest amount in place of the unknown one. -/
def finishConfidentialTransfer (env : Env) (L : Ledger)
    (sourceInfo mintInfo destinationInfo authorityInfo : AccountMeta) (signers : List AccountMeta)
    (hookProgramId : Option Address) : ProgramResult Ledger :=
  match hookProgramId with
  | none => .ok L
  | some program => do
    let ledger ← setTransferringAt L sourceInfo.key
    let ledger ← setTransferringAt ledger destinationInfo.key
    let ledger ← env.programs.invokeExecute program ledger
      ([sourceInfo, mintInfo, destinationInfo, authorityInfo] ++ signers) (2 ^ 64 - 1)
    let ledger ← unsetTransferring ledger sourceInfo.key
    unsetTransferring ledger destinationInfo.key

/-- The offsets of a confidential transfer's proofs; those of the fee are there in the variant with
fee. -/
structure ConfidentialTransferOffsets where
  equalityProof : ℤ
  ciphertextValidityProof : ℤ
  feeSigmaProof : Option ℤ
  feeCiphertextValidityProof : Option ℤ
  rangeProof : ℤ
  deriving DecidableEq, Repr

/-- The two sides of a transfer of a mint without fees. -/
def confidentialTransferWithoutFee (env : Env) (L : Ledger)
    (sourceInfo mintInfo destinationInfo : AccountMeta) (accounts : List AccountMeta)
    (confidentialMint : ConfidentialTransferMint) (newSourceDecryptable : AeCiphertext)
    (auditorLo auditorHi : ElGamalCiphertext) (offsets : ConfidentialTransferOffsets) :
    ProgramResult (Ledger × Address × AccountMeta × List AccountMeta) := do
  let (context, accounts) ← verifyTransferProof env L accounts offsets.equalityProof
    offsets.ciphertextValidityProof offsets.rangeProof
  let (authorityInfo, signers) ← nextAccountInfo accounts
  require (confidentialMint.auditorElgamalPubkey = ⟨context.transferPubkeys.auditor⟩)
    TokenError.confidentialTransferElGamalPubkeyMismatch
  checkAuditorCiphertext auditorLo auditorHi context.ciphertextLo.third context.ciphertextHi.third
  let (ledger, validated) ← processSourceForTransfer env L sourceInfo mintInfo authorityInfo signers
    context newSourceDecryptable
  let ledger ← processDestinationForTransfer env ledger destinationInfo mintInfo context
  .ok (ledger, validated, authorityInfo, signers)

/-- The two sides of a transfer of a mint with fees. -/
def confidentialTransferWithFee (env : Env) (L : Ledger)
    (sourceInfo mintInfo destinationInfo : AccountMeta) (accounts : List AccountMeta)
    (mint : MintState) (confidentialMint : ConfidentialTransferMint) (feeConfig : TransferFeeConfig)
    (newSourceDecryptable : AeCiphertext) (auditorLo auditorHi : ElGamalCiphertext)
    (offsets : ConfidentialTransferOffsets) :
    ProgramResult (Ledger × Address × AccountMeta × List AccountMeta) := do
  let feeSigmaProof ← okOr offsets.feeSigmaProof .invalidInstructionData
  let feeCiphertextValidityProof ← okOr offsets.feeCiphertextValidityProof .invalidInstructionData
  let (context, accounts) ← verifyTransferWithFeeProof env L accounts offsets.equalityProof
    offsets.ciphertextValidityProof feeSigmaProof feeCiphertextValidityProof offsets.rangeProof
    (feeConfig.getEpochFee env.epoch)
  let (authorityInfo, signers) ← nextAccountInfo accounts
  require (confidentialMint.auditorElgamalPubkey = ⟨context.transferWithFeePubkeys.auditor⟩)
    TokenError.confidentialTransferElGamalPubkeyMismatch
  let confidentialFeeConfig ← mint.getExtension .confidentialTransferFeeConfig
  require (context.transferWithFeePubkeys.withdrawWithheldAuthority =
      confidentialFeeConfig.withdrawWithheldAuthorityElgamalPubkey)
    TokenError.confidentialTransferElGamalPubkeyMismatch
  checkAuditorCiphertext auditorLo auditorHi context.ciphertextLo.third context.ciphertextHi.third
  let (ledger, validated) ← processSourceForTransferWithFee env L sourceInfo mintInfo authorityInfo
    signers context newSourceDecryptable
  let ledger ← processDestinationForTransferWithFee env ledger destinationInfo mintInfo context
    (sourceInfo.key = destinationInfo.key)
  .ok (ledger, validated, authorityInfo, signers)

/-- `confidential_transfer::process_transfer`. The mint, not the instruction, tells whether there is
a fee. -/
def processConfidentialTransfer (env : Env) (L : Ledger) (accounts : List AccountMeta)
    (newSourceDecryptable : AeCiphertext) (auditorLo auditorHi : ElGamalCiphertext)
    (offsets : ConfidentialTransferOffsets) : ProgramResult Outcome := do
  let (sourceInfo, accounts) ← nextAccountInfo accounts
  let (mintInfo, accounts) ← nextAccountInfo accounts
  let (destinationInfo, accounts) ← nextAccountInfo accounts
  checkProgramAccount (L mintInfo.key).owner
  let mint ← unpackMint (L mintInfo.key).data
  require (mint.paused = false) TokenError.mintPaused
  let confidentialMint ← mint.getExtension .confidentialTransferMint
  let (moved, validated, authorityInfo, signers) ← (match mint.get .transferFeeConfig with
    | none => confidentialTransferWithoutFee env L sourceInfo mintInfo destinationInfo accounts
        confidentialMint newSourceDecryptable auditorLo auditorHi offsets
    | some feeConfig => confidentialTransferWithFee env L sourceInfo mintInfo destinationInfo
        accounts mint confidentialMint feeConfig newSourceDecryptable auditorLo auditorHi offsets)
  let ledger ← finishConfidentialTransfer env moved sourceInfo mintInfo destinationInfo
    authorityInfo signers mint.transferHookProgramId
  .ok { ledger, validated := [validated] }

/-! ### Pending balances and credits -/

/-- The common part of the instructions with which an owner changes the confidential extension of an
account. -/
def updateConfidentialAccount (L : Ledger) (accounts : List AccountMeta)
    (check : TokenAccountState → ProgramResult Unit)
    (update : ConfidentialTransferAccount → ProgramResult ConfidentialTransferAccount) :
    ProgramResult Outcome := do
  let (tokenAccountInfo, accounts) ← nextAccountInfo accounts
  let (authorityInfo, signers) ← nextAccountInfo accounts
  checkProgramAccount (L tokenAccountInfo.key).owner
  let account ← unpackAccount (L tokenAccountInfo.key).data
  validateOwner L account.base.owner authorityInfo signers
  check account
  let extension ← account.getExtension .confidentialTransferAccount
  let updated ← update extension
  let ledger ← L.writeData tokenAccountInfo.key
    (.account (account.set .confidentialTransferAccount updated))
  .ok { ledger, validated := [account.base.owner] }

/-- `process_apply_pending_balance`. -/
def processApplyPendingBalance (L : Ledger) (accounts : List AccountMeta)
    (expectedPendingBalanceCreditCounter : ℕ) (newDecryptableAvailableBalance : AeCiphertext) :
    ProgramResult Outcome :=
  updateConfidentialAccount L accounts
    (fun account => require (account.base.isFrozen = false) TokenError.accountFrozen)
    fun extension => do
      let availableBalance ← okOr (CiphertextArithmetic.addWithLoHi extension.availableBalance
        extension.pendingBalanceLo extension.pendingBalanceHi) TokenError.ciphertextArithmeticFailed
      .ok { extension with
        availableBalance
        actualPendingBalanceCreditCounter := extension.pendingBalanceCreditCounter
        expectedPendingBalanceCreditCounter
        decryptableAvailableBalance := newDecryptableAvailableBalance
        pendingBalanceCreditCounter := 0
        pendingBalanceLo := 0
        pendingBalanceHi := 0 }

/-- `process_allow_confidential_credits`. -/
def processAllowConfidentialCredits (L : Ledger) (accounts : List AccountMeta)
    (allowConfidentialCredits : Bool) : ProgramResult Outcome :=
  updateConfidentialAccount L accounts (fun _ => .ok ())
    fun extension => .ok { extension with allowConfidentialCredits }

/-- `process_allow_non_confidential_credits`. -/
def processAllowNonConfidentialCredits (L : Ledger) (accounts : List AccountMeta)
    (allowNonConfidentialCredits : Bool) : ProgramResult Outcome :=
  updateConfidentialAccount L accounts (fun _ => .ok ())
    fun extension => .ok { extension with allowNonConfidentialCredits }

end Token2022
