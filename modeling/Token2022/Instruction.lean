/-
**Instructions, and the processor that takes them.**

The instructions of the program with the data they carry, in the order of their tags and grouped as
the program groups them: an extension's instructions are a type of their own. A batch is a sequence
of instructions over consecutive slices of its accounts.

* `TokenInstruction` and the instructions of the extensions; an extension's `Initialize` is
  `initializeExtension` here.
* `processInner` — which processor an instruction goes to; `processBatch`.
-/

import Token2022.Processor.ConfidentialMintBurn
import Token2022.Processor.Metadata

namespace Token2022

open Fallible

/-! ### The instructions of the extensions -/

inductive TransferFeeInstruction
  | initializeTransferFeeConfig
      (transferFeeConfigAuthority withdrawWithheldAuthority : Option Address)
      (transferFeeBasisPoints : UInt16) (maximumFee : UInt64)
  | transferCheckedWithFee (amount : UInt64) (decimals : UInt8) (fee : UInt64)
  | withdrawWithheldTokensFromMint
  | withdrawWithheldTokensFromAccounts (numTokenAccounts : UInt8)
  | harvestWithheldTokensToMint
  | setTransferFee (transferFeeBasisPoints : UInt16) (maximumFee : UInt64)
  deriving DecidableEq

inductive ConfidentialTransferInstruction
  | initializeMint (authority : MaybeNull Address) (autoApproveNewAccounts : Bool)
      (auditorElgamalPubkey : MaybeNull ElGamalPubkey)
  | updateMint (autoApproveNewAccounts : Bool) (auditorElgamalPubkey : MaybeNull ElGamalPubkey)
  | configureAccount (decryptableZeroBalance : AeCiphertext)
      (maximumPendingBalanceCreditCounter : UInt64) (proofInstructionOffset : Int8)
  | approveAccount
  | emptyAccount (proofInstructionOffset : Int8)
  | deposit (amount : UInt64) (decimals : UInt8)
  | withdraw (amount : UInt64) (decimals : UInt8) (newDecryptableAvailableBalance : AeCiphertext)
      (equalityProofInstructionOffset rangeProofInstructionOffset : Int8)
  | transfer (newSourceDecryptableAvailableBalance : AeCiphertext)
      (transferAmountAuditorCiphertextLo transferAmountAuditorCiphertextHi : ElGamalCiphertext)
      (equalityProofInstructionOffset ciphertextValidityProofInstructionOffset
        rangeProofInstructionOffset : Int8)
  | applyPendingBalance (expectedPendingBalanceCreditCounter : UInt64)
      (newDecryptableAvailableBalance : AeCiphertext)
  | enableConfidentialCredits
  | disableConfidentialCredits
  | enableNonConfidentialCredits
  | disableNonConfidentialCredits
  | transferWithFee (newSourceDecryptableAvailableBalance : AeCiphertext)
      (transferAmountAuditorCiphertextLo transferAmountAuditorCiphertextHi : ElGamalCiphertext)
      (equalityProofInstructionOffset transferAmountCiphertextValidityProofInstructionOffset
        feeSigmaProofInstructionOffset feeCiphertextValidityProofInstructionOffset
        rangeProofInstructionOffset : Int8)
  | configureAccountWithRegistry
  deriving DecidableEq

inductive DefaultAccountStateInstruction
  | initializeExtension (state : AccountState)
  | update (state : AccountState)
  deriving DecidableEq

inductive MemoTransferInstruction
  | enable
  | disable
  deriving DecidableEq

inductive InterestBearingMintInstruction
  | initializeExtension (rateAuthority : MaybeNull Address) (rate : Int16)
  | updateRate (newRate : Int16)
  deriving DecidableEq

inductive CpiGuardInstruction
  | enable
  | disable
  deriving DecidableEq

inductive TransferHookInstruction
  | initializeExtension (authority programId : MaybeNull Address)
  | update (programId : MaybeNull Address)
  deriving DecidableEq

inductive ConfidentialTransferFeeInstruction
  | initializeConfidentialTransferFeeConfig (authority : MaybeNull Address)
      (withdrawWithheldAuthorityElgamalPubkey : ElGamalPubkey)
  | withdrawWithheldTokensFromMint (proofInstructionOffset : Int8)
      (newDecryptableAvailableBalance : AeCiphertext)
  | withdrawWithheldTokensFromAccounts (numTokenAccounts : UInt8) (proofInstructionOffset : Int8)
      (newDecryptableAvailableBalance : AeCiphertext)
  | harvestWithheldTokensToMint
  | enableHarvestToMint
  | disableHarvestToMint
  deriving DecidableEq

inductive MetadataPointerInstruction
  | initializeExtension (authority metadataAddress : MaybeNull Address)
  | update (metadataAddress : MaybeNull Address)
  deriving DecidableEq

inductive GroupPointerInstruction
  | initializeExtension (authority groupAddress : MaybeNull Address)
  | update (groupAddress : MaybeNull Address)
  deriving DecidableEq

inductive GroupMemberPointerInstruction
  | initializeExtension (authority memberAddress : MaybeNull Address)
  | update (memberAddress : MaybeNull Address)
  deriving DecidableEq

inductive ConfidentialMintBurnInstruction
  | initializeMint (supplyElgamalPubkey : ElGamalPubkey) (decryptableSupply : AeCiphertext)
  | rotateSupplyElgamalPubkey (newSupplyElgamalPubkey : ElGamalPubkey)
      (proofInstructionOffset : Int8)
  | updateDecryptableSupply (newDecryptableSupply : AeCiphertext)
  | mint (data : MintInstructionData)
  | burn (data : BurnInstructionData)
  | applyPendingBurn
  deriving DecidableEq

inductive ScaledUiAmountMintInstruction
  | initializeExtension (authority : MaybeNull Address) (multiplier : PodF64)
  | updateMultiplier (multiplier : PodF64) (effectiveTimestamp : Int64)
  deriving DecidableEq

inductive PausableInstruction
  | initializeExtension (authority : Address)
  | pause
  | resume
  deriving DecidableEq

inductive PermissionedBurnInstruction
  | initializeExtension (authority : Address)
  | burn (amount : UInt64)
  | burnChecked (amount : UInt64) (decimals : UInt8)
  | confidentialBurn (data : BurnInstructionData)
  deriving DecidableEq

/-- The instructions of the metadata interface. -/
inductive TokenMetadataInstruction
  | initializeMetadata (name symbol uri : String)
  | updateField (field : MetadataField) (value : String)
  | removeKey (idempotent : Bool) (key : String)
  | updateAuthority (newAuthority : MaybeNull Address)
  | emit
  deriving DecidableEq

/-- The instructions of the group interface. -/
inductive TokenGroupInstruction
  | initializeGroup (updateAuthority : MaybeNull Address) (maxSize : UInt64)
  | updateGroupMaxSize (maxSize : UInt64)
  | updateGroupAuthority (newAuthority : MaybeNull Address)
  | initializeMember
  deriving DecidableEq

/-! ### The instructions of the program -/

/-- **An instruction that is not a batch.** -/
inductive TokenInstruction
  | initializeMint (decimals : UInt8) (mintAuthority : Address) (freezeAuthority : Option Address)
  | initializeAccount
  | initializeMultisig (m : UInt8)
  | transfer (amount : UInt64)
  | approve (amount : UInt64)
  | revoke
  | setAuthority (authorityType : AuthorityType) (newAuthority : Option Address)
  | mintTo (amount : UInt64)
  | burn (amount : UInt64)
  | closeAccount
  | freezeAccount
  | thawAccount
  | transferChecked (amount : UInt64) (decimals : UInt8)
  | approveChecked (amount : UInt64) (decimals : UInt8)
  | mintToChecked (amount : UInt64) (decimals : UInt8)
  | burnChecked (amount : UInt64) (decimals : UInt8)
  | initializeAccount2 (owner : Address)
  | syncNative
  | initializeAccount3 (owner : Address)
  | initializeMultisig2 (m : UInt8)
  | initializeMint2 (decimals : UInt8) (mintAuthority : Address) (freezeAuthority : Option Address)
  | getAccountDataSize (extensionTypes : List ExtensionType)
  | initializeImmutableOwner
  | amountToUiAmount (amount : UInt64)
  | uiAmountToAmount (uiAmount : String)
  | initializeMintCloseAuthority (closeAuthority : Option Address)
  | transferFeeExtension (instruction : TransferFeeInstruction)
  | confidentialTransferExtension (instruction : ConfidentialTransferInstruction)
  | defaultAccountStateExtension (instruction : DefaultAccountStateInstruction)
  | reallocate (extensionTypes : List ExtensionType)
  | memoTransferExtension (instruction : MemoTransferInstruction)
  | createNativeMint
  | initializeNonTransferableMint
  | interestBearingMintExtension (instruction : InterestBearingMintInstruction)
  | cpiGuardExtension (instruction : CpiGuardInstruction)
  | initializePermanentDelegate (delegate : Address)
  | transferHookExtension (instruction : TransferHookInstruction)
  | confidentialTransferFeeExtension (instruction : ConfidentialTransferFeeInstruction)
  | withdrawExcessLamports
  | metadataPointerExtension (instruction : MetadataPointerInstruction)
  | groupPointerExtension (instruction : GroupPointerInstruction)
  | groupMemberPointerExtension (instruction : GroupMemberPointerInstruction)
  | confidentialMintBurnExtension (instruction : ConfidentialMintBurnInstruction)
  | scaledUiAmountExtension (instruction : ScaledUiAmountMintInstruction)
  | pausableExtension (instruction : PausableInstruction)
  | unwrapLamports (amount : Option UInt64)
  | permissionedBurnExtension (instruction : PermissionedBurnInstruction)
  | tokenMetadata (instruction : TokenMetadataInstruction)
  | tokenGroup (instruction : TokenGroupInstruction)
  deriving DecidableEq

/-! ### Processing -/

/-- `process_amount_to_ui_amount` and `process_ui_amount_to_amount`, for what they do to the accounts:
the conversion of an initialized mint goes to the caller. -/
def processUiConversion (L : Ledger) (accounts : List AccountMeta) : ProgramResult Outcome := do
  let (mintInfo, _) ← nextAccountInfo accounts
  checkProgramAccount (L mintInfo.key).owner
  let _ ← okOr (unpackMint (L mintInfo.key).data).toOption TokenError.invalidMint
  .ok { ledger := L, validated := [] }

section Extensions

variable (env : Env) (L : Ledger) (accounts : List AccountMeta)

/-- `transfer_fee::processor::process_instruction`. -/
def processTransferFeeInstruction : TransferFeeInstruction → ProgramResult Outcome
  | .initializeTransferFeeConfig transferFeeConfigAuthority withdrawWithheldAuthority
      transferFeeBasisPoints maximumFee =>
    processInitializeTransferFeeConfig env L accounts transferFeeConfigAuthority
      withdrawWithheldAuthority transferFeeBasisPoints.toNat maximumFee.toNat
  | .transferCheckedWithFee amount decimals fee =>
    processTransfer env L accounts amount.toNat (.checkedWithFee decimals.toNat fee.toNat)
  | .withdrawWithheldTokensFromMint => processWithdrawWithheldTokensFromMint L accounts
  | .withdrawWithheldTokensFromAccounts numTokenAccounts =>
    processWithdrawWithheldTokensFromAccounts L accounts numTokenAccounts.toNat
  | .harvestWithheldTokensToMint => processHarvestWithheldTokensToMint L accounts
  | .setTransferFee transferFeeBasisPoints maximumFee =>
    processSetTransferFee env L accounts transferFeeBasisPoints.toNat maximumFee.toNat

/-- `confidential_transfer::processor::process_instruction`. -/
def processConfidentialTransferInstruction :
    ConfidentialTransferInstruction → ProgramResult Outcome
  | .initializeMint authority autoApproveNewAccounts auditorElgamalPubkey =>
    processInitializeConfidentialTransferMint L accounts authority autoApproveNewAccounts
      auditorElgamalPubkey
  | .updateMint autoApproveNewAccounts auditorElgamalPubkey =>
    processUpdateConfidentialTransferMint L accounts autoApproveNewAccounts auditorElgamalPubkey
  | .configureAccount decryptableZeroBalance maximumPendingBalanceCreditCounter
      proofInstructionOffset =>
    processConfigureAccount env L accounts decryptableZeroBalance
      maximumPendingBalanceCreditCounter.toNat proofInstructionOffset.toInt
  | .approveAccount => processApproveAccount L accounts
  | .emptyAccount proofInstructionOffset =>
    processEmptyAccount env L accounts proofInstructionOffset.toInt
  | .deposit amount decimals => processDeposit L accounts amount.toNat decimals.toNat
  | .withdraw amount decimals newDecryptableAvailableBalance equalityProofInstructionOffset
      rangeProofInstructionOffset =>
    processWithdraw env L accounts amount.toNat decimals.toNat newDecryptableAvailableBalance
      equalityProofInstructionOffset.toInt rangeProofInstructionOffset.toInt
  | .transfer newSourceDecryptableAvailableBalance auditorLo auditorHi
      equalityProofInstructionOffset ciphertextValidityProofInstructionOffset
      rangeProofInstructionOffset =>
    processConfidentialTransfer env L accounts newSourceDecryptableAvailableBalance auditorLo
      auditorHi {
        equalityProof := equalityProofInstructionOffset.toInt
        ciphertextValidityProof := ciphertextValidityProofInstructionOffset.toInt
        feeSigmaProof := none
        feeCiphertextValidityProof := none
        rangeProof := rangeProofInstructionOffset.toInt }
  | .applyPendingBalance expectedPendingBalanceCreditCounter newDecryptableAvailableBalance =>
    processApplyPendingBalance L accounts expectedPendingBalanceCreditCounter.toNat
      newDecryptableAvailableBalance
  | .enableConfidentialCredits => processAllowConfidentialCredits L accounts true
  | .disableConfidentialCredits => processAllowConfidentialCredits L accounts false
  | .enableNonConfidentialCredits => processAllowNonConfidentialCredits L accounts true
  | .disableNonConfidentialCredits => processAllowNonConfidentialCredits L accounts false
  | .transferWithFee newSourceDecryptableAvailableBalance auditorLo auditorHi
      equalityProofInstructionOffset transferAmountCiphertextValidityProofInstructionOffset
      feeSigmaProofInstructionOffset feeCiphertextValidityProofInstructionOffset
      rangeProofInstructionOffset =>
    processConfidentialTransfer env L accounts newSourceDecryptableAvailableBalance auditorLo
      auditorHi {
        equalityProof := equalityProofInstructionOffset.toInt
        ciphertextValidityProof := transferAmountCiphertextValidityProofInstructionOffset.toInt
        feeSigmaProof := some feeSigmaProofInstructionOffset.toInt
        feeCiphertextValidityProof := some feeCiphertextValidityProofInstructionOffset.toInt
        rangeProof := rangeProofInstructionOffset.toInt }
  | .configureAccountWithRegistry => processConfigureAccountWithRegistry env L accounts

/-- `confidential_transfer_fee::processor::process_instruction`. -/
def processConfidentialTransferFeeInstruction :
    ConfidentialTransferFeeInstruction → ProgramResult Outcome
  | .initializeConfidentialTransferFeeConfig authority withdrawWithheldAuthorityElgamalPubkey =>
    processInitializeConfidentialTransferFeeConfig L accounts authority
      withdrawWithheldAuthorityElgamalPubkey
  | .withdrawWithheldTokensFromMint proofInstructionOffset newDecryptableAvailableBalance =>
    processWithdrawWithheldTokensFromMintConfidential env L accounts
      newDecryptableAvailableBalance proofInstructionOffset.toInt
  | .withdrawWithheldTokensFromAccounts numTokenAccounts proofInstructionOffset
      newDecryptableAvailableBalance =>
    processWithdrawWithheldTokensFromAccountsConfidential env L accounts numTokenAccounts.toNat
      newDecryptableAvailableBalance proofInstructionOffset.toInt
  | .harvestWithheldTokensToMint => processHarvestWithheldTokensToMintConfidential L accounts
  | .enableHarvestToMint => processEnableHarvestToMint L accounts
  | .disableHarvestToMint => processDisableHarvestToMint L accounts

/-- `confidential_mint_burn::processor::process_instruction`. -/
def processConfidentialMintBurnInstruction :
    ConfidentialMintBurnInstruction → ProgramResult Outcome
  | .initializeMint supplyElgamalPubkey decryptableSupply =>
    processInitializeConfidentialMintBurnMint L accounts supplyElgamalPubkey decryptableSupply
  | .rotateSupplyElgamalPubkey _ proofInstructionOffset =>
    processRotateSupplyElgamalPubkey env L accounts proofInstructionOffset.toInt
  | .updateDecryptableSupply newDecryptableSupply =>
    processUpdateDecryptableSupply L accounts newDecryptableSupply
  | .mint data => processConfidentialMint env L accounts data
  | .burn data => processConfidentialBurn env L accounts data false
  | .applyPendingBurn => processApplyPendingBurn L accounts

/-- `permissioned_burn::processor::process_instruction`. -/
def processPermissionedBurnInstruction : PermissionedBurnInstruction → ProgramResult Outcome
  | .initializeExtension authority => processInitializePermissionedBurn L accounts authority
  | .burn amount => processBurn env L accounts amount.toNat true none
  | .burnChecked amount decimals =>
    processBurn env L accounts amount.toNat true (some decimals.toNat)
  | .confidentialBurn data => processConfidentialBurn env L accounts data true

/-- `token_metadata::processor::process_instruction`. -/
def processTokenMetadataInstruction : TokenMetadataInstruction → ProgramResult Outcome
  | .initializeMetadata name symbol uri => processInitializeMetadata L accounts name symbol uri
  | .updateField field value => processUpdateField env L accounts field value
  | .removeKey idempotent key => processRemoveKey env L accounts key idempotent
  | .updateAuthority newAuthority => processUpdateMetadataAuthority L accounts newAuthority
  | .emit => processEmit L accounts

/-- `token_group::processor::process_instruction`. -/
def processTokenGroupInstruction : TokenGroupInstruction → ProgramResult Outcome
  | .initializeGroup updateAuthority maxSize =>
    processInitializeGroup L accounts updateAuthority maxSize.toNat
  | .updateGroupMaxSize maxSize => processUpdateGroupMaxSize env L accounts maxSize.toNat
  | .updateGroupAuthority newAuthority => processUpdateGroupAuthority L accounts newAuthority
  | .initializeMember => processInitializeMember env L accounts

/-- The `process_instruction` of the extensions that set or toggle one setting. -/
def processSettingInstruction : TokenInstruction → ProgramResult Outcome
  | .defaultAccountStateExtension (.initializeExtension state) =>
    processInitializeDefaultAccountState L accounts state
  | .defaultAccountStateExtension (.update state) =>
    processUpdateDefaultAccountState L accounts state
  | .memoTransferExtension .enable => processToggleRequiredMemoTransfers L accounts true
  | .memoTransferExtension .disable => processToggleRequiredMemoTransfers L accounts false
  | .interestBearingMintExtension (.initializeExtension rateAuthority rate) =>
    processInitializeInterestBearing env L accounts rateAuthority rate.toInt
  | .interestBearingMintExtension (.updateRate newRate) =>
    processUpdateRate env L accounts newRate.toInt
  | .cpiGuardExtension .enable => processToggleCpiGuard env L accounts true
  | .cpiGuardExtension .disable => processToggleCpiGuard env L accounts false
  | .transferHookExtension (.initializeExtension authority programId) =>
    processInitializeTransferHook L accounts authority programId
  | .transferHookExtension (.update programId) => processUpdateTransferHook L accounts programId
  | .metadataPointerExtension (.initializeExtension authority metadataAddress) =>
    processInitializeMetadataPointer L accounts authority metadataAddress
  | .metadataPointerExtension (.update metadataAddress) =>
    processUpdateMetadataPointer L accounts metadataAddress
  | .groupPointerExtension (.initializeExtension authority groupAddress) =>
    processInitializeGroupPointer L accounts authority groupAddress
  | .groupPointerExtension (.update groupAddress) =>
    processUpdateGroupPointer L accounts groupAddress
  | .groupMemberPointerExtension (.initializeExtension authority memberAddress) =>
    processInitializeGroupMemberPointer L accounts authority memberAddress
  | .groupMemberPointerExtension (.update memberAddress) =>
    processUpdateGroupMemberPointer L accounts memberAddress
  | .scaledUiAmountExtension (.initializeExtension authority multiplier) =>
    processInitializeScaledUiAmount L accounts authority multiplier
  | .scaledUiAmountExtension (.updateMultiplier multiplier effectiveTimestamp) =>
    processUpdateMultiplier env L accounts multiplier effectiveTimestamp.toInt
  | .pausableExtension (.initializeExtension authority) => processInitializePausable L accounts authority
  | .pausableExtension .pause => processTogglePause L accounts true
  | .pausableExtension .resume => processTogglePause L accounts false
  | _ => .error TokenError.invalidInstruction

/-- **`_process_inner`.** -/
def processInner : TokenInstruction → ProgramResult Outcome
  | .initializeMint decimals mintAuthority freezeAuthority =>
    processInitializeMint env L accounts decimals.toNat mintAuthority freezeAuthority
  | .initializeAccount => processInitializeAccount env L accounts
  | .initializeMultisig m => processInitializeMultisig env L accounts m.toNat
  | .transfer amount => processTransfer env L accounts amount.toNat .unchecked
  | .approve amount => processApprove env L accounts amount.toNat none
  | .revoke => processRevoke L accounts
  | .setAuthority authorityType newAuthority =>
    processSetAuthority env L accounts authorityType newAuthority
  | .mintTo amount => processMintTo L accounts amount.toNat none
  | .burn amount => processBurn env L accounts amount.toNat false none
  | .closeAccount => processCloseAccount env L accounts
  | .freezeAccount => processToggleFreezeAccount L accounts true
  | .thawAccount => processToggleFreezeAccount L accounts false
  | .transferChecked amount decimals =>
    processTransfer env L accounts amount.toNat (.checked decimals.toNat)
  | .approveChecked amount decimals =>
    processApprove env L accounts amount.toNat (some decimals.toNat)
  | .mintToChecked amount decimals => processMintTo L accounts amount.toNat (some decimals.toNat)
  | .burnChecked amount decimals =>
    processBurn env L accounts amount.toNat false (some decimals.toNat)
  | .initializeAccount2 owner => processInitializeAccount2 env L accounts owner
  | .syncNative => processSyncNative env L accounts
  | .initializeAccount3 owner => processInitializeAccount3 env L accounts owner
  | .initializeMultisig2 m => processInitializeMultisig2 env L accounts m.toNat
  | .initializeMint2 decimals mintAuthority freezeAuthority =>
    processInitializeMint2 env L accounts decimals.toNat mintAuthority freezeAuthority
  | .getAccountDataSize extensionTypes => processGetAccountDataSize L accounts extensionTypes
  | .initializeImmutableOwner => processInitializeImmutableOwner L accounts
  | .amountToUiAmount _ => processUiConversion L accounts
  | .uiAmountToAmount _ => processUiConversion L accounts
  | .initializeMintCloseAuthority closeAuthority =>
    processInitializeMintCloseAuthority L accounts closeAuthority
  | .transferFeeExtension instruction => processTransferFeeInstruction env L accounts instruction
  | .confidentialTransferExtension instruction =>
    processConfidentialTransferInstruction env L accounts instruction
  | .reallocate extensionTypes => processReallocate env L accounts extensionTypes
  | .createNativeMint => processCreateNativeMint env L accounts
  | .initializeNonTransferableMint => processInitializeNonTransferableMint L accounts
  | .initializePermanentDelegate delegate => processInitializePermanentDelegate L accounts delegate
  | .confidentialTransferFeeExtension instruction =>
    processConfidentialTransferFeeInstruction env L accounts instruction
  | .withdrawExcessLamports => processWithdrawExcessLamports env L accounts
  | .confidentialMintBurnExtension instruction =>
    processConfidentialMintBurnInstruction env L accounts instruction
  | .unwrapLamports amount => processUnwrapLamports env L accounts (amount.map UInt64.toNat)
  | .permissionedBurnExtension instruction =>
    processPermissionedBurnInstruction env L accounts instruction
  | .tokenMetadata instruction => processTokenMetadataInstruction env L accounts instruction
  | .tokenGroup instruction => processTokenGroupInstruction env L accounts instruction
  | instruction => processSettingInstruction env L accounts instruction

end Extensions

/-- `process_batch`: each instruction takes the accounts that its header counts. -/
def processBatch (env : Env) :
    Ledger → List AccountMeta → List (UInt8 × TokenInstruction) → ProgramResult Ledger
  | _, _, [] => .error TokenError.invalidInstruction
  | L, accounts, (expectedAccounts, instruction) :: rest => do
    require (expectedAccounts.toNat ≤ accounts.length) .notEnoughAccountKeys
    let outcome ← processInner env L (accounts.take expectedAccounts.toNat) instruction
    if rest.isEmpty then .ok outcome.ledger
    else processBatch env outcome.ledger (accounts.drop expectedAccounts.toNat) rest

end Token2022
