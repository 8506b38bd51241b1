/-
**The confidential mint-burn extension.**

The supply of such a mint is encrypted too. A confidential mint adds to it; a confidential burn
adds to the pending burns, which the mint authority takes off the supply later.
-/

import Token2022.Processor.ConfidentialTransferFee

namespace Token2022

open Fallible

/-- `confidential_mint_burn::process_initialize_mint`. -/
def processInitializeConfidentialMintBurnMint (L : Ledger) (accounts : List AccountMeta)
    (supplyElgamalPubkey : ElGamalPubkey) (decryptableSupply : AeCiphertext) :
    ProgramResult Outcome :=
  initializeMintExtension L accounts .confidentialMintBurn (.ok {
    confidentialSupply := 0
    decryptableSupply
    supplyElgamalPubkey
    pendingBurn := 0 })

/-- The mint authority of a mint, who signs. -/
def validateMintAuthority (L : Ledger) (mint : MintState) (authorityInfo : AccountMeta)
    (signers : List AccountMeta) : ProgramResult Address := do
  let authority ← okOr mint.base.mintAuthority TokenError.noAuthorityExists
  validateOwner L authority authorityInfo signers
  .ok authority

/-- `process_rotate_supply_elgamal_pubkey`. -/
def processRotateSupplyElgamalPubkey (env : Env) (L : Ledger) (accounts : List AccountMeta)
    (proofInstructionOffset : ℤ) : ProgramResult Outcome := do
  let (mintInfo, accounts) ← nextAccountInfo accounts
  checkProgramAccount (L mintInfo.key).owner
  let mint ← unpackMint (L mintInfo.key).data
  let extension ← mint.getExtension .confidentialMintBurn
  let (context, accounts) ← env.verifyAndExtractContext L
    VerifiedContext.asCiphertextCiphertextEquality accounts proofInstructionOffset none
  require (extension.supplyElgamalPubkey = context.firstPubkey)
    TokenError.confidentialTransferElGamalPubkeyMismatch
  require (extension.confidentialSupply = context.firstCiphertext) .invalidInstructionData
  require (extension.pendingBurn = 0) TokenError.pendingBalanceNonZero
  let (authorityInfo, signers) ← nextAccountInfo accounts
  let authority ← validateMintAuthority L mint authorityInfo signers
  let ledger ← L.writeData mintInfo.key (.mint (mint.set .confidentialMintBurn { extension with
    supplyElgamalPubkey := context.secondPubkey
    confidentialSupply := context.secondCiphertext }))
  .ok { ledger, validated := [authority] }

/-- `process_update_decryptable_supply`. -/
def processUpdateDecryptableSupply (L : Ledger) (accounts : List AccountMeta)
    (newDecryptableSupply : AeCiphertext) : ProgramResult Outcome := do
  let (mintInfo, accounts) ← nextAccountInfo accounts
  checkProgramAccount (L mintInfo.key).owner
  let mint ← unpackMint (L mintInfo.key).data
  let extension ← mint.getExtension .confidentialMintBurn
  let (authorityInfo, signers) ← nextAccountInfo accounts
  let authority ← validateMintAuthority L mint authorityInfo signers
  let ledger ← L.writeData mintInfo.key (.mint (mint.set .confidentialMintBurn
    { extension with decryptableSupply := newDecryptableSupply }))
  .ok { ledger, validated := [authority] }

/-- The data of a confidential mint. -/
structure MintInstructionData where
  newDecryptableSupply : AeCiphertext
  mintAmountAuditorCiphertextLo : ElGamalCiphertext
  mintAmountAuditorCiphertextHi : ElGamalCiphertext
  equalityProofInstructionOffset : Int8
  ciphertextValidityProofInstructionOffset : Int8
  rangeProofInstructionOffset : Int8
  deriving DecidableEq

/-- The data of a confidential burn. -/
structure BurnInstructionData where
  newDecryptableAvailableBalance : AeCiphertext
  burnAmountAuditorCiphertextLo : ElGamalCiphertext
  burnAmountAuditorCiphertextHi : ElGamalCiphertext
  equalityProofInstructionOffset : Int8
  ciphertextValidityProofInstructionOffset : Int8
  rangeProofInstructionOffset : Int8
  deriving DecidableEq

/-- `verify_mint_proof`. -/
def verifyMintProof (env : Env) (L : Ledger) (accounts : List AccountMeta)
    (equalityProofInstructionOffset ciphertextValidityProofInstructionOffset
      rangeProofInstructionOffset : ℤ) : ProgramResult (MintProofContext × List AccountMeta) :=
  verifyThreeProofs env L accounts equalityProofInstructionOffset
    ciphertextValidityProofInstructionOffset rangeProofInstructionOffset
    MintProofContext.verifyAndExtract

/-- `verify_burn_proof`. -/
def verifyBurnProof (env : Env) (L : Ledger) (accounts : List AccountMeta)
    (equalityProofInstructionOffset ciphertextValidityProofInstructionOffset
      rangeProofInstructionOffset : ℤ) : ProgramResult (BurnProofContext × List AccountMeta) :=
  verifyThreeProofs env L accounts equalityProofInstructionOffset
    ciphertextValidityProofInstructionOffset rangeProofInstructionOffset
    BurnProofContext.verifyAndExtract

/-- The supply after a confidential mint: what it adds up to is what the proof was made for. -/
def ConfidentialMintBurn.increaseSupply (extension : ConfidentialMintBurn)
    (context : MintProofContext) (newDecryptableSupply : AeCiphertext) :
    ProgramResult ConfidentialMintBurn := do
  require (extension.supplyElgamalPubkey = context.mintPubkeys.supply) .invalidInstructionData
  let confidentialSupply ← okOr (CiphertextArithmetic.addWithLoHi extension.confidentialSupply
    context.mintAmountCiphertextLo.second context.mintAmountCiphertextHi.second)
    TokenError.ciphertextArithmeticFailed
  require (confidentialSupply = context.newSupplyCiphertext)
    TokenError.confidentialTransferBalanceMismatch
  .ok { extension with confidentialSupply, decryptableSupply := newDecryptableSupply }

/-- `process_confidential_mint`. -/
def processConfidentialMint (env : Env) (L : Ledger) (accounts : List AccountMeta)
    (data : MintInstructionData) : ProgramResult Outcome := do
  let (tokenAccountInfo, accounts) ← nextAccountInfo accounts
  let (mintInfo, accounts) ← nextAccountInfo accounts
  checkProgramAccount (L mintInfo.key).owner
  let mint ← unpackMint (L mintInfo.key).data
  let confidentialMint ← mint.getExtension .confidentialTransferMint
  require (mint.paused = false) TokenError.mintPaused
  checkProgramAccount (L tokenAccountInfo.key).owner
  let account ← unpackAccount (L tokenAccountInfo.key).data
  require (¬ (mint.has .nonTransferable ∧
    (¬ account.has .immutableOwner ∨ ¬ account.has .nonTransferableAccount)))
    TokenError.nonTransferableNeedsImmutableOwnership
  let mintBurn ← mint.getExtension .confidentialMintBurn
  let (context, accounts) ← verifyMintProof env L accounts
    data.equalityProofInstructionOffset.toInt data.ciphertextValidityProofInstructionOffset.toInt
    data.rangeProofInstructionOffset.toInt
  let (authorityInfo, signers) ← nextAccountInfo accounts
  let authority ← validateMintAuthority L mint authorityInfo signers
  require (account.base.isFrozen = false) TokenError.accountFrozen
  require (account.base.mint = mintInfo.key) TokenError.mintMismatch
  require (account.base.isNativeAccount = false) TokenError.nativeNotSupported
  let extension ← account.getExtension .confidentialTransferAccount
  extension.validAsDestination
  require (context.mintPubkeys.destination = extension.elgamalPubkey) .invalidInstructionData
  require (confidentialMint.auditorElgamalPubkey = ⟨context.mintPubkeys.auditor⟩)
    TokenError.confidentialTransferElGamalPubkeyMismatch
  checkAuditorCiphertext data.mintAmountAuditorCiphertextLo data.mintAmountAuditorCiphertextHi
    context.mintAmountCiphertextLo.third context.mintAmountCiphertextHi.third
  let credited ← extension.creditPending context.mintAmountCiphertextLo.first
    context.mintAmountCiphertextHi.first
  let increased ← mintBurn.increaseSupply context data.newDecryptableSupply
  let ledger ← L.writeData tokenAccountInfo.key
    (.account (account.set .confidentialTransferAccount credited))
  let ledger ← ledger.writeData mintInfo.key (.mint (mint.set .confidentialMintBurn increased))
  .ok { ledger, validated := [authority] }

/-- The pending burns after a confidential burn. -/
def ConfidentialMintBurn.addPendingBurn (extension : ConfidentialMintBurn)
    (context : BurnProofContext) : ProgramResult ConfidentialMintBurn := do
  require (extension.supplyElgamalPubkey = context.burnPubkeys.supply) .invalidInstructionData
  let pendingBurn ← okOr (CiphertextArithmetic.addWithLoHi extension.pendingBurn
    context.burnAmountCiphertextLo.second context.burnAmountCiphertextHi.second)
    TokenError.ciphertextArithmeticFailed
  .ok { extension with pendingBurn }

/-- `process_confidential_burn`; `permissioned` is the burn variant. -/
def processConfidentialBurn (env : Env) (L : Ledger) (accounts : List AccountMeta)
    (data : BurnInstructionData) (permissioned : Bool) : ProgramResult Outcome := do
  let (tokenAccountInfo, accounts) ← nextAccountInfo accounts
  let (mintInfo, accounts) ← nextAccountInfo accounts
  checkProgramAccount (L mintInfo.key).owner
  let mint ← unpackMint (L mintInfo.key).data
  let confidentialMint ← mint.getExtension .confidentialTransferMint
  require (mint.paused = false) TokenError.mintPaused
  let (context, accounts) ← verifyBurnProof env L accounts
    data.equalityProofInstructionOffset.toInt data.ciphertextValidityProofInstructionOffset.toInt
    data.rangeProofInstructionOffset.toInt
  let (approver, accounts) ← (if permissioned then do
      let (approver, accounts) ← nextAccountInfo accounts
      .ok (some approver, accounts)
    else .ok (none, accounts))
  let (authorityInfo, signers) ← nextAccountInfo accounts
  checkBurnVariant mint approver
  let mintBurn ← mint.getExtension .confidentialMintBurn
  checkProgramAccount (L tokenAccountInfo.key).owner
  let account ← unpackAccount (L tokenAccountInfo.key).data
  validateOwner L account.base.owner authorityInfo signers
  require (¬ (authorityInfo.key = account.base.owner ∧ account.cpiLocked ∧ env.inCpi))
    TokenError.cpiGuardBurnBlocked
  require (account.base.isFrozen = false) TokenError.accountFrozen
  require (account.base.mint = mintInfo.key) TokenError.mintMismatch
  let extension ← account.getExtension .confidentialTransferAccount
  extension.validAsSource
  require (context.burnPubkeys.source = extension.elgamalPubkey)
    TokenError.confidentialTransferElGamalPubkeyMismatch
  checkAuditorCiphertext data.burnAmountAuditorCiphertextLo data.burnAmountAuditorCiphertextHi
    context.burnAmountCiphertextLo.third context.burnAmountCiphertextHi.third
  let debited ← extension.debitAvailable context.burnAmountCiphertextLo.first
    context.burnAmountCiphertextHi.first context.remainingBalanceCiphertext
    data.newDecryptableAvailableBalance
  require (confidentialMint.auditorElgamalPubkey = ⟨context.burnPubkeys.auditor⟩)
    TokenError.confidentialTransferElGamalPubkeyMismatch
  let burning ← mintBurn.addPendingBurn context
  let ledger ← L.writeData tokenAccountInfo.key
    (.account (account.set .confidentialTransferAccount debited))
  let ledger ← ledger.writeData mintInfo.key (.mint (mint.set .confidentialMintBurn burning))
  .ok { ledger, validated := [account.base.owner] }

/-- `process_apply_pending_burn`. -/
def processApplyPendingBurn (L : Ledger) (accounts : List AccountMeta) : ProgramResult Outcome := do
  let (mintInfo, accounts) ← nextAccountInfo accounts
  checkProgramAccount (L mintInfo.key).owner
  let mint ← unpackMint (L mintInfo.key).data
  let extension ← mint.getExtension .confidentialMintBurn
  let (authorityInfo, signers) ← nextAccountInfo accounts
  let authority ← validateMintAuthority L mint authorityInfo signers
  let confidentialSupply ← okOr
    (CiphertextArithmetic.subtract extension.confidentialSupply extension.pendingBurn)
    TokenError.ciphertextArithmeticFailed
  let ledger ← L.writeData mintInfo.key (.mint (mint.set .confidentialMintBurn
    { extension with confidentialSupply, pendingBurn := 0 }))
  .ok { ledger, validated := [authority] }

end Token2022
