/-
**The confidential-transfer-fee extension.**

Fees of confidential transfers are withheld in the destination in encrypted form, under the key of
the authority that withdraws them.

* `processWithdrawWithheldTokensFromMintConfidential`, `…FromAccountsConfidential` — the withheld
  total, encrypted anew under the destination's key, goes to its available balance.
* `processHarvestWithheldTokensToMintConfidential` — by anyone, where the mint enables it.
-/

import Token2022.Processor.ConfidentialTransfer
import Token2022.Processor.TransferFee

namespace Token2022

open Fallible

/-- `process_initialize_confidential_transfer_fee_config`. -/
def processInitializeConfidentialTransferFeeConfig (L : Ledger) (accounts : List AccountMeta)
    (authority : MaybeNull Address) (withdrawWithheldAuthorityElgamalPubkey : ElGamalPubkey) :
    ProgramResult Outcome :=
  initializeMintExtension L accounts .confidentialTransferFeeConfig (.ok {
    authority
    withdrawWithheldAuthorityElgamalPubkey
    harvestToMintEnabled := true
    withheldAmount := 0 })

/-- The withheld total is added to the available balance of the destination. -/
def ConfidentialTransferAccount.creditWithheld (account : ConfidentialTransferAccount)
    (withheld : ElGamalCiphertext) (decryptable : AeCiphertext) (error : ProgramError) :
    ProgramResult ConfidentialTransferAccount := do
  let availableBalance ← okOr (CiphertextArithmetic.add account.availableBalance withheld) error
  .ok { account with availableBalance, decryptableAvailableBalance := decryptable }

/-- `confidential_transfer_fee::process_withdraw_withheld_tokens_from_mint`. -/
def processWithdrawWithheldTokensFromMintConfidential (env : Env) (L : Ledger)
    (accounts : List AccountMeta) (newDecryptableAvailableBalance : AeCiphertext)
    (proofInstructionOffset : ℤ) : ProgramResult Outcome := do
  let (mintInfo, accounts) ← nextAccountInfo accounts
  let (destinationInfo, accounts) ← nextAccountInfo accounts
  let (context, accounts) ← env.verifyAndExtractContext L
    VerifiedContext.asCiphertextCiphertextEquality accounts proofInstructionOffset none
  let (authorityInfo, signers) ← nextAccountInfo accounts
  checkProgramAccount (L mintInfo.key).owner
  let mint ← unpackMint (L mintInfo.key).data
  let feeConfig ← mint.getExtension .transferFeeConfig
  let expected ← okOr feeConfig.withdrawWithheldAuthority.toOption TokenError.noAuthorityExists
  validateOwner L expected authorityInfo signers
  let config ← mint.getExtension .confidentialTransferFeeConfig
  checkProgramAccount (L destinationInfo.key).owner
  let destination ← unpackAccount (L destinationInfo.key).data
  require (destination.base.mint = mintInfo.key) TokenError.mintMismatch
  require (destination.base.isFrozen = false) TokenError.accountFrozen
  let extension ← destination.getExtension .confidentialTransferAccount
  extension.validAsWithheldAmountDestination
  require (context.firstPubkey = config.withdrawWithheldAuthorityElgamalPubkey)
    TokenError.confidentialTransferElGamalPubkeyMismatch
  require (context.secondPubkey = extension.elgamalPubkey)
    TokenError.confidentialTransferElGamalPubkeyMismatch
  require (context.firstCiphertext = config.withheldAmount)
    TokenError.confidentialTransferBalanceMismatch
  let credited ← extension.creditWithheld context.secondCiphertext newDecryptableAvailableBalance
    TokenError.ciphertextArithmeticFailed
  let ledger ← L.writeData destinationInfo.key
    (.account (destination.set .confidentialTransferAccount credited))
  let ledger ← ledger.writeData mintInfo.key
    (.mint (mint.set .confidentialTransferFeeConfig { config with withheldAmount := 0 }))
  .ok { ledger, validated := [expected] }

/-- `confidential_transfer_fee::harvest_from_account`. -/
def harvestFromAccountConfidential (L : Ledger) (mintKey a : Address) :
    ProgramResult (ElGamalCiphertext × Ledger) := do
  let account ← unpackAccount (L a).data
  require (account.base.mint = mintKey) TokenError.mintMismatch
  checkProgramAccount (L a).owner
  let withheld ← account.getExtension .confidentialTransferFeeAmount
  let ledger ← L.writeData a (.account (account.set .confidentialTransferFeeAmount ⟨0⟩))
  .ok (withheld.withheldAmount, ledger)

/-- One account of the list of the withdrawal: the destination may be one of them. -/
def withdrawFromAccountConfidentialStep (mintKey destinationKey : Address)
    (state : Ledger × TokenAccountState × ElGamalCiphertext) (info : AccountMeta) :
    ProgramResult (Ledger × TokenAccountState × ElGamalCiphertext) := do
  let (L, destination, aggregate) := state
  require (info.key ≠ mintKey) .accountBorrowFailed
  if info.key = destinationKey then
    let withheld ← okOr (destination.get .confidentialTransferFeeAmount) TokenError.invalidState
    let aggregate ← okOr (CiphertextArithmetic.add aggregate withheld.withheldAmount)
      TokenError.ciphertextArithmeticFailed
    .ok (L, destination.set .confidentialTransferFeeAmount ⟨0⟩, aggregate)
  else
    match harvestFromAccountConfidential L mintKey info.key with
    | .ok (withheld, ledger) => do
      let aggregate ← okOr (CiphertextArithmetic.add aggregate withheld)
        TokenError.ciphertextArithmeticFailed
      .ok (ledger, destination, aggregate)
    | .error _ => .ok (L, destination, aggregate)

/-- `confidential_transfer_fee::process_withdraw_withheld_tokens_from_accounts`. -/
def processWithdrawWithheldTokensFromAccountsConfidential (env : Env) (L : Ledger)
    (accounts : List AccountMeta) (numTokenAccounts : ℕ)
    (newDecryptableAvailableBalance : AeCiphertext) (proofInstructionOffset : ℤ) :
    ProgramResult Outcome := do
  let (mintInfo, accounts) ← nextAccountInfo accounts
  let (destinationInfo, accounts) ← nextAccountInfo accounts
  let (context, accounts) ← env.verifyAndExtractContext L
    VerifiedContext.asCiphertextCiphertextEquality accounts proofInstructionOffset none
  let (authorityInfo, accounts) ← nextAccountInfo accounts
  let numSigners := accounts.length - numTokenAccounts
  checkProgramAccount (L mintInfo.key).owner
  let mint ← unpackMint (L mintInfo.key).data
  let feeConfig ← mint.getExtension .transferFeeConfig
  let expected ← okOr feeConfig.withdrawWithheldAuthority.toOption TokenError.noAuthorityExists
  validateOwner L expected authorityInfo (accounts.take numSigners)
  checkProgramAccount (L destinationInfo.key).owner
  let destination ← unpackAccount (L destinationInfo.key).data
  require (destination.base.mint = mintInfo.key) TokenError.mintMismatch
  require (destination.base.isFrozen = false) TokenError.accountFrozen
  let extension ← destination.getExtension .confidentialTransferAccount
  extension.validAsWithheldAmountDestination
  let config ← mint.getExtension .confidentialTransferFeeConfig
  require (context.firstPubkey = config.withdrawWithheldAuthorityElgamalPubkey)
    TokenError.confidentialTransferElGamalPubkeyMismatch
  require (context.secondPubkey = extension.elgamalPubkey)
    TokenError.confidentialTransferElGamalPubkeyMismatch
  let (ledger, destination, aggregate) ← (accounts.drop numSigners).foldlM
    (withdrawFromAccountConfidentialStep mintInfo.key destinationInfo.key) (L, destination, 0)
  require (context.firstCiphertext = aggregate) TokenError.confidentialTransferBalanceMismatch
  let extension ← destination.getExtension .confidentialTransferAccount
  let credited ← extension.creditWithheld context.secondCiphertext newDecryptableAvailableBalance
    .invalidInstructionData
  let ledger ← ledger.writeData destinationInfo.key
    (.account (destination.set .confidentialTransferAccount credited))
  .ok { ledger, validated := [expected] }

/-- One account of the list of the harvest. An account that cannot be harvested is passed over; the
mint itself is borrowed already. -/
def harvestToMintConfidentialStep (mintKey : Address) (state : Ledger × ElGamalCiphertext)
    (info : AccountMeta) : ProgramResult (Ledger × ElGamalCiphertext) := do
  require (info.key ≠ mintKey) .accountBorrowFailed
  match harvestFromAccountConfidential state.1 mintKey info.key with
  | .ok (amount, ledger) => do
    let withheld ← okOr (CiphertextArithmetic.add state.2 amount)
      TokenError.ciphertextArithmeticFailed
    .ok (ledger, withheld)
  | .error _ => .ok state

/-- `confidential_transfer_fee::process_harvest_withheld_tokens_to_mint`. -/
def processHarvestWithheldTokensToMintConfidential (L : Ledger) (accounts : List AccountMeta) :
    ProgramResult Outcome := do
  let (mintInfo, tokenAccounts) ← nextAccountInfo accounts
  checkProgramAccount (L mintInfo.key).owner
  let mint ← unpackMint (L mintInfo.key).data
  let _ ← mint.getExtension .transferFeeConfig
  let config ← mint.getExtension .confidentialTransferFeeConfig
  require config.harvestToMintEnabled TokenError.harvestToMintDisabled
  let (ledger, withheldAmount) ←
    tokenAccounts.foldlM (harvestToMintConfidentialStep mintInfo.key) (L, config.withheldAmount)
  let ledger ← ledger.writeData mintInfo.key
    (.mint (mint.set .confidentialTransferFeeConfig { config with withheldAmount }))
  .ok { ledger, validated := [] }

/-- The common part of `process_enable_harvest_to_mint` and `process_disable_harvest_to_mint`. -/
def processToggleHarvestToMint (L : Ledger) (accounts : List AccountMeta) (enable : Bool) :
    ProgramResult Outcome :=
  updateMintExtension L accounts .confidentialTransferFeeConfig
    ConfidentialTransferFeeConfig.authority TokenError.noAuthorityExists
    fun config => .ok { config with harvestToMintEnabled := enable }

/-- `process_enable_harvest_to_mint`. -/
def processEnableHarvestToMint (L : Ledger) (accounts : List AccountMeta) : ProgramResult Outcome :=
  processToggleHarvestToMint L accounts true

/-- `process_disable_harvest_to_mint`. -/
def processDisableHarvestToMint (L : Ledger) (accounts : List AccountMeta) : ProgramResult Outcome :=
  processToggleHarvestToMint L accounts false

end Token2022
