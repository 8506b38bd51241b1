/-
**The transfer-fee extension.**

* `updateMintExtension` — the common part of the instructions that change an extension of a mint on
  behalf of an authority it names.
* `processWithdrawWithheldTokensFromMint`, `processHarvestWithheldTokensToMint`,
  `processWithdrawWithheldTokensFromAccounts` — the ways of a withheld fee back into circulation.
-/

import Token2022.Processor.Token

namespace Token2022

open Fallible

/-- `MAX_FEE_BASIS_POINTS`. -/
def maxFeeBasisPoints : ℕ := 10000

/-- `process_initialize_transfer_fee_config`. -/
def processInitializeTransferFeeConfig (env : Env) (L : Ledger) (accounts : List AccountMeta)
    (transferFeeConfigAuthority withdrawWithheldAuthority : Option Address)
    (transferFeeBasisPoints maximumFee : ℕ) : ProgramResult Outcome :=
  initializeMintExtension L accounts .transferFeeConfig do
    let transferFeeConfigAuthority ← MaybeNull.tryFrom transferFeeConfigAuthority
    let withdrawWithheldAuthority ← MaybeNull.tryFrom withdrawWithheldAuthority
    require (transferFeeBasisPoints ≤ maxFeeBasisPoints) TokenError.transferFeeExceedsMaximum
    let transferFee : TransferFee := { epoch := env.epoch, maximumFee, transferFeeBasisPoints }
    .ok {
      transferFeeConfigAuthority
      withdrawWithheldAuthority
      withheldAmount := 0
      olderTransferFee := transferFee
      newerTransferFee := transferFee }

/-- The common part of the instructions that change an extension of a mint: the authority that the
extension names, which must be there, signs. -/
def updateMintExtension (L : Ledger) (accounts : List AccountMeta) (t : ExtensionType)
    (authorityOf : Extension t → MaybeNull Address) (missing : TokenError)
    (update : Extension t → ProgramResult (Extension t)) : ProgramResult Outcome := do
  let (mintInfo, accounts) ← nextAccountInfo accounts
  let (authority, signers) ← nextAccountInfo accounts
  checkProgramAccount (L mintInfo.key).owner
  let mint ← unpackMint (L mintInfo.key).data
  let extension ← mint.getExtension t
  let expected ← okOr (authorityOf extension).toOption missing
  validateOwner L expected authority signers
  let updated ← update extension
  let ledger ← L.writeData mintInfo.key (.mint (mint.set t updated))
  .ok { ledger, validated := [expected] }

/-- `process_set_transfer_fee`. The new fee starts two epochs ahead, with saturation. -/
def processSetTransferFee (env : Env) (L : Ledger) (accounts : List AccountMeta)
    (transferFeeBasisPoints maximumFee : ℕ) : ProgramResult Outcome :=
  updateMintExtension L accounts .transferFeeConfig TransferFeeConfig.transferFeeConfigAuthority
    TokenError.noAuthorityExists fun config => do
    require (transferFeeBasisPoints ≤ maxFeeBasisPoints) TokenError.transferFeeExceedsMaximum
    let transferFee : TransferFee :=
      { epoch := min (env.epoch + 2) (2 ^ 64 - 1), maximumFee, transferFeeBasisPoints }
    .ok { config with
      olderTransferFee := if config.newerTransferFee.epoch ≤ env.epoch then config.newerTransferFee
        else config.olderTransferFee
      newerTransferFee := transferFee }

/-- `process_withdraw_withheld_tokens_from_mint`. -/
def processWithdrawWithheldTokensFromMint (L : Ledger) (accounts : List AccountMeta) :
    ProgramResult Outcome := do
  let (mintInfo, accounts) ← nextAccountInfo accounts
  let (destinationInfo, accounts) ← nextAccountInfo accounts
  let (authority, signers) ← nextAccountInfo accounts
  checkProgramAccount (L mintInfo.key).owner
  checkProgramAccount (L destinationInfo.key).owner
  let mint ← unpackMint (L mintInfo.key).data
  let config ← mint.getExtension .transferFeeConfig
  let expected ← okOr config.withdrawWithheldAuthority.toOption TokenError.noAuthorityExists
  validateOwner L expected authority signers
  let destination ← unpackAccount (L destinationInfo.key).data
  require (destination.base.mint = mintInfo.key) TokenError.mintMismatch
  require (destination.base.isFrozen = false) TokenError.accountFrozen
  let amount ←
    okOr (checkedAdd (2 ^ 64) destination.base.amount config.withheldAmount) TokenError.overflow
  let ledger ← L.writeData mintInfo.key
    (.mint (mint.set .transferFeeConfig { config with withheldAmount := 0 }))
  let ledger ← ledger.writeData destinationInfo.key
    (.account (destination.withBase { destination.base with amount }))
  .ok { ledger, validated := [expected] }

/-- `harvest_from_account`: the amount withheld in an account of the mint, and the accounts with
nothing withheld in it. -/
def harvestFromAccount (L : Ledger) (mintKey a : Address) : ProgramResult (ℕ × Ledger) := do
  let account ← unpackAccount (L a).data
  require (account.base.mint = mintKey) TokenError.mintMismatch
  checkProgramAccount (L a).owner
  let withheld ← account.getExtension .transferFeeAmount
  let ledger ← L.writeData a (.account (account.set .transferFeeAmount ⟨0⟩))
  .ok (withheld.withheldAmount, ledger)

/-- One account of the list of `process_harvest_withheld_tokens_to_mint`. An account that cannot be
harvested is passed over; the mint itself is borrowed already. -/
def harvestToMintStep (mintKey : Address) (state : Ledger × ℕ) (info : AccountMeta) :
    ProgramResult (Ledger × ℕ) := do
  require (info.key ≠ mintKey) .accountBorrowFailed
  match harvestFromAccount state.1 mintKey info.key with
  | .ok (amount, ledger) => do
    let withheld ← okOr (checkedAdd (2 ^ 64) state.2 amount) TokenError.overflow
    .ok (ledger, withheld)
  | .error _ => .ok state

/-- `process_harvest_withheld_tokens_to_mint`. -/
def processHarvestWithheldTokensToMint (L : Ledger) (accounts : List AccountMeta) :
    ProgramResult Outcome := do
  let (mintInfo, tokenAccounts) ← nextAccountInfo accounts
  checkProgramAccount (L mintInfo.key).owner
  let mint ← unpackMint (L mintInfo.key).data
  let config ← mint.getExtension .transferFeeConfig
  let (ledger, withheldAmount) ←
    tokenAccounts.foldlM (harvestToMintStep mintInfo.key) (L, config.withheldAmount)
  let ledger ← ledger.writeData mintInfo.key
    (.mint (mint.set .transferFeeConfig { config with withheldAmount }))
  .ok { ledger, validated := [] }

/-- One account of the list of `process_withdraw_withheld_tokens_from_accounts`: the destination may
be one of them. -/
def withdrawFromAccountStep (mintKey destinationKey : Address) (state : Ledger × TokenAccountState)
    (info : AccountMeta) : ProgramResult (Ledger × TokenAccountState) := do
  let (L, destination) := state
  require (info.key ≠ mintKey) .accountBorrowFailed
  if info.key = destinationKey then
    let withheld ← okOr (destination.get .transferFeeAmount) TokenError.invalidState
    let amount ←
      okOr (checkedAdd (2 ^ 64) destination.base.amount withheld.withheldAmount) TokenError.overflow
    .ok (L, (destination.set .transferFeeAmount ⟨0⟩).withBase { destination.base with amount })
  else
    match harvestFromAccount L mintKey info.key with
    | .ok (harvested, ledger) => do
      let amount ← okOr (checkedAdd (2 ^ 64) destination.base.amount harvested) TokenError.overflow
      .ok (ledger, destination.withBase { destination.base with amount })
    | .error _ => .ok (L, destination)

/-- `process_withdraw_withheld_tokens_from_accounts`. -/
def processWithdrawWithheldTokensFromAccounts (L : Ledger) (accounts : List AccountMeta)
    (numTokenAccounts : ℕ) : ProgramResult Outcome := do
  let (mintInfo, accounts) ← nextAccountInfo accounts
  let (destinationInfo, accounts) ← nextAccountInfo accounts
  let (authority, accounts) ← nextAccountInfo accounts
  let numSigners := accounts.length - numTokenAccounts
  checkProgramAccount (L mintInfo.key).owner
  checkProgramAccount (L destinationInfo.key).owner
  let mint ← unpackMint (L mintInfo.key).data
  let config ← mint.getExtension .transferFeeConfig
  let expected ← okOr config.withdrawWithheldAuthority.toOption TokenError.noAuthorityExists
  validateOwner L expected authority (accounts.take numSigners)
  let destination ← unpackAccount (L destinationInfo.key).data
  require (destination.base.mint = mintInfo.key) TokenError.mintMismatch
  require (destination.base.isFrozen = false) TokenError.accountFrozen
  let (ledger, destination) ← (accounts.drop numSigners).foldlM
    (withdrawFromAccountStep mintInfo.key destinationInfo.key) (L, destination)
  let ledger ← ledger.writeData destinationInfo.key (.account destination)
  .ok { ledger, validated := [expected] }

end Token2022
