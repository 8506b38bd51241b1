/-
**The base instructions on initialized mints and token accounts.**

* `debitAuthority` — who may take tokens from an account: the mint's permanent delegate, the
  account's delegate within its allowance, or the owner, looked at in this order.
* `processTransfer`, `processMintTo`, `processBurn`, `processUnwrapLamports` — what moves tokens.
* `processApprove`, `processRevoke`, `processSetAuthority`, `processToggleFreezeAccount`,
  `processCloseAccount`, `processSyncNative`, `processWithdrawExcessLamports`.
-/

import Token2022.Processor.Initialize

namespace Token2022

open Fallible

/-! ### What an account or a mint says -/

namespace StateWithExtensions

variable {kind : AccountType} {S : Type}

/-- `get_permanent_delegate`. -/
def permanentDelegate (st : StateWithExtensions kind S) : Option Address :=
  (st.get .permanentDelegate).bind fun e => e.delegate.toOption

/-- `transfer_hook::get_program_id`. -/
def transferHookProgramId (st : StateWithExtensions kind S) : Option Address :=
  (st.get .transferHook).bind fun e => e.programId.toOption

/-- `memo_required`. -/
def memoRequired (st : StateWithExtensions kind S) : Bool :=
  (st.get .memoTransfer).any MemoTransfer.requireIncomingTransferMemos

/-- Whether the CPI guard is there and locked. -/
def cpiLocked (st : StateWithExtensions kind S) : Bool := (st.get .cpiGuard).any CpiGuard.lockCpi

/-- Whether the mint is pausable and paused. -/
def paused (st : StateWithExtensions kind S) : Bool := (st.get .pausable).any PausableConfig.paused

end StateWithExtensions

/-! ### Fees -/

namespace TransferFee

/-- `ceil_div`, in 128-bit arithmetic. -/
def ceilDiv (numerator denominator : ℕ) : Option ℕ := do
  let sum ← checkedAdd (2 ^ 128) numerator denominator
  let sum ← checkedSub sum 1
  if denominator = 0 then none else some (sum / denominator)

/-- `calculate_fee`. -/
def calculateFee (fee : TransferFee) (preFeeAmount : ℕ) : Option ℕ :=
  if fee.transferFeeBasisPoints = 0 ∨ preFeeAmount = 0 then some 0
  else do
    let numerator := preFeeAmount * fee.transferFeeBasisPoints
    if numerator < 2 ^ 128 then
      let rawFee ← ceilDiv numerator 10000
      if rawFee < 2 ^ 64 then some (min rawFee fee.maximumFee) else none
    else none

end TransferFee

namespace TransferFeeConfig

/-- `get_epoch_fee`. -/
def getEpochFee (config : TransferFeeConfig) (epoch : ℕ) : TransferFee :=
  if config.newerTransferFee.epoch ≤ epoch then config.newerTransferFee else config.olderTransferFee

/-- `calculate_epoch_fee`. -/
def calculateEpochFee (config : TransferFeeConfig) (epoch preFeeAmount : ℕ) : Option ℕ :=
  (config.getEpochFee epoch).calculateFee preFeeAmount

end TransferFeeConfig

/-! ### Authority over tokens -/

/-- The allowance after a delegate has spent `amount` of it; with nothing left, there is no
delegate. -/
def PodAccount.spendAllowance (a : PodAccount) (amount : ℕ) : PodAccount :=
  { a with
    delegatedAmount := a.delegatedAmount - amount
    delegate := if a.delegatedAmount - amount = 0 then none else a.delegate }

/-- The authority arms of transfer, burn and unwrap. `spends` tells whether a delegate's allowance
goes down, which it does not in a self-transfer; unwrap knows no permanent delegate. -/
def debitAuthority (L : Ledger) (account : PodAccount) (authority : AccountMeta)
    (signers : List AccountMeta) (permanentDelegate : Option Address) (amount : ℕ) (spends : Bool) :
    ProgramResult (PodAccount × Address × DebitArm) :=
  if permanentDelegate = some authority.key then do
    validateOwner L authority.key authority signers
    .ok (account, authority.key, .permanentDelegate)
  else if account.delegate = some authority.key then do
    validateOwner L authority.key authority signers
    require (amount ≤ account.delegatedAmount) TokenError.insufficientFunds
    .ok (if spends then account.spendAllowance amount else account, authority.key, .delegate)
  else do
    validateOwner L account.owner authority signers
    .ok (account, account.owner, .owner)

/-! ### Transfer -/

/-- `TransferInstruction`. -/
inductive TransferInstruction
  | unchecked
  | checked (decimals : ℕ)
  | checkedWithFee (decimals fee : ℕ)
  deriving DecidableEq

/-- The decimals that the instruction expects of a mint that it names. -/
def TransferInstruction.decimals : TransferInstruction → Option ℕ
  | .unchecked => none
  | .checked decimals | .checkedWithFee decimals _ => some decimals

/-- The fee that the instruction expects to be charged. -/
def TransferInstruction.expectedFee : TransferInstruction → Option ℕ
  | .unchecked | .checked _ => none
  | .checkedWithFee _ fee => some fee

/-- The next account as the mint, where the instruction expects certain decimals of one. -/
def nextMintInfo (decimals : Option ℕ) (accounts : List AccountMeta) :
    ProgramResult (Option (AccountMeta × ℕ) × List AccountMeta) :=
  match decimals with
  | none => .ok (none, accounts)
  | some decimals => do
    let (mintInfo, accounts) ← nextAccountInfo accounts
    .ok (some (mintInfo, decimals), accounts)

/-- What a transfer takes from the mint: the fee, the permanent delegate and the hook program. -/
structure TransferTerms where
  fee : ℕ
  permanentDelegate : Option Address
  transferHookProgramId : Option Address
  deriving DecidableEq

/-- The terms of a transfer that names the mint. -/
def checkedTransferTerms (env : Env) (L : Ledger) (source : TokenAccountState)
    (mintInfo : AccountMeta) (expectedDecimals amount : ℕ) : ProgramResult TransferTerms := do
  checkProgramAccount (L mintInfo.key).owner
  require (source.base.mint = mintInfo.key) TokenError.mintMismatch
  let mint ← unpackMint (L mintInfo.key).data
  require (expectedDecimals = mint.base.decimals) TokenError.mintDecimalsMismatch
  let fee ← (match mint.get .transferFeeConfig with
    | some config => okOr (config.calculateEpochFee env.epoch amount) TokenError.overflow
    | none => .ok 0)
  require (mint.paused = false) TokenError.mintPaused
  .ok ⟨fee, mint.permanentDelegate, mint.transferHookProgramId⟩

/-- The terms of a transfer that does not: none of the extensions on the source may call for the
mint. -/
def uncheckedTransferTerms (source : TokenAccountState) : ProgramResult TransferTerms := do
  require (source.has .transferHookAccount = false) TokenError.mintRequiredForTransfer
  require (source.has .transferFeeAmount = false) TokenError.mintRequiredForTransfer
  require (source.has .pausableAccount = false) TokenError.mintRequiredForTransfer
  .ok ⟨0, none, none⟩

/-- `set_transferring`. -/
def setTransferring (st : TokenAccountState) : ProgramResult TokenAccountState := do
  let _ ← st.getExtension .transferHookAccount
  .ok (st.set .transferHookAccount ⟨true⟩)

/-- `unset_transferring`. -/
def unsetTransferring (L : Ledger) (a : Address) : ProgramResult Ledger := do
  let st ← unpackAccount (L a).data
  let _ ← st.getExtension .transferHookAccount
  L.writeData a (.account (st.set .transferHookAccount ⟨false⟩))

/-- The end of a transfer: write both accounts, with the hook program called in between where the
mint has one. -/
def finishTransfer (env : Env) (L : Ledger) (source destination : AccountMeta)
    (sourceState destinationState : TokenAccountState) (hookProgramId : Option Address)
    (hookAccounts : List AccountMeta) (amount : ℕ) : ProgramResult Ledger :=
  match hookProgramId with
  | none => do
    let ledger ← L.writeData source.key (.account sourceState)
    ledger.writeData destination.key (.account destinationState)
  | some program => do
    let sourceState ← setTransferring sourceState
    let destinationState ← setTransferring destinationState
    let ledger ← L.writeData source.key (.account sourceState)
    let ledger ← ledger.writeData destination.key (.account destinationState)
    let ledger ← env.programs.invokeExecute program ledger hookAccounts amount
    let ledger ← unsetTransferring ledger source.key
    unsetTransferring ledger destination.key

/-- The destination after it received `amount` of which `fee` is withheld. -/
def creditTransfer (destination : TokenAccountState) (amount fee : ℕ) :
    ProgramResult TokenAccountState := do
  let credited ← okOr (checkedSub amount fee) TokenError.overflow
  let newAmount ← okOr (checkedAdd (2 ^ 64) destination.base.amount credited) TokenError.overflow
  let destination := destination.withBase { destination.base with amount := newAmount }
  if 0 < fee then
    match destination.get .transferFeeAmount with
    | some withheld => do
      let newWithheld ← okOr (checkedAdd (2 ^ 64) withheld.withheldAmount fee) TokenError.overflow
      .ok (destination.set .transferFeeAmount ⟨newWithheld⟩)
    | none => .error TokenError.invalidState
  else .ok destination

/-- Lamports follow the tokens of a native account. -/
def moveLamports (L : Ledger) (source destination : Address) (amount : ℕ) :
    ProgramResult Ledger := do
  let ledger ← L.debit source amount TokenError.overflow
  ledger.credit destination amount TokenError.overflow

/-- `process_transfer`. -/
def processTransfer (env : Env) (L : Ledger) (accounts : List AccountMeta) (amount : ℕ)
    (instruction : TransferInstruction) : ProgramResult Outcome := do
  let (sourceInfo, accounts) ← nextAccountInfo accounts
  let (expectedMint, accounts) ← nextMintInfo instruction.decimals accounts
  let (destinationInfo, accounts) ← nextAccountInfo accounts
  let (authority, signers) ← nextAccountInfo accounts
  checkProgramAccount (L sourceInfo.key).owner
  checkProgramAccount (L destinationInfo.key).owner
  let source ← unpackAccount (L sourceInfo.key).data
  require (source.base.isFrozen = false) TokenError.accountFrozen
  require (amount ≤ source.base.amount) TokenError.insufficientFunds
  require (source.has .nonTransferableAccount = false) TokenError.nonTransferable
  let terms ← (match expectedMint with
    | some (mintInfo, decimals) => checkedTransferTerms env L source mintInfo decimals amount
    | none => uncheckedTransferTerms source)
  require (instruction.expectedFee.all (fun fee => terms.fee = fee) = true) TokenError.feeMismatch
  let selfTransfer : Bool := sourceInfo.key = destinationInfo.key
  require (¬ (authority.key = source.base.owner ∧ source.cpiLocked ∧ env.inCpi))
    TokenError.cpiGuardTransferBlocked
  let (sourceBase, validated, arm) ← debitAuthority L source.base authority signers
    terms.permanentDelegate amount (!selfTransfer)
  if selfTransfer then
    let _ ← (if source.memoRequired then env.checkPreviousSiblingInstructionIsMemo else .ok ())
    .ok { ledger := L, validated := [validated], arm }
  else
    let destination ← unpackAccount (L destinationInfo.key).data
    require (destination.base.isFrozen = false) TokenError.accountFrozen
    require (source.base.mint = destination.base.mint) TokenError.mintMismatch
    let _ ← (if destination.memoRequired then env.checkPreviousSiblingInstructionIsMemo else .ok ())
    require (((destination.get .confidentialTransferAccount).all
      ConfidentialTransferAccount.allowNonConfidentialCredits) = true)
      TokenError.nonConfidentialTransfersDisabled
    let sourceAmount ← okOr (checkedSub source.base.amount amount) TokenError.overflow
    let source := source.withBase { sourceBase with amount := sourceAmount }
    let destination ← creditTransfer destination amount terms.fee
    let moved ← (if source.base.isNativeAccount then
      moveLamports L sourceInfo.key destinationInfo.key amount else .ok L)
    let ledger ← finishTransfer env moved sourceInfo destinationInfo source destination
      terms.transferHookProgramId
      ([sourceInfo] ++ (expectedMint.map Prod.fst).toList ++ [destinationInfo, authority] ++ signers)
      amount
    .ok { ledger, validated := [validated], arm }

/-! ### Delegation -/

/-- `process_approve`; `decimals` is there in the checked variant. -/
def processApprove (env : Env) (L : Ledger) (accounts : List AccountMeta) (amount : ℕ)
    (decimals : Option ℕ) : ProgramResult Outcome := do
  let (sourceInfo, accounts) ← nextAccountInfo accounts
  checkProgramAccount (L sourceInfo.key).owner
  let (expectedMint, accounts) ← nextMintInfo decimals accounts
  let (delegate, accounts) ← nextAccountInfo accounts
  let (owner, signers) ← nextAccountInfo accounts
  let source ← unpackAccount (L sourceInfo.key).data
  require (source.base.isFrozen = false) TokenError.accountFrozen
  let _ ← (match expectedMint with
    | some (mintInfo, expectedDecimals) => do
      checkProgramAccount (L mintInfo.key).owner
      require (source.base.mint = mintInfo.key) TokenError.mintMismatch
      let mint ← unpackMint (L mintInfo.key).data
      require (expectedDecimals = mint.base.decimals) TokenError.mintDecimalsMismatch
    | none => .ok ())
  validateOwner L source.base.owner owner signers
  require (¬ (source.cpiLocked ∧ env.inCpi)) TokenError.cpiGuardApproveBlocked
  let base := { source.base with delegate := some delegate.key, delegatedAmount := amount }
  let ledger ← L.writeData sourceInfo.key (.account (source.withBase base))
  .ok { ledger, validated := [source.base.owner] }

/-- `process_revoke`. -/
def processRevoke (L : Ledger) (accounts : List AccountMeta) : ProgramResult Outcome := do
  let (sourceInfo, accounts) ← nextAccountInfo accounts
  let (authority, signers) ← nextAccountInfo accounts
  checkProgramAccount (L sourceInfo.key).owner
  let source ← unpackAccount (L sourceInfo.key).data
  require (source.base.isFrozen = false) TokenError.accountFrozen
  let expected := if source.base.delegate = some authority.key then authority.key
    else source.base.owner
  validateOwner L expected authority signers
  let base := { source.base with delegate := none, delegatedAmount := 0 }
  let ledger ← L.writeData sourceInfo.key (.account (source.withBase base))
  .ok { ledger, validated := [expected] }

/-! ### Authorities -/

/-- `AuthorityType`. -/
inductive AuthorityType
  | mintTokens | freezeAccount | accountOwner | closeAccount | transferFeeConfig | withheldWithdraw
  | closeMint | interestRate | permanentDelegate | confidentialTransferMint | transferHookProgramId
  | confidentialTransferFeeConfig | metadataPointer | groupPointer | groupMemberPointer
  | scaledUiAmount | pause | permissionedBurn
  deriving DecidableEq, Repr

/-- `process_set_authority` on a token account. -/
def setAccountAuthority (env : Env) (L : Ledger) (account : TokenAccountState)
    (authority : AccountMeta) (signers : List AccountMeta) (authorityType : AuthorityType)
    (newAuthority : Option Address) : ProgramResult (PodAccount × Address) := do
  require (account.base.isFrozen = false) TokenError.accountFrozen
  match authorityType with
  | .accountOwner => do
    validateOwner L account.base.owner authority signers
    require (account.has .immutableOwner = false) TokenError.immutableOwner
    require (¬ (account.cpiLocked ∧ env.inCpi)) TokenError.cpiGuardSetAuthorityBlocked
    require (account.cpiLocked = false) TokenError.cpiGuardOwnerChangeBlocked
    let owner ← okOr newAuthority TokenError.invalidInstruction
    let base := { account.base with
      owner
      delegate := none
      delegatedAmount := 0
      closeAuthority :=
        if account.base.isNativeAccount then none else account.base.closeAuthority }
    .ok (base, account.base.owner)
  | .closeAccount => do
    let expected := account.base.closeAuthority.getD account.base.owner
    validateOwner L expected authority signers
    require (¬ (account.cpiLocked ∧ env.inCpi ∧ newAuthority.isSome))
      TokenError.cpiGuardSetAuthorityBlocked
    .ok ({ account.base with closeAuthority := newAuthority }, expected)
  | _ => .error TokenError.authorityTypeNotSupported

/-- The common part of `process_set_authority` for the authorities kept in an extension: the one in
force, which must be there, signs, and the new one replaces it. -/
def setExtensionAuthority (L : Ledger) (mint : MintState) (authority : AccountMeta)
    (signers : List AccountMeta) (newAuthority : Option Address) (t : ExtensionType)
    (read : Extension t → MaybeNull Address)
    (write : Extension t → MaybeNull Address → Extension t) :
    ProgramResult (MintState × Address) := do
  let extension ← mint.getExtension t
  let current ← okOr (read extension).toOption TokenError.authorityTypeNotSupported
  validateOwner L current authority signers
  let replaced ← MaybeNull.tryFrom newAuthority
  .ok (mint.set t (write extension replaced), current)

/-- `process_set_authority` on a mint. -/
def setMintAuthority (L : Ledger) (mint : MintState) (authority : AccountMeta)
    (signers : List AccountMeta) (authorityType : AuthorityType) (newAuthority : Option Address) :
    ProgramResult (MintState × Address) :=
  match authorityType with
  | .mintTokens => do
    let current ← okOr mint.base.mintAuthority TokenError.fixedSupply
    validateOwner L current authority signers
    .ok (mint.withBase { mint.base with mintAuthority := newAuthority }, current)
  | .freezeAccount => do
    let current ← okOr mint.base.freezeAuthority TokenError.mintCannotFreeze
    validateOwner L current authority signers
    .ok (mint.withBase { mint.base with freezeAuthority := newAuthority }, current)
  | .closeMint => setExtensionAuthority L mint authority signers newAuthority .mintCloseAuthority
      MintCloseAuthority.closeAuthority fun e a => { e with closeAuthority := a }
  | .transferFeeConfig => setExtensionAuthority L mint authority signers newAuthority
      .transferFeeConfig TransferFeeConfig.transferFeeConfigAuthority
      fun e a => { e with transferFeeConfigAuthority := a }
  | .withheldWithdraw => setExtensionAuthority L mint authority signers newAuthority
      .transferFeeConfig TransferFeeConfig.withdrawWithheldAuthority
      fun e a => { e with withdrawWithheldAuthority := a }
  | .interestRate => setExtensionAuthority L mint authority signers newAuthority
      .interestBearingConfig InterestBearingConfig.rateAuthority
      fun e a => { e with rateAuthority := a }
  | .permanentDelegate => setExtensionAuthority L mint authority signers newAuthority
      .permanentDelegate PermanentDelegate.delegate fun e a => { e with delegate := a }
  | .confidentialTransferMint => setExtensionAuthority L mint authority signers newAuthority
      .confidentialTransferMint ConfidentialTransferMint.authority
      fun e a => { e with authority := a }
  | .transferHookProgramId => setExtensionAuthority L mint authority signers newAuthority
      .transferHook TransferHook.authority fun e a => { e with authority := a }
  | .confidentialTransferFeeConfig => setExtensionAuthority L mint authority signers newAuthority
      .confidentialTransferFeeConfig ConfidentialTransferFeeConfig.authority
      fun e a => { e with authority := a }
  | .metadataPointer => setExtensionAuthority L mint authority signers newAuthority
      .metadataPointer MetadataPointer.authority fun e a => { e with authority := a }
  | .groupPointer => setExtensionAuthority L mint authority signers newAuthority
      .groupPointer GroupPointer.authority fun e a => { e with authority := a }
  | .groupMemberPointer => setExtensionAuthority L mint authority signers newAuthority
      .groupMemberPointer GroupMemberPointer.authority fun e a => { e with authority := a }
  | .scaledUiAmount => setExtensionAuthority L mint authority signers newAuthority
      .scaledUiAmount ScaledUiAmountConfig.authority fun e a => { e with authority := a }
  | .pause => setExtensionAuthority L mint authority signers newAuthority
      .pausable PausableConfig.authority fun e a => { e with authority := a }
  | .permissionedBurn => setExtensionAuthority L mint authority signers newAuthority
      .permissionedBurn PermissionedBurnConfig.authority fun e a => { e with authority := a }
  | .accountOwner | .closeAccount => .error TokenError.authorityTypeNotSupported

/-- `process_set_authority`. -/
def processSetAuthority (env : Env) (L : Ledger) (accounts : List AccountMeta)
    (authorityType : AuthorityType) (newAuthority : Option Address) : ProgramResult Outcome := do
  let (accountInfo, accounts) ← nextAccountInfo accounts
  let (authority, signers) ← nextAccountInfo accounts
  checkProgramAccount (L accountInfo.key).owner
  match unpackAccount (L accountInfo.key).data with
  | .ok account => do
    let (base, validated) ←
      setAccountAuthority env L account authority signers authorityType newAuthority
    let ledger ← L.writeData accountInfo.key (.account (account.withBase base))
    .ok { ledger, validated := [validated] }
  | .error _ =>
    match unpackMint (L accountInfo.key).data with
    | .ok mint => do
      let (mint, validated) ←
        setMintAuthority L mint authority signers authorityType newAuthority
      let ledger ← L.writeData accountInfo.key (.mint mint)
      .ok { ledger, validated := [validated] }
    | .error _ => .error .invalidAccountData

/-! ### Minting and burning -/

/-- `process_mint_to`; `decimals` is there in the checked variant. -/
def processMintTo (L : Ledger) (accounts : List AccountMeta) (amount : ℕ) (decimals : Option ℕ) :
    ProgramResult Outcome := do
  let (mintInfo, accounts) ← nextAccountInfo accounts
  let (destinationInfo, accounts) ← nextAccountInfo accounts
  let (owner, signers) ← nextAccountInfo accounts
  checkProgramAccount (L mintInfo.key).owner
  checkProgramAccount (L destinationInfo.key).owner
  let destination ← unpackAccount (L destinationInfo.key).data
  require (destination.base.isFrozen = false) TokenError.accountFrozen
  require (destination.base.isNativeAccount = false) TokenError.nativeNotSupported
  require (mintInfo.key = destination.base.mint) TokenError.mintMismatch
  let mint ← unpackMint (L mintInfo.key).data
  require (¬ (mint.has .nonTransferable ∧
    (¬ destination.has .immutableOwner ∨ ¬ destination.has .nonTransferableAccount)))
    TokenError.nonTransferableNeedsImmutableOwnership
  require (mint.paused = false) TokenError.mintPaused
  require (mint.has .confidentialMintBurn = false) TokenError.illegalMintBurnConversion
  require (decimals.all (fun d => d = mint.base.decimals) = true) TokenError.mintDecimalsMismatch
  let mintAuthority ← okOr mint.base.mintAuthority TokenError.fixedSupply
  validateOwner L mintAuthority owner signers
  let newAmount ← okOr (checkedAdd (2 ^ 64) destination.base.amount amount) TokenError.overflow
  let newSupply ← okOr (checkedAdd (2 ^ 64) mint.base.supply amount) TokenError.overflow
  let ledger ← L.writeData destinationInfo.key
    (.account (destination.withBase { destination.base with amount := newAmount }))
  let ledger ← ledger.writeData mintInfo.key
    (.mint (mint.withBase { mint.base with supply := newSupply }))
  .ok { ledger, validated := [mintAuthority] }

/-- The authority of the mint's permissioned burns. -/
def MintState.permissionedBurnAuthority (mint : MintState) : Option Address :=
  (mint.get .permissionedBurn).bind fun e => e.authority.toOption

/-- The check of the burn variant against the mint: a standard burn, without `approver`, is for
mints without an authority of permissioned burns, whose signature is the approver's otherwise. -/
def checkBurnVariant (mint : MintState) (approver : Option AccountMeta) : ProgramResult Unit :=
  match approver with
  | none => require (mint.permissionedBurnAuthority = none) TokenError.invalidInstruction
  | some approver => do
    let expected ← okOr mint.permissionedBurnAuthority TokenError.invalidInstruction
    require approver.isSigner .missingRequiredSignature
    require (approver.key = expected) .invalidAccountData

/-- `process_burn`; `permissioned` is the burn variant, and `decimals` is there in the checked
instruction variant. -/
def processBurn (env : Env) (L : Ledger) (accounts : List AccountMeta) (amount : ℕ)
    (permissioned : Bool) (decimals : Option ℕ) : ProgramResult Outcome := do
  let (sourceInfo, accounts) ← nextAccountInfo accounts
  let (mintInfo, accounts) ← nextAccountInfo accounts
  checkProgramAccount (L sourceInfo.key).owner
  checkProgramAccount (L mintInfo.key).owner
  let (approver, accounts) ← (if permissioned then do
      let (approver, accounts) ← nextAccountInfo accounts
      .ok (some approver, accounts)
    else .ok (none, accounts))
  let (authority, signers) ← nextAccountInfo accounts
  let mint ← unpackMint (L mintInfo.key).data
  checkBurnVariant mint approver
  let source ← unpackAccount (L sourceInfo.key).data
  require (source.base.isFrozen = false) TokenError.accountFrozen
  require (source.base.isNativeAccount = false) TokenError.nativeNotSupported
  require (amount ≤ source.base.amount) TokenError.insufficientFunds
  require (mintInfo.key = source.base.mint) TokenError.mintMismatch
  require (decimals.all (fun d => d = mint.base.decimals) = true) TokenError.mintDecimalsMismatch
  require (mint.paused = false) TokenError.mintPaused
  require (mint.has .confidentialMintBurn = false) TokenError.illegalMintBurnConversion
  require (¬ (authority.key = source.base.owner ∧ source.cpiLocked ∧ env.inCpi))
    TokenError.cpiGuardBurnBlocked
  -- Anyone may burn what the system program or the incinerator own.
  let (base, validated, arm) ← (if source.base.isOwnedBySystemProgramOrIncinerator then
      .ok (source.base, [], none)
    else do
      let (base, validated, arm) ← debitAuthority L source.base authority signers
        mint.permanentDelegate amount true
      .ok (base, [validated], some arm))
  let newAmount ← okOr (checkedSub source.base.amount amount) TokenError.overflow
  let newSupply ← okOr (checkedSub mint.base.supply amount) TokenError.overflow
  let ledger ← L.writeData sourceInfo.key
    (.account (source.withBase { base with amount := newAmount }))
  let ledger ← ledger.writeData mintInfo.key
    (.mint (mint.withBase { mint.base with supply := newSupply }))
  .ok { ledger, validated, arm }

/-! ### Closing -/

namespace ConfidentialTransferAccount

/-- `closable`. -/
def closable (account : ConfidentialTransferAccount) : ProgramResult Unit :=
  require (account.pendingBalanceLo = 0 ∧ account.pendingBalanceHi = 0 ∧
    account.availableBalance = 0) TokenError.confidentialTransferAccountHasBalance

end ConfidentialTransferAccount

/-- The check that an extension, where it is there, makes of its account. -/
def checkExtension {α : Type} (extension : Option α) (check : α → ProgramResult Unit) :
    ProgramResult Unit :=
  match extension with
  | some e => check e
  | none => .ok ()

/-- The extensions of a token account that must hold nothing for it to be closed. -/
def TokenAccountState.closable (account : TokenAccountState) : ProgramResult Unit := do
  checkExtension (account.get .confidentialTransferAccount) ConfidentialTransferAccount.closable
  checkExtension (account.get .confidentialTransferFeeAmount) fun e =>
    require (e.withheldAmount = 0) TokenError.confidentialTransferFeeAccountHasWithheldFee
  checkExtension (account.get .transferFeeAmount) fun e =>
    require (e.withheldAmount = 0) TokenError.accountHasWithheldTransferFees

/-- `process_close_account` on a token account: who was asked to sign. -/
def closeTokenAccount (env : Env) (L : Ledger) (account : TokenAccountState)
    (destination authority : AccountMeta) (signers : List AccountMeta) :
    ProgramResult (List Address) := do
  require (account.base.isNativeAccount ∨ account.base.amount = 0) TokenError.nonNativeHasBalance
  let expected := account.base.closeAuthority.getD account.base.owner
  let validated ← (if account.base.isOwnedBySystemProgramOrIncinerator then do
      require (destination.key = incineratorId) .invalidAccountData
      .ok []
    else do
      require (¬ (account.cpiLocked ∧ env.inCpi ∧ destination.key ≠ account.base.owner))
        TokenError.cpiGuardCloseAccountBlocked
      validateOwner L expected authority signers
      .ok [expected])
  account.closable
  .ok validated

/-- `process_close_account` on a mint. -/
def closeMint (L : Ledger) (mint : MintState) (authority : AccountMeta)
    (signers : List AccountMeta) : ProgramResult (List Address) := do
  let extension ← mint.getExtension .mintCloseAuthority
  let expected ← okOr extension.closeAuthority.toOption TokenError.authorityTypeNotSupported
  validateOwner L expected authority signers
  require (mint.base.supply = 0) TokenError.mintHasSupply
  checkExtension (mint.get .confidentialMintBurn) fun e =>
    require (e.confidentialSupply = 0) TokenError.mintHasSupply
  .ok [expected]

/-- `delete_account`. -/
def deleteAccount (L : Ledger) (a : Address) : Ledger :=
  Function.update L a { lamports := 0, owner := systemProgramId, data := .empty }

/-- `process_close_account`. -/
def processCloseAccount (env : Env) (L : Ledger) (accounts : List AccountMeta) :
    ProgramResult Outcome := do
  let (sourceInfo, accounts) ← nextAccountInfo accounts
  let (destination, accounts) ← nextAccountInfo accounts
  let (authority, signers) ← nextAccountInfo accounts
  checkProgramAccount (L sourceInfo.key).owner
  require (sourceInfo.key ≠ destination.key) .invalidAccountData
  let validated ← (match unpackAccount (L sourceInfo.key).data with
    | .ok account => closeTokenAccount env L account destination authority signers
    | .error _ =>
      match unpackMint (L sourceInfo.key).data with
      | .ok mint => closeMint L mint authority signers
      | .error _ => .error .uninitializedAccount)
  let credited ← L.credit destination.key (L sourceInfo.key).lamports TokenError.overflow
  .ok { ledger := deleteAccount credited sourceInfo.key, validated }

/-! ### Freezing -/

/-- `process_toggle_freeze_account`. -/
def processToggleFreezeAccount (L : Ledger) (accounts : List AccountMeta) (freeze : Bool) :
    ProgramResult Outcome := do
  let (sourceInfo, accounts) ← nextAccountInfo accounts
  let (mintInfo, accounts) ← nextAccountInfo accounts
  let (authority, signers) ← nextAccountInfo accounts
  checkProgramAccount (L sourceInfo.key).owner
  checkProgramAccount (L mintInfo.key).owner
  let source ← unpackAccount (L sourceInfo.key).data
  require (source.base.isFrozen = !freeze) TokenError.invalidState
  require (source.base.isNativeAccount = false) TokenError.nativeNotSupported
  require (mintInfo.key = source.base.mint) TokenError.mintMismatch
  let mint ← unpackMint (L mintInfo.key).data
  let freezeAuthority ← okOr mint.base.freezeAuthority TokenError.mintCannotFreeze
  validateOwner L freezeAuthority authority signers
  let base := { source.base with
    state := if freeze then .frozen else .initialized
    initialized := by split <;> decide }
  let ledger ← L.writeData sourceInfo.key (.account (source.withBase base))
  .ok { ledger, validated := [freezeAuthority] }

/-! ### Native accounts and lamports -/

/-- `process_sync_native`. The rent comes from the sysvar account where one is given. -/
def processSyncNative (env : Env) (L : Ledger) (accounts : List AccountMeta) :
    ProgramResult Outcome := do
  let (nativeInfo, accounts) ← nextAccountInfo accounts
  let info := L nativeInfo.key
  checkProgramAccount info.owner
  let _ ← Env.rentSysvar (!accounts.isEmpty) accounts
  let reserve := env.minimumBalance info.data.len
  let account ← unpackAccount info.data
  require account.base.isNativeAccount TokenError.nonNativeNotSupported
  let amount ← okOr (checkedSub info.lamports reserve) TokenError.overflow
  let base := { account.base with isNative := some reserve, amount }
  let ledger ← L.writeData nativeInfo.key (.account (account.withBase base))
  .ok { ledger, validated := [] }

/-- Who may take the excess lamports of a token account, a mint or a multisig. A mint without mint
authority has to sign for itself. -/
def excessLamportsAuthority (env : Env) (L : Ledger) (source : Address) (authority : AccountMeta)
    (signers : List AccountMeta) : ProgramResult (List Address) :=
  match unpackAccount (L source).data with
  | .ok account => do
    require (account.base.isNativeAccount = false) TokenError.nativeNotSupported
    validateOwner L account.base.owner authority signers
    require (¬ (account.cpiLocked ∧ env.inCpi)) TokenError.cpiGuardTransferBlocked
    .ok [account.base.owner]
  | .error _ =>
    match unpackMint (L source).data with
    | .ok mint =>
      match mint.base.mintAuthority with
      | some mintAuthority => do
        validateOwner L mintAuthority authority signers
        .ok [mintAuthority]
      | none => do
        require (source = authority.key) TokenError.authorityTypeNotSupported
        require authority.isSigner .missingRequiredSignature
        .ok []
    | .error _ => do
      require ((L source).data.len = multisigLen) TokenError.invalidState
      validateOwner L source authority signers
      .ok [source]

/-- `process_withdraw_excess_lamports`. -/
def processWithdrawExcessLamports (env : Env) (L : Ledger) (accounts : List AccountMeta) :
    ProgramResult Outcome := do
  let (sourceInfo, accounts) ← nextAccountInfo accounts
  let (destination, accounts) ← nextAccountInfo accounts
  let (authority, signers) ← nextAccountInfo accounts
  let info := L sourceInfo.key
  checkProgramAccount info.owner
  let validated ← excessLamportsAuthority env L sourceInfo.key authority signers
  let transferAmount ←
    okOr (checkedSub info.lamports (env.minimumBalance info.data.len)) TokenError.notRentExempt
  let ledger ← moveLamports L sourceInfo.key destination.key transferAmount
  .ok { ledger, validated }

/-- `process_unwrap_lamports`; without an amount, all of the account's. -/
def processUnwrapLamports (env : Env) (L : Ledger) (accounts : List AccountMeta)
    (amount : Option ℕ) : ProgramResult Outcome := do
  let (sourceInfo, accounts) ← nextAccountInfo accounts
  let (destination, accounts) ← nextAccountInfo accounts
  let (authority, signers) ← nextAccountInfo accounts
  checkProgramAccount (L sourceInfo.key).owner
  let source ← unpackAccount (L sourceInfo.key).data
  let (amount, remaining) ← (match amount with
    | some amount => do
      let remaining ← okOr (checkedSub source.base.amount amount) TokenError.insufficientFunds
      .ok (amount, remaining)
    | none => .ok (source.base.amount, 0))
  require source.base.isNativeAccount TokenError.nonNativeNotSupported
  let (base, validated, arm) ← debitAuthority L source.base authority signers none amount true
  require (¬ (source.cpiLocked ∧ env.inCpi)) TokenError.cpiGuardTransferBlocked
  let base := if amount = 0 then base else { base with amount := remaining }
  let moved ← (if amount ≠ 0 ∧ sourceInfo.key ≠ destination.key then
    moveLamports L sourceInfo.key destination.key amount else .ok L)
  let ledger ← moved.writeData sourceInfo.key (.account (source.withBase base))
  .ok { ledger, validated := [validated], arm }

end Token2022
