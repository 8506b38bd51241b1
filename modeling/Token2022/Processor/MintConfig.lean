/-
**The extensions that configure a mint.**

Default account state, interest, transfer hook, the pointers to metadata and groups, the scaled UI
amount, pausing and permissioned burns: each is set before the mint is initialized
(`initializeMintExtension`) and changed by the authority that it names (`updateMintExtension`).
-/

import Token2022.Processor.TransferFee

namespace Token2022

open Fallible

/-! ### Default account state -/

/-- `check_valid_default_state`, with the extension it allows. -/
def checkValidDefaultState (state : AccountState) : ProgramResult DefaultAccountState :=
  if valid : state ≠ .uninitialized then .ok { state, valid } else .error TokenError.invalidState

/-- `process_initialize_default_account_state`. -/
def processInitializeDefaultAccountState (L : Ledger) (accounts : List AccountMeta)
    (state : AccountState) : ProgramResult Outcome := do
  let default ← checkValidDefaultState state
  initializeMintExtension L accounts .defaultAccountState (.ok default)

/-- `process_update_default_account_state`, on behalf of the freeze authority. -/
def processUpdateDefaultAccountState (L : Ledger) (accounts : List AccountMeta)
    (state : AccountState) : ProgramResult Outcome := do
  let default ← checkValidDefaultState state
  let (mintInfo, accounts) ← nextAccountInfo accounts
  let (authority, signers) ← nextAccountInfo accounts
  checkProgramAccount (L mintInfo.key).owner
  let mint ← unpackMint (L mintInfo.key).data
  let freezeAuthority ← okOr mint.base.freezeAuthority TokenError.noAuthorityExists
  validateOwner L freezeAuthority authority signers
  let _ ← mint.getExtension .defaultAccountState
  let ledger ← L.writeData mintInfo.key (.mint (mint.set .defaultAccountState default))
  .ok { ledger, validated := [freezeAuthority] }

/-! ### Interest -/

/-- A number in the range of an `i128`. -/
def checkedI128 (n : ℤ) : Option ℤ := if -2 ^ 127 ≤ n ∧ n < 2 ^ 127 then some n else none

/-- `time_weighted_average_rate`. Division truncates towards zero. -/
def InterestBearingConfig.timeWeightedAverageRate (config : InterestBearingConfig)
    (currentTimestamp : ℤ) : Option ℤ := do
  let r₁ := config.preUpdateAverageRate
  let t₁ ← checkedI128 (config.lastUpdateTimestamp - config.initializationTimestamp)
  let r₂ := config.currentRate
  let t₂ ← checkedI128 (currentTimestamp - config.lastUpdateTimestamp)
  let totalTimespan ← checkedI128 (t₁ + t₂)
  let averageRate ← (if totalTimespan = 0 then some r₂ else do
    let first ← checkedI128 (r₁ * t₁)
    let second ← checkedI128 (r₂ * t₂)
    let sum ← checkedI128 (first + second)
    checkedI128 (sum.tdiv totalTimespan))
  if -2 ^ 15 ≤ averageRate ∧ averageRate < 2 ^ 15 then some averageRate else none

/-- `interest_bearing_mint::process_initialize`. -/
def processInitializeInterestBearing (env : Env) (L : Ledger) (accounts : List AccountMeta)
    (rateAuthority : MaybeNull Address) (rate : ℤ) : ProgramResult Outcome :=
  initializeMintExtension L accounts .interestBearingConfig (.ok {
    rateAuthority
    initializationTimestamp := env.unixTimestamp
    preUpdateAverageRate := rate
    lastUpdateTimestamp := env.unixTimestamp
    currentRate := rate })

/-- `process_update_rate`. -/
def processUpdateRate (env : Env) (L : Ledger) (accounts : List AccountMeta) (newRate : ℤ) :
    ProgramResult Outcome :=
  updateMintExtension L accounts .interestBearingConfig InterestBearingConfig.rateAuthority
    TokenError.noAuthorityExists fun config => do
    let newAverageRate ←
      okOr (config.timeWeightedAverageRate env.unixTimestamp) TokenError.overflow
    .ok { config with
      preUpdateAverageRate := newAverageRate
      lastUpdateTimestamp := env.unixTimestamp
      currentRate := newRate }

/-! ### Transfer hook -/

/-- `transfer_hook::process_initialize`. -/
def processInitializeTransferHook (L : Ledger) (accounts : List AccountMeta)
    (authority transferHookProgramId : MaybeNull Address) : ProgramResult Outcome :=
  initializeMintExtension L accounts .transferHook do
    let _ ← (match transferHookProgramId.toOption with
      | some hookProgramId => require (hookProgramId ≠ programId) .incorrectProgramId
      | none => require (authority.toOption ≠ none) TokenError.invalidInstruction)
    .ok ⟨authority, transferHookProgramId⟩

/-- `transfer_hook::process_update`. -/
def processUpdateTransferHook (L : Ledger) (accounts : List AccountMeta)
    (newProgramId : MaybeNull Address) : ProgramResult Outcome :=
  updateMintExtension L accounts .transferHook TransferHook.authority
    TokenError.noAuthorityExists fun hook => do
    require (newProgramId.toOption ≠ some programId) .incorrectProgramId
    .ok { hook with programId := newProgramId }

/-! ### Pointers -/

/-- The check that the pointer extensions make of their authority and address: one must be given. -/
def checkPointer (authority address : MaybeNull Address) : ProgramResult Unit :=
  require (¬ (authority.toOption = none ∧ address.toOption = none)) TokenError.invalidInstruction

/-- `metadata_pointer::process_initialize`. -/
def processInitializeMetadataPointer (L : Ledger) (accounts : List AccountMeta)
    (authority metadataAddress : MaybeNull Address) : ProgramResult Outcome :=
  initializeMintExtension L accounts .metadataPointer do
    checkPointer authority metadataAddress
    .ok ⟨authority, metadataAddress⟩

/-- `metadata_pointer::process_update`. -/
def processUpdateMetadataPointer (L : Ledger) (accounts : List AccountMeta)
    (newMetadataAddress : MaybeNull Address) : ProgramResult Outcome :=
  updateMintExtension L accounts .metadataPointer MetadataPointer.authority
    TokenError.noAuthorityExists fun pointer =>
    .ok { pointer with metadataAddress := newMetadataAddress }

/-- `group_pointer::process_initialize`. -/
def processInitializeGroupPointer (L : Ledger) (accounts : List AccountMeta)
    (authority groupAddress : MaybeNull Address) : ProgramResult Outcome :=
  initializeMintExtension L accounts .groupPointer do
    checkPointer authority groupAddress
    .ok ⟨authority, groupAddress⟩

/-- `group_pointer::process_update`. -/
def processUpdateGroupPointer (L : Ledger) (accounts : List AccountMeta)
    (newGroupAddress : MaybeNull Address) : ProgramResult Outcome :=
  updateMintExtension L accounts .groupPointer GroupPointer.authority
    TokenError.noAuthorityExists fun pointer =>
    .ok { pointer with groupAddress := newGroupAddress }

/-- `group_member_pointer::process_initialize`. -/
def processInitializeGroupMemberPointer (L : Ledger) (accounts : List AccountMeta)
    (authority memberAddress : MaybeNull Address) : ProgramResult Outcome :=
  initializeMintExtension L accounts .groupMemberPointer do
    checkPointer authority memberAddress
    .ok ⟨authority, memberAddress⟩

/-- `group_member_pointer::process_update`. -/
def processUpdateGroupMemberPointer (L : Ledger) (accounts : List AccountMeta)
    (newMemberAddress : MaybeNull Address) : ProgramResult Outcome :=
  updateMintExtension L accounts .groupMemberPointer GroupMemberPointer.authority
    TokenError.noAuthorityExists fun pointer =>
    .ok { pointer with memberAddress := newMemberAddress }

/-! ### Scaled UI amount -/

/-- `try_validate_multiplier`: sign bit clear, and an exponent that is neither all zeroes nor all
ones. -/
def tryValidateMultiplier (multiplier : PodF64) : ProgramResult Unit :=
  let exponent := (multiplier >>> 52).setWidth 11
  require (multiplier.msb = false ∧ exponent ≠ 0 ∧ exponent ≠ BitVec.allOnes 11)
    TokenError.invalidScale

/-- `current_multiplier`. -/
def ScaledUiAmountConfig.currentMultiplier (config : ScaledUiAmountConfig) (unixTimestamp : ℤ) :
    PodF64 :=
  if config.newMultiplierEffectiveTimestamp ≤ unixTimestamp then config.newMultiplier
  else config.multiplier

/-- `scaled_ui_amount::process_initialize`. -/
def processInitializeScaledUiAmount (L : Ledger) (accounts : List AccountMeta)
    (authority : MaybeNull Address) (multiplier : PodF64) : ProgramResult Outcome :=
  initializeMintExtension L accounts .scaledUiAmount do
    tryValidateMultiplier multiplier
    .ok {
      authority
      multiplier
      newMultiplierEffectiveTimestamp := 0
      newMultiplier := multiplier }

/-- `process_update_multiplier`. -/
def processUpdateMultiplier (env : Env) (L : Ledger) (accounts : List AccountMeta)
    (newMultiplier : PodF64) (effectiveTimestamp : ℤ) : ProgramResult Outcome :=
  updateMintExtension L accounts .scaledUiAmount ScaledUiAmountConfig.authority
    TokenError.noAuthorityExists fun config => do
    tryValidateMultiplier newMultiplier
    let multiplier := if config.newMultiplierEffectiveTimestamp ≤ env.unixTimestamp
      then config.newMultiplier else config.multiplier
    .ok { config with
      multiplier := if effectiveTimestamp ≤ env.unixTimestamp then newMultiplier else multiplier
      newMultiplierEffectiveTimestamp := max effectiveTimestamp 0
      newMultiplier }

/-! ### Pausing and permissioned burns -/

/-- `pausable::process_initialize`. -/
def processInitializePausable (L : Ledger) (accounts : List AccountMeta) (authority : Address) :
    ProgramResult Outcome :=
  initializeMintExtension L accounts .pausable do
    let authority ← MaybeNull.tryFrom (some authority)
    .ok ⟨authority, false⟩

/-- `process_toggle_pause`. -/
def processTogglePause (L : Ledger) (accounts : List AccountMeta) (pause : Bool) :
    ProgramResult Outcome :=
  updateMintExtension L accounts .pausable PausableConfig.authority
    TokenError.authorityTypeNotSupported fun config => .ok { config with paused := pause }

/-- `permissioned_burn::process_initialize`. -/
def processInitializePermissionedBurn (L : Ledger) (accounts : List AccountMeta)
    (authority : Address) : ProgramResult Outcome :=
  initializeMintExtension L accounts .permissionedBurn do
    let authority ← MaybeNull.tryFrom (some authority)
    .ok ⟨authority⟩

end Token2022
