/-
**Initialization: mints, token accounts, multisigs, and the extensions set before them.**

The instructions on accounts whose base state is still zero, `GetAccountDataSize`, and the creation
of the native mint.

* `initializeMintExtension` — the common part of the instructions that set an extension of a mint to
  be: each writes the value it is given over the old one or behind the last entry.
-/

import Token2022.Runtime

namespace Token2022

open Fallible

/-! ### Mints -/

/-- `_process_initialize_mint`. -/
def processInitializeMintWith (env : Env) (L : Ledger) (accounts : List AccountMeta) (decimals : ℕ)
    (mintAuthority : Address) (freezeAuthority : Option Address) (rentSysvarAccount : Bool) :
    ProgramResult Outcome := do
  let (mintInfo, accounts) ← nextAccountInfo accounts
  let info := L mintInfo.key
  checkProgramAccount info.owner
  let _ ← Env.rentSysvar rentSysvarAccount accounts
  require (env.isExempt info.lamports info.data.len) TokenError.notRentExempt
  let tlv ← unpackUninitialized .mint info.data
  let len ← tryCalculateAccountLen .mint tlv.extensionTypes
  require (len = info.data.len) .invalidAccountData
  ExtensionType.checkForInvalidMintExtensionCombinations tlv.extensionTypes
  require (¬ ((tlv.get .defaultAccountState).any (fun default => default.state = .frozen) ∧
    freezeAuthority = none)) TokenError.mintCannotFreeze
  let base : PodMint := { mintAuthority := some mintAuthority, supply := 0, decimals, freezeAuthority }
  let ledger ← L.writeData mintInfo.key (.mint { base, tlv })
  .ok { ledger, validated := [] }

/-- `process_initialize_mint`. -/
def processInitializeMint (env : Env) (L : Ledger) (accounts : List AccountMeta) (decimals : ℕ)
    (mintAuthority : Address) (freezeAuthority : Option Address) : ProgramResult Outcome :=
  processInitializeMintWith env L accounts decimals mintAuthority freezeAuthority true

/-- `process_initialize_mint2`. -/
def processInitializeMint2 (env : Env) (L : Ledger) (accounts : List AccountMeta) (decimals : ℕ)
    (mintAuthority : Address) (freezeAuthority : Option Address) : ProgramResult Outcome :=
  processInitializeMintWith env L accounts decimals mintAuthority freezeAuthority false

/-- The common part of the instructions that set an extension of a mint to be. -/
def initializeMintExtension (L : Ledger) (accounts : List AccountMeta) (t : ExtensionType)
    (value : ProgramResult (Extension t)) : ProgramResult Outcome := do
  let (mintInfo, _) ← nextAccountInfo accounts
  checkProgramAccount (L mintInfo.key).owner
  let tlv ← unpackUninitialized .mint (L mintInfo.key).data
  let v ← value
  let tlv ← tlv.initExtension t v true
  let ledger ← L.writeData mintInfo.key (.zeroed tlv.toBuffer)
  .ok { ledger, validated := [] }

/-- `process_initialize_mint_close_authority`. -/
def processInitializeMintCloseAuthority (L : Ledger) (accounts : List AccountMeta)
    (closeAuthority : Option Address) : ProgramResult Outcome :=
  initializeMintExtension L accounts .mintCloseAuthority do
    let closeAuthority ← MaybeNull.tryFrom closeAuthority
    .ok ⟨closeAuthority⟩

/-- `process_initialize_non_transferable_mint`. -/
def processInitializeNonTransferableMint (L : Ledger) (accounts : List AccountMeta) :
    ProgramResult Outcome :=
  initializeMintExtension L accounts .nonTransferable (.ok ())

/-- `process_initialize_permanent_delegate`. -/
def processInitializePermanentDelegate (L : Ledger) (accounts : List AccountMeta)
    (delegate : Address) : ProgramResult Outcome :=
  initializeMintExtension L accounts .permanentDelegate do
    let delegate ← MaybeNull.tryFrom (some delegate)
    .ok ⟨delegate⟩

/-- `native_mint::DECIMALS`. -/
def nativeMintDecimals : ℕ := 9

/-- `process_create_native_mint`. -/
def processCreateNativeMint (env : Env) (L : Ledger) (accounts : List AccountMeta) :
    ProgramResult Outcome := do
  let (payer, accounts) ← nextAccountInfo accounts
  let (nativeMint, accounts) ← nextAccountInfo accounts
  let (_, _) ← nextAccountInfo accounts
  require (nativeMint.key = nativeMintId) TokenError.invalidMint
  let lamportsDiff := env.minimumBalance AccountType.mint.baseLen - (L nativeMint.key).lamports
  let funded ← env.programs.systemTransfer L payer nativeMint lamportsDiff
  let allocated ← env.programs.allocateNativeMint funded AccountType.mint.baseLen
  let base : PodMint :=
    { mintAuthority := none, supply := 0, decimals := nativeMintDecimals, freezeAuthority := none }
  let tlv : TlvData .mint := { entries := [], len := AccountType.mint.baseLen, valid := by decide }
  let ledger ← allocated.writeData nativeMintId (.mint { base, tlv })
  .ok { ledger, validated := [] }

/-! ### Token accounts -/

/-- The state that a mint's new accounts start in. -/
def MintState.startingState (mint : MintState) : { s : AccountState // s ≠ .uninitialized } :=
  match mint.get .defaultAccountState with
  | some default => ⟨default.state, default.valid⟩
  | none => ⟨.initialized, by decide⟩

/-- `_process_initialize_account`. -/
def processInitializeAccountWith (env : Env) (L : Ledger) (accounts : List AccountMeta)
    (owner : Option Address) (rentSysvarAccount : Bool) : ProgramResult Outcome := do
  let (newAccount, accounts) ← nextAccountInfo accounts
  let (mintInfo, accounts) ← nextAccountInfo accounts
  let info := L newAccount.key
  checkProgramAccount info.owner
  checkProgramAccount (L mintInfo.key).owner
  let (owner, accounts) ← (match owner with
    | some owner => .ok (owner, accounts)
    | none => do
      let (ownerInfo, accounts) ← nextAccountInfo accounts
      .ok (ownerInfo.key, accounts))
  let _ ← Env.rentSysvar rentSysvarAccount accounts
  let tlv ← unpackUninitialized .account info.data
  require (env.isExempt info.lamports info.data.len) TokenError.notRentExempt
  let mint ← okOr (unpackMint (L mintInfo.key).data).toOption TokenError.invalidMint
  let requiredLen ← mint.tryCalculateAccountLen []
  require (requiredLen ≤ info.data.len) .invalidAccountData
  let tlv ← mint.requiredInitAccountExtensions.foldlM TlvData.initAccountExtensionFromType tlv
  let reserve := env.minimumBalance info.data.len
  let (isNative, amount) ← (if mintInfo.key = nativeMintId then do
      let amount ← okOr (checkedSub info.lamports reserve) TokenError.overflow
      .ok (some reserve, amount)
    else .ok (none, 0))
  let base : PodAccount := {
    mint := mintInfo.key
    owner
    amount
    delegate := none
    state := mint.startingState.val
    isNative
    delegatedAmount := 0
    closeAuthority := none
    initialized := mint.startingState.property }
  let ledger ← L.writeData newAccount.key (.account { base, tlv })
  .ok { ledger, validated := [] }

/-- `process_initialize_account`. -/
def processInitializeAccount (env : Env) (L : Ledger) (accounts : List AccountMeta) :
    ProgramResult Outcome :=
  processInitializeAccountWith env L accounts none true

/-- `process_initialize_account2`. -/
def processInitializeAccount2 (env : Env) (L : Ledger) (accounts : List AccountMeta)
    (owner : Address) : ProgramResult Outcome :=
  processInitializeAccountWith env L accounts (some owner) true

/-- `process_initialize_account3`. -/
def processInitializeAccount3 (env : Env) (L : Ledger) (accounts : List AccountMeta)
    (owner : Address) : ProgramResult Outcome :=
  processInitializeAccountWith env L accounts (some owner) false

/-- `process_initialize_immutable_owner`. -/
def processInitializeImmutableOwner (L : Ledger) (accounts : List AccountMeta) :
    ProgramResult Outcome := do
  let (tokenAccount, _) ← nextAccountInfo accounts
  checkProgramAccount (L tokenAccount.key).owner
  let tlv ← unpackUninitialized .account (L tokenAccount.key).data
  let tlv ← tlv.initExtension .immutableOwner () true
  let ledger ← L.writeData tokenAccount.key (.zeroed tlv.toBuffer)
  .ok { ledger, validated := [] }

/-- `process_get_account_data_size`: the length goes to the caller, the accounts stay. -/
def processGetAccountDataSize (L : Ledger) (accounts : List AccountMeta)
    (newExtensionTypes : List ExtensionType) : ProgramResult Outcome := do
  let (mintInfo, _) ← nextAccountInfo accounts
  checkProgramAccount (L mintInfo.key).owner
  require (∀ t ∈ newExtensionTypes, t.getAccountType = .account) TokenError.extensionTypeMismatch
  let mint ← okOr (unpackMint (L mintInfo.key).data).toOption TokenError.invalidMint
  let _ ← mint.tryCalculateAccountLen newExtensionTypes
  .ok { ledger := L, validated := [] }

/-! ### Multisigs -/

/-- `_process_initialize_multisig`. The number of signers is stored in a byte, and there is room for
`MAX_SIGNERS` keys. -/
def processInitializeMultisigWith (env : Env) (L : Ledger) (accounts : List AccountMeta) (m : ℕ)
    (rentSysvarAccount : Bool) : ProgramResult Outcome := do
  let (multisigInfo, accounts) ← nextAccountInfo accounts
  let info := L multisigInfo.key
  checkProgramAccount info.owner
  let signerInfos ← Env.rentSysvar rentSysvarAccount accounts
  require (info.data.len = multisigLen) .invalidArgument
  match info.data with
  | .zeroed _ => do
    require (env.isExempt info.lamports info.data.len) TokenError.notRentExempt
    require (isValidSignerIndex (signerInfos.length % 2 ^ 8))
      TokenError.invalidNumberOfProvidedSigners
    require (isValidSignerIndex m) TokenError.invalidNumberOfRequiredSigners
    require (signerInfos.length ≤ maxSigners) .accountDataTooSmall
    let ledger ← L.writeData multisigInfo.key
      (.multisig { m, signers := signerInfos.map AccountMeta.key })
    .ok { ledger, validated := [] }
  | _ => .error TokenError.alreadyInUse

/-- `process_initialize_multisig`. -/
def processInitializeMultisig (env : Env) (L : Ledger) (accounts : List AccountMeta) (m : ℕ) :
    ProgramResult Outcome :=
  processInitializeMultisigWith env L accounts m true

/-- `process_initialize_multisig2`. -/
def processInitializeMultisig2 (env : Env) (L : Ledger) (accounts : List AccountMeta) (m : ℕ) :
    ProgramResult Outcome :=
  processInitializeMultisigWith env L accounts m false

end Token2022
