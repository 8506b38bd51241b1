/-
**The extensions: their types, values and sizes.**

* `ExtensionType` — the types that a mint or an account may carry, with the kind of account each
  belongs to (`getAccountType`), its length (`tryGetTypeLen`) and the account extensions that a mint
  extension requires (`requiredInitAccountExtensions`).
* one structure for each extension's value, its zeroed default, and `Extension`, the family of
  values by type.
* `checkForInvalidMintExtensionCombinations` — the combinations that a mint must not have.
-/

import Token2022.Confidential.Scalar

namespace Token2022

open Fallible

/-- `AccountType`: what a data buffer with extensions holds. -/
inductive AccountType
  | uninitialized | mint | account
  deriving DecidableEq, Repr

/-- `AccountState` of a token account. -/
inductive AccountState
  | uninitialized | initialized | frozen
  deriving DecidableEq, Repr

/-- `ExtensionType`, in the order of the discriminants. -/
inductive ExtensionType
  | uninitialized | transferFeeConfig | transferFeeAmount | mintCloseAuthority
  | confidentialTransferMint | confidentialTransferAccount | defaultAccountState | immutableOwner
  | memoTransfer | nonTransferable | interestBearingConfig | cpiGuard | permanentDelegate
  | nonTransferableAccount | transferHook | transferHookAccount | confidentialTransferFeeConfig
  | confidentialTransferFeeAmount | metadataPointer | tokenMetadata | groupPointer | tokenGroup
  | groupMemberPointer | tokenGroupMember | confidentialMintBurn | scaledUiAmount | pausable
  | pausableAccount | permissionedBurn
  deriving DecidableEq, Repr

/-! ### The values -/

/-- The `BasisPoints` and the cap that a transfer is charged from `epoch` on. -/
structure TransferFee where
  epoch : ℕ
  maximumFee : ℕ
  transferFeeBasisPoints : ℕ
  deriving DecidableEq, Repr

structure TransferFeeConfig where
  transferFeeConfigAuthority : MaybeNull Address
  withdrawWithheldAuthority : MaybeNull Address
  withheldAmount : ℕ
  olderTransferFee : TransferFee
  newerTransferFee : TransferFee
  deriving DecidableEq, Repr

structure TransferFeeAmount where
  withheldAmount : ℕ
  deriving DecidableEq, Repr

structure MintCloseAuthority where
  closeAuthority : MaybeNull Address
  deriving DecidableEq, Repr

structure ConfidentialTransferMint where
  authority : MaybeNull Address
  autoApproveNewAccounts : Bool
  auditorElgamalPubkey : MaybeNull ElGamalPubkey
  deriving DecidableEq, Repr

structure ConfidentialTransferAccount where
  approved : Bool
  elgamalPubkey : ElGamalPubkey
  pendingBalanceLo : ElGamalCiphertext
  pendingBalanceHi : ElGamalCiphertext
  availableBalance : ElGamalCiphertext
  decryptableAvailableBalance : AeCiphertext
  allowConfidentialCredits : Bool
  allowNonConfidentialCredits : Bool
  pendingBalanceCreditCounter : ℕ
  maximumPendingBalanceCreditCounter : ℕ
  expectedPendingBalanceCreditCounter : ℕ
  actualPendingBalanceCreditCounter : ℕ
  deriving DecidableEq

/-- The initial state of a mint's new accounts, which is a state of initialized accounts. -/
structure DefaultAccountState where
  state : AccountState
  valid : state ≠ .uninitialized
  deriving Repr

instance : DecidableEq DefaultAccountState
  | ⟨state, _⟩, ⟨state', _⟩ =>
    decidable_of_iff (state = state') (by rw [DefaultAccountState.mk.injEq])

structure MemoTransfer where
  requireIncomingTransferMemos : Bool
  deriving DecidableEq, Repr

structure InterestBearingConfig where
  rateAuthority : MaybeNull Address
  initializationTimestamp : ℤ
  preUpdateAverageRate : ℤ
  lastUpdateTimestamp : ℤ
  currentRate : ℤ
  deriving DecidableEq, Repr

structure CpiGuard where
  lockCpi : Bool
  deriving DecidableEq, Repr

structure PermanentDelegate where
  delegate : MaybeNull Address
  deriving DecidableEq, Repr

structure TransferHook where
  authority : MaybeNull Address
  programId : MaybeNull Address
  deriving DecidableEq, Repr

structure TransferHookAccount where
  transferring : Bool
  deriving DecidableEq, Repr

structure ConfidentialTransferFeeConfig where
  authority : MaybeNull Address
  withdrawWithheldAuthorityElgamalPubkey : ElGamalPubkey
  harvestToMintEnabled : Bool
  withheldAmount : ElGamalCiphertext
  deriving DecidableEq

structure ConfidentialTransferFeeAmount where
  withheldAmount : ElGamalCiphertext
  deriving DecidableEq

structure MetadataPointer where
  authority : MaybeNull Address
  metadataAddress : MaybeNull Address
  deriving DecidableEq, Repr

/-- `TokenMetadata` of the metadata interface, the one extension of variable length. -/
structure TokenMetadata where
  updateAuthority : MaybeNull Address
  mint : Address
  name : String
  symbol : String
  uri : String
  additionalMetadata : List (String × String)
  deriving DecidableEq, Repr

structure GroupPointer where
  authority : MaybeNull Address
  groupAddress : MaybeNull Address
  deriving DecidableEq, Repr

/-- `TokenGroup` of the group interface. -/
structure TokenGroup where
  updateAuthority : MaybeNull Address
  mint : Address
  size : ℕ
  maxSize : ℕ
  deriving DecidableEq, Repr

structure GroupMemberPointer where
  authority : MaybeNull Address
  memberAddress : MaybeNull Address
  deriving DecidableEq, Repr

/-- `TokenGroupMember` of the group interface. -/
structure TokenGroupMember where
  mint : Address
  group : Address
  memberNumber : ℕ
  deriving DecidableEq, Repr

structure ConfidentialMintBurn where
  confidentialSupply : ElGamalCiphertext
  decryptableSupply : AeCiphertext
  supplyElgamalPubkey : ElGamalPubkey
  pendingBurn : ElGamalCiphertext
  deriving DecidableEq

/-- `PodF64`: the eight bytes of a double. -/
abbrev PodF64 := BitVec 64

structure ScaledUiAmountConfig where
  authority : MaybeNull Address
  multiplier : PodF64
  newMultiplierEffectiveTimestamp : ℤ
  newMultiplier : PodF64
  deriving DecidableEq, Repr

structure PausableConfig where
  authority : MaybeNull Address
  paused : Bool
  deriving DecidableEq, Repr

structure PermissionedBurnConfig where
  authority : MaybeNull Address
  deriving DecidableEq, Repr

/-- **The value of an extension, by its type.** The types that only mark an account carry none. -/
abbrev Extension : ExtensionType → Type
  | .uninitialized => Unit
  | .transferFeeConfig => TransferFeeConfig
  | .transferFeeAmount => TransferFeeAmount
  | .mintCloseAuthority => MintCloseAuthority
  | .confidentialTransferMint => ConfidentialTransferMint
  | .confidentialTransferAccount => ConfidentialTransferAccount
  | .defaultAccountState => DefaultAccountState
  | .immutableOwner => Unit
  | .memoTransfer => MemoTransfer
  | .nonTransferable => Unit
  | .interestBearingConfig => InterestBearingConfig
  | .cpiGuard => CpiGuard
  | .permanentDelegate => PermanentDelegate
  | .nonTransferableAccount => Unit
  | .transferHook => TransferHook
  | .transferHookAccount => TransferHookAccount
  | .confidentialTransferFeeConfig => ConfidentialTransferFeeConfig
  | .confidentialTransferFeeAmount => ConfidentialTransferFeeAmount
  | .metadataPointer => MetadataPointer
  | .tokenMetadata => TokenMetadata
  | .groupPointer => GroupPointer
  | .tokenGroup => TokenGroup
  | .groupMemberPointer => GroupMemberPointer
  | .tokenGroupMember => TokenGroupMember
  | .confidentialMintBurn => ConfidentialMintBurn
  | .scaledUiAmount => ScaledUiAmountConfig
  | .pausable => PausableConfig
  | .pausableAccount => Unit
  | .permissionedBurn => PermissionedBurnConfig

instance (t : ExtensionType) : DecidableEq (Extension t) := by
  cases t <;> infer_instance

/-! ### Properties of the types -/

namespace ExtensionType

/-- `get_account_type`: the kind of account that carries the extension. -/
def getAccountType : ExtensionType → AccountType
  | .uninitialized => .uninitialized
  | .transferFeeConfig | .mintCloseAuthority | .confidentialTransferMint | .defaultAccountState
  | .nonTransferable | .interestBearingConfig | .permanentDelegate | .transferHook
  | .confidentialTransferFeeConfig | .metadataPointer | .tokenMetadata | .groupPointer
  | .tokenGroup | .groupMemberPointer | .confidentialMintBurn | .tokenGroupMember
  | .scaledUiAmount | .pausable | .permissionedBurn => .mint
  | .immutableOwner | .transferFeeAmount | .confidentialTransferAccount | .memoTransfer
  | .nonTransferableAccount | .transferHookAccount | .cpiGuard | .confidentialTransferFeeAmount
  | .pausableAccount => .account

/-- The bytes of a value of a sized extension; the length is given by the type. -/
def typeLen : ExtensionType → ℕ
  | .uninitialized => 0
  | .transferFeeConfig => 108
  | .transferFeeAmount => 8
  | .mintCloseAuthority => 32
  | .confidentialTransferMint => 65
  | .confidentialTransferAccount => 295
  | .defaultAccountState => 1
  | .immutableOwner => 0
  | .memoTransfer => 1
  | .nonTransferable => 0
  | .interestBearingConfig => 52
  | .cpiGuard => 1
  | .permanentDelegate => 32
  | .nonTransferableAccount => 0
  | .transferHook => 64
  | .transferHookAccount => 1
  | .confidentialTransferFeeConfig => 129
  | .confidentialTransferFeeAmount => 64
  | .metadataPointer => 64
  | .tokenMetadata => 0
  | .groupPointer => 64
  | .tokenGroup => 80
  | .groupMemberPointer => 64
  | .tokenGroupMember => 72
  | .confidentialMintBurn => 196
  | .scaledUiAmount => 56
  | .pausable => 33
  | .pausableAccount => 0
  | .permissionedBurn => 32

/-- `sized`: every extension but the metadata has a fixed length. -/
def sized (t : ExtensionType) : Bool := t ≠ .tokenMetadata

/-- `try_get_type_len`. -/
def tryGetTypeLen (t : ExtensionType) : ProgramResult ℕ :=
  if t.sized then .ok t.typeLen else .error .invalidArgument

/-- `add_type_and_length_to_len`: a value behind its two bytes of type and two of length. -/
def addTypeAndLengthToLen (len : ℕ) : ℕ := len + 2 + 2

/-- `try_get_tlv_len`. -/
def tryGetTlvLen (t : ExtensionType) : ProgramResult ℕ := do
  let len ← t.tryGetTypeLen
  .ok (addTypeAndLengthToLen len)

/-- `required_init_account_extensions`: what the accounts of a mint with this extension carry. -/
def requiredInitAccountExtensions : ExtensionType → List ExtensionType
  | .transferFeeConfig => [.transferFeeAmount]
  | .nonTransferable => [.nonTransferableAccount, .immutableOwner]
  | .transferHook => [.transferHookAccount]
  | .pausable => [.pausableAccount]
  | _ => []

/-- `check_for_invalid_mint_extension_combinations`. -/
def checkForInvalidMintExtensionCombinations (types : List ExtensionType) : ProgramResult Unit := do
  let transferFeeConfig := types.contains .transferFeeConfig
  let confidentialTransferMint := types.contains .confidentialTransferMint
  let confidentialTransferFeeConfig := types.contains .confidentialTransferFeeConfig
  let confidentialMintBurn := types.contains .confidentialMintBurn
  let interestBearing := types.contains .interestBearingConfig
  let scaledUiAmount := types.contains .scaledUiAmount
  let nonTransferable := types.contains .nonTransferable
  require (¬ (confidentialTransferFeeConfig && !(transferFeeConfig && confidentialTransferMint)))
    TokenError.invalidExtensionCombination
  require (¬ (transferFeeConfig && confidentialTransferMint && !confidentialTransferFeeConfig))
    TokenError.invalidExtensionCombination
  require (¬ (confidentialMintBurn && !confidentialTransferMint))
    TokenError.invalidExtensionCombination
  require (¬ (scaledUiAmount && interestBearing)) TokenError.invalidExtensionCombination
  require (¬ (nonTransferable && confidentialTransferMint && !confidentialMintBurn))
    TokenError.invalidExtensionCombination

/-- What an accepted combination of mint extensions satisfies. -/
structure ValidCombination (types : List ExtensionType) : Prop where
  feeConfig : .confidentialTransferFeeConfig ∈ types →
    .transferFeeConfig ∈ types ∧ .confidentialTransferMint ∈ types
  confidentialFee : .transferFeeConfig ∈ types → .confidentialTransferMint ∈ types →
    .confidentialTransferFeeConfig ∈ types
  mintBurn : .confidentialMintBurn ∈ types → .confidentialTransferMint ∈ types
  scaled : .scaledUiAmount ∈ types → .interestBearingConfig ∉ types
  nonTransferable : .nonTransferable ∈ types → .confidentialTransferMint ∈ types →
    .confidentialMintBurn ∈ types

/-- **The check accepts the valid combinations.** -/
theorem checkForInvalidMintExtensionCombinations_eq_ok_iff {types : List ExtensionType} {u : Unit} :
    checkForInvalidMintExtensionCombinations types = .ok u ↔ ValidCombination types := by
  simp only [checkForInvalidMintExtensionCombinations, require_bind_eq_ok_iff, require_eq_ok_iff,
    Bool.and_eq_true, Bool.not_eq_true', Bool.and_eq_false_iff, List.contains_eq_mem,
    decide_eq_false_iff_not]
  constructor
  · rintro ⟨fee, confidentialFee, mintBurn, scaled, nonTransferable⟩
    constructor <;> grind
  · rintro ⟨fee, confidentialFee, mintBurn, scaled, nonTransferable⟩
    refine ⟨?_, ?_, ?_, ?_, ?_⟩ <;> grind

end ExtensionType

end Token2022
