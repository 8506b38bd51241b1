/-
**The instruction data of the interface.**

* `authorityTypeInto`, `authorityTypeFrom` — the kinds of authority and their numbers.
* `TokenInstruction`, `TokenInstruction.pack`, `TokenInstruction.unpack` — the instructions. An
  extension's instructions are behind its tag, which `unpackWithRest` takes off.
* `TransferFeeInstruction` — the instructions behind the tag of the transfer fee.
-/

import Token2022.Interface.Encoding
import Token2022.Processor.Token

namespace Token2022.Interface

open Codec Fallible

/-! ### Kinds of authority -/

/-- `AuthorityType::into`. -/
def authorityTypeInto : AuthorityType → UInt8
  | .mintTokens => 0
  | .freezeAccount => 1
  | .accountOwner => 2
  | .closeAccount => 3
  | .transferFeeConfig => 4
  | .withheldWithdraw => 5
  | .closeMint => 6
  | .interestRate => 7
  | .permanentDelegate => 8
  | .confidentialTransferMint => 9
  | .transferHookProgramId => 10
  | .confidentialTransferFeeConfig => 11
  | .metadataPointer => 12
  | .groupPointer => 13
  | .groupMemberPointer => 14
  | .scaledUiAmount => 15
  | .pause => 16
  | .permissionedBurn => 17

/-- `AuthorityType::from`. -/
def authorityTypeFrom : UInt8 → ProgramResult AuthorityType
  | 0 => .ok .mintTokens
  | 1 => .ok .freezeAccount
  | 2 => .ok .accountOwner
  | 3 => .ok .closeAccount
  | 4 => .ok .transferFeeConfig
  | 5 => .ok .withheldWithdraw
  | 6 => .ok .closeMint
  | 7 => .ok .interestRate
  | 8 => .ok .permanentDelegate
  | 9 => .ok .confidentialTransferMint
  | 10 => .ok .transferHookProgramId
  | 11 => .ok .confidentialTransferFeeConfig
  | 12 => .ok .metadataPointer
  | 13 => .ok .groupPointer
  | 14 => .ok .groupMemberPointer
  | 15 => .ok .scaledUiAmount
  | 16 => .ok .pause
  | 17 => .ok .permissionedBurn
  | _ => .error TokenError.invalidInstruction

/-! ### Instructions -/

/-- `TokenInstruction`. -/
inductive TokenInstruction
  | initializeMint (decimals : UInt8) (mintAuthority : Address) (freezeAuthority : Option Address)
  | initializeAccount
  | initializeMultisig (m : UInt8)
  | transfer (amount : UInt64)
  | approve (amount : UInt64)
  | revoke
  | setAuthority (authorityType : AuthorityType) (newAuthority : Option Address)
  | mintTo (amount : UInt64)
  | burn (amount : UInt64)
  | closeAccount
  | freezeAccount
  | thawAccount
  | transferChecked (amount : UInt64) (decimals : UInt8)
  | approveChecked (amount : UInt64) (decimals : UInt8)
  | mintToChecked (amount : UInt64) (decimals : UInt8)
  | burnChecked (amount : UInt64) (decimals : UInt8)
  | initializeAccount2 (owner : Address)
  | syncNative
  | initializeAccount3 (owner : Address)
  | initializeMultisig2 (m : UInt8)
  | initializeMint2 (decimals : UInt8) (mintAuthority : Address) (freezeAuthority : Option Address)
  | getAccountDataSize (extensionTypes : List ExtensionType)
  | initializeImmutableOwner
  | amountToUiAmount (amount : UInt64)
  | uiAmountToAmount (uiAmount : String)
  | initializeMintCloseAuthority (closeAuthority : Option Address)
  | transferFeeExtension
  | confidentialTransferExtension
  | defaultAccountStateExtension
  | reallocate (extensionTypes : List ExtensionType)
  | memoTransferExtension
  | createNativeMint
  | initializeNonTransferableMint
  | interestBearingMintExtension
  | cpiGuardExtension
  | initializePermanentDelegate (delegate : Address)
  | transferHookExtension
  | confidentialTransferFeeExtension
  | withdrawExcessLamports
  | metadataPointerExtension
  | groupPointerExtension
  | groupMemberPointerExtension
  | confidentialMintBurnExtension
  | scaledUiAmountExtension
  | pausableExtension
  | unwrapLamports (amount : Option UInt64)
  | permissionedBurnExtension
  | batch (data : List UInt8)
  deriving DecidableEq

namespace TokenInstruction

/-- `TokenInstruction::pack`. -/
def pack : TokenInstruction → List UInt8
  | .initializeMint decimals mintAuthority freezeAuthority =>
    [0] ++ [decimals] ++ addressBytes mintAuthority ++ packPubkeyOption freezeAuthority
  | .initializeAccount => [1]
  | .initializeMultisig m => [2] ++ [m]
  | .transfer amount => [3] ++ u64Bytes amount
  | .approve amount => [4] ++ u64Bytes amount
  | .mintTo amount => [7] ++ u64Bytes amount
  | .burn amount => [8] ++ u64Bytes amount
  | .revoke => [5]
  | .setAuthority authorityType newAuthority =>
    [6] ++ [authorityTypeInto authorityType] ++ packPubkeyOption newAuthority
  | .closeAccount => [9]
  | .freezeAccount => [10]
  | .thawAccount => [11]
  | .transferChecked amount decimals => [12] ++ u64Bytes amount ++ [decimals]
  | .approveChecked amount decimals => [13] ++ u64Bytes amount ++ [decimals]
  | .mintToChecked amount decimals => [14] ++ u64Bytes amount ++ [decimals]
  | .burnChecked amount decimals => [15] ++ u64Bytes amount ++ [decimals]
  | .initializeAccount2 owner => [16] ++ addressBytes owner
  | .syncNative => [17]
  | .initializeAccount3 owner => [18] ++ addressBytes owner
  | .initializeMultisig2 m => [19] ++ [m]
  | .initializeMint2 decimals mintAuthority freezeAuthority =>
    [20] ++ [decimals] ++ addressBytes mintAuthority ++ packPubkeyOption freezeAuthority
  | .getAccountDataSize extensionTypes => [21] ++ packExtensionTypes extensionTypes
  | .initializeImmutableOwner => [22]
  | .amountToUiAmount amount => [23] ++ u64Bytes amount
  | .uiAmountToAmount uiAmount => [24] ++ textBytes uiAmount
  | .initializeMintCloseAuthority closeAuthority => [25] ++ packPubkeyOption closeAuthority
  | .transferFeeExtension => [26]
  | .confidentialTransferExtension => [27]
  | .defaultAccountStateExtension => [28]
  | .reallocate extensionTypes => [29] ++ packExtensionTypes extensionTypes
  | .memoTransferExtension => [30]
  | .createNativeMint => [31]
  | .initializeNonTransferableMint => [32]
  | .interestBearingMintExtension => [33]
  | .cpiGuardExtension => [34]
  | .initializePermanentDelegate delegate => [35] ++ addressBytes delegate
  | .transferHookExtension => [36]
  | .confidentialTransferFeeExtension => [37]
  | .withdrawExcessLamports => [38]
  | .metadataPointerExtension => [39]
  | .groupPointerExtension => [40]
  | .groupMemberPointerExtension => [41]
  | .confidentialMintBurnExtension => [42]
  | .scaledUiAmountExtension => [43]
  | .pausableExtension => [44]
  | .unwrapLamports amount => [45] ++ packU64Option amount
  | .permissionedBurnExtension => [46]
  | .batch data => [255] ++ data

/-- The arms of `unpack_with_rest`, by the tag. -/
def unpackTagged (tag : UInt8) (rest : List UInt8) :
    ProgramResult (TokenInstruction × List UInt8) :=
  match tag with
  | 0 => do
    let (decimals, rest) ← unpackU8 rest
    let (mintAuthority, rest) ← unpackPubkey rest
    let (freezeAuthority, rest) ← unpackPubkeyOption rest
    .ok (.initializeMint decimals mintAuthority freezeAuthority, rest)
  | 1 => .ok (.initializeAccount, rest)
  | 2 => do
    let (m, rest) ← unpackU8 rest
    .ok (.initializeMultisig m, rest)
  | 3 => do
    let (amount, rest) ← unpackU64 rest
    .ok (.transfer amount, rest)
  | 4 => do
    let (amount, rest) ← unpackU64 rest
    .ok (.approve amount, rest)
  | 7 => do
    let (amount, rest) ← unpackU64 rest
    .ok (.mintTo amount, rest)
  | 8 => do
    let (amount, rest) ← unpackU64 rest
    .ok (.burn amount, rest)
  | 5 => .ok (.revoke, rest)
  | 6 => do
    let (t, rest) ← unpackU8 rest
    let authorityType ← authorityTypeFrom t
    let (newAuthority, rest) ← unpackPubkeyOption rest
    .ok (.setAuthority authorityType newAuthority, rest)
  | 9 => .ok (.closeAccount, rest)
  | 10 => .ok (.freezeAccount, rest)
  | 11 => .ok (.thawAccount, rest)
  | 12 => do
    let ((amount, decimals), rest) ← unpackAmountDecimals rest
    .ok (.transferChecked amount decimals, rest)
  | 13 => do
    let ((amount, decimals), rest) ← unpackAmountDecimals rest
    .ok (.approveChecked amount decimals, rest)
  | 14 => do
    let ((amount, decimals), rest) ← unpackAmountDecimals rest
    .ok (.mintToChecked amount decimals, rest)
  | 15 => do
    let ((amount, decimals), rest) ← unpackAmountDecimals rest
    .ok (.burnChecked amount decimals, rest)
  | 16 => do
    let (owner, rest) ← unpackPubkey rest
    .ok (.initializeAccount2 owner, rest)
  | 17 => .ok (.syncNative, rest)
  | 18 => do
    let (owner, rest) ← unpackPubkey rest
    .ok (.initializeAccount3 owner, rest)
  | 19 => do
    let (m, rest) ← unpackU8 rest
    .ok (.initializeMultisig2 m, rest)
  | 20 => do
    let (decimals, rest) ← unpackU8 rest
    let (mintAuthority, rest) ← unpackPubkey rest
    let (freezeAuthority, rest) ← unpackPubkeyOption rest
    .ok (.initializeMint2 decimals mintAuthority freezeAuthority, rest)
  | 21 => do
    let extensionTypes ← unpackExtensionTypes rest
    .ok (.getAccountDataSize extensionTypes, [])
  | 22 => .ok (.initializeImmutableOwner, rest)
  | 23 => do
    let (amount, rest) ← unpackU64 rest
    .ok (.amountToUiAmount amount, rest)
  | 24 => do
    let uiAmount ← unpackUiAmount rest
    .ok (.uiAmountToAmount uiAmount, [])
  | 25 => do
    let (closeAuthority, rest) ← unpackPubkeyOption rest
    .ok (.initializeMintCloseAuthority closeAuthority, rest)
  | 26 => .ok (.transferFeeExtension, rest)
  | 27 => .ok (.confidentialTransferExtension, rest)
  | 28 => .ok (.defaultAccountStateExtension, rest)
  | 29 => do
    let extensionTypes ← unpackExtensionTypes rest
    .ok (.reallocate extensionTypes, [])
  | 30 => .ok (.memoTransferExtension, rest)
  | 31 => .ok (.createNativeMint, rest)
  | 32 => .ok (.initializeNonTransferableMint, rest)
  | 33 => .ok (.interestBearingMintExtension, rest)
  | 34 => .ok (.cpiGuardExtension, rest)
  | 35 => do
    let (delegate, rest) ← unpackPubkey rest
    .ok (.initializePermanentDelegate delegate, rest)
  | 36 => .ok (.transferHookExtension, rest)
  | 37 => .ok (.confidentialTransferFeeExtension, rest)
  | 38 => .ok (.withdrawExcessLamports, rest)
  | 39 => .ok (.metadataPointerExtension, rest)
  | 40 => .ok (.groupPointerExtension, rest)
  | 41 => .ok (.groupMemberPointerExtension, rest)
  | 42 => .ok (.confidentialMintBurnExtension, rest)
  | 43 => .ok (.scaledUiAmountExtension, rest)
  | 44 => .ok (.pausableExtension, rest)
  | 45 => do
    let (amount, rest) ← unpackU64Option rest
    .ok (.unwrapLamports amount, rest)
  | 46 => .ok (.permissionedBurnExtension, rest)
  | 255 => .ok (.batch rest, [])
  | _ => .error TokenError.invalidInstruction

/-- `TokenInstruction::unpack_with_rest`. -/
def unpackWithRest (input : List UInt8) : ProgramResult (TokenInstruction × List UInt8) := do
  let (tag, rest) ← unpackU8 input
  unpackTagged tag rest

/-- `TokenInstruction::unpack`. -/
def unpack (input : List UInt8) : ProgramResult TokenInstruction :=
  Prod.fst <$> unpackWithRest input

end TokenInstruction

/-! ### Transfer fee instructions -/

/-- `TransferFeeInstruction`. -/
inductive TransferFeeInstruction
  | initializeTransferFeeConfig (transferFeeConfigAuthority withdrawWithheldAuthority :
      Option Address) (transferFeeBasisPoints : UInt16) (maximumFee : UInt64)
  | transferCheckedWithFee (amount : UInt64) (decimals : UInt8) (fee : UInt64)
  | withdrawWithheldTokensFromMint
  | withdrawWithheldTokensFromAccounts (numTokenAccounts : UInt8)
  | harvestWithheldTokensToMint
  | setTransferFee (transferFeeBasisPoints : UInt16) (maximumFee : UInt64)
  deriving DecidableEq

namespace TransferFeeInstruction

/-- `TransferFeeInstruction::pack`, into an empty buffer. -/
def pack : TransferFeeInstruction → List UInt8
  | .initializeTransferFeeConfig transferFeeConfigAuthority withdrawWithheldAuthority
      transferFeeBasisPoints maximumFee =>
    [0] ++ packPubkeyOption transferFeeConfigAuthority ++
      packPubkeyOption withdrawWithheldAuthority ++ u16Bytes transferFeeBasisPoints ++
      u64Bytes maximumFee
  | .transferCheckedWithFee amount decimals fee =>
    [1] ++ u64Bytes amount ++ [decimals] ++ u64Bytes fee
  | .withdrawWithheldTokensFromMint => [2]
  | .withdrawWithheldTokensFromAccounts numTokenAccounts => [3] ++ [numTokenAccounts]
  | .harvestWithheldTokensToMint => [4]
  | .setTransferFee transferFeeBasisPoints maximumFee =>
    [5] ++ u16Bytes transferFeeBasisPoints ++ u64Bytes maximumFee

/-- The arms of `unpack`, by the tag, with the bytes that an arm leaves over. -/
def unpackTagged (tag : UInt8) (rest : List UInt8) :
    ProgramResult (TransferFeeInstruction × List UInt8) :=
  match tag with
  | 0 => do
    let (transferFeeConfigAuthority, rest) ← unpackPubkeyOption rest
    let (withdrawWithheldAuthority, rest) ← unpackPubkeyOption rest
    let (transferFeeBasisPoints, rest) ← unpackU16 rest
    let (maximumFee, rest) ← unpackU64 rest
    .ok (.initializeTransferFeeConfig transferFeeConfigAuthority withdrawWithheldAuthority
      transferFeeBasisPoints maximumFee, rest)
  | 1 => do
    let ((amount, decimals), rest) ← unpackAmountDecimals rest
    let (fee, rest) ← unpackU64 rest
    .ok (.transferCheckedWithFee amount decimals fee, rest)
  | 2 => .ok (.withdrawWithheldTokensFromMint, rest)
  | 3 => do
    let (numTokenAccounts, rest) ← unpackU8 rest
    .ok (.withdrawWithheldTokensFromAccounts numTokenAccounts, rest)
  | 4 => .ok (.harvestWithheldTokensToMint, rest)
  | 5 => do
    let (transferFeeBasisPoints, rest) ← unpackU16 rest
    let (maximumFee, rest) ← unpackU64 rest
    .ok (.setTransferFee transferFeeBasisPoints maximumFee, rest)
  | _ => .error TokenError.invalidInstruction

/-- `TransferFeeInstruction::unpack`, with the bytes that it leaves over. -/
def unpackWithRest (input : List UInt8) :
    ProgramResult (TransferFeeInstruction × List UInt8) := do
  let (tag, rest) ← unpackU8 input
  unpackTagged tag rest

/-- `TransferFeeInstruction::unpack`, which drops the bytes that are left over. -/
def unpack (input : List UInt8) : ProgramResult TransferFeeInstruction :=
  Prod.fst <$> unpackWithRest input

end TransferFeeInstruction

end Token2022.Interface
