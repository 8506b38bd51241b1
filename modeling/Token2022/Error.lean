/-
**The errors of the program.**

`TokenError` lists the program's own errors in the order of their codes; `ProgramError` adds those
of the runtime's account API and the errors of the code the program calls.
-/

import Token2022.Lib.Fallible

namespace Token2022

/-- The errors that the token program defines, in the order of their codes. -/
inductive TokenError
  | notRentExempt | insufficientFunds | invalidMint | mintMismatch | ownerMismatch | fixedSupply
  | alreadyInUse | invalidNumberOfProvidedSigners | invalidNumberOfRequiredSigners
  | uninitializedState | nativeNotSupported | nonNativeHasBalance | invalidInstruction
  | invalidState | overflow | authorityTypeNotSupported | mintCannotFreeze | accountFrozen
  | mintDecimalsMismatch | nonNativeNotSupported | extensionTypeMismatch | extensionBaseMismatch
  | extensionAlreadyInitialized | confidentialTransferAccountHasBalance
  | confidentialTransferAccountNotApproved | confidentialTransferDepositsAndTransfersDisabled
  | confidentialTransferElGamalPubkeyMismatch | confidentialTransferBalanceMismatch
  | mintHasSupply | noAuthorityExists | transferFeeExceedsMaximum | mintRequiredForTransfer
  | feeMismatch | feeParametersMismatch | immutableOwner | accountHasWithheldTransferFees | noMemo
  | nonTransferable | nonTransferableNeedsImmutableOwnership
  | maximumPendingBalanceCreditCounterExceeded | maximumDepositAmountExceeded
  | cpiGuardSettingsLocked | cpiGuardTransferBlocked | cpiGuardBurnBlocked
  | cpiGuardCloseAccountBlocked | cpiGuardApproveBlocked | cpiGuardSetAuthorityBlocked
  | cpiGuardOwnerChangeBlocked | extensionNotFound | nonConfidentialTransfersDisabled
  | confidentialTransferFeeAccountHasWithheldFee | invalidExtensionCombination
  | invalidLengthForAlloc | accountDecryption | proofGeneration | invalidProofInstructionOffset
  | harvestToMintDisabled | splitProofContextStateAccountsNotSupported
  | notEnoughProofContextStateAccounts | malformedCiphertext | ciphertextArithmeticFailed
  | pedersenCommitmentMismatch | rangeProofLengthMismatch | illegalBitLength | feeCalculation
  | illegalMintBurnConversion | invalidScale | mintPaused | pendingBalanceNonZero
  deriving DecidableEq, Repr

/-- The errors of the metadata interface that the program returns itself. -/
inductive TokenMetadataError
  | incorrectMintAuthority | incorrectUpdateAuthority | immutableMetadata | keyNotFound
  deriving DecidableEq, Repr

/-- The errors of the group interface that the program returns itself. -/
inductive TokenGroupError
  | immutableGroup | incorrectMintAuthority | incorrectUpdateAuthority | memberAccountIsGroupAccount
  deriving DecidableEq, Repr

/-- What a processor may fail with. -/
inductive ProgramError
  | custom (error : TokenError)
  | metadata (error : TokenMetadataError)
  | group (error : TokenGroupError)
  | invalidArgument | invalidInstructionData | invalidAccountData | accountDataTooSmall
  | insufficientFunds | incorrectProgramId | missingRequiredSignature | uninitializedAccount
  | notEnoughAccountKeys | accountBorrowFailed | invalidSeeds | invalidRealloc
  | unsupportedSysvar | incorrectAuthority | immutable
  /-- The runtime refuses a write to the data of an account that another program owns. -/
  | externalAccountDataModified
  /-- The runtime refuses a debit of an account that another program owns. -/
  | externalAccountLamportSpend
  /-- An error of the code that is called: another program, or an interface library. -/
  | foreign (code : ℕ)
  deriving DecidableEq, Repr

instance : Coe TokenError ProgramError := ⟨.custom⟩

instance : Coe TokenMetadataError ProgramError := ⟨.metadata⟩

instance : Coe TokenGroupError ProgramError := ⟨.group⟩

/-- What a processor returns. -/
abbrev ProgramResult (α : Type) := Except ProgramError α

end Token2022
