/-
**The readers of account data, on any bytes.**

The three layouts of the program are told apart by their length, by zeroes up to the end of a bare
token account, and by the account type behind them.

* `checkMinLenAndNotMultisig`, `typeAndTlvIndices`, `unpackTlvData` — the checks of an extensible
  state.
* `StateWithExtensions.unpack`, `StateWithExtensionsOwned.unpack`, `PodStateWithExtensions.unpack` —
  the readers through `Pack`, and the one through Pods.
* `unpackMultisig`, `unpackPodMultisig`, `validAccountData` — the readers of the other layouts.
-/

import Token2022.Interface.Tlv

namespace Token2022.Interface

open Fallible

/-! ### Checks -/

/-- `AccountType::try_from`. -/
def accountTypeOfByte : UInt8 → ProgramResult AccountType
  | 0 => .ok .uninitialized
  | 1 => .ok .mint
  | 2 => .ok .account
  | _ => .error .invalidAccountData

/-- `u8::from`, of an account type. -/
def accountTypeByte : AccountType → UInt8
  | .uninitialized => 0
  | .mint => 1
  | .account => 2

theorem accountTypeOfByte_eq_ok_iff {byte : UInt8} {t : AccountType} :
    accountTypeOfByte byte = .ok t ↔ byte = accountTypeByte t := by
  constructor
  · intro read
    unfold accountTypeOfByte at read
    split at read
    all_goals first | cases read; rfl | cases read
  · rintro rfl
    cases t <;> rfl

/-- `check_min_len_and_not_multisig`. -/
def checkMinLenAndNotMultisig (input : List UInt8) (minimumLen : ℕ) : ProgramResult Unit :=
  if input.length = multisigLen ∨ input.length < minimumLen then .error .invalidAccountData
  else .ok ()

/-- `check_account_type`. -/
def checkAccountType (kind accountType : AccountType) : ProgramResult Unit :=
  require (accountType = kind) .invalidAccountData

/-- `type_and_tlv_indices`. -/
def typeAndTlvIndices (kind : AccountType) (restInput : List UInt8) :
    ProgramResult (Option (ℕ × ℕ)) :=
  if restInput = [] then .ok none
  else do
    let accountTypeIndex := baseAccountLength - kind.baseLen
    let tlvStartIndex := accountTypeIndex + 1
    require (tlvStartIndex ≤ restInput.length) .invalidAccountData
    require (¬ (restInput.take accountTypeIndex).any (· ≠ 0)) .invalidAccountData
    .ok (some (accountTypeIndex, tlvStartIndex))

/-- No byte of the padding differs from zero. -/
theorem not_any_ne_zero {bytes : List UInt8} : ¬ bytes.any (· ≠ 0) ↔ ∀ b ∈ bytes, b = 0 := by
  simp

/-- `unpack_tlv_data`. -/
def unpackTlvData (kind : AccountType) (rest : List UInt8) : ProgramResult (List UInt8) := do
  match ← typeAndTlvIndices kind rest with
  | some (accountTypeIndex, tlvStartIndex) => do
    let accountType ← accountTypeOfByte (byteAt rest accountTypeIndex)
    checkAccountType kind accountType
    .ok (rest.drop tlvStartIndex)
  | none => .ok []

/-! ### Readers through `Pack` -/

/-- A base state that is packed: `Pack` with `BaseState`. -/
structure PackBase (S : Type) where
  kind : AccountType
  unpackFromSlice : List UInt8 → ProgramResult S
  packIntoSlice : S → List UInt8 → List UInt8
  isInitialized : S → Bool

/-- `Mint`, packed. -/
def packMint : PackBase Mint where
  kind := .mint
  unpackFromSlice := Mint.unpackFromSlice
  packIntoSlice := Mint.packIntoSlice
  isInitialized := Mint.isInitialized

/-- `Account`, packed. -/
def packAccount : PackBase Account where
  kind := .account
  unpackFromSlice := Account.unpackFromSlice
  packIntoSlice := Account.packIntoSlice
  isInitialized account := account.state ≠ .uninitialized

/-- A state that was read: the base, and the bytes of the extensions. -/
structure StateWithExtensions (S : Type) where
  base : S
  tlvData : List UInt8
  deriving DecidableEq

section Readers

variable {S : Type} (crates : Crates)

/-- `StateWithExtensions::unpack`. -/
def StateWithExtensions.unpack (B : PackBase S) (input : List UInt8) :
    ProgramResult (StateWithExtensions S) := do
  checkMinLenAndNotMultisig input B.kind.baseLen
  let base ← crates.unpack B.kind.baseLen B.unpackFromSlice B.isInitialized
    (input.take B.kind.baseLen)
  let tlvData ← unpackTlvData B.kind (input.drop B.kind.baseLen)
  .ok { base, tlvData }

/-- `StateWithExtensionsOwned::unpack`. -/
def StateWithExtensionsOwned.unpack (B : PackBase S) (input : List UInt8) :
    ProgramResult (StateWithExtensions S) := do
  checkMinLenAndNotMultisig input B.kind.baseLen
  let rest := input.drop B.kind.baseLen
  let base ← crates.unpack B.kind.baseLen B.unpackFromSlice B.isInitialized
    (input.take B.kind.baseLen)
  match ← typeAndTlvIndices B.kind rest with
  | some (accountTypeIndex, tlvStartIndex) => do
    let accountType ← accountTypeOfByte (byteAt rest accountTypeIndex)
    checkAccountType B.kind accountType
    .ok { base, tlvData := rest.drop tlvStartIndex }
  | none => .ok { base, tlvData := [] }

/-! ### Readers through Pods -/

/-- A base state that is a Pod. -/
structure PodBase (S : Type) where
  kind : AccountType
  ofBytes : List UInt8 → S
  isInitialized : S → Bool

/-- `PodMint`. -/
def podMint : PodBase PodMint where
  kind := .mint
  ofBytes := PodMint.ofBytes
  isInitialized mint := crates.bool mint.isInitialized

/-- `PodAccount`. -/
def podAccount : PodBase PodAccount where
  kind := .account
  ofBytes := PodAccount.ofBytes
  isInitialized := PodAccount.isInitialized

/-- `PodStateWithExtensions::unpack`. -/
def PodStateWithExtensions.unpack (B : PodBase S) (input : List UInt8) :
    ProgramResult (StateWithExtensions S) := do
  checkMinLenAndNotMultisig input B.kind.baseLen
  let base := B.ofBytes (input.take B.kind.baseLen)
  if B.isInitialized base then do
    let tlvData ← unpackTlvData B.kind (input.drop B.kind.baseLen)
    .ok { base, tlvData }
  else .error .uninitializedAccount

/-! ### Other readers -/

/-- `Multisig::unpack`. -/
def unpackMultisig (input : List UInt8) : ProgramResult Multisig :=
  crates.unpack multisigLen Multisig.unpackFromSlice Multisig.isInitialized input

/-- A multisig as `validate_owner` reads it: the length, the Pod, and its flag. -/
def unpackPodMultisig (input : List UInt8) : ProgramResult PodMultisig := do
  require (input.length = multisigLen) .invalidArgument
  let multisig := PodMultisig.ofBytes input
  require (crates.bool multisig.isInitialized = true) .uninitializedAccount
  .ok multisig

/-- `is_initialized_account`. -/
def isInitializedAccount (accountData : List UInt8) : Bool :=
  accountData.getD 108 (accountStateByte .uninitialized) ≠ accountStateByte .uninitialized

/-- `Account::valid_account_data`. -/
def validAccountData (accountData : List UInt8) : Bool :=
  (accountData.length = AccountType.account.baseLen && isInitializedAccount accountData) ||
    (AccountType.account.baseLen < accountData.length && accountData.length ≠ multisigLen &&
      byteAt accountData AccountType.account.baseLen = accountTypeByte .account &&
      isInitializedAccount accountData)

end Readers

end Token2022.Interface
