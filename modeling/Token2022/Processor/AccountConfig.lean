/-
**What the owner sets on a token account.**

Required memos, the CPI guard, and the reallocation of an account for further extensions.
-/

import Token2022.Processor.Token

namespace Token2022

open Fallible

/-- `get_extension_mut`, or else `init_extension`, with the value written. -/
def setOrInitExtension (st : TokenAccountState) (t : ExtensionType) (v : Extension t) :
    ProgramResult TokenAccountState :=
  if st.has t then .ok (st.set t v) else st.initExtension t v true

/-- `process_toggle_required_memo_transfers`. -/
def processToggleRequiredMemoTransfers (L : Ledger) (accounts : List AccountMeta) (enable : Bool) :
    ProgramResult Outcome := do
  let (accountInfo, accounts) ← nextAccountInfo accounts
  let (owner, signers) ← nextAccountInfo accounts
  checkProgramAccount (L accountInfo.key).owner
  let account ← unpackAccount (L accountInfo.key).data
  validateOwner L account.base.owner owner signers
  let updated ← setOrInitExtension account .memoTransfer ⟨enable⟩
  let ledger ← L.writeData accountInfo.key (.account updated)
  .ok { ledger, validated := [account.base.owner] }

/-- `process_toggle_cpi_guard`. -/
def processToggleCpiGuard (env : Env) (L : Ledger) (accounts : List AccountMeta) (enable : Bool) :
    ProgramResult Outcome := do
  let (accountInfo, accounts) ← nextAccountInfo accounts
  let (owner, signers) ← nextAccountInfo accounts
  checkProgramAccount (L accountInfo.key).owner
  let account ← unpackAccount (L accountInfo.key).data
  validateOwner L account.base.owner owner signers
  require (env.inCpi = false) TokenError.cpiGuardSettingsLocked
  let updated ← setOrInitExtension account .cpiGuard ⟨enable⟩
  let ledger ← L.writeData accountInfo.key (.account updated)
  .ok { ledger, validated := [account.base.owner] }

/-- The end of `process_reallocate`: a native account records the reserve of its new length, and
holds the lamports for it. -/
def syncReserve (L : Ledger) (a : Address) (account : TokenAccountState) (reserve : ℕ) :
    ProgramResult Ledger :=
  if account.base.isNativeAccount then do
    let minimumLamports ←
      okOr (checkedAdd (2 ^ 64) reserve account.base.amount) TokenError.overflow
    require (minimumLamports ≤ (L a).lamports) TokenError.invalidState
    L.writeData a (.account (account.withBase { account.base with isNative := some reserve }))
  else .ok L

/-- `process_reallocate`. -/
def processReallocate (env : Env) (L : Ledger) (accounts : List AccountMeta)
    (newExtensionTypes : List ExtensionType) : ProgramResult Outcome := do
  let (accountInfo, accounts) ← nextAccountInfo accounts
  let (payer, accounts) ← nextAccountInfo accounts
  let (_, accounts) ← nextAccountInfo accounts
  let (authority, signers) ← nextAccountInfo accounts
  checkProgramAccount (L accountInfo.key).owner
  let account ← unpackAccount (L accountInfo.key).data
  validateOwner L account.base.owner authority signers
  let nativeTokenAmount := if account.base.isNativeAccount then account.base.amount else 0
  require (∀ t ∈ newExtensionTypes, t.getAccountType = .account) TokenError.invalidState
  let neededLen ← tryCalculateAccountLen .account (account.extensionTypes ++ newExtensionTypes)
  if neededLen ≤ account.tlv.len then .ok { ledger := L, validated := [account.base.owner] }
  else
    let resized ← account.resize neededLen
    let reserve := env.minimumBalance neededLen
    let currentReserve ←
      okOr (checkedSub (L accountInfo.key).lamports nativeTokenAmount) TokenError.overflow
    let lamportsDiff := reserve - currentReserve
    let ledger ← L.writeData accountInfo.key (.account resized)
    let funded ← (if 0 < lamportsDiff then
      env.programs.systemTransfer ledger payer accountInfo lamportsDiff else .ok ledger)
    let synced ← syncReserve funded accountInfo.key resized reserve
    .ok { ledger := synced, validated := [account.base.owner] }

end Token2022
