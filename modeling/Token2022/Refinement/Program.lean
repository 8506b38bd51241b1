/-
**Every instruction has an effect.**

* **`run_refines`** — a successful instruction does to the book what one of the effects says.
-/

import Token2022.Refinement.Confidential

namespace Token2022

open Fallible

variable {i : Invocation} {L : Ledger} {outcome : Outcome}

theorem key?_zero {info : AccountMeta} {rest : List AccountMeta} (shape : i.accounts = info :: rest) :
    i.key? 0 = some info.key := by
  rw [Invocation.key?, shape]
  rfl

/-- The accounts of an approval are where the instruction looks for them. -/
theorem approval_named {amount : UInt64} (decimals : Option UInt8)
    (named : i.instruction = match decimals with
      | none => .approve amount
      | some decimals => .approveChecked amount decimals)
    (source : AccountMeta) (expectedMint : Option (AccountMeta × ℕ)) (delegate : AccountMeta)
    (rest rest' : List AccountMeta) (shape : i.accounts = source :: rest)
    (next : nextMintInfo (decimals.map UInt8.toNat) rest = .ok (expectedMint, delegate :: rest')) :
    i.approval = some (source.key, delegate.key, amount.toNat) := by
  unfold Invocation.approval Invocation.key?
  rw [named, shape]
  cases decimals with
  | none =>
    obtain ⟨-, rfl⟩ := Prod.mk.inj (Except.ok.inj next)
    rfl
  | some decimals =>
    simp only [Option.map_some, nextMintInfo, bind_eq_ok_iff, Prod.exists,
      nextAccountInfo_eq_ok_iff, Except.ok.injEq, Prod.mk.injEq] at next
    obtain ⟨mintInfo, _, rfl, -, rfl⟩ := next
    rfl

/-- A mint is initialized where the instruction says. -/
theorem initializesMint_named {decimals : UInt8} {mintAuthority : Address}
    {freezeAuthority : Option Address}
    (named : i.instruction = .initializeMint decimals mintAuthority freezeAuthority ∨
      i.instruction = .initializeMint2 decimals mintAuthority freezeAuthority)
    (m : Address) (first : i.key? 0 = some m) : i.initializesMint m = true := by
  unfold Invocation.initializesMint
  rcases named with named | named
  · rw [named]
    exact decide_eq_true first
  · rw [named]
    exact decide_eq_true first

/-- **A successful instruction has one of the effects.** -/
theorem run_refines (ok : i.run L = .ok outcome) : Refines i L outcome := by
  unfold Invocation.run at ok
  cases named : i.instruction
  all_goals rw [named] at ok
  case initializeMint =>
    exact processInitializeMintWith_refines (initializesMint_named (.inl named)) ok
  case initializeMint2 =>
    exact processInitializeMintWith_refines (initializesMint_named (.inr named)) ok
  case initializeAccount =>
    replace ok : processInitializeAccountWith i.env L i.accounts none true = .ok outcome := ok
    exact processInitializeAccountWith_refines ok
  case initializeAccount2 owner =>
    replace ok : processInitializeAccountWith i.env L i.accounts (some owner) true = .ok outcome := ok
    exact processInitializeAccountWith_refines ok
  case initializeAccount3 owner =>
    replace ok : processInitializeAccountWith i.env L i.accounts (some owner) false = .ok outcome :=
      ok
    exact processInitializeAccountWith_refines ok
  case initializeMultisig => exact processInitializeMultisigWith_refines ok
  case initializeMultisig2 => exact processInitializeMultisigWith_refines ok
  case transfer => exact processTransfer_refines ok
  case transferChecked => exact processTransfer_refines ok
  case approve amount => exact processApprove_refines (approval_named none named) ok
  case approveChecked amount decimals =>
    exact processApprove_refines (approval_named (some decimals) named) ok
  case revoke => exact processRevoke_refines ok
  case setAuthority => exact processSetAuthority_refines ok
  case mintTo => exact processMintTo_refines ok
  case mintToChecked => exact processMintTo_refines ok
  case burn => exact processBurn_refines (by rw [Invocation.isBurn, named]) ok
  case burnChecked => exact processBurn_refines (by rw [Invocation.isBurn, named]) ok
  case closeAccount => exact processCloseAccount_refines named ok
  case freezeAccount => exact processToggleFreezeAccount_refines true named ok
  case thawAccount => exact processToggleFreezeAccount_refines false named ok
  case syncNative => exact processSyncNative_refines named ok
  case getAccountDataSize => exact processGetAccountDataSize_refines ok
  case initializeImmutableOwner => exact processInitializeImmutableOwner_refines ok
  case amountToUiAmount => exact processUiConversion_refines ok
  case uiAmountToAmount => exact processUiConversion_refines ok
  case initializeMintCloseAuthority =>
    exact initializeMintExtension_refines ok fun _ _ => .inl rfl
  case initializeNonTransferableMint =>
    exact initializeMintExtension_refines ok fun _ _ => .inl rfl
  case initializePermanentDelegate =>
    exact initializeMintExtension_refines ok fun _ _ => .inl rfl
  case transferFeeExtension => exact processTransferFeeInstruction_refines named ok
  case confidentialTransferExtension => exact processConfidentialTransferInstruction_refines ok
  case confidentialTransferFeeExtension =>
    exact processConfidentialTransferFeeInstruction_refines named ok
  case confidentialMintBurnExtension => exact processConfidentialMintBurnInstruction_refines ok
  case reallocate => exact processReallocate_refines ok
  case createNativeMint => exact processCreateNativeMint_refines named ok
  case withdrawExcessLamports => exact processWithdrawExcessLamports_refines ok
  case unwrapLamports => exact processUnwrapLamports_refines ok
  case permissionedBurnExtension instruction =>
    cases instruction
    case initializeExtension => exact initializeMintExtension_refines ok fun _ _ => .inl rfl
    case burn => exact processBurn_refines (by rw [Invocation.isBurn, named]) ok
    case burnChecked => exact processBurn_refines (by rw [Invocation.isBurn, named]) ok
    case confidentialBurn => exact processConfidentialBurn_refines ok
  case tokenMetadata => exact processTokenMetadataInstruction_refines ok
  case tokenGroup => exact processTokenGroupInstruction_refines ok
  all_goals exact processSettingInstruction_refines named ok

end Token2022
