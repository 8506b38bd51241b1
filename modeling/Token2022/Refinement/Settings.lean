/-
**The effects of the settings of a mint.**

Each extension is staged before its mint is initialized, with nothing in it, and changes no tokens
afterwards. Only the pause is more than a setting.

* **`processTogglePause_refines`** — pausing and resuming.
* `updateMetadataWith_refines`, `updateGroupWith_refines` — extensions that the book does not keep.
* `processSettingInstruction_refines`, `processTokenMetadataInstruction_refines`,
  `processTokenGroupInstruction_refines`.
-/

import Token2022.Refinement.Supply

namespace Token2022

open Fallible

variable {i : Invocation} {env : Env} {L : Ledger} {accounts : List AccountMeta} {outcome : Outcome}

/-! ### Default account state -/

theorem processInitializeDefaultAccountState_refines {state : AccountState}
    (ok : processInitializeDefaultAccountState L accounts state = .ok outcome) :
    Refines i L outcome := by
  obtain ⟨default, -, rest⟩ := bind_eq_ok_iff.mp ok
  exact initializeMintExtension_refines rest fun _ _ => .inl rfl

/-- The state of new accounts is a matter of the freeze authority. -/
theorem processUpdateDefaultAccountState_refines {state : AccountState}
    (ok : processUpdateDefaultAccountState L accounts state = .ok outcome) :
    Refines i L outcome := by
  simp only [processUpdateDefaultAccountState, bind_eq_ok_iff, Prod.exists,
    nextAccountInfo_eq_ok_iff, checkProgramAccount_eq_ok_iff, unpackMint_eq_ok_iff, okOr_eq_ok_iff,
    exists_const] at ok
  obtain ⟨default, -, info, _, -, authority, signers, -, owned, mint, data, key, freeze, _, -, e,
    held, ledger, stored, same⟩ := ok
  obtain rfl := Except.ok.inj same
  apply Refines.of_effect
  show Effect i [key] none L.book ledger.book
  rw [Ledger.book_writeData owned stored]
  simp only [AccountData.slot]
  rw [StateWithExtensions.issuance_set_defaultAccountState]
  refine Effect.configureMint (Ledger.slot_of_unpackMint owned data)
    { ConfigOnly.refl mint.issuance with unfreezable := fun none => ?_ }
  rw [StateWithExtensions.base_issuance, freeze] at none
  simp at none

/-! ### Pausing -/

/-- **The effect of a pause and of a resumption.** -/
theorem processTogglePause_refines (pause : Bool)
    (named : i.instruction = .pausableExtension (if pause then .pause else .resume))
    (ok : processTogglePause L accounts pause = .ok outcome) : Refines i L outcome := by
  simp only [processTogglePause, updateMintExtension, bind_eq_ok_iff, Prod.exists,
    nextAccountInfo_eq_ok_iff, checkProgramAccount_eq_ok_iff, unpackMint_eq_ok_iff, okOr_eq_ok_iff,
    exists_const] at ok
  obtain ⟨info, _, -, authority, signers, -, owned, mint, data, config, held, key, holder, _, -, _,
    updated, ledger, stored, same⟩ := ok
  obtain rfl := Except.ok.inj same
  obtain rfl := Except.ok.inj updated
  have pausable : mint.issuance.pausable = some config := by
    rw [StateWithExtensions.pausable_issuance]
    exact StateWithExtensions.getExtension_eq_ok_iff.mp held
  apply Refines.of_effect
  show Effect i [key] none L.book ledger.book
  rw [Ledger.book_writeData owned stored]
  simp only [AccountData.slot]
  rw [StateWithExtensions.issuance_set_pausable]
  exact Effect.togglePause (Ledger.slot_of_unpackMint owned data) pausable named holder

/-! ### The instructions of one setting -/

/-- **The effects of the instructions of one setting.** -/
theorem processSettingInstruction_refines {instruction : TokenInstruction}
    (named : i.instruction = instruction)
    (ok : processSettingInstruction i.env L i.accounts instruction = .ok outcome) :
    Refines i L outcome := by
  cases instruction
  case defaultAccountStateExtension instruction =>
    cases instruction
    case initializeExtension => exact processInitializeDefaultAccountState_refines ok
    case update => exact processUpdateDefaultAccountState_refines ok
  case memoTransferExtension instruction =>
    cases instruction
    all_goals exact processToggleRequiredMemoTransfers_refines ok
  case cpiGuardExtension instruction =>
    cases instruction
    case enable => exact processToggleCpiGuard_refines true named ok
    case disable => exact processToggleCpiGuard_refines false named ok
  case interestBearingMintExtension instruction =>
    cases instruction
    case initializeExtension => exact initializeMintExtension_refines ok fun _ _ => .inl rfl
    case updateRate => exact updateMintExtension_refines ok fun _ _ _ => trivial
  case transferHookExtension instruction =>
    cases instruction
    case initializeExtension => exact initializeMintExtension_refines ok fun _ _ => .inl rfl
    case update => exact updateMintExtension_refines ok fun _ _ _ => trivial
  case metadataPointerExtension instruction =>
    cases instruction
    case initializeExtension => exact initializeMintExtension_refines ok fun _ _ => .inl rfl
    case update => exact updateMintExtension_refines ok fun _ _ _ => trivial
  case groupPointerExtension instruction =>
    cases instruction
    case initializeExtension => exact initializeMintExtension_refines ok fun _ _ => .inl rfl
    case update => exact updateMintExtension_refines ok fun _ _ _ => trivial
  case groupMemberPointerExtension instruction =>
    cases instruction
    case initializeExtension => exact initializeMintExtension_refines ok fun _ _ => .inl rfl
    case update => exact updateMintExtension_refines ok fun _ _ _ => trivial
  case scaledUiAmountExtension instruction =>
    cases instruction
    case initializeExtension => exact initializeMintExtension_refines ok fun _ _ => .inl rfl
    case updateMultiplier => exact updateMintExtension_refines ok fun _ _ _ => trivial
  case pausableExtension instruction =>
    cases instruction
    case initializeExtension =>
      refine initializeMintExtension_refines ok fun v given => ?_
      obtain ⟨authority, -, same⟩ := bind_eq_ok_iff.mp given
      obtain rfl := Except.ok.inj same
      exact rfl
    case pause => exact processTogglePause_refines true named ok
    case resume => exact processTogglePause_refines false named ok
  all_goals cases ok

/-! ### Metadata and groups -/

/-- A mint that is written with an extension that the book does not keep. -/
theorem book_writeMint_same {L' : Ledger} {m : Address} {mint mint' : MintState}
    (data : (L m).data = .mint mint) (same : mint'.issuance = mint.issuance)
    (stored : L.writeData m (.mint mint') = .ok L') : L'.book = L.book := by
  refine Ledger.book_writeData_same stored fun _ => ?_
  rw [data]
  exact congrArg Slot.issue same

theorem processInitializeMetadata_refines {name symbol uri : String}
    (ok : processInitializeMetadata L accounts name symbol uri = .ok outcome) :
    Refines i L outcome := by
  simp only [processInitializeMetadata, bind_eq_ok_iff, Prod.exists, nextAccountInfo_eq_ok_iff,
    checkProgramAccount_eq_ok_iff, unpackMint_eq_ok_iff, require_eq_ok_iff, exists_const] at ok
  obtain ⟨info, _, -, _, _, -, mintInfo, _, -, _, _, -, here, owned, mint, data, _, -, _, -, updated,
    written, ledger, stored, same⟩ := ok
  obtain rfl := Except.ok.inj same
  rw [here] at stored
  exact .of_same (book_writeMint_same data (StateWithExtensions.issuance_of_writesOnly
    (StateWithExtensions.allocAndSerializeVariableLenExtension_writesOnly written) (by decide))
    stored)

/-- Metadata is no part of the book. -/
theorem updateMetadataWith_refines {update : TokenMetadata → ProgramResult TokenMetadata}
    (ok : updateMetadataWith L accounts update = .ok outcome) : Refines i L outcome := by
  simp only [updateMetadataWith, bind_eq_ok_iff, Prod.exists, nextAccountInfo_eq_ok_iff,
    checkProgramAccount_eq_ok_iff, unpackMint_eq_ok_iff, exists_const] at ok
  obtain ⟨info, _, -, _, _, -, owned, mint, data, _, -, _, -, _, -, updated, written, ledger, stored,
    same⟩ := ok
  obtain rfl := Except.ok.inj same
  exact .of_same (book_writeMint_same data (StateWithExtensions.issuance_of_writesOnly
    (StateWithExtensions.allocAndSerializeVariableLenExtension_writesOnly written) (by decide))
    stored)

theorem processEmit_refines (ok : processEmit L accounts = .ok outcome) : Refines i L outcome := by
  simp only [processEmit, bind_eq_ok_iff, Prod.exists] at ok
  obtain ⟨_, _, -, _, -, _, -, _, -, same⟩ := ok
  obtain rfl := Except.ok.inj same
  exact .of_same rfl

theorem processTokenMetadataInstruction_refines {instruction : TokenMetadataInstruction}
    (ok : processTokenMetadataInstruction env L accounts instruction = .ok outcome) :
    Refines i L outcome := by
  cases instruction
  case initializeMetadata => exact processInitializeMetadata_refines ok
  case emit => exact processEmit_refines ok
  all_goals exact updateMetadataWith_refines ok

theorem processInitializeGroup_refines {updateAuthority : MaybeNull Address} {maxSize : ℕ}
    (ok : processInitializeGroup L accounts updateAuthority maxSize = .ok outcome) :
    Refines i L outcome := by
  simp only [processInitializeGroup, bind_eq_ok_iff, Prod.exists, nextAccountInfo_eq_ok_iff,
    checkProgramAccount_eq_ok_iff, unpackMint_eq_ok_iff, require_eq_ok_iff, exists_const] at ok
  obtain ⟨info, _, -, mintInfo, _, -, _, _, -, here, owned, mint, data, _, -, updated, written,
    ledger, stored, same⟩ := ok
  obtain rfl := Except.ok.inj same
  rw [here] at stored
  exact .of_same (book_writeMint_same data (StateWithExtensions.issuance_of_writesOnly
    (StateWithExtensions.allocAndSerialize_writesOnly written).2 (by decide)) stored)

/-- Groups are no part of the book. -/
theorem updateGroupWith_refines {update : TokenGroup → ProgramResult TokenGroup}
    (ok : updateGroupWith L accounts update = .ok outcome) : Refines i L outcome := by
  simp only [updateGroupWith, bind_eq_ok_iff, Prod.exists, nextAccountInfo_eq_ok_iff,
    checkProgramAccount_eq_ok_iff, unpackMint_eq_ok_iff, exists_const] at ok
  obtain ⟨info, _, -, _, _, -, owned, mint, data, _, -, _, -, _, -, ledger, stored, same⟩ := ok
  obtain rfl := Except.ok.inj same
  exact .of_same (book_writeMint_same data (StateWithExtensions.issuance_set mint (by decide) _)
    stored)

theorem processInitializeMember_refines (ok : processInitializeMember env L accounts = .ok outcome) :
    Refines i L outcome := by
  simp only [processInitializeMember, bind_eq_ok_iff, Prod.exists, nextAccountInfo_eq_ok_iff,
    checkProgramAccount_eq_ok_iff, unpackMint_eq_ok_iff, require_eq_ok_iff, exists_const] at ok
  obtain ⟨info, _, -, mintInfo, _, -, _, _, -, groupInfo, _, -, _, _, -, owned', here, owned, mint,
    data, _, -, distinct, groupMint, data', _, -, _, -, group, -, mid, first, updated, written, last,
    second, same⟩ := ok
  obtain rfl := Except.ok.inj same
  have untouched : (mid mintInfo.key).data = .mint mint := by
    obtain ⟨-, rfl⟩ := Ledger.writeData_eq_ok_iff.mp first
    rw [Ledger.data_setData_of_ne _ (here ▸ distinct), data]
  rw [here] at second
  refine .of_same ?_
  show last.book = L.book
  rw [book_writeMint_same untouched (StateWithExtensions.issuance_of_writesOnly
    (StateWithExtensions.allocAndSerialize_writesOnly written).2 (by decide)) second,
    book_writeMint_same data' (StateWithExtensions.issuance_set groupMint (by decide) _) first]

theorem processTokenGroupInstruction_refines {instruction : TokenGroupInstruction}
    (ok : processTokenGroupInstruction env L accounts instruction = .ok outcome) :
    Refines i L outcome := by
  cases instruction
  case initializeGroup => exact processInitializeGroup_refines ok
  case initializeMember => exact processInitializeMember_refines ok
  all_goals exact updateGroupWith_refines ok

end Token2022
