/-
**The effects of initialization.**

* `initializeMintExtension_refines` — an extension of a mint to be is staged.
* `processInitializeMint_refines`, `processInitializeAccount_refines`, `processInitializeMultisig_refines`,
  `processCreateNativeMint_refines` — a vacant account becomes a mint, a holding, a multisig.
* `get_foldlM_initAccountExtensionFromType` — the extensions of a new account.
-/

import Token2022.Abstract.Reading

namespace Token2022

open Fallible

variable {i : Invocation} {env : Env} {L : Ledger} {accounts : List AccountMeta} {outcome : Outcome}

/-! ### Mints -/

/-- **An extension that is set before its mint is initialized is staged.** -/
theorem initializeMintExtension_refines {t : ExtensionType} {value : ProgramResult (Extension t)}
    (ok : initializeMintExtension L accounts t value = .ok outcome)
    (fresh : ∀ v, value = .ok v → FreshEntry t v) : Refines i L outcome := by
  simp only [initializeMintExtension, bind_eq_ok_iff, Prod.exists, nextAccountInfo_eq_ok_iff,
    checkProgramAccount_eq_ok_iff, exists_const] at ok
  obtain ⟨info, rest, -, owned, tlv, unpacked, v, given, tlv', written, ledger, stored, same⟩ := ok
  obtain rfl := Except.ok.inj same
  obtain ⟨-, -, rfl⟩ := TlvData.initExtension_eq_ok written
  have held := Ledger.slot_of_zeroed owned (unpackUninitialized_eq_ok unpacked)
  apply Refines.of_effect
  show Effect i [] none L.book ledger.book
  rw [Ledger.book_writeData owned stored]
  exact Effect.stage held (fresh v given)

/-- **A vacant account becomes a mint.** -/
theorem processInitializeMintWith_refines {decimals : ℕ} {mintAuthority : Address}
    {freezeAuthority : Option Address} {rentSysvarAccount : Bool}
    (named : ∀ m, i.key? 0 = some m → i.initializesMint m = true)
    (ok : processInitializeMintWith i.env L i.accounts decimals mintAuthority freezeAuthority
      rentSysvarAccount = .ok outcome) : Refines i L outcome := by
  simp only [processInitializeMintWith, bind_eq_ok_iff, Prod.exists, nextAccountInfo_eq_ok_iff,
    checkProgramAccount_eq_ok_iff, require_eq_ok_iff, exists_const,
    ExtensionType.checkForInvalidMintExtensionCombinations_eq_ok_iff] at ok
  obtain ⟨info, rest, shape, owned, _, -, -, tlv, unpacked, len, -, -, valid, -, ledger, stored,
    same⟩ := ok
  obtain rfl := Except.ok.inj same
  have held := Ledger.slot_of_zeroed owned (unpackUninitialized_eq_ok unpacked)
  have first : i.key? 0 = some info.key := by
    rw [Invocation.key?, shape]
    rfl
  apply Refines.of_effect
  show Effect i [] none L.book ledger.book
  rw [Ledger.book_writeData owned stored]
  exact Effect.openMint (named info.key first) held valid rfl

/-- **The native mint is created.** -/
theorem processCreateNativeMint_refines (named : i.instruction = .createNativeMint)
    (ok : processCreateNativeMint i.env L i.accounts = .ok outcome) : Refines i L outcome := by
  simp only [processCreateNativeMint, bind_eq_ok_iff, Prod.exists, nextAccountInfo_eq_ok_iff,
    require_eq_ok_iff, exists_const] at ok
  obtain ⟨payer, _, -, native, _, -, _, _, -, -, funded, transferred, allocated, assigned, ledger,
    stored, same⟩ := ok
  obtain rfl := Except.ok.inj same
  have ext := i.env.programs.systemTransfer_external transferred
  obtain ⟨foreign, rfl⟩ := i.env.programs.allocateNativeMint_spec assigned
  obtain ⟨-, rfl⟩ := Ledger.writeData_eq_ok_iff.mp stored
  have creates : i.initializesMint nativeMintId = true := by
    rw [Invocation.initializesMint, named]
    exact decide_eq_true rfl
  refine ⟨funded.book, _, ext.book,
    Effect.createNativeMint creates (Ledger.slot_foreign_iff.mpr foreign), ?_⟩
  convert Book.External.refl _ using 1
  unfold Ledger.book Ledger.setData Book.write
  congr 1
  · funext a
    by_cases same : a = nativeMintId
    · subst same
      simp only [Function.update_self]
      rfl
    · simp [same]
  · funext a
    by_cases same : a = nativeMintId
    · subst same
      simp
    · simp [same]

/-! ### Token accounts -/

/-- The extension types that `init_account_extension_from_type` knows. -/
def initialAccountTypes : List ExtensionType :=
  [.transferFeeAmount, .immutableOwner, .nonTransferableAccount, .transferHookAccount,
    .pausableAccount]

/-- What `init_account_extension_from_type` leaves at each type. -/
theorem get_initAccountExtensionFromType {kind : AccountType} {tlv tlv' : TlvData kind}
    {t : ExtensionType} (ok : tlv.initAccountExtensionFromType t = .ok tlv') (t' : ExtensionType) :
    (t' ≠ t → tlv'.get t' = tlv.get t') ∧
      (t' = t → t ∈ initialAccountTypes → (tlv'.get t').isSome = true) ∧
      (t = .transferFeeAmount → tlv'.get .transferFeeAmount = some ⟨0⟩) := by
  have wrote : ∀ {s : ExtensionType} {v : Extension s} {o : Bool},
      tlv.initExtension s v o = .ok tlv' → tlv' = tlv.set s v :=
    fun written => (TlvData.initExtension_eq_ok written).2.2
  cases t
  case transferFeeAmount | immutableOwner | nonTransferableAccount | transferHookAccount
      | pausableAccount =>
    obtain rfl := wrote ok
    refine ⟨fun ne => Buffer.get_set_of_ne _ ne _, ?_, ?_⟩
    · rintro rfl -
      rw [show (tlv.set _ _).toBuffer = tlv.toBuffer.set _ _ from rfl, Buffer.get_set_self]
      rfl
    · rintro same
      cases same
      try exact Buffer.get_set_self _ _ _
  all_goals
    obtain rfl := Except.ok.inj ok
    exact ⟨fun _ => rfl, fun _ member => by simp [initialAccountTypes] at member,
      fun same => by simp at same⟩

/-- **The extensions of a new account**: those that are required, fresh, and those set before. -/
theorem get_foldlM_initAccountExtensionFromType {kind : AccountType} {types : List ExtensionType}
    {tlv tlv' : TlvData kind}
    (ok : types.foldlM TlvData.initAccountExtensionFromType tlv = .ok tlv') (t : ExtensionType) :
    (t ∉ types → tlv'.get t = tlv.get t) ∧
      (t ∈ types → t ∈ initialAccountTypes → (tlv'.get t).isSome = true) ∧
      (.transferFeeAmount ∈ types → tlv'.get .transferFeeAmount = some ⟨0⟩) := by
  induction types generalizing tlv t with
  | nil =>
    rw [List.foldlM_nil, pure_eq_ok_iff] at ok
    subst ok
    exact ⟨fun _ => rfl, fun member => by simp at member, fun member => by simp at member⟩
  | cons head types ih =>
    rw [List.foldlM_cons, bind_eq_ok_iff] at ok
    obtain ⟨mid, first, rest⟩ := ok
    obtain ⟨kept, marked, fee⟩ := ih rest t
    refine ⟨fun absent => ?_, fun member known => ?_, fun member => ?_⟩
    · rw [List.mem_cons, not_or] at absent
      rw [kept absent.2]
      exact (get_initAccountExtensionFromType first t).1 absent.1
    · by_cases later : t ∈ types
      · exact marked later known
      · rw [kept later]
        obtain rfl : t = head := (List.mem_cons.mp member).resolve_right later
        exact (get_initAccountExtensionFromType first t).2.1 rfl known
    · by_cases later : ExtensionType.transferFeeAmount ∈ types
      · exact fee later
      · obtain rfl : ExtensionType.transferFeeAmount = head :=
          (List.mem_cons.mp member).resolve_right later
        rw [(ih rest .transferFeeAmount).1 later]
        exact (get_initAccountExtensionFromType first .transferFeeAmount).2.2 rfl

namespace MintState

theorem mem_requiredInitAccountExtensions {mint : MintState} {x : ExtensionType} :
    x ∈ mint.requiredInitAccountExtensions ↔
      ∃ t, mint.has t = true ∧ x ∈ t.requiredInitAccountExtensions := by
  simp only [requiredInitAccountExtensions, List.mem_flatMap,
    StateWithExtensions.mem_extensionTypes]

/-- **What a mint requires of its accounts**, mark by mark. -/
theorem mem_requiredInitAccountExtensions_iff {mint : MintState} {x : ExtensionType} :
    x ∈ mint.requiredInitAccountExtensions ↔
      x = .transferFeeAmount ∧ mint.has .transferFeeConfig = true ∨
      (x = .nonTransferableAccount ∨ x = .immutableOwner) ∧ mint.has .nonTransferable = true ∨
      x = .transferHookAccount ∧ mint.has .transferHook = true ∨
      x = .pausableAccount ∧ mint.has .pausable = true := by
  rw [mem_requiredInitAccountExtensions]
  constructor
  · rintro ⟨t, held, member⟩
    cases t <;> simp_all [ExtensionType.requiredInitAccountExtensions]
  · rintro (⟨rfl, held⟩ | ⟨rfl | rfl, held⟩ | ⟨rfl, held⟩ | ⟨rfl, held⟩)
    · exact ⟨_, held, by decide⟩
    · exact ⟨_, held, by decide⟩
    · exact ⟨_, held, by decide⟩
    · exact ⟨_, held, by decide⟩
    · exact ⟨_, held, by decide⟩

theorem startingState_issuance (mint : MintState) :
    mint.issuance.startingState = mint.startingState.val := by
  unfold startingState
  show (mint.get .defaultAccountState).elim .initialized DefaultAccountState.state = _
  cases mint.get .defaultAccountState with
  | none => rfl
  | some default => rfl

end MintState

/-- **The holding of a new account.** -/
theorem holding_of_required {mint : MintState} {tlv tlv' : TlvData .account}
    (ok : mint.requiredInitAccountExtensions.foldlM TlvData.initAccountExtensionFromType tlv =
      .ok tlv') (base : PodAccount) :
    tlv'.toBuffer.holding base = tlv.toBuffer.openHolding mint.issuance base := by
  have kept : ∀ x, x ∉ mint.requiredInitAccountExtensions → tlv'.get x = tlv.get x :=
    fun x => (get_foldlM_initAccountExtensionFromType ok x).1
  have marked : ∀ x ∈ initialAccountTypes, ∀ required : Bool,
      (x ∈ mint.requiredInitAccountExtensions ↔ required = true) →
        (tlv'.get x).isSome = (required || (tlv.get x).isSome) := by
    intro x known required iff
    by_cases member : x ∈ mint.requiredInitAccountExtensions
    · rw [(get_foldlM_initAccountExtensionFromType ok x).2.1 member known, iff.mp member,
        Bool.true_or]
    · rw [kept x member, Bool.eq_false_iff.mpr (fun holds => member (iff.mpr holds)),
        Bool.false_or]
  have fee : (tlv'.get .transferFeeAmount).map TransferFeeAmount.withheldAmount =
      if (mint.get .transferFeeConfig).isSome then some 0
      else (tlv.get .transferFeeAmount).map TransferFeeAmount.withheldAmount := by
    by_cases held : (mint.get .transferFeeConfig).isSome = true
    · have member : ExtensionType.transferFeeAmount ∈ mint.requiredInitAccountExtensions :=
        MintState.mem_requiredInitAccountExtensions_iff.mpr (.inl ⟨rfl, held⟩)
      rw [if_pos held, (get_foldlM_initAccountExtensionFromType ok .transferFeeAmount).2.2 member]
      rfl
    · have absent : ExtensionType.transferFeeAmount ∉ mint.requiredInitAccountExtensions := by
        rw [MintState.mem_requiredInitAccountExtensions_iff]
        simpa [StateWithExtensions.has] using held
      rw [if_neg held, kept _ absent]
  have unrequired : ∀ x, x ∉ initialAccountTypes → tlv'.get x = tlv.get x := by
    intro x unknown
    refine kept x fun member => unknown ?_
    rw [MintState.mem_requiredInitAccountExtensions_iff] at member
    rcases member with ⟨rfl, -⟩ | ⟨rfl | rfl, -⟩ | ⟨rfl, -⟩ | ⟨rfl, -⟩ <;> decide
  ext1
  case withheld => exact fee
  case immutableOwner =>
    exact marked .immutableOwner (by decide) (mint.has .nonTransferable)
      (by simp [MintState.mem_requiredInitAccountExtensions_iff])
  case nonTransferable =>
    exact marked .nonTransferableAccount (by decide) (mint.has .nonTransferable)
      (by simp [MintState.mem_requiredInitAccountExtensions_iff])
  case hooked =>
    exact marked .transferHookAccount (by decide) (mint.has .transferHook)
      (by simp [MintState.mem_requiredInitAccountExtensions_iff])
  case pausable =>
    exact marked .pausableAccount (by decide) (mint.has .pausable)
      (by simp [MintState.mem_requiredInitAccountExtensions_iff])
  case base => rfl
  all_goals
    simp only [Buffer.openHolding, Buffer.holding]
    rw [unrequired _ (by decide)]

/-- **A vacant account becomes a holding.** -/
theorem processInitializeAccountWith_refines {owner : Option Address} {rentSysvarAccount : Bool}
    (ok : processInitializeAccountWith env L accounts owner rentSysvarAccount = .ok outcome) :
    Refines i L outcome := by
  simp only [processInitializeAccountWith, bind_eq_ok_iff, Prod.exists, nextAccountInfo_eq_ok_iff,
    checkProgramAccount_eq_ok_iff, require_eq_ok_iff, okOr_eq_ok_iff, exists_const] at ok
  obtain ⟨newAccount, _, -, mintInfo, _, -, owned, mintOwned, owner, _, -, _, -, tlv, unpacked, -,
    mint, read, _, -, -, tlv', required, isNative, amount, native, ledger, stored, same⟩ := ok
  obtain rfl := Except.ok.inj same
  have vacant := Ledger.slot_of_zeroed owned (unpackUninitialized_eq_ok unpacked)
  have mintData : (L mintInfo.key).data = .mint mint := by
    cases unpackedMint : unpackMint (L mintInfo.key).data with
    | error e => simp [unpackedMint, Except.toOption] at read
    | ok st =>
      obtain rfl : st = mint := by simpa [unpackedMint, Except.toOption] using read
      exact unpackMint_eq_ok_iff.mp unpackedMint
  have issued := Ledger.slot_of_unpackMint mintOwned mintData
  apply Refines.of_effect
  show Effect i [] none L.book ledger.book
  rw [Ledger.book_writeData owned stored]
  simp only [AccountData.slot, StateWithExtensions.holding]
  rw [holding_of_required required]
  refine Effect.openHolding vacant issued ⟨rfl, rfl, rfl, ?_, ?_, ?_⟩
  · exact (MintState.startingState_issuance mint).symm
  · intro named
    rw [if_pos named] at native
    simp only [bind_eq_ok_iff, okOr_eq_ok_iff, checkedSub_eq_some_iff, Except.ok.injEq,
      Prod.mk.injEq] at native
    obtain ⟨_, ⟨le, rfl⟩, rfl, rfl⟩ := native
    exact ⟨_, rfl, Nat.sub_add_cancel le⟩
  · intro plain
    rw [if_neg plain] at native
    simp only [Except.ok.injEq, Prod.mk.injEq] at native
    exact ⟨native.1.symm, native.2.symm⟩

/-- **The mark of an immutable owner is staged.** -/
theorem processInitializeImmutableOwner_refines
    (ok : processInitializeImmutableOwner L accounts = .ok outcome) : Refines i L outcome := by
  simp only [processInitializeImmutableOwner, bind_eq_ok_iff, Prod.exists,
    nextAccountInfo_eq_ok_iff, checkProgramAccount_eq_ok_iff, exists_const] at ok
  obtain ⟨info, rest, -, owned, tlv, unpacked, tlv', written, ledger, stored, same⟩ := ok
  obtain rfl := Except.ok.inj same
  obtain ⟨-, -, rfl⟩ := TlvData.initExtension_eq_ok written
  have held := Ledger.slot_of_zeroed owned (unpackUninitialized_eq_ok unpacked)
  apply Refines.of_effect
  show Effect i [] none L.book ledger.book
  rw [Ledger.book_writeData owned stored]
  exact Effect.stage held (.inr rfl)

theorem processGetAccountDataSize_refines {types : List ExtensionType}
    (ok : processGetAccountDataSize L accounts types = .ok outcome) : Refines i L outcome := by
  simp only [processGetAccountDataSize, bind_eq_ok_iff, Prod.exists] at ok
  obtain ⟨_, _, -, _, -, _, -, _, -, _, -, same⟩ := ok
  obtain rfl := Except.ok.inj same
  exact .of_same rfl

theorem processUiConversion_refines (ok : processUiConversion L accounts = .ok outcome) :
    Refines i L outcome := by
  simp only [processUiConversion, bind_eq_ok_iff, Prod.exists] at ok
  obtain ⟨_, _, -, _, -, _, -, same⟩ := ok
  obtain rfl := Except.ok.inj same
  exact .of_same rfl

/-! ### Multisigs -/

/-- **A vacant account becomes a multisig.** -/
theorem processInitializeMultisigWith_refines {m : ℕ} {rentSysvarAccount : Bool}
    (ok : processInitializeMultisigWith env L accounts m rentSysvarAccount = .ok outcome) :
    Refines i L outcome := by
  simp only [processInitializeMultisigWith, bind_eq_ok_iff, Prod.exists,
    nextAccountInfo_eq_ok_iff, checkProgramAccount_eq_ok_iff, require_eq_ok_iff,
    exists_const] at ok
  obtain ⟨info, _, -, owned, signers, -, -, ok⟩ := ok
  split at ok
  · rename_i buffer data
    simp only [bind_eq_ok_iff, require_eq_ok_iff, exists_const] at ok
    obtain ⟨-, -, -, -, ledger, stored, same⟩ := ok
    obtain rfl := Except.ok.inj same
    apply Refines.of_effect
    show Effect i [] none L.book ledger.book
    rw [Ledger.book_writeData owned stored]
    exact Effect.openMultisig (Ledger.slot_of_zeroed owned data)
  · simp at ok

end Token2022
