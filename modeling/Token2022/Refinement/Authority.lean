/-
**The effects of delegation, of authorities and of freezing.**

* `configOnly_set` — a write to an extension of a mint that keeps what the extension says about
  tokens changes settings only; `updateMintExtension_refines` and the authorities of a mint are
  instances of it.
* **`processApprove_refines`**, **`processSetAuthority_refines`**,
  **`processToggleFreezeAccount_refines`**, **`processToggleCpiGuard_refines`** — an instruction
  on a holding alone.
* **`processCloseAccount_refines`** — what a close asks of a holding and of a mint.
-/

import Token2022.Processor.AccountConfig
import Token2022.Processor.MintConfig
import Token2022.Refinement.Transfer

namespace Token2022

open Fallible

variable {i : Invocation} {env : Env} {L : Ledger} {accounts : List AccountMeta} {outcome : Outcome}

/-! ### Settings of a mint -/

/-- Two values of an extension that say the same about tokens. -/
def SameTokens : (t : ExtensionType) → Extension t → Extension t → Prop
  | .transferFeeConfig, e, e' => e'.withheldAmount = e.withheldAmount
  | .pausable, e, e' => e'.paused = e.paused
  | .confidentialMintBurn, e, e' => e'.encryptedSupply = e.encryptedSupply
  | .confidentialTransferFeeConfig, e, e' => e'.withheldAmount = e.withheldAmount
  | .defaultAccountState, e, e' => e'.state = e.state
  | _, _, _ => True

/-- **A write that says the same about tokens changes settings only.** -/
theorem configOnly_set {mint : MintState} {t : ExtensionType} {e e' : Extension t}
    (held : mint.get t = some e) (same : SameTokens t e e') :
    ConfigOnly mint.issuance (mint.set t e').issuance := by
  by_cases unread : t ∉ StateWithExtensions.issuanceTypes
  · rw [StateWithExtensions.issuance_set mint unread]
    exact .refl _
  have present : (mint.tlv.get t).isSome = true := by
    rw [show mint.tlv.get t = some e from held]
    rfl
  cases t
  case transferFeeConfig =>
    rw [StateWithExtensions.issuance_set_transferFeeConfig]
    refine { ConfigOnly.refl mint.issuance with withheld := ?_ }
    rw [StateWithExtensions.fees_issuance, held]
    exact congrArg some same
  case mintCloseAuthority =>
    rw [StateWithExtensions.issuance_set_mintCloseAuthority]
    exact { ConfigOnly.refl mint.issuance with }
  case permanentDelegate =>
    rw [StateWithExtensions.issuance_set_permanentDelegate]
    exact { ConfigOnly.refl mint.issuance with }
  case transferHook =>
    rw [StateWithExtensions.issuance_set_transferHook]
    refine { ConfigOnly.refl mint.issuance with hook := ?_ }
    rw [StateWithExtensions.hook_issuance, held]
    rfl
  case pausable =>
    rw [StateWithExtensions.issuance_set_pausable]
    refine { ConfigOnly.refl mint.issuance with paused := ?_ }
    rw [StateWithExtensions.pausable_issuance, held]
    exact congrArg some same
  case confidentialMintBurn =>
    rw [StateWithExtensions.issuance_set_confidentialMintBurn]
    refine { ConfigOnly.refl mint.issuance with mintBurn := ?_ }
    rw [StateWithExtensions.mintBurn_issuance, held]
    exact congrArg some same
  case confidentialTransferMint =>
    rw [StateWithExtensions.issuance_set_confidentialTransferMint mint held]
    exact .refl _
  case confidentialTransferFeeConfig =>
    rw [StateWithExtensions.issuance_set_confidentialTransferFeeConfig]
    refine { ConfigOnly.refl mint.issuance with encryptedWithheld := ?_ }
    rw [StateWithExtensions.encryptedWithheld_issuance, held]
    exact congrArg some same
  case nonTransferable =>
    rw [StateWithExtensions.issuance_set_nonTransferable mint held]
    exact .refl _
  case defaultAccountState =>
    rw [StateWithExtensions.issuance_set_defaultAccountState]
    refine { ConfigOnly.refl mint.issuance with unfreezable := fun none => ⟨none, ?_⟩ }
    show e'.state = (mint.get .defaultAccountState).elim .initialized DefaultAccountState.state
    rw [held]
    exact same
  all_goals exact absurd (by decide) unread

/-- **An update of an extension on behalf of its authority.** -/
theorem updateMintExtension_refines {t : ExtensionType}
    {authorityOf : Extension t → MaybeNull Address} {missing : TokenError}
    {update : Extension t → ProgramResult (Extension t)}
    (ok : updateMintExtension L accounts t authorityOf missing update = .ok outcome)
    (same : ∀ e e', update e = .ok e' → SameTokens t e e') : Refines i L outcome := by
  simp only [updateMintExtension, bind_eq_ok_iff, Prod.exists, nextAccountInfo_eq_ok_iff,
    checkProgramAccount_eq_ok_iff, unpackMint_eq_ok_iff, okOr_eq_ok_iff, exists_const] at ok
  obtain ⟨mintInfo, _, -, authority, signers, -, owned, mint, data, e, held, expected, -, _, -, e',
    updated, ledger, stored, done⟩ := ok
  obtain rfl := Except.ok.inj done
  apply Refines.of_effect
  show Effect i [expected] none L.book ledger.book
  rw [Ledger.book_writeData owned stored]
  exact Effect.configureMint (Ledger.slot_of_unpackMint owned data)
    (configOnly_set (StateWithExtensions.getExtension_eq_ok_iff.mp held) (same e e' updated))

/-! ### Authorities of a mint -/

theorem setExtensionAuthority_configOnly {mint mint' : MintState} {authority : AccountMeta}
    {signers : List AccountMeta} {newAuthority : Option Address} {t : ExtensionType}
    {read : Extension t → MaybeNull Address} {write : Extension t → MaybeNull Address → Extension t}
    {key : Address}
    (ok : setExtensionAuthority L mint authority signers newAuthority t read write =
      .ok (mint', key))
    (same : ∀ e a, SameTokens t e (write e a)) : ConfigOnly mint.issuance mint'.issuance := by
  simp only [setExtensionAuthority, bind_eq_ok_iff, okOr_eq_ok_iff, Except.ok.injEq,
    Prod.mk.injEq] at ok
  obtain ⟨e, held, current, -, _, -, replaced, -, rfl, rfl⟩ := ok
  exact configOnly_set (StateWithExtensions.getExtension_eq_ok_iff.mp held) (same e replaced)

/-- **A change of an authority of a mint changes settings only.** -/
theorem setMintAuthority_configOnly {mint mint' : MintState} {authority : AccountMeta}
    {signers : List AccountMeta} {authorityType : AuthorityType} {newAuthority : Option Address}
    {key : Address}
    (ok : setMintAuthority L mint authority signers authorityType newAuthority = .ok (mint', key)) :
    ConfigOnly mint.issuance mint'.issuance := by
  cases authorityType
  case mintTokens =>
    simp only [setMintAuthority, bind_eq_ok_iff, okOr_eq_ok_iff, Except.ok.injEq,
      Prod.mk.injEq] at ok
    obtain ⟨current, -, _, -, rfl, rfl⟩ := ok
    rw [StateWithExtensions.issuance_withBase]
    exact { ConfigOnly.refl mint.issuance with }
  case freezeAccount =>
    simp only [setMintAuthority, bind_eq_ok_iff, okOr_eq_ok_iff, Except.ok.injEq,
      Prod.mk.injEq] at ok
    obtain ⟨current, held, _, -, rfl, rfl⟩ := ok
    rw [StateWithExtensions.issuance_withBase]
    refine { ConfigOnly.refl mint.issuance with unfreezable := fun none => ?_ }
    rw [StateWithExtensions.base_issuance, held] at none
    simp at none
  case accountOwner | closeAccount => simp [setMintAuthority] at ok
  case transferFeeConfig | withheldWithdraw | confidentialTransferFeeConfig | pause =>
    exact setExtensionAuthority_configOnly ok fun _ _ => rfl
  all_goals exact setExtensionAuthority_configOnly ok fun _ _ => trivial

/-! ### Authorities of a token account -/

/-- **A change of an authority of a token account.** -/
theorem setAccountAuthority_adjustment {a : Address} {account : TokenAccountState}
    {authority : AccountMeta} {signers : List AccountMeta} {authorityType : AuthorityType}
    {newAuthority : Option Address} {base : PodAccount} {key : Address}
    (ok : setAccountAuthority i.env L account authority signers authorityType newAuthority =
      .ok (base, key)) :
    Adjustment i L.book a account.holding [key] (account.holding.withBase base) := by
  simp only [setAccountAuthority, bind_eq_ok_iff, require_eq_ok_iff, exists_const] at ok
  obtain ⟨thawed, ok⟩ := ok
  cases authorityType
  case accountOwner =>
    simp only [bind_eq_ok_iff, require_eq_ok_iff, okOr_eq_ok_iff, exists_const, Except.ok.injEq,
      Prod.mk.injEq] at ok
    obtain ⟨_, -, mutable, -, unlocked, owner, -, rfl, rfl⟩ := ok
    exact .setOwner thawed mutable unlocked
  case closeAccount =>
    simp only [bind_eq_ok_iff, require_eq_ok_iff, exists_const, Except.ok.injEq,
      Prod.mk.injEq] at ok
    obtain ⟨_, -, unguarded, rfl, rfl⟩ := ok
    exact .setCloseAuthority thawed unguarded
  all_goals simp at ok

/-- **The effect of a change of authority.** -/
theorem processSetAuthority_refines {authorityType : AuthorityType} {newAuthority : Option Address}
    (ok : processSetAuthority i.env L accounts authorityType newAuthority = .ok outcome) :
    Refines i L outcome := by
  simp only [processSetAuthority, bind_eq_ok_iff, Prod.exists, nextAccountInfo_eq_ok_iff,
    checkProgramAccount_eq_ok_iff, exists_const] at ok
  obtain ⟨info, _, -, authority, signers, -, owned, ok⟩ := ok
  split at ok
  · rename_i account read
    simp only [bind_eq_ok_iff, Prod.exists] at ok
    obtain ⟨base, key, changed, ledger, stored, same⟩ := ok
    obtain rfl := Except.ok.inj same
    apply Refines.of_effect
    show Effect i [key] none L.book ledger.book
    rw [Ledger.book_writeData owned stored]
    exact Effect.adjust (Ledger.slot_of_unpackAccount owned (unpackAccount_eq_ok_iff.mp read))
      (setAccountAuthority_adjustment changed)
  · split at ok
    · rename_i mint read
      simp only [bind_eq_ok_iff, Prod.exists] at ok
      obtain ⟨mint', key, changed, ledger, stored, same⟩ := ok
      obtain rfl := Except.ok.inj same
      apply Refines.of_effect
      show Effect i [key] none L.book ledger.book
      rw [Ledger.book_writeData owned stored]
      exact Effect.configureMint (Ledger.slot_of_unpackMint owned (unpackMint_eq_ok_iff.mp read))
        (setMintAuthority_configOnly changed)
    · simp at ok

/-! ### Delegation -/

/-- **The effect of an approval.** -/
theorem processApprove_refines {amount : ℕ} {decimals : Option ℕ}
    (named : ∀ source expectedMint delegate rest rest',
      i.accounts = source :: rest → nextMintInfo decimals rest = .ok (expectedMint, delegate :: rest') →
        i.approval = some (source.key, delegate.key, amount))
    (ok : processApprove i.env L i.accounts amount decimals = .ok outcome) :
    Refines i L outcome := by
  simp only [processApprove, bind_eq_ok_iff, Prod.exists, nextAccountInfo_eq_ok_iff,
    checkProgramAccount_eq_ok_iff, unpackAccount_eq_ok_iff, require_eq_ok_iff, exists_const] at ok
  obtain ⟨info, rest, shape, owned, expectedMint, rest', next, delegate, rest'', shape', owner,
    signers, -, source, data, thawed, _, -, _, -, unguarded, ledger, stored, same⟩ := ok
  obtain rfl := Except.ok.inj same
  subst shape'
  apply Refines.of_effect
  show Effect i [source.base.owner] none L.book ledger.book
  rw [Ledger.book_writeData owned stored]
  exact Effect.adjust (Ledger.slot_of_unpackAccount owned data)
    (Adjustment.approve (named info expectedMint delegate rest rest'' shape next) thawed unguarded)

/-- **The effect of a revocation.** -/
theorem processRevoke_refines (ok : processRevoke L accounts = .ok outcome) :
    Refines i L outcome := by
  simp only [processRevoke, bind_eq_ok_iff, Prod.exists, nextAccountInfo_eq_ok_iff,
    checkProgramAccount_eq_ok_iff, unpackAccount_eq_ok_iff, require_eq_ok_iff, exists_const] at ok
  obtain ⟨info, _, -, authority, signers, -, owned, source, data, thawed, _, -, ledger, stored,
    same⟩ := ok
  obtain rfl := Except.ok.inj same
  apply Refines.of_effect
  show Effect i [_] none L.book ledger.book
  rw [Ledger.book_writeData owned stored]
  refine Effect.adjust (Ledger.slot_of_unpackAccount owned data) (Adjustment.revoke thawed ?_)
  by_cases delegate : source.base.delegate = some authority.key
  · rw [if_pos delegate]
    exact .inr ⟨authority.key, delegate, List.mem_singleton_self _⟩
  · rw [if_neg delegate]
    exact .inl (List.mem_singleton_self _)

/-! ### Freezing -/

/-- **The effect of a freeze and of a thaw.** -/
theorem processToggleFreezeAccount_refines (freeze : Bool)
    (named : i.instruction = if freeze then .freezeAccount else .thawAccount)
    (ok : processToggleFreezeAccount L i.accounts freeze = .ok outcome) : Refines i L outcome := by
  simp only [processToggleFreezeAccount, bind_eq_ok_iff, Prod.exists, nextAccountInfo_eq_ok_iff,
    checkProgramAccount_eq_ok_iff, unpackAccount_eq_ok_iff, unpackMint_eq_ok_iff, require_eq_ok_iff,
    okOr_eq_ok_iff, exists_const] at ok
  obtain ⟨info, _, shape, mintInfo, _, -, authority, signers, -, owned, owned', source, data, before,
    plain, sameMint, mint, data', key, holder, _, -, ledger, stored, same⟩ := ok
  obtain rfl := Except.ok.inj same
  have target : i.key? 0 = some info.key := by
    rw [Invocation.key?, shape]
    rfl
  have issued : L.book.slot source.holding.base.mint = .issue mint.issuance := by
    rw [StateWithExtensions.base_holding, ← sameMint]
    exact Ledger.slot_of_unpackMint owned' data'
  apply Refines.of_effect
  show Effect i [key] none L.book ledger.book
  rw [Ledger.book_writeData owned stored]
  exact Effect.toggleFreeze _ (Ledger.slot_of_unpackAccount owned data) issued holder plain before rfl
    named target

/-! ### The CPI guard -/

/-- A setting is written in place or behind the last extension. -/
theorem setOrInitExtension_eq_ok {st st' : TokenAccountState} {t : ExtensionType} {v : Extension t}
    (ok : setOrInitExtension st t v = .ok st') : st' = st.set t v := by
  unfold setOrInitExtension at ok
  split at ok
  · exact (Except.ok.inj ok).symm
  · exact (StateWithExtensions.initExtension_eq_ok ok).2.2

/-- **What a validated named address has done**: it has signed. -/
theorem vouched_of_validateOwner {expected : Address} {owner : AccountMeta}
    {signers : List AccountMeta} {u : Unit} (member : owner ∈ i.accounts)
    (ok : validateOwner L expected owner signers = .ok u) : Vouched i L.book expected := by
  intro named foreign untouched
  have key : owner.key = expected := validateOwner_key ok
  refine ⟨owner, member, key, ?_⟩
  rw [Ledger.slot_foreign_iff] at foreign
  have legacy : (L expected).owner ≠ inlineSplTokenId := by
    intro held
    rcases named with rfl | rfl
    · exact untouched (.inl held)
    · exact untouched (.inr held)
  unfold validateOwner at ok
  obtain ⟨-, ok⟩ := require_bind_eq_ok_iff.mp ok
  rw [key, if_neg (fun multisig => multisig.1.elim foreign legacy)] at ok
  exact require_eq_ok_iff.mp ok

/-- **The effect of locking and unlocking an account against other programs.** -/
theorem processToggleCpiGuard_refines (enable : Bool)
    (named : i.instruction = .cpiGuardExtension (if enable then .enable else .disable))
    (ok : processToggleCpiGuard i.env L i.accounts enable = .ok outcome) : Refines i L outcome := by
  simp only [processToggleCpiGuard, bind_eq_ok_iff, Prod.exists, nextAccountInfo_eq_ok_iff,
    checkProgramAccount_eq_ok_iff, unpackAccount_eq_ok_iff, require_eq_ok_iff, exists_const] at ok
  obtain ⟨info, rest, shape, owner, signers, shape', owned, account, data, _, valid, outside,
    updated, set, ledger, stored, same⟩ := ok
  obtain rfl := Except.ok.inj same
  obtain rfl := setOrInitExtension_eq_ok set
  have target : i.key? 0 = some info.key := by
    rw [Invocation.key?, shape]
    rfl
  have member : owner ∈ i.accounts := by
    rw [shape, shape']
    exact List.mem_cons_of_mem _ List.mem_cons_self
  apply Refines.of_effect
  show Effect i [account.base.owner] none L.book ledger.book
  rw [Ledger.book_writeData owned stored]
  simp only [AccountData.slot]
  rw [StateWithExtensions.holding_set_cpiGuard]
  exact Effect.adjust (Ledger.slot_of_unpackAccount owned data)
    (Adjustment.lockCpi outside named target (vouched_of_validateOwner member valid))

/-- **Required memos are no part of the book.** -/
theorem processToggleRequiredMemoTransfers_refines {enable : Bool}
    (ok : processToggleRequiredMemoTransfers L accounts enable = .ok outcome) :
    Refines i L outcome := by
  simp only [processToggleRequiredMemoTransfers, bind_eq_ok_iff, Prod.exists,
    nextAccountInfo_eq_ok_iff, checkProgramAccount_eq_ok_iff, unpackAccount_eq_ok_iff,
    exists_const] at ok
  obtain ⟨info, _, -, owner, signers, -, owned, account, data, _, -, updated, set, ledger, stored,
    same⟩ := ok
  obtain rfl := Except.ok.inj same
  obtain rfl := setOrInitExtension_eq_ok set
  refine .of_same (Ledger.book_writeData_same stored fun _ => ?_)
  rw [data]
  exact congrArg Slot.holding (StateWithExtensions.holding_set account (by decide) _)

/-! ### Closing -/

theorem checkExtension_eq_ok_iff {α : Type} {extension : Option α} {check : α → ProgramResult Unit}
    {u : Unit} : checkExtension extension check = .ok u ↔
      ∀ e, extension = some e → check e = .ok () := by
  cases extension with
  | none => simp [checkExtension]
  | some e => simp [checkExtension]

/-- **A closable account holds nothing in its extensions.** -/
theorem closable_spec {account : TokenAccountState} (ok : account.closable = .ok ()) :
    (∀ e, account.holding.encrypted = some e →
      e.available = 0 ∧ e.pendingLo = 0 ∧ e.pendingHi = 0) ∧
    (∀ w, account.holding.withheld = some w → w = 0) ∧
    ∀ w, account.holding.encryptedWithheld = some w → w = 0 := by
  simp only [TokenAccountState.closable, bind_eq_ok_iff, checkExtension_eq_ok_iff,
    ConfidentialTransferAccount.closable, require_eq_ok_iff] at ok
  obtain ⟨_, balance, _, encryptedWithheld, withheld⟩ := ok
  refine ⟨fun e held => ?_, fun w held => ?_, fun w held => ?_⟩
  · rw [StateWithExtensions.encrypted_holding, Option.map_eq_some_iff] at held
    obtain ⟨v, read, rfl⟩ := held
    obtain ⟨lo, hi, available⟩ := balance v read
    exact ⟨available, lo, hi⟩
  · rw [StateWithExtensions.withheld_holding, Option.map_eq_some_iff] at held
    obtain ⟨v, read, rfl⟩ := held
    exact withheld v read
  · rw [StateWithExtensions.encryptedWithheld_holding, Option.map_eq_some_iff] at held
    obtain ⟨v, read, rfl⟩ := held
    exact encryptedWithheld v read

/-- **What a close asks of a token account.** -/
theorem closeTokenAccount_closes {account : TokenAccountState} {destination authority : AccountMeta}
    {signers : List AccountMeta} {validated : List Address}
    (named : i.instruction = .closeAccount) (target : i.key? 1 = some destination.key)
    (ok : closeTokenAccount i.env L account destination authority signers = .ok validated) :
    Closes i account.holding destination.key validated := by
  simp only [closeTokenAccount, bind_eq_ok_iff, require_eq_ok_iff, exists_const,
    Except.ok.injEq] at ok
  obtain ⟨empty, keys, signed, _, closable, rfl⟩ := ok
  obtain ⟨balance, withheld, encryptedWithheld⟩ := closable_spec closable
  refine ⟨named, target, empty, balance, withheld, encryptedWithheld, ?_⟩
  split at signed
  · rename_i exempt
    simp only [bind_eq_ok_iff, require_eq_ok_iff, exists_const, Except.ok.injEq] at signed
    obtain ⟨incinerated, rfl⟩ := signed
    rw [StateWithExtensions.base_holding, if_pos exempt]
    exact ⟨rfl, incinerated⟩
  · rename_i ordinary
    simp only [bind_eq_ok_iff, require_eq_ok_iff, exists_const, Except.ok.injEq] at signed
    obtain ⟨unguarded, _, -, rfl⟩ := signed
    rw [StateWithExtensions.base_holding, if_neg ordinary]
    exact ⟨rfl, unguarded⟩

/-- What a close asks of a mint. -/
theorem closeMint_spec {mint : MintState} {authority : AccountMeta} {signers : List AccountMeta}
    {validated : List Address} (ok : closeMint L mint authority signers = .ok validated) :
    ∃ key, validated = [key] ∧ mint.issuance.closeAuthority = some key ∧
      mint.issuance.base.supply = 0 ∧ ∀ e, mint.issuance.mintBurn = some e → e.supply = 0 := by
  simp only [closeMint, bind_eq_ok_iff, okOr_eq_ok_iff, require_eq_ok_iff, exists_const,
    checkExtension_eq_ok_iff, Except.ok.injEq] at ok
  obtain ⟨e, held, key, named, _, -, supply, mintBurn, rfl⟩ := ok
  refine ⟨key, rfl, ?_, supply, fun supplied read => ?_⟩
  · show (mint.get .mintCloseAuthority).bind (fun e => e.closeAuthority.toOption) = some key
    rw [StateWithExtensions.getExtension_eq_ok_iff.mp held]
    exact named
  · rw [StateWithExtensions.mintBurn_issuance, Option.map_eq_some_iff] at read
    obtain ⟨v, read, rfl⟩ := read
    exact mintBurn v read

/-- **A deleted account, on the book**: the lamports go to the destination, the slot is free. -/
theorem deleteAccount_book {credited : Ledger} {a d : Address} {error : ProgramError}
    (ne : a ≠ d) (owned : (L a).owner = programId)
    (ok : L.credit d (L a).lamports error = .ok credited) :
    (deleteAccount credited a).book =
      (L.book.pay a d (L.book.lamports a)).write a .foreign := by
  obtain ⟨-, rfl⟩ := Ledger.credit_eq_ok_iff.mp ok
  have ownedAfter : ((L.setLamports d ((L d).lamports + (L a).lamports)) a).owner = programId := by
    rw [Ledger.owner_setLamports, owned]
  have legacy : (deleteAccount (L.setLamports d ((L d).lamports + (L a).lamports)) a).book.legacy =
      L.book.legacy := by
    -- The account was the program's, and is the system program's now: neither is a legacy one.
    have same : ∀ b, ((deleteAccount (L.setLamports d ((L d).lamports + (L a).lamports)) a) b).owner =
        inlineSplTokenId ↔ (L b).owner = inlineSplTokenId := by
      intro b
      by_cases here : b = a
      · subst here
        rw [owned, deleteAccount, Function.update_self]
        constructor <;> intro absurd <;> revert absurd <;> decide
      · rw [deleteAccount, Function.update_of_ne here, Ledger.owner_setLamports]
    exact propext (or_congr (same _) (same _))
  unfold Book.write
  rw [Book.legacy_pay, ← legacy]
  unfold Ledger.book
  congr 1
  · funext b
    rw [Function.update_apply, Book.slot_pay]
    by_cases here : b = a
    · subst here
      rw [if_pos rfl, deleteAccount, Function.update_self]
      exact if_neg (by decide)
    · rw [if_neg here, deleteAccount, Function.update_of_ne here]
      unfold AccountInfo.slot
      rw [Ledger.owner_setLamports, Ledger.data_setLamports]
  · funext b
    rw [Book.lamports_pay]
    by_cases here : b = a
    · subst here
      rw [if_neg ne, if_pos rfl, deleteAccount, Function.update_self]
      exact (Nat.sub_self _).symm
    · rw [deleteAccount, Function.update_of_ne here]
      by_cases there : b = d
      · subst there
        rw [if_pos rfl, if_neg here, Ledger.setLamports, Function.update_self]
      · rw [if_neg there, if_neg here, Ledger.setLamports, Function.update_of_ne there]

/-- **The effect of a close.** -/
theorem processCloseAccount_refines (named : i.instruction = .closeAccount)
    (ok : processCloseAccount i.env L i.accounts = .ok outcome) : Refines i L outcome := by
  simp only [processCloseAccount, bind_eq_ok_iff, Prod.exists, nextAccountInfo_eq_ok_iff,
    checkProgramAccount_eq_ok_iff, require_eq_ok_iff, exists_const] at ok
  obtain ⟨info, _, shape, destination, _, shape', authority, signers, -, owned, distinct, validated,
    asked, credited, credit, same⟩ := ok
  obtain rfl := Except.ok.inj same
  have target : i.key? 0 = some info.key := by
    rw [Invocation.key?, shape]
    rfl
  have target' : i.key? 1 = some destination.key := by
    rw [Invocation.key?, shape, shape']
    rfl
  apply Refines.of_effect
  show Effect i validated none L.book (deleteAccount credited info.key).book
  rw [deleteAccount_book distinct owned credit]
  split at asked
  · rename_i account read
    exact Effect.closeHolding
      (Ledger.slot_of_unpackAccount owned (unpackAccount_eq_ok_iff.mp read)) target distinct
      (closeTokenAccount_closes named target' asked)
  · split at asked
    · rename_i mint read
      obtain ⟨key, rfl, authority, supply, mintBurn⟩ := closeMint_spec asked
      exact Effect.closeMint (Ledger.slot_of_unpackMint owned (unpackMint_eq_ok_iff.mp read)) named
        distinct authority supply mintBurn
    · simp at asked

end Token2022
