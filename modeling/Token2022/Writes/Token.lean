/-
**The writes of the base instructions.**

* `finishTransfer_writes` — the end of a transfer: both accounts, with the hook program in between.
* `checkBurnVariant_approves` — who has approved a burn.
* `setMintAuthority_change`, `setAccountAuthority_change` — what a change of authority writes.
* one lemma for each processor, **`processTransfer_writes`** to `processReallocate_writes`.
-/

import Token2022.Writes.Initialize

namespace Token2022

open Fallible Relation

variable {i : Invocation} {start L L' : Ledger} {outcome : Outcome} {validated : List Address}

/-! ### Authority over tokens -/

/-- **The arms of authority keep whose account it is.** -/
theorem debitAuthority_change {account base : PodAccount} {authority : AccountMeta}
    {signers : List AccountMeta} {permanentDelegate : Option Address} {amount : ℕ} {spends : Bool}
    {key : Address} {arm : DebitArm}
    (ok : debitAuthority L account authority signers permanentDelegate amount spends =
      .ok (base, key, arm)) : base.mint = account.mint ∧ base.owner = account.owner := by
  unfold debitAuthority at ok
  split at ok
  · simp only [bind_eq_ok_iff, Except.ok.injEq, Prod.mk.injEq] at ok
    obtain ⟨_, -, rfl, -, -⟩ := ok
    exact ⟨rfl, rfl⟩
  · split at ok
    · simp only [bind_eq_ok_iff, require_eq_ok_iff, exists_const, Except.ok.injEq,
        Prod.mk.injEq] at ok
      obtain ⟨_, -, -, rfl, -, -⟩ := ok
      cases spends <;> exact ⟨rfl, rfl⟩
    · simp only [bind_eq_ok_iff, Except.ok.injEq, Prod.mk.injEq] at ok
      obtain ⟨_, -, rfl, -, -⟩ := ok
      exact ⟨rfl, rfl⟩

/-- A base state with the mint and the owner of another. -/
theorem AccountBaseChange.of_same {base base' : PodAccount} (mint : base'.mint = base.mint)
    (owner : base'.owner = base.owner) : AccountBaseChange validated base base' :=
  ⟨mint, fun _ => owner⟩

/-- **A base state that is written** with the mint and the owner of the old one. -/
theorem Writes.ofBase {a : Address} {st : TokenAccountState} {base : PodAccount}
    (owned : (L a).owner = programId) (data : (L a).data = .account st)
    (stored : L.writeData a (.account (st.withBase base)) = .ok L')
    (mint : base.mint = st.base.mint) (owner : base.owner = st.base.owner) :
    Writes i start validated L L' :=
  .ofChange owned data (.accountBase (.of_same mint owner)) stored

/-! ### The parts of a transfer -/

theorem setTransferring_change {a : Address} {st st' : TokenAccountState} (party : i.transfersAt a)
    (ok : setTransferring st = .ok st') :
    Change i start validated a (.account st) (.account st') := by
  simp only [setTransferring, bind_eq_ok_iff, Except.ok.injEq] at ok
  obtain ⟨v, held, rfl⟩ := ok
  exact .accountUpdate (StateWithExtensions.getExtension_eq_ok_iff.mp held) (.setTransferring party)

theorem unsetTransferring_writes {a : Address} (party : i.transfersAt a)
    (owned : (L a).owner = programId) (ok : unsetTransferring L a = .ok L') :
    Writes i start validated L L' ∧ ∀ b, (L' b).owner = (L b).owner := by
  simp only [unsetTransferring, bind_eq_ok_iff, unpackAccount_eq_ok_iff] at ok
  obtain ⟨st, data, v, held, stored⟩ := ok
  exact ⟨.ofChange owned data
    (.accountUpdate (StateWithExtensions.getExtension_eq_ok_iff.mp held) (.setTransferring party))
    stored,
    Ledger.owner_writeData stored⟩

/-- The credit of a destination: its amount, then the fee that it withholds. -/
theorem creditTransfer_changes {a : Address} {destination credited : TokenAccountState}
    {amount fee : ℕ} (ok : creditTransfer destination amount fee = .ok credited) :
    Changes i start validated a (.account destination) (.account credited) := by
  simp only [creditTransfer, bind_eq_ok_iff, okOr_eq_ok_iff] at ok
  obtain ⟨net, -, total, -, ok⟩ := ok
  have base : Change i start validated a (.account destination)
      (.account (destination.withBase { destination.base with amount := total })) :=
    .accountBase (.of_same rfl rfl)
  split at ok
  · split at ok
    · rename_i withheld held
      simp only [bind_eq_ok_iff, Except.ok.injEq] at ok
      obtain ⟨n, -, rfl⟩ := ok
      exact (ReflTransGen.single base).tail (.accountUpdate held .withhold)
    · simp at ok
  · obtain rfl := Except.ok.inj ok
    exact .single base

/-- Two accounts that are written one after the other. -/
theorem writes_of_both {mid : Ledger} {a b : Address} {st st' : AccountData}
    {old old' : AccountData} (ne : a ≠ b) (owned : (L a).owner = programId)
    (owned' : (L b).owner = programId) (data : (L a).data = old) (data' : (L b).data = old')
    (changes : Changes i start validated a old st) (changes' : Changes i start validated b old' st')
    (first : L.writeData a st = .ok mid) (second : mid.writeData b st' = .ok L') :
    Writes i start validated L L' := by
  refine (Writes.ofWriteData owned data changes first).trans
    (Writes.ofWriteData ((Ledger.owner_writeData first b).trans owned') ?_ changes' second)
  obtain ⟨-, rfl⟩ := Ledger.writeData_eq_ok_iff.mp first
  rw [Ledger.data_setData_of_ne _ (Ne.symm ne), data']

/-- **The end of a transfer.** -/
theorem finishTransfer_writes {env : Env} {source destination : AccountMeta}
    {st st' sourceState destinationState : TokenAccountState} {hookProgramId : Option Address}
    {hookAccounts : List AccountMeta} {amount : ℕ} (ne : source.key ≠ destination.key)
    (party : i.transfersAt source.key) (party' : i.transfersAt destination.key)
    (owned : (L source.key).owner = programId) (owned' : (L destination.key).owner = programId)
    (data : (L source.key).data = .account st) (data' : (L destination.key).data = .account st')
    (changes : Changes i start validated source.key (.account st) (.account sourceState))
    (changes' : Changes i start validated destination.key (.account st')
      (.account destinationState))
    (ok : finishTransfer env L source destination sourceState destinationState hookProgramId
      hookAccounts amount = .ok L') : Writes i start validated L L' := by
  unfold finishTransfer at ok
  split at ok
  · obtain ⟨mid, first, second⟩ := bind_eq_ok_iff.mp ok
    exact writes_of_both ne owned owned' data data' changes changes' first second
  · simp only [bind_eq_ok_iff] at ok
    obtain ⟨flagged, setSource, flagged', setDestination, mid, first, last, second, called, hook,
      unset, unsetSource, unsetDestination⟩ := ok
    have both : Writes i start validated L last := writes_of_both ne owned owned' data data'
      (changes.tail (setTransferring_change party setSource))
      (changes'.tail (setTransferring_change party' setDestination)) first second
    have ext := env.programs.invokeExecute_external hook
    have kept : ∀ b, (L b).owner = programId → (called b).owner = programId := fun b owned =>
      (ext.kept b (((Ledger.owner_writeData second b).trans
        (Ledger.owner_writeData first b)).trans owned)).1
    obtain ⟨unsetOne, owners⟩ : Writes i start validated _ _ ∧ _ :=
      unsetTransferring_writes party (kept _ owned) unsetSource
    obtain ⟨unsetOther, -⟩ : Writes i start validated _ _ ∧ _ :=
      unsetTransferring_writes party' ((owners _).trans (kept _ owned')) unsetDestination
    exact ((both.tail (.external ext)).trans unsetOne).trans unsetOther

/-- The place of the destination among the accounts of a plain transfer. -/
def TransferInstruction.destinationPlace (instruction : TransferInstruction) : ℕ :=
  if instruction.decimals.isSome then 2 else 1

/-- The source and the destination of a plain transfer, by their places. -/
theorem transferParties_keys {instruction : TransferInstruction} {source destination : AccountMeta}
    {rest rest' rest'' : List AccountMeta} {expectedMint : Option (AccountMeta × ℕ)}
    (shape : i.accounts = source :: rest)
    (next : nextMintInfo instruction.decimals rest = .ok (expectedMint, rest'))
    (shape' : rest' = destination :: rest'') :
    i.key? 0 = some source.key ∧ i.key? instruction.destinationPlace = some destination.key := by
  refine ⟨key?_zero shape, ?_⟩
  unfold TransferInstruction.destinationPlace
  cases decimals : instruction.decimals with
  | none =>
    rw [decimals] at next
    obtain ⟨-, rfl⟩ := Prod.mk.inj (Except.ok.inj next)
    rw [Invocation.key?, shape, shape']
    rfl
  | some n =>
    rw [decimals] at next
    simp only [nextMintInfo, bind_eq_ok_iff, Prod.exists, nextAccountInfo_eq_ok_iff, Except.ok.injEq,
      Prod.mk.injEq] at next
    obtain ⟨mintInfo, _, rfl, -, rfl⟩ := next
    rw [Invocation.key?, shape, shape']
    rfl

/-- **The writes of a transfer.** -/
theorem processTransfer_writes {amount : ℕ} {instruction : TransferInstruction}
    (named : i.instruction.destinationPlace? = some instruction.destinationPlace)
    (ok : processTransfer i.env L i.accounts amount instruction = .ok outcome) :
    Writes i L outcome.validated L outcome.ledger := by
  simp only [processTransfer, bind_eq_ok_iff, Prod.exists, nextAccountInfo_eq_ok_iff,
    checkProgramAccount_eq_ok_iff, unpackAccount_eq_ok_iff, require_eq_ok_iff, exists_const] at ok
  obtain ⟨sourceInfo, _, shape, expectedMint, _, next, destinationInfo, _, shape', authority, signers,
    -, owned, owned', source, data, -, -, -, terms, -, -, -, base, key, arm, authorized, ok⟩ := ok
  obtain ⟨first, other⟩ := transferParties_keys shape next shape'
  split at ok
  · simp only [bind_eq_ok_iff, Except.ok.injEq] at ok
    obtain ⟨_, -, rfl⟩ := ok
    exact .refl
  · rename_i distinct
    have ne : sourceInfo.key ≠ destinationInfo.key := by simpa using distinct
    simp only [bind_eq_ok_iff, unpackAccount_eq_ok_iff, require_eq_ok_iff, okOr_eq_ok_iff,
      exists_const] at ok
    obtain ⟨destination, data', -, -, -, -, -, newAmount, -, credited, credit, moved, followed, ledger,
      finished, same⟩ := ok
    obtain rfl := Except.ok.inj same
    obtain ⟨sameMint, sameOwner⟩ := debitAuthority_change authorized
    have moves : Writes i L [key] L moved ∧
        ∀ b, (moved b).owner = (L b).owner ∧ (moved b).data = (L b).data := by
      split at followed
      · exact ⟨.ofMoveLamports followed, moveLamports_kept followed⟩
      · obtain rfl := Except.ok.inj followed
        exact ⟨.refl, fun _ => ⟨rfl, rfl⟩⟩
    have debit : Change i L [key] sourceInfo.key (.account source)
        (.account (source.withBase { base with amount := newAmount })) :=
      .accountBase (.of_same sameMint sameOwner)
    exact moves.1.trans (finishTransfer_writes ne ⟨_, named, .inl first⟩ ⟨_, named, .inr other⟩
      ((moves.2 _).1.trans owned)
      ((moves.2 _).1.trans owned') ((moves.2 _).2.trans data) ((moves.2 _).2.trans data')
      (.single debit) (creditTransfer_changes credit) finished)

/-! ### Delegation, freezing, settings -/

/-- **The writes of an approval.** -/
theorem processApprove_writes {amount : ℕ} {decimals : Option ℕ}
    (ok : processApprove i.env L i.accounts amount decimals = .ok outcome) :
    Writes i L outcome.validated L outcome.ledger := by
  simp only [processApprove, bind_eq_ok_iff, Prod.exists, nextAccountInfo_eq_ok_iff,
    checkProgramAccount_eq_ok_iff, unpackAccount_eq_ok_iff, require_eq_ok_iff, exists_const] at ok
  obtain ⟨info, rest, -, owned, expectedMint, rest', -, delegate, rest'', -, owner, signers, -, source,
    data, -, _, -, _, -, -, ledger, stored, same⟩ := ok
  obtain rfl := Except.ok.inj same
  exact .ofBase owned data stored rfl rfl

/-- **The writes of a revocation.** -/
theorem processRevoke_writes (ok : processRevoke L i.accounts = .ok outcome) :
    Writes i L outcome.validated L outcome.ledger := by
  simp only [processRevoke, bind_eq_ok_iff, Prod.exists, nextAccountInfo_eq_ok_iff,
    checkProgramAccount_eq_ok_iff, unpackAccount_eq_ok_iff, require_eq_ok_iff, exists_const] at ok
  obtain ⟨info, _, -, authority, signers, -, owned, source, data, -, _, -, ledger, stored, same⟩ := ok
  obtain rfl := Except.ok.inj same
  exact .ofBase owned data stored rfl rfl

/-- **The writes of a freeze and of a thaw.** -/
theorem processToggleFreezeAccount_writes {freeze : Bool}
    (ok : processToggleFreezeAccount L i.accounts freeze = .ok outcome) :
    Writes i L outcome.validated L outcome.ledger := by
  simp only [processToggleFreezeAccount, bind_eq_ok_iff, Prod.exists, nextAccountInfo_eq_ok_iff,
    checkProgramAccount_eq_ok_iff, unpackAccount_eq_ok_iff, unpackMint_eq_ok_iff, require_eq_ok_iff,
    okOr_eq_ok_iff, exists_const] at ok
  obtain ⟨info, _, -, mintInfo, _, -, authority, signers, -, owned, -, source, data, -, -, -, mint, -,
    key, -, _, -, ledger, stored, same⟩ := ok
  obtain rfl := Except.ok.inj same
  exact .ofBase owned data stored rfl rfl

/-- **A setting of the owner is written in place, or opened.** -/
theorem setOrInitExtension_change {a : Address} {st st' : TokenAccountState} {t : ExtensionType}
    {v : Extension t} (update : ∀ e, AccountUpdate i validated a st t e v)
    (opening : AccountOpening i validated a st t v) (ok : setOrInitExtension st t v = .ok st') :
    Change i start validated a (.account st) (.account st') := by
  unfold setOrInitExtension at ok
  split at ok
  · rename_i present
    obtain ⟨e, held⟩ := Option.isSome_iff_exists.mp present
    obtain rfl := Except.ok.inj ok
    exact .accountUpdate held (update e)
  · rename_i absent
    exact .accountOpen (by simpa [StateWithExtensions.has] using absent) opening ok

theorem processToggleRequiredMemoTransfers_writes {enable : Bool}
    (ok : processToggleRequiredMemoTransfers L i.accounts enable = .ok outcome) :
    Writes i L outcome.validated L outcome.ledger := by
  simp only [processToggleRequiredMemoTransfers, bind_eq_ok_iff, Prod.exists,
    nextAccountInfo_eq_ok_iff, checkProgramAccount_eq_ok_iff, unpackAccount_eq_ok_iff,
    exists_const] at ok
  obtain ⟨info, _, -, owner, signers, -, owned, account, data, _, -, updated, set, ledger, stored,
    same⟩ := ok
  obtain rfl := Except.ok.inj same
  have signed : account.base.owner ∈ [account.base.owner] := List.mem_singleton_self _
  exact .ofChange owned data
    (setOrInitExtension_change (fun _ => .toggleMemo signed) (.memo signed) set) stored

theorem processToggleCpiGuard_writes {enable : Bool}
    (ok : processToggleCpiGuard i.env L i.accounts enable = .ok outcome) :
    Writes i L outcome.validated L outcome.ledger := by
  simp only [processToggleCpiGuard, bind_eq_ok_iff, Prod.exists, nextAccountInfo_eq_ok_iff,
    checkProgramAccount_eq_ok_iff, unpackAccount_eq_ok_iff, require_eq_ok_iff, exists_const] at ok
  obtain ⟨info, _, -, owner, signers, -, owned, account, data, _, -, -, updated, set, ledger, stored,
    same⟩ := ok
  obtain rfl := Except.ok.inj same
  have signed : account.base.owner ∈ [account.base.owner] := List.mem_singleton_self _
  exact .ofChange owned data
    (setOrInitExtension_change (fun _ => .toggleCpiGuard signed) (.cpiGuard signed) set) stored

/-! ### Authorities -/

/-- **What a change of an authority of a token account writes.** -/
theorem setAccountAuthority_change {env : Env} {account : TokenAccountState}
    {authority : AccountMeta} {signers : List AccountMeta} {authorityType : AuthorityType}
    {newAuthority : Option Address} {base : PodAccount} {key : Address}
    (ok : setAccountAuthority env L account authority signers authorityType newAuthority =
      .ok (base, key)) : AccountBaseChange [key] account.base base := by
  simp only [setAccountAuthority, bind_eq_ok_iff, require_eq_ok_iff, exists_const] at ok
  obtain ⟨-, ok⟩ := ok
  cases authorityType
  case accountOwner =>
    simp only [bind_eq_ok_iff, require_eq_ok_iff, okOr_eq_ok_iff, exists_const, Except.ok.injEq,
      Prod.mk.injEq] at ok
    obtain ⟨_, -, -, -, -, owner, -, rfl, rfl⟩ := ok
    exact ⟨rfl, fun unsigned => absurd (List.mem_singleton_self _) unsigned⟩
  case closeAccount =>
    simp only [bind_eq_ok_iff, require_eq_ok_iff, exists_const, Except.ok.injEq,
      Prod.mk.injEq] at ok
    obtain ⟨_, -, -, rfl, -⟩ := ok
    exact .of_same rfl rfl
  all_goals simp at ok

/-- The change of an authority that an extension keeps. -/
theorem setExtensionAuthority_change {m : Address} {mint mint' : MintState}
    {authority : AccountMeta} {signers : List AccountMeta} {newAuthority : Option Address}
    {key : Address} {type : AuthorityType} {field : AuthorityField}
    (data : (start m).data = .mint mint) (named : type.field? = some field)
    (ok : setExtensionAuthority L mint authority signers newAuthority field.type field.read
      field.write = .ok (mint', key)) :
    Change i start [key] m (.mint mint) (.mint mint') := by
  simp only [setExtensionAuthority, bind_eq_ok_iff, okOr_eq_ok_iff, Except.ok.injEq,
    Prod.mk.injEq] at ok
  obtain ⟨e, held, current, holder, _, -, replaced, -, rfl, rfl⟩ := ok
  exact .mintUpdate data (StateWithExtensions.getExtension_eq_ok_iff.mp held)
    (.rotate named holder (List.mem_singleton_self _))

/-- **What a change of an authority of a mint writes.** -/
theorem setMintAuthority_change {m : Address} {mint mint' : MintState} {authority : AccountMeta}
    {signers : List AccountMeta} {authorityType : AuthorityType} {newAuthority : Option Address}
    {key : Address} (named : i.instruction = .setAuthority authorityType newAuthority)
    (target : i.key? 0 = some m) (data : (start m).data = .mint mint)
    (ok : setMintAuthority L mint authority signers authorityType newAuthority = .ok (mint', key)) :
    Change i start [key] m (.mint mint) (.mint mint') := by
  cases type : authorityType
  all_goals rw [type] at ok named
  case mintTokens =>
    simp only [setMintAuthority, bind_eq_ok_iff, okOr_eq_ok_iff, Except.ok.injEq,
      Prod.mk.injEq] at ok
    obtain ⟨current, holder, _, -, rfl, rfl⟩ := ok
    exact .mintBase data (.setMintAuthority holder (List.mem_singleton_self _))
  case freezeAccount =>
    simp only [setMintAuthority, bind_eq_ok_iff, okOr_eq_ok_iff, Except.ok.injEq,
      Prod.mk.injEq] at ok
    obtain ⟨current, holder, _, -, rfl, rfl⟩ := ok
    exact .mintBase data (.setFreezeAuthority named target holder (List.mem_singleton_self _))
  case accountOwner | closeAccount => simp [setMintAuthority] at ok
  -- The others are one function with the extension, the reader and the writer of their type.
  all_goals exact setExtensionAuthority_change data (congrArg AuthorityType.field? type) ok

/-- **The writes of a change of authority.** -/
theorem processSetAuthority_writes {authorityType : AuthorityType} {newAuthority : Option Address}
    (named : i.instruction = .setAuthority authorityType newAuthority)
    (ok : processSetAuthority i.env L i.accounts authorityType newAuthority = .ok outcome) :
    Writes i L outcome.validated L outcome.ledger := by
  simp only [processSetAuthority, bind_eq_ok_iff, Prod.exists, nextAccountInfo_eq_ok_iff,
    checkProgramAccount_eq_ok_iff, exists_const] at ok
  obtain ⟨info, _, shape, authority, signers, -, owned, ok⟩ := ok
  split at ok
  · rename_i account read
    simp only [bind_eq_ok_iff, Prod.exists] at ok
    obtain ⟨base, key, changed, ledger, stored, same⟩ := ok
    obtain rfl := Except.ok.inj same
    exact .ofChange owned (unpackAccount_eq_ok_iff.mp read)
      (.accountBase (setAccountAuthority_change changed)) stored
  · split at ok
    · rename_i mint read
      simp only [bind_eq_ok_iff, Prod.exists] at ok
      obtain ⟨mint', key, changed, ledger, stored, same⟩ := ok
      obtain rfl := Except.ok.inj same
      have data := unpackMint_eq_ok_iff.mp read
      exact .ofChange owned data 
        (setMintAuthority_change named (key?_zero shape) data changed) stored
    · simp at ok

/-! ### Minting and burning -/

/-- An account and its mint are different accounts. -/
theorem ne_of_data {a m : Address} {account : TokenAccountState} {mint : MintState}
    (data : (L a).data = .account account) (data' : (L m).data = .mint mint) : a ≠ m := by
  rintro rfl
  rw [data] at data'
  exact AccountData.noConfusion data'

/-- **The writes of minting.** -/
theorem processMintTo_writes {amount : ℕ} {decimals : Option ℕ}
    (ok : processMintTo L i.accounts amount decimals = .ok outcome) :
    Writes i L outcome.validated L outcome.ledger := by
  simp only [processMintTo, bind_eq_ok_iff, Prod.exists, nextAccountInfo_eq_ok_iff,
    checkProgramAccount_eq_ok_iff, unpackAccount_eq_ok_iff, unpackMint_eq_ok_iff, require_eq_ok_iff,
    okOr_eq_ok_iff, checkedAdd_eq_some_iff, exists_const] at ok
  obtain ⟨mintInfo, _, -, info, _, -, owner, signers, -, owned', owned, account, data, -, -, -, mint,
    data', -, -, -, -, key, holder, _, -, _, -, _, ⟨-, rfl⟩, mid, first, last, second, same⟩ := ok
  obtain rfl := Except.ok.inj same
  refine writes_of_both (ne_of_data data data') owned owned' data data'
    (.single (.accountBase (.of_same ?_ ?_)))
    (.single (.mintBase data' (.mintTo holder (List.mem_singleton_self _)))) first second
  · rfl
  · rfl

/-- **A burn that passes the check of its variant is approved**: the approver is one of the
accounts. -/
theorem checkBurnVariant_approves {mint : MintState} {permissioned : Bool}
    {approver : Option AccountMeta} {accounts rest : List AccountMeta} {u : Unit}
    (tail : accounts <:+ i.accounts)
    (next : (if permissioned = true then do
        let (approver, accounts) ← nextAccountInfo accounts
        .ok (some approver, accounts)
      else .ok (none, accounts) : ProgramResult (Option AccountMeta × List AccountMeta)) =
        .ok (approver, rest))
    (ok : checkBurnVariant mint approver = .ok u) : i.ApprovesBurn mint := by
  intro key named
  cases approver with
  | none =>
    have absent : mint.permissionedBurnAuthority = none := require_eq_ok_iff.mp ok
    exact absurd (named.symm.trans absent) (Option.some_ne_none key)
  | some approver =>
    simp only [checkBurnVariant, bind_eq_ok_iff, okOr_eq_ok_iff, require_eq_ok_iff,
      exists_const] at ok
    obtain ⟨expected, holds, signs, same⟩ := ok
    obtain rfl := Option.some.inj (holds.symm.trans named)
    split at next
    · simp only [bind_eq_ok_iff, Prod.exists, nextAccountInfo_eq_ok_iff] at next
      obtain ⟨info, _, rfl, found⟩ := next
      obtain rfl := Option.some.inj (Prod.mk.inj (Except.ok.inj found)).1
      exact ⟨info, tail.subset List.mem_cons_self, same, signs⟩
    · cases next

/-- **The writes of burning.** -/
theorem processBurn_writes {amount : ℕ} {permissioned : Bool} {decimals : Option ℕ}
    (ok : processBurn i.env L i.accounts amount permissioned decimals = .ok outcome) :
    Writes i L outcome.validated L outcome.ledger := by
  simp only [processBurn, bind_eq_ok_iff, Prod.exists, nextAccountInfo_eq_ok_iff,
    checkProgramAccount_eq_ok_iff, unpackAccount_eq_ok_iff, unpackMint_eq_ok_iff, require_eq_ok_iff,
    okOr_eq_ok_iff, checkedSub_eq_some_iff, exists_const] at ok
  obtain ⟨info, _, shape, mintInfo, _, shape₁, owned, owned', approver, _, next, authority, signers,
    -, mint, data', _, variant, account, data, -, -, -, -, -, -, -, -, base, validated, arm,
    authorized, _, -, _, ⟨-, rfl⟩, mid, first, last, second, same⟩ := ok
  obtain rfl := Except.ok.inj same
  have kept : base.mint = account.base.mint ∧ base.owner = account.base.owner := by
    split at authorized
    · simp only [Except.ok.injEq, Prod.mk.injEq] at authorized
      obtain ⟨rfl, -, -⟩ := authorized
      exact ⟨rfl, rfl⟩
    · simp only [bind_eq_ok_iff, Prod.exists, Except.ok.injEq, Prod.mk.injEq] at authorized
      obtain ⟨base', key, arm', debited, rfl, -, -⟩ := authorized
      exact debitAuthority_change debited
  have approved : i.ApprovesBurn mint :=
    checkBurnVariant_approves ⟨[info, mintInfo], by rw [shape, shape₁]; rfl⟩ next variant
  refine writes_of_both (ne_of_data data data') owned owned' data data'
    (.single (.accountBase (.of_same ?_ ?_))) (.single (.mintBase data' (.burn approved)))
    first second
  · exact kept.1
  · exact kept.2

/-! ### Closing -/

/-- **The writes of a close.** -/
theorem processCloseAccount_writes (named : i.instruction = .closeAccount)
    (ok : processCloseAccount i.env L i.accounts = .ok outcome) :
    Writes i L outcome.validated L outcome.ledger := by
  simp only [processCloseAccount, bind_eq_ok_iff, Prod.exists, nextAccountInfo_eq_ok_iff,
    checkProgramAccount_eq_ok_iff, require_eq_ok_iff, exists_const] at ok
  obtain ⟨info, _, shape, destination, _, -, authority, signers, -, -, -, validated, -, credited,
    credit, same⟩ := ok
  obtain rfl := Except.ok.inj same
  obtain ⟨-, rfl⟩ := Ledger.credit_eq_ok_iff.mp credit
  have paid : Write i L validated L (L.setLamports destination.key
      ((L destination.key).lamports + (L info.key).lamports)) :=
    .lamports (fun b => Ledger.owner_setLamports ..) fun b => Ledger.data_setLamports ..
  exact (ReflTransGen.single paid).tail (.close named (key?_zero shape))

/-! ### Lamports -/

/-- **The writes of bringing a native amount up to date.** -/
theorem processSyncNative_writes (ok : processSyncNative i.env L i.accounts = .ok outcome) :
    Writes i L outcome.validated L outcome.ledger := by
  simp only [processSyncNative, bind_eq_ok_iff, Prod.exists, nextAccountInfo_eq_ok_iff,
    checkProgramAccount_eq_ok_iff, unpackAccount_eq_ok_iff, require_eq_ok_iff, okOr_eq_ok_iff,
    exists_const] at ok
  obtain ⟨info, _, -, owned, _, -, account, data, -, _, -, ledger, stored, same⟩ := ok
  obtain rfl := Except.ok.inj same
  exact .ofBase owned data stored rfl rfl

theorem processWithdrawExcessLamports_writes
    (ok : processWithdrawExcessLamports i.env L i.accounts = .ok outcome) :
    Writes i L outcome.validated L outcome.ledger := by
  simp only [processWithdrawExcessLamports, bind_eq_ok_iff, Prod.exists] at ok
  obtain ⟨info, _, -, destination, _, -, authority, signers, -, _, -, validated, -, _, -, ledger, moved,
    same⟩ := ok
  obtain rfl := Except.ok.inj same
  exact .ofMoveLamports moved

/-- **The writes of an unwrap.** -/
theorem processUnwrapLamports_writes {amount : Option ℕ}
    (ok : processUnwrapLamports i.env L i.accounts amount = .ok outcome) :
    Writes i L outcome.validated L outcome.ledger := by
  simp only [processUnwrapLamports, bind_eq_ok_iff, Prod.exists, nextAccountInfo_eq_ok_iff,
    checkProgramAccount_eq_ok_iff, unpackAccount_eq_ok_iff, require_eq_ok_iff, exists_const] at ok
  obtain ⟨sourceInfo, _, -, destination, _, -, authority, signers, -, owned, source, data, n,
    remaining, -, -, base, key, arm, authorized, -, moved, followed, ledger, stored, same⟩ := ok
  obtain rfl := Except.ok.inj same
  obtain ⟨sameMint, sameOwner⟩ := debitAuthority_change authorized
  have moves : Writes i L [key] L moved ∧
      ∀ b, (moved b).owner = (L b).owner ∧ (moved b).data = (L b).data := by
    split at followed
    · exact ⟨.ofMoveLamports followed, moveLamports_kept followed⟩
    · obtain rfl := Except.ok.inj followed
      exact ⟨.refl, fun _ => ⟨rfl, rfl⟩⟩
  refine moves.1.trans (Writes.ofChange ((moves.2 _).1.trans owned) ((moves.2 _).2.trans data)
    (.accountBase (.of_same ?_ ?_)) stored)
  · split
    · exact sameMint
    · exact sameMint
  · split
    · exact sameOwner
    · exact sameOwner

/-! ### Growing accounts -/

/-- Data that is written longer, and paid for. -/
theorem grow_writes {env : Env} {mid : Ledger} {a : Address} {account resized : TokenAccountState}
    {len n : ℕ} {payer target : AccountMeta} (owned : (L a).owner = programId)
    (data : (L a).data = .account account) (grown : account.resize len = .ok resized)
    (short : account.tlv.len ≤ len) (stored : L.writeData a (.account resized) = .ok mid)
    (funded : (if 0 < n then env.programs.systemTransfer mid payer target n else .ok mid) =
      .ok L') :
    Writes i start validated L L' ∧ (L' a).owner = programId ∧ (L' a).data = .account resized := by
  have ext := (grow_external data grown stored funded).1
  have written : (mid a).owner = programId ∧ (mid a).data = .account resized := by
    obtain ⟨-, rfl⟩ := Ledger.writeData_eq_ok_iff.mp stored
    exact ⟨(Ledger.owner_setData ..).trans owned, Ledger.data_setData_self ..⟩
  obtain ⟨owned', data', -⟩ := ext.kept a written.1
  exact ⟨(Writes.ofChange owned data (.accountResize grown short) stored).tail (.external ext), owned',
    data'.trans written.2⟩

/-- **The writes of a reallocation.** -/
theorem processReallocate_writes {newExtensionTypes : List ExtensionType}
    (ok : processReallocate i.env L i.accounts newExtensionTypes = .ok outcome) :
    Writes i L outcome.validated L outcome.ledger := by
  simp only [processReallocate, bind_eq_ok_iff, Prod.exists, nextAccountInfo_eq_ok_iff,
    checkProgramAccount_eq_ok_iff, unpackAccount_eq_ok_iff, require_eq_ok_iff, exists_const] at ok
  obtain ⟨info, _, -, payer, _, -, _, _, -, authority, signers, -, owned, account, data, _, -, -,
    neededLen, -, ok⟩ := ok
  split at ok
  · obtain rfl := Except.ok.inj ok
    exact .refl
  · rename_i short
    simp only [bind_eq_ok_iff] at ok
    obtain ⟨resized, grown, _, -, mid, stored, funded, paid, synced, sync, same⟩ := ok
    obtain rfl := Except.ok.inj same
    obtain ⟨growth, owned', data'⟩ : Writes i L [account.base.owner] _ _ ∧ _ :=
      grow_writes owned data grown (not_le.mp short).le stored paid
    unfold syncReserve at sync
    split at sync
    · simp only [bind_eq_ok_iff, require_eq_ok_iff, exists_const] at sync
      obtain ⟨_, -, -, stored'⟩ := sync
      exact growth.trans (Writes.ofBase owned' data' stored' rfl rfl)
    · obtain rfl := Except.ok.inj sync
      exact growth

end Token2022
