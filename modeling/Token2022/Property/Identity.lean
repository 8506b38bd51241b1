/-
**What an account is, for as long as it is open.**

Balances, authorities and settings change. What an account is does not: whose tokens it holds, who
owns it where the owner is immutable, which extensions it carries, under which key its balance is
encrypted; of a mint, its decimals, its extensions, and the group it is a member of.

* `SameConfidential`, `SameAccount`, `KeepsIdentity`, `SameMint` — what stays; preorders.
* `Change.sameExtensions`, `Change.sameMint` — every write respects them.
* **`account_identity`** — a token account stays the same one in every run that does not close it.
* **`mint_identity`** — so does a mint.
-/

import Token2022.Invariant.Layout
import Token2022.Property.Delegation
import Token2022.Property.GroupMembers
import Token2022.Property.Supply
import Token2022.Writes.Program

namespace Token2022

open Fallible LabelledRun

/-! ### Token accounts -/

/-- The extensions that an account gets after it was initialized. -/
def addedAccountTypes : List ExtensionType :=
  [.memoTransfer, .cpiGuard, .confidentialTransferAccount, .confidentialTransferFeeAmount]

/-- **What stays of a confidential extension**: the key, the bound on the credits, the approval. -/
structure SameConfidential (e e' : ConfidentialTransferAccount) : Prop where
  key : e'.elgamalPubkey = e.elgamalPubkey
  maximum : e'.maximumPendingBalanceCreditCounter = e.maximumPendingBalanceCreditCounter
  approved : e.approved = true → e'.approved = true

/-- **What stays of the extensions of an account.** They keep their order, and new ones come behind
them. -/
structure SameExtensions (st st' : TokenAccountState) : Prop where
  types : st.extensionTypes <+: st'.extensionTypes
  added : ∀ t ∈ st'.extensionTypes, t ∈ st.extensionTypes ∨ t ∈ addedAccountTypes
  length : st.tlv.len ≤ st'.tlv.len
  confidential : ∀ e, st.get .confidentialTransferAccount = some e →
    ∃ e', st'.get .confidentialTransferAccount = some e' ∧ SameConfidential e e'

/-- **What a token account is.** -/
structure SameAccount (st st' : TokenAccountState) : Prop extends SameExtensions st st' where
  mint : st'.base.mint = st.base.mint
  native : st'.base.isNativeAccount = st.base.isNativeAccount
  owner : st.has .immutableOwner = true → st'.base.owner = st.base.owner

theorem SameConfidential.refl (e : ConfidentialTransferAccount) : SameConfidential e e :=
  ⟨rfl, rfl, id⟩

namespace SameExtensions

variable {first second third : TokenAccountState}

theorem refl (st : TokenAccountState) : SameExtensions st st :=
  ⟨List.prefix_rfl, fun _ member => .inl member, le_rfl, fun e held => ⟨e, held, .refl e⟩⟩

theorem trans (before : SameExtensions first second) (after : SameExtensions second third) :
    SameExtensions first third where
  types := before.types.trans after.types
  added t member := (after.added t member).elim (before.added t) .inr
  length := before.length.trans after.length
  confidential e held := by
    obtain ⟨mid, held', kept⟩ := before.confidential e held
    obtain ⟨last, held'', kept'⟩ := after.confidential mid held'
    exact ⟨last, held'', kept'.key.trans kept.key, kept'.maximum.trans kept.maximum,
      fun approved => kept'.approved (kept.approved approved)⟩

/-- An extension that is there still is. -/
theorem has (same : SameExtensions first second) {t : ExtensionType} (held : first.has t = true) :
    second.has t = true :=
  StateWithExtensions.mem_extensionTypes.mp
    (same.types.subset (StateWithExtensions.mem_extensionTypes.mpr held))

/-- **A write of one extension**: of one that is there, or of one that may be added. -/
theorem set {st : TokenAccountState} {t : ExtensionType} {v : Extension t}
    (known : t ∈ st.extensionTypes ∨ t ∈ addedAccountTypes)
    (confidential : ∀ e, st.get .confidentialTransferAccount = some e →
      ∃ e', (st.set t v).get .confidentialTransferAccount = some e' ∧ SameConfidential e e') :
    SameExtensions st (st.set t v) where
  types := KeyedList.keys_prefix_keys_put t v st.tlv.entries
  added t' member := by
    rcases (KeyedList.mem_keys_put v).mp member with rfl | there
    · exact known
    · exact .inl there
  length := le_rfl
  confidential := confidential

/-- A write of another extension leaves the confidential one. -/
theorem set_of_ne {st : TokenAccountState} {t : ExtensionType} {v : Extension t}
    (known : t ∈ st.extensionTypes ∨ t ∈ addedAccountTypes)
    (other : t ≠ .confidentialTransferAccount) : SameExtensions st (st.set t v) :=
  .set known fun e held =>
    ⟨e, (StateWithExtensions.get_set_of_ne st (Ne.symm other) v).trans held, .refl e⟩

end SameExtensions

variable {i : Invocation} {start L L' : Ledger} {validated : List Address} {a : Address}

/-- **What an update of the confidential extension keeps.** -/
theorem AccountUpdate.sameConfidential {st : TokenAccountState} {e e' : ConfidentialTransferAccount}
    (update : AccountUpdate i validated a st .confidentialTransferAccount e e') :
    SameConfidential e e' := by
  cases update with
  | approve => exact ⟨rfl, rfl, fun _ => rfl⟩
  | _ => exact ⟨rfl, rfl, id⟩

/-- The extensions that are opened later. -/
theorem AccountOpening.added {st : TokenAccountState} {t : ExtensionType} {e : Extension t}
    (opening : AccountOpening i validated a st t e) : t ∈ addedAccountTypes := by
  cases opening <;> decide

/-- **Every write to an account leaves it one, with its extensions.** -/
theorem Change.sameExtensions {st : TokenAccountState} {new : AccountData}
    (change : Change i start validated a (.account st) new) :
    ∃ st', new = .account st' ∧ SameExtensions st st' := by
  cases change with
  | accountBase change => exact ⟨_, rfl, { SameExtensions.refl st with }⟩
  | @accountUpdate _ t e e' held update =>
    have there : t ∈ st.extensionTypes :=
      StateWithExtensions.mem_extensionTypes.mpr (Option.isSome_of_eq_some held)
    refine ⟨_, rfl, ?_⟩
    by_cases same : t = .confidentialTransferAccount
    · subst same
      refine .set (.inl there) fun old held' => ?_
      obtain rfl := Option.some.inj (held.symm.trans held')
      exact ⟨e', StateWithExtensions.get_set_self .., update.sameConfidential⟩
    · exact .set_of_ne (.inl there) same
  | @accountOpen _ st' t e _ absent opening written =>
    obtain ⟨-, -, rfl⟩ := StateWithExtensions.initExtension_eq_ok written
    refine ⟨_, rfl, .set (.inr opening.added) fun old held => ?_⟩
    have other : ExtensionType.confidentialTransferAccount ≠ t := by
      rintro rfl
      simp [absent] at held
    exact ⟨old, (StateWithExtensions.get_set_of_ne st other e).trans held, .refl old⟩
  | @accountResize _ st' len written grows =>
    obtain ⟨-, entries, length⟩ := StateWithExtensions.resize_eq_ok written
    have types : st'.extensionTypes = st.extensionTypes :=
      congrArg List.keys entries
    refine ⟨st', rfl, ?_, fun t member => .inl (types ▸ member), length ▸ grows, fun e held => ?_⟩
    · rw [types]
    · exact ⟨e, (StateWithExtensions.get_resize written _).trans held, .refl e⟩

/-- **One step leaves the account what it is.** -/
theorem Step.sameAccount {e : Event} {st : TokenAccountState} (step : Step L e L')
    (held : L.account? a = some st) (stays : ¬ e.closes a) :
    ∃ st', L'.account? a = some st' ∧ SameAccount st st' := by
  obtain ⟨owned, data⟩ := Ledger.account?_eq_some_iff.mp held
  obtain ⟨owned', st', data', same⟩ := step.follow
    (R := fun data => ∃ st', data = .account st' ∧ SameExtensions st st') stays
    (fun _ _ _ _ _ _ before change => by
      obtain ⟨mid, rfl, before⟩ := before
      obtain ⟨st', rfl, after⟩ := change.sameExtensions
      exact ⟨st', rfl, before.trans after⟩) ⟨owned, st, data, .refl st⟩
  have held' : L'.account? a = some st' := Ledger.account?_eq_some_iff.mpr ⟨owned', data'⟩
  refine ⟨st', held', ?_⟩
  cases step with
  | external ext =>
    obtain rfl := Option.some.inj ((ext.account? held).symm.trans held')
    exact ⟨same, rfl, rfl, fun _ => rfl⟩
  | @invoke i outcome ok =>
    obtain ⟨B, -, -, account⟩ := run_account ok held
    cases account with
    | @stays st₁ _ held₁ step =>
      obtain rfl := Option.some.inj (held₁.symm.trans held')
      refine ⟨same, step.marks.mint, step.marks.native, fun immutable => ?_⟩
      by_contra changed
      have mutable := (step.owner_changed changed).2
      rw [show st.holding.immutableOwner = true from immutable] at mutable
      cases mutable
    | closes gone => simp [gone] at held'

theorem SameAccount.refl (st : TokenAccountState) : SameAccount st st :=
  ⟨.refl st, rfl, rfl, fun _ => rfl⟩

theorem SameAccount.trans {first second third : TokenAccountState}
    (before : SameAccount first second) (after : SameAccount second third) :
    SameAccount first third where
  toSameExtensions := before.toSameExtensions.trans after.toSameExtensions
  mint := after.mint.trans before.mint
  native := after.native.trans before.native
  owner immutable := (after.owner (before.has immutable)).trans (before.owner immutable)

/-- **A token account stays the same one** in every run that does not close it: it holds tokens of
the same mint, it keeps its extensions in their order and gets none but four behind them, its data
do not shrink, its owner stays where that is immutable, and so do the key of its encrypted balance,
the bound on its credits, and the approval. -/
theorem account_identity {st : TokenAccountState} {events : List Event}
    (held : L.account? a = some st) (run : Runs L events L')
    (stays : ∀ e ∈ events, ¬ e.closes a) :
    ∃ st', L'.account? a = some st' ∧ SameAccount st st' :=
  run.invariant_of (I := fun L => ∃ st', L.account? a = some st' ∧ SameAccount st st') stays
    (fun M e M' open' before step => by
      obtain ⟨mid, held', before⟩ := before
      obtain ⟨st', held'', after⟩ := step.sameAccount held' open'
      exact ⟨st', held'', before.trans after⟩) ⟨st, held, .refl st⟩

/-- No turn closes the account. -/
theorem Turn.stays_open {turns : List Turn}
    (all : ∀ turn ∈ turns, turn.Satisfies fun i => ¬ i.closes a) :
    ∀ e ∈ turns.map Turn.event, ¬ e.closes a := by
  intro e member closes
  obtain ⟨i, rfl, closing⟩ := closes
  exact Turn.satisfies_events all i member closing

/-- A configured account, that tokens are minted to, deposited and applied. -/
theorem account_identity_depositTurns : ∃ L L' st',
    runAll .fresh (depositTurns.take 6) = .ok L ∧ runAll L (depositTurns.drop 6) = .ok L' ∧
    L'.account? Basic.source = some st' ∧ st'.base.mint = Basic.mint ∧
    st'.has .confidentialTransferAccount = true := by
  have leads : LeadsTo (runAll .fresh (depositTurns.take 6)) fun L =>
      LeadsTo (runAll L (depositTurns.drop 6)) fun _ =>
      ((L.account? Basic.source).any fun st => st.base.mint = Basic.mint ∧
        st.has .confidentialTransferAccount = true) = true := by
    decide +kernel
  obtain ⟨L, opened, leads⟩ := leads.exists
  obtain ⟨L', ran, there⟩ := leads.exists
  obtain ⟨st, held, facts⟩ := (Option.any_eq_true ..).mp there
  obtain ⟨mint, configured⟩ := of_decide_eq_true facts
  obtain ⟨st', held', same⟩ :=
    account_identity held (runs_of_runAll ran) (Turn.stays_open (by decide))
  exact ⟨L, L', st', opened, ran, held', same.mint.trans mint, same.has configured⟩

/-! ### Mints -/

/-- The extensions that a mint gets after it was initialized. -/
def addedMintTypes : List ExtensionType := [.tokenMetadata, .tokenGroup, .tokenGroupMember]

/-- **What stays of an extension of a mint**: when its interest began, the key that withheld fees are
encrypted under, the mint of a group, whose size only grows, and the place of a member. -/
def KeepsIdentity : (t : ExtensionType) → Extension t → Extension t → Prop
  | .interestBearingConfig, e, e' => e'.initializationTimestamp = e.initializationTimestamp
  | .confidentialTransferFeeConfig, e, e' => e'.withdrawWithheldAuthorityElgamalPubkey =
      e.withdrawWithheldAuthorityElgamalPubkey
  | .tokenGroup, e, e' => e'.mint = e.mint ∧ e.size ≤ e'.size
  | .tokenGroupMember, e, e' => e' = e
  | _, _, _ => True

/-- **What a mint is.** -/
structure SameMint (mint mint' : MintState) : Prop where
  decimals : mint'.base.decimals = mint.base.decimals
  types : mint.extensionTypes <+: mint'.extensionTypes
  added : ∀ t ∈ mint'.extensionTypes, t ∈ mint.extensionTypes ∨ t ∈ addedMintTypes
  extension : ∀ t e, mint.get t = some e → ∃ e', mint'.get t = some e' ∧ KeepsIdentity t e e'

theorem KeepsIdentity.refl (t : ExtensionType) (e : Extension t) : KeepsIdentity t e e := by
  cases t <;> trivial

theorem KeepsIdentity.trans {t : ExtensionType} {first second third : Extension t}
    (before : KeepsIdentity t first second) (after : KeepsIdentity t second third) :
    KeepsIdentity t first third := by
  cases t
  case interestBearingConfig => exact Eq.trans after before
  case confidentialTransferFeeConfig => exact Eq.trans after before
  case tokenGroup => exact ⟨after.1.trans before.1, before.2.trans after.2⟩
  case tokenGroupMember => exact Eq.trans after before
  all_goals trivial

/-- **An update of an extension keeps what it is.** -/
theorem MintUpdate.keepsIdentity {mint : MintState} {t : ExtensionType} {e e' : Extension t}
    (update : MintUpdate i validated mint t e e') : KeepsIdentity t e e' := by
  cases update with
  | @rotate type =>
    rename_i named authority signed
    cases type <;> cases named <;> trivial
  | updateGroupMaxSize | updateGroupAuthority => exact ⟨rfl, le_rfl⟩
  | enroll => exact ⟨rfl, Nat.le_succ _⟩
  | updateRate | withholdEncrypted | toggleHarvestToMint => rfl
  | _ => trivial

namespace SameMint

theorem refl (mint : MintState) : SameMint mint mint :=
  ⟨rfl, List.prefix_rfl, fun _ member => .inl member, fun t e held => ⟨e, held, .refl t e⟩⟩

theorem trans {first second third : MintState} (before : SameMint first second)
    (after : SameMint second third) : SameMint first third where
  decimals := after.decimals.trans before.decimals
  types := before.types.trans after.types
  added t member := (after.added t member).elim (before.added t) .inr
  extension t e held := by
    obtain ⟨mid, held', kept⟩ := before.extension t e held
    obtain ⟨last, held'', kept'⟩ := after.extension t mid held'
    exact ⟨last, held'', kept.trans kept'⟩

/-- **A write of one extension**, of one that is there or of one that may be added. -/
theorem put {mint mint' : MintState} {t : ExtensionType} {v : Extension t}
    (base : mint'.base = mint.base) (entries : mint'.tlv.entries = KeyedList.put t v mint.tlv.entries)
    (known : t ∈ mint.extensionTypes ∨ t ∈ addedMintTypes)
    (kept : ∀ e, mint.get t = some e → KeepsIdentity t e v) : SameMint mint mint' where
  decimals := by rw [base]
  types := by
    show mint.tlv.entries.keys <+: mint'.tlv.entries.keys
    rw [entries]
    exact KeyedList.keys_prefix_keys_put t v _
  added t' there := by
    have there : t' ∈ mint'.tlv.entries.keys := there
    rw [entries] at there
    rcases (KeyedList.mem_keys_put v).mp there with rfl | before
    · exact known
    · exact .inl before
  extension t' e held := by
    show ∃ e', KeyedList.find t' mint'.tlv.entries = some e' ∧ _
    rw [entries]
    by_cases here : t' = t
    · subst here
      exact ⟨v, KeyedList.find_put_self .., kept e held⟩
    · exact ⟨e, (KeyedList.find_put_of_ne here ..).trans held, .refl t' e⟩

end SameMint

/-- **Every write to a mint leaves it one, and the same.** -/
theorem Change.sameMint {mint : MintState} {new : AccountData}
    (change : Change i start validated a (.mint mint) new) :
    ∃ mint', new = .mint mint' ∧ SameMint mint mint' := by
  cases change with
  | mintBase initial change =>
    refine ⟨_, rfl, { SameMint.refl mint with decimals := ?_ }⟩
    cases change <;> rfl
  | @mintUpdate _ t e e' initial held update =>
    have there : t ∈ mint.extensionTypes :=
      StateWithExtensions.mem_extensionTypes.mpr (Option.isSome_of_eq_some held)
    refine ⟨_, rfl, .put rfl rfl (.inl there) fun old held' => ?_⟩
    obtain rfl := Option.some.inj (held.symm.trans held')
    exact update.keepsIdentity
  | addMetadata authority pointer written | updateMetadata held authority written =>
    exact ⟨_, rfl, .put
      (StateWithExtensions.allocAndSerializeVariableLenExtension_writesOnly written).base
      (allocAndSerializeVariableLenExtension_eq_ok written).2.1 (.inr (by decide))
      fun _ _ => trivial⟩
  | addGroup authority pointer empty written | addMember authority pointer written =>
    obtain ⟨absent, entries, -⟩ := allocAndSerialize_eq_ok written (by decide)
    exact ⟨_, rfl, .put (StateWithExtensions.allocAndSerialize_writesOnly written).2.base entries
      (.inr (by decide)) fun e held => absurd (absent.symm.trans held) (by simp)⟩

/-- **One step leaves the mint what it is.** -/
theorem Step.sameMint {e : Event} {mint : MintState} (step : Step L e L')
    (held : L.mint? a = some mint) (stays : ¬ e.closes a) :
    ∃ mint', L'.mint? a = some mint' ∧ SameMint mint mint' := by
  obtain ⟨owned, data⟩ := Ledger.mint?_eq_some_iff.mp held
  obtain ⟨owned', mint', data', same⟩ := step.follow
    (R := fun data => ∃ mint', data = .mint mint' ∧ SameMint mint mint') stays
    (fun _ _ _ _ _ _ before change => by
      obtain ⟨mid, rfl, before⟩ := before
      obtain ⟨mint', rfl, after⟩ := change.sameMint
      exact ⟨mint', rfl, before.trans after⟩) ⟨owned, mint, data, .refl mint⟩
  exact ⟨mint', Ledger.mint?_eq_some_iff.mpr ⟨owned', data'⟩, same⟩

/-- **A mint stays the same one** in every run that does not close it: it keeps its decimals, it
keeps its extensions in their order and gets none but metadata, a group and a membership behind
them, its interest counts from the same day, its withheld fees are encrypted under the same key, a
group of its belongs to the same mint and does not shrink, and a member keeps its group and its
number. -/
theorem mint_identity {mint : MintState} {events : List Event}
    (held : L.mint? a = some mint) (run : Runs L events L')
    (stays : ∀ e ∈ events, ¬ e.closes a) :
    ∃ mint', L'.mint? a = some mint' ∧ SameMint mint mint' :=
  run.invariant_of (I := fun L => ∃ mint', L.mint? a = some mint' ∧ SameMint mint mint') stays
    (fun M e M' open' before step => by
      obtain ⟨mid, held', before⟩ := before
      obtain ⟨mint', held'', after⟩ := step.sameMint held' open'
      exact ⟨mint', held'', before.trans after⟩) ⟨mint, held, .refl mint⟩

/-- A mint that can be a group and can join one becomes both. -/
theorem mint_identity_memberTurns : ∃ L L' mint',
    runAll .fresh Basic.groupTurns = .ok L ∧
    runAll L (.invoke (Basic.initializeGroup Basic.mint) :: Basic.memberTurns) = .ok L' ∧
    L'.mint? Basic.source = some mint' ∧
    [ExtensionType.groupPointer, .groupMemberPointer] <+: mint'.extensionTypes := by
  have leads : LeadsTo (runAll .fresh Basic.groupTurns) fun L =>
      LeadsTo (runAll L (.invoke (Basic.initializeGroup Basic.mint) :: Basic.memberTurns)) fun _ =>
      ((L.mint? Basic.source).any fun mint =>
        mint.extensionTypes = [.groupPointer, .groupMemberPointer]) = true := by
    decide +kernel
  obtain ⟨L, opened, leads⟩ := leads.exists
  obtain ⟨L', ran, there⟩ := leads.exists
  obtain ⟨mint, held, types⟩ := (Option.any_eq_true ..).mp there
  obtain ⟨mint', held', same⟩ :=
    mint_identity held (runs_of_runAll ran) (Turn.stays_open (by decide))
  exact ⟨L, L', mint', opened, ran, held', of_decide_eq_true types ▸ same.types⟩

end Token2022
