/-
**A token account is as its keys want it.**

Many may act at an account: pay tokens into it, freeze it, harvest its fees, fund its lamports. What
it is worth to its owner is in the hands of four keys, of its owner, its delegate, its close authority
and the permanent delegate of its mint.

* `HasSay` — those keys; `Untouched` — what they alone decide.
* `SlotStep.keys_kept`, `Change.ownSettings` — the base state and the extensions, at one step.
* **`account_in_custody`** — in every run in which none of them signs, all of it stays.
-/

import Token2022.Property.Authorization
import Token2022.Property.Closing
import Token2022.Property.Signatures

namespace Token2022

open Fallible LabelledRun

variable {i : Invocation} {start L L' : Ledger} {validated : List Address} {a : Address}

/-! ### The keys of an account -/

/-- The keys that the account itself names. -/
def PodAccount.Names (base : PodAccount) (key : Address) : Prop :=
  key = base.owner ∨ base.delegate = some key ∨ base.closeAuthority = some key

/-- **Who has a say in an account**: the keys that it names, and the permanent delegate of its mint. -/
def HasSay (L : Ledger) (base : PodAccount) (key : Address) : Prop :=
  base.Names key ∨ (L.mint? base.mint).bind StateWithExtensions.permanentDelegate = some key

/-- The same keys, of an account of the same mint, with the same allowance. -/
structure SameKeys (base base' : PodAccount) : Prop where
  mint : base'.mint = base.mint
  native : base'.isNativeAccount = base.isNativeAccount
  owner : base'.owner = base.owner
  delegate : base'.delegate = base.delegate
  delegatedAmount : base'.delegatedAmount = base.delegatedAmount
  closeAuthority : base'.closeAuthority = base.closeAuthority

namespace SameKeys

theorem refl (base : PodAccount) : SameKeys base base := ⟨rfl, rfl, rfl, rfl, rfl, rfl⟩

theorem trans {first second third : PodAccount} (before : SameKeys first second)
    (after : SameKeys second third) : SameKeys first third where
  mint := after.mint.trans before.mint
  native := after.native.trans before.native
  owner := after.owner.trans before.owner
  delegate := after.delegate.trans before.delegate
  delegatedAmount := after.delegatedAmount.trans before.delegatedAmount
  closeAuthority := after.closeAuthority.trans before.closeAuthority

theorem names {base base' : PodAccount} (same : SameKeys base base') {key : Address}
    (names : base'.Names key) : base.Names key := by
  unfold PodAccount.Names at names
  rwa [same.owner, same.delegate, same.closeAuthority] at names

theorem hasSay {base base' : PodAccount} (same : SameKeys base base') {key : Address}
    (say : HasSay L base' key) : HasSay L base key := by
  rcases say with named | permanent
  · exact .inl (same.names named)
  · rw [same.mint] at permanent
    exact .inr permanent

end SameKeys

/-- **A step that none of the keys signs leaves them all.** -/
theorem SlotStep.keys_kept {B : Book} {v : List Address} {arm : Option DebitArm} {h h' : Holding}
    {l : ℕ} (step : SlotStep i B a v arm (.holding h) (.holding h') l)
    (silent : ∀ key, h.base.Names key → key ∉ v) : SameKeys h.base h'.base := by
  have owner : h.base.owner ∉ v := silent _ (.inl rfl)
  have marks := step.marks
  suffices kept : h'.base.owner = h.base.owner ∧ h'.base.delegate = h.base.delegate ∧
      h'.base.delegatedAmount = h.base.delegatedAmount ∧
      h'.base.closeAuthority = h.base.closeAuthority from
    ⟨marks.mint, marks.native, kept.1, kept.2.1, kept.2.2.1, kept.2.2.2⟩
  cases step with
  | adjust adjustment =>
    cases adjustment with
    | approve => exact absurd (List.mem_singleton_self _) owner
    | revoke _ signed =>
      rcases signed with signed | ⟨key, delegate, signed⟩
      · exact absurd signed owner
      · exact absurd signed (silent key (.inr (.inl delegate)))
    | setOwner => exact absurd (List.mem_singleton_self _) owner
    | setCloseAuthority =>
      cases closer : h.base.closeAuthority with
      | none =>
        rw [closer] at owner
        exact absurd (List.mem_singleton_self _) owner
      | some key =>
        have unsigned := silent key (.inr (.inr closer))
        rw [closer] at unsigned
        exact absurd (List.mem_singleton_self _) unsigned
    | _ => exact ⟨rfl, rfl, rfl, rfl⟩
  | debit _ debit =>
    cases debit with
    | delegate named => exact absurd (List.mem_singleton_self _) (silent _ (.inr (.inl named)))
    | _ => exact ⟨rfl, rfl, rfl, rfl⟩
  | collected collected =>
    rw [collected.base]
    exact ⟨rfl, rfl, rfl, rfl⟩
  | spendEncrypted _ spends =>
    rw [spends.base]
    exact ⟨rfl, rfl, rfl, rfl⟩
  | receiveEncrypted _ receives =>
    rw [receives.base]
    exact ⟨rfl, rfl, rfl, rfl⟩
  | receiveEncryptedWithFee _ receives =>
    rw [receives.base]
    exact ⟨rfl, rfl, rfl, rfl⟩
  | exchangeEncrypted _ spends receives =>
    rw [receives.base, spends.base]
    exact ⟨rfl, rfl, rfl, rfl⟩
  | _ => exact ⟨rfl, rfl, rfl, rfl⟩

/-! ### What the owner sets -/

/-- **The settings of the owner**: whether transfers in need a memo, whether the account is guarded in
calls of other programs, and which credits its confidential extension takes. -/
structure OwnSettings (st st' : TokenAccountState) : Prop where
  memo : st'.get .memoTransfer = st.get .memoTransfer
  cpiGuard : st'.get .cpiGuard = st.get .cpiGuard
  credits : ∀ e, st.get .confidentialTransferAccount = some e →
    ∃ e', st'.get .confidentialTransferAccount = some e' ∧
      e'.allowConfidentialCredits = e.allowConfidentialCredits ∧
      e'.allowNonConfidentialCredits = e.allowNonConfidentialCredits

namespace OwnSettings

theorem refl (st : TokenAccountState) : OwnSettings st st :=
  ⟨rfl, rfl, fun e held => ⟨e, held, rfl, rfl⟩⟩

theorem trans {first second third : TokenAccountState} (before : OwnSettings first second)
    (after : OwnSettings second third) : OwnSettings first third where
  memo := after.memo.trans before.memo
  cpiGuard := after.cpiGuard.trans before.cpiGuard
  credits e held := by
    obtain ⟨mid, held', confidential, nonConfidential⟩ := before.credits e held
    obtain ⟨last, held'', confidential', nonConfidential'⟩ := after.credits mid held'
    exact ⟨last, held'', confidential'.trans confidential, nonConfidential'.trans nonConfidential⟩

/-- The same values of the three extensions. -/
theorem of_get {st st' : TokenAccountState} (same : ∀ t, st'.get t = st.get t) :
    OwnSettings st st' :=
  ⟨same _, same _, fun e held => ⟨e, (same _).trans held, rfl, rfl⟩⟩

/-- **A write of one extension**: of another than the owner's, or one of the confidential extension
that leaves what it takes. -/
theorem set {st : TokenAccountState} {t : ExtensionType} {v : Extension t}
    (notMemo : t ≠ .memoTransfer) (notGuard : t ≠ .cpiGuard)
    (credits : ∀ e, st.get .confidentialTransferAccount = some e →
      ∃ e', (st.set t v).get .confidentialTransferAccount = some e' ∧
        e'.allowConfidentialCredits = e.allowConfidentialCredits ∧
        e'.allowNonConfidentialCredits = e.allowNonConfidentialCredits) :
    OwnSettings st (st.set t v) :=
  ⟨StateWithExtensions.get_set_of_ne st (Ne.symm notMemo) v,
    StateWithExtensions.get_set_of_ne st (Ne.symm notGuard) v, credits⟩

/-- A write of an extension in which the owner sets nothing. -/
theorem set_of_ne {st : TokenAccountState} {t : ExtensionType} {v : Extension t}
    (notMemo : t ≠ .memoTransfer) (notGuard : t ≠ .cpiGuard)
    (other : t ≠ .confidentialTransferAccount) : OwnSettings st (st.set t v) :=
  .set notMemo notGuard fun e held =>
    ⟨e, (StateWithExtensions.get_set_of_ne st (Ne.symm other) v).trans held, rfl, rfl⟩

end OwnSettings

/-- **An update without the owner leaves the owner's settings.** -/
theorem AccountUpdate.ownSettings {st : TokenAccountState} {t : ExtensionType} {e e' : Extension t}
    (held : st.get t = some e) (update : AccountUpdate i validated a st t e e')
    (unsigned : st.base.owner ∉ validated) : OwnSettings st (st.set t e') := by
  -- An update of the confidential extension that leaves what it takes.
  have confidential : ∀ {e e' : ConfidentialTransferAccount},
      st.get .confidentialTransferAccount = some e →
      e'.allowConfidentialCredits = e.allowConfidentialCredits →
      e'.allowNonConfidentialCredits = e.allowNonConfidentialCredits →
      OwnSettings st (st.set .confidentialTransferAccount e') := by
    intro e e' held same same'
    refine .set (by decide) (by decide) fun old there => ?_
    obtain rfl := Option.some.inj (held.symm.trans there)
    exact ⟨e', StateWithExtensions.get_set_self .., same, same'⟩
  cases update with
  | creditPending | creditWithheld | approve => exact confidential held rfl rfl
  | applyPending _ signed => exact absurd signed unsigned
  | spend signed => exact absurd signed unsigned
  | allowConfidentialCredits signed => exact absurd signed unsigned
  | allowNonConfidentialCredits signed => exact absurd signed unsigned
  | toggleMemo signed => exact absurd signed unsigned
  | toggleCpiGuard signed => exact absurd signed unsigned
  | withhold | withholdEncrypted | setTransferring =>
    exact .set_of_ne (by decide) (by decide) (by decide)

/-- **So does every write.** -/
theorem Change.ownSettings {owner : Address} {new : AccountData} {st : TokenAccountState}
    (unsigned : owner ∉ validated) (owned : st.base.owner = owner)
    (change : Change i start validated a (.account st) new) :
    ∃ st', new = .account st' ∧ st'.base.owner = owner ∧ OwnSettings st st' := by
  subst owned
  cases change with
  | accountBase change => exact ⟨_, rfl, change.owner unsigned, .of_get fun _ => rfl⟩
  | accountUpdate held update => exact ⟨_, rfl, rfl, update.ownSettings held unsigned⟩
  | accountOpen absent opening written =>
    obtain ⟨-, -, rfl⟩ := StateWithExtensions.initExtension_eq_ok written
    refine ⟨_, rfl, rfl, ?_⟩
    cases opening with
    | memo signed => exact absurd signed unsigned
    | cpiGuard signed => exact absurd signed unsigned
    | configure =>
      refine .set (by decide) (by decide) fun e there => ?_
      simp [absent] at there
    | configureFees => exact .set_of_ne (by decide) (by decide) (by decide)
  | accountResize written =>
    obtain ⟨base, -, -⟩ := StateWithExtensions.resize_eq_ok written
    exact ⟨_, rfl, congrArg PodAccount.owner base, .of_get (StateWithExtensions.get_resize written)⟩

/-! ### Runs without the keys -/

/-- The event is an instruction that the key signs, be it as a multisig. -/
def Event.SignedBy (e : Event) (L : Ledger) (key : Address) : Prop :=
  ∃ i, e = .invoke i ∧ L.Signs i.accounts key

/-- **What the keys of an account alone decide.** -/
structure Untouched (st st' : TokenAccountState) : Prop
    extends SameKeys st.base st'.base, OwnSettings st st' where
  amount : st.base.isNativeAccount = false → st.base.amount ≤ st'.base.amount
  available : st.availableBalance.val ≤ st'.availableBalance.val

namespace Untouched

theorem refl (st : TokenAccountState) : Untouched st st :=
  { SameKeys.refl st.base, OwnSettings.refl st with amount := fun _ => le_rfl, available := le_rfl }

theorem trans {first second third : TokenAccountState} (before : Untouched first second)
    (after : Untouched second third) : Untouched first third where
  toSameKeys := before.toSameKeys.trans after.toSameKeys
  toOwnSettings := before.toOwnSettings.trans after.toOwnSettings
  amount plain := (before.amount plain).trans (after.amount (before.native.trans plain))
  available := before.available.trans after.available

end Untouched

/-- Whether the burn of anybody takes the account's tokens is up to its owner. -/
theorem SameKeys.exempt {base base' : PodAccount} (same : SameKeys base base') :
    base'.isOwnedBySystemProgramOrIncinerator = base.isOwnedBySystemProgramOrIncinerator := by
  unfold PodAccount.isOwnedBySystemProgramOrIncinerator
  rw [same.owner]

/-- **Without the keys of an account no one closes it.** -/
theorem Closes.say {h : Holding} {d : Address} (closes : Closes i h d validated)
    (ordinary : h.base.isOwnedBySystemProgramOrIncinerator = false) :
    ∃ key ∈ validated, h.base.Names key := by
  have authority := closes.authority
  rw [ordinary, if_neg Bool.false_ne_true] at authority
  rw [authority.1]
  refine ⟨_, List.mem_singleton_self _, ?_⟩
  cases closer : h.base.closeAuthority with
  | none => exact .inl rfl
  | some key => exact .inr (.inr closer)

/-- **An instruction that none of the keys signs.** -/
theorem run_untouched {outcome : Outcome} {st : TokenAccountState} (reachable : Reachable L)
    (held : L.account? a = some st) (ok : i.run L = .ok outcome)
    (ordinary : st.base.isOwnedBySystemProgramOrIncinerator = false)
    (silent : ∀ key, HasSay L st.base key → key ∉ outcome.validated) :
    ∃ st', outcome.ledger.account? a = some st' ∧ Untouched st st' := by
  obtain ⟨B, ext, there, account⟩ := run_account ok held
  have named : ∀ key, st.base.Names key → key ∉ outcome.validated := fun key names =>
    silent key (.inl names)
  have owner : st.base.owner ∉ outcome.validated := named _ (.inl rfl)
  have unclosed : ∀ d, ¬ Closes i st.holding d outcome.validated := by
    intro d closes
    obtain ⟨key, signed, names⟩ := closes.say ordinary
    exact named key names signed
  cases account with
  | @stays st' _ held' step =>
    have stays : ¬ i.closes a := by
      rintro ⟨closing, target⟩
      obtain ⟨source, d, first, -, -, -, -, closed⟩ := closeAccount_cases closing ok
      obtain rfl := Option.some.inj (target.symm.trans first)
      cases closed with
      | account there closes =>
        obtain rfl := Option.some.inj (held.symm.trans there)
        exact unclosed d closes
      | mint there =>
        obtain ⟨-, data⟩ := Ledger.account?_eq_some_iff.mp held
        cases data.symm.trans (Ledger.mint?_eq_some_iff.mp there).2
    obtain ⟨owned, data⟩ := Ledger.account?_eq_some_iff.mp held
    obtain ⟨-, st₁, data', -, settings⟩ := (run_writes ok).follow
      (R := fun data => ∃ st', data = .account st' ∧ st'.base.owner = st.base.owner ∧
        OwnSettings st st') stays
      (fun old new before change => by
        obtain ⟨mid, rfl, owned, before⟩ := before
        obtain ⟨st', rfl, owned', after⟩ := change.ownSettings owner owned
        exact ⟨st', rfl, owned', before.trans after⟩) ⟨owned, st, data, rfl, .refl st⟩
    obtain ⟨-, after⟩ := Ledger.account?_eq_some_iff.mp held'
    obtain rfl := AccountData.account.inj (data'.symm.trans after)
    refine ⟨_, held', { step.keys_kept named, settings with amount := ?_, available := ?_ }⟩
    · intro plain
      by_contra lower
      rcases step.amount_taken (fun _ => plain) (not_le.mp lower) with
        signed | ⟨key, delegate, signed, -⟩ | ⟨key, iss, issued, permanent, signed⟩ | ⟨exempt, -⟩
      · exact owner signed
      · exact named key (.inr (.inl delegate)) signed
      · obtain ⟨mint, isMint, rfl⟩ := ext.mint? issued
        exact silent key (.inr (Option.bind_eq_some_iff.mpr ⟨mint, isMint, permanent⟩)) signed
      · rw [StateWithExtensions.base_holding, ordinary] at exempt
        exact Bool.noConfusion exempt
    · by_contra lower
      rw [not_le, ← StateWithExtensions.available_holding,
        ← StateWithExtensions.available_holding] at lower
      exact owner (step.available_lowered ((wellFormed_reachable reachable).external ext)
        (fun m ne => (conserved_reachable reachable ne).external ext) there lower)
  | closes gone step =>
    obtain ⟨-, d, closes⟩ := step.closed
    exact absurd closes (unclosed d)

/-- **A token account is as its keys want it.** In every run in which neither its owner nor its
delegate nor its close authority nor the permanent delegate that its mint has then signs, a token
account, other than of the system program or the incinerator, stays open, of the same mint, with the
same owner, delegate, allowance and close authority. Its amount does not fall, unless it is one of
wrapped lamports, nor does its available balance; and whether it asks for memos, is guarded in calls
of other programs, and takes confidential and other credits, stays as it is. -/
theorem account_in_custody {st : TokenAccountState} {events : List Event} (reachable : Reachable L)
    (held : L.account? a = some st)
    (ordinary : st.base.isOwnedBySystemProgramOrIncinerator = false)
    (run : Run (fun M e M' => Step M e M' ∧ ∀ key, HasSay M st.base key → ¬ e.SignedBy M key)
      L events L') :
    ∃ st', L'.account? a = some st' ∧ Untouched st st' := by
  refine (run.invariant
    (I := fun M => Reachable M ∧ ∃ st', M.account? a = some st' ∧ Untouched st st')
    (fun M e M' before one => ?_) ⟨reachable, st, held, .refl st⟩).2
  obtain ⟨step, silent⟩ := one
  obtain ⟨there, mid, held', same⟩ := before
  refine ⟨there.step step, ?_⟩
  cases step with
  | external ext => exact ⟨mid, ext.account? held', same⟩
  | @invoke i outcome ok =>
    obtain ⟨st', held'', after⟩ := run_untouched there held' ok
      (same.toSameKeys.exempt.trans ordinary)
      (fun key say validated => silent key (same.toSameKeys.hasSay say)
        ⟨i, rfl, run_signed ok key validated⟩)
    exact ⟨st', held'', same.trans after⟩

/-- An account that is paid once more. -/
theorem account_in_custody_paidAgain : ∃ L outcome st',
    runAll .fresh (Basic.plainTurns ++ [.invoke Basic.transfer]) = .ok L ∧
    Basic.transfer.run L = .ok outcome ∧
    outcome.ledger.account? Basic.destination = some st' ∧
    st'.base.owner = Basic.other ∧ 300 ≤ st'.base.amount := by
  have leads : LeadsTo (runAll .fresh (Basic.plainTurns ++ [.invoke Basic.transfer])) fun L =>
      LeadsTo (Basic.transfer.run L) fun _ =>
      ((L.account? Basic.destination).any fun st => st.base.owner = Basic.other ∧
        st.base.delegate = none ∧ st.base.closeAuthority = none ∧ st.base.mint = Basic.mint ∧
        st.base.isNativeAccount = false ∧ st.base.amount = 300) = true ∧
      (L.mint? Basic.mint).bind StateWithExtensions.permanentDelegate = none ∧
      (L Basic.other).owner ≠ programId ∧ (L Basic.other).owner ≠ inlineSplTokenId := by
    decide +kernel
  obtain ⟨L, ran, leads⟩ := leads.exists
  obtain ⟨outcome, ok, before, permanent, notOwned, notLegacy⟩ := leads.exists
  obtain ⟨st, held, facts⟩ := (Option.any_eq_true ..).mp before
  obtain ⟨owner, delegate, closer, mint, plain, amount⟩ := of_decide_eq_true facts
  have ordinary : st.base.isOwnedBySystemProgramOrIncinerator = false := by
    unfold PodAccount.isOwnedBySystemProgramOrIncinerator
    rw [owner]
    decide
  have silent : ∀ key, HasSay L st.base key → ¬ (Event.invoke Basic.transfer).SignedBy L key := by
    rintro key say ⟨i, same, signs⟩
    obtain rfl := Event.invoke.inj same
    have other : key = Basic.other := by
      rcases say with (own | named | named) | named
      · exact own.trans owner
      · rw [delegate] at named
        cases named
      · rw [closer] at named
        cases named
      · rw [mint, permanent] at named
        cases named
    subst other
    cases signs with
    | single alone signed =>
      revert signed
      decide
    | multisig holds => exact holds.1.elim notOwned notLegacy
  obtain ⟨st', held', same⟩ :=
    account_in_custody (.of_runAll .fresh ran) held ordinary (.single ⟨.invoke ok, silent⟩)
  exact ⟨L, outcome, st', ran, ok, held', same.owner.trans owner, amount ▸ same.amount plain⟩

end Token2022
