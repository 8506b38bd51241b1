/-
**Tokens are not burned without leave.**

A mint may name an authority of its burns. Then none of the burn variants passes without the
signature of this authority, be it plain or confidential and whoever owns the tokens, and no one else
can take the right away from it.

* `MintState.Unburned` — the supply does not shrink, and pending burns do not grow.
* `MintBaseChange.supply_le`, `MintUpdate.pendingBurn`, `Change.unburned` — every write that is not
  approved.
* `supply_of_closes` — a mint with tokens cannot be closed.
* **`burns_permissioned`** — without the authority's word nothing is burned, in any run.
-/

import Token2022.Property.MintSettings

namespace Token2022

open Fallible LabelledRun

variable {i : Invocation} {start L L' : Ledger} {validated : List Address} {outcome : Outcome}
  {m key : Address}

/-! ### Writes -/

namespace MintState

/-- **Nothing is burned of a mint**: its supply does not shrink, and its pending burns are those that
were there, or were applied. -/
structure Unburned (mint mint' : MintState) : Prop where
  supply : mint.base.supply ≤ mint'.base.supply
  pending : ∀ e, mint.get .confidentialMintBurn = some e →
    ∃ e', mint'.get .confidentialMintBurn = some e' ∧
      (e'.pendingBurn = e.pendingBurn ∨ e'.pendingBurn = 0)

namespace Unburned

theorem refl (mint : MintState) : mint.Unburned mint :=
  ⟨le_rfl, fun e held => ⟨e, held, .inl rfl⟩⟩

theorem trans {first second third : MintState} (before : first.Unburned second)
    (after : second.Unburned third) : first.Unburned third where
  supply := before.supply.trans after.supply
  pending e held := by
    obtain ⟨e', held', same⟩ := before.pending e held
    obtain ⟨e'', held'', same'⟩ := after.pending e' held'
    refine ⟨e'', held'', same'.elim (fun kept => ?_) .inr⟩
    rw [kept]
    exact same

/-- A write to another extension. -/
theorem of_writesOnly {mint mint' : MintState} {t : ExtensionType} {e : Extension t}
    (other : .confidentialMintBurn ≠ t) (writes : StateWithExtensions.WritesOnly mint mint' t e) :
    mint.Unburned mint' where
  supply := by rw [writes.base]
  pending e' held := ⟨e', (writes.others _ other).trans held, .inl rfl⟩

end Unburned

end MintState

/-- **A write to the base state** that no one approves. -/
theorem MintBaseChange.supply_le {mint : MintState} {base : PodMint}
    (change : MintBaseChange i validated m mint base) (refused : ¬ i.ApprovesBurn mint) :
    mint.base.supply ≤ base.supply := by
  cases change with
  | mintTo => exact Nat.le_add_right ..
  | burn approved => exact absurd approved refused
  | setMintAuthority | setFreezeAuthority => exact le_rfl

/-- **An update of the encrypted supply** that no one approves. -/
theorem MintUpdate.pendingBurn {mint : MintState} {t : ExtensionType} {e e' : Extension t}
    (update : MintUpdate i validated mint t e e') (refused : ¬ i.ApprovesBurn mint)
    (same : t = .confidentialMintBurn) :
    ConfidentialMintBurn.pendingBurn (same ▸ e' : Extension .confidentialMintBurn) =
        ConfidentialMintBurn.pendingBurn (same ▸ e : Extension .confidentialMintBurn) ∨
      ConfidentialMintBurn.pendingBurn (same ▸ e' : Extension .confidentialMintBurn) = 0 := by
  cases update with
  | @rotate type field e key new named => cases type <;> cases named <;> cases same
  | rotateSupplyKey | updateDecryptableSupply | confidentialMint => exact .inl rfl
  | confidentialBurn approved => exact absurd approved refused
  | applyPendingBurn => exact .inr rfl
  | _ => cases same

/-- **Every write to a mint** that no one approves burns nothing of it. -/
theorem Change.unburned {mint : MintState} {new : AccountData}
    (change : Change i start validated m (.mint mint) new) (refused : ¬ i.ApprovesBurn mint) :
    ∃ mint', new = .mint mint' ∧ mint.Unburned mint' := by
  cases change with
  | mintBase initial change =>
    exact ⟨_, rfl, change.supply_le refused, fun e held => ⟨e, held, .inl rfl⟩⟩
  | @mintUpdate _ t v v' initial held update =>
    refine ⟨_, rfl, ?_⟩
    by_cases other : .confidentialMintBurn = t
    · subst other
      refine ⟨le_rfl, fun e there => ⟨v', StateWithExtensions.get_set_self .., ?_⟩⟩
      obtain rfl := Option.some.inj (held.symm.trans there)
      exact update.pendingBurn refused rfl
    · exact .of_writesOnly other (StateWithExtensions.writesOnly_set ..)
  | addMetadata authority pointer written | updateMetadata held authority written =>
    exact ⟨_, rfl, .of_writesOnly (by decide)
      (StateWithExtensions.allocAndSerializeVariableLenExtension_writesOnly written)⟩
  | addGroup authority pointer empty written | addMember authority pointer written =>
    exact ⟨_, rfl, .of_writesOnly (by decide)
      (StateWithExtensions.allocAndSerialize_writesOnly written).2⟩

/-! ### Instructions and runs -/

/-- **A mint with tokens cannot be closed.** -/
theorem supply_of_closes {mint : MintState} (held : L.mint? m = some mint) (closes : i.closes m)
    (ok : i.run L = .ok outcome) : mint.base.supply = 0 := by
  obtain ⟨source, _, first, -, -, -, -, closed⟩ := closeAccount_cases closes.1 ok
  obtain rfl := Option.some.inj (closes.2.symm.trans first)
  cases closed with
  | account account =>
    obtain ⟨-, data⟩ := Ledger.mint?_eq_some_iff.mp held
    cases data.symm.trans (Ledger.account?_eq_some_iff.mp account).2
  | mint there authority signed supply =>
    obtain rfl := Option.some.inj (held.symm.trans there)
    exact supply

/-- **An instruction that the authority of permissioned burns does not vouch for** burns nothing, and
leaves it the authority. -/
theorem run_unburned {mint : MintState} (held : L.mint? m = some mint)
    (named : mint.permissionedBurnAuthority = some key) (ok : i.run L = .ok outcome)
    (silent : ¬ i.VouchedBy outcome.validated key) (stays : ¬ i.closes m) :
    ∃ mint', outcome.ledger.mint? m = some mint' ∧
      mint'.permissionedBurnAuthority = some key ∧ mint.Unburned mint' := by
  obtain ⟨owned, data⟩ := Ledger.mint?_eq_some_iff.mp held
  obtain ⟨owned', mint', data', named', unburned⟩ := (run_writes ok).follow
    (R := fun data => ∃ mint', data = .mint mint' ∧
      mint'.permissionedBurnAuthority = some key ∧ mint.Unburned mint') stays
    (fun old new before change => by
      obtain ⟨mid, rfl, holds, before⟩ := before
      have refused : ¬ i.ApprovesBurn mid := fun approved => silent (.inr (approved key holds))
      obtain ⟨mint', rfl, after⟩ := change.unburned refused
      obtain ⟨_, same, authorized⟩ := change.authorized
      obtain rfl := AccountData.mint.inj same
      refine ⟨mint', rfl, ?_, before.trans after⟩
      by_contra changed
      obtain ⟨_, holds', vouched⟩ := authorized.authority .permissionedBurn
        fun kept => changed (kept.trans holds)
      obtain rfl := Option.some.inj (holds.symm.trans holds')
      exact silent vouched) ⟨owned, mint, data, named, .refl mint⟩
  exact ⟨mint', Ledger.mint?_eq_some_iff.mpr ⟨owned', data'⟩, named', unburned⟩

/-- **A step that it does not vouch for**, of a mint that has tokens or is not closed. -/
theorem Step.unburned {e : Event} {mint mid : MintState} (step : Step L e L')
    (silent : ¬ e.VouchedBy L key) (stays : mint.base.supply = 0 → ¬ e.closes m)
    (held : L.mint? m = some mid) (named : mid.permissionedBurnAuthority = some key)
    (before : mint.Unburned mid) :
    ∃ mint', L'.mint? m = some mint' ∧ mint'.permissionedBurnAuthority = some key ∧
      mint.Unburned mint' := by
  cases step with
  | external ext => exact ⟨mid, ext.mint? held, named, before⟩
  | @invoke i outcome ok =>
    have open' : ¬ i.closes m := by
      intro closes
      have none : mint.base.supply = 0 :=
        Nat.le_zero.mp (before.supply.trans_eq (supply_of_closes held closes ok))
      exact stays none ⟨i, rfl, closes⟩
    obtain ⟨mint', held', named', after⟩ := run_unburned held named ok
      (fun vouched => silent ((Event.vouchedBy_iff ok).mpr vouched)) open'
    exact ⟨mint', held', named', before.trans after⟩

/-- **Burns are permitted or do not happen.** In every run in which the authority of a mint's
permissioned burns vouches for no instruction, this authority stays, the supply of the mint does not
shrink, and its pending confidential burns do not grow: they are the same, or were applied. A mint
that has tokens cannot even be closed meanwhile. -/
theorem burns_permissioned {mint : MintState} {events : List Event} (held : L.mint? m = some mint)
    (named : mint.permissionedBurnAuthority = some key)
    (run : Run (fun M e M' => Step M e M' ∧ ¬ e.VouchedBy M key) L events L')
    (stays : mint.base.supply = 0 → ∀ e ∈ events, ¬ e.closes m) :
    ∃ mint', L'.mint? m = some mint' ∧ mint'.permissionedBurnAuthority = some key ∧
      mint.base.supply ≤ mint'.base.supply ∧
      ∀ e, mint.get .confidentialMintBurn = some e →
        ∃ e', mint'.get .confidentialMintBurn = some e' ∧
          (e'.pendingBurn = e.pendingBurn ∨ e'.pendingBurn = 0) := by
  obtain ⟨mint', held', named', unburned⟩ := run.invariant_of
    (I := fun M => ∃ mint', M.mint? m = some mint' ∧
      mint'.permissionedBurnAuthority = some key ∧ mint.Unburned mint')
    (C := fun e => mint.base.supply = 0 → ¬ e.closes m)
    (fun e member none => stays none e member)
    (fun M e M' open' ⟨mid, there, holds, before⟩ ⟨step, silent⟩ =>
      step.unburned silent open' there holds before)
    ⟨mint, held, named, .refl mint⟩
  exact ⟨mint', held', named', unburned.supply, unburned.pending⟩

/-- A mint whose burns another one permits, with tokens in one of its two accounts. -/
def Basic.permissionedTurns : List Turn := [
  .allocate mint 202, .allocate source 165, .allocate destination 165,
  .basic (.permissionedBurnExtension (.initializeExtension other)) [.plain mint],
  .basic (.initializeMint2 0 owner none) [.plain mint],
  .basic (.initializeAccount3 owner) [.plain source, .plain mint],
  .basic (.initializeAccount3 owner) [.plain destination, .plain mint],
  .basic (.mintTo 1000) [.plain mint, .plain source, .signer owner]]

/-- Their owner does not burn them alone, but with the other one. -/
example : LeadsTo (runAll .fresh Basic.permissionedTurns) fun L =>
    ¬ LeadsTo ((Invocation.basic (.burn 400) [.plain Basic.source, .plain Basic.mint,
      .signer Basic.owner]).run L) (fun _ => True) ∧
    LeadsTo ((Invocation.basic (.permissionedBurnExtension (.burn 400)) [.plain Basic.source,
      .plain Basic.mint, .signer Basic.other, .signer Basic.owner]).run L) fun outcome =>
      ((outcome.ledger.mint? Basic.mint).any fun mint => mint.base.supply = 600) = true := by
  decide +kernel

theorem burns_permissioned_transfer : ∃ L outcome mint',
    runAll .fresh Basic.permissionedTurns = .ok L ∧ Basic.transfer.run L = .ok outcome ∧
    outcome.ledger.mint? Basic.mint = some mint' ∧
    mint'.permissionedBurnAuthority = some Basic.other ∧ 1000 ≤ mint'.base.supply := by
  have leads : LeadsTo (runAll .fresh Basic.permissionedTurns) fun L =>
      LeadsTo (Basic.transfer.run L) fun outcome => outcome.validated = [Basic.owner] ∧
      ((L.mint? Basic.mint).any fun mint =>
        mint.permissionedBurnAuthority = some Basic.other ∧ mint.base.supply = 1000) = true := by
    decide +kernel
  obtain ⟨L, ran, leads⟩ := leads.exists
  obtain ⟨outcome, ok, validated, before⟩ := leads.exists
  obtain ⟨mint, held, facts⟩ := (Option.any_eq_true ..).mp before
  obtain ⟨named, supply⟩ := of_decide_eq_true facts
  have silent : ¬ (Event.invoke Basic.transfer).VouchedBy L Basic.other := by
    rw [Event.vouchedBy_iff ok, validated]
    decide
  obtain ⟨mint', held', named', more, -⟩ :=
    burns_permissioned held named (.single ⟨.invoke ok, silent⟩) fun none => by
      rw [supply] at none
      cases none
  exact ⟨L, outcome, mint', ran, ok, held', named', supply ▸ more⟩

end Token2022
