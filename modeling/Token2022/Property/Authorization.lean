/-
**Authorization: who can take tokens from an account.**

* `SlotStep.amount_lowered`, `SlotStep.available_lowered`, `SlotStep.closed` — at one account.
* **`debit_authorized`** — tokens leave an account, or the account goes, only with the signature of one
  who may do so.
* **`frozen_unchanged`** — a frozen account stays as it is, until it is thawed or closed.
-/

import Token2022.Environment
import Token2022.Property.Reading

namespace Token2022

open Fallible

/-! ### At one account -/

section AccountSteps

variable {i : Invocation} {B : Book} {a : Address} {v : List Address} {arm : Option DebitArm}
  {h h' : Holding} {l : ℕ}

/-- **Who signs for a lower amount**, where it is not synchronised with lamports. -/
theorem SlotStep.amount_taken (step : SlotStep i B a v arm (.holding h) (.holding h') l)
    (other : i.instruction = .syncNative → h.base.isNativeAccount = false)
    (lower : h'.base.amount < h.base.amount) :
    h.base.owner ∈ v ∨
      (∃ key, h.base.delegate = some key ∧ key ∈ v ∧
        h.base.amount - h'.base.amount ≤ h.base.delegatedAmount) ∨
      (∃ key iss, B.slot h.base.mint = .issue iss ∧ iss.permanentDelegate = some key ∧ key ∈ v) ∨
      h.base.isOwnedBySystemProgramOrIncinerator = true ∧ i.isBurn = true := by
  cases step with
  | keep => exact absurd lower (lt_irrefl _)
  | drain => exact absurd lower (lt_irrefl _)
  | adjust adjustment => exact absurd lower (by rw [adjustment.amount.1]; exact lt_irrefl _)
  | toggleFreeze => exact absurd lower (lt_irrefl _)
  | reserve => exact absurd lower (lt_irrefl _)
  | syncNative named native => exact absurd native (by rw [other named]; exact Bool.false_ne_true)
  | @debit _ base key arm n _ enough debit =>
    have taken : h.base.amount - (h.base.amount - n) ≤ n := by omega
    cases debit with
    | permanentDelegate issued named => exact .inr (.inr (.inl ⟨key, _, issued, named, by simp⟩))
    | delegate named allowed => exact .inr (.inl ⟨key, named, by simp, taken.trans allowed⟩)
    | owner => exact .inl (by simp)
  | burnExempt named exempt => exact .inr (.inr (.inr ⟨exempt, named⟩))
  | transferIn => exact absurd lower (not_lt.mpr (Nat.le_add_right _ _))
  | mintTo => exact absurd lower (not_lt.mpr (Nat.le_add_right _ _))
  | collected collected => exact absurd lower (not_lt.mpr collected.more)
  | withdrawWithheld => exact absurd lower (not_lt.mpr (Nat.le_add_right _ _))
  | deposit => exact .inl (by simp)
  | withdraw => exact .inl (by simp)
  | spendEncrypted => exact .inl (by simp)
  | receiveEncrypted _ receives =>
    obtain ⟨e, -, rfl⟩ := receives.moved
    exact absurd lower (lt_irrefl _)
  | receiveEncryptedWithFee _ receives =>
    obtain ⟨e, w, -, -, rfl⟩ := receives.moved
    exact absurd lower (lt_irrefl _)
  | exchangeEncrypted => exact .inl (by simp)
  | withdrawEncryptedWithheld => exact absurd lower (lt_irrefl _)

theorem SlotStep.amount_lowered (step : SlotStep i B a v arm (.holding h) (.holding h') l)
    (other : i.instruction ≠ .syncNative) (lower : h'.base.amount < h.base.amount) :
    h.base.owner ∈ v ∨
      (∃ key, h.base.delegate = some key ∧ key ∈ v ∧
        h.base.amount - h'.base.amount ≤ h.base.delegatedAmount) ∨
      (∃ key iss, B.slot h.base.mint = .issue iss ∧ iss.permanentDelegate = some key ∧ key ∈ v) ∨
      h.base.isOwnedBySystemProgramOrIncinerator = true ∧ i.isBurn = true :=
  step.amount_taken (fun sync => absurd sync other) lower

/-- A step of a loop over withheld fees lowers no available balance. -/
theorem Collect.available_le {m : Address} {paid : Bool} {C C' : Book} (c : Conserved m C)
    (collect : Collect m paid C C') {h : Holding} (held : C.slot a = .holding h) :
    ∃ h', C'.slot a = .holding h' ∧ h.balance.available.val ≤ h'.balance.available.val := by
  cases collect with
  | @toMint _ x _ _ _ _ there _ _ issued =>
    by_cases atMint : a = m
    · rw [atMint, issued] at held
      exact Slot.noConfusion held
    · rw [Book.slot_write_of_ne _ atMint]
      by_cases same : a = x
      · subst same
        obtain rfl := Slot.holding.inj (there.symm.trans held)
        exact ⟨_, Book.slot_write_self .., le_rfl⟩
      · exact ⟨h, by rw [Book.slot_write_of_ne _ same, held], le_rfl⟩
  | @toAccount _ x d h₀ hd w there _ _ destination =>
    have first : ∃ h₁, (C.write x (.holding { h₀ with withheld := some 0 })).slot a = .holding h₁ ∧
        h₁.balance = h.balance := by
      by_cases same : a = x
      · subst same
        obtain rfl := Slot.holding.inj (there.symm.trans held)
        exact ⟨_, Book.slot_write_self .., rfl⟩
      · exact ⟨h, by rw [Book.slot_write_of_ne _ same, held], rfl⟩
    obtain ⟨h₁, at_a, balance⟩ := first
    rw [← balance]
    by_cases atDestination : a = d
    · subst atDestination
      obtain rfl := Slot.holding.inj (destination.symm.trans at_a)
      exact ⟨_, Book.slot_write_self .., le_rfl⟩
    · exact ⟨h₁, by rw [Book.slot_write_of_ne _ atDestination, at_a], le_rfl⟩
  | @encryptedToMint _ x _ _ _ _ there _ _ issued =>
    by_cases atMint : a = m
    · rw [atMint, issued] at held
      exact Slot.noConfusion held
    · rw [Book.slot_write_of_ne _ atMint]
      by_cases same : a = x
      · subst same
        obtain rfl := Slot.holding.inj (there.symm.trans held)
        exact ⟨_, Book.slot_write_self .., le_rfl⟩
      · exact ⟨h, by rw [Book.slot_write_of_ne _ same, held], le_rfl⟩
  | @encryptedToAccount _ x d h₀ hd w e there mint withheld destination mint' _ encrypted =>
    have first : ∃ h₁, (C.write x (.holding { h₀ with encryptedWithheld := some 0 })).slot a =
        .holding h₁ ∧ h₁.balance = h.balance := by
      by_cases same : a = x
      · subst same
        obtain rfl := Slot.holding.inj (there.symm.trans held)
        exact ⟨_, Book.slot_write_self .., rfl⟩
      · exact ⟨h, by rw [Book.slot_write_of_ne _ same, held], rfl⟩
    obtain ⟨h₁, at_a, balance⟩ := first
    rw [← balance]
    by_cases atDestination : a = d
    · subst atDestination
      obtain rfl := Slot.holding.inj (destination.symm.trans at_a)
      refine ⟨_, Book.slot_write_self .., ?_⟩
      -- The withheld amount is part of what the mint has issued, so that the sum does not wrap.
      have value : h₀.value = ({ h₀ with encryptedWithheld := some 0 } : Holding).value + w.val := by
        simp only [Holding.value, Holding.funds, Holding.fees, Holding.balance, withheld,
          Option.getD_some, ZMod.val_zero]
        omega
      have flying : Floating m w.val (C.write x (.holding { h₀ with encryptedWithheld := some 0 })) :=
        c.writeHolding there mint mint (by omega) fun _ zero => zero
      have le := flying.value_le destination mint'
      have bounded := flying.bounded
      rw [Holding.value_eq encrypted] at le
      rw [Holding.balance_of_encrypted encrypted, Holding.balance_of_encrypted rfl]
      show e.available.val ≤ (e.available + w).val
      rw [val_add_of_small (by omega) (by omega)]
      exact Nat.le_add_right _ _
    · exact ⟨h₁, by rw [Book.slot_write_of_ne _ atDestination, at_a], le_rfl⟩

/-- A loop over withheld fees lowers no available balance. -/
theorem Collect.chain_available_le {m : Address} {paid : Bool} {C C' : Book} (c : Conserved m C)
    (chain : Relation.ReflTransGen (Collect m paid) C C') (held : C.slot a = .holding h) :
    Conserved m C' ∧
      ∃ h', C'.slot a = .holding h' ∧ h.balance.available.val ≤ h'.balance.available.val := by
  induction chain with
  | refl => exact ⟨c, h, held, le_rfl⟩
  | tail _ step ih =>
    obtain ⟨conserved, h₁, held₁, le⟩ := ih
    obtain ⟨h₂, held₂, le'⟩ := step.available_le conserved held₁
    exact ⟨Collect.conserved conserved step, h₂, held₂, le.trans le'⟩

/-- **What is collected lowers no available balance.** -/
theorem Collected.available_le (collected : Collected i B h h')
    (along : ∃ m paid B', Relation.ReflTransGen (Collect m paid) B B' ∧
      B.slot a = .holding h ∧ B'.slot a = .holding h')
    (wf : B.WellFormed) (solvent : ∀ m, m ≠ nativeMintId → Conserved m B) :
    h.balance.available.val ≤ h'.balance.available.val := by
  obtain ⟨m, paid, C, chain, held, held'⟩ := along
  by_cases native : h.base.mint = nativeMintId
  · -- An account of wrapped lamports has no encrypted balance, before or after.
    have clear := (wf.plain a h held native).encrypted
    have clear' : h'.encrypted = none := by
      rcases collected.encrypted with same | ⟨e, n, there, -⟩
      · exact same.trans clear
      · simp [clear] at there
    rw [Holding.balance_of_none clear, Holding.balance_of_none clear']
  · by_cases same : h.base.mint = m
    · obtain ⟨-, h₁, held₁, le⟩ := Collect.chain_available_le (same ▸ solvent _ native) chain held
      obtain rfl := Slot.holding.inj (held₁.symm.trans held')
      exact le
    · obtain rfl := Slot.holding.inj ((Collect.chain_other chain held same).symm.trans held')
      exact le_rfl

/-- What a mint has retained can be paid into an account of it. -/
theorem Floating.val_available_add {iss : Issuance} {e : EncryptedBalance} {r : Scalar}
    (c : Conserved h.base.mint B) (held : B.slot a = .holding h)
    (issued : B.slot h.base.mint = .issue iss) (encrypted : h.encrypted = some e)
    (fees : iss.encryptedWithheld = some r) :
    (e.available + r).val = e.available.val + r.val := by
  have le := c.value_le held rfl
  have bounded := c.bounded
  rw [issued] at le bounded
  rw [Holding.value_eq encrypted] at le
  have due : (Slot.issue iss).due = (iss.fees.map TransferFeeConfig.withheldAmount).getD 0 +
      r.val + (iss.mintBurn.getD 0).pendingBurn.val := by
    show iss.due = _
    rw [Issuance.due, Issuance.retained, fees, Option.getD_some]
  exact val_add_of_small (by omega) (by omega)

/-- **Who signs for a lower available balance**: the owner. -/
theorem SlotStep.available_lowered (step : SlotStep i B a v arm (.holding h) (.holding h') l)
    (wf : B.WellFormed) (solvent : ∀ m, m ≠ nativeMintId → Conserved m B)
    (held : B.slot a = .holding h)
    (lower : h'.balance.available.val < h.balance.available.val) : h.base.owner ∈ v := by
  by_cases native : h.base.mint = nativeMintId
  · -- An account of wrapped lamports has no encrypted balance, before or after.
    have before := wf.plain a h held native
    have after := step.nativeHolding wf native ((wf.native a h held).mpr native) before
    rw [Holding.balance_of_none before.encrypted, Holding.balance_of_none after.encrypted] at lower
    exact absurd lower (lt_irrefl _)
  · have conserved := solvent _ native
    cases step with
    | adjust adjustment =>
      cases adjustment with
      | configure fees _ _ absent =>
        rw [Holding.balance_of_none absent] at lower
        simp at lower
      | applyPending => exact List.mem_singleton_self _
      | _ => exact absurd lower (lt_irrefl _)
    | collected collected along =>
      exact absurd lower (not_lt.mpr (collected.available_le along wf solvent))
    | deposit => exact List.mem_singleton_self _
    | withdraw => exact List.mem_singleton_self _
    | spendEncrypted => exact List.mem_singleton_self _
    | receiveEncrypted _ receives =>
      obtain ⟨e, encrypted, rfl⟩ := receives.moved
      rw [Holding.balance_of_encrypted encrypted] at lower
      exact absurd lower (lt_irrefl _)
    | receiveEncryptedWithFee _ receives =>
      obtain ⟨e, w, encrypted, -, rfl⟩ := receives.moved
      rw [Holding.balance_of_encrypted encrypted] at lower
      exact absurd lower (lt_irrefl _)
    | exchangeEncrypted => exact List.mem_singleton_self _
    | withdrawEncryptedWithheld _ issued fees _ encrypted =>
      rw [Holding.balance_of_encrypted encrypted, Holding.balance_of_encrypted rfl,
        conserved.val_available_add held issued encrypted fees] at lower
      exact absurd lower (not_lt.mpr (Nat.le_add_right _ _))
    | _ => exact absurd lower (lt_irrefl _)

/-- **Who signs for a close.** -/
theorem SlotStep.closed (step : SlotStep i B a v arm (.holding h) .foreign l) :
    i.key? 0 = some a ∧ ∃ d, Closes i h d v := by
  cases step with
  | closeHolding target closes => exact ⟨target, _, closes⟩

end AccountSteps

/-! ### No unauthorized debit -/

/-- **No unauthorized debit.** In every reachable state, whatever accounts and signers are given, an
instruction other than `SyncNative` takes tokens from an account, or takes the account, only where
`validate_owner` accepted one who may do so. -/
theorem debit_authorized {i : Invocation} {L : Ledger} {outcome : Outcome} {a : Address}
    {st : TokenAccountState} (reachable : Reachable L) (ok : i.run L = .ok outcome)
    (other : i.instruction ≠ .syncNative) (held : L.account? a = some st) :
    (∀ st', outcome.ledger.account? a = some st' → st'.base.amount < st.base.amount →
      st.base.owner ∈ outcome.validated ∨
      (∃ key, st.base.delegate = some key ∧ key ∈ outcome.validated ∧
        st.base.amount - st'.base.amount ≤ st.base.delegatedAmount) ∨
      (∃ key mint, L.mint? st.base.mint = some mint ∧ mint.permanentDelegate = some key ∧
        key ∈ outcome.validated) ∨
      st.base.isOwnedBySystemProgramOrIncinerator = true ∧ i.isBurn = true) ∧
    (∀ st', outcome.ledger.account? a = some st' →
      st'.availableBalance.val < st.availableBalance.val → st.base.owner ∈ outcome.validated) ∧
    (outcome.ledger.account? a = none →
      st.base.closeAuthority.getD st.base.owner ∈ outcome.validated ∨
      st.base.isOwnedBySystemProgramOrIncinerator = true ∧ i.instruction = .closeAccount ∧
        i.key? 1 = some incineratorId) := by
  obtain ⟨B, ext, there, account⟩ := run_account ok held
  have wf : B.WellFormed := (wellFormed_reachable reachable).external ext
  have solvent : ∀ m, m ≠ nativeMintId → Conserved m B := fun m ne =>
    (conserved_reachable reachable ne).external ext
  cases account with
  | @stays st' _ held' step =>
    refine ⟨fun st₁ held₁ lower => ?_, fun st₁ held₁ lower => ?_, fun gone => ?_⟩
    · obtain rfl := Option.some.inj (held'.symm.trans held₁)
      rcases step.amount_lowered other lower with owner | delegate | ⟨key, iss, issued, named, signed⟩ |
        exempt
      · exact .inl owner
      · exact .inr (.inl delegate)
      · obtain ⟨mint, there, rfl⟩ := ext.mint? issued
        exact .inr (.inr (.inl ⟨key, mint, there, named, signed⟩))
      · exact .inr (.inr (.inr exempt))
    · obtain rfl := Option.some.inj (held'.symm.trans held₁)
      rw [← StateWithExtensions.available_holding, ← StateWithExtensions.available_holding] at lower
      exact step.available_lowered wf solvent there lower
    · simp [held'] at gone
  | closes gone step =>
    refine ⟨fun st₁ held₁ => ?_, fun st₁ held₁ => ?_, fun _ => ?_⟩
    · simp [gone] at held₁
    · simp [gone] at held₁
    · obtain ⟨-, d, closes⟩ := step.closed
      have authority := closes.authority
      split at authority
      · rename_i exempt
        exact .inr ⟨exempt, closes.named, by rw [closes.target, authority.2]⟩
      · left
        rw [authority.1]
        exact List.mem_singleton_self _

/-- A transfer that the owner signs. -/
theorem debit_authorized_transfer : ∃ L outcome st st', Reachable L ∧
    Basic.transfer.run L = .ok outcome ∧
    L.account? Basic.source = some st ∧ outcome.ledger.account? Basic.source = some st' ∧
    st'.base.amount < st.base.amount ∧
    (st.base.owner ∈ outcome.validated ∨
      (∃ key, st.base.delegate = some key ∧ key ∈ outcome.validated ∧
        st.base.amount - st'.base.amount ≤ st.base.delegatedAmount) ∨
      (∃ key mint, L.mint? st.base.mint = some mint ∧ mint.permanentDelegate = some key ∧
        key ∈ outcome.validated) ∨
      st.base.isOwnedBySystemProgramOrIncinerator = true ∧ Basic.transfer.isBurn = true) := by
  have leads : LeadsTo (runAll .fresh Basic.plainTurns) fun L =>
      LeadsTo (Basic.transfer.run L) fun outcome =>
      ((L.account? Basic.source).map fun st => st.base.amount) = some 1000 ∧
        ((outcome.ledger.account? Basic.source).map fun st => st.base.amount) = some 700 := by
    decide +kernel
  obtain ⟨L, ran, leads⟩ := leads.exists
  obtain ⟨outcome, ok, before, after⟩ := leads.exists
  obtain ⟨st, held, amount⟩ := Option.map_eq_some_iff.mp before
  obtain ⟨st', held', amount'⟩ := Option.map_eq_some_iff.mp after
  have lower : st'.base.amount < st.base.amount := by omega
  have reachable : Reachable L := .of_runAll .fresh ran
  exact ⟨L, outcome, st, st', reachable, ok, held, held', lower,
    (debit_authorized reachable ok (by decide) held).1 st' held' lower⟩

/-! ### Frozen accounts -/

/-- **What a frozen account still allows**: nothing, but to be thawed or closed. -/
theorem SlotStep.while_frozen {i : Invocation} {B : Book} {a : Address} {v : List Address}
    {arm : Option DebitArm} {h h' : Holding} {l : ℕ} (wf : B.WellFormed)
    (held : B.slot a = .holding h) (step : SlotStep i B a v arm (.holding h) (.holding h') l)
    (frozen : h.base.isFrozen = true) :
    (h'.base = h.base ∧ h'.balance = h.balance) ∨
      ∃ iss key, B.slot h.base.mint = .issue iss ∧ iss.base.freezeAuthority = some key ∧
        v = [key] ∧ i.instruction = .thawAccount ∧ i.key? 0 = some a := by
  have notThawed : h.base.isFrozen ≠ false := by simp [frozen]
  have notNative : h.base.isNativeAccount ≠ true := fun native =>
    notThawed (wf.plain a h held ((wf.native a h held).mp native)).thawed
  cases step with
  | keep => exact .inl ⟨rfl, rfl⟩
  | drain => exact .inl ⟨rfl, rfl⟩
  | adjust adjustment =>
    cases adjustment with
    | approve _ thawed => exact absurd thawed notThawed
    | revoke thawed => exact absurd thawed notThawed
    | setOwner thawed => exact absurd thawed notThawed
    | setCloseAuthority thawed => exact absurd thawed notThawed
    | lockCpi => exact .inl ⟨rfl, rfl⟩
    | configure fees _ _ absent =>
      refine .inl ⟨rfl, ?_⟩
      rw [Holding.balance_of_none absent]
      rfl
    | applyPending thawed => exact absurd thawed notThawed
  | @toggleFreeze _ iss key freeze _ _ issued authority plain before after named target =>
    rw [frozen] at before
    obtain rfl : freeze = false := by simpa using before.symm
    exact .inr ⟨iss, key, issued, authority, rfl, named, target⟩
  | reserve native => exact absurd native notNative
  | syncNative _ native => exact absurd native notNative
  | debit _ _ _ thawed => exact (thawed.elim notThawed notNative).elim
  | burnExempt _ _ _ thawed => exact absurd thawed notThawed
  | transferIn thawed => exact absurd thawed notThawed
  | mintTo thawed => exact absurd thawed notThawed
  | collected collected =>
    have unpaid : ¬ (h'.base.amount ≠ h.base.amount ∨ h'.encrypted ≠ h.encrypted) :=
      fun changed => notThawed (collected.paid changed).2
    rw [not_or, not_not, not_not] at unpaid
    refine .inl ⟨?_, ?_⟩
    · rw [collected.base, unpaid.1]
    · unfold Holding.balance
      rw [unpaid.2]
  | withdrawWithheld _ _ _ thawed => exact absurd thawed notThawed
  | deposit _ thawed => exact absurd thawed notThawed
  | withdraw _ thawed => exact absurd thawed notThawed
  | spendEncrypted _ spends => exact absurd spends.thawed notThawed
  | receiveEncrypted _ receives => exact absurd receives.thawed notThawed
  | receiveEncryptedWithFee _ receives => exact absurd receives.thawed notThawed
  | exchangeEncrypted _ spends => exact absurd spends.thawed notThawed
  | withdrawEncryptedWithheld _ _ _ thawed => exact absurd thawed notThawed

/-- The extensions of an account that is closed hold nothing. -/
theorem Closes.closable {i : Invocation} {st : TokenAccountState} {d : Address} {v : List Address}
    (closes : Closes i st.holding d v) : TokenAccountState.closable st = .ok () := by
  simp only [TokenAccountState.closable, bind_eq_ok_iff, checkExtension_eq_ok_iff,
    ConfidentialTransferAccount.closable, require_eq_ok_iff]
  refine ⟨(), fun e held => ?_, (), fun e held => ?_, fun e held => ?_⟩
  · obtain ⟨available, lo, hi⟩ := closes.balance e.balance (by
      rw [StateWithExtensions.encrypted_holding, held]
      rfl)
    exact ⟨lo, hi, available⟩
  · exact closes.encryptedWithheld e.withheldAmount (by
      rw [StateWithExtensions.encryptedWithheld_holding, held]
      rfl)
  · exact closes.withheld e.withheldAmount (by
      rw [StateWithExtensions.withheld_holding, held]
      rfl)

/-- A frozen account, at one instruction. -/
theorem frozen_step {i : Invocation} {L : Ledger} {outcome : Outcome} {a : Address}
    {st : TokenAccountState} (reachable : Reachable L) (ok : i.run L = .ok outcome)
    (held : L.account? a = some st) (frozen : st.base.isFrozen = true) :
    (∃ st', outcome.ledger.account? a = some st' ∧ st'.base = st.base ∧
      st'.availableBalance = st.availableBalance ∧ st'.pendingBalance = st.pendingBalance) ∨
    (i.instruction = .thawAccount ∧ i.key? 0 = some a ∧
      ∃ mint key, L.mint? st.base.mint = some mint ∧ mint.base.freezeAuthority = some key ∧
        outcome.validated = [key]) ∨
    (i.instruction = .closeAccount ∧ i.key? 0 = some a ∧ st.base.amount = 0 ∧
      TokenAccountState.closable st = .ok ()) := by
  obtain ⟨B, ext, there, account⟩ := run_account ok held
  have wf : B.WellFormed := (wellFormed_reachable reachable).external ext
  cases account with
  | @stays st' _ held' step =>
    rcases step.while_frozen wf there frozen with
      ⟨base, balance⟩ | ⟨iss, key, issued, authority, signed, named, target⟩
    · refine .inl ⟨st', held', base, ?_, ?_⟩
      · rw [← StateWithExtensions.available_holding, balance, StateWithExtensions.available_holding]
      · rw [← StateWithExtensions.pending_holding, balance, StateWithExtensions.pending_holding]
    · obtain ⟨mint, there, rfl⟩ := ext.mint? issued
      exact .inr (.inl ⟨named, target, mint, key, there, authority, signed⟩)
  | closes gone step =>
    obtain ⟨target, d, closes⟩ := step.closed
    refine .inr (.inr ⟨closes.named, target, ?_, closes.closable⟩)
    refine closes.empty.resolve_left fun native => ?_
    have thawed := (wf.plain a _ there ((wf.native a _ there).mp native)).thawed
    exact absurd frozen (by rw [← StateWithExtensions.base_holding, thawed]; exact Bool.false_ne_true)

/-- An account of wrapped lamports is never frozen. -/
theorem native_thawed {L : Ledger} {a : Address} {st : TokenAccountState}
    (reachable : Reachable L) (held : L.account? a = some st)
    (native : st.base.isNativeAccount = true) : st.base.isFrozen = false := by
  have wf := wellFormed_reachable reachable
  have slot := Ledger.slot_of_account? held
  exact (wf.plain a _ slot ((wf.native a _ slot).mp native)).thawed

/-- **A frozen account stays as it is**, through every successful instruction but two: a thaw, with
the signature of the mint's freeze authority; and a close, of an account without tokens. An account
of wrapped lamports is never frozen. -/
theorem frozen_unchanged {L : Ledger} (reachable : Reachable L) :
    (∀ (i : Invocation) (outcome : Outcome) (a : Address) (st : TokenAccountState),
      i.run L = .ok outcome → L.account? a = some st → st.base.isFrozen = true →
      (∃ st', outcome.ledger.account? a = some st' ∧ st'.base = st.base ∧
        st'.availableBalance = st.availableBalance ∧ st'.pendingBalance = st.pendingBalance) ∨
      (i.instruction = .thawAccount ∧ i.key? 0 = some a ∧
        ∃ mint key, L.mint? st.base.mint = some mint ∧ mint.base.freezeAuthority = some key ∧
          outcome.validated = [key]) ∨
      (i.instruction = .closeAccount ∧ i.key? 0 = some a ∧ st.base.amount = 0 ∧
        TokenAccountState.closable st = .ok ())) ∧
    ∀ (a : Address) (st : TokenAccountState), L.account? a = some st →
      st.base.isNativeAccount = true → st.base.isFrozen = false :=
  ⟨fun _ _ _ _ ok held frozen => frozen_step reachable ok held frozen,
    fun _ _ held native => native_thawed reachable held native⟩

/-- One account is frozen, then the other. -/
theorem frozen_unchanged_twice : ∃ L outcome st, Reachable L ∧
    (Invocation.basic .freezeAccount [.plain Basic.destination, .plain Basic.mint,
      .signer Basic.owner]).run L = .ok outcome ∧
    L.account? Basic.source = some st ∧ st.base.isFrozen = true ∧
    ∃ st', outcome.ledger.account? Basic.source = some st' ∧ st'.base = st.base ∧
      st'.availableBalance = st.availableBalance ∧ st'.pendingBalance = st.pendingBalance := by
  have leads : LeadsTo (runAll .fresh (Basic.plainTurns ++ [.basic .freezeAccount
      [.plain Basic.source, .plain Basic.mint, .signer Basic.owner]])) fun L =>
      LeadsTo ((Invocation.basic .freezeAccount [.plain Basic.destination, .plain Basic.mint,
        .signer Basic.owner]).run L) fun _ =>
      (L.account? Basic.source).map (fun st => st.base.isFrozen) = some true := by decide +kernel
  obtain ⟨L, ran, leads⟩ := leads.exists
  obtain ⟨outcome, ok, before⟩ := leads.exists
  obtain ⟨st, held, frozen⟩ := Option.map_eq_some_iff.mp before
  have reachable : Reachable L := .of_runAll .fresh ran
  rcases (frozen_unchanged reachable).1 _ outcome _ st ok held frozen with
    same | ⟨thaw, -⟩ | ⟨close, -⟩
  · exact ⟨L, outcome, st, reachable, ok, held, frozen, same⟩
  · exact absurd thaw (by decide)
  · exact absurd close (by decide)

end Token2022
