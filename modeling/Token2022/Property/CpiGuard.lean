/-
**The CPI guard: what a locked account is safe from in a call by another program.**

* `Invocation.NoSystemSigner` — the system program and the incinerator do not sign.
* `Book.LockedByOwners` — the guard is locked by owners who can sign.
* `SlotStep.while_locked`, `SlotStep.total_kept` — at one locked account.
* **`cpiGuard_protects`** — in every run in which the two do not sign.
-/

import Token2022.Environment
import Token2022.Property.Authorization

namespace Token2022

open Fallible LabelledRun

/-- The system program and the incinerator sign nothing. -/
def Invocation.NoSystemSigner (i : Invocation) : Prop :=
  ∀ s ∈ i.accounts, s.isSigner = true → s.key ≠ systemProgramId ∧ s.key ≠ incineratorId

/-! ### Who locks -/

/-- No locked account belongs to the system program or the incinerator. -/
def Book.LockedByOwners (B : Book) : Prop :=
  ∀ a h, B.slot a = .holding h → h.cpiLocked = true →
    h.base.owner ≠ systemProgramId ∧ h.base.owner ≠ incineratorId

section AccountSteps

variable {i : Invocation} {B : Book} {a : Address} {v : List Address} {arm : Option DebitArm}
  {h h' : Holding} {l : ℕ}

/-- A guard is locked by an owner who is vouched for, and the owner stays with the lock. -/
theorem SlotStep.locked (step : SlotStep i B a v arm (.holding h) (.holding h') l)
    (locked : h'.cpiLocked = true) :
    (h.cpiLocked = true ∧ h'.base.owner = h.base.owner) ∨ Vouched i B h'.base.owner := by
  cases step with
  | adjust adjustment =>
    cases adjustment with
    | setOwner _ _ unlocked =>
      have : h.cpiLocked = true := locked
      simp [unlocked] at this
    | lockCpi _ _ _ vouched => exact .inr vouched
    | _ => exact .inl ⟨locked, rfl⟩
  | debit _ debit => exact .inl ⟨locked, debit.kept.2.1⟩
  | collected collected =>
    exact .inl ⟨collected.cpiLocked.symm.trans locked, by rw [collected.base]⟩
  | spendEncrypted _ spends =>
    obtain ⟨e, _, -, -, -, rfl⟩ := spends.moved
    exact .inl ⟨locked, rfl⟩
  | receiveEncrypted _ receives =>
    obtain ⟨e, -, rfl⟩ := receives.moved
    exact .inl ⟨locked, rfl⟩
  | receiveEncryptedWithFee _ receives =>
    obtain ⟨e, w, -, -, rfl⟩ := receives.moved
    exact .inl ⟨locked, rfl⟩
  | exchangeEncrypted _ spends receives =>
    obtain ⟨e, _, -, -, -, rfl⟩ := spends.moved
    obtain ⟨e', -, rfl⟩ := receives.moved
    exact .inl ⟨locked, rfl⟩
  | _ => exact .inl ⟨locked, rfl⟩

end AccountSteps

theorem Book.LockedByOwners.kept :
    Kept (fun i _ => i.NoSystemSigner) fun B => B.WellFormed ∧ B.LockedByOwners where
  external holds ext :=
    ⟨holds.1.external ext, fun a h held => holds.2 a h (ext.holding_back held)⟩
  guard unsigned _ := unsigned
  effect {i v arm B B'} unsigned holds effect := by
    refine ⟨holds.1.effect effect, fun a h' held' locked => ?_⟩
    rcases (held' ▸ effect.slotStep a).holding_origin with
      ⟨h, held⟩ | ⟨m, b, iss, base, vacant, -, -, rfl, -⟩
    · rcases (held ▸ held' ▸ effect.slotStep a).locked locked with ⟨before, same⟩ | vouched
      · rw [same]
        exact holds.2 a h held before
      · -- Nothing of the two can sign for them, so that they would have signed.
        have signs : ∀ key, key = systemProgramId ∨ key = incineratorId → Vouched i B key → False := by
          intro key named vouched
          have foreign : B.slot key = .foreign := by
            rcases named with rfl | rfl
            · exact holds.1.system
            · exact holds.1.incinerator
          obtain ⟨s, member, rfl, signed⟩ := vouched named foreign holds.1.legacy
          rcases named with system | incinerator
          · exact (unsigned s member signed).1 system
          · exact (unsigned s member signed).2 incinerator
        exact ⟨fun system => signs _ (.inl system) vouched,
          fun incinerator => signs _ (.inr incinerator) vouched⟩
    · rw [(holds.1.fresh a b vacant).openHolding] at locked
      exact absurd locked Bool.false_ne_true

/-! ### What a locked account is safe from -/

/-- The tokens that a holder can spend, now or after applying what is pending. -/
theorem Holding.funds_of_value {h h' : Holding} (value : h.value ≤ h'.value)
    (fees : h'.fees ≤ h.fees) : h.funds ≤ h'.funds := by
  unfold Holding.value at value
  omega

section AccountSteps

variable {i : Invocation} {B : Book} {a : Address} {v : List Address} {arm : Option DebitArm}
  {h h' : Holding} {l : ℕ}

/-- **What a call by another program cannot do to a locked account.** -/
theorem SlotStep.while_locked (step : SlotStep i B a v arm (.holding h) (.holding h') l)
    (locked : h.cpiLocked = true) (inCpi : i.env.inCpi = true) :
    h'.base.owner = h.base.owner ∧ h'.cpiLocked = true ∧
      (∀ d, h'.base.delegate = some d → h.base.delegate = some d) ∧
      (∀ c, h'.base.closeAuthority = some c → h.base.closeAuthority = some c) := by
  have guarded : h.cpiLocked = true ∧ i.env.inCpi = true := ⟨locked, inCpi⟩
  have notUnlocked : h.cpiLocked ≠ false := by simp [locked]
  cases step with
  | adjust adjustment =>
    cases adjustment with
    | approve _ _ unguarded => exact absurd guarded unguarded
    | revoke => exact ⟨rfl, locked, fun d named => by simp [Holding.withBase] at named, fun _ => id⟩
    | setOwner _ _ unlocked => exact absurd unlocked notUnlocked
    | @setCloseAuthority new _ unguarded =>
      refine ⟨rfl, locked, fun _ => id, fun c named => absurd ?_ unguarded⟩
      obtain rfl : new = some c := named
      exact ⟨locked, inCpi, rfl⟩
    | lockCpi outside => simp [inCpi] at outside
    | configure => exact ⟨rfl, locked, fun _ => id, fun _ => id⟩
    | applyPending => exact ⟨rfl, locked, fun _ => id, fun _ => id⟩
  | @debit _ base key arm n _ _ debit =>
    cases debit with
    | delegate named =>
      refine ⟨rfl, locked, fun d left => ?_, fun _ => id⟩
      have left : (if h.base.delegatedAmount - n = 0 then none else h.base.delegate) = some d := left
      split at left
      · exact absurd left (by simp)
      · exact left
    | _ => exact ⟨rfl, locked, fun _ => id, fun _ => id⟩
  | collected collected =>
    rw [collected.base, collected.cpiLocked]
    exact ⟨rfl, locked, fun _ => id, fun _ => id⟩
  | spendEncrypted _ spends => exact absurd guarded spends.unguarded
  | receiveEncrypted _ receives =>
    obtain ⟨e, -, rfl⟩ := receives.moved
    exact ⟨rfl, locked, fun _ => id, fun _ => id⟩
  | receiveEncryptedWithFee _ receives =>
    obtain ⟨e, w, -, -, rfl⟩ := receives.moved
    exact ⟨rfl, locked, fun _ => id, fun _ => id⟩
  | exchangeEncrypted _ spends => exact absurd guarded spends.unguarded
  | _ => exact ⟨rfl, locked, fun _ => id, fun _ => id⟩

/-- **What the owner's signature cannot take from a locked account** in a call by another program. -/
theorem SlotStep.total_kept (step : SlotStep i B a v arm (.holding h) (.holding h') l)
    (wf : B.WellFormed) (solvent : ∀ m, m ≠ nativeMintId → Conserved m B)
    (held : B.slot a = .holding h) (locked : h.cpiLocked = true) (inCpi : i.env.inCpi = true)
    (signed : h.base.owner ∈ v) : h.funds ≤ h'.funds ∧ B.lamports a ≤ l := by
  have guarded : h.cpiLocked = true ∧ i.env.inCpi = true := ⟨locked, inCpi⟩
  -- An account with an encrypted balance is of a mint whose tokens are conserved.
  have conserved : ∀ {e}, h.encrypted = some e → Conserved h.base.mint B := by
    intro e encrypted
    refine solvent _ fun native => ?_
    simp [(wf.plain a h held native).encrypted] at encrypted
  have small : ∀ {e}, h.encrypted = some e → h.value < 2 ^ 64 := fun encrypted =>
    (conserved encrypted).value_lt le_rfl held rfl
  cases step with
  | keep more => exact ⟨le_rfl, more⟩
  | drain source =>
    obtain ⟨-, -, unguarded⟩ := source h rfl
    exact absurd guarded unguarded
  | adjust adjustment =>
    refine ⟨?_, le_rfl⟩
    cases adjustment with
    | configure fees _ _ absent =>
      unfold Holding.funds
      rw [Holding.balance_of_none absent, EncryptedBalance.value_zero]
      exact Nat.le_add_right _ _
    | applyPending _ encrypted =>
      exact Holding.funds_of_value (value_applyPending encrypted (small encrypted)).ge le_rfl
    | _ => exact le_rfl
  | toggleFreeze => exact ⟨le_rfl, le_rfl⟩
  | reserve => exact ⟨le_rfl, le_rfl⟩
  | syncNative => exact absurd signed List.not_mem_nil
  | debit _ _ unguarded =>
    exact absurd ⟨(List.mem_singleton.mp signed).symm, guarded⟩ unguarded
  | burnExempt => exact absurd signed List.not_mem_nil
  | transferIn _ _ _ _ more =>
    exact ⟨Nat.add_le_add_right (Nat.le_add_right _ _) _, more⟩
  | mintTo => exact ⟨Nat.add_le_add_right (Nat.le_add_right _ _) _, le_rfl⟩
  | collected collected along =>
    refine ⟨?_, le_rfl⟩
    have available := collected.available_le along wf solvent
    have pending : h'.balance.pending = h.balance.pending := by
      rcases collected.encrypted with same | ⟨e, n, there, credited⟩
      · unfold Holding.balance
        rw [same]
      · rw [Holding.balance_of_encrypted there, Holding.balance_of_encrypted credited]
        rfl
    have more := collected.more
    unfold Holding.funds EncryptedBalance.value
    rw [pending]
    omega
  | withdrawWithheld => exact ⟨Nat.add_le_add_right (Nat.le_add_right _ _) _, le_rfl⟩
  | deposit _ _ _ enough bounded encrypted =>
    exact ⟨Holding.funds_of_value
      (value_deposit encrypted enough bounded (small encrypted)).ge le_rfl, le_rfl⟩
  | withdraw _ _ _ fits encrypted moved bounded =>
    exact ⟨Holding.funds_of_value (value_withdraw encrypted moved bounded
      (lt_of_le_of_lt (Nat.le_add_left _ _) fits)).ge le_rfl, le_rfl⟩
  | spendEncrypted _ spends => exact absurd guarded spends.unguarded
  | receiveEncrypted _ receives =>
    obtain ⟨e, encrypted, rfl⟩ := receives.moved
    have value := receives.value (small encrypted)
    exact ⟨Holding.funds_of_value (by omega) le_rfl, le_rfl⟩
  | receiveEncryptedWithFee _ receives =>
    refine ⟨receives.funds_le ?_, le_rfl⟩
    obtain ⟨e, w, encrypted, -⟩ := receives.moved
    exact small encrypted
  | exchangeEncrypted _ spends => exact absurd guarded spends.unguarded
  | withdrawEncryptedWithheld _ issued fees _ encrypted =>
    refine ⟨?_, le_rfl⟩
    have sum := (conserved encrypted).val_available_add held issued encrypted fees
    unfold Holding.funds EncryptedBalance.value
    rw [Holding.balance_of_encrypted encrypted, Holding.balance_of_encrypted rfl, sum]
    simp only [EncryptedBalance.pending]
    omega

end AccountSteps

/-- **A close pays out all lamports of the account.** -/
theorem closeAccount_pays {i : Invocation} {L : Ledger} {outcome : Outcome} {a d : Address}
    (ok : i.run L = .ok outcome) (named : i.instruction = .closeAccount) (source : i.key? 0 = some a)
    (destination : i.key? 1 = some d) :
    (outcome.ledger d).lamports = (L d).lamports + (L a).lamports := by
  have ran : processInner i.env L i.accounts i.instruction = .ok outcome := ok
  rw [named] at ran
  have closed : processCloseAccount i.env L i.accounts = .ok outcome := ran
  simp only [processCloseAccount, bind_eq_ok_iff, Prod.exists, nextAccountInfo_eq_ok_iff,
    checkProgramAccount_eq_ok_iff, require_eq_ok_iff, exists_const, Except.ok.injEq] at closed
  obtain ⟨sourceInfo, rest, shape, destinationInfo, rest', shape', authority, signers, -, owned,
    distinct, validated, -, credited, paid, rfl⟩ := closed
  subst shape'
  obtain ⟨-, rfl⟩ := Ledger.credit_eq_ok_iff.mp paid
  obtain rfl : sourceInfo.key = a := by
    rw [Invocation.key?, shape] at source
    exact Option.some.inj source
  obtain rfl : destinationInfo.key = d := by
    rw [Invocation.key?, shape] at destination
    exact Option.some.inj destination
  simp [deleteAccount, Ledger.setLamports, Ne.symm distinct]

/-- **The CPI guard protects.** In every run in which the system program and the incinerator sign
nothing, an instruction that is called by another program leaves a locked account its owner and its
lock, sets it no delegate and no close authority, and takes neither lamports nor tokens from it by
the signature of its owner; or it closes the account, and pays its lamports to the owner. -/
theorem cpiGuard_protects {G L : Ledger} {events : List Event} {i : Invocation} {outcome : Outcome}
    {a : Address} {st : TokenAccountState} (genesis : Genesis G) (run : Runs G events L)
    (unsigned : ∀ j, .invoke j ∈ events → j.NoSystemSigner) (ok : i.run L = .ok outcome)
    (inCpi : i.env.inCpi = true) (held : L.account? a = some st) (locked : st.cpiLocked = true) :
    (∃ st', outcome.ledger.account? a = some st' ∧
      st'.base.owner = st.base.owner ∧ st'.cpiLocked = true ∧
      (∀ d, st'.base.delegate = some d → st.base.delegate = some d) ∧
      (∀ c, st'.base.closeAuthority = some c → st.base.closeAuthority = some c) ∧
      (st.base.owner ∈ outcome.validated →
        (L a).lamports ≤ (outcome.ledger a).lamports ∧
        st.base.amount + st.confidentialBalance ≤ st'.base.amount + st'.confidentialBalance)) ∨
    (outcome.ledger.account? a = none ∧ i.instruction = .closeAccount ∧ i.key? 0 = some a ∧
      i.key? 1 = some st.base.owner ∧
      (outcome.ledger st.base.owner).lamports = (L st.base.owner).lamports + (L a).lamports) := by
  have reachable : Reachable L := ⟨G, events, genesis, run⟩
  have lockedByOwners : L.book.LockedByOwners := by
    refine (run.invariant_of (I := fun L => L.book.WellFormed ∧ L.book.LockedByOwners)
      (C := fun e => ∀ j, e = .invoke j → j.NoSystemSigner) (fun e member j same => ?_)
      (fun s e t unsigned holds one => Book.LockedByOwners.kept.step holds unsigned one)
      ⟨.of_blank genesis.blank, fun b h slot => by simp [genesis.blank.slot b] at slot⟩).2
    exact unsigned j (same ▸ member)
  obtain ⟨B, ext, there, account⟩ := run_account ok held
  have wf : B.WellFormed := (wellFormed_reachable reachable).external ext
  have solvent : ∀ m, m ≠ nativeMintId → Conserved m B := fun m ne =>
    (conserved_reachable reachable ne).external ext
  have slot := Ledger.slot_of_account? held
  cases account with
  | @stays st' l held' step lamports =>
    obtain ⟨owner, stillLocked, delegate, closeAuthority⟩ := step.while_locked locked inCpi
    refine .inl ⟨st', held', owner, stillLocked, delegate, closeAuthority, fun signed => ?_⟩
    obtain ⟨funds, more⟩ := step.total_kept wf solvent there locked inCpi signed
    refine ⟨(ext.kept a (by simp [slot])).2.trans (more.trans lamports), ?_⟩
    rw [← StateWithExtensions.balance_holding, ← StateWithExtensions.balance_holding]
    exact funds
  | closes gone step =>
    obtain ⟨target, d, closes⟩ := step.closed
    obtain ⟨notSystem, notIncinerator⟩ := lockedByOwners a _ slot locked
    have authority := closes.authority
    have plain : st.holding.base.isOwnedBySystemProgramOrIncinerator = false := by
      unfold PodAccount.isOwnedBySystemProgramOrIncinerator
      simp only [StateWithExtensions.base_holding] at notSystem notIncinerator ⊢
      simp [notSystem, notIncinerator]
    rw [plain, if_neg Bool.false_ne_true] at authority
    have toOwner : d = st.base.owner := by
      by_contra elsewhere
      exact authority.2 ⟨locked, inCpi, elsewhere⟩
    subst toOwner
    exact .inr ⟨gone, closes.named, target, closes.target,
      closeAccount_pays ok closes.named target closes.target⟩

section Examples

open Basic AccountMeta

instance : DecidablePred Invocation.NoSystemSigner := fun i =>
  inferInstanceAs (Decidable (∀ s ∈ i.accounts, _ → _))

/-- A mint, and an account of it whose owner, who may mint too, locks it. -/
def guardedTurns : List Turn := [
  .allocate mint 82, .allocate source 171,
  .basic (.initializeMint2 0 owner none) [plain mint],
  .basic (.initializeAccount3 owner) [plain source, plain mint],
  .basic (.cpiGuardExtension .enable) [plain source, signer owner]]

/-- Another program has the owner mint into the account. -/
def mintInCpi : Invocation where
  env := { Env.basic with inCpi := true }
  accounts := [plain mint, plain source, signer owner]
  instruction := .mintTo 50

theorem cpiGuard_protects_mintInCpi : ∃ L outcome st, Runs .fresh (guardedTurns.map Turn.event) L ∧
    mintInCpi.run L = .ok outcome ∧ L.account? source = some st ∧
    ∃ st', outcome.ledger.account? source = some st' ∧
      st'.base.owner = st.base.owner ∧ st'.cpiLocked = true ∧
      (L source).lamports ≤ (outcome.ledger source).lamports ∧
      st.base.amount + st.confidentialBalance ≤ st'.base.amount + st'.confidentialBalance := by
  have leads : LeadsTo (runAll .fresh guardedTurns) fun L =>
      LeadsTo (mintInCpi.run L) fun outcome =>
        outcome.validated = [owner] ∧ (L.account? source).map
          (fun st => (st.base.owner, st.cpiLocked)) = some (owner, true) := by decide +kernel
  obtain ⟨L, ran, leads⟩ := leads.exists
  obtain ⟨outcome, ok, validated, account⟩ := leads.exists
  obtain ⟨st, held, guarded⟩ := Option.map_eq_some_iff.mp account
  obtain ⟨owned, locked⟩ := Prod.mk.inj guarded
  have all : ∀ turn ∈ guardedTurns, turn.Satisfies Invocation.NoSystemSigner := by decide
  rcases cpiGuard_protects .fresh (runs_of_runAll ran) (Turn.satisfies_events all) ok rfl held
    locked with ⟨st', held', owner', locked', -, -, kept⟩ | ⟨-, close, -⟩
  · exact ⟨L, outcome, st, runs_of_runAll ran, ok, held, st', held', owner', locked',
      kept (by rw [validated, owned]; exact List.mem_singleton_self _)⟩
  · exact absurd close (by decide)

end Examples

end Token2022
