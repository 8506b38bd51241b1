/-
**Delegation: an allowance is spent once.**

* `SlotStep.allowance` — what an instruction other than an approval does to an allowance.
* `DelegateDebits` — the steps between two approvals of an account, with what the delegate takes.
* `approve_sets`, `revoke_clears`, `setOwner_clears` — the instructions on the allowance itself.
* **`delegate_allowance`** — what the delegate took, and what is left, make up what was approved.
-/

import Token2022.Environment
import Token2022.Property.Reading

namespace Token2022

open Fallible LabelledRun

/-! ### At one account -/

/-- What an instruction with `arm` takes from an amount as the delegate's. -/
def delegateDebit (arm : Option DebitArm) (before after : ℕ) : ℕ :=
  if arm = some .delegate then before - after else 0

theorem delegateDebit_of_le {arm : Option DebitArm} {before after : ℕ} (le : before ≤ after) :
    delegateDebit arm before after = 0 := by
  unfold delegateDebit
  split
  · exact Nat.sub_eq_zero_of_le le
  · rfl

section AccountSteps

variable {i : Invocation} {B : Book} {a : Address} {v : List Address} {arm : Option DebitArm}
  {h h' : Holding} {l : ℕ}

/-- An approval of the account at `a`. -/
def Invocation.approves (i : Invocation) (a : Address) : Prop := ∃ D A, i.approval = some (a, D, A)

/-- **What an allowance goes through** between approvals: it goes down by what the delegate takes, or
it is cleared. -/
theorem SlotStep.allowance (step : SlotStep i B a v arm (.holding h) (.holding h') l)
    (other : ¬ i.approves a) :
    (h'.base.delegate = h.base.delegate ∧
      h'.base.delegatedAmount + delegateDebit arm h.base.amount h'.base.amount =
        h.base.delegatedAmount) ∨
    (h'.base.delegate = none ∧ h'.base.delegatedAmount = 0 ∧
      delegateDebit arm h.base.amount h'.base.amount ≤ h.base.delegatedAmount) := by
  cases step with
  | keep => exact .inl ⟨rfl, by rw [delegateDebit_of_le le_rfl, Nat.add_zero]⟩
  | adjust adjustment =>
    cases adjustment with
    | approve named => exact absurd ⟨_, _, named⟩ other
    | revoke => exact .inr ⟨rfl, rfl, Nat.zero_le _⟩
    | setOwner => exact .inr ⟨rfl, rfl, Nat.zero_le _⟩
    | _ => exact .inl ⟨rfl, rfl⟩
  | @debit _ base key arm n _ enough debit =>
    have taken : h.base.amount - (h.base.amount - n) = n := by omega
    cases debit with
    | permanentDelegate => exact .inl ⟨rfl, rfl⟩
    | owner => exact .inl ⟨rfl, rfl⟩
    | delegate named allowed =>
      show (((if h.base.delegatedAmount - n = 0 then none else h.base.delegate) = h.base.delegate ∧
          h.base.delegatedAmount - n + (h.base.amount - (h.base.amount - n)) =
            h.base.delegatedAmount) ∨
        ((if h.base.delegatedAmount - n = 0 then none else h.base.delegate) = none ∧
          h.base.delegatedAmount - n = 0 ∧
          h.base.amount - (h.base.amount - n) ≤ h.base.delegatedAmount))
      rw [taken]
      by_cases spent : h.base.delegatedAmount - n = 0
      · exact .inr ⟨if_pos spent, spent, allowed⟩
      · exact .inl ⟨if_neg spent, by omega⟩
  | @transferIn _ _ _ n =>
    have untaken : delegateDebit arm h.base.amount (h.base.amount + n) = 0 :=
      delegateDebit_of_le (Nat.le_add_right _ _)
    exact .inl ⟨rfl, (congrArg (h.base.delegatedAmount + ·) untaken).trans (Nat.add_zero _)⟩
  | collected collected =>
    rw [collected.base]
    exact .inl ⟨rfl, rfl⟩
  | spendEncrypted _ spends => exact .inl (by rw [spends.base]; exact ⟨rfl, rfl⟩)
  | receiveEncrypted _ receives => exact .inl (by rw [receives.base]; exact ⟨rfl, rfl⟩)
  | receiveEncryptedWithFee _ receives => exact .inl (by rw [receives.base]; exact ⟨rfl, rfl⟩)
  | exchangeEncrypted _ spends receives =>
    exact .inl (by rw [receives.base, spends.base]; exact ⟨rfl, rfl⟩)
  | _ => exact .inl ⟨rfl, rfl⟩

/-- **Without a delegate nothing is delegated.** -/
theorem SlotStep.undelegated (step : SlotStep i B a v arm (.holding h) (.holding h') l)
    (before : h.base.delegate = none → h.base.delegatedAmount = 0)
    (none : h'.base.delegate = none) : h'.base.delegatedAmount = 0 := by
  by_cases approves : i.approves a
  · cases step with
    | adjust adjustment =>
      cases adjustment with
      | approve => exact absurd none (by simp [Holding.withBase])
      | revoke => rfl
      | setOwner => rfl
      | _ => exact before none
    | debit _ debit =>
      cases debit with
      | delegate named =>
        have spent : (if h.base.delegatedAmount - _ = 0 then Option.none else h.base.delegate) =
            Option.none := none
        split at spent
        · assumption
        · exact absurd (named.symm.trans spent) (by simp)
      | _ => exact before none
    | collected collected =>
      rw [collected.base] at none ⊢
      exact before none
    | spendEncrypted _ spends =>
      rw [spends.base] at none ⊢
      exact before none
    | receiveEncrypted _ receives =>
      rw [receives.base] at none ⊢
      exact before none
    | receiveEncryptedWithFee _ receives =>
      rw [receives.base] at none ⊢
      exact before none
    | exchangeEncrypted _ spends receives =>
      rw [receives.base, spends.base] at none ⊢
      exact before none
    | _ => exact before none
  · rcases step.allowance approves with ⟨same, sum⟩ | ⟨-, zero, -⟩
    · have := before (same.symm.trans none)
      omega
    · exact zero

/-- **A new owner starts without a delegate**, and was not ruled out. -/
theorem SlotStep.owner_changed (step : SlotStep i B a v arm (.holding h) (.holding h') l)
    (changed : h'.base.owner ≠ h.base.owner) :
    h'.base.delegate = none ∧ h.immutableOwner = false := by
  cases step with
  | adjust adjustment =>
    cases adjustment with
    | setOwner _ mutable => exact ⟨rfl, mutable⟩
    | _ => exact absurd rfl changed
  | debit _ debit => exact absurd debit.kept.2.1 changed
  | collected collected =>
    rw [collected.base] at changed
    exact absurd rfl changed
  | spendEncrypted _ spends => exact absurd (by rw [spends.base]) changed
  | receiveEncrypted _ receives => exact absurd (by rw [receives.base]) changed
  | receiveEncryptedWithFee _ receives => exact absurd (by rw [receives.base]) changed
  | exchangeEncrypted _ spends receives => exact absurd (by rw [receives.base, spends.base]) changed
  | _ => exact absurd rfl changed

/-- **A spent allowance leaves no delegate.** -/
theorem SlotStep.allowance_spent (step : SlotStep i B a v arm (.holding h) (.holding h') l)
    (delegated : arm = some .delegate) (lower : h'.base.amount < h.base.amount)
    (spent : h'.base.delegatedAmount = 0) : h'.base.delegate = none := by
  cases step with
  | debit _ debit =>
    obtain rfl := Option.some.inj delegated
    cases debit with
    | delegate => exact if_pos spent
  | keep => exact absurd lower (lt_irrefl _)
  | transferIn => exact absurd lower (not_lt.mpr (Nat.le_add_right _ _))
  | _ => exact absurd delegated (by simp)

end AccountSteps

/-! ### The instructions on an allowance -/

/-- What a successful `process_approve` writes. -/
theorem processApprove_sets {env : Env} {L : Ledger} {accounts : List AccountMeta} {amount : ℕ}
    {decimals : Option ℕ} {outcome : Outcome}
    (ok : processApprove env L accounts amount decimals = .ok outcome) :
    ∃ source expectedMint delegate rest rest', accounts = source :: rest ∧
      nextMintInfo decimals rest = .ok (expectedMint, delegate :: rest') ∧
      ∃ st, outcome.ledger.account? source.key = some st ∧
        st.base.delegate = some delegate.key ∧ st.base.delegatedAmount = amount := by
  simp only [processApprove, bind_eq_ok_iff, Prod.exists, nextAccountInfo_eq_ok_iff,
    checkProgramAccount_eq_ok_iff, require_eq_ok_iff, exists_const] at ok
  obtain ⟨info, rest, shape, owned, expectedMint, rest', next, delegate, rest'', shape', owner,
    signers, -, source, -, -, _, -, _, -, -, ledger, stored, same⟩ := ok
  obtain rfl := Except.ok.inj same
  subst shape'
  obtain ⟨-, rfl⟩ := Ledger.writeData_eq_ok_iff.mp stored
  refine ⟨info, expectedMint, delegate, rest, rest'', shape, next,
    source.withBase { source.base with delegate := some delegate.key, delegatedAmount := amount },
    ?_, rfl, rfl⟩
  exact Ledger.account?_eq_some_iff.mpr
    ⟨by rw [Ledger.owner_setData, owned], Ledger.data_setData_self ..⟩

/-- **An approval sets the delegate and the allowance.** -/
theorem approve_sets {i : Invocation} {L : Ledger} {outcome : Outcome} {a D : Address} {A : ℕ}
    (ok : i.run L = .ok outcome) (named : i.approval = some (a, D, A)) :
    ∃ st, outcome.ledger.account? a = some st ∧ st.base.delegate = some D ∧
      st.base.delegatedAmount = A := by
  have ran : processInner i.env L i.accounts i.instruction = .ok outcome := ok
  cases instruction : i.instruction with
  | approve amount =>
    rw [instruction] at ran
    obtain ⟨source, expectedMint, delegate, rest, rest', shape, next, st, held, sets⟩ :=
      processApprove_sets ran
    have found := approval_named none instruction source expectedMint delegate rest rest' shape next
    obtain ⟨rfl, rfl, rfl⟩ : a = source.key ∧ D = delegate.key ∧ A = amount.toNat := by
      simpa using named.symm.trans found
    exact ⟨st, held, sets⟩
  | approveChecked amount decimals =>
    rw [instruction] at ran
    obtain ⟨source, expectedMint, delegate, rest, rest', shape, next, st, held, sets⟩ :=
      processApprove_sets ran
    have found := approval_named (some decimals) instruction source expectedMint delegate rest rest'
      shape next
    obtain ⟨rfl, rfl, rfl⟩ : a = source.key ∧ D = delegate.key ∧ A = amount.toNat := by
      simpa using named.symm.trans found
    exact ⟨st, held, sets⟩
  | _ => simp [Invocation.approval, instruction] at named

/-- **A revocation clears the delegate.** -/
theorem revoke_clears {i : Invocation} {L : Ledger} {outcome : Outcome} {a : Address}
    (ok : i.run L = .ok outcome) (named : i.instruction = .revoke) (target : i.key? 0 = some a) :
    ∃ st, outcome.ledger.account? a = some st ∧ st.base.delegate = none := by
  have ran : processInner i.env L i.accounts i.instruction = .ok outcome := ok
  rw [named] at ran
  have revoked : processRevoke L i.accounts = .ok outcome := ran
  simp only [processRevoke, bind_eq_ok_iff, Prod.exists, nextAccountInfo_eq_ok_iff,
    checkProgramAccount_eq_ok_iff, require_eq_ok_iff, exists_const] at revoked
  obtain ⟨info, _, shape, authority, signers, -, owned, source, -, -, _, -, ledger, stored, same⟩ :=
    revoked
  obtain rfl := Except.ok.inj same
  obtain ⟨-, rfl⟩ := Ledger.writeData_eq_ok_iff.mp stored
  obtain rfl : info.key = a := by
    rw [Invocation.key?, shape] at target
    exact Option.some.inj target
  exact ⟨_, Ledger.account?_eq_some_iff.mpr
    ⟨by rw [Ledger.owner_setData, owned], Ledger.data_setData_self ..⟩, rfl⟩

/-- **A change of owner clears the delegate**, also where the new owner is the old one. -/
theorem setOwner_clears {i : Invocation} {L : Ledger} {outcome : Outcome} {a : Address}
    {new : Option Address} {st : TokenAccountState} (ok : i.run L = .ok outcome)
    (named : i.instruction = .setAuthority .accountOwner new) (target : i.key? 0 = some a)
    (held : L.account? a = some st) :
    ∃ st', outcome.ledger.account? a = some st' ∧ st'.base.delegate = none := by
  have ran : processInner i.env L i.accounts i.instruction = .ok outcome := ok
  rw [named] at ran
  have changed : processSetAuthority i.env L i.accounts .accountOwner new = .ok outcome := ran
  simp only [processSetAuthority, bind_eq_ok_iff, Prod.exists, nextAccountInfo_eq_ok_iff,
    checkProgramAccount_eq_ok_iff, exists_const] at changed
  obtain ⟨info, _, shape, authority, signers, -, owned, changed⟩ := changed
  obtain rfl : info.key = a := by
    rw [Invocation.key?, shape] at target
    exact Option.some.inj target
  rw [unpackAccount_eq_ok_iff.mpr (Ledger.account?_eq_some_iff.mp held).2] at changed
  simp only [bind_eq_ok_iff, Prod.exists, setAccountAuthority, require_eq_ok_iff, exists_const,
    Except.ok.injEq, Prod.mk.injEq] at changed
  obtain ⟨base, key, ⟨-, _, -, -, -, -, owner, -, rfl, -⟩, ledger, stored, rfl⟩ := changed
  obtain ⟨-, rfl⟩ := Ledger.writeData_eq_ok_iff.mp stored
  exact ⟨_, Ledger.account?_eq_some_iff.mpr
    ⟨by rw [Ledger.owner_setData, owned], Ledger.data_setData_self ..⟩, rfl⟩

/-! ### Over runs -/

/-- No account has an allowance without a delegate. -/
def Book.NoneDelegated (B : Book) : Prop :=
  ∀ a h, B.slot a = .holding h → h.base.delegate = none → h.base.delegatedAmount = 0

theorem Book.NoneDelegated.kept : Kept (fun _ _ => True) Book.NoneDelegated where
  external holds ext a h held := holds a h (ext.holding_back held)
  guard := fun _ _ => trivial
  effect {i v arm B B'} _ holds effect a h' held' none := by
    rcases (held' ▸ effect.slotStep a).holding_origin with
      ⟨h, held⟩ | ⟨m, b, iss, base, -, -, opens, rfl, -⟩
    · exact (held ▸ held' ▸ effect.slotStep a).undelegated (holds a h held) none
    · exact opens.delegatedAmount

theorem noneDelegated_reachable {L : Ledger} (reachable : Reachable L) : L.book.NoneDelegated :=
  Book.NoneDelegated.kept.reachable
    (fun B blank a h held => by simp [blank.slot a] at held) reachable

/-- The amount of the account at `a`, zero where there is none. -/
def Ledger.amount (L : Ledger) (a : Address) : ℕ := (L.account? a).elim 0 fun st => st.base.amount

/-- **A step between two approvals** of the account at `a`, labelled with what it takes from the
account as the delegate's debit. A transfer to the account itself takes nothing. -/
inductive DelegateDebits (a : Address) (L : Ledger) : ℕ → Ledger → Prop
  | invoke {i : Invocation} {outcome : Outcome} (ok : i.run L = .ok outcome)
      (other : ¬ i.approves a) (stays : (outcome.ledger.account? a).isSome) :
      DelegateDebits a L (delegateDebit outcome.arm (L.amount a) (outcome.ledger.amount a))
        outcome.ledger
  | gone {i : Invocation} {outcome : Outcome} (ok : i.run L = .ok outcome)
      (other : ¬ i.approves a) (none : outcome.ledger.account? a = none) :
      DelegateDebits a L 0 outcome.ledger
  | external {L' : Ledger} (ext : External L L') : DelegateDebits a L 0 L'

/-- Every step that is no approval of the account is one of these. -/
theorem DelegateDebits.of_step {a : Address} {L L' : Ledger} {e : Event} (one : Step L e L')
    (other : ∀ i, e = .invoke i → ¬ i.approves a) : ∃ n, DelegateDebits a L n L' := by
  cases one with
  | external ext => exact ⟨0, .external ext⟩
  | @invoke i outcome ok =>
    cases held : outcome.ledger.account? a with
    | none => exact ⟨0, .gone ok (other i rfl) held⟩
    | some st => exact ⟨_, .invoke ok (other i rfl) (by rw [held]; rfl)⟩

theorem DelegateDebits.step {a : Address} {L L' : Ledger} {n : ℕ} (debits : DelegateDebits a L n L') :
    ∃ e, Step L e L' := by
  cases debits with
  | invoke ok => exact ⟨_, .invoke ok⟩
  | gone ok => exact ⟨_, .invoke ok⟩
  | external ext => exact ⟨_, .external ext⟩

/-- The allowance of `A` for `D`, of which `spent` is gone. -/
structure Allowance (a D : Address) (A : ℕ) (L : Ledger) (spent : ℕ) : Prop where
  reachable : Reachable L
  spent_le : spent ≤ A
  left : ∀ st, L.account? a = some st → st.base.delegate ≠ none →
    st.base.delegate = some D ∧ spent + st.base.delegatedAmount = A

/-- **A step keeps the account of the allowance.** -/
theorem Allowance.step {a D : Address} {A spent n : ℕ} {L L' : Ledger}
    (allowance : Allowance a D A L spent) (debits : DelegateDebits a L n L') :
    Allowance a D A L' (spent + n) := by
  have reachable' : Reachable L' := by
    obtain ⟨e, one⟩ := debits.step
    exact allowance.reachable.step one
  cases debits with
  | external ext =>
    refine ⟨reachable', allowance.spent_le, fun st held => ?_⟩
    obtain ⟨st₀, held₀, same⟩ := Ledger.slot_holding_iff.mp
      (ext.book.holding_back (Ledger.slot_of_account? held))
    rw [← StateWithExtensions.base_holding, ← same, StateWithExtensions.base_holding]
    exact allowance.left st₀ held₀
  | gone ok other none =>
    refine ⟨reachable', allowance.spent_le, fun st held => ?_⟩
    simp [none] at held
  | @invoke i outcome ok other stays =>
    obtain ⟨st', held'⟩ := Option.isSome_iff_exists.mp stays
    have after : outcome.ledger.amount a = st'.base.amount := by
      rw [Ledger.amount, held', Option.elim_some]
    cases held : L.account? a with
    | none =>
      -- The account is opened in this step: without a delegate, and nothing is taken.
      have before : L.amount a = 0 := by rw [Ledger.amount, held, Option.elim_none]
      rw [before, delegateDebit_of_le (Nat.zero_le _), Nat.add_zero]
      refine ⟨reachable', allowance.spent_le, fun st held₁ some => ?_⟩
      obtain rfl := Option.some.inj (held'.symm.trans held₁)
      obtain ⟨B, B', ext, effect, ext'⟩ := run_refines ok
      have slot' := ext'.holding_back (Ledger.slot_of_account? held')
      rcases (slot' ▸ effect.slotStep a).holding_origin with
        ⟨h, slot⟩ | ⟨m, b, iss, base, -, -, opens, same, -⟩
      · obtain ⟨st₀, held₀, -⟩ := Ledger.slot_holding_iff.mp (ext.holding_back slot)
        simp [held] at held₀
      · refine absurd ?_ some
        rw [← StateWithExtensions.base_holding, same]
        exact opens.delegate
    | some st =>
      have before : L.amount a = st.base.amount := by rw [Ledger.amount, held, Option.elim_some]
      rw [before, after]
      obtain ⟨B, ext, there, account⟩ := run_account ok held
      cases account with
      | closes gone => simp [gone] at held'
      | @stays st₁ l held₁ step =>
        obtain rfl := Option.some.inj (held₁.symm.trans held')
        have sum := step.allowance other
        simp only [StateWithExtensions.base_holding] at sum
        have left := allowance.left st held
        have noneDelegated := noneDelegated_reachable allowance.reachable a _
          (Ledger.slot_of_account? held)
        have spent_le := allowance.spent_le
        have bounded : spent + delegateDebit outcome.arm st.base.amount st₁.base.amount ≤ A := by
          by_cases none : st.base.delegate = none
          · have zero := noneDelegated none
            rw [StateWithExtensions.base_holding] at zero
            omega
          · obtain ⟨-, whole⟩ := left none
            omega
        refine ⟨reachable', bounded, fun st₂ held₂ some => ?_⟩
        obtain rfl := Option.some.inj (held₁.symm.trans held₂)
        rcases sum with ⟨same, sum⟩ | ⟨cleared, -, -⟩
        · obtain ⟨delegate, whole⟩ := left (same ▸ some)
          exact ⟨same.trans delegate, by omega⟩
        · exact absurd cleared some

/-- **The allowance of a delegate.** Without a delegate nothing is delegated. From an approval of `A`
for `D` on, until the next approval of the account: what was taken as the delegate's debits never
exceeds `A`, and makes up `A` with what is left, as long as there is a delegate, who is `D`. A debit
that spends the rest, a revocation and a change of owner leave no delegate. -/
theorem delegate_allowance {L : Ledger} (reachable : Reachable L) (a : Address) :
    (∀ st, L.account? a = some st → st.base.delegate = none → st.base.delegatedAmount = 0) ∧
    (∀ (i : Invocation) (outcome : Outcome) (D : Address) (A : ℕ) (debits : List ℕ) (L' : Ledger),
      i.run L = .ok outcome → i.approval = some (a, D, A) →
      Run (DelegateDebits a) outcome.ledger debits L' →
      debits.sum ≤ A ∧ ∀ st, L'.account? a = some st → st.base.delegate ≠ none →
        st.base.delegate = some D ∧ debits.sum = A - st.base.delegatedAmount ∧
          st.base.delegatedAmount ≤ A) ∧
    ∀ (i : Invocation) (outcome : Outcome) (st st' : TokenAccountState),
      i.run L = .ok outcome → L.account? a = some st → outcome.ledger.account? a = some st' →
      (outcome.arm = some .delegate → st'.base.amount < st.base.amount →
        st'.base.delegatedAmount = 0 → st'.base.delegate = none) ∧
      (i.instruction = .revoke → i.key? 0 = some a → st'.base.delegate = none) ∧
      (∀ new, i.instruction = .setAuthority .accountOwner new → i.key? 0 = some a →
        st'.base.delegate = none) ∧
      (st'.base.owner ≠ st.base.owner → st'.base.delegate = none) := by
  refine ⟨fun st held none => ?_, fun i outcome D A debits L' ok named run => ?_,
    fun i outcome st st' ok held held' => ⟨fun delegated lower spent => ?_,
      fun revoke target => ?_, fun new set target => ?_, fun changed => ?_⟩⟩
  · exact noneDelegated_reachable reachable a _ (Ledger.slot_of_account? held) none
  · obtain ⟨st, held, delegate, amount⟩ := approve_sets ok named
    have start : Allowance a D A outcome.ledger 0 := by
      refine ⟨reachable.step (.invoke ok), Nat.zero_le _, fun st₁ held₁ _ => ?_⟩
      obtain rfl := Option.some.inj (held.symm.trans held₁)
      exact ⟨delegate, by rw [amount, Nat.zero_add]⟩
    have kept := run.ghost_invariant (I := Allowance a D A) (f := fun spent n => spent + n)
      (fun _ _ _ _ allowance debits => allowance.step debits) start
    rw [← List.sum_eq_foldl] at kept
    refine ⟨kept.spent_le, fun st held some => ?_⟩
    obtain ⟨delegate, whole⟩ := kept.left st held some
    exact ⟨delegate, by omega, by omega⟩
  · obtain ⟨B, ext, there, account⟩ := run_account ok held
    cases account with
    | closes gone => simp [gone] at held'
    | stays held₁ step =>
      obtain rfl := Option.some.inj (held₁.symm.trans held')
      exact step.allowance_spent delegated lower spent
  · obtain ⟨st₁, held₁, none⟩ := revoke_clears ok revoke target
    obtain rfl := Option.some.inj (held₁.symm.trans held')
    exact none
  · obtain ⟨st₁, held₁, none⟩ := setOwner_clears ok set target held
    obtain rfl := Option.some.inj (held₁.symm.trans held')
    exact none
  · obtain ⟨B, ext, there, account⟩ := run_account ok held
    cases account with
    | closes gone => simp [gone] at held'
    | stays held₁ step =>
      obtain rfl := Option.some.inj (held₁.symm.trans held')
      exact (step.owner_changed changed).1

section Examples

open Basic AccountMeta

/-- The owner of the source approves 500 of its tokens. -/
def approval : Invocation := .basic (.approve 500) [plain source, plain other, signer owner]

/-- The delegate transfers 300 of them. -/
def delegateTransfer : Invocation :=
  .basic (.transfer 300) [plain source, plain destination, signer other]

theorem delegate_allowance_transfer : ∃ L st, Reachable L ∧ L.account? source = some st ∧
    st.base.delegatedAmount = 200 ∧ st.base.delegate = some other ∧
    [300].sum = 500 - st.base.delegatedAmount := by
  have leads : LeadsTo (runAll .fresh plainTurns) fun L => LeadsTo (approval.run L) fun approved =>
      LeadsTo (delegateTransfer.run approved.ledger) fun outcome =>
        delegateDebit outcome.arm (approved.ledger.amount source) (outcome.ledger.amount source) =
          300 ∧
        (outcome.ledger.account? source).map
          (fun st => (st.base.delegate, st.base.delegatedAmount)) = some (some other, 200) := by
    decide +kernel
  obtain ⟨L, ran, leads⟩ := leads.exists
  obtain ⟨approved, ok, leads⟩ := leads.exists
  obtain ⟨outcome, ok', taken, account⟩ := leads.exists
  obtain ⟨st, held, left⟩ := Option.map_eq_some_iff.mp account
  obtain ⟨delegate, amount⟩ := Prod.mk.inj left
  have reachable : Reachable L := .of_runAll .fresh ran
  have debits : DelegateDebits source approved.ledger 300 outcome.ledger :=
    taken ▸ .invoke ok' (by rintro ⟨D, A, named⟩; simp [delegateTransfer, Invocation.basic,
      Invocation.approval] at named) (by rw [held]; rfl)
  obtain ⟨-, all⟩ := (delegate_allowance reachable source).2.1 approval approved other 500 [300]
    outcome.ledger ok rfl (.single debits)
  obtain ⟨-, sum, -⟩ := all st held (by simp [delegate])
  exact ⟨outcome.ledger, st, (reachable.step (.invoke ok)).step (.invoke ok'), held, amount, delegate,
    sum⟩

end Examples

end Token2022
