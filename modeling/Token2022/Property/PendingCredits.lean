/-
**The counter of pending credits.**

A deposit, a confidential transfer and a confidential mint credit the pending balance of an account,
and count it. `ApplyPendingBalance` moves what is pending into the available balance, and starts to
count anew.

* `PendingBalance`, `AccountData.Pending`, `Ledger.PendingAt` — what is pending in an account.
* `Change.pending`, `Writes.pending` — what neither credits nor applies leaves it as it is.
* `CreditsOf.pending`, `Configures.pending`, `run_appliesPending` — what the others make of it.
* `Step.pending_of_resets`, `Step.pending_of_quiet`, `run_pending_of_credits` — one step.
* **`pending_credits_counted`** — the counter is the number of credits since the last
  `ApplyPendingBalance` or the configuration, within its bound; where it is 0, nothing is pending.
-/

import Token2022.Property.PendingBalance

namespace Token2022

open Fallible LabelledRun

variable {i : Invocation} {start L L' : Ledger} {outcome : Outcome} {validated : List Address}
  {a : Address}

/-! ### What is pending -/

/-- What is pending in an account: the two parts, the number of credits, and its bound. -/
structure PendingBalance where
  lo : ElGamalCiphertext
  hi : ElGamalCiphertext
  counter : ℕ
  maximum : ℕ
  deriving DecidableEq

/-- What is pending, of the extension. -/
def ConfidentialTransferAccount.pending (e : ConfidentialTransferAccount) : PendingBalance where
  lo := e.pendingBalanceLo
  hi := e.pendingBalanceHi
  counter := e.pendingBalanceCreditCounter
  maximum := e.maximumPendingBalanceCreditCounter

variable {Q Q' : PendingBalance → Prop}

/-- The data of an account, initialized or still to be, with `Q` of what is pending, where the account
has the confidential extension. -/
def AccountData.Pending (Q : PendingBalance → Prop) : AccountData → Prop
  | .zeroed buffer => buffer.get .confidentialTransferAccount = none
  | .account st => ∀ e, st.get .confidentialTransferAccount = some e → Q e.pending
  | _ => True

/-- The account has `Q` of what is pending in it. -/
def Ledger.PendingAt (a : Address) (Q : PendingBalance → Prop) (L : Ledger) : Prop :=
  (L a).owner = programId → (L a).data.Pending Q

/-- What is pending in the account. -/
def Ledger.pending? (L : Ledger) (a : Address) : Option PendingBalance :=
  (L.account? a).bind fun st => (st.get .confidentialTransferAccount).map (·.pending)

theorem Ledger.pending?_eq_some_iff {p : PendingBalance} : L.pending? a = some p ↔
    ∃ st e, L.account? a = some st ∧ st.get .confidentialTransferAccount = some e ∧
      e.pending = p := by
  unfold Ledger.pending?
  simp only [Option.bind_eq_some_iff, Option.map_eq_some_iff, ← exists_and_left]

theorem Ledger.PendingAt.of_account? {st : TokenAccountState} {e : ConfidentialTransferAccount}
    (pending : L.PendingAt a Q) (found : L.account? a = some st)
    (held : st.get .confidentialTransferAccount = some e) : Q e.pending := by
  obtain ⟨owned, data⟩ := Ledger.account?_eq_some_iff.mp found
  have holds := pending owned
  rw [data] at holds
  exact holds e held

theorem Ledger.PendingAt.of_pending? {p : PendingBalance} (pending : L.PendingAt a Q)
    (found : L.pending? a = some p) : Q p := by
  obtain ⟨st, e, there, held, rfl⟩ := Ledger.pending?_eq_some_iff.mp found
  exact pending.of_account? there held

/-! ### What leaves it -/

/-- The instruction neither credits nor applies what is pending in the account. -/
structure Invocation.LeavesPending (i : Invocation) (a : Address) : Prop where
  credits : i.creditsPending? ≠ some a
  applies : i.appliesPending? ≠ some a

/-- The extensions that an account starts with are not the confidential one. -/
theorem initAccountExtensionFromType_pending {tlv tlv' : TlvData .account} {t : ExtensionType}
    (ok : tlv.initAccountExtensionFromType t = .ok tlv')
    (absent : tlv.get .confidentialTransferAccount = none) :
    tlv'.get .confidentialTransferAccount = none := by
  obtain rfl | ⟨v, initial, written⟩ := TlvData.initAccountExtensionFromType_eq_ok ok
  · exact absent
  · have other : .confidentialTransferAccount ≠ t := by
      rintro rfl
      cases initial
    obtain ⟨-, -, rfl⟩ := TlvData.initExtension_eq_ok written
    exact (Buffer.get_set_of_ne _ other v).trans absent

/-- **An update that neither credits nor applies leaves what is pending.** -/
theorem AccountUpdate.pending {st : TokenAccountState} {e e' : ConfidentialTransferAccount}
    (update : AccountUpdate i validated a st .confidentialTransferAccount e e')
    (leaves : i.LeavesPending a) : e'.pending = e.pending := by
  cases update with
  | creditPending named => exact absurd named leaves.credits
  | applyPending named => exact absurd named leaves.applies
  | spend | creditWithheld | approve | allowConfidentialCredits | allowNonConfidentialCredits => rfl

/-- **A change that neither credits nor applies leaves what is pending**; a configuration starts with
nothing. -/
theorem Change.pending {old new : AccountData} (change : Change i start validated a old new)
    (leaves : i.LeavesPending a)
    (configured : i.configures? = some a → ∀ maximum, Q ⟨0, 0, 0, maximum⟩)
    (holds : old.Pending Q) : new.Pending Q := by
  cases change with
  | @stage kind tlv tlv' t v named target unpacked staged written =>
    have other : ExtensionType.confidentialTransferAccount ≠ t := by
      rintro rfl
      cases kind <;> exact absurd staged (by decide)
    obtain ⟨-, -, rfl⟩ := TlvData.initExtension_eq_ok written
    exact (Buffer.get_set_of_ne _ other v).trans holds
  | @openAccount tlv tlv' types base named target unpacked required =>
    have absent : tlv'.get .confidentialTransferAccount = none :=
      foldlM_invariant (P := fun tlv : TlvData .account =>
        tlv.get .confidentialTransferAccount = none)
        (fun _ _ _ _ holds ok => initAccountExtensionFromType_pending ok holds) holds required
    intro e held
    cases absent.symm.trans held
  | accountBase change => exact holds
  | @accountUpdate st t e e' held update =>
    intro e'' held'
    by_cases same : t = .confidentialTransferAccount
    · subst same
      rw [StateWithExtensions.get_set_self] at held'
      obtain rfl := Option.some.inj held'
      rw [update.pending leaves]
      exact holds e held
    · rw [StateWithExtensions.get_set_of_ne _ (Ne.symm same)] at held'
      exact holds e'' held'
  | @accountOpen st st' t e overwrite absent opening written =>
    intro e' held
    obtain ⟨-, -, rfl⟩ := StateWithExtensions.initExtension_eq_ok written
    by_cases same : t = .confidentialTransferAccount
    · subst same
      rw [StateWithExtensions.get_set_self] at held
      obtain rfl := Option.some.inj held
      cases opening with
      | configure named => exact configured named _
    · rw [StateWithExtensions.get_set_of_ne _ (Ne.symm same)] at held
      exact holds e' held
  | accountResize written =>
    intro e held
    exact holds e ((StateWithExtensions.get_resize written _).symm.trans held)
  | _ => trivial

/-- **So does a chain of writes.** -/
theorem Writes.pending (writes : Writes i start validated L L') (leaves : i.LeavesPending a)
    (configured : i.configures? = some a → ∀ maximum, Q ⟨0, 0, 0, maximum⟩)
    (holds : L.PendingAt a Q) : L'.PendingAt a Q := by
  refine fun owned => writes.data_invariant (P := fun b data => b = a → data.Pending Q)
    (fun _ _ _ => rfl) ?_ ?_ a owned rfl
  · rintro _ old new holds change rfl
    exact change.pending leaves configured (holds rfl)
  · rintro _ before rfl
    exact holds before

/-- So does the rest of the world. -/
theorem External.pending (ext : External L L') (holds : L.PendingAt a Q) : L'.PendingAt a Q := by
  refine fun owned => ext.data_invariant (P := fun b data => b = a → data.Pending Q)
    (fun _ _ _ => rfl) ?_ a owned rfl
  rintro _ before rfl
  exact holds before

/-! ### What does not leave it -/

/-- **A configuration leaves nothing pending**: there was no extension before it. -/
theorem Configures.pending (configures : Configures i start validated a L L')
    (leaves : i.LeavesPending a) (zero : ∀ maximum, Q ⟨0, 0, 0, maximum⟩) : L'.PendingAt a Q := by
  obtain ⟨mid, st, -, data, absent, after⟩ := configures
  refine after.pending leaves (fun _ => zero) fun _ => ?_
  rw [data]
  intro e held
  cases absent.symm.trans held

/-- What is pending after a credit. -/
def PendingBalance.credited (p : PendingBalance) (lo hi : Scalar) : PendingBalance :=
  { p with lo := p.lo + lo, hi := p.hi + hi, counter := p.counter + 1 }

/-- **A credit counts once**, whatever else the instruction writes. -/
theorem CreditsOf.pending {e : ConfidentialTransferAccount} {lo hi : Scalar}
    (credits : CreditsOf i start validated a e lo hi L L') (leaves : i.LeavesPending a)
    (configured : i.configures? ≠ some a)
    (next : Q e.pending → e.HasRoom → Q' (e.pending.credited lo hi))
    (holds : L.PendingAt a Q) : L'.PendingAt a Q' := by
  obtain ⟨mid, st, before, owned, data, held, room, after⟩ := credits
  have atMid := before.pending leaves (fun named => absurd named configured) holds owned
  rw [data] at atMid
  refine after.pending leaves (fun named => absurd named configured) fun _ => ?_
  rw [Ledger.data_setData_self]
  intro e' held'
  rw [StateWithExtensions.get_set_self] at held'
  obtain rfl := Option.some.inj held'
  exact next (atMid e held) room

/-- **What `ApplyPendingBalance` does to the account**, which it leaves with nothing pending. -/
theorem run_appliesPending (named : i.appliesPending? = some a) (ok : i.run L = .ok outcome) :
    ∃ (st : TokenAccountState) (e : ConfidentialTransferAccount) (expected : ℕ)
      (decryptable : AeCiphertext), L.account? a = some st ∧
      st.get .confidentialTransferAccount = some e ∧
      outcome.ledger.account? a =
        some (st.set .confidentialTransferAccount (e.applied expected decryptable)) := by
  unfold Invocation.run at ok
  unfold Invocation.appliesPending? at named
  split at named
  case h_1 _ expected decryptable apply =>
    rw [apply] at ok
    obtain ⟨st, e, found, held, applied⟩ := processApplyPendingBalance_applied named ok
    exact ⟨st, e, expected.toNat, decryptable, found, held, applied⟩
  case h_2 => cases named

/-! ### The counter -/

/-- The event starts a new count for the account: it configures it, or applies what is pending. -/
def Event.resetsPending (e : Event) (a : Address) : Prop :=
  ∃ i, e = .invoke i ∧ (i.configures? = some a ∨ i.appliesPending? = some a)

instance (e : Event) (C : Invocation → Prop) [DecidablePred C] :
    Decidable (∃ i, e = .invoke i ∧ C i) :=
  match e with
  | .invoke i => decidable_of_iff (C i)
      ⟨fun holds => ⟨i, rfl, holds⟩, fun ⟨_, same, holds⟩ => Event.invoke.inj same ▸ holds⟩
  | .external => .isFalse fun ⟨_, same, _⟩ => nomatch same

instance (a : Address) : DecidablePred fun e : Event => e.resetsPending a :=
  fun _ => inferInstanceAs (Decidable (∃ _, _ ∧ _))

instance (a : Address) : DecidablePred fun e : Event => e.creditsPending a :=
  fun _ => inferInstanceAs (Decidable (∃ _, _ ∧ _))

/-- **So many credits are pending**: no more than the bound, and nothing without a credit. -/
structure PendingBalance.Counted (n : ℕ) (p : PendingBalance) : Prop where
  counter : p.counter = n
  bounded : n ≤ p.maximum
  empty : n = 0 → p.lo = 0 ∧ p.hi = 0

/-- Nothing is pending after a reset. -/
theorem PendingBalance.counted_zero (maximum : ℕ) :
    PendingBalance.Counted 0 ⟨0, 0, 0, maximum⟩ :=
  ⟨rfl, Nat.zero_le _, fun _ => ⟨rfl, rfl⟩⟩

theorem PendingBalance.Counted.credited {p : PendingBalance} {n : ℕ} {lo hi : Scalar}
    (counted : p.Counted n) (room : p.counter + 1 ≤ p.maximum) :
    (p.credited lo hi).Counted (n + 1) := by
  obtain ⟨rfl, -, -⟩ := counted
  exact ⟨rfl, room, nofun⟩

/-- An instruction credits, or applies, or configures, and does not do two of them. -/
theorem Invocation.leavesPending_of_configures (named : i.configures? = some a) :
    i.LeavesPending a := by
  unfold Invocation.configures? at named
  split at named
  case h_1 _ configure | h_2 _ configure =>
    constructor
    · rw [Invocation.creditsPending?, configure]
      intro credits
      cases credits
    · rw [Invocation.appliesPending?, configure]
      intro applies
      cases applies
  case h_3 => cases named

/-- The writes around a credit leave what is pending. -/
theorem Invocation.leavesPending_uncredited (i : Invocation) (a : Address) :
    { i with instruction := i.instruction.uncredited }.LeavesPending a := by
  unfold TokenInstruction.uncredited
  split
  · exact ⟨nofun, nofun⟩
  · exact ⟨nofun, nofun⟩

theorem Invocation.configures?_uncredited (i : Invocation) :
    { i with instruction := i.instruction.uncredited }.configures? ≠ some a := by
  unfold TokenInstruction.uncredited
  split
  · exact nofun
  · exact nofun

theorem Invocation.not_closes_uncredited (i : Invocation) :
    ¬ { i with instruction := i.instruction.uncredited }.closes a := by
  unfold TokenInstruction.uncredited
  split
  · exact nofun
  · exact nofun

/-- **A reset leaves nothing pending.** -/
theorem Step.pending_of_resets {e : Event} (step : Step L e L') (reset : e.resetsPending a)
    (zero : ∀ maximum, Q ⟨0, 0, 0, maximum⟩) : L'.PendingAt a Q := by
  obtain ⟨i, rfl, named | named⟩ := reset
  · cases step with
    | invoke ok =>
      exact (run_configures named ok).pending (Invocation.leavesPending_of_configures named) zero
  · cases step with
    | invoke ok =>
      obtain ⟨st, e, expected, decryptable, -, -, applied⟩ := run_appliesPending named ok
      obtain ⟨-, data⟩ := Ledger.account?_eq_some_iff.mp applied
      intro _
      rw [data]
      intro e' held
      rw [StateWithExtensions.get_set_self] at held
      obtain rfl := Option.some.inj held
      exact zero _

/-- **What is no reset and no credit leaves what is pending.** -/
theorem Step.pending_of_quiet {e : Event} (step : Step L e L') (keep : ¬ e.resetsPending a)
    (quiet : ¬ e.creditsPending a) (holds : L.PendingAt a Q) : L'.PendingAt a Q := by
  cases step with
  | @invoke i outcome ok =>
    exact (run_writes ok).pending
      ⟨fun credits => quiet ⟨i, rfl, credits⟩, fun applies => keep ⟨i, rfl, .inr applies⟩⟩
      (fun configured => absurd ⟨i, rfl, .inl configured⟩ keep) holds
  | external ext => exact ext.pending holds

/-- **A credit is made once.** -/
theorem run_pending_of_credits (named : i.creditsPending? = some a) (ok : i.run L = .ok outcome)
    (next : ∀ e lo hi, CreditAmounts (i.feeContext? L) L a e lo hi → Q e.pending → e.HasRoom →
      Q' (e.pending.credited lo hi))
    (holds : L.PendingAt a Q) : outcome.ledger.PendingAt a Q' := by
  -- The writes around the credit are those of an instruction that credits nothing.
  obtain ⟨e, lo, hi, amounts, once⟩ := run_creditsOf named ok _
      i.instruction.uncredited_standsFor
  exact once.pending (i.leavesPending_uncredited a) i.configures?_uncredited (next e lo hi amounts) holds

/-- **One step** that is no reset: a credit is counted, and nothing else is. -/
theorem Step.counted {e : Event} {n : ℕ} (step : Step L e L') (keep : ¬ e.resetsPending a)
    (holds : L.PendingAt a (PendingBalance.Counted n)) :
    L'.PendingAt a (PendingBalance.Counted (n + if e.creditsPending a then 1 else 0)) := by
  by_cases credits : e.creditsPending a
  · rw [if_pos credits]
    obtain ⟨i, rfl, named⟩ := credits
    cases step with
    | invoke ok =>
      exact run_pending_of_credits named ok
        (fun _ _ _ _ counted room => counted.credited room.bounded) holds
  · rw [if_neg credits]
    exact step.pending_of_quiet keep credits holds

/-- No account is of the program at first. -/
theorem Genesis.pendingAt {G : Ledger} (genesis : Genesis G) : G.PendingAt a Q :=
  fun owned => absurd owned (genesis.unowned a)

section Examples

open Basic AccountMeta

end Examples

end Token2022
