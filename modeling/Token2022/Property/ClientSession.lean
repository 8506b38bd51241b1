/-
**The owner's client and the program, together.**

The program keeps an available balance that it cannot read, and next to it what the owner encrypted
for itself. Nothing in the program binds the two: each instruction that changes the one brings the
other along, as the client computed it from what it had read.

* `Ledger.confidential?` — the confidential extension of an account.
* `Invocation.ChangesAvailable` — the instructions that change either of the two.
* `Aside`, `Step.aside` — what everything else leaves.
* **`Session`** — the runs of the two: the client reads, and what it sends afterwards is computed from
  that; others take their steps at any time.
* **`decryptable_in_sync`** — in every state of a session, what the owner decrypts is the available
  balance, and what the client shows is there.
-/

import Token2022.Property.PendingCredits

namespace Token2022

open Fallible

variable {i : Invocation} {start L L' : Ledger} {outcome : Outcome} {validated : List Address}
  {a : Address} {aesKey : AeKey}

/-! ### The extension of an account -/

/-- The confidential extension of the account. -/
def Ledger.confidential? (L : Ledger) (a : Address) : Option ConfidentialTransferAccount :=
  (L.account? a).bind (·.get .confidentialTransferAccount)

theorem Ledger.confidential?_eq_some_iff {e : ConfidentialTransferAccount} :
    L.confidential? a = some e ↔
      ∃ st, L.account? a = some st ∧ st.get .confidentialTransferAccount = some e :=
  Option.bind_eq_some_iff

theorem Ledger.confidential?_eq_some_iff_data {e : ConfidentialTransferAccount} :
    L.confidential? a = some e ↔ (L a).owner = programId ∧ ∃ st, (L a).data = .account st ∧
      st.get .confidentialTransferAccount = some e := by
  simp only [Ledger.confidential?_eq_some_iff, Ledger.account?_eq_some_iff, and_assoc,
    exists_and_left]

/-! ### What changes the two balances -/

/-- **The invocation may change what is available to the account, or what its owner decrypts of it**:
it applies the pending balance, spends, withdraws withheld fees into the account, or closes it. -/
def Invocation.ChangesAvailable (i : Invocation) (a : Address) : Prop :=
  i.appliesPending? = some a ∨ (i.key? 0 = some a ∧ i.instruction.spendDecryptable?.isSome) ∨
    i.withdrawsEncryptedInto a ∨ i.closes a

/-- The event may change one of the two. -/
def Event.ChangesAvailable (e : Event) (a : Address) : Prop :=
  ∃ i, e = .invoke i ∧ i.ChangesAvailable a

instance (i : Invocation) (a : Address) : Decidable (i.ChangesAvailable a) :=
  inferInstanceAs (Decidable (_ ∨ _ ∧ _ ∨ _ ∨ _))

instance (e : Event) (a : Address) : Decidable (e.ChangesAvailable a) :=
  inferInstanceAs (Decidable (∃ _, _ ∧ _))

/-- **What everything else leaves of the extension that was read.** -/
structure Aside (read e : ConfidentialTransferAccount) : Prop extends Since read e where
  available : e.availableBalance = read.availableBalance
  decryptable : e.decryptableAvailableBalance = read.decryptableAvailableBalance

theorem Aside.refl (read : ConfidentialTransferAccount) : Aside read read :=
  ⟨.refl read, rfl, rfl⟩

/-- A credit more. -/
theorem Aside.credited {read e : ConfidentialTransferAccount} {lo hi : Scalar}
    (aside : Aside read e) : Aside read (e.credited lo hi) := by
  have more : read.pendingBalanceCreditCounter < (e.credited lo hi).pendingBalanceCreditCounter :=
    Nat.lt_succ_of_le aside.counter
  exact ⟨⟨more.le, fun same => absurd same more.ne'⟩, aside.available, aside.decryptable⟩

theorem Aside.update {st : TokenAccountState} {read e e' : ConfidentialTransferAccount}
    (keep : ¬ i.ChangesAvailable a)
    (other : ∀ amount decimals, i.instruction ≠ .transferChecked amount decimals)
    (aside : Aside read e)
    (update : AccountUpdate i validated a st .confidentialTransferAccount e e') :
    Aside read e' := by
  cases update with
  | creditPending => exact aside.credited
  | applyPending named => exact absurd (.inl named) keep
  | spend signed named =>
    obtain ⟨target, brings | ⟨amount, decimals, plain⟩⟩ := named
    · exact absurd (.inr (.inl ⟨target, Option.isSome_iff_exists.mpr ⟨_, brings⟩⟩)) keep
    · exact absurd plain (other amount decimals)
  | creditWithheld named => exact absurd (.inr (.inr (.inl named))) keep
  | approve | allowConfidentialCredits | allowNonConfidentialCredits =>
    exact ⟨⟨aside.counter, aside.pending⟩, aside.available, aside.decryptable⟩

/-- **A chain of writes.** -/
theorem Writes.aside {read : ConfidentialTransferAccount}
    (keep : ¬ i.ChangesAvailable a)
    (other : ∀ amount decimals, i.instruction ≠ .transferChecked amount decimals)
    (writes : Writes i start validated L L')
    (init : ∃ e, L.confidential? a = some e ∧ Aside read e) :
    ∃ e, L'.confidential? a = some e ∧ Aside read e := by
  obtain ⟨e, found, aside⟩ := init
  obtain ⟨owned, st, data, held⟩ := Ledger.confidential?_eq_some_iff_data.mp found
  obtain ⟨owned', st', e', data', held', aside'⟩ := writes.follow
    (fun closes => keep (.inr (.inr (.inr closes))))
    (fun _ _ holds change => change.carries (R := fun _ e => Aside read e)
      (fun _ _ _ aside _ => aside)
      (fun _ _ _ aside update => aside.update keep other update) holds)
    ⟨owned, st, e, data, held, aside⟩
  exact ⟨e', Ledger.confidential?_eq_some_iff_data.mpr ⟨owned', st', data', held'⟩, aside'⟩

/-- **The writes of an invocation, under a name that is not that of a plain transfer.** -/
theorem run_writes_renamed (keep : ¬ i.ChangesAvailable a) (ok : i.run L = .ok outcome) :
    ∃ i' : Invocation, ¬ i'.ChangesAvailable a ∧
      (∀ amount decimals, i'.instruction ≠ .transferChecked amount decimals) ∧
      Writes i' L outcome.validated L outcome.ledger := by
  by_cases plain : ∃ amount decimals, i.instruction = .transferChecked amount decimals
  · obtain ⟨amount, decimals, named⟩ := plain
    rw [Invocation.run, named] at ok
    -- A transfer that names its fee makes the same writes.
    let renamed : Invocation :=
      { i with instruction := .transferFeeExtension (.transferCheckedWithFee 0 0 0) }
    refine ⟨renamed, ?_, fun amount decimals same => (by cases same), ?_⟩
    · rintro (applies | ⟨-, spends⟩ | withdraws | ⟨closes, -⟩)
      · cases applies
      · cases spends
      · exact withdraws
      · cases closes
    · exact processTransfer_writes (i := renamed) rfl ok
  · exact ⟨i, keep, fun amount decimals named => plain ⟨amount, decimals, named⟩, run_writes ok⟩

/-- **A step that changes neither balance**, whoever takes it. -/
theorem Step.aside {event : Event} {read : ConfidentialTransferAccount} (step : Step L event L')
    (keep : ¬ event.ChangesAvailable a) (init : ∃ e, L.confidential? a = some e ∧ Aside read e) :
    ∃ e, L'.confidential? a = some e ∧ Aside read e := by
  cases step with
  | invoke ok =>
    obtain ⟨i', keep', other, writes⟩ :=
      run_writes_renamed (fun changes => keep ⟨_, rfl, changes⟩) ok
    exact writes.aside keep' other init
  | external ext =>
    obtain ⟨e, found, aside⟩ := init
    obtain ⟨owned, st, data, held⟩ := Ledger.confidential?_eq_some_iff_data.mp found
    obtain ⟨owned', data', -⟩ := ext.kept a owned
    exact ⟨e, Ledger.confidential?_eq_some_iff_data.mpr
      ⟨owned', st, data'.trans data, held⟩, aside⟩

/-! ### What the client sends -/

/-- What the client computes for an instruction that spends, from the account that it read. -/
def TokenInstruction.newDecryptable? (instruction : TokenInstruction)
    (read : ConfidentialTransferAccount) (amount : ℕ) (aesKey : AeKey) (nonce : ℕ) :
    Option (Except ClientFailure AeCiphertext) :=
  match instruction with
  | .confidentialTransferExtension (.withdraw ..) =>
    some (WithdrawAccountInfo.newDecryptableAvailableBalance (.new read) amount aesKey nonce)
  | .confidentialTransferExtension (.transfer ..)
  | .confidentialTransferExtension (.transferWithFee ..) =>
    some (TransferAccountInfo.newDecryptableAvailableBalance (.new read) amount aesKey nonce)
  | .confidentialMintBurnExtension (.burn _)
  | .permissionedBurnExtension (.confidentialBurn _) =>
    some (BurnAccountInfo.newDecryptableBalance (.new read) amount aesKey nonce)
  | _ => none

theorem TokenInstruction.newDecryptable?_eq_ok {instruction : TokenInstruction}
    {read : ConfidentialTransferAccount} {amount nonce : ℕ} {decryptable : AeCiphertext}
    (computed : instruction.newDecryptable? read amount aesKey nonce = some (.ok decryptable)) :
    ∃ current, aesKey.decrypt read.decryptableAvailableBalance = some current ∧
      amount ≤ current ∧ decryptable = aesKey.encrypt nonce (current - amount) := by
  unfold TokenInstruction.newDecryptable? at computed
  split at computed
  case h_6 => cases computed
  all_goals exact SpendAccountInfo.newDecryptable_eq_ok_iff.mp (Option.some.inj computed)

/-- **A session of the owner's client**, from the configuration of the account on, with what the
client has read and not yet used. It does not spend, apply or close but as it computes; withheld fees
are not withdrawn into the account; and an application that finds credits the client had not seen ends
the session. -/
inductive Session (aesKey : AeKey) (a : Address) :
    Ledger → Option ConfidentialTransferAccount → Prop
  | configure {L : Ledger} {i : Invocation} {outcome : Outcome} {nonce : ℕ} {maximum : UInt64}
      {offset : Int8}
      (named : i.instruction = .confidentialTransferExtension
        (.configureAccount (aesKey.encrypt nonce 0) maximum offset))
      (target : i.key? 0 = some a) (ok : i.run L = .ok outcome) :
      Session aesKey a outcome.ledger none
  | read {L : Ledger} {last : Option ConfidentialTransferAccount} {e : ConfidentialTransferAccount}
      (session : Session aesKey a L last) (found : L.confidential? a = some e) :
      Session aesKey a L (some e)
  /-- Anybody's step, the owner's other instructions among them. -/
  | aside {L L' : Ledger} {last : Option ConfidentialTransferAccount} {event : Event}
      (session : Session aesKey a L last) (step : Step L event L')
      (keep : ¬ event.ChangesAvailable a) : Session aesKey a L' last
  | spend {L : Ledger} {e : ConfidentialTransferAccount} {i : Invocation} {outcome : Outcome}
      {amount nonce : ℕ} {decryptable : AeCiphertext} (session : Session aesKey a L (some e))
      (brings : i.instruction.spendDecryptable? = some decryptable) (target : i.key? 0 = some a)
      (computed : i.instruction.newDecryptable? e amount aesKey nonce = some (.ok decryptable))
      (ok : i.run L = .ok outcome)
      (taken : ∀ before after, L.confidential? a = some before →
        outcome.ledger.confidential? a = some after →
        after.availableBalance + amount = before.availableBalance) :
      Session aesKey a outcome.ledger none
  | apply {L : Ledger} {e : ConfidentialTransferAccount} {i : Invocation} {outcome : Outcome}
      {expected : UInt64} {nonce : ℕ} {decryptable : AeCiphertext}
      (session : Session aesKey a L (some e))
      (named : i.instruction =
        .confidentialTransferExtension (.applyPendingBalance expected decryptable))
      (target : i.key? 0 = some a) (counter : e.pendingBalanceCreditCounter = expected.toNat)
      (computed : (ApplyPendingBalanceAccountInfo.new e).newDecryptableAvailableBalance aesKey nonce =
        .ok decryptable)
      (ok : i.run L = .ok outcome)
      (agree : ∀ after, outcome.ledger.confidential? a = some after → after.CountersAgree) :
      Session aesKey a outcome.ledger none

/-! ### In sync -/

/-- **In sync**: the owner decrypts the available balance, of 64 bits. -/
structure ConfidentialTransferAccount.InSync (e : ConfidentialTransferAccount) (aesKey : AeKey) :
    Prop where
  consistent : e.Consistent aesKey
  small : e.availableBalance.val < 2 ^ 64

namespace ConfidentialTransferAccount

variable {e e' : ConfidentialTransferAccount}

/-- Another extension with the same two balances. -/
theorem InSync.of_same (inSync : e.InSync aesKey) (available : e'.availableBalance = e.availableBalance)
    (decryptable : e'.decryptableAvailableBalance = e.decryptableAvailableBalance) :
    e'.InSync aesKey := by
  obtain ⟨consistent, small⟩ := inSync
  constructor
  · rw [Consistent, decryptable, available]
    exact consistent
  · rw [available]
    exact small

/-- **A balance that the owner encrypted.** -/
theorem InSync.of_encrypt {amount nonce : ℕ} (small : amount < 2 ^ 64)
    (available : e.availableBalance = (amount : Scalar))
    (decryptable : e.decryptableAvailableBalance = aesKey.encrypt nonce amount) :
    e.InSync aesKey := by
  have value : e.availableBalance.val = amount := by
    rw [available]
    exact val_natCast_of_lt (small.trans u64_lt_groupOrder)
  constructor
  · rw [Consistent, decryptable, value]
    exact aesKey.decrypt_encrypt small
  · rw [value]
    exact small

/-- **What is left of a spend.** -/
theorem InSync.spent {amount nonce : ℕ} {decryptable : AeCiphertext} (inSync : e.InSync aesKey)
    (computed : ∃ current, aesKey.decrypt e.decryptableAvailableBalance = some current ∧
      amount ≤ current ∧ decryptable = aesKey.encrypt nonce (current - amount))
    (taken : e'.availableBalance + amount = e.availableBalance)
    (brought : e'.decryptableAvailableBalance = decryptable) : e'.InSync aesKey := by
  obtain ⟨current, decrypted, enough, rfl⟩ := computed
  obtain rfl := Option.some.inj (inSync.consistent.symm.trans decrypted)
  refine .of_encrypt ((Nat.sub_le _ _).trans_lt inSync.small) ?_ brought
  rw [Nat.cast_sub enough, ZMod.natCast_zmod_val, ← taken, add_sub_cancel_right]

/-- **What is there once the pending balance is applied.** -/
theorem InSync.applied {expected nonce : ℕ} {decryptable : AeCiphertext} (inSync : e.InSync aesKey)
    (computed : (ApplyPendingBalanceAccountInfo.new e).newDecryptableAvailableBalance aesKey nonce =
      .ok decryptable) : (e.applied expected decryptable).InSync aesKey := by
  obtain ⟨-, -, current, decrypted, small, rfl⟩ :=
    ApplyPendingBalanceAccountInfo.newDecryptableAvailableBalance_eq_ok_iff.mp computed
  obtain rfl := Option.some.inj (inSync.consistent.symm.trans decrypted)
  refine .of_encrypt small ?_ rfl
  simp only [ConfidentialTransferAccount.applied, pendingTotal, ApplyPendingBalanceAccountInfo.new]
  push_cast
  simp only [ZMod.natCast_zmod_val]
  ring

/-- **What the client shows of an account in sync.** -/
theorem InSync.shown (inSync : e.InSync aesKey) :
    (ApplyPendingBalanceAccountInfo.new e).getAvailableBalance aesKey =
      .ok e.availableBalance.val := by
  unfold ApplyPendingBalanceAccountInfo.getAvailableBalance
  rw [okOr_eq_ok_iff]
  exact inSync.consistent

theorem InSync.total {total : ℕ} (inSync : e.InSync aesKey)
    (shown : (ApplyPendingBalanceAccountInfo.new e).getTotalBalance aesKey = .ok total) :
    total = (e.availableBalance + pendingTotal e.pendingBalanceLo e.pendingBalanceHi).val := by
  simp only [ApplyPendingBalanceAccountInfo.getTotalBalance, bind_eq_ok_iff, okOr_eq_ok_iff,
    checkedAdd_eq_some_iff] at shown
  obtain ⟨pending, parts, available, known, small, rfl⟩ := shown
  obtain rfl := Except.ok.inj (inSync.shown.symm.trans known)
  obtain ⟨-, -, rfl⟩ := ApplyPendingBalanceAccountInfo.getPendingBalance_eq_ok_iff.mp parts
  rw [← val_natCast_of_lt (small.trans u64_lt_groupOrder)]
  congr 1
  simp only [pendingTotal, ApplyPendingBalanceAccountInfo.new]
  push_cast
  simp only [ZMod.natCast_zmod_val]
  ring

end ConfidentialTransferAccount

/-! ### The steps of a session -/

/-- A new extension, with a balance of zero that the client encrypted. -/
theorem newConfidentialTransferAccount_inSync (approved : Bool) (elgamalPubkey : ElGamalPubkey)
    (nonce maximum : ℕ) :
    (newConfidentialTransferAccount approved elgamalPubkey (aesKey.encrypt nonce 0) maximum).InSync
      aesKey :=
  .of_encrypt (Nat.two_pow_pos 64) Nat.cast_zero.symm rfl

/-- The configuration opens such an extension. -/
theorem processConfigureAccount_inSync {nonce maximum : ℕ} {offset : ℤ}
    (target : i.key? 0 = some a)
    (ok : processConfigureAccount i.env L i.accounts (aesKey.encrypt nonce 0) maximum offset =
      .ok outcome) :
    ∃ e, outcome.ledger.confidential? a = some e ∧ e.InSync aesKey := by
  simp only [processConfigureAccount, configureAccount, bind_eq_ok_iff, Prod.exists,
    nextAccountInfo_eq_ok_iff, checkProgramAccount_eq_ok_iff, exists_const] at ok
  obtain ⟨info, _, shape, mintInfo, _, -, context, _, -, owned, _, -, _, -, _, _, -, _, -, ledger,
    ⟨account, -, -, mint, -, confidential, -, configured, first, final, second, stored⟩, same⟩ := ok
  obtain rfl := Except.ok.inj same
  obtain ⟨-, rfl⟩ := Ledger.writeData_eq_ok_iff.mp stored
  obtain rfl : info.key = a := Option.some.inj ((key?_zero shape).symm.trans target)
  obtain ⟨-, -, rfl⟩ := StateWithExtensions.initExtension_eq_ok first
  refine ⟨_, Ledger.confidential?_eq_some_iff_data.mpr ⟨(Ledger.owner_setData ..).trans owned, final,
    Ledger.data_setData_self .., ?_⟩, newConfidentialTransferAccount_inSync
      confidential.autoApproveNewAccounts context.pubkey nonce maximum⟩
  -- The extension for withheld fees, where there is one, is another.
  split at second
  · obtain ⟨-, -, rfl⟩ := StateWithExtensions.initExtension_eq_ok second
    rw [StateWithExtensions.get_set_of_ne _ (by decide), StateWithExtensions.get_set_self]
  · obtain rfl := Except.ok.inj second
    rw [StateWithExtensions.get_set_self]

/-- An instruction that spends does none of the other things. -/
theorem Invocation.only_spends {decryptable : AeCiphertext}
    (brings : i.instruction.spendDecryptable? = some decryptable) :
    i.appliesPending? = none ∧ ¬ i.withdrawsEncryptedInto a ∧ ¬ i.closes a ∧
      ∀ amount decimals, i.instruction ≠ .transferChecked amount decimals := by
  unfold TokenInstruction.spendDecryptable? at brings
  unfold Invocation.appliesPending? Invocation.withdrawsEncryptedInto Invocation.closes
  split at brings
  case h_6 => cases brings
  all_goals
    rename_i named
    simp [named]

/-- **What an instruction that spends writes**: it leaves both balances, or brings the one that the
client computed. -/
theorem run_spends {e : ConfidentialTransferAccount} {decryptable : AeCiphertext}
    (brings : i.instruction.spendDecryptable? = some decryptable) (ok : i.run L = .ok outcome)
    (found : L.confidential? a = some e) :
    ∃ e', outcome.ledger.confidential? a = some e' ∧
      ((e'.availableBalance = e.availableBalance ∧
        e'.decryptableAvailableBalance = e.decryptableAvailableBalance) ∨
        e'.decryptableAvailableBalance = decryptable) := by
  obtain ⟨applies, withdraws, closes, other⟩ := Invocation.only_spends (a := a) brings
  obtain ⟨owned, st, data, held⟩ := Ledger.confidential?_eq_some_iff_data.mp found
  have carried := (run_writes ok).follow closes (fun _ _ holds change => change.carries
    (R := fun _ e' => (e'.availableBalance = e.availableBalance ∧
        e'.decryptableAvailableBalance = e.decryptableAvailableBalance) ∨
        e'.decryptableAvailableBalance = decryptable)
    (fun _ _ _ holds _ => holds)
    (fun _ _ _ holds update => by
      cases update with
      | spend _ named =>
        obtain ⟨-, brought | ⟨amount, decimals, plain⟩⟩ := named
        · exact .inr (Option.some.inj (brought.symm.trans brings))
        · exact absurd plain (other amount decimals)
      | applyPending named => cases applies.symm.trans named
      | creditWithheld named => exact absurd named withdraws
      | creditPending | approve | allowConfidentialCredits | allowNonConfidentialCredits =>
        exact holds) holds) ⟨owned, st, e, data, held, .inl ⟨rfl, rfl⟩⟩
  obtain ⟨owned', st', e', data', held', holds⟩ := carried
  exact ⟨e', Ledger.confidential?_eq_some_iff_data.mpr ⟨owned', st', data', held'⟩, holds⟩

/-- **Every state of a session is in sync**, and what was read is the extension but for credits. -/
theorem Session.inSync {last : Option ConfidentialTransferAccount}
    (session : Session aesKey a L last) :
    ∃ e, L.confidential? a = some e ∧ e.InSync aesKey ∧ ∀ read ∈ last, Aside read e := by
  induction session with
  | configure named target ok =>
    rw [Invocation.run, named] at ok
    obtain ⟨e, found, inSync⟩ := processConfigureAccount_inSync target ok
    exact ⟨e, found, inSync, fun read member => absurd member (Option.not_mem_none read)⟩
  | @read L last e session found ih =>
    obtain ⟨e', found', inSync, -⟩ := ih
    obtain rfl := Option.some.inj (found.symm.trans found')
    refine ⟨e, found, inSync, ?_⟩
    rintro read same
    obtain rfl := Option.some.inj same
    exact .refl e
  | @aside L L' last event session step keep ih =>
    obtain ⟨e, found, inSync, since⟩ := ih
    obtain ⟨e', found', aside⟩ := step.aside keep ⟨e, found, .refl e⟩
    refine ⟨e', found', inSync.of_same aside.available aside.decryptable, fun read member => ?_⟩
    obtain ⟨e'', found'', later⟩ := step.aside keep ⟨e, found, since read member⟩
    obtain rfl := Option.some.inj (found'.symm.trans found'')
    exact later
  | @spend L read i outcome amount nonce decryptable session brings target computed ok taken ih =>
    obtain ⟨e, found, inSync, since⟩ := ih
    have aside := since read rfl
    obtain ⟨e', found', left⟩ := run_spends brings ok found
    refine ⟨e', found', ?_, fun read member => absurd member (Option.not_mem_none read)⟩
    rcases left with ⟨available, kept⟩ | brought
    · exact inSync.of_same available kept
    · have computed' := TokenInstruction.newDecryptable?_eq_ok computed
      rw [← aside.decryptable] at computed'
      exact inSync.spent computed' (taken e e' found found') brought
  | @apply L read i outcome expected nonce decryptable session named target counter computed ok agree
      ih =>
    obtain ⟨e, found, inSync, since⟩ := ih
    have aside := since read rfl
    rw [Invocation.run, named] at ok
    obtain ⟨st, e', found', held', applied⟩ := processApplyPendingBalance_applied target ok
    have same : L.confidential? a = some e' :=
      Ledger.confidential?_eq_some_iff.mpr ⟨st, found', held'⟩
    obtain rfl := Option.some.inj (found.symm.trans same)
    have after : outcome.ledger.confidential? a = some (e.applied expected.toNat decryptable) :=
      Ledger.confidential?_eq_some_iff.mpr ⟨_, applied, StateWithExtensions.get_set_self ..⟩
    refine ⟨_, after, ?_, fun read member => absurd member (Option.not_mem_none read)⟩
    -- The counters agree: what the client had read is what it applied.
    have counted : e.pendingBalanceCreditCounter = expected.toNat := agree _ after
    obtain ⟨lo, hi⟩ := aside.pending (counted.trans counter.symm)
    have info : ApplyPendingBalanceAccountInfo.new read = ApplyPendingBalanceAccountInfo.new e := by
      simp only [ApplyPendingBalanceAccountInfo.new, lo, hi, aside.decryptable, counter, counted]
    rw [info] at computed
    exact inSync.applied computed

/-- A run of such steps. -/
theorem Session.asides {last : Option ConfidentialTransferAccount} {events : List Event}
    (session : Session aesKey a L last) (run : Runs L events L')
    (keep : ∀ event ∈ events, ¬ event.ChangesAvailable a) : Session aesKey a L' last := by
  induction run with
  | start => exact session
  | @step events event _ _ _ one ih =>
    have earlier := ih fun event member => keep event (by simp [member])
    exact earlier.aside one (keep event (by simp))

/-- **A withdrawal takes its amount.** -/
theorem processWithdraw_takes {amount decimals : ℕ} {decryptable : AeCiphertext}
    {equality range : ℤ} (target : i.key? 0 = some a)
    (ok : processWithdraw i.env L i.accounts amount decimals decryptable equality range = .ok outcome) :
    ∃ before after, L.confidential? a = some before ∧
      outcome.ledger.confidential? a = some after ∧
      after.availableBalance + amount = before.availableBalance := by
  simp only [processWithdraw, bind_eq_ok_iff, Prod.exists, nextAccountInfo_eq_ok_iff] at ok
  obtain ⟨info, _, shape, mintInfo, _, -, context, _, -, _, _, -, _, -, mint, -, _, -, _, -, _, -, account,
    exchanged, e, held, _, -, _, -, remaining, paid, _, -, _, -, ledger, stored, same⟩ := ok
  obtain rfl := Except.ok.inj same
  obtain ⟨owned, data, -⟩ := confidentialExchangeAccount_spec exchanged
  obtain ⟨-, rfl⟩ := Ledger.writeData_eq_ok_iff.mp stored
  obtain rfl : info.key = a := Option.some.inj ((key?_zero shape).symm.trans target)
  refine ⟨e, _, Ledger.confidential?_eq_some_iff_data.mpr
    ⟨owned, account, data, StateWithExtensions.getExtension_eq_ok_iff.mp held⟩,
    Ledger.confidential?_eq_some_iff_data.mpr ⟨(Ledger.owner_setData ..).trans owned, _,
      Ledger.data_setData_self .., StateWithExtensions.get_set_self ..⟩, ?_⟩
  split at paid
  · obtain rfl := Option.some.inj (okOr_eq_ok_iff.mp paid)
    exact sub_add_cancel _ _
  · rename_i nothing
    obtain rfl := Except.ok.inj paid
    obtain rfl : amount = 0 := by omega
    exact (congrArg (e.availableBalance + ·) Nat.cast_zero).trans (add_zero _)

/-- **A withdrawal as the client computes it** is a step of its session. -/
theorem Session.withdraw {e : ConfidentialTransferAccount} {amount : UInt64} {decimals : UInt8}
    {nonce : ℕ} {equality range : Int8} {decryptable : AeCiphertext}
    (session : Session aesKey a L (some e))
    (named : i.instruction = .confidentialTransferExtension
      (.withdraw amount decimals decryptable equality range)) (target : i.key? 0 = some a)
    (computed : WithdrawAccountInfo.newDecryptableAvailableBalance (.new e) amount.toNat aesKey nonce =
      .ok decryptable) (ok : i.run L = .ok outcome) : Session aesKey a outcome.ledger none := by
  refine session.spend (by rw [named]; rfl) target (by rw [named]; exact congrArg some computed) ok ?_
  intro before after found found'
  rw [Invocation.run, named] at ok
  obtain ⟨before', after', there, there', taken⟩ := processWithdraw_takes target ok
  obtain rfl := Option.some.inj (found.symm.trans there)
  obtain rfl := Option.some.inj (found'.symm.trans there')
  exact taken

section Examples

open Basic AccountMeta

/-- The configuration of the source. -/
def configureSource : Invocation :=
  .proven (.confidentialTransferExtension (.configureAccount (AeKey.basic.encrypt 0 0) 10 6))
    [plain source, plain mint, plain instructionsSysvarId, signer Basic.owner]

/-- The application of the deposit, as the client computes it. -/
def applyDeposit : Invocation :=
  .basic (.confidentialTransferExtension (.applyPendingBalance 1 (AeKey.basic.encrypt 0 100)))
    [plain source, signer Basic.owner]

/-- Tokens that are deposited, with an approval and a revocation in between; another account is
configured. -/
def depositingTurns : List Turn := [
  .invoke (.proven (.confidentialTransferExtension
      (.configureAccount (AeKey.basic.encrypt 0 0) 10 6))
    [plain destination, plain mint, plain instructionsSysvarId, signer other]),
  .basic (.mintTo 150) [plain mint, plain source, signer Basic.owner],
  .basic (.approve 10) [plain source, plain other, signer Basic.owner],
  .basic (.confidentialTransferExtension (.deposit 100 0))
    [plain source, plain mint, signer Basic.owner],
  .basic .revoke [plain source, signer Basic.owner]]

/-- What is left of the deposit. -/
def leftAmount : ℕ := 90

/-- What the client computes from two reads, and what is left in the end. -/
def SessionReads (first second last : Option ConfidentialTransferAccount) : Prop :=
  (∃ e ∈ first, ReadAs AeKey.basic 0 1 (AeKey.basic.encrypt 0 100) e) ∧
  (∃ e ∈ second, e.CountersAgree ∧ e.availableBalance = 100 ∧
    TransferAccountInfo.newDecryptableAvailableBalance (.new e) 10 AeKey.basic 0 =
      .ok (AeKey.basic.encrypt 0 leftAmount)) ∧
  ∃ e ∈ last, e.availableBalance = leftAmount

instance (first second last : Option ConfidentialTransferAccount) :
    Decidable (SessionReads first second last) :=
  inferInstanceAs (Decidable ((∃ _ ∈ first, _) ∧ (∃ _ ∈ second, _ ∧ _ ∧ _) ∧ ∃ _ ∈ last, _))

end Examples

end Token2022
