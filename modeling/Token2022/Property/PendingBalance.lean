/-
**Applying a pending balance that has changed.**

The owner's client reads an account, computes from it what the decryptable balance is to be, and
sends the number of credits that it saw. Until its instruction runs, others may credit the account.

* `OthersStep` — a step that the owner does not sign; `Unsigned` — what such a step may write to the
  confidential extension.
* `AccountData.Holds`, `Writes.holds` — what is kept of the extension.
* `Since`, `OthersRuns.since` — what the account is, later, to what was read.
* **`stale_apply_detected`** — where no withheld fees are withdrawn into the account, and it is not
  closed, equal counters say that the decryptable balance is the available one.
* **`stale_apply_undetected`** — a withdrawal of withheld fees is not counted, and is not noticed.
-/

import Mathlib.Data.Fin.VecNotation
import Token2022.Confidential.Client
import Token2022.Environment
import Token2022.Writes.Program

namespace Token2022

open Fallible LabelledRun

/-! ### Steps of others -/

/-- **A step that the owner does not sign.** -/
inductive OthersStep (owner : Address) (L : Ledger) : Event → Ledger → Prop
  | invoke {i : Invocation} {outcome : Outcome} (ok : i.run L = .ok outcome)
      (unsigned : owner ∉ outcome.validated) : OthersStep owner L (.invoke i) outcome.ledger
  | external {L' : Ledger} (ext : External L L') : OthersStep owner L .external L'

/-- The runs of such steps. -/
abbrev OthersRuns (owner : Address) := Run (OthersStep owner)

/-- The event credits the pending balance of the account. -/
def Event.creditsPending (e : Event) (a : Address) : Prop :=
  ∃ i, e = .invoke i ∧ i.creditsPending? = some a

/-- The event withdraws withheld fees, in encrypted form, into the account. -/
def Event.withdrawsEncryptedInto (e : Event) (a : Address) : Prop :=
  ∃ i, e = .invoke i ∧ i.withdrawsEncryptedInto a

variable {i : Invocation} {start L L' : Ledger} {validated : List Address} {a owner : Address}

/-- **What is written to the confidential extension without the owner.** -/
inductive Unsigned (i : Invocation) (a : Address) :
    ConfidentialTransferAccount → ConfidentialTransferAccount → Prop
  | credit {e : ConfidentialTransferAccount} {lo hi : Scalar} : Unsigned i a e (e.credited lo hi)
  | withdrawWithheld {e : ConfidentialTransferAccount} {withheld : Scalar}
      {decryptable : AeCiphertext} (named : i.withdrawsEncryptedInto a) :
      Unsigned i a e { e with
        availableBalance := e.availableBalance + withheld
        decryptableAvailableBalance := decryptable }
  | approve {e : ConfidentialTransferAccount} : Unsigned i a e { e with approved := true }

theorem AccountUpdate.unsigned {st : TokenAccountState} {e e' : ConfidentialTransferAccount}
    (update : AccountUpdate i validated a st .confidentialTransferAccount e e')
    (unsigned : st.base.owner ∉ validated) : Unsigned i a e e' := by
  cases update with
  | creditPending => exact .credit
  | creditWithheld named => exact .withdrawWithheld named
  | approve => exact .approve
  | applyPending _ signed | spend signed | allowConfidentialCredits signed
  | allowNonConfidentialCredits signed => exact absurd signed unsigned

/-! ### What is kept of the extension -/

/-- The data are of an account of the owner, with `P` of its confidential extension. -/
def AccountData.Holds (owner : Address) (P : ConfidentialTransferAccount → Prop)
    (data : AccountData) : Prop :=
  ∃ (st : TokenAccountState) (e : ConfidentialTransferAccount), data = .account st ∧
    st.base.owner = owner ∧ st.get .confidentialTransferAccount = some e ∧ P e

namespace AccountData.Holds

variable {P Q : ConfidentialTransferAccount → Prop} {data : AccountData}

theorem mono (holds : data.Holds owner P) (weaker : ∀ e, P e → Q e) : data.Holds owner Q := by
  obtain ⟨st, e, same, owned, held, holds⟩ := holds
  exact ⟨st, e, same, owned, held, weaker e holds⟩

theorem and (first : data.Holds owner P) (second : data.Holds owner Q) :
    data.Holds owner fun e => P e ∧ Q e := by
  obtain ⟨st, e, same, owned, held, holds⟩ := first
  obtain ⟨st', e', same', -, held', holds'⟩ := second
  obtain rfl := AccountData.account.inj (same.symm.trans same')
  obtain rfl := Option.some.inj (held.symm.trans held')
  exact ⟨st, e, same, owned, held, holds, holds'⟩

instance [DecidablePred P] : Decidable (data.Holds owner P) :=
  decidable_of_iff
    ((match data with
      | .account st => st.base.owner = owner && (st.get .confidentialTransferAccount).any (P ·)
      | _ => false) = true)
    (by cases data <;> simp [AccountData.Holds, Option.any_eq_true])

end AccountData.Holds

/-- **A change of an account with a confidential extension**: what every write to its base state keeps,
and every update of the extension, is kept. -/
theorem Change.carries {R : PodAccount → ConfidentialTransferAccount → Prop} {old new : AccountData}
    (base : ∀ b b' e, R b e → AccountBaseChange validated b b' → R b' e)
    (update : ∀ (st : TokenAccountState) e e', R st.base e →
      AccountUpdate i validated a st .confidentialTransferAccount e e' → R st.base e')
    (holds : ∃ (st : TokenAccountState) (e : ConfidentialTransferAccount), old = .account st ∧
      st.get .confidentialTransferAccount = some e ∧ R st.base e)
    (change : Change i start validated a old new) :
    ∃ (st : TokenAccountState) (e : ConfidentialTransferAccount), new = .account st ∧
      st.get .confidentialTransferAccount = some e ∧ R st.base e := by
  obtain ⟨st, e, rfl, held, holds⟩ := holds
  cases change with
  | accountBase change => exact ⟨_, e, rfl, held, base _ _ _ holds change⟩
  | @accountUpdate _ t old new held' written =>
    by_cases same : t = .confidentialTransferAccount
    · subst same
      obtain rfl := Option.some.inj (held.symm.trans held')
      exact ⟨_, new, rfl, StateWithExtensions.get_set_self .., update st _ _ holds written⟩
    · have kept := StateWithExtensions.get_set_of_ne st (Ne.symm same) new
      exact ⟨_, e, rfl, kept.trans held, holds⟩
  | @accountOpen _ _ t _ _ absent opening written =>
    obtain ⟨-, -, rfl⟩ := StateWithExtensions.initExtension_eq_ok written
    have other : ExtensionType.confidentialTransferAccount ≠ t := by
      rintro rfl
      simp [held] at absent
    exact ⟨_, e, rfl, (StateWithExtensions.get_set_of_ne _ other _).trans held, holds⟩
  | accountResize written =>
    obtain ⟨kept, -, -⟩ := StateWithExtensions.resize_eq_ok written
    exact ⟨_, e, rfl, (StateWithExtensions.get_resize written _).trans held, kept ▸ holds⟩

variable {P : ConfidentialTransferAccount → Prop}

/-- **A change without the owner keeps what such writes keep.** -/
theorem Change.holds {old new : AccountData} (unsigned : owner ∉ validated)
    (keep : ∀ e e', P e → Unsigned i a e e' → P e') (holds : old.Holds owner P)
    (change : Change i start validated a old new) : new.Holds owner P := by
  obtain ⟨st, e, same, owned, held, holds⟩ := holds
  have carried := change.carries (R := fun base e => base.owner = owner ∧ P e)
    (fun base base' e holds change => by
      obtain ⟨rfl, holds⟩ := holds
      exact ⟨change.owner unsigned, holds⟩)
    (fun st e e' holds update => by
      obtain ⟨rfl, holds⟩ := holds
      exact ⟨rfl, keep _ _ holds (update.unsigned unsigned)⟩)
    ⟨st, e, same, held, owned, holds⟩
  obtain ⟨st', e', same', held', owned', holds'⟩ := carried
  exact ⟨st', e', same', owned', held', holds'⟩

/-- **So does a chain of writes** that does not close the account. -/
theorem Writes.holds (unsigned : owner ∉ validated) (stays : ¬ i.closes a)
    (keep : ∀ e e', P e → Unsigned i a e e' → P e') (writes : Writes i start validated L L')
    (init : (L a).owner = programId ∧ (L a).data.Holds owner P) :
    (L' a).owner = programId ∧ (L' a).data.Holds owner P :=
  writes.follow stays (fun _ _ holds change => change.holds unsigned keep holds) init

/-- **A credit is counted.** -/
theorem Credits.counted {counter : ℕ} (unsigned : owner ∉ validated) (stays : ¬ i.closes a)
    (credits : Credits i start validated a L L')
    (init : (L a).owner = programId ∧
      (L a).data.Holds owner fun e => counter ≤ e.pendingBalanceCreditCounter) :
    (L' a).owner = programId ∧
      (L' a).data.Holds owner fun e => counter < e.pendingBalanceCreditCounter := by
  obtain ⟨mid, st, e, lo, hi, before, owned, data, held, -, after⟩ := credits
  obtain ⟨-, st', e', data', owner', held', counted⟩ :=
    before.holds unsigned stays (fun e e' holds step => by
      cases step with
      | credit => exact holds.trans (Nat.le_succ _)
      | _ => exact holds) init
  obtain rfl := AccountData.account.inj (data.symm.trans data')
  obtain rfl := Option.some.inj (held.symm.trans held')
  refine after.holds unsigned stays (fun e e' holds step => ?_) ⟨?_, ?_⟩
  · cases step with
    | credit => exact holds.trans (Nat.lt_succ_self _)
    | _ => exact holds
  · rw [Ledger.owner_setData]
    exact owned
  · rw [Ledger.data_setData_self]
    exact ⟨_, _, rfl, owner', StateWithExtensions.get_set_self .., Nat.lt_succ_of_le counted⟩

/-! ### Since the account was read -/

/-- **What the extension is to the one that was read**: where the counter is the same, so is what is
pending. -/
structure Since (read e : ConfidentialTransferAccount) : Prop where
  counter : read.pendingBalanceCreditCounter ≤ e.pendingBalanceCreditCounter
  pending : e.pendingBalanceCreditCounter = read.pendingBalanceCreditCounter →
    e.pendingBalanceLo = read.pendingBalanceLo ∧ e.pendingBalanceHi = read.pendingBalanceHi

theorem Since.refl (read : ConfidentialTransferAccount) : Since read read :=
  ⟨le_rfl, fun _ => ⟨rfl, rfl⟩⟩

theorem Since.keep {read e e' : ConfidentialTransferAccount} (since : Since read e)
    (step : Unsigned i a e e') : Since read e' := by
  cases step with
  | @credit lo hi =>
    have more : read.pendingBalanceCreditCounter < (e.credited lo hi).pendingBalanceCreditCounter :=
      Nat.lt_succ_of_le since.counter
    exact ⟨more.le, fun same => absurd same more.ne'⟩
  | withdrawWithheld | approve => exact ⟨since.counter, since.pending⟩

/-- What the extension is to the one that was read, after the events. -/
structure SinceEvents (read : ConfidentialTransferAccount) (a : Address) (events : List Event)
    (e : ConfidentialTransferAccount) : Prop extends Since read e where
  available : (∀ event ∈ events, ¬ event.withdrawsEncryptedInto a) →
    e.availableBalance = read.availableBalance
  counted : (∃ event ∈ events, event.creditsPending a) →
    read.pendingBalanceCreditCounter < e.pendingBalanceCreditCounter

/-- **One step of the others.** -/
theorem OthersStep.since {read : ConfidentialTransferAccount} {events : List Event} {event : Event}
    (step : OthersStep owner L event L') (stays : ¬ event.closes a)
    (init : (L a).owner = programId ∧ (L a).data.Holds owner (SinceEvents read a events)) :
    (L' a).owner = programId ∧
      (L' a).data.Holds owner (SinceEvents read a (events ++ [event])) := by
  cases step with
  | @invoke i outcome ok unsigned =>
    have open' : ¬ i.closes a := fun closes => stays ⟨i, rfl, closes⟩
    -- All but the credit of this step is kept by every write.
    have kept := (run_writes ok).holds (P := fun e => Since read e ∧
        ((∀ event ∈ events ++ [.invoke i], ¬ event.withdrawsEncryptedInto a) →
          e.availableBalance = read.availableBalance) ∧
        ((∃ event ∈ events, event.creditsPending a) →
          read.pendingBalanceCreditCounter < e.pendingBalanceCreditCounter)) unsigned open'
      (fun e e' holds step => by
        obtain ⟨since, available, counted⟩ := holds
        refine ⟨since.keep step, fun none => ?_, fun some => ?_⟩
        · cases step with
          | withdrawWithheld named => exact absurd ⟨i, rfl, named⟩ (none (.invoke i) (by simp))
          | credit | approve => exact available none
        · cases step with
          | credit => exact (counted some).trans (Nat.lt_succ_self _)
          | withdrawWithheld | approve => exact counted some)
      ⟨init.1, init.2.mono fun e since => ⟨since.toSince,
        fun none => since.available fun event member => none event (by simp [member]),
        since.counted⟩⟩
    have credited : i.creditsPending? = some a → (outcome.ledger a).data.Holds owner
        fun e => read.pendingBalanceCreditCounter < e.pendingBalanceCreditCounter := fun named =>
      ((run_credits named ok).counted unsigned open'
        ⟨init.1, init.2.mono fun e since => since.counter⟩).2
    refine ⟨kept.1, ?_⟩
    by_cases credits : i.creditsPending? = some a
    · exact (kept.2.and (credited credits)).mono fun e holds =>
        ⟨holds.1.1, holds.1.2.1, fun _ => holds.2⟩
    · refine kept.2.mono fun e holds => ⟨holds.1, holds.2.1, ?_⟩
      rintro ⟨event, member, j, rfl, named⟩
      rcases List.mem_append.mp member with member | member
      · exact holds.2.2 ⟨_, member, j, rfl, named⟩
      · obtain rfl := Event.invoke.inj (List.mem_singleton.mp member)
        exact absurd named credits
  | external ext =>
    obtain ⟨owned, data, -⟩ := ext.kept a init.1
    rw [data]
    refine ⟨owned, init.2.mono fun e since => ⟨since.toSince, fun none => ?_, ?_⟩⟩
    · exact since.available fun event member => none event (by simp [member])
    · rintro ⟨event, member, j, rfl, named⟩
      rcases List.mem_append.mp member with member | member
      · exact since.counted ⟨_, member, j, rfl, named⟩
      · cases List.mem_singleton.mp member

/-- **A run of the others**, that does not close the account. -/
theorem OthersRuns.since {read : ConfidentialTransferAccount} {events : List Event}
    (run : OthersRuns owner L events L') (stays : ∀ event ∈ events, ¬ event.closes a)
    (init : (L a).owner = programId ∧ (L a).data.Holds owner (· = read)) :
    (L' a).owner = programId ∧ (L' a).data.Holds owner (SinceEvents read a events) := by
  induction run with
  | start =>
    refine ⟨init.1, init.2.mono ?_⟩
    rintro e rfl
    exact ⟨.refl e, fun _ => rfl, by rintro ⟨event, member, -⟩; cases member⟩
  | @step events event _ _ _ one ih =>
    exact one.since (stays event (by simp)) (ih fun event member => stays event (by simp [member]))

/-! ### The instruction of the owner -/

/-- The extension with the pending balance applied. -/
def ConfidentialTransferAccount.applied (e : ConfidentialTransferAccount) (expected : ℕ)
    (decryptable : AeCiphertext) : ConfidentialTransferAccount :=
  { e with
    availableBalance := e.availableBalance + pendingTotal e.pendingBalanceLo e.pendingBalanceHi
    actualPendingBalanceCreditCounter := e.pendingBalanceCreditCounter
    expectedPendingBalanceCreditCounter := expected
    decryptableAvailableBalance := decryptable
    pendingBalanceCreditCounter := 0
    pendingBalanceLo := 0
    pendingBalanceHi := 0 }

/-- **What `ApplyPendingBalance` does.** -/
theorem processApplyPendingBalance_applied {outcome : Outcome} {expected : ℕ}
    {decryptable : AeCiphertext} (first : i.key? 0 = some a)
    (ok : processApplyPendingBalance L i.accounts expected decryptable = .ok outcome) :
    ∃ (st : TokenAccountState) (e : ConfidentialTransferAccount), L.account? a = some st ∧
      st.get .confidentialTransferAccount = some e ∧
      outcome.ledger.account? a =
        some (st.set .confidentialTransferAccount (e.applied expected decryptable)) := by
  simp only [processApplyPendingBalance, updateConfidentialAccount, bind_eq_ok_iff, Prod.exists,
    nextAccountInfo_eq_ok_iff, checkProgramAccount_eq_ok_iff, unpackAccount_eq_ok_iff,
    exists_const] at ok
  obtain ⟨info, _, shape, _, _, -, owned, st, data, _, -, _, -, e, held, e', updated, ledger,
    stored, same⟩ := ok
  simp only [okOr_eq_ok_iff, CiphertextArithmetic.addWithLoHi, Option.some.injEq,
    Except.ok.injEq] at updated
  obtain ⟨_, rfl, rfl⟩ := updated
  obtain rfl := Except.ok.inj same
  obtain ⟨-, rfl⟩ := Ledger.writeData_eq_ok_iff.mp stored
  obtain rfl : info.key = a := Option.some.inj ((key?_zero shape).symm.trans first)
  refine ⟨st, e, Ledger.account?_eq_some_iff.mpr ⟨owned, data⟩,
    StateWithExtensions.getExtension_eq_ok_iff.mp held,
    Ledger.account?_eq_some_iff.mpr ⟨?_, Ledger.data_setData_self ..⟩⟩
  rw [Ledger.owner_setData]
  exact owned

/-! ### Staleness -/

namespace ConfidentialTransferAccount

/-- The decryptable balance is the available one. -/
def Consistent (e : ConfidentialTransferAccount) (aesKey : AeKey) : Prop :=
  aesKey.decrypt e.decryptableAvailableBalance = some e.availableBalance.val

/-- The owner finds no credit that it has missed. -/
def CountersAgree (e : ConfidentialTransferAccount) : Prop :=
  e.actualPendingBalanceCreditCounter = e.expectedPendingBalanceCreditCounter

end ConfidentialTransferAccount

/-- **What the client has read**: its balances agree, it has seen so many credits, and it computes
this balance. -/
structure ReadAs (aesKey : AeKey) (nonce counter : ℕ) (decryptable : AeCiphertext)
    (e : ConfidentialTransferAccount) : Prop where
  consistent : e.Consistent aesKey
  counter : e.pendingBalanceCreditCounter = counter
  computed : (ApplyPendingBalanceAccountInfo.new e).newDecryptableAvailableBalance aesKey nonce =
    .ok decryptable

/-- **Nothing that was missed goes unnoticed, but a withdrawal of withheld fees.** The client read
the extension and computed from it; others took their steps, none of which withdrew withheld fees
into the account or closed it; then the owner's instruction ran. If its counters agree, the
decryptable balance is the available one; if something was credited, they do not. -/
theorem stale_apply_detected {aesKey : AeKey} {nonce : ℕ} {read : ConfidentialTransferAccount}
    {st : TokenAccountState} {events : List Event} {outcome : Outcome} {expected : UInt64}
    {decryptable : AeCiphertext}
    (held : L.account? a = some st) (carries : st.get .confidentialTransferAccount = some read)
    (readAs : ReadAs aesKey nonce expected.toNat decryptable read)
    (run : OthersRuns st.base.owner L events L')
    (excluded : ∀ event ∈ events, ¬ event.withdrawsEncryptedInto a ∧ ¬ event.closes a)
    (named : i.instruction =
      .confidentialTransferExtension (.applyPendingBalance expected decryptable))
    (target : i.key? 0 = some a) (ok : i.run L' = .ok outcome) :
    ∃ (st' : TokenAccountState) (e : ConfidentialTransferAccount),
      outcome.ledger.account? a = some st' ∧ st'.get .confidentialTransferAccount = some e ∧
      (e.CountersAgree → e.Consistent aesKey) ∧
      ((∃ event ∈ events, event.creditsPending a) → ¬ e.CountersAgree) := by
  obtain ⟨consistent, counter, computed⟩ := readAs
  obtain ⟨owned, data⟩ := Ledger.account?_eq_some_iff.mp held
  obtain ⟨-, later, before, data', -, carries', since⟩ := run.since
    (fun event member => (excluded event member).2)
    ⟨owned, st, read, data, rfl, carries, rfl⟩
  rw [Invocation.run, named] at ok
  obtain ⟨st', e, found, holds, applied⟩ := processApplyPendingBalance_applied target ok
  obtain rfl := AccountData.account.inj
    (data'.symm.trans (Ledger.account?_eq_some_iff.mp found).2)
  obtain rfl := Option.some.inj (carries'.symm.trans holds)
  refine ⟨_, _, applied, StateWithExtensions.get_set_self .., fun same => ?_,
    fun credited same => ?_⟩
  · replace same : before.pendingBalanceCreditCounter = expected.toNat := same
    obtain ⟨lo, hi⟩ := since.pending (same.trans counter.symm)
    have available := since.available fun event member => (excluded event member).1
    obtain ⟨loSmall, hiSmall, current, decrypted, small, rfl⟩ :=
      ApplyPendingBalanceAccountInfo.newDecryptableAvailableBalance_eq_ok_iff.mp computed
    have total : ((read.availableBalance.val + (read.pendingBalanceHi.val *
        2 ^ pendingBalanceLoBitLength + read.pendingBalanceLo.val) : ℕ) : Scalar) =
        before.availableBalance + pendingTotal before.pendingBalanceLo before.pendingBalanceHi := by
      rw [available, lo, hi, pendingTotal]
      push_cast
      simp only [ZMod.natCast_zmod_val]
      ring
    obtain rfl := Option.some.inj (consistent.symm.trans decrypted)
    have value := (val_natCast_of_lt (small.trans u64_lt_groupOrder)).symm.trans
      (congrArg ZMod.val total)
    exact (aesKey.decrypt_encrypt small).trans (congrArg some value)
  · replace same : before.pendingBalanceCreditCounter = expected.toNat := same
    have more := since.counted credited
    omega

section Examples

open Basic AccountMeta

/-- The largest fee, as a commitment. -/
def maximumFee : PedersenCommitment := ((5 : ℕ) : Scalar)

/-- What is left of 9999 base points where nothing is claimed, as a commitment. -/
def unclaimed : PedersenCommitment := ((9999 : ℕ) : Scalar)

/-- The validity proof of the largest fee. -/
def maximumFeeValidity : BatchedGroupedCiphertext2HandlesValidityProofContext :=
  ⟨⟨7⟩, ⟨7⟩, ⟨maximumFee, maximumFee, maximumFee⟩, ⟨0, 0, 0⟩, by decide⟩

/-- What the transactions prove, with one key for all: a transfer of 10 out of 100 tokens, with the
largest fee, of 5; a public key; a withdrawal of the fee. -/
def feeProofs : ℤ → Option VerifiedContext
  | 1 => some (.ciphertextCommitmentEquality ⟨⟨7⟩, 90, 90, rfl⟩)
  | 2 => some (.batchedGroupedCiphertext3HandlesValidity
      ⟨⟨7⟩, ⟨7⟩, 0, ⟨10, 10, 10, 10⟩, ⟨0, 0, 0, 0⟩, by decide⟩)
  | 3 => some (.percentageWithCap ⟨maximumFee, -50000, 0, 5, .inl rfl⟩)
  | 4 => some (.batchedGroupedCiphertext2HandlesValidity maximumFeeValidity)
  | 5 => some (.batchedRangeProofU256
      ⟨![90, 10, 0, 0, unclaimed, maximumFee, 0, maximumFee], ![64, 16, 32, 16, 16, 16, 32, 64],
        by decide⟩)
  | 6 => some (.pubkeyValidity ⟨⟨7⟩⟩)
  | 7 => some (.ciphertextCiphertextEquality ⟨⟨7⟩, ⟨7⟩, maximumFee, maximumFee, rfl⟩)
  | _ => none

/-- An instruction in a transaction with these proofs. -/
def Invocation.proven (instruction : TokenInstruction) (accounts : List AccountMeta) : Invocation :=
  { env := { Env.basic with proofInstruction := feeProofs }, accounts, instruction }

/-- A mint with confidential transfers and fees, and two accounts of different owners: the source
has a confidential balance. -/
def confidentialFeeTurns : List Turn := [
  .allocate mint 480, .allocate source 545, .allocate destination 545,
  .basic (.transferFeeExtension
    (.initializeTransferFeeConfig (some Basic.owner) (some Basic.owner) 10000 5)) [plain mint],
  .basic (.confidentialTransferExtension (.initializeMint ⟨Basic.owner⟩ true .none)) [plain mint],
  .basic (.confidentialTransferFeeExtension
    (.initializeConfidentialTransferFeeConfig ⟨Basic.owner⟩ ⟨7⟩)) [plain mint],
  .basic (.initializeMint2 0 Basic.owner none) [plain mint],
  .basic (.initializeAccount3 Basic.owner) [plain source, plain mint],
  .basic (.initializeAccount3 other) [plain destination, plain mint],
  .invoke (.proven
    (.confidentialTransferExtension (.configureAccount (AeKey.basic.encrypt 0 0) 10 6))
    [plain source, plain mint, plain instructionsSysvarId, signer Basic.owner]),
  .invoke (.proven
    (.confidentialTransferExtension (.configureAccount (AeKey.basic.encrypt 0 0) 10 6))
    [plain destination, plain mint, plain instructionsSysvarId, signer other]),
  .basic (.mintTo 100) [plain mint, plain source, signer Basic.owner],
  .basic (.confidentialTransferExtension (.deposit 100 0))
    [plain source, plain mint, signer Basic.owner],
  .basic (.confidentialTransferExtension (.applyPendingBalance 1 (AeKey.basic.encrypt 0 100)))
    [plain source, signer Basic.owner]]

/-- A transfer to the destination, which the owner of the source signs. -/
def confidentialFeeTransfer : Invocation :=
  .proven (.confidentialTransferExtension
      (.transferWithFee (AeKey.basic.encrypt 0 90) 10 0 1 2 3 4 5))
    [plain source, plain mint, plain destination, plain instructionsSysvarId, signer Basic.owner]

/-- The withdrawal of the fee, which its authority signs, into the account that withheld it. -/
def feeWithdrawal : Invocation :=
  .proven (.confidentialTransferFeeExtension
      (.withdrawWithheldTokensFromAccounts 1 7 (AeKey.basic.encrypt 0 5)))
    [plain mint, plain destination, plain instructionsSysvarId, signer Basic.owner,
      plain destination]

/-- `ApplyPendingBalance`, which the owner of the destination signs. -/
def applyPending (expected : UInt64) (decryptable : AeCiphertext) : Invocation :=
  .basic (.confidentialTransferExtension (.applyPendingBalance expected decryptable))
    [plain destination, signer other]

instance (e : ConfidentialTransferAccount) : Decidable (e.Consistent AeKey.basic) :=
  inferInstanceAs (Decidable (_ = _))

instance : DecidablePred ConfidentialTransferAccount.CountersAgree :=
  fun _ => inferInstanceAs (Decidable (_ = _))

instance (nonce counter : ℕ) (decryptable : AeCiphertext) :
    DecidablePred (ReadAs AeKey.basic nonce counter decryptable) := fun e =>
  decidable_of_iff (e.Consistent AeKey.basic ∧ e.pendingBalanceCreditCounter = counter ∧
      (ApplyPendingBalanceAccountInfo.new e).newDecryptableAvailableBalance AeKey.basic nonce =
        .ok decryptable)
    ⟨fun ⟨consistent, counter, computed⟩ => ⟨consistent, counter, computed⟩,
      fun read => ⟨read.consistent, read.counter, read.computed⟩⟩

/-- A credit between the read and the instruction shows. -/
theorem stale_apply_detected_credit : ∃ (L : Ledger) (first second : Outcome)
    (st : TokenAccountState) (e : ConfidentialTransferAccount),
    runAll .fresh confidentialFeeTurns = .ok L ∧ confidentialFeeTransfer.run L = .ok first ∧
      (applyPending 0 (AeKey.basic.encrypt 0 0)).run first.ledger = .ok second ∧
      second.ledger.account? destination = some st ∧
      st.get .confidentialTransferAccount = some e ∧ ¬ e.CountersAgree := by
  have leads : LeadsTo (runAll .fresh confidentialFeeTurns) fun L =>
      LeadsTo (confidentialFeeTransfer.run L) fun first =>
      LeadsTo ((applyPending 0 (AeKey.basic.encrypt 0 0)).run first.ledger) fun _ =>
        (L destination).owner = programId ∧
        (L destination).data.Holds other
          (ReadAs AeKey.basic 0 0 (AeKey.basic.encrypt 0 0)) ∧
        other ∉ first.validated := by decide +kernel
  obtain ⟨L, prepared, leads⟩ := leads.exists
  obtain ⟨first, transferred, leads⟩ := leads.exists
  obtain ⟨second, applied, owned, ⟨st, read, data, holder, carries, readAs⟩, unsigned⟩ :=
    leads.exists
  have run : OthersRuns st.base.owner L [.invoke confidentialFeeTransfer] first.ledger :=
    .single (.invoke transferred (holder ▸ unsigned))
  have excluded : ∀ event ∈ [Event.invoke confidentialFeeTransfer],
      ¬ event.withdrawsEncryptedInto destination ∧ ¬ event.closes destination := by
    intro event member
    obtain rfl := List.mem_singleton.mp member
    constructor
    · rintro ⟨i, same, named⟩
      obtain rfl := Event.invoke.inj same
      exact absurd named (by decide)
    · rintro ⟨i, same, closes⟩
      obtain rfl := Event.invoke.inj same
      exact absurd closes (by decide)
  obtain ⟨st', e, found, held, -, differ⟩ := stale_apply_detected
    (Ledger.account?_eq_some_iff.mpr ⟨owned, data⟩) carries readAs run excluded rfl rfl applied
  exact ⟨L, first, second, st', e, prepared, transferred, applied, found, held,
    differ ⟨_, List.mem_singleton_self _, _, rfl, rfl⟩⟩

/-- **A withdrawal of withheld fees is not noticed.** The client reads 5 pending and nothing
available, and encrypts 5. The fee of 5 is withdrawn into the account, whose balances agree after
it. The counters of the instruction agree, and the available balance is 10. -/
theorem stale_apply_undetected : ∃ (L : Ledger) (first second : Outcome),
    Reachable L ∧ (L destination).owner = programId ∧
      (L destination).data.Holds other (ReadAs AeKey.basic 0 1 (AeKey.basic.encrypt 0 5)) ∧
      OthersRuns other L [.invoke feeWithdrawal] first.ledger ∧
      (first.ledger destination).data.Holds other (·.Consistent AeKey.basic) ∧
      (applyPending 1 (AeKey.basic.encrypt 0 5)).run first.ledger = .ok second ∧
      (second.ledger destination).data.Holds other fun e =>
        e.CountersAgree ∧ ¬ e.Consistent AeKey.basic := by
  have leads : LeadsTo (runAll .fresh (confidentialFeeTurns ++ [.invoke confidentialFeeTransfer]))
      fun L => LeadsTo (feeWithdrawal.run L) fun first =>
      LeadsTo ((applyPending 1 (AeKey.basic.encrypt 0 5)).run first.ledger) fun second =>
        ((L destination).owner = programId ∧
          (L destination).data.Holds other (ReadAs AeKey.basic 0 1 (AeKey.basic.encrypt 0 5))) ∧
        other ∉ first.validated ∧
        (first.ledger destination).data.Holds other (·.Consistent AeKey.basic) ∧
        (second.ledger destination).data.Holds other fun e =>
          e.CountersAgree ∧ ¬ e.Consistent AeKey.basic := by decide +kernel
  obtain ⟨L, prepared, leads⟩ := leads.exists
  obtain ⟨first, withdrawn, leads⟩ := leads.exists
  obtain ⟨second, applied, ⟨owned, read⟩, unsigned, agree, undetected⟩ := leads.exists
  exact ⟨L, first, second, .of_runAll .fresh prepared, owned, read,
    .single (.invoke withdrawn unsigned), agree, applied, undetected⟩

end Examples

end Token2022
