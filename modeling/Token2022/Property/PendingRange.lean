/-
**The parts of a pending balance, as integers.**

The owner's client decrypts the two parts of a pending balance one by one, and finds small integers
only. A credit of 48 bits adds 16 of them to the low part, and 32 to the high one. A fee is split in the
same way, and each of its parts is taken from the same part of the balance, which need not cover it.

* `PendingBalance.InRange`, `Ledger.PendingInRange` — the parts are what so many credits can add up to.
* `PendingBalance.CoversFee`, `Event.CoversFee` — each part covers that of the fee.
* `net_le_iff` — a part stays in range where it covers that of the fee, and nowhere else.
* `Step.pendingInRange`, `Step.coversFee` — one step.
* **`pending_in_range_iff`** — a run never leaves the range just where each of its steps covers the fee
  that it takes.
* **`pending_wrapped`** — a transfer of 65536 tokens with a fee of 5 wraps the low part.
-/

import Token2022.Property.PendingCredits

namespace Token2022

open Fallible LabelledRun

variable {i : Invocation} {start L L' : Ledger} {outcome : Outcome} {validated : List Address}
  {a : Address} {p : PendingBalance}

/-! ### The range -/

/-- **The parts are integers in range**: what so many credits of 16 and of 32 bits can add up to. -/
structure PendingBalance.InRange (p : PendingBalance) : Prop where
  lo : p.lo.val ≤ p.counter * (2 ^ 16 - 1)
  hi : p.hi.val ≤ p.counter * (2 ^ 32 - 1)

/-- What is pending is in range, in every account. -/
def Ledger.PendingInRange (L : Ledger) : Prop :=
  ∀ a, ∀ p ∈ L.pending? a, p.InRange

/-- Each part covers that of the fee, with that of the amount. -/
def PendingBalance.CoversFee (p : PendingBalance) (context : TransferWithFeeProofContext) : Prop :=
  context.feeCiphertextLo.first.val ≤ p.lo.val + context.ciphertextLo.second.val ∧
    context.feeCiphertextHi.first.val ≤ p.hi.val + context.ciphertextHi.second.val

/-- **Where the invocation takes a fee from what it credits, each part covers that of the fee.** -/
def Invocation.CoversFee (i : Invocation) (L : Ledger) : Prop :=
  ∀ context ∈ i.feeContext? L, ∀ p ∈ i.creditsPending?.bind L.pending?, p.CoversFee context

/-- The event covers the fee that it takes. -/
def Event.CoversFee (L : Ledger) : Event → Prop
  | .invoke i => i.CoversFee L
  | .external => True

instance : DecidablePred PendingBalance.InRange := fun p =>
  decidable_of_iff (p.lo.val ≤ p.counter * (2 ^ 16 - 1) ∧ p.hi.val ≤ p.counter * (2 ^ 32 - 1))
    ⟨fun ⟨lo, hi⟩ => ⟨lo, hi⟩, fun ⟨lo, hi⟩ => ⟨lo, hi⟩⟩

instance (p : PendingBalance) (context : TransferWithFeeProofContext) :
    Decidable (p.CoversFee context) := inferInstanceAs (Decidable (_ ∧ _))

instance (i : Invocation) (L : Ledger) : Decidable (i.CoversFee L) :=
  inferInstanceAs (Decidable (∀ context ∈ i.feeContext? L,
    ∀ p ∈ i.creditsPending?.bind L.pending?, p.CoversFee context))

instance (L : Ledger) : DecidablePred (Event.CoversFee L)
  | .invoke i => inferInstanceAs (Decidable (i.CoversFee L))
  | .external => inferInstanceAs (Decidable True)

/-! ### One part -/

section Part

variable {k n : ℕ} {x y z : Scalar}

/-- The range is far from the order of the group. -/
theorem part_room (fits : n + 1 < 2 ^ 64) (short : k ≤ 2 ^ 32) :
    (n + 1) * (k - 1) + k ≤ groupOrder := by
  calc (n + 1) * (k - 1) + k ≤ 2 ^ 64 * 2 ^ 32 + 2 ^ 32 := by
        refine Nat.add_le_add (Nat.mul_le_mul fits.le ?_) short
        exact (Nat.sub_le k 1).trans short
    _ ≤ groupOrder := by decide

/-- A part of a credit keeps the range. -/
theorem part_le (inRange : x.val ≤ n * (k - 1)) (small : y.val < k) :
    (x + y).val ≤ (n + 1) * (k - 1) := by
  calc (x + y).val ≤ x.val + y.val := ZMod.val_add_le x y
    _ ≤ n * (k - 1) + (k - 1) := by omega
    _ = (n + 1) * (k - 1) := by rw [Nat.add_mul, Nat.one_mul]

/-- **A part of a credit, with that of a fee taken from it, keeps the range just where it is
covered**: what is not covered wraps. -/
theorem net_le_iff (room : (n + 1) * (k - 1) + k ≤ groupOrder) (inRange : x.val ≤ n * (k - 1))
    (small : y.val < k) (feeSmall : z.val < k) :
    (x + (y - z)).val ≤ (n + 1) * (k - 1) ↔ z.val ≤ x.val + y.val := by
  constructor
  · intro kept
    by_contra short
    have wrapped := le_val_add_sub (not_le.mp short)
    omega
  · intro covers
    have sum : x.val + y.val ≤ (n + 1) * (k - 1) := by
      rw [Nat.add_mul, Nat.one_mul]
      omega
    exact (val_add_sub_le covers).trans ((Nat.sub_le _ _).trans sum)

end Part

/-! ### One credit -/

theorem PendingBalance.InRange.zero (maximum : ℕ) :
    PendingBalance.InRange ⟨0, 0, 0, maximum⟩ := by
  constructor
  · rw [ZMod.val_zero]
    exact Nat.zero_le _
  · rw [ZMod.val_zero]
    exact Nat.zero_le _

theorem PendingBalance.InRange.credited {lo hi : Scalar} (inRange : p.InRange)
    (split : SplitAmount lo hi) : (p.credited lo hi).InRange :=
  ⟨part_le inRange.lo split.lo_lt, part_le inRange.hi split.hi_lt⟩

/-- **A credit net of a fee keeps the range just where the fee is covered.** -/
theorem PendingBalance.InRange.net_iff {context : TransferWithFeeProofContext}
    (inRange : p.InRange) (fits : p.counter + 1 < 2 ^ 64)
    (amount : SplitAmount context.ciphertextLo.second context.ciphertextHi.second)
    (fee : SplitAmount context.feeCiphertextLo.first context.feeCiphertextHi.first) :
    (p.credited (context.ciphertextLo.second - context.feeCiphertextLo.first)
      (context.ciphertextHi.second - context.feeCiphertextHi.first)).InRange ↔
      p.CoversFee context := by
  have lo := net_le_iff (part_room fits (by decide)) inRange.lo amount.lo_lt fee.lo_lt
  have hi := net_le_iff (part_room fits le_rfl) inRange.hi amount.hi_lt fee.hi_lt
  constructor
  · intro kept
    exact ⟨lo.mp kept.lo, hi.mp kept.hi⟩
  · intro covers
    exact ⟨lo.mpr covers.1, hi.mpr covers.2⟩

/-! ### One step -/

/-- **A step that covers the fee that it takes keeps the range.** -/
theorem Step.pendingInRange {e : Event} (step : Step L e L') (covers : e.CoversFee L)
    (holds : L.PendingAt a PendingBalance.InRange) : L'.PendingAt a PendingBalance.InRange := by
  by_cases reset : e.resetsPending a
  · exact step.pending_of_resets reset PendingBalance.InRange.zero
  by_cases credits : e.creditsPending a
  · obtain ⟨i, rfl, named⟩ := credits
    cases step with
    | invoke ok =>
      refine run_pending_of_credits named ok (fun e lo hi amounts inRange room => ?_) holds
      cases amounts with
      | whole none split => exact inRange.credited split
      | @net context st verified found held amount fee =>
        refine (inRange.net_iff room.fits amount fee).mpr (covers context verified _ ?_)
        rw [named]
        exact Ledger.pending?_eq_some_iff.mpr ⟨st, e, found, held, rfl⟩
  · exact step.pending_of_quiet reset credits holds

/-- The data are of an account with this pending. -/
def AccountData.HasPending (p : PendingBalance) (data : AccountData) : Prop :=
  ∃ (st : TokenAccountState) (e : ConfidentialTransferAccount), data = .account st ∧
    st.get .confidentialTransferAccount = some e ∧ e.pending = p

/-- A change that neither credits nor applies nor configures leaves what is pending there. -/
theorem Change.hasPending {old new : AccountData} (change : Change i start validated a old new)
    (leaves : i.LeavesPending a) (configured : i.configures? ≠ some a) (holds : old.HasPending p) :
    new.HasPending p := by
  obtain ⟨st, e, rfl, held, same⟩ := holds
  have kept : new.Pending (· = p) := change.pending leaves (fun named => absurd named configured)
    fun e' held' => Option.some.inj (held.symm.trans held') ▸ same
  have carries : ∃ (st' : TokenAccountState) (e' : ConfidentialTransferAccount),
      new = .account st' ∧ st'.get .confidentialTransferAccount = some e' := by
    cases change with
    | accountBase change => exact ⟨_, e, rfl, held⟩
    | @accountUpdate _ t old new held' update =>
      by_cases same : t = .confidentialTransferAccount
      · subst same
        exact ⟨_, new, rfl, StateWithExtensions.get_set_self ..⟩
      · exact ⟨_, e, rfl, (StateWithExtensions.get_set_of_ne st (Ne.symm same) new).trans held⟩
    | @accountOpen _ _ t _ _ absent opening written =>
      obtain ⟨-, -, rfl⟩ := StateWithExtensions.initExtension_eq_ok written
      have other : ExtensionType.confidentialTransferAccount ≠ t := by
        rintro rfl
        cases absent.symm.trans held
      exact ⟨_, e, rfl, (StateWithExtensions.get_set_of_ne _ other _).trans held⟩
    | accountResize written =>
      exact ⟨_, e, rfl, (StateWithExtensions.get_resize written _).trans held⟩
  obtain ⟨st', e', rfl, held'⟩ := carries
  exact ⟨st', e', rfl, held', kept e' held'⟩

/-- **What was credited is there after the instruction.** -/
theorem CreditsOf.pending? {e : ConfidentialTransferAccount} {lo hi : Scalar}
    (credits : CreditsOf i start validated a e lo hi L L') (leaves : i.LeavesPending a)
    (configured : i.configures? ≠ some a) (stays : ¬ i.closes a) :
    L'.pending? a = some (e.pending.credited lo hi) := by
  obtain ⟨mid, st, -, owned, data, held, room, after⟩ := credits
  obtain ⟨owned', st', e', data', held', same⟩ := after.follow
    (R := AccountData.HasPending (e.pending.credited lo hi)) stays
    (fun _ _ holds change => change.hasPending leaves configured holds)
    ⟨(Ledger.owner_setData ..).trans owned, _, _, Ledger.data_setData_self ..,
      StateWithExtensions.get_set_self .., rfl⟩
  exact Ledger.pending?_eq_some_iff.mpr
    ⟨st', e', Ledger.account?_eq_some_iff.mpr ⟨owned', data'⟩, held', same⟩

/-- **A step that stays in the range covers the fee that it takes.** -/
theorem Step.coversFee {e : Event} (step : Step L e L') (inRange : L.PendingInRange)
    (kept : L'.PendingInRange) : e.CoversFee L := by
  cases step with
  | external ext => exact trivial
  | @invoke i outcome ok =>
    intro context verified p there
    obtain ⟨a, named, there⟩ := Option.bind_eq_some_iff.mp there
    obtain ⟨e, lo, hi, amounts, credits⟩ := run_creditsOf named ok _
      i.instruction.uncredited_standsFor
    have after := credits.pending? (i.leavesPending_uncredited a) i.configures?_uncredited
      i.not_closes_uncredited
    obtain ⟨-, -, -, -, -, -, room, -⟩ := credits
    cases amounts with
    | whole none split => cases none.symm.trans verified
    | @net context' st verified' found held amount fee =>
      obtain rfl := Option.some.inj (verified.symm.trans verified')
      have before : L.pending? a = some e.pending :=
        Ledger.pending?_eq_some_iff.mpr ⟨st, e, found, held, rfl⟩
      obtain rfl := Option.some.inj (there.symm.trans before)
      exact ((inRange a _ before).net_iff room.fits amount fee).mp (kept a _ after)

/-! ### Runs -/

/-- A run whose steps all cover the fee that they take. -/
abbrev CoveringRuns := Run fun L e L' => Step L e L' ∧ Event.CoversFee L e

/-- **Such a run stays in the range.** -/
theorem CoveringRuns.staying {G : Ledger} {events : List Event} (genesis : Genesis G)
    (run : CoveringRuns G events L) : Staying Step Ledger.PendingInRange G events L ∧
      ∀ a, L.PendingAt a PendingBalance.InRange := by
  induction run with
  | start => exact ⟨.start, fun a => genesis.pendingAt⟩
  | step _ one ih =>
    obtain ⟨staying, holds⟩ := ih
    have next := fun a => one.1.pendingInRange one.2 (holds a)
    exact ⟨staying.step ⟨one.1, fun a p there => (next a).of_pending? there⟩, next⟩

/-- **The pending balances of a run stay in the range just where each of its steps covers the fee that
it takes**: wherever a confidential transfer between two accounts takes a fee, the low part of the fee
is at most the low part of what is pending and of the amount, and so is the high part. -/
theorem pending_in_range_iff {G : Ledger} {events : List Event} (genesis : Genesis G) :
    Staying Step Ledger.PendingInRange G events L ↔ CoveringRuns G events L := by
  have start : G.PendingInRange := fun a p there =>
    (genesis.pendingAt (Q := PendingBalance.InRange)).of_pending? there
  constructor
  · intro staying
    induction staying with
    | start => exact .start
    | step earlier one ih =>
      have inRange := (Staying.invariant (I := fun _ => True) earlier
        (fun _ _ _ _ _ _ _ => trivial) start trivial).1
      exact ih.step ⟨one.1, one.1.coversFee inRange one.2⟩
  · intro run
    exact (run.staying genesis).1

section Examples

open Basic AccountMeta

/-- A transfer whose parts cover the fee stays in the range. -/
theorem pending_in_range_iff_covered : ∃ L,
    Staying Step Ledger.PendingInRange .fresh
      ((confidentialFeeTurns ++ [Turn.invoke confidentialFeeTransfer]).map Turn.event) L ∧
      L.pending? destination = some ⟨5, 0, 1, 10⟩ := by
  have leads : LeadsTo (guardAll (fun L turn => turn.event.CoversFee L) .fresh
      (confidentialFeeTurns ++ [.invoke confidentialFeeTransfer])) fun L =>
        L.pending? destination = some ⟨5, 0, 1, 10⟩ := by decide +kernel
  obtain ⟨L, ran, pending⟩ := leads.exists
  have run : CoveringRuns .fresh _ L := (run_of_guardAll ran).mono fun _ _ _ one => by
    obtain ⟨step, turn, rfl, covers⟩ := one
    exact ⟨step, covers⟩
  exact ⟨L, (pending_in_range_iff .fresh).mpr run, pending⟩

/-- What the transaction proves: a transfer of 65536 out of 100000 tokens, with the largest fee, of
5. -/
def wrappingProofs : ℤ → Option VerifiedContext
  | 1 => some (.ciphertextCommitmentEquality ⟨⟨7⟩, 34464, 34464, rfl⟩)
  | 2 => some (.batchedGroupedCiphertext3HandlesValidity
      ⟨⟨7⟩, ⟨7⟩, 0, ⟨0, 0, 0, 0⟩, ⟨1, 1, 1, 1⟩, by decide⟩)
  | 3 => some (.percentageWithCap ⟨maximumFee, -655310000, 0, 5, .inl rfl⟩)
  | 4 => some (.batchedGroupedCiphertext2HandlesValidity maximumFeeValidity)
  | 5 => some (.batchedRangeProofU256
      ⟨![34464, 0, 1, 0, unclaimed, maximumFee, 0, 65531], ![64, 16, 32, 16, 16, 16, 32, 64],
        by decide⟩)
  | _ => none

/-- The transfer of 65536 tokens to the destination. -/
def wrappingTransfer : Invocation where
  env := { Env.basic with proofInstruction := wrappingProofs }
  accounts := confidentialFeeTransfer.accounts
  instruction := .confidentialTransferExtension
    (.transferWithFee (AeKey.basic.encrypt 0 34464) 0 1 1 2 3 4 5)

/-- The source gets 99900 tokens more. -/
def wrappingTurns : List Turn := confidentialFeeTurns ++ [
  .basic (.mintTo 99900) [plain mint, plain source, signer Basic.owner],
  .basic (.confidentialTransferExtension (.deposit 99900 0))
    [plain source, plain mint, signer Basic.owner],
  .basic (.confidentialTransferExtension (.applyPendingBalance 1 (AeKey.basic.encrypt 0 100000)))
    [plain source, signer Basic.owner],
  .invoke wrappingTransfer]

/-- **The low part wraps.** 65536 tokens are 0 in the low part and 1 in the high one; the fee of 5 is
taken from the low part, which is 5 less than the order of the group then. -/
theorem pending_wrapped : ∃ L, Reachable L ∧ L.pending? destination = some ⟨-5, 1, 1, 10⟩ ∧
    ¬ L.PendingInRange := by
  have leads : LeadsTo (runAll .fresh wrappingTurns) fun L =>
      L.pending? destination = some ⟨-5, 1, 1, 10⟩ := by decide +kernel
  obtain ⟨L, ran, pending⟩ := leads.exists
  refine ⟨L, .of_runAll .fresh ran, pending, fun inRange => ?_⟩
  have outside : ¬ PendingBalance.InRange ⟨-5, 1, 1, 10⟩ := by decide +kernel
  exact outside (inRange destination _ pending)

end Examples

end Token2022
