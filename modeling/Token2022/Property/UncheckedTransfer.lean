/-
**The unchecked transfer and the restrictions of the mint.**

A transfer that does not name the mint reads the restrictions of the mint off the marks of the
source. They agree with the mint unless the mint was closed and initialized again over accounts that
lack them, which can then be minted to.

* `Unrestricted` — the mint does not pause, charge or watch a transfer.
* `ReopensOver` — a mint is initialized over an account that lacks a mark it demands.
* **`uncheckedTransfer_unrestricted`** — without such a step, an unchecked transfer meets no
  restriction of its mint.
* **`uncheckedTransfer_while_paused`** — after one, it may.
-/

import Token2022.Environment
import Token2022.Invariant.Demands
import Token2022.Property.Reading

namespace Token2022

open Fallible LabelledRun

/-- **The mint of an account puts no restriction on a transfer** of an amount in an epoch: it is not
paused, it charges nothing, and no hook program is set. -/
def StateWithExtensions.Unrestricted (st : TokenAccountState) (L : Ledger) (epoch amount : ℕ) :
    Prop :=
  ∀ mint, L.mint? st.base.mint = some mint → mint.paused = false ∧
    (match mint.get .transferFeeConfig with
      | some config => config.calculateEpochFee epoch amount
      | none => some 0) = some 0 ∧ mint.transferHookProgramId = none

/-- The account has the marks that the staged extensions of a mint demand. -/
structure StateWithExtensions.Marked (st : TokenAccountState) (b : Buffer) : Prop where
  fees : (b.get .transferFeeConfig).isSome = true → st.has .transferFeeAmount = true
  hook : (b.get .transferHook).isSome = true → st.has .transferHookAccount = true
  pausable : (b.get .pausable).isSome = true → st.has .pausableAccount = true

/-- **The invocation initializes a mint over an account of its address that lacks a mark** which the
staged extensions of the mint demand. -/
def Invocation.ReopensOver (i : Invocation) (L : Ledger) : Prop :=
  ∃ m b a st, i.initializesMint m = true ∧ (L m).owner = programId ∧ (L m).data = .zeroed b ∧
    L.account? a = some st ∧ st.base.mint = m ∧ ¬ st.Marked b

/-- Where no account falls short, the initialization is answered. -/
theorem Answering.of_not_reopensOver {i : Invocation} {L : Ledger} (fair : ¬ i.ReopensOver L)
    (m : Address) : Answering m i L.book := by
  intro named b vacant a h held mint base
  obtain ⟨st, there, rfl⟩ := Ledger.slot_holding_iff.mp held
  obtain ⟨owned, data⟩ := Ledger.slot_vacant_iff.mp vacant
  have marked : st.Marked b := by
    by_contra short
    exact fair ⟨m, b, a, st, named, owned, data, there, mint, short⟩
  refine ⟨fun demanded => ?_, marked.hook, marked.pausable⟩
  rw [StateWithExtensions.withheld_holding, Option.isSome_map]
  exact marked.fees demanded

/-- A fee-less, unpausable and unwatched mint restricts nothing. -/
theorem StateWithExtensions.Unrestricted.of_answers {st : TokenAccountState} {L : Ledger}
    (answers : ∀ mint, L.mint? st.base.mint = some mint → st.holding.Answers mint.issuance)
    (fees : st.has .transferFeeAmount = false) (hook : st.has .transferHookAccount = false)
    (pausable : st.has .pausableAccount = false) (epoch amount : ℕ) :
    st.Unrestricted L epoch amount := by
  intro mint issued
  have demands := answers mint issued
  have noFees : mint.get .transferFeeConfig = none := by
    rw [← Option.not_isSome_iff_eq_none]
    intro charged
    have marked := demands.fees charged
    rw [StateWithExtensions.withheld_holding, Option.isSome_map] at marked
    exact Bool.false_ne_true (fees.symm.trans marked)
  have noHook : mint.get .transferHook = none := by
    rw [← Option.not_isSome_iff_eq_none]
    exact fun watched => Bool.false_ne_true (hook.symm.trans (demands.hook watched))
  have noPause : mint.get .pausable = none := by
    rw [← Option.not_isSome_iff_eq_none]
    exact fun pauses => Bool.false_ne_true (pausable.symm.trans (demands.pausable pauses))
  refine ⟨?_, ?_, ?_⟩
  · rw [StateWithExtensions.paused, noPause]
    rfl
  · rw [noFees]
  · rw [StateWithExtensions.transferHookProgramId, noHook]
    rfl

/-- **What an unchecked transfer sees**: a source without the marks. -/
theorem unmarked_of_transfer {i : Invocation} {L : Ledger} {outcome : Outcome} {a : Address}
    {amount : UInt64} (ok : i.run L = .ok outcome) (named : i.instruction = .transfer amount)
    (source : i.key? 0 = some a) : ∃ st, L.account? a = some st ∧
      st.has .transferFeeAmount = false ∧ st.has .transferHookAccount = false ∧
      st.has .pausableAccount = false := by
  have ran : processInner i.env L i.accounts i.instruction = .ok outcome := ok
  rw [named] at ran
  have transferred : processTransfer i.env L i.accounts amount.toNat .unchecked = .ok outcome := ran
  simp only [processTransfer, bind_eq_ok_iff, Prod.exists, nextAccountInfo_eq_ok_iff,
    checkProgramAccount_eq_ok_iff, unpackAccount_eq_ok_iff, require_eq_ok_iff,
    exists_const] at transferred
  obtain ⟨info, _, shape, expectedMint, _, next, _, _, -, _, _, -, owned, -, st, data, -, -, -, terms,
    checked, -⟩ := transferred
  obtain ⟨rfl, rfl⟩ : expectedMint = none ∧ _ = _ := by
    simpa [nextMintInfo, TransferInstruction.decimals, eq_comm] using next
  obtain rfl : info.key = a := by
    rw [Invocation.key?, shape] at source
    exact Option.some.inj source
  simp only [uncheckedTransferTerms, bind_eq_ok_iff, require_eq_ok_iff, exists_const] at checked
  obtain ⟨hook, fees, pausable, -⟩ := checked
  exact ⟨st, Ledger.account?_eq_some_iff.mpr ⟨owned, data⟩, fees, hook, pausable⟩

/-- **The unchecked transfer bypasses no restriction of the mint**, in every run in which no mint is
initialized over an account that lacks a mark it demands. -/
theorem uncheckedTransfer_unrestricted {G L : Ledger} {events : List Event} {i : Invocation}
    {outcome : Outcome} {a : Address} {amount : UInt64} (genesis : Genesis G)
    (run : Run (fun L e L' => Step L e L' ∧ ∀ i, e = .invoke i → ¬ i.ReopensOver L) G events L)
    (ok : i.run L = .ok outcome) (named : i.instruction = .transfer amount)
    (source : i.key? 0 = some a) :
    ∃ st, L.account? a = some st ∧ st.Unrestricted L i.env.epoch amount.toNat := by
  obtain ⟨st, held, fees, hook, pausable⟩ := unmarked_of_transfer ok named source
  have answered : L.book.Answered st.base.mint := by
    refine run.invariant (I := fun L => L.book.Answered st.base.mint) (fun L e L' holds one => ?_)
      (.of_blank genesis.blank)
    exact (Book.Answered.kept st.base.mint).step holds
      (fun j invoked => .of_not_reopensOver (one.2 j invoked) _) one.1
  refine ⟨st, held, .of_answers (fun mint issued => ?_) fees hook pausable _ _⟩
  exact answered _ (Ledger.slot_of_mint? issued) a _ (Ledger.slot_of_account? held) rfl

section Examples

open Basic AccountMeta

/-- A mint that these extensions belong to demands no mark. -/
def AccountData.demandsNothing : AccountData → Bool
  | .zeroed b => !(b.get .transferFeeConfig).isSome && !(b.get .transferHook).isSome &&
      !(b.get .pausable).isSome
  | _ => true

/-- A turn that initializes no mint that demands a mark. -/
def Turn.Undemanding (L : Ledger) : Turn → Prop
  | .invoke i => i.initializesMint nativeMintId = false ∧
      (i.key? 0).all (fun m => (L m).data.demandsNothing) = true
  | .hand .. => True

instance (L : Ledger) : DecidablePred (Turn.Undemanding L)
  | .invoke _ => inferInstanceAs (Decidable (_ ∧ _))
  | .hand .. => inferInstanceAs (Decidable True)

/-- The mint that is initialized is the first account, or the native one. -/
theorem Invocation.key_of_initializesMint {i : Invocation} {m : Address}
    (named : i.initializesMint m = true) : i.key? 0 = some m ∨ m = nativeMintId := by
  cases instruction : i.instruction with
  | initializeMint =>
    rw [Invocation.initializesMint, instruction] at named
    exact .inl (of_decide_eq_true named)
  | initializeMint2 =>
    rw [Invocation.initializesMint, instruction] at named
    exact .inl (of_decide_eq_true named)
  | createNativeMint =>
    rw [Invocation.initializesMint, instruction] at named
    exact .inr (of_decide_eq_true named)
  | _ =>
    rw [Invocation.initializesMint, instruction] at named
    exact absurd named Bool.false_ne_true

theorem Turn.Undemanding.not_reopensOver {L : Ledger} {i : Invocation}
    (undemanding : Turn.Undemanding L (.invoke i)) : ¬ i.ReopensOver L := by
  rintro ⟨m, b, a, st, named, -, data, -, -, short⟩
  obtain ⟨other, plain⟩ := undemanding
  rcases i.key_of_initializesMint named with key | rfl
  · rw [key, Option.all_some, data] at plain
    simp only [AccountData.demandsNothing, Bool.and_eq_true, Bool.not_eq_true'] at plain
    obtain ⟨⟨fees, hook⟩, pausable⟩ := plain
    exact short ⟨fun demanded => by simp [fees] at demanded,
      fun demanded => by simp [hook] at demanded, fun demanded => by simp [pausable] at demanded⟩
  · simp [other] at named

/-- An unchecked transfer of a mint without extensions. -/
theorem uncheckedTransfer_unrestricted_plain : ∃ L outcome, Reachable L ∧
    Basic.transfer.run L = .ok outcome ∧
    ∃ st, L.account? source = some st ∧ st.Unrestricted L 0 300 := by
  have leads : LeadsTo (guardAll Turn.Undemanding .fresh plainTurns) fun L =>
      LeadsTo (Basic.transfer.run L) fun _ => True := by decide +kernel
  obtain ⟨L, ran, leads⟩ := leads.exists
  obtain ⟨outcome, ok, -⟩ := leads.exists
  have run := run_of_guardAll ran
  refine ⟨L, outcome, ⟨_, _, .fresh, run.mono fun _ _ _ one => one.1⟩, ok, ?_⟩
  refine uncheckedTransfer_unrestricted .fresh (run.mono fun M e M' one => ⟨one.1, ?_⟩) ok rfl rfl
  rintro j rfl
  obtain ⟨turn, same, undemanding⟩ := one.2
  cases turn with
  | invoke i =>
    obtain rfl := Event.invoke.inj same
    exact undemanding.not_reopensOver
  | hand => cases same

/-- A mint is closed, and initialized as pausable over the accounts that it had; tokens go to one of
them, and the mint pauses. -/
def reopenedTurns : List Turn := [
  .allocate mint 202, .allocate source 165, .allocate destination 165,
  .basic (.initializeMintCloseAuthority (some owner)) [plain mint],
  .basic (.initializeMint2 0 owner none) [plain mint],
  .basic (.initializeAccount3 owner) [plain source, plain mint],
  .basic (.initializeAccount3 other) [plain destination, plain mint],
  .basic .closeAccount [plain mint, plain owner, signer owner],
  .allocate mint 203,
  .basic (.pausableExtension (.initializeExtension owner)) [plain mint],
  .basic (.initializeMint2 0 owner none) [plain mint],
  .basic (.mintTo 1000) [plain mint, plain source, signer owner],
  .basic (.pausableExtension .pause) [plain mint, signer owner]]

/-- **While the mint is paused, an unchecked transfer goes through.** -/
theorem uncheckedTransfer_while_paused : ∃ L outcome st, Reachable L ∧
    Basic.transfer.run L = .ok outcome ∧ Basic.transfer.instruction = .transfer 300 ∧
    Basic.transfer.key? 0 = some source ∧ Basic.transfer.key? 1 = some destination ∧
    L.account? source = some st ∧ ¬ st.Unrestricted L 0 300 := by
  have leads : LeadsTo (runAll .fresh reopenedTurns) fun L =>
      LeadsTo (Basic.transfer.run L) fun _ =>
        (L.account? source).map (fun st => st.base.mint) = some mint ∧
        (L.mint? mint).map StateWithExtensions.paused = some true := by decide +kernel
  obtain ⟨L, ran, leads⟩ := leads.exists
  obtain ⟨outcome, ok, account, paused⟩ := leads.exists
  obtain ⟨st, held, mint⟩ := Option.map_eq_some_iff.mp account
  obtain ⟨state, issued, paused⟩ := Option.map_eq_some_iff.mp paused
  refine ⟨L, outcome, st, .of_runAll .fresh ran, ok, rfl, rfl, rfl, held, fun free => ?_⟩
  obtain ⟨running, -⟩ := free state (mint ▸ issued)
  exact Bool.false_ne_true (running.symm.trans paused)

end Examples

end Token2022
