/-
**Wrapped lamports: every token is backed.**

* `Book.Backed` — the lamports of an account of the native mint cover its amount and its reserve.
* `SlotStep.backed`, `SlotStep.lamports_kept` — at one account.
* **`native_backed`** — in every reachable state; the lamports that a transfer or an unwrap takes are
  there, and none leave while the amount stays.
-/

import Token2022.Environment
import Token2022.Property.Reading

namespace Token2022

open Fallible

/-- **Every account of wrapped lamports is backed.** -/
def Book.Backed (B : Book) : Prop :=
  ∀ a h reserve, B.slot a = .holding h → h.base.isNative = some reserve →
    h.base.amount + reserve ≤ B.lamports a

section AccountSteps

variable {i : Invocation} {B : Book} {a : Address} {v : List Address} {arm : Option DebitArm}
  {h h' : Holding} {l : ℕ}

/-- What no step does to an account of wrapped lamports. -/
theorem SlotStep.native_cases (wf : B.WellFormed) (held : B.slot a = .holding h)
    (native : h.base.isNativeAccount = true)
    (step : SlotStep i B a v arm (.holding h) (.holding h') l) :
    (h'.base.amount = h.base.amount ∧ h'.base.isNative = h.base.isNative ∧ B.lamports a ≤ l) ∨
    (∃ reserve, h'.base.isNative = some reserve ∧ h'.base.amount + reserve ≤ l ∧
      B.lamports a = l) ∨
    (h'.base.isNative = h.base.isNative ∧ ∃ n, n ≤ h.base.amount ∧
      h'.base.amount = h.base.amount - n ∧ B.lamports a ≤ l + n) ∨
    (h'.base.isNative = h.base.isNative ∧ ∃ n, h'.base.amount = h.base.amount + n ∧
      B.lamports a + n ≤ l) := by
  have here : h.base.mint = nativeMintId := (wf.native a h held).mp native
  have plain := wf.plain a h held here
  have notPlain : h.base.isNativeAccount ≠ false := by simp [native]
  have clear : ∀ {e : EncryptedBalance}, h.encrypted ≠ some e := by
    intro e encrypted
    simp [plain.encrypted] at encrypted
  cases step with
  | keep more => exact .inl ⟨rfl, rfl, more⟩
  | drain source => exact absurd (source h rfl).1 notPlain
  | adjust adjustment => cases adjustment <;> exact .inl ⟨rfl, rfl, le_rfl⟩
  | toggleFreeze _ _ _ notNative => exact absurd notNative notPlain
  | @reserve _ r _ funded => exact .inr (.inl ⟨r, rfl, funded, rfl⟩)
  | @syncNative _ amount r _ _ backed => exact .inr (.inl ⟨r, rfl, backed.le, rfl⟩)
  | @debit _ base key arm n _ enough debit _ _ _ more =>
    rw [if_pos native] at more
    exact .inr (.inr (.inl ⟨debit.kept.2.2.2.2.1, n, enough, rfl, more⟩))
  | burnExempt _ _ _ _ notNative => exact absurd notNative notPlain
  | @transferIn _ _ _ n _ w _ _ _ _ _ followed =>
    obtain ⟨b, hb, there, mint, follows⟩ := followed
    exact .inr (.inr (.inr ⟨rfl, n, rfl,
      follows ((wf.native b hb there).mpr (mint.trans here))⟩))
  | mintTo _ notNative => exact absurd notNative notPlain
  | collected collected =>
    refine .inl ⟨by_contra fun changed => ?_, by rw [collected.base], le_rfl⟩
    obtain ⟨b, hb, there, mint, withheld⟩ := collected.funded changed
    simp [(wf.plain b hb there (mint.trans here)).withheld] at withheld
  | withdrawWithheld _ issued fees =>
    simp [(wf.nativeTerms (here ▸ issued)).fees] at fees
  | deposit _ _ notNative => exact absurd notNative notPlain
  | withdraw _ _ notNative => exact absurd notNative notPlain
  | spendEncrypted _ spends =>
    obtain ⟨e, _, encrypted, -⟩ := spends.moved
    exact absurd encrypted clear
  | receiveEncrypted _ receives =>
    obtain ⟨e, encrypted, -⟩ := receives.moved
    exact absurd encrypted clear
  | receiveEncryptedWithFee _ receives =>
    obtain ⟨e, w, encrypted, -⟩ := receives.moved
    exact absurd encrypted clear
  | exchangeEncrypted _ spends =>
    obtain ⟨e, _, encrypted, -⟩ := spends.moved
    exact absurd encrypted clear
  | withdrawEncryptedWithheld _ _ _ _ encrypted => exact absurd encrypted clear

/-- **One step keeps an account of wrapped lamports backed.** -/
theorem SlotStep.backed (wf : B.WellFormed) (backed : B.Backed) (held : B.slot a = .holding h)
    (step : SlotStep i B a v arm (.holding h) (.holding h') l) {reserve : ℕ}
    (native' : h'.base.isNative = some reserve) : h'.base.amount + reserve ≤ l := by
  have native : h.base.isNativeAccount = true := by
    rw [← step.marks.native]
    exact Option.isSome_iff_exists.mpr ⟨reserve, native'⟩
  have before := fun r => backed a h r held
  rcases step.native_cases wf held native with ⟨amount, same, more⟩ | ⟨r, at_r, funded, -⟩ |
    ⟨same, n, enough, amount, more⟩ | ⟨same, n, amount, more⟩
  · have := before reserve (same.symm.trans native')
    omega
  · obtain rfl := Option.some.inj (at_r.symm.trans native')
    exact funded
  · have := before reserve (same.symm.trans native')
    omega
  · have := before reserve (same.symm.trans native')
    omega

/-- **Lamports stay with an amount that stays.** -/
theorem SlotStep.lamports_kept (wf : B.WellFormed) (held : B.slot a = .holding h)
    (native : h.base.isNativeAccount = true)
    (step : SlotStep i B a v arm (.holding h) (.holding h') l)
    (same : h'.base.amount = h.base.amount) : B.lamports a ≤ l := by
  rcases step.native_cases wf held native with ⟨-, -, more⟩ | ⟨r, -, -, more⟩ |
    ⟨-, n, enough, amount, more⟩ | ⟨-, n, amount, more⟩
  · exact more
  · exact more.le
  · omega
  · omega

end AccountSteps

theorem Book.Backed.kept : Kept (fun _ _ => True) fun B => B.WellFormed ∧ B.Backed where
  external holds ext := by
    refine ⟨holds.1.external ext, fun a h reserve held native => ?_⟩
    have before := ext.holding_back held
    exact (holds.2 a h reserve before native).trans (ext.kept a (by simp [before])).2
  guard := fun _ _ => trivial
  effect {i v arm B B'} _ holds effect := by
    refine ⟨holds.1.effect effect, fun a h' reserve held' native => ?_⟩
    rcases (held' ▸ effect.slotStep a).holding_origin with
      ⟨h, held⟩ | ⟨m, b, iss, base, vacant, -, opens, rfl, lamports⟩
    · exact (held ▸ held' ▸ effect.slotStep a).backed holds.1 holds.2 held native
    · have here : m = nativeMintId := by
        by_contra ne
        simp [(opens.plain ne).1, Buffer.openHolding, Buffer.holding] at native
      obtain ⟨r, at_r, funded⟩ := opens.native here
      obtain rfl := Option.some.inj (at_r.symm.trans native)
      rw [lamports]
      exact funded.le

/-- The invariant, of a reachable ledger. -/
theorem backed_reachable {L : Ledger} (reachable : Reachable L) : L.book.Backed :=
  (Book.Backed.kept.reachable (fun B blank => ⟨.of_blank blank, fun a h reserve held => by
    simp [blank.slot a] at held⟩) reachable).2

/-- **Native accounts stay backed.** In every reachable state the lamports of an initialized account
of wrapped lamports cover its amount and its rent-exempt reserve, whatever rent the instructions ran
under and whatever lamports were credited from outside. So the lamports that belong to any part of
the amount can be taken; and no instruction takes lamports from an account whose amount stays. -/
theorem native_backed {L : Ledger} (reachable : Reachable L) {a : Address} {st : TokenAccountState}
    {reserve : ℕ} (held : L.account? a = some st) (native : st.base.isNative = some reserve) :
    st.base.amount + reserve ≤ (L a).lamports ∧
    (∀ n error, n ≤ st.base.amount → ∃ L', L.debit a n error = .ok L') ∧
    ∀ (i : Invocation) (outcome : Outcome) (st' : TokenAccountState), i.run L = .ok outcome →
      outcome.ledger.account? a = some st' → st'.base.amount = st.base.amount →
        (L a).lamports ≤ (outcome.ledger a).lamports := by
  have slot := Ledger.slot_of_account? held
  have backed : st.base.amount + reserve ≤ (L a).lamports :=
    backed_reachable reachable a _ reserve slot native
  refine ⟨backed, fun n error enough => ?_, fun i outcome st' ok held' same => ?_⟩
  · obtain ⟨owned, -⟩ := Ledger.account?_eq_some_iff.mp held
    exact ⟨_, Ledger.debit_eq_ok_iff.mpr ⟨by omega, .inl owned, rfl⟩⟩
  · obtain ⟨B, ext, there, account⟩ := run_account ok held
    have wf : B.WellFormed := (wellFormed_reachable reachable).external ext
    have more : (L a).lamports ≤ B.lamports a := (ext.kept a (by simp [slot])).2
    cases account with
    | @stays st₁ l held₁ step lamports =>
      obtain rfl := Option.some.inj (held₁.symm.trans held')
      have isNative : st.holding.base.isNativeAccount = true :=
        Option.isSome_iff_exists.mpr ⟨reserve, native⟩
      exact more.trans ((step.lamports_kept wf there isNative same).trans lamports)
    | closes gone => simp [gone] at held'

/-- A funded account of the native mint. -/
theorem native_backed_funded : ∃ L st, Reachable L ∧ L.account? Basic.source = some st ∧
    st.base.amount = 997960720 ∧ st.base.isNative = some 2039280 ∧
    st.base.amount + 2039280 ≤ (L Basic.source).lamports := by
  have leads : LeadsTo (runAll .fresh [
      .basic .createNativeMint
        [.signer Basic.owner, .plain nativeMintId, .plain systemProgramId],
      .allocate Basic.source 165,
      .basic (.initializeAccount3 Basic.owner) [.plain Basic.source, .plain nativeMintId]]) fun L =>
      (L.account? Basic.source).map (fun st => (st.base.amount, st.base.isNative)) =
        some (997960720, some 2039280) := by decide +kernel
  obtain ⟨L, ran, account⟩ := leads.exists
  obtain ⟨st, held, funded⟩ := Option.map_eq_some_iff.mp account
  obtain ⟨amount, native⟩ := Prod.mk.inj funded
  have reachable : Reachable L := .of_runAll .fresh ran
  exact ⟨L, st, reachable, held, amount, native, (native_backed reachable held native).1⟩

end Token2022
