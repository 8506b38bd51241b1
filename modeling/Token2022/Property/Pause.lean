/-
**A paused mint: no tokens move.**

The mint may be initialized once along a run: then all its accounts carry the mark of a pausable mint,
and also the transfers that do not name the mint stop.

* `Ledger.fundsOf`, `circulating` — what stays put while the mint is paused.
* `answered_of_once` — a mint that is initialized once has accounts that answer its demands.
* `SlotStep.while_paused` — an instruction that withdraws no withheld fees moves no tokens.
* **`pause_stops_movement`** — nor does it change the supply; the pause ends with `Resume`, which the
  pause authority signs, or with the mint.
* **`pause_ends_with_mint`** — the latter may happen.
-/

import Token2022.Environment
import Token2022.Invariant.Demands
import Token2022.Property.Reading

namespace Token2022

open LabelledRun

/-! ### What stays put -/

/-- The tokens of the mint at `m` that a slot has at the disposal of its holder: the amount, and the
plaintext total of the confidential balances. -/
def Slot.fundsOf (m : Address) : Slot → ℕ × Scalar
  | .holding h => if h.base.mint = m then (h.base.amount, h.balance.available + h.balance.pending) else 0
  | _ => 0

/-- `amount`, and the plaintext of `available_balance + pending_balance_lo + 2^16 *
pending_balance_hi`, of the token account of the mint at `m` that is at `a`. -/
def Ledger.fundsOf (L : Ledger) (m a : Address) : ℕ × Scalar :=
  match L.account? a with
  | some st => if st.base.mint = m then (st.base.amount, st.availableBalance + st.pendingBalance) else 0
  | none => 0

/-- **The book has the funds of the ledger.** -/
theorem Ledger.fundsOf_book (L : Ledger) (m a : Address) :
    (L.book.slot a).fundsOf m = L.fundsOf m a := by
  unfold Ledger.fundsOf
  cases held : L.account? a with
  | some st =>
    rw [slot_of_account? held, Slot.fundsOf, StateWithExtensions.available_holding,
      StateWithExtensions.pending_holding]
    rfl
  | none =>
    cases slot : L.book.slot a with
    | holding h =>
      obtain ⟨st, there, -⟩ := slot_holding_iff.mp slot
      simp [held] at there
    | _ => rfl

/-- The plaintext of `confidential_supply` minus `pending_burn`. -/
def StateWithExtensions.circulating (mint : MintState) : Option Scalar :=
  (mint.get .confidentialMintBurn).map fun e => e.confidentialSupply - e.pendingBurn

theorem StateWithExtensions.circulating_issuance (mint : MintState) :
    mint.circulating = mint.issuance.mintBurn.map fun e => e.supply - e.pendingBurn := by
  rw [mintBurn_issuance, Option.map_map]
  rfl

theorem Slot.fundsOf_congr {m : Address} {h h' : Holding} (mint : h'.base.mint = h.base.mint)
    (same : h.base.mint = m → h'.base.amount = h.base.amount ∧
      h'.balance.available + h'.balance.pending = h.balance.available + h.balance.pending) :
    (holding h').fundsOf m = (holding h).fundsOf m := by
  simp only [fundsOf, mint]
  split
  · obtain ⟨amount, balance⟩ := same ‹_›
    rw [amount, balance]
  · rfl

/-! ### A mint that is initialized once -/

/-- The event initializes a mint at `m`. -/
def Event.initializesMint (m : Address) : Event → Bool
  | .invoke i => i.initializesMint m
  | .external => false

/-- Nothing of a mint at `m` is there. -/
structure Book.Absent (m : Address) (B : Book) : Prop where
  issue : ∀ iss, B.slot m ≠ .issue iss
  holding : ∀ a h, B.slot a = .holding h → h.base.mint ≠ m

namespace Book.Absent

variable {m : Address} {B B' : Book}

theorem external (absent : B.Absent m) (ext : Book.External B B') : B'.Absent m where
  issue iss issued := absent.issue iss (ext.issue_back issued)
  holding a h held := absent.holding a h (ext.holding_back held)

/-- An initialization finds no accounts of the mint. -/
theorem answering (absent : B.Absent m) (i : Invocation) : Answering m i B :=
  fun _ _ _ a h held mint => absurd mint (absent.holding a h held)

theorem effect {i : Invocation} {v : List Address} {arm : Option DebitArm} (absent : B.Absent m)
    (other : i.initializesMint m = false) (effect : Effect i v arm B B') : B'.Absent m where
  issue iss' issued' := by
    rcases (issued' ▸ effect.slotStep m).issue_origin with ⟨iss, issued⟩ | ⟨named, -⟩
    · exact absent.issue iss issued
    · simp [other] at named
  holding a h' held' mint := by
    have step := held' ▸ effect.slotStep a
    rcases step.holding_origin with ⟨h, held⟩ | ⟨m', b, iss, base, -, issued, opens, rfl, -⟩
    · exact absent.holding a h held ((held ▸ step).marks.mint.symm.trans mint)
    · obtain rfl : m' = m := opens.mint.symm.trans mint
      exact absent.issue iss issued

end Book.Absent

/-- **A mint that is initialized at most once has accounts that answer its demands.** -/
theorem answered_of_once {G L : Ledger} {m : Address} {events : List Event} (genesis : Genesis G)
    (run : Runs G events L) :
    (events.countP (Event.initializesMint m) = 0 → L.book.Absent m) ∧
      (events.countP (Event.initializesMint m) ≤ 1 → L.book.Answered m) := by
  induction run with
  | start =>
    have blank := genesis.blank
    exact ⟨fun _ => ⟨fun iss => by simp [blank.slot], fun a h held => by simp [blank.slot] at held⟩,
      fun _ => .of_blank blank⟩
  | @step events e L L' _ one ih =>
    rw [List.countP_append, List.countP_singleton]
    cases one with
    | external ext =>
      simp only [Event.initializesMint, Bool.false_eq_true, if_false, add_zero]
      exact ⟨fun none => (ih.1 none).external ext.book, fun once => (ih.2 once).external ext.book⟩
    | @invoke i outcome ok =>
      obtain ⟨B, B', before, effect, after⟩ := run_refines ok
      cases named : i.initializesMint m with
      | false =>
        simp only [Event.initializesMint, named, Bool.false_eq_true, if_false, add_zero]
        refine ⟨fun none => (((ih.1 none).external before).effect named effect).external after,
          fun once => ?_⟩
        exact (((ih.2 once).external before).effect (fun again => by simp [named] at again)
          effect).external after
      | true =>
        simp only [Event.initializesMint, named, if_true, Nat.add_eq_zero_iff, one_ne_zero, and_false,
          false_implies, true_and]
        intro once
        have absent := (ih.1 (by omega)).external before
        exact (((ih.2 (by omega)).external before).effect (absent.answering i) effect).external after

/-! ### One instruction while the mint is paused -/

section Paused

variable {i : Invocation} {B : Book} {a m : Address} {v : List Address} {arm : Option DebitArm}
  {l : ℕ}

/-- A holding's own instructions leave its funds in sum. -/
theorem Adjustment.funds {h h' : Holding} (adjustment : Adjustment i B a h v h') :
    h'.base.amount = h.base.amount ∧
      h'.balance.available + h'.balance.pending = h.balance.available + h.balance.pending := by
  refine ⟨adjustment.amount.1, ?_⟩
  cases adjustment with
  | configure fees _ _ absent =>
    rw [Holding.balance_of_none absent]
    rfl
  | applyPending _ encrypted =>
    rw [Holding.balance_of_encrypted encrypted, Holding.balance_of_encrypted rfl]
    simp only [EncryptedBalance.pending, pendingTotal_zero, add_zero]
  | _ => rfl

/-- **An instruction on a paused mint moves no tokens**, unless it withdraws withheld fees. -/
theorem SlotStep.while_paused {s s' : Slot} {iss : Issuance} (wf : B.WellFormed)
    (answered : B.Answered m) (issued : B.slot m = .issue iss) (paused : iss.paused = true)
    (other : i.withdrawsWithheld = false) (held : B.slot a = s) (step : SlotStep i B a v arm s s' l) :
    s'.fundsOf m = s.fundsOf m := by
  have ne : m ≠ nativeMintId := fun native => by
    subst native
    simp [Issuance.paused, (wf.nativeTerms issued).pausable] at paused
  -- Where a mint runs or an account is native, it is about another mint.
  have stopped : ∀ {x : Address}, B.Running x → x ≠ m := by
    rintro x running rfl
    exact answered.not_running issued paused running
  have foreign : ∀ {h h' : Holding}, h'.base.mint = h.base.mint → h.base.mint ≠ m →
      (Slot.holding h').fundsOf m = (Slot.holding h).fundsOf m :=
    fun same apart => Slot.fundsOf_congr same fun here => absurd here apart
  have native : ∀ {h : Holding}, s = .holding h → h.base.isNativeAccount = true →
      h.base.mint ≠ m := by
    intro h same wrapped here
    exact ne (here.symm.trans ((wf.native a h (held.trans same)).mp wrapped))
  have unnamed : i.withdrawsWithheld ≠ true := by simp [other]
  cases step with
  | @openHolding m' b iss' base issued' opens =>
    rw [(wf.fresh a b held).openHolding]
    show (if base.mint = m then _ else _) = _
    split
    · rename_i here
      have amount : base.amount = 0 := (opens.plain (opens.mint.symm.trans here ▸ ne)).2
      simp [amount, Holding.balance, Slot.fundsOf]
    · rfl
  | adjust adjustment => exact Slot.fundsOf_congr adjustment.marks.mint fun _ => adjustment.funds
  | toggleFreeze => exact Slot.fundsOf_congr rfl fun _ => ⟨rfl, rfl⟩
  | reserve => exact Slot.fundsOf_congr rfl fun _ => ⟨rfl, rfl⟩
  | syncNative _ wrapped => exact foreign rfl (native rfl wrapped)
  | debit _ debit _ _ running =>
    exact foreign debit.kept.1 (running.elim stopped fun wrapped => native rfl wrapped)
  | burnExempt _ _ _ _ _ running => exact foreign rfl (stopped running)
  | transferIn _ _ _ running => exact foreign rfl (stopped running)
  | mintTo _ _ running => exact foreign rfl (stopped running)
  | @collected _ h h' collected =>
    have unpaid : ¬ (h'.base.amount ≠ h.base.amount ∨ h'.encrypted ≠ h.encrypted) :=
      fun changed => unnamed (collected.paid changed).1
    rw [not_or, not_not, not_not] at unpaid
    refine Slot.fundsOf_congr collected.mint fun _ => ⟨unpaid.1, ?_⟩
    unfold Holding.balance
    rw [unpaid.2]
  | withdrawWithheld named => exact absurd named unnamed
  | deposit running => exact foreign rfl (stopped running)
  | withdraw running => exact foreign rfl (stopped running)
  | spendEncrypted running spends =>
    exact foreign spends.marks.mint (spends.mint ▸ stopped running)
  | receiveEncrypted running receives =>
    exact foreign receives.marks.mint (receives.mint ▸ stopped running)
  | receiveEncryptedWithFee running receives =>
    exact foreign receives.marks.mint (receives.mint ▸ stopped running)
  | exchangeEncrypted running spends receives =>
    exact foreign (receives.marks.mint.trans spends.marks.mint) (spends.mint ▸ stopped running)
  | withdrawEncryptedWithheld named => exact absurd named unnamed
  | closeHolding target closes =>
    rename_i h d
    by_cases here : h.base.mint = m
    · have plain : h.base.isNativeAccount = false := wf.plainAccount held (here ▸ ne)
      have empty := closes.value plain
      simp only [Holding.value, Holding.funds, EncryptedBalance.value, Nat.add_eq_zero_iff,
        ZMod.val_eq_zero] at empty
      obtain ⟨⟨amount, available, pending⟩, -⟩ := empty
      simp only [Slot.fundsOf, amount, available, pending, add_zero, if_pos here]
      rfl
    · simp [Slot.fundsOf, here]
  | _ => rfl

/-- **What happens to a mint while it is paused**: its supplies stay, and so does the pause, unless
it is lifted. -/
theorem SlotStep.mint_while_paused {iss iss' : Issuance}
    (paused : iss.paused = true) (step : SlotStep i B m v arm (.issue iss) (.issue iss') l) :
    iss'.base.supply = iss.base.supply ∧
      iss'.mintBurn.map (fun e => e.supply - e.pendingBurn) =
        iss.mintBurn.map (fun e => e.supply - e.pendingBurn) ∧
      (iss'.paused = true ∨ i.instruction = .pausableExtension .resume ∧
        ∃ config key, iss.pausable = some config ∧ config.authority.toOption = some key ∧
          v = [key]) := by
  have running : iss.paused ≠ false := by simp [paused]
  cases step with
  | keep => exact ⟨rfl, rfl, .inl paused⟩
  | drain => exact ⟨rfl, rfl, .inl paused⟩
  | configureMint same =>
    refine ⟨same.supply, by rw [same.mintBurn], .inl ?_⟩
    have mapped := same.paused
    unfold Issuance.paused at paused ⊢
    cases before : iss.pausable with
    | none => simp [before] at paused
    | some config =>
      rw [before] at mapped paused
      obtain ⟨config', after, same'⟩ := Option.map_eq_some_iff.mp mapped
      rw [after]
      exact same'.trans paused
  | @togglePause _ config pause key _ pausable named authority =>
    refine ⟨rfl, rfl, ?_⟩
    cases pause with
    | true => exact .inl rfl
    | false => exact .inr ⟨named, config, key, pausable, authority, rfl⟩
  | increaseSupply run => exact absurd run running
  | decreaseSupply run => exact absurd run running
  | retained retained =>
    rw [retained.kept]
    exact ⟨rfl, rfl, .inl paused⟩
  | changeSupply run => exact absurd run running
  | applyPendingBurn supply =>
    refine ⟨rfl, ?_, .inl paused⟩
    simp [supply]

end Paused

/-! ### Every run -/

/-- **A pause stops all movement of tokens.** Along every run that initializes the mint at `m` once,
while the mint is paused: an instruction that does not withdraw withheld fees leaves the funds of
every account of it; every instruction leaves the supply, and the encrypted supply less the burns that
are pending; and the pause ends only with `Resume`, for which the pause authority is validated, or
with the mint, whose close authority closes it at a supply of zero. -/
theorem pause_stops_movement {G L : Ledger} {m : Address} {events : List Event} {i : Invocation}
    {outcome : Outcome} {mint : MintState} (genesis : Genesis G) (run : Runs G events L)
    (once : events.countP (Event.initializesMint m) ≤ 1) (ok : i.run L = .ok outcome)
    (issued : L.mint? m = some mint) (paused : mint.paused = true) :
    (i.withdrawsWithheld = false → ∀ a, outcome.ledger.fundsOf m a = L.fundsOf m a) ∧
      ((∃ mint', outcome.ledger.mint? m = some mint' ∧ mint'.base.supply = mint.base.supply ∧
          mint'.circulating = mint.circulating ∧
          (mint'.paused = true ∨ i.instruction = .pausableExtension .resume ∧
            ∃ config key, mint.get .pausable = some config ∧
              config.authority.toOption = some key ∧ key ∈ outcome.validated)) ∨
        outcome.ledger.mint? m = none ∧ i.instruction = .closeAccount ∧ mint.base.supply = 0 ∧
          ∃ e key, mint.get .mintCloseAuthority = some e ∧ e.closeAuthority.toOption = some key ∧
            key ∈ outcome.validated) := by
  have reachable : Reachable L := ⟨G, events, genesis, run⟩
  have answered := (answered_of_once genesis run).2 once
  constructor
  · intro other a
    obtain ⟨B, B', before, effect, after⟩ := run_refines ok
    have outside : ∀ {C C' : Book}, Book.External C C' →
        (C'.slot a).fundsOf m = (C.slot a).fundsOf m := by
      intro C C' ext
      by_cases foreign : C.slot a = .foreign
      · rcases ext.handed a foreign with same | ⟨len, same⟩
        · rw [same, foreign]
        · rw [same, foreign]
          rfl
      · rw [(ext.kept a foreign).1]
    rw [← Ledger.fundsOf_book, ← Ledger.fundsOf_book, outside after, ← outside before]
    exact (effect.slotStep a).while_paused ((wellFormed_reachable reachable).external before)
      (answered.external before) (before.issue (Ledger.slot_of_mint? issued)) paused other rfl
  · obtain ⟨B, ext, there, step⟩ := run_mint ok issued
    cases step with
    | @stays mint' _ held step =>
      have stopped : mint.issuance.paused = true := paused
      obtain ⟨supply, circulating, still⟩ := step.mint_while_paused stopped
      refine .inl ⟨mint', held, supply, ?_, ?_⟩
      · rw [StateWithExtensions.circulating_issuance, circulating,
          StateWithExtensions.circulating_issuance]
      · rcases still with still | ⟨named, config, key, pausable, authority, validated⟩
        · exact .inl still
        · refine .inr ⟨named, config, key, pausable, authority, ?_⟩
          rw [validated]
          exact List.mem_singleton_self key
    | closes gone step =>
      generalize outcome.validated = v, outcome.arm = arm at step ⊢
      cases step with
      | @closeMint _ key _ named authority supply mintBurn =>
        obtain ⟨e, held, close⟩ := Option.bind_eq_some_iff.mp authority
        exact .inr ⟨gone, named, supply, e, key, held, close, List.mem_singleton_self key⟩

section Examples

open Basic AccountMeta

/-- A pausable mint that can be closed, without tokens, is paused. -/
def pausedTurns : List Turn := [
  .allocate mint 239,
  .basic (.initializeMintCloseAuthority (some owner)) [plain mint],
  .basic (.pausableExtension (.initializeExtension owner)) [plain mint],
  .basic (.initializeMint2 0 owner none) [plain mint],
  .basic (.pausableExtension .pause) [plain mint, signer owner]]

/-- It is resumed. -/
def resume : Invocation := .basic (.pausableExtension .resume) [plain mint, signer owner]

theorem pause_stops_movement_resume : ∃ L outcome, Runs .fresh (pausedTurns.map Turn.event) L ∧
    resume.run L = .ok outcome ∧ (L.mint? mint).map StateWithExtensions.paused = some true ∧
    ∀ a, outcome.ledger.fundsOf mint a = L.fundsOf mint a := by
  have leads : LeadsTo (runAll .fresh pausedTurns) fun L =>
      LeadsTo (resume.run L) fun _ =>
        (L.mint? mint).map StateWithExtensions.paused = some true := by decide +kernel
  obtain ⟨L, ran, leads⟩ := leads.exists
  obtain ⟨outcome, ok, paused⟩ := leads.exists
  obtain ⟨state, issued, running⟩ := Option.map_eq_some_iff.mp paused
  exact ⟨L, outcome, runs_of_runAll ran, ok, paused,
    (pause_stops_movement .fresh (runs_of_runAll ran) (by decide) ok issued running).1 rfl⟩

/-- It is closed. -/
def closePaused : Invocation := .basic .closeAccount [plain mint, plain owner, signer owner]

/-- **Not only `Resume` ends a pause**: so does the close of the mint. -/
theorem pause_ends_with_mint : ∃ L outcome, Runs .fresh (pausedTurns.map Turn.event) L ∧
    (pausedTurns.map Turn.event).countP (Event.initializesMint mint) = 1 ∧
    closePaused.run L = .ok outcome ∧ closePaused.instruction ≠ .pausableExtension .resume ∧
    (L.mint? mint).map StateWithExtensions.paused = some true ∧
    (outcome.ledger.mint? mint).map StateWithExtensions.paused ≠ some true := by
  have leads : LeadsTo (runAll .fresh pausedTurns) fun L =>
      LeadsTo (closePaused.run L) fun outcome =>
        (L.mint? mint).map StateWithExtensions.paused = some true ∧
        (outcome.ledger.mint? mint).isNone = true := by decide +kernel
  obtain ⟨L, ran, leads⟩ := leads.exists
  obtain ⟨outcome, ok, paused, gone⟩ := leads.exists
  refine ⟨L, outcome, runs_of_runAll ran, by decide, ok, by decide, paused, ?_⟩
  rw [Option.isNone_iff_eq_none.mp gone]
  decide

end Examples

end Token2022
