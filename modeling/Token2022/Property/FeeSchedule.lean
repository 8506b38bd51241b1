/-
**The transfer-fee schedule.**

A mint keeps two transfer fees. A fee that is set counts two epochs later, and overwrites the newer
one of the two, which moves to the older place only where it counts already.

* `TransferFeeConfig.slots` — the two fees as slots with a delay of two epochs.
* `feeSubmissions` — the fees that a run sets on a mint, each with the epoch in which it does.
* `Carries` — the data of a mint, initialized or still to be, carries a configuration with the slots.
* `processSetTransferFee_slots`, `Runs.carries` — the one instruction that moves the slots, and a run,
  whose other instructions leave them.
* **`fee_schedule`** — in every run after the initialization, the fee in force is the settled one.
-/

import Token2022.Invariant.MintExtension
import Token2022.Lib.DelayedSlots

namespace Token2022

open Fallible LabelledRun DelayedSlots

variable {i : Invocation} {start L L' : Ledger} {outcome : Outcome} {validated : List Address}
  {m : Address} {fees : Slots TransferFee}

/-! ### Slots and submissions -/

/-- The two fees, the newer one in force from its epoch on. -/
def TransferFeeConfig.slots (config : TransferFeeConfig) : Slots TransferFee where
  older := config.olderTransferFee
  newer := config.newerTransferFee
  start := config.newerTransferFee.epoch

theorem TransferFeeConfig.getEpochFee_eq (config : TransferFeeConfig) (epoch : ℕ) :
    config.getEpochFee epoch = config.slots.inForce epoch := rfl

/-- The fee that the invocation sets on the mint, with the epoch in which it does. -/
def Invocation.feeSubmission? (i : Invocation) (m : Address) : Option (ℕ × TransferFee) :=
  match i.instruction with
  | .transferFeeExtension (.setTransferFee bps maximumFee) =>
    if i.key? 0 = some m then
      some (i.env.epoch, ⟨min (i.env.epoch + 2) (2 ^ 64 - 1), maximumFee.toNat, bps.toNat⟩)
    else none
  | _ => none

/-- The fee that the event sets on the mint. -/
def Event.feeSubmission? (e : Event) (m : Address) : Option (ℕ × TransferFee) :=
  match e with
  | .invoke i => i.feeSubmission? m
  | .external => none

/-- The fees that a run sets on the mint, oldest first. -/
def feeSubmissions (m : Address) (events : List Event) : List (ℕ × TransferFee) :=
  events.filterMap fun e => e.feeSubmission? m

/-- The event initializes the transfer fees of the mint. -/
def Event.initializesTransferFee (e : Event) (m : Address) : Prop :=
  ∃ i a w bps maximumFee, e = .invoke i ∧ i.key? 0 = some m ∧
    i.instruction = .transferFeeExtension (.initializeTransferFeeConfig a w bps maximumFee)

theorem initializesTransferFee_of_stages {e : Event} (stages : e.stages m .transferFeeConfig) :
    e.initializesTransferFee m := by
  obtain ⟨i, rfl, target, stages⟩ := stages
  obtain ⟨a, w, bps, maximumFee, instruction⟩ := TokenInstruction.eq_of_stages_fees stages
  exact ⟨i, a, w, bps, maximumFee, rfl, target, instruction⟩

/-- The transfer-fee configuration at an address: of a mint, or of what becomes one. -/
def Ledger.transferFeeConfig? (L : Ledger) (m : Address) : Option TransferFeeConfig :=
  match (L m).data with
  | .zeroed buffer => buffer.get .transferFeeConfig
  | .mint mint => mint.get .transferFeeConfig
  | _ => none

/-! ### Data that carries the slots -/

/-- **The data of a mint, initialized or still to be, with a configuration that has the slots.** -/
inductive Carries (fees : Slots TransferFee) : AccountData → Prop
  | staged {b : Buffer} {config : TransferFeeConfig} (len : b.len ≠ multisigLen) (ofMint : b.OfMint)
      (held : b.get .transferFeeConfig = some config) (same : config.slots = fees) :
      Carries fees (.zeroed b)
  | opened {mint : MintState} {config : TransferFeeConfig}
      (held : mint.get .transferFeeConfig = some config) (same : config.slots = fees) :
      Carries fees (.mint mint)

theorem carries_iff {data : AccountData} :
    Carries fees data ↔
      CarriesExtension .transferFeeConfig (fun config => config.slots = fees) data := by
  constructor
  · intro carries
    cases carries with
    | staged len ofMint held same => exact .staged len ofMint held same
    | opened held same => exact .opened held same
  · intro carries
    cases carries with
    | staged len ofMint held same => exact .staged len ofMint held same
    | opened held same => exact .opened held same

theorem Carries.config (carries : Carries fees (L m).data) :
    ∃ config, L.transferFeeConfig? m = some config ∧ config.slots = fees :=
  (carries_iff.mp carries).extension

/-! ### All other instructions -/

/-- **An update of an extension leaves the fees**, unless it sets them. -/
theorem MintUpdate.slots {mint : MintState} {t : ExtensionType} {e e' : Extension t}
    (update : MintUpdate i validated mint t e e')
    (others : ∀ bps maximumFee,
      i.instruction ≠ .transferFeeExtension (.setTransferFee bps maximumFee))
    (same : t = .transferFeeConfig) :
    TransferFeeConfig.slots (same ▸ e' : Extension .transferFeeConfig) =
      TransferFeeConfig.slots (same ▸ e : Extension .transferFeeConfig) := by
  cases update with
  | @rotate type field e key new named authority signed =>
    cases type <;> cases named <;> cases same <;> rfl
  | setTransferFee named => exact absurd named (others _ _)
  | withhold => rfl
  | _ => cases same

/-! ### Setting the fee -/

theorem Invocation.feeSubmission?_setTransferFee {bps : UInt16} {maximumFee : UInt64}
    (named : i.instruction = .transferFeeExtension (.setTransferFee bps maximumFee)) :
    i.feeSubmission? m = if i.key? 0 = some m then
      some (i.env.epoch, ⟨min (i.env.epoch + 2) (2 ^ 64 - 1), maximumFee.toNat, bps.toNat⟩)
      else none := by
  simp only [Invocation.feeSubmission?, named]

/-- Other instructions submit no fee. -/
theorem Invocation.feeSubmission?_of_others
    (others : ∀ bps maximumFee,
      i.instruction ≠ .transferFeeExtension (.setTransferFee bps maximumFee)) :
    i.feeSubmission? m = none := by
  unfold Invocation.feeSubmission?
  split
  · rename_i bps maximumFee named
    exact absurd named (others bps maximumFee)
  · rfl

/-- **`SetTransferFee` submits its fee with a delay of two epochs.** -/
theorem processSetTransferFee_slots {bps : UInt16} {maximumFee : UInt64}
    (named : i.instruction = .transferFeeExtension (.setTransferFee bps maximumFee))
    (early : i.key? 0 = some m → i.env.epoch + 2 < 2 ^ 64) (ok : i.run L = .ok outcome)
    (carries : Carries fees (L m).data) :
    (outcome.ledger m).owner = (L m).owner ∧
      Carries ((i.feeSubmission? m).elim fees (fees.submit 2)) (outcome.ledger m).data := by
  unfold Invocation.run at ok
  rw [named] at ok
  rw [Invocation.feeSubmission?_setTransferFee named]
  replace ok : processSetTransferFee i.env L i.accounts bps.toNat maximumFee.toNat =
    .ok outcome := ok
  have moved := updateMintExtension_moves (m := m) (t := .transferFeeConfig)
    (Q := fun (config : TransferFeeConfig) => config.slots = fees.submit 2
      (i.env.epoch, ⟨min (i.env.epoch + 2) (2 ^ 64 - 1), maximumFee.toNat, bps.toNat⟩))
    (fun target config config' same updated => ?_) ok (carries_iff.mp carries)
  · refine ⟨moved.1, carries_iff.mpr ?_⟩
    by_cases target : i.key? 0 = some m
    · rw [if_pos target] at moved ⊢
      exact moved.2
    · rw [if_neg target] at moved ⊢
      exact moved.2
  · have epochLt := early target
    have starts : min (i.env.epoch + 2) (2 ^ 64 - 1) = i.env.epoch + 2 := by omega
    simp only [bind_eq_ok_iff, require_eq_ok_iff, Except.ok.injEq, exists_const] at updated
    obtain ⟨-, rfl⟩ := updated
    subst same
    simp only [TransferFeeConfig.slots, Slots.submit, Slots.inForce, starts]
    rfl

/-! ### Steps and runs -/

/-- **One step**: the fees move by what the step submits, and stay otherwise. -/
theorem Step.carries {e : Event} (step : Step L e L') (stays : ¬ e.closes m)
    (once : ¬ e.initializesTransferFee m)
    (early : ∀ s, e.feeSubmission? m = some s → s.1 + 2 < 2 ^ 64)
    (init : (L m).owner = programId ∧ Carries fees (L m).data) :
    (L' m).owner = programId ∧
      Carries ((e.feeSubmission? m).elim fees (fees.submit 2)) (L' m).data := by
  by_cases sets : ∃ i bps maximumFee, e = .invoke i ∧
      i.instruction = .transferFeeExtension (.setTransferFee bps maximumFee)
  · obtain ⟨i, bps, maximumFee, rfl, named⟩ := sets
    cases step with
    | invoke ok =>
      have bounded : i.key? 0 = some m → i.env.epoch + 2 < 2 ^ 64 := by
        intro target
        exact early _ ((Invocation.feeSubmission?_setTransferFee named).trans (if_pos target))
      obtain ⟨owner, carries⟩ := processSetTransferFee_slots named bounded ok init.2
      exact ⟨owner.trans init.1, carries⟩
  · have others : ∀ i, e = .invoke i → ∀ bps maximumFee,
        i.instruction ≠ .transferFeeExtension (.setTransferFee bps maximumFee) :=
      fun i same bps maximumFee named => sets ⟨i, bps, maximumFee, same, named⟩
    have none : e.feeSubmission? m = none := by
      cases e with
      | external => rfl
      | invoke i => exact Invocation.feeSubmission?_of_others (others i rfl)
    rw [none, Option.elim_none, carries_iff]
    refine step.carriesExtension (by decide) stays (mt initializesTransferFee_of_stages once)
      (fun i validated mint config config' same update slots => ?_)
      ⟨init.1, carries_iff.mp init.2⟩
    exact (update.slots (others i same) rfl).trans slots

/-- **A run**: the fees are what its submissions, one after the other, make of them. -/
theorem Runs.carries {events : List Event} (run : Runs L events L')
    (stays : ∀ e ∈ events, ¬ e.closes m) (once : ∀ e ∈ events, ¬ e.initializesTransferFee m)
    (early : ∀ s ∈ feeSubmissions m events, s.1 + 2 < 2 ^ 64)
    (init : (L m).owner = programId ∧ Carries fees (L m).data) :
    (L' m).owner = programId ∧
      Carries ((feeSubmissions m events).foldl (Slots.submit 2) fees) (L' m).data :=
  run.submitted_invariant
    (I := fun L fees => (L m).owner = programId ∧ Carries fees (L m).data)
    (C := fun e => ¬ e.closes m ∧ ¬ e.initializesTransferFee m ∧
      ∀ s, e.feeSubmission? m = some s → s.1 + 2 < 2 ^ 64)
    (fun e member => ⟨stays e member, once e member, fun s submitted =>
      early s (List.mem_filterMap.mpr ⟨e, member, submitted⟩)⟩)
    (fun _ _ _ _ meets init step => step.carries meets.1 meets.2.1 meets.2.2 init) init

/-- **The initialization puts its fee into both places.** -/
theorem processInitializeTransferFeeConfig_carries {a w : Option Address} {bps : UInt16}
    {maximumFee : UInt64}
    (named : i.instruction =
      .transferFeeExtension (.initializeTransferFeeConfig a w bps maximumFee))
    (target : i.key? 0 = some m) (ok : i.run L = .ok outcome) :
    (outcome.ledger m).owner = programId ∧
      Carries ⟨⟨i.env.epoch, maximumFee.toNat, bps.toNat⟩,
        ⟨i.env.epoch, maximumFee.toNat, bps.toNat⟩, i.env.epoch⟩ (outcome.ledger m).data := by
  unfold Invocation.run at ok
  rw [named] at ok
  replace ok : processInitializeTransferFeeConfig i.env L i.accounts a w bps.toNat maximumFee.toNat =
    .ok outcome := ok
  rw [carries_iff]
  refine initializeMintExtension_starts target (fun config given => ?_) ok
  simp only [bind_eq_ok_iff, require_eq_ok_iff, Except.ok.injEq, exists_const] at given
  obtain ⟨_, -, _, -, -, rfl⟩ := given
  rfl

/-- A submitted fee starts two epochs after its submission, with saturation. -/
theorem feeSubmissions_epoch {events : List Event} {s : ℕ × TransferFee}
    (member : s ∈ feeSubmissions m events) : s.2.epoch = min (s.1 + 2) (2 ^ 64 - 1) := by
  obtain ⟨e, -, submitted⟩ := List.mem_filterMap.mp member
  cases e with
  | external => cases submitted
  | invoke i =>
    replace submitted : i.feeSubmission? m = some s := submitted
    unfold Invocation.feeSubmission? at submitted
    split at submitted
    · split at submitted
      · exact Option.some.inj submitted ▸ rfl
      · cases submitted
    · cases submitted

theorem feeSubmissions_append {events events' : List Event} :
    feeSubmissions m (events ++ events') = feeSubmissions m events ++ feeSubmissions m events' :=
  List.filterMap_append

/-- The fee in force after a run, by its submissions. -/
theorem Runs.epochFee {events : List Event} {initial : TransferFee} {opened E : ℕ}
    (run : Runs L events L') (stays : ∀ e ∈ events, ¬ e.closes m)
    (once : ∀ e ∈ events, ¬ e.initializesTransferFee m)
    (nondecreasing : (feeSubmissions m events).Pairwise fun s s' => s.1 ≤ s'.1)
    (bounds : ∀ s ∈ feeSubmissions m events, s.1 + 2 < 2 ^ 64 ∧ s.1 ≤ E)
    (init : (L m).owner = programId ∧ Carries ⟨initial, initial, opened⟩ (L m).data) :
    ∃ config, L'.transferFeeConfig? m = some config ∧
      config.getEpochFee E = (settled 2 E (feeSubmissions m events)).getD initial := by
  obtain ⟨-, carries⟩ := run.carries stays once (fun s member => (bounds s member).1) init
  obtain ⟨config, held, same⟩ := carries.config
  refine ⟨config, held, ?_⟩
  rw [config.getEpochFee_eq, same,
    inForce_submit_all nondecreasing fun s member => (bounds s member).2]

/-- **No fee is in force less than two epochs after its submission.** -/
theorem due_of_inForce {events : List Event} {initial : TransferFee} {E : ℕ}
    (bounds : ∀ s ∈ feeSubmissions m events,
      initial.epoch ≤ s.1 ∧ s.1 ≤ 2 ^ 64 - 1 - 2 ∧ s.1 ≤ E) {s : ℕ × TransferFee}
    (member : s ∈ feeSubmissions m events)
    (inForce : (settled 2 E (feeSubmissions m events)).getD initial = s.2) : s.1 + 2 ≤ E := by
  have starts := feeSubmissions_epoch member
  have bound := bounds s member
  cases found : settled 2 E (feeSubmissions m events) with
  | none =>
    -- the initial fee starts before every submitted one
    rw [found, Option.getD_none] at inForce
    rw [inForce] at bound
    omega
  | some fee =>
    rw [found, Option.getD_some] at inForce
    obtain ⟨time, submitted, due⟩ := settled_due found
    have feeStarts : fee.epoch = min (time + 2) (2 ^ 64 - 1) := feeSubmissions_epoch submitted
    have timeBound : initial.epoch ≤ time ∧ time ≤ 2 ^ 64 - 1 - 2 ∧ time ≤ E := bounds _ submitted
    rw [inForce] at feeStarts
    omega

/-- **The transfer-fee schedule cannot surprise users.** In every run that follows the
initialization of a mint's transfer fees, does not repeat it and does not close the mint, and that
sets fees at epochs which never fall: the fee in force in the epoch `E` that the run has reached is
that of the latest submission two epochs old which no other one followed within its two epochs, or
the initial fee. Whatever is submitted in the epoch `E` does not change it; and no fee is in force
less than two epochs after its submission. -/
theorem fee_schedule {L L' : Ledger} {i : Invocation} {outcome : Outcome} {m : Address}
    {a w : Option Address} {bps : UInt16} {maximumFee : UInt64} {events : List Event} {E : ℕ}
    (named : i.instruction =
      .transferFeeExtension (.initializeTransferFeeConfig a w bps maximumFee))
    (target : i.key? 0 = some m) (ok : i.run L = .ok outcome)
    (run : Runs outcome.ledger events L') (stays : ∀ e ∈ events, ¬ e.closes m)
    (once : ∀ e ∈ events, ¬ e.initializesTransferFee m)
    (nondecreasing : (feeSubmissions m events).Pairwise fun s s' => s.1 ≤ s'.1)
    (bounds : ∀ s ∈ feeSubmissions m events,
      i.env.epoch ≤ s.1 ∧ s.1 ≤ 2 ^ 64 - 1 - 2 ∧ s.1 ≤ E) :
    ∃ config, L'.transferFeeConfig? m = some config ∧
      config.getEpochFee E = (settled 2 E (feeSubmissions m events)).getD
        ⟨i.env.epoch, maximumFee.toNat, bps.toNat⟩ ∧
      (∀ s ∈ feeSubmissions m events, config.getEpochFee E = s.2 → s.1 + 2 ≤ E) ∧
      ∀ events' L'', Runs L' events' L'' → (∀ e ∈ events', ¬ e.closes m) →
        (∀ e ∈ events', ¬ e.initializesTransferFee m) →
        (∀ s ∈ feeSubmissions m events', s.1 = E ∧ E ≤ 2 ^ 64 - 1 - 2) →
        ∃ config', L''.transferFeeConfig? m = some config' ∧
          config'.getEpochFee E = config.getEpochFee E := by
  have init := processInitializeTransferFeeConfig_carries named target ok
  have early : ∀ s ∈ feeSubmissions m events, s.1 + 2 < 2 ^ 64 ∧ s.1 ≤ E := by
    intro s member
    have bound := bounds s member
    exact ⟨by omega, bound.2.2⟩
  obtain ⟨config, held, law⟩ := run.epochFee stays once nondecreasing early init
  refine ⟨config, held, law, fun s member inForce => ?_, ?_⟩
  · rw [law] at inForce
    exact due_of_inForce bounds member inForce
  · intro events' L'' later stays' once' present
    have all : ∀ s ∈ feeSubmissions m (events ++ events'), s.1 + 2 < 2 ^ 64 ∧ s.1 ≤ E := by
      intro s member
      rw [feeSubmissions_append] at member
      rcases List.mem_append.mp member with member | member
      · exact early s member
      · have now := present s member
        omega
    have sorted : (feeSubmissions m (events ++ events')).Pairwise fun s s' => s.1 ≤ s'.1 := by
      rw [feeSubmissions_append, List.pairwise_append]
      refine ⟨nondecreasing, List.pairwise_of_forall_mem_list fun s member s' member' => ?_,
        fun s member s' member' => ?_⟩
      · exact ((present s member).1.trans (present s' member').1.symm).le
      · exact (early s member).2.trans (present s' member').1.ge
    have combined : Runs outcome.ledger (events ++ events') L'' := run.trans later
    obtain ⟨config', held', law'⟩ := combined.epochFee
      (fun e member => (List.mem_append.mp member).elim (stays e) (stays' e))
      (fun e member => (List.mem_append.mp member).elim (once e) (once' e)) sorted all init
    refine ⟨config', held', ?_⟩
    rw [law', law, feeSubmissions_append, settled_append_now (by norm_num)
      (fun s member => (early s member).2) fun s member => (present s member).1]

namespace Basic

/-- The initialization of a fee of one percent, at most 10. -/
def initializeFee : Invocation :=
  .basic (.transferFeeExtension (.initializeTransferFeeConfig (some owner) none 100 10))
    [.plain mint]

/-- The invocation that sets a fee in an epoch. -/
def setFee (epoch : ℕ) (bps : UInt16) : Turn :=
  .invoke {
    env := { Env.basic with epoch }
    accounts := [.plain mint, .signer owner]
    instruction := .transferFeeExtension (.setTransferFee bps 10) }

/-- The mint is opened, and its fee is set in two epochs in a row. -/
def scheduleTurns : List Turn :=
  [.basic (.initializeMint2 0 owner none) [.plain mint], setFee 5 200, setFee 6 300]

end Basic

/-- Two fees set in the epochs 5 and 6: in the epoch 7 the initial fee is still in force. -/
theorem fee_schedule_example : ∃ L outcome L' config,
    runAll .fresh [.allocate Basic.mint 278] = .ok L ∧ Basic.initializeFee.run L = .ok outcome ∧
    runAll outcome.ledger Basic.scheduleTurns = .ok L' ∧
    L'.transferFeeConfig? Basic.mint = some config ∧ config.getEpochFee 7 = ⟨0, 10, 100⟩ := by
  have leads : LeadsTo (runAll .fresh [.allocate Basic.mint 278]) fun L =>
      LeadsTo (Basic.initializeFee.run L) fun outcome =>
      LeadsTo (runAll outcome.ledger Basic.scheduleTurns) fun _ => True := by
    decide +kernel
  obtain ⟨L, handed, leads⟩ := leads.exists
  obtain ⟨outcome, initialized, leads⟩ := leads.exists
  obtain ⟨L', ran, -⟩ := leads.exists
  have events : ∀ e ∈ Basic.scheduleTurns.map Turn.event, ∃ j, e = .invoke j ∧
      j.instruction ≠ .closeAccount ∧ ∀ a w bps maximumFee, j.instruction ≠
        .transferFeeExtension (.initializeTransferFeeConfig a w bps maximumFee) := by
    simp [Basic.scheduleTurns, Basic.setFee, Turn.basic, Turn.event, Invocation.basic]
  have submitted : feeSubmissions Basic.mint (Basic.scheduleTurns.map Turn.event) =
      [(5, ⟨7, 10, 200⟩), (6, ⟨8, 10, 300⟩)] := by
    decide +kernel
  obtain ⟨config, held, law, -⟩ := fee_schedule (E := 7) (m := Basic.mint) rfl rfl initialized
    (runs_of_runAll ran)
    (fun e member => by
      rintro ⟨i, rfl, named, -⟩
      obtain ⟨j, same, notClose, -⟩ := events _ member
      cases same
      exact notClose named)
    (fun e member => by
      rintro ⟨i, a, w, bps, maximumFee, rfl, -, named⟩
      obtain ⟨j, same, -, notInitialize⟩ := events _ member
      cases same
      exact notInitialize a w bps maximumFee named)
    (by rw [submitted]; decide) (by rw [submitted]; decide)
  refine ⟨L, outcome, L', config, handed, initialized, ran, held, law.trans ?_⟩
  rw [submitted]
  decide

end Token2022
