/-
**The schedule of the UI multiplier.**

A mint keeps two multipliers and the time at which the second one replaces the first. An update may
come before, at or after that time, and may itself lie in the past or in the future.

* `ScaledUiAmountConfig.scheduled` — the two multipliers as a value with one scheduled change.
* `multiplierUpdates` — the updates that a run makes of a mint, each with the time of the clock.
* `processUpdateMultiplier_schedules`, `Runs.schedules` — the one instruction that moves the
  multipliers, and a run, whose other instructions leave them.
* **`multiplier_schedule`** — in every run after the initialization the multiplier is the scheduled
  one, and each update does what it says.
-/

import Token2022.Invariant.MintExtension
import Token2022.Lib.ScheduledValue

namespace Token2022

open Fallible LabelledRun ScheduledValue

variable {i : Invocation} {L L' : Ledger} {outcome : Outcome} {validated : List Address}
  {m : Address} {multipliers : Scheduled ℤ PodF64}

/-! ### The multipliers and their updates -/

/-- The two multipliers, the new one from its time on. -/
def ScaledUiAmountConfig.scheduled (config : ScaledUiAmountConfig) : Scheduled ℤ PodF64 where
  value := config.multiplier
  next := config.newMultiplier
  start := config.newMultiplierEffectiveTimestamp

theorem ScaledUiAmountConfig.currentMultiplier_eq (config : ScaledUiAmountConfig) (time : ℤ) :
    config.currentMultiplier time = config.scheduled.inForce time := rfl

/-- The update of the multiplier that the invocation makes of the mint. -/
def Invocation.multiplierUpdate? (i : Invocation) (m : Address) : Option (Update ℤ PodF64) :=
  match i.instruction with
  | .scaledUiAmountExtension (.updateMultiplier multiplier timestamp) =>
    if i.key? 0 = some m then some ⟨i.env.unixTimestamp, timestamp.toInt, multiplier⟩ else none
  | _ => none

/-- The update of the multiplier that the event makes of the mint. -/
def Event.multiplierUpdate? (e : Event) (m : Address) : Option (Update ℤ PodF64) :=
  match e with
  | .invoke i => i.multiplierUpdate? m
  | .external => none

/-- The updates of the multiplier that a run makes of the mint, oldest first. -/
def multiplierUpdates (m : Address) (events : List Event) : List (Update ℤ PodF64) :=
  events.filterMap fun e => e.multiplierUpdate? m

/-- The data carry a configuration with the multipliers. -/
abbrev Schedules (multipliers : Scheduled ℤ PodF64) : AccountData → Prop :=
  CarriesExtension .scaledUiAmount fun config => config.scheduled = multipliers

/-! ### All other instructions -/

/-- **An update of an extension leaves the multipliers**, unless it sets them. -/
theorem MintUpdate.scheduled {mint : MintState} {t : ExtensionType} {e e' : Extension t}
    (update : MintUpdate i validated mint t e e')
    (others : ∀ multiplier timestamp,
      i.instruction ≠ .scaledUiAmountExtension (.updateMultiplier multiplier timestamp))
    (same : t = .scaledUiAmount) :
    ScaledUiAmountConfig.scheduled (same ▸ e' : Extension .scaledUiAmount) =
      ScaledUiAmountConfig.scheduled (same ▸ e : Extension .scaledUiAmount) := by
  cases update with
  | @rotate type field e key new named authority signed =>
    cases type <;> cases named <;> cases same
    rfl
  | updateMultiplier named => exact absurd named (others _ _)
  | _ => cases same

/-! ### Updating the multiplier -/

theorem Invocation.multiplierUpdate?_updateMultiplier {multiplier : PodF64} {timestamp : Int64}
    (named : i.instruction =
      .scaledUiAmountExtension (.updateMultiplier multiplier timestamp)) :
    i.multiplierUpdate? m = if i.key? 0 = some m then
      some ⟨i.env.unixTimestamp, timestamp.toInt, multiplier⟩ else none := by
  simp only [Invocation.multiplierUpdate?, named]

/-- Other instructions make no update. -/
theorem Invocation.multiplierUpdate?_of_others
    (others : ∀ multiplier timestamp,
      i.instruction ≠ .scaledUiAmountExtension (.updateMultiplier multiplier timestamp)) :
    i.multiplierUpdate? m = none := by
  unfold Invocation.multiplierUpdate?
  split
  · rename_i multiplier timestamp named
    exact absurd named (others multiplier timestamp)
  · rfl

/-- **`UpdateMultiplier` makes its update**, with times before zero moved to zero. -/
theorem processUpdateMultiplier_schedules {multiplier : PodF64} {timestamp : Int64}
    (named : i.instruction =
      .scaledUiAmountExtension (.updateMultiplier multiplier timestamp))
    (ok : i.run L = .ok outcome) (schedules : Schedules multipliers (L m).data) :
    (outcome.ledger m).owner = (L m).owner ∧
      Schedules ((i.multiplierUpdate? m).elim multipliers (multipliers.update 0))
        (outcome.ledger m).data := by
  unfold Invocation.run at ok
  rw [named] at ok
  rw [Invocation.multiplierUpdate?_updateMultiplier named]
  replace ok : processUpdateMultiplier i.env L i.accounts multiplier timestamp.toInt =
    .ok outcome := ok
  have moved := updateMintExtension_moves (m := m) (t := .scaledUiAmount)
    (Q := fun (config : ScaledUiAmountConfig) => config.scheduled = multipliers.update 0
      ⟨i.env.unixTimestamp, timestamp.toInt, multiplier⟩)
    (fun target config config' same updated => ?_) ok schedules
  · refine ⟨moved.1, ?_⟩
    by_cases target : i.key? 0 = some m
    · rw [if_pos target] at moved ⊢
      exact moved.2
    · rw [if_neg target] at moved ⊢
      exact moved.2
  · obtain ⟨_, -, stored⟩ := bind_eq_ok_iff.mp updated
    obtain rfl := Except.ok.inj stored
    subst same
    rfl

/-! ### Steps and runs -/

/-- **One step**: the multipliers move by the update that the step makes, and stay otherwise. -/
theorem Step.schedules {e : Event} (step : Step L e L') (stays : ¬ e.closes m)
    (once : ¬ e.stages m .scaledUiAmount)
    (init : (L m).owner = programId ∧ Schedules multipliers (L m).data) :
    (L' m).owner = programId ∧
      Schedules ((e.multiplierUpdate? m).elim multipliers (multipliers.update 0)) (L' m).data := by
  by_cases updates : ∃ i multiplier timestamp, e = .invoke i ∧
      i.instruction = .scaledUiAmountExtension (.updateMultiplier multiplier timestamp)
  · obtain ⟨i, multiplier, timestamp, rfl, named⟩ := updates
    cases step with
    | invoke ok =>
      obtain ⟨owner, schedules⟩ := processUpdateMultiplier_schedules named ok init.2
      exact ⟨owner.trans init.1, schedules⟩
  · have others : ∀ i, e = .invoke i → ∀ multiplier timestamp,
        i.instruction ≠ .scaledUiAmountExtension (.updateMultiplier multiplier timestamp) :=
      fun i same multiplier timestamp named => updates ⟨i, multiplier, timestamp, same, named⟩
    have none : e.multiplierUpdate? m = none := by
      cases e with
      | external => rfl
      | invoke i => exact Invocation.multiplierUpdate?_of_others (others i rfl)
    rw [none]
    refine step.carriesExtension (by decide) stays once
      (fun i validated mint config config' same update kept => ?_) init
    exact (update.scheduled (others i same) rfl).trans kept

/-- **A run**: the multipliers are what its updates, one after the other, make of them. -/
theorem Runs.schedules {events : List Event} (run : Runs L events L')
    (open' : ∀ e ∈ events, ¬ e.closes m ∧ ¬ e.stages m .scaledUiAmount)
    (init : (L m).owner = programId ∧ Schedules multipliers (L m).data) :
    (L' m).owner = programId ∧
      Schedules ((multiplierUpdates m events).foldl (Scheduled.update 0) multipliers)
        (L' m).data :=
  run.submitted_invariant
    (I := fun L multipliers => (L m).owner = programId ∧ Schedules multipliers (L m).data) open'
    (fun _ _ _ _ kept init step => step.schedules kept.1 kept.2 init) init

/-- **The initialization puts its multiplier into both places.** -/
theorem processInitializeScaledUiAmount_schedules {authority : MaybeNull Address}
    {multiplier : PodF64}
    (named : i.instruction = .scaledUiAmountExtension (.initializeExtension authority multiplier))
    (target : i.key? 0 = some m) (ok : i.run L = .ok outcome) :
    (outcome.ledger m).owner = programId ∧
      Schedules ⟨multiplier, multiplier, 0⟩ (outcome.ledger m).data := by
  unfold Invocation.run at ok
  rw [named] at ok
  replace ok : processInitializeScaledUiAmount L i.accounts authority multiplier = .ok outcome := ok
  refine initializeMintExtension_starts target (fun config given => ?_) ok
  obtain ⟨_, -, stored⟩ := bind_eq_ok_iff.mp given
  obtain rfl := Except.ok.inj stored
  rfl

/-! ### The schedule -/

/-- What `UpdateMultiplier` makes of the multiplier in force, in the runs that follow it up to the
next update. -/
def UpdatesMultiplier (m : Address) (config : ScaledUiAmountConfig) (L : Ledger)
    (u : Update ℤ PodF64) : Prop :=
  ∀ events L', Runs L events L' → (∀ e ∈ events, ¬ e.closes m ∧ ¬ e.stages m .scaledUiAmount) →
    multiplierUpdates m events = [] →
    ∃ config', L'.mintExtension? m .scaledUiAmount = some config' ∧
      ∀ time, u.now ≤ time → config'.currentMultiplier time =
        if u.start ≤ time then u.value else config.currentMultiplier u.now

/-- **The schedule of the multiplier is respected.** In every run that follows the initialization of
a mint's multiplier, does not repeat it and does not close the mint, and that updates the multiplier
at times which never fall and are not negative: from the last update on, the multiplier in force is
the scheduled one. The next update `j`, at no earlier time, does what it says: until another one
follows, its multiplier is in force from its time on, and before that the one in force is the one
that was when `j` came. So a time that has passed counts at once, and one that lies ahead changes
nothing at present. -/
theorem multiplier_schedule {L L' : Ledger} {i : Invocation} {outcome : Outcome} {m : Address}
    {authority : MaybeNull Address} {multiplier : PodF64} {events : List Event}
    (named : i.instruction = .scaledUiAmountExtension (.initializeExtension authority multiplier))
    (target : i.key? 0 = some m) (ok : i.run L = .ok outcome)
    (run : Runs outcome.ledger events L')
    (open' : ∀ e ∈ events, ¬ e.closes m ∧ ¬ e.stages m .scaledUiAmount)
    (nondecreasing : (multiplierUpdates m events).Pairwise fun u u' => u.now ≤ u'.now)
    (clock : ∀ u ∈ multiplierUpdates m events, 0 ≤ u.now) :
    ∃ config, L'.mintExtension? m .scaledUiAmount = some config ∧
      (∀ time, (∀ u ∈ multiplierUpdates m events, u.now ≤ time) →
        config.currentMultiplier time = schedule multiplier (multiplierUpdates m events) time) ∧
      ∀ (j : Invocation) (outcome' : Outcome) (u : Update ℤ PodF64), j.run L' = .ok outcome' →
        j.multiplierUpdate? m = some u → 0 ≤ u.now →
        UpdatesMultiplier m config outcome'.ledger u ∧
        ∃ config', outcome'.ledger.mintExtension? m .scaledUiAmount = some config' ∧
          (u.start ≤ u.now → config'.currentMultiplier u.now = u.value) ∧
          (u.now < u.start →
            config'.currentMultiplier u.now = config.currentMultiplier u.now) := by
  have init := processInitializeScaledUiAmount_schedules named target ok
  obtain ⟨owned, schedules⟩ := run.schedules open' init
  obtain ⟨config, held, same⟩ := schedules.extension
  refine ⟨config, held, fun time later => ?_, fun j outcome' u ran updates positive => ?_⟩
  · rw [config.currentMultiplier_eq, same]
    exact inForce_update_all clock nondecreasing later
  · have follows : UpdatesMultiplier m config outcome'.ledger u := by
      intro events' L'' run' stays none
      obtain ⟨multiplier', timestamp, named'⟩ : ∃ multiplier' timestamp,
          j.instruction = .scaledUiAmountExtension (.updateMultiplier multiplier' timestamp) := by
        by_contra others
        rw [Invocation.multiplierUpdate?_of_others fun multiplier' timestamp named' =>
          others ⟨multiplier', timestamp, named'⟩] at updates
        cases updates
      obtain ⟨owner, updated⟩ := processUpdateMultiplier_schedules named' ran schedules
      rw [updates] at updated
      obtain ⟨-, later⟩ := run'.schedules stays ⟨owner.trans owned, updated⟩
      rw [none] at later
      obtain ⟨config', held', same'⟩ := later.extension
      refine ⟨config', held', fun time after => ?_⟩
      rw [config'.currentMultiplier_eq, same', config.currentMultiplier_eq, same]
      exact inForce_update positive after
    obtain ⟨config', held', law⟩ := follows [] _ .start (by simp) rfl
    refine ⟨follows, config', held', fun due => ?_, fun ahead => ?_⟩
    · rw [law u.now le_rfl, if_pos due]
    · rw [law u.now le_rfl, if_neg (not_le.mpr ahead)]

namespace Basic

/-- The initialization of a multiplier of one. -/
def initializeMultiplier : Invocation :=
  .basic (.scaledUiAmountExtension (.initializeExtension ⟨owner⟩ 0x3ff0000000000000))
    [.plain mint]

/-- The invocation that updates the multiplier, at a time and with another one for its start. -/
def updateMultiplier (now : ℤ) (multiplier : PodF64) (start : Int64) : Turn :=
  .invoke {
    env := { Env.basic with unixTimestamp := now }
    accounts := [.plain mint, .signer owner]
    instruction := .scaledUiAmountExtension (.updateMultiplier multiplier start) }

/-- The mint is opened. At the time 5 its multiplier is to be two from the time 10 on, and at the
time 12 it is to be three from the time 30 on. -/
def multiplierTurns : List Turn :=
  [.basic (.initializeMint2 0 owner none) [.plain mint],
    updateMultiplier 5 0x4000000000000000 10, updateMultiplier 12 0x4008000000000000 30]

end Basic

/-- The multiplier of two counts already when it is overwritten: it is in force at the time 20. -/
theorem multiplier_schedule_example : ∃ L outcome L' config,
    runAll .fresh [.allocate Basic.mint 226] = .ok L ∧
    Basic.initializeMultiplier.run L = .ok outcome ∧
    runAll outcome.ledger Basic.multiplierTurns = .ok L' ∧
    L'.mintExtension? Basic.mint .scaledUiAmount = some config ∧
    config.currentMultiplier 20 = 0x4000000000000000 := by
  have leads : LeadsTo (runAll .fresh [.allocate Basic.mint 226]) fun L =>
      LeadsTo (Basic.initializeMultiplier.run L) fun outcome =>
      LeadsTo (runAll outcome.ledger Basic.multiplierTurns) fun _ => True := by
    decide +kernel
  obtain ⟨L, handed, leads⟩ := leads.exists
  obtain ⟨outcome, initialized, leads⟩ := leads.exists
  obtain ⟨L', ran, -⟩ := leads.exists
  have events : ∀ e ∈ Basic.multiplierTurns.map Turn.event, ∃ j, e = .invoke j ∧
      j.instruction ≠ .closeAccount ∧ j.instruction.stages ≠ some .scaledUiAmount := by
    intro e member
    simp only [Basic.multiplierTurns, List.map_cons, List.map_nil, List.mem_cons,
      List.not_mem_nil, or_false] at member
    rcases member with rfl | rfl | rfl
    all_goals exact ⟨_, rfl, by decide, by decide⟩
  have updates : multiplierUpdates Basic.mint (Basic.multiplierTurns.map Turn.event) =
      [⟨5, 10, 0x4000000000000000⟩, ⟨12, 30, 0x4008000000000000⟩] := by
    decide +kernel
  obtain ⟨config, held, law, -⟩ := multiplier_schedule (m := Basic.mint) rfl rfl initialized
    (runs_of_runAll ran)
    (fun e member => by
      obtain ⟨j, rfl, notClose, notStage⟩ := events e member
      constructor
      · rintro ⟨i, same, named, -⟩
        exact notClose (Event.invoke.inj same ▸ named)
      · rintro ⟨i, same, -, staged⟩
        exact notStage (Event.invoke.inj same ▸ staged))
    (by rw [updates]; simp) (by rw [updates]; simp)
  refine ⟨L, outcome, L', config, handed, initialized, ran, held, (law 20 ?_).trans ?_⟩
  · rw [updates]
    simp
  · rw [updates]
    decide

end Token2022
