/-
**The rate of an interest-bearing mint.**

A mint keeps its current rate, and of the rates before only their average, weighted by the time for
which each was in force: an integer of basis points, computed anew at every update.

* `rateHistory` — the rates that a run sets on a mint, each with its time.
* `timeWeightedAverageRate_eq` — on a sound history, nothing in the computation fails.
* `Step.tracks`, `Runs.tracks` — the configuration keeps what is sound of the history.
* **`rate_update_never_stuck`** — no update overflows, and the average is within the rates so far.
* **`average_rate_drift`** — how far the average is from the exact one; **`average_rate_drifts`** — that
  this is more than one basis point.
-/

import Token2022.Invariant.MintExtension
import Token2022.Lib.RunningAverage
import Token2022.Refinement.NoOverflow

namespace Token2022

open Fallible LabelledRun RunningAverage

variable {i : Invocation} {L L' : Ledger} {outcome : Outcome} {validated : List Address}
  {m : Address} {history : List (ℤ × ℤ)}

/-! ### Rates and their times -/

/-- The rate that the invocation sets on the mint, with the time at which it does. -/
def Invocation.rateUpdate? (i : Invocation) (m : Address) : Option (ℤ × ℤ) :=
  match i.instruction with
  | .interestBearingMintExtension (.updateRate newRate) =>
    if i.key? 0 = some m then some (i.env.unixTimestamp, newRate.toInt) else none
  | _ => none

/-- The rate that the event sets on the mint. -/
def Event.rateUpdate? (e : Event) (m : Address) : Option (ℤ × ℤ) :=
  match e with
  | .invoke i => i.rateUpdate? m
  | .external => none

/-- The rates that a run sets on the mint, oldest first. -/
def rateUpdates (m : Address) (events : List Event) : List (ℤ × ℤ) :=
  events.filterMap fun e => e.rateUpdate? m

/-- **The rates of a mint**: the one it is initialized with, and those of the run that follows. -/
def rateHistory (i : Invocation) (rate : Int16) (m : Address) (events : List Event) :
    List (ℤ × ℤ) :=
  (i.env.unixTimestamp, rate.toInt) :: rateUpdates m events

theorem rateUpdates_append {events : List Event} {e : Event} :
    rateUpdates m (events ++ [e]) = rateUpdates m events ++ (e.rateUpdate? m).toList := by
  rw [rateUpdates, List.filterMap_append]
  cases set : e.rateUpdate? m <;> simp [rateUpdates, set]

/-- Times of a clock: 64-bit numbers that never fall. -/
structure Clocked (history : List (ℤ × ℤ)) : Prop where
  nondecreasing : history.Pairwise fun c c' => c.1 ≤ c'.1
  inRange : ∀ c ∈ history, -2 ^ 63 ≤ c.1 ∧ c.1 < 2 ^ 63

theorem Clocked.before {later : List (ℤ × ℤ)} (clocked : Clocked (history ++ later)) :
    Clocked history where
  nondecreasing := (List.pairwise_append.mp clocked.nondecreasing).1
  inRange c member := clocked.inRange c (List.mem_append_left _ member)

/-- What the configuration keeps of the rates. -/
def InterestBearingConfig.track (config : InterestBearingConfig) : Track where
  start := config.initializationTimestamp
  average := config.preUpdateAverageRate
  last := config.lastUpdateTimestamp
  current := config.currentRate

theorem InterestBearingConfig.track_averageAt (config : InterestBearingConfig) (now : ℤ) :
    config.track.averageAt now = if now = config.initializationTimestamp then config.currentRate
      else (config.preUpdateAverageRate *
          (config.lastUpdateTimestamp - config.initializationTimestamp) +
        config.currentRate * (now - config.lastUpdateTimestamp)).tdiv
          (now - config.initializationTimestamp) := rfl

/-- **The configuration keeps a history of rates.** -/
structure Tracks (history : List (ℤ × ℤ)) (config : InterestBearingConfig) : Prop where
  sound : Sound history config.track
  rates : ∀ c ∈ history, -2 ^ 15 ≤ c.2 ∧ c.2 ≤ 2 ^ 15 - 1
  started : -2 ^ 63 ≤ config.initializationTimestamp

theorem int16_bounds (rate : Int16) : -2 ^ 15 ≤ rate.toInt ∧ rate.toInt ≤ 2 ^ 15 - 1 :=
  ⟨rate.le_toInt, Int.le_sub_one_of_lt rate.toInt_lt⟩

/-! ### Nothing fails -/

theorem checkedI128_of_range {n : ℤ} (lower : -2 ^ 127 ≤ n) (upper : n < 2 ^ 127) :
    checkedI128 n = some n := if_pos ⟨lower, upper⟩

/-- A rate times a time. -/
theorem rate_mul_bounds {r t : ℤ} (rate : -2 ^ 15 ≤ r ∧ r ≤ 2 ^ 15 - 1) (time : 0 ≤ t)
    (short : t ≤ 2 ^ 64) : -2 ^ 79 ≤ r * t ∧ r * t ≤ 2 ^ 79 := by
  constructor
  · calc (-2 ^ 79 : ℤ) = -2 ^ 15 * 2 ^ 64 := by norm_num
      _ ≤ -2 ^ 15 * t := mul_le_mul_of_nonpos_left short (by norm_num)
      _ ≤ r * t := mul_le_mul_of_nonneg_right rate.1 time
  · calc r * t ≤ 2 ^ 15 * t := mul_le_mul_of_nonneg_right (by omega) time
      _ ≤ 2 ^ 15 * 2 ^ 64 := mul_le_mul_of_nonneg_left short (by norm_num)
      _ = 2 ^ 79 := by norm_num

/-- **On a history of rates the computation gives the average**: no step of it fails. -/
theorem timeWeightedAverageRate_eq {config : InterestBearingConfig} (tracks : Tracks history config)
    {now : ℤ} (after : config.lastUpdateTimestamp ≤ now) (inRange : now < 2 ^ 63) :
    config.timeWeightedAverageRate now = some (config.track.averageAt now) := by
  have ordered : config.initializationTimestamp ≤ config.lastUpdateTimestamp := tracks.sound.ordered
  have started := tracks.started
  have average : -2 ^ 15 ≤ config.preUpdateAverageRate ∧
      config.preUpdateAverageRate ≤ 2 ^ 15 - 1 := tracks.sound.within _ _ tracks.rates
  obtain ⟨before, shape⟩ := tracks.sound.last
  have current : -2 ^ 15 ≤ config.currentRate ∧ config.currentRate ≤ 2 ^ 15 - 1 :=
    tracks.rates _ (shape ▸ List.mem_append_right before List.mem_cons_self)
  have result := tracks.sound.averageAt_within after tracks.rates
  have first := rate_mul_bounds (t := config.lastUpdateTimestamp - config.initializationTimestamp)
    average (by omega) (by omega)
  have second := rate_mul_bounds (t := now - config.lastUpdateTimestamp) current (by omega) (by omega)
  have elapsed : checkedI128 (config.lastUpdateTimestamp - config.initializationTimestamp) =
      some (config.lastUpdateTimestamp - config.initializationTimestamp) :=
    checkedI128_of_range (by omega) (by omega)
  have since : checkedI128 (now - config.lastUpdateTimestamp) =
      some (now - config.lastUpdateTimestamp) := checkedI128_of_range (by omega) (by omega)
  have total : checkedI128 (config.lastUpdateTimestamp - config.initializationTimestamp +
      (now - config.lastUpdateTimestamp)) = some (now - config.initializationTimestamp) := by
    rw [checkedI128_of_range (by omega) (by omega)]
    exact congrArg some (by ring)
  unfold InterestBearingConfig.timeWeightedAverageRate
  simp only [elapsed, since, total, Option.bind_eq_bind, Option.bind_some]
  rw [config.track_averageAt] at result ⊢
  by_cases none : now = config.initializationTimestamp
  · rw [if_pos none] at result ⊢
    rw [if_pos (sub_eq_zero.mpr none), Option.bind_some, if_pos ⟨current.1, by omega⟩]
  · rw [if_neg none] at result ⊢
    rw [if_neg (sub_ne_zero.mpr none), checkedI128_of_range (by omega) (by omega),
      Option.bind_some, checkedI128_of_range (by omega) (by omega), Option.bind_some,
      checkedI128_of_range (by omega) (by omega), Option.bind_some,
      checkedI128_of_range (by omega) (by omega), Option.bind_some, if_pos ⟨result.1, by omega⟩]

/-! ### Steps and runs -/

/-- The initialization keeps the first rate. -/
theorem processInitializeInterestBearing_tracks {a : MaybeNull Address} {rate : Int16}
    (named : i.instruction = .interestBearingMintExtension (.initializeExtension a rate))
    (target : i.key? 0 = some m) (started : -2 ^ 63 ≤ i.env.unixTimestamp)
    (ok : i.run L = .ok outcome) :
    (outcome.ledger m).owner = programId ∧
      CarriesExtension .interestBearingConfig (Tracks [(i.env.unixTimestamp, rate.toInt)])
        (outcome.ledger m).data := by
  unfold Invocation.run at ok
  rw [named] at ok
  refine initializeMintExtension_starts target (fun config given => ?_) ok
  obtain rfl := Except.ok.inj given
  exact {
    sound := sound_begin (i.env.unixTimestamp, rate.toInt)
    rates := fun c member => by
      obtain rfl := List.mem_singleton.mp member
      exact int16_bounds rate
    started }

/-- What comes next in the history is no earlier than the last update. -/
theorem Tracks.last_le {config : InterestBearingConfig} (tracks : Tracks history config)
    {change : ℤ × ℤ} (clocked : Clocked (history ++ [change])) :
    config.lastUpdateTimestamp ≤ change.1 := by
  obtain ⟨before, shape⟩ := tracks.sound.last
  have last : (config.track.last, config.track.current) ∈ history :=
    shape ▸ List.mem_append_right before List.mem_cons_self
  exact (List.pairwise_append.mp clocked.nondecreasing).2.2 _ last _ List.mem_cons_self

/-- An update of the rate adds to the history. -/
theorem Tracks.update {config : InterestBearingConfig} (tracks : Tracks history config) {now : ℤ}
    {newRate : Int16} {average : ℤ} (clocked : Clocked (history ++ [(now, newRate.toInt)]))
    (averaged : config.timeWeightedAverageRate now = some average) :
    Tracks (history ++ [(now, newRate.toInt)]) { config with
      preUpdateAverageRate := average
      lastUpdateTimestamp := now
      currentRate := newRate.toInt } := by
  have after : config.lastUpdateTimestamp ≤ now := tracks.last_le clocked
  have inRange : now < 2 ^ 63 := (clocked.inRange (now, newRate.toInt) (by simp)).2
  rw [timeWeightedAverageRate_eq tracks after inRange] at averaged
  obtain rfl := Option.some.inj averaged
  exact {
    sound := tracks.sound.update after
    rates := fun c member => by
      rcases List.mem_append.mp member with member | member
      · exact tracks.rates c member
      · obtain rfl := List.mem_singleton.mp member
        exact int16_bounds newRate
    started := tracks.started }

theorem Invocation.rateUpdate?_updateRate {newRate : Int16}
    (named : i.instruction = .interestBearingMintExtension (.updateRate newRate)) :
    i.rateUpdate? m =
      if i.key? 0 = some m then some (i.env.unixTimestamp, newRate.toInt) else none := by
  simp only [Invocation.rateUpdate?, named]

/-- An update at the end of a run is the last of the history. -/
theorem rateHistory_update {j : Invocation} {rate newRate : Int16} {events : List Event}
    (named : j.instruction = .interestBearingMintExtension (.updateRate newRate))
    (target : j.key? 0 = some m) :
    rateHistory i rate m (events ++ [.invoke j]) =
      rateHistory i rate m events ++ [(j.env.unixTimestamp, newRate.toInt)] := by
  have set : (Event.invoke j).rateUpdate? m = some (j.env.unixTimestamp, newRate.toInt) :=
    (Invocation.rateUpdate?_updateRate named).trans (if_pos target)
  rw [rateHistory, rateUpdates_append, set]
  rfl

/-- Other instructions set no rate. -/
theorem Event.rateUpdate?_of_others {e : Event}
    (others : ∀ i newRate, e = .invoke i →
      i.instruction ≠ .interestBearingMintExtension (.updateRate newRate)) :
    e.rateUpdate? m = none := by
  cases e with
  | external => rfl
  | invoke i =>
    show i.rateUpdate? m = none
    unfold Invocation.rateUpdate?
    split
    · rename_i newRate named
      exact absurd named (others i newRate rfl)
    · rfl

/-- **`UpdateRate` adds its rate to the history.** -/
theorem processUpdateRate_tracks {newRate : Int16}
    (named : i.instruction = .interestBearingMintExtension (.updateRate newRate))
    (clocked : Clocked (history ++ (i.rateUpdate? m).toList)) (ok : i.run L = .ok outcome)
    (carries : CarriesExtension .interestBearingConfig (Tracks history) (L m).data) :
    (outcome.ledger m).owner = (L m).owner ∧
      CarriesExtension .interestBearingConfig (Tracks (history ++ (i.rateUpdate? m).toList))
        (outcome.ledger m).data := by
  unfold Invocation.run at ok
  rw [named] at ok
  rw [Invocation.rateUpdate?_updateRate named] at clocked ⊢
  replace ok : processUpdateRate i.env L i.accounts newRate.toInt = .ok outcome := ok
  have moved := updateMintExtension_moves (m := m) (t := .interestBearingConfig)
    (Q := Tracks (history ++ [(i.env.unixTimestamp, newRate.toInt)]))
    (fun target config config' tracks updated => ?_) ok carries
  · by_cases target : i.key? 0 = some m
    · rw [if_pos target] at moved ⊢
      exact moved
    · rw [if_neg target] at moved ⊢
      rw [Option.toList_none, List.append_nil]
      exact moved
  · rw [if_pos target] at clocked
    simp only [bind_eq_ok_iff, okOr_eq_ok_iff, Except.ok.injEq] at updated
    obtain ⟨average, averaged, rfl⟩ := updated
    exact Tracks.update tracks clocked averaged

/-- What is kept of the rates is in the track. -/
theorem Tracks.of_track {config config' : InterestBearingConfig} (tracks : Tracks history config)
    (same : config'.track = config.track) : Tracks history config' where
  sound := same ▸ tracks.sound
  rates := tracks.rates
  started := by
    have start : config'.initializationTimestamp = config.initializationTimestamp :=
      congrArg Track.start same
    rw [start]
    exact tracks.started

/-- **Every other update of an extension leaves the rates.** -/
theorem MintUpdate.track {mint : MintState} {t : ExtensionType} {e e' : Extension t}
    (update : MintUpdate i validated mint t e e')
    (others : ∀ newRate, i.instruction ≠ .interestBearingMintExtension (.updateRate newRate))
    (same : t = .interestBearingConfig) :
    InterestBearingConfig.track (same ▸ e' : Extension .interestBearingConfig) =
      InterestBearingConfig.track (same ▸ e : Extension .interestBearingConfig) := by
  cases update with
  | @rotate type field e key new named authority signed =>
    cases type <;> cases named <;> cases same
    rfl
  | updateRate named => exact absurd named (others _)
  | _ => cases same

/-- **One step**: the history grows by what the step sets. -/
theorem Step.tracks {e : Event} (step : Step L e L') (stays : ¬ e.closes m)
    (once : ¬ e.stages m .interestBearingConfig)
    (clocked : Clocked (history ++ (e.rateUpdate? m).toList))
    (init : (L m).owner = programId ∧
      CarriesExtension .interestBearingConfig (Tracks history) (L m).data) :
    (L' m).owner = programId ∧
      CarriesExtension .interestBearingConfig (Tracks (history ++ (e.rateUpdate? m).toList))
        (L' m).data := by
  by_cases sets : ∃ i newRate, e = .invoke i ∧
      i.instruction = .interestBearingMintExtension (.updateRate newRate)
  · obtain ⟨i, newRate, rfl, named⟩ := sets
    cases step with
    | invoke ok =>
      obtain ⟨owner, carries⟩ := processUpdateRate_tracks named clocked ok init.2
      exact ⟨owner.trans init.1, carries⟩
  · have others : ∀ i newRate, e = .invoke i →
        i.instruction ≠ .interestBearingMintExtension (.updateRate newRate) :=
      fun i newRate same named => sets ⟨i, newRate, same, named⟩
    rw [Event.rateUpdate?_of_others others, Option.toList_none, List.append_nil]
    refine step.carriesExtension (by decide) stays once
      (fun i validated mint config config' same update tracks => ?_) init
    exact Tracks.of_track tracks (update.track (fun newRate => others i newRate same) rfl)

/-- **A run**: the configuration keeps the first rate and all that the run sets. -/
theorem Runs.tracks {events : List Event} (run : Runs L events L')
    (stays : ∀ e ∈ events, ¬ e.closes m)
    (once : ∀ e ∈ events, ¬ e.stages m .interestBearingConfig)
    (clocked : Clocked (history ++ rateUpdates m events))
    (init : (L m).owner = programId ∧
      CarriesExtension .interestBearingConfig (Tracks history) (L m).data) :
    (L' m).owner = programId ∧
      CarriesExtension .interestBearingConfig (Tracks (history ++ rateUpdates m events))
        (L' m).data := by
  induction run with
  | start =>
    rw [rateUpdates, List.filterMap_nil, List.append_nil]
    exact init
  | @step events e mid last before one ih =>
    rw [rateUpdates_append, ← List.append_assoc] at clocked ⊢
    have soFar := ih (fun e member => stays e (List.mem_append_left _ member))
      (fun e member => once e (List.mem_append_left _ member)) clocked.before
    exact one.tracks (stays e (by simp)) (once e (by simp)) clocked soFar

/-- The configuration after a run that follows the initialization. -/
theorem Runs.rates {a : MaybeNull Address} {rate : Int16} {events : List Event}
    (named : i.instruction = .interestBearingMintExtension (.initializeExtension a rate))
    (target : i.key? 0 = some m) (ok : i.run L = .ok outcome) (run : Runs outcome.ledger events L')
    (stays : ∀ e ∈ events, ¬ e.closes m)
    (once : ∀ e ∈ events, ¬ e.stages m .interestBearingConfig)
    (clocked : Clocked (rateHistory i rate m events)) :
    CarriesExtension .interestBearingConfig (Tracks (rateHistory i rate m events))
      (L' m).data := by
  have started := (clocked.inRange _ List.mem_cons_self).1
  have init := processInitializeInterestBearing_tracks named target started ok
  exact (run.tracks stays once clocked init).2

/-! ### A run -/

namespace Basic

/-- The initialization of a rate of zero, at the time zero. -/
def initializeRate : Invocation :=
  .basic (.interestBearingMintExtension (.initializeExtension ⟨owner⟩ 0)) [.plain mint]

/-- The invocation that sets a rate at a time. -/
def setRate (now : ℤ) (rate : Int16) : Invocation where
  env := { Env.basic with unixTimestamp := now }
  accounts := [.plain mint, .signer owner]
  instruction := .interestBearingMintExtension (.updateRate rate)

/-- The mint is opened, and its rate is set at three times in a row. -/
def rateTurns : List Turn :=
  [.basic (.initializeMint2 0 owner none) [.plain mint], .invoke (setRate 100 100),
    .invoke (setRate 101 101), .invoke (setRate 102 0)]

/-- The events of this run. -/
def rateEvents : List Event := rateTurns.map Turn.event

theorem rateHistory_eq :
    rateHistory initializeRate 0 mint rateEvents = [(0, 0), (100, 100), (101, 101), (102, 0)] := by
  decide +kernel

/-- The run goes through, and ends with a stored average of zero. -/
theorem rate_run : ∃ L outcome L', runAll .fresh [.allocate mint 222] = .ok L ∧
    initializeRate.run L = .ok outcome ∧ runAll outcome.ledger rateTurns = .ok L' ∧
    (L'.mintExtension? mint .interestBearingConfig).map
      InterestBearingConfig.preUpdateAverageRate = some 0 := by
  have leads : LeadsTo (runAll .fresh [.allocate mint 222]) fun L =>
      LeadsTo (initializeRate.run L) fun outcome =>
      LeadsTo (runAll outcome.ledger rateTurns) fun L' =>
        (L'.mintExtension? mint .interestBearingConfig).map
          InterestBearingConfig.preUpdateAverageRate = some 0 := by
    decide +kernel
  obtain ⟨L, handed, leads⟩ := leads.exists
  obtain ⟨outcome, initialized, leads⟩ := leads.exists
  obtain ⟨L', ran, average⟩ := leads.exists
  exact ⟨L, outcome, L', handed, initialized, ran, average⟩

/-- No event of the run closes the mint, or initializes its rate again. -/
theorem rateEvents_stay :
    ∀ e ∈ rateEvents, ¬ e.closes mint ∧ ¬ e.stages mint .interestBearingConfig := by
  intro e member
  have named : ∃ j, e = .invoke j ∧ j.instruction ≠ .closeAccount ∧
      j.instruction.stages ≠ some .interestBearingConfig := by
    simp only [rateEvents, rateTurns, Turn.basic, List.map_cons, List.map_nil, Turn.event,
      List.mem_cons, List.not_mem_nil, or_false] at member
    rcases member with rfl | rfl | rfl | rfl
    all_goals exact ⟨_, rfl, nofun, nofun⟩
  obtain ⟨j, rfl, notClose, notStage⟩ := named
  constructor
  · rintro ⟨i, same, closes, -⟩
    cases same
    exact notClose closes
  · rintro ⟨i, same, -, stages⟩
    cases same
    exact notStage stages

theorem rateEvents_clocked (now : ℤ) (later : 102 ≤ now ∧ now < 2 ^ 63) (rate : Int16) :
    Clocked ([(0, 0), (100, 100), (101, 101), (102, 0)] ++ [(now, rate.toInt)]) where
  nondecreasing := by
    simp
    omega
  inRange := by
    simp
    omega

end Basic

/-! ### The update cannot get stuck -/

/-- An update at a time of the clock does not overflow. -/
theorem processUpdateRate_noOverflow {j : Invocation} {newRate : Int16}
    (named : j.instruction = .interestBearingMintExtension (.updateRate newRate))
    (target : j.key? 0 = some m)
    (carries : CarriesExtension .interestBearingConfig (Tracks history) (L m).data)
    (clocked : Clocked (history ++ [(j.env.unixTimestamp, newRate.toInt)])) :
    NoOverflow (j.run L) := by
  unfold Invocation.run
  rw [named]
  refine updateMintExtension_noOverflow (t := .interestBearingConfig) (by decide)
    fun info rest mint config shape data held => ?_
  obtain rfl : info.key = m := Option.some.inj ((key?_zero shape).symm.trans target)
  rw [data] at carries
  cases carries with
  | opened held' tracks =>
    obtain rfl := Option.some.inj (held.symm.trans held')
    have averaged := timeWeightedAverageRate_eq tracks (tracks.last_le clocked)
      (clocked.inRange (j.env.unixTimestamp, newRate.toInt) (by simp)).2
    exact (avoids_okOr_of_some averaged).bind fun _ _ => avoids_ok _

/-- **`UpdateRate` can never get stuck.** In every run that follows the initialization of a mint's
interest, does not repeat it and does not close the mint, and whose updates of the rate come at times
that never fall: the average stays within the rates so far, and no further update overflows. -/
theorem rate_update_never_stuck {L L' : Ledger} {i : Invocation} {outcome : Outcome} {m : Address}
    {a : MaybeNull Address} {rate : Int16} {events : List Event}
    (named : i.instruction = .interestBearingMintExtension (.initializeExtension a rate))
    (target : i.key? 0 = some m) (ok : i.run L = .ok outcome) (run : Runs outcome.ledger events L')
    (stays : ∀ e ∈ events, ¬ e.closes m)
    (once : ∀ e ∈ events, ¬ e.stages m .interestBearingConfig)
    (clocked : Clocked (rateHistory i rate m events)) :
    ∃ config, L'.mintExtension? m .interestBearingConfig = some config ∧
      (∀ lo hi, (∀ c ∈ rateHistory i rate m events, lo ≤ c.2 ∧ c.2 ≤ hi) →
        lo ≤ config.preUpdateAverageRate ∧ config.preUpdateAverageRate ≤ hi) ∧
      ∀ j newRate, j.instruction = .interestBearingMintExtension (.updateRate newRate) →
        j.key? 0 = some m → Clocked (rateHistory i rate m (events ++ [.invoke j])) →
          config.timeWeightedAverageRate j.env.unixTimestamp ≠ none ∧
            j.run L' ≠ .error TokenError.overflow := by
  have carries := run.rates named target ok stays once clocked
  obtain ⟨config, held, tracks⟩ := carries.extension
  refine ⟨config, held, tracks.sound.within, fun j newRate updates at_ later => ?_⟩
  rw [rateHistory_update updates at_] at later
  refine ⟨?_, processUpdateRate_noOverflow updates at_ carries later⟩
  rw [timeWeightedAverageRate_eq tracks (tracks.last_le later)
    (later.inRange (j.env.unixTimestamp, newRate.toInt) (by simp)).2]
  exact Option.some_ne_none _

/-- A fourth update in the run above: the average so far is a rate from 0 to 101. -/
theorem rate_update_never_stuck_example : ∃ L outcome L' config,
    runAll .fresh [.allocate Basic.mint 222] = .ok L ∧ Basic.initializeRate.run L = .ok outcome ∧
    runAll outcome.ledger Basic.rateTurns = .ok L' ∧
    L'.mintExtension? Basic.mint .interestBearingConfig = some config ∧
    (0 ≤ config.preUpdateAverageRate ∧ config.preUpdateAverageRate ≤ 101) ∧
    (Basic.setRate 200 7).run L' ≠ .error TokenError.overflow := by
  obtain ⟨L, outcome, L', handed, initialized, ran, -⟩ := Basic.rate_run
  have later := Basic.rateEvents_clocked 200 (by norm_num) 7
  have run : Runs outcome.ledger Basic.rateEvents L' := runs_of_runAll ran
  obtain ⟨config, held, within, next⟩ := rate_update_never_stuck (m := Basic.mint) rfl rfl
    initialized run (fun e member => (Basic.rateEvents_stay e member).1)
    (fun e member => (Basic.rateEvents_stay e member).2)
    (Basic.rateHistory_eq.symm ▸ later.before)
  refine ⟨L, outcome, L', config, handed, initialized, ran, held, within 0 101 ?_, ?_⟩
  · intro c member
    rw [Basic.rateHistory_eq] at member
    revert c
    decide
  · refine (next (Basic.setRate 200 7) 7 rfl rfl ?_).2
    rw [rateHistory_update rfl rfl, Basic.rateHistory_eq]
    exact later

/-! ### The average drifts -/

/-- **How accurate the average is.** In every such run, once some time has passed between the
initialization and the last update, the average is within `c - 1` basis points of the exact one, where
`c` counts the updates that came later than what was before them. -/
theorem average_rate_drift {L L' : Ledger} {i : Invocation} {outcome : Outcome} {m : Address}
    {a : MaybeNull Address} {rate : Int16} {events : List Event}
    (named : i.instruction = .interestBearingMintExtension (.initializeExtension a rate))
    (target : i.key? 0 = some m) (ok : i.run L = .ok outcome) (run : Runs outcome.ledger events L')
    (stays : ∀ e ∈ events, ¬ e.closes m)
    (once : ∀ e ∈ events, ¬ e.stages m .interestBearingConfig)
    (clocked : Clocked (rateHistory i rate m events)) :
    ∃ config, L'.mintExtension? m .interestBearingConfig = some config ∧
      span (rateHistory i rate m events) =
        config.lastUpdateTimestamp - config.initializationTimestamp ∧
      (0 < span (rateHistory i rate m events) →
        |(config.preUpdateAverageRate : ℚ) - mean (rateHistory i rate m events)| ≤
          laterCount (rateHistory i rate m events) - 1) := by
  obtain ⟨config, held, tracks⟩ := (run.rates named target ok stays once clocked).extension
  exact ⟨config, held, tracks.sound.spans, tracks.sound.mean_drift⟩

/-- After three updates that came later, the average is within two basis points. -/
theorem average_rate_drift_example : ∃ L outcome L' config,
    runAll .fresh [.allocate Basic.mint 222] = .ok L ∧ Basic.initializeRate.run L = .ok outcome ∧
    runAll outcome.ledger Basic.rateTurns = .ok L' ∧
    L'.mintExtension? Basic.mint .interestBearingConfig = some config ∧
    |(config.preUpdateAverageRate : ℚ) - 201 / 102| ≤ 2 := by
  obtain ⟨L, outcome, L', handed, initialized, ran, -⟩ := Basic.rate_run
  have clocked := (Basic.rateEvents_clocked 102 (by norm_num) 0).before
  have run : Runs outcome.ledger Basic.rateEvents L' := runs_of_runAll ran
  obtain ⟨config, held, -, drift⟩ := average_rate_drift (m := Basic.mint) rfl rfl
    initialized run (fun e member => (Basic.rateEvents_stay e member).1)
    (fun e member => (Basic.rateEvents_stay e member).2) (Basic.rateHistory_eq.symm ▸ clocked)
  refine ⟨L, outcome, L', config, handed, initialized, ran, held, ?_⟩
  rw [Basic.rateHistory_eq] at drift
  have bound := drift (by decide)
  norm_num [mean, area, span, laterCount, pairSum] at bound ⊢
  exact bound

/-- **The average drifts by more than one basis point**: rates of 0 up to the time 100, 100 up to 101
and 101 up to 102 have an average of 201/102, and the mint stores 0. -/
theorem average_rate_drifts : ∃ L outcome L' config,
    runAll .fresh [.allocate Basic.mint 222] = .ok L ∧ Basic.initializeRate.run L = .ok outcome ∧
    runAll outcome.ledger Basic.rateTurns = .ok L' ∧
    L'.mintExtension? Basic.mint .interestBearingConfig = some config ∧
    Clocked (rateHistory Basic.initializeRate 0 Basic.mint Basic.rateEvents) ∧
    0 < span (rateHistory Basic.initializeRate 0 Basic.mint Basic.rateEvents) ∧
    1 < |(config.preUpdateAverageRate : ℚ) -
      mean (rateHistory Basic.initializeRate 0 Basic.mint Basic.rateEvents)| := by
  obtain ⟨L, outcome, L', handed, initialized, ran, average⟩ := Basic.rate_run
  obtain ⟨config, held, zero⟩ := Option.map_eq_some_iff.mp average
  refine ⟨L, outcome, L', config, handed, initialized, ran, held, ?_⟩
  rw [Basic.rateHistory_eq, zero]
  refine ⟨(Basic.rateEvents_clocked 102 (by norm_num) 0).before, by decide, ?_⟩
  norm_num [mean, area, span, pairSum]

end Token2022
