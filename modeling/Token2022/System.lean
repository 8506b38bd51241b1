/-
**The system: instructions and the rest of the world, taking turns.**

* `Invocation` — an instruction with its accounts and the environment that it runs in.
* `Step` — one successful instruction, or one step of the rest of the world; `Runs` — finite
  sequences of them, with their events.
* `Genesis` — a ledger in which the program owns no account yet; `Reachable` — what runs from one
  lead to.
* `runAll`, `stayAll`, `guardAll` — a run that is written down; **`staying_of_stayAll`**,
  **`run_of_guardAll`** — it is one of the system.
* **`runs_of_processBatch`** — a batch is a run of its instructions.
-/

import Token2022.Instruction
import Token2022.Lib.LabelledRun

namespace Token2022

open Fallible LabelledRun

/-- An instruction with its accounts and its environment. -/
structure Invocation where
  env : Env
  accounts : List AccountMeta
  instruction : TokenInstruction

/-- What the invocation does to a ledger. -/
def Invocation.run (i : Invocation) (L : Ledger) : ProgramResult Outcome :=
  processInner i.env L i.accounts i.instruction

/-- What a step of the system is labelled with. -/
inductive Event
  | invoke (i : Invocation)
  | external

/-- **One step of the system.** A failed instruction changes nothing and is no step. -/
inductive Step (L : Ledger) : Event → Ledger → Prop
  | invoke {i : Invocation} {outcome : Outcome} (ok : i.run L = .ok outcome) :
      Step L (.invoke i) outcome.ledger
  | external {L' : Ledger} (ext : External L L') : Step L .external L'

/-- The runs of the system. -/
abbrev Runs := Run Step

/-- The program owns no account yet, and no named system address belongs to a token program. -/
structure Genesis (L : Ledger) : Prop where
  unowned : ∀ a, (L a).owner ≠ programId
  system : ∀ a, a = systemProgramId ∨ a = incineratorId → (L a).owner ≠ inlineSplTokenId

/-- **A ledger that some run leads to.** -/
def Reachable (L : Ledger) : Prop := ∃ G events, Genesis G ∧ Runs G events L

namespace Reachable

theorem step {L L' : Ledger} {e : Event} (reachable : Reachable L) (one : Step L e L') :
    Reachable L' := by
  obtain ⟨G, events, genesis, run⟩ := reachable
  exact ⟨G, events ++ [e], genesis, run.step one⟩

theorem run {L L' : Ledger} {events : List Event} (reachable : Reachable L)
    (more : Runs L events L') : Reachable L' := by
  induction more with
  | start => exact reachable
  | step _ one ih => exact ih.step one

/-- **The invariant rule**: what holds at first and is kept by every step holds of every reachable
ledger. -/
theorem invariant {I : Ledger → Prop} {L : Ledger} (reachable : Reachable L)
    (init : ∀ G, Genesis G → I G) (keep : ∀ L e L', I L → Step L e L' → I L') : I L := by
  obtain ⟨G, events, genesis, run⟩ := reachable
  exact run.invariant keep (init G genesis)

end Reachable

/-! ### Runs that are given -/

/-- A turn of a run that is written down: an instruction, or an account that is handed over. -/
inductive Turn
  | invoke (i : Invocation)
  /-- The account is allocated anew, funded, and handed to the program. -/
  | hand (a : Address) (len lamports : ℕ)

/-- The event of a turn. -/
def Turn.event : Turn → Event
  | .invoke i => .invoke i
  | .hand .. => .external

/-- Hand an account to the program. -/
def Ledger.hand (L : Ledger) (a : Address) (len lamports : ℕ) : Ledger :=
  Function.update L a { lamports, owner := programId, data := .zeroed ⟨[], len⟩ }

/-- **Handing over an account that no one else owns by name is up to the rest of the world.** -/
theorem External.hand {L : Ledger} {a : Address} {len lamports : ℕ} (free : ¬ Token2022.reserved a)
    (foreign : (L a).owner ≠ programId) : External L (L.hand a len lamports) where
  kept b owned := by
    have ne : b ≠ a := fun same => foreign (same ▸ owned)
    rw [Ledger.hand, Function.update_of_ne ne]
    exact ⟨owned, rfl, le_rfl⟩
  handed b foreign' owned := by
    by_cases same : b = a
    · subst same
      exact ⟨len, by rw [Ledger.hand, Function.update_self]⟩
    · rw [Ledger.hand, Function.update_of_ne same] at owned
      exact absurd owned foreign'
  reserved b named foreign' := by
    have ne : b ≠ a := fun same => free (same ▸ named)
    rwa [Ledger.hand, Function.update_of_ne ne]
  system b named foreign' := by
    have ne : b ≠ a := fun same => free (same ▸ .inr named)
    rwa [Ledger.hand, Function.update_of_ne ne]

/-- Take a turn. -/
def Turn.take (L : Ledger) : Turn → ProgramResult Ledger
  | .invoke i => do
    let outcome ← i.run L
    .ok outcome.ledger
  | .hand a len lamports => do
    require (¬ reserved a ∧ (L a).owner ≠ programId) .invalidArgument
    .ok (L.hand a len lamports)

theorem Turn.step {L L' : Ledger} {turn : Turn} (ok : turn.take L = .ok L') :
    Step L turn.event L' := by
  cases turn with
  | invoke i =>
    obtain ⟨outcome, ran, same⟩ := bind_eq_ok_iff.mp ok
    obtain rfl := Except.ok.inj same
    exact .invoke ran
  | hand a len lamports =>
    obtain ⟨⟨free, foreign⟩, same⟩ := require_bind_eq_ok_iff.mp ok
    obtain rfl := Except.ok.inj same
    exact .external (.hand free foreign)

/-- Take turns one after the other, staying where `P` holds. -/
def stayAll (P : Ledger → Prop) [DecidablePred P] (L : Ledger) (turns : List Turn) :
    ProgramResult Ledger :=
  turns.foldlM (fun L turn => do
    let ledger ← turn.take L
    require (P ledger) .invalidArgument
    .ok ledger) L

/-- **What `stayAll` computes is a run that stays.** -/
theorem staying_of_stayAll {P : Ledger → Prop} [DecidablePred P] {L L' : Ledger} {turns : List Turn}
    (ok : stayAll P L turns = .ok L') : Staying Step P L (turns.map Turn.event) L' := by
  induction turns generalizing L with
  | nil =>
    obtain rfl := Except.ok.inj ok
    exact .start
  | cons turn rest ih =>
    rw [stayAll, List.foldlM_cons, bind_eq_ok_iff] at ok
    obtain ⟨mid, first, others⟩ := ok
    obtain ⟨ledger, taken, first⟩ := bind_eq_ok_iff.mp first
    obtain ⟨holds, same⟩ := require_bind_eq_ok_iff.mp first
    obtain rfl := Except.ok.inj same
    exact (Run.single ⟨Turn.step taken, holds⟩).trans (ih others)

/-- Take turns one after the other. -/
def runAll : Ledger → List Turn → ProgramResult Ledger := stayAll fun _ => True

/-- **What `runAll` computes is a run.** -/
theorem runs_of_runAll {L L' : Ledger} {turns : List Turn} (ok : runAll L turns = .ok L') :
    Runs L (turns.map Turn.event) L' := (staying_of_stayAll ok).run

theorem Reachable.of_runAll {G L : Ledger} {turns : List Turn} (genesis : Genesis G)
    (ok : runAll G turns = .ok L) : Reachable L := ⟨G, _, genesis, runs_of_runAll ok⟩

/-- Take turns one after the other, each where its ledger meets `C`. -/
def guardAll (C : Ledger → Turn → Prop) [∀ L, DecidablePred (C L)] (L : Ledger)
    (turns : List Turn) : ProgramResult Ledger :=
  turns.foldlM (fun L turn => do
    require (C L turn) .invalidArgument
    turn.take L) L

/-- **What `guardAll` computes is a run whose steps meet the condition.** -/
theorem run_of_guardAll {C : Ledger → Turn → Prop} [∀ L, DecidablePred (C L)] {L L' : Ledger}
    {turns : List Turn} (ok : guardAll C L turns = .ok L') :
    Run (fun L e L' => Step L e L' ∧ ∃ turn, turn.event = e ∧ C L turn) L
      (turns.map Turn.event) L' := by
  induction turns generalizing L with
  | nil =>
    obtain rfl := Except.ok.inj ok
    exact .start
  | cons turn rest ih =>
    rw [guardAll, List.foldlM_cons, bind_eq_ok_iff] at ok
    obtain ⟨mid, first, others⟩ := ok
    obtain ⟨meets, taken⟩ := require_bind_eq_ok_iff.mp first
    exact (Run.single ⟨Turn.step taken, turn, rfl, meets⟩).trans (ih others)

/-- The invocation of a turn, if it is one, satisfies `C`. -/
def Turn.Satisfies (C : Invocation → Prop) : Turn → Prop
  | .invoke i => C i
  | .hand .. => True

instance (C : Invocation → Prop) [DecidablePred C] : DecidablePred (Turn.Satisfies C)
  | .invoke i => inferInstanceAs (Decidable (C i))
  | .hand .. => inferInstanceAs (Decidable True)

theorem Turn.satisfies_events {C : Invocation → Prop} {turns : List Turn}
    (all : ∀ turn ∈ turns, turn.Satisfies C) (j : Invocation)
    (member : Event.invoke j ∈ turns.map Turn.event) : C j := by
  obtain ⟨turn, there, same⟩ := List.mem_map.mp member
  cases turn with
  | invoke i =>
    obtain rfl := Event.invoke.inj same
    exact all _ there
  | hand => exact Event.noConfusion same

/-- The result is a success, with `P`. -/
def LeadsTo {α : Type} (result : ProgramResult α) (P : α → Prop) : Prop :=
  match result with
  | .ok a => P a
  | .error _ => False

instance {α : Type} (result : ProgramResult α) (P : α → Prop) [DecidablePred P] :
    Decidable (LeadsTo result P) :=
  match result with
  | .ok a => inferInstanceAs (Decidable (P a))
  | .error _ => inferInstanceAs (Decidable False)

theorem LeadsTo.exists {α : Type} {result : ProgramResult α} {P : α → Prop}
    (leads : LeadsTo result P) : ∃ a, result = .ok a ∧ P a := by
  cases result with
  | ok a => exact ⟨a, rfl, leads⟩
  | error => exact leads.elim

/-- **A batch is a run of its instructions.** -/
theorem runs_of_processBatch {env : Env} {L L' : Ledger} {accounts : List AccountMeta}
    {batch : List (UInt8 × TokenInstruction)}
    (ok : processBatch env L accounts batch = .ok L') :
    ∃ events, Runs L events L' ∧ events.length = batch.length := by
  induction batch generalizing L accounts with
  | nil => simp [processBatch] at ok
  | cons head rest ih =>
    obtain ⟨expectedAccounts, instruction⟩ := head
    simp only [processBatch, bind_eq_ok_iff, require_eq_ok_iff, exists_const] at ok
    obtain ⟨-, outcome, first, others⟩ := ok
    have one : Step L (.invoke ⟨env, accounts.take expectedAccounts.toNat, instruction⟩)
        outcome.ledger := .invoke first
    split at others
    · rename_i last
      obtain rfl := Except.ok.inj others
      refine ⟨_, .single one, ?_⟩
      rw [List.isEmpty_iff.mp last]
      rfl
    · obtain ⟨events, run, count⟩ := ih others
      refine ⟨_, (Run.single one).trans run, ?_⟩
      simp only [List.length_append, List.length_cons, List.length_nil, count]
      omega

end Token2022
