/-
**The invariant rule for books.**

What the effects of instructions and the rest of the world keep holds along every run.

* `Kept` — an invariant of books, under a condition on each instruction and the book it meets.
* **`Kept.step`**, **`Kept.reachable`** — from one effect to the states that runs reach.
* `Step.slotStep` — a successful instruction, slot by slot.
-/

import Token2022.Abstract.SlotStep
import Token2022.Refinement.Program

namespace Token2022

open LabelledRun

/-- The program owns nothing, and the original token program no named system address. -/
structure Book.Blank (B : Book) : Prop where
  slot : ∀ a, B.slot a = .foreign
  legacy : ¬ B.legacy

theorem Genesis.blank {G : Ledger} (genesis : Genesis G) : G.book.Blank where
  slot a := Ledger.slot_foreign_iff.mpr (genesis.unowned a)
  legacy := by
    rintro (system | incinerator)
    · exact genesis.system _ (.inl rfl) system
    · exact genesis.system _ (.inr rfl) incinerator

/-- **An invariant of books.** -/
structure Kept (C : Invocation → Book → Prop) (I : Book → Prop) : Prop where
  external : ∀ {B B'}, I B → Book.External B B' → I B'
  /-- The condition does not depend on what the rest of the world does first. -/
  guard : ∀ {i B B'}, C i B → Book.External B B' → C i B'
  effect : ∀ {i v arm B B'}, C i B → I B → Effect i v arm B B' → I B'

namespace Kept

variable {C : Invocation → Book → Prop} {I : Book → Prop}

theorem run {i : Invocation} {L : Ledger} {outcome : Outcome} (kept : Kept C I) (holds : I L.book)
    (guard : C i L.book) (ok : i.run L = .ok outcome) : I outcome.ledger.book := by
  obtain ⟨B, B', before, effect, after⟩ := run_refines ok
  exact kept.external (kept.effect (kept.guard guard before) (kept.external holds before) effect)
    after

/-- **One step keeps the invariant.** -/
theorem step {L L' : Ledger} {e : Event} (kept : Kept C I) (holds : I L.book)
    (guard : ∀ i, e = .invoke i → C i L.book) (one : Step L e L') : I L'.book := by
  cases one with
  | invoke ok => exact kept.run holds (guard _ rfl) ok
  | external ext => exact kept.external holds ext.book

/-- **An unconditional invariant holds of every reachable state.** -/
theorem reachable {L : Ledger} (kept : Kept (fun _ _ => True) I) (init : ∀ B, B.Blank → I B)
    (reachable : Reachable L) : I L.book :=
  reachable.invariant (fun _ genesis => init _ genesis.blank)
    fun _ _ _ holds one => kept.step holds (fun _ _ => trivial) one

end Kept

/-! ### A successful instruction, slot by slot -/

/-- What an instruction does to a token account: the rest of the world leaves it alone, so that its
holding goes from the book before the effect to the book after it. -/
theorem run_slotStep {i : Invocation} {L : Ledger} {outcome : Outcome}
    (ok : i.run L = .ok outcome) (a : Address) :
    ∃ B s s' l, Book.External L.book B ∧ B.slot a = s ∧
      SlotStep i B a outcome.validated outcome.arm s s' l ∧
      (s' ≠ .foreign → outcome.ledger.book.slot a = s' ∧ l ≤ outcome.ledger.book.lamports a) ∧
      (s' = .foreign → outcome.ledger.book.slot a = .foreign ∨
        ∃ len, outcome.ledger.book.slot a = .vacant ⟨[], len⟩) := by
  obtain ⟨B, B', before, effect, after⟩ := run_refines ok
  exact ⟨B, B.slot a, B'.slot a, B'.lamports a, before, rfl, effect.slotStep a,
    fun own => after.kept a own, fun foreign => after.handed a foreign⟩

end Token2022
