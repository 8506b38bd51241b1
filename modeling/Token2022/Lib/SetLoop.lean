/-
**Loops that depend on the set of their items only.**

A loop of fallible steps whose state, after any items, is a function of the set of their keys: an item
that comes again changes nothing, and the order does not matter. The steps go through as long as the set
so far fits.

* `SetLoop` — the state by the set of keys, and what one step does.
* **`SetLoop.foldlM_eq_ok_iff`** — when the loop goes through, and where it ends.
* `SetLoop.foldlM_perm` — any two orders succeed alike, with the same end.
* `SetLoop.avoids_foldlM` — an error of the loop is one of a step whose set does not fit.
-/

import Mathlib.Data.Finset.Lattice.Lemmas
import Mathlib.Data.List.Induction
import Token2022.Lib.Avoids

namespace Fallible

variable {ε α σ K : Type} [DecidableEq K]

/-- **The state of the loop is a function of the set of keys so far**, and a step goes through where the
set with its key fits. -/
structure SetLoop (step : σ → α → Except ε σ) (key : α → K) (state : Finset K → σ)
    (Fits : Finset K → Prop) : Prop where
  start : Fits ∅
  earlier : ∀ keys k, Fits (insert k keys) → Fits keys
  step : ∀ keys a s, Fits keys → (step (state keys) a = .ok s ↔
    Fits (insert (key a) keys) ∧ s = state (insert (key a) keys))

namespace SetLoop

variable {step : σ → α → Except ε σ} {key : α → K} {state : Finset K → σ} {Fits : Finset K → Prop}

/-- **The loop goes through where the set of all keys fits**, and ends in its state. -/
theorem foldlM_eq_ok_iff (loop : SetLoop step key state Fits) {items : List α} {s : σ} :
    items.foldlM step (state ∅) = .ok s ↔
      Fits (items.map key).toFinset ∧ s = state (items.map key).toFinset := by
  induction items using List.reverseRecOn generalizing s with
  | nil =>
    rw [List.foldlM_nil, pure_eq_ok_iff]
    exact ⟨fun same => ⟨loop.start, same.symm⟩, fun same => same.2.symm⟩
  | append_singleton items a ih =>
    have keys : ((items ++ [a]).map key).toFinset = insert (key a) (items.map key).toFinset := by
      rw [List.map_append, List.toFinset_append, Finset.union_comm]
      rfl
    rw [List.foldlM_append, bind_eq_ok_iff, keys]
    simp only [List.foldlM_cons, List.foldlM_nil, bind_pure, ih]
    constructor
    · rintro ⟨t, ⟨fits, rfl⟩, last⟩
      exact (loop.step _ a s fits).mp last
    · rintro ⟨fits, same⟩
      have before := loop.earlier _ _ fits
      exact ⟨_, ⟨before, rfl⟩, (loop.step _ a s before).mpr ⟨fits, same⟩⟩

/-- **The order does not matter.** -/
theorem foldlM_perm (loop : SetLoop step key state Fits) {items items' : List α} {s : σ}
    (perm : items'.Perm items) :
    items'.foldlM step (state ∅) = .ok s ↔ items.foldlM step (state ∅) = .ok s := by
  rw [loop.foldlM_eq_ok_iff, loop.foldlM_eq_ok_iff,
    List.toFinset_eq_of_perm _ _ (perm.map key)]

/-- **An error that no step fails with does not come up**: only the steps matter after which the set
does not fit. -/
theorem avoids_foldlM {error : ε} (loop : SetLoop step key state Fits) {items : List α}
    (steps : ∀ keys a, Fits keys → ¬ Fits (insert (key a) keys) →
      Avoids error (step (state keys) a)) :
    Avoids error (items.foldlM step (state ∅)) := by
  refine Fallible.avoids_foldlM (P := fun s => ∃ keys, Fits keys ∧ s = state keys)
    (fun a _ s held => ?_) ⟨∅, loop.start, rfl⟩
  obtain ⟨keys, fits, rfl⟩ := held
  constructor
  · by_cases next : Fits (insert (key a) keys)
    · rw [(loop.step keys a _ fits).mpr ⟨next, rfl⟩]
      exact avoids_ok _
    · exact steps keys a fits next
  · intro s ran
    exact ⟨_, (loop.step keys a s fits).mp ran⟩

end SetLoop

end Fallible
