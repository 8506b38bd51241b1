/-
**Accumulators of sets.**

A loop that adds items to a state, which stands for the set of the keys added so far: a set of bits, a
list without duplicates, a table. An item may be accepted only while its key is not there.

* `Accumulator` — the step, and when a state holds a set of keys.
* `Along` — a stream each of whose items is accepted where it comes.
* **`Accumulator.foldlM_eq`** — the loop succeeds on such a stream, and then holds its keys: neither
  their order nor their duplicates count.
-/

import Mathlib.Data.Finset.Lattice.Lemmas
import Mathlib.Tactic.Common

variable {α ι σ ε : Type} [DecidableEq α]

/-- **A stream whose items are accepted**, each where the keys of those before it are there. -/
def Along (key : ι → α) (accepts : Finset α → ι → Prop) : Finset α → List ι → Prop
  | _, [] => True
  | keys, i :: items => accepts keys i ∧ Along key accepts (insert (key i) keys) items

/-- Items that are accepted anywhere. -/
theorem Along.of_forall {key : ι → α} {accepts : Finset α → ι → Prop} {items : List ι}
    (all : ∀ i ∈ items, ∀ keys, accepts keys i) (keys : Finset α) :
    Along key accepts keys items := by
  induction items generalizing keys with
  | nil => trivial
  | cons i items ih =>
    exact ⟨all i List.mem_cons_self keys,
      ih (fun i member => all i (List.mem_cons_of_mem _ member)) _⟩

/-- Items that are accepted, and have a property besides. -/
theorem Along.and_forall {key : ι → α} {accepts : Finset α → ι → Prop} {P : ι → Prop}
    {items : List ι} {keys : Finset α} (along : Along key accepts keys items)
    (all : ∀ i ∈ items, P i) : Along key (fun keys i => P i ∧ accepts keys i) keys items := by
  induction items generalizing keys with
  | nil => trivial
  | cons i items ih =>
    exact ⟨⟨all i List.mem_cons_self, along.1⟩,
      ih along.2 fun i member => all i (List.mem_cons_of_mem _ member)⟩

/-- **An accumulator**: a step that adds the key of an item, where the item is accepted. -/
structure Accumulator (σ ε : Type) (key : ι → α) (accepts : Finset α → ι → Prop) where
  step : σ → ι → Except ε σ
  Holds : σ → Finset α → Prop
  step_eq : ∀ {s keys i}, Holds s keys → accepts keys i →
    ∃ s', step s i = .ok s' ∧ Holds s' (insert (key i) keys)

/-- **The loop over a stream that is accepted** succeeds, and adds its keys. -/
theorem Accumulator.foldlM_eq {key : ι → α} {accepts : Finset α → ι → Prop}
    (acc : Accumulator σ ε key accepts) {items : List ι} {s : σ} {keys : Finset α}
    (holds : acc.Holds s keys) (along : Along key accepts keys items) :
    ∃ s', items.foldlM acc.step s = .ok s' ∧ acc.Holds s' (keys ∪ (items.map key).toFinset) := by
  induction items generalizing s keys with
  | nil => exact ⟨s, rfl, by simpa using holds⟩
  | cons i items ih =>
    obtain ⟨accepted, later⟩ := along
    obtain ⟨s', stepped, holds'⟩ := acc.step_eq holds accepted
    obtain ⟨s'', ran, holds''⟩ := ih holds' later
    refine ⟨s'', ?_, ?_⟩
    · rw [List.foldlM_cons, stepped]
      exact ran
    · rwa [Finset.insert_union, ← Finset.union_insert, ← List.toFinset_cons] at holds''
