/-
**Fallible computations: inverting a successful run.**

A checked program is a chain of steps in `Except`; a statement about what a successful run did is
read off by taking the chain apart from its end.

* `require`, `okOr` — a guard, and an optional value with the error for its absence.
* `checkedAdd`, `checkedSub` — bounded addition and truncation-free subtraction.
* **`bind_eq_ok_iff`** — a bind succeeds iff its first step does and the rest does on its value;
  `require_bind_eq_ok_iff`, `okOr_bind_eq_ok_iff` are its forms for the two guards.
* `bind_congr_of_ok` — the rest of a computation is replaced by one that does the same.
* **`foldlM_invariant`** — a loop of fallible steps keeps what each of its steps keeps.
-/

import Mathlib.Tactic.Common

namespace Fallible

variable {ε α β σ : Type}

/-! ### Guards -/

/-- Fail with `error` unless `condition` holds. -/
def require (condition : Prop) [Decidable condition] (error : ε) : Except ε Unit :=
  if condition then .ok () else .error error

/-- The value, or `error` where there is none. -/
def okOr (value : Option α) (error : ε) : Except ε α :=
  match value with
  | some a => .ok a
  | none => .error error

@[simp] theorem require_eq_ok_iff {condition : Prop} [Decidable condition] {error : ε} {u : Unit} :
    require condition error = .ok u ↔ condition := by
  unfold require
  split <;> simp_all

@[simp] theorem okOr_eq_ok_iff {value : Option α} {error : ε} {a : α} :
    okOr value error = .ok a ↔ value = some a := by
  cases value <;> simp [okOr]

/-! ### Sequencing -/

/-- **A bind succeeds iff both of its halves do.** -/
theorem bind_eq_ok_iff {x : Except ε α} {f : α → Except ε β} {b : β} :
    (x >>= f) = .ok b ↔ ∃ a, x = .ok a ∧ f a = .ok b := by
  cases x with
  | error e => simp [bind, Except.bind]
  | ok a => simp [bind, Except.bind]

/-- The rest of a computation counts only where its first step succeeds. -/
theorem bind_congr_of_ok {x : Except ε α} {f g : α → Except ε β}
    (same : ∀ a, x = .ok a → f a = g a) : (x >>= f) = (x >>= g) := by
  cases x with
  | error e => rfl
  | ok a => exact same a rfl

theorem pure_eq_ok_iff {a b : α} : (pure a : Except ε α) = .ok b ↔ a = b := by
  simp [pure, Except.pure]

theorem map_eq_ok_iff {f : α → β} {x : Except ε α} {b : β} :
    (f <$> x) = .ok b ↔ ∃ a, x = .ok a ∧ f a = b := by
  cases x with
  | error e => simp [Functor.map, Except.map]
  | ok a => simp [Functor.map, Except.map]

theorem require_bind_eq_ok_iff {condition : Prop} [Decidable condition] {error : ε}
    {f : Unit → Except ε β} {b : β} :
    (require condition error >>= f) = .ok b ↔ condition ∧ f () = .ok b := by
  simp only [bind_eq_ok_iff, require_eq_ok_iff, exists_and_left]
  exact ⟨fun ⟨holds, _, rest⟩ => ⟨holds, rest⟩, fun ⟨holds, rest⟩ => ⟨holds, (), rest⟩⟩

/-- A guard in front of the rest. -/
theorem require_bind {condition : Prop} [Decidable condition] {error : ε} {f : Unit → Except ε β} :
    (require condition error >>= f) = if condition then f () else .error error := by
  unfold require
  split <;> rfl

/-- A value that is there goes on. -/
theorem okOr_some_bind {error : ε} {a : α} {f : α → Except ε β} :
    okOr (some a) error >>= f = f a := rfl

theorem okOr_bind_eq_ok_iff {value : Option α} {error : ε} {f : α → Except ε β} {b : β} :
    (okOr value error >>= f) = .ok b ↔ ∃ a, value = some a ∧ f a = .ok b := by
  simp only [bind_eq_ok_iff, okOr_eq_ok_iff]

/-! ### Loops -/

/-- **A loop of fallible steps keeps every property that each of its steps keeps.** -/
theorem foldlM_invariant {P : σ → Prop} {f : σ → α → Except ε σ} {items : List α} {s s' : σ}
    (step : ∀ a ∈ items, ∀ t t', P t → f t a = .ok t' → P t') (start : P s)
    (run : items.foldlM f s = .ok s') : P s' := by
  induction items generalizing s with
  | nil =>
    rw [List.foldlM_nil, pure_eq_ok_iff] at run
    exact run ▸ start
  | cons a items ih =>
    rw [List.foldlM_cons, bind_eq_ok_iff] at run
    obtain ⟨t, first, rest⟩ := run
    exact ih (fun b member => step b (List.mem_cons_of_mem _ member))
      (step a List.mem_cons_self s t start first) rest

/-- A loop over the lists that items stand for is a loop over what is in them. -/
theorem foldlM_flatMap (f : σ → β → Except ε σ) (g : α → List β) (items : List α) (s : σ) :
    (items.flatMap g).foldlM f s = items.foldlM (fun s a => (g a).foldlM f s) s := by
  induction items generalizing s with
  | nil => rfl
  | cons a items ih =>
    rw [List.flatMap_cons, List.foldlM_append, List.foldlM_cons]
    exact bind_congr fun s' => ih s'

/-! ### Checked arithmetic -/

/-- Addition below `bound`. -/
def checkedAdd (bound a b : ℕ) : Option ℕ :=
  if a + b < bound then some (a + b) else none

/-- Subtraction that does not go below zero. -/
def checkedSub (a b : ℕ) : Option ℕ :=
  if b ≤ a then some (a - b) else none

@[simp] theorem checkedAdd_eq_some_iff {bound a b c : ℕ} :
    checkedAdd bound a b = some c ↔ a + b < bound ∧ c = a + b := by
  unfold checkedAdd
  split
  · simp_all [eq_comm]
  · simp only [reduceCtorEq, false_iff, not_and]
    omega

@[simp] theorem checkedSub_eq_some_iff {a b c : ℕ} :
    checkedSub a b = some c ↔ b ≤ a ∧ c = a - b := by
  unfold checkedSub
  split
  · simp_all [eq_comm]
  · simp only [reduceCtorEq, false_iff, not_and]
    omega

end Fallible
