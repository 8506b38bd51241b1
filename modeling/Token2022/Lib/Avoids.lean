/-
**Errors that do not come up.**

A chain of fallible steps does not fail with an error that none of its steps fails with, where each
step may count on the success of those before.

* `Avoids` — a computation does not fail with an error.
* `Avoids.bind`, `avoids_foldlM` — chains and loops; the loop carries an invariant.
-/

import Token2022.Lib.Fallible

namespace Fallible

variable {ε α β σ : Type} {error other : ε}

/-- The computation does not fail with the error. -/
def Avoids (error : ε) (x : Except ε α) : Prop := x ≠ .error error

/-- An error is recognized, whatever the values are. -/
instance decidableEqError [DecidableEq ε] (x : Except ε α) (error : ε) : Decidable (x = .error error) :=
  match x with
  | .ok _ => isFalse nofun
  | .error other => decidable_of_iff (other = error) ⟨congrArg _, Except.error.inj⟩

theorem avoids_ok (a : α) : Avoids error (.ok a : Except ε α) := nofun

theorem avoids_pure (a : α) : Avoids error (pure a : Except ε α) := nofun

theorem avoids_error (distinct : other ≠ error) : Avoids error (.error other : Except ε α) :=
  fun same => distinct (Except.error.inj same)

/-- A guard with another error. -/
theorem avoids_require {condition : Prop} [Decidable condition] (distinct : other ≠ error) :
    Avoids error (require condition other) := by
  unfold require
  split
  · exact avoids_ok ()
  · exact avoids_error distinct

/-- A value whose absence is another error. -/
theorem avoids_okOr {value : Option α} (distinct : other ≠ error) :
    Avoids error (okOr value other) := by
  cases value with
  | some a => exact avoids_ok a
  | none => exact avoids_error distinct

/-- A value that is there. -/
theorem avoids_okOr_of_some {value : Option α} {a : α} (found : value = some a) :
    Avoids error (okOr value other) := by
  rw [found]
  exact avoids_ok a

/-- **A chain.** -/
theorem Avoids.bind {x : Except ε α} {f : α → Except ε β} (first : Avoids error x)
    (rest : ∀ a, x = .ok a → Avoids error (f a)) : Avoids error (x >>= f) := by
  cases x with
  | error e => exact avoids_error fun same => first (congrArg Except.error same)
  | ok a => exact rest a rfl

/-- **A loop**, whose steps avoid the error where an invariant holds, and keep it. -/
theorem avoids_foldlM {P : σ → Prop} {f : σ → α → Except ε σ} {items : List α} {s : σ}
    (step : ∀ a ∈ items, ∀ t, P t → Avoids error (f t a) ∧ ∀ t', f t a = .ok t' → P t')
    (start : P s) : Avoids error (items.foldlM f s) := by
  induction items generalizing s with
  | nil => exact avoids_pure s
  | cons a items ih =>
    rw [List.foldlM_cons]
    obtain ⟨avoids, keeps⟩ := step a List.mem_cons_self s start
    exact avoids.bind fun t ran =>
      ih (fun b member => step b (List.mem_cons_of_mem _ member)) (keeps t ran)

end Fallible
