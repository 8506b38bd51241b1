/-
**A value with one scheduled change.**

The value that counts and the one that is to follow it are kept, with the time of the change. An
update that is made now names its own value and time, which may have passed; it replaces what was
scheduled, whether that counts already or not.

* `Scheduled`, `inForce`, `update` — the two values, the one that counts, an update.
* `schedule` — by the whole history: the last update counts from its time on, and until then what
  counted when it was made.
* **`inForce_update`** — one update, from the present on.
* **`inForce_update_all`** — the two values tell what the whole history says.
-/

import Mathlib.Data.List.Induction
import Mathlib.Order.MinMax
import Mathlib.Tactic.Common

namespace ScheduledValue

variable {τ α : Type*} [LinearOrder τ]

/-- The value, and the one that replaces it from `start` on. -/
structure Scheduled (τ α : Type*) where
  value : α
  next : α
  start : τ

/-- An update: when it is made, from when it is to count, and its value. -/
structure Update (τ α : Type*) where
  now : τ
  start : τ
  value : α
  deriving DecidableEq

/-- The value that counts at a time. -/
def Scheduled.inForce (s : Scheduled τ α) (time : τ) : α :=
  if s.start ≤ time then s.next else s.value

/-- Make an update, with starts cut off below `floor`. -/
def Scheduled.update (floor : τ) (s : Scheduled τ α) (u : Update τ α) : Scheduled τ α where
  value := if u.start ≤ u.now then u.value else s.inForce u.now
  next := u.value
  start := max u.start floor

/-- What counts after an update, given what counted before it. -/
def supersede (before : τ → α) (u : Update τ α) (time : τ) : α :=
  if u.start ≤ time then u.value else before u.now

/-- What counts at each time after a history of updates, oldest first. -/
def schedule (initial : α) (history : List (Update τ α)) : τ → α :=
  history.foldl supersede fun _ => initial

variable {floor time : τ} {initial : α} {history : List (Update τ α)} {u : Update τ α}

theorem schedule_concat :
    schedule initial (history ++ [u]) time =
      if u.start ≤ time then u.value else schedule initial history u.now := by
  rw [schedule, List.foldl_append]
  rfl

/-- **One update**: its value counts from its time on, and until then what counts at present. -/
theorem inForce_update {s : Scheduled τ α} (above : floor ≤ u.now) (later : u.now ≤ time) :
    (s.update floor u).inForce time = if u.start ≤ time then u.value else s.inForce u.now := by
  have reached : max u.start floor ≤ time ↔ u.start ≤ time := by
    rw [max_le_iff]
    exact and_iff_left (above.trans later)
  by_cases due : u.start ≤ time
  · rw [if_pos due]
    exact if_pos (reached.mpr due)
  · -- the time of the change lies ahead, so that it did when the update was made
    have ahead : ¬ u.start ≤ u.now := fun past => due (past.trans later)
    rw [if_neg due]
    exact (if_neg (mt reached.mp due)).trans (if_neg ahead)

/-- **The two values tell what the history says**, from its last update on. -/
theorem inForce_update_all {start : τ} (above : ∀ u ∈ history, floor ≤ u.now)
    (sorted : history.Pairwise fun u u' => u.now ≤ u'.now) (later : ∀ u ∈ history, u.now ≤ time) :
    (history.foldl (Scheduled.update floor) ⟨initial, initial, start⟩).inForce time =
      schedule initial history time := by
  induction history using List.reverseRecOn generalizing time with
  | nil => exact ite_self initial
  | append_singleton history u ih =>
    obtain ⟨sortedBefore, -, before⟩ := List.pairwise_append.mp sorted
    have bounded : ∀ u' ∈ history, u'.now ≤ u.now := by
      intro u' member
      exact before u' member u List.mem_cons_self
    have earlier := ih (fun u' member => above u' (List.mem_append_left _ member)) sortedBefore
      bounded
    rw [List.foldl_append, schedule_concat, ← earlier]
    exact inForce_update (above u (by simp)) (later u (by simp))

end ScheduledValue
