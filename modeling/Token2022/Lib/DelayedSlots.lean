/-
**Two slots for a value that changes with a delay.**

A value is submitted at a time and counts from `delay` later on. Only the newest submission and the
value before it are kept: a submission overwrites the newest one while that one does not count yet.

* `Slots`, `inForce`, `submit` — the two slots, the value that counts, a submission.
* `settled` — by the whole history: the latest submission that is `delay` old and that no other
  submission overwrote before it counted.
* **`inForce_submit_all`** — the two slots tell what the whole history says.
* `settled_append_now` — submissions of the present change nothing at present.
* `settled_due` — a settled value was submitted `delay` ago.
-/

import Mathlib.Data.List.Induction
import Mathlib.Tactic.Common

namespace DelayedSlots

variable {α : Type*}

/-- The two slots: the newer value counts from `start` on. -/
structure Slots (α : Type*) where
  older : α
  newer : α
  start : ℕ

/-- The value that counts. -/
def Slots.inForce (s : Slots α) (now : ℕ) : α := if s.start ≤ now then s.newer else s.older

/-- Submit a value at a time. -/
def Slots.submit (delay : ℕ) (s : Slots α) (submission : ℕ × α) : Slots α where
  older := s.inForce submission.1
  newer := submission.2
  start := submission.1 + delay

/-- The most recent submission of a history, oldest first, that is at least `delay` old and after
which there was none within its `delay`. -/
def settled (delay now : ℕ) : List (ℕ × α) → Option α
  | [] => none
  | (time, value) :: later =>
    (settled delay now later).or
      (if time + delay ≤ now ∧ ∀ s ∈ later, ¬ (time ≤ s.1 ∧ s.1 < time + delay) then some value
        else none)

variable {delay now : ℕ} {history : List (ℕ × α)}

/-! ### One more submission -/

/-- A last submission that is old enough is settled. -/
theorem settled_concat_due {time : ℕ} (value : α) (due : time + delay ≤ now) :
    settled delay now (history ++ [(time, value)]) = some value := by
  induction history with
  | nil => simp [settled, due]
  | cons s history ih => rw [List.cons_append, settled, ih, Option.some_or]

/-- A last submission that is not old enough hides what it overwrites: what is settled now is what
was settled when it was made. -/
theorem settled_concat_pending {time : ℕ} (value : α) (before : ∀ s ∈ history, s.1 ≤ time)
    (past : time ≤ now) (pending : now < time + delay) :
    settled delay now (history ++ [(time, value)]) = settled delay time history := by
  induction history with
  | nil =>
    have notDue : ¬ time + delay ≤ now := by omega
    simp [settled, notDue]
  | cons s history ih =>
    obtain ⟨time', value'⟩ := s
    have earlier : time' ≤ time := before (time', value') List.mem_cons_self
    have same : (time' + delay ≤ now ∧
        ∀ s ∈ history ++ [(time, value)], ¬ (time' ≤ s.1 ∧ s.1 < time' + delay)) ↔
        (time' + delay ≤ time ∧ ∀ s ∈ history, ¬ (time' ≤ s.1 ∧ s.1 < time' + delay)) := by
      simp only [List.mem_append, List.mem_singleton]
      constructor
      · rintro ⟨-, alone⟩
        have kept := alone (time, value) (.inr rfl)
        exact ⟨by omega, fun s member => alone s (.inl member)⟩
      · rintro ⟨due, alone⟩
        refine ⟨by omega, ?_⟩
        rintro s (member | rfl)
        · exact alone s member
        · omega
    rw [List.cons_append, settled, ih fun s member => before s (List.mem_cons_of_mem _ member),
      settled]
    simp only [same]

/-! ### Whole histories -/

/-- **The slots tell what the history says**: after submissions at times that never fall, the value
in force is the settled one, or the initial one where there is none. -/
theorem inForce_submit_all {initial : α} {opened : ℕ}
    (sorted : history.Pairwise fun s s' => s.1 ≤ s'.1) (past : ∀ s ∈ history, s.1 ≤ now) :
    (history.foldl (Slots.submit delay) ⟨initial, initial, opened⟩).inForce now =
      (settled delay now history).getD initial := by
  induction history using List.reverseRecOn generalizing now with
  | nil => exact ite_self initial
  | append_singleton history s ih =>
    obtain ⟨time, value⟩ := s
    obtain ⟨sortedBefore, -, before⟩ := List.pairwise_append.mp sorted
    have earlier : ∀ s ∈ history, s.1 ≤ time := fun s member =>
      before s member _ List.mem_cons_self
    have timeLe : time ≤ now := past (time, value) (by simp)
    rw [List.foldl_append]
    show (if time + delay ≤ now then value
      else (history.foldl (Slots.submit delay) ⟨initial, initial, opened⟩).inForce time) = _
    by_cases due : time + delay ≤ now
    · rw [if_pos due, settled_concat_due value due, Option.getD_some]
    · rw [if_neg due, settled_concat_pending value earlier timeLe (Nat.lt_of_not_le due),
        ih sortedBefore earlier]

/-- **What is submitted now changes nothing now.** -/
theorem settled_append_now {more : List (ℕ × α)} (positive : 0 < delay)
    (past : ∀ s ∈ history, s.1 ≤ now) (present : ∀ s ∈ more, s.1 = now) :
    settled delay now (history ++ more) = settled delay now history := by
  induction more using List.reverseRecOn with
  | nil => rw [List.append_nil]
  | append_singleton more s ih =>
    obtain ⟨time, value⟩ := s
    have atNow : time = now := present (time, value) (by simp)
    subst atNow
    have earlier : ∀ s ∈ more, s.1 = time := fun s member =>
      present s (List.mem_append_left _ member)
    have all : ∀ s ∈ history ++ more, s.1 ≤ time := by
      intro s member
      rcases List.mem_append.mp member with member | member
      · exact past s member
      · exact Nat.le_of_eq (earlier s member)
    rw [← List.append_assoc, settled_concat_pending value all (Nat.le_refl _) (by omega), ih earlier]

/-- **A settled value was submitted at least `delay` ago.** -/
theorem settled_due {value : α} (found : settled delay now history = some value) :
    ∃ time, (time, value) ∈ history ∧ time + delay ≤ now := by
  induction history with
  | nil => cases found
  | cons s history ih =>
    obtain ⟨time, value'⟩ := s
    rw [settled, Option.or_eq_some_iff] at found
    rcases found with later | ⟨-, first⟩
    · obtain ⟨time', member, due⟩ := ih later
      exact ⟨time', List.mem_cons_of_mem _ member, due⟩
    · split at first
      · rename_i conditions
        obtain rfl := Option.some.inj first
        exact ⟨time, List.mem_cons_self, conditions.1⟩
      · cases first

end DelayedSlots
