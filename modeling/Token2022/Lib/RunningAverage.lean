/-
**A running average that is rounded at every change.**

A value changes at certain times. Of the past only its average is kept, as an integer, and at every
change it is computed anew from the average so far and the value since: truncated towards zero.

* `pairSum` — a sum over the neighbours in a list; `area`, `span`, `mean` — the value summed over the
  time, the time, and the exact average; `laterCount` — how many changes came later than the one before.
* `Track`, `Track.begin`, `Track.update` — the average so far, and the value since.
* `Sound` — what is true of it: it lies within the values so far, and each change but the first that
  came later drops less than one.
* **`Sound.update`**, `Sound.mean_drift` — a change keeps it; how far the average is from the exact one.
-/

import Mathlib.Algebra.BigOperators.Group.List.Basic
import Mathlib.Algebra.Order.Field.Basic
import Mathlib.Algebra.Order.Ring.Int
import Mathlib.Algebra.Order.Ring.Rat
import Mathlib.Tactic.Linarith
import Mathlib.Tactic.Ring

namespace RunningAverage

/-! ### Sums over neighbours -/

section PairSum

variable {α M : Type} [AddMonoid M]

/-- The sum of `f` over the neighbours in a list. -/
def pairSum (f : α → α → M) : List α → M
  | a :: b :: rest => f a b + pairSum f (b :: rest)
  | _ => 0

theorem pairSum_append (f : α → α → M) (l : List α) (a b : α) :
    pairSum f (l ++ [a, b]) = pairSum f (l ++ [a]) + f a b := by
  induction l with
  | nil => exact (add_zero _).trans (zero_add _).symm
  | cons c l ih =>
    cases l with
    | nil =>
      show f c a + (f a b + 0) = f c a + 0 + f a b
      rw [add_zero, add_zero]
    | cons d l =>
      show f c d + pairSum f (d :: l ++ [a, b]) = f c d + pairSum f (d :: l ++ [a]) + f a b
      rw [ih, add_assoc]

end PairSum

/-- The value over time, from the first change to the last. A change is its time and the new
value. -/
def area : List (ℤ × ℤ) → ℤ := pairSum fun c c' => c.2 * (c'.1 - c.1)

/-- The time from the first change to the last. -/
def span : List (ℤ × ℤ) → ℤ := pairSum fun c c' => c'.1 - c.1

/-- **The exact average** of the value from the first change to the last. -/
def mean (history : List (ℤ × ℤ)) : ℚ := area history / span history

/-- How many changes came later than the one before. -/
def laterCount : List (ℤ × ℤ) → ℕ := pairSum fun c c' => if c.1 < c'.1 then 1 else 0

/-! ### The average -/

/-- What is kept: since when the value is followed, its average up to the last change, when that was,
and the value since. -/
structure Track where
  start : ℤ
  average : ℤ
  last : ℤ
  current : ℤ
  deriving DecidableEq

namespace Track

/-- The first value. -/
def begin (change : ℤ × ℤ) : Track where
  start := change.1
  average := change.2
  last := change.1
  current := change.2

/-- The average so far and the value since, weighted by their times. -/
def weighted (s : Track) (now : ℤ) : ℤ :=
  s.average * (s.last - s.start) + s.current * (now - s.last)

/-- The average up to now, truncated towards zero. -/
def averageAt (s : Track) (now : ℤ) : ℤ :=
  if now = s.start then s.current else (s.weighted now).tdiv (now - s.start)

/-- A change. -/
def update (s : Track) (change : ℤ × ℤ) : Track where
  start := s.start
  average := s.averageAt change.1
  last := change.1
  current := change.2

end Track

/-! ### What is true of it -/

/-- Truncation keeps bounds that the quotient has. -/
theorem le_tdiv_and_tdiv_le {n d lo hi : ℤ} (positive : 0 < d) (lower : lo * d ≤ n)
    (upper : n ≤ hi * d) : lo ≤ n.tdiv d ∧ n.tdiv d ≤ hi := by
  constructor
  · calc lo = (lo * d).tdiv d := (Int.mul_tdiv_cancel _ positive.ne').symm
      _ ≤ n.tdiv d := Int.tdiv_le_tdiv positive lower
  · calc n.tdiv d ≤ (hi * d).tdiv d := Int.tdiv_le_tdiv positive upper
      _ = hi := Int.mul_tdiv_cancel _ positive.ne'

/-- **What is kept of a history of changes.** -/
structure Sound (history : List (ℤ × ℤ)) (s : Track) : Prop where
  last : ∃ before, history = before ++ [(s.last, s.current)]
  ordered : s.start ≤ s.last
  spans : span history = s.last - s.start
  later : s.start < s.last → 1 ≤ laterCount history
  within : ∀ lo hi, (∀ c ∈ history, lo ≤ c.2 ∧ c.2 ≤ hi) → lo ≤ s.average ∧ s.average ≤ hi
  drift : |s.average * (s.last - s.start) - area history| ≤
    (laterCount history - 1 : ℕ) * (s.last - s.start)

theorem sound_begin (change : ℤ × ℤ) : Sound [change] (.begin change) where
  last := ⟨[], rfl⟩
  ordered := le_rfl
  spans := (sub_self _).symm
  later before := absurd before (lt_irrefl _)
  within _ _ bounds := bounds change List.mem_cons_self
  drift := by simp [Track.begin, area, pairSum, laterCount]

namespace Sound

variable {history : List (ℤ × ℤ)} {s : Track} {change : ℤ × ℤ}

/-- **The average stays within the values so far.** -/
theorem averageAt_within (sound : Sound history s) {now lo hi : ℤ} (after : s.last ≤ now)
    (bounds : ∀ c ∈ history, lo ≤ c.2 ∧ c.2 ≤ hi) :
    lo ≤ s.averageAt now ∧ s.averageAt now ≤ hi := by
  obtain ⟨before, rfl⟩ := sound.last
  have current := bounds _ (List.mem_append_right before List.mem_cons_self)
  have average := sound.within lo hi bounds
  have ordered := sound.ordered
  unfold Track.averageAt
  split
  · exact current
  · rename_i elapsed
    refine le_tdiv_and_tdiv_le (by omega) ?_ ?_
    · unfold Track.weighted
      nlinarith [mul_le_mul_of_nonneg_right average.1 (sub_nonneg.mpr ordered),
        mul_le_mul_of_nonneg_right current.1 (sub_nonneg.mpr after)]
    · unfold Track.weighted
      nlinarith [mul_le_mul_of_nonneg_right average.2 (sub_nonneg.mpr ordered),
        mul_le_mul_of_nonneg_right current.2 (sub_nonneg.mpr after)]

/-- The value since the last change is in the area up to the next. -/
theorem area_append (sound : Sound history s) :
    area (history ++ [change]) = area history + s.current * (change.1 - s.last) := by
  obtain ⟨before, rfl⟩ := sound.last
  rw [List.append_assoc]
  exact pairSum_append _ before _ change

theorem laterCount_append (sound : Sound history s) :
    laterCount (history ++ [change]) =
      laterCount history + if s.last < change.1 then 1 else 0 := by
  obtain ⟨before, rfl⟩ := sound.last
  rw [List.append_assoc]
  exact pairSum_append _ before _ change

/-- At the first time nothing has been dropped. -/
theorem area_eq_of_start (sound : Sound history s) (none : s.last = s.start) : area history = 0 := by
  have drift := sound.drift
  rw [none, sub_self, mul_zero, mul_zero, zero_sub, abs_neg, abs_nonpos_iff] at drift
  exact drift

/-- **A change drops less than one**, and nothing where no time has passed or it is the first that
came later. -/
theorem drift_update (sound : Sound history s) (after : s.last ≤ change.1) :
    |s.averageAt change.1 * (change.1 - s.start) - area (history ++ [change])| ≤
      (laterCount (history ++ [change]) - 1 : ℕ) * (change.1 - s.start) := by
  have ordered := sound.ordered
  rw [sound.area_append, sound.laterCount_append]
  by_cases elapsed : change.1 = s.start
  · have none : s.last = s.start := by omega
    rw [sound.area_eq_of_start none, elapsed, none, sub_self]
    simp
  · have positive : 0 < change.1 - s.start := by omega
    -- What the average times its time falls short of is the remainder.
    have dropped : s.averageAt change.1 * (change.1 - s.start) -
        (area history + s.current * (change.1 - s.last)) =
          (s.average * (s.last - s.start) - area history) -
            (s.weighted change.1).tmod (change.1 - s.start) := by
      have whole := Int.tdiv_mul_add_tmod (s.weighted change.1) (change.1 - s.start)
      rw [Track.averageAt, if_neg elapsed]
      unfold Track.weighted at whole ⊢
      linarith
    rw [dropped]
    by_cases first : s.last = s.start
    · have exact_ : (s.weighted change.1).tmod (change.1 - s.start) = 0 := by
        rw [Track.weighted, first, sub_self, mul_zero, zero_add]
        exact Int.mul_tmod_left _ _
      rw [exact_, sound.area_eq_of_start first, first, sub_self]
      simp only [mul_zero, sub_self, abs_zero]
      positivity
    · obtain ⟨count, counted⟩ := Nat.exists_eq_add_of_le' (sound.later (by omega))
      have drift := sound.drift
      rw [counted, Nat.add_sub_cancel] at drift
      by_cases later : s.last < change.1
      · have small : |(s.weighted change.1).tmod (change.1 - s.start)| ≤ change.1 - s.start := by
          have above := Int.tmod_lt_of_pos (s.weighted change.1) positive
          have below := Int.lt_tmod_of_pos (s.weighted change.1) positive
          exact abs_le.mpr ⟨below.le, above.le⟩
        have longer : (count : ℤ) * (s.last - s.start) ≤ count * (change.1 - s.start) :=
          mul_le_mul_of_nonneg_left (by omega) (Int.natCast_nonneg count)
        rw [counted, if_pos later, Nat.add_sub_cancel]
        push_cast
        calc |s.average * (s.last - s.start) - area history -
                (s.weighted change.1).tmod (change.1 - s.start)|
            ≤ |s.average * (s.last - s.start) - area history| +
                |(s.weighted change.1).tmod (change.1 - s.start)| := abs_sub _ _
          _ ≤ count * (change.1 - s.start) + (change.1 - s.start) :=
              add_le_add (drift.trans longer) small
          _ = (count + 1) * (change.1 - s.start) := by ring
      · have same : change.1 = s.last := by omega
        have exact_ : (s.weighted change.1).tmod (change.1 - s.start) = 0 := by
          rw [Track.weighted, same, sub_self, mul_zero, add_zero]
          exact Int.mul_tmod_left _ _
        rw [exact_, sub_zero, counted, if_neg later, add_zero, Nat.add_sub_cancel, same]
        exact drift

/-- **One change.** -/
theorem update (sound : Sound history s) (after : s.last ≤ change.1) :
    Sound (history ++ [change]) (s.update change) where
  last := ⟨history, rfl⟩
  ordered := sound.ordered.trans after
  spans := by
    obtain ⟨before, shape⟩ := sound.last
    have earlier := sound.spans
    rw [shape] at earlier ⊢
    rw [List.append_assoc]
    refine (pairSum_append _ before _ change).trans ?_
    rw [show pairSum _ _ = _ from earlier]
    show s.last - s.start + (change.1 - s.last) = change.1 - s.start
    ring
  later before := by
    rw [sound.laterCount_append]
    by_cases first : s.start < s.last
    · have := sound.later first
      omega
    · have ordered := sound.ordered
      rw [if_pos (show s.last < change.1 from by
        have : s.start < change.1 := before
        omega)]
      omega
  within lo hi bounds := sound.averageAt_within after fun c member =>
    bounds c (List.mem_append_left _ member)
  drift := sound.drift_update after

/-- **How far the average is from the exact one**: less than one for each later change but the first. -/
theorem mean_drift (sound : Sound history s) (elapsed : 0 < span history) :
    |(s.average : ℚ) - mean history| ≤ laterCount history - 1 := by
  have spans := sound.spans
  have later := sound.later (by omega)
  have drift := sound.drift
  rw [← spans] at drift
  have positive : (0 : ℚ) < span history := by exact_mod_cast elapsed
  have scaled : |(s.average : ℚ) * span history - area history| ≤
      (laterCount history - 1) * span history := by
    have cast : ((laterCount history - 1 : ℕ) : ℚ) = laterCount history - 1 := by
      rw [Nat.cast_sub later, Nat.cast_one]
    rw [← cast]
    exact_mod_cast drift
  have quotient : (s.average : ℚ) - mean history =
      ((s.average : ℚ) * span history - area history) / span history := by
    rw [mean, sub_div, mul_div_cancel_right₀ _ positive.ne']
  rw [quotient, abs_div, abs_of_pos positive, div_le_iff₀ positive]
  exact scaled

end Sound

end RunningAverage
