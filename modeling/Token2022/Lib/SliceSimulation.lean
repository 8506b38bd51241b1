/-
**Programs over a slice that stand for steps on states.**

A slice holds a state, and a program on the slice does what a step does to the state: it ends with the
same result, and where it succeeds the slice holds the new state. What it leaves behind an error is its
own.

* `Performs` — a run that does what a step does.
* **`Performs.after`** — a step that reads first.
* **`Performs.bind`**, **`Performs.behind`**, **`Performs.forM`** — programs one after the other, behind
  a part that stays, and for the items of a list.
-/

import Token2022.Lib.SliceProgram

namespace SliceProgram

variable {ε ι σ τ β : Type}

/-- **A run does what a step does**, where `holds` says which slices hold a state. -/
def Performs (holds : σ → List ι → Prop) (run : Option (Except ε Unit × List ι))
    (step : Except ε σ) : Prop :=
  ∃ result data, run = some (result, data) ∧ result = step.map (fun _ => ()) ∧
    ∀ s, step = .ok s → holds s data

namespace Performs

variable {holds : σ → List ι → Prop} {holds' : τ → List ι → Prop}
  {run : Option (Except ε Unit × List ι)} {step : Except ε σ} {data : List ι}

theorem of_ok {s : σ} (ran : run = some (.ok (), data)) (there : holds s data) :
    Performs holds run (.ok s) := by
  refine ⟨_, _, ran, rfl, ?_⟩
  intro s' same
  obtain rfl := Except.ok.inj same
  exact there

theorem of_error {e : ε} (ran : run = some (.error e, data)) : Performs holds run (.error e) := by
  refine ⟨_, _, ran, rfl, ?_⟩
  intro s none
  cases none

/-- A step that succeeds. -/
theorem ok {s : σ} (performs : Performs holds run (.ok s)) :
    ∃ data, run = some (.ok (), data) ∧ holds s data := by
  obtain ⟨result, data, ran, rfl, there⟩ := performs
  exact ⟨data, ran, there s rfl⟩

/-- A step that fails. -/
theorem error {e : ε} (performs : Performs holds run (.error e)) :
    ∃ data, run = some (.error e, data) := by
  obtain ⟨result, data, ran, rfl, -⟩ := performs
  exact ⟨data, ran⟩

/-- What holds a state may as well hold another that is made of it. -/
theorem map (performs : Performs holds run step) (f : σ → τ)
    (there : ∀ s data, step = .ok s → holds s data → holds' (f s) data) :
    Performs holds' run (step >>= fun s => .ok (f s)) := by
  cases step with
  | error e =>
    obtain ⟨data, ran⟩ := performs.error
    exact of_error ran
  | ok s =>
    obtain ⟨data, ran, held⟩ := performs.ok
    exact of_ok ran (there s data rfl held)

/-- A slice that holds the new state may be known by something else. -/
theorem mono {weaker : σ → List ι → Prop} (performs : Performs holds run step)
    (there : ∀ s data, step = .ok s → holds s data → weaker s data) : Performs weaker run step := by
  obtain ⟨result, data, ran, same, held⟩ := performs
  refine ⟨result, data, ran, same, ?_⟩
  intro s ok
  exact there s data ok (held s ok)

/-- **A step that reads first**: the run fails where the reading does. -/
theorem after {reader : Except ε τ} {next : τ → Except ε σ}
    (failed : ∀ e, reader = .error e → ∃ data, run = some (.error e, data))
    (found : ∀ t, reader = .ok t → Performs holds run (next t)) :
    Performs holds run (reader >>= next) := by
  cases reader with
  | error e =>
    obtain ⟨data, ran⟩ := failed e rfl
    exact of_error ran
  | ok t => exact found t rfl

/-- After a step of the program that no step of the state stands for. -/
theorem past {m : SliceProgram ε ι β} {f : β → SliceProgram ε ι Unit} {data' : List ι} {b : β}
    (ran : m data = some (.ok b, data')) (rest : Performs holds (f b data') step) :
    Performs holds ((m >>= f) data) step := by
  rw [bind_of_ok ran]
  exact rest

/-- **One after the other.** -/
theorem bind {m : SliceProgram ε ι Unit} {f : Unit → SliceProgram ε ι Unit} {next : σ → Except ε τ}
    (first : Performs holds (m data) step)
    (rest : ∀ s data', step = .ok s → holds s data' → Performs holds' (f () data') (next s)) :
    Performs holds' ((m >>= f) data) (step >>= next) := by
  cases step with
  | error e =>
    obtain ⟨data', ran⟩ := first.error
    exact of_error (bind_of_error ran)
  | ok s =>
    obtain ⟨data', ran, held⟩ := first.ok
    rw [bind_of_ok ran]
    exact rest s data' rfl held

/-- **Behind a part that stays as it is.** -/
theorem behind {program : SliceProgram ε ι Unit} {rest : List ι} {start : ℕ} (front : List ι)
    (ran : Performs holds (program rest) step) (length : front.length = start) :
    Performs (fun s data => ∃ rest', data = front ++ rest' ∧ holds s rest')
      (SliceProgram.behind start program (front ++ rest)) step := by
  obtain ⟨result, rest', ran, same, there⟩ := ran
  refine ⟨result, front ++ rest', behind_append front rest length ran, same, ?_⟩
  intro s ok
  exact ⟨rest', rfl, there s ok⟩

/-- **For the items of a list**: what one program keeps, all of them keep. -/
theorem forM {program : β → SliceProgram ε ι Unit} {next : σ → β → Except ε σ}
    (one : ∀ s data item, holds s data → Performs holds (program item data) (next s item))
    (items : List β) {s : σ} (there : holds s data) :
    Performs holds ((items.forM program : SliceProgram ε ι PUnit) data) (items.foldlM next s) := by
  induction items generalizing s data with
  | nil => exact of_ok rfl there
  | cons item items ih =>
    rw [List.foldlM_cons]
    refine bind (f := fun _ => items.forM program) (one s data item there) ?_
    intro s' data' _ held
    exact ih held

end Performs

end SliceProgram
