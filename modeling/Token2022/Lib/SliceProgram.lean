/-
**Programs over a slice in place.**

A program reads and writes a slice by indices. It may fail with an error, which keeps what it wrote
so far, and an index that is out of bounds stops it for good.

* `Panicking`, `Panicking.index` — computations that may fail or panic, and reading a part of a slice.
* `SliceProgram` — programs over a slice: `check`, `read`, `write`, `fill`, `copyWithin`, `within`,
  `behind`.
* **`bind_of_ok`**, **`bind_of_error`** — running a program step by step.
* **`write_append`**, **`write_part`**, **`fill_append`**, **`copyWithin_front`**, **`copyWithin_back`** — what an
  operation does to a slice whose parts are given, and that it is in bounds there.
-/

import Mathlib.Tactic.Common

/-! ### Computations that may panic -/

/-- A computation that may fail with an error, or panic, which is no result. -/
def Panicking (ε α : Type) := Option (Except ε α)

namespace Panicking

variable {ε α β : Type}

/-- A result without a panic. -/
def of (result : Except ε α) : Panicking ε α := some result

instance : Monad (Panicking ε) where
  pure a := of (.ok a)
  bind m f := match m with
    | none => none
    | some (.error e) => of (.error e)
    | some (.ok a) => f a

theorem ok_bind (a : α) (f : α → Panicking ε β) : (of (.ok a) >>= f) = f a := rfl

/-- A step that does not panic, before steps that do not. -/
theorem of_bind_eq {result : Except ε α} {f : α → Panicking ε β} {g : α → Except ε β}
    (rest : ∀ a, result = .ok a → f a = of (g a)) : (of result >>= f) = of (result >>= g) := by
  cases result with
  | error e => rfl
  | ok a => exact rest a rfl

/-- `&data[start..stop]`. -/
def index (data : List α) (start stop : ℕ) : Panicking ε (List α) :=
  if start ≤ stop ∧ stop ≤ data.length then of (.ok ((data.drop start).take (stop - start)))
  else none

/-- **In bounds, an index does not panic.** -/
theorem index_eq {data : List α} {start stop : ℕ} (order : start ≤ stop)
    (bound : stop ≤ data.length) :
    (index data start stop : Panicking ε (List α)) =
      of (.ok ((data.drop start).take (stop - start))) := if_pos ⟨order, bound⟩

end Panicking

/-! ### Programs over a slice -/

/-- A program over a slice of items: its result, and the slice that it leaves. -/
def SliceProgram (ε ι α : Type) := List ι → Option (Except ε α × List ι)

namespace SliceProgram

variable {ε ι α β : Type}

instance : Monad (SliceProgram ε ι) where
  pure a := fun data => some (.ok a, data)
  bind m f := fun data => match m data with
    | none => none
    | some (.error e, data) => some (.error e, data)
    | some (.ok a, data) => f a data

/-- **After a step that succeeds, the rest runs** on its value and on the slice that it left. -/
theorem bind_of_ok {m : SliceProgram ε ι α} {f : α → SliceProgram ε ι β} {data data' : List ι}
    {a : α} (step : m data = some (.ok a, data')) : (m >>= f) data = f a data' := by
  show (match m data with | none => none | some (.error e, data) => _ | some (.ok a, data) => _) = _
  rw [step]

/-- **After a step that fails, nothing runs.** -/
theorem bind_of_error {m : SliceProgram ε ι α} {f : α → SliceProgram ε ι β} {data data' : List ι}
    {e : ε} (step : m data = some (.error e, data')) : (m >>= f) data = some (.error e, data') := by
  show (match m data with | none => none | some (.error e, data) => _ | some (.ok a, data) => _) = _
  rw [step]

/-- **A program that succeeds has run its first step.** -/
theorem exists_of_bind_ok {m : SliceProgram ε ι α} {f : α → SliceProgram ε ι β}
    {data data' : List ι} {b : β} (ok : (m >>= f) data = some (.ok b, data')) :
    ∃ a data'', m data = some (.ok a, data'') ∧ f a data'' = some (.ok b, data') := by
  cases first : m data with
  | none =>
    have stopped : (m >>= f) data = none := by
      show (match m data with
        | none => none | some (.error e, data) => _ | some (.ok a, data) => _) = _
      rw [first]
    rw [stopped] at ok
    cases ok
  | some result =>
    obtain ⟨result, data''⟩ := result
    cases result with
    | error e =>
      rw [bind_of_error first] at ok
      cases ok
    | ok a =>
      rw [bind_of_ok first] at ok
      exact ⟨a, data'', rfl, ok⟩

/-- **A program that fails has failed in its first step or after it.** -/
theorem exists_of_bind_error {m : SliceProgram ε ι α} {f : α → SliceProgram ε ι β}
    {data data' : List ι} {e : ε} (failed : (m >>= f) data = some (.error e, data')) :
    m data = some (.error e, data') ∨
      ∃ a data'', m data = some (.ok a, data'') ∧ f a data'' = some (.error e, data') := by
  cases first : m data with
  | none =>
    have stopped : (m >>= f) data = none := by
      show (match m data with
        | none => none | some (.error e, data) => _ | some (.ok a, data) => _) = _
      rw [first]
    rw [stopped] at failed
    cases failed
  | some result =>
    obtain ⟨result, data''⟩ := result
    cases result with
    | error e' =>
      rw [bind_of_error first] at failed
      cases failed
      exact .inl rfl
    | ok a =>
      rw [bind_of_ok first] at failed
      exact .inr ⟨a, data'', rfl, failed⟩

/-- What a reader of the slice finds. -/
def reading (reader : List ι → Panicking ε α) : SliceProgram ε ι α := fun data =>
  match reader data with
  | none => none
  | some result => some (result, data)

/-- A result that does not depend on the slice. -/
def ofExcept (result : Except ε α) : SliceProgram ε ι α := fun data => some (result, data)

/-- The length of the slice. -/
def len : SliceProgram ε ι ℕ := fun data => some (.ok data.length, data)

/-- Fail with `error` unless `condition` holds. -/
def check (condition : Prop) [Decidable condition] (error : ε) : SliceProgram ε ι Unit :=
  fun data => if condition then some (.ok (), data) else some (.error error, data)

/-- `slice[start..stop]`, read. -/
def read (start stop : ℕ) : SliceProgram ε ι (List ι) :=
  reading fun data => Panicking.index data start stop

/-- `&mut slice[start..stop]`, which a caller writes through: the bounds, checked. -/
def range (start stop : ℕ) : SliceProgram ε ι (ℕ × ℕ) := fun data =>
  if start ≤ stop ∧ stop ≤ data.length then some (.ok (start, stop), data) else none

/-- `slice[start..].copy_from_slice(items)`, of as many items. -/
def write (start : ℕ) (items : List ι) : SliceProgram ε ι Unit := fun data =>
  if start + items.length ≤ data.length then
    some (.ok (), data.take start ++ (items ++ data.drop (start + items.length)))
  else none

/-- `slice[start..stop].fill(item)`. -/
def fill (start stop : ℕ) (item : ι) : SliceProgram ε ι Unit := fun data =>
  if start ≤ stop ∧ stop ≤ data.length then
    some (.ok (), data.take start ++ (List.replicate (stop - start) item ++ data.drop stop))
  else none

/-- `slice.copy_within(start..stop, dest)`. -/
def copyWithin (start stop dest : ℕ) : SliceProgram ε ι Unit := fun data =>
  if start ≤ stop ∧ stop ≤ data.length ∧ dest + (stop - start) ≤ data.length then
    some (.ok (), data.take dest ++
      ((data.drop start).take (stop - start) ++ data.drop (dest + (stop - start))))
  else none

/-- A computation on `&mut slice[start..stop]`: its result, and what that part holds then. -/
def within (bounds : ℕ × ℕ) (compute : List ι → Except ε α × List ι) : SliceProgram ε ι α :=
  fun data =>
    let (result, part) := compute ((data.drop bounds.1).take (bounds.2 - bounds.1))
    some (result, data.take bounds.1 ++ (part ++ data.drop bounds.2))

/-- A program that runs on `&mut slice[start..]`. -/
def behind (start : ℕ) (program : SliceProgram ε ι α) : SliceProgram ε ι α := fun data =>
  match program (data.drop start) with
  | none => none
  | some (result, rest) => some (result, data.take start ++ rest)

/-- A program that runs only under a condition. -/
def onlyIf (condition : Prop) [Decidable condition] (program : SliceProgram ε ι Unit) :
    SliceProgram ε ι Unit := if condition then program else pure ()

/-! ### One operation -/

section Operations

variable {data : List ι}

theorem reading_of {reader : List ι → Panicking ε α} {result : Except ε α}
    (found : reader data = .of result) : reading reader data = some (result, data) := by
  unfold reading
  rw [found]
  rfl

theorem ofExcept_of_ok {result : Except ε α} {a : α} (ok : result = .ok a) :
    ofExcept result data = some (.ok a, data) := congrArg (fun r => some (r, data)) ok

theorem ofExcept_of_error {result : Except ε α} {e : ε} (failed : result = .error e) :
    ofExcept result data = some (.error e, data) := congrArg (fun r => some (r, data)) failed

theorem check_pos {condition : Prop} [Decidable condition] (holds : condition) (error : ε) :
    check condition error data = some (.ok (), data) := if_pos holds

theorem check_neg {condition : Prop} [Decidable condition] (fails : ¬ condition) (error : ε) :
    check condition error data = some (.error error, data) := if_neg fails

theorem onlyIf_pos {condition : Prop} [Decidable condition] (holds : condition)
    (program : SliceProgram ε ι Unit) : onlyIf condition program = program := if_pos holds

theorem onlyIf_neg {condition : Prop} [Decidable condition] (fails : ¬ condition)
    (program : SliceProgram ε ι Unit) :
    onlyIf condition program data = some (.ok (), data) := by
  rw [onlyIf, if_neg fails]
  rfl

theorem range_eq {start stop : ℕ} (order : start ≤ stop) (bound : stop ≤ data.length) :
    (range start stop : SliceProgram ε ι _) data = some (.ok (start, stop), data) :=
  if_pos ⟨order, bound⟩

variable (front back : List ι)

/-- A part of the slice is read. -/
theorem read_append (part : List ι) {start stop : ℕ} (first : front.length = start)
    (last : start + part.length = stop) :
    (read start stop : SliceProgram ε ι _) (front ++ (part ++ back)) =
      some (.ok part, front ++ (part ++ back)) := by
  subst first last
  refine reading_of ?_
  rw [Panicking.index_eq (Nat.le_add_right ..) (by simp), Nat.add_sub_cancel_left, List.drop_left,
    List.take_left]

/-- **A part of the slice is written.** -/
theorem write_append {old new : List ι} {start : ℕ} (first : front.length = start)
    (same : new.length = old.length) :
    (write start new : SliceProgram ε ι _) (front ++ (old ++ back)) =
      some (.ok (), front ++ (new ++ back)) := by
  subst first
  unfold write
  rw [if_pos (by simp [same]), List.take_left, ← List.append_assoc front old back, List.drop_left']
  rw [List.length_append, same]

/-- **One of the parts that a slice starts with is written.** -/
theorem write_part {parts : List (List ι)} {i start : ℕ} {new : List ι} (inside : i < parts.length)
    (first : (parts.take i).flatten.length = start) (same : new.length = parts[i].length) :
    (write start new : SliceProgram ε ι _) (parts.flatten ++ back) =
      some (.ok (), (parts.set i new).flatten ++ back) := by
  have split : parts.flatten =
      (parts.take i).flatten ++ (parts[i] ++ (parts.drop (i + 1)).flatten) := by
    rw [← List.flatten_cons, ← List.flatten_append, List.getElem_cons_drop, List.take_append_drop]
  have after : (parts.set i new).flatten =
      (parts.take i).flatten ++ (new ++ (parts.drop (i + 1)).flatten) := by
    rw [List.set_eq_take_append_cons_drop, if_pos inside, List.flatten_append, List.flatten_cons]
  rw [split, after, List.append_assoc, List.append_assoc, List.append_assoc, List.append_assoc]
  exact write_append _ _ first same

/-- **A part of the slice is filled.** -/
theorem fill_append (part : List ι) (item : ι) {start stop : ℕ} (first : front.length = start)
    (last : start + part.length = stop) :
    (fill start stop item : SliceProgram ε ι _) (front ++ (part ++ back)) =
      some (.ok (), front ++ (List.replicate part.length item ++ back)) := by
  subst first last
  unfold fill
  rw [if_pos ⟨Nat.le_add_right .., by simp⟩, Nat.add_sub_cancel_left, List.take_left,
    ← List.append_assoc front part back, List.drop_left']
  rw [List.length_append]

/-- **A part of the slice is computed with.** -/
theorem within_append (part : List ι) (compute : List ι → Except ε α × List ι)
    {bounds : ℕ × ℕ} (first : bounds.1 = front.length)
    (last : bounds.2 = front.length + part.length) :
    within bounds compute (front ++ (part ++ back)) =
      some ((compute part).1, front ++ ((compute part).2 ++ back)) := by
  unfold within
  rw [first, last, Nat.add_sub_cancel_left, List.drop_left, List.take_left, List.take_left,
    ← List.append_assoc front part back, List.drop_left' List.length_append]

/-- **What is behind a part is run on.** -/
theorem behind_append {program : SliceProgram ε ι α} {rest : List ι} {result : Except ε α}
    {start : ℕ} (first : front.length = start) (ran : program back = some (result, rest)) :
    behind start program (front ++ back) = some (result, front ++ rest) := by
  subst first
  unfold behind
  rw [List.drop_left, ran, List.take_left]

/-- **A part of the slice is moved towards the front**, over what stood there; behind it stays what
it leaves uncovered. -/
theorem copyWithin_front (gap moved : List ι) {start stop dest : ℕ}
    (target : front.length = dest) (first : dest + gap.length = start)
    (last : start + moved.length = stop) :
    (copyWithin start stop dest : SliceProgram ε ι _) (front ++ (gap ++ (moved ++ back))) =
      some (.ok (), front ++ (moved ++ (gap ++ (moved ++ back)).drop moved.length)) := by
  subst target first last
  unfold copyWithin
  rw [if_pos ⟨Nat.le_add_right .., by simp; omega, by simp; omega⟩, Nat.add_sub_cancel_left,
    List.take_left]
  congr 3
  rw [← List.drop_drop, List.drop_left, List.drop_left, List.take_left, ← List.drop_drop,
    List.drop_left]

/-- **A part of the slice is moved towards the end**, over what stood there. -/
theorem copyWithin_back (moved covered : List ι) {start stop dest gap : ℕ}
    (first : front.length = start) (last : start + moved.length = stop) (target : start + gap = dest)
    (room : covered.length = gap) :
    (copyWithin start stop dest : SliceProgram ε ι _) (front ++ (moved ++ (covered ++ back))) =
      some (.ok (), front ++ ((moved ++ (covered ++ back)).take gap ++ (moved ++ back))) := by
  subst first last target room
  unfold copyWithin
  rw [if_pos ⟨Nat.le_add_right .., by simp, by simp; omega⟩, Nat.add_sub_cancel_left,
    List.drop_left, List.take_left]
  congr 2
  rw [List.take_append, List.take_of_length_le (by omega), Nat.add_sub_cancel_left,
    List.append_assoc]
  congr 3
  have total : front.length + covered.length + moved.length =
      (front ++ (moved ++ covered)).length := by
    simp only [List.length_append]
    omega
  rw [← List.append_assoc moved covered back, ← List.append_assoc front, total, List.drop_left]

end Operations

end SliceProgram
