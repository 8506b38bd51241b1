/-
**Decimal text.**

A numeral is a row of digits, maybe with a plus sign in front and a point inside. The digits on one
side of the point may be missing, but not those on both sides.

* `Digits`, `value` — a row of digits, and the number that it writes.
* `trimZeros` — the row without the zeroes at its end.
* `Numeral` — its parts, its text and the number that it stands for.
* **`scaled_eq`** — that number, scaled up by as many places as the trimmed fraction has or more, is
  what the two rows write one after the other.
-/

import Mathlib.Data.List.DropRight
import Mathlib.Data.Rat.Cast.Order
import Mathlib.Tactic.FieldSimp
import Mathlib.Tactic.Ring

namespace Decimal

/-! ### Rows of digits -/

/-- A row of ASCII digits. -/
def Digits (row : List Char) : Prop := ∀ c ∈ row, c.isDigit = true

instance (row : List Char) : Decidable (Digits row) :=
  decidable_of_iff (row.all Char.isDigit = true) List.all_eq_true

/-- The number that a row of digits writes. -/
def value (row : List Char) : ℕ := Nat.ofDigitChars 10 row 0

/-- A row of zeroes. -/
def zeros (count : ℕ) : List Char := List.replicate count '0'

@[simp] theorem length_zeros (count : ℕ) : (zeros count).length = count :=
  List.length_replicate

theorem zeros_add (first second : ℕ) : zeros (first + second) = zeros first ++ zeros second :=
  (List.replicate_append_replicate).symm

theorem digits_append {first second : List Char} :
    Digits (first ++ second) ↔ Digits first ∧ Digits second := List.forall_mem_append

theorem digits_zeros (count : ℕ) : Digits (zeros count) := by
  intro c member
  rw [List.eq_of_mem_replicate member]
  rfl

theorem value_append (first second : List Char) :
    value (first ++ second) = value first * 10 ^ second.length + value second := by
  rw [value, Nat.ofDigitChars_append, Nat.ofDigitChars_eq_ofDigitChars_zero, value, value, mul_comm]

theorem value_zeros (count : ℕ) : value (zeros count) = 0 := by
  rw [value, zeros, Nat.ofDigitChars_replicate_zero, mul_zero]

theorem value_append_zeros (row : List Char) (count : ℕ) :
    value (row ++ zeros count) = value row * 10 ^ count := by
  rw [value_append, value_zeros, length_zeros, add_zero]

theorem value_zeros_append (count : ℕ) (row : List Char) :
    value (zeros count ++ row) = value row := by
  rw [value_append, value_zeros, zero_mul, zero_add]

/-- A digit is neither a sign nor a point. -/
theorem not_mem_of_digits {row : List Char} (digits : Digits row) {c : Char}
    (other : c.isDigit = false) : c ∉ row := by
  intro member
  rw [digits c member] at other
  cases other

/-! ### Zeroes at the end -/

/-- The row without the zeroes at its end. -/
def trimZeros (row : List Char) : List Char := row.rdropWhile (· = '0')

@[simp] theorem trimZeros_nil : trimZeros [] = [] := rfl

/-- What is trimmed are zeroes. -/
theorem trimZeros_append (row : List Char) :
    ∃ count, row = trimZeros row ++ zeros count := by
  refine ⟨(row.rtakeWhile (· = '0')).length, ?_⟩
  have all : row.rtakeWhile (· = '0') = zeros (row.rtakeWhile (· = '0')).length :=
    List.eq_replicate_iff.mpr ⟨rfl, fun c member => by simpa using List.mem_rtakeWhile_imp member⟩
  conv_lhs => rw [← List.rdropWhile_append_rtakeWhile (p := (· = '0')) (l := row), all]
  rfl

theorem trimZeros_trimZeros (row : List Char) : trimZeros (trimZeros row) = trimZeros row :=
  List.rdropWhile_idempotent _ _

/-- What stands in front of another character stays. -/
theorem trimZeros_append_cons (front : List Char) {c : Char} (other : c ≠ '0') (row : List Char) :
    trimZeros (front ++ c :: row) = front ++ c :: trimZeros row := by
  induction row using List.reverseRecOn with
  | nil => exact List.rdropWhile_concat_neg _ front c (by simpa using other)
  | append_singleton row last ih =>
    unfold trimZeros at ih ⊢
    rw [← List.cons_append, ← List.append_assoc, List.rdropWhile_concat, List.rdropWhile_concat]
    split
    · exact ih
    · rw [List.append_assoc, List.cons_append]

theorem length_trimZeros_le (row : List Char) : (trimZeros row).length ≤ row.length :=
  (List.rdropWhile_prefix _ row).length_le

theorem Digits.of_trimZeros {row : List Char} (digits : Digits (trimZeros row)) : Digits row := by
  obtain ⟨count, split⟩ := trimZeros_append row
  rw [split]
  exact digits_append.mpr ⟨digits, digits_zeros count⟩

theorem Digits.trimZeros {row : List Char} (digits : Digits row) : Digits (trimZeros row) :=
  fun c member => digits c ((List.rdropWhile_prefix _ row).subset member)

/-- Zeroes at the end of a trimmed row, up to a length, make up the row. -/
theorem trimZeros_append_sub (row : List Char) :
    trimZeros row ++ zeros (row.length - (trimZeros row).length) = row := by
  obtain ⟨count, split⟩ := trimZeros_append row
  have length : row.length = (trimZeros row).length + count := by
    conv_lhs => rw [split, List.length_append, length_zeros]
  rw [length, Nat.add_sub_cancel_left]
  exact split.symm

/-- A row that ends in a digit has no point at its end. -/
theorem rdropWhile_point_append (front : List Char) {row : List Char} (digits : Digits row)
    (some_ : row ≠ []) : (front ++ row).rdropWhile (· = '.') = front ++ row := by
  obtain rfl | ⟨init, last, rfl⟩ := List.eq_nil_or_concat row
  · exact absurd rfl some_
  · rw [List.concat_eq_append] at digits ⊢
    have digit : last ≠ '.' := by
      rintro rfl
      exact absurd (List.mem_append_right init List.mem_cons_self)
        (not_mem_of_digits digits (show ('.').isDigit = false by decide))
    rw [← List.append_assoc]
    exact List.rdropWhile_concat_neg _ _ _ (by simpa using digit)

/-! ### Numerals -/

/-- The parts of a numeral. -/
structure Numeral where
  plus : Bool
  whole : List Char
  /-- What stands behind the point, if there is one. -/
  fraction : Option (List Char)
  wholeDigits : Digits whole
  fractionDigits : Digits (fraction.getD [])
  someDigit : whole ++ fraction.getD [] ≠ []

namespace Numeral

/-- The text of a numeral. -/
def text (n : Numeral) : List Char :=
  (if n.plus then ['+'] else []) ++ n.whole ++ n.fraction.elim [] ('.' :: ·)

/-- The digits behind the point, without zeroes at their end. -/
def places (n : Numeral) : List Char := trimZeros (n.fraction.getD [])

/-- The number that it stands for. -/
def toRat (n : Numeral) : ℚ :=
  value n.whole + value (n.fraction.getD []) / 10 ^ (n.fraction.getD []).length

/-- **A numeral scaled up to whole units** is what its digits write one after the other. -/
theorem scaled_eq (n : Numeral) {scale : ℕ} (few : n.places.length ≤ scale) :
    n.toRat * 10 ^ scale =
      value (n.whole ++ n.places ++ zeros (scale - n.places.length)) := by
  obtain ⟨count, split⟩ := trimZeros_append (n.fraction.getD [])
  obtain ⟨more, rfl⟩ := Nat.exists_eq_add_of_le few
  have fraction : (value (n.fraction.getD []) : ℚ) / 10 ^ (n.fraction.getD []).length =
      value n.places / 10 ^ n.places.length := by
    rw [split, value_append_zeros, List.length_append, length_zeros, ← places, pow_add]
    push_cast
    field_simp
  rw [toRat, fraction, value_append_zeros, value_append, Nat.add_sub_cancel_left, pow_add]
  push_cast
  field_simp

end Numeral

end Decimal
