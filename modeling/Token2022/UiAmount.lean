/-
**Amounts as text.**

The amount of a mint without interest and without a multiplier, as it is shown and as it is read.

* `amountToUiAmountString`, `amountToUiAmountStringTrimmed` — an amount as text.
* `tryUiAmountIntoAmount` — text as an amount: the two sides of the point are put together, with zeroes
  behind, and parsed as one integer.
* `joinParts` — what becomes of the two sides.
* **`tryUiAmountIntoAmount_eq_ok_iff`** — the text is accepted iff it has at most one point and its
  sides go together.
-/

import Token2022.Error
import Token2022.Lib.Decimal

namespace Token2022

open Fallible Decimal

/-! ### The functions -/

/-- The bytes of a text. -/
def byteLen (text : List Char) : ℕ := (text.map Char.utf8Size).sum

/-- `amount_to_ui_amount_string`. Zeroes are put in front, so that there is a digit before the
point. -/
def amountToUiAmountString (amount : UInt64) (decimals : UInt8) : String :=
  let digits := Nat.toDigits 10 amount.toNat
  if 0 < decimals.toNat then
    let s := zeros (decimals.toNat + 1 - digits.length) ++ digits
    let point := s.length - decimals.toNat
    String.ofList (s.take point ++ '.' :: s.drop point)
  else String.ofList digits

/-- `trim_ui_amount_string`. -/
def trimUiAmountString (uiAmount : String) (decimals : UInt8) : String :=
  if 0 < decimals.toNat then
    String.ofList ((trimZeros uiAmount.toList).rdropWhile (· = '.'))
  else uiAmount

/-- `amount_to_ui_amount_string_trimmed`. -/
def amountToUiAmountStringTrimmed (amount : UInt64) (decimals : UInt8) : String :=
  trimUiAmountString (amountToUiAmountString amount decimals) decimals

/-- The number that a row of digits writes, where it fits. -/
def parseDigits (row : List Char) : Option UInt64 :=
  if row ≠ [] ∧ Digits row ∧ value row < 2 ^ 64 then some (.ofNat (value row)) else none

/-- `str::parse::<u64>`: digits, maybe behind a plus sign. -/
def parseU64 : List Char → Option UInt64
  | '+' :: digits => parseDigits digits
  | digits => parseDigits digits

/-- `try_ui_amount_into_amount`. -/
def tryUiAmountIntoAmount (uiAmount : String) (decimals : UInt8) : ProgramResult UInt64 :=
  let parts := uiAmount.toList.splitOn '.'
  let amountStr := parts.headD []
  let afterDecimal := trimZeros (parts.tail.headD [])
  if (amountStr = [] ∧ afterDecimal = []) ∨ parts.tail.tail ≠ [] ∨
      decimals.toNat < byteLen afterDecimal then
    .error .invalidArgument
  else
    okOr (parseU64 (amountStr ++ afterDecimal ++ zeros (decimals.toNat - byteLen afterDecimal)))
      .invalidArgument

/-! ### Parsing -/

/-- Digits take a byte each. -/
theorem byteLen_of_digits {row : List Char} (digits : Digits row) : byteLen row = row.length := by
  induction row with
  | nil => rfl
  | cons c row ih =>
    have ascii : c.val ≤ 127 := by
      have digit := digits c List.mem_cons_self
      simp only [Char.isDigit, Bool.and_eq_true, decide_eq_true_eq] at digit
      exact UInt32.le_trans digit.2 (by decide)
    rw [byteLen, List.map_cons, List.sum_cons, Char.utf8Size_eq_one_iff.mpr ascii,
      List.length_cons, add_comm]
    exact congrArg (· + 1) (ih fun c member => digits c (.tail _ member))

theorem parseDigits_eq_some_iff {row : List Char} {n : UInt64} :
    parseDigits row = some n ↔ row ≠ [] ∧ Digits row ∧ value row = n.toNat := by
  unfold parseDigits
  constructor
  · intro parsed
    split at parsed
    · rename_i accepted
      obtain rfl := Option.some.inj parsed
      exact ⟨accepted.1, accepted.2.1, (UInt64.toNat_ofNat_of_lt' accepted.2.2).symm⟩
    · cases parsed
  · rintro ⟨some_, digits, same⟩
    rw [if_pos ⟨some_, digits, same ▸ n.toNat_lt⟩, same, UInt64.ofNat_toNat]

/-- **What is parsed.** -/
theorem parseU64_eq_some_iff {text : List Char} {n : UInt64} :
    parseU64 text = some n ↔ ∃ row, (text = row ∨ text = '+' :: row) ∧ row ≠ [] ∧ Digits row ∧
      value row = n.toNat := by
  unfold parseU64
  split
  · rename_i digits
    rw [parseDigits_eq_some_iff]
    constructor
    · exact fun accepted => ⟨digits, .inr rfl, accepted⟩
    · rintro ⟨row, rfl | same, accepted⟩
      · exact absurd List.mem_cons_self (not_mem_of_digits accepted.2.1 (by decide))
      · obtain rfl := (List.cons.inj same).2
        exact accepted
  · rename_i unsigned
    rw [parseDigits_eq_some_iff]
    constructor
    · exact fun accepted => ⟨text, .inl rfl, accepted⟩
    · rintro ⟨row, rfl | same, accepted⟩
      · exact accepted
      · exact absurd same (unsigned row)

/-- The two parts of a text, and whether there are more. -/
theorem splitOn_eq_cases (text : List Char) :
    (text.splitOn '.' = [text] ∧ '.' ∉ text) ∨
      (∃ whole fraction, text = whole ++ '.' :: fraction ∧ '.' ∉ whole ∧ '.' ∉ fraction ∧
        text.splitOn '.' = [whole, fraction]) ∨
      ∃ whole fraction third more, text.splitOn '.' = whole :: fraction :: third :: more := by
  by_cases point : '.' ∈ text
  · obtain ⟨whole, rest, rfl, first⟩ := List.eq_append_cons_of_mem point
    have split := List.splitOn_append_cons_self_of_not_mem first rest
    by_cases again : '.' ∈ rest
    · obtain ⟨fraction, rest', rfl, second⟩ := List.eq_append_cons_of_mem again
      rw [List.splitOn_append_cons_self_of_not_mem second rest'] at split
      obtain ⟨third, more, tail⟩ := List.exists_cons_of_ne_nil (List.splitOn_ne_nil '.' rest')
      rw [tail] at split
      exact .inr (.inr ⟨_, _, _, _, split⟩)
    · rw [List.splitOn_eq_singleton again] at split
      exact .inr (.inl ⟨whole, rest, rfl, first, again, split⟩)
  · exact .inl ⟨List.splitOn_eq_singleton point, point⟩

/-- What becomes of the two sides of the point. -/
def joinParts (whole fraction : List Char) (decimals : ℕ) : Option UInt64 :=
  if (whole = [] ∧ trimZeros fraction = []) ∨ decimals < byteLen (trimZeros fraction) then none
  else parseU64 (whole ++ trimZeros fraction ++ zeros (decimals - byteLen (trimZeros fraction)))

/-- The text by its parts. -/
theorem tryUiAmountIntoAmount_of_split {uiAmount : String} {decimals : UInt8} {whole : List Char}
    {rest : List (List Char)} (split : uiAmount.toList.splitOn '.' = whole :: rest) :
    tryUiAmountIntoAmount uiAmount decimals =
      if rest.tail = [] then
        okOr (joinParts whole (rest.headD []) decimals.toNat) .invalidArgument
      else .error .invalidArgument := by
  unfold tryUiAmountIntoAmount joinParts
  simp only [split, List.headD_cons, List.tail_cons]
  by_cases last : rest.tail = []
  · simp only [last, ne_eq, not_true, false_or, if_true]
    split <;> rfl
  · simp only [last, ne_eq, not_false_eq_true, true_or, or_true, if_true, if_false]

/-- **What is accepted**: at most one point, and two sides that go together. -/
theorem tryUiAmountIntoAmount_eq_ok_iff {uiAmount : String} {decimals : UInt8} {amount : UInt64} :
    tryUiAmountIntoAmount uiAmount decimals = .ok amount ↔
      ∃ (whole : List Char) (fraction : Option (List Char)),
        uiAmount.toList = whole ++ fraction.elim [] ('.' :: ·) ∧ '.' ∉ whole ∧
        '.' ∉ fraction.getD [] ∧
        joinParts whole (fraction.getD []) decimals.toNat = some amount := by
  constructor
  · intro accepted
    rcases splitOn_eq_cases uiAmount.toList with
      ⟨split, none⟩ | ⟨whole, fraction, text, first, second, split⟩ | ⟨_, _, _, _, split⟩
    · rw [tryUiAmountIntoAmount_of_split split, List.tail_nil, if_pos rfl, okOr_eq_ok_iff] at accepted
      exact ⟨_, .none, (List.append_nil _).symm, none, List.not_mem_nil, accepted⟩
    · rw [tryUiAmountIntoAmount_of_split split, List.tail_cons, if_pos rfl, okOr_eq_ok_iff] at accepted
      exact ⟨whole, some fraction, text, first, second, accepted⟩
    · rw [tryUiAmountIntoAmount_of_split split, List.tail_cons, if_neg (by simp)] at accepted
      cases accepted
  · rintro ⟨whole, _ | fraction, text, first, second, joined⟩
    · have split : uiAmount.toList.splitOn '.' = [whole] := by
        rw [text, Option.elim_none, List.append_nil, List.splitOn_eq_singleton first]
      rw [tryUiAmountIntoAmount_of_split split, List.tail_nil, if_pos rfl, okOr_eq_ok_iff]
      exact joined
    · have split : uiAmount.toList.splitOn '.' = [whole, fraction] := by
        rw [text, Option.elim_some, List.splitOn_append_cons_self_of_not_mem first,
          List.splitOn_eq_singleton (show '.' ∉ fraction from second)]
      rw [tryUiAmountIntoAmount_of_split split, List.tail_cons, if_pos rfl, okOr_eq_ok_iff]
      exact joined

end Token2022
