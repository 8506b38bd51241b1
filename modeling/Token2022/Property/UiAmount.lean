/-
**Amounts as text: the round trip, and which texts are read.**

* **`ui_amount_round_trip`** — an amount that was shown, trimmed or not, is read back.
* `ReadAsNumeral` — a text that is read is a numeral and stands for the amount; a numeral is read.
* `Slips` — a plus sign without digits, or behind the point, gets through where the two sides meet.
* **`ui_amount_numeral_iff`** — and nothing else that is no numeral does.
-/

import Token2022.UiAmount

namespace Token2022

open Fallible Decimal

/-! ### The two sides of the point -/

/-- Zeroes at the end play no role. -/
theorem joinParts_trimZeros (whole fraction : List Char) (decimals : ℕ) :
    joinParts whole (trimZeros fraction) decimals = joinParts whole fraction decimals := by
  unfold joinParts
  rw [trimZeros_trimZeros]

/-- **Rows of digits go together.** -/
theorem joinParts_of_digits {whole fraction : List Char} {decimals : ℕ} {amount : UInt64}
    (wholeDigits : Digits whole) (fractionDigits : Digits fraction) (some_ : whole ≠ [])
    (few : (trimZeros fraction).length ≤ decimals)
    (same : value (whole ++ trimZeros fraction ++ zeros (decimals - (trimZeros fraction).length)) =
      amount.toNat) : joinParts whole fraction decimals = some amount := by
  have bytes := byteLen_of_digits fractionDigits.trimZeros
  have accepted : ¬ ((whole = [] ∧ trimZeros fraction = []) ∨
      decimals < byteLen (trimZeros fraction)) := by
    rw [bytes]
    rintro (⟨none, -⟩ | many)
    · exact some_ none
    · omega
  rw [joinParts, if_neg accepted, bytes, parseU64_eq_some_iff]
  exact ⟨_, .inl rfl, by simp [some_], digits_append.mpr ⟨digits_append.mpr
    ⟨wholeDigits, fractionDigits.trimZeros⟩, digits_zeros _⟩, same⟩

/-! ### The round trip -/

section RoundTrip

variable {whole fraction : List Char} {amount : UInt64} {decimals : UInt8}

/-- A row of digits of an amount, with a point so that all decimals are behind it. -/
theorem joinParts_of_append (digits : Digits (whole ++ fraction)) (some_ : whole ≠ [])
    (same : value (whole ++ fraction) = amount.toNat) :
    joinParts whole fraction fraction.length = some amount := by
  obtain ⟨wholeDigits, fractionDigits⟩ := digits_append.mp digits
  refine joinParts_of_digits wholeDigits fractionDigits some_ (length_trimZeros_le _) ?_
  rw [List.append_assoc, trimZeros_append_sub]
  exact same

/-- The digits of an amount. -/
theorem digits_toDigits (n : ℕ) : Digits (Nat.toDigits 10 n) :=
  fun _ member => Nat.isDigit_of_mem_toDigits (by decide) (by decide) member

theorem value_toDigits (n : ℕ) : value (Nat.toDigits 10 n) = n := Nat.ofDigitChars_ten_toDigits

/-- **What is shown** of an amount with decimals: as many digits behind the point, and some before
it. -/
theorem amountToUiAmountString_eq (amount : UInt64) (positive : 0 < decimals.toNat) :
    ∃ whole fraction, (amountToUiAmountString amount decimals).toList = whole ++ '.' :: fraction ∧
      whole ≠ [] ∧ fraction.length = decimals.toNat ∧ Digits (whole ++ fraction) ∧
      value (whole ++ fraction) = amount.toNat := by
  let row := zeros (decimals.toNat + 1 - (Nat.toDigits 10 amount.toNat).length) ++
    Nat.toDigits 10 amount.toNat
  have long : decimals.toNat < row.length := by
    rw [List.length_append, length_zeros]
    omega
  refine ⟨row.take (row.length - decimals.toNat), row.drop (row.length - decimals.toNat), ?_, ?_,
    ?_, ?_, ?_⟩
  · rw [amountToUiAmountString, if_pos positive, String.toList_ofList]
  · intro none
    have empty := congrArg List.length none
    rw [List.length_take, List.length_nil] at empty
    omega
  · rw [List.length_drop]
    omega
  · rw [List.take_append_drop]
    exact digits_append.mpr ⟨digits_zeros _, digits_toDigits _⟩
  · rw [List.take_append_drop, value_zeros_append, value_toDigits]

/-- **What is shown trimmed**: the point goes where nothing is left behind it. -/
theorem trimUiAmountString_eq {uiAmount : String} (positive : 0 < decimals.toNat)
    (text : uiAmount.toList = whole ++ '.' :: fraction) (digits : Digits (whole ++ fraction))
    (some_ : whole ≠ []) :
    (trimUiAmountString uiAmount decimals).toList =
      if trimZeros fraction = [] then whole else whole ++ '.' :: trimZeros fraction := by
  obtain ⟨wholeDigits, fractionDigits⟩ := digits_append.mp digits
  rw [trimUiAmountString, if_pos positive, String.toList_ofList, text,
    trimZeros_append_cons whole (by decide)]
  split
  · rename_i none
    rw [none]
    exact (List.rdropWhile_concat_pos _ _ _ (by simp)).trans
      (rdropWhile_point_append [] wholeDigits some_)
  · rename_i some'
    have shown := rdropWhile_point_append (whole ++ ['.']) fractionDigits.trimZeros some'
    rwa [List.append_assoc, List.singleton_append] at shown

/-- **An amount that is shown is read back**, in full or trimmed. -/
theorem ui_amount_round_trip (amount : UInt64) (decimals : UInt8) :
    tryUiAmountIntoAmount (amountToUiAmountString amount decimals) decimals = .ok amount ∧
      tryUiAmountIntoAmount (amountToUiAmountStringTrimmed amount decimals) decimals =
        .ok amount := by
  have point : ('.' : Char).isDigit = false := by decide
  by_cases positive : 0 < decimals.toNat
  · obtain ⟨whole, fraction, text, some_, length, digits, same⟩ :=
      amountToUiAmountString_eq amount positive
    obtain ⟨wholeDigits, fractionDigits⟩ := digits_append.mp digits
    have joined : joinParts whole fraction decimals.toNat = some amount :=
      length ▸ joinParts_of_append digits some_ same
    have first := not_mem_of_digits wholeDigits point
    refine ⟨tryUiAmountIntoAmount_eq_ok_iff.mpr
      ⟨whole, some fraction, text, first, not_mem_of_digits fractionDigits point, joined⟩, ?_⟩
    have trimmed := trimUiAmountString_eq positive text digits some_
    rw [← joinParts_trimZeros] at joined
    by_cases none : trimZeros fraction = []
    · rw [if_pos none] at trimmed
      exact tryUiAmountIntoAmount_eq_ok_iff.mpr ⟨whole, .none,
        trimmed.trans (List.append_nil _).symm, first, List.not_mem_nil, none ▸ joined⟩
    · rw [if_neg none] at trimmed
      exact tryUiAmountIntoAmount_eq_ok_iff.mpr ⟨whole, some (trimZeros fraction), trimmed, first,
        not_mem_of_digits fractionDigits.trimZeros point, joined⟩
  · have zero : decimals.toNat = 0 := by omega
    have text : (amountToUiAmountString amount decimals).toList = Nat.toDigits 10 amount.toNat := by
      rw [amountToUiAmountString, if_neg positive, String.toList_ofList]
    have digits := digits_toDigits amount.toNat
    have joined : joinParts (Nat.toDigits 10 amount.toNat) [] decimals.toNat = some amount := by
      rw [zero]
      exact joinParts_of_append (by rwa [List.append_nil]) Nat.toDigits_ne_nil
        (by rw [List.append_nil, value_toDigits])
    have read := tryUiAmountIntoAmount_eq_ok_iff.mpr ⟨_, none,
      text.trans (List.append_nil _).symm, not_mem_of_digits digits point, List.not_mem_nil, joined⟩
    refine ⟨read, ?_⟩
    rwa [amountToUiAmountStringTrimmed, trimUiAmountString, if_neg positive]

end RoundTrip

/-! ### Numerals -/

/-- There is a digit in a numeral. -/
theorem exists_digit_of_numeral (n : Numeral) : ∃ c ∈ n.text, c.isDigit = true := by
  obtain ⟨c, rest, row⟩ := List.exists_cons_of_ne_nil n.someDigit
  have member : c ∈ n.whole ++ n.fraction.getD [] := row ▸ List.mem_cons_self
  rcases List.mem_append.mp member with before | behind
  · refine ⟨c, ?_, n.wholeDigits c before⟩
    simp [Numeral.text, before]
  · refine ⟨c, ?_, n.fractionDigits c behind⟩
    cases fraction : n.fraction with
    | none => simp [fraction] at behind
    | some digits =>
      rw [fraction, Option.getD_some] at behind
      simp [Numeral.text, fraction, behind]

/-- There is no sign in a numeral but in front. -/
theorem plus_not_mem_tail (n : Numeral) : '+' ∉ n.text.tail := by
  have unsigned : '+' ∉ n.whole ++ n.fraction.elim [] ('.' :: ·) := by
    intro member
    rcases List.mem_append.mp member with before | behind
    · exact not_mem_of_digits n.wholeDigits (by decide) before
    · cases fraction : n.fraction with
      | none => simp [fraction] at behind
      | some digits =>
        rw [fraction, Option.elim_some, List.mem_cons] at behind
        refine not_mem_of_digits n.fractionDigits (by decide) (c := '+') ?_
        rw [fraction]
        exact behind.resolve_left (by decide)
  intro member
  unfold Numeral.text at member
  split at member
  · exact unsigned member
  · exact unsigned (List.mem_of_mem_tail member)

/-- **Exactly the numerals are read**: a text that is read is one, and stands for the amount; and a
numeral without a sign, with a digit before the point, no more digits behind it than there are
decimals, and an amount that fits is read. -/
structure ReadAsNumeral (uiAmount : String) (decimals : UInt8) : Prop where
  numeral : ∀ amount, tryUiAmountIntoAmount uiAmount decimals = .ok amount →
    ∃ n : Numeral, uiAmount.toList = n.text ∧ n.toRat * 10 ^ decimals.toNat = amount.toNat
  read : ∀ n : Numeral, uiAmount.toList = n.text → n.plus = false → n.whole ≠ [] →
    n.places.length ≤ decimals.toNat → n.toRat * 10 ^ decimals.toNat < 2 ^ 64 →
      ∃ amount, tryUiAmountIntoAmount uiAmount decimals = .ok amount

/-- **What gets through where the two sides meet**: a sign without a digit, which the zeroes of the
decimals make a number; and a sign behind the point, which nothing before the point leaves in front. -/
def Slips (uiAmount : String) (decimals : UInt8) : Prop :=
  (uiAmount.toList = ['+'] ∨ uiAmount.toList = ['+', '.']) ∧ 0 < decimals.toNat ∨
    ∃ row, uiAmount.toList = '.' :: '+' :: row ∧ Digits row ∧ 2 ≤ decimals.toNat ∧
      (trimZeros row).length + 1 ≤ decimals.toNat ∧
      value (trimZeros row) * 10 ^ (decimals.toNat - 1 - (trimZeros row).length) < 2 ^ 64

/-- A sign and digits. -/
theorem parseU64_plus {row : List Char} (some_ : row ≠ []) (digits : Digits row)
    (fits : value row < 2 ^ 64) : ∃ amount, parseU64 ('+' :: row) = some amount :=
  ⟨_, parseU64_eq_some_iff.mpr
    ⟨row, .inr rfl, some_, digits, (UInt64.toNat_ofNat_of_lt' fits).symm⟩⟩

theorem byteLen_plus {row : List Char} (digits : Digits row) :
    byteLen ('+' :: row) = row.length + 1 := by
  have rest := byteLen_of_digits digits
  unfold byteLen at rest ⊢
  rw [List.map_cons, List.sum_cons, rest, add_comm]
  rfl

theorem trimZeros_plus (row : List Char) : trimZeros ('+' :: row) = '+' :: trimZeros row :=
  trimZeros_append_cons [] (by decide) row

/-- A sign alone, where there are decimals. -/
theorem joinParts_plus {decimals : ℕ} (positive : 0 < decimals) :
    ∃ amount, joinParts ['+'] [] decimals = some amount := by
  have some_ : zeros decimals ≠ [] := by
    intro none
    have empty := congrArg List.length none
    rw [length_zeros, List.length_nil] at empty
    omega
  obtain ⟨amount, parsed⟩ := parseU64_plus some_ (digits_zeros decimals)
    (by rw [value_zeros]; decide)
  refine ⟨amount, ?_⟩
  rw [joinParts, if_neg (by simp [byteLen])]
  exact parsed

/-- A sign behind the point, with nothing before it. -/
theorem joinParts_point_plus {row : List Char} {decimals : ℕ} (digits : Digits row)
    (least : 2 ≤ decimals) (few : (trimZeros row).length + 1 ≤ decimals)
    (fits : value (trimZeros row) * 10 ^ (decimals - 1 - (trimZeros row).length) < 2 ^ 64) :
    ∃ amount, joinParts [] ('+' :: row) decimals = some amount := by
  have bytes := byteLen_plus digits.trimZeros
  have places : decimals - ((trimZeros row).length + 1) =
      decimals - 1 - (trimZeros row).length := by omega
  have some_ : trimZeros row ++ zeros (decimals - 1 - (trimZeros row).length) ≠ [] := by
    intro none
    have empty := congrArg List.length none
    rw [List.length_append, length_zeros, List.length_nil] at empty
    omega
  rw [← value_append_zeros] at fits
  obtain ⟨amount, parsed⟩ := parseU64_plus some_
    (digits_append.mpr ⟨digits.trimZeros, digits_zeros _⟩) fits
  refine ⟨amount, ?_⟩
  rw [joinParts, trimZeros_plus, bytes, if_neg (by simp; omega), places]
  exact parsed

/-- What slips through is read, and is no numeral. -/
theorem Slips.not_readAsNumeral {uiAmount : String} {decimals : UInt8}
    (slips : Slips uiAmount decimals) : ¬ ReadAsNumeral uiAmount decimals := by
  intro reads
  rcases slips with ⟨text, positive⟩ | ⟨row, text, digits, least, few, fits⟩
  · obtain ⟨amount, joined⟩ := joinParts_plus positive
    have accepted : tryUiAmountIntoAmount uiAmount decimals = .ok amount := by
      rcases text with text | text
      · exact tryUiAmountIntoAmount_eq_ok_iff.mpr
          ⟨['+'], none, text, by decide, List.not_mem_nil, joined⟩
      · exact tryUiAmountIntoAmount_eq_ok_iff.mpr
          ⟨['+'], some [], text, by decide, List.not_mem_nil, joined⟩
    obtain ⟨n, same, -⟩ := reads.numeral amount accepted
    obtain ⟨c, member, digit⟩ := exists_digit_of_numeral n
    rw [← same] at member
    rcases text with text | text
    · rw [text, List.mem_singleton] at member
      subst member
      revert digit
      decide
    · rw [text, List.mem_pair] at member
      rcases member with rfl | rfl <;> revert digit <;> decide
  · obtain ⟨amount, joined⟩ := joinParts_point_plus digits least few fits
    have second : '.' ∉ '+' :: row := by
      rw [List.mem_cons, not_or]
      exact ⟨by decide, not_mem_of_digits digits (by decide)⟩
    have accepted := tryUiAmountIntoAmount_eq_ok_iff.mpr
      ⟨[], some ('+' :: row), text, List.not_mem_nil, second, joined⟩
    obtain ⟨n, same, -⟩ := reads.numeral amount accepted
    apply plus_not_mem_tail n
    rw [← same, text]
    exact List.mem_cons_self

/-- A row of digits that was put together from two sides is that of a numeral. -/
theorem numeral_of_row (plus : Bool) {whole : List Char} {fraction : Option (List Char)}
    {decimals : ℕ} {amount : UInt64} (some_ : whole ++ fraction.getD [] ≠ [])
    (few : byteLen (trimZeros (fraction.getD [])) ≤ decimals)
    (digits : Digits (whole ++ trimZeros (fraction.getD []) ++
      zeros (decimals - byteLen (trimZeros (fraction.getD [])))))
    (same : value (whole ++ trimZeros (fraction.getD []) ++
      zeros (decimals - byteLen (trimZeros (fraction.getD [])))) = amount.toNat) :
    ∃ n : Numeral, (if plus then ['+'] else []) ++ whole ++ fraction.elim [] ('.' :: ·) = n.text ∧
      n.toRat * 10 ^ decimals = amount.toNat := by
  obtain ⟨sides, -⟩ := digits_append.mp digits
  obtain ⟨wholeDigits, places⟩ := digits_append.mp sides
  rw [byteLen_of_digits places] at few same
  let n : Numeral := ⟨plus, whole, fraction, wholeDigits, places.of_trimZeros, some_⟩
  refine ⟨n, rfl, ?_⟩
  rw [n.scaled_eq few]
  exact_mod_cast same

/-- A text that is read is a numeral, unless it slips through. -/
theorem numeral_of_read {uiAmount : String} {decimals : UInt8} {amount : UInt64}
    (caught : ¬ Slips uiAmount decimals)
    (accepted : tryUiAmountIntoAmount uiAmount decimals = .ok amount) :
    ∃ n : Numeral, uiAmount.toList = n.text ∧ n.toRat * 10 ^ decimals.toNat = amount.toNat := by
  obtain ⟨whole, fraction, text, first, second, joined⟩ :=
    tryUiAmountIntoAmount_eq_ok_iff.mp accepted
  unfold joinParts at joined
  split at joined
  · cases joined
  rename_i sides
  rw [not_or, not_lt] at sides
  obtain ⟨present, few⟩ := sides
  obtain ⟨row, parsed, some_, digits, same⟩ := parseU64_eq_some_iff.mp joined
  rcases parsed with rfl | parsed
  · -- Without a sign both sides are digits.
    have present' : whole ++ fraction.getD [] ≠ [] := by
      intro empty
      obtain ⟨rfl, none'⟩ := List.append_eq_nil_iff.mp empty
      exact present ⟨rfl, by rw [none', trimZeros_nil]⟩
    obtain ⟨n, shown, scaled⟩ := numeral_of_row false present' few digits same
    exact ⟨n, text.trans shown, scaled⟩
  · rcases whole with _ | ⟨c, whole⟩
    · -- The sign is behind the point.
      rcases fraction with _ | fraction
      · exact absurd ⟨rfl, rfl⟩ present
      rw [Option.getD_some] at few parsed present
      cases places : trimZeros fraction with
      | nil => exact absurd ⟨rfl, places⟩ present
      | cons c places' =>
        rw [places] at few parsed
        obtain ⟨rfl, rfl⟩ := List.cons.inj parsed
        have digits' : Digits places' := (digits_append.mp digits).1
        obtain ⟨count, split⟩ := trimZeros_append fraction
        rw [places, List.cons_append] at split
        have trimmed : trimZeros (places' ++ zeros count) = places' := by
          rw [split, trimZeros_plus] at places
          exact (List.cons.inj places).2
        rw [byteLen_plus digits'] at few some_ same
        have least : 2 ≤ decimals.toNat := by
          have long := List.length_pos_iff.mpr (show places' ++ zeros _ ≠ [] from some_)
          rw [List.length_append, length_zeros] at long
          omega
        refine absurd (.inr ⟨places' ++ zeros count, ?_, ?_, least, ?_, ?_⟩) caught
        · rw [text, split]
          rfl
        · exact digits_append.mpr ⟨digits', digits_zeros count⟩
        · rwa [trimmed]
        · rw [trimmed, ← value_append_zeros, Nat.sub_sub, add_comm 1]
          exact same ▸ amount.toNat_lt
    · -- The sign is before the point, and then there are digits, or it slips through.
      obtain ⟨rfl, rfl⟩ := List.cons.inj parsed
      have present' : whole ++ fraction.getD [] ≠ [] := by
        intro empty
        obtain ⟨rfl, none'⟩ := List.append_eq_nil_iff.mp empty
        have positive : 0 < decimals.toNat := by
          by_contra zero
          have zero' : decimals.toNat = 0 := by omega
          simp [none', zero', zeros] at some_
        refine caught (.inl ⟨?_, positive⟩)
        rcases fraction with _ | fraction
        · exact .inl text
        · rw [Option.getD_some] at none'
          subst none'
          exact .inr text
      obtain ⟨n, shown, scaled⟩ := numeral_of_row true present' few digits same
      exact ⟨n, text.trans shown, scaled⟩

/-- A numeral without a sign is read, where it has digits before the point and few behind. -/
theorem read_of_numeral {uiAmount : String} {decimals : UInt8} (n : Numeral)
    (text : uiAmount.toList = n.text) (unsigned : n.plus = false) (some_ : n.whole ≠ [])
    (few : n.places.length ≤ decimals.toNat) (fits : n.toRat * 10 ^ decimals.toNat < 2 ^ 64) :
    ∃ amount, tryUiAmountIntoAmount uiAmount decimals = .ok amount := by
  have point : ('.' : Char).isDigit = false := by decide
  have small : value (n.whole ++ n.places ++ zeros (decimals.toNat - n.places.length)) < 2 ^ 64 := by
    rw [n.scaled_eq few] at fits
    exact_mod_cast fits
  have joined := joinParts_of_digits n.wholeDigits n.fractionDigits some_ few
    (UInt64.toNat_ofNat_of_lt' small).symm
  refine ⟨_, tryUiAmountIntoAmount_eq_ok_iff.mpr ⟨n.whole, n.fraction, ?_,
    not_mem_of_digits n.wholeDigits point, not_mem_of_digits n.fractionDigits point, joined⟩⟩
  rw [text, Numeral.text, unsigned]
  rfl

/-- **Exactly the numerals are read, but for what slips through.** -/
theorem ui_amount_numeral_iff (uiAmount : String) (decimals : UInt8) :
    ReadAsNumeral uiAmount decimals ↔ ¬ Slips uiAmount decimals := by
  constructor
  · intro reads slips
    exact slips.not_readAsNumeral reads
  · intro caught
    exact ⟨fun amount accepted => numeral_of_read caught accepted,
      fun n text unsigned some_ few fits => read_of_numeral n text unsigned some_ few fits⟩

/-- **A sign behind the point**: `.+5` is read as five hundredths. -/
theorem ui_amount_sign_behind_point :
    tryUiAmountIntoAmount ".+5" 2 = .ok 5 ∧ ¬ ReadAsNumeral ".+5" 2 := by
  have slips : Slips ".+5" 2 :=
    .inr ⟨['5'], by decide, by decide, by decide, by decide, by decide⟩
  exact ⟨by decide +kernel, slips.not_readAsNumeral⟩

end Token2022
