/-
**Conservation: what is issued is what is held, and what is due.**

The tokens of a mint are in its token accounts, spendable, pending or withheld; or with the mint, as
fees not yet paid out and burns not yet applied. Together they are what the mint has issued. An
instruction that moves tokens writes one account at a time, so that the invariant is stated for a
book with a number of tokens in flight.

* `Slot.heldOf`, `Issuance.due`, `Issuance.issued` — the three quantities.
* `Floating` — the invariant with tokens in flight; **`Conserved`** — with none.
* `Floating.writeHolding`, `Floating.writeIssue` — one write, and what it does to what is in flight.
* `Collect.floating`, **`Conserved.effect`** — every effect keeps the invariant.
* **`conserved_reachable`** — it holds of every mint but the native one, in every reachable state.
-/

import Token2022.Abstract.Amounts
import Token2022.Invariant.WellFormed

namespace Token2022

open WeightedSum

/-! ### The tokens of a mint -/

/-- The amount of a holding and what is withheld of it in the plain. -/
def Holding.plain (h : Holding) : ℕ := h.base.amount + h.withheld.getD 0

theorem Holding.plain_le_value (h : Holding) : h.plain ≤ h.value := by
  unfold plain value funds fees
  omega

namespace Issuance

/-- What a mint owes: fees not paid out, and burns not applied to its supply. -/
def due (iss : Issuance) : ℕ := iss.retained + (iss.mintBurn.getD 0).pendingBurn.val

/-- What a mint has issued, by the supply that it counts with. -/
def issued (iss : Issuance) : ℕ := iss.mintBurn.elim iss.base.supply fun e => e.supply.val

/-- The supply and the withheld fees of a mint in the plain. -/
def plain (iss : Issuance) : ℕ :=
  iss.base.supply + (iss.fees.map TransferFeeConfig.withheldAmount).getD 0

theorem issued_of_mintBurn {iss : Issuance} {e : EncryptedSupply} (held : iss.mintBurn = some e) :
    iss.issued = e.supply.val := by
  rw [issued, held, Option.elim_some]

theorem issued_of_plain {iss : Issuance} (none : iss.mintBurn = none) :
    iss.issued = iss.base.supply := by
  rw [issued, none, Option.elim_none]

end Issuance

namespace Slot

/-- The tokens of the mint at `m` in a slot. -/
def heldOf (m : Address) : Slot → ℕ
  | .holding h => if h.base.mint = m then h.value else 0
  | _ => 0

/-- What the mint in a slot owes. -/
def due : Slot → ℕ
  | .issue iss => iss.due
  | _ => 0

/-- What the mint in a slot has issued. -/
def issued : Slot → ℕ
  | .issue iss => iss.issued
  | _ => 0

/-- Whether the mint in a slot counts with an encrypted supply. -/
def mintBurn : Slot → Bool
  | .issue iss => iss.mintBurn.isSome
  | _ => false

/-- What the slot at `a` says in the plain about the mint at `m`. -/
def plainOf (m a : Address) : Slot → ℕ
  | .holding h => if h.base.mint = m then h.plain else 0
  | .issue iss => if a = m then iss.plain else 0
  | _ => 0

/-- No token account, and no mint. -/
def Bare : Slot → Prop
  | .holding _ | .issue _ => False
  | _ => True

theorem heldOf_holding {m : Address} {h : Holding} (mint : h.base.mint = m) :
    (Slot.holding h).heldOf m = h.value := if_pos mint

theorem heldOf_of_ne {m : Address} {h : Holding} (ne : h.base.mint ≠ m) :
    (Slot.holding h).heldOf m = 0 := if_neg ne

theorem heldOf_of_empty {m : Address} {h : Holding} (empty : h.base.mint = m → h.value = 0) :
    (Slot.holding h).heldOf m = 0 := by
  by_cases mint : h.base.mint = m
  · rw [heldOf_holding mint, empty mint]
  · exact heldOf_of_ne mint

theorem Bare.nothing {s : Slot} (bare : s.Bare) (m a : Address) :
    s.heldOf m = 0 ∧ s.due = 0 ∧ s.issued = 0 ∧ s.mintBurn = false ∧ s.plainOf m a = 0 := by
  cases s with
  | holding => exact bare.elim
  | issue => exact bare.elim
  | _ => exact ⟨rfl, rfl, rfl, rfl, rfl⟩

end Slot

/-! ### The invariant -/

/-- **The tokens of the mint at `m`, with `n` of them in flight.** -/
structure Floating (m : Address) (n : ℤ) (B : Book) : Prop where
  balanced : (total (Slot.heldOf m) B.slot : ℤ) + (B.slot m).due + n = (B.slot m).issued
  bounded : (B.slot m).issued < 2 ^ 64
  /-- A mint with an encrypted supply issues nothing in the plain. -/
  plainless : (B.slot m).mintBurn = true → ∀ a, (B.slot a).plainOf m a = 0

/-- **Conservation.** -/
abbrev Conserved (m : Address) (B : Book) : Prop := Floating m 0 B

namespace Floating

variable {m : Address} {n n' : ℤ} {B : Book}

/-- The lamports play no role. -/
theorem of_slot {B' : Book} (same : B'.slot = B.slot) (c : Floating m n B) : Floating m n B' where
  balanced := by rw [same]; exact c.balanced
  bounded := by rw [same]; exact c.bounded
  plainless := by rw [same]; exact c.plainless

/-- Where nothing is issued there is nothing to conserve. -/
theorem of_blank (blank : B.Blank) : Conserved m B := by
  have nothing : ∀ a, (B.slot a).heldOf m = 0 := fun a => by rw [blank.slot a]; rfl
  refine ⟨?_, ?_, ?_⟩
  · rw [total_eq_zero_iff.mpr nothing, blank.slot m]
    rfl
  · rw [blank.slot m]
    decide
  · rw [blank.slot m]
    exact fun issued => absurd issued (by decide)

/-- **What is in an account, with what is due and in flight, has been issued.** -/
theorem value_le (c : Floating m n B) {a : Address} {h : Holding} (held : B.slot a = .holding h)
    (mint : h.base.mint = m) : (h.value : ℤ) + (B.slot m).due + n ≤ (B.slot m).issued := by
  have part : (B.slot a).heldOf m ≤ total (Slot.heldOf m) B.slot := weight_le_total _ _ a
  rw [held, Slot.heldOf_holding mint] at part
  have whole := c.balanced
  omega

/-- An account holds less than a 64-bit number of tokens. -/
theorem value_lt (c : Floating m n B) (nonneg : 0 ≤ n) {a : Address} {h : Holding}
    (held : B.slot a = .holding h) (mint : h.base.mint = m) : h.value < 2 ^ 64 := by
  have le := c.value_le held mint
  have bounded := c.bounded
  omega

/-- Under an encrypted supply an account holds nothing in the plain. -/
theorem plain_eq_zero (c : Floating m n B) (mintBurn : (B.slot m).mintBurn = true) {a : Address}
    {h : Holding} (held : B.slot a = .holding h) (mint : h.base.mint = m) : h.plain = 0 := by
  have zero := c.plainless mintBurn a
  rw [held] at zero
  exact (if_pos mint).symm.trans zero

/-! ### One write -/

/-- **One write**, with what it does to the tokens in flight. -/
theorem write (c : Floating m n B) {a : Address} {s : Slot}
    (move : (s.heldOf m : ℤ) + n' + (if a = m then (s.due : ℤ) - s.issued else 0) =
      (B.slot a).heldOf m + n + (if a = m then ((B.slot a).due : ℤ) - (B.slot a).issued else 0))
    (bounded : a = m → s.issued < 2 ^ 64)
    (plainless : ((B.write a s).slot m).mintBurn = true →
      ∀ b, ((B.write a s).slot b).plainOf m b = 0) : Floating m n' (B.write a s) where
  balanced := by
    have moved : total (Slot.heldOf m) (B.write a s).slot + (B.slot a).heldOf m =
      total (Slot.heldOf m) B.slot + s.heldOf m := total_update _ _ a s
    have before := c.balanced
    by_cases here : a = m
    · subst here
      rw [if_pos rfl, if_pos rfl] at move
      rw [Book.slot_write_self]
      omega
    · rw [if_neg here, if_neg here] at move
      rw [Book.slot_write_of_ne _ (Ne.symm here)]
      omega
  bounded := by
    by_cases here : a = m
    · subst here
      rw [Book.slot_write_self]
      exact bounded rfl
    · rw [Book.slot_write_of_ne _ (Ne.symm here)]
      exact c.bounded
  plainless := plainless

/-- What is in the plain stays nothing, where the new slot adds nothing. -/
theorem plainless_write (c : Floating m n B) {a : Address} {s : Slot}
    (here : a = m → s.mintBurn = true → (B.slot m).mintBurn = true)
    (plain : (B.slot m).mintBurn = true → s.plainOf m a = 0)
    (mintBurn : ((B.write a s).slot m).mintBurn = true) (b : Address) :
    ((B.write a s).slot b).plainOf m b = 0 := by
  have before : (B.slot m).mintBurn = true := by
    by_cases atMint : a = m
    · subst atMint
      rw [Book.slot_write_self] at mintBurn
      exact here rfl mintBurn
    · rwa [Book.slot_write_of_ne _ (Ne.symm atMint)] at mintBurn
  by_cases same : b = a
  · subst same
    rw [Book.slot_write_self]
    exact plain before
  · rw [Book.slot_write_of_ne _ same]
    exact c.plainless before b

/-- A write to an account of another mint. -/
theorem writeOther (c : Floating m n B) {a : Address} {h h' : Holding}
    (held : B.slot a = .holding h) (ne : h.base.mint ≠ m) (mint : h'.base.mint = h.base.mint) :
    Floating m n (B.write a (.holding h')) := by
  have ne' : h'.base.mint ≠ m := mint ▸ ne
  refine c.write ?_ (fun _ => Nat.two_pow_pos 64)
    (c.plainless_write (fun _ no => absurd no Bool.false_ne_true)
    fun _ => if_neg ne')
  rw [held, Slot.heldOf_of_ne ne, Slot.heldOf_of_ne ne']
  rfl

/-- **A write to an account of the mint** takes what the account gains out of the flight. -/
theorem writeHolding (c : Floating m n B) {a : Address} {h h' : Holding}
    (held : B.slot a = .holding h) (mint : h.base.mint = m) (mint' : h'.base.mint = m)
    (move : (h'.value : ℤ) + n' = h.value + n)
    (plain : (B.slot m).mintBurn = true → h.plain = 0 → h'.plain = 0) :
    Floating m n' (B.write a (.holding h')) := by
  refine c.write ?_ (fun _ => Nat.two_pow_pos 64)
    (c.plainless_write (fun _ no => absurd no Bool.false_ne_true)
    fun mintBurn => (if_pos mint').trans (plain mintBurn (c.plain_eq_zero mintBurn held mint)))
  rw [held, Slot.heldOf_holding mint, Slot.heldOf_holding mint', move]
  rfl

/-- A write to an account that keeps its tokens. -/
theorem writeSame (c : Floating m n B) {a : Address} {h h' : Holding}
    (held : B.slot a = .holding h) (mint : h'.base.mint = h.base.mint)
    (value : h.base.mint = m → h'.value = h.value)
    (plain : h.base.mint = m → (B.slot m).mintBurn = true → h.plain = 0 → h'.plain = 0) :
    Floating m n (B.write a (.holding h')) := by
  by_cases here : h.base.mint = m
  · exact c.writeHolding held here (mint.trans here) (by rw [value here]) (plain here)
  · exact c.writeOther held here mint

/-- A write to another mint. -/
theorem writeOtherIssue (c : Floating m n B) {x : Address} {iss iss' : Issuance}
    (issued : B.slot x = .issue iss) (ne : x ≠ m) : Floating m n (B.write x (.issue iss')) := by
  refine c.write ?_ (fun here => absurd here ne)
    (c.plainless_write (fun here => absurd here ne) fun _ => if_neg ne)
  rw [issued, if_neg ne, if_neg ne]
  rfl

/-- **A write to the mint** puts what it issues in flight, less what becomes due. -/
theorem writeIssue (c : Floating m n B) {iss iss' : Issuance} (issued : B.slot m = .issue iss)
    (move : (iss'.due : ℤ) + n' - iss'.issued = iss.due + n - iss.issued)
    (bounded : iss'.issued < 2 ^ 64) (mintBurn : iss'.mintBurn.isSome = iss.mintBurn.isSome)
    (plain : iss.mintBurn.isSome = true → iss.plain = 0 → iss'.plain = 0) :
    Floating m n' (B.write m (.issue iss')) := by
  refine c.write ?_ (fun _ => bounded) (c.plainless_write (fun _ some => ?_) fun some => ?_)
  · rw [issued, if_pos rfl, if_pos rfl]
    show ((0 : ℕ) : ℤ) + n' + ((iss'.due : ℤ) - iss'.issued) =
      ((0 : ℕ) : ℤ) + n + ((iss.due : ℤ) - iss.issued)
    omega
  · rw [issued]
    exact mintBurn.symm.trans some
  · have zero := c.plainless some m
    rw [issued] at some zero
    exact (if_pos rfl).trans (plain some ((if_pos rfl).symm.trans zero))

/-- A write between slots in which no tokens are. -/
theorem writeBare (c : Floating m n B) {a : Address} {s : Slot} (old : (B.slot a).Bare)
    (new : s.Bare) : Floating m n (B.write a s) := by
  obtain ⟨held, due, issued, mintBurn, plain⟩ := new.nothing m a
  obtain ⟨held', due', issued', -, -⟩ := old.nothing m a
  refine c.write ?_ (fun _ => by rw [issued]; decide)
    (c.plainless_write (fun _ some => absurd some (by rw [mintBurn]; decide)) fun _ => plain)
  rw [held, due, issued, held', due', issued']

/-- A new account has no tokens. -/
theorem openHolding (c : Floating m n B) {a : Address} {h : Holding} (old : (B.slot a).Bare)
    (empty : h.base.mint = m → h.value = 0) : Floating m n (B.write a (.holding h)) := by
  obtain ⟨held', due', issued', -, -⟩ := old.nothing m a
  have value := Slot.heldOf_of_empty empty
  refine c.write ?_ (fun _ => Nat.two_pow_pos 64)
    (c.plainless_write (fun _ no => absurd no Bool.false_ne_true)
    fun _ => ?_)
  · rw [value, held', due', issued']
    rfl
  · show (if h.base.mint = m then h.plain else 0) = 0
    split
    · rename_i mint
      have le := h.plain_le_value
      rw [empty mint] at le
      exact Nat.le_zero.mp le
    · rfl

/-- A closed account had no tokens. -/
theorem closeHolding (c : Floating m n B) {a : Address} {h : Holding} (held : B.slot a = .holding h)
    (empty : h.base.mint = m → h.value = 0) : Floating m n (B.write a .foreign) := by
  have value := Slot.heldOf_of_empty empty
  refine c.write ?_ (fun _ => Nat.two_pow_pos 64)
    (c.plainless_write (fun _ no => absurd no Bool.false_ne_true)
    fun _ => rfl)
  rw [held, value]
  rfl

/-- Where the mint has issued nothing, no account of it holds anything. -/
theorem empty (c : Conserved m B) (nothing : (B.slot m).issued = 0) :
    (∀ a, (B.slot a).heldOf m = 0) ∧ (B.slot m).due = 0 := by
  have balanced := c.balanced
  rw [nothing] at balanced
  have held : total (Slot.heldOf m) B.slot = 0 := by omega
  exact ⟨total_eq_zero_iff.mp held, by omega⟩

/-- A new mint has issued nothing, and nothing was left of one before it. -/
theorem openIssue (c : Conserved m B) {x : Address} {iss : Issuance} (old : (B.slot x).Bare)
    (due : iss.due = 0) (issued : iss.issued = 0) (plain : iss.plain = 0) :
    Conserved m (B.write x (.issue iss)) := by
  obtain ⟨held', due', issued', -, -⟩ := old.nothing m x
  refine c.write ?_ (fun _ => ?_) fun mintBurn b => ?_
  · show ((0 : ℕ) : ℤ) + 0 + (if x = m then (iss.due : ℤ) - iss.issued else 0) = _
    rw [due, issued, held', due', issued']
  · show iss.issued < _
    rw [issued]
    decide
  · by_cases same : b = x
    · subst same
      rw [Book.slot_write_self]
      show (if b = m then iss.plain else 0) = 0
      rw [plain, ite_self]
    · by_cases here : x = m
      · subst here
        rw [Book.slot_write_of_ne _ same]
        have nothing := (c.empty issued').1 b
        cases slot : B.slot b with
        | holding h =>
          show (if h.base.mint = x then h.plain else 0) = 0
          split
          · rename_i mint
            rw [slot, Slot.heldOf_holding mint] at nothing
            exact Nat.le_zero.mp (nothing ▸ h.plain_le_value)
          · rfl
        | issue => exact if_neg same
        | _ => rfl
      · rw [Book.slot_write_of_ne _ (Ne.symm here)] at mintBurn
        rw [Book.slot_write_of_ne _ same]
        exact c.plainless mintBurn b

/-- A mint that is closed had issued nothing. -/
theorem closeIssue (c : Conserved m B) {x : Address} {iss : Issuance} (old : B.slot x = .issue iss)
    (nothing : iss.issued = 0) : Conserved m (B.write x .foreign) := by
  refine c.write ?_ (fun _ => Nat.two_pow_pos 64)
    (c.plainless_write (fun _ no => absurd no Bool.false_ne_true)
    fun _ => rfl)
  rw [old]
  by_cases here : x = m
  · subst here
    have due := (c.empty (by rw [old]; exact nothing)).2
    rw [old] at due
    rw [due, if_pos rfl, if_pos rfl]
    show ((0 : ℕ) : ℤ) + 0 + (((0 : ℕ) : ℤ) - ((0 : ℕ) : ℤ)) =
      ((0 : ℕ) : ℤ) + 0 + (((0 : ℕ) : ℤ) - (iss.issued : ℤ))
    rw [nothing]
  · rw [if_neg here, if_neg here]
    rfl

/-! ### Two writes -/

/-- **An account and its mint**: what one gains the other issues, or owes less. -/
theorem writePair (c : Conserved m B) {x m' : Address} {h h' : Holding} {iss iss' : Issuance}
    (held : B.slot x = .holding h) (issued : B.slot m' = .issue iss) (mint : h.base.mint = m')
    (mint' : h'.base.mint = m')
    (move : h.value + iss.due ≤ iss.issued → iss.issued < 2 ^ 64 →
      h'.value + iss'.due + iss.issued = h.value + iss.due + iss'.issued ∧ iss'.issued < 2 ^ 64)
    (mintBurn : iss'.mintBurn.isSome = iss.mintBurn.isSome)
    (plain : iss.mintBurn.isSome = true → h.plain = 0 → iss.plain = 0 →
      h'.plain = 0 ∧ iss'.plain = 0) :
    Conserved m ((B.write x (.holding h')).write m' (.issue iss')) := by
  have apart : m' ≠ x := fun same => by simp [same, held] at issued
  have issued' : (B.write x (.holding h')).slot m' = .issue iss := by
    rw [Book.slot_write_of_ne _ apart, issued]
  by_cases here : m' = m
  · subst here
    have le := c.value_le held mint
    have bounded := c.bounded
    have plainOf : iss.mintBurn.isSome = true → h.plain = 0 := fun some =>
      c.plain_eq_zero (by rw [issued]; exact some) held mint
    rw [issued] at le bounded
    have le' : h.value + iss.due ≤ iss.issued := by
      show h.value + (Slot.issue iss).due ≤ (Slot.issue iss).issued
      omega
    obtain ⟨sum, small⟩ := move le' bounded
    -- What leaves or enters the account is in flight between the two writes.
    have first : Floating m' ((h.value : ℤ) - h'.value) (B.write x (.holding h')) := by
      refine c.writeHolding held mint mint' (by omega) fun some zero => ?_
      rw [issued] at some
      have zero' := c.plainless (by rw [issued]; exact some) m'
      rw [issued] at zero'
      exact (plain some zero ((if_pos rfl).symm.trans zero')).1
    refine first.writeIssue issued' (by omega) small mintBurn fun some zero => ?_
    exact (plain some (plainOf some) zero).2
  · exact (c.writeOther held (mint ▸ here) (mint'.trans mint.symm)).writeOtherIssue issued' here

/-- **Two accounts of a mint**: what leaves one enters the other. -/
theorem writeTransfer (c : Conserved m B) {a d m' : Address} {h h' hd hd' : Holding}
    (held : B.slot a = .holding h) (destination : (B.write a (.holding h')).slot d = .holding hd)
    (mint : h.base.mint = m') (mint' : h'.base.mint = m') (mintD : hd.base.mint = m')
    (mintD' : hd'.base.mint = m')
    (move : ∃ k, (h.value < 2 ^ 64 → h.value = h'.value + k) ∧
      (hd.value + k < 2 ^ 64 → hd'.value = hd.value + k))
    (plain : (B.slot m').mintBurn = true → h.plain = 0 →
      h'.plain = 0 ∧ (hd.plain = 0 → hd'.plain = 0)) :
    Conserved m ((B.write a (.holding h')).write d (.holding hd')) := by
  by_cases here : m' = m
  · subst here
    obtain ⟨k, leaves, enters⟩ := move
    have left := leaves (c.value_lt le_rfl held mint)
    have first : Floating m' k (B.write a (.holding h')) :=
      c.writeHolding held mint mint' (by omega) fun some zero => (plain some zero).1
    have le := first.value_le destination mintD
    have bounded := first.bounded
    have entered := enters (by omega)
    refine first.writeHolding destination mintD mintD' (by omega) fun some zero => ?_
    have before : (B.slot m').mintBurn = true := by
      by_cases atMint : m' = a
      · rw [atMint, Book.slot_write_self] at some
        exact absurd some Bool.false_ne_true
      · rwa [Book.slot_write_of_ne _ atMint] at some
    exact (plain before (c.plain_eq_zero before held mint)).2 zero
  · exact (c.writeOther held (mint ▸ here) (mint'.trans mint.symm)).writeOther destination
      (mintD ▸ here) (mintD'.trans mintD.symm)

end Floating

/-! ### Every effect -/

namespace Holding

/-- The tokens of a holding: in the plain, and encrypted. -/
theorem value_eq_plain (h : Holding) :
    h.value = h.plain + (h.balance.value + (h.encryptedWithheld.getD 0).val) := by
  unfold value plain funds fees
  omega

theorem plain_withBase (h : Holding) (base : PodAccount) :
    (h.withBase base).plain = base.amount + h.withheld.getD 0 := rfl

theorem value_withBase (h : Holding) (base : PodAccount) :
    (h.withBase base).value = base.amount + h.balance.value + h.fees := rfl

end Holding

/-- **A step of a loop over withheld fees keeps the tokens of every mint.** -/
theorem Collect.conserved {m m' : Address} {paid : Bool} {B B' : Book} (c : Conserved m B)
    (collect : Collect m' paid B B') : Conserved m B' := by
  cases collect with
  | @toMint _ a h iss config w held mint withheld issued fees small =>
    refine c.writePair held issued mint mint (fun _ bounded => ⟨?_, bounded⟩) rfl
      fun _ zero zero' => ?_
    · simp only [Holding.value, Holding.fees, Holding.funds, Holding.balance, Issuance.due,
        Issuance.retained, Issuance.issued, withheld, fees, Option.getD_some, Option.map_some]
      omega
    · simp only [Holding.plain, Issuance.plain, withheld, fees, Option.getD_some,
        Option.map_some] at zero zero' ⊢
      omega
  | @toAccount _ a d h hd w held mint withheld destination mint' thawed small =>
    refine c.writeTransfer held destination mint mint mint' mint' ⟨w, fun _ => ?_, fun _ => ?_⟩
      fun _ zero => ?_
    · simp only [Holding.value, Holding.fees, Holding.funds, Holding.balance, withheld,
        Option.getD_some]
      omega
    · simp only [Holding.value, Holding.fees, Holding.funds, Holding.balance, Holding.withAmount]
      omega
    · simp only [Holding.plain, Holding.withAmount, withheld, Option.getD_some] at zero ⊢
      omega
  | @encryptedToMint _ a h iss w r held mint withheld issued fees =>
    refine c.writePair held issued mint mint (fun le bounded => ⟨?_, bounded⟩) rfl
      fun _ zero zero' => ⟨zero, zero'⟩
    simp only [Holding.value, Holding.fees, Holding.funds, Holding.balance, Issuance.due,
      Issuance.retained, Issuance.issued, withheld, fees, Option.getD_some, ZMod.val_zero] at le bounded ⊢
    have sum : (r + w).val = r.val + w.val := val_add_of_small (by omega) (by omega)
    omega
  | @encryptedToAccount _ a d h hd w e held mint withheld destination mint' thawed encrypted =>
    refine c.writeTransfer held destination mint mint mint' mint' ⟨w.val, fun _ => ?_, fun small => ?_⟩
      fun _ zero => ⟨zero, id⟩
    · simp only [Holding.value, Holding.fees, Holding.funds, Holding.balance, withheld,
        Option.getD_some, ZMod.val_zero]
      omega
    · rw [Holding.value_eq encrypted] at small
      have sum : (e.available + w).val = e.available.val + w.val :=
        val_add_of_small (by omega) (by omega)
      rw [Holding.value_eq encrypted, Holding.value_eq rfl, sum]
      simp only [EncryptedBalance.pending]
      omega

/-- **A new mint owes nothing and has issued nothing.** -/
theorem Buffer.Fresh.nothing {b : Buffer} (fresh : b.Fresh) {base : PodMint}
    (empty : base.supply = 0) : (b.issuance base).due = 0 ∧ (b.issuance base).issued = 0 ∧
      (b.issuance base).plain = 0 := by
  obtain ⟨retained, -, mintBurn, -⟩ := fresh.issuance base
  have plain : (b.issuance base).plain = 0 := by
    have fees := (Nat.add_eq_zero_iff.mp retained).1
    unfold Issuance.plain
    rw [fees]
    exact empty
  cases held : (b.issuance base).mintBurn with
  | none =>
    refine ⟨?_, (Issuance.issued_of_plain held).trans empty, plain⟩
    rw [Issuance.due, retained, held, Option.getD_none, EncryptedSupply.pendingBurn_zero,
      ZMod.val_zero]
  | some e =>
    obtain rfl := mintBurn e held
    refine ⟨?_, ?_, plain⟩
    · rw [Issuance.due, retained, held, Option.getD_some, EncryptedSupply.pendingBurn_zero,
        ZMod.val_zero]
    · rw [Issuance.issued_of_mintBurn held, EncryptedSupply.supply_zero, ZMod.val_zero]

theorem nativeIssuance_nothing :
    nativeIssuance.due = 0 ∧ nativeIssuance.issued = 0 ∧ nativeIssuance.plain = 0 :=
  (Buffer.Fresh.allocated _).nothing rfl

theorem SpendsEncrypted.plain {i : Invocation} {h h' : Holding} {m : Address} {lo hi : Scalar}
    (spends : SpendsEncrypted i h h' m lo hi) : h'.plain = h.plain := by
  obtain ⟨e, remaining, -, -, -, rfl⟩ := spends.moved
  rfl

theorem ReceivesEncrypted.plain {h h' : Holding} {m : Address} {lo hi : Scalar}
    (receives : ReceivesEncrypted h h' m lo hi) : h'.plain = h.plain := by
  obtain ⟨e, -, rfl⟩ := receives.moved
  rfl

theorem ReceivesEncryptedWithFee.plain {h h' : Holding} {m : Address} {lo hi feeLo feeHi : Scalar}
    (receives : ReceivesEncryptedWithFee h h' m lo hi feeLo feeHi) : h'.plain = h.plain := by
  obtain ⟨e, w, -, -, rfl⟩ := receives.moved
  rfl

/-- A change in a holding alone keeps its amount. -/
theorem Adjustment.amount {i : Invocation} {B : Book} {a : Address} {h h' : Holding}
    {v : List Address} (adjustment : Adjustment i B a h v h') :
    h'.base.amount = h.base.amount ∧ h'.plain = h.plain := by
  cases adjustment <;> exact ⟨rfl, rfl⟩

/-- A change in a holding alone keeps its tokens. -/
theorem Adjustment.value {i : Invocation} {B : Book} {a : Address} {h h' : Holding}
    {v : List Address} (adjustment : Adjustment i B a h v h') (small : h.value < 2 ^ 64) :
    h'.value = h.value := by
  cases adjustment with
  | configure fees _ _ absent noFees =>
    rw [Holding.value_eq rfl, Holding.value, Holding.funds, Holding.balance_of_none absent]
    cases fees with
    | false => simp [Holding.fees]
    | true => simp [Holding.fees, noFees rfl]
  | applyPending _ encrypted => exact value_applyPending encrypted small
  | _ => rfl

/-- What a debit takes off the amount. -/
theorem Holding.value_debit {h : Holding} {n : ℕ} {base : PodAccount} (enough : n ≤ h.base.amount) :
    h.value = (h.withBase { base with amount := h.base.amount - n }).value + n := by
  rw [Holding.value_withBase, Holding.value, Holding.funds]
  show _ = h.base.amount - n + h.balance.value + h.fees + n
  omega

/-- A mint that changes nothing that counts. -/
theorem Floating.writeSettings {m x : Address} {B : Book} {iss iss' : Issuance} (c : Conserved m B)
    (issued : B.slot x = .issue iss) (due : iss'.due = iss.due) (same : iss'.issued = iss.issued)
    (mintBurn : iss'.mintBurn.isSome = iss.mintBurn.isSome) (plain : iss'.plain = iss.plain) :
    Conserved m (B.write x (.issue iss')) := by
  by_cases here : x = m
  · subst here
    have bounded := c.bounded
    rw [issued] at bounded
    exact c.writeIssue issued (by rw [due, same]) (same ▸ bounded) mintBurn
      fun _ zero => plain.trans zero
  · exact c.writeOtherIssue issued here

theorem ConfigOnly.counts {iss iss' : Issuance} (same : ConfigOnly iss iss') :
    iss'.due = iss.due ∧ iss'.issued = iss.issued ∧ iss'.plain = iss.plain := by
  unfold Issuance.due Issuance.issued Issuance.plain Issuance.retained
  rw [same.withheld, same.encryptedWithheld, same.mintBurn, same.supply]
  exact ⟨rfl, rfl, rfl⟩

/-- An account that is closed has no tokens. -/
theorem Closes.value {i : Invocation} {h : Holding} {d : Address} {v : List Address}
    (closes : Closes i h d v) (plain : h.base.isNativeAccount = false) : h.value = 0 := by
  have amount : h.base.amount = 0 :=
    closes.empty.resolve_left fun native => by simp [plain] at native
  have balance : h.balance.value = 0 := by
    cases held : h.encrypted with
    | none => rw [Holding.balance_of_none held, EncryptedBalance.value_zero]
    | some e =>
      obtain ⟨available, lo, hi⟩ := closes.balance e held
      rw [Holding.balance_of_encrypted held, EncryptedBalance.value, EncryptedBalance.pending,
        available, lo, hi, pendingTotal_zero, ZMod.val_zero]
  have withheld : h.withheld.getD 0 = 0 := by
    cases held : h.withheld with
    | none => rfl
    | some w => exact closes.withheld w held
  have encryptedWithheld : (h.encryptedWithheld.getD 0).val = 0 := by
    cases held : h.encryptedWithheld with
    | none => exact ZMod.val_zero
    | some w => rw [Option.getD_some, closes.encryptedWithheld w held, ZMod.val_zero]
  unfold Holding.value Holding.funds Holding.fees
  omega

/-- **Every effect conserves the tokens of every mint but the native one.** -/
theorem Floating.effect {i : Invocation} {v : List Address} {arm : Option DebitArm} {B B' : Book}
    {m : Address} (ne : m ≠ nativeMintId) (wf : B.WellFormed) (c : Conserved m B)
    (effect : Effect i v arm B B') : Conserved m B' := by
  cases effect with
  | idle => exact c
  | stage held => exact c.writeBare (by rw [held]; trivial) trivial
  | @openMint _ x b base named held valid empty =>
    obtain ⟨due, issued, plain⟩ := (wf.fresh x b held).nothing empty
    exact c.openIssue (by rw [held]; trivial) due issued plain
  | createNativeMint named held =>
    obtain ⟨due, issued, plain⟩ := nativeIssuance_nothing
    exact c.openIssue (by rw [held]; trivial) due issued plain
  | @openHolding _ a m' b iss base held issued opens =>
    refine c.openHolding (by rw [held]; trivial) fun mint => ?_
    rw [(wf.fresh a b held).openHolding] at mint ⊢
    obtain rfl : m' = m := opens.mint.symm.trans mint
    have amount : base.amount = 0 := (opens.plain ne).2
    cases marked : iss.fees.isSome <;>
      simp [Holding.value, Holding.funds, Holding.fees, Holding.balance, amount]
  | openMultisig held => exact c.writeBare (by rw [held]; trivial) trivial
  | configureMint issued same =>
    obtain ⟨due, counts, plain⟩ := same.counts
    exact c.writeSettings issued due counts same.demands.mintBurn plain
  | togglePause issued => exact c.writeSettings issued rfl rfl rfl rfl
  | adjust held adjustment =>
    refine c.writeSame held adjustment.marks.mint
      (fun mint => adjustment.value (c.value_lt le_rfl held mint)) fun _ _ zero => ?_
    exact adjustment.amount.2.trans zero
  | toggleFreeze _ held => exact c.writeSame held rfl (fun _ => rfl) fun _ _ zero => zero
  | reserve held => exact c.writeSame held rfl (fun _ => rfl) fun _ _ zero => zero
  | syncNative _ held native =>
    exact c.writeOther held (fun mint => ne (mint.symm.trans ((wf.native _ _ held).mp native))) rfl
  | withdrawExcess => exact c.of_slot (Book.slot_pay ..)
  | @transfer _ C a d h hd base key arm n fee hd' held destination distinct mint thawed thawed'
      enough transferable debit unguarded terms fee_le small credited lamports =>
    have slots := Book.slot_paid lamports
    have received : hd'.base.mint = hd.base.mint ∧ hd'.value = hd.value + n ∧
        hd'.plain = hd.plain + n := by
      split at credited
      · obtain ⟨w, withheld, -, rfl⟩ := credited
        refine ⟨rfl, ?_, ?_⟩
        · simp only [Holding.value, Holding.funds, Holding.fees, Holding.balance,
            Holding.withAmount, withheld, Option.getD_some]
          omega
        · simp only [Holding.plain, Holding.withAmount, withheld, Option.getD_some]
          omega
      · subst credited
        refine ⟨rfl, ?_, ?_⟩
        · simp only [Holding.value, Holding.funds, Holding.fees, Holding.balance,
            Holding.withAmount]
          omega
        · simp only [Holding.plain, Holding.withAmount]
          omega
    refine (c.of_slot slots).writeTransfer (slots ▸ held) ?_ rfl debit.kept.1 mint
      (received.1.trans mint) ⟨n, fun _ => Holding.value_debit enough, fun _ => received.2.1⟩
      fun _ zero => ⟨?_, fun zero' => ?_⟩
    · rw [Book.slot_write_of_ne _ distinct.symm, slots, destination]
    · rw [Holding.plain_withBase]
      simp only [Holding.plain] at zero ⊢
      omega
    · rw [received.2.2, zero']
      simp only [Holding.plain] at zero
      omega
  | @unwrap _ C a d h base key arm n held native enough debit limited unguarded lamports =>
    have slots := Book.slot_paid lamports
    exact (c.of_slot slots).writeOther (slots ▸ held)
      (fun mint => ne (mint.symm.trans ((wf.native _ _ held).mp native))) debit.kept.1
  | mintTo issued held mint thawed plain marked running base small small' =>
    refine c.writePair held issued mint mint (fun _ _ => ⟨?_, ?_⟩) rfl fun some => ?_
    · simp only [Holding.value, Holding.funds, Holding.withAmount, Holding.fees, Holding.balance,
        Issuance.due, Issuance.retained, Issuance.issued, base, Option.elim_none]
      omega
    · simp only [Issuance.issued, base, Option.elim_none]
      exact small'
    · simp [base] at some
  | @burn _ x a iss h base n _ _ named issued held mint thawed plain enough enough' running noMintBurn
      debit =>
    have sameMint : base.mint = h.base.mint := by
      split at debit
      · rw [debit.1]
      · obtain ⟨key, arm', debit, -⟩ := debit
        exact debit.kept.1
    refine c.writePair held issued mint (sameMint.trans mint) (fun _ bounded => ⟨?_, ?_⟩) rfl
      fun some => ?_
    · have value := @Holding.value_debit h n base enough
      simp only [Issuance.due, Issuance.retained, Issuance.issued, noMintBurn, Option.elim_none]
      omega
    · simp only [Issuance.issued, noMintBurn, Option.elim_none] at bounded ⊢
      exact lt_of_le_of_lt (Nat.sub_le _ _) bounded
    · simp [noMintBurn] at some
  | @closeHolding _ a d h _ held target distinct closes =>
    have paid : Conserved m (B.pay a d (B.lamports a)) := c.of_slot (Book.slot_pay ..)
    refine paid.closeHolding held fun mint => closes.value ?_
    exact wf.plainAccount held (mint ▸ ne)
  | @closeMint _ x d iss key issued named distinct authority supply mintBurn =>
    have paid : Conserved m (B.pay x d (B.lamports x)) := c.of_slot (Book.slot_pay ..)
    refine paid.closeIssue issued ?_
    cases burn : iss.mintBurn with
    | none => rw [Issuance.issued_of_plain burn, supply]
    | some e => rw [Issuance.issued_of_mintBurn burn, mintBurn e burn, ZMod.val_zero]
  | collect _ chain =>
    induction chain with
    | refl => exact c
    | tail _ step ih => exact Collect.conserved ih step
  | @withdrawWithheld _ x d iss config h key named issued fees held mint thawed small =>
    have apart : x ≠ d := fun same => by simp [same, held] at issued
    rw [Book.write_comm B apart]
    refine c.writePair held issued mint mint (fun _ bounded => ⟨?_, bounded⟩) rfl
      fun _ zero zero' => ?_
    · simp only [Holding.value, Holding.funds, Holding.withAmount, Holding.fees, Holding.balance,
        Issuance.due, Issuance.retained, Issuance.issued, fees, Option.map_some, Option.getD_some]
      omega
    · simp only [Holding.plain, Holding.withAmount, Issuance.plain, fees, Option.map_some,
        Option.getD_some] at zero zero' ⊢
      omega
  | @deposit _ a h iss e n held issued running base transferable thawed plain enough small encrypted =>
    refine c.writeSame held rfl
      (fun mint => value_deposit encrypted enough small (c.value_lt le_rfl held mint))
      fun mint some => ?_
    rw [← mint, issued] at some
    exact absurd some (by simp [Slot.mintBurn, base])
  | @withdraw _ a h iss e n remaining held issued running base transferable thawed plain small
      encrypted moved bounded =>
    refine c.writeSame held rfl
      (fun _ => value_withdraw encrypted moved bounded (lt_of_le_of_lt (Nat.le_add_left _ _) small))
      fun mint some => ?_
    rw [← mint, issued] at some
    exact absurd some (by simp [Slot.mintBurn, base])
  | @confidentialTransfer _ a d x iss h h' hd hd' lo hi issued running held transferable spends
      destination receives =>
    have marks : hd'.base.mint = hd.base.mint := by
      rcases receives with receives | ⟨-, feeLo, feeHi, receives⟩
      · exact receives.marks.mint
      · exact receives.marks.mint
    have mint' : hd.base.mint = x := by
      rcases receives with receives | ⟨-, feeLo, feeHi, receives⟩
      · exact receives.mint
      · exact receives.mint
    refine c.writeTransfer held destination spends.mint (spends.marks.mint.trans spends.mint) mint'
      (marks.trans mint') ⟨(pendingTotal lo hi).val, fun _ => spends.value, fun small => ?_⟩
      fun _ zero => ⟨spends.plain.trans zero, fun zero' => ?_⟩
    · rcases receives with receives | ⟨-, feeLo, feeHi, receives⟩
      · exact receives.value (lt_of_le_of_lt (Nat.le_add_right _ _) small)
      · exact receives.value (lt_of_le_of_lt (Nat.le_add_right _ _) small)
    · rcases receives with receives | ⟨-, feeLo, feeHi, receives⟩
      · exact receives.plain.trans zero'
      · exact receives.plain.trans zero'
  | @confidentialMint _ a x iss e h h' lo hi key issued running held marked receives supply bounded =>
    refine c.writePair held issued receives.mint (receives.marks.mint.trans receives.mint)
      (fun le small => ⟨?_, ?_⟩) (by rw [supply]; rfl) fun _ zero zero' =>
        ⟨receives.plain.trans zero, zero'⟩
    · rw [Issuance.issued_of_mintBurn supply] at le small ⊢
      rw [Issuance.issued_of_mintBurn rfl, receives.value (by omega),
        val_add_of_small small (receives.split.val_total.2.trans (by decide))]
      simp only [Issuance.due, supply, Option.getD_some, Issuance.retained]
      omega
    · rw [Issuance.issued_of_mintBurn rfl]
      exact bounded
  | @confidentialBurn _ a x iss e h h' lo hi issued running held spends supply =>
    refine c.writePair held issued spends.mint (spends.marks.mint.trans spends.mint)
      (fun le small => ⟨?_, ?_⟩) (by rw [supply]; rfl) fun _ zero zero' =>
        ⟨spends.plain.trans zero, zero'⟩
    · have value := spends.value
      rw [Issuance.issued_of_mintBurn supply] at le small ⊢
      simp only [Issuance.due, supply, Option.getD_some] at le
      have sum : (e.pendingBurn + pendingTotal lo hi).val =
          e.pendingBurn.val + (pendingTotal lo hi).val := val_add_of_small (by omega) (by omega)
      rw [Issuance.issued_of_mintBurn rfl]
      simp only [Issuance.due, supply, Option.getD_some, Issuance.retained, sum]
      omega
    · rw [Issuance.issued_of_mintBurn supply] at small
      rw [Issuance.issued_of_mintBurn rfl]
      exact small
  | @applyPendingBurn _ x iss e key issued supply =>
    by_cases here : x = m
    · subst here
      have balanced := c.balanced
      have bounded := c.bounded
      rw [issued] at balanced bounded
      simp only [Slot.due, Slot.issued, Issuance.issued_of_mintBurn supply, Issuance.due, supply,
        Option.getD_some] at balanced bounded
      have difference : (e.supply - e.pendingBurn).val = e.supply.val - e.pendingBurn.val :=
        val_sub_of_le (by omega)
      refine c.writeIssue issued ?_ ?_ (by rw [supply]; rfl) fun _ zero => zero
      · rw [Issuance.issued_of_mintBurn rfl, Issuance.issued_of_mintBurn supply]
        simp only [Issuance.due, supply, Option.getD_some, Issuance.retained, difference,
          ZMod.val_zero]
        omega
      · rw [Issuance.issued_of_mintBurn rfl]
        simp only [difference]
        omega
    · exact c.writeOtherIssue issued here
  | @withdrawEncryptedWithheld _ x d iss r h e key named issued fees held mint thawed encrypted =>
    refine c.writePair held issued mint mint (fun le bounded => ⟨?_, bounded⟩) rfl
      fun _ zero zero' => ⟨zero, zero'⟩
    rw [Holding.value_eq encrypted] at le ⊢
    simp only [Issuance.due, Issuance.retained, fees, Option.getD_some] at le
    have sum : (e.available + r).val = e.available.val + r.val :=
      val_add_of_small (by omega) (by omega)
    rw [Holding.value_eq rfl, sum]
    simp only [EncryptedBalance.pending, Issuance.due, Issuance.retained, Issuance.issued, fees,
      Option.getD_some, ZMod.val_zero]
    omega

/-- The rest of the world does not touch tokens. -/
theorem Floating.external {m : Address} {B B' : Book} (c : Conserved m B)
    (ext : Book.External B B') : Conserved m B' := by
  -- What is handed to the program is bare, as it was before.
  have bare : ∀ a, B'.slot a = B.slot a ∨ (B.slot a).Bare ∧ (B'.slot a).Bare := by
    intro a
    by_cases foreign : B.slot a = .foreign
    · refine .inr ⟨by rw [foreign]; trivial, ?_⟩
      rcases ext.handed a foreign with same | ⟨len, allocated⟩
      · rw [same]
        trivial
      · rw [allocated]
        trivial
    · exact .inl (ext.kept a foreign).1
  have same : ∀ a, (B'.slot a).heldOf m = (B.slot a).heldOf m ∧ (B'.slot a).due = (B.slot a).due ∧
      (B'.slot a).issued = (B.slot a).issued ∧ (B'.slot a).mintBurn = (B.slot a).mintBurn ∧
      (B'.slot a).plainOf m a = (B.slot a).plainOf m a := by
    intro a
    rcases bare a with same | ⟨before, after⟩
    · rw [same]
      exact ⟨rfl, rfl, rfl, rfl, rfl⟩
    · obtain ⟨held, due, issued, mintBurn, plain⟩ := before.nothing m a
      obtain ⟨held', due', issued', mintBurn', plain'⟩ := after.nothing m a
      rw [held, due, issued, mintBurn, plain]
      exact ⟨held', due', issued', mintBurn', plain'⟩
  obtain ⟨-, due, issued, mintBurn, -⟩ := same m
  refine ⟨?_, ?_, ?_⟩
  · rw [total_congr fun a => (same a).1, due, issued]
    exact c.balanced
  · rw [issued]
    exact c.bounded
  · rw [mintBurn]
    intro some a
    rw [(same a).2.2.2.2]
    exact c.plainless some a

theorem Conserved.kept {m : Address} (ne : m ≠ nativeMintId) :
    Kept (fun _ _ => True) fun B => B.WellFormed ∧ Conserved m B where
  external holds ext := ⟨holds.1.external ext, holds.2.external ext⟩
  guard := fun _ _ => trivial
  effect _ holds effect := ⟨holds.1.effect effect, holds.2.effect ne holds.1 effect⟩

/-- **Conservation holds in every reachable state.** -/
theorem conserved_reachable {L : Ledger} {m : Address} (reachable : Reachable L)
    (ne : m ≠ nativeMintId) : Conserved m L.book :=
  ((Conserved.kept ne).reachable (fun _ blank => ⟨.of_blank blank, .of_blank blank⟩) reachable).2

end Token2022
