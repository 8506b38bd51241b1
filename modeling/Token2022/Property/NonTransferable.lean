/-
**Non-transferable mints: tokens stay where they were minted.**

A mint may be closed and created again with other extensions, while accounts of it survive that lack
the marks which the new one demands. Such accounts have no tokens, and get none.

* `Holding.tokens`, `Slot.tokensOf`, `Ledger.tokensOf` — the tokens of an account, place by place.
* `Bound` — the accounts of a mint are marked, or empty; nothing is withheld.
* **`Bound.effect`** — every effect on a non-transferable mint keeps it; `Book.Binding.kept` — so does
  every run, from the initialization of the mint on.
* `Bound.stays` — an effect changes the tokens of one account at most.
* **`nonTransferable_stays`** — no tokens move between accounts, and accounts with tokens keep their
  owner.
-/

import Token2022.Environment
import Token2022.Property.Authorization
import Token2022.Property.Delegation

namespace Token2022

open LabelledRun

/-! ### Tokens, place by place -/

/-- The tokens of a holding: its amount, its encrypted balance, and what is withheld of both. -/
def Holding.tokens (h : Holding) : ℕ × ℕ × ℕ × ℕ :=
  (h.base.amount, h.balance.value, h.withheld.getD 0, (h.encryptedWithheld.getD 0).val)

/-- The tokens of the mint at `m` in a slot. -/
def Slot.tokensOf (m : Address) : Slot → ℕ × ℕ × ℕ × ℕ
  | .holding h => if h.base.mint = m then h.tokens else 0
  | _ => 0

/-- The tokens of the mint at `m` in the token account at `a`: `amount`, the confidential balances,
`withheld_amount`, and its confidential counterpart. -/
def Ledger.tokensOf (L : Ledger) (m a : Address) : ℕ × ℕ × ℕ × ℕ :=
  match L.account? a with
  | some st =>
    if st.base.mint = m then
      (st.base.amount, st.confidentialBalance, st.withheldAmount, st.confidentialWithheldAmount.val)
    else 0
  | none => 0

/-- **The book has the tokens of the ledger.** -/
theorem Ledger.tokensOf_book (L : Ledger) (m a : Address) :
    (L.book.slot a).tokensOf m = L.tokensOf m a := by
  unfold Ledger.tokensOf
  cases held : L.account? a with
  | some st =>
    rw [slot_of_account? held]
    simp only [Slot.tokensOf, Holding.tokens, StateWithExtensions.balance_holding,
      StateWithExtensions.encryptedWithheld_getD_holding]
    rfl
  | none =>
    cases slot : L.book.slot a with
    | holding h =>
      obtain ⟨st, there, -⟩ := slot_holding_iff.mp slot
      simp [held] at there
    | _ => rfl

namespace Slot

variable {m : Address}

/-- Two holdings that differ in nothing that belongs to the mint at `m`. -/
theorem tokensOf_congr {h h' : Holding} (mint : h'.base.mint = h.base.mint)
    (same : h.base.mint = m → h'.tokens = h.tokens) :
    (holding h').tokensOf m = (holding h).tokensOf m := by
  simp only [tokensOf, mint]
  split
  · exact same ‹_›
  · rfl

end Slot

namespace Holding

variable {h h' : Holding}

theorem value_of_tokens (same : h'.tokens = h.tokens) : h'.value = h.value ∧ h'.fees = h.fees := by
  simp only [tokens, Prod.mk.injEq] at same
  obtain ⟨amount, balance, withheld, encryptedWithheld⟩ := same
  unfold value funds fees
  rw [amount, balance, withheld, encryptedWithheld]
  exact ⟨rfl, rfl⟩

/-- Nothing is withheld where there are no fees. -/
theorem withheld_of_fees (none : h.fees = 0) :
    (∀ w, h.withheld = some w → w = 0) ∧ ∀ w, h.encryptedWithheld = some w → w = 0 := by
  obtain ⟨plain, encrypted⟩ := Nat.add_eq_zero_iff.mp none
  refine ⟨fun w held => ?_, fun w held => ?_⟩
  · rw [held] at plain
    exact plain
  · rw [held] at encrypted
    exact (ZMod.val_eq_zero w).mp encrypted

end Holding

/-- The tokens of the mint at `m` are where they were. -/
def Unmoved (m : Address) (B B' : Book) : Prop :=
  ∀ a, (B'.slot a).tokensOf m = (B.slot a).tokensOf m

theorem Unmoved.trans {m : Address} {B B' B'' : Book} (first : Unmoved m B B')
    (second : Unmoved m B' B'') : Unmoved m B B'' := fun a => (second a).trans (first a)

theorem Unmoved.of_slot {m : Address} {B B' : Book} (same : B'.slot = B.slot) :
    Unmoved m B B' := fun a => by rw [same]

/-- One write that moves no tokens. -/
theorem Unmoved.write {m x : Address} {B : Book} {s : Slot}
    (here : s.tokensOf m = (B.slot x).tokensOf m) : Unmoved m B (B.write x s) := by
  intro a
  by_cases same : a = x
  · rw [same, Book.slot_write_self, here]
  · rw [Book.slot_write_of_ne _ same]

/-- A write to a holding that leaves its tokens. -/
theorem Unmoved.writeHolding {m x : Address} {B : Book} {h : Holding} (h' : Holding)
    (held : B.slot x = .holding h) (mint : h'.base.mint = h.base.mint)
    (same : h.base.mint = m → h'.tokens = h.tokens) :
    Unmoved m B (B.write x (.holding h')) :=
  .write (by rw [held]; exact Slot.tokensOf_congr mint same)

/-- A write to a mint. -/
theorem Unmoved.writeIssue {m x : Address} {B : Book} {iss iss' : Issuance}
    (issued : B.slot x = .issue iss) : Unmoved m B (B.write x (.issue iss')) :=
  .write (by rw [issued]; rfl)

/-! ### Bound tokens -/

/-- The marks that a non-transferable mint demands of an account. -/
def Holding.Marked (h : Holding) : Prop := h.nonTransferable = true ∧ h.immutableOwner = true

/-- **The tokens of the mint at `m` are bound to their accounts.** -/
structure Bound (m : Address) (B : Book) : Prop where
  retained : ∀ iss, B.slot m = .issue iss → iss.retained = 0
  fees : ∀ a h, B.slot a = .holding h → h.base.mint = m → h.fees = 0
  bound : ∀ a h, B.slot a = .holding h → h.base.mint = m → h.value = 0 ∨ h.Marked

namespace Bound

variable {m : Address} {B : Book}

/-- The lamports play no role. -/
theorem of_slot {B' : Book} (same : B'.slot = B.slot) (b : Bound m B) : Bound m B' where
  retained := by rw [same]; exact b.retained
  fees := by rw [same]; exact b.fees
  bound := by rw [same]; exact b.bound

/-- **One write**, of a slot that is bound. -/
theorem write (b : Bound m B) {x : Address} {s : Slot}
    (retained : ∀ iss, x = m → s = .issue iss → iss.retained = 0)
    (held : ∀ h, s = .holding h → h.base.mint = m → h.fees = 0 ∧ (h.value = 0 ∨ h.Marked)) :
    Bound m (B.write x s) where
  retained iss issued := by
    by_cases here : x = m
    · rw [here, Book.slot_write_self] at issued
      exact retained iss here issued
    · rw [Book.slot_write_of_ne _ (Ne.symm here)] at issued
      exact b.retained iss issued
  fees a h slot mint := by
    by_cases here : a = x
    · rw [here, Book.slot_write_self] at slot
      exact (held h slot mint).1
    · rw [Book.slot_write_of_ne _ here] at slot
      exact b.fees a h slot mint
  bound a h slot mint := by
    by_cases here : a = x
    · rw [here, Book.slot_write_self] at slot
      exact (held h slot mint).2
    · rw [Book.slot_write_of_ne _ here] at slot
      exact b.bound a h slot mint

/-- A write to an account, from what it was. -/
theorem writeHolding (b : Bound m B) {x : Address} {h h' : Holding} (held : B.slot x = .holding h)
    (marks : SameMarks h h')
    (tokens : h.base.mint = m → (h.fees = 0 → h'.fees = 0) ∧
      (h.value = 0 → h'.value = 0 ∨ h.Marked)) : Bound m (B.write x (.holding h')) := by
  refine b.write (fun iss _ same => by cases same) fun h₁ same mint => ?_
  obtain rfl := Slot.holding.inj same
  rw [marks.mint] at mint
  have sameMark : h'.Marked ↔ h.Marked := by
    unfold Holding.Marked
    rw [marks.nonTransferable, marks.immutableOwner]
  obtain ⟨fees, value⟩ := tokens mint
  refine ⟨fees (b.fees x h held mint), ?_⟩
  rw [sameMark]
  rcases b.bound x h held mint with zero | marked
  · exact value zero
  · exact .inr marked

/-- A write to an account that leaves its tokens. -/
theorem writeSame (b : Bound m B) {x : Address} {h h' : Holding} (held : B.slot x = .holding h)
    (marks : SameMarks h h') (same : h.base.mint = m → h'.tokens = h.tokens) :
    Bound m (B.write x (.holding h')) :=
  b.writeHolding held marks fun mint => by
    obtain ⟨value, fees⟩ := Holding.value_of_tokens (same mint)
    rw [value, fees]
    exact ⟨id, .inl⟩

/-- A write to an account that leaves what is withheld, and does not fill it where it is empty. -/
theorem writeFunds (b : Bound m B) {x : Address} {h h' : Holding} (held : B.slot x = .holding h)
    (marks : SameMarks h h') (fees : h'.fees = h.fees)
    (value : h.base.mint = m → h.value = 0 → h'.value = 0 ∨ h.Marked) :
    Bound m (B.write x (.holding h')) :=
  b.writeHolding held marks fun mint => ⟨fun zero => fees.trans zero, value mint⟩

/-- A write to a mint, from what it was. -/
theorem writeIssue (b : Bound m B) {x : Address} {iss iss' : Issuance}
    (issued : B.slot x = .issue iss) (retained : iss.retained = 0 → iss'.retained = 0) :
    Bound m (B.write x (.issue iss')) := by
  refine b.write (fun iss₁ here same => ?_) fun h same => by cases same
  obtain rfl := Slot.issue.inj same
  subst here
  exact retained (b.retained iss issued)

/-- A write to an account and to a mint. -/
theorem writePair (b : Bound m B) {a x : Address} {h h' : Holding} {iss iss' : Issuance}
    (held : B.slot a = .holding h) (issued : B.slot x = .issue iss) (marks : SameMarks h h')
    (fees : h'.fees = h.fees) (value : h.base.mint = m → h.value = 0 → h'.value = 0 ∨ h.Marked)
    (retained : iss.retained = 0 → iss'.retained = 0) :
    Bound m ((B.write a (.holding h')).write x (.issue iss')) := by
  have apart : x ≠ a := fun same => by simp [same, held] at issued
  refine (b.writeFunds held marks fees value).writeIssue ?_ retained
  rw [Book.slot_write_of_ne _ apart, issued]

/-- A write of a slot without tokens. -/
theorem writeBare (b : Bound m B) {x : Address} {s : Slot} (bare : s.Bare) :
    Bound m (B.write x s) := by
  refine b.write (fun iss _ same => ?_) fun h same => ?_
  · subst same
    exact bare.elim
  · subst same
    exact bare.elim

/-- **Where nothing was issued, all accounts are empty.** -/
theorem of_nothing (c : Conserved m B) (nothing : (B.slot m).issued = 0) : Bound m B := by
  obtain ⟨empty, due⟩ := c.empty nothing
  have zero : ∀ a h, B.slot a = .holding h → h.base.mint = m → h.value = 0 := by
    intro a h held mint
    have none := empty a
    rwa [held, Slot.heldOf_holding mint] at none
  refine ⟨fun iss issued => ?_, fun a h held mint => ?_,
    fun a h held mint => .inl (zero a h held mint)⟩
  · rw [issued] at due
    exact (Nat.add_eq_zero_iff.mp due).1
  · exact Nat.le_zero.mp (zero a h held mint ▸ h.fees_le_value)

/-- An account without the mark has no tokens. -/
theorem empty_of_transferable (b : Bound m B) {a : Address} {h : Holding}
    (held : B.slot a = .holding h) (mint : h.base.mint = m)
    (transferable : h.nonTransferable = false) : h.value = 0 := by
  refine (b.bound a h held mint).resolve_right fun marked => ?_
  simp [transferable, Holding.Marked] at marked

end Bound

/-- **A step of a loop over withheld fees finds none**, and moves nothing. -/
theorem Collect.bound {m m' : Address} {paid : Bool} {B B' : Book} (b : Bound m B)
    (collect : Collect m' paid B B') : Bound m B' ∧ Unmoved m B B' := by
  cases collect with
  | @toMint _ x h iss config w held mint withheld issued fees small =>
    have none : h.base.mint = m → w = 0 := fun here =>
      (Holding.withheld_of_fees (b.fees x h held here)).1 w withheld
    have marks : SameMarks h { h with withheld := some 0 } :=
      { SameMarks.refl h with withheld := by rw [withheld]; rfl }
    have same : h.base.mint = m → ({ h with withheld := some 0 } : Holding).tokens = h.tokens := by
      intro here
      simp only [Holding.tokens, withheld, none here, Holding.balance]
    have apart : m' ≠ x := fun same => by simp [same, held] at issued
    have issued' : (B.write x (.holding { h with withheld := some 0 })).slot m' = .issue iss := by
      rw [Book.slot_write_of_ne _ apart, issued]
    refine ⟨(b.writeSame held marks same).write (fun iss₁ here same => ?_)
      (fun h₁ same => by cases same),
      (Unmoved.writeHolding { h with withheld := some 0 } held rfl same).trans (.writeIssue issued')⟩
    obtain rfl := Slot.issue.inj same
    subst here
    have retained := b.retained iss issued
    have zero := none mint
    simp only [Issuance.retained, fees, Option.map_some, Option.getD_some] at retained ⊢
    omega
  | @toAccount _ x d h hd w held mint withheld destination mint' thawed small =>
    have none : h.base.mint = m → w = 0 := fun here =>
      (Holding.withheld_of_fees (b.fees x h held here)).1 w withheld
    have marks : SameMarks h { h with withheld := some 0 } :=
      { SameMarks.refl h with withheld := by rw [withheld]; rfl }
    have same : h.base.mint = m → ({ h with withheld := some 0 } : Holding).tokens = h.tokens := by
      intro here
      simp only [Holding.tokens, withheld, none here, Holding.balance]
    have same' : hd.base.mint = m →
        (hd.withAmount (hd.base.amount + w)).tokens = hd.tokens := by
      intro here
      rw [none (mint.trans (mint'.symm.trans here))]
      rfl
    exact ⟨(b.writeSame held marks same).writeSame destination (.of_base rfl rfl) same',
      (Unmoved.writeHolding { h with withheld := some 0 } held rfl same).trans
        (.writeHolding _ destination rfl same')⟩
  | @encryptedToMint _ x h iss w r held mint withheld issued fees =>
    have none : h.base.mint = m → w = 0 := fun here =>
      (Holding.withheld_of_fees (b.fees x h held here)).2 w withheld
    have marks : SameMarks h { h with encryptedWithheld := some 0 } := { SameMarks.refl h with }
    have same : h.base.mint = m →
        ({ h with encryptedWithheld := some 0 } : Holding).tokens = h.tokens := by
      intro here
      simp only [Holding.tokens, withheld, none here, Holding.balance]
    have apart : m' ≠ x := fun same => by simp [same, held] at issued
    have issued' : (B.write x (.holding { h with encryptedWithheld := some 0 })).slot m' =
        .issue iss := by
      rw [Book.slot_write_of_ne _ apart, issued]
    refine ⟨(b.writeSame held marks same).write (fun iss₁ here same => ?_)
      (fun h₁ same => by cases same),
      (Unmoved.writeHolding { h with encryptedWithheld := some 0 } held rfl same).trans (.writeIssue issued')⟩
    obtain rfl := Slot.issue.inj same
    subst here
    have retained := b.retained iss issued
    simp only [Issuance.retained, fees, Option.getD_some, none mint, add_zero] at retained ⊢
    exact retained
  | @encryptedToAccount _ x d h hd w e held mint withheld destination mint' thawed encrypted =>
    have none : h.base.mint = m → w = 0 := fun here =>
      (Holding.withheld_of_fees (b.fees x h held here)).2 w withheld
    have marks : SameMarks h { h with encryptedWithheld := some 0 } := { SameMarks.refl h with }
    have same : h.base.mint = m →
        ({ h with encryptedWithheld := some 0 } : Holding).tokens = h.tokens := by
      intro here
      simp only [Holding.tokens, withheld, none here, Holding.balance]
    have same' : hd.base.mint = m →
        ({ hd with encrypted := some { e with available := e.available + w } } : Holding).tokens =
          hd.tokens := by
      intro here
      simp only [Holding.tokens, Holding.balance, encrypted,
        none (mint.trans (mint'.symm.trans here)), add_zero]
    have marks' : SameMarks hd { hd with encrypted := some { e with available := e.available + w } } :=
      { SameMarks.refl hd with }
    exact ⟨(b.writeSame held marks same).writeSame destination marks' same',
      (Unmoved.writeHolding { h with encryptedWithheld := some 0 } held rfl same).trans
        (.writeHolding _ destination rfl same')⟩

/-- **A loop over withheld fees finds none.** -/
theorem Collect.chain_bound {m m' : Address} {paid : Bool} {B B' : Book} (b : Bound m B)
    (chain : Relation.ReflTransGen (Collect m' paid) B B') : Bound m B' ∧ Unmoved m B B' := by
  induction chain with
  | refl => exact ⟨b, fun _ => rfl⟩
  | tail _ collect ih =>
    obtain ⟨bound, same⟩ := Collect.bound ih.1 collect
    exact ⟨bound, ih.2.trans same⟩

/-! ### Every effect -/

/-- A debit leaves the marks. -/
theorem Debit.marks {B : Book} {h : Holding} {n : ℕ} {base : PodAccount} {key : Address}
    {arm : DebitArm} (debit : Debit B h n base key arm) (amount : ℕ) :
    SameMarks h (h.withBase { base with amount }) := by
  refine .of_base debit.kept.1 ?_
  unfold PodAccount.isNativeAccount
  rw [← debit.kept.2.2.2.2.1]

/-- What is withheld does not change by a holding's own instructions. -/
theorem Adjustment.fees {i : Invocation} {B : Book} {a : Address} {h h' : Holding}
    {v : List Address} (adjustment : Adjustment i B a h v h') : h'.fees = h.fees := by
  cases adjustment with
  | configure fees _ _ _ noFees =>
    cases fees with
    | false => rfl
    | true => simp [Holding.fees, noFees rfl]
  | _ => rfl

namespace Bound

variable {i : Invocation} {v : List Address} {arm : Option DebitArm} {m : Address} {B B' : Book}

/-- **A transfer of a non-transferable mint is one of nothing.** -/
theorem transfer_nothing (b : Bound m B) {a : Address} {h : Holding} {n : ℕ}
    (held : B.slot a = .holding h) (mint : h.base.mint = m) (transferable : h.nonTransferable = false)
    (enough : n ≤ h.base.amount) : n = 0 :=
  Nat.le_zero.mp (b.empty_of_transferable held mint transferable ▸ enough.trans h.amount_le_value)

/-- What a transfer without tokens leaves at its source. -/
theorem tokens_debit {h : Holding} {base : PodAccount} {n : ℕ} (none : n = 0) :
    (h.withBase { base with amount := h.base.amount - n }).tokens = h.tokens := by
  subst none
  rfl

/-- What a transfer without tokens leaves at its destination. -/
theorem tokens_credit {hd hd' : Holding} {n fee : ℕ} (none : n = 0) (fee_le : fee ≤ n)
    (credited : if 0 < fee then
        ∃ w, hd.withheld = some w ∧ w + fee < 2 ^ 64 ∧
          hd' = { hd.withAmount (hd.base.amount + (n - fee)) with withheld := some (w + fee) }
      else hd' = hd.withAmount (hd.base.amount + (n - fee))) : hd'.tokens = hd.tokens := by
  subst none
  obtain rfl := Nat.le_zero.mp fee_le
  rw [if_neg (lt_irrefl 0)] at credited
  subst credited
  rfl

/-- A destination of a transfer keeps its marks. -/
theorem marks_credit {hd hd' : Holding} {n fee : ℕ}
    (credited : if 0 < fee then
        ∃ w, hd.withheld = some w ∧ w + fee < 2 ^ 64 ∧
          hd' = { hd.withAmount (hd.base.amount + (n - fee)) with withheld := some (w + fee) }
      else hd' = hd.withAmount (hd.base.amount + (n - fee))) : SameMarks hd hd' := by
  split at credited
  · obtain ⟨w, withheld, -, rfl⟩ := credited
    exact { SameMarks.refl hd with mint := rfl, native := rfl, withheld := by rw [withheld]; rfl }
  · subst credited
    exact .of_base rfl rfl

/-- The source of a confidential movement of nothing. -/
theorem tokens_spent {h h' : Holding} {x : Address} {lo hi : Scalar}
    (spends : SpendsEncrypted i h h' x lo hi) (zero : pendingTotal lo hi = 0) :
    h'.tokens = h.tokens := by
  obtain ⟨e, remaining, encrypted, moved, -, rfl⟩ := spends.moved
  rw [zero, add_zero] at moved
  simp only [Holding.tokens, Holding.balance, encrypted, Option.getD_some, moved,
    EncryptedBalance.value, EncryptedBalance.pending]

/-- The destination of a confidential movement of nothing. -/
theorem tokens_received {h h' : Holding} {x : Address} {lo hi : Scalar}
    (receives : ReceivesEncrypted h h' x lo hi) (zero : pendingTotal lo hi = 0) :
    h'.tokens = h.tokens := by
  obtain ⟨e, encrypted, rfl⟩ := receives.moved
  simp only [Holding.tokens, Holding.balance, encrypted, Option.getD_some, EncryptedBalance.value,
    EncryptedBalance.pending, pendingTotal_add, zero, add_zero]

/-- The same with a fee, of nothing. -/
theorem tokens_receivedWithFee {h h' : Holding} {x : Address} {lo hi feeLo feeHi : Scalar}
    (receives : ReceivesEncryptedWithFee h h' x lo hi feeLo feeHi) (zero : pendingTotal lo hi = 0) :
    h'.tokens = h.tokens := by
  obtain ⟨e, w, encrypted, withheld, rfl⟩ := receives.moved
  have fee : pendingTotal feeLo feeHi = 0 := by
    have le := receives.fee_le
    rw [zero, ZMod.val_zero] at le
    exact (ZMod.val_eq_zero _).mp (Nat.le_zero.mp le)
  simp only [Holding.tokens, Holding.balance, encrypted, withheld, Option.getD_some,
    EncryptedBalance.value, EncryptedBalance.pending, pendingTotal_add, pendingTotal_sub, zero, fee,
    add_zero, sub_zero]

/-- **A confidential transfer of a non-transferable mint is one of nothing.** -/
theorem confidential_nothing (b : Bound m B) {a x : Address} {h h' : Holding} {lo hi : Scalar}
    (held : B.slot a = .holding h) (mint : h.base.mint = m) (transferable : h.nonTransferable = false)
    (spends : SpendsEncrypted i h h' x lo hi) : pendingTotal lo hi = 0 := by
  have value := spends.value
  rw [b.empty_of_transferable held mint transferable] at value
  exact (ZMod.val_eq_zero _).mp (by omega)

/-- **Every effect on a non-transferable mint keeps its tokens bound.** -/
theorem effect {iss : Issuance} (wf : B.WellFormed) (b : Bound m B) (issued : B.slot m = .issue iss)
    (nonTransferable : iss.nonTransferable = true) (effect : Effect i v arm B B') : Bound m B' := by
  have ne : m ≠ nativeMintId := fun native => by
    subst native
    have terms := wf.nativeTerms issued
    simp [terms.nonTransferable] at nonTransferable
  -- What is written at the address of another mint does not matter.
  have elsewhere : ∀ {x : Address} {s : Slot}, x ≠ m → (∀ h, s ≠ .holding h) → Bound m (B.write x s) :=
    fun apart bare => b.write (fun _ here => absurd here apart) fun h same => absurd same (bare h)
  cases effect with
  | idle => exact b
  | stage held => exact b.writeBare trivial
  | @openMint _ x _ _ _ held =>
    exact elsewhere (fun same => by simp [same, issued] at held) fun h => by simp
  | createNativeMint _ held =>
    exact elsewhere (fun same => by simp [same, issued] at held) fun h => by simp
  | @openHolding _ a m' buffer iss' base held issued' opens =>
    refine b.write (fun _ _ same => by cases same) fun h same mint => ?_
    obtain rfl := Slot.holding.inj same
    rw [(wf.fresh a buffer held).openHolding] at mint ⊢
    have amount : base.amount = 0 := (opens.plain (opens.mint.symm.trans mint ▸ ne)).2
    refine ⟨?_, .inl ?_⟩
    · cases fees : iss'.fees.isSome <;> simp [Holding.fees]
    · cases fees : iss'.fees.isSome <;>
        simp [Holding.value, Holding.funds, Holding.fees, Holding.balance, amount]
  | openMultisig held => exact b.writeBare trivial
  | configureMint issued' same =>
    refine b.writeIssue issued' fun zero => ?_
    rw [Issuance.retained, same.withheld, same.encryptedWithheld]
    exact zero
  | togglePause issued' => exact b.writeIssue issued' id
  | @adjust _ a h h' validated held adjustment =>
    refine b.writeFunds held adjustment.marks adjustment.fees fun _ zero => .inl ?_
    rw [adjustment.value (zero ▸ Nat.two_pow_pos 64), zero]
  | toggleFreeze _ held => exact b.writeSame held (.of_base rfl rfl) fun _ => rfl
  | reserve held native => exact b.writeSame held (.of_base rfl native.symm) fun _ => rfl
  | syncNative _ held native =>
    refine b.writeHolding held (.of_base rfl native.symm) fun mint => ?_
    exact absurd (mint.symm.trans ((wf.native _ _ held).mp native)) ne
  | withdrawExcess => exact b.of_slot (Book.slot_pay ..)
  | @transfer _ C a d h hd base key arm n fee hd' held destination distinct mint thawed thawed'
      enough transferable debit unguarded terms fee_le small credited lamports =>
    have slots := Book.slot_paid lamports
    have first := (b.of_slot slots).writeSame (slots ▸ held) (debit.marks (h.base.amount - n))
      fun here => tokens_debit (b.transfer_nothing held here transferable enough)
    refine first.writeSame (h := hd) ?_ (marks_credit credited) fun here => ?_
    · rw [Book.slot_write_of_ne _ distinct.symm, slots, destination]
    · exact tokens_credit (b.transfer_nothing held (mint.symm.trans here) transferable enough)
        fee_le credited
  | @unwrap _ C a d h base key arm n held native enough debit limited unguarded lamports =>
    have slots := Book.slot_paid lamports
    refine (b.of_slot slots).writeHolding (slots ▸ held) (debit.marks (h.base.amount - n))
      fun mint => ?_
    exact absurd (mint.symm.trans ((wf.native _ _ held).mp native)) ne
  | @mintTo _ x a iss' h key n issued' held mint thawed plain marked =>
    refine b.writePair held issued' (.of_base rfl rfl) rfl (fun here _ => ?_) id
    obtain rfl : x = m := mint.symm.trans here
    obtain rfl := Slot.issue.inj (issued.symm.trans issued')
    exact .inr (marked nonTransferable).symm
  | @burn _ x a iss' h base n _ _ named issued' held mint thawed plain enough enough' running
      noMintBurn debit =>
    have marks : SameMarks h (h.withBase { base with amount := h.base.amount - n }) := by
      split at debit
      · rw [debit.1]
        exact .of_base rfl rfl
      · obtain ⟨key, arm', debit, -⟩ := debit
        exact debit.marks _
    refine b.writePair held issued' marks rfl (fun _ zero => .inl ?_) id
    have value := @Holding.value_debit h n base enough
    omega
  | @closeHolding _ a d h =>
    exact (b.of_slot (Book.slot_pay ..)).writeBare trivial
  | closeMint => exact (b.of_slot (Book.slot_pay ..)).writeBare trivial
  | collect _ chain => exact (Collect.chain_bound b chain).1
  | @withdrawWithheld _ x d iss' config h key named issued' fees held mint thawed small =>
    have apart : x ≠ d := fun same => by simp [same, held] at issued'
    rw [Book.write_comm B apart]
    refine b.writePair held issued' (.of_base rfl rfl) rfl (fun here zero => .inl ?_) fun zero => ?_
    · obtain rfl : x = m := mint.symm.trans here
      have retained := b.retained iss' issued'
      simp only [Issuance.retained, fees, Option.map_some, Option.getD_some] at retained
      simp only [Holding.value, Holding.funds, Holding.fees, Holding.balance,
        Holding.withAmount] at zero ⊢
      omega
    · simp only [Issuance.retained, fees, Option.map_some, Option.getD_some] at zero ⊢
      omega
  | @deposit _ a h iss' e n held issued' running base transferable thawed plain enough small
      encrypted =>
    refine b.writeFunds held { SameMarks.refl h with mint := rfl, native := rfl } rfl
      fun _ zero => .inl ?_
    rw [value_deposit encrypted enough small (zero ▸ Nat.two_pow_pos 64), zero]
  | @withdraw _ a h iss' e n remaining held issued' running base transferable thawed plain small
      encrypted moved bounded =>
    refine b.writeFunds held { SameMarks.refl h with mint := rfl, native := rfl } rfl
      fun _ zero => .inl ?_
    rw [value_withdraw encrypted moved bounded (lt_of_le_of_lt (Nat.le_add_left _ _) small), zero]
  | @confidentialTransfer _ a d x iss' h h' hd hd' lo hi issued' running held transferable spends
      destination receives =>
    have nothing : x = m → pendingTotal lo hi = 0 := fun here =>
      b.confidential_nothing held (spends.mint.trans here) transferable spends
    have first := b.writeSame held spends.marks fun here =>
      tokens_spent spends (nothing (spends.mint.symm.trans here))
    rcases receives with receives | ⟨-, feeLo, feeHi, receives⟩
    · exact first.writeSame destination receives.marks fun here =>
        tokens_received receives (nothing (receives.mint.symm.trans here))
    · exact first.writeSame destination receives.marks fun here =>
        tokens_receivedWithFee receives (nothing (receives.mint.symm.trans here))
  | @confidentialMint _ a x iss' e h h' lo hi key issued' running held marked receives supply
      bounded =>
    have fees : h'.fees = h.fees := by
      obtain ⟨e', -, rfl⟩ := receives.moved
      rfl
    refine b.writePair held issued' receives.marks fees (fun here _ => .inr ?_) id
    obtain rfl : x = m := receives.mint.symm.trans here
    obtain rfl := Slot.issue.inj (issued.symm.trans issued')
    exact (marked nonTransferable).symm
  | @confidentialBurn _ a x iss' e h h' lo hi issued' running held spends supply =>
    have fees : h'.fees = h.fees := by
      obtain ⟨e', remaining, -, -, -, rfl⟩ := spends.moved
      rfl
    refine b.writePair held issued' spends.marks fees (fun _ zero => .inl ?_) id
    have value := spends.value
    omega
  | applyPendingBurn issued' => exact b.writeIssue issued' id
  | @withdrawEncryptedWithheld _ x d iss' r h e key named issued' fees held mint thawed encrypted =>
    refine b.writePair held issued' { SameMarks.refl h with } rfl (fun here zero => .inl ?_)
      fun zero => ?_
    · obtain rfl : x = m := mint.symm.trans here
      have retained := b.retained iss' issued'
      simp only [Issuance.retained, fees, Option.getD_some, Nat.add_eq_zero_iff,
        ZMod.val_eq_zero] at retained
      rw [Holding.value_eq rfl]
      rw [Holding.value_eq encrypted] at zero
      rw [retained.2, add_zero]
      exact zero
    · simp only [Issuance.retained, fees, Option.getD_some, ZMod.val_zero, add_zero] at zero ⊢
      omega

/-- The tokens of the mint at `m` change at one address at most. -/
def OneChanges (m : Address) (B B' : Book) : Prop :=
  ∃ x, ∀ a, a ≠ x → (B'.slot a).tokensOf m = (B.slot a).tokensOf m

theorem OneChanges.of_unmoved (unmoved : Unmoved m B B') : OneChanges m B B' :=
  ⟨m, fun a _ => unmoved a⟩

theorem OneChanges.of_write {C : Book} {x : Address} {s : Slot} (same : C.slot = B.slot) :
    OneChanges m B (C.write x s) :=
  ⟨x, fun a apart => by rw [Book.slot_write_of_ne _ apart, same]⟩

theorem OneChanges.of_pair {x x' : Address} {h h' : Holding} {iss iss' : Issuance}
    (held : B.slot x = .holding h) (issued : B.slot x' = .issue iss) :
    OneChanges m B ((B.write x (.holding h')).write x' (.issue iss')) := by
  have apart : x' ≠ x := fun same => by simp [same, held] at issued
  have issued' : (B.write x (.holding h')).slot x' = .issue iss := by
    rw [Book.slot_write_of_ne _ apart, issued]
  exact ⟨x, fun a ne => (Unmoved.writeIssue issued' a).trans
    (by rw [Book.slot_write_of_ne _ ne])⟩

/-- **An effect changes the tokens of one account at most**, where they are bound. -/
theorem oneChanges (b : Bound m B) (effect : Effect i v arm B B') : OneChanges m B B' := by
  cases effect with
  | idle => exact .of_unmoved fun _ => rfl
  | withdrawExcess => exact .of_unmoved (.of_slot (Book.slot_pay ..))
  | @transfer _ C a d h hd base key arm n fee hd' held destination distinct mint thawed thawed'
      enough transferable debit unguarded terms fee_le small credited lamports =>
    have slots := Book.slot_paid lamports
    have first : Unmoved m B
        (C.write a (.holding (h.withBase { base with amount := h.base.amount - n }))) :=
      (Unmoved.of_slot slots).trans (.writeHolding _ (slots ▸ held) debit.kept.1 fun here =>
        tokens_debit (b.transfer_nothing held here transferable enough))
    refine .of_unmoved (first.trans (.writeHolding hd' ?_ (marks_credit credited).mint
      fun here => ?_))
    · rw [Book.slot_write_of_ne _ distinct.symm, slots, destination]
    · exact tokens_credit (b.transfer_nothing held (mint.symm.trans here) transferable enough)
        fee_le credited
  | @unwrap _ C a d h base key arm n held native enough debit limited unguarded lamports =>
    exact .of_write (Book.slot_paid lamports)
  | mintTo issued held => exact .of_pair held issued
  | burn _ issued held => exact .of_pair held issued
  | closeHolding => exact .of_write (Book.slot_pay ..)
  | closeMint => exact .of_write (Book.slot_pay ..)
  | collect _ chain => exact .of_unmoved (Collect.chain_bound b chain).2
  | @withdrawWithheld _ x d iss' config h key named issued fees held mint thawed small =>
    have apart : x ≠ d := fun same => by simp [same, held] at issued
    rw [Book.write_comm B apart]
    exact .of_pair held issued
  | @confidentialTransfer _ a d x iss' h h' hd hd' lo hi issued running held transferable spends
      destination receives =>
    have nothing : x = m → pendingTotal lo hi = 0 := fun here =>
      b.confidential_nothing held (spends.mint.trans here) transferable spends
    have first : Unmoved m B (B.write a (.holding h')) :=
      .writeHolding h' held spends.marks.mint fun here =>
        tokens_spent spends (nothing (spends.mint.symm.trans here))
    rcases receives with receives | ⟨-, feeLo, feeHi, receives⟩
    · exact .of_unmoved (first.trans (.writeHolding hd' destination receives.marks.mint fun here =>
        tokens_received receives (nothing (receives.mint.symm.trans here))))
    · exact .of_unmoved (first.trans (.writeHolding hd' destination receives.marks.mint fun here =>
        tokens_receivedWithFee receives (nothing (receives.mint.symm.trans here))))
  | confidentialMint issued _ held => exact .of_pair held issued
  | confidentialBurn issued _ held => exact .of_pair held issued
  | withdrawEncryptedWithheld _ issued _ held => exact .of_pair held issued
  | _ => exact .of_write rfl

end Bound

/-! ### Every run -/

/-- Where the mint at `m` is non-transferable, its tokens are bound. -/
def Book.Binding (m : Address) (B : Book) : Prop :=
  ∀ iss, B.slot m = .issue iss → iss.nonTransferable = true → Bound m B

/-- The rest of the world does not touch what is bound. -/
theorem Bound.external {m : Address} {B B' : Book} (b : Bound m B) (ext : Book.External B B') :
    Bound m B' where
  retained iss issued := b.retained iss (ext.issue_back issued)
  fees a h held := b.fees a h (ext.holding_back held)
  bound a h held := b.bound a h (ext.holding_back held)

/-- **A mint binds its tokens from its initialization on**: until then, there are none. -/
theorem Book.Binding.effect {i : Invocation} {v : List Address} {arm : Option DebitArm}
    {m : Address} {B B' : Book} (wf : B.WellFormed) (c' : Conserved m B') (binding : B.Binding m)
    (effect : Effect i v arm B B') : B'.Binding m := by
  intro iss' issued' nonTransferable
  have step := effect.slotStep m
  rw [issued'] at step
  rcases step.issue_origin with ⟨iss, issued⟩ | ⟨-, ⟨b, base, vacant, -, empty, rfl⟩ | ⟨-, -, rfl⟩⟩
  · rw [issued] at step
    have same := step.demands.nonTransferable
    exact (binding iss issued (same ▸ nonTransferable)).effect wf issued (same ▸ nonTransferable)
      effect
  · obtain ⟨-, issued, -⟩ := (wf.fresh m b vacant).nothing empty
    exact .of_nothing c' (by rw [issued']; exact issued)
  · simp [NativeTerms.of_nativeIssuance.nonTransferable] at nonTransferable

theorem Book.Binding.kept {m : Address} (ne : m ≠ nativeMintId) :
    Kept (fun _ _ => True) fun B => (B.WellFormed ∧ Conserved m B) ∧ B.Binding m where
  external holds ext := ⟨(Conserved.kept ne).external holds.1 ext, fun iss issued marked =>
    (holds.2 iss (ext.issue_back issued) marked).external ext⟩
  guard := fun _ _ => trivial
  effect _ holds effect := by
    have after := (Conserved.kept ne).effect trivial holds.1 effect
    exact ⟨after, .effect holds.1.1 after.2 holds.2 effect⟩

/-- **In every reachable state, a non-transferable mint binds its tokens.** -/
theorem bound_reachable {L : Ledger} {m : Address} {iss : Issuance} (reachable : Reachable L)
    (issued : L.book.slot m = .issue iss) (nonTransferable : iss.nonTransferable = true) :
    Bound m L.book := by
  have ne : m ≠ nativeMintId := fun native => by
    subst native
    have terms := (wellFormed_reachable reachable).nativeTerms issued
    simp [terms.nonTransferable] at nonTransferable
  refine ((Book.Binding.kept ne).reachable (fun B blank => ?_) reachable).2 iss issued
    nonTransferable
  exact ⟨⟨.of_blank blank, .of_blank blank⟩, fun iss issued => by simp [blank.slot] at issued⟩

/-- **An account that is not empty keeps its owner**, where its mint is non-transferable. -/
theorem Bound.owner_kept {m : Address} {B : Book} (b : Bound m B) {i : Invocation} {a : Address}
    {v : List Address} {arm : Option DebitArm} {h h' : Holding} {l : ℕ}
    (held : B.slot a = .holding h) (mint : h.base.mint = m) (positive : h.value ≠ 0)
    (step : SlotStep i B a v arm (.holding h) (.holding h') l) :
    h'.base.owner = h.base.owner := by
  obtain ⟨-, immutable⟩ := (b.bound a h held mint).resolve_left positive
  by_contra changed
  exact absurd (step.owner_changed changed).2 (by simp [immutable])

/-- **Non-transferability.** As long as the mint at `m` is non-transferable, whatever lived at its
address before: an instruction changes the tokens of one account of it at most, and no account with
an amount or a confidential balance is closed, or gets another owner. -/
theorem nonTransferable_stays {i : Invocation} {L : Ledger} {outcome : Outcome} {m : Address}
    {mint : MintState} (reachable : Reachable L) (ok : i.run L = .ok outcome)
    (issued : L.mint? m = some mint) (nonTransferable : (mint.get .nonTransferable).isSome) :
    (∀ a b, a ≠ b → outcome.ledger.tokensOf m a = L.tokensOf m a ∨
      outcome.ledger.tokensOf m b = L.tokensOf m b) ∧
    ∀ a st, L.account? a = some st → st.base.mint = m →
      (0 < st.base.amount ∨ 0 < st.confidentialBalance) →
      ∃ st', outcome.ledger.account? a = some st' ∧ st'.base.mint = m ∧
        st'.base.owner = st.base.owner := by
  have slot := Ledger.slot_of_mint? issued
  have bound := bound_reachable reachable slot nonTransferable
  have wf := wellFormed_reachable reachable
  constructor
  · intro a b apart
    obtain ⟨B, B', before, effect, after⟩ := run_refines ok
    obtain ⟨x, others⟩ := (bound.external before).oneChanges effect
    -- The rest of the world leaves all tokens where they are.
    have outside : ∀ {C C' : Book}, Book.External C C' → Unmoved m C C' := by
      intro C C' ext c
      by_cases foreign : C.slot c = .foreign
      · rcases ext.handed c foreign with same | ⟨len, same⟩
        · rw [same, foreign]
        · rw [same, foreign]
          rfl
      · rw [(ext.kept c foreign).1]
    have kept : ∀ c, c ≠ x → outcome.ledger.tokensOf m c = L.tokensOf m c := by
      intro c ne
      rw [← Ledger.tokensOf_book, ← Ledger.tokensOf_book, outside after, others c ne,
        outside before]
    by_cases here : a = x
    · exact .inr (kept b (here ▸ apart.symm))
    · exact .inl (kept a here)
  · intro a st held mint positive
    obtain ⟨B, ext, there, account⟩ := run_account ok held
    have value : st.holding.value ≠ 0 := by
      rw [StateWithExtensions.value_holding]
      omega
    cases account with
    | stays held' step =>
      exact ⟨_, held', step.marks.mint.trans mint,
        (bound.external ext).owner_kept there mint value step⟩
    | closes gone step =>
      obtain ⟨-, d, closes⟩ := step.closed
      refine absurd (closes.value ?_) value
      refine (wf.external ext).plainAccount there fun native => ?_
      subst mint
      have terms := wf.nativeTerms (native ▸ slot)
      have marked : mint.issuance.nonTransferable = true := nonTransferable
      simp [terms.nonTransferable] at marked

section Examples

open Basic AccountMeta

/-- A non-transferable mint, with tokens in an account of it. -/
def boundTurns : List Turn := [
  .allocate mint 170, .allocate source 174,
  .basic .initializeNonTransferableMint [plain mint],
  .basic (.initializeMint2 0 owner none) [plain mint],
  .basic (.initializeAccount3 owner) [plain source, plain mint],
  .basic (.mintTo 1000) [plain mint, plain source, signer owner]]

/-- Some of them are burned. -/
def boundBurn : Invocation := .basic (.burn 300) [plain source, plain mint, signer owner]

theorem nonTransferable_stays_burn : ∃ L outcome, Reachable L ∧ boundBurn.run L = .ok outcome ∧
    outcome.ledger.tokensOf mint source = (700, 0, 0, 0) ∧
    outcome.ledger.tokensOf mint destination = L.tokensOf mint destination ∧
    ∃ st', outcome.ledger.account? source = some st' ∧ st'.base.mint = mint ∧
      st'.base.owner = owner := by
  have leads : LeadsTo (runAll .fresh boundTurns) fun L => LeadsTo (boundBurn.run L) fun outcome =>
      (L.mint? mint).map (fun st => (st.get .nonTransferable).isSome) = some true ∧
      (L.account? source).map (fun st => (st.base.mint, st.base.owner, st.base.amount)) =
        some (mint, owner, 1000) ∧
      L.tokensOf mint source = (1000, 0, 0, 0) ∧
      outcome.ledger.tokensOf mint source = (700, 0, 0, 0) := by decide +kernel
  obtain ⟨L, ran, leads⟩ := leads.exists
  obtain ⟨outcome, ok, marked, account, before, after⟩ := leads.exists
  obtain ⟨st, issued, marked⟩ := Option.map_eq_some_iff.mp marked
  obtain ⟨acc, held, fields⟩ := Option.map_eq_some_iff.mp account
  simp only [Prod.mk.injEq] at fields
  obtain ⟨mint', owned, amount⟩ := fields
  have reachable := Reachable.of_runAll .fresh ran
  obtain ⟨one, kept⟩ := nonTransferable_stays reachable ok issued marked
  refine ⟨L, outcome, reachable, ok, after, ?_, ?_⟩
  · refine (one source destination (by decide)).resolve_left fun same => ?_
    rw [before, after] at same
    exact absurd same (by decide)
  · obtain ⟨st', held', mint'', owner'⟩ := kept source acc held mint' (.inl (by omega))
    exact ⟨st', held', mint'', owner'.trans owned⟩

end Examples

end Token2022
