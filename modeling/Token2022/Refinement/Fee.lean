/-
**The effects of withheld fees on their way.**

A withdrawal from accounts and a harvest go through a list of accounts. They keep the destination,
or the withheld total of the mint, in memory until they are through: the book in which it is written
at every step moves by one `Collect` for each account that has a fee withheld.

* `harvestFromAccount_spec`, `harvestFromAccountConfidential_spec` — one account.
* **`processHarvestWithheldTokensToMint_refines`**,
  **`processWithdrawWithheldTokensFromAccounts_refines`** and their confidential forms.
* `processWithdrawWithheldTokensFromMint_refines` and its confidential form.
-/

import Token2022.Refinement.Settings

namespace Token2022

open Fallible

variable {i : Invocation} {env : Env} {L : Ledger} {accounts : List AccountMeta} {outcome : Outcome}

/-! ### One account -/

/-- **What is taken from one account.** -/
theorem harvestFromAccount_spec {L' : Ledger} {m a : Address} {n : ℕ}
    (ok : harvestFromAccount L m a = .ok (n, L')) :
    ∃ h, L.book.slot a = .holding h ∧ h.base.mint = m ∧ h.withheld = some n ∧
      L'.book = L.book.write a (.holding { h with withheld := some 0 }) ∧
      ∀ b, (L' b).owner = (L b).owner := by
  simp only [harvestFromAccount, bind_eq_ok_iff, unpackAccount_eq_ok_iff, require_eq_ok_iff,
    checkProgramAccount_eq_ok_iff, exists_const, Except.ok.injEq, Prod.mk.injEq] at ok
  obtain ⟨account, data, mint, owned, w, held, ledger, stored, rfl, rfl⟩ := ok
  refine ⟨account.holding, Ledger.slot_of_unpackAccount owned data, mint, ?_, ?_,
    Ledger.owner_writeData stored⟩
  · rw [StateWithExtensions.withheld_holding, StateWithExtensions.getExtension_eq_ok_iff.mp held]
    rfl
  · rw [Ledger.book_writeData owned stored]
    simp only [AccountData.slot]
    rw [StateWithExtensions.holding_set_transferFeeAmount]

theorem harvestFromAccountConfidential_spec {L' : Ledger} {m a : Address} {w : Scalar}
    (ok : harvestFromAccountConfidential L m a = .ok (w, L')) :
    ∃ h, L.book.slot a = .holding h ∧ h.base.mint = m ∧ h.encryptedWithheld = some w ∧
      L'.book = L.book.write a (.holding { h with encryptedWithheld := some 0 }) ∧
      ∀ b, (L' b).owner = (L b).owner := by
  simp only [harvestFromAccountConfidential, bind_eq_ok_iff, unpackAccount_eq_ok_iff,
    require_eq_ok_iff, checkProgramAccount_eq_ok_iff, exists_const, Except.ok.injEq,
    Prod.mk.injEq] at ok
  obtain ⟨account, data, mint, owned, w, held, ledger, stored, rfl, rfl⟩ := ok
  refine ⟨account.holding, Ledger.slot_of_unpackAccount owned data, mint, ?_, ?_,
    Ledger.owner_writeData stored⟩
  · rw [StateWithExtensions.encryptedWithheld_holding,
      StateWithExtensions.getExtension_eq_ok_iff.mp held]
    rfl
  · rw [Ledger.book_writeData owned stored]
    simp only [AccountData.slot]
    rw [StateWithExtensions.holding_set_confidentialTransferFeeAmount]

/-! ### Harvests -/

/-- **A loop of harvests.** Its invariant is about the book with the total so far in the mint. -/
theorem harvestToMint_chain {m : Address} {iss : Issuance} {config : TransferFeeConfig}
    {items : List AccountMeta} {L' : Ledger} {n : ℕ} (owned : (L m).owner = programId)
    (issued : L.book.slot m = .issue iss) (fees : iss.fees = some config)
    (ok : items.foldlM (harvestToMintStep m) (L, config.withheldAmount) = .ok (L', n)) :
    (L' m).owner = programId ∧ Relation.ReflTransGen (Collect m false) L.book (L'.book.write m
      (.issue { iss with fees := some { config with withheldAmount := n } })) := by
  refine foldlM_invariant (P := fun state : Ledger × ℕ => (state.1 m).owner = programId ∧
    Relation.ReflTransGen (Collect m false) L.book (state.1.book.write m
      (.issue { iss with fees := some { config with withheldAmount := state.2 } }))) ?_ ?_ ok
  · rintro info - ⟨M, total⟩ ⟨M', total'⟩ ⟨owned, chain⟩ step
    simp only [harvestToMintStep, bind_eq_ok_iff, require_eq_ok_iff, exists_const] at step
    obtain ⟨ne, step⟩ := step
    split at step
    · rename_i w ledger harvested
      simp only [bind_eq_ok_iff, okOr_eq_ok_iff, checkedAdd_eq_some_iff, Except.ok.injEq,
        Prod.mk.injEq] at step
      obtain ⟨_, ⟨small, rfl⟩, rfl, rfl⟩ := step
      obtain ⟨h, held, mint, withheld, book, owners⟩ := harvestFromAccount_spec harvested
      refine ⟨(owners m).trans owned, chain.tail ?_⟩
      have collect := Collect.toMint (B := M.book.write m (.issue
          { iss with fees := some { config with withheldAmount := total } }))
        ((Book.slot_write_of_ne _ ne _).trans held) mint withheld (Book.slot_write_self _ _ _) rfl
        small
      rw [Book.write_write_write _ ne, ← book] at collect
      exact collect
    · obtain ⟨rfl, rfl⟩ := Prod.mk.inj (Except.ok.inj step)
      exact ⟨owned, chain⟩
  · refine ⟨owned, ?_⟩
    have same : { iss with fees := some { config with withheldAmount := config.withheldAmount } } =
        iss := by rw [← fees]
    rw [same, Book.write_same issued]

/-- **The effect of a harvest.** -/
theorem processHarvestWithheldTokensToMint_refines
    (ok : processHarvestWithheldTokensToMint L accounts = .ok outcome) : Refines i L outcome := by
  simp only [processHarvestWithheldTokensToMint, bind_eq_ok_iff, Prod.exists,
    nextAccountInfo_eq_ok_iff, checkProgramAccount_eq_ok_iff, unpackMint_eq_ok_iff,
    exists_const] at ok
  obtain ⟨info, rest, -, owned, mint, data, config, held, M, n, loop, last, stored, same⟩ := ok
  obtain rfl := Except.ok.inj same
  have fees : mint.issuance.fees = some config := by
    rw [StateWithExtensions.fees_issuance]
    exact StateWithExtensions.getExtension_eq_ok_iff.mp held
  obtain ⟨owned', chain⟩ :=
    harvestToMint_chain owned (Ledger.slot_of_unpackMint owned data) fees loop
  apply Refines.of_effect
  show Effect i [] none L.book last.book
  rw [Ledger.book_writeData owned' stored]
  simp only [AccountData.slot]
  rw [StateWithExtensions.issuance_set_transferFeeConfig]
  exact Effect.collect (by simp) chain

theorem harvestToMintConfidential_chain {m : Address} {iss : Issuance} {r : Scalar}
    {items : List AccountMeta} {L' : Ledger} {n : Scalar} (owned : (L m).owner = programId)
    (issued : L.book.slot m = .issue iss) (fees : iss.encryptedWithheld = some r)
    (ok : items.foldlM (harvestToMintConfidentialStep m) (L, r) = .ok (L', n)) :
    (L' m).owner = programId ∧ Relation.ReflTransGen (Collect m false) L.book
      (L'.book.write m (.issue { iss with encryptedWithheld := some n })) := by
  refine foldlM_invariant (P := fun state : Ledger × Scalar => (state.1 m).owner = programId ∧
    Relation.ReflTransGen (Collect m false) L.book
      (state.1.book.write m (.issue { iss with encryptedWithheld := some state.2 }))) ?_ ?_ ok
  · rintro info - ⟨M, total⟩ ⟨M', total'⟩ ⟨owned, chain⟩ step
    simp only [harvestToMintConfidentialStep, bind_eq_ok_iff, require_eq_ok_iff,
      exists_const] at step
    obtain ⟨ne, step⟩ := step
    split at step
    · rename_i w ledger harvested
      simp only [bind_eq_ok_iff, okOr_eq_ok_iff, CiphertextArithmetic.add, Option.some.injEq,
        Except.ok.injEq, Prod.mk.injEq] at step
      obtain ⟨_, rfl, rfl, rfl⟩ := step
      obtain ⟨h, held, mint, withheld, book, owners⟩ := harvestFromAccountConfidential_spec harvested
      refine ⟨(owners m).trans owned, chain.tail ?_⟩
      have collect := Collect.encryptedToMint (B := M.book.write m (.issue
          { iss with encryptedWithheld := some total }))
        ((Book.slot_write_of_ne _ ne _).trans held) mint withheld (Book.slot_write_self _ _ _) rfl
      rw [Book.write_write_write _ ne, ← book] at collect
      exact collect
    · obtain ⟨rfl, rfl⟩ := Prod.mk.inj (Except.ok.inj step)
      exact ⟨owned, chain⟩
  · refine ⟨owned, ?_⟩
    rw [← fees, Book.write_same issued]

/-- **The effect of a confidential harvest.** -/
theorem processHarvestWithheldTokensToMintConfidential_refines
    (ok : processHarvestWithheldTokensToMintConfidential L accounts = .ok outcome) :
    Refines i L outcome := by
  simp only [processHarvestWithheldTokensToMintConfidential, bind_eq_ok_iff, Prod.exists,
    nextAccountInfo_eq_ok_iff, checkProgramAccount_eq_ok_iff, unpackMint_eq_ok_iff,
    require_eq_ok_iff, exists_const] at ok
  obtain ⟨info, rest, -, owned, mint, data, _, -, config, held, -, M, n, loop, last, stored,
    same⟩ := ok
  obtain rfl := Except.ok.inj same
  have fees : mint.issuance.encryptedWithheld = some config.withheldAmount := by
    rw [StateWithExtensions.encryptedWithheld_issuance,
      StateWithExtensions.getExtension_eq_ok_iff.mp held]
    rfl
  obtain ⟨owned', chain⟩ :=
    harvestToMintConfidential_chain owned (Ledger.slot_of_unpackMint owned data) fees loop
  apply Refines.of_effect
  show Effect i [] none L.book last.book
  rw [Ledger.book_writeData owned' stored]
  simp only [AccountData.slot]
  rw [StateWithExtensions.issuance_set_confidentialTransferFeeConfig]
  exact Effect.collect (by simp) chain

/-! ### Withdrawals from accounts -/

/-- **A loop of withdrawals.** Its invariant is about the book with the destination in memory
written. -/
theorem withdrawFromAccounts_chain {m d : Address} {destination destination' : TokenAccountState}
    {items : List AccountMeta} {L' : Ledger} (owned : (L d).owner = programId)
    (held : L.book.slot d = .holding destination.holding) (mint : destination.base.mint = m)
    (thawed : destination.base.isFrozen = false)
    (ok : items.foldlM (withdrawFromAccountStep m d) (L, destination) = .ok (L', destination')) :
    (L' d).owner = programId ∧ Relation.ReflTransGen (Collect m true) L.book
      (L'.book.write d (.holding destination'.holding)) := by
  have all := foldlM_invariant (P := fun state : Ledger × TokenAccountState =>
    (state.1 d).owner = programId ∧ state.2.base.mint = m ∧ state.2.base.isFrozen = false ∧
      Relation.ReflTransGen (Collect m true) L.book
        (state.1.book.write d (.holding state.2.holding))) ?_
    ⟨owned, mint, thawed, by rw [Book.write_same held]⟩ ok
  · exact ⟨all.1, all.2.2.2⟩
  · rintro info - ⟨M, st⟩ ⟨M', st'⟩ ⟨owned, mint, thawed, chain⟩ step
    simp only [withdrawFromAccountStep, bind_eq_ok_iff, require_eq_ok_iff, exists_const] at step
    obtain ⟨-, step⟩ := step
    split at step
    · rename_i here
      simp only [bind_eq_ok_iff, okOr_eq_ok_iff, checkedAdd_eq_some_iff, Except.ok.injEq,
        Prod.mk.injEq] at step
      obtain ⟨w, withheld, _, ⟨small, rfl⟩, rfl, rfl⟩ := step
      refine ⟨owned, mint, thawed, chain.tail ?_⟩
      have collect := Collect.toAccount (B := M.book.write d (.holding st.holding)) (d := d)
        (w := w.withheldAmount) (Book.slot_write_self _ _ _) mint
        (by rw [StateWithExtensions.withheld_holding, withheld]; rfl) (Book.slot_write_self _ _ _)
        mint thawed small
      rw [Book.write_self, Book.write_self] at collect
      rw [StateWithExtensions.holding_withBase, StateWithExtensions.holding_set_transferFeeAmount]
      exact collect
    · rename_i ne
      split at step
      · rename_i w ledger harvested
        simp only [bind_eq_ok_iff, okOr_eq_ok_iff, checkedAdd_eq_some_iff, Except.ok.injEq,
          Prod.mk.injEq] at step
        obtain ⟨_, ⟨small, rfl⟩, rfl, rfl⟩ := step
        obtain ⟨h, held, mint', withheld, book, owners⟩ := harvestFromAccount_spec harvested
        refine ⟨(owners d).trans owned, mint, thawed, chain.tail ?_⟩
        have collect := Collect.toAccount (B := M.book.write d (.holding st.holding)) (d := d)
          ((Book.slot_write_of_ne _ ne _).trans held) mint' withheld
          ((Book.slot_write_of_ne _ (Ne.symm ne) _).trans (Book.slot_write_self _ _ _)) mint thawed
          small
        rw [Book.write_write_write _ ne, ← book] at collect
        exact collect
      · obtain ⟨rfl, rfl⟩ := Prod.mk.inj (Except.ok.inj step)
        exact ⟨owned, mint, thawed, chain⟩

/-- **The effect of a withdrawal from accounts.** -/
theorem processWithdrawWithheldTokensFromAccounts_refines {numTokenAccounts : ℕ}
    (named : i.withdrawsWithheld = true)
    (ok : processWithdrawWithheldTokensFromAccounts L accounts numTokenAccounts = .ok outcome) :
    Refines i L outcome := by
  simp only [processWithdrawWithheldTokensFromAccounts, bind_eq_ok_iff, Prod.exists,
    nextAccountInfo_eq_ok_iff, checkProgramAccount_eq_ok_iff, unpackMint_eq_ok_iff,
    unpackAccount_eq_ok_iff, okOr_eq_ok_iff, require_eq_ok_iff, exists_const] at ok
  obtain ⟨mintInfo, _, -, info, _, -, authority, _, -, -, owned, _, -, _, -, key, -, _, -, destination,
    data, mint, thawed, M, destination', loop, last, stored, same⟩ := ok
  obtain rfl := Except.ok.inj same
  obtain ⟨owned', chain⟩ := withdrawFromAccounts_chain owned
    (Ledger.slot_of_unpackAccount owned data) mint thawed loop
  apply Refines.of_effect
  show Effect i [key] none L.book last.book
  rw [Ledger.book_writeData owned' stored]
  exact Effect.collect (fun _ => named) chain

/-- What a confidential destination has in memory, with the total so far in its available
balance. -/
def Holding.creditAvailable (h : Holding) (e : EncryptedBalance) (n : Scalar) : Holding :=
  { h with encrypted := some { e with available := e.available + n } }

theorem Holding.creditAvailable_add (h : Holding) (e : EncryptedBalance) (n w : Scalar) :
    h.creditAvailable e (n + w) =
      { h with encrypted := some { e with available := e.available + n + w } } := by
  rw [creditAvailable, add_assoc]

theorem withdrawFromAccountsConfidential_chain {m d : Address}
    {destination destination' : TokenAccountState} {e : EncryptedBalance} {n : Scalar}
    {items : List AccountMeta} {L' : Ledger} (owned : (L d).owner = programId)
    (held : L.book.slot d = .holding destination.holding) (mint : destination.base.mint = m)
    (thawed : destination.base.isFrozen = false)
    (encrypted : destination.holding.encrypted = some e)
    (ok : items.foldlM (withdrawFromAccountConfidentialStep m d) (L, destination, 0) =
      .ok (L', destination', n)) :
    (L' d).owner = programId ∧ destination'.holding.encrypted = some e ∧
      Relation.ReflTransGen (Collect m true) L.book
        (L'.book.write d (.holding (destination'.holding.creditAvailable e n))) := by
  have all := foldlM_invariant (P := fun state : Ledger × TokenAccountState × Scalar =>
    (state.1 d).owner = programId ∧ state.2.1.base.mint = m ∧ state.2.1.base.isFrozen = false ∧
      state.2.1.holding.encrypted = some e ∧ Relation.ReflTransGen (Collect m true) L.book
        (state.1.book.write d (.holding (state.2.1.holding.creditAvailable e state.2.2)))) ?_ ?_ ok
  · exact ⟨all.1, all.2.2.2.1, all.2.2.2.2⟩
  · rintro info - ⟨M, st, total⟩ ⟨M', st', total'⟩ ⟨owned, mint, thawed, encrypted, chain⟩ step
    simp only [withdrawFromAccountConfidentialStep, bind_eq_ok_iff, require_eq_ok_iff,
      exists_const] at step
    obtain ⟨-, step⟩ := step
    split at step
    · rename_i here
      simp only [bind_eq_ok_iff, okOr_eq_ok_iff, CiphertextArithmetic.add, Option.some.injEq,
        Except.ok.injEq, Prod.mk.injEq] at step
      obtain ⟨w, withheld, _, rfl, rfl, rfl, rfl⟩ := step
      refine ⟨owned, mint, thawed, ?_, chain.tail ?_⟩
      · rw [StateWithExtensions.holding_set_confidentialTransferFeeAmount]
        exact encrypted
      have collect := Collect.encryptedToAccount
        (B := M.book.write d (.holding (st.holding.creditAvailable e total))) (d := d)
        (w := w.withheldAmount) (Book.slot_write_self _ _ _) mint
        (by
          show st.holding.encryptedWithheld = _
          rw [StateWithExtensions.encryptedWithheld_holding, withheld]
          rfl)
        (Book.slot_write_self _ _ _) mint thawed rfl
      rw [Book.write_self, Book.write_self] at collect
      show Collect m true _ (M.book.write d
        (.holding (Holding.creditAvailable _ e (total + w.withheldAmount))))
      rw [StateWithExtensions.holding_set_confidentialTransferFeeAmount,
        Holding.creditAvailable_add]
      exact collect
    · rename_i ne
      split at step
      · rename_i w ledger harvested
        simp only [bind_eq_ok_iff, okOr_eq_ok_iff, CiphertextArithmetic.add, Option.some.injEq,
          Except.ok.injEq, Prod.mk.injEq] at step
        obtain ⟨_, rfl, rfl, rfl, rfl⟩ := step
        obtain ⟨h, held, mint', withheld, book, owners⟩ :=
          harvestFromAccountConfidential_spec harvested
        refine ⟨(owners d).trans owned, mint, thawed, encrypted, chain.tail ?_⟩
        have collect := Collect.encryptedToAccount
          (B := M.book.write d (.holding (st.holding.creditAvailable e total))) (d := d)
          ((Book.slot_write_of_ne _ ne _).trans held) mint' withheld
          ((Book.slot_write_of_ne _ (Ne.symm ne) _).trans (Book.slot_write_self _ _ _)) mint thawed
          rfl
        rw [Book.write_write_write _ ne, ← book] at collect
        show Collect m true _ (ledger.book.write d
          (.holding (Holding.creditAvailable _ e (total + w))))
        rw [Holding.creditAvailable_add]
        exact collect
      · obtain ⟨rfl, same⟩ := Prod.mk.inj (Except.ok.inj step)
        obtain ⟨rfl, rfl⟩ := Prod.mk.inj same
        exact ⟨owned, mint, thawed, encrypted, chain⟩
  · refine ⟨owned, mint, thawed, encrypted, ?_⟩
    have same : destination.holding.creditAvailable e 0 = destination.holding := by
      unfold Holding.creditAvailable
      rw [add_zero, ← encrypted]
    rw [same, Book.write_same held]

/-- The extension of an account, and its encrypted balance in the book. -/
theorem encrypted_of_getExtension {account : TokenAccountState} {e : ConfidentialTransferAccount}
    (held : account.getExtension .confidentialTransferAccount = .ok e) :
    account.holding.encrypted = some e.balance := by
  rw [StateWithExtensions.encrypted_holding, StateWithExtensions.getExtension_eq_ok_iff.mp held]
  rfl

/-- What a withheld total does to the extension of its destination. -/
theorem creditWithheld_spec {e e' : ConfidentialTransferAccount} {w : Scalar}
    {decryptable : AeCiphertext} {error : ProgramError}
    (ok : e.creditWithheld w decryptable error = .ok e') :
    e'.balance = { e.balance with available := e.balance.available + w } := by
  simp only [ConfidentialTransferAccount.creditWithheld, bind_eq_ok_iff, okOr_eq_ok_iff,
    CiphertextArithmetic.add, Option.some.injEq, Except.ok.injEq] at ok
  obtain ⟨_, rfl, rfl⟩ := ok
  rfl

/-- **The effect of a confidential withdrawal from accounts.** -/
theorem processWithdrawWithheldTokensFromAccountsConfidential_refines {numTokenAccounts : ℕ}
    {decryptable : AeCiphertext} {offset : ℤ} (named : i.withdrawsWithheld = true)
    (ok : processWithdrawWithheldTokensFromAccountsConfidential env L accounts numTokenAccounts
      decryptable offset = .ok outcome) : Refines i L outcome := by
  simp only [processWithdrawWithheldTokensFromAccountsConfidential, bind_eq_ok_iff, Prod.exists,
    nextAccountInfo_eq_ok_iff, checkProgramAccount_eq_ok_iff, unpackMint_eq_ok_iff,
    unpackAccount_eq_ok_iff, okOr_eq_ok_iff, require_eq_ok_iff, exists_const] at ok
  obtain ⟨mintInfo, _, -, info, _, -, context, _, -, authority, _, -, -, _, -, _, -, key, -, _, -,
    owned, destination, data, mint, thawed, before, held, _, -, _, -, -, -, M, destination', total,
    loop, aggregate, after, held', credited, credit, last, stored, same⟩ := ok
  obtain rfl := Except.ok.inj same
  obtain ⟨owned', encrypted, chain⟩ := withdrawFromAccountsConfidential_chain owned
    (Ledger.slot_of_unpackAccount owned data) mint thawed (encrypted_of_getExtension held) loop
  rw [encrypted_of_getExtension held', Option.some.injEq] at encrypted
  apply Refines.of_effect
  show Effect i [key] none L.book last.book
  rw [Ledger.book_writeData owned' stored]
  simp only [AccountData.slot]
  rw [StateWithExtensions.holding_set_confidentialTransferAccount, creditWithheld_spec credit,
    encrypted, ← context.holds, aggregate]
  exact Effect.collect (fun _ => named) chain

/-! ### Withdrawals from the mint -/

/-- **The effect of a withdrawal from the mint.** -/
theorem processWithdrawWithheldTokensFromMint_refines (named : i.withdrawsWithheld = true)
    (ok : processWithdrawWithheldTokensFromMint L accounts = .ok outcome) : Refines i L outcome := by
  simp only [processWithdrawWithheldTokensFromMint, bind_eq_ok_iff, Prod.exists,
    nextAccountInfo_eq_ok_iff, checkProgramAccount_eq_ok_iff, unpackMint_eq_ok_iff,
    unpackAccount_eq_ok_iff, okOr_eq_ok_iff, checkedAdd_eq_some_iff, require_eq_ok_iff,
    exists_const] at ok
  obtain ⟨mintInfo, _, -, info, _, -, authority, signers, -, owned', owned, mint, data', config, held,
    key, -, _, -, destination, data, sameMint, thawed, _, ⟨small, rfl⟩, mid, first, last, second,
    same⟩ := ok
  obtain rfl := Except.ok.inj same
  have fees : mint.issuance.fees = some config := by
    rw [StateWithExtensions.fees_issuance]
    exact StateWithExtensions.getExtension_eq_ok_iff.mp held
  apply Refines.of_effect
  show Effect i [key] none L.book last.book
  rw [Ledger.book_writeData ((Ledger.owner_writeData first _).trans owned) second,
    Ledger.book_writeData owned' first]
  simp only [AccountData.slot]
  rw [StateWithExtensions.issuance_set_transferFeeConfig]
  exact Effect.withdrawWithheld named (Ledger.slot_of_unpackMint owned' data') fees
    (Ledger.slot_of_unpackAccount owned data) sameMint thawed small

/-- **The effect of a confidential withdrawal from the mint.** -/
theorem processWithdrawWithheldTokensFromMintConfidential_refines {decryptable : AeCiphertext}
    {offset : ℤ} (named : i.withdrawsWithheld = true)
    (ok : processWithdrawWithheldTokensFromMintConfidential env L accounts decryptable offset =
      .ok outcome) : Refines i L outcome := by
  simp only [processWithdrawWithheldTokensFromMintConfidential, bind_eq_ok_iff, Prod.exists,
    nextAccountInfo_eq_ok_iff, checkProgramAccount_eq_ok_iff, unpackMint_eq_ok_iff,
    unpackAccount_eq_ok_iff, okOr_eq_ok_iff, require_eq_ok_iff, exists_const] at ok
  obtain ⟨mintInfo, _, -, info, _, -, context, _, -, authority, signers, -, owned', mint, data', _, -,
    key, -, _, -, config, held, owned, destination, data, sameMint, thawed, extension, held', _, -, -,
    -, total, credited, credit, mid, first, last, second, same⟩ := ok
  obtain rfl := Except.ok.inj same
  have fees : mint.issuance.encryptedWithheld = some config.withheldAmount := by
    rw [StateWithExtensions.encryptedWithheld_issuance,
      StateWithExtensions.getExtension_eq_ok_iff.mp held]
    rfl
  apply Refines.of_effect
  show Effect i [key] none L.book last.book
  rw [book_writeAccount_writeMint owned owned' first second,
    StateWithExtensions.holding_set_confidentialTransferAccount,
    StateWithExtensions.issuance_set_confidentialTransferFeeConfig, creditWithheld_spec credit,
    ← context.holds, total]
  exact Effect.withdrawEncryptedWithheld named (Ledger.slot_of_unpackMint owned' data') fees
    (Ledger.slot_of_unpackAccount owned data) sameMint thawed (encrypted_of_getExtension held')

/-! ### The instructions of the two extensions -/

theorem processTransferFeeInstruction_refines {instruction : TransferFeeInstruction}
    (named : i.instruction = .transferFeeExtension instruction)
    (ok : processTransferFeeInstruction i.env L i.accounts instruction = .ok outcome) :
    Refines i L outcome := by
  cases instruction
  case initializeTransferFeeConfig =>
    refine initializeMintExtension_refines ok fun v given => ?_
    simp only [bind_eq_ok_iff, require_eq_ok_iff, exists_const, Except.ok.injEq] at given
    obtain ⟨_, -, _, -, -, rfl⟩ := given
    exact rfl
  case transferCheckedWithFee => exact processTransfer_refines ok
  case withdrawWithheldTokensFromMint =>
    exact processWithdrawWithheldTokensFromMint_refines
      (by rw [Invocation.withdrawsWithheld, named]) ok
  case withdrawWithheldTokensFromAccounts =>
    exact processWithdrawWithheldTokensFromAccounts_refines
      (by rw [Invocation.withdrawsWithheld, named]) ok
  case harvestWithheldTokensToMint => exact processHarvestWithheldTokensToMint_refines ok
  case setTransferFee =>
    refine updateMintExtension_refines ok fun e e' updated => ?_
    simp only [bind_eq_ok_iff, require_eq_ok_iff, exists_const, Except.ok.injEq] at updated
    obtain ⟨-, rfl⟩ := updated
    exact rfl

theorem processConfidentialTransferFeeInstruction_refines
    {instruction : ConfidentialTransferFeeInstruction}
    (named : i.instruction = .confidentialTransferFeeExtension instruction)
    (ok : processConfidentialTransferFeeInstruction i.env L i.accounts instruction = .ok outcome) :
    Refines i L outcome := by
  cases instruction
  case initializeConfidentialTransferFeeConfig =>
    refine initializeMintExtension_refines ok fun v given => ?_
    obtain rfl := Except.ok.inj given
    exact rfl
  case withdrawWithheldTokensFromMint =>
    exact processWithdrawWithheldTokensFromMintConfidential_refines
      (by rw [Invocation.withdrawsWithheld, named]) ok
  case withdrawWithheldTokensFromAccounts =>
    exact processWithdrawWithheldTokensFromAccountsConfidential_refines
      (by rw [Invocation.withdrawsWithheld, named]) ok
  case harvestWithheldTokensToMint =>
    exact processHarvestWithheldTokensToMintConfidential_refines ok
  all_goals
    refine updateMintExtension_refines ok fun e e' updated => ?_
    obtain rfl := Except.ok.inj updated
    exact rfl

end Token2022
