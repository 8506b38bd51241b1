/-
**The effects of minting, burning and of lamports.**

* **`processMintTo_refines`**, **`processBurn_refines`** — an amount and the supply change together.
* `processSyncNative_refines`, `processWithdrawExcessLamports_refines`,
  `processReallocate_refines` — lamports and the reserve of native accounts.
-/

import Token2022.Refinement.Authority

namespace Token2022

open Fallible

variable {i : Invocation} {env : Env} {L : Ledger} {accounts : List AccountMeta} {outcome : Outcome}

/-! ### Minting and burning -/

/-- An account that is written before its mint. -/
theorem book_writeAccount_writeMint {mid L' : Ledger} {a m : Address} {account : TokenAccountState}
    {mint : MintState} (owned : (L a).owner = programId) (owned' : (L m).owner = programId)
    (first : L.writeData a (.account account) = .ok mid)
    (second : mid.writeData m (.mint mint) = .ok L') :
    L'.book = (L.book.write a (.holding account.holding)).write m (.issue mint.issuance) := by
  rw [Ledger.book_writeData ((Ledger.owner_writeData first m).trans owned') second,
    Ledger.book_writeData owned first]
  rfl

/-- A new account of a non-transferable mint must carry the marks that keep it there. -/
theorem marked_of_check {mint : MintState} {account : TokenAccountState}
    (ok : ¬ (mint.has .nonTransferable ∧
      (¬ account.has .immutableOwner ∨ ¬ account.has .nonTransferableAccount))) :
    mint.issuance.nonTransferable = true →
      account.holding.immutableOwner = true ∧ account.holding.nonTransferable = true := by
  intro held
  by_contra unmarked
  refine ok ⟨held, ?_⟩
  by_cases owner : account.has .immutableOwner = true
  · exact .inr fun marked => unmarked ⟨owner, marked⟩
  · exact .inl owner

/-- **The effect of minting.** -/
theorem processMintTo_refines {amount : ℕ} {decimals : Option ℕ}
    (ok : processMintTo L accounts amount decimals = .ok outcome) : Refines i L outcome := by
  simp only [processMintTo, bind_eq_ok_iff, Prod.exists, nextAccountInfo_eq_ok_iff,
    checkProgramAccount_eq_ok_iff, unpackAccount_eq_ok_iff, unpackMint_eq_ok_iff, require_eq_ok_iff,
    okOr_eq_ok_iff, checkedAdd_eq_some_iff, exists_const] at ok
  obtain ⟨mintInfo, _, -, info, _, -, owner, signers, -, owned', owned, account, data, thawed, plain,
    sameMint, mint, data', marked, running, noMintBurn, -, key, -, _, -, _, ⟨small, rfl⟩, _,
    ⟨small', rfl⟩, mid, first, last, second, same⟩ := ok
  obtain rfl := Except.ok.inj same
  apply Refines.of_effect
  show Effect i [key] none L.book last.book
  rw [book_writeAccount_writeMint owned owned' first second]
  exact Effect.mintTo (Ledger.slot_of_unpackMint owned' data')
    (Ledger.slot_of_unpackAccount owned data) sameMint.symm thawed plain (marked_of_check marked)
    running (StateWithExtensions.mintBurn_issuance_eq_none mint |>.mpr noMintBurn) small small'

/-- **The effect of burning.** -/
theorem processBurn_refines {amount : ℕ} {permissioned : Bool} {decimals : Option ℕ}
    (named : i.isBurn = true)
    (ok : processBurn i.env L accounts amount permissioned decimals = .ok outcome) :
    Refines i L outcome := by
  simp only [processBurn, bind_eq_ok_iff, Prod.exists, nextAccountInfo_eq_ok_iff,
    checkProgramAccount_eq_ok_iff, unpackAccount_eq_ok_iff, unpackMint_eq_ok_iff, require_eq_ok_iff,
    okOr_eq_ok_iff, checkedSub_eq_some_iff, exists_const] at ok
  obtain ⟨info, _, -, mintInfo, _, -, owned, owned', approver, _, -, authority, signers, -, mint,
    data', _, -, account, data, thawed, plain, enough, sameMint, -, running, noMintBurn, unguarded,
    base, validated, arm, authorized, _, ⟨-, rfl⟩, _, ⟨enough', rfl⟩, mid, first, last, second,
    same⟩ := ok
  obtain rfl := Except.ok.inj same
  have issued := Ledger.slot_of_unpackMint owned' data'
  apply Refines.of_effect
  show Effect i validated arm L.book last.book
  rw [book_writeAccount_writeMint owned owned' first second]
  refine Effect.burn named issued (Ledger.slot_of_unpackAccount owned data) sameMint.symm thawed
    plain enough enough' running
    (StateWithExtensions.mintBurn_issuance_eq_none mint |>.mpr noMintBurn) ?_
  split at authorized
  · rename_i exempt
    simp only [Except.ok.injEq, Prod.mk.injEq] at authorized
    obtain ⟨rfl, rfl, rfl⟩ := authorized
    rw [StateWithExtensions.base_holding, if_pos exempt]
    exact ⟨rfl, rfl, rfl⟩
  · rename_i ordinary
    simp only [bind_eq_ok_iff, Prod.exists, Except.ok.injEq, Prod.mk.injEq] at authorized
    obtain ⟨base', key, arm', debited, rfl, rfl, rfl⟩ := authorized
    rw [StateWithExtensions.base_holding, if_neg ordinary]
    have permanent : ∀ k, mint.permanentDelegate = some k → ∃ iss,
        L.book.slot account.holding.base.mint = .issue iss ∧ iss.permanentDelegate = some k := by
      intro k held
      rw [StateWithExtensions.base_holding, ← sameMint]
      exact ⟨mint.issuance, issued, held⟩
    obtain ⟨debit, rfl, -⟩ := debit_of_debitAuthority (h := account.holding) permanent debited
    exact ⟨_, _, debit, rfl, rfl, unguarded⟩

/-! ### Lamports -/

/-- **The effect of bringing a native amount up to date.** -/
theorem processSyncNative_refines (named : i.instruction = .syncNative)
    (ok : processSyncNative env L accounts = .ok outcome) : Refines i L outcome := by
  simp only [processSyncNative, bind_eq_ok_iff, Prod.exists, nextAccountInfo_eq_ok_iff,
    checkProgramAccount_eq_ok_iff, unpackAccount_eq_ok_iff, require_eq_ok_iff, okOr_eq_ok_iff,
    checkedSub_eq_some_iff, exists_const] at ok
  obtain ⟨info, _, -, owned, _, -, account, data, native, _, ⟨le, rfl⟩, ledger, stored, same⟩ := ok
  obtain rfl := Except.ok.inj same
  apply Refines.of_effect
  show Effect i [] none L.book ledger.book
  rw [Ledger.book_writeData owned stored]
  exact Effect.syncNative named (Ledger.slot_of_unpackAccount owned data) native
    (Nat.sub_add_cancel le)

/-- **The effect of taking lamports above the reserve.** -/
theorem processWithdrawExcessLamports_refines
    (ok : processWithdrawExcessLamports i.env L accounts = .ok outcome) : Refines i L outcome := by
  simp only [processWithdrawExcessLamports, bind_eq_ok_iff, Prod.exists, nextAccountInfo_eq_ok_iff,
    checkProgramAccount_eq_ok_iff, okOr_eq_ok_iff, checkedSub_eq_some_iff, exists_const] at ok
  obtain ⟨info, _, -, destination, _, -, authority, signers, -, owned, validated, authorized, _,
    ⟨-, rfl⟩, ledger, moved, same⟩ := ok
  obtain rfl := Except.ok.inj same
  obtain ⟨enough, book, -⟩ := moveLamports_book moved
  apply Refines.of_effect
  show Effect i validated none L.book ledger.book
  rw [book]
  refine Effect.withdrawExcess (fun h held => ?_) ?_ enough
  · obtain ⟨account, found, rfl⟩ := Ledger.slot_holding_iff.mp held
    obtain ⟨-, data⟩ := Ledger.account?_eq_some_iff.mp found
    unfold excessLamportsAuthority at authorized
    rw [data] at authorized
    simp only [unpackAccount, bind_eq_ok_iff, require_eq_ok_iff, exists_const,
      Except.ok.injEq] at authorized
    obtain ⟨plain, _, -, unguarded, rfl⟩ := authorized
    exact ⟨plain, rfl, unguarded⟩
  · rw [Ne, Ledger.slot_foreign_iff, not_not]
    exact owned

/-- The end of a reallocation: only the reserve of a native account changes. -/
theorem syncReserve_book {L' : Ledger} {a : Address} {account : TokenAccountState} {reserve : ℕ}
    (owned : (L a).owner = programId) (held : L.book.slot a = .holding account.holding)
    (ok : syncReserve L a account reserve = .ok L') :
    Effect i [account.base.owner] none L.book L'.book := by
  unfold syncReserve at ok
  split at ok
  · rename_i native
    simp only [bind_eq_ok_iff, okOr_eq_ok_iff, checkedAdd_eq_some_iff, require_eq_ok_iff,
      exists_const] at ok
    obtain ⟨_, ⟨-, rfl⟩, funded, stored⟩ := ok
    rw [Ledger.book_writeData owned stored]
    refine Effect.reserve held native ?_
    rw [StateWithExtensions.base_holding, Nat.add_comm]
    exact funded
  · obtain rfl := Except.ok.inj ok
    exact .idle

/-- Data that is written longer, and paid for. -/
theorem grow_external {mid L' : Ledger} {a : Address} {account resized : TokenAccountState}
    {len n : ℕ} {payer target : AccountMeta} (data : (L a).data = .account account)
    (grown : account.resize len = .ok resized)
    (stored : L.writeData a (.account resized) = .ok mid)
    (funded : (if 0 < n then env.programs.systemTransfer mid payer target n else .ok mid) =
      .ok L') : External mid L' ∧ Book.External L.book L'.book := by
  have unchanged : mid.book = L.book := by
    refine Ledger.book_writeData_same stored fun _ => ?_
    rw [data]
    exact congrArg Slot.holding (StateWithExtensions.holding_resize grown)
  have ext : External mid L' := by
    split at funded
    · exact env.programs.systemTransfer_external funded
    · obtain rfl := Except.ok.inj funded
      exact .refl _
  exact ⟨ext, unchanged ▸ ext.book⟩

/-- **The effect of a reallocation.** -/
theorem processReallocate_refines {newExtensionTypes : List ExtensionType}
    (ok : processReallocate env L accounts newExtensionTypes = .ok outcome) :
    Refines i L outcome := by
  simp only [processReallocate, bind_eq_ok_iff, Prod.exists, nextAccountInfo_eq_ok_iff,
    checkProgramAccount_eq_ok_iff, unpackAccount_eq_ok_iff, require_eq_ok_iff, exists_const] at ok
  obtain ⟨info, _, -, payer, _, -, _, _, -, authority, signers, -, owned, account, data, _, -, -,
    neededLen, -, ok⟩ := ok
  split at ok
  · obtain rfl := Except.ok.inj ok
    exact .of_same rfl
  · simp only [bind_eq_ok_iff] at ok
    obtain ⟨resized, grown, _, -, mid, stored, funded, paid, synced, sync, same⟩ := ok
    obtain rfl := Except.ok.inj same
    obtain ⟨ext, extBook⟩ := grow_external data grown stored paid
    have owned' : (funded info.key).owner = programId :=
      (ext.kept _ ((Ledger.owner_writeData stored _).trans owned)).1
    have held : funded.book.slot info.key = .holding resized.holding := by
      rw [extBook.holding (Ledger.slot_of_unpackAccount owned data),
        StateWithExtensions.holding_resize grown]
    have owner : resized.base.owner = account.base.owner := by
      rw [(StateWithExtensions.resize_eq_ok grown).1]
    refine ⟨funded.book, _, extBook, ?_, .refl _⟩
    show Effect i [account.base.owner] none funded.book synced.book
    rw [← owner]
    exact syncReserve_book owned' held sync

end Token2022
