/-
**What writes do to a holding and to an issuance.**

* `holding_set`, `issuance_set` and their forms for single extensions — a write to an extension
  changes what the book keeps of it, and nothing where the book keeps nothing of it.
* `holding_congr`, `issuance_congr` — the same base state and the same values give the same view.
* `book_writeData`, `book_writeData_same` — a write to the ledger, on the book.
-/

import Token2022.Abstract.Effect

namespace Token2022

open Fallible

/-! ### Holdings -/

/-- The extensions that a holding is read from. -/
def holdingTypes : List ExtensionType :=
  [.transferFeeAmount, .confidentialTransferAccount, .confidentialTransferFeeAmount, .cpiGuard,
    .immutableOwner, .nonTransferableAccount, .transferHookAccount, .pausableAccount]

namespace StateWithExtensions

section Holding

variable (st : TokenAccountState)

/-- **The same base state and the same extensions make the same holding.** -/
theorem holding_congr {st st' : TokenAccountState} (base : st'.base = st.base)
    (same : ∀ t ∈ holdingTypes, st'.get t = st.get t) : st'.holding = st.holding := by
  simp only [holdingTypes, List.forall_mem_cons, List.not_mem_nil, StateWithExtensions.get] at same
  obtain ⟨fee, confidential, confidentialFee, guard, owner, nonTransferable, hook, pausable, -⟩ :=
    same
  simp only [holding, Buffer.holding, base, fee, confidential, confidentialFee, guard, owner,
    nonTransferable, hook, pausable]

@[simp] theorem base_holding : st.holding.base = st.base := rfl

@[simp] theorem holding_withBase (base : PodAccount) :
    (st.withBase base).holding = st.holding.withBase base := rfl

theorem withheld_holding :
    st.holding.withheld = (st.get .transferFeeAmount).map TransferFeeAmount.withheldAmount := rfl

theorem encrypted_holding : st.holding.encrypted =
    (st.get .confidentialTransferAccount).map ConfidentialTransferAccount.balance := rfl

theorem encryptedWithheld_holding : st.holding.encryptedWithheld =
    (st.get .confidentialTransferFeeAmount).map ConfidentialTransferFeeAmount.withheldAmount := rfl

/-- **A write to an extension that a holding is not read from leaves it.** -/
theorem holding_set {t : ExtensionType} (unread : t ∉ holdingTypes) (v : Extension t) :
    (st.set t v).holding = st.holding :=
  holding_congr rfl fun t' member =>
    get_set_of_ne st (fun same : t' = t => unread (same ▸ member)) v

theorem holding_set_transferFeeAmount (v : TransferFeeAmount) :
    (st.set .transferFeeAmount v).holding =
      { st.holding with withheld := some v.withheldAmount } := by
  simp [holding, Buffer.holding, StateWithExtensions.set, TlvData.set]

theorem holding_set_confidentialTransferAccount (v : ConfidentialTransferAccount) :
    (st.set .confidentialTransferAccount v).holding =
      { st.holding with encrypted := some v.balance } := by
  simp [holding, Buffer.holding, StateWithExtensions.set, TlvData.set]

theorem holding_set_confidentialTransferFeeAmount (v : ConfidentialTransferFeeAmount) :
    (st.set .confidentialTransferFeeAmount v).holding =
      { st.holding with encryptedWithheld := some v.withheldAmount } := by
  simp [holding, Buffer.holding, StateWithExtensions.set, TlvData.set]

theorem holding_set_cpiGuard (v : CpiGuard) :
    (st.set .cpiGuard v).holding = { st.holding with cpiLocked := v.lockCpi } := by
  simp [holding, Buffer.holding, StateWithExtensions.set, TlvData.set]

/-- The transferring flag of a hooked account is no part of its holding. -/
theorem holding_set_transferHookAccount {v w : TransferHookAccount}
    (held : st.get .transferHookAccount = some v) :
    (st.set .transferHookAccount w).holding = st.holding := by
  have present : (st.tlv.get .transferHookAccount).isSome = true := by
    rw [show st.tlv.get .transferHookAccount = some v from held]
    rfl
  simp [holding, Buffer.holding, StateWithExtensions.set, TlvData.set, present]

theorem holding_resize {st st' : TokenAccountState} {len : ℕ} (ok : st.resize len = .ok st') :
    st'.holding = st.holding :=
  holding_congr (StateWithExtensions.resize_eq_ok ok).1
    fun t _ => StateWithExtensions.get_resize ok t

/-- A write to the confidential extension that leaves its balances leaves the holding. -/
theorem holding_set_same_balance {v w : ConfidentialTransferAccount}
    (held : st.get .confidentialTransferAccount = some v) (same : w.balance = v.balance) :
    (st.set .confidentialTransferAccount w).holding = st.holding := by
  rw [holding_set_confidentialTransferAccount, same]
  have encrypted : st.holding.encrypted = some v.balance := by
    rw [encrypted_holding, held]
    rfl
  rw [← encrypted]

end Holding

/-! ### Issuances -/

/-- The extensions that an issuance is read from. -/
def issuanceTypes : List ExtensionType :=
  [.transferFeeConfig, .mintCloseAuthority, .permanentDelegate, .transferHook, .pausable,
    .confidentialMintBurn, .confidentialTransferMint, .confidentialTransferFeeConfig,
    .nonTransferable, .defaultAccountState]

section Issuance

variable (st : MintState)

/-- **The same base state and the same extensions make the same issuance.** -/
theorem issuance_congr {st st' : MintState} (base : st'.base = st.base)
    (same : ∀ t ∈ issuanceTypes, st'.get t = st.get t) : st'.issuance = st.issuance := by
  simp only [issuanceTypes, List.forall_mem_cons, List.not_mem_nil, StateWithExtensions.get] at same
  obtain ⟨fee, close, delegate, hook, pausable, mintBurn, confidential, confidentialFee,
    nonTransferable, default, -⟩ := same
  simp only [issuance, Buffer.issuance, base, fee, close, delegate, hook, pausable, mintBurn,
    confidential, confidentialFee, nonTransferable, default]

@[simp] theorem base_issuance : st.issuance.base = st.base := rfl

theorem issuance_withBase (base : PodMint) :
    (st.withBase base).issuance = { st.issuance with base } := rfl

theorem fees_issuance : st.issuance.fees = st.get .transferFeeConfig := rfl

theorem pausable_issuance : st.issuance.pausable = st.get .pausable := rfl

theorem hook_issuance : st.issuance.hook = st.get .transferHook := rfl

theorem confidential_issuance :
    st.issuance.confidential = st.has .confidentialTransferMint := rfl

theorem mintBurn_issuance : st.issuance.mintBurn =
    (st.get .confidentialMintBurn).map ConfidentialMintBurn.encryptedSupply := rfl

theorem mintBurn_issuance_eq_none :
    st.issuance.mintBurn = none ↔ st.has .confidentialMintBurn = false := by
  rw [mintBurn_issuance, Option.map_eq_none_iff]
  unfold StateWithExtensions.has
  rw [Option.isSome_eq_false_iff, Option.isNone_iff_eq_none]

theorem encryptedWithheld_issuance : st.issuance.encryptedWithheld =
    (st.get .confidentialTransferFeeConfig).map ConfidentialTransferFeeConfig.withheldAmount := rfl

/-- **A write to an extension that an issuance is not read from leaves it.** -/
theorem issuance_set {t : ExtensionType} (unread : t ∉ issuanceTypes) (v : Extension t) :
    (st.set t v).issuance = st.issuance :=
  issuance_congr rfl fun t' member =>
    get_set_of_ne st (fun same : t' = t => unread (same ▸ member)) v

theorem issuance_set_transferFeeConfig (v : TransferFeeConfig) :
    (st.set .transferFeeConfig v).issuance = { st.issuance with fees := some v } := by
  simp [issuance, Buffer.issuance, StateWithExtensions.set, TlvData.set]

theorem issuance_set_mintCloseAuthority (v : MintCloseAuthority) :
    (st.set .mintCloseAuthority v).issuance =
      { st.issuance with closeAuthority := v.closeAuthority.toOption } := by
  simp [issuance, Buffer.issuance, StateWithExtensions.set, TlvData.set]

theorem issuance_set_permanentDelegate (v : PermanentDelegate) :
    (st.set .permanentDelegate v).issuance =
      { st.issuance with permanentDelegate := v.delegate.toOption } := by
  simp [issuance, Buffer.issuance, StateWithExtensions.set, TlvData.set]

theorem issuance_set_transferHook (v : TransferHook) :
    (st.set .transferHook v).issuance = { st.issuance with hook := some v } := by
  simp [issuance, Buffer.issuance, StateWithExtensions.set, TlvData.set]

theorem issuance_set_pausable (v : PausableConfig) :
    (st.set .pausable v).issuance = { st.issuance with pausable := some v } := by
  simp [issuance, Buffer.issuance, StateWithExtensions.set, TlvData.set]

theorem issuance_set_confidentialMintBurn (v : ConfidentialMintBurn) :
    (st.set .confidentialMintBurn v).issuance =
      { st.issuance with mintBurn := some v.encryptedSupply } := by
  simp [issuance, Buffer.issuance, StateWithExtensions.set, TlvData.set]

theorem issuance_set_confidentialTransferFeeConfig (v : ConfidentialTransferFeeConfig) :
    (st.set .confidentialTransferFeeConfig v).issuance =
      { st.issuance with encryptedWithheld := some v.withheldAmount } := by
  simp [issuance, Buffer.issuance, StateWithExtensions.set, TlvData.set]

theorem issuance_set_defaultAccountState (v : DefaultAccountState) :
    (st.set .defaultAccountState v).issuance =
      { st.issuance with startingState := v.state } := by
  simp [issuance, Buffer.issuance, StateWithExtensions.set, TlvData.set]

/-- A write to a confidential-transfer configuration that is there leaves the issuance. -/
theorem issuance_set_confidentialTransferMint {v w : ConfidentialTransferMint}
    (held : st.get .confidentialTransferMint = some v) :
    (st.set .confidentialTransferMint w).issuance = st.issuance := by
  have present : (st.tlv.get .confidentialTransferMint).isSome = true := by
    rw [show st.tlv.get .confidentialTransferMint = some v from held]
    rfl
  simp [issuance, Buffer.issuance, StateWithExtensions.set, TlvData.set, present]

/-- A write of the mark of non-transferability that is there leaves the issuance. -/
theorem issuance_set_nonTransferable {v w : Unit} (held : st.get .nonTransferable = some v) :
    (st.set .nonTransferable w).issuance = st.issuance := by
  have present : (st.tlv.get .nonTransferable).isSome = true := by
    rw [show st.tlv.get .nonTransferable = some v from held]
    rfl
  simp [issuance, Buffer.issuance, StateWithExtensions.set, TlvData.set, present]

/-- An allocating write to an extension that an issuance is not read from leaves it. -/
theorem issuance_of_writesOnly {st st' : MintState} {t : ExtensionType} {v : Extension t}
    (writes : st.WritesOnly st' t v) (unread : t ∉ issuanceTypes) : st'.issuance = st.issuance :=
  issuance_congr writes.base fun t' member =>
    writes.others t' fun same => unread (same ▸ member)

end Issuance

end StateWithExtensions

/-! ### Writes to the ledger -/

namespace Ledger

/-- **A write to an own account, on the book.** -/
theorem book_writeData {L L' : Ledger} {a : Address} {data : AccountData}
    (owned : (L a).owner = programId) (ok : L.writeData a data = .ok L') :
    L'.book = L.book.write a data.slot := by
  obtain ⟨-, rfl⟩ := writeData_eq_ok_iff.mp ok
  exact book_setData owned data

theorem owner_writeData {L L' : Ledger} {a : Address} {data : AccountData}
    (ok : L.writeData a data = .ok L') (b : Address) : (L' b).owner = (L b).owner := by
  obtain ⟨-, rfl⟩ := writeData_eq_ok_iff.mp ok
  exact owner_setData L a b data

/-- A write of data with the slot that is there leaves the book. -/
theorem book_writeData_same {L L' : Ledger} {a : Address} {data : AccountData}
    (ok : L.writeData a data = .ok L')
    (same : (L a).owner = programId → data.slot = (L a).data.slot) : L'.book = L.book := by
  obtain ⟨own, rfl⟩ := writeData_eq_ok_iff.mp ok
  by_cases owned : (L a).owner = programId
  · rw [book_setData owned, same owned]
    exact Book.write_same (by simp [book, AccountInfo.slot, owned])
  · have unchanged : L.setData a data = L := by
      rw [← own.resolve_left owned]
      exact Function.update_eq_self a L
    rw [unchanged]

theorem book_debit {L L' : Ledger} {a : Address} {n : ℕ} {error : ProgramError}
    (ok : L.debit a n error = .ok L') :
    n ≤ L.book.lamports a ∧ L'.book = L.book.setLamports a (L.book.lamports a - n) := by
  obtain ⟨le, -, rfl⟩ := debit_eq_ok_iff.mp ok
  exact ⟨le, book_setLamports L a _⟩

theorem book_credit {L L' : Ledger} {a : Address} {n : ℕ} {error : ProgramError}
    (ok : L.credit a n error = .ok L') :
    L'.book = L.book.setLamports a (L.book.lamports a + n) := by
  obtain ⟨-, rfl⟩ := credit_eq_ok_iff.mp ok
  exact book_setLamports L a _

theorem owner_debit {L L' : Ledger} {a : Address} {n : ℕ} {error : ProgramError}
    (ok : L.debit a n error = .ok L') (b : Address) : (L' b).owner = (L b).owner := by
  obtain ⟨-, -, rfl⟩ := debit_eq_ok_iff.mp ok
  exact owner_setLamports L a b _

theorem owner_credit {L L' : Ledger} {a : Address} {n : ℕ} {error : ProgramError}
    (ok : L.credit a n error = .ok L') (b : Address) : (L' b).owner = (L b).owner := by
  obtain ⟨-, rfl⟩ := credit_eq_ok_iff.mp ok
  exact owner_setLamports L a b _

end Ledger

/-- **Lamports that follow tokens, on the book.** -/
theorem moveLamports_book {L L' : Ledger} {a d : Address} {n : ℕ}
    (ok : moveLamports L a d n = .ok L') :
    n ≤ L.book.lamports a ∧ L'.book = L.book.pay a d n ∧ ∀ b, (L' b).owner = (L b).owner := by
  obtain ⟨mid, debited, credited⟩ := bind_eq_ok_iff.mp ok
  obtain ⟨le, debitedBook⟩ := Ledger.book_debit debited
  refine ⟨le, ?_, fun b => ?_⟩
  · rw [Ledger.book_credit credited, debitedBook]
    rfl
  · rw [Ledger.owner_credit credited, Ledger.owner_debit debited]

end Token2022
