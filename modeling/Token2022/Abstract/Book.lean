/-
**The book: what the accounts of the program stand for.**

The claims that the program keeps for its users are few numbers and marks: who holds how much of
which mint, what a mint has issued, who may act. The book keeps these and forgets lengths, the order
of extensions, keys of encryption and display settings.

* `Holding` — a token account: its base state, the balances next to the amount, and its marks.
* `Issuance` — a mint: its base state, and what its extensions say about tokens.
* `Slot`, `Book` — what stands at an address, with the lamports; `Ledger.book` reads it off.
* `Holding.value`, `Issuance.retained` — the tokens that a holding and a mint stand for.
* `Book.External` — what the rest of the world may do to a book.
-/

import Token2022.Lib.WeightedSum
import Token2022.Processor.Token

namespace Token2022

/-! ### Token accounts -/

/-- An encrypted balance, by its plaintexts. -/
@[ext] structure EncryptedBalance where
  available : Scalar
  pendingLo : Scalar
  pendingHi : Scalar

namespace EncryptedBalance

instance : Zero EncryptedBalance := ⟨⟨0, 0, 0⟩⟩

/-- The pending amount that the two parts stand for. -/
def pending (e : EncryptedBalance) : Scalar := pendingTotal e.pendingLo e.pendingHi

/-- The tokens of an encrypted balance. -/
def value (e : EncryptedBalance) : ℕ := e.available.val + e.pending.val

@[simp] theorem available_zero : (0 : EncryptedBalance).available = 0 := rfl

@[simp] theorem pendingLo_zero : (0 : EncryptedBalance).pendingLo = 0 := rfl

@[simp] theorem pendingHi_zero : (0 : EncryptedBalance).pendingHi = 0 := rfl

@[simp] theorem pending_zero : (0 : EncryptedBalance).pending = 0 := pendingTotal_zero

@[simp] theorem value_zero : (0 : EncryptedBalance).value = 0 := by
  simp [value]

end EncryptedBalance

/-- **A token account**, as its holders and its mint see it. -/
@[ext] structure Holding where
  base : PodAccount
  /-- `TransferFeeAmount`. -/
  withheld : Option ℕ
  /-- `ConfidentialTransferAccount`. -/
  encrypted : Option EncryptedBalance
  /-- `ConfidentialTransferFeeAmount`. -/
  encryptedWithheld : Option Scalar
  /-- `CpiGuard`, locked. -/
  cpiLocked : Bool
  immutableOwner : Bool
  /-- `NonTransferableAccount`. -/
  nonTransferable : Bool
  /-- `TransferHookAccount`. -/
  hooked : Bool
  /-- `PausableAccount`. -/
  pausable : Bool

namespace Holding

/-- The encrypted balance, zero where there is none. -/
def balance (h : Holding) : EncryptedBalance := h.encrypted.getD 0

/-- The tokens that are spendable or pending: the amount and the encrypted balance. -/
def funds (h : Holding) : ℕ := h.base.amount + h.balance.value

/-- The tokens withheld for the mint. -/
def fees (h : Holding) : ℕ := h.withheld.getD 0 + (h.encryptedWithheld.getD 0).val

/-- All tokens of a holding. -/
def value (h : Holding) : ℕ := h.funds + h.fees

/-- The holding with another base state. -/
def withBase (h : Holding) (base : PodAccount) : Holding := { h with base }

/-- The holding with another amount. -/
def withAmount (h : Holding) (amount : ℕ) : Holding := { h with base := { h.base with amount } }

end Holding

/-- The encrypted balance of a confidential extension. -/
def ConfidentialTransferAccount.balance (e : ConfidentialTransferAccount) : EncryptedBalance :=
  ⟨e.availableBalance, e.pendingBalanceLo, e.pendingBalanceHi⟩

/-- The holding that a base state and a buffer of extensions make. -/
def Buffer.holding (b : Buffer) (base : PodAccount) : Holding where
  base
  withheld := (b.get .transferFeeAmount).map TransferFeeAmount.withheldAmount
  encrypted := (b.get .confidentialTransferAccount).map ConfidentialTransferAccount.balance
  encryptedWithheld :=
    (b.get .confidentialTransferFeeAmount).map ConfidentialTransferFeeAmount.withheldAmount
  cpiLocked := (b.get .cpiGuard).any CpiGuard.lockCpi
  immutableOwner := (b.get .immutableOwner).isSome
  nonTransferable := (b.get .nonTransferableAccount).isSome
  hooked := (b.get .transferHookAccount).isSome
  pausable := (b.get .pausableAccount).isSome

/-- The holding of a token account. -/
def StateWithExtensions.holding (a : TokenAccountState) : Holding := a.tlv.holding a.base

/-! ### Mints -/

/-- An encrypted supply, and the burns not yet taken off it, by their plaintexts. -/
@[ext] structure EncryptedSupply where
  supply : Scalar
  pendingBurn : Scalar

namespace EncryptedSupply

instance : Zero EncryptedSupply := ⟨⟨0, 0⟩⟩

@[simp] theorem supply_zero : (0 : EncryptedSupply).supply = 0 := rfl

@[simp] theorem pendingBurn_zero : (0 : EncryptedSupply).pendingBurn = 0 := rfl

end EncryptedSupply

/-- **A mint**, as its holders see it. -/
@[ext] structure Issuance where
  base : PodMint
  fees : Option TransferFeeConfig
  closeAuthority : Option Address
  permanentDelegate : Option Address
  hook : Option TransferHook
  pausable : Option PausableConfig
  /-- `ConfidentialMintBurn`. -/
  mintBurn : Option EncryptedSupply
  /-- `ConfidentialTransferMint`. -/
  confidential : Bool
  /-- `ConfidentialTransferFeeConfig`. -/
  encryptedWithheld : Option Scalar
  nonTransferable : Bool
  /-- The state of a new account. -/
  startingState : AccountState

namespace Issuance

/-- The fees that the mint has collected and not paid out. -/
def retained (i : Issuance) : ℕ :=
  (i.fees.map TransferFeeConfig.withheldAmount).getD 0 + (i.encryptedWithheld.getD 0).val

/-- Whether the mint is paused. -/
def paused (i : Issuance) : Bool := i.pausable.any PausableConfig.paused

/-- The program that transfers call. -/
def hookProgram (i : Issuance) : Option Address := i.hook.bind fun h => h.programId.toOption

/-- The fee of a transfer of `amount`. -/
def fee (i : Issuance) (epoch amount : ℕ) : Option ℕ :=
  match i.fees with
  | some config => config.calculateEpochFee epoch amount
  | none => some 0

end Issuance

/-- The encrypted supply of an extension. -/
def ConfidentialMintBurn.encryptedSupply (e : ConfidentialMintBurn) : EncryptedSupply :=
  ⟨e.confidentialSupply, e.pendingBurn⟩

/-- The issuance that a base state and a buffer of extensions make. -/
def Buffer.issuance (b : Buffer) (base : PodMint) : Issuance where
  base
  fees := b.get .transferFeeConfig
  closeAuthority := (b.get .mintCloseAuthority).bind fun e => e.closeAuthority.toOption
  permanentDelegate := (b.get .permanentDelegate).bind fun e => e.delegate.toOption
  hook := b.get .transferHook
  pausable := b.get .pausable
  mintBurn := (b.get .confidentialMintBurn).map ConfidentialMintBurn.encryptedSupply
  confidential := (b.get .confidentialTransferMint).isSome
  encryptedWithheld :=
    (b.get .confidentialTransferFeeConfig).map ConfidentialTransferFeeConfig.withheldAmount
  nonTransferable := (b.get .nonTransferable).isSome
  startingState := (b.get .defaultAccountState).elim .initialized DefaultAccountState.state

/-- The issuance of a mint. -/
def StateWithExtensions.issuance (m : MintState) : Issuance := m.tlv.issuance m.base

/-! ### The book -/

/-- What stands at an address. -/
inductive Slot
  /-- Another program's account, or none. -/
  | foreign
  /-- The program's, with a zero base state and the extensions set so far. -/
  | vacant (buffer : Buffer)
  | holding (h : Holding)
  | issue (i : Issuance)
  /-- A multisig, or data that the program does not read. -/
  | inert

/-- The slot of data that the program owns. -/
def AccountData.slot : AccountData → Slot
  | .zeroed buffer => .vacant buffer
  | .account state => .holding state.holding
  | .mint state => .issue state.issuance
  | _ => .inert

/-- The slot of an account. -/
def AccountInfo.slot (info : AccountInfo) : Slot :=
  if info.owner = programId then info.data.slot else .foreign

/-- **The book.** -/
structure Book where
  slot : Address → Slot
  lamports : Address → ℕ
  /-- One of the two named system addresses belongs to the original token program, whose multisigs
  count as multisigs here. -/
  legacy : Prop

namespace Book

/-- Write a slot. -/
def write (B : Book) (a : Address) (s : Slot) : Book := { B with slot := Function.update B.slot a s }

/-- Set the lamports of an address. -/
def setLamports (B : Book) (a : Address) (n : ℕ) : Book :=
  { B with lamports := Function.update B.lamports a n }

/-- Move lamports. -/
def pay (B : Book) (source destination : Address) (n : ℕ) : Book :=
  let debited := B.setLamports source (B.lamports source - n)
  debited.setLamports destination (debited.lamports destination + n)

@[simp] theorem slot_write_self (B : Book) (a : Address) (s : Slot) : (B.write a s).slot a = s := by
  simp [write]

@[simp] theorem slot_write_of_ne (B : Book) {a b : Address} (ne : b ≠ a) (s : Slot) :
    (B.write a s).slot b = B.slot b := by
  simp [write, ne]

@[simp] theorem lamports_write (B : Book) (a : Address) (s : Slot) :
    (B.write a s).lamports = B.lamports := rfl

@[simp] theorem legacy_write (B : Book) (a : Address) (s : Slot) :
    (B.write a s).legacy = B.legacy := rfl

@[simp] theorem legacy_pay (B : Book) (a d : Address) (n : ℕ) : (B.pay a d n).legacy = B.legacy :=
  rfl

@[simp] theorem slot_setLamports (B : Book) (a : Address) (n : ℕ) :
    (B.setLamports a n).slot = B.slot := rfl

@[simp] theorem slot_pay (B : Book) (a d : Address) (n : ℕ) : (B.pay a d n).slot = B.slot := rfl

theorem lamports_pay (B : Book) (a d b : Address) (n : ℕ) :
    (B.pay a d n).lamports b =
      if b = d then (if d = a then B.lamports a - n else B.lamports d) + n
      else if b = a then B.lamports a - n else B.lamports b := by
  simp only [pay, setLamports, Function.update_apply]

/-- Only the payer has less afterwards. -/
theorem lamports_pay_of_ne (B : Book) {a b d : Address} {n : ℕ} (ne : b ≠ a) :
    B.lamports b ≤ (B.pay a d n).lamports b := by
  rw [lamports_pay, if_neg ne]
  split
  · rename_i atDestination
    subst atDestination
    rw [if_neg ne]
    exact Nat.le_add_right _ _
  · exact le_rfl

section Paid

variable {B B' : Book} {a d : Address} {n : ℕ} {moves enough : Prop} [Decidable moves]
  (paid : if moves then enough ∧ B' = B.pay a d n else B' = B)
include paid

/-- **Where lamports may be paid**, the slots stay, and only the payer may have less. -/
theorem slot_paid : B'.slot = B.slot := by
  split at paid
  · rw [paid.2, slot_pay]
  · rw [paid]

theorem lamports_paid_of_ne {b : Address} (ne : b ≠ a) : B.lamports b ≤ B'.lamports b := by
  split at paid
  · rw [paid.2]
    exact lamports_pay_of_ne B ne
  · rw [paid]

theorem legacy_paid : B'.legacy = B.legacy := by
  split at paid
  · rw [paid.2]
    rfl
  · rw [paid]

end Paid

/-- The last write to an address counts. -/
theorem write_self (B : Book) (a : Address) (s t : Slot) : (B.write a s).write a t = B.write a t := by
  simp [write]

/-- Writes to two addresses commute. -/
theorem write_comm (B : Book) {a b : Address} (ne : a ≠ b) (s t : Slot) :
    (B.write a s).write b t = (B.write b t).write a s := by
  simp only [write, Function.update_comm ne]

/-- A write in between two writes to another address. -/
theorem write_write_write (B : Book) {a b : Address} (ne : b ≠ a) (s t s' : Slot) :
    ((B.write a s).write b t).write a s' = (B.write b t).write a s' := by
  rw [write_comm B ne.symm, write_self]

theorem write_same {B : Book} {a : Address} {s : Slot} (held : B.slot a = s) : B.write a s = B := by
  subst held
  simp [write, Function.update_eq_self]

end Book

/-- The book of a ledger. -/
def Ledger.book (L : Ledger) : Book where
  slot a := (L a).slot
  lamports a := (L a).lamports
  legacy := (L systemProgramId).owner = inlineSplTokenId ∨ (L incineratorId).owner = inlineSplTokenId

/-! ### Reading and writing through the book -/

namespace Ledger

theorem slot_of_unpackAccount {L : Ledger} {a : Address} {st : TokenAccountState}
    (owned : (L a).owner = programId) (data : (L a).data = .account st) :
    L.book.slot a = .holding st.holding := by
  simp [book, AccountInfo.slot, owned, data, AccountData.slot]

theorem slot_of_unpackMint {L : Ledger} {a : Address} {st : MintState}
    (owned : (L a).owner = programId) (data : (L a).data = .mint st) :
    L.book.slot a = .issue st.issuance := by
  simp [book, AccountInfo.slot, owned, data, AccountData.slot]

theorem slot_of_zeroed {L : Ledger} {a : Address} {b : Buffer}
    (owned : (L a).owner = programId) (data : (L a).data = .zeroed b) :
    L.book.slot a = .vacant b := by
  simp [book, AccountInfo.slot, owned, data, AccountData.slot]

theorem slot_foreign_iff {L : Ledger} {a : Address} :
    L.book.slot a = .foreign ↔ (L a).owner ≠ programId := by
  simp only [book, AccountInfo.slot]
  split
  · rename_i owned
    cases (L a).data <;> simp [AccountData.slot, owned]
  · rename_i foreign
    simp [foreign]

/-- A vacancy in the book is an account that waits for its initialization. -/
theorem slot_vacant_iff {L : Ledger} {a : Address} {b : Buffer} :
    L.book.slot a = .vacant b ↔ (L a).owner = programId ∧ (L a).data = .zeroed b := by
  simp only [book, AccountInfo.slot]
  split
  · rename_i owned
    cases (L a).data <;> simp [AccountData.slot, owned]
  · rename_i foreign
    simp [foreign]

/-- **A holding in the book is a token account of the ledger.** -/
theorem slot_holding_iff {L : Ledger} {a : Address} {h : Holding} :
    L.book.slot a = .holding h ↔ ∃ st, L.account? a = some st ∧ st.holding = h := by
  simp only [book, AccountInfo.slot, account?_eq_some_iff]
  split
  · rename_i owned
    cases (L a).data <;> simp [AccountData.slot, owned]
  · rename_i foreign
    simp [foreign]

/-- **An issuance in the book is a mint of the ledger.** -/
theorem slot_issue_iff {L : Ledger} {a : Address} {i : Issuance} :
    L.book.slot a = .issue i ↔ ∃ st, L.mint? a = some st ∧ st.issuance = i := by
  simp only [book, AccountInfo.slot, mint?_eq_some_iff]
  split
  · rename_i owned
    cases (L a).data <;> simp [AccountData.slot, owned]
  · rename_i foreign
    simp [foreign]

@[simp] theorem owner_setData (L : Ledger) (a b : Address) (data : AccountData) :
    ((L.setData a data) b).owner = (L b).owner := by
  by_cases same : b = a
  · subst same
    simp [setData]
  · simp [setData, same]

@[simp] theorem owner_setLamports (L : Ledger) (a b : Address) (n : ℕ) :
    ((L.setLamports a n) b).owner = (L b).owner := by
  by_cases same : b = a
  · subst same
    simp [setLamports]
  · simp [setLamports, same]

/-- Writing the data of an own account writes its slot. -/
theorem book_setData {L : Ledger} {a : Address} (owned : (L a).owner = programId)
    (data : AccountData) : (L.setData a data).book = L.book.write a data.slot := by
  have legacy : (L.setData a data).book.legacy = L.book.legacy := by
    simp only [book, owner_setData]
  unfold Book.write
  rw [← legacy]
  unfold book setData
  congr 1
  · funext b
    by_cases same : b = a
    · subst same
      simp [AccountInfo.slot, owned]
    · simp [same]
  · funext b
    by_cases same : b = a
    · subst same
      simp
    · simp [same]

theorem book_setLamports (L : Ledger) (a : Address) (n : ℕ) :
    (L.setLamports a n).book = L.book.setLamports a n := by
  have legacy : (L.setLamports a n).book.legacy = L.book.legacy := by
    simp only [book, owner_setLamports]
  unfold Book.setLamports
  rw [← legacy]
  unfold book setLamports
  congr 1
  · funext b
    by_cases same : b = a
    · subst same
      simp [AccountInfo.slot]
    · simp [same]
  · funext b
    by_cases same : b = a
    · subst same
      simp
    · simp [same]

@[simp] theorem data_setLamports (L : Ledger) (a b : Address) (n : ℕ) :
    ((L.setLamports a n) b).data = (L b).data := by
  by_cases same : b = a
  · subst same
    simp [setLamports]
  · simp [setLamports, same]

@[simp] theorem data_setData_self (L : Ledger) (a : Address) (data : AccountData) :
    ((L.setData a data) a).data = data := by
  simp [setData]

@[simp] theorem data_setData_of_ne (L : Ledger) {a b : Address} (ne : b ≠ a) (data : AccountData) :
    ((L.setData a data) b).data = (L b).data := by
  simp [setData, ne]

@[simp] theorem lamports_setData (L : Ledger) (a b : Address) (data : AccountData) :
    ((L.setData a data) b).lamports = (L b).lamports := by
  by_cases same : b = a
  · subst same
    simp [setData]
  · simp [setData, same]

end Ledger

/-! ### The rest of the world -/

/-- **What the rest of the world may do to a book.** -/
structure Book.External (B B' : Book) : Prop where
  kept : ∀ a, B.slot a ≠ .foreign → B'.slot a = B.slot a ∧ B.lamports a ≤ B'.lamports a
  handed : ∀ a, B.slot a = .foreign → B'.slot a = .foreign ∨ ∃ len, B'.slot a = .vacant ⟨[], len⟩
  reserved : ∀ a, reserved a → B.slot a = .foreign → B'.slot a = .foreign
  legacy : B'.legacy → B.legacy

namespace Book.External

theorem refl (B : Book) : Book.External B B where
  kept _ _ := ⟨rfl, le_rfl⟩
  handed _ foreign := .inl foreign
  reserved _ _ foreign := foreign
  legacy := id

theorem holding {B B' : Book} (ext : Book.External B B') {a : Address} {h : Holding}
    (held : B.slot a = .holding h) : B'.slot a = .holding h := by
  rw [(ext.kept a (by simp [held])).1, held]

theorem issue {B B' : Book} (ext : Book.External B B') {a : Address} {i : Issuance}
    (held : B.slot a = .issue i) : B'.slot a = .issue i := by
  rw [(ext.kept a (by simp [held])).1, held]

/-- A holding found afterwards was there before. -/
theorem holding_back {B B' : Book} (ext : Book.External B B') {a : Address} {h : Holding}
    (held : B'.slot a = .holding h) : B.slot a = .holding h := by
  by_cases foreign : B.slot a = .foreign
  · rcases ext.handed a foreign with same | ⟨len, vacant⟩
    · simp [same] at held
    · simp [vacant] at held
  · rw [← (ext.kept a foreign).1, held]

/-- An issuance found afterwards was there before. -/
theorem issue_back {B B' : Book} (ext : Book.External B B') {a : Address} {i : Issuance}
    (held : B'.slot a = .issue i) : B.slot a = .issue i := by
  by_cases foreign : B.slot a = .foreign
  · rcases ext.handed a foreign with same | ⟨len, vacant⟩
    · simp [same] at held
    · simp [vacant] at held
  · rw [← (ext.kept a foreign).1, held]

end Book.External

/-- **The rest of the world acts on the book as it acts on the ledger.** -/
theorem External.book {L L' : Ledger} (ext : External L L') : Book.External L.book L'.book where
  kept a own := by
    have owned : (L a).owner = programId := by
      by_contra foreign
      exact own (Ledger.slot_foreign_iff.mpr foreign)
    obtain ⟨owned', data, lamports⟩ := ext.kept a owned
    refine ⟨?_, lamports⟩
    show (L' a).slot = (L a).slot
    unfold AccountInfo.slot
    rw [if_pos owned, if_pos owned', data]
  handed a foreign := by
    rw [Ledger.slot_foreign_iff] at foreign
    by_cases owned' : (L' a).owner = programId
    · obtain ⟨len, data⟩ := ext.handed a foreign owned'
      exact .inr ⟨len, Ledger.slot_of_zeroed owned' data⟩
    · exact .inl (Ledger.slot_foreign_iff.mpr owned')
  reserved a named foreign := by
    rw [Ledger.slot_foreign_iff] at foreign ⊢
    exact ext.reserved a named foreign
  legacy := by
    rintro (system | incinerator)
    · exact .inl (by_contra fun not => ext.system _ (.inl rfl) not system)
    · exact .inr (by_contra fun not => ext.system _ (.inr rfl) not incinerator)

end Token2022
