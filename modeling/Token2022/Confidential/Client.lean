/-
**The owner's client.**

To apply a pending balance, the client reads the account, decrypts the two parts of the pending
balance and its own encryption of the available balance, and encrypts their sum. To spend, it
encrypts what is left.

* `AeKey` — the owner's key for authenticated encryption.
* `ApplyPendingBalanceAccountInfo` — what the client reads, and
  `newDecryptableAvailableBalance` — what it computes.
* **`newDecryptableAvailableBalance_eq_ok_iff`** — when it does, and what comes out.
* `getPendingBalance`, `getAvailableBalance`, `getTotalBalance` — what it shows.
* `SpendAccountInfo` — what it reads before a withdrawal, a transfer or a burn, and computes.
* `SupplyAccountInfo` — what the authority of an encrypted supply reads, and computes.
-/

import Token2022.Error
import Token2022.Extension.Types

namespace Token2022

open Fallible

/-! ### Decryption -/

/-- `AeKey`, with what is relied on. Every encryption takes a nonce of its own. -/
structure AeKey where
  encrypt : ℕ → ℕ → AeCiphertext
  decrypt : AeCiphertext → Option ℕ
  decrypt_encrypt : ∀ {nonce amount}, amount < 2 ^ 64 → decrypt (encrypt nonce amount) = some amount

/-- `ElGamalSecretKey::decrypt_u32`: only amounts of 32 bits are found. -/
def decryptU32 (ciphertext : ElGamalCiphertext) : Option ℕ :=
  if ciphertext.val < 2 ^ 32 then some ciphertext.val else none

theorem decryptU32_eq_some_iff {ciphertext : ElGamalCiphertext} {amount : ℕ} :
    decryptU32 ciphertext = some amount ↔ ciphertext.val < 2 ^ 32 ∧ amount = ciphertext.val := by
  unfold decryptU32
  split <;> simp_all [eq_comm]

/-- `combine_balances`. The shift drops what leaves the 64 bits. -/
def combineBalances (balanceLo balanceHi : ℕ) : Option ℕ :=
  checkedAdd (2 ^ 64) (balanceHi * 2 ^ pendingBalanceLoBitLength % 2 ^ 64) balanceLo

/-- **The client combines parts whose value fits**: then the shift loses nothing. -/
theorem combineBalances_eq {lo hi : ℕ} (fits : lo + 2 ^ 16 * hi < 2 ^ 64) :
    combineBalances lo hi = some (lo + 2 ^ 16 * hi) := by
  unfold combineBalances pendingBalanceLoBitLength
  rw [Nat.mod_eq_of_lt (by omega), checkedAdd_eq_some_iff]
  exact ⟨by omega, by omega⟩

/-- The parts of a pending balance, of 32 bits each, combine. -/
theorem combineBalances_of_lt {lo hi : ℕ} (loSmall : lo < 2 ^ 32) (hiSmall : hi < 2 ^ 32) :
    combineBalances lo hi = some (hi * 2 ^ pendingBalanceLoBitLength + lo) := by
  rw [combineBalances_eq (by omega), Nat.add_comm, Nat.mul_comm]
  rfl

/-! ### Applying a pending balance -/

/-- How a call of the client fails. -/
inductive ClientFailure
  | error (error : ProgramError)
  /-- The panic of an `unwrap`. -/
  | panic
  deriving DecidableEq

/-- `ApplyPendingBalanceAccountInfo`. -/
structure ApplyPendingBalanceAccountInfo where
  pendingBalanceCreditCounter : ℕ
  pendingBalanceLo : ElGamalCiphertext
  pendingBalanceHi : ElGamalCiphertext
  decryptableAvailableBalance : AeCiphertext

namespace ApplyPendingBalanceAccountInfo

/-- `new`. -/
def new (account : ConfidentialTransferAccount) : ApplyPendingBalanceAccountInfo where
  pendingBalanceCreditCounter := account.pendingBalanceCreditCounter
  pendingBalanceLo := account.pendingBalanceLo
  pendingBalanceHi := account.pendingBalanceHi
  decryptableAvailableBalance := account.decryptableAvailableBalance

/-- The error of what does not decrypt. -/
def accountDecryption : ClientFailure := .error TokenError.accountDecryption

/-- `new_decryptable_available_balance`. -/
def newDecryptableAvailableBalance (info : ApplyPendingBalanceAccountInfo) (aesKey : AeKey)
    (nonce : ℕ) : Except ClientFailure AeCiphertext := do
  let decryptedPendingBalanceLo ← okOr (decryptU32 info.pendingBalanceLo) accountDecryption
  let decryptedPendingBalanceHi ← okOr (decryptU32 info.pendingBalanceHi) accountDecryption
  let pendingBalance ← okOr
    (combineBalances decryptedPendingBalanceLo decryptedPendingBalanceHi) accountDecryption
  let currentAvailableBalance ← okOr (aesKey.decrypt info.decryptableAvailableBalance)
    accountDecryption
  let newDecryptedAvailableBalance ← okOr
    (checkedAdd (2 ^ 64) currentAvailableBalance pendingBalance) .panic
  .ok (aesKey.encrypt nonce newDecryptedAvailableBalance)

/-- **What the client computes**: the encryption of what it had, with what is pending. -/
theorem newDecryptableAvailableBalance_eq_ok_iff {info : ApplyPendingBalanceAccountInfo}
    {aesKey : AeKey} {nonce : ℕ} {decryptable : AeCiphertext} :
    info.newDecryptableAvailableBalance aesKey nonce = .ok decryptable ↔
      info.pendingBalanceLo.val < 2 ^ 32 ∧ info.pendingBalanceHi.val < 2 ^ 32 ∧
      ∃ current, aesKey.decrypt info.decryptableAvailableBalance = some current ∧
        current + (info.pendingBalanceHi.val * 2 ^ pendingBalanceLoBitLength +
          info.pendingBalanceLo.val) < 2 ^ 64 ∧
        decryptable = aesKey.encrypt nonce (current +
          (info.pendingBalanceHi.val * 2 ^ pendingBalanceLoBitLength +
            info.pendingBalanceLo.val)) := by
  simp only [newDecryptableAvailableBalance, okOr_bind_eq_ok_iff, decryptU32_eq_some_iff,
    checkedAdd_eq_some_iff, Except.ok.injEq]
  constructor
  · rintro ⟨_, ⟨loSmall, rfl⟩, _, ⟨hiSmall, rfl⟩, pending, combined, current, read, _, ⟨small, rfl⟩,
      rfl⟩
    rw [combineBalances_of_lt loSmall hiSmall, Option.some.injEq] at combined
    subst combined
    exact ⟨loSmall, hiSmall, current, read, small, rfl⟩
  · rintro ⟨loSmall, hiSmall, current, read, small, rfl⟩
    exact ⟨_, ⟨loSmall, rfl⟩, _, ⟨hiSmall, rfl⟩, _, combineBalances_of_lt loSmall hiSmall, current,
      read, _, ⟨small, rfl⟩, rfl⟩

/-- `get_pending_balance`. -/
def getPendingBalance (info : ApplyPendingBalanceAccountInfo) : Except ClientFailure ℕ := do
  let decryptedLo ← okOr (decryptU32 info.pendingBalanceLo) accountDecryption
  let decryptedHi ← okOr (decryptU32 info.pendingBalanceHi) accountDecryption
  okOr (combineBalances decryptedLo decryptedHi) accountDecryption

/-- `has_pending_balance`. -/
def hasPendingBalance (info : ApplyPendingBalanceAccountInfo) : Bool :=
  decide (0 < info.pendingBalanceCreditCounter)

/-- `get_available_balance`. -/
def getAvailableBalance (info : ApplyPendingBalanceAccountInfo) (aesKey : AeKey) :
    Except ClientFailure ℕ :=
  okOr (aesKey.decrypt info.decryptableAvailableBalance) accountDecryption

/-- `get_total_balance`. -/
def getTotalBalance (info : ApplyPendingBalanceAccountInfo) (aesKey : AeKey) :
    Except ClientFailure ℕ := do
  let pending ← info.getPendingBalance
  let available ← info.getAvailableBalance aesKey
  okOr (checkedAdd (2 ^ 64) pending available) (.error TokenError.overflow)

/-- **The pending balance that the client shows** is the value of the two parts. -/
theorem getPendingBalance_eq_ok_iff {info : ApplyPendingBalanceAccountInfo} {pending : ℕ} :
    info.getPendingBalance = .ok pending ↔
      info.pendingBalanceLo.val < 2 ^ 32 ∧ info.pendingBalanceHi.val < 2 ^ 32 ∧
      pending = info.pendingBalanceHi.val * 2 ^ pendingBalanceLoBitLength +
        info.pendingBalanceLo.val := by
  simp only [getPendingBalance, okOr_bind_eq_ok_iff, okOr_eq_ok_iff, decryptU32_eq_some_iff]
  constructor
  · rintro ⟨_, ⟨loSmall, rfl⟩, _, ⟨hiSmall, rfl⟩, combined⟩
    rw [combineBalances_of_lt loSmall hiSmall, Option.some.injEq] at combined
    exact ⟨loSmall, hiSmall, combined.symm⟩
  · rintro ⟨loSmall, hiSmall, rfl⟩
    exact ⟨_, ⟨loSmall, rfl⟩, _, ⟨hiSmall, rfl⟩, combineBalances_of_lt loSmall hiSmall⟩

end ApplyPendingBalanceAccountInfo

/-! ### Spending -/

/-- The balances that the client reads before it spends: `WithdrawAccountInfo`,
`TransferAccountInfo` and `BurnAccountInfo`. -/
structure SpendAccountInfo where
  availableBalance : ElGamalCiphertext
  decryptableAvailableBalance : AeCiphertext

namespace SpendAccountInfo

/-- `new`. -/
def new (account : ConfidentialTransferAccount) : SpendAccountInfo where
  availableBalance := account.availableBalance
  decryptableAvailableBalance := account.decryptableAvailableBalance

/-- What is left of the balance, encrypted. A spend of more than there is has an error of its own. -/
def newDecryptable (info : SpendAccountInfo) (short : TokenError) (amount : ℕ) (aesKey : AeKey)
    (nonce : ℕ) : Except ClientFailure AeCiphertext := do
  let current ← okOr (aesKey.decrypt info.decryptableAvailableBalance)
    ApplyPendingBalanceAccountInfo.accountDecryption
  let new ← okOr (checkedSub current amount) (.error short)
  .ok (aesKey.encrypt nonce new)

/-- **What the client computes**: the encryption of what it had, less the amount. -/
theorem newDecryptable_eq_ok_iff {info : SpendAccountInfo} {short : TokenError} {amount : ℕ}
    {aesKey : AeKey} {nonce : ℕ} {decryptable : AeCiphertext} :
    info.newDecryptable short amount aesKey nonce = .ok decryptable ↔
      ∃ current, aesKey.decrypt info.decryptableAvailableBalance = some current ∧
        amount ≤ current ∧ decryptable = aesKey.encrypt nonce (current - amount) := by
  simp only [newDecryptable, okOr_bind_eq_ok_iff, checkedSub_eq_some_iff, Except.ok.injEq]
  constructor
  · rintro ⟨current, read, _, ⟨enough, rfl⟩, rfl⟩
    exact ⟨current, read, enough, rfl⟩
  · rintro ⟨current, read, enough, rfl⟩
    exact ⟨current, read, _, ⟨enough, rfl⟩, rfl⟩

end SpendAccountInfo

/-- `WithdrawAccountInfo`. -/
abbrev WithdrawAccountInfo := SpendAccountInfo

/-- `new_decryptable_available_balance`. -/
def WithdrawAccountInfo.newDecryptableAvailableBalance (info : WithdrawAccountInfo)
    (withdrawAmount : ℕ) (aesKey : AeKey) (nonce : ℕ) : Except ClientFailure AeCiphertext :=
  SpendAccountInfo.newDecryptable info .insufficientFunds withdrawAmount aesKey nonce

/-- `TransferAccountInfo`. -/
abbrev TransferAccountInfo := SpendAccountInfo

/-- `new_decryptable_available_balance`. -/
def TransferAccountInfo.newDecryptableAvailableBalance (info : TransferAccountInfo)
    (transferAmount : ℕ) (aesKey : AeKey) (nonce : ℕ) : Except ClientFailure AeCiphertext :=
  SpendAccountInfo.newDecryptable info .insufficientFunds transferAmount aesKey nonce

/-- `BurnAccountInfo`. -/
abbrev BurnAccountInfo := SpendAccountInfo

/-- `new_decryptable_balance`. -/
def BurnAccountInfo.newDecryptableBalance (info : BurnAccountInfo) (burnAmount : ℕ) (aesKey : AeKey)
    (nonce : ℕ) : Except ClientFailure AeCiphertext :=
  SpendAccountInfo.newDecryptable info .overflow burnAmount aesKey nonce

/-! ### The encrypted supply -/

/-- `SupplyAccountInfo`. -/
structure SupplyAccountInfo where
  currentSupply : ElGamalCiphertext
  decryptableSupply : AeCiphertext
  supplyElgamalPubkey : ElGamalPubkey

namespace SupplyAccountInfo

/-- `new`. -/
def new (extension : ConfidentialMintBurn) : SupplyAccountInfo where
  currentSupply := extension.confidentialSupply
  decryptableSupply := extension.decryptableSupply
  supplyElgamalPubkey := extension.supplyElgamalPubkey

/-- `decrypted_current_supply`: what the authority encrypted for itself, less the difference to the
supply, which is decrypted for its own sake. -/
def decryptedCurrentSupply (info : SupplyAccountInfo) (aesKey : AeKey) : Except ClientFailure ℕ := do
  let currentDecryptableSupply ← okOr (aesKey.decrypt info.decryptableSupply)
    ApplyPendingBalanceAccountInfo.accountDecryption
  let decryptableToCurrentDiff ←
    okOr (decryptU32 ((currentDecryptableSupply : Scalar) - info.currentSupply))
      ApplyPendingBalanceAccountInfo.accountDecryption
  okOr (checkedSub currentDecryptableSupply decryptableToCurrentDiff) (.error TokenError.overflow)

/-- `new_decryptable_supply`. -/
def newDecryptableSupply (info : SupplyAccountInfo) (mintAmount : ℕ) (aesKey : AeKey) (nonce : ℕ) :
    Except ClientFailure AeCiphertext := do
  let currentDecryptedSupply ← info.decryptedCurrentSupply aesKey
  let newDecryptedAvailableBalance ← okOr (checkedAdd (2 ^ 64) currentDecryptedSupply mintAmount)
    (.error TokenError.overflow)
  .ok (aesKey.encrypt nonce newDecryptedAvailableBalance)

theorem newDecryptableSupply_eq_ok_iff {info : SupplyAccountInfo} {mintAmount nonce : ℕ}
    {aesKey : AeKey} {decryptable : AeCiphertext} :
    info.newDecryptableSupply mintAmount aesKey nonce = .ok decryptable ↔
      ∃ current, info.decryptedCurrentSupply aesKey = .ok current ∧ current + mintAmount < 2 ^ 64 ∧
        decryptable = aesKey.encrypt nonce (current + mintAmount) := by
  simp only [newDecryptableSupply, bind_eq_ok_iff, okOr_eq_ok_iff, checkedAdd_eq_some_iff,
    Except.ok.injEq]
  constructor
  · rintro ⟨current, decrypted, _, ⟨small, rfl⟩, rfl⟩
    exact ⟨current, decrypted, small, rfl⟩
  · rintro ⟨current, decrypted, small, rfl⟩
    exact ⟨current, decrypted, _, ⟨small, rfl⟩, rfl⟩

/-- **The client finds the supply where the difference is of 32 bits**, and nothing else. -/
theorem decryptedCurrentSupply_eq {info : SupplyAccountInfo} {aesKey : AeKey} {behind : ℕ}
    (decrypts : aesKey.decrypt info.decryptableSupply = some (info.currentSupply.val + behind))
    (small : info.currentSupply.val + behind < 2 ^ 64) :
    info.decryptedCurrentSupply aesKey =
      if behind < 2 ^ 32 then .ok info.currentSupply.val
      else .error ApplyPendingBalanceAccountInfo.accountDecryption := by
  have difference : ((info.currentSupply.val + behind : ℕ) : Scalar) - info.currentSupply =
      (behind : Scalar) := by
    rw [Nat.cast_add, ZMod.natCast_zmod_val, add_sub_cancel_left]
  have value : ((behind : ℕ) : Scalar).val = behind :=
    val_natCast_of_lt ((Nat.le_add_left behind _).trans_lt (small.trans u64_lt_groupOrder))
  have short : checkedSub (info.currentSupply.val + behind) behind = some info.currentSupply.val :=
    checkedSub_eq_some_iff.mpr ⟨Nat.le_add_left _ _, (Nat.add_sub_cancel _ _).symm⟩
  by_cases near : behind < 2 ^ 32
  · have found : decryptU32 (behind : Scalar) = some behind := by
      rw [decryptU32, value, if_pos near]
    rw [if_pos near]
    simp only [decryptedCurrentSupply, okOr_bind_eq_ok_iff, okOr_eq_ok_iff]
    exact ⟨_, decrypts, behind, by rw [difference, found], short⟩
  · have missed : decryptU32 (behind : Scalar) = none := by
      rw [decryptU32, value, if_neg near]
    rw [if_neg near]
    simp only [decryptedCurrentSupply, decrypts, okOr, bind, Except.bind, difference, missed]

end SupplyAccountInfo

/-- A key that adds a mark of its own: what does not carry it does not decrypt. -/
def AeKey.basic : AeKey where
  encrypt _ amount := ⟨.ofNat 288 (2 ^ 64 + amount)⟩
  decrypt ciphertext :=
    if ciphertext.bits.toNat / 2 ^ 64 = 1 then some (ciphertext.bits.toNat % 2 ^ 64) else none
  decrypt_encrypt {nonce amount} small := by
    have bits : (BitVec.ofNat 288 (2 ^ 64 + amount)).toNat = 2 ^ 64 + amount := by
      rw [BitVec.toNat_ofNat, Nat.mod_eq_of_lt (by omega)]
    dsimp only
    rw [bits, if_pos (by omega)]
    exact congrArg some (by omega)

end Token2022
