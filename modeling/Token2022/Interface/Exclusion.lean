/-
**No bytes are read as two things.**

A mint is read from its bare 82 bytes, an account from its bare 165; any other length is at least 166
and has the account type in byte 165, and no extended state has the length of a multisig.

* `unpackTlvData_eq_ok_iff` — the two shapes that what stands behind a base may have.
* `PodStateWithExtensions.shape` — the length, and the account type behind the base.
* **`Accepted.exclusive`**, **`validAccountData_of_account`**, **`Accepted.not_validAccountData`** —
  the readers of mints, accounts and multisigs accept disjoint sets of bytes, and
  `valid_account_data` tells the accounts.
-/

import Token2022.Interface.Agreement

namespace Token2022.Interface

open Fallible

/-- What stands behind a base: nothing, or zeroes, the account type and the extensions. -/
theorem unpackTlvData_eq_ok_iff {kind : AccountType} {rest tlvData : List UInt8} :
    unpackTlvData kind rest = .ok tlvData ↔
      (rest = [] ∧ tlvData = []) ∨
        (rest ≠ [] ∧ baseAccountLength - kind.baseLen + 1 ≤ rest.length ∧
          (∀ b ∈ rest.take (baseAccountLength - kind.baseLen), b = 0) ∧
          byteAt rest (baseAccountLength - kind.baseLen) = accountTypeByte kind ∧
          tlvData = rest.drop (baseAccountLength - kind.baseLen + 1)) := by
  unfold unpackTlvData typeAndTlvIndices
  by_cases bare : rest = []
  · rw [if_pos bare]
    show (Except.ok [] = Except.ok tlvData) ↔ _
    simp [bare, eq_comm]
  · rw [if_neg bare]
    simp only [bind_eq_ok_iff, require_eq_ok_iff, exists_const, Except.ok.injEq, checkAccountType,
      not_any_ne_zero, bare, false_and, false_or, ne_eq, not_false_eq_true, true_and]
    constructor
    · rintro ⟨_, ⟨room, zero, rfl⟩, read⟩
      simp only [bind_eq_ok_iff, require_eq_ok_iff, exists_const, Except.ok.injEq] at read
      obtain ⟨t, byte, rfl, rfl⟩ := read
      exact ⟨room, zero, accountTypeOfByte_eq_ok_iff.mp byte, rfl⟩
    · rintro ⟨room, zero, byte, rfl⟩
      refine ⟨_, ⟨room, zero, rfl⟩, ?_⟩
      simp only [bind_eq_ok_iff, require_eq_ok_iff, exists_const, accountTypeOfByte_eq_ok_iff]
      exact ⟨kind, byte, rfl, trivial⟩

theorem byteAt_drop (bytes : List UInt8) (n offset : ℕ) :
    byteAt (bytes.drop n) offset = byteAt bytes (n + offset) := by
  simp [byteAt, List.getD_eq_getElem?_getD]

/-- **The shape of what is read as a state of a kind**: its bare length, or the account type in byte
165. -/
theorem PodStateWithExtensions.shape {S : Type} {Q : PodBase S} {bytes : List UInt8}
    {st : StateWithExtensions S} (small : Q.kind.baseLen ≤ baseAccountLength)
    (ok : PodStateWithExtensions.unpack Q bytes = .ok st) :
    bytes.length ≠ multisigLen ∧
      (bytes.length = Q.kind.baseLen ∨
        (baseAccountLength < bytes.length ∧
          byteAt bytes baseAccountLength = accountTypeByte Q.kind)) := by
  obtain ⟨⟨notMultisig, long⟩, -, tail⟩ := PodStateWithExtensions.unpack_eq_ok_iff.mp ok
  refine ⟨notMultisig, ?_⟩
  rcases unpackTlvData_eq_ok_iff.mp tail with ⟨bare, -⟩ | ⟨-, room, -, byte, -⟩
  · left
    rw [List.drop_eq_nil_iff] at bare
    omega
  · right
    rw [List.length_drop] at room
    rw [byteAt_drop] at byte
    refine ⟨by omega, ?_⟩
    rw [← byte]
    congr 1
    omega

/-! ### The three layouts -/

/-- The layouts of account data. -/
inductive Layout
  | mint | account | multisig
  deriving DecidableEq, Repr

/-- **A reader of the layout accepts the bytes.** -/
inductive Accepted (crates : Crates) (bytes : List UInt8) : Layout → Prop
  | mint {st} (ok : PodStateWithExtensions.unpack (podMint crates) bytes = .ok st) :
      Accepted crates bytes .mint
  | account {st} (ok : PodStateWithExtensions.unpack podAccount bytes = .ok st) :
      Accepted crates bytes .account
  | multisig {multisig} (ok : unpackMultisig crates bytes = .ok multisig) :
      Accepted crates bytes .multisig
  | podMultisig {multisig} (ok : unpackPodMultisig crates bytes = .ok multisig) :
      Accepted crates bytes .multisig

section Exclusion

variable {crates : Crates} {bytes : List UInt8}

/-- Whatever is read as a multisig has its length. -/
theorem Accepted.length_multisig (read : Accepted crates bytes .multisig) :
    bytes.length = multisigLen := by
  cases read with
  | multisig ok => exact (crates.unpack_eq_ok_iff.mp ok).1
  | podMultisig ok => exact (require_bind_eq_ok_iff.mp ok).1

/-- Whatever is read as a mint has its bare length, or says that it is a mint. -/
theorem Accepted.shape_mint (read : Accepted crates bytes .mint) :
    bytes.length ≠ multisigLen ∧ (bytes.length = 82 ∨
      (165 < bytes.length ∧ byteAt bytes 165 = 1)) := by
  cases read with
  | mint ok =>
    have small : (podMint crates).kind.baseLen ≤ baseAccountLength := by
      show 82 ≤ 165
      decide
    exact PodStateWithExtensions.shape small ok

/-- Whatever is read as an account has its bare length, or says that it is an account. -/
theorem Accepted.shape_account (read : Accepted crates bytes .account) :
    bytes.length ≠ multisigLen ∧ (bytes.length = 165 ∨
      (165 < bytes.length ∧ byteAt bytes 165 = 2)) := by
  cases read with
  | account ok =>
    have small : podAccount.kind.baseLen ≤ baseAccountLength := by decide
    exact PodStateWithExtensions.shape small ok

/-- No extensible state has the length of a multisig. -/
theorem Accepted.multisig_of_length {layout : Layout} (read : Accepted crates bytes layout)
    (length : bytes.length = multisigLen) : layout = .multisig := by
  cases layout with
  | mint => exact absurd length read.shape_mint.1
  | account => exact absurd length read.shape_account.1
  | multisig => rfl

/-- **No bytes are read as two things.** -/
theorem Accepted.exclusive {layout layout' : Layout} (read : Accepted crates bytes layout)
    (read' : Accepted crates bytes layout') : layout = layout' := by
  have differ : ¬ (Accepted crates bytes .mint ∧ Accepted crates bytes .account) := by
    rintro ⟨mint, account⟩
    obtain ⟨-, bare | ⟨long, byte⟩⟩ := mint.shape_mint
    · obtain ⟨-, bare' | ⟨long, -⟩⟩ := account.shape_account <;> omega
    · obtain ⟨-, bare' | ⟨-, byte'⟩⟩ := account.shape_account
      · omega
      · rw [byte] at byte'
        cases byte'
  match layout, layout' with
  | .multisig, layout' => exact (read'.multisig_of_length read.length_multisig).symm
  | layout, .multisig => exact read.multisig_of_length read'.length_multisig
  | .mint, .mint => rfl
  | .account, .account => rfl
  | .mint, .account => exact (differ ⟨read, read'⟩).elim
  | .account, .mint => exact (differ ⟨read', read⟩).elim

/-- An initialized account has a state that is not zero. -/
theorem isInitializedAccount_of_unpack {st : StateWithExtensions PodAccount}
    (ok : PodStateWithExtensions.unpack podAccount bytes = .ok st) :
    isInitializedAccount bytes = true := by
  obtain ⟨⟨-, long⟩, ⟨read, initialized⟩, -⟩ := PodStateWithExtensions.unpack_eq_ok_iff.mp ok
  have long : 165 ≤ bytes.length := long
  have byte : st.base.state = bytes.getD 108 (accountStateByte .uninitialized) := by
    rw [← read]
    show byteAt (bytes.take 165) 108 = _
    simp [byteAt, List.getD_eq_getElem?_getD, accountStateByte]
  have known : st.base.state ≠ accountStateByte .uninitialized := by
    intro zero
    have claimed : PodAccount.isInitialized st.base = true := initialized
    unfold PodAccount.isInitialized at claimed
    rw [zero] at claimed
    exact absurd claimed (by decide)
  unfold isInitializedAccount
  rw [← byte]
  exact decide_eq_true known

/-- **What is read as an account is valid account data.** -/
theorem validAccountData_of_account (read : Accepted crates bytes .account) :
    validAccountData bytes = true := by
  obtain ⟨notMultisig, shape⟩ := read.shape_account
  cases read with
  | account ok =>
    have initialized := isInitializedAccount_of_unpack ok
    unfold validAccountData
    rcases shape with bare | ⟨long, byte⟩
    · simp [AccountType.baseLen, bare, initialized]
    · simp [AccountType.baseLen, long, notMultisig, byte, accountTypeByte, initialized]

/-- **What is read as a mint or a multisig is not.** -/
theorem Accepted.not_validAccountData {layout : Layout} (read : Accepted crates bytes layout)
    (other : layout ≠ .account) : validAccountData bytes = false := by
  unfold validAccountData
  cases layout with
  | multisig =>
    have length := read.length_multisig
    simp [AccountType.baseLen, length, multisigLen]
  | mint =>
    obtain ⟨-, bare | ⟨long, byte⟩⟩ := read.shape_mint
    · simp [AccountType.baseLen, bare]
    · have differ : bytes.length ≠ 165 := by omega
      simp [AccountType.baseLen, differ, byte, accountTypeByte]
  | account => exact absurd rfl other

end Exclusion

end Token2022.Interface
