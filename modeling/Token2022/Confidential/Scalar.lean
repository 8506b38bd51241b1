/-
**Confidential values in the ideal plaintext model.**

An ElGamal ciphertext is represented by the scalar it decrypts to, and a Pedersen commitment by the
scalar it opens to. Ciphertext arithmetic acts on the scalars, an element of the group of integers
modulo the order `groupOrder` of the curve's prime-order group; keys and authenticated encryptions
are opaque.

* `pendingTotal` — the amount that a low and a high part stand for.
* `CiphertextArithmetic` — the operations on ciphertexts, on the plaintexts.
* **`val_add_of_lt`, `val_sub_of_le`, `val_natCast_of_lt`** — small integers add and subtract in
  the group as they do in the integers.
-/

import Mathlib.Data.ZMod.Basic
import Mathlib.Tactic.Ring
import Token2022.Address

namespace Token2022

/-- The order of the ristretto group. -/
def groupOrder : ℕ := 2 ^ 252 + 27742317777372353535851937790883648493

instance : NeZero groupOrder := ⟨by decide⟩

/-- A plaintext of the encryption scheme. -/
abbrev Scalar := ZMod groupOrder

/-- `PodElGamalCiphertext`, by its plaintext. -/
abbrev ElGamalCiphertext := Scalar

/-- `PodPedersenCommitment`, by the value it opens to. -/
abbrev PedersenCommitment := Scalar

/-- `PodElGamalPubkey`. -/
structure ElGamalPubkey where
  bits : BitVec 256
  deriving DecidableEq, Repr

instance : Zero ElGamalPubkey := ⟨⟨0⟩⟩

/-- `PodAeCiphertext`: a balance encrypted under a key of the owner's own, opaque to the program. -/
structure AeCiphertext where
  bits : BitVec 288
  deriving DecidableEq, Repr

instance : Zero AeCiphertext := ⟨⟨0⟩⟩

/-- `PENDING_BALANCE_LO_BIT_LENGTH`, also the bit length of the low part of a transfer amount. -/
def pendingBalanceLoBitLength : ℕ := 16

/-- The amount that a low and a high part stand for, `lo + 2^16 * hi`. -/
def pendingTotal (lo hi : Scalar) : Scalar := lo + 2 ^ pendingBalanceLoBitLength * hi

/-! ### Ciphertext arithmetic -/

namespace CiphertextArithmetic

/-- `add`. On valid points no operation fails. -/
def add (left right : ElGamalCiphertext) : Option ElGamalCiphertext := some (left + right)

/-- `add_with_lo_hi`. -/
def addWithLoHi (left rightLo rightHi : ElGamalCiphertext) : Option ElGamalCiphertext :=
  some (left + pendingTotal rightLo rightHi)

/-- `subtract`. -/
def subtract (left right : ElGamalCiphertext) : Option ElGamalCiphertext := some (left - right)

/-- `subtract_with_lo_hi`. -/
def subtractWithLoHi (left rightLo rightHi : ElGamalCiphertext) : Option ElGamalCiphertext :=
  some (left - pendingTotal rightLo rightHi)

/-- `add_to_with_offset`. The offset is an encryption of zero under the key. -/
def addToWithOffset (_pubkey : ElGamalPubkey) (ciphertext : ElGamalCiphertext) (amount : ℕ) :
    Option ElGamalCiphertext := some (ciphertext + amount)

/-- `subtract_from`. -/
def subtractFrom (ciphertext : ElGamalCiphertext) (amount : ℕ) : Option ElGamalCiphertext :=
  some (ciphertext - amount)

end CiphertextArithmetic

/-! ### Small integers in the group -/

theorem u64_lt_groupOrder : 2 ^ 64 < groupOrder := by decide

theorem val_natCast_of_lt {n : ℕ} (small : n < groupOrder) : ((n : ℕ) : Scalar).val = n :=
  ZMod.val_natCast_of_lt small

/-- **Two scalars whose sum stays below the order add as integers.** -/
theorem val_add_of_lt {a b : Scalar} (small : a.val + b.val < groupOrder) :
    (a + b).val = a.val + b.val := ZMod.val_add_of_lt small

/-- **A scalar subtracts from a larger one as an integer.** -/
theorem val_sub_of_le {a b : Scalar} (le : b.val ≤ a.val) : (a - b).val = a.val - b.val :=
  ZMod.val_sub le

/-- **A scalar that a sum covers** is taken from it as an integer. -/
theorem val_add_sub_le {a b c : Scalar} (covers : c.val ≤ a.val + b.val) :
    (a + (b - c)).val ≤ a.val + b.val - c.val := by
  have integer : a + (b - c) = ((a.val + b.val - c.val : ℕ) : Scalar) := by
    rw [Nat.cast_sub covers, Nat.cast_add, ZMod.natCast_zmod_val, ZMod.natCast_zmod_val,
      ZMod.natCast_zmod_val]
    ring
  rw [integer, ZMod.val_natCast]
  exact Nat.mod_le _ _

/-- **A scalar that a sum does not cover** leaves one that is close to the order. -/
theorem le_val_add_sub {a b c : Scalar} (short : a.val + b.val < c.val) :
    groupOrder - c.val ≤ (a + (b - c)).val := by
  have small : c.val - (a.val + b.val) < groupOrder := (Nat.sub_le _ _).trans_lt c.val_lt
  have missing : a + (b - c) = -((c.val - (a.val + b.val) : ℕ) : Scalar) := by
    rw [Nat.cast_sub short.le, Nat.cast_add, ZMod.natCast_zmod_val, ZMod.natCast_zmod_val,
      ZMod.natCast_zmod_val]
    ring
  have nonzero : ((c.val - (a.val + b.val) : ℕ) : Scalar) ≠ 0 := by
    intro zero
    have val := congrArg ZMod.val zero
    rw [val_natCast_of_lt small, ZMod.val_zero] at val
    omega
  rw [missing, ZMod.neg_val, if_neg nonzero, val_natCast_of_lt small]
  omega

theorem pendingTotal_add (lo hi lo' hi' : Scalar) :
    pendingTotal (lo + lo') (hi + hi') = pendingTotal lo hi + pendingTotal lo' hi' := by
  unfold pendingTotal
  ring

theorem pendingTotal_sub (lo hi lo' hi' : Scalar) :
    pendingTotal (lo - lo') (hi - hi') = pendingTotal lo hi - pendingTotal lo' hi' := by
  unfold pendingTotal
  ring

@[simp] theorem pendingTotal_zero : pendingTotal 0 0 = 0 := by
  unfold pendingTotal
  ring

end Token2022
