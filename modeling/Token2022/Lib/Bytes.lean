/-
**Numbers as bytes, lowest first.**

* `leBytes`, `ofLeBytes` — the low bytes of a number, and the number that bytes stand for.
* **`ofLeBytes_leBytes`**, **`leBytes_ofLeBytes`** — each undoes the other, at a fixed length.
* `ofLeBytes_append_zeroes` — a longer number for the same bytes.
-/

import Mathlib.Tactic.Ring
import Mathlib.Tactic.Common

namespace Bytes

/-- The `k` low bytes of a number, lowest first. -/
def leBytes : ℕ → ℕ → List UInt8
  | 0, _ => []
  | k + 1, n => UInt8.ofNat n :: leBytes k (n / 256)

/-- The number that bytes stand for, lowest first. -/
def ofLeBytes : List UInt8 → ℕ
  | [] => 0
  | b :: bs => b.toNat + 256 * ofLeBytes bs

@[simp] theorem length_leBytes (k n : ℕ) : (leBytes k n).length = k := by
  induction k generalizing n with
  | zero => rfl
  | succ k ih => rw [leBytes, List.length_cons, ih]

/-- Bytes stand for a number below `256` to the power of their length. -/
theorem ofLeBytes_lt (bs : List UInt8) : ofLeBytes bs < 256 ^ bs.length := by
  induction bs with
  | nil => exact Nat.one_pos
  | cons b bs ih =>
    have small := b.toNat_lt
    rw [ofLeBytes, List.length_cons, pow_succ]
    omega

/-- **A number is read back from its low bytes**, if they are all it has. -/
theorem ofLeBytes_leBytes {k n : ℕ} (small : n < 256 ^ k) : ofLeBytes (leBytes k n) = n := by
  induction k generalizing n with
  | zero => exact (Nat.lt_one_iff.mp small).symm
  | succ k ih =>
    have rest : n / 256 < 256 ^ k := by
      rw [pow_succ] at small
      exact Nat.div_lt_of_lt_mul (by rwa [mul_comm])
    rw [leBytes, ofLeBytes, ih rest, UInt8.toNat_ofNat']
    exact Nat.mod_add_div n 256

/-- **Bytes are written back from their number.** -/
theorem leBytes_ofLeBytes (bs : List UInt8) : leBytes bs.length (ofLeBytes bs) = bs := by
  induction bs with
  | nil => rfl
  | cons b bs ih =>
    have small := b.toNat_lt
    have high : (b.toNat + 256 * ofLeBytes bs) / 256 = ofLeBytes bs := by omega
    have low : UInt8.ofNat (b.toNat + 256 * ofLeBytes bs) = b := by
      apply UInt8.toNat_inj.mp
      rw [UInt8.toNat_ofNat']
      omega
    rw [ofLeBytes, List.length_cons, leBytes, high, ih, low]

/-- The same at a length that is given. -/
theorem leBytes_ofLeBytes_of_length {k : ℕ} {bs : List UInt8} (length : bs.length = k) :
    leBytes k (ofLeBytes bs) = bs := by
  rw [← length, leBytes_ofLeBytes]

theorem ofLeBytes_zeroes (k : ℕ) : ofLeBytes (List.replicate k 0) = 0 := by
  induction k with
  | zero => rfl
  | succ k ih =>
    rw [List.replicate_succ, ofLeBytes, ih]
    rfl

/-- Zeroes at the high end stand for nothing. -/
theorem ofLeBytes_append_zeroes (bs : List UInt8) (k : ℕ) :
    ofLeBytes (bs ++ List.replicate k 0) = ofLeBytes bs := by
  induction bs with
  | nil => exact ofLeBytes_zeroes k
  | cons b bs ih => rw [List.cons_append, ofLeBytes, ih, ofLeBytes]

end Bytes
