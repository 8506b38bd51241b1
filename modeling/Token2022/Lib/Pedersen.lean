/-
**Pedersen commitments and twisted ElGamal encryption.**

A commitment to `x` with opening `r` is `x • G + r • H`. An encryption of `x` under a public key is a
commitment to it together with a decryption handle, the opening times the key; a key belongs to the
secret `s` with `s • key = H`, which takes the handle back to the blinding part of the commitment.
Many keys may share one commitment, with a handle each.

Binding is taken in its perfect form, that a point has one opening at most: the ideal of the
assumption that no party finds two.

* `Bases`, `commit`, `Binding`, `Opens` — commitments.
* `Ciphertext`, `DecryptsTo`, `Grouped`, `Encrypts` — encryptions.
* **`Opens.unique`** — a commitment opens to one value; `Opens.add`, `Opens.sub`, `Opens.smul` — and
  the values compute as the commitments do.
* **`Encrypts.decryptsTo`** — every handle decrypts to the committed value; `DecryptsTo.add`,
  `DecryptsTo.sub`, `DecryptsTo.smul` — and the plaintexts compute as the ciphertexts do.
* `decryptsTo_smul_G`, `decryptsTo_H` — a value without a blinding part, and one of zero only.
-/

import Mathlib.Algebra.Module.Basic
import Mathlib.Algebra.Module.Prod
import Mathlib.Tactic.Module

namespace Pedersen

/-- The bases of a commitment: `G` carries the value, `H` the opening. -/
structure Bases (M : Type) where
  G : M
  H : M

/-- A commitment and a decryption handle of one key. -/
structure Ciphertext (M : Type) where
  commitment : M
  handle : M
  deriving DecidableEq

/-- A commitment and the decryption handles of `n` keys. -/
structure Grouped (M : Type) (n : ℕ) where
  commitment : M
  handles : Fin n → M
  deriving DecidableEq

/-- The encryption under one of the keys. -/
def Grouped.toCiphertext {M : Type} {n : ℕ} (g : Grouped M n) (i : Fin n) : Ciphertext M :=
  ⟨g.commitment, g.handles i⟩

section

variable {R M : Type} [CommRing R] [AddCommGroup M] [Module R M]

namespace Ciphertext

instance : Add (Ciphertext M) := ⟨fun c d => ⟨c.commitment + d.commitment, c.handle + d.handle⟩⟩

instance : Sub (Ciphertext M) := ⟨fun c d => ⟨c.commitment - d.commitment, c.handle - d.handle⟩⟩

instance : SMul R (Ciphertext M) := ⟨fun k c => ⟨k • c.commitment, k • c.handle⟩⟩

instance : Zero (Ciphertext M) := ⟨⟨0, 0⟩⟩

theorem plus_zero (c : Ciphertext M) : c + 0 = c :=
  congrArg₂ mk (add_zero c.commitment) (add_zero c.handle)

theorem zero_plus (c : Ciphertext M) : 0 + c = c :=
  congrArg₂ mk (zero_add c.commitment) (zero_add c.handle)

theorem plus_minus_cancel (c d : Ciphertext M) : c + d - d = c :=
  congrArg₂ mk (add_sub_cancel_right c.commitment d.commitment)
    (add_sub_cancel_right c.handle d.handle)

end Ciphertext

variable (B : Bases M)

/-- The commitment to a value with an opening. -/
def Bases.commit (value opening : R) : M := value • B.G + opening • B.H

/-- The encryption of a value under several keys, with one opening. -/
def Bases.encryptWith {n : ℕ} (keys : Fin n → M) (value opening : R) : Grouped M n :=
  ⟨B.commit value opening, fun i => opening • keys i⟩

/-! ### Commitments -/

/-- Different openings make different commitments. -/
def Bases.Binding (R : Type) [CommRing R] [Module R M] (B : Bases M) : Prop :=
  ∀ ⦃x y r s : R⦄, B.commit x r = B.commit y s → x = y ∧ r = s

/-- A point commits to a value. -/
def Bases.Opens (point : M) (value : R) : Prop := ∃ opening : R, point = B.commit value opening

variable {B} {P Q : M} {x y r s : R}

theorem Bases.commit_add : B.commit x r + B.commit y s = B.commit (x + y) (r + s) := by
  unfold Bases.commit
  module

theorem Bases.commit_sub : B.commit x r - B.commit y s = B.commit (x - y) (r - s) := by
  unfold Bases.commit
  module

theorem Bases.smul_commit (k : R) : k • B.commit x r = B.commit (k * x) (k * r) := by
  unfold Bases.commit
  module

theorem Bases.commit_zero_right : B.commit x (0 : R) = x • B.G := by
  unfold Bases.commit
  module

/-- **A commitment opens to one value.** -/
theorem Bases.Opens.unique (binding : B.Binding R) (left : B.Opens P x) (right : B.Opens P y) :
    x = y := by
  obtain ⟨r, rfl⟩ := left
  obtain ⟨s, same⟩ := right
  exact (binding same).1

theorem Bases.opens_smul_G (x : R) : B.Opens (x • B.G) x := ⟨0, Bases.commit_zero_right.symm⟩

theorem Bases.Opens.add (left : B.Opens P x) (right : B.Opens Q y) : B.Opens (P + Q) (x + y) := by
  obtain ⟨r, rfl⟩ := left
  obtain ⟨s, rfl⟩ := right
  exact ⟨r + s, Bases.commit_add⟩

theorem Bases.Opens.sub (left : B.Opens P x) (right : B.Opens Q y) : B.Opens (P - Q) (x - y) := by
  obtain ⟨r, rfl⟩ := left
  obtain ⟨s, rfl⟩ := right
  exact ⟨r - s, Bases.commit_sub⟩

theorem Bases.Opens.smul (k : R) (opens : B.Opens P x) : B.Opens (k • P) (k * x) := by
  obtain ⟨r, rfl⟩ := opens
  exact ⟨k * r, Bases.smul_commit k⟩

/-! ### Encryptions -/

variable (B)

/-- The key has a secret, and every secret of it decrypts the ciphertext to the value. -/
def Bases.DecryptsTo (key : M) (c : Ciphertext M) (value : R) : Prop :=
  (∃ secret : R, secret • key = B.H) ∧
    ∀ secret : R, secret • key = B.H → c.commitment - secret • c.handle = value • B.G

/-- The commitment and its handles belong to one value and one opening. -/
def Bases.Encrypts {n : ℕ} (keys : Fin n → M) (g : Grouped M n) (value : R) : Prop :=
  ∃ opening : R, g = B.encryptWith keys value opening

variable {B}

/-- **A key has one secret.** -/
theorem Bases.Binding.secret_unique (binding : B.Binding R) {key : M} {s t : R}
    (left : s • key = B.H) (right : t • key = B.H) : s = t := by
  -- The difference of the secrets annihilates the key, hence `H`.
  have annihilates : (s - t) • key = 0 := by
    rw [sub_smul, left, right, sub_self]
  have zero : (s - t) • B.H = 0 := by
    rw [← left, smul_comm, annihilates, smul_zero]
  have same : B.commit (0 : R) (s - t) = B.commit (0 : R) (0 : R) := by
    unfold Bases.commit
    rw [zero, zero_smul, zero_smul]
  exact sub_eq_zero.mp (binding same).2

/-- One secret that decrypts the ciphertext speaks for all. -/
theorem Bases.Binding.decryptsTo (binding : B.Binding R) {key : M} {c : Ciphertext M} {secret : R}
    (owns : secret • key = B.H) (decrypts : c.commitment - secret • c.handle = x • B.G) :
    B.DecryptsTo key c x := by
  refine ⟨⟨secret, owns⟩, fun other owns' => ?_⟩
  rw [binding.secret_unique owns' owns]
  exact decrypts

/-- A ciphertext decrypts to one value. -/
theorem Bases.DecryptsTo.unique (binding : B.Binding R) {key : M} {c : Ciphertext M}
    (left : B.DecryptsTo key c x) (right : B.DecryptsTo key c y) : x = y := by
  obtain ⟨⟨secret, owns⟩, decrypts⟩ := left
  have same := (decrypts secret owns).symm.trans (right.2 secret owns)
  rw [← Bases.commit_zero_right, ← Bases.commit_zero_right] at same
  exact (binding same).1

theorem Bases.Encrypts.opens {n : ℕ} {keys : Fin n → M} {g : Grouped M n}
    (encrypts : B.Encrypts keys g x) : B.Opens g.commitment x := by
  obtain ⟨opening, rfl⟩ := encrypts
  exact ⟨opening, rfl⟩

/-- **Every handle decrypts to the committed value**, for a key that has a secret. -/
theorem Bases.Encrypts.decryptsTo {n : ℕ} {keys : Fin n → M} {g : Grouped M n}
    (encrypts : B.Encrypts keys g x) (i : Fin n) {secret : R} (owns : secret • keys i = B.H) :
    B.DecryptsTo (keys i) (g.toCiphertext i) x := by
  obtain ⟨opening, rfl⟩ := encrypts
  refine ⟨⟨secret, owns⟩, fun other owns' => ?_⟩
  show x • B.G + opening • B.H - other • opening • keys i = x • B.G
  rw [smul_comm, owns', add_sub_cancel_right]

theorem Bases.DecryptsTo.add {key : M} {c d : Ciphertext M} (left : B.DecryptsTo key c x)
    (right : B.DecryptsTo key d y) : B.DecryptsTo key (c + d) (x + y) := by
  refine ⟨left.1, fun secret owns => ?_⟩
  have sum := congrArg₂ (· + ·) (left.2 secret owns) (right.2 secret owns)
  calc (c.commitment + d.commitment) - secret • (c.handle + d.handle)
      = (c.commitment - secret • c.handle) + (d.commitment - secret • d.handle) := by module
    _ = x • B.G + y • B.G := sum
    _ = (x + y) • B.G := (add_smul x y B.G).symm

theorem Bases.DecryptsTo.sub {key : M} {c d : Ciphertext M} (left : B.DecryptsTo key c x)
    (right : B.DecryptsTo key d y) : B.DecryptsTo key (c - d) (x - y) := by
  refine ⟨left.1, fun secret owns => ?_⟩
  have difference := congrArg₂ (· - ·) (left.2 secret owns) (right.2 secret owns)
  calc (c.commitment - d.commitment) - secret • (c.handle - d.handle)
      = (c.commitment - secret • c.handle) - (d.commitment - secret • d.handle) := by module
    _ = x • B.G - y • B.G := difference
    _ = (x - y) • B.G := (sub_smul x y B.G).symm

theorem Bases.DecryptsTo.smul (k : R) {key : M} {c : Ciphertext M} (decrypts : B.DecryptsTo key c x) :
    B.DecryptsTo key (k • c) (k * x) := by
  refine ⟨decrypts.1, fun secret owns => ?_⟩
  calc k • c.commitment - secret • k • c.handle
      = k • (c.commitment - secret • c.handle) := by module
    _ = k • x • B.G := by rw [decrypts.2 secret owns]
    _ = (k * x) • B.G := smul_smul k x B.G

/-- A value without a blinding part, under any key that has a secret. -/
theorem Bases.decryptsTo_smul_G (x : R) {key : M} {secret : R} (owns : secret • key = B.H) :
    B.DecryptsTo key ⟨x • B.G, 0⟩ x := by
  refine ⟨⟨secret, owns⟩, fun other _ => ?_⟩
  show x • B.G - other • (0 : M) = x • B.G
  rw [smul_zero, sub_zero]

variable (R) in
/-- The second base with the key as its handle: an encryption of zero, with opening one. -/
theorem Bases.decryptsTo_H {key : M} {secret : R} (owns : secret • key = B.H) :
    B.DecryptsTo key ⟨B.H, key⟩ (0 : R) := by
  refine ⟨⟨secret, owns⟩, fun other owns' => ?_⟩
  show B.H - other • key = (0 : R) • B.G
  rw [owns', sub_self, zero_smul]

/-! ### The free group on two bases -/

/-- The bases of the free module of rank two. -/
def Bases.free (R : Type) [CommRing R] : Bases (R × R) := ⟨(1, 0), (0, 1)⟩

theorem Bases.free_binding (R : Type) [CommRing R] : (Bases.free R).Binding R := by
  intro x y r s same
  simpa [Bases.free, Bases.commit] using same

end

end Pedersen
