/-
**Arithmetic on ciphertexts, on the encodings of their points.**

A ciphertext is stored as the encodings of two points. The curve library decodes points, computes,
and encodes the result; it refuses what is not the encoding of a point, or of a scalar. The program
calls it on commitments and on handles.

* `CurveLibrary`, `CurveLibrary.Faithful` — the code that is called.
* `CiphertextArithmetic.add`, …, `CiphertextArithmetic.subtractFrom` — the eight functions.
* `CiphertextArithmetic.add_eq_some_iff`, … — what each of them returns, on points.
* **`CiphertextArithmetic.addToWithOffset_iff_addTo`** — the offset changes no plaintext.
* `Homomorphic`, **`CiphertextArithmetic.homomorphic`** — plaintexts compute as ciphertexts do.
-/

import Token2022.Confidential.Group
import Token2022.Lib.Bytes

namespace Token2022.Ristretto

open Pedersen Bytes

/-! ### The code that is called -/

/-- `PodScalar`. -/
structure PodScalar where
  bytes : List UInt8
  length : bytes.length = 32

/-- The number that the bytes of a scalar stand for. -/
def PodScalar.value (scalar : PodScalar) : ℕ := ofLeBytes scalar.bytes

/-- `PodElGamalCiphertext`: the encodings of a commitment and of a handle. -/
structure PodElGamalCiphertext (P : Type) where
  commitment : P
  handle : P
  deriving DecidableEq

/-- The curve library, on encodings `P` of points `M`, and the encodings that the program knows. -/
structure CurveLibrary (M P : Type) where
  decode : P → Option M
  encode : M → P
  addRistretto : P → P → Option P
  subtractRistretto : P → P → Option P
  multiplyRistretto : PodScalar → P → Option P
  G : P
  H : P
  /-- The encoding of zeroes. -/
  zeroed : P

variable {M P : Type} [AddCommGroup M] [Module Scalar M]

/-- **The library computes on points.** A point has one encoding, which is all zeroes for the
identity; a scalar is below the order of the group. -/
structure CurveLibrary.Faithful (library : CurveLibrary M P) (B : Bases M) : Prop where
  decode_encode : ∀ a, library.decode (library.encode a) = some a
  canonical : ∀ {p a}, library.decode p = some a → library.encode a = p
  add : ∀ l r, library.addRistretto l r =
    (library.decode l).bind fun a => (library.decode r).map fun b => library.encode (a + b)
  subtract : ∀ l r, library.subtractRistretto l r =
    (library.decode l).bind fun a => (library.decode r).map fun b => library.encode (a - b)
  multiply : ∀ (s : PodScalar) p, library.multiplyRistretto s p =
    if s.value < groupOrder then
      (library.decode p).map fun a => library.encode ((s.value : Scalar) • a)
    else none
  G : library.G = library.encode B.G
  H : library.H = library.encode B.H
  zeroed : library.zeroed = library.encode 0

namespace CiphertextArithmetic

/-! ### The functions -/

variable (library : CurveLibrary M P)

/-- `SHIFT_BITS`. -/
def shiftBits : ℕ := 16

/-- `u64_to_scalar`. -/
def u64ToScalar (amount : UInt64) : PodScalar where
  bytes := leBytes 8 amount.toNat ++ List.replicate 24 0
  length := by simp

/-- `PodElGamalCiphertext::zeroed`. -/
def zeroed : PodElGamalCiphertext P := ⟨library.zeroed, library.zeroed⟩

/-- `add`. -/
def add (left right : PodElGamalCiphertext P) : Option (PodElGamalCiphertext P) := do
  let resultCommitment ← library.addRistretto left.commitment right.commitment
  let resultHandle ← library.addRistretto left.handle right.handle
  some ⟨resultCommitment, resultHandle⟩

/-- `multiply`. -/
def multiply (scalar : PodScalar) (ciphertext : PodElGamalCiphertext P) :
    Option (PodElGamalCiphertext P) := do
  let resultCommitment ← library.multiplyRistretto scalar ciphertext.commitment
  let resultHandle ← library.multiplyRistretto scalar ciphertext.handle
  some ⟨resultCommitment, resultHandle⟩

/-- `add_with_lo_hi`. -/
def addWithLoHi (left rightLo rightHi : PodElGamalCiphertext P) :
    Option (PodElGamalCiphertext P) := do
  let shiftScalar := u64ToScalar (1 <<< UInt64.ofNat shiftBits)
  let hiCommitmentShifted ← library.multiplyRistretto shiftScalar rightHi.commitment
  let rightCommitmentCombined ← library.addRistretto rightLo.commitment hiCommitmentShifted
  let hiHandleShifted ← library.multiplyRistretto shiftScalar rightHi.handle
  let rightHandleCombined ← library.addRistretto rightLo.handle hiHandleShifted
  let finalCommitment ← library.addRistretto left.commitment rightCommitmentCombined
  let finalHandle ← library.addRistretto left.handle rightHandleCombined
  some ⟨finalCommitment, finalHandle⟩

/-- `subtract`. -/
def subtract (left right : PodElGamalCiphertext P) : Option (PodElGamalCiphertext P) := do
  let resultCommitment ← library.subtractRistretto left.commitment right.commitment
  let resultHandle ← library.subtractRistretto left.handle right.handle
  some ⟨resultCommitment, resultHandle⟩

/-- `subtract_with_lo_hi`. -/
def subtractWithLoHi (left rightLo rightHi : PodElGamalCiphertext P) :
    Option (PodElGamalCiphertext P) := do
  let shiftScalar := u64ToScalar (1 <<< UInt64.ofNat shiftBits)
  let hiCommitmentShifted ← library.multiplyRistretto shiftScalar rightHi.commitment
  let rightCommitmentCombined ← library.addRistretto rightLo.commitment hiCommitmentShifted
  let hiHandleShifted ← library.multiplyRistretto shiftScalar rightHi.handle
  let rightHandleCombined ← library.addRistretto rightLo.handle hiHandleShifted
  let finalCommitment ← library.subtractRistretto left.commitment rightCommitmentCombined
  let finalHandle ← library.subtractRistretto left.handle rightHandleCombined
  some ⟨finalCommitment, finalHandle⟩

/-- `add_to`. The handle is not looked at. -/
def addTo (ciphertext : PodElGamalCiphertext P) (amount : UInt64) :
    Option (PodElGamalCiphertext P) := do
  let amountPoint ← library.multiplyRistretto (u64ToScalar amount) library.G
  let resultCommitment ← library.addRistretto ciphertext.commitment amountPoint
  some ⟨resultCommitment, ciphertext.handle⟩

/-- `add_to_with_offset`. -/
def addToWithOffset (pubkey : P) (ciphertext : PodElGamalCiphertext P) (amount : UInt64) :
    Option (PodElGamalCiphertext P) := do
  let amountPoint ← library.multiplyRistretto (u64ToScalar amount) library.G
  let amountPointWithOffset ← library.addRistretto amountPoint library.H
  let resultCommitment ← library.addRistretto ciphertext.commitment amountPointWithOffset
  let resultHandle ← library.addRistretto ciphertext.handle pubkey
  some ⟨resultCommitment, resultHandle⟩

/-- `subtract_from`. -/
def subtractFrom (ciphertext : PodElGamalCiphertext P) (amount : UInt64) :
    Option (PodElGamalCiphertext P) := do
  let amountPoint ← library.multiplyRistretto (u64ToScalar amount) library.G
  let resultCommitment ← library.subtractRistretto ciphertext.commitment amountPoint
  some ⟨resultCommitment, ciphertext.handle⟩

end CiphertextArithmetic

/-! ### On points -/

namespace CurveLibrary

/-- The points of a ciphertext. -/
def decodeCiphertext (library : CurveLibrary M P) (c : PodElGamalCiphertext P) :
    Option (Ciphertext M) :=
  (library.decode c.commitment).bind fun commitment =>
    (library.decode c.handle).map fun handle => ⟨commitment, handle⟩

/-- The encodings of two points. -/
def encodeCiphertext (library : CurveLibrary M P) (x : Ciphertext M) : PodElGamalCiphertext P :=
  ⟨library.encode x.commitment, library.encode x.handle⟩

/-- An operation of the library computes a function of points. -/
def Computes (library : CurveLibrary M P) (op : P → P → Option P) (f : M → M → M) : Prop :=
  ∀ l r, op l r =
    (library.decode l).bind fun a => (library.decode r).map fun b => library.encode (f a b)

variable {library : CurveLibrary M P} {B : Bases M} {l r p : P} {c : PodElGamalCiphertext P}
  {x : Ciphertext M} {op : P → P → Option P} {f : M → M → M}

omit [AddCommGroup M] [Module Scalar M] in
/-- What such an operation returns. -/
theorem Computes.eq_some_iff (computes : library.Computes op f) :
    op l r = some p ↔
      ∃ a b, library.decode l = some a ∧ library.decode r = some b ∧ p = library.encode (f a b) := by
  rw [computes]
  simp only [Option.bind_eq_some_iff, Option.map_eq_some_iff]
  constructor
  · rintro ⟨a, left, b, right, rfl⟩
    exact ⟨a, b, left, right, rfl⟩
  · rintro ⟨a, b, left, right, rfl⟩
    exact ⟨a, left, b, right, rfl⟩

omit [AddCommGroup M] [Module Scalar M] in
theorem decodeCiphertext_eq_some_iff :
    library.decodeCiphertext c = some x ↔
      library.decode c.commitment = some x.commitment ∧ library.decode c.handle = some x.handle := by
  simp only [decodeCiphertext, Option.bind_eq_some_iff, Option.map_eq_some_iff]
  constructor
  · rintro ⟨commitment, left, handle, right, rfl⟩
    exact ⟨left, right⟩
  · rintro ⟨left, right⟩
    exact ⟨_, left, _, right, rfl⟩

namespace Faithful

variable (faithful : library.Faithful B)

include faithful

theorem decodeCiphertext_encodeCiphertext :
    library.decodeCiphertext (library.encodeCiphertext x) = some x :=
  decodeCiphertext_eq_some_iff.mpr ⟨faithful.decode_encode _, faithful.decode_encode _⟩

/-- A ciphertext is the encoding of its points. -/
theorem encodeCiphertext_eq (decodes : library.decodeCiphertext c = some x) :
    library.encodeCiphertext x = c := by
  obtain ⟨commitment, handle⟩ := decodeCiphertext_eq_some_iff.mp decodes
  unfold encodeCiphertext
  rw [faithful.canonical commitment, faithful.canonical handle]

theorem computes_add : library.Computes library.addRistretto (· + ·) := faithful.add

theorem computes_subtract : library.Computes library.subtractRistretto (· - ·) := faithful.subtract

theorem addRistretto_eq_some_iff :
    library.addRistretto l r = some p ↔
      ∃ a b, library.decode l = some a ∧ library.decode r = some b ∧ p = library.encode (a + b) :=
  faithful.computes_add.eq_some_iff

theorem multiplyRistretto_eq_some_iff {scalar : PodScalar} :
    library.multiplyRistretto scalar l = some p ↔
      scalar.value < groupOrder ∧ ∃ a, library.decode l = some a ∧
        p = library.encode ((scalar.value : Scalar) • a) := by
  rw [faithful.multiply]
  simp only [Option.ite_none_right_eq_some, Option.map_eq_some_iff]
  constructor
  · rintro ⟨small, a, decodes, rfl⟩
    exact ⟨small, a, decodes, rfl⟩
  · rintro ⟨small, a, decodes, rfl⟩
    exact ⟨small, a, decodes, rfl⟩

end Faithful

end CurveLibrary

namespace CiphertextArithmetic

/-- The scalar of an amount is the amount. -/
theorem value_u64ToScalar (amount : UInt64) : (u64ToScalar amount).value = amount.toNat := by
  have small : amount.toNat < 256 ^ 8 := amount.toNat_lt
  rw [PodScalar.value, u64ToScalar, ofLeBytes_append_zeroes, ofLeBytes_leBytes small]

/-- `2 ^ 16`, as a scalar. -/
theorem value_shift :
    (((u64ToScalar (1 <<< UInt64.ofNat shiftBits)).value : ℕ) : Scalar) = 2 ^ 16 := by
  rw [value_u64ToScalar]
  rfl

theorem value_u64ToScalar_lt (amount : UInt64) : (u64ToScalar amount).value < groupOrder := by
  rw [value_u64ToScalar]
  exact lt_trans amount.toNat_lt u64_lt_groupOrder

section Pairs

variable {library : CurveLibrary M P} {left right result : PodElGamalCiphertext P}
  {op : P → P → Option P} {f : M → M → M}

/-- An operation on the commitments, and on the handles. -/
def onBoth (op : P → P → Option P) (left right : PodElGamalCiphertext P) :
    Option (PodElGamalCiphertext P) := do
  let resultCommitment ← op left.commitment right.commitment
  let resultHandle ← op left.handle right.handle
  some ⟨resultCommitment, resultHandle⟩

omit [AddCommGroup M] [Module Scalar M] in
/-- What an operation on both returns. -/
theorem onBoth_eq_some_iff (computes : library.Computes op f) :
    onBoth op left right = some result ↔
      ∃ x y, library.decodeCiphertext left = some x ∧ library.decodeCiphertext right = some y ∧
        result = library.encodeCiphertext
          ⟨f x.commitment y.commitment, f x.handle y.handle⟩ := by
  simp only [onBoth, Option.bind_eq_bind, Option.bind_eq_some_iff, Option.some.injEq,
    computes.eq_some_iff, CurveLibrary.decodeCiphertext_eq_some_iff]
  constructor
  · rintro ⟨_, ⟨a, b, ha, hb, rfl⟩, _, ⟨a', b', ha', hb', rfl⟩, rfl⟩
    exact ⟨⟨a, a'⟩, ⟨b, b'⟩, ⟨ha, ha'⟩, ⟨hb, hb'⟩, rfl⟩
  · rintro ⟨x, y, ⟨ha, ha'⟩, ⟨hb, hb'⟩, rfl⟩
    exact ⟨_, ⟨_, _, ha, hb, rfl⟩, _, ⟨_, _, ha', hb', rfl⟩, rfl⟩

end Pairs

variable {library : CurveLibrary M P} {B : Bases M} (faithful : library.Faithful B)
  {left right rightLo rightHi c result : PodElGamalCiphertext P} {scalar : PodScalar}
  {amount : UInt64} {pubkey : P} {op : P → P → Option P} {f : M → M → M}

include faithful

/-- What `add` returns. -/
theorem add_eq_some_iff :
    add library left right = some result ↔
      ∃ x y, library.decodeCiphertext left = some x ∧ library.decodeCiphertext right = some y ∧
        result = library.encodeCiphertext (x + y) :=
  onBoth_eq_some_iff faithful.computes_add

/-- What `subtract` returns. -/
theorem subtract_eq_some_iff :
    subtract library left right = some result ↔
      ∃ x y, library.decodeCiphertext left = some x ∧ library.decodeCiphertext right = some y ∧
        result = library.encodeCiphertext (x - y) :=
  onBoth_eq_some_iff faithful.computes_subtract

/-- What `multiply` returns. -/
theorem multiply_eq_some_iff :
    multiply library scalar c = some result ↔
      scalar.value < groupOrder ∧ ∃ x, library.decodeCiphertext c = some x ∧
        result = library.encodeCiphertext ((scalar.value : Scalar) • x) := by
  simp only [multiply, Option.bind_eq_bind, Option.bind_eq_some_iff, Option.some.injEq,
    faithful.multiplyRistretto_eq_some_iff, CurveLibrary.decodeCiphertext_eq_some_iff]
  constructor
  · rintro ⟨_, ⟨small, a, ha, rfl⟩, _, ⟨_, a', ha', rfl⟩, rfl⟩
    exact ⟨small, ⟨a, a'⟩, ⟨ha, ha'⟩, rfl⟩
  · rintro ⟨small, x, ⟨ha, ha'⟩, rfl⟩
    exact ⟨_, ⟨small, _, ha, rfl⟩, _, ⟨small, _, ha', rfl⟩, rfl⟩

/-! #### The split forms

Both combine the halves of the right ciphertext first, the commitments before the handles. -/

omit faithful in
variable (library rightLo rightHi) in
/-- The low half and the shifted high half, together. -/
def combineLoHi : Option (PodElGamalCiphertext P) := do
  let shiftScalar := u64ToScalar (1 <<< UInt64.ofNat shiftBits)
  let hiCommitmentShifted ← library.multiplyRistretto shiftScalar rightHi.commitment
  let commitment ← library.addRistretto rightLo.commitment hiCommitmentShifted
  let hiHandleShifted ← library.multiplyRistretto shiftScalar rightHi.handle
  let handle ← library.addRistretto rightLo.handle hiHandleShifted
  some ⟨commitment, handle⟩

omit faithful [AddCommGroup M] [Module Scalar M] in
theorem addWithLoHi_eq :
    addWithLoHi library left rightLo rightHi =
      (combineLoHi library rightLo rightHi).bind (onBoth library.addRistretto left) := by
  simp only [addWithLoHi, combineLoHi, onBoth, Option.bind_eq_bind, Option.bind_assoc,
    Option.bind_some]

omit faithful [AddCommGroup M] [Module Scalar M] in
theorem subtractWithLoHi_eq :
    subtractWithLoHi library left rightLo rightHi =
      (combineLoHi library rightLo rightHi).bind (onBoth library.subtractRistretto left) := by
  simp only [subtractWithLoHi, combineLoHi, onBoth, Option.bind_eq_bind, Option.bind_assoc,
    Option.bind_some]

/-- Multiplying by the shift and adding, on commitments or on handles. -/
theorem shifted_eq_some_iff {lo hi combined : P} :
    (∃ shifted, library.multiplyRistretto (u64ToScalar (1 <<< UInt64.ofNat shiftBits)) hi =
        some shifted ∧ library.addRistretto lo shifted = some combined) ↔
      ∃ a b, library.decode lo = some a ∧ library.decode hi = some b ∧
        combined = library.encode (a + (2 ^ 16 : Scalar) • b) := by
  simp only [faithful.addRistretto_eq_some_iff, faithful.multiplyRistretto_eq_some_iff, value_shift]
  constructor
  · rintro ⟨_, ⟨_, b, decodesHi, rfl⟩, a, shifted, decodesLo, decodesShifted, rfl⟩
    obtain rfl : _ = shifted :=
      Option.some.inj ((faithful.decode_encode _).symm.trans decodesShifted)
    exact ⟨a, b, decodesLo, decodesHi, rfl⟩
  · rintro ⟨a, b, decodesLo, decodesHi, rfl⟩
    exact ⟨_, ⟨value_u64ToScalar_lt _, b, decodesHi, rfl⟩, a, _, decodesLo,
      faithful.decode_encode _, rfl⟩

theorem combineLoHi_eq_some_iff :
    combineLoHi library rightLo rightHi = some result ↔
      ∃ lo hi, library.decodeCiphertext rightLo = some lo ∧
        library.decodeCiphertext rightHi = some hi ∧
        result = library.encodeCiphertext (lo + (2 ^ 16 : Scalar) • hi) := by
  have halves : combineLoHi library rightLo rightHi = some result ↔
      ∃ commitment handle, result = ⟨commitment, handle⟩ ∧
        (∃ shifted, library.multiplyRistretto (u64ToScalar (1 <<< UInt64.ofNat shiftBits))
            rightHi.commitment = some shifted ∧
          library.addRistretto rightLo.commitment shifted = some commitment) ∧
        ∃ shifted, library.multiplyRistretto (u64ToScalar (1 <<< UInt64.ofNat shiftBits))
            rightHi.handle = some shifted ∧
          library.addRistretto rightLo.handle shifted = some handle := by
    simp only [combineLoHi, Option.bind_eq_bind, Option.bind_eq_some_iff, Option.some.injEq]
    constructor
    · rintro ⟨s, hs, commitment, hc, t, ht, handle, hh, rfl⟩
      exact ⟨commitment, handle, rfl, ⟨s, hs, hc⟩, t, ht, hh⟩
    · rintro ⟨commitment, handle, rfl, ⟨s, hs, hc⟩, t, ht, hh⟩
      exact ⟨s, hs, commitment, hc, t, ht, handle, hh, rfl⟩
  rw [halves]
  simp only [shifted_eq_some_iff faithful, CurveLibrary.decodeCiphertext_eq_some_iff]
  constructor
  · rintro ⟨_, _, rfl, ⟨a, b, ha, hb, rfl⟩, a', b', ha', hb', rfl⟩
    exact ⟨⟨a, a'⟩, ⟨b, b'⟩, ⟨ha, ha'⟩, ⟨hb, hb'⟩, rfl⟩
  · rintro ⟨lo, hi, ⟨ha, ha'⟩, ⟨hb, hb'⟩, rfl⟩
    exact ⟨_, _, rfl, ⟨_, _, ha, hb, rfl⟩, _, _, ha', hb', rfl⟩

/-- What an operation on both returns, of the halves together. -/
theorem combineLoHi_onBoth_eq_some_iff (computes : library.Computes op f) :
    (combineLoHi library rightLo rightHi).bind (onBoth op left) = some result ↔
      ∃ x lo hi, library.decodeCiphertext left = some x ∧
        library.decodeCiphertext rightLo = some lo ∧ library.decodeCiphertext rightHi = some hi ∧
        result = library.encodeCiphertext
          ⟨f x.commitment (lo + (2 ^ 16 : Scalar) • hi).commitment,
            f x.handle (lo + (2 ^ 16 : Scalar) • hi).handle⟩ := by
  simp only [Option.bind_eq_some_iff, combineLoHi_eq_some_iff faithful, onBoth_eq_some_iff computes]
  constructor
  · rintro ⟨_, ⟨lo, hi, decodesLo, decodesHi, rfl⟩, x, combined, decodes, decodesCombined, rfl⟩
    obtain rfl : _ = combined :=
      Option.some.inj (faithful.decodeCiphertext_encodeCiphertext.symm.trans decodesCombined)
    exact ⟨x, lo, hi, decodes, decodesLo, decodesHi, rfl⟩
  · rintro ⟨x, lo, hi, decodes, decodesLo, decodesHi, rfl⟩
    exact ⟨_, ⟨lo, hi, decodesLo, decodesHi, rfl⟩, x, _, decodes,
      faithful.decodeCiphertext_encodeCiphertext, rfl⟩

/-- What `add_with_lo_hi` returns. -/
theorem addWithLoHi_eq_some_iff :
    addWithLoHi library left rightLo rightHi = some result ↔
      ∃ x lo hi, library.decodeCiphertext left = some x ∧
        library.decodeCiphertext rightLo = some lo ∧ library.decodeCiphertext rightHi = some hi ∧
        result = library.encodeCiphertext (x + (lo + (2 ^ 16 : Scalar) • hi)) := by
  rw [addWithLoHi_eq]
  exact combineLoHi_onBoth_eq_some_iff faithful faithful.computes_add

/-- What `subtract_with_lo_hi` returns. -/
theorem subtractWithLoHi_eq_some_iff :
    subtractWithLoHi library left rightLo rightHi = some result ↔
      ∃ x lo hi, library.decodeCiphertext left = some x ∧
        library.decodeCiphertext rightLo = some lo ∧ library.decodeCiphertext rightHi = some hi ∧
        result = library.encodeCiphertext (x - (lo + (2 ^ 16 : Scalar) • hi)) := by
  rw [subtractWithLoHi_eq]
  exact combineLoHi_onBoth_eq_some_iff faithful faithful.computes_subtract

/-! #### Constant amounts -/

/-- The point of an amount. -/
theorem amountPoint_eq :
    library.multiplyRistretto (u64ToScalar amount) library.G =
      some (library.encode ((amount.toNat : Scalar) • B.G)) := by
  rw [faithful.multiply, if_pos (value_u64ToScalar_lt amount), faithful.G, faithful.decode_encode,
    value_u64ToScalar]
  rfl

omit faithful [AddCommGroup M] [Module Scalar M] in
variable (library op c amount) in
/-- An operation on the commitment and the point of an amount. -/
def onCommitment : Option (PodElGamalCiphertext P) := do
  let amountPoint ← library.multiplyRistretto (u64ToScalar amount) library.G
  let resultCommitment ← op c.commitment amountPoint
  some ⟨resultCommitment, c.handle⟩

/-- What an operation on the commitment returns. -/
theorem onCommitment_eq_some_iff (computes : library.Computes op f) :
    onCommitment library c amount op = some result ↔
      ∃ commitment, library.decode c.commitment = some commitment ∧
        result = ⟨library.encode (f commitment ((amount.toNat : Scalar) • B.G)), c.handle⟩ := by
  simp only [onCommitment, amountPoint_eq faithful, Option.bind_eq_bind, Option.bind_some,
    Option.bind_eq_some_iff, Option.some.injEq, computes.eq_some_iff, faithful.decode_encode]
  constructor
  · rintro ⟨_, ⟨commitment, _, decodes, rfl, rfl⟩, rfl⟩
    exact ⟨commitment, decodes, rfl⟩
  · rintro ⟨commitment, decodes, rfl⟩
    exact ⟨_, ⟨commitment, _, decodes, rfl, rfl⟩, rfl⟩

/-- What `add_to` returns. -/
theorem addTo_eq_some_iff :
    addTo library c amount = some result ↔
      ∃ commitment, library.decode c.commitment = some commitment ∧
        result = ⟨library.encode (commitment + (amount.toNat : Scalar) • B.G), c.handle⟩ :=
  onCommitment_eq_some_iff faithful faithful.computes_add

/-- What `add_to_with_offset` returns: an encryption of zero with opening one comes along. -/
theorem addToWithOffset_eq_some_iff :
    addToWithOffset library pubkey c amount = some result ↔
      ∃ x key, library.decodeCiphertext c = some x ∧ library.decode pubkey = some key ∧
        result = library.encodeCiphertext
          ⟨x.commitment + ((amount.toNat : Scalar) • B.G + B.H), x.handle + key⟩ := by
  simp only [addToWithOffset, amountPoint_eq faithful, Option.bind_eq_bind, Option.bind_some,
    Option.bind_eq_some_iff, Option.some.injEq, faithful.addRistretto_eq_some_iff, faithful.H,
    faithful.decode_encode, CurveLibrary.decodeCiphertext_eq_some_iff]
  constructor
  · rintro ⟨_, ⟨_, _, rfl, rfl, rfl⟩, _, ⟨commitment, offset, decodes, decodesOffset, rfl⟩, _,
      ⟨handle, key, decodesHandle, decodesKey, rfl⟩, rfl⟩
    rw [faithful.decode_encode] at decodesOffset
    obtain rfl := Option.some.inj decodesOffset
    exact ⟨⟨commitment, handle⟩, key, ⟨decodes, decodesHandle⟩, decodesKey, rfl⟩
  · rintro ⟨x, key, ⟨decodes, decodesHandle⟩, decodesKey, rfl⟩
    exact ⟨_, ⟨_, _, rfl, rfl, rfl⟩, _, ⟨_, _, decodes, faithful.decode_encode _, rfl⟩, _,
      ⟨_, _, decodesHandle, decodesKey, rfl⟩, rfl⟩

end CiphertextArithmetic

/-! ### On plaintexts -/

/-- The ciphertext is the encoding of one that decrypts to the value. -/
def CurveLibrary.DecryptsTo (library : CurveLibrary M P) (B : Bases M) (key : M)
    (c : PodElGamalCiphertext P) (value : Scalar) : Prop :=
  ∃ x, library.decodeCiphertext c = some x ∧ B.DecryptsTo key x value

variable {library : CurveLibrary M P} {B : Bases M} {key : M} {c result : PodElGamalCiphertext P}
  {x : Ciphertext M} {value : Scalar}

/-- Decrypting what was decoded. -/
theorem CurveLibrary.DecryptsTo.of_decodes (decrypts : library.DecryptsTo B key c value)
    (decodes : library.decodeCiphertext c = some x) : B.DecryptsTo key x value := by
  obtain ⟨y, decodesY, decryptsY⟩ := decrypts
  obtain rfl := Option.some.inj (decodes.symm.trans decodesY)
  exact decryptsY

/-- Decrypting what was encoded. -/
theorem CurveLibrary.Faithful.decryptsTo_encode (faithful : library.Faithful B)
    (decrypts : B.DecryptsTo key x value) :
    library.DecryptsTo B key (library.encodeCiphertext x) value :=
  ⟨x, faithful.decodeCiphertext_encodeCiphertext, decrypts⟩

namespace CiphertextArithmetic

variable (library B) in
/-- **Plaintexts compute as ciphertexts do**, under every key that has a secret. -/
structure Homomorphic : Prop where
  zeroed : ∀ {key} {secret : Scalar}, secret • key = B.H →
    library.DecryptsTo B key (zeroed library) 0
  add : ∀ {key left right result x y}, library.DecryptsTo B key left x →
    library.DecryptsTo B key right y → add library left right = some result →
    library.DecryptsTo B key result (x + y)
  subtract : ∀ {key left right result x y}, library.DecryptsTo B key left x →
    library.DecryptsTo B key right y → subtract library left right = some result →
    library.DecryptsTo B key result (x - y)
  multiply : ∀ {key scalar c result x}, library.DecryptsTo B key c x →
    multiply library scalar c = some result →
    library.DecryptsTo B key result (scalar.value * x)
  addWithLoHi : ∀ {key left rightLo rightHi result x lo hi}, library.DecryptsTo B key left x →
    library.DecryptsTo B key rightLo lo → library.DecryptsTo B key rightHi hi →
    addWithLoHi library left rightLo rightHi = some result →
    library.DecryptsTo B key result (x + (lo + 2 ^ 16 * hi))
  subtractWithLoHi : ∀ {key left rightLo rightHi result x lo hi},
    library.DecryptsTo B key left x →
    library.DecryptsTo B key rightLo lo → library.DecryptsTo B key rightHi hi →
    subtractWithLoHi library left rightLo rightHi = some result →
    library.DecryptsTo B key result (x - (lo + 2 ^ 16 * hi))
  addTo : ∀ {key c result x} {amount : UInt64}, library.DecryptsTo B key c x →
    addTo library c amount = some result →
    library.DecryptsTo B key result (x + (amount.toNat : Scalar))
  addToWithOffset : ∀ {key pubkey c result x} {amount : UInt64},
    library.decode pubkey = some key → library.DecryptsTo B key c x →
    addToWithOffset library pubkey c amount = some result →
    library.DecryptsTo B key result (x + (amount.toNat : Scalar))
  subtractFrom : ∀ {key c result x} {amount : UInt64}, library.DecryptsTo B key c x →
    subtractFrom library c amount = some result →
    library.DecryptsTo B key result (x - (amount.toNat : Scalar))
  /-- The ciphertext of zeroes is neutral for `add`, on either side. -/
  neutral : ∀ c,
    (CiphertextArithmetic.add library c (CiphertextArithmetic.zeroed library) =
      (library.decodeCiphertext c).map fun _ => c) ∧
    CiphertextArithmetic.add library (CiphertextArithmetic.zeroed library) c =
      (library.decodeCiphertext c).map fun _ => c
  /-- `subtract` undoes `add`. -/
  undoes : ∀ {left right sum}, CiphertextArithmetic.add library left right = some sum →
    CiphertextArithmetic.subtract library sum right = some left
  /-- `add_to_with_offset` encrypts the same value as `add_to`. -/
  sameValue : ∀ {key pubkey c offset plain} {secret : Scalar} {amount : UInt64},
    library.decode pubkey = some key → secret • key = B.H →
    CiphertextArithmetic.addToWithOffset library pubkey c amount = some offset →
    CiphertextArithmetic.addTo library c amount = some plain →
    ∀ value, library.DecryptsTo B key offset value ↔ library.DecryptsTo B key plain value

section

variable (faithful : library.Faithful B)

include faithful

theorem decodeCiphertext_zeroed : library.decodeCiphertext (zeroed library) = some 0 := by
  have zero : library.decode library.zeroed = some 0 := by
    rw [faithful.zeroed, faithful.decode_encode]
  exact CurveLibrary.decodeCiphertext_eq_some_iff.mpr ⟨zero, zero⟩

/-- The ciphertext of zeroes decrypts to zero. -/
theorem zeroed_decryptsTo {secret : Scalar} (owns : secret • key = B.H) :
    library.DecryptsTo B key (zeroed library) 0 := by
  refine ⟨_, decodeCiphertext_zeroed faithful, ?_⟩
  have decrypts := Bases.decryptsTo_smul_G (0 : Scalar) owns
  rw [zero_smul] at decrypts
  exact decrypts

/-- A function that encodes what it decodes returns what it is given. -/
theorem eq_map_of_eq_some_iff {f : PodElGamalCiphertext P → Option (PodElGamalCiphertext P)}
    (returns : ∀ c result, f c = some result ↔
      ∃ x, library.decodeCiphertext c = some x ∧ result = library.encodeCiphertext x)
    (c : PodElGamalCiphertext P) : f c = (library.decodeCiphertext c).map fun _ => c := by
  apply Option.ext
  intro result
  rw [returns, Option.map_eq_some_iff]
  constructor
  · rintro ⟨x, decodes, rfl⟩
    exact ⟨x, decodes, (faithful.encodeCiphertext_eq decodes).symm⟩
  · rintro ⟨x, decodes, rfl⟩
    exact ⟨x, decodes, (faithful.encodeCiphertext_eq decodes).symm⟩

/-- The ciphertext of zeroes is neutral on the right. -/
theorem add_zeroed (c : PodElGamalCiphertext P) :
    add library c (zeroed library) = (library.decodeCiphertext c).map fun _ => c := by
  apply eq_map_of_eq_some_iff faithful (f := fun c => add library c (zeroed library))
  intro c result
  rw [add_eq_some_iff faithful]
  constructor
  · rintro ⟨x, zero, decodes, decodesZero, rfl⟩
    obtain rfl := Option.some.inj ((decodeCiphertext_zeroed faithful).symm.trans decodesZero)
    exact ⟨x, decodes, by rw [x.plus_zero]⟩
  · rintro ⟨x, decodes, rfl⟩
    exact ⟨x, 0, decodes, decodeCiphertext_zeroed faithful, by rw [x.plus_zero]⟩

/-- The ciphertext of zeroes is neutral on the left. -/
theorem zeroed_add (c : PodElGamalCiphertext P) :
    add library (zeroed library) c = (library.decodeCiphertext c).map fun _ => c := by
  apply eq_map_of_eq_some_iff faithful (f := fun c => add library (zeroed library) c)
  intro c result
  rw [add_eq_some_iff faithful]
  constructor
  · rintro ⟨zero, x, decodesZero, decodes, rfl⟩
    obtain rfl := Option.some.inj ((decodeCiphertext_zeroed faithful).symm.trans decodesZero)
    exact ⟨x, decodes, by rw [x.zero_plus]⟩
  · rintro ⟨x, decodes, rfl⟩
    exact ⟨0, x, decodeCiphertext_zeroed faithful, decodes, by rw [x.zero_plus]⟩

/-- **`subtract` undoes `add`.** -/
theorem subtract_add {left right sum : PodElGamalCiphertext P}
    (added : add library left right = some sum) : subtract library sum right = some left := by
  obtain ⟨x, y, decodesLeft, decodesRight, rfl⟩ := (add_eq_some_iff faithful).mp added
  apply (subtract_eq_some_iff faithful).mpr
  refine ⟨x + y, y, faithful.decodeCiphertext_encodeCiphertext, decodesRight, ?_⟩
  rw [Ciphertext.plus_minus_cancel, faithful.encodeCiphertext_eq decodesLeft]

variable {amount : UInt64} {pubkey : P} {secret : Scalar}

/-- What an operation on the commitment returns decrypts as its points do. -/
theorem onCommitment_decryptsTo {op : P → P → Option P} {f : M → M → M} {handle : M}
    (computes : library.Computes op f) (decodes : library.decodeCiphertext c = some x)
    (returned : onCommitment library c amount op = some result) (same : handle = x.handle)
    (decrypts : B.DecryptsTo key
      ⟨f x.commitment ((amount.toNat : Scalar) • B.G), handle⟩ value) :
    library.DecryptsTo B key result value := by
  obtain ⟨decodesCommitment, decodesHandle⟩ :=
    CurveLibrary.decodeCiphertext_eq_some_iff.mp decodes
  obtain ⟨commitment, decodesCommitment', rfl⟩ :=
    (onCommitment_eq_some_iff faithful computes).mp returned
  obtain rfl := Option.some.inj (decodesCommitment'.symm.trans decodesCommitment)
  refine ⟨_, ?_, decrypts⟩
  apply CurveLibrary.decodeCiphertext_eq_some_iff.mpr
  exact ⟨faithful.decode_encode _, same ▸ decodesHandle⟩

theorem addTo_decryptsTo (decrypts : library.DecryptsTo B key c value)
    (added : addTo library c amount = some result) :
    library.DecryptsTo B key result (value + (amount.toNat : Scalar)) := by
  obtain ⟨x, decodes, decryptsX⟩ := decrypts
  obtain ⟨secret, owns⟩ := decryptsX.1
  have sum := decryptsX.add (Bases.decryptsTo_smul_G (amount.toNat : Scalar) owns)
  exact onCommitment_decryptsTo faithful faithful.computes_add decodes added (add_zero _) sum

theorem subtractFrom_decryptsTo (decrypts : library.DecryptsTo B key c value)
    (subtracted : subtractFrom library c amount = some result) :
    library.DecryptsTo B key result (value - (amount.toNat : Scalar)) := by
  obtain ⟨x, decodes, decryptsX⟩ := decrypts
  obtain ⟨secret, owns⟩ := decryptsX.1
  have difference := decryptsX.sub (Bases.decryptsTo_smul_G (amount.toNat : Scalar) owns)
  exact onCommitment_decryptsTo faithful faithful.computes_subtract decodes subtracted (sub_zero _)
    difference

/-- **The offset changes no plaintext**: the two results differ by an encryption of zero. -/
theorem addToWithOffset_iff_addTo {offset plain : PodElGamalCiphertext P}
    (decodesKey : library.decode pubkey = some key) (owns : secret • key = B.H)
    (addedOffset : addToWithOffset library pubkey c amount = some offset)
    (added : addTo library c amount = some plain) (value : Scalar) :
    library.DecryptsTo B key offset value ↔ library.DecryptsTo B key plain value := by
  obtain ⟨x, key', decodes, decodesKey', rfl⟩ :=
    (addToWithOffset_eq_some_iff faithful).mp addedOffset
  obtain rfl := Option.some.inj (decodesKey.symm.trans decodesKey')
  obtain ⟨decodesCommitment, decodesHandle⟩ :=
    CurveLibrary.decodeCiphertext_eq_some_iff.mp decodes
  obtain ⟨commitment, decodesCommitment', rfl⟩ := (addTo_eq_some_iff faithful).mp added
  obtain rfl := Option.some.inj (decodesCommitment'.symm.trans decodesCommitment)
  -- The points of the two results.
  have decodesPlain : library.decodeCiphertext
      ⟨library.encode (x.commitment + (amount.toNat : Scalar) • B.G), c.handle⟩ =
        some ⟨x.commitment + (amount.toNat : Scalar) • B.G, x.handle⟩ :=
    CurveLibrary.decodeCiphertext_eq_some_iff.mpr ⟨faithful.decode_encode _, decodesHandle⟩
  have points : (⟨x.commitment + ((amount.toNat : Scalar) • B.G + B.H), x.handle + key⟩ :
      Ciphertext M) = ⟨x.commitment + (amount.toNat : Scalar) • B.G, x.handle⟩ + ⟨B.H, key⟩ :=
    congrArg₂ Ciphertext.mk (add_assoc _ _ _).symm rfl
  have zero := Bases.decryptsTo_H Scalar owns
  rw [points]
  constructor
  · intro decrypts
    have difference := (decrypts.of_decodes faithful.decodeCiphertext_encodeCiphertext).sub zero
    rw [Ciphertext.plus_minus_cancel, sub_zero] at difference
    exact ⟨_, decodesPlain, difference⟩
  · intro decrypts
    have sum := (decrypts.of_decodes decodesPlain).add zero
    rw [add_zero] at sum
    exact faithful.decryptsTo_encode sum

end

/-- **Ciphertext arithmetic is a homomorphism.** -/
theorem homomorphic (faithful : library.Faithful B) : Homomorphic library B where
  zeroed owns := zeroed_decryptsTo faithful owns
  add := by
    intro key left right result x y decryptsLeft decryptsRight added
    obtain ⟨a, b, decodesLeft, decodesRight, rfl⟩ := (add_eq_some_iff faithful).mp added
    apply faithful.decryptsTo_encode
    exact (decryptsLeft.of_decodes decodesLeft).add (decryptsRight.of_decodes decodesRight)
  subtract := by
    intro key left right result x y decryptsLeft decryptsRight subtracted
    obtain ⟨a, b, decodesLeft, decodesRight, rfl⟩ := (subtract_eq_some_iff faithful).mp subtracted
    apply faithful.decryptsTo_encode
    exact (decryptsLeft.of_decodes decodesLeft).sub (decryptsRight.of_decodes decodesRight)
  multiply := by
    intro key scalar c result x decrypts multiplied
    obtain ⟨-, a, decodes, rfl⟩ := (multiply_eq_some_iff faithful).mp multiplied
    apply faithful.decryptsTo_encode
    exact (decrypts.of_decodes decodes).smul (scalar.value : Scalar)
  addWithLoHi := by
    intro key left rightLo rightHi result x lo hi decryptsLeft decryptsLo decryptsHi added
    obtain ⟨a, l, h, decodesLeft, decodesLo, decodesHi, rfl⟩ :=
      (addWithLoHi_eq_some_iff faithful).mp added
    apply faithful.decryptsTo_encode
    have shifted := (decryptsHi.of_decodes decodesHi).smul (2 ^ 16 : Scalar)
    exact (decryptsLeft.of_decodes decodesLeft).add
      ((decryptsLo.of_decodes decodesLo).add shifted)
  subtractWithLoHi := by
    intro key left rightLo rightHi result x lo hi decryptsLeft decryptsLo decryptsHi subtracted
    obtain ⟨a, l, h, decodesLeft, decodesLo, decodesHi, rfl⟩ :=
      (subtractWithLoHi_eq_some_iff faithful).mp subtracted
    apply faithful.decryptsTo_encode
    have shifted := (decryptsHi.of_decodes decodesHi).smul (2 ^ 16 : Scalar)
    exact (decryptsLeft.of_decodes decodesLeft).sub
      ((decryptsLo.of_decodes decodesLo).add shifted)
  addTo := addTo_decryptsTo faithful
  addToWithOffset := by
    intro key pubkey c result x amount decodesKey decrypts added
    -- Without the offset the function returns too.
    obtain ⟨y, _, decodes, -, -⟩ := (addToWithOffset_eq_some_iff faithful).mp added
    obtain ⟨decodesCommitment, -⟩ := CurveLibrary.decodeCiphertext_eq_some_iff.mp decodes
    have plain : addTo library c amount = some _ :=
      (addTo_eq_some_iff faithful).mpr ⟨_, decodesCommitment, rfl⟩
    obtain ⟨secret, owns⟩ := (decrypts.of_decodes decodes).1
    exact (addToWithOffset_iff_addTo faithful decodesKey owns added plain _).mpr
      (addTo_decryptsTo faithful decrypts plain)
  subtractFrom := subtractFrom_decryptsTo faithful
  neutral c := ⟨add_zeroed faithful c, zeroed_add faithful c⟩
  undoes := subtract_add faithful
  sameValue decodesKey owns addedOffset added :=
    addToWithOffset_iff_addTo faithful decodesKey owns addedOffset added

end CiphertextArithmetic

/-! ### The free group on two bases, encoded as itself -/

/-- A library whose encodings are the points. -/
def CurveLibrary.free : CurveLibrary (Scalar × Scalar) (Scalar × Scalar) where
  decode p := some p
  encode a := a
  addRistretto l r := some (l + r)
  subtractRistretto l r := some (l - r)
  multiplyRistretto s p := if s.value < groupOrder then some ((s.value : Scalar) • p) else none
  G := (1, 0)
  H := (0, 1)
  zeroed := 0

theorem CurveLibrary.free_faithful : CurveLibrary.free.Faithful (Bases.free Scalar) where
  decode_encode _ := rfl
  canonical decodes := (Option.some.inj decodes).symm
  add _ _ := rfl
  subtract _ _ := rfl
  multiply _ _ := rfl
  G := rfl
  H := rfl
  zeroed := rfl

/-- With `H` itself as the key, of secret one: a value with an opening. -/
def freeCiphertext (value opening : Scalar) : PodElGamalCiphertext (Scalar × Scalar) :=
  ⟨(value, opening), (0, opening)⟩

theorem freeCiphertext_decryptsTo (value opening : Scalar) :
    CurveLibrary.free.DecryptsTo (Bases.free Scalar) (0, 1) (freeCiphertext value opening)
      value := by
  refine ⟨⟨(value, opening), (0, opening)⟩, rfl, ⟨1, one_smul Scalar _⟩, fun secret owns => ?_⟩
  have one : secret = 1 := by
    have second := congrArg Prod.snd owns
    simpa [Bases.free] using second
  rw [one]
  ext <;> simp [Bases.free]

/-- An encryption of `1` and the halves `3` and `5`. -/
theorem CiphertextArithmetic.homomorphic_free :
    ∃ result,
      CiphertextArithmetic.addWithLoHi CurveLibrary.free (freeCiphertext 1 2) (freeCiphertext 3 4)
        (freeCiphertext 5 6) = some result ∧
      CurveLibrary.free.DecryptsTo (Bases.free Scalar) (0, 1) result (1 + (3 + 2 ^ 16 * 5)) := by
  have returns : CiphertextArithmetic.addWithLoHi CurveLibrary.free (freeCiphertext 1 2)
      (freeCiphertext 3 4) (freeCiphertext 5 6) = some _ :=
    (CiphertextArithmetic.addWithLoHi_eq_some_iff CurveLibrary.free_faithful).mpr
      ⟨⟨(1, 2), (0, 2)⟩, ⟨(3, 4), (0, 4)⟩, ⟨(5, 6), (0, 6)⟩, rfl, rfl, rfl, rfl⟩
  refine ⟨_, returns, ?_⟩
  exact (CiphertextArithmetic.homomorphic CurveLibrary.free_faithful).addWithLoHi
    (freeCiphertext_decryptsTo 1 2) (freeCiphertext_decryptsTo 3 4) (freeCiphertext_decryptsTo 5 6)
    returns

end Token2022.Ristretto
