/-
**Proof contexts over the curve group, and their composition.**

The contexts of `Token2022.Confidential.Proof` at the level at which the program compares them: keys,
commitments and handles are points of a group, and what a verified proof states is a property of a
context rather than a part of it. The compositions compute expected commitments from the points of
other contexts and compare points with points.

* the contexts, with the statement of their proof as `Holds`.
* `Ristretto.multiply`, `combineLoHiPedersenPoints`, `verifyDeltaCommitment` — arithmetic on points.
* `Ristretto.WithdrawProofContext.verifyAndExtract`, `Ristretto.TransferProofContext.verifyAndExtract`,
  … — the five compositions.
-/

import Mathlib.Data.Fin.VecNotation
import Token2022.Confidential.Proof
import Token2022.Lib.Pedersen

namespace Token2022.Ristretto

open Fallible Pedersen

variable {M : Type} [AddCommGroup M] [Module Scalar M]

/-! ### Contexts of single proofs -/

/-- `CiphertextCommitmentEqualityProofContext`. -/
structure CiphertextCommitmentEqualityProofContext (M : Type) where
  pubkey : M
  ciphertext : Ciphertext M
  commitment : M
  deriving DecidableEq

/-- The prover knows the secret of the key, and the ciphertext decrypts to what the commitment opens
to. -/
def CiphertextCommitmentEqualityProofContext.Holds (B : Bases M)
    (context : CiphertextCommitmentEqualityProofContext M) : Prop :=
  ∃ secret value opening : Scalar, secret • context.pubkey = B.H ∧
    context.ciphertext.commitment - secret • context.ciphertext.handle = value • B.G ∧
    context.commitment = B.commit value opening

/-- `BatchedGroupedCiphertext2HandlesValidityProofContext`. -/
structure BatchedGroupedCiphertext2HandlesValidityProofContext (M : Type) where
  firstPubkey : M
  secondPubkey : M
  groupedCiphertextLo : Grouped M 2
  groupedCiphertextHi : Grouped M 2
  deriving DecidableEq

/-- Both grouped ciphertexts are encryptions under the two keys. -/
def BatchedGroupedCiphertext2HandlesValidityProofContext.Holds (B : Bases M)
    (context : BatchedGroupedCiphertext2HandlesValidityProofContext M) : Prop :=
  (∃ value : Scalar, B.Encrypts ![context.firstPubkey, context.secondPubkey]
    context.groupedCiphertextLo value) ∧
  ∃ value : Scalar, B.Encrypts ![context.firstPubkey, context.secondPubkey]
    context.groupedCiphertextHi value

/-- `BatchedGroupedCiphertext3HandlesValidityProofContext`. -/
structure BatchedGroupedCiphertext3HandlesValidityProofContext (M : Type) where
  firstPubkey : M
  secondPubkey : M
  thirdPubkey : M
  groupedCiphertextLo : Grouped M 3
  groupedCiphertextHi : Grouped M 3
  deriving DecidableEq

/-- Both grouped ciphertexts are encryptions under the three keys. -/
def BatchedGroupedCiphertext3HandlesValidityProofContext.Holds (B : Bases M)
    (context : BatchedGroupedCiphertext3HandlesValidityProofContext M) : Prop :=
  (∃ value : Scalar, B.Encrypts ![context.firstPubkey, context.secondPubkey, context.thirdPubkey]
    context.groupedCiphertextLo value) ∧
  ∃ value : Scalar, B.Encrypts ![context.firstPubkey, context.secondPubkey, context.thirdPubkey]
    context.groupedCiphertextHi value

/-- `BatchedRangeProofContext`. -/
structure BatchedRangeProofContext (M : Type) where
  commitments : Fin 8 → M
  bitLengths : Fin 8 → ℕ
  deriving DecidableEq

/-- Each commitment opens to a number of its bit length. -/
def BatchedRangeProofContext.Holds (B : Bases M) (context : BatchedRangeProofContext M) : Prop :=
  ∀ i, ∃ value : ℕ, value < 2 ^ context.bitLengths i ∧
    B.Opens (context.commitments i) (value : Scalar)

/-- `PercentageWithCapProofContext`. -/
structure PercentageWithCapProofContext (M : Type) where
  percentageCommitment : M
  deltaCommitment : M
  claimedCommitment : M
  maxValue : ℕ
  deriving DecidableEq

/-- The percentage is the maximum, or the delta is the claimed one. -/
def PercentageWithCapProofContext.Holds (B : Bases M) (context : PercentageWithCapProofContext M) :
    Prop :=
  B.Opens context.percentageCommitment (context.maxValue : Scalar) ∨
    ∃ value : Scalar, B.Opens context.deltaCommitment value ∧
      B.Opens context.claimedCommitment value

/-! ### Arithmetic on points -/

/-- `multiply_ristretto`. On the encodings of points no operation fails. -/
def multiply (scalar : Scalar) (point : M) : Option M := some (scalar • point)

/-- `add_ristretto`. -/
def add (left right : M) : Option M := some (left + right)

/-- `subtract_ristretto`. -/
def subtract (left right : M) : Option M := some (left - right)

/-- `u64_to_scalar`, `u16_to_scalar`. -/
def toScalar (amount : ℕ) : Scalar := amount

/-- `combine_lo_hi_pedersen_points`. -/
def combineLoHiPedersenPoints (pointLo pointHi : M) : Option M := do
  let scaledPointHi ← multiply (toScalar 65536) pointHi
  add pointLo scaledPointHi

/-! ### Composition -/

/-- `WithdrawProofContext`. -/
structure WithdrawProofContext (M : Type) where
  sourcePubkey : M
  remainingBalanceCiphertext : Ciphertext M
  deriving DecidableEq

/-- `TransferPubkeys`. -/
structure TransferPubkeys (M : Type) where
  source : M
  destination : M
  auditor : M
  deriving DecidableEq

/-- `TransferProofContext`. -/
structure TransferProofContext (M : Type) where
  ciphertextLo : Grouped M 3
  ciphertextHi : Grouped M 3
  transferPubkeys : TransferPubkeys M
  newSourceCiphertext : Ciphertext M
  deriving DecidableEq

/-- `TransferWithFeePubkeys`. -/
structure TransferWithFeePubkeys (M : Type) where
  source : M
  destination : M
  auditor : M
  withdrawWithheldAuthority : M
  deriving DecidableEq

/-- `TransferWithFeeProofContext`. -/
structure TransferWithFeeProofContext (M : Type) where
  ciphertextLo : Grouped M 3
  ciphertextHi : Grouped M 3
  transferWithFeePubkeys : TransferWithFeePubkeys M
  newSourceCiphertext : Ciphertext M
  feeCiphertextLo : Grouped M 2
  feeCiphertextHi : Grouped M 2
  deriving DecidableEq

/-- `MintPubkeys`. -/
structure MintPubkeys (M : Type) where
  destination : M
  supply : M
  auditor : M
  deriving DecidableEq

/-- `MintProofContext`. -/
structure MintProofContext (M : Type) where
  mintAmountCiphertextLo : Grouped M 3
  mintAmountCiphertextHi : Grouped M 3
  mintPubkeys : MintPubkeys M
  newSupplyCiphertext : Ciphertext M
  deriving DecidableEq

/-- `BurnPubkeys`. -/
structure BurnPubkeys (M : Type) where
  source : M
  supply : M
  auditor : M
  deriving DecidableEq

/-- `BurnProofContext`. -/
structure BurnProofContext (M : Type) where
  burnAmountCiphertextLo : Grouped M 3
  burnAmountCiphertextHi : Grouped M 3
  burnPubkeys : BurnPubkeys M
  remainingBalanceCiphertext : Ciphertext M
  deriving DecidableEq

/-- What the compositions return. -/
abbrev ExtractionResult (α : Type) := Except TokenProofExtractionError α

variable [DecidableEq M]

/-- `WithdrawProofContext::verify_and_extract`. Only the first entry of the range proof counts. -/
def WithdrawProofContext.verifyAndExtract (equality : CiphertextCommitmentEqualityProofContext M)
    (range : BatchedRangeProofContext M) : ExtractionResult (WithdrawProofContext M) := do
  require (firstEntry range.commitments = equality.commitment) .pedersenCommitmentMismatch
  require (firstEntry range.bitLengths = 64) .rangeProofLengthMismatch
  .ok ⟨equality.pubkey, equality.ciphertext⟩

/-- `TransferProofContext::verify_and_extract`. The padding entry's commitment is free. -/
def TransferProofContext.verifyAndExtract (equality : CiphertextCommitmentEqualityProofContext M)
    (validity : BatchedGroupedCiphertext3HandlesValidityProofContext M)
    (range : BatchedRangeProofContext M) : ExtractionResult (TransferProofContext M) := do
  require (equality.pubkey = validity.firstPubkey) .elGamalPubkeyMismatch
  require (startsWith range.commitments [equality.commitment,
    validity.groupedCiphertextLo.commitment, validity.groupedCiphertextHi.commitment])
    .pedersenCommitmentMismatch
  require (startsWith range.bitLengths [64, 16, 32, 16]) .rangeProofLengthMismatch
  .ok {
    ciphertextLo := validity.groupedCiphertextLo
    ciphertextHi := validity.groupedCiphertextHi
    transferPubkeys := ⟨equality.pubkey, validity.secondPubkey, validity.thirdPubkey⟩
    newSourceCiphertext := equality.ciphertext }

/-- `verify_delta_commitment`. -/
def verifyDeltaCommitment (transferAmountLo transferAmountHi feeCommitment deltaCommitment : M)
    (transferFeeBasisPoints : ℕ) : ExtractionResult Unit := do
  let transferAmountPoint ← okOr (combineLoHiPedersenPoints transferAmountLo transferAmountHi)
    .curveArithmetic
  let scaledTransferAmountPoint ← okOr
    (multiply (toScalar transferFeeBasisPoints) transferAmountPoint) .curveArithmetic
  let scaledFeePoint ← okOr (multiply (toScalar 10000) feeCommitment) .curveArithmetic
  let expectedDeltaCommitmentPoint ← okOr (subtract scaledFeePoint scaledTransferAmountPoint)
    .curveArithmetic
  require (expectedDeltaCommitmentPoint = deltaCommitment) .curveArithmetic

/-- `TransferWithFeeProofContext::verify_and_extract`. -/
def TransferWithFeeProofContext.verifyAndExtract (B : Bases M)
    (equality : CiphertextCommitmentEqualityProofContext M)
    (amountValidity : BatchedGroupedCiphertext3HandlesValidityProofContext M)
    (feeSigma : PercentageWithCapProofContext M)
    (feeValidity : BatchedGroupedCiphertext2HandlesValidityProofContext M)
    (range : BatchedRangeProofContext M) (expectedFeeRateBasisPoints expectedMaximumFee : ℕ) :
    ExtractionResult (TransferWithFeeProofContext M) := do
  require (expectedMaximumFee = feeSigma.maxValue) .feeParametersMismatch
  require (amountValidity.secondPubkey = feeValidity.firstPubkey) .elGamalPubkeyMismatch
  let amountLo := amountValidity.groupedCiphertextLo.commitment
  let amountHi := amountValidity.groupedCiphertextHi.commitment
  let feeLo := feeValidity.groupedCiphertextLo.commitment
  let feeHi := feeValidity.groupedCiphertextHi.commitment
  let maxFeeBasisPointsSubOneCommitment ← okOr (multiply (toScalar 9999) B.G) .curveArithmetic
  let claimedComplementCommitment ← okOr
    (subtract maxFeeBasisPointsSubOneCommitment feeSigma.claimedCommitment) .curveArithmetic
  let transferAmountPoint ← okOr (combineLoHiPedersenPoints amountLo amountHi) .curveArithmetic
  let netTransferCommitmentPoint ← okOr
    (subtract transferAmountPoint feeSigma.percentageCommitment) .curveArithmetic
  require (startsWith range.commitments [equality.commitment, amountLo, amountHi,
    feeSigma.claimedCommitment, claimedComplementCommitment, feeLo, feeHi,
    netTransferCommitmentPoint]) .pedersenCommitmentMismatch
  require (startsWith range.bitLengths [64, 16, 32, 16, 16, 16, 32, 64]) .rangeProofLengthMismatch
  let validityProofFeePoint ← okOr (combineLoHiPedersenPoints feeLo feeHi) .curveArithmetic
  require (equality.pubkey = amountValidity.firstPubkey) .elGamalPubkeyMismatch
  require (validityProofFeePoint = feeSigma.percentageCommitment) .feeParametersMismatch
  verifyDeltaCommitment amountLo amountHi feeSigma.percentageCommitment feeSigma.deltaCommitment
    expectedFeeRateBasisPoints
  .ok {
    ciphertextLo := amountValidity.groupedCiphertextLo
    ciphertextHi := amountValidity.groupedCiphertextHi
    transferWithFeePubkeys := ⟨equality.pubkey, amountValidity.secondPubkey,
      amountValidity.thirdPubkey, feeValidity.secondPubkey⟩
    newSourceCiphertext := equality.ciphertext
    feeCiphertextLo := feeValidity.groupedCiphertextLo
    feeCiphertextHi := feeValidity.groupedCiphertextHi }

/-- `MintProofContext::verify_and_extract`. The supply key is the second of the validity proof. -/
def MintProofContext.verifyAndExtract (equality : CiphertextCommitmentEqualityProofContext M)
    (validity : BatchedGroupedCiphertext3HandlesValidityProofContext M)
    (range : BatchedRangeProofContext M) : ExtractionResult (MintProofContext M) := do
  require (equality.pubkey = validity.secondPubkey) .elGamalPubkeyMismatch
  require (startsWith range.commitments [equality.commitment,
    validity.groupedCiphertextLo.commitment, validity.groupedCiphertextHi.commitment])
    .pedersenCommitmentMismatch
  require (startsWith range.bitLengths [64, 16, 32, 16]) .rangeProofLengthMismatch
  .ok {
    mintAmountCiphertextLo := validity.groupedCiphertextLo
    mintAmountCiphertextHi := validity.groupedCiphertextHi
    mintPubkeys := ⟨validity.firstPubkey, equality.pubkey, validity.thirdPubkey⟩
    newSupplyCiphertext := equality.ciphertext }

/-- `BurnProofContext::verify_and_extract`. -/
def BurnProofContext.verifyAndExtract (equality : CiphertextCommitmentEqualityProofContext M)
    (validity : BatchedGroupedCiphertext3HandlesValidityProofContext M)
    (range : BatchedRangeProofContext M) : ExtractionResult (BurnProofContext M) := do
  require (equality.pubkey = validity.firstPubkey) .elGamalPubkeyMismatch
  require (startsWith range.commitments [equality.commitment,
    validity.groupedCiphertextLo.commitment, validity.groupedCiphertextHi.commitment])
    .pedersenCommitmentMismatch
  require (startsWith range.bitLengths [64, 16, 32, 16]) .rangeProofLengthMismatch
  .ok {
    burnAmountCiphertextLo := validity.groupedCiphertextLo
    burnAmountCiphertextHi := validity.groupedCiphertextHi
    burnPubkeys := ⟨equality.pubkey, validity.secondPubkey, validity.thirdPubkey⟩
    remainingBalanceCiphertext := equality.ciphertext }

/-! ### What a composition checked -/

omit [DecidableEq M] in
@[simp] theorem combineLoHiPedersenPoints_eq (lo hi : M) :
    combineLoHiPedersenPoints lo hi = some (lo + (65536 : Scalar) • hi) := by
  simp only [combineLoHiPedersenPoints, multiply, add, toScalar, Option.bind_eq_bind,
    Option.bind_some]
  norm_num

/-- The delta is ten thousand times the fee less the scaled amount. -/
theorem verifyDeltaCommitment_eq_ok_iff {lo hi fee delta : M} {bps : ℕ} {u : Unit} :
    verifyDeltaCommitment lo hi fee delta bps = .ok u ↔
      delta = (10000 : Scalar) • fee - (bps : Scalar) • (lo + (65536 : Scalar) • hi) := by
  simp only [verifyDeltaCommitment, combineLoHiPedersenPoints_eq, multiply, subtract, toScalar,
    okOr_bind_eq_ok_iff, Option.some.injEq, exists_eq_left', require_eq_ok_iff]
  norm_num
  exact eq_comm

omit [AddCommGroup M] [Module Scalar M] in
theorem WithdrawProofContext.verifyAndExtract_eq_ok_iff
    {equality : CiphertextCommitmentEqualityProofContext M} {range : BatchedRangeProofContext M}
    {context : WithdrawProofContext M} :
    verifyAndExtract equality range = .ok context ↔
      range.commitments 0 = equality.commitment ∧ range.bitLengths 0 = 64 ∧
        context = ⟨equality.pubkey, equality.ciphertext⟩ := by
  simp only [verifyAndExtract, require_bind_eq_ok_iff, Except.ok.injEq]
  rw [eq_comm (a := context), firstEntry, firstEntry]

end Token2022.Ristretto
