/-
**Proof contexts and their composition.**

The proof program verifies single statements about ciphertexts and commitments; a context it hands
out is one whose statement holds, and carries the fact. A confidential instruction composes several
contexts: it checks that they speak of the same keys, commitments and bit lengths, and extracts the
ciphertexts it needs.

* the contexts — `CiphertextCommitmentEqualityProofContext`, `BatchedRangeProofContext`, … — and
  `VerifiedContext`, one of any kind.
* `WithdrawProofContext`, `TransferProofContext`, `TransferWithFeeProofContext`, `MintProofContext`,
  `BurnProofContext` with their `verifyAndExtract`.
* **`WithdrawProofContext.sound`**, **`TransferProofContext.sound`**, … — what the extracted
  ciphertexts encrypt.
-/

import Mathlib.Tactic.NormNum
import Token2022.Confidential.Scalar

namespace Token2022

open Fallible

/-! ### Contexts of single proofs -/

/-- The ciphertext and the commitment hold the same value. -/
structure CiphertextCommitmentEqualityProofContext where
  pubkey : ElGamalPubkey
  ciphertext : ElGamalCiphertext
  commitment : PedersenCommitment
  holds : ciphertext = commitment
  deriving DecidableEq

/-- The two ciphertexts, under different keys, hold the same value. -/
structure CiphertextCiphertextEqualityProofContext where
  firstPubkey : ElGamalPubkey
  secondPubkey : ElGamalPubkey
  firstCiphertext : ElGamalCiphertext
  secondCiphertext : ElGamalCiphertext
  holds : firstCiphertext = secondCiphertext
  deriving DecidableEq

/-- The ciphertext holds zero. -/
structure ZeroCiphertextProofContext where
  pubkey : ElGamalPubkey
  ciphertext : ElGamalCiphertext
  holds : ciphertext = 0
  deriving DecidableEq

/-- The key is a valid public key. -/
structure PubkeyValidityProofContext where
  pubkey : ElGamalPubkey
  deriving DecidableEq

/-- A commitment with two handles, each of which decrypts it: one ciphertext for each key. -/
structure GroupedElGamalCiphertext2Handles where
  commitment : PedersenCommitment
  first : ElGamalCiphertext
  second : ElGamalCiphertext
  deriving DecidableEq

namespace GroupedElGamalCiphertext2Handles

/-- The handles decrypt to the committed value. -/
def Valid (g : GroupedElGamalCiphertext2Handles) : Prop :=
  g.first = g.commitment ∧ g.second = g.commitment

instance (g : GroupedElGamalCiphertext2Handles) : Decidable g.Valid :=
  inferInstanceAs (Decidable (_ ∧ _))

end GroupedElGamalCiphertext2Handles

/-- A commitment with three handles. -/
structure GroupedElGamalCiphertext3Handles where
  commitment : PedersenCommitment
  first : ElGamalCiphertext
  second : ElGamalCiphertext
  third : ElGamalCiphertext
  deriving DecidableEq

namespace GroupedElGamalCiphertext3Handles

/-- The handles decrypt to the committed value. -/
def Valid (g : GroupedElGamalCiphertext3Handles) : Prop :=
  g.first = g.commitment ∧ g.second = g.commitment ∧ g.third = g.commitment

instance (g : GroupedElGamalCiphertext3Handles) : Decidable g.Valid :=
  inferInstanceAs (Decidable (_ ∧ _ ∧ _))

end GroupedElGamalCiphertext3Handles

/-- A low and a high ciphertext, well formed under two keys. -/
structure BatchedGroupedCiphertext2HandlesValidityProofContext where
  firstPubkey : ElGamalPubkey
  secondPubkey : ElGamalPubkey
  groupedCiphertextLo : GroupedElGamalCiphertext2Handles
  groupedCiphertextHi : GroupedElGamalCiphertext2Handles
  holds : groupedCiphertextLo.Valid ∧ groupedCiphertextHi.Valid
  deriving DecidableEq

/-- A low and a high ciphertext, well formed under three keys. -/
structure BatchedGroupedCiphertext3HandlesValidityProofContext where
  firstPubkey : ElGamalPubkey
  secondPubkey : ElGamalPubkey
  thirdPubkey : ElGamalPubkey
  groupedCiphertextLo : GroupedElGamalCiphertext3Handles
  groupedCiphertextHi : GroupedElGamalCiphertext3Handles
  holds : groupedCiphertextLo.Valid ∧ groupedCiphertextHi.Valid
  deriving DecidableEq

/-- Each commitment opens to a number of its bit length. -/
structure BatchedRangeProofContext where
  commitments : Fin 8 → PedersenCommitment
  bitLengths : Fin 8 → ℕ
  holds : ∀ i, (commitments i).val < 2 ^ bitLengths i
  deriving DecidableEq

/-- The percentage is capped at the maximum, or the delta to it is the claimed one. -/
structure PercentageWithCapProofContext where
  percentageCommitment : PedersenCommitment
  deltaCommitment : PedersenCommitment
  claimedCommitment : PedersenCommitment
  maxValue : ℕ
  holds : percentageCommitment = maxValue ∨ deltaCommitment = claimedCommitment
  deriving DecidableEq

/-- **A context that the proof program has verified**, tagged with the kind of its proof. -/
inductive VerifiedContext
  | zeroCiphertext (context : ZeroCiphertextProofContext)
  | ciphertextCiphertextEquality (context : CiphertextCiphertextEqualityProofContext)
  | ciphertextCommitmentEquality (context : CiphertextCommitmentEqualityProofContext)
  | pubkeyValidity (context : PubkeyValidityProofContext)
  | percentageWithCap (context : PercentageWithCapProofContext)
  | batchedRangeProofU64 (context : BatchedRangeProofContext)
  | batchedRangeProofU128 (context : BatchedRangeProofContext)
  | batchedRangeProofU256 (context : BatchedRangeProofContext)
  | batchedGroupedCiphertext2HandlesValidity
      (context : BatchedGroupedCiphertext2HandlesValidityProofContext)
  | batchedGroupedCiphertext3HandlesValidity
      (context : BatchedGroupedCiphertext3HandlesValidityProofContext)
  deriving DecidableEq

namespace VerifiedContext

def asZeroCiphertext : VerifiedContext → Option ZeroCiphertextProofContext
  | .zeroCiphertext context => some context
  | _ => none

def asCiphertextCiphertextEquality :
    VerifiedContext → Option CiphertextCiphertextEqualityProofContext
  | .ciphertextCiphertextEquality context => some context
  | _ => none

def asCiphertextCommitmentEquality :
    VerifiedContext → Option CiphertextCommitmentEqualityProofContext
  | .ciphertextCommitmentEquality context => some context
  | _ => none

def asPubkeyValidity : VerifiedContext → Option PubkeyValidityProofContext
  | .pubkeyValidity context => some context
  | _ => none

def asPercentageWithCap : VerifiedContext → Option PercentageWithCapProofContext
  | .percentageWithCap context => some context
  | _ => none

def asBatchedRangeProofU64 : VerifiedContext → Option BatchedRangeProofContext
  | .batchedRangeProofU64 context => some context
  | _ => none

def asBatchedRangeProofU128 : VerifiedContext → Option BatchedRangeProofContext
  | .batchedRangeProofU128 context => some context
  | _ => none

def asBatchedRangeProofU256 : VerifiedContext → Option BatchedRangeProofContext
  | .batchedRangeProofU256 context => some context
  | _ => none

def asBatchedGroupedCiphertext2HandlesValidity :
    VerifiedContext → Option BatchedGroupedCiphertext2HandlesValidityProofContext
  | .batchedGroupedCiphertext2HandlesValidity context => some context
  | _ => none

def asBatchedGroupedCiphertext3HandlesValidity :
    VerifiedContext → Option BatchedGroupedCiphertext3HandlesValidityProofContext
  | .batchedGroupedCiphertext3HandlesValidity context => some context
  | _ => none

end VerifiedContext

/-! ### Composition -/

/-- `TokenProofExtractionError`, as the token program reports it. -/
inductive TokenProofExtractionError
  | elGamalPubkeyMismatch | pedersenCommitmentMismatch | rangeProofLengthMismatch
  | feeParametersMismatch | curveArithmetic | ciphertextExtraction
  deriving DecidableEq, Repr

/-- `From<TokenProofExtractionError> for TokenError`. -/
def TokenProofExtractionError.toTokenError : TokenProofExtractionError → TokenError
  | .elGamalPubkeyMismatch => .confidentialTransferElGamalPubkeyMismatch
  | .pedersenCommitmentMismatch => .pedersenCommitmentMismatch
  | .rangeProofLengthMismatch => .rangeProofLengthMismatch
  | .feeParametersMismatch => .feeParametersMismatch
  | .curveArithmetic => .ciphertextArithmeticFailed
  | .ciphertextExtraction => .malformedCiphertext

instance : Coe TokenProofExtractionError ProgramError := ⟨fun e => .custom e.toTokenError⟩

/-- The first of the eight entries. -/
def firstEntry {α : Type} (entries : Fin 8 → α) : α := entries 0

/-- `iter().zip(expected).all(==)`: the eight entries start with the expected ones. -/
def startsWith {α : Type} [DecidableEq α] (entries : Fin 8 → α) (expected : List α) : Bool :=
  ((List.ofFn entries).zip expected).all fun pair => pair.1 = pair.2

/-- `WithdrawProofContext`. -/
structure WithdrawProofContext where
  sourcePubkey : ElGamalPubkey
  remainingBalanceCiphertext : ElGamalCiphertext

/-- `WithdrawProofContext::verify_and_extract`. -/
def WithdrawProofContext.verifyAndExtract (equality : CiphertextCommitmentEqualityProofContext)
    (range : BatchedRangeProofContext) : ProgramResult WithdrawProofContext := do
  require (firstEntry range.commitments = equality.commitment)
    TokenProofExtractionError.pedersenCommitmentMismatch
  require (firstEntry range.bitLengths = 64) TokenProofExtractionError.rangeProofLengthMismatch
  .ok ⟨equality.pubkey, equality.ciphertext⟩

/-- `TransferPubkeys`. -/
structure TransferPubkeys where
  source : ElGamalPubkey
  destination : ElGamalPubkey
  auditor : ElGamalPubkey

/-- `TransferProofContext`. -/
structure TransferProofContext where
  ciphertextLo : GroupedElGamalCiphertext3Handles
  ciphertextHi : GroupedElGamalCiphertext3Handles
  transferPubkeys : TransferPubkeys
  newSourceCiphertext : ElGamalCiphertext

/-- `TransferProofContext::verify_and_extract`. -/
def TransferProofContext.verifyAndExtract (equality : CiphertextCommitmentEqualityProofContext)
    (validity : BatchedGroupedCiphertext3HandlesValidityProofContext)
    (range : BatchedRangeProofContext) : ProgramResult TransferProofContext := do
  require (equality.pubkey = validity.firstPubkey) TokenProofExtractionError.elGamalPubkeyMismatch
  require (startsWith range.commitments [equality.commitment,
      validity.groupedCiphertextLo.commitment, validity.groupedCiphertextHi.commitment])
    TokenProofExtractionError.pedersenCommitmentMismatch
  require (startsWith range.bitLengths [64, 16, 32, 16])
    TokenProofExtractionError.rangeProofLengthMismatch
  .ok {
    ciphertextLo := validity.groupedCiphertextLo
    ciphertextHi := validity.groupedCiphertextHi
    transferPubkeys := ⟨equality.pubkey, validity.secondPubkey, validity.thirdPubkey⟩
    newSourceCiphertext := equality.ciphertext }

/-- `TransferWithFeePubkeys`. -/
structure TransferWithFeePubkeys where
  source : ElGamalPubkey
  destination : ElGamalPubkey
  auditor : ElGamalPubkey
  withdrawWithheldAuthority : ElGamalPubkey

/-- `TransferWithFeeProofContext`. -/
structure TransferWithFeeProofContext where
  ciphertextLo : GroupedElGamalCiphertext3Handles
  ciphertextHi : GroupedElGamalCiphertext3Handles
  transferWithFeePubkeys : TransferWithFeePubkeys
  newSourceCiphertext : ElGamalCiphertext
  feeCiphertextLo : GroupedElGamalCiphertext2Handles
  feeCiphertextHi : GroupedElGamalCiphertext2Handles

/-- `verify_delta_commitment`: the delta is what the fee exceeds the exact percentage by. -/
def verifyDeltaCommitment (transferAmountLo transferAmountHi feeCommitment deltaCommitment :
    PedersenCommitment) (transferFeeBasisPoints : ℕ) : ProgramResult Unit :=
  let scaledTransferAmount := (transferFeeBasisPoints : Scalar) *
    pendingTotal transferAmountLo transferAmountHi
  let scaledFee := (10000 : Scalar) * feeCommitment
  require (scaledFee - scaledTransferAmount = deltaCommitment)
    TokenProofExtractionError.curveArithmetic

/-- `TransferWithFeeProofContext::verify_and_extract`. -/
def TransferWithFeeProofContext.verifyAndExtract
    (equality : CiphertextCommitmentEqualityProofContext)
    (amountValidity : BatchedGroupedCiphertext3HandlesValidityProofContext)
    (feeSigma : PercentageWithCapProofContext)
    (feeValidity : BatchedGroupedCiphertext2HandlesValidityProofContext)
    (range : BatchedRangeProofContext) (expectedFeeRateBasisPoints expectedMaximumFee : ℕ) :
    ProgramResult TransferWithFeeProofContext := do
  require (expectedMaximumFee = feeSigma.maxValue) TokenProofExtractionError.feeParametersMismatch
  require (amountValidity.secondPubkey = feeValidity.firstPubkey)
    TokenProofExtractionError.elGamalPubkeyMismatch
  let amountLo := amountValidity.groupedCiphertextLo.commitment
  let amountHi := amountValidity.groupedCiphertextHi.commitment
  let feeLo := feeValidity.groupedCiphertextLo.commitment
  let feeHi := feeValidity.groupedCiphertextHi.commitment
  let claimedComplement : PedersenCommitment := 9999 - feeSigma.claimedCommitment
  let netTransfer := pendingTotal amountLo amountHi - feeSigma.percentageCommitment
  require (startsWith range.commitments [equality.commitment, amountLo, amountHi,
      feeSigma.claimedCommitment, claimedComplement, feeLo, feeHi, netTransfer])
    TokenProofExtractionError.pedersenCommitmentMismatch
  require (startsWith range.bitLengths [64, 16, 32, 16, 16, 16, 32, 64])
    TokenProofExtractionError.rangeProofLengthMismatch
  require (equality.pubkey = amountValidity.firstPubkey)
    TokenProofExtractionError.elGamalPubkeyMismatch
  require (pendingTotal feeLo feeHi = feeSigma.percentageCommitment)
    TokenProofExtractionError.feeParametersMismatch
  verifyDeltaCommitment amountLo amountHi feeSigma.percentageCommitment feeSigma.deltaCommitment
    expectedFeeRateBasisPoints
  .ok {
    ciphertextLo := amountValidity.groupedCiphertextLo
    ciphertextHi := amountValidity.groupedCiphertextHi
    transferWithFeePubkeys := ⟨equality.pubkey, amountValidity.secondPubkey,
      amountValidity.thirdPubkey, feeValidity.secondPubkey⟩
    newSourceCiphertext := equality.ciphertext
    feeCiphertextLo := feeValidity.groupedCiphertextLo
    feeCiphertextHi := feeValidity.groupedCiphertextHi }

/-- `MintPubkeys`. -/
structure MintPubkeys where
  destination : ElGamalPubkey
  supply : ElGamalPubkey
  auditor : ElGamalPubkey

/-- `MintProofContext`. -/
structure MintProofContext where
  mintAmountCiphertextLo : GroupedElGamalCiphertext3Handles
  mintAmountCiphertextHi : GroupedElGamalCiphertext3Handles
  mintPubkeys : MintPubkeys
  newSupplyCiphertext : ElGamalCiphertext

/-- `MintProofContext::verify_and_extract`. -/
def MintProofContext.verifyAndExtract (equality : CiphertextCommitmentEqualityProofContext)
    (validity : BatchedGroupedCiphertext3HandlesValidityProofContext)
    (range : BatchedRangeProofContext) : ProgramResult MintProofContext := do
  require (equality.pubkey = validity.secondPubkey) TokenProofExtractionError.elGamalPubkeyMismatch
  require (startsWith range.commitments [equality.commitment,
      validity.groupedCiphertextLo.commitment, validity.groupedCiphertextHi.commitment])
    TokenProofExtractionError.pedersenCommitmentMismatch
  require (startsWith range.bitLengths [64, 16, 32, 16])
    TokenProofExtractionError.rangeProofLengthMismatch
  .ok {
    mintAmountCiphertextLo := validity.groupedCiphertextLo
    mintAmountCiphertextHi := validity.groupedCiphertextHi
    mintPubkeys := ⟨validity.firstPubkey, equality.pubkey, validity.thirdPubkey⟩
    newSupplyCiphertext := equality.ciphertext }

/-- `BurnPubkeys`. -/
structure BurnPubkeys where
  source : ElGamalPubkey
  supply : ElGamalPubkey
  auditor : ElGamalPubkey

/-- `BurnProofContext`. -/
structure BurnProofContext where
  burnAmountCiphertextLo : GroupedElGamalCiphertext3Handles
  burnAmountCiphertextHi : GroupedElGamalCiphertext3Handles
  burnPubkeys : BurnPubkeys
  remainingBalanceCiphertext : ElGamalCiphertext

/-- `BurnProofContext::verify_and_extract`. -/
def BurnProofContext.verifyAndExtract (equality : CiphertextCommitmentEqualityProofContext)
    (validity : BatchedGroupedCiphertext3HandlesValidityProofContext)
    (range : BatchedRangeProofContext) : ProgramResult BurnProofContext := do
  require (equality.pubkey = validity.firstPubkey) TokenProofExtractionError.elGamalPubkeyMismatch
  require (startsWith range.commitments [equality.commitment,
      validity.groupedCiphertextLo.commitment, validity.groupedCiphertextHi.commitment])
    TokenProofExtractionError.pedersenCommitmentMismatch
  require (startsWith range.bitLengths [64, 16, 32, 16])
    TokenProofExtractionError.rangeProofLengthMismatch
  .ok {
    burnAmountCiphertextLo := validity.groupedCiphertextLo
    burnAmountCiphertextHi := validity.groupedCiphertextHi
    burnPubkeys := ⟨equality.pubkey, validity.secondPubkey, validity.thirdPubkey⟩
    remainingBalanceCiphertext := equality.ciphertext }

/-! ### What the compositions guarantee -/

/-- Two handles decrypt to one low part below `2^16`, two to one high part below `2^32`. -/
structure SplitAmount (lo hi : Scalar) : Prop where
  lo_lt : lo.val < 2 ^ 16
  hi_lt : hi.val < 2 ^ 32

/-- **A split amount stands for an integer below `2^48`.** -/
theorem SplitAmount.val_total {lo hi : Scalar} (split : SplitAmount lo hi) :
    (pendingTotal lo hi).val = lo.val + 2 ^ 16 * hi.val ∧ (pendingTotal lo hi).val < 2 ^ 48 := by
  obtain ⟨loLt, hiLt⟩ := split
  have small : lo.val + 2 ^ 16 * hi.val < 2 ^ 48 := by omega
  have cast : pendingTotal lo hi = ((lo.val + 2 ^ 16 * hi.val : ℕ) : Scalar) := by
    unfold pendingTotal pendingBalanceLoBitLength
    push_cast
    rw [ZMod.natCast_zmod_val, ZMod.natCast_zmod_val]
    norm_num
  have val : (pendingTotal lo hi).val = lo.val + 2 ^ 16 * hi.val := by
    rw [cast, val_natCast_of_lt (small.trans (by decide))]
  exact ⟨val, val ▸ small⟩

/-- The entries of a list that the eight start with. -/
theorem startsWith_three {α : Type} [DecidableEq α] {entries : Fin 8 → α} {a b c : α}
    (starts : startsWith entries [a, b, c] = true) :
    entries 0 = a ∧ entries 1 = b ∧ entries 2 = c := by
  simpa [startsWith, List.ofFn_succ] using starts

theorem startsWith_four {α : Type} [DecidableEq α] {entries : Fin 8 → α} {a b c d : α}
    (starts : startsWith entries [a, b, c, d] = true) :
    entries 0 = a ∧ entries 1 = b ∧ entries 2 = c ∧ entries 3 = d := by
  simpa [startsWith, List.ofFn_succ] using starts

theorem startsWith_eight {α : Type} [DecidableEq α] {entries : Fin 8 → α}
    {a b c d e f g h : α} (starts : startsWith entries [a, b, c, d, e, f, g, h] = true) :
    entries 0 = a ∧ entries 1 = b ∧ entries 2 = c ∧ entries 3 = d ∧ entries 4 = e ∧
      entries 5 = f ∧ entries 6 = g ∧ entries 7 = h := by
  simpa [startsWith, List.ofFn_succ] using starts

/-- A composed amount with three handles: all of them decrypt to the same split amount. -/
structure Agrees3 (lo hi : GroupedElGamalCiphertext3Handles) : Prop where
  valid_lo : lo.Valid
  valid_hi : hi.Valid
  split : SplitAmount lo.commitment hi.commitment

/-- A commitment in a place of a range proof is in the range of that place. -/
theorem BatchedRangeProofContext.lt (range : BatchedRangeProofContext) {i : Fin 8}
    {commitment : PedersenCommitment} {bits : ℕ} (place : range.commitments i = commitment)
    (length : range.bitLengths i = bits) : commitment.val < 2 ^ bits := by
  rw [← place, ← length]
  exact range.holds i

/-- **The remaining balance of a withdrawal is a 64-bit number.** -/
theorem WithdrawProofContext.sound {equality : CiphertextCommitmentEqualityProofContext}
    {range : BatchedRangeProofContext} {context : WithdrawProofContext}
    (ok : verifyAndExtract equality range = .ok context) :
    context.remainingBalanceCiphertext.val < 2 ^ 64 := by
  simp only [verifyAndExtract, bind_eq_ok_iff, require_eq_ok_iff, exists_const] at ok
  obtain ⟨commitment, bits, same⟩ := ok
  obtain rfl := Except.ok.inj same
  show equality.ciphertext.val < 2 ^ 64
  rw [equality.holds]
  exact range.lt commitment bits

/-- What the three range checks that transfer, mint and burn share say. -/
theorem range_sound {range : BatchedRangeProofContext} {balance lo hi : PedersenCommitment}
    (commitments : startsWith range.commitments [balance, lo, hi] = true)
    (bits : startsWith range.bitLengths [64, 16, 32, 16] = true) :
    balance.val < 2 ^ 64 ∧ SplitAmount lo hi := by
  obtain ⟨c0, c1, c2⟩ := startsWith_three commitments
  obtain ⟨b0, b1, b2, -⟩ := startsWith_four bits
  exact ⟨range.lt c0 b0, range.lt c1 b1, range.lt c2 b2⟩

/-- What these checks say with the two other proofs: a 64-bit balance, and a split amount. -/
theorem split_sound {equality : CiphertextCommitmentEqualityProofContext}
    {validity : BatchedGroupedCiphertext3HandlesValidityProofContext}
    {range : BatchedRangeProofContext}
    (commitments : startsWith range.commitments [equality.commitment,
      validity.groupedCiphertextLo.commitment, validity.groupedCiphertextHi.commitment] = true)
    (bits : startsWith range.bitLengths [64, 16, 32, 16] = true) :
    equality.ciphertext.val < 2 ^ 64 ∧
      Agrees3 validity.groupedCiphertextLo validity.groupedCiphertextHi := by
  obtain ⟨balance, split⟩ := range_sound commitments bits
  refine ⟨?_, validity.holds.1, validity.holds.2, split⟩
  rwa [equality.holds]

/-- **A transfer leaves a 64-bit balance and moves a split amount.** -/
theorem TransferProofContext.sound {equality : CiphertextCommitmentEqualityProofContext}
    {validity : BatchedGroupedCiphertext3HandlesValidityProofContext}
    {range : BatchedRangeProofContext} {context : TransferProofContext}
    (ok : verifyAndExtract equality validity range = .ok context) :
    context.newSourceCiphertext.val < 2 ^ 64 ∧
      Agrees3 context.ciphertextLo context.ciphertextHi := by
  simp only [verifyAndExtract, bind_eq_ok_iff, require_eq_ok_iff, exists_const] at ok
  obtain ⟨-, commitments, bits, same⟩ := ok
  obtain rfl := Except.ok.inj same
  exact split_sound commitments bits

/-- **A confidential mint leaves a 64-bit supply and mints a split amount.** -/
theorem MintProofContext.sound {equality : CiphertextCommitmentEqualityProofContext}
    {validity : BatchedGroupedCiphertext3HandlesValidityProofContext}
    {range : BatchedRangeProofContext} {context : MintProofContext}
    (ok : verifyAndExtract equality validity range = .ok context) :
    context.newSupplyCiphertext.val < 2 ^ 64 ∧
      Agrees3 context.mintAmountCiphertextLo context.mintAmountCiphertextHi := by
  simp only [verifyAndExtract, bind_eq_ok_iff, require_eq_ok_iff, exists_const] at ok
  obtain ⟨-, commitments, bits, same⟩ := ok
  obtain rfl := Except.ok.inj same
  exact split_sound commitments bits

/-- **A confidential burn leaves a 64-bit balance and burns a split amount.** -/
theorem BurnProofContext.sound {equality : CiphertextCommitmentEqualityProofContext}
    {validity : BatchedGroupedCiphertext3HandlesValidityProofContext}
    {range : BatchedRangeProofContext} {context : BurnProofContext}
    (ok : verifyAndExtract equality validity range = .ok context) :
    context.remainingBalanceCiphertext.val < 2 ^ 64 ∧
      Agrees3 context.burnAmountCiphertextLo context.burnAmountCiphertextHi := by
  simp only [verifyAndExtract, bind_eq_ok_iff, require_eq_ok_iff, exists_const] at ok
  obtain ⟨-, commitments, bits, same⟩ := ok
  obtain rfl := Except.ok.inj same
  exact split_sound commitments bits

/-- **A transfer with fee** leaves a 64-bit balance, moves a split amount and withholds a split fee
that does not exceed it. -/
theorem TransferWithFeeProofContext.sound {equality : CiphertextCommitmentEqualityProofContext}
    {amountValidity : BatchedGroupedCiphertext3HandlesValidityProofContext}
    {feeSigma : PercentageWithCapProofContext}
    {feeValidity : BatchedGroupedCiphertext2HandlesValidityProofContext}
    {range : BatchedRangeProofContext} {bps maximumFee : ℕ} {context : TransferWithFeeProofContext}
    (ok : verifyAndExtract equality amountValidity feeSigma feeValidity range bps maximumFee =
      .ok context) :
    context.newSourceCiphertext.val < 2 ^ 64 ∧
      Agrees3 context.ciphertextLo context.ciphertextHi ∧
      context.feeCiphertextLo.Valid ∧ context.feeCiphertextHi.Valid ∧
      SplitAmount context.feeCiphertextLo.commitment context.feeCiphertextHi.commitment ∧
      (pendingTotal context.feeCiphertextLo.commitment context.feeCiphertextHi.commitment).val ≤
        (pendingTotal context.ciphertextLo.commitment context.ciphertextHi.commitment).val := by
  simp only [verifyAndExtract, bind_eq_ok_iff, require_eq_ok_iff, exists_const] at ok
  obtain ⟨-, -, commitments, bits, -, feePoint, _, -, same⟩ := ok
  obtain rfl := Except.ok.inj same
  obtain ⟨c0, c1, c2, -, -, c5, c6, c7⟩ := startsWith_eight commitments
  obtain ⟨b0, b1, b2, -, -, b5, b6, b7⟩ := startsWith_eight bits
  have balance := range.lt c0 b0
  have net := range.lt c7 b7
  rw [← feePoint] at net
  have amount : SplitAmount amountValidity.groupedCiphertextLo.commitment
      amountValidity.groupedCiphertextHi.commitment := ⟨range.lt c1 b1, range.lt c2 b2⟩
  have fee : SplitAmount feeValidity.groupedCiphertextLo.commitment
      feeValidity.groupedCiphertextHi.commitment := ⟨range.lt c5 b5, range.lt c6 b6⟩
  refine ⟨?_, ⟨amountValidity.holds.1, amountValidity.holds.2, amount⟩, feeValidity.holds.1,
    feeValidity.holds.2, fee, ?_⟩
  · show equality.ciphertext.val < 2 ^ 64
    rwa [equality.holds]
  · -- A fee above the amount would wrap the net amount around the order, out of its range.
    have sum := val_add_of_lt (a := pendingTotal amountValidity.groupedCiphertextLo.commitment
        amountValidity.groupedCiphertextHi.commitment -
          pendingTotal feeValidity.groupedCiphertextLo.commitment
            feeValidity.groupedCiphertextHi.commitment)
      (b := pendingTotal feeValidity.groupedCiphertextLo.commitment
        feeValidity.groupedCiphertextHi.commitment)
      (lt_trans (add_lt_add net fee.val_total.2) (by decide))
    rw [sub_add_cancel] at sum
    show (pendingTotal feeValidity.groupedCiphertextLo.commitment
        feeValidity.groupedCiphertextHi.commitment).val ≤
      (pendingTotal amountValidity.groupedCiphertextLo.commitment
        amountValidity.groupedCiphertextHi.commitment).val
    omega

/-- The claimed delta of a fee is below ten thousand: it and its complement are 16-bit numbers. -/
theorem claimed_lt {claimed : Scalar} (small : claimed.val < 2 ^ 16)
    (complement : (9999 - claimed).val < 2 ^ 16) : claimed.val < 10000 := by
  have sum := val_add_of_lt (a := 9999 - claimed) (b := claimed)
    (lt_trans (add_lt_add complement small) (by decide))
  rw [sub_add_cancel] at sum
  have nine : (9999 : Scalar).val = 9999 := val_natCast_of_lt (n := 9999) (by decide)
  omega

/-- A fee that exceeds the scaled amount by less than one unit is the amount's share, rounded up. -/
theorem fee_eq_of_delta {amount fee claimed : Scalar} {bps : ℕ} (bpsLe : bps ≤ 10000)
    (amountLt : amount.val < 2 ^ 48) (feeLt : fee.val < 2 ^ 48) (claimedLt : claimed.val < 10000)
    (delta : 10000 * fee - bps * amount = claimed) :
    fee.val = (amount.val * bps + 9999) / 10000 := by
  -- Both sides of the balance stay below the order, so that it holds of the integers.
  have scaled : amount.val * bps ≤ 2 ^ 48 * 10000 := Nat.mul_le_mul amountLt.le bpsLe
  have balance : ((10000 * fee.val : ℕ) : Scalar) = ((amount.val * bps + claimed.val : ℕ) : Scalar) := by
    push_cast
    rw [ZMod.natCast_zmod_val, ZMod.natCast_zmod_val, ZMod.natCast_zmod_val, ← delta]
    ring
  have integers := congrArg ZMod.val balance
  rw [val_natCast_of_lt (lt_trans (show 10000 * fee.val < 2 ^ 64 by omega) u64_lt_groupOrder),
    val_natCast_of_lt (lt_trans (show amount.val * bps + claimed.val < 2 ^ 64 by omega)
      u64_lt_groupOrder)] at integers
  omega

/-- **The fee of a transfer with fee is the maximum, or the exact share of the amount.** -/
theorem TransferWithFeeProofContext.fee_eq {equality : CiphertextCommitmentEqualityProofContext}
    {amountValidity : BatchedGroupedCiphertext3HandlesValidityProofContext}
    {feeSigma : PercentageWithCapProofContext}
    {feeValidity : BatchedGroupedCiphertext2HandlesValidityProofContext}
    {range : BatchedRangeProofContext} {bps maximumFee : ℕ} {context : TransferWithFeeProofContext}
    (bpsLe : bps ≤ 10000) (maximumLt : maximumFee < 2 ^ 64)
    (ok : verifyAndExtract equality amountValidity feeSigma feeValidity range bps maximumFee =
      .ok context) :
    (pendingTotal context.feeCiphertextLo.commitment context.feeCiphertextHi.commitment).val =
        maximumFee ∨
      (pendingTotal context.feeCiphertextLo.commitment context.feeCiphertextHi.commitment).val =
        ((pendingTotal context.ciphertextLo.commitment context.ciphertextHi.commitment).val * bps +
          9999) / 10000 := by
  have sound := sound ok
  simp only [verifyAndExtract, verifyDeltaCommitment, bind_eq_ok_iff, require_eq_ok_iff,
    exists_const] at ok
  obtain ⟨maximum, -, commitments, bits, -, feePoint, delta, same⟩ := ok
  obtain rfl := Except.ok.inj same
  obtain ⟨-, -, -, c3, c4, -⟩ := startsWith_eight commitments
  obtain ⟨-, -, -, b3, b4, -⟩ := startsWith_eight bits
  have claimedLt := claimed_lt (range.lt c3 b3) (range.lt c4 b4)
  obtain ⟨-, amount, -, -, fee, -⟩ := sound
  rcases feeSigma.holds with capped | claimed
  · left
    show (pendingTotal feeValidity.groupedCiphertextLo.commitment
      feeValidity.groupedCiphertextHi.commitment).val = maximumFee
    rw [feePoint, capped, ← maximum]
    exact val_natCast_of_lt (maximumLt.trans u64_lt_groupOrder)
  · right
    rw [claimed, ← feePoint] at delta
    exact fee_eq_of_delta bpsLe amount.split.val_total.2 fee.val_total.2 claimedLt delta

end Token2022
