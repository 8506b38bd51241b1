/-
**The generation of the proofs that the compositions expect.**

A client splits an amount, encrypts its parts, commits to the balance that is left, and asks the proof
library for the single proofs. The library is a parameter: of a proof only its context counts here,
and a library is faithful where it puts into the context what it is given. Randomness is an argument.

* `ProofLibrary`, `ProofLibrary.Faithful` — the code that is called.
* `transferSplitProofData`, `transferWithFeeSplitProofData`, `withdrawProofData`,
  `mintSplitProofData`, `burnSplitProofData` — the five generators.
-/

import Token2022.Confidential.Group

namespace Token2022.Ristretto

open Fallible Pedersen

variable {M AeKey : Type} [AddCommGroup M] [Module Scalar M] (B : Bases M)

/-! ### The code that is called -/

/-- `ProofGenerationError` of the proof library. -/
structure ProofGenerationError where
  code : ℕ
  deriving DecidableEq, Repr

/-- `TokenProofGenerationError`. -/
inductive TokenProofGenerationError
  | proofGeneration (error : ProofGenerationError)
  | notEnoughFunds | illegalAmountBitLength | feeCalculation | ciphertextExtraction
  deriving DecidableEq, Repr

/-- What a generator returns. -/
abbrev GenerationResult (α : Type) := Except TokenProofGenerationError α

/-- `ElGamalKeypair`. -/
structure ElGamalKeypair where
  secret : Scalar
  pubkey : M
  owns : secret • pubkey = B.H

/-- The proof library and authenticated encryption. A proof stands by its context. -/
structure ProofLibrary (AeKey : Type) where
  decrypt : AeCiphertext → AeKey → Option ℕ
  buildCiphertextCommitmentEqualityProofData (keypair : ElGamalKeypair B)
    (ciphertext : Ciphertext M) (commitment : M) (opening : Scalar) (amount : ℕ) :
    Except ProofGenerationError (CiphertextCommitmentEqualityProofContext M)
  buildBatchedGroupedCiphertext2HandlesValidityProofData (firstPubkey secondPubkey : M)
    (groupedCiphertextLo groupedCiphertextHi : Grouped M 2) (amountLo amountHi : ℕ)
    (openingLo openingHi : Scalar) :
    Except ProofGenerationError (BatchedGroupedCiphertext2HandlesValidityProofContext M)
  buildBatchedGroupedCiphertext3HandlesValidityProofData (firstPubkey secondPubkey thirdPubkey : M)
    (groupedCiphertextLo groupedCiphertextHi : Grouped M 3) (amountLo amountHi : ℕ)
    (openingLo openingHi : Scalar) :
    Except ProofGenerationError (BatchedGroupedCiphertext3HandlesValidityProofContext M)
  buildPercentageWithCapProofData (percentageCommitment : M) (percentageOpening : Scalar)
    (percentageAmount : ℕ) (deltaCommitment : M) (deltaOpening : Scalar) (deltaAmount : ℕ)
    (claimedCommitment : M) (claimedOpening : Scalar) (maxValue : ℕ) :
    Except ProofGenerationError (PercentageWithCapProofContext M)
  buildBatchedRangeProofU64Data (commitments : List M) (amounts bitLengths : List ℕ)
    (openings : List Scalar) : Except ProofGenerationError (BatchedRangeProofContext M)
  buildBatchedRangeProofU128Data (commitments : List M) (amounts bitLengths : List ℕ)
    (openings : List Scalar) : Except ProofGenerationError (BatchedRangeProofContext M)
  buildBatchedRangeProofU256Data (commitments : List M) (amounts bitLengths : List ℕ)
    (openings : List Scalar) : Except ProofGenerationError (BatchedRangeProofContext M)

/-- The context of a batched range proof, filled up to eight entries. -/
def rangeContext (commitments : List M) (bitLengths : List ℕ) : BatchedRangeProofContext M :=
  ⟨fun i => commitments.getD i 0, fun i => bitLengths.getD i 0⟩

/-- **The contexts hold what the library was given.** -/
structure ProofLibrary.Faithful {B : Bases M} (library : ProofLibrary B AeKey) : Prop where
  equality : ∀ {keypair ciphertext commitment opening amount context},
    library.buildCiphertextCommitmentEqualityProofData keypair ciphertext commitment opening amount =
      .ok context → context = ⟨keypair.pubkey, ciphertext, commitment⟩
  validity2 : ∀ {first second lo hi amountLo amountHi openingLo openingHi context},
    library.buildBatchedGroupedCiphertext2HandlesValidityProofData first second lo hi amountLo
      amountHi openingLo openingHi = .ok context → context = ⟨first, second, lo, hi⟩
  validity3 : ∀ {first second third lo hi amountLo amountHi openingLo openingHi context},
    library.buildBatchedGroupedCiphertext3HandlesValidityProofData first second third lo hi amountLo
      amountHi openingLo openingHi = .ok context → context = ⟨first, second, third, lo, hi⟩
  percentage : ∀ {percentage percentageOpening percentageAmount delta deltaOpening deltaAmount claimed
      claimedOpening maxValue context},
    library.buildPercentageWithCapProofData percentage percentageOpening percentageAmount delta
      deltaOpening deltaAmount claimed claimedOpening maxValue = .ok context →
      context = ⟨percentage, delta, claimed, maxValue⟩
  rangeU64 : ∀ {commitments amounts bitLengths openings context},
    library.buildBatchedRangeProofU64Data commitments amounts bitLengths openings = .ok context →
      context = rangeContext commitments bitLengths
  rangeU128 : ∀ {commitments amounts bitLengths openings context},
    library.buildBatchedRangeProofU128Data commitments amounts bitLengths openings = .ok context →
      context = rangeContext commitments bitLengths
  rangeU256 : ∀ {commitments amounts bitLengths openings context},
    library.buildBatchedRangeProofU256Data commitments amounts bitLengths openings = .ok context →
      context = rangeContext commitments bitLengths

/-- `From<ProofGenerationError> for TokenProofGenerationError`. -/
def mapError {α : Type} : Except ProofGenerationError α → GenerationResult α
  | .ok a => .ok a
  | .error e => .error (.proofGeneration e)

@[simp] theorem mapError_eq_ok_iff {α : Type} {x : Except ProofGenerationError α} {a : α} :
    mapError x = .ok a ↔ x = .ok a := by
  cases x <;> simp [mapError]

/-! ### Splitting and combining -/

/-- `u64::checked_shl`: bits that leave the word are lost. -/
def checkedShl (amount bits : ℕ) : Option ℕ :=
  if bits < 64 then some (amount <<< bits % 2 ^ 64) else none

/-- `u64::checked_shr`. -/
def checkedShr (amount bits : ℕ) : Option ℕ :=
  if bits < 64 then some (amount >>> bits) else none

/-- `try_split_u64`. -/
def trySplitU64 (amount bitLength : ℕ) : Option (ℕ × ℕ) :=
  if bitLength = 0 then some (0, amount)
  else if bitLength ≤ 63 then do
    let bitLengthComplement := 64 - bitLength
    let lo ← checkedShr (← checkedShl amount bitLengthComplement) bitLengthComplement
    let hi ← checkedShr amount bitLength
    some (lo, hi)
  else if bitLength = 64 then some (amount, 0)
  else none

/-- `try_combine_lo_hi_ciphertexts`. -/
def tryCombineLoHiCiphertexts (lo hi : Ciphertext M) (bitLength : ℕ) : Option (Ciphertext M) := do
  let twoPower ← checkedShl 1 bitLength
  some (lo + (twoPower : Scalar) • hi)

/-- The sum of two parts, under the key of the source. -/
def sourceCiphertext (lo hi : Grouped M 3) : Ciphertext M :=
  lo.toCiphertext 0 + toScalar 65536 • hi.toCiphertext 0

/-- `try_combine_lo_hi_commitments`. -/
def tryCombineLoHiCommitments (lo hi : M) (bitLength : ℕ) : Option M := do
  let twoPower ← checkedShl 1 bitLength
  some (lo + (twoPower : Scalar) • hi)

/-- `try_combine_lo_hi_openings`. -/
def tryCombineLoHiOpenings (lo hi : Scalar) (bitLength : ℕ) : Option Scalar := do
  let twoPower ← checkedShl 1 bitLength
  some (lo + hi * twoPower)

/-- `try_extract_ciphertext`. -/
def tryExtractCiphertext {n : ℕ} (g : Grouped M n) (index : ℕ) : Option (Ciphertext M) :=
  if bound : index < n then some (g.toCiphertext ⟨index, bound⟩) else none

/-- `CiphertextValidityProofWithAuditorCiphertext`. -/
structure CiphertextValidityProofWithAuditorCiphertext (M : Type) where
  proofData : BatchedGroupedCiphertext3HandlesValidityProofContext M
  ciphertextLo : Ciphertext M
  ciphertextHi : Ciphertext M

/-- `PedersenCommitment`s are made by `Pedersen::with`; the amount is a 64-bit number. -/
def pedersenWith (amount : ℕ) (opening : Scalar) : M := B.commit (amount : Scalar) opening

/-- `TransferAmountCiphertext::new`. -/
def transferAmountCiphertext (amount : ℕ) (source destination auditor : M) (opening : Scalar) :
    Grouped M 3 := B.encryptWith ![source, destination, auditor] (amount : Scalar) opening

/-- `FeeCiphertext::new`. -/
def feeCiphertext (amount : ℕ) (destination withdrawWithheldAuthority : M) (opening : Scalar) :
    Grouped M 2 := B.encryptWith ![destination, withdrawWithheldAuthority] (amount : Scalar) opening

/-- `BurnAmountCiphertext::new`. -/
def burnAmountCiphertext (amount : ℕ) (source supply auditor : M) (opening : Scalar) :
    Grouped M 3 := B.encryptWith ![source, supply, auditor] (amount : Scalar) opening

/-- `MintAmountCiphertext::new`. -/
def mintAmountCiphertext (amount : ℕ) (destination supply auditor : M) (opening : Scalar) :
    Grouped M 3 := B.encryptWith ![destination, supply, auditor] (amount : Scalar) opening

/-- `subtract_amount`: an amount is encrypted with a zero opening. -/
def subtractAmount (ciphertext : Ciphertext M) (amount : ℕ) : Ciphertext M :=
  ⟨ciphertext.commitment - (amount : Scalar) • B.G, ciphertext.handle⟩

/-! ### The generators -/

variable {B} (library : ProofLibrary B AeKey)

/-- `WithdrawProofData`. -/
structure WithdrawProofData (M : Type) where
  equalityProofData : CiphertextCommitmentEqualityProofContext M
  rangeProofData : BatchedRangeProofContext M

/-- `withdraw_proof_data`. -/
def withdrawProofData (currentAvailableBalance : Ciphertext M) (currentBalance withdrawAmount : ℕ)
    (elgamalKeypair : ElGamalKeypair B) (remainingBalanceOpening : Scalar) :
    GenerationResult (WithdrawProofData M) := do
  let remainingBalance ← okOr (checkedSub currentBalance withdrawAmount) .notEnoughFunds
  let remainingBalanceCommitment := pedersenWith B remainingBalance remainingBalanceOpening
  let remainingBalanceCiphertext := subtractAmount B currentAvailableBalance withdrawAmount
  let equalityProofData ← mapError (library.buildCiphertextCommitmentEqualityProofData elgamalKeypair
    remainingBalanceCiphertext remainingBalanceCommitment remainingBalanceOpening remainingBalance)
  let rangeProofData ← mapError (library.buildBatchedRangeProofU64Data
    [remainingBalanceCommitment] [remainingBalance] [64] [remainingBalanceOpening])
  .ok ⟨equalityProofData, rangeProofData⟩

/-- The random openings of a transfer, a mint or a burn. -/
structure SplitOpenings where
  amountLo : Scalar
  amountHi : Scalar
  newBalance : Scalar
  padding : Scalar

/-- The proofs of a transfer, a mint or a burn. -/
structure SplitProofData (M : Type) where
  equalityProofData : CiphertextCommitmentEqualityProofContext M
  ciphertextValidityProofDataWithCiphertext : CiphertextValidityProofWithAuditorCiphertext M
  rangeProofData : BatchedRangeProofContext M

/-- `TransferProofData`. -/
abbrev TransferProofData := SplitProofData

/-- `MintProofData`. -/
abbrev MintProofData := SplitProofData

/-- `BurnProofData`. -/
abbrev BurnProofData := SplitProofData

/-- `transfer_split_proof_data`. -/
def transferSplitProofData (currentAvailableBalance : Ciphertext M)
    (currentDecryptableAvailableBalance : AeCiphertext) (transferAmount : ℕ)
    (sourceElgamalKeypair : ElGamalKeypair B) (aesKey : AeKey) (destinationElgamalPubkey : M)
    (auditorElgamalPubkey : Option M) (openings : SplitOpenings) :
    GenerationResult (TransferProofData M) := do
  let auditorElgamalPubkey := auditorElgamalPubkey.getD 0
  let (transferAmountLo, transferAmountHi) ← okOr (trySplitU64 transferAmount 16)
    .illegalAmountBitLength
  let groupedCiphertextLo := transferAmountCiphertext B transferAmountLo sourceElgamalKeypair.pubkey
    destinationElgamalPubkey auditorElgamalPubkey openings.amountLo
  let groupedCiphertextHi := transferAmountCiphertext B transferAmountHi sourceElgamalKeypair.pubkey
    destinationElgamalPubkey auditorElgamalPubkey openings.amountHi
  let currentDecryptedAvailableBalance ← okOr
    (library.decrypt currentDecryptableAvailableBalance aesKey) .illegalAmountBitLength
  let newDecryptedAvailableBalance ← okOr
    (checkedSub currentDecryptedAvailableBalance transferAmount) .notEnoughFunds
  let newAvailableBalanceCommitment := pedersenWith B newDecryptedAvailableBalance openings.newBalance
  let combined ← okOr (tryCombineLoHiCiphertexts (groupedCiphertextLo.toCiphertext 0)
    (groupedCiphertextHi.toCiphertext 0) 16) .illegalAmountBitLength
  let newAvailableBalanceCiphertext := currentAvailableBalance - combined
  let equalityProofData ← mapError (library.buildCiphertextCommitmentEqualityProofData
    sourceElgamalKeypair newAvailableBalanceCiphertext newAvailableBalanceCommitment
    openings.newBalance newDecryptedAvailableBalance)
  let ciphertextValidityProofData ← mapError
    (library.buildBatchedGroupedCiphertext3HandlesValidityProofData sourceElgamalKeypair.pubkey
      destinationElgamalPubkey auditorElgamalPubkey groupedCiphertextLo groupedCiphertextHi
      transferAmountLo transferAmountHi openings.amountLo openings.amountHi)
  let auditorCiphertextLo ← okOr
    (tryExtractCiphertext ciphertextValidityProofData.groupedCiphertextLo 2) .ciphertextExtraction
  let auditorCiphertextHi ← okOr
    (tryExtractCiphertext ciphertextValidityProofData.groupedCiphertextHi 2) .ciphertextExtraction
  let rangeProofData ← mapError (library.buildBatchedRangeProofU128Data
    [newAvailableBalanceCommitment, groupedCiphertextLo.commitment, groupedCiphertextHi.commitment,
      pedersenWith B 0 openings.padding]
    [newDecryptedAvailableBalance, transferAmountLo, transferAmountHi, 0] [64, 16, 32, 16]
    [openings.newBalance, openings.amountLo, openings.amountHi, openings.padding])
  .ok ⟨equalityProofData, ⟨ciphertextValidityProofData, auditorCiphertextLo, auditorCiphertextHi⟩,
    rangeProofData⟩

/-- `burn_split_proof_data`. -/
def burnSplitProofData (currentAvailableBalanceCiphertext : Ciphertext M)
    (currentDecryptableAvailableBalance : AeCiphertext) (burnAmount : ℕ)
    (sourceElgamalKeypair : ElGamalKeypair B) (sourceAesKey : AeKey) (supplyElgamalPubkey : M)
    (auditorElgamalPubkey : Option M) (openings : SplitOpenings) :
    GenerationResult (BurnProofData M) := do
  let auditorElgamalPubkey := auditorElgamalPubkey.getD 0
  let (burnAmountLo, burnAmountHi) ← okOr (trySplitU64 burnAmount 16) .illegalAmountBitLength
  let groupedCiphertextLo := burnAmountCiphertext B burnAmountLo sourceElgamalKeypair.pubkey
    supplyElgamalPubkey auditorElgamalPubkey openings.amountLo
  let groupedCiphertextHi := burnAmountCiphertext B burnAmountHi sourceElgamalKeypair.pubkey
    supplyElgamalPubkey auditorElgamalPubkey openings.amountHi
  let currentDecryptedAvailableBalance ← okOr
    (library.decrypt currentDecryptableAvailableBalance sourceAesKey) .illegalAmountBitLength
  let combined ← okOr (tryCombineLoHiCiphertexts (groupedCiphertextLo.toCiphertext 0)
    (groupedCiphertextHi.toCiphertext 0) 16) .illegalAmountBitLength
  let newAvailableBalanceCiphertext := currentAvailableBalanceCiphertext - combined
  let remainingBalance ← okOr (checkedSub currentDecryptedAvailableBalance burnAmount)
    .notEnoughFunds
  let newAvailableBalanceCommitment := pedersenWith B remainingBalance openings.newBalance
  let equalityProofData ← mapError (library.buildCiphertextCommitmentEqualityProofData
    sourceElgamalKeypair newAvailableBalanceCiphertext newAvailableBalanceCommitment
    openings.newBalance remainingBalance)
  let ciphertextValidityProofData ← mapError
    (library.buildBatchedGroupedCiphertext3HandlesValidityProofData sourceElgamalKeypair.pubkey
      supplyElgamalPubkey auditorElgamalPubkey groupedCiphertextLo groupedCiphertextHi
      burnAmountLo burnAmountHi openings.amountLo openings.amountHi)
  let auditorCiphertextLo ← okOr
    (tryExtractCiphertext ciphertextValidityProofData.groupedCiphertextLo 2) .ciphertextExtraction
  let auditorCiphertextHi ← okOr
    (tryExtractCiphertext ciphertextValidityProofData.groupedCiphertextHi 2) .ciphertextExtraction
  let rangeProofData ← mapError (library.buildBatchedRangeProofU128Data
    [newAvailableBalanceCommitment, groupedCiphertextLo.commitment, groupedCiphertextHi.commitment,
      pedersenWith B 0 openings.padding]
    [remainingBalance, burnAmountLo, burnAmountHi, 0] [64, 16, 32, 16]
    [openings.newBalance, openings.amountLo, openings.amountHi, openings.padding])
  .ok ⟨equalityProofData, ⟨ciphertextValidityProofData, auditorCiphertextLo, auditorCiphertextHi⟩,
    rangeProofData⟩

/-- `mint_split_proof_data`. -/
def mintSplitProofData (currentSupplyCiphertext : Ciphertext M) (mintAmount currentSupply : ℕ)
    (supplyElgamalKeypair : ElGamalKeypair B) (destinationElgamalPubkey : M)
    (auditorElgamalPubkey : Option M) (openings : SplitOpenings) :
    GenerationResult (MintProofData M) := do
  let auditorElgamalPubkey := auditorElgamalPubkey.getD 0
  let (mintAmountLo, mintAmountHi) ← okOr (trySplitU64 mintAmount 16) .illegalAmountBitLength
  let groupedCiphertextLo := mintAmountCiphertext B mintAmountLo destinationElgamalPubkey
    supplyElgamalKeypair.pubkey auditorElgamalPubkey openings.amountLo
  let groupedCiphertextHi := mintAmountCiphertext B mintAmountHi destinationElgamalPubkey
    supplyElgamalKeypair.pubkey auditorElgamalPubkey openings.amountHi
  let combined ← okOr (tryCombineLoHiCiphertexts (groupedCiphertextLo.toCiphertext 1)
    (groupedCiphertextHi.toCiphertext 1) 16) .illegalAmountBitLength
  let newSupplyCiphertext := currentSupplyCiphertext + combined
  let newSupply ← okOr (checkedAdd (2 ^ 64) currentSupply mintAmount) .illegalAmountBitLength
  let newSupplyCommitment := pedersenWith B newSupply openings.newBalance
  let equalityProofData ← mapError (library.buildCiphertextCommitmentEqualityProofData
    supplyElgamalKeypair newSupplyCiphertext newSupplyCommitment openings.newBalance newSupply)
  let ciphertextValidityProofData ← mapError
    (library.buildBatchedGroupedCiphertext3HandlesValidityProofData destinationElgamalPubkey
      supplyElgamalKeypair.pubkey auditorElgamalPubkey groupedCiphertextLo groupedCiphertextHi
      mintAmountLo mintAmountHi openings.amountLo openings.amountHi)
  let auditorCiphertextLo ← okOr
    (tryExtractCiphertext ciphertextValidityProofData.groupedCiphertextLo 2) .ciphertextExtraction
  let auditorCiphertextHi ← okOr
    (tryExtractCiphertext ciphertextValidityProofData.groupedCiphertextHi 2) .ciphertextExtraction
  let rangeProofData ← mapError (library.buildBatchedRangeProofU128Data
    [newSupplyCommitment, groupedCiphertextLo.commitment, groupedCiphertextHi.commitment,
      pedersenWith B 0 openings.padding]
    [newSupply, mintAmountLo, mintAmountHi, 0] [64, 16, 32, 16]
    [openings.newBalance, openings.amountLo, openings.amountHi, openings.padding])
  .ok ⟨equalityProofData, ⟨ciphertextValidityProofData, auditorCiphertextLo, auditorCiphertextHi⟩,
    rangeProofData⟩

/-- `calculate_fee`: the fee, rounded up, and what it exceeds the exact percentage by. -/
def calculateFee (transferAmount feeRateBasisPoints : ℕ) : Option (ℕ × ℕ) := do
  let numerator := transferAmount * feeRateBasisPoints
  if numerator < 2 ^ 128 then
    let sum ← checkedAdd (2 ^ 128) numerator 10000
    let less ← checkedSub sum 1
    let fee := less / 10000
    if fee * 10000 < 2 ^ 128 then
      let deltaFee ← checkedSub (fee * 10000) numerator
      some (fee % 2 ^ 64, deltaFee % 2 ^ 64)
    else none
  else none

/-- `compute_delta_commitment_and_opening`. -/
def computeDeltaCommitmentAndOpening (combinedCommitment : M) (combinedOpening : Scalar)
    (combinedFeeCommitment : M) (combinedFeeOpening : Scalar) (feeRateBasisPoints : ℕ) :
    M × Scalar :=
  (toScalar 10000 • combinedFeeCommitment - toScalar feeRateBasisPoints • combinedCommitment,
    combinedFeeOpening * toScalar 10000 - combinedOpening * toScalar feeRateBasisPoints)

/-- The random openings of a transfer with fee. -/
structure FeeOpenings where
  amountLo : Scalar
  amountHi : Scalar
  newBalance : Scalar
  feeLo : Scalar
  feeHi : Scalar
  claimed : Scalar

/-- `TransferWithFeeProofData`. -/
structure TransferWithFeeProofData (M : Type) where
  equalityProofData : CiphertextCommitmentEqualityProofContext M
  transferAmountCiphertextValidityProofDataWithCiphertext :
    CiphertextValidityProofWithAuditorCiphertext M
  percentageWithCapProofData : PercentageWithCapProofContext M
  feeCiphertextValidityProofData : BatchedGroupedCiphertext2HandlesValidityProofContext M
  rangeProofData : BatchedRangeProofContext M

/-- `transfer_with_fee_split_proof_data`. -/
def transferWithFeeSplitProofData (currentAvailableBalance : Ciphertext M)
    (currentDecryptableAvailableBalance : AeCiphertext) (transferAmount : ℕ)
    (sourceElgamalKeypair : ElGamalKeypair B) (aesKey : AeKey) (destinationElgamalPubkey : M)
    (auditorElgamalPubkey : Option M) (withdrawWithheldAuthorityElgamalPubkey : M)
    (feeRateBasisPoints maximumFee : ℕ) (openings : FeeOpenings) :
    GenerationResult (TransferWithFeeProofData M) := do
  let auditorElgamalPubkey := auditorElgamalPubkey.getD 0
  let (transferAmountLo, transferAmountHi) ← okOr (trySplitU64 transferAmount 16)
    .illegalAmountBitLength
  let groupedCiphertextLo := transferAmountCiphertext B transferAmountLo sourceElgamalKeypair.pubkey
    destinationElgamalPubkey auditorElgamalPubkey openings.amountLo
  let groupedCiphertextHi := transferAmountCiphertext B transferAmountHi sourceElgamalKeypair.pubkey
    destinationElgamalPubkey auditorElgamalPubkey openings.amountHi
  let currentDecryptedAvailableBalance ← okOr
    (library.decrypt currentDecryptableAvailableBalance aesKey) .illegalAmountBitLength
  let newDecryptedAvailableBalance ← okOr
    (checkedSub currentDecryptedAvailableBalance transferAmount) .notEnoughFunds
  let newAvailableBalanceCommitment := pedersenWith B newDecryptedAvailableBalance openings.newBalance
  let combined ← okOr (tryCombineLoHiCiphertexts (groupedCiphertextLo.toCiphertext 0)
    (groupedCiphertextHi.toCiphertext 0) 16) .illegalAmountBitLength
  let newAvailableBalanceCiphertext := currentAvailableBalance - combined
  let equalityProofData ← mapError (library.buildCiphertextCommitmentEqualityProofData
    sourceElgamalKeypair newAvailableBalanceCiphertext newAvailableBalanceCommitment
    openings.newBalance newDecryptedAvailableBalance)
  let transferAmountCiphertextValidityProofData ← mapError
    (library.buildBatchedGroupedCiphertext3HandlesValidityProofData sourceElgamalKeypair.pubkey
      destinationElgamalPubkey auditorElgamalPubkey groupedCiphertextLo groupedCiphertextHi
      transferAmountLo transferAmountHi openings.amountLo openings.amountHi)
  let auditorCiphertextLo ← okOr
    (tryExtractCiphertext transferAmountCiphertextValidityProofData.groupedCiphertextLo 2)
    .ciphertextExtraction
  let auditorCiphertextHi ← okOr
    (tryExtractCiphertext transferAmountCiphertextValidityProofData.groupedCiphertextHi 2)
    .ciphertextExtraction
  let (rawFeeAmount, rawDeltaFee) ← okOr (calculateFee transferAmount feeRateBasisPoints)
    .feeCalculation
  -- A fee above the maximum is cut to it, and the claimed delta is then free.
  let (feeAmount, claimedDeltaFee) :=
    if maximumFee < rawFeeAmount then (maximumFee, 0) else (rawFeeAmount, rawDeltaFee)
  let netTransferAmount ← okOr (checkedSub transferAmount feeAmount) .feeCalculation
  let (feeAmountLo, feeAmountHi) ← okOr (trySplitU64 feeAmount 16) .illegalAmountBitLength
  let feeCiphertextLo := feeCiphertext B feeAmountLo destinationElgamalPubkey
    withdrawWithheldAuthorityElgamalPubkey openings.feeLo
  let feeCiphertextHi := feeCiphertext B feeAmountHi destinationElgamalPubkey
    withdrawWithheldAuthorityElgamalPubkey openings.feeHi
  let combinedTransferAmountCommitment ← okOr (tryCombineLoHiCommitments
    groupedCiphertextLo.commitment groupedCiphertextHi.commitment 16) .illegalAmountBitLength
  let combinedTransferAmountOpening ← okOr (tryCombineLoHiOpenings openings.amountLo
    openings.amountHi 16) .illegalAmountBitLength
  let combinedFeeCommitment ← okOr (tryCombineLoHiCommitments
    feeCiphertextLo.commitment feeCiphertextHi.commitment 16) .illegalAmountBitLength
  let combinedFeeOpening ← okOr (tryCombineLoHiOpenings openings.feeLo openings.feeHi 16)
    .illegalAmountBitLength
  let netTransferAmountCommitment := combinedTransferAmountCommitment - combinedFeeCommitment
  let netTransferAmountOpening := combinedTransferAmountOpening - combinedFeeOpening
  let claimedCommitment := pedersenWith B claimedDeltaFee openings.claimed
  let (deltaCommitment, deltaOpening) := computeDeltaCommitmentAndOpening
    combinedTransferAmountCommitment combinedTransferAmountOpening combinedFeeCommitment
    combinedFeeOpening feeRateBasisPoints
  let percentageWithCapProofData ← mapError (library.buildPercentageWithCapProofData
    combinedFeeCommitment combinedFeeOpening feeAmount deltaCommitment deltaOpening claimedDeltaFee
    claimedCommitment openings.claimed maximumFee)
  let feeCiphertextValidityProofData ← mapError
    (library.buildBatchedGroupedCiphertext2HandlesValidityProofData destinationElgamalPubkey
      withdrawWithheldAuthorityElgamalPubkey
      (B.encryptWith ![destinationElgamalPubkey, withdrawWithheldAuthorityElgamalPubkey]
        (feeAmountLo : Scalar) openings.feeLo)
      (B.encryptWith ![destinationElgamalPubkey, withdrawWithheldAuthorityElgamalPubkey]
        (feeAmountHi : Scalar) openings.feeHi)
      feeAmountLo feeAmountHi openings.feeLo openings.feeHi)
  let deltaFeeComplement ← okOr (checkedSub 9999 claimedDeltaFee) .feeCalculation
  let maxFeeBasisPointsSubOneCommitment := pedersenWith B 9999 0
  let claimedComplementCommitment := maxFeeBasisPointsSubOneCommitment - claimedCommitment
  let claimedComplementOpening := 0 - openings.claimed
  let rangeProofData ← mapError (library.buildBatchedRangeProofU256Data
    [newAvailableBalanceCommitment, groupedCiphertextLo.commitment, groupedCiphertextHi.commitment,
      claimedCommitment, claimedComplementCommitment, feeCiphertextLo.commitment,
      feeCiphertextHi.commitment, netTransferAmountCommitment]
    [newDecryptedAvailableBalance, transferAmountLo, transferAmountHi, claimedDeltaFee,
      deltaFeeComplement, feeAmountLo, feeAmountHi, netTransferAmount]
    [64, 16, 32, 16, 16, 16, 32, 64]
    [openings.newBalance, openings.amountLo, openings.amountHi, openings.claimed,
      claimedComplementOpening, openings.feeLo, openings.feeHi, netTransferAmountOpening])
  .ok ⟨equalityProofData,
    ⟨transferAmountCiphertextValidityProofData, auditorCiphertextLo, auditorCiphertextHi⟩,
    percentageWithCapProofData, feeCiphertextValidityProofData, rangeProofData⟩

/-! ### What the helpers compute -/

/-- Shifting out of the word and back leaves the low bits. -/
theorem shiftLeft_mod_shiftRight (amount : ℕ) {bitLength : ℕ} (small : bitLength ≤ 64) :
    (amount <<< (64 - bitLength) % 2 ^ 64) >>> (64 - bitLength) = amount % 2 ^ bitLength := by
  have word : 2 ^ 64 = 2 ^ bitLength * 2 ^ (64 - bitLength) := by
    rw [← Nat.pow_add, Nat.add_sub_cancel' small]
  rw [Nat.shiftLeft_eq, Nat.shiftRight_eq_div_pow, word, Nat.mul_mod_mul_right,
    Nat.mul_div_cancel _ (Nat.two_pow_pos _)]

/-- **An amount splits into its low bits and the rest.** -/
theorem trySplitU64_eq (amount : ℕ) {bitLength : ℕ} (small : bitLength < 64) :
    trySplitU64 amount bitLength = some (amount % 2 ^ bitLength, amount / 2 ^ bitLength) := by
  unfold trySplitU64
  by_cases whole : bitLength = 0
  · rw [if_pos whole, whole, pow_zero, Nat.mod_one, Nat.div_one]
  · have complement : 64 - bitLength < 64 := by omega
    rw [if_neg whole, if_pos (Nat.le_of_lt_succ small)]
    simp only [checkedShl, checkedShr, if_pos complement, if_pos small, Option.bind_eq_bind,
      Option.bind_some]
    rw [shiftLeft_mod_shiftRight amount small.le, Nat.shiftRight_eq_div_pow]

theorem trySplitU64_sixteen (amount : ℕ) :
    trySplitU64 amount 16 = some (amount % 2 ^ 16, amount / 2 ^ 16) :=
  trySplitU64_eq amount (by norm_num)

theorem tryCombineLoHiCiphertexts_sixteen (lo hi : Ciphertext M) :
    tryCombineLoHiCiphertexts lo hi 16 = some (lo + (65536 : Scalar) • hi) := rfl

theorem tryCombineLoHiCommitments_sixteen (lo hi : M) :
    tryCombineLoHiCommitments lo hi 16 = some (lo + (65536 : Scalar) • hi) := rfl

theorem tryCombineLoHiOpenings_sixteen (lo hi : Scalar) :
    tryCombineLoHiOpenings lo hi 16 = some (lo + hi * 65536) := rfl

/-- **The fee is the amount's share rounded up**, and its delta makes it exact. -/
theorem calculateFee_eq {amount bps : ℕ} (amountLt : amount < 2 ^ 48) (bpsLe : bps ≤ 10000) :
    calculateFee amount bps = some ((amount * bps + 9999) / 10000,
      (amount * bps + 9999) / 10000 * 10000 - amount * bps) := by
  have covers : amount * bps ≤ (amount * bps + 9999) / 10000 * 10000 := by omega
  have product : amount * bps ≤ 2 ^ 48 * 10000 := Nat.mul_le_mul amountLt.le bpsLe
  have sum : checkedAdd (2 ^ 128) (amount * bps) 10000 = some (amount * bps + 10000) :=
    checkedAdd_eq_some_iff.mpr ⟨by omega, rfl⟩
  have less : checkedSub (amount * bps + 10000) 1 = some (amount * bps + 9999) :=
    checkedSub_eq_some_iff.mpr ⟨by omega, rfl⟩
  have delta : checkedSub ((amount * bps + 9999) / 10000 * 10000) (amount * bps) =
      some ((amount * bps + 9999) / 10000 * 10000 - amount * bps) := by
    rw [checkedSub, if_pos covers]
  have numeratorLt : amount * bps < 2 ^ 128 := by omega
  have scaledLt : (amount * bps + 9999) / 10000 * 10000 < 2 ^ 128 := by omega
  have feeLt : (amount * bps + 9999) / 10000 < 2 ^ 64 := by omega
  have deltaLt : (amount * bps + 9999) / 10000 * 10000 - amount * bps < 2 ^ 64 := by omega
  simp only [calculateFee, if_pos numeratorLt, sum, less, delta, if_pos scaledLt,
    Option.bind_eq_bind, Option.bind_some, Nat.mod_eq_of_lt feeLt, Nat.mod_eq_of_lt deltaLt]

end Token2022.Ristretto
