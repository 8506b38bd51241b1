/-
**The amounts of a transfer with fee.**

The client computes the fee, what it exceeds the exact share by, and what the destination receives,
with its own checked arithmetic. The program computes the fee of a plain transfer from the same
parameters.

* `FeeAmounts`, `FeeAmounts.ranged` — the amounts that go into the proofs, and those among them whose
  range is proved, each with its bit length.
* `requestFeeProofs` — what the client asks of the proof library, with given amounts.
* `feeAmounts`, **`transferWithFeeSplitProofData_eq`** — the amounts that it asks with.
* `FeeAmounts.Complete`, `feeAmounts_complete`, `feeAmounts_inRange` — the parts make up the wholes,
  and fit their bit lengths.
* **`confidential_fee_eq_plain`** — the fee among them is that of a plain transfer, and all are in
  range.
-/

import Token2022.Confidential.Agreement
import Token2022.Lib.Avoids

namespace Token2022.Ristretto

open Fallible Pedersen

variable {M AeKey : Type} [AddCommGroup M] [Module Scalar M] {B : Bases M}

/-! ### The amounts and the requests -/

/-- The amounts that go into the proofs of a transfer with fee. -/
structure FeeAmounts where
  newBalance : ℕ
  amountLo : ℕ
  amountHi : ℕ
  fee : ℕ
  feeLo : ℕ
  feeHi : ℕ
  /-- The claimed delta, and what is left of 9999. -/
  claimed : ℕ
  complement : ℕ
  net : ℕ

/-- The amounts of the range proof, each with its bit length. -/
def FeeAmounts.ranged (amounts : FeeAmounts) : List (ℕ × ℕ) :=
  [(amounts.newBalance, 64), (amounts.amountLo, 16), (amounts.amountHi, 32), (amounts.claimed, 16),
    (amounts.complement, 16), (amounts.feeLo, 16), (amounts.feeHi, 32), (amounts.net, 64)]

/-- What `transfer_with_fee_split_proof_data` asks of the proof library, with the amounts given. -/
def requestFeeProofs (library : ProofLibrary B AeKey) (currentAvailableBalance : Ciphertext M)
    (sourceElgamalKeypair : ElGamalKeypair B) (destinationElgamalPubkey : M)
    (auditorElgamalPubkey : Option M) (withdrawWithheldAuthorityElgamalPubkey : M)
    (feeRateBasisPoints maximumFee : ℕ) (openings : FeeOpenings) (amounts : FeeAmounts) :
    GenerationResult (TransferWithFeeProofData M) := do
  let auditorElgamalPubkey := auditorElgamalPubkey.getD 0
  let amountCiphertextLo := transferAmountCiphertext B amounts.amountLo sourceElgamalKeypair.pubkey
    destinationElgamalPubkey auditorElgamalPubkey openings.amountLo
  let amountCiphertextHi := transferAmountCiphertext B amounts.amountHi sourceElgamalKeypair.pubkey
    destinationElgamalPubkey auditorElgamalPubkey openings.amountHi
  let newBalanceCommitment := pedersenWith B amounts.newBalance openings.newBalance
  let equalityProofData ← mapError (library.buildCiphertextCommitmentEqualityProofData
    sourceElgamalKeypair
    (currentAvailableBalance - sourceCiphertext amountCiphertextLo amountCiphertextHi)
    newBalanceCommitment openings.newBalance amounts.newBalance)
  let amountValidityProofData ← mapError
    (library.buildBatchedGroupedCiphertext3HandlesValidityProofData sourceElgamalKeypair.pubkey
      destinationElgamalPubkey auditorElgamalPubkey amountCiphertextLo amountCiphertextHi
      amounts.amountLo amounts.amountHi openings.amountLo openings.amountHi)
  let auditorCiphertextLo ← okOr
    (tryExtractCiphertext amountValidityProofData.groupedCiphertextLo 2) .ciphertextExtraction
  let auditorCiphertextHi ← okOr
    (tryExtractCiphertext amountValidityProofData.groupedCiphertextHi 2) .ciphertextExtraction
  let feeCiphertextLo := feeCiphertext B amounts.feeLo destinationElgamalPubkey
    withdrawWithheldAuthorityElgamalPubkey openings.feeLo
  let feeCiphertextHi := feeCiphertext B amounts.feeHi destinationElgamalPubkey
    withdrawWithheldAuthorityElgamalPubkey openings.feeHi
  let combinedCommitment :=
    amountCiphertextLo.commitment + (65536 : Scalar) • amountCiphertextHi.commitment
  let combinedOpening := openings.amountLo + openings.amountHi * 65536
  let combinedFeeCommitment :=
    feeCiphertextLo.commitment + (65536 : Scalar) • feeCiphertextHi.commitment
  let combinedFeeOpening := openings.feeLo + openings.feeHi * 65536
  let claimedCommitment := pedersenWith B amounts.claimed openings.claimed
  let (deltaCommitment, deltaOpening) := computeDeltaCommitmentAndOpening combinedCommitment
    combinedOpening combinedFeeCommitment combinedFeeOpening feeRateBasisPoints
  let percentageWithCapProofData ← mapError (library.buildPercentageWithCapProofData
    combinedFeeCommitment combinedFeeOpening amounts.fee deltaCommitment deltaOpening
    amounts.claimed claimedCommitment openings.claimed maximumFee)
  let feeCiphertextValidityProofData ← mapError
    (library.buildBatchedGroupedCiphertext2HandlesValidityProofData destinationElgamalPubkey
      withdrawWithheldAuthorityElgamalPubkey feeCiphertextLo feeCiphertextHi amounts.feeLo
      amounts.feeHi openings.feeLo openings.feeHi)
  let rangeProofData ← mapError (library.buildBatchedRangeProofU256Data
    [newBalanceCommitment, amountCiphertextLo.commitment, amountCiphertextHi.commitment,
      claimedCommitment, pedersenWith B 9999 0 - claimedCommitment, feeCiphertextLo.commitment,
      feeCiphertextHi.commitment, combinedCommitment - combinedFeeCommitment]
    (amounts.ranged.map Prod.fst) (amounts.ranged.map Prod.snd)
    [openings.newBalance, openings.amountLo, openings.amountHi, openings.claimed,
      0 - openings.claimed, openings.feeLo, openings.feeHi, combinedOpening - combinedFeeOpening])
  .ok ⟨equalityProofData, ⟨amountValidityProofData, auditorCiphertextLo, auditorCiphertextHi⟩,
    percentageWithCapProofData, feeCiphertextValidityProofData, rangeProofData⟩

/-- A request of the library fails with the errors of the library. -/
theorem avoids_mapError {α : Type} {x : Except ProofGenerationError α} :
    Avoids TokenProofGenerationError.feeCalculation (mapError x) := by
  cases x with
  | ok a => exact avoids_ok a
  | error e => exact avoids_error nofun

variable {library : ProofLibrary B AeKey} {current : Ciphertext M} {decryptable : AeCiphertext}
  {amount balance : ℕ} {keypair : ElGamalKeypair B} {aesKey : AeKey} {destination : M}
  {auditor : Option M} {withdrawWithheldAuthority : M} {bps maximumFee : ℕ} {openings : FeeOpenings}

/-- With the amounts given, there is no fee to calculate. -/
theorem requestFeeProofs_avoids (amounts : FeeAmounts) :
    Avoids TokenProofGenerationError.feeCalculation
      (requestFeeProofs library current keypair destination auditor withdrawWithheldAuthority bps
        maximumFee openings amounts) := by
  have other : TokenProofGenerationError.ciphertextExtraction ≠ .feeCalculation := nofun
  refine avoids_mapError.bind fun _ _ => avoids_mapError.bind fun _ _ => ?_
  refine (avoids_okOr other).bind fun _ _ => (avoids_okOr other).bind fun _ _ => ?_
  refine avoids_mapError.bind fun _ _ => avoids_mapError.bind fun _ _ => ?_
  exact avoids_mapError.bind fun _ _ => avoids_ok _

/-! ### The amounts that are asked with -/

/-- The share of an amount, rounded up, before it is cut to the maximum. -/
def rawFee (amount bps : ℕ) : ℕ := (amount * bps + 9999) / 10000

/-- The amounts of a transfer out of a balance. -/
def feeAmounts (amount balance bps maximumFee : ℕ) : FeeAmounts :=
  let fee := min (rawFee amount bps) maximumFee
  let claimed := if maximumFee < rawFee amount bps then 0
    else rawFee amount bps * 10000 - amount * bps
  { newBalance := balance - amount
    amountLo := amount % 2 ^ 16
    amountHi := amount / 2 ^ 16
    fee
    feeLo := fee % 2 ^ 16
    feeHi := fee / 2 ^ 16
    claimed
    complement := 9999 - claimed
    net := amount - fee }

/-- The share rounded up is less than one unit above the exact share, and not above the amount. -/
theorem rawFee_bounds (amount : ℕ) (bpsLe : bps ≤ 10000) :
    amount * bps ≤ rawFee amount bps * 10000 ∧ rawFee amount bps * 10000 ≤ amount * bps + 9999 ∧
      rawFee amount bps ≤ amount := by
  have share : amount * bps ≤ amount * 10000 := Nat.mul_le_mul_left amount bpsLe
  unfold rawFee
  omega

/-- **The client asks with these amounts**: none of its checks fails. -/
theorem transferWithFeeSplitProofData_eq (amountLt : amount < 2 ^ 48)
    (read : library.decrypt decryptable aesKey = some balance) (covered : amount ≤ balance)
    (bpsLe : bps ≤ 10000) :
    transferWithFeeSplitProofData library current decryptable amount keypair aesKey destination
        auditor withdrawWithheldAuthority bps maximumFee openings =
      requestFeeProofs library current keypair destination auditor withdrawWithheldAuthority bps
        maximumFee openings (feeAmounts amount balance bps maximumFee) := by
  obtain ⟨le, lt, whole⟩ := rawFee_bounds amount bpsLe
  have raw : calculateFee amount bps =
      some (rawFee amount bps, rawFee amount bps * 10000 - amount * bps) :=
    calculateFee_eq amountLt bpsLe
  have cut : (if maximumFee < rawFee amount bps then (maximumFee, 0)
      else (rawFee amount bps, rawFee amount bps * 10000 - amount * bps)) =
      ((feeAmounts amount balance bps maximumFee).fee,
        (feeAmounts amount balance bps maximumFee).claimed) := by
    simp only [feeAmounts]
    split
    · rw [Nat.min_eq_right (by omega)]
    · rw [Nat.min_eq_left (by omega)]
  have left : checkedSub balance amount = some (balance - amount) := if_pos covered
  have net : checkedSub amount (feeAmounts amount balance bps maximumFee).fee =
      some (amount - (feeAmounts amount balance bps maximumFee).fee) :=
    if_pos ((Nat.min_le_left _ _).trans whole)
  have complement : checkedSub 9999 (feeAmounts amount balance bps maximumFee).claimed =
      some (9999 - (feeAmounts amount balance bps maximumFee).claimed) := by
    refine if_pos ?_
    simp only [feeAmounts]
    split <;> omega
  simp only [transferWithFeeSplitProofData, trySplitU64_sixteen, tryCombineLoHiCiphertexts_sixteen,
    tryCombineLoHiCommitments_sixteen, tryCombineLoHiOpenings_sixteen, raw, cut, read, left, net,
    complement, okOr_some_bind]
  rfl

/-- The parts make up the wholes. -/
structure FeeAmounts.Complete (amounts : FeeAmounts) (amount balance : ℕ) : Prop where
  ofBalance : amounts.newBalance + amount = balance
  ofAmount : amounts.amountLo + 2 ^ 16 * amounts.amountHi = amount
  ofFee : amounts.feeLo + 2 ^ 16 * amounts.feeHi = amounts.fee
  ofNet : amounts.fee + amounts.net = amount
  ofClaimed : amounts.claimed + amounts.complement = 9999

theorem feeAmounts_complete (maximumFee : ℕ) (covered : amount ≤ balance) (bpsLe : bps ≤ 10000) :
    (feeAmounts amount balance bps maximumFee).Complete amount balance := by
  obtain ⟨le, lt, whole⟩ := rawFee_bounds amount bpsLe
  have feeLe : min (rawFee amount bps) maximumFee ≤ amount := (Nat.min_le_left _ _).trans whole
  exact {
    ofBalance := Nat.sub_add_cancel covered
    ofAmount := Nat.mod_add_div amount (2 ^ 16)
    ofFee := Nat.mod_add_div _ (2 ^ 16)
    ofNet := Nat.add_sub_cancel' feeLe
    ofClaimed := by
      simp only [feeAmounts]
      split <;> omega }

/-- **What is proved to be in range is in range.** -/
theorem feeAmounts_inRange (amountLt : amount < 2 ^ 48) (balanceLt : balance < 2 ^ 64)
    (covered : amount ≤ balance) (bpsLe : bps ≤ 10000) :
    ∀ ranged ∈ (feeAmounts amount balance bps maximumFee).ranged, ranged.1 < 2 ^ ranged.2 := by
  have complete := feeAmounts_complete maximumFee covered bpsLe
  have feeLt : (feeAmounts amount balance bps maximumFee).feeHi < 2 ^ 32 := by
    have parts := complete.ofFee
    have whole := complete.ofNet
    omega
  have amountLoLt : amount % 2 ^ 16 < 2 ^ 16 := Nat.mod_lt _ (by norm_num)
  have feeLoLt : (feeAmounts amount balance bps maximumFee).feeLo < 2 ^ 16 :=
    Nat.mod_lt _ (by norm_num)
  obtain ⟨newBalance, amountParts, -, net, claimed⟩ := complete
  simp only [FeeAmounts.ranged, List.forall_mem_cons]
  refine ⟨?_, amountLoLt, ?_, ?_, ?_, feeLoLt, feeLt, ?_, nofun⟩
  all_goals omega

/-- **The confidential fee is the plain fee.** For an amount below `2 ^ 48` and within the balance,
and fee parameters that a mint can have: the client asks the proof library with amounts that make up
the amount, the balance and the fee. The fee is that of a plain transfer of the amount; the claimed
delta is at most 9999, and is what a fee below the maximum exceeds the exact share by; what is proved
to be in range is in range; and no step of the calculation of the fee fails. -/
theorem confidential_fee_eq_plain (amountLt : amount < 2 ^ 48) (balanceLt : balance < 2 ^ 64)
    (read : library.decrypt decryptable aesKey = some balance) (covered : amount ≤ balance)
    (bpsLe : bps ≤ 10000) :
    ∃ amounts : FeeAmounts,
      transferWithFeeSplitProofData library current decryptable amount keypair aesKey destination
          auditor withdrawWithheldAuthority bps maximumFee openings =
        requestFeeProofs library current keypair destination auditor withdrawWithheldAuthority bps
          maximumFee openings amounts ∧
      amounts.Complete amount balance ∧
      (∀ epoch, TransferFee.calculateFee ⟨epoch, maximumFee, bps⟩ amount = some amounts.fee) ∧
      amounts.claimed ≤ 9999 ∧
      (amounts.fee < maximumFee →
        (amounts.claimed : ℤ) = amounts.fee * 10000 - amount * bps) ∧
      (∀ ranged ∈ amounts.ranged, ranged.1 < 2 ^ ranged.2) ∧
      Avoids TokenProofGenerationError.feeCalculation
        (transferWithFeeSplitProofData library current decryptable amount keypair aesKey destination
          auditor withdrawWithheldAuthority bps maximumFee openings) := by
  have complete := feeAmounts_complete maximumFee covered bpsLe
  have asked : transferWithFeeSplitProofData library current decryptable amount keypair aesKey
      destination auditor withdrawWithheldAuthority bps maximumFee openings = _ :=
    transferWithFeeSplitProofData_eq amountLt read covered bpsLe
  refine ⟨feeAmounts amount balance bps maximumFee, asked, complete,
    fun epoch => calculateFee_eq_some bpsLe amountLt, ?_, fun below => ?_,
    feeAmounts_inRange amountLt balanceLt covered bpsLe, ?_⟩
  · have claimed := complete.ofClaimed
    omega
  · -- a fee below the maximum was not cut
    have uncut : ¬ maximumFee < rawFee amount bps := by
      intro cut
      exact below.ne (Nat.min_eq_right cut.le)
    have fee : (feeAmounts amount balance bps maximumFee).fee = rawFee amount bps :=
      Nat.min_eq_left (Nat.le_of_not_lt uncut)
    have claimed : (feeAmounts amount balance bps maximumFee).claimed =
      rawFee amount bps * 10000 - amount * bps := if_neg uncut
    have le := (rawFee_bounds amount bpsLe).1
    rw [fee, claimed, Nat.cast_sub le]
    push_cast
    ring
  · rw [asked]
    exact requestFeeProofs_avoids _

/-- One percent of 65538 is 655.38: the fee is 656, and the claimed delta is 6200. -/
theorem confidential_fee_eq_plain_example : ∃ amounts : FeeAmounts,
    transferWithFeeSplitProofData exampleLibrary ⟨(100000, 0), (0, 0)⟩ 0 65538 exampleKeypair ()
        (0, 3) none (0, 5) 100 5000 ⟨1, 2, 3, 4, 5, 6⟩ =
      requestFeeProofs exampleLibrary ⟨(100000, 0), (0, 0)⟩ exampleKeypair (0, 3) none (0, 5) 100
        5000 ⟨1, 2, 3, 4, 5, 6⟩ amounts ∧ amounts.fee = 656 ∧ amounts.claimed = 6200 := by
  obtain ⟨amounts, asked, -, plain, -, delta, -, -⟩ := @confidential_fee_eq_plain _ _ _ _ _
    exampleLibrary ⟨(100000, 0), (0, 0)⟩ 0 65538 100000 exampleKeypair () (0, 3) none (0, 5) 100 5000
    ⟨1, 2, 3, 4, 5, 6⟩ (by norm_num) (by norm_num) rfl (by norm_num) (by norm_num)
  have fee : amounts.fee = 656 := Option.some.inj ((plain 0).symm.trans (by decide))
  refine ⟨amounts, asked, fee, ?_⟩
  have claimed := delta (by omega)
  rw [fee] at claimed
  omega

end Token2022.Ristretto
