/-
**The verifier accepts what the generators make.**

* **`transferSplitProofData_accepted`**, … — the contexts of the generated proofs pass the composition
  of the same instruction, which extracts the parts of the amount under the intended keys.
* **`generated_proofs_accepted`** — for all five, with the fee that the parameters ask for.
-/

import Mathlib.Data.List.GetD
import Token2022.Confidential.Generation
import Token2022.Confidential.Soundness

namespace Token2022.Ristretto

open Fallible Pedersen

variable {M AeKey : Type} [AddCommGroup M] [Module Scalar M] [DecidableEq M] {B : Bases M}
  {library : ProofLibrary B AeKey}

/-! ### The entries of a padded range proof -/

omit [Module Scalar M] in
/-- A range proof's commitments start with those it was asked for. -/
theorem startsWith_commitments (expected padding : List M) (bitLengths : List ℕ) :
    startsWith (rangeContext (expected ++ padding) bitLengths).commitments expected = true := by
  rw [startsWith_iff]
  intro i _ inExpected
  show (expected ++ padding).getD i 0 = expected[i]
  rw [List.getD_append _ _ _ _ inExpected, List.getD_eq_getElem _ _ inExpected]

omit [Module Scalar M] [DecidableEq M] in
/-- And so do its bit lengths. -/
theorem startsWith_bitLengths (commitments : List M) (bitLengths : List ℕ) :
    startsWith (rangeContext commitments bitLengths).bitLengths bitLengths = true := by
  rw [startsWith_iff]
  intro i _ inExpected
  exact List.getD_eq_getElem _ _ inExpected

/-! ### One generator at a time -/

/-- **A generated withdrawal is accepted.** -/
theorem withdrawProofData_accepted (faithful : library.Faithful) {current : Ciphertext M}
    {balance amount : ℕ} {keypair : ElGamalKeypair B} {opening : Scalar} {data : WithdrawProofData M}
    (ok : withdrawProofData library current balance amount keypair opening = .ok data) :
    WithdrawProofContext.verifyAndExtract data.equalityProofData data.rangeProofData =
      .ok ⟨keypair.pubkey, subtractAmount B current amount⟩ := by
  simp only [withdrawProofData, bind_eq_ok_iff, okOr_eq_ok_iff, mapError_eq_ok_iff,
    Except.ok.injEq] at ok
  obtain ⟨remaining, -, equality, equalityOk, range, rangeOk, rfl⟩ := ok
  obtain rfl := faithful.equality equalityOk
  obtain rfl := faithful.rangeU64 rangeOk
  rw [WithdrawProofContext.verifyAndExtract_eq_ok_iff]
  exact ⟨rfl, rfl, rfl⟩

/-- **A generated transfer is accepted.** -/
theorem transferSplitProofData_accepted (faithful : library.Faithful) {current : Ciphertext M}
    {decryptable : AeCiphertext} {amount : ℕ} {keypair : ElGamalKeypair B} {aesKey : AeKey}
    {destination : M} {auditor : Option M} {openings : SplitOpenings} {data : TransferProofData M}
    (ok : transferSplitProofData library current decryptable amount keypair aesKey destination auditor
      openings = .ok data) :
    TransferProofContext.verifyAndExtract data.equalityProofData
        data.ciphertextValidityProofDataWithCiphertext.proofData data.rangeProofData = .ok {
      ciphertextLo := transferAmountCiphertext B (amount % 2 ^ 16) keypair.pubkey destination
        (auditor.getD 0) openings.amountLo
      ciphertextHi := transferAmountCiphertext B (amount / 2 ^ 16) keypair.pubkey destination
        (auditor.getD 0) openings.amountHi
      transferPubkeys := ⟨keypair.pubkey, destination, auditor.getD 0⟩
      newSourceCiphertext := current -
        ((transferAmountCiphertext B (amount % 2 ^ 16) keypair.pubkey destination (auditor.getD 0)
            openings.amountLo).toCiphertext 0 +
          (65536 : Scalar) • (transferAmountCiphertext B (amount / 2 ^ 16) keypair.pubkey destination
            (auditor.getD 0) openings.amountHi).toCiphertext 0) } := by
  simp only [transferSplitProofData, trySplitU64_sixteen, tryCombineLoHiCiphertexts_sixteen,
    bind_eq_ok_iff, okOr_eq_ok_iff, mapError_eq_ok_iff, Option.some.injEq, exists_eq_left',
    Except.ok.injEq] at ok
  obtain ⟨balance, -, remaining, -, equality, equalityOk, validity, validityOk, auditorLo, -,
    auditorHi, -, range, rangeOk, rfl⟩ := ok
  obtain rfl := faithful.equality equalityOk
  obtain rfl := faithful.validity3 validityOk
  obtain rfl := faithful.rangeU128 rangeOk
  simp only [TransferProofContext.verifyAndExtract, require_bind_eq_ok_iff, true_and,
    and_true]
  exact ⟨startsWith_commitments [_, _, _] [_] _, startsWith_bitLengths _ _⟩

/-- **A generated burn is accepted.** -/
theorem burnSplitProofData_accepted (faithful : library.Faithful) {current : Ciphertext M}
    {decryptable : AeCiphertext} {amount : ℕ} {keypair : ElGamalKeypair B} {aesKey : AeKey}
    {supply : M} {auditor : Option M} {openings : SplitOpenings} {data : BurnProofData M}
    (ok : burnSplitProofData library current decryptable amount keypair aesKey supply auditor
      openings = .ok data) :
    BurnProofContext.verifyAndExtract data.equalityProofData
        data.ciphertextValidityProofDataWithCiphertext.proofData data.rangeProofData = .ok {
      burnAmountCiphertextLo := burnAmountCiphertext B (amount % 2 ^ 16) keypair.pubkey supply
        (auditor.getD 0) openings.amountLo
      burnAmountCiphertextHi := burnAmountCiphertext B (amount / 2 ^ 16) keypair.pubkey supply
        (auditor.getD 0) openings.amountHi
      burnPubkeys := ⟨keypair.pubkey, supply, auditor.getD 0⟩
      remainingBalanceCiphertext := current -
        ((burnAmountCiphertext B (amount % 2 ^ 16) keypair.pubkey supply (auditor.getD 0)
            openings.amountLo).toCiphertext 0 +
          (65536 : Scalar) • (burnAmountCiphertext B (amount / 2 ^ 16) keypair.pubkey supply
            (auditor.getD 0) openings.amountHi).toCiphertext 0) } := by
  simp only [burnSplitProofData, trySplitU64_sixteen, tryCombineLoHiCiphertexts_sixteen,
    bind_eq_ok_iff, okOr_eq_ok_iff, mapError_eq_ok_iff, Option.some.injEq, exists_eq_left',
    Except.ok.injEq] at ok
  obtain ⟨balance, -, remaining, -, equality, equalityOk, validity, validityOk, auditorLo, -,
    auditorHi, -, range, rangeOk, rfl⟩ := ok
  obtain rfl := faithful.equality equalityOk
  obtain rfl := faithful.validity3 validityOk
  obtain rfl := faithful.rangeU128 rangeOk
  simp only [BurnProofContext.verifyAndExtract, require_bind_eq_ok_iff, true_and,
    and_true]
  exact ⟨startsWith_commitments [_, _, _] [_] _, startsWith_bitLengths _ _⟩

/-- **A generated mint is accepted.** -/
theorem mintSplitProofData_accepted (faithful : library.Faithful) {current : Ciphertext M}
    {amount supply : ℕ} {keypair : ElGamalKeypair B} {destination : M} {auditor : Option M}
    {openings : SplitOpenings} {data : MintProofData M}
    (ok : mintSplitProofData library current amount supply keypair destination auditor openings =
      .ok data) :
    MintProofContext.verifyAndExtract data.equalityProofData
        data.ciphertextValidityProofDataWithCiphertext.proofData data.rangeProofData = .ok {
      mintAmountCiphertextLo := mintAmountCiphertext B (amount % 2 ^ 16) destination keypair.pubkey
        (auditor.getD 0) openings.amountLo
      mintAmountCiphertextHi := mintAmountCiphertext B (amount / 2 ^ 16) destination keypair.pubkey
        (auditor.getD 0) openings.amountHi
      mintPubkeys := ⟨destination, keypair.pubkey, auditor.getD 0⟩
      newSupplyCiphertext := current +
        ((mintAmountCiphertext B (amount % 2 ^ 16) destination keypair.pubkey (auditor.getD 0)
            openings.amountLo).toCiphertext 1 +
          (65536 : Scalar) • (mintAmountCiphertext B (amount / 2 ^ 16) destination keypair.pubkey
            (auditor.getD 0) openings.amountHi).toCiphertext 1) } := by
  simp only [mintSplitProofData, trySplitU64_sixteen, tryCombineLoHiCiphertexts_sixteen,
    bind_eq_ok_iff, okOr_eq_ok_iff, mapError_eq_ok_iff, Option.some.injEq, exists_eq_left',
    Except.ok.injEq] at ok
  obtain ⟨newSupply, -, equality, equalityOk, validity, validityOk, auditorLo, -,
    auditorHi, -, range, rangeOk, rfl⟩ := ok
  obtain rfl := faithful.equality equalityOk
  obtain rfl := faithful.validity3 validityOk
  obtain rfl := faithful.rangeU128 rangeOk
  simp only [MintProofContext.verifyAndExtract, require_bind_eq_ok_iff, true_and,
    and_true]
  exact ⟨startsWith_commitments [_, _, _] [_] _, startsWith_bitLengths _ _⟩

/-- **A generated transfer with fee is accepted**, by a verifier with the same fee parameters. -/
theorem transferWithFeeSplitProofData_accepted (faithful : library.Faithful) {current : Ciphertext M}
    {decryptable : AeCiphertext} {amount : ℕ} {keypair : ElGamalKeypair B} {aesKey : AeKey}
    {destination : M} {auditor : Option M} {withdrawWithheldAuthority : M} {bps maximumFee : ℕ}
    {openings : FeeOpenings} {data : TransferWithFeeProofData M} (amountLt : amount < 2 ^ 48)
    (bpsLe : bps ≤ 10000)
    (ok : transferWithFeeSplitProofData library current decryptable amount keypair aesKey destination
      auditor withdrawWithheldAuthority bps maximumFee openings = .ok data) :
    TransferWithFeeProofContext.verifyAndExtract B data.equalityProofData
        data.transferAmountCiphertextValidityProofDataWithCiphertext.proofData
        data.percentageWithCapProofData data.feeCiphertextValidityProofData data.rangeProofData bps
        maximumFee = .ok {
      ciphertextLo := transferAmountCiphertext B (amount % 2 ^ 16) keypair.pubkey destination
        (auditor.getD 0) openings.amountLo
      ciphertextHi := transferAmountCiphertext B (amount / 2 ^ 16) keypair.pubkey destination
        (auditor.getD 0) openings.amountHi
      transferWithFeePubkeys := ⟨keypair.pubkey, destination, auditor.getD 0,
        withdrawWithheldAuthority⟩
      newSourceCiphertext := current -
        ((transferAmountCiphertext B (amount % 2 ^ 16) keypair.pubkey destination (auditor.getD 0)
            openings.amountLo).toCiphertext 0 +
          (65536 : Scalar) • (transferAmountCiphertext B (amount / 2 ^ 16) keypair.pubkey destination
            (auditor.getD 0) openings.amountHi).toCiphertext 0)
      feeCiphertextLo := feeCiphertext B (min ((amount * bps + 9999) / 10000) maximumFee % 2 ^ 16)
        destination withdrawWithheldAuthority openings.feeLo
      feeCiphertextHi := feeCiphertext B (min ((amount * bps + 9999) / 10000) maximumFee / 2 ^ 16)
        destination withdrawWithheldAuthority openings.feeHi } := by
  simp only [transferWithFeeSplitProofData, trySplitU64_sixteen, tryCombineLoHiCiphertexts_sixteen,
    tryCombineLoHiCommitments_sixteen, tryCombineLoHiOpenings_sixteen,
    calculateFee_eq amountLt bpsLe, bind_eq_ok_iff, okOr_eq_ok_iff, mapError_eq_ok_iff,
    Option.some.injEq, exists_eq_left'] at ok
  obtain ⟨balance, -, remaining, -, equality, equalityOk, validity, validityOk, auditorLo, -,
    auditorHi, -, ok⟩ := ok
  -- The cut leaves the smaller of the raw fee and the maximum.
  have cut : (if maximumFee < (amount * bps + 9999) / 10000 then (maximumFee, 0)
      else ((amount * bps + 9999) / 10000,
        (amount * bps + 9999) / 10000 * 10000 - amount * bps)).1 =
      min ((amount * bps + 9999) / 10000) maximumFee := by
    split <;> omega
  generalize (if maximumFee < (amount * bps + 9999) / 10000 then (maximumFee, 0)
    else ((amount * bps + 9999) / 10000,
      (amount * bps + 9999) / 10000 * 10000 - amount * bps)) = fee at ok cut
  obtain ⟨feeAmount, claimed⟩ := fee
  obtain rfl : feeAmount = min ((amount * bps + 9999) / 10000) maximumFee := cut
  obtain ⟨net, -, feeSigma, feeSigmaOk, feeValidity, feeValidityOk, complement, -, range, rangeOk,
    same⟩ := ok
  obtain rfl := Except.ok.inj same
  obtain rfl := faithful.equality equalityOk
  obtain rfl := faithful.validity3 validityOk
  obtain rfl := faithful.percentage feeSigmaOk
  obtain rfl := faithful.validity2 feeValidityOk
  obtain rfl := faithful.rangeU256 rangeOk
  simp only [TransferWithFeeProofContext.verifyAndExtract, combineLoHiPedersenPoints_eq, multiply,
    subtract, toScalar, require_bind_eq_ok_iff, okOr_bind_eq_ok_iff, Option.some.injEq,
    exists_eq_left', true_and]
  have nine : pedersenWith B 9999 0 = (9999 : Scalar) • B.G := Bases.commit_zero_right
  rw [nine]
  refine ⟨startsWith_commitments [_, _, _, _, _, _, _, _] [] _, startsWith_bitLengths _ _, rfl, ?_⟩
  rw [bind_eq_ok_iff]
  exact ⟨(), verifyDeltaCommitment_eq_ok_iff.mpr rfl, rfl⟩

/-! ### What is extracted -/

omit [DecidableEq M] in
/-- The two parts of an amount, encrypted with any openings, encrypt it. -/
theorem encryptsAmount_encryptWith {n : ℕ} (keys : Fin n → M) {amount : ℕ} (small : amount < 2 ^ 48)
    (openingLo openingHi : Scalar) :
    EncryptsAmount B keys (B.encryptWith keys ((amount % 2 ^ 16 : ℕ) : Scalar) openingLo)
      (B.encryptWith keys ((amount / 2 ^ 16 : ℕ) : Scalar) openingHi) amount :=
  ⟨amount % 2 ^ 16, amount / 2 ^ 16, by omega, by omega, by omega, ⟨openingLo, rfl⟩, openingHi, rfl⟩

omit [DecidableEq M] in
/-- **Under each key that has a secret, the combined ciphertext decrypts to the amount.** -/
theorem EncryptsAmount.decryptsTo {n : ℕ} {keys : Fin n → M} {lo hi : Grouped M n} {amount : ℕ}
    (encrypts : EncryptsAmount B keys lo hi amount) (i : Fin n) {secret : Scalar}
    (owns : secret • keys i = B.H) :
    B.DecryptsTo (keys i) (lo.toCiphertext i + (65536 : Scalar) • hi.toCiphertext i)
      (amount : Scalar) := by
  obtain ⟨low, high, -, -, rfl, encryptsLo, encryptsHi⟩ := encrypts
  have sum := (encryptsLo.decryptsTo i owns).add ((encryptsHi.decryptsTo i owns).smul 65536)
  have total : ((low + 2 ^ 16 * high : ℕ) : Scalar) = low + 65536 * high := by
    push_cast
    norm_num
  rwa [total]

omit [DecidableEq M] in
theorem decryptsTo_subtractAmount {key : M} {c : Ciphertext M} {value : Scalar}
    (decrypts : B.DecryptsTo key c value) (amount : ℕ) :
    B.DecryptsTo key (subtractAmount B c amount) (value - amount) := by
  refine ⟨decrypts.1, fun secret owns => ?_⟩
  calc c.commitment - (amount : Scalar) • B.G - secret • c.handle
      = (c.commitment - secret • c.handle) - (amount : Scalar) • B.G := by module
    _ = value • B.G - (amount : Scalar) • B.G := by rw [decrypts.2 secret owns]
    _ = (value - amount) • B.G := (sub_smul value (amount : Scalar) B.G).symm

/-- **Prover and verifier agree.** Whatever a generator returns is accepted by the composition of its
instruction; the keys are where they are meant to be, the amount, and the fee that the parameters ask
for, are encrypted under them, and the new balance or supply differs from the old one by the amount. -/
theorem generated_proofs_accepted (faithful : library.Faithful) :
    (∀ current decryptable amount keypair aesKey destination auditor openings data, amount < 2 ^ 48 →
      transferSplitProofData library current decryptable amount keypair aesKey destination auditor
        openings = .ok data →
      ∃ context, TransferProofContext.verifyAndExtract data.equalityProofData
          data.ciphertextValidityProofDataWithCiphertext.proofData data.rangeProofData =
            .ok context ∧
        context.transferPubkeys = ⟨keypair.pubkey, destination, auditor.getD 0⟩ ∧
        EncryptsAmount B ![keypair.pubkey, destination, auditor.getD 0] context.ciphertextLo
          context.ciphertextHi amount ∧
        ∀ balance : Scalar, B.DecryptsTo keypair.pubkey current balance →
          B.DecryptsTo keypair.pubkey context.newSourceCiphertext (balance - amount)) ∧
    (∀ current decryptable amount keypair aesKey destination auditor withdrawWithheldAuthority bps
        maximumFee openings data, amount < 2 ^ 48 → bps ≤ 10000 →
      transferWithFeeSplitProofData library current decryptable amount keypair aesKey destination
        auditor withdrawWithheldAuthority bps maximumFee openings = .ok data →
      ∃ context fee, TransferWithFeeProofContext.verifyAndExtract B data.equalityProofData
          data.transferAmountCiphertextValidityProofDataWithCiphertext.proofData
          data.percentageWithCapProofData data.feeCiphertextValidityProofData data.rangeProofData
          bps maximumFee = .ok context ∧
        context.transferWithFeePubkeys = ⟨keypair.pubkey, destination, auditor.getD 0,
          withdrawWithheldAuthority⟩ ∧
        EncryptsAmount B ![keypair.pubkey, destination, auditor.getD 0] context.ciphertextLo
          context.ciphertextHi amount ∧
        EncryptsAmount B ![destination, withdrawWithheldAuthority] context.feeCiphertextLo
          context.feeCiphertextHi fee ∧
        (∀ epoch, TransferFee.calculateFee ⟨epoch, maximumFee, bps⟩ amount = some fee) ∧
        ∀ balance : Scalar, B.DecryptsTo keypair.pubkey current balance →
          B.DecryptsTo keypair.pubkey context.newSourceCiphertext (balance - amount)) ∧
    (∀ current balance amount keypair opening data,
      withdrawProofData library current balance amount keypair opening = .ok data →
      ∃ context, WithdrawProofContext.verifyAndExtract data.equalityProofData data.rangeProofData =
          .ok context ∧
        context.sourcePubkey = keypair.pubkey ∧
        ∀ balance : Scalar, B.DecryptsTo keypair.pubkey current balance →
          B.DecryptsTo keypair.pubkey context.remainingBalanceCiphertext (balance - amount)) ∧
    (∀ current amount supply keypair destination auditor openings data, amount < 2 ^ 48 →
      mintSplitProofData library current amount supply keypair destination auditor openings =
        .ok data →
      ∃ context, MintProofContext.verifyAndExtract data.equalityProofData
          data.ciphertextValidityProofDataWithCiphertext.proofData data.rangeProofData =
            .ok context ∧
        context.mintPubkeys = ⟨destination, keypair.pubkey, auditor.getD 0⟩ ∧
        EncryptsAmount B ![destination, keypair.pubkey, auditor.getD 0]
          context.mintAmountCiphertextLo context.mintAmountCiphertextHi amount ∧
        ∀ balance : Scalar, B.DecryptsTo keypair.pubkey current balance →
          B.DecryptsTo keypair.pubkey context.newSupplyCiphertext (balance + amount)) ∧
    ∀ current decryptable amount keypair aesKey supply auditor openings data, amount < 2 ^ 48 →
      burnSplitProofData library current decryptable amount keypair aesKey supply auditor
        openings = .ok data →
      ∃ context, BurnProofContext.verifyAndExtract data.equalityProofData
          data.ciphertextValidityProofDataWithCiphertext.proofData data.rangeProofData =
            .ok context ∧
        context.burnPubkeys = ⟨keypair.pubkey, supply, auditor.getD 0⟩ ∧
        EncryptsAmount B ![keypair.pubkey, supply, auditor.getD 0] context.burnAmountCiphertextLo
          context.burnAmountCiphertextHi amount ∧
        ∀ balance : Scalar, B.DecryptsTo keypair.pubkey current balance →
          B.DecryptsTo keypair.pubkey context.remainingBalanceCiphertext (balance - amount) := by
  refine ⟨?_, ?_, ?_, ?_, ?_⟩
  · intro current decryptable amount keypair aesKey destination auditor openings data small ok
    have encrypts := encryptsAmount_encryptWith (B := B)
      ![keypair.pubkey, destination, auditor.getD 0] small openings.amountLo openings.amountHi
    exact ⟨_, transferSplitProofData_accepted faithful ok, rfl, encrypts,
      fun balance decrypts => decrypts.sub (encrypts.decryptsTo 0 keypair.owns)⟩
  · intro current decryptable amount keypair aesKey destination auditor withdrawWithheldAuthority bps
      maximumFee openings data small bpsLe ok
    have encrypts := encryptsAmount_encryptWith (B := B)
      ![keypair.pubkey, destination, auditor.getD 0] small openings.amountLo openings.amountHi
    -- A share of the amount, rounded up, is not above the amount.
    have product : amount * bps ≤ amount * 10000 := Nat.mul_le_mul_left amount bpsLe
    have feeLt : min ((amount * bps + 9999) / 10000) maximumFee < 2 ^ 48 := by omega
    exact ⟨_, _, transferWithFeeSplitProofData_accepted faithful small bpsLe ok, rfl, encrypts,
      encryptsAmount_encryptWith ![destination, withdrawWithheldAuthority] feeLt openings.feeLo
        openings.feeHi,
      fun epoch => calculateFee_eq_some bpsLe small,
      fun balance decrypts => decrypts.sub (encrypts.decryptsTo 0 keypair.owns)⟩
  · intro current balance amount keypair opening data ok
    exact ⟨_, withdrawProofData_accepted faithful ok, rfl,
      fun value decrypts => decryptsTo_subtractAmount decrypts amount⟩
  · intro current amount supply keypair destination auditor openings data small ok
    have encrypts := encryptsAmount_encryptWith (B := B)
      ![destination, keypair.pubkey, auditor.getD 0] small openings.amountLo openings.amountHi
    exact ⟨_, mintSplitProofData_accepted faithful ok, rfl, encrypts,
      fun balance decrypts => decrypts.add (encrypts.decryptsTo 1 keypair.owns)⟩
  · intro current decryptable amount keypair aesKey supply auditor openings data small ok
    have encrypts := encryptsAmount_encryptWith (B := B)
      ![keypair.pubkey, supply, auditor.getD 0] small openings.amountLo openings.amountHi
    exact ⟨_, burnSplitProofData_accepted faithful ok, rfl, encrypts,
      fun balance decrypts => decrypts.sub (encrypts.decryptsTo 0 keypair.owns)⟩

/-! A library over the free bases that always succeeds, and an owner who has 100000 tokens. -/

/-- A library that answers every request. -/
def exampleLibrary : ProofLibrary (Bases.free Scalar) Unit where
  decrypt _ _ := some 100000
  buildCiphertextCommitmentEqualityProofData keypair ciphertext commitment _ _ :=
    .ok ⟨keypair.pubkey, ciphertext, commitment⟩
  buildBatchedGroupedCiphertext2HandlesValidityProofData first second lo hi _ _ _ _ :=
    .ok ⟨first, second, lo, hi⟩
  buildBatchedGroupedCiphertext3HandlesValidityProofData first second third lo hi _ _ _ _ :=
    .ok ⟨first, second, third, lo, hi⟩
  buildPercentageWithCapProofData percentage _ _ delta _ _ claimed _ maxValue :=
    .ok ⟨percentage, delta, claimed, maxValue⟩
  buildBatchedRangeProofU64Data commitments _ bitLengths _ := .ok (rangeContext commitments bitLengths)
  buildBatchedRangeProofU128Data commitments _ bitLengths _ :=
    .ok (rangeContext commitments bitLengths)
  buildBatchedRangeProofU256Data commitments _ bitLengths _ :=
    .ok (rangeContext commitments bitLengths)

theorem exampleLibrary_faithful : exampleLibrary.Faithful where
  equality ok := (Except.ok.inj ok).symm
  validity2 ok := (Except.ok.inj ok).symm
  validity3 ok := (Except.ok.inj ok).symm
  percentage ok := (Except.ok.inj ok).symm
  rangeU64 ok := (Except.ok.inj ok).symm
  rangeU128 ok := (Except.ok.inj ok).symm
  rangeU256 ok := (Except.ok.inj ok).symm

/-- The key of the secret 1. -/
def exampleKeypair : ElGamalKeypair (Bases.free Scalar) := ⟨1, (0, 1), by decide +kernel⟩

theorem generated_proofs_accepted_example :
    (∃ data context, transferWithFeeSplitProofData exampleLibrary ⟨(100000, 0), (0, 0)⟩ 0 65538
        exampleKeypair () (0, 3) none (0, 5) 100 5000 ⟨1, 2, 3, 4, 5, 6⟩ = .ok data ∧
      TransferWithFeeProofContext.verifyAndExtract (Bases.free Scalar) data.equalityProofData
        data.transferAmountCiphertextValidityProofDataWithCiphertext.proofData
        data.percentageWithCapProofData data.feeCiphertextValidityProofData data.rangeProofData
        100 5000 = .ok context ∧
      EncryptsAmount (Bases.free Scalar) ![(0, 1), (0, 3), 0] context.ciphertextLo
        context.ciphertextHi 65538) ∧
    (∃ data context, transferSplitProofData exampleLibrary ⟨(100000, 0), (0, 0)⟩ 0 65538
        exampleKeypair () (0, 3) none ⟨1, 2, 3, 4⟩ = .ok data ∧
      TransferProofContext.verifyAndExtract data.equalityProofData
        data.ciphertextValidityProofDataWithCiphertext.proofData data.rangeProofData = .ok context) ∧
    (∃ data context, withdrawProofData exampleLibrary ⟨(100000, 0), (0, 0)⟩ 100000 65538
        exampleKeypair 1 = .ok data ∧
      WithdrawProofContext.verifyAndExtract data.equalityProofData data.rangeProofData =
        .ok context) ∧
    (∃ data context, mintSplitProofData exampleLibrary ⟨(100000, 0), (0, 0)⟩ 65538 100000
        exampleKeypair (0, 3) none ⟨1, 2, 3, 4⟩ = .ok data ∧
      MintProofContext.verifyAndExtract data.equalityProofData
        data.ciphertextValidityProofDataWithCiphertext.proofData data.rangeProofData = .ok context) ∧
    ∃ data context, burnSplitProofData exampleLibrary ⟨(100000, 0), (0, 0)⟩ 0 65538
        exampleKeypair () (0, 3) (some (0, 7)) ⟨1, 2, 3, 4⟩ = .ok data ∧
      BurnProofContext.verifyAndExtract data.equalityProofData
        data.ciphertextValidityProofDataWithCiphertext.proofData data.rangeProofData =
          .ok context := by
  obtain ⟨transfer, transferWithFee, withdraw, mint, burn⟩ :=
    generated_proofs_accepted exampleLibrary_faithful
  refine ⟨?_, ?_, ?_, ?_, ?_⟩
  · obtain ⟨context, -, ok, -, encrypts, -⟩ := transferWithFee ⟨(100000, 0), (0, 0)⟩ 0 65538
      exampleKeypair () (0, 3) none (0, 5) 100 5000 ⟨1, 2, 3, 4, 5, 6⟩ _ (by decide) (by decide) rfl
    exact ⟨_, context, rfl, ok, encrypts⟩
  · obtain ⟨context, ok, -⟩ := transfer ⟨(100000, 0), (0, 0)⟩ 0 65538 exampleKeypair () (0, 3) none
      ⟨1, 2, 3, 4⟩ _ (by decide) rfl
    exact ⟨_, context, rfl, ok⟩
  · obtain ⟨context, ok, -⟩ := withdraw ⟨(100000, 0), (0, 0)⟩ 100000 65538 exampleKeypair 1 _ rfl
    exact ⟨_, context, rfl, ok⟩
  · obtain ⟨context, ok, -⟩ := mint ⟨(100000, 0), (0, 0)⟩ 65538 100000 exampleKeypair (0, 3) none
      ⟨1, 2, 3, 4⟩ _ (by decide) rfl
    exact ⟨_, context, rfl, ok⟩
  · obtain ⟨context, ok, -⟩ := burn ⟨(100000, 0), (0, 0)⟩ 0 65538 exampleKeypair () (0, 3)
      (some (0, 7)) ⟨1, 2, 3, 4⟩ _ (by decide) rfl
    exact ⟨_, context, rfl, ok⟩

end Token2022.Ristretto
