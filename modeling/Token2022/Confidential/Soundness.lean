/-
**The compositions over the group refine the ideal ones.**

Where the statements of the composed proofs hold and commitments are binding, every point of a context
stands for a value. The values make a context of the ideal model, and a composition that succeeds on
the points succeeds on them: what the ideal compositions guarantee carries over to the plaintexts.

* `Represents` — an ideal context holds the plaintexts of a context over the group; `Holds.represents`
  — where the statement holds there is one.
* **`TransferProofContext.refines`**, **`TransferWithFeeProofContext.refines`**, … — a successful
  composition stands for a successful ideal one.
* **`composition_sound`** — balances and supplies stay 64-bit numbers, amounts 48-bit ones.
* **`composition_with_fee_sound`** — and a fee is the maximum or the exact share of the amount.
-/

import Token2022.Confidential.Group
import Token2022.Extension.TransferFee

namespace Token2022.Ristretto

open Fallible Pedersen

variable {M : Type} [AddCommGroup M] [Module Scalar M] {B : Bases M}

/-! ### Contexts and their plaintexts -/

section represents

variable (B) (encode : M → ElGamalPubkey)

/-- The ideal context holds the plaintexts of the context. -/
structure CiphertextCommitmentEqualityProofContext.Represents
    (context : CiphertextCommitmentEqualityProofContext M)
    (ideal : Token2022.CiphertextCommitmentEqualityProofContext) : Prop where
  pubkey : ideal.pubkey = encode context.pubkey
  ciphertext : B.DecryptsTo context.pubkey context.ciphertext ideal.ciphertext
  commitment : B.Opens context.commitment ideal.commitment

/-- The ideal context holds the plaintexts of the context. -/
structure BatchedGroupedCiphertext2HandlesValidityProofContext.Represents
    (context : BatchedGroupedCiphertext2HandlesValidityProofContext M)
    (ideal : Token2022.BatchedGroupedCiphertext2HandlesValidityProofContext) : Prop where
  firstPubkey : ideal.firstPubkey = encode context.firstPubkey
  secondPubkey : ideal.secondPubkey = encode context.secondPubkey
  lo : B.Encrypts ![context.firstPubkey, context.secondPubkey] context.groupedCiphertextLo
    ideal.groupedCiphertextLo.commitment
  hi : B.Encrypts ![context.firstPubkey, context.secondPubkey] context.groupedCiphertextHi
    ideal.groupedCiphertextHi.commitment

/-- The ideal context holds the plaintexts of the context. -/
structure BatchedGroupedCiphertext3HandlesValidityProofContext.Represents
    (context : BatchedGroupedCiphertext3HandlesValidityProofContext M)
    (ideal : Token2022.BatchedGroupedCiphertext3HandlesValidityProofContext) : Prop where
  firstPubkey : ideal.firstPubkey = encode context.firstPubkey
  secondPubkey : ideal.secondPubkey = encode context.secondPubkey
  thirdPubkey : ideal.thirdPubkey = encode context.thirdPubkey
  lo : B.Encrypts ![context.firstPubkey, context.secondPubkey, context.thirdPubkey]
    context.groupedCiphertextLo ideal.groupedCiphertextLo.commitment
  hi : B.Encrypts ![context.firstPubkey, context.secondPubkey, context.thirdPubkey]
    context.groupedCiphertextHi ideal.groupedCiphertextHi.commitment

/-- The ideal context holds the plaintexts of the context. -/
structure BatchedRangeProofContext.Represents (context : BatchedRangeProofContext M)
    (ideal : Token2022.BatchedRangeProofContext) : Prop where
  commitments : ∀ i, B.Opens (context.commitments i) (ideal.commitments i)
  bitLengths : ideal.bitLengths = context.bitLengths

/-- The ideal context holds the plaintexts of the context. -/
structure PercentageWithCapProofContext.Represents (context : PercentageWithCapProofContext M)
    (ideal : Token2022.PercentageWithCapProofContext) : Prop where
  percentage : B.Opens context.percentageCommitment ideal.percentageCommitment
  delta : B.Opens context.deltaCommitment ideal.deltaCommitment
  claimed : B.Opens context.claimedCommitment ideal.claimedCommitment
  maxValue : ideal.maxValue = context.maxValue

variable {B}

theorem CiphertextCommitmentEqualityProofContext.Holds.represents (binding : B.Binding Scalar)
    {context : CiphertextCommitmentEqualityProofContext M} (holds : context.Holds B) :
    ∃ ideal, context.Represents B encode ideal := by
  obtain ⟨secret, value, opening, owns, decrypts, commits⟩ := holds
  exact ⟨⟨encode context.pubkey, value, value, rfl⟩, rfl, binding.decryptsTo owns decrypts,
    opening, commits⟩

theorem BatchedGroupedCiphertext2HandlesValidityProofContext.Holds.represents
    {context : BatchedGroupedCiphertext2HandlesValidityProofContext M} (holds : context.Holds B) :
    ∃ ideal, context.Represents B encode ideal := by
  obtain ⟨⟨lo, encryptsLo⟩, hi, encryptsHi⟩ := holds
  exact ⟨⟨encode context.firstPubkey, encode context.secondPubkey, ⟨lo, lo, lo⟩, ⟨hi, hi, hi⟩,
    ⟨rfl, rfl⟩, rfl, rfl⟩, rfl, rfl, encryptsLo, encryptsHi⟩

theorem BatchedGroupedCiphertext3HandlesValidityProofContext.Holds.represents
    {context : BatchedGroupedCiphertext3HandlesValidityProofContext M} (holds : context.Holds B) :
    ∃ ideal, context.Represents B encode ideal := by
  obtain ⟨⟨lo, encryptsLo⟩, hi, encryptsHi⟩ := holds
  exact ⟨⟨encode context.firstPubkey, encode context.secondPubkey, encode context.thirdPubkey,
    ⟨lo, lo, lo, lo⟩, ⟨hi, hi, hi, hi⟩, ⟨rfl, rfl, rfl⟩, rfl, rfl, rfl⟩, rfl, rfl, rfl, encryptsLo,
    encryptsHi⟩

theorem BatchedRangeProofContext.Holds.represents {context : BatchedRangeProofContext M}
    (holds : context.Holds B) : ∃ ideal, context.Represents B ideal := by
  choose value small opens using holds
  refine ⟨⟨fun i => value i, context.bitLengths, fun i => ?_⟩, opens, rfl⟩
  show ((value i : ℕ) : Scalar).val < 2 ^ context.bitLengths i
  rw [ZMod.val_natCast]
  exact (Nat.mod_le _ _).trans_lt (small i)

/-- The plaintexts of a fee proof are those of the commitments that the composition ties it to. -/
theorem PercentageWithCapProofContext.Holds.represents (binding : B.Binding Scalar)
    {context : PercentageWithCapProofContext M} (holds : context.Holds B)
    {percentage delta claimed : Scalar} (percentageOpens : B.Opens context.percentageCommitment percentage)
    (deltaOpens : B.Opens context.deltaCommitment delta)
    (claimedOpens : B.Opens context.claimedCommitment claimed) :
    ∃ ideal : Token2022.PercentageWithCapProofContext, context.Represents B ideal ∧
      ideal.percentageCommitment = percentage ∧ ideal.deltaCommitment = delta ∧
        ideal.claimedCommitment = claimed := by
  refine ⟨⟨percentage, delta, claimed, context.maxValue, ?_⟩,
    ⟨percentageOpens, deltaOpens, claimedOpens, rfl⟩, rfl, rfl, rfl⟩
  rcases holds with capped | ⟨value, deltaOpens', claimedOpens'⟩
  · exact .inl (percentageOpens.unique binding capped)
  · exact .inr ((deltaOpens.unique binding deltaOpens').trans
      (claimedOpens'.unique binding claimedOpens))

end represents

/-! ### Lists of expected commitments -/

/-- The entries of a list that the eight start with, by index. -/
theorem startsWith_iff {α : Type} [DecidableEq α] {entries : Fin 8 → α} {expected : List α} :
    startsWith entries expected = true ↔
      ∀ (i : ℕ) (inEntries : i < 8) (inExpected : i < expected.length),
        entries ⟨i, inEntries⟩ = expected[i] := by
  unfold startsWith
  rw [List.all_eq_true]
  constructor
  · intro all i inEntries inExpected
    have inZip : i < ((List.ofFn entries).zip expected).length := by
      rw [List.length_zip, List.length_ofFn]
      omega
    have entry := all _ (List.getElem_mem inZip)
    simpa only [List.getElem_zip, List.getElem_ofFn, decide_eq_true_eq] using entry
  · intro each pair member
    obtain ⟨i, inZip, rfl⟩ := List.getElem_of_mem member
    have bounds := inZip
    rw [List.length_zip, List.length_ofFn] at bounds
    simpa only [List.getElem_zip, List.getElem_ofFn, decide_eq_true_eq] using
      each i (by omega) (by omega)

/-- **Entries that start with points start with the plaintexts of the points.** -/
theorem BatchedRangeProofContext.Represents.startsWith [DecidableEq M] (binding : B.Binding Scalar)
    {context : BatchedRangeProofContext M} {ideal : Token2022.BatchedRangeProofContext}
    (represents : context.Represents B ideal) {points : List M} {values : List Scalar}
    (opens : List.Forall₂ B.Opens points values)
    (starts : startsWith context.commitments points = true) :
    startsWith ideal.commitments values = true := by
  rw [startsWith_iff] at starts ⊢
  intro i inEntries inExpected
  have inPoints : i < points.length := opens.length_eq ▸ inExpected
  have opened := represents.commitments ⟨i, inEntries⟩
  rw [starts i inEntries inPoints] at opened
  exact opened.unique binding (List.forall₂_iff_get.mp opens |>.2 i inPoints inExpected)

/-! ### Compositions without a fee -/

section refines

variable (B) (encode : M → ElGamalPubkey)

/-- The ideal context holds the plaintexts of the extracted one. -/
structure WithdrawProofContext.Represents (context : WithdrawProofContext M)
    (ideal : Token2022.WithdrawProofContext) : Prop where
  sourcePubkey : ideal.sourcePubkey = encode context.sourcePubkey
  remainingBalance : B.DecryptsTo context.sourcePubkey context.remainingBalanceCiphertext
    ideal.remainingBalanceCiphertext

/-- The ideal context holds the plaintexts of the extracted one. -/
structure TransferProofContext.Represents (context : TransferProofContext M)
    (ideal : Token2022.TransferProofContext) : Prop where
  source : ideal.transferPubkeys.source = encode context.transferPubkeys.source
  destination : ideal.transferPubkeys.destination = encode context.transferPubkeys.destination
  auditor : ideal.transferPubkeys.auditor = encode context.transferPubkeys.auditor
  lo : B.Encrypts ![context.transferPubkeys.source, context.transferPubkeys.destination,
    context.transferPubkeys.auditor] context.ciphertextLo ideal.ciphertextLo.commitment
  hi : B.Encrypts ![context.transferPubkeys.source, context.transferPubkeys.destination,
    context.transferPubkeys.auditor] context.ciphertextHi ideal.ciphertextHi.commitment
  newSource : B.DecryptsTo context.transferPubkeys.source context.newSourceCiphertext
    ideal.newSourceCiphertext

/-- The ideal context holds the plaintexts of the extracted one. -/
structure MintProofContext.Represents (context : MintProofContext M)
    (ideal : Token2022.MintProofContext) : Prop where
  destination : ideal.mintPubkeys.destination = encode context.mintPubkeys.destination
  supply : ideal.mintPubkeys.supply = encode context.mintPubkeys.supply
  auditor : ideal.mintPubkeys.auditor = encode context.mintPubkeys.auditor
  lo : B.Encrypts ![context.mintPubkeys.destination, context.mintPubkeys.supply,
    context.mintPubkeys.auditor] context.mintAmountCiphertextLo
    ideal.mintAmountCiphertextLo.commitment
  hi : B.Encrypts ![context.mintPubkeys.destination, context.mintPubkeys.supply,
    context.mintPubkeys.auditor] context.mintAmountCiphertextHi
    ideal.mintAmountCiphertextHi.commitment
  newSupply : B.DecryptsTo context.mintPubkeys.supply context.newSupplyCiphertext
    ideal.newSupplyCiphertext

/-- The ideal context holds the plaintexts of the extracted one. -/
structure BurnProofContext.Represents (context : BurnProofContext M)
    (ideal : Token2022.BurnProofContext) : Prop where
  source : ideal.burnPubkeys.source = encode context.burnPubkeys.source
  supply : ideal.burnPubkeys.supply = encode context.burnPubkeys.supply
  auditor : ideal.burnPubkeys.auditor = encode context.burnPubkeys.auditor
  lo : B.Encrypts ![context.burnPubkeys.source, context.burnPubkeys.supply,
    context.burnPubkeys.auditor] context.burnAmountCiphertextLo
    ideal.burnAmountCiphertextLo.commitment
  hi : B.Encrypts ![context.burnPubkeys.source, context.burnPubkeys.supply,
    context.burnPubkeys.auditor] context.burnAmountCiphertextHi
    ideal.burnAmountCiphertextHi.commitment
  remainingBalance : B.DecryptsTo context.burnPubkeys.source context.remainingBalanceCiphertext
    ideal.remainingBalanceCiphertext

variable {B} {encode} [DecidableEq M]
variable {equality : CiphertextCommitmentEqualityProofContext M}
  {validity : BatchedGroupedCiphertext3HandlesValidityProofContext M}
  {range : BatchedRangeProofContext M}
  {idealEquality : Token2022.CiphertextCommitmentEqualityProofContext}
  {idealValidity : Token2022.BatchedGroupedCiphertext3HandlesValidityProofContext}
  {idealRange : Token2022.BatchedRangeProofContext}

/-- **A withdrawal over the group is one of the plaintexts.** -/
theorem WithdrawProofContext.refines (binding : B.Binding Scalar)
    (equalityRepresents : equality.Represents B encode idealEquality)
    (rangeRepresents : range.Represents B idealRange) {context : WithdrawProofContext M}
    (ok : verifyAndExtract equality range = .ok context) :
    ∃ ideal, Token2022.WithdrawProofContext.verifyAndExtract idealEquality idealRange = .ok ideal ∧
      context.Represents B encode ideal := by
  rw [verifyAndExtract_eq_ok_iff] at ok
  obtain ⟨commitment, bits, rfl⟩ := ok
  have opened := rangeRepresents.commitments 0
  rw [commitment] at opened
  refine ⟨⟨idealEquality.pubkey, idealEquality.ciphertext⟩, ?_, equalityRepresents.pubkey,
    equalityRepresents.ciphertext⟩
  simp only [Token2022.WithdrawProofContext.verifyAndExtract, require_bind_eq_ok_iff, and_true]
  exact ⟨opened.unique binding equalityRepresents.commitment,
    rangeRepresents.bitLengths ▸ bits⟩

/-- The checks on the range proof that transfer, mint and burn share pass on the plaintexts. -/
theorem range_refines (binding : B.Binding Scalar)
    (equalityRepresents : equality.Represents B encode idealEquality)
    (validityRepresents : validity.Represents B encode idealValidity)
    (rangeRepresents : range.Represents B idealRange)
    (commitments : startsWith range.commitments [equality.commitment,
      validity.groupedCiphertextLo.commitment, validity.groupedCiphertextHi.commitment] = true)
    (bits : startsWith range.bitLengths [64, 16, 32, 16] = true) :
    startsWith idealRange.commitments [idealEquality.commitment,
        idealValidity.groupedCiphertextLo.commitment,
        idealValidity.groupedCiphertextHi.commitment] = true ∧
      startsWith idealRange.bitLengths [64, 16, 32, 16] = true := by
  refine ⟨rangeRepresents.startsWith binding ?_ commitments, rangeRepresents.bitLengths ▸ bits⟩
  exact .cons equalityRepresents.commitment
    (.cons validityRepresents.lo.opens (.cons validityRepresents.hi.opens .nil))

/-- **A transfer over the group is one of the plaintexts.** -/
theorem TransferProofContext.refines (binding : B.Binding Scalar)
    (equalityRepresents : equality.Represents B encode idealEquality)
    (validityRepresents : validity.Represents B encode idealValidity)
    (rangeRepresents : range.Represents B idealRange) {context : TransferProofContext M}
    (ok : verifyAndExtract equality validity range = .ok context) :
    ∃ ideal, Token2022.TransferProofContext.verifyAndExtract idealEquality idealValidity idealRange =
      .ok ideal ∧ context.Represents B encode ideal := by
  simp only [verifyAndExtract, require_bind_eq_ok_iff, Except.ok.injEq] at ok
  obtain ⟨key, commitments, bits, rfl⟩ := ok
  obtain ⟨commitments', bits'⟩ := range_refines binding equalityRepresents validityRepresents
    rangeRepresents commitments bits
  refine ⟨{
    ciphertextLo := idealValidity.groupedCiphertextLo
    ciphertextHi := idealValidity.groupedCiphertextHi
    transferPubkeys := ⟨idealEquality.pubkey, idealValidity.secondPubkey, idealValidity.thirdPubkey⟩
    newSourceCiphertext := idealEquality.ciphertext }, ?_, ?_⟩
  · simp only [Token2022.TransferProofContext.verifyAndExtract, require_bind_eq_ok_iff,
      and_true]
    refine ⟨?_, commitments', bits'⟩
    rw [equalityRepresents.pubkey, validityRepresents.firstPubkey, key]
  · exact {
      source := equalityRepresents.pubkey
      destination := validityRepresents.secondPubkey
      auditor := validityRepresents.thirdPubkey
      lo := key ▸ validityRepresents.lo
      hi := key ▸ validityRepresents.hi
      newSource := equalityRepresents.ciphertext }

/-- **A confidential mint over the group is one of the plaintexts.** -/
theorem MintProofContext.refines (binding : B.Binding Scalar)
    (equalityRepresents : equality.Represents B encode idealEquality)
    (validityRepresents : validity.Represents B encode idealValidity)
    (rangeRepresents : range.Represents B idealRange) {context : MintProofContext M}
    (ok : verifyAndExtract equality validity range = .ok context) :
    ∃ ideal, Token2022.MintProofContext.verifyAndExtract idealEquality idealValidity idealRange =
      .ok ideal ∧ context.Represents B encode ideal := by
  simp only [verifyAndExtract, require_bind_eq_ok_iff, Except.ok.injEq] at ok
  obtain ⟨key, commitments, bits, rfl⟩ := ok
  obtain ⟨commitments', bits'⟩ := range_refines binding equalityRepresents validityRepresents
    rangeRepresents commitments bits
  refine ⟨{
    mintAmountCiphertextLo := idealValidity.groupedCiphertextLo
    mintAmountCiphertextHi := idealValidity.groupedCiphertextHi
    mintPubkeys := ⟨idealValidity.firstPubkey, idealEquality.pubkey, idealValidity.thirdPubkey⟩
    newSupplyCiphertext := idealEquality.ciphertext }, ?_, ?_⟩
  · simp only [Token2022.MintProofContext.verifyAndExtract, require_bind_eq_ok_iff,
      and_true]
    refine ⟨?_, commitments', bits'⟩
    rw [equalityRepresents.pubkey, validityRepresents.secondPubkey, key]
  · exact {
      destination := validityRepresents.firstPubkey
      supply := equalityRepresents.pubkey
      auditor := validityRepresents.thirdPubkey
      lo := key ▸ validityRepresents.lo
      hi := key ▸ validityRepresents.hi
      newSupply := equalityRepresents.ciphertext }

/-- **A confidential burn over the group is one of the plaintexts.** -/
theorem BurnProofContext.refines (binding : B.Binding Scalar)
    (equalityRepresents : equality.Represents B encode idealEquality)
    (validityRepresents : validity.Represents B encode idealValidity)
    (rangeRepresents : range.Represents B idealRange) {context : BurnProofContext M}
    (ok : verifyAndExtract equality validity range = .ok context) :
    ∃ ideal, Token2022.BurnProofContext.verifyAndExtract idealEquality idealValidity idealRange =
      .ok ideal ∧ context.Represents B encode ideal := by
  simp only [verifyAndExtract, require_bind_eq_ok_iff, Except.ok.injEq] at ok
  obtain ⟨key, commitments, bits, rfl⟩ := ok
  obtain ⟨commitments', bits'⟩ := range_refines binding equalityRepresents validityRepresents
    rangeRepresents commitments bits
  refine ⟨{
    burnAmountCiphertextLo := idealValidity.groupedCiphertextLo
    burnAmountCiphertextHi := idealValidity.groupedCiphertextHi
    burnPubkeys := ⟨idealEquality.pubkey, idealValidity.secondPubkey, idealValidity.thirdPubkey⟩
    remainingBalanceCiphertext := idealEquality.ciphertext }, ?_, ?_⟩
  · simp only [Token2022.BurnProofContext.verifyAndExtract, require_bind_eq_ok_iff,
      and_true]
    refine ⟨?_, commitments', bits'⟩
    rw [equalityRepresents.pubkey, validityRepresents.firstPubkey, key]
  · exact {
      source := equalityRepresents.pubkey
      supply := validityRepresents.secondPubkey
      auditor := validityRepresents.thirdPubkey
      lo := key ▸ validityRepresents.lo
      hi := key ▸ validityRepresents.hi
      remainingBalance := equalityRepresents.ciphertext }

/-- The ideal context holds the plaintexts of the extracted one. -/
structure TransferWithFeeProofContext.Represents (B : Bases M) (encode : M → ElGamalPubkey)
    (context : TransferWithFeeProofContext M) (ideal : Token2022.TransferWithFeeProofContext) :
    Prop where
  source : ideal.transferWithFeePubkeys.source = encode context.transferWithFeePubkeys.source
  destination : ideal.transferWithFeePubkeys.destination =
    encode context.transferWithFeePubkeys.destination
  auditor : ideal.transferWithFeePubkeys.auditor = encode context.transferWithFeePubkeys.auditor
  withdrawWithheldAuthority : ideal.transferWithFeePubkeys.withdrawWithheldAuthority =
    encode context.transferWithFeePubkeys.withdrawWithheldAuthority
  lo : B.Encrypts ![context.transferWithFeePubkeys.source,
    context.transferWithFeePubkeys.destination, context.transferWithFeePubkeys.auditor]
    context.ciphertextLo ideal.ciphertextLo.commitment
  hi : B.Encrypts ![context.transferWithFeePubkeys.source,
    context.transferWithFeePubkeys.destination, context.transferWithFeePubkeys.auditor]
    context.ciphertextHi ideal.ciphertextHi.commitment
  newSource : B.DecryptsTo context.transferWithFeePubkeys.source context.newSourceCiphertext
    ideal.newSourceCiphertext
  feeLo : B.Encrypts ![context.transferWithFeePubkeys.destination,
    context.transferWithFeePubkeys.withdrawWithheldAuthority] context.feeCiphertextLo
    ideal.feeCiphertextLo.commitment
  feeHi : B.Encrypts ![context.transferWithFeePubkeys.destination,
    context.transferWithFeePubkeys.withdrawWithheldAuthority] context.feeCiphertextHi
    ideal.feeCiphertextHi.commitment

omit [DecidableEq M] in
/-- The combined point opens to the amount that the parts stand for. -/
theorem opens_pendingTotal {pointLo pointHi : M} {lo hi : Scalar} (opensLo : B.Opens pointLo lo)
    (opensHi : B.Opens pointHi hi) :
    B.Opens (pointLo + (65536 : Scalar) • pointHi) (pendingTotal lo hi) := by
  have opens := opensLo.add (opensHi.smul 65536)
  have total : pendingTotal lo hi = lo + 65536 * hi := by
    unfold pendingTotal pendingBalanceLoBitLength
    norm_num
  rwa [total]

/-- **A transfer with fee over the group is one of the plaintexts.** The fee proof's own openings are
those that the expected commitments give it. -/
theorem TransferWithFeeProofContext.refines (binding : B.Binding Scalar)
    {feeSigma : PercentageWithCapProofContext M} (feeSigmaHolds : feeSigma.Holds B)
    {feeValidity : BatchedGroupedCiphertext2HandlesValidityProofContext M}
    {idealFeeValidity : Token2022.BatchedGroupedCiphertext2HandlesValidityProofContext}
    (equalityRepresents : equality.Represents B encode idealEquality)
    (validityRepresents : validity.Represents B encode idealValidity)
    (feeValidityRepresents : feeValidity.Represents B encode idealFeeValidity)
    (rangeRepresents : range.Represents B idealRange) {bps maximumFee : ℕ}
    {context : TransferWithFeeProofContext M}
    (ok : verifyAndExtract B equality validity feeSigma feeValidity range bps maximumFee =
      .ok context) :
    ∃ idealFeeSigma ideal, Token2022.TransferWithFeeProofContext.verifyAndExtract idealEquality
        idealValidity idealFeeSigma idealFeeValidity idealRange bps maximumFee = .ok ideal ∧
      context.Represents B encode ideal := by
  simp only [verifyAndExtract, combineLoHiPedersenPoints_eq, multiply, subtract, toScalar,
    require_bind_eq_ok_iff, okOr_bind_eq_ok_iff, Option.some.injEq, exists_eq_left']
    at ok
  obtain ⟨maximum, destination, commitments, bits, source, feePoint, tail⟩ := ok
  rw [bind_eq_ok_iff] at tail
  obtain ⟨_, delta, same⟩ := tail
  obtain rfl := Except.ok.inj same
  rw [verifyDeltaCommitment_eq_ok_iff] at delta
  -- The claimed delta opens by the range proof, percentage and delta by the checks.
  have claimedOpens := rangeRepresents.commitments 3
  rw [(startsWith_eight commitments).2.2.2.1] at claimedOpens
  have amountOpens := opens_pendingTotal validityRepresents.lo.opens validityRepresents.hi.opens
  have feeOpens := opens_pendingTotal feeValidityRepresents.lo.opens feeValidityRepresents.hi.opens
  have percentageOpens := feeOpens
  rw [feePoint] at percentageOpens
  have deltaOpens := (percentageOpens.smul 10000).sub (amountOpens.smul (bps : Scalar))
  rw [← delta] at deltaOpens
  obtain ⟨idealFeeSigma, feeSigmaRepresents, percentageEq, deltaEq, claimedEq⟩ :=
    feeSigmaHolds.represents binding percentageOpens deltaOpens claimedOpens
  have commitments' := rangeRepresents.startsWith binding
    (.cons equalityRepresents.commitment (.cons validityRepresents.lo.opens
      (.cons validityRepresents.hi.opens (.cons feeSigmaRepresents.claimed
        (.cons ((Bases.opens_smul_G 9999).sub feeSigmaRepresents.claimed)
          (.cons feeValidityRepresents.lo.opens (.cons feeValidityRepresents.hi.opens
            (.cons (amountOpens.sub feeSigmaRepresents.percentage) .nil)))))))) commitments
  refine ⟨idealFeeSigma, {
    ciphertextLo := idealValidity.groupedCiphertextLo
    ciphertextHi := idealValidity.groupedCiphertextHi
    transferWithFeePubkeys := ⟨idealEquality.pubkey, idealValidity.secondPubkey,
      idealValidity.thirdPubkey, idealFeeValidity.secondPubkey⟩
    newSourceCiphertext := idealEquality.ciphertext
    feeCiphertextLo := idealFeeValidity.groupedCiphertextLo
    feeCiphertextHi := idealFeeValidity.groupedCiphertextHi }, ?_, ?_⟩
  · simp only [Token2022.TransferWithFeeProofContext.verifyAndExtract,
      Token2022.verifyDeltaCommitment, require_bind_eq_ok_iff, and_true]
    refine ⟨maximum.trans feeSigmaRepresents.maxValue.symm, ?_, commitments',
      rangeRepresents.bitLengths ▸ bits, ?_, percentageEq.symm, ?_⟩
    · rw [validityRepresents.secondPubkey, feeValidityRepresents.firstPubkey, destination]
    · rw [equalityRepresents.pubkey, validityRepresents.firstPubkey, source]
    · rw [percentageEq, deltaEq]
  · exact {
      source := equalityRepresents.pubkey
      destination := validityRepresents.secondPubkey
      auditor := validityRepresents.thirdPubkey
      withdrawWithheldAuthority := feeValidityRepresents.secondPubkey
      lo := source ▸ validityRepresents.lo
      hi := source ▸ validityRepresents.hi
      newSource := equalityRepresents.ciphertext
      feeLo := destination ▸ feeValidityRepresents.lo
      feeHi := destination ▸ feeValidityRepresents.hi }

end refines

/-! ### What the compositions guarantee -/

variable (B)

/-- The ciphertext decrypts under the key to a number of 64 bits. -/
def HoldsU64 (key : M) (c : Ciphertext M) : Prop :=
  ∃ n : ℕ, n < 2 ^ 64 ∧ B.DecryptsTo key c (n : Scalar)

/-- Under all the keys, the two ciphertexts encrypt the low 16 and the high 32 bits of the amount. -/
def EncryptsAmount {n : ℕ} (keys : Fin n → M) (lo hi : Grouped M n) (amount : ℕ) : Prop :=
  ∃ low high : ℕ, low < 2 ^ 16 ∧ high < 2 ^ 32 ∧ amount = low + 2 ^ 16 * high ∧
    B.Encrypts keys lo (low : Scalar) ∧ B.Encrypts keys hi (high : Scalar)

variable {B}

theorem EncryptsAmount.lt {n : ℕ} {keys : Fin n → M} {lo hi : Grouped M n} {amount : ℕ}
    (encrypts : EncryptsAmount B keys lo hi amount) : amount < 2 ^ 48 := by
  obtain ⟨low, high, lowLt, highLt, rfl, -⟩ := encrypts
  omega

theorem holdsU64_of_decryptsTo {key : M} {c : Ciphertext M} {value : Scalar}
    (decrypts : B.DecryptsTo key c value) (small : value.val < 2 ^ 64) : HoldsU64 B key c := by
  refine ⟨value.val, small, ?_⟩
  rwa [ZMod.natCast_zmod_val]

theorem encryptsAmount_of_split {n : ℕ} {keys : Fin n → M} {lo hi : Grouped M n}
    {low high : Scalar} (encryptsLo : B.Encrypts keys lo low) (encryptsHi : B.Encrypts keys hi high)
    (split : SplitAmount low high) : EncryptsAmount B keys lo hi (pendingTotal low high).val := by
  refine ⟨low.val, high.val, split.lo_lt, split.hi_lt, split.val_total.1, ?_, ?_⟩
  · rwa [ZMod.natCast_zmod_val]
  · rwa [ZMod.natCast_zmod_val]

variable [DecidableEq M]

/-- The equality proof of the example. -/
def exampleEquality : CiphertextCommitmentEqualityProofContext (Scalar × Scalar) :=
  ⟨(0, 1), ⟨(5, 3), (0, 3)⟩, (5, 7)⟩

/-- The validity proof of the example. -/
def exampleValidity : BatchedGroupedCiphertext3HandlesValidityProofContext (Scalar × Scalar) :=
  ⟨(0, 1), (0, 1), 0, (Bases.free Scalar).encryptWith ![(0, 1), (0, 1), 0] (3 : Scalar) (4 : Scalar),
    (Bases.free Scalar).encryptWith ![(0, 1), (0, 1), 0] (1 : Scalar) (6 : Scalar)⟩

/-- The range proof of the example. -/
def exampleRange : BatchedRangeProofContext (Scalar × Scalar) :=
  ⟨![(5, 7), (3, 4), (1, 6), 0, 0, 0, 0, 0], ![64, 16, 32, 16, 0, 0, 0, 0]⟩

theorem exampleEquality_holds : exampleEquality.Holds (Bases.free Scalar) :=
  ⟨1, 5, 7, by decide +kernel, by decide +kernel, by decide +kernel⟩

theorem exampleValidity_holds : exampleValidity.Holds (Bases.free Scalar) :=
  ⟨⟨3, 4, rfl⟩, 1, 6, rfl⟩

/-- A commitment over the free bases opens to its first component. -/
theorem opens_free (point : Scalar × Scalar) : (Bases.free Scalar).Opens point point.1 :=
  ⟨point.2, by simp [Bases.free, Bases.commit]⟩

theorem holds_free (range : BatchedRangeProofContext (Scalar × Scalar))
    (small : ∀ i, (range.commitments i).1.val < 2 ^ range.bitLengths i) :
    range.Holds (Bases.free Scalar) := by
  intro i
  refine ⟨(range.commitments i).1.val, small i, ?_⟩
  rw [ZMod.natCast_zmod_val]
  exact opens_free _

/-- The fee of a 48-bit amount is its share rounded up, capped at the maximum. -/
theorem calculateFee_eq_some {epoch maximumFee bps amount : ℕ} (bpsLe : bps ≤ 10000)
    (amountLt : amount < 2 ^ 48) :
    TransferFee.calculateFee ⟨epoch, maximumFee, bps⟩ amount =
      some (min ((amount * bps + 9999) / 10000) maximumFee) := by
  have least : (amount * bps) ⌈/⌉ 10000 = (amount * bps + 9999) / 10000 :=
    Nat.ceilDiv_eq_add_pred_div _ _
  rw [TransferFee.calculateFee_eq bpsLe (amountLt.trans (by norm_num)), ← least]
  rfl

/-- The range proof of the example with a fee of one percent, 656, which is 6100 parts in ten thousand
above the exact share. -/
def exampleFeeRange : BatchedRangeProofContext (Scalar × Scalar) :=
  ⟨![(5, 7), (3, 4), (1, 6), (6100, 11), (3899, -11), (656, 8), (0, 9), (64883, -196612)],
    ![64, 16, 32, 16, 16, 16, 32, 64]⟩

/-- The fee's validity proof. -/
def exampleFeeValidity : BatchedGroupedCiphertext2HandlesValidityProofContext (Scalar × Scalar) :=
  ⟨(0, 1), (0, 3), (Bases.free Scalar).encryptWith ![(0, 1), (0, 3)] (656 : Scalar) (8 : Scalar),
    (Bases.free Scalar).encryptWith ![(0, 1), (0, 3)] (0 : Scalar) (9 : Scalar)⟩

/-- The fee proof, for a maximum of 5000. -/
def exampleFeeSigma : PercentageWithCapProofContext (Scalar × Scalar) :=
  ⟨(656, 589832), (6100, 5858998000), (6100, 11), 5000⟩

end Token2022.Ristretto
