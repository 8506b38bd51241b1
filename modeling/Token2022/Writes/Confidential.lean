/-
**The writes of the confidential instructions.**

* `configureAccount_configures`, `updateConfidentialAccount_writes` — what an owner sets.
* `creditPending_credited`, `debitConfidential_writes`, `creditConfidential_credited` — the two sides
  of a confidential movement.
* `CreditAmounts` — the amounts of a credit.
* **`processConfidentialTransfer_creditsOf`**, **`processConfidentialMint_creditsOf`**,
  **`processConfidentialBurn_writes`** and the instructions around them.
* `harvestToMintConfidential_loop`, `withdrawFromAccountsConfidential_loop` — withheld fees in
  encrypted form.
-/

import Token2022.Writes.Settings

namespace Token2022

open Fallible Relation

variable {i : Invocation} {start L L' : Ledger} {outcome : Outcome} {validated : List Address}

/-! ### Configuring accounts -/

/-- **A configuration opens the confidential extension**, and that of the fees where the mint has
some. -/
theorem configureAccount_configures {a m : Address} {elgamalPubkey : ElGamalPubkey}
    {decryptable : AeCiphertext} {maximum : ℕ} (named : i.configures? = some a)
    (owned : (L a).owner = programId)
    (ok : configureAccount L a m elgamalPubkey decryptable maximum = .ok L') :
    Configures i start validated a L L' := by
  simp only [configureAccount, bind_eq_ok_iff, unpackAccount_eq_ok_iff, unpackMint_eq_ok_iff,
    checkProgramAccount_eq_ok_iff, exists_const] at ok
  obtain ⟨account, data, -, mint, -, confidential, -, configured, first, final, second, stored⟩ := ok
  have absent : account.get .confidentialTransferAccount = none :=
    (StateWithExtensions.initExtension_eq_ok first).2.1 rfl
  refine ⟨L, account, .refl, data, absent, ?_⟩
  have opened : Change i start validated a (.account account) (.account configured) :=
    .accountOpen absent (.configure named) first
  split at second
  · have fees : Change i start validated a (.account configured) (.account final) :=
      .accountOpen ((StateWithExtensions.initExtension_eq_ok second).2.1 rfl) .configureFees second
    exact .ofWriteData owned data ((ReflTransGen.single opened).tail fees) stored
  · obtain rfl := Except.ok.inj second
    exact .ofChange owned data opened stored

theorem processConfigureAccount_configures {decryptable : AeCiphertext} {maximum : ℕ} {offset : ℤ}
    (named : ∀ a, i.key? 0 = some a → i.configures? = some a)
    (ok : processConfigureAccount i.env L i.accounts decryptable maximum offset = .ok outcome) :
    ∃ a, i.key? 0 = some a ∧ Configures i L outcome.validated a L outcome.ledger := by
  simp only [processConfigureAccount, bind_eq_ok_iff, Prod.exists, nextAccountInfo_eq_ok_iff,
    checkProgramAccount_eq_ok_iff, exists_const] at ok
  obtain ⟨info, _, shape, mintInfo, _, -, context, _, -, owned, account, -, _, -, _, _, -, _, -, ledger,
    configured, same⟩ := ok
  obtain rfl := Except.ok.inj same
  have first := key?_zero shape
  exact ⟨info.key, first, configureAccount_configures (named _ first) owned configured⟩

/-- **The room that a configuration with a registry makes.** Nobody has looked yet at whose account
it is, but longer data can only be written to the program's own. -/
theorem reallocateForConfigure_writes {info payer : AccountMeta}
    (ok : reallocateForConfigureAccountWithRegistry i.env L info payer = .ok L') :
    Writes i start validated L L' := by
  simp only [reallocateForConfigureAccountWithRegistry, bind_eq_ok_iff,
    unpackAccount_eq_ok_iff] at ok
  obtain ⟨account, data, neededLen, -, ok⟩ := ok
  split at ok
  · obtain rfl := Except.ok.inj ok
    exact .refl
  · rename_i short
    simp only [bind_eq_ok_iff] at ok
    obtain ⟨resized, grown, mid, stored, funded⟩ := ok
    have owned : (L info.key).owner = programId := by
      rcases (Ledger.writeData_eq_ok_iff.mp stored).1 with owned | same
      · exact owned
      · rw [data] at same
        have length : account.tlv.len = resized.tlv.len :=
          congrArg (fun st => st.tlv.len) (AccountData.account.inj same)
        rw [(StateWithExtensions.resize_eq_ok grown).2.2] at length
        exact absurd length.ge short
    exact (grow_writes owned data grown (not_le.mp short).le stored funded).1

theorem processConfigureAccountWithRegistry_configures
    (named : ∀ a, i.key? 0 = some a → i.configures? = some a)
    (ok : processConfigureAccountWithRegistry i.env L i.accounts = .ok outcome) :
    ∃ a, i.key? 0 = some a ∧ Configures i L outcome.validated a L outcome.ledger := by
  simp only [processConfigureAccountWithRegistry, bind_eq_ok_iff, Prod.exists,
    nextAccountInfo_eq_ok_iff, checkProgramAccount_eq_ok_iff, require_eq_ok_iff,
    exists_const] at ok
  obtain ⟨info, _, shape, mintInfo, _, -, registryInfo, accounts, -, -, grown, grow, registry, -, owned,
    account, -, -, -, ledger, configured, same⟩ := ok
  obtain rfl := Except.ok.inj same
  have first := key?_zero shape
  have growth : Writes i L [] L grown := by
    split at grow
    · obtain rfl := Except.ok.inj grow
      exact .refl
    · simp only [bind_eq_ok_iff, Prod.exists] at grow
      obtain ⟨_, _, -, grow⟩ := grow
      exact reallocateForConfigure_writes grow
  obtain ⟨mid, st, before, found⟩ : Configures i L [] info.key grown ledger :=
    configureAccount_configures (named _ first) owned configured
  exact ⟨info.key, first, mid, st, growth.trans before, found⟩

theorem processApproveAccount_writes (ok : processApproveAccount L i.accounts = .ok outcome) :
    Writes i L outcome.validated L outcome.ledger := by
  simp only [processApproveAccount, bind_eq_ok_iff, Prod.exists, nextAccountInfo_eq_ok_iff,
    checkProgramAccount_eq_ok_iff, unpackAccount_eq_ok_iff, require_eq_ok_iff, exists_const] at ok
  obtain ⟨info, _, -, mintInfo, _, -, _, _, -, owned, account, data, -, -, _, -, _, -, _, -, -, e, held,
    ledger, stored, same⟩ := ok
  obtain rfl := Except.ok.inj same
  exact .ofChange owned data
    (.accountUpdate (StateWithExtensions.getExtension_eq_ok_iff.mp held) .approve) stored

/-! ### What an owner sets -/

theorem processEmptyAccount_writes {offset : ℤ}
    (ok : processEmptyAccount i.env L i.accounts offset = .ok outcome) :
    Writes i L outcome.validated L outcome.ledger := by
  simp only [processEmptyAccount, bind_eq_ok_iff, Prod.exists, nextAccountInfo_eq_ok_iff,
    checkProgramAccount_eq_ok_iff, unpackAccount_eq_ok_iff, require_eq_ok_iff, exists_const] at ok
  obtain ⟨info, _, -, context, _, -, _, _, -, owned, account, data, _, -, e, held, -, empty, _, -,
    ledger, stored, same⟩ := ok
  obtain rfl := Except.ok.inj same
  -- The balance is zero already, by the proof: what is written is what is there.
  rw [← context.holds, ← empty] at stored
  exact .ofChange owned data (.accountUpdate (StateWithExtensions.getExtension_eq_ok_iff.mp held)
    (.allowConfidentialCredits (List.mem_singleton_self _))) stored

/-- **An owner's change of the confidential extension.** -/
theorem updateConfidentialAccount_writes {check : TokenAccountState → ProgramResult Unit}
    {update : ConfidentialTransferAccount → ProgramResult ConfidentialTransferAccount}
    (ok : updateConfidentialAccount L i.accounts check update = .ok outcome)
    (updates : ∀ a st e e', i.key? 0 = some a → st.base.owner ∈ outcome.validated →
      update e = .ok e' →
      AccountUpdate i outcome.validated a st .confidentialTransferAccount e e') :
    Writes i L outcome.validated L outcome.ledger := by
  obtain ⟨a, account, e, e', target, owned, data, -, held, updated, stored, validated, -⟩ :=
    updateConfidentialAccount_spec ok
  have signed : account.base.owner ∈ outcome.validated := by
    rw [validated]
    exact List.mem_singleton_self _
  exact .ofChange owned data (.accountUpdate (StateWithExtensions.getExtension_eq_ok_iff.mp held)
    (updates a account e e' target signed updated)) stored

theorem processApplyPendingBalance_writes {counter : ℕ} {decryptable : AeCiphertext}
    (named : ∀ a, i.key? 0 = some a → i.appliesPending? = some a)
    (ok : processApplyPendingBalance L i.accounts counter decryptable = .ok outcome) :
    Writes i L outcome.validated L outcome.ledger := by
  refine updateConfidentialAccount_writes ok fun a st e e' target signed updated => ?_
  simp only [bind_eq_ok_iff, okOr_eq_ok_iff, CiphertextArithmetic.addWithLoHi, Option.some.injEq,
    Except.ok.injEq] at updated
  obtain ⟨_, rfl, rfl⟩ := updated
  exact .applyPending (named a target) signed

/-! ### Credits and debits -/

theorem validAsDestination_room {e : ConfidentialTransferAccount} {u : Unit}
    (valid : e.validAsDestination = .ok u) : e.HasRoom := by
  simp only [ConfidentialTransferAccount.validAsDestination, bind_eq_ok_iff, okOr_eq_ok_iff,
    checkedAdd_eq_some_iff, require_eq_ok_iff] at valid
  obtain ⟨_, -, _, ⟨fits, rfl⟩, bounded⟩ := valid
  exact ⟨bounded, fits⟩

/-- **A credit of the pending balance counts.** -/
theorem creditPending_credited {e e' : ConfidentialTransferAccount} {lo hi : Scalar}
    (ok : e.creditPending lo hi = .ok e') : e' = e.credited lo hi := by
  simp only [ConfidentialTransferAccount.creditPending,
    ConfidentialTransferAccount.incrementPendingBalanceCreditCounter, CiphertextArithmetic.add,
    bind_eq_ok_iff, okOr_eq_ok_iff, checkedAdd_eq_some_iff, Option.some.injEq,
    Except.ok.injEq] at ok
  obtain ⟨_, rfl, _, rfl, _, ⟨-, rfl⟩, rfl⟩ := ok
  rfl

/-- A deposit is split. -/
theorem splitAmount_of_deposit {amount lo hi : ℕ}
    (split : verifyAndSplitDepositAmount amount = .ok (lo, hi)) :
    SplitAmount (lo : Scalar) (hi : Scalar) := by
  obtain ⟨bounded, parts⟩ := require_bind_eq_ok_iff.mp split
  obtain ⟨rfl, rfl⟩ := Prod.mk.inj (Except.ok.inj parts)
  have bound : maximumDepositTransferAmount = 2 ^ 48 - 1 := rfl
  have loLt : amount % 2 ^ 16 < 2 ^ 16 := Nat.mod_lt _ (by decide)
  have hiLt : amount / 2 ^ 16 < 2 ^ 32 := by omega
  constructor
  · rwa [val_natCast_of_lt (loLt.trans (by decide))]
  · rwa [val_natCast_of_lt (hiLt.trans (by decide))]

/-- **The writes of a deposit**: tokens leave the amount, and are credited. -/
theorem processDeposit_creditsOf {amount decimals : ℕ}
    (ok : processDeposit L i.accounts amount decimals = .ok outcome) :
    ∃ a e lo hi, i.key? 0 = some a ∧ SplitAmount lo hi ∧
      CreditsOf i L outcome.validated a e lo hi L outcome.ledger := by
  simp only [processDeposit, bind_eq_ok_iff, Prod.exists, nextAccountInfo_eq_ok_iff,
    okOr_eq_ok_iff, CiphertextArithmetic.addToWithOffset, Option.some.injEq, Except.ok.injEq] at ok
  obtain ⟨info, _, shape, mintInfo, _, -, _, _, -, _, -, mint, -, _, -, _, -, _, -, account, exchanged,
    newAmount, -, e, held, _, valid, lo, hi, split, _, rfl, _, rfl, credited, counted, ledger, stored,
    rfl⟩ := ok
  obtain ⟨owned, data, -⟩ := confidentialExchangeAccount_spec exchanged
  obtain rfl : credited = e.credited (lo : Scalar) (hi : Scalar) := creditPending_credited counted
  have spent : Change i L [account.base.owner] info.key (.account account)
      (.account (account.withBase { account.base with amount := newAmount })) :=
    .accountBase (.of_same rfl rfl)
  exact ⟨info.key, e, lo, hi, key?_zero shape, splitAmount_of_deposit split,
    .ofWriteData owned data (.single spent) (StateWithExtensions.getExtension_eq_ok_iff.mp held)
      (validAsDestination_room valid) .refl stored⟩

/-- **The writes of a withdrawal.** -/
theorem processWithdraw_writes {amount decimals : ℕ} {decryptable : AeCiphertext}
    {equality range : ℤ} (named : i.instruction.spendDecryptable? = some decryptable)
    (ok : processWithdraw i.env L i.accounts amount decimals decryptable equality range =
      .ok outcome) : Writes i L outcome.validated L outcome.ledger := by
  simp only [processWithdraw, bind_eq_ok_iff, Prod.exists, nextAccountInfo_eq_ok_iff] at ok
  obtain ⟨info, _, shape, mintInfo, _, -, context, _, -, _, _, -, _, -, mint, -, _, -, _, -, _, -, account,
    exchanged, e, held, _, -, _, -, remaining, -, _, -, _, -, ledger, stored, same⟩ := ok
  obtain rfl := Except.ok.inj same
  obtain ⟨owned, data, -⟩ := confidentialExchangeAccount_spec exchanged
  have debit : Change i L [account.base.owner] info.key (.account account)
      (.account (account.set .confidentialTransferAccount { e with
        availableBalance := remaining
        decryptableAvailableBalance := decryptable })) :=
    .accountUpdate (StateWithExtensions.getExtension_eq_ok_iff.mp held)
      (.spend (List.mem_singleton_self _) ⟨key?_zero shape, .inl named⟩)
  refine .ofWriteData owned data
    ((ReflTransGen.single debit).tail (.accountBase (.of_same ?_ ?_))) stored
  · rfl
  · rfl

/-- A debit of the available balance, by its owner. -/
theorem debitAvailable_update {a : Address} {st : TokenAccountState}
    {e e' : ConfidentialTransferAccount} {lo hi remaining : Scalar} {decryptable : AeCiphertext}
    (signed : st.base.owner ∈ validated) (named : i.SpendsAvailable a decryptable)
    (ok : e.debitAvailable lo hi remaining decryptable = .ok e') :
    AccountUpdate i validated a st .confidentialTransferAccount e e' := by
  simp only [ConfidentialTransferAccount.debitAvailable, bind_eq_ok_iff, Except.ok.injEq] at ok
  obtain ⟨_, -, _, -, rfl⟩ := ok
  exact .spend signed named

/-- **The source of a confidential transfer.** -/
theorem debitConfidential_writes {env : Env} {sourceInfo mintInfo authorityInfo : AccountMeta}
    {signers : List AccountMeta} {sourcePubkey : ElGamalPubkey}
    {lo hi : GroupedElGamalCiphertext3Handles} {remaining : Scalar} {decryptable : AeCiphertext}
    {key : Address} (named : i.SpendsAvailable sourceInfo.key decryptable)
    (ok : debitConfidential env L sourceInfo mintInfo authorityInfo signers sourcePubkey lo hi
      remaining decryptable = .ok (L', key)) :
    Writes i start [key] L L' ∧ (L' sourceInfo.key).owner = programId := by
  simp only [debitConfidential, bind_eq_ok_iff, checkProgramAccount_eq_ok_iff,
    unpackAccount_eq_ok_iff, require_eq_ok_iff, exists_const, Except.ok.injEq, Prod.mk.injEq] at ok
  obtain ⟨owned, account, data, -, _, -, -, -, -, e, held, _, -, -, e', debited, ledger, stored, rfl,
    rfl⟩ := ok
  refine ⟨.ofChange owned data (.accountUpdate (StateWithExtensions.getExtension_eq_ok_iff.mp held)
    (debitAvailable_update (List.mem_singleton_self _) named debited)) stored, ?_⟩
  rw [Ledger.owner_writeData stored, owned]

/-- The destination of a confidential movement, before it is written. -/
theorem creditConfidential_credited {env : Env} {destinationInfo mintInfo : AccountMeta}
    {destinationPubkey : ElGamalPubkey} {lo hi : GroupedElGamalCiphertext3Handles}
    {account : TokenAccountState} {credited : ConfidentialTransferAccount}
    (ok : creditConfidential env L destinationInfo mintInfo destinationPubkey lo hi =
      .ok (account, credited)) :
    (L destinationInfo.key).owner = programId ∧ (L destinationInfo.key).data = .account account ∧
      ∃ e, account.get .confidentialTransferAccount = some e ∧
        e.HasRoom ∧ credited = e.credited lo.second hi.second := by
  simp only [creditConfidential, bind_eq_ok_iff, checkProgramAccount_eq_ok_iff,
    unpackAccount_eq_ok_iff, require_eq_ok_iff, exists_const, Except.ok.injEq, Prod.mk.injEq] at ok
  obtain ⟨owned, account, data, -, -, _, -, e, held, _, valid, -, credited, credit, rfl, rfl⟩ := ok
  exact ⟨owned, data, e, StateWithExtensions.getExtension_eq_ok_iff.mp held,
    validAsDestination_room valid, creditPending_credited credit⟩

theorem processDestinationForTransfer_creditsOf {env : Env} {destinationInfo mintInfo : AccountMeta}
    {context : TransferProofContext}
    (ok : processDestinationForTransfer env L destinationInfo mintInfo context = .ok L') :
    (L destinationInfo.key).owner = programId ∧ (∀ b, (L' b).owner = (L b).owner) ∧
      ∃ e, CreditsOf i start validated destinationInfo.key e context.ciphertextLo.second
        context.ciphertextHi.second L L' := by
  simp only [processDestinationForTransfer, bind_eq_ok_iff, Prod.exists] at ok
  obtain ⟨account, credited, credit, stored⟩ := ok
  obtain ⟨owned, data, e, held, room, rfl⟩ := creditConfidential_credited credit
  exact ⟨owned, Ledger.owner_writeData stored, e,
    .ofWriteData owned data .refl held room .refl stored⟩

/-- The destination of a transfer with fee: what is credited is net of the fee, which is withheld,
unless the destination is the source. -/
theorem processDestinationForTransferWithFee_creditsOf {env : Env}
    {destinationInfo mintInfo : AccountMeta} {context : TransferWithFeeProofContext}
    {isSelfTransfer : Bool}
    (ok : processDestinationForTransferWithFee env L destinationInfo mintInfo context
      isSelfTransfer = .ok L') :
    (L destinationInfo.key).owner = programId ∧ (∀ b, (L' b).owner = (L b).owner) ∧
      ∃ (st : TokenAccountState) (e : ConfidentialTransferAccount),
        (L destinationInfo.key).data = .account st ∧
        st.get .confidentialTransferAccount = some e ∧
        CreditsOf i start validated destinationInfo.key e
          (if isSelfTransfer then context.ciphertextLo.second
            else context.ciphertextLo.second - context.feeCiphertextLo.first)
          (if isSelfTransfer then context.ciphertextHi.second
            else context.ciphertextHi.second - context.feeCiphertextHi.first) L L' := by
  simp only [processDestinationForTransferWithFee, bind_eq_ok_iff, Prod.exists] at ok
  obtain ⟨account, credited, credit, ok⟩ := ok
  obtain ⟨owned, data, e, held, room, rfl⟩ := creditConfidential_credited credit
  split at ok
  · rename_i self
    rw [if_pos self, if_pos self]
    exact ⟨owned, Ledger.owner_writeData ok, account, e, data, held,
      .ofWriteData owned data .refl held room .refl ok⟩
  · rename_i distinct
    simp only [bind_eq_ok_iff, okOr_eq_ok_iff, CiphertextArithmetic.subtract,
      Option.some.injEq] at ok
    obtain ⟨_, rfl, _, rfl, fees, held', withheld, -, stored⟩ := ok
    have net : { e.credited context.ciphertextLo.second context.ciphertextHi.second with
        pendingBalanceLo := (e.credited context.ciphertextLo.second
          context.ciphertextHi.second).pendingBalanceLo - context.feeCiphertextLo.first
        pendingBalanceHi := (e.credited context.ciphertextLo.second
          context.ciphertextHi.second).pendingBalanceHi - context.feeCiphertextHi.first } =
        e.credited (context.ciphertextLo.second - context.feeCiphertextLo.first)
          (context.ciphertextHi.second - context.feeCiphertextHi.first) := by
      simp only [ConfidentialTransferAccount.credited, add_sub_assoc]
    rw [net] at held' stored
    rw [if_neg distinct, if_neg distinct]
    exact ⟨owned, Ledger.owner_writeData stored, account, e, data, held,
      .ofWriteData owned data .refl held room
        (.single (.accountUpdate (StateWithExtensions.getExtension_eq_ok_iff.mp held')
          .withholdEncrypted)) stored⟩

/-! ### Transfers -/

theorem setTransferringAt_writes {a : Address} (party : i.transfersAt a)
    (owned : (L a).owner = programId)
    (ok : setTransferringAt L a = .ok L') :
    Writes i start validated L L' ∧ ∀ b, (L' b).owner = (L b).owner := by
  simp only [setTransferringAt, bind_eq_ok_iff, unpackAccount_eq_ok_iff] at ok
  obtain ⟨account, data, flagged, set, stored⟩ := ok
  exact ⟨.ofChange owned data (setTransferring_change party set) stored, Ledger.owner_writeData stored⟩

/-- **The end of a confidential transfer.** -/
theorem finishConfidentialTransfer_writes {env : Env}
    {sourceInfo mintInfo destinationInfo authorityInfo : AccountMeta} {signers : List AccountMeta}
    {hookProgramId : Option Address} (party : i.transfersAt sourceInfo.key)
    (party' : i.transfersAt destinationInfo.key) (owned : (L sourceInfo.key).owner = programId)
    (owned' : (L destinationInfo.key).owner = programId)
    (ok : finishConfidentialTransfer env L sourceInfo mintInfo destinationInfo authorityInfo signers
      hookProgramId = .ok L') : Writes i start validated L L' := by
  unfold finishConfidentialTransfer at ok
  split at ok
  · obtain rfl := Except.ok.inj ok
    exact .refl
  · simp only [bind_eq_ok_iff] at ok
    obtain ⟨flagged, setSource, flagged', setDestination, called, hook, unset, unsetSource,
      unsetDestination⟩ := ok
    have ext := env.programs.invokeExecute_external hook
    obtain ⟨first, owners⟩ : Writes i start validated _ _ ∧ _ :=
      setTransferringAt_writes party owned setSource
    obtain ⟨second, owners'⟩ : Writes i start validated _ _ ∧ _ :=
      setTransferringAt_writes party' ((owners _).trans owned') setDestination
    have kept : ∀ b, (L b).owner = programId → (called b).owner = programId := fun b owned =>
      (ext.kept b (((owners' b).trans (owners b)).trans owned)).1
    obtain ⟨third, owners''⟩ : Writes i start validated _ _ ∧ _ :=
      unsetTransferring_writes party (kept _ owned) unsetSource
    obtain ⟨fourth, -⟩ : Writes i start validated _ _ ∧ _ :=
      unsetTransferring_writes party' ((owners'' _).trans (kept _ owned')) unsetDestination
    exact (((first.trans second).tail (.external ext)).trans third).trans fourth

/-- What the proofs of a transfer with fee say. -/
def verifiedFeeContext? (env : Env) (L : Ledger) (accounts : List AccountMeta) (mint : MintState)
    (offsets : ConfidentialTransferOffsets) : Option TransferWithFeeProofContext := do
  let feeConfig ← mint.get .transferFeeConfig
  let feeSigmaProof ← offsets.feeSigmaProof
  let feeCiphertextValidityProof ← offsets.feeCiphertextValidityProof
  let (context, _) ← (verifyTransferWithFeeProof env L accounts offsets.equalityProof
    offsets.ciphertextValidityProof feeSigmaProof feeCiphertextValidityProof offsets.rangeProof
    (feeConfig.getEpochFee env.epoch)).toOption
  some context

/-- What the proofs of a transfer say of the fee that is taken from what is credited: there is none
where the two accounts are one. -/
def transferFeeContext? (env : Env) (L : Ledger) (source destination : Address)
    (accounts : List AccountMeta) (mint : MintState) (offsets : ConfidentialTransferOffsets) :
    Option TransferWithFeeProofContext :=
  if source = destination then none else verifiedFeeContext? env L accounts mint offsets

/-- **The amounts of a credit** to the extension `e` of the account at `a`: a split amount, or what is
left of one after the fee. The fee is split as well, and each of its parts is taken from the same part
of the amount. -/
inductive CreditAmounts (fee? : Option TransferWithFeeProofContext) (L : Ledger) (a : Address)
    (e : ConfidentialTransferAccount) : Scalar → Scalar → Prop
  | whole {lo hi : Scalar} (none : fee? = none) (split : SplitAmount lo hi) :
      CreditAmounts fee? L a e lo hi
  | net {context : TransferWithFeeProofContext} {st : TokenAccountState}
      (verified : fee? = some context) (found : L.account? a = some st)
      (held : st.get .confidentialTransferAccount = some e)
      (amount : SplitAmount context.ciphertextLo.second context.ciphertextHi.second)
      (fee : SplitAmount context.feeCiphertextLo.first context.feeCiphertextHi.first) :
      CreditAmounts fee? L a e (context.ciphertextLo.second - context.feeCiphertextLo.first)
        (context.ciphertextHi.second - context.feeCiphertextHi.first)

/-- What a verified transfer moves is split. -/
theorem verifyTransferProof_split {env : Env} {accounts rest : List AccountMeta}
    {equality validity range : ℤ} {context : TransferProofContext}
    (ok : verifyTransferProof env L accounts equality validity range = .ok (context, rest)) :
    SplitAmount context.ciphertextLo.second context.ciphertextHi.second := by
  simp only [verifyTransferProof, verifyThreeProofs, bind_eq_ok_iff, Prod.exists, Except.ok.injEq,
    Prod.mk.injEq] at ok
  obtain ⟨_, _, -, _, _, -, _, _, -, _, _, -, _, extracted, rfl, -⟩ := ok
  obtain ⟨-, agrees⟩ := TransferProofContext.sound extracted
  rw [agrees.valid_lo.2.1, agrees.valid_hi.2.1]
  exact agrees.split

/-- What a verified transfer with fee moves is split, and so is the fee. -/
theorem verifyTransferWithFeeProof_split {env : Env} {accounts rest : List AccountMeta}
    {equality amountValidity feeSigma feeValidity range : ℤ} {fee : TransferFee}
    {context : TransferWithFeeProofContext}
    (ok : verifyTransferWithFeeProof env L accounts equality amountValidity feeSigma feeValidity
      range fee = .ok (context, rest)) :
    SplitAmount context.ciphertextLo.second context.ciphertextHi.second ∧
      SplitAmount context.feeCiphertextLo.first context.feeCiphertextHi.first := by
  simp only [verifyTransferWithFeeProof, bind_eq_ok_iff, Prod.exists, Except.ok.injEq,
    Prod.mk.injEq] at ok
  obtain ⟨_, _, -, _, _, -, _, _, -, _, _, -, _, _, -, _, _, -, _, extracted, rfl, -⟩ := ok
  obtain ⟨-, agrees, validLo, validHi, fee, -⟩ := TransferWithFeeProofContext.sound extracted
  rw [agrees.valid_lo.2.1, agrees.valid_hi.2.1, validLo.1, validHi.1]
  exact ⟨agrees.split, fee⟩

/-- **The two sides of a confidential transfer**: both variants debit the source, then credit the
destination. -/
theorem confidentialSides_creditsOf {env : Env} {sourceInfo mintInfo destinationInfo authorityInfo :
      AccountMeta} {accounts signers : List AccountMeta} {mint : MintState}
    {confidentialMint : ConfidentialTransferMint} {decryptable : AeCiphertext}
    {auditorLo auditorHi : Scalar} {offsets : ConfidentialTransferOffsets} {key : Address}
    (named : i.SpendsAvailable sourceInfo.key decryptable)
    (ok : (match mint.get .transferFeeConfig with
      | none => confidentialTransferWithoutFee env L sourceInfo mintInfo destinationInfo accounts
          confidentialMint decryptable auditorLo auditorHi offsets
      | some feeConfig => confidentialTransferWithFee env L sourceInfo mintInfo destinationInfo
          accounts mint confidentialMint feeConfig decryptable auditorLo auditorHi offsets) =
      .ok (L', key, authorityInfo, signers)) :
    (L' sourceInfo.key).owner = programId ∧ (L' destinationInfo.key).owner = programId ∧
      ∃ e lo hi, CreditAmounts (transferFeeContext? env L sourceInfo.key destinationInfo.key accounts
          mint offsets) L destinationInfo.key e lo hi ∧
        CreditsOf i start [key] destinationInfo.key e lo hi L L' := by
  split at ok
  · rename_i feeless
    simp only [confidentialTransferWithoutFee, bind_eq_ok_iff, Prod.exists,
      nextAccountInfo_eq_ok_iff, Except.ok.injEq, Prod.mk.injEq] at ok
    obtain ⟨context, _, verified, authorityInfo, signers, -, _, -, _, -, mid, key, source, moved,
      destination, rfl, rfl, rfl, rfl⟩ := ok
    obtain ⟨debit, owned⟩ : Writes i start [key] _ _ ∧ _ :=
      debitConfidential_writes named source
    obtain ⟨owned', owners, e, credit⟩ :
        _ ∧ _ ∧ ∃ e, CreditsOf i start [key] _ e _ _ _ _ :=
      processDestinationForTransfer_creditsOf destination
    refine ⟨(owners _).trans owned, (owners _).trans owned', e, _, _,
      .whole ?_ (verifyTransferProof_split verified), credit.before debit⟩
    unfold transferFeeContext? verifiedFeeContext?
    rw [feeless]
    exact ite_self _
  · rename_i feeConfig fees
    simp only [confidentialTransferWithFee, bind_eq_ok_iff, Prod.exists,
      nextAccountInfo_eq_ok_iff, okOr_eq_ok_iff, Except.ok.injEq, Prod.mk.injEq] at ok
    obtain ⟨feeSigma, sigma, feeValidity, validity, context, _, verified, authorityInfo, signers, -, _,
      -, _, -, _, -, _, -, mid, key, source, moved, destination, rfl, rfl, rfl, rfl⟩ := ok
    obtain ⟨debit, owned⟩ : Writes i start [key] _ _ ∧ _ :=
      debitConfidential_writes named source
    obtain ⟨owned', owners, st, e, data, held, credit⟩ :
        _ ∧ _ ∧ ∃ st e, _ ∧ _ ∧ CreditsOf i start [key] _ e _ _ _ _ :=
      processDestinationForTransferWithFee_creditsOf destination
    obtain ⟨amount, fee⟩ := verifyTransferWithFeeProof_split verified
    refine ⟨(owners _).trans owned, (owners _).trans owned', e, _, _, ?_, credit.before debit⟩
    by_cases self : sourceInfo.key = destinationInfo.key
    · rw [if_pos (decide_eq_true self), if_pos (decide_eq_true self)]
      exact .whole (if_pos self) amount
    · rw [if_neg (by simpa using self), if_neg (by simpa using self)]
      -- The debit of the source leaves the destination.
      simp only [processSourceForTransferWithFee, debitConfidential, bind_eq_ok_iff, Except.ok.injEq,
        Prod.mk.injEq] at source
      obtain ⟨_, -, _, -, _, -, _, -, _, -, _, -, _, -, _, -, _, -, _, -, _, -, _, stored, rfl, -⟩ :=
        source
      obtain ⟨-, rfl⟩ := Ledger.writeData_eq_ok_iff.mp stored
      rw [Ledger.owner_setData] at owned'
      rw [Ledger.data_setData_of_ne _ (Ne.symm self)] at data
      refine .net ?_ (Ledger.account?_eq_some_iff.mpr ⟨owned', data⟩) held amount fee
      rw [transferFeeContext?, if_neg self, verifiedFeeContext?, fees, sigma, validity]
      simp only [Option.bind_eq_bind, Option.bind_some, verified, Except.toOption]

/-- The third account of an instruction. -/
theorem key?_two {info info' info'' : AccountMeta} {rest : List AccountMeta}
    (shape : i.accounts = info :: info' :: info'' :: rest) : i.key? 2 = some info''.key := by
  rw [Invocation.key?, shape]
  rfl

/-- **The writes of a confidential transfer**, with a credit of the destination among them. -/
theorem processConfidentialTransfer_creditsOf {decryptable : AeCiphertext}
    {auditorLo auditorHi : Scalar} {offsets : ConfidentialTransferOffsets}
    (named : i.instruction.destinationPlace? = some 2)
    (spends : i.instruction.spendDecryptable? = some decryptable ∨
      ∃ amount decimals, i.instruction = .transferChecked amount decimals)
    (ok : processConfidentialTransfer i.env L i.accounts decryptable auditorLo auditorHi offsets =
      .ok outcome) :
    ∃ (sourceInfo mintInfo destinationInfo : AccountMeta) (accounts : List AccountMeta)
      (mint : MintState) (e : ConfidentialTransferAccount) (lo hi : Scalar),
      i.accounts = sourceInfo :: mintInfo :: destinationInfo :: accounts ∧
      (L mintInfo.key).data = .mint mint ∧
      CreditAmounts (transferFeeContext? i.env L sourceInfo.key destinationInfo.key accounts mint
        offsets) L destinationInfo.key e lo hi ∧
      CreditsOf i L outcome.validated destinationInfo.key e lo hi L outcome.ledger := by
  simp only [processConfidentialTransfer, bind_eq_ok_iff, Prod.exists,
    nextAccountInfo_eq_ok_iff, unpackMint_eq_ok_iff] at ok
  obtain ⟨sourceInfo, _, shape, mintInfo, _, shape', destinationInfo, rest, shape'', _, -, mint, data,
    _, -, confidential, -, moved, key, authorityInfo, signers, sides, ledger, finished, same⟩ := ok
  obtain rfl := Except.ok.inj same
  subst shape' shape''
  have target := key?_two shape
  obtain ⟨owned, owned', e, lo, hi, amounts, credit⟩ :
      _ ∧ _ ∧ ∃ e lo hi, _ ∧ CreditsOf i L [key] _ e lo hi _ _ :=
    confidentialSides_creditsOf ⟨key?_zero shape, spends⟩ sides
  exact ⟨sourceInfo, mintInfo, destinationInfo, rest, mint, e, lo, hi, shape, data, amounts,
    credit.after (finishConfidentialTransfer_writes ⟨2, named, .inl (key?_zero shape)⟩
      ⟨2, named, .inr target⟩ owned owned' finished)⟩

/-! ### Confidential mints and burns -/

/-- What a verified mint creates is split. -/
theorem verifyMintProof_split {env : Env} {accounts rest : List AccountMeta}
    {equality validity range : ℤ} {context : MintProofContext}
    (ok : verifyMintProof env L accounts equality validity range = .ok (context, rest)) :
    SplitAmount context.mintAmountCiphertextLo.first context.mintAmountCiphertextHi.first := by
  simp only [verifyMintProof, verifyThreeProofs, bind_eq_ok_iff, Prod.exists, Except.ok.injEq,
    Prod.mk.injEq] at ok
  obtain ⟨_, _, -, _, _, -, _, _, -, _, _, -, _, extracted, rfl, -⟩ := ok
  obtain ⟨-, agrees⟩ := MintProofContext.sound extracted
  rw [agrees.valid_lo.1, agrees.valid_hi.1]
  exact agrees.split

/-- **The writes of a confidential mint**, with a credit of the account among them. -/
theorem processConfidentialMint_creditsOf {data : MintInstructionData}
    (named : i.instruction.setsSupply = true)
    (ok : processConfidentialMint i.env L i.accounts data = .ok outcome) :
    ∃ a e lo hi, i.key? 0 = some a ∧ SplitAmount lo hi ∧
      CreditsOf i L outcome.validated a e lo hi L outcome.ledger := by
  simp only [processConfidentialMint, validateMintAuthority, bind_eq_ok_iff, Prod.exists,
    nextAccountInfo_eq_ok_iff, checkProgramAccount_eq_ok_iff, unpackMint_eq_ok_iff,
    unpackAccount_eq_ok_iff, require_eq_ok_iff, okOr_eq_ok_iff, exists_const,
    Except.ok.injEq] at ok
  obtain ⟨info, _, shape, mintInfo, _, -, owned', mint, data', _, -, -, owned, account, data, -,
    mintBurn, supplied, context, _, verified, authorityInfo, _, -, _, ⟨key, holder, _, -, rfl⟩, -, -, -,
    e, held, _, valid, -, -, _, -, credited, credit, increased, increase, mid, first, last, second,
    same⟩ := ok
  obtain rfl := same
  obtain rfl := creditPending_credited credit
  simp only [ConfidentialMintBurn.increaseSupply, bind_eq_ok_iff, okOr_eq_ok_iff,
    CiphertextArithmetic.addWithLoHi, Option.some.injEq, require_eq_ok_iff, exists_const,
    Except.ok.injEq] at increase
  obtain ⟨-, _, rfl, -, rfl⟩ := increase
  have credits : CreditsOf i L [key] info.key e _ _ L mid := .ofWriteData owned data .refl
    (StateWithExtensions.getExtension_eq_ok_iff.mp held) (validAsDestination_room valid) .refl first
  refine ⟨info.key, e, _, _, key?_zero shape, verifyMintProof_split verified,
    credits.after (Writes.ofChange
    ((Ledger.owner_writeData first _).trans owned') ?_ (.mintUpdate data'
      (StateWithExtensions.getExtension_eq_ok_iff.mp supplied)
      (.confidentialMint holder (List.mem_singleton_self _) named)) second)⟩
  obtain ⟨-, rfl⟩ := Ledger.writeData_eq_ok_iff.mp first
  rw [Ledger.data_setData_of_ne _ (Ne.symm (ne_of_data data data')), data']

/-- **The writes of a confidential burn.** -/
theorem processConfidentialBurn_writes {data : BurnInstructionData} {permissioned : Bool}
    (named : i.instruction.spendDecryptable? = some data.newDecryptableAvailableBalance)
    (ok : processConfidentialBurn i.env L i.accounts data permissioned = .ok outcome) :
    Writes i L outcome.validated L outcome.ledger := by
  simp only [processConfidentialBurn, bind_eq_ok_iff, Prod.exists, nextAccountInfo_eq_ok_iff,
    checkProgramAccount_eq_ok_iff, unpackMint_eq_ok_iff, unpackAccount_eq_ok_iff, require_eq_ok_iff,
    exists_const] at ok
  obtain ⟨info, _, shape, mintInfo, _, shape₁, owned', mint, data', _, -, -, context, _, proof, _, _,
    next, authorityInfo, _, -, _, variant, mintBurn, supplied, owned, account, data, _, -, -, -, -, e,
    held, _, -, -, _, -, debited, debit, -, burning, burn, mid, first, last, second, same⟩ := ok
  obtain rfl := Except.ok.inj same
  simp only [ConfidentialMintBurn.addPendingBurn, bind_eq_ok_iff, okOr_eq_ok_iff,
    CiphertextArithmetic.addWithLoHi, Option.some.injEq, require_eq_ok_iff, exists_const,
    Except.ok.injEq] at burn
  obtain ⟨-, _, rfl, rfl⟩ := burn
  have approved : i.ApprovesBurn mint := checkBurnVariant_approves
    ((verifyThreeProofs_suffix proof).trans ⟨[info, mintInfo], by rw [shape, shape₁]; rfl⟩) next
    variant
  exact writes_of_both (ne_of_data data data') owned owned' data data'
    (.single (.accountUpdate (StateWithExtensions.getExtension_eq_ok_iff.mp held)
      (debitAvailable_update (List.mem_singleton_self _) ⟨key?_zero shape, .inl named⟩ debit)))
    (.single (.mintUpdate data' (StateWithExtensions.getExtension_eq_ok_iff.mp supplied)
      (.confidentialBurn approved))) first second

/-- What the mint authority writes to the encrypted supply. -/
theorem processApplyPendingBurn_writes (named : i.instruction.setsSupply = true)
    (ok : processApplyPendingBurn L i.accounts = .ok outcome) :
    Writes i L outcome.validated L outcome.ledger := by
  simp only [processApplyPendingBurn, validateMintAuthority, bind_eq_ok_iff, Prod.exists,
    nextAccountInfo_eq_ok_iff, checkProgramAccount_eq_ok_iff, unpackMint_eq_ok_iff, okOr_eq_ok_iff,
    CiphertextArithmetic.subtract, Option.some.injEq, exists_const, Except.ok.injEq] at ok
  obtain ⟨info, _, -, owned, mint, data, mintBurn, held, _, _, -, key, ⟨_, holder, _, -, rfl⟩, _, rfl,
    ledger, stored, same⟩ := ok
  obtain rfl := same
  exact .ofChange owned data (.mintUpdate data (StateWithExtensions.getExtension_eq_ok_iff.mp held)
    (.applyPendingBurn holder (List.mem_singleton_self _) named)) stored

/-- **A rotation of the key of the supply keeps the supply**: the two ciphertexts hold the same. -/
theorem processRotateSupplyElgamalPubkey_writes {offset : ℤ}
    (ok : processRotateSupplyElgamalPubkey i.env L i.accounts offset = .ok outcome) :
    Writes i L outcome.validated L outcome.ledger := by
  simp only [processRotateSupplyElgamalPubkey, validateMintAuthority, bind_eq_ok_iff, Prod.exists,
    nextAccountInfo_eq_ok_iff, checkProgramAccount_eq_ok_iff, unpackMint_eq_ok_iff,
    require_eq_ok_iff, okOr_eq_ok_iff, exists_const, Except.ok.injEq] at ok
  obtain ⟨info, _, -, owned, mint, data, mintBurn, held, context, _, -, -, supply, pending, _, _, -,
    key, ⟨_, holder, _, -, rfl⟩, ledger, stored, same⟩ := ok
  obtain rfl := same
  rw [← context.holds, ← supply] at stored
  exact .ofChange owned data (.mintUpdate data (StateWithExtensions.getExtension_eq_ok_iff.mp held)
    (.rotateSupplyKey holder (List.mem_singleton_self _) pending)) stored

theorem processUpdateDecryptableSupply_writes {decryptable : AeCiphertext}
    (named : i.instruction.setsSupply = true)
    (ok : processUpdateDecryptableSupply L i.accounts decryptable = .ok outcome) :
    Writes i L outcome.validated L outcome.ledger := by
  simp only [processUpdateDecryptableSupply, validateMintAuthority, bind_eq_ok_iff, Prod.exists,
    nextAccountInfo_eq_ok_iff, checkProgramAccount_eq_ok_iff, unpackMint_eq_ok_iff, okOr_eq_ok_iff,
    exists_const, Except.ok.injEq] at ok
  obtain ⟨info, _, -, owned, mint, data, mintBurn, held, _, _, -, key, ⟨_, holder, _, -, rfl⟩, ledger,
    stored, same⟩ := ok
  obtain rfl := same
  exact .ofChange owned data (.mintUpdate data (StateWithExtensions.getExtension_eq_ok_iff.mp held)
    (.updateDecryptableSupply holder (List.mem_singleton_self _) named)) stored

theorem processUpdateConfidentialTransferMint_writes {auto : Bool}
    {auditor : MaybeNull ElGamalPubkey}
    (ok : processUpdateConfidentialTransferMint L i.accounts auto auditor = .ok outcome) :
    Writes i L outcome.validated L outcome.ledger := by
  simp only [processUpdateConfidentialTransferMint, bind_eq_ok_iff, Prod.exists,
    nextAccountInfo_eq_ok_iff, checkProgramAccount_eq_ok_iff, unpackMint_eq_ok_iff,
    require_eq_ok_iff, okOr_eq_ok_iff, exists_const] at ok
  obtain ⟨info, _, shape, updater, _, shape₁, owned, mint, data, e, held, key, holder, signer, same,
    ledger, stored, done⟩ := ok
  obtain rfl := Except.ok.inj done
  exact .ofChange owned data (.mintUpdate data (StateWithExtensions.getExtension_eq_ok_iff.mp held)
    (.updateConfidentialTransferMint holder
      ⟨updater, by simp [shape, shape₁], same.symm, signer⟩)) stored

/-! ### Withheld fees in encrypted form -/

theorem harvestFromAccountConfidential_writes {m a : Address} {w : Scalar}
    (ok : harvestFromAccountConfidential L m a = .ok (w, L')) :
    Writes i start validated L L' ∧ ∀ b, b ≠ a → L' b = L b := by
  simp only [harvestFromAccountConfidential, bind_eq_ok_iff, unpackAccount_eq_ok_iff,
    require_eq_ok_iff, checkProgramAccount_eq_ok_iff, exists_const, Except.ok.injEq,
    Prod.mk.injEq] at ok
  obtain ⟨account, data, mint, owned, w, held, ledger, stored, rfl, rfl⟩ := ok
  refine ⟨.ofChange owned data (.accountUpdate (StateWithExtensions.getExtension_eq_ok_iff.mp held)
    .withholdEncrypted) stored, fun b ne => ?_⟩
  obtain ⟨-, rfl⟩ := Ledger.writeData_eq_ok_iff.mp stored
  exact Function.update_of_ne ne ..

theorem harvestToMintConfidential_loop {m : Address} {items : List AccountMeta} {n n' : Scalar}
    (ok : items.foldlM (harvestToMintConfidentialStep m) (L, n) = .ok (L', n')) :
    Writes i start validated L L' ∧ L' m = L m := by
  refine foldlM_invariant (P := fun state : Ledger × Scalar =>
    Writes i start validated L state.1 ∧ state.1 m = L m) ?_ ⟨.refl, rfl⟩ ok
  rintro info - ⟨M, total⟩ ⟨M', total'⟩ ⟨writes, kept⟩ step
  simp only [harvestToMintConfidentialStep, bind_eq_ok_iff, require_eq_ok_iff,
    exists_const] at step
  obtain ⟨ne, step⟩ := step
  split at step
  · rename_i w ledger harvested
    simp only [bind_eq_ok_iff, Except.ok.injEq, Prod.mk.injEq] at step
    obtain ⟨_, -, rfl, -⟩ := step
    obtain ⟨more, others⟩ := harvestFromAccountConfidential_writes harvested
    exact ⟨writes.trans more, (others m (Ne.symm ne)).trans kept⟩
  · obtain ⟨rfl, -⟩ := Prod.mk.inj (Except.ok.inj step)
    exact ⟨writes, kept⟩

theorem processHarvestWithheldTokensToMintConfidential_writes
    (ok : processHarvestWithheldTokensToMintConfidential L i.accounts = .ok outcome) :
    Writes i L outcome.validated L outcome.ledger := by
  simp only [processHarvestWithheldTokensToMintConfidential, bind_eq_ok_iff, Prod.exists,
    nextAccountInfo_eq_ok_iff, checkProgramAccount_eq_ok_iff, unpackMint_eq_ok_iff,
    require_eq_ok_iff, exists_const] at ok
  obtain ⟨mintInfo, _, -, owned, mint, data, _, -, config, held, -, M, total, loop, last, stored,
    same⟩ := ok
  obtain rfl := Except.ok.inj same
  obtain ⟨writes, kept⟩ : Writes i L [] _ _ ∧ _ := harvestToMintConfidential_loop loop
  refine writes.trans (Writes.ofChange ?_ ?_ (.mintUpdate data
    (StateWithExtensions.getExtension_eq_ok_iff.mp held) .withholdEncrypted) stored)
  · rw [kept, owned]
  · rw [kept, data]

theorem withdrawFromAccountsConfidential_loop {m d : Address}
    {destination destination' : TokenAccountState} {items : List AccountMeta} {n n' : Scalar}
    (ok : items.foldlM (withdrawFromAccountConfidentialStep m d) (L, destination, n) =
      .ok (L', destination', n')) :
    Writes i start validated L L' ∧ L' d = L d ∧
      Changes i start validated d (.account destination) (.account destination') := by
  refine foldlM_invariant (P := fun state : Ledger × TokenAccountState × Scalar =>
    Writes i start validated L state.1 ∧ state.1 d = L d ∧
      Changes i start validated d (.account destination) (.account state.2.1)) ?_
    ⟨.refl, rfl, .refl⟩ ok
  rintro info - ⟨M, st, total⟩ ⟨M', st', total'⟩ ⟨writes, kept, changes⟩ step
  simp only [withdrawFromAccountConfidentialStep, bind_eq_ok_iff, require_eq_ok_iff,
    exists_const] at step
  obtain ⟨-, step⟩ := step
  split at step
  · simp only [bind_eq_ok_iff, okOr_eq_ok_iff, Except.ok.injEq, Prod.mk.injEq] at step
    obtain ⟨w, withheld, _, -, rfl, rfl, -⟩ := step
    exact ⟨writes, kept, changes.tail (.accountUpdate withheld .withholdEncrypted)⟩
  · rename_i ne
    split at step
    · rename_i w ledger harvested
      simp only [bind_eq_ok_iff, Except.ok.injEq, Prod.mk.injEq] at step
      obtain ⟨_, -, rfl, rfl, -⟩ := step
      obtain ⟨more, others⟩ := harvestFromAccountConfidential_writes harvested
      exact ⟨writes.trans more, (others d (Ne.symm ne)).trans kept, changes⟩
    · obtain ⟨rfl, same⟩ := Prod.mk.inj (Except.ok.inj step)
      obtain ⟨rfl, -⟩ := Prod.mk.inj same
      exact ⟨writes, kept, changes⟩

/-- What a withheld total does to the extension of its destination. -/
theorem creditWithheld_update {a : Address} {st : TokenAccountState}
    {e e' : ConfidentialTransferAccount} {w : Scalar} {decryptable : AeCiphertext}
    {error : ProgramError} (named : i.withdrawsEncryptedInto a)
    (ok : e.creditWithheld w decryptable error = .ok e') :
    AccountUpdate i validated a st .confidentialTransferAccount e e' := by
  simp only [ConfidentialTransferAccount.creditWithheld, bind_eq_ok_iff, okOr_eq_ok_iff,
    CiphertextArithmetic.add, Option.some.injEq, Except.ok.injEq] at ok
  obtain ⟨_, rfl, rfl⟩ := ok
  exact .creditWithheld named

/-- The second account of an instruction. -/
theorem key?_one {info info' : AccountMeta} {rest rest' : List AccountMeta}
    (shape : i.accounts = info :: rest) (shape' : rest = info' :: rest') :
    i.key? 1 = some info'.key := by
  rw [Invocation.key?, shape, shape']
  rfl

/-- **The writes of a confidential withdrawal from accounts.** -/
theorem processWithdrawWithheldTokensFromAccountsConfidential_writes {numTokenAccounts : ℕ}
    {decryptable : AeCiphertext} {offset : ℤ}
    (named : ∀ a, i.key? 1 = some a → i.withdrawsEncryptedInto a)
    (ok : processWithdrawWithheldTokensFromAccountsConfidential i.env L i.accounts numTokenAccounts
      decryptable offset = .ok outcome) : Writes i L outcome.validated L outcome.ledger := by
  simp only [processWithdrawWithheldTokensFromAccountsConfidential, bind_eq_ok_iff, Prod.exists,
    nextAccountInfo_eq_ok_iff, checkProgramAccount_eq_ok_iff, unpackMint_eq_ok_iff,
    unpackAccount_eq_ok_iff, okOr_eq_ok_iff, require_eq_ok_iff, exists_const] at ok
  obtain ⟨mintInfo, _, shape, info, _, shape', context, _, -, authority, _, -, -, _, -, _, -, key, -, _,
    -, owned, destination, data, -, -, before, -, _, -, _, -, -, -, M, destination', total, loop, -,
    after, held, credited, credit, last, stored, same⟩ := ok
  obtain rfl := Except.ok.inj same
  obtain ⟨writes, kept, changes⟩ : Writes i L [key] _ _ ∧ _ ∧ Changes i L [key] _ _ _ :=
    withdrawFromAccountsConfidential_loop loop
  refine writes.trans (Writes.ofWriteData ?_ ?_ (changes.tail
    (.accountUpdate (StateWithExtensions.getExtension_eq_ok_iff.mp held)
      (creditWithheld_update (named _ (key?_one shape shape')) credit))) stored)
  · rw [kept, owned]
  · rw [kept, data]

/-- **The writes of a confidential withdrawal from the mint.** -/
theorem processWithdrawWithheldTokensFromMintConfidential_writes {decryptable : AeCiphertext}
    {offset : ℤ} (named : ∀ a, i.key? 1 = some a → i.withdrawsEncryptedInto a)
    (ok : processWithdrawWithheldTokensFromMintConfidential i.env L i.accounts decryptable offset =
      .ok outcome) : Writes i L outcome.validated L outcome.ledger := by
  simp only [processWithdrawWithheldTokensFromMintConfidential, bind_eq_ok_iff, Prod.exists,
    nextAccountInfo_eq_ok_iff, checkProgramAccount_eq_ok_iff, unpackMint_eq_ok_iff,
    unpackAccount_eq_ok_iff, okOr_eq_ok_iff, require_eq_ok_iff, exists_const] at ok
  obtain ⟨mintInfo, _, shape, info, _, shape', context, _, -, authority, signers, -, owned', mint,
    data', _, -, key, -, _, -, config, held, owned, destination, data, -, -, extension, held', _, -, -,
    -, -, credited, credit, mid, first, last, second, same⟩ := ok
  obtain rfl := Except.ok.inj same
  exact writes_of_both (ne_of_data data data') owned owned' data data'
    (.single (.accountUpdate (StateWithExtensions.getExtension_eq_ok_iff.mp held')
      (creditWithheld_update (named _ (key?_one shape shape')) credit)))
    (.single (.mintUpdate data' (StateWithExtensions.getExtension_eq_ok_iff.mp held)
      .withholdEncrypted)) first second

/-! ### The instructions of the extensions -/

theorem processConfidentialTransferInstruction_writes
    {instruction : ConfidentialTransferInstruction}
    (named : i.instruction = .confidentialTransferExtension instruction)
    (ok : processConfidentialTransferInstruction i.env L i.accounts instruction = .ok outcome) :
    Writes i L outcome.validated L outcome.ledger := by
  cases instruction
  case initializeMint =>
    exact initializeMintExtension_writes (by rw [named]; rfl) (by decide) ok
  case updateMint => exact processUpdateConfidentialTransferMint_writes ok
  case configureAccount =>
    obtain ⟨a, -, configures⟩ := processConfigureAccount_configures (fun a target => by
      rwa [Invocation.configures?, named]) ok
    exact configures.writes
  case approveAccount => exact processApproveAccount_writes ok
  case emptyAccount => exact processEmptyAccount_writes ok
  case deposit =>
    obtain ⟨a, e, lo, hi, target, -, credits⟩ := processDeposit_creditsOf ok
    exact credits.credits.writes (by rw [Invocation.creditsPending?, named]; exact target)
  case withdraw => exact processWithdraw_writes (by rw [named]; rfl) ok
  case transfer =>
    obtain ⟨_, _, _, _, _, e, lo, hi, shape, -, -, credits⟩ :=
      processConfidentialTransfer_creditsOf (by rw [named]; rfl) (.inl (by rw [named]; rfl)) ok
    exact credits.credits.writes (by rw [Invocation.creditsPending?, named]; exact key?_two shape)
  case transferWithFee =>
    obtain ⟨_, _, _, _, _, e, lo, hi, shape, -, -, credits⟩ :=
      processConfidentialTransfer_creditsOf (by rw [named]; rfl) (.inl (by rw [named]; rfl)) ok
    exact credits.credits.writes (by rw [Invocation.creditsPending?, named]; exact key?_two shape)
  case applyPendingBalance =>
    refine processApplyPendingBalance_writes (fun a target => ?_) ok
    rw [Invocation.appliesPending?, named]
    exact target
  case configureAccountWithRegistry =>
    obtain ⟨a, -, configures⟩ := processConfigureAccountWithRegistry_configures (fun a target => by
      rwa [Invocation.configures?, named]) ok
    exact configures.writes
  case enableConfidentialCredits | disableConfidentialCredits =>
    refine updateConfidentialAccount_writes ok fun a st e e' target signed updated => ?_
    obtain rfl := Except.ok.inj updated
    exact .allowConfidentialCredits signed
  case enableNonConfidentialCredits | disableNonConfidentialCredits =>
    refine updateConfidentialAccount_writes ok fun a st e e' target signed updated => ?_
    obtain rfl := Except.ok.inj updated
    exact .allowNonConfidentialCredits signed

theorem processConfidentialTransferFeeInstruction_writes
    {instruction : ConfidentialTransferFeeInstruction}
    (named : i.instruction = .confidentialTransferFeeExtension instruction)
    (ok : processConfidentialTransferFeeInstruction i.env L i.accounts instruction = .ok outcome) :
    Writes i L outcome.validated L outcome.ledger := by
  cases instruction
  case initializeConfidentialTransferFeeConfig =>
    exact initializeMintExtension_writes (by rw [named]; rfl) (by decide) ok
  case withdrawWithheldTokensFromMint =>
    refine processWithdrawWithheldTokensFromMintConfidential_writes (fun a second => ?_) ok
    rw [Invocation.withdrawsEncryptedInto, named]
    exact second
  case withdrawWithheldTokensFromAccounts =>
    refine processWithdrawWithheldTokensFromAccountsConfidential_writes (fun a second => ?_) ok
    rw [Invocation.withdrawsEncryptedInto, named]
    exact second
  case harvestWithheldTokensToMint =>
    exact processHarvestWithheldTokensToMintConfidential_writes ok
  case enableHarvestToMint | disableHarvestToMint =>
    refine updateMintExtension_writes ok fun mint e key e' authority signed updated => ?_
    obtain rfl := Except.ok.inj updated
    exact .toggleHarvestToMint authority signed

theorem processConfidentialMintBurnInstruction_writes
    {instruction : ConfidentialMintBurnInstruction}
    (named : i.instruction = .confidentialMintBurnExtension instruction)
    (ok : processConfidentialMintBurnInstruction i.env L i.accounts instruction = .ok outcome) :
    Writes i L outcome.validated L outcome.ledger := by
  cases instruction
  case initializeMint =>
    exact initializeMintExtension_writes (by rw [named]; rfl) (by decide) ok
  case rotateSupplyElgamalPubkey => exact processRotateSupplyElgamalPubkey_writes ok
  case updateDecryptableSupply =>
    exact processUpdateDecryptableSupply_writes (by rw [named]; rfl) ok
  case mint =>
    obtain ⟨a, e, lo, hi, target, -, credits⟩ :=
      processConfidentialMint_creditsOf (by rw [named]; rfl) ok
    exact credits.credits.writes (by rw [Invocation.creditsPending?, named]; exact target)
  case burn => exact processConfidentialBurn_writes (by rw [named]; rfl) ok
  case applyPendingBurn => exact processApplyPendingBurn_writes (by rw [named]; rfl) ok

end Token2022
