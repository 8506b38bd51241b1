/-
**Overflow does not come up where conservation rules it out.**

All that an instruction adds up of a mint's tokens has been issued, so it fits into 64 bits, and a fee
is a part of the amount.

* `amount_add_withheldTotal_le`, `amount_add_amount_le` — what is in accounts and withheld is within
  the supply that the mint counts with.
* `processTransfer_noOverflow`, `processBurn_noOverflow`, `processMintTo_noOverflow` and those of the
  instructions that collect fees — an instruction does not overflow.
* **`overflow_unreachable`** — all of them, in every reachable ledger.
-/

import Token2022.Extension.TransferFee
import Token2022.Invariant.FeeBound
import Token2022.Property.WithheldFees
import Token2022.Refinement.NoOverflow

namespace Token2022

open Fallible LabelledRun

variable {env : Env} {L : Ledger} {m a d : Address} {st source destination : TokenAccountState}
  {accounts : List AccountMeta} {keys : Finset Address} {amount : ℕ}

/-! ### What has been issued -/

namespace Ledger

/-- A mint that an instruction reads. -/
theorem mint?_of_unpacked {state : MintState} {u : Unit}
    (owned : checkProgramAccount (L a).owner = .ok u)
    (unpacked : unpackMint (L a).data = .ok state) : L.mint? a = some state :=
  mint?_eq_some_iff.mpr
    ⟨checkProgramAccount_eq_ok_iff.mp owned, unpackMint_eq_ok_iff.mp unpacked⟩

/-- A token account that an instruction reads. -/
theorem account?_of_unpacked {u : Unit} (owned : checkProgramAccount (L a).owner = .ok u)
    (unpacked : unpackAccount (L a).data = .ok st) : L.account? a = some st :=
  account?_eq_some_iff.mpr
    ⟨checkProgramAccount_eq_ok_iff.mp owned, unpackAccount_eq_ok_iff.mp unpacked⟩

/-- What the mint at `m`, if there is one, withholds. -/
def mintWithheld (L : Ledger) (m : Address) : ℕ :=
  (L.mint? m).elim 0 StateWithExtensions.mintWithheldAmount

/-- What the mint at `m`, if there is one, has issued. -/
abbrev issued (L : Ledger) (m : Address) : ℕ := (L.book.slot m).issued

theorem sumAccounts_add (v w : TokenAccountState → ℕ) :
    L.sumAccounts m (fun st => v st + w st) = L.sumAccounts m v + L.sumAccounts m w := by
  unfold sumAccounts
  rw [← Finset.sum_add_distrib]
  refine Finset.sum_congr rfl fun a _ => ?_
  cases L.account? a with
  | none => rfl
  | some st =>
    dsimp only
    split <;> rfl

theorem sumAccounts_mono {v w : TokenAccountState → ℕ} (le : ∀ st, v st ≤ w st) :
    L.sumAccounts m v ≤ L.sumAccounts m w := by
  refine Finset.sum_le_sum fun a _ => ?_
  cases L.account? a with
  | none => exact le_rfl
  | some st =>
    dsimp only
    split
    · exact le st
    · exact le_rfl

/-- **What is in the accounts and withheld has been issued.** -/
theorem sums_le_issued (reachable : Reachable L) (notNative : m ≠ nativeMintId) :
    L.sumAccounts m (fun st => st.base.amount) +
      L.sumAccounts m StateWithExtensions.withheldAmount + L.mintWithheld m ≤ L.issued m := by
  have balanced := (conserved_reachable reachable notNative).balanced
  rw [total_heldOf] at balanced
  have plain : L.sumAccounts m (fun st => st.base.amount) +
      L.sumAccounts m StateWithExtensions.withheldAmount ≤
        L.sumAccounts m fun st => st.holding.value := by
    rw [← sumAccounts_add]
    refine sumAccounts_mono fun st => ?_
    rw [StateWithExtensions.value_holding]
    exact Nat.le_add_right _ _
  have due : L.mintWithheld m ≤ (L.book.slot m).due := by
    unfold mintWithheld
    cases held : L.mint? m with
    | none => exact Nat.zero_le _
    | some mint =>
      rw [slot_of_mint? held]
      show _ ≤ mint.issuance.retained + _
      rw [StateWithExtensions.retained_issuance, add_assoc]
      exact Nat.le_add_right _ _
  unfold issued
  omega

theorem issued_lt (reachable : Reachable L) (notNative : m ≠ nativeMintId) :
    L.issued m < 2 ^ 64 := (conserved_reachable reachable notNative).bounded

/-- A mint without encrypted supply has issued its supply. -/
theorem issued_eq_supply {mint : MintState} (held : L.mint? m = some mint)
    (plain : mint.has .confidentialMintBurn = false) : L.issued m = mint.base.supply := by
  rw [issued, slot_of_mint? held]
  exact Issuance.issued_of_plain ((StateWithExtensions.mintBurn_issuance_eq_none mint).mpr plain)

/-- The accounts that are collected from are accounts of the mint. -/
theorem withheldTotal_le : L.withheldTotal plainFees m keys ≤
    L.sumAccounts m StateWithExtensions.withheldAmount := by
  refine (Finset.sum_le_sum_of_subset (Finset.subset_univ keys)).trans
    (Finset.sum_le_sum fun a _ => ?_)
  unfold withheld? feeAccount?
  cases L.account? a with
  | none => exact le_rfl
  | some st =>
    rw [Option.bind_some]
    dsimp only
    split
    · rw [Option.map_map]
      exact le_rfl
    · exact le_rfl

/-- **The tokens of an account and the fees of any accounts** have been issued together. -/
theorem amount_add_withheldTotal_le (keys : Finset Address) (reachable : Reachable L)
    (notNative : m ≠ nativeMintId) (held : L.account? d = some st) (mint : st.base.mint = m) :
    st.base.amount + L.withheldTotal plainFees m keys + L.mintWithheld m ≤ L.issued m := by
  have sums := sums_le_issued reachable notNative
  have one := le_sumAccounts held mint fun st => st.base.amount
  have fees : L.withheldTotal plainFees m keys ≤ _ := withheldTotal_le
  omega

/-- The tokens of an account have been issued. -/
theorem amount_le_issued (reachable : Reachable L) (notNative : m ≠ nativeMintId)
    (held : L.account? d = some st) (mint : st.base.mint = m) : st.base.amount ≤ L.issued m := by
  have sums := sums_le_issued reachable notNative
  have one := le_sumAccounts held mint fun st => st.base.amount
  omega

/-- Two accounts of a mint are two parts of a sum. -/
theorem add_le_sumAccounts (ne : a ≠ d) (held : L.account? a = some source)
    (there : L.account? d = some destination) (mint : source.base.mint = m)
    (mint' : destination.base.mint = m) (quantity : TokenAccountState → ℕ) :
    quantity source + quantity destination ≤ L.sumAccounts m quantity := by
  unfold Ledger.sumAccounts
  refine le_trans (le_of_eq ?_) (Finset.sum_le_sum_of_subset (Finset.subset_univ {a, d}))
  rw [Finset.sum_pair ne]
  simp only [held, there, if_pos mint, if_pos mint']

/-- **The tokens of two accounts** have been issued together. -/
theorem amount_add_amount_le (reachable : Reachable L) (notNative : m ≠ nativeMintId) (ne : a ≠ d)
    (held : L.account? a = some source) (there : L.account? d = some destination)
    (mint : source.base.mint = m) (mint' : destination.base.mint = m) :
    source.base.amount + destination.base.amount ≤ L.issued m := by
  have sums := sums_le_issued reachable notNative
  have pair := add_le_sumAccounts ne held there mint mint' fun st => st.base.amount
  omega

/-- **The tokens of an account and what another withholds** have been issued together. -/
theorem amount_add_withheldAmount_le (reachable : Reachable L) (notNative : m ≠ nativeMintId)
    (held : L.account? a = some source) (there : L.account? d = some destination)
    (mint : source.base.mint = m) (mint' : destination.base.mint = m) :
    source.base.amount + destination.withheldAmount ≤ L.issued m := by
  have sums := sums_le_issued reachable notNative
  have one := le_sumAccounts held mint fun st => st.base.amount
  have other := le_sumAccounts there mint' StateWithExtensions.withheldAmount
  omega

end Ledger

/-! ### Transfers -/

/-- **The fee of a bounded configuration** is computed, and is a part of the amount. -/
theorem TransferFeeConfig.Bounded.calculateEpochFee {config : TransferFeeConfig}
    (bounded : config.Bounded) (epoch : ℕ) (small : amount < 2 ^ 64) :
    ∃ fee, config.calculateEpochFee epoch amount = some fee ∧ fee ≤ amount := by
  have bpsLe : (config.getEpochFee epoch).transferFeeBasisPoints ≤ 10000 := by
    unfold TransferFeeConfig.getEpochFee
    split
    · exact bounded.newer
    · exact bounded.older
  exact ⟨_, TransferFee.calculateFee_eq bpsLe small, TransferFee.levyOn_le bpsLe amount⟩

/-- The fee of a transfer is a part of its amount, and its hook program is the mint's. -/
structure TransferTerms.Of (terms : TransferTerms) (L : Ledger) (m : Address) (amount : ℕ) :
    Prop where
  fee : terms.fee ≤ amount
  hook : ∀ program, terms.transferHookProgramId = some program →
    ∃ mint, L.mint? m = some mint ∧ mint.transferHookProgramId = some program

/-- **The terms of a transfer that names the mint**: the fee computation does not overflow. -/
theorem checkedTransferTerms_avoids (reachable : Reachable L) (mint : source.base.mint = m)
    (small : amount < 2 ^ 64) {mintInfo : AccountMeta} {decimals : ℕ} :
    NoOverflow (checkedTransferTerms env L source mintInfo decimals amount) ∧
      ∀ terms, checkedTransferTerms env L source mintInfo decimals amount = .ok terms →
        terms.Of L m amount := by
  have fees : ∀ state config, (L mintInfo.key).owner = programId →
      (L mintInfo.key).data = .mint state → state.get .transferFeeConfig = some config →
        ∃ fee, config.calculateEpochFee env.epoch amount = some fee ∧ fee ≤ amount := by
    intro state config owned data held
    have bounded := fees_bounded reachable (Ledger.mint?_eq_some_iff.mpr ⟨owned, data⟩) held
    exact bounded.calculateEpochFee env.epoch small
  constructor
  · refine checkProgramAccount_noOverflow.bind fun _ owned => ?_
    refine (avoids_require (by decide)).bind fun _ _ => ?_
    refine unpackMint_noOverflow.bind fun state unpacked => ?_
    refine (avoids_require (by decide)).bind fun _ _ => ?_
    refine Avoids.bind ?_ fun fee _ => (avoids_require (by decide)).bind fun _ _ => avoids_ok _
    split
    · rename_i config held
      obtain ⟨fee, computed, -⟩ := fees state config (checkProgramAccount_eq_ok_iff.mp owned)
        (unpackMint_eq_ok_iff.mp unpacked) held
      exact avoids_okOr_of_some computed
    · exact avoids_ok 0
  · intro terms ok
    simp only [checkedTransferTerms, bind_eq_ok_iff, checkProgramAccount_eq_ok_iff,
      require_eq_ok_iff, unpackMint_eq_ok_iff, exists_const, Except.ok.injEq] at ok
    obtain ⟨owned, same, state, data, -, fee, charged, -, rfl⟩ := ok
    obtain rfl : mintInfo.key = m := same.symm.trans mint
    refine ⟨?_, fun program named => ⟨state, Ledger.mint?_eq_some_iff.mpr ⟨owned, data⟩, named⟩⟩
    split at charged
    · rename_i config held
      obtain ⟨fee', computed, le⟩ := fees state config owned data held
      obtain rfl := Option.some.inj (computed.symm.trans (okOr_eq_ok_iff.mp charged))
      exact le
    · obtain rfl := Except.ok.inj charged
      exact Nat.zero_le _

/-- The terms of a transfer that does not name the mint are found without arithmetic. -/
theorem uncheckedTransferTerms_noOverflow : NoOverflow (uncheckedTransferTerms source) := by
  refine (avoids_require (by decide)).bind fun _ _ => ?_
  refine (avoids_require (by decide)).bind fun _ _ => ?_
  exact (avoids_require (by decide)).bind fun _ _ => avoids_ok _

/-- They name no fee and no hook program. -/
theorem uncheckedTransferTerms_of {terms : TransferTerms}
    (ok : uncheckedTransferTerms source = .ok terms) : terms.Of L m amount := by
  simp only [uncheckedTransferTerms, bind_eq_ok_iff, require_eq_ok_iff, exists_const,
    Except.ok.injEq] at ok
  obtain ⟨-, -, -, rfl⟩ := ok
  refine ⟨Nat.zero_le _, ?_⟩
  intro program hook
  cases hook

/-- **The credit of a transfer**: neither the fee subtraction, nor the credit, nor the withheld fee
overflows, where there is room. -/
theorem creditTransfer_noOverflow {fee : ℕ} (le : fee ≤ amount)
    (room : amount + destination.base.amount < 2 ^ 64)
    (room' : amount + destination.withheldAmount < 2 ^ 64) :
    NoOverflow (creditTransfer destination amount fee) := by
  refine (avoids_okOr_of_some (checkedSub_eq_some_iff.mpr ⟨le, rfl⟩)).bind fun credited less => ?_
  obtain ⟨-, rfl⟩ := checkedSub_eq_some_iff.mp (okOr_eq_ok_iff.mp less)
  refine (avoids_okOr_of_some (checkedAdd_eq_some_iff.mpr ⟨by omega, rfl⟩)).bind fun sum _ => ?_
  dsimp only
  split
  · split
    · rename_i withheld held
      have same : destination.withheldAmount = withheld.withheldAmount := by
        unfold StateWithExtensions.withheldAmount
        rw [show destination.get .transferFeeAmount = some withheld from held]
        rfl
      refine (avoids_okOr_of_some (checkedAdd_eq_some_iff.mpr ⟨by omega, rfl⟩)).bind fun _ _ => ?_
      exact avoids_ok _
    · exact avoids_error (by decide)
  · exact avoids_ok _

/-- Who may debit an account is decided without arithmetic. -/
theorem debitAuthority_noOverflow {account : PodAccount} {authority : AccountMeta}
    {signers : List AccountMeta} {permanentDelegate : Option Address} {spends : Bool} :
    NoOverflow (debitAuthority L account authority signers permanentDelegate amount spends) := by
  unfold debitAuthority
  split
  · exact validateOwner_noOverflow.bind fun _ _ => avoids_ok _
  · split
    · refine validateOwner_noOverflow.bind fun _ _ => ?_
      exact (avoids_require (by decide)).bind fun _ _ => avoids_ok _
    · exact validateOwner_noOverflow.bind fun _ _ => avoids_ok _

/-- A debit leaves the account native, or not. -/
theorem debitAuthority_isNative {account base : PodAccount} {authority : AccountMeta}
    {signers : List AccountMeta} {permanentDelegate : Option Address} {spends : Bool} {key : Address}
    {arm : DebitArm}
    (ok : debitAuthority L account authority signers permanentDelegate amount spends =
      .ok (base, key, arm)) : base.isNative = account.isNative := by
  unfold debitAuthority at ok
  split at ok
  · obtain ⟨_, -, same⟩ := bind_eq_ok_iff.mp ok
    cases same
    rfl
  · split at ok
    · obtain ⟨_, -, rest⟩ := bind_eq_ok_iff.mp ok
      obtain ⟨-, same⟩ := require_bind_eq_ok_iff.mp rest
      cases same
      cases spends <;> rfl
    · obtain ⟨_, -, same⟩ := bind_eq_ok_iff.mp ok
      cases same
      rfl

/-- The memo of the previous instruction is looked for without arithmetic. -/
theorem memoCheck_noOverflow {required : Bool} :
    NoOverflow (if required then env.checkPreviousSiblingInstructionIsMemo else .ok ()) := by
  split
  · exact avoids_require (by decide)
  · exact avoids_ok ()

/-- The end of a transfer overflows only in the hook program. -/
theorem finishTransfer_noOverflow {sourceInfo destinationInfo : AccountMeta} {hook : Option Address}
    {infos : List AccountMeta}
    (avoids : ∀ program, hook = some program → ∀ ledger,
      NoOverflow (env.programs.invokeExecute program ledger infos amount)) :
    NoOverflow (finishTransfer env L sourceInfo destinationInfo source destination hook infos
      amount) := by
  unfold finishTransfer
  split
  · exact writeData_noOverflow.bind fun _ _ => writeData_noOverflow
  · rename_i program
    refine (getExtension_noOverflow.bind fun _ _ => avoids_ok _).bind fun _ _ => ?_
    refine (getExtension_noOverflow.bind fun _ _ => avoids_ok _).bind fun _ _ => ?_
    refine writeData_noOverflow.bind fun _ _ => writeData_noOverflow.bind fun ledger _ => ?_
    refine (avoids program rfl ledger).bind fun after _ => ?_
    have unset : ∀ (L : Ledger) (a : Address), NoOverflow (unsetTransferring L a) := by
      intro L a
      refine unpackAccount_noOverflow.bind fun _ _ => ?_
      exact getExtension_noOverflow.bind fun _ _ => writeData_noOverflow
    exact (unset _ _).bind fun _ _ => unset _ _

/-- **A transfer overflows only in the hook program of its mint.** -/
theorem processTransfer_noOverflow (reachable : Reachable L) (notNative : m ≠ nativeMintId)
    {info : AccountMeta} {rest : List AccountMeta} {instruction : TransferInstruction}
    (held : L.account? info.key = some source) (mint : source.base.mint = m)
    (avoids : ∀ state program, L.mint? m = some state → state.transferHookProgramId = some program →
      ∀ ledger infos, NoOverflow (env.programs.invokeExecute program ledger infos amount)) :
    NoOverflow (processTransfer env L (info :: rest) amount instruction) := by
  obtain ⟨owned, data⟩ := Ledger.account?_eq_some_iff.mp held
  have issued := Ledger.issued_lt reachable notNative
  refine nextAccountInfo_noOverflow.bind fun (sourceInfo, _) shape => ?_
  obtain ⟨rfl, rfl⟩ := List.cons.inj (nextAccountInfo_eq_ok_iff.mp shape)
  refine Avoids.bind ?_ fun (expectedMint, _) _ => ?_
  · unfold nextMintInfo
    split
    · exact avoids_ok _
    · exact nextAccountInfo_noOverflow.bind fun _ _ => avoids_ok _
  refine nextAccountInfo_noOverflow.bind fun (destinationInfo, _) _ => ?_
  refine nextAccountInfo_noOverflow.bind fun (authority, signers) _ => ?_
  refine checkProgramAccount_noOverflow.bind fun _ _ => ?_
  refine checkProgramAccount_noOverflow.bind fun _ owned' => ?_
  refine unpackAccount_noOverflow.bind fun state unpacked => ?_
  obtain rfl : source = state :=
    AccountData.account.inj (data.symm.trans (unpackAccount_eq_ok_iff.mp unpacked))
  refine (avoids_require (by decide)).bind fun _ _ => ?_
  refine (avoids_require (by decide)).bind fun _ enough => ?_
  replace enough := require_eq_ok_iff.mp enough
  refine (avoids_require (by decide)).bind fun _ _ => ?_
  have sourceLe := Ledger.amount_le_issued reachable notNative held mint
  have small : amount < 2 ^ 64 := by omega
  refine Avoids.bind ?_ fun terms given => ?_
  · split
    · exact (checkedTransferTerms_avoids reachable mint small).1
    · exact uncheckedTransferTerms_noOverflow
  replace given : terms.Of L m amount := by
    split at given
    · exact (checkedTransferTerms_avoids reachable mint small).2 terms given
    · exact uncheckedTransferTerms_of given
  refine (avoids_require (by decide)).bind fun _ _ => ?_
  refine (avoids_require (by decide)).bind fun _ _ => ?_
  refine debitAuthority_noOverflow.bind fun (sourceBase, validated, arm) debited => ?_
  dsimp only
  split
  · exact memoCheck_noOverflow.bind fun _ _ => avoids_ok _
  · rename_i distinct
    replace distinct : info.key ≠ destinationInfo.key := fun same =>
      distinct (decide_eq_true same)
    refine unpackAccount_noOverflow.bind fun destination unpacked' => ?_
    refine (avoids_require (by decide)).bind fun _ _ => ?_
    refine (avoids_require (by decide)).bind fun _ same => ?_
    have mint' := (require_eq_ok_iff.mp same).symm.trans mint
    have there := Ledger.account?_of_unpacked owned' unpacked'
    have room := Ledger.amount_add_amount_le reachable notNative distinct held there mint mint'
    have room' := Ledger.amount_add_withheldAmount_le reachable notNative held there mint mint'
    refine memoCheck_noOverflow.bind fun _ _ => ?_
    refine (avoids_require (by decide)).bind fun _ _ => ?_
    refine (avoids_okOr_of_some (checkedSub_eq_some_iff.mpr ⟨enough, rfl⟩)).bind fun _ _ => ?_
    refine (creditTransfer_noOverflow given.fee (by omega) (by omega)).bind fun _ _ => ?_
    have plain : sourceBase.isNativeAccount = false := by
      have wellFormed := wellFormed_reachable reachable
      rw [PodAccount.isNativeAccount, debitAuthority_isNative debited]
      exact wellFormed.plainAccount (Ledger.slot_of_account? held) (mint ▸ notNative)
    refine Avoids.bind ?_ fun moved _ => ?_
    · rw [if_neg]
      · exact avoids_ok L
      · exact fun native => Bool.false_ne_true (plain.symm.trans native)
    refine Avoids.bind ?_ fun _ _ => avoids_ok _
    refine finishTransfer_noOverflow fun program named ledger => ?_
    obtain ⟨state, atMint, hook⟩ := given.hook program named
    exact avoids state program atMint hook ledger _

/-! ### Mints and burns -/

/-- **A mint of tokens overflows only where the supply does.** -/
theorem processMintTo_noOverflow (reachable : Reachable L) (notNative : m ≠ nativeMintId)
    {info : AccountMeta} {rest : List AccountMeta} {decimals : Option ℕ} (here : info.key = m)
    (room : ∀ state, L.mint? m = some state → state.base.supply + amount < 2 ^ 64) :
    NoOverflow (processMintTo L (info :: rest) amount decimals) := by
  refine nextAccountInfo_noOverflow.bind fun (mintInfo, _) shape => ?_
  obtain ⟨rfl, rfl⟩ := List.cons.inj (nextAccountInfo_eq_ok_iff.mp shape)
  refine nextAccountInfo_noOverflow.bind fun (destinationInfo, _) _ => ?_
  refine nextAccountInfo_noOverflow.bind fun (owner, signers) _ => ?_
  refine checkProgramAccount_noOverflow.bind fun _ owned => ?_
  refine checkProgramAccount_noOverflow.bind fun _ owned' => ?_
  refine unpackAccount_noOverflow.bind fun destination unpacked => ?_
  refine (avoids_require (by decide)).bind fun _ _ => ?_
  refine (avoids_require (by decide)).bind fun _ _ => ?_
  refine (avoids_require (by decide)).bind fun _ same => ?_
  refine unpackMint_noOverflow.bind fun state unpacked' => ?_
  refine (avoids_require (by decide)).bind fun _ _ => ?_
  refine (avoids_require (by decide)).bind fun _ _ => ?_
  refine (avoids_require (by decide)).bind fun _ plain => ?_
  refine (avoids_require (by decide)).bind fun _ _ => ?_
  refine (avoids_okOr (by decide)).bind fun _ _ => ?_
  refine validateOwner_noOverflow.bind fun _ _ => ?_
  have atMint : L.mint? m = some state := here ▸ Ledger.mint?_of_unpacked owned unpacked'
  have there := Ledger.account?_of_unpacked owned' unpacked
  have issued := Ledger.amount_le_issued reachable notNative there
    ((require_eq_ok_iff.mp same).symm.trans here)
  rw [Ledger.issued_eq_supply atMint (require_eq_ok_iff.mp plain)] at issued
  have fits := room state atMint
  refine (avoids_okOr_of_some (checkedAdd_eq_some_iff.mpr ⟨by omega, rfl⟩)).bind fun _ _ => ?_
  refine (avoids_okOr_of_some (checkedAdd_eq_some_iff.mpr ⟨fits, rfl⟩)).bind fun _ _ => ?_
  exact writeData_noOverflow.bind fun _ _ => writeData_noOverflow.bind fun _ _ => avoids_ok _

/-- The variant of a burn is checked without arithmetic. -/
theorem checkBurnVariant_noOverflow {state : MintState} {approver : Option AccountMeta} :
    NoOverflow (checkBurnVariant state approver) := by
  unfold checkBurnVariant
  split
  · exact avoids_require (by decide)
  · refine (avoids_okOr (by decide)).bind fun _ _ => ?_
    exact (avoids_require (by decide)).bind fun _ _ => avoids_require (by decide)

/-- **A burn does not overflow**: what is in an account is in the supply. -/
theorem processBurn_noOverflow (reachable : Reachable L) (notNative : m ≠ nativeMintId)
    {info mintInfo : AccountMeta} {rest : List AccountMeta} {permissioned : Bool}
    {decimals : Option ℕ} (here : mintInfo.key = m) :
    NoOverflow (processBurn env L (info :: mintInfo :: rest) amount permissioned decimals) := by
  refine nextAccountInfo_noOverflow.bind fun (sourceInfo, _) shape => ?_
  obtain ⟨rfl, rfl⟩ := List.cons.inj (nextAccountInfo_eq_ok_iff.mp shape)
  refine nextAccountInfo_noOverflow.bind fun (mintInfo', _) shape => ?_
  obtain ⟨rfl, rfl⟩ := List.cons.inj (nextAccountInfo_eq_ok_iff.mp shape)
  refine checkProgramAccount_noOverflow.bind fun _ owned => ?_
  refine checkProgramAccount_noOverflow.bind fun _ owned' => ?_
  refine Avoids.bind ?_ fun (approver, _) _ => ?_
  · split
    · exact nextAccountInfo_noOverflow.bind fun _ _ => avoids_ok _
    · exact avoids_ok _
  refine nextAccountInfo_noOverflow.bind fun (authority, signers) _ => ?_
  refine unpackMint_noOverflow.bind fun state unpacked' => ?_
  refine checkBurnVariant_noOverflow.bind fun _ _ => ?_
  refine unpackAccount_noOverflow.bind fun source unpacked => ?_
  refine (avoids_require (by decide)).bind fun _ _ => ?_
  refine (avoids_require (by decide)).bind fun _ _ => ?_
  refine (avoids_require (by decide)).bind fun _ enough => ?_
  refine (avoids_require (by decide)).bind fun _ same => ?_
  refine (avoids_require (by decide)).bind fun _ _ => ?_
  refine (avoids_require (by decide)).bind fun _ _ => ?_
  refine (avoids_require (by decide)).bind fun _ plain => ?_
  refine (avoids_require (by decide)).bind fun _ _ => ?_
  replace enough := require_eq_ok_iff.mp enough
  have atMint : L.mint? m = some state := here ▸ Ledger.mint?_of_unpacked owned' unpacked'
  have there := Ledger.account?_of_unpacked owned unpacked
  have issued := Ledger.amount_le_issued reachable notNative there
    ((require_eq_ok_iff.mp same).symm.trans here)
  rw [Ledger.issued_eq_supply atMint (require_eq_ok_iff.mp plain)] at issued
  refine Avoids.bind ?_ fun (base, validated, arm) _ => ?_
  · split
    · exact avoids_ok _
    · exact debitAuthority_noOverflow.bind fun _ _ => avoids_ok _
  refine (avoids_okOr_of_some (checkedSub_eq_some_iff.mpr ⟨enough, rfl⟩)).bind fun _ _ => ?_
  refine (avoids_okOr_of_some (checkedSub_eq_some_iff.mpr ⟨by omega, rfl⟩)).bind fun _ _ => ?_
  exact writeData_noOverflow.bind fun _ _ => writeData_noOverflow.bind fun _ _ => avoids_ok _

/-! ### Collecting fees -/

/-- What a mint with fees withholds. -/
theorem Ledger.mintWithheld_eq {state : MintState} {config : TransferFeeConfig}
    (held : L.mint? m = some state) (fees : state.get .transferFeeConfig = some config) :
    L.mintWithheld m = config.withheldAmount := by
  rw [mintWithheld, held, Option.elim_some, StateWithExtensions.mintWithheldAmount, fees]
  rfl

/-- **A harvest does not overflow.** -/
theorem processHarvestWithheldTokensToMint_noOverflow (reachable : Reachable L)
    (notNative : m ≠ nativeMintId) {info : AccountMeta} {sources : List AccountMeta}
    (here : info.key = m) :
    NoOverflow (processHarvestWithheldTokensToMint L (info :: sources)) := by
  refine nextAccountInfo_noOverflow.bind fun (mintInfo, _) shape => ?_
  obtain ⟨rfl, rfl⟩ := List.cons.inj (nextAccountInfo_eq_ok_iff.mp shape)
  refine checkProgramAccount_noOverflow.bind fun _ owned => ?_
  refine unpackMint_noOverflow.bind fun state unpacked => ?_
  refine getExtension_noOverflow.bind fun config held => ?_
  refine Avoids.bind ?_ fun _ _ => writeData_noOverflow.bind fun _ _ => avoids_ok _
  subst here
  have atMint := Ledger.mint?_of_unpacked owned unpacked
  have withheld := Ledger.mintWithheld_eq atMint (StateWithExtensions.getExtension_eq_ok_iff.mp held)
  have sums := Ledger.sums_le_issued reachable notNative
  have issued := Ledger.issued_lt reachable notNative
  have room : ∀ keys, L.FitsWithheld info.key config.withheldAmount keys := by
    intro keys _
    have fees : L.withheldTotal plainFees info.key keys ≤ _ := Ledger.withheldTotal_le
    omega
  have loop := harvestToMint_setLoop (L := L) (m := info.key) config.withheldAmount
  have avoids : NoOverflow (sources.foldlM (harvestToMintStep info.key)
      (L.emptied plainFees info.key ∅,
        config.withheldAmount + L.withheldTotal plainFees info.key ∅)) := by
    refine loop.avoids_foldlM fun keys source fits full => ?_
    refine (avoids_require (by decide)).bind fun _ ne => ?_
    refine absurd ⟨fun member => ?_, room _⟩ full
    rcases Finset.mem_insert.mp member with same | member
    · exact require_eq_ok_iff.mp ne same.symm
    · exact fits.1 member
  rwa [Ledger.emptied_empty, Ledger.withheldTotal_empty, add_zero] at avoids

/-- **A withdrawal from the mint does not overflow.** -/
theorem processWithdrawWithheldTokensFromMint_noOverflow (reachable : Reachable L)
    (notNative : m ≠ nativeMintId) {info : AccountMeta} {rest : List AccountMeta}
    (here : info.key = m) :
    NoOverflow (processWithdrawWithheldTokensFromMint L (info :: rest)) := by
  refine nextAccountInfo_noOverflow.bind fun (mintInfo, _) shape => ?_
  obtain ⟨rfl, rfl⟩ := List.cons.inj (nextAccountInfo_eq_ok_iff.mp shape)
  refine nextAccountInfo_noOverflow.bind fun (destinationInfo, _) _ => ?_
  refine nextAccountInfo_noOverflow.bind fun (authority, signers) _ => ?_
  refine checkProgramAccount_noOverflow.bind fun _ owned => ?_
  refine checkProgramAccount_noOverflow.bind fun _ owned' => ?_
  refine unpackMint_noOverflow.bind fun state unpacked => ?_
  refine getExtension_noOverflow.bind fun config held => ?_
  refine (avoids_okOr (by decide)).bind fun _ _ => ?_
  refine validateOwner_noOverflow.bind fun _ _ => ?_
  refine unpackAccount_noOverflow.bind fun destination unpacked' => ?_
  refine (avoids_require (by decide)).bind fun _ same => ?_
  refine (avoids_require (by decide)).bind fun _ _ => ?_
  subst here
  have atMint := Ledger.mint?_of_unpacked owned unpacked
  have there := Ledger.account?_of_unpacked owned' unpacked'
  have withheld := Ledger.mintWithheld_eq atMint (StateWithExtensions.getExtension_eq_ok_iff.mp held)
  have sums := Ledger.amount_add_withheldTotal_le ∅ reachable notNative there
    (require_eq_ok_iff.mp same)
  have issued := Ledger.issued_lt reachable notNative
  refine (avoids_okOr_of_some (checkedAdd_eq_some_iff.mpr ⟨by omega, rfl⟩)).bind fun _ _ => ?_
  exact writeData_noOverflow.bind fun _ _ => writeData_noOverflow.bind fun _ _ => avoids_ok _

/-- **A withdrawal from accounts does not overflow.** -/
theorem processWithdrawWithheldTokensFromAccounts_noOverflow (reachable : Reachable L)
    (notNative : m ≠ nativeMintId) {info : AccountMeta} {rest : List AccountMeta}
    {numTokenAccounts : ℕ} (here : info.key = m) :
    NoOverflow (processWithdrawWithheldTokensFromAccounts L (info :: rest) numTokenAccounts) := by
  refine nextAccountInfo_noOverflow.bind fun (mintInfo, _) shape => ?_
  obtain ⟨rfl, rfl⟩ := List.cons.inj (nextAccountInfo_eq_ok_iff.mp shape)
  refine nextAccountInfo_noOverflow.bind fun (destinationInfo, _) _ => ?_
  refine nextAccountInfo_noOverflow.bind fun (authority, infos) _ => ?_
  refine checkProgramAccount_noOverflow.bind fun _ owned => ?_
  refine checkProgramAccount_noOverflow.bind fun _ owned' => ?_
  refine unpackMint_noOverflow.bind fun state unpacked => ?_
  refine getExtension_noOverflow.bind fun config held => ?_
  refine (avoids_okOr (by decide)).bind fun _ _ => ?_
  refine validateOwner_noOverflow.bind fun _ _ => ?_
  refine unpackAccount_noOverflow.bind fun destination unpacked' => ?_
  refine (avoids_require (by decide)).bind fun _ same => ?_
  refine (avoids_require (by decide)).bind fun _ _ => ?_
  refine Avoids.bind ?_ fun _ _ => writeData_noOverflow.bind fun _ _ => avoids_ok _
  subst here
  have mint := require_eq_ok_iff.mp same
  have there := Ledger.account?_of_unpacked owned' unpacked'
  have issued := Ledger.issued_lt reachable notNative
  have room : ∀ keys, L.FitsWithheld info.key destination.base.amount keys := by
    intro keys _
    have sums := Ledger.amount_add_withheldTotal_le keys reachable notNative there mint
    omega
  have loop := withdrawFromAccount_setLoop there mint
  refine loop.avoids_foldlM fun keys source fits full => ?_
  obtain ⟨absent, present, -⟩ := fits
  refine (avoids_require (by decide)).bind fun _ ne => ?_
  have outside : info.key ∉ insert source.key keys := fun member =>
    (Finset.mem_insert.mp member).elim (fun same => require_eq_ok_iff.mp ne same.symm) absent
  -- what does not fit is the destination, without the extension
  have bare : source.key = destinationInfo.key ∧
      L.feeAccount? plainFees info.key destinationInfo.key = none := by
    by_contra other
    refine full ⟨outside, fun member none => ?_, room _⟩
    rcases Finset.mem_insert.mp member with same | member
    · exact other ⟨same.symm, none⟩
    · exact present member none
  rw [if_pos bare.1]
  refine (avoids_okOr (by decide)).bind fun withheld found => ?_
  have inMemory : (destination.emptiedAt plainFees destinationInfo.key keys).get .transferFeeAmount =
      some withheld := okOr_eq_ok_iff.mp found
  have first : destinationInfo.key ∉ keys := fun member => present member bare.2
  rw [TokenAccountState.emptiedAt, if_neg first] at inMemory
  have carried := Ledger.feeAccount?_destination (w := plainFees) there mint
  rw [bare.2, show destination.get plainFees.type = some withheld from inMemory] at carried
  cases carried

/-! ### All of them -/

/-- The arithmetic of a transfer between two accounts of a mint, with the fee that it computes. -/
theorem transferArithmetic_noOverflow (reachable : Reachable L) (notNative : m ≠ nativeMintId)
    (ne : a ≠ d) (held : L.account? a = some source) (mint : source.base.mint = m)
    (there : L.account? d = some destination) (mint' : destination.base.mint = m)
    (enough : amount ≤ source.base.amount) (mintInfo : AccountMeta) (decimals : ℕ) :
    NoOverflow (checkedTransferTerms env L source mintInfo decimals amount) ∧
      ∀ terms, checkedTransferTerms env L source mintInfo decimals amount = .ok terms →
        NoOverflow (creditTransfer destination amount terms.fee) := by
  have issued := Ledger.issued_lt reachable notNative
  have room := Ledger.amount_add_amount_le reachable notNative ne held there mint mint'
  have room' := Ledger.amount_add_withheldAmount_le reachable notNative held there mint mint'
  have small : amount < 2 ^ 64 := by omega
  refine ⟨(checkedTransferTerms_avoids reachable mint small).1, fun terms ok => ?_⟩
  have fee := ((checkedTransferTerms_avoids reachable mint small).2 terms ok).fee
  exact creditTransfer_noOverflow fee (by omega) (by omega)

/-- **Overflow does not come up where conservation rules it out.** In every reachable ledger, at every
mint but the native one: no fee computation, fee subtraction, credit of a destination or addition to its
withheld fees overflows in a transfer, which returns the error only if the hook program of the mint does;
no burn, harvest or withdrawal of fees overflows; a mint of tokens does only where the supply would. -/
theorem overflow_unreachable {L : Ledger} {m : Address} (reachable : Reachable L)
    (notNative : m ≠ nativeMintId) :
    (∀ env a d source destination amount mintInfo decimals, a ≠ d →
      L.account? a = some source → source.base.mint = m →
      L.account? d = some destination → destination.base.mint = m → amount ≤ source.base.amount →
      NoOverflow (checkedTransferTerms env L source mintInfo decimals amount) ∧
        ∀ terms, checkedTransferTerms env L source mintInfo decimals amount = .ok terms →
          NoOverflow (creditTransfer destination amount terms.fee)) ∧
    (∀ env info rest source amount instruction,
      L.account? info.key = some source → source.base.mint = m →
      processTransfer env L (info :: rest) amount instruction = .error (.custom .overflow) →
      ∃ state program ledger infos, L.mint? m = some state ∧
        state.transferHookProgramId = some program ∧
        env.programs.invokeExecute program ledger infos amount = .error (.custom .overflow)) ∧
    (∀ env info mintInfo rest amount permissioned decimals, mintInfo.key = m →
      NoOverflow (processBurn env L (info :: mintInfo :: rest) amount permissioned decimals)) ∧
    (∀ info sources, info.key = m →
      NoOverflow (processHarvestWithheldTokensToMint L (info :: sources))) ∧
    (∀ info rest, info.key = m →
      NoOverflow (processWithdrawWithheldTokensFromMint L (info :: rest))) ∧
    (∀ info rest n, info.key = m →
      NoOverflow (processWithdrawWithheldTokensFromAccounts L (info :: rest) n)) ∧
    ∀ info rest amount decimals, info.key = m →
      processMintTo L (info :: rest) amount decimals = .error (.custom .overflow) →
      ∃ state, L.mint? m = some state ∧ 2 ^ 64 ≤ state.base.supply + amount := by
  refine ⟨?_, ?_, ?_, ?_, ?_, ?_, ?_⟩
  · intro env a d source destination amount mintInfo decimals ne held mint there mint' enough
    exact transferArithmetic_noOverflow reachable notNative ne held mint there mint' enough mintInfo
      decimals
  · intro env info rest source amount instruction held mint overflows
    by_contra none
    refine processTransfer_noOverflow reachable notNative held mint ?_ overflows
    intro state program atMint hook ledger infos same
    exact none ⟨state, program, ledger, infos, atMint, hook, same⟩
  · intro env info mintInfo rest amount permissioned decimals here
    exact processBurn_noOverflow reachable notNative here
  · intro info sources here
    exact processHarvestWithheldTokensToMint_noOverflow reachable notNative here
  · intro info rest here
    exact processWithdrawWithheldTokensFromMint_noOverflow reachable notNative here
  · intro info rest n here
    exact processWithdrawWithheldTokensFromAccounts_noOverflow reachable notNative here
  · intro info rest amount decimals here overflows
    by_contra none
    refine processMintTo_noOverflow reachable notNative here ?_ overflows
    intro state atMint
    exact not_le.mp fun full => none ⟨state, atMint, full⟩

section Examples

open Basic AccountMeta

/-- A mint with fees, of which 1000 tokens are out: 2 ^ 64 - 1 more are too many. -/
theorem overflow_unreachable_example : ∃ L state, runAll .fresh feeTurns = .ok L ∧
    processMintTo L [plain mint, plain Basic.source, signer owner] (2 ^ 64 - 1) none =
      .error (.custom .overflow) ∧
    L.mint? mint = some state ∧ 2 ^ 64 ≤ state.base.supply + (2 ^ 64 - 1) ∧
    NoOverflow (processHarvestWithheldTokensToMint L
      [plain mint, plain Basic.source, plain Basic.destination, plain Basic.destination]) := by
  have leads : LeadsTo (runAll .fresh feeTurns) fun L =>
      processMintTo L [plain mint, plain Basic.source, signer owner] (2 ^ 64 - 1) none =
        .error (.custom .overflow) := by
    decide +kernel
  obtain ⟨L, ran, overflows⟩ := leads.exists
  have reachable := Reachable.of_runAll .fresh ran
  obtain ⟨-, -, -, harvests, -, -, mints⟩ :=
    overflow_unreachable (m := mint) reachable (by decide)
  obtain ⟨state, held, full⟩ := mints _ _ _ _ rfl overflows
  exact ⟨L, state, ran, overflows, held, full, harvests _ _ rfl⟩

end Examples

end Token2022
