/-
**A fee is a part of the amount.**

The fees of a mint are set with at most `MAX_FEE_BASIS_POINTS`, in the extension of a mint to be and in
an update, and by nothing else.

* `TransferFeeConfig.Bounded`, `FeesBounded` — a configuration, and the data of an account, with such
  fees.
* `Change.feesBounded`, `Step.feesBounded` — one write, and one step of the system.
* **`fees_bounded`** — the fees of every mint of a reachable ledger are so.
-/

import Token2022.Invariant.MintExtension

namespace Token2022

open Fallible LabelledRun

variable {i : Invocation} {start L L' : Ledger} {outcome : Outcome} {validated : List Address}
  {a m : Address} {old new : AccountData}

/-- Both fees are at most the whole amount. -/
structure TransferFeeConfig.Bounded (config : TransferFeeConfig) : Prop where
  older : config.olderTransferFee.transferFeeBasisPoints ≤ maxFeeBasisPoints
  newer : config.newerTransferFee.transferFeeBasisPoints ≤ maxFeeBasisPoints

/-- **The fees in the data of a mint, initialized or still to be, are bounded.** -/
def FeesBounded : AccountData → Prop
  | .zeroed b => ∀ config, b.get .transferFeeConfig = some config → config.Bounded
  | .mint mint => ∀ config, mint.get .transferFeeConfig = some config → config.Bounded
  | _ => True

/-- An account that was handed over has no fees. -/
theorem FeesBounded.fresh (len : ℕ) : FeesBounded (.zeroed ⟨[], len⟩) := nofun

/-- Data that carries bounded fees. -/
theorem CarriesExtension.feesBounded {data : AccountData}
    (carries : CarriesExtension .transferFeeConfig TransferFeeConfig.Bounded data) :
    FeesBounded data := by
  cases carries with
  | staged len ofMint held holds | opened held holds =>
    intro config same
    obtain rfl := Option.some.inj (held.symm.trans same)
    exact holds

/-! ### Writes that set no fee -/

/-- An update of an extension that sets no fee keeps the fees. -/
theorem MintUpdate.feesBounded {mint : MintState} {t : ExtensionType} {e e' : Extension t}
    (update : MintUpdate i validated mint t e e')
    (unset : ∀ bps maximumFee,
      i.instruction ≠ .transferFeeExtension (.setTransferFee bps maximumFee))
    (held : mint.get t = some e) (bounded : FeesBounded (.mint mint)) :
    FeesBounded (.mint (mint.set t e')) := by
  intro config same
  by_cases here : t = .transferFeeConfig
  · cases update with
    | @rotate type field e key new named =>
      cases type <;> cases named <;> cases here
      all_goals
        obtain rfl := Option.some.inj ((StateWithExtensions.get_set_self ..).symm.trans same)
        exact ⟨(bounded e held).older, (bounded e held).newer⟩
    | setTransferFee named => exact absurd named (unset _ _)
    | @withhold e n =>
      obtain rfl := Option.some.inj ((StateWithExtensions.get_set_self ..).symm.trans same)
      exact ⟨(bounded e held).older, (bounded e held).newer⟩
    | _ => cases here
  · exact bounded config ((StateWithExtensions.get_set_of_ne _ (Ne.symm here) e').symm.trans same)

/-- An allocating write of another extension leaves the fees. -/
theorem FeesBounded.of_writesOnly {mint mint' : MintState} {t : ExtensionType} {e : Extension t}
    (other : t ≠ .transferFeeConfig) (writes : StateWithExtensions.WritesOnly mint mint' t e)
    (bounded : FeesBounded (.mint mint)) : FeesBounded (.mint mint') := by
  intro config held
  exact bounded config ((writes.others _ other.symm).symm.trans held)

/-- **One write** of an instruction that sets no fee. -/
theorem Change.feesBounded (change : Change i start validated a old new)
    (elsewhere : i.instruction.initializes ≠ some .mint)
    (unset : ∀ bps maximumFee,
      i.instruction ≠ .transferFeeExtension (.setTransferFee bps maximumFee))
    (bounded : FeesBounded old) : FeesBounded new := by
  cases change with
  | @stage kind tlv _ t v named target unpacked staged written =>
    obtain ⟨-, -, rfl⟩ := TlvData.initExtension_eq_ok written
    cases kind with
    | mint => exact absurd named elsewhere
    | account =>
      have other : ExtensionType.transferFeeConfig ≠ t := by
        rintro rfl
        exact absurd staged (by decide)
      intro config held
      exact bounded config ((Buffer.get_set_of_ne _ other v).symm.trans held)
    | uninitialized => cases staged
  | openMint named => exact absurd named elsewhere
  | openNativeMint named here bare =>
    intro config held
    have none : Buffer.get ⟨[], AccountType.mint.baseLen⟩ .transferFeeConfig = some config :=
      bare ▸ held
    cases none
  | mintBase initial change => exact bounded
  | mintUpdate initial held update => exact update.feesBounded unset held bounded
  | addMetadata authority pointer written | updateMetadata held authority written =>
    exact bounded.of_writesOnly (by decide)
      (StateWithExtensions.allocAndSerializeVariableLenExtension_writesOnly written)
  | addGroup authority pointer empty written | addMember authority pointer written =>
    exact bounded.of_writesOnly (by decide)
      (StateWithExtensions.allocAndSerialize_writesOnly written).2
  | _ => trivial

/-! ### The instructions that set a fee -/

/-- The fees of the ledger's mints, initialized or still to be. -/
def Ledger.FeesBounded (L : Ledger) : Prop :=
  ∀ a, (L a).owner = programId → Token2022.FeesBounded (L a).data

/-- A write to one account. -/
theorem Ledger.FeesBounded.setData {k : Address} {data : AccountData} (bounded : L.FeesBounded)
    (written : Token2022.FeesBounded data) : (L.setData k data).FeesBounded := by
  intro a owned
  rw [Ledger.owner_setData] at owned
  by_cases here : a = k
  · subst here
    rwa [Ledger.data_setData_self]
  · rw [Ledger.data_setData_of_ne _ here]
    exact bounded a owned

/-- What prepares or opens a mint without setting a fee. -/
theorem Prepares.feesBounded (prepares : Prepares i old new)
    (other : i.instruction.stages ≠ some .transferFeeConfig) (bounded : FeesBounded old) :
    FeesBounded new := by
  cases prepares with
  | @stage tlv t v stages =>
    have ne : ExtensionType.transferFeeConfig ≠ t := fun same => other (same ▸ stages)
    intro config held
    exact bounded config ((Buffer.get_set_of_ne _ ne v).symm.trans held)
  | opens => exact bounded

/-- **The instruction that prepares a mint with fees** checks them. -/
theorem initializeTransferFeeConfig_bounds {k : Address}
    (stages : i.instruction.stages = some .transferFeeConfig) (target : i.key? 0 = some k)
    (ok : i.run L = .ok outcome) : FeesBounded (outcome.ledger k).data := by
  obtain ⟨authority, withdrawAuthority, bps, maximumFee, instruction⟩ :=
    TokenInstruction.eq_of_stages_fees stages
  unfold Invocation.run at ok
  rw [instruction] at ok
  replace ok : processInitializeTransferFeeConfig i.env L i.accounts authority withdrawAuthority
    bps.toNat maximumFee.toNat = .ok outcome := ok
  refine CarriesExtension.feesBounded (initializeMintExtension_starts target ?_ ok).2
  intro config given
  simp only [bind_eq_ok_iff, require_eq_ok_iff, exists_const, Except.ok.injEq] at given
  obtain ⟨_, -, _, -, small, rfl⟩ := given
  exact ⟨small, small⟩

/-- **An update of the fees** checks the new one. -/
theorem processSetTransferFee_bounded {env : Env} {accounts : List AccountMeta} {bps maximumFee : ℕ}
    (ok : processSetTransferFee env L accounts bps maximumFee = .ok outcome)
    (bounded : L.FeesBounded) : outcome.ledger.FeesBounded := by
  simp only [processSetTransferFee, updateMintExtension, bind_eq_ok_iff, Prod.exists,
    nextAccountInfo_eq_ok_iff, unpackMint_eq_ok_iff, checkProgramAccount_eq_ok_iff, require_eq_ok_iff,
    Except.ok.injEq, exists_const] at ok
  obtain ⟨info, _, -, _, _, -, owned, mint, data, config, held, _, -, _, -, _, ⟨small, rfl⟩, ledger,
    stored, rfl⟩ := ok
  obtain ⟨-, rfl⟩ := Ledger.writeData_eq_ok_iff.mp stored
  refine bounded.setData ?_
  have fees := bounded info.key owned
  rw [data] at fees
  have before := fees config (StateWithExtensions.getExtension_eq_ok_iff.mp held)
  intro config' same
  obtain rfl := Option.some.inj ((StateWithExtensions.get_set_self ..).symm.trans same)
  refine ⟨?_, small⟩
  dsimp only
  split
  · exact before.newer
  · exact before.older

/-! ### Reachable ledgers -/

/-- **One step of the system.** -/
theorem Step.feesBounded {e : Event} (step : Step L e L') (bounded : L.FeesBounded) :
    L'.FeesBounded := by
  cases step with
  | external ext => exact ext.data_invariant (fun _ => FeesBounded.fresh) bounded
  | @invoke i outcome ok =>
    by_cases initializes : i.instruction.initializes = some .mint
    · obtain ⟨k, new, target, owned, ledger, prepares⟩ := initializers_prepare initializes ok
      rw [ledger]
      refine bounded.setData ?_
      by_cases stages : i.instruction.stages = some .transferFeeConfig
      · have fees := initializeTransferFeeConfig_bounds stages target ok
        rwa [ledger, Ledger.data_setData_self] at fees
      · exact prepares.feesBounded stages (bounded k owned)
    · by_cases sets : ∃ bps maximumFee,
        i.instruction = .transferFeeExtension (.setTransferFee bps maximumFee)
      · obtain ⟨bps, maximumFee, instruction⟩ := sets
        unfold Invocation.run at ok
        rw [instruction] at ok
        exact processSetTransferFee_bounded ok bounded
      · refine (run_writes ok).data_invariant (fun _ => FeesBounded.fresh)
          (fun a old new holds change => ?_) bounded
        exact change.feesBounded initializes (fun bps maximumFee same => sets ⟨bps, maximumFee, same⟩)
          holds

/-- **The fees of a mint are at most the whole amount**, in every reachable ledger. -/
theorem fees_bounded (reachable : Reachable L) {mint : MintState} {config : TransferFeeConfig}
    (held : L.mint? m = some mint) (fees : mint.get .transferFeeConfig = some config) :
    config.Bounded := by
  have all : L.FeesBounded := reachable.invariant
    (fun G genesis a owned => absurd owned (genesis.unowned a))
    fun L e L' holds step => step.feesBounded holds
  obtain ⟨owned, data⟩ := Ledger.mint?_eq_some_iff.mp held
  have bounded := all m owned
  rw [data] at bounded
  exact bounded config fees

end Token2022
