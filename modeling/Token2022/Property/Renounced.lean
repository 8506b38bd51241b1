/-
**Renounced authorities stay renounced.**

An authority of a mint that is not there can vouch for nothing, its own return included; without a
mint authority no tokens are minted, in plain or in encrypted form.

* `Renounced` — what one mint is to an earlier state of it; a preorder.
* `MintUpdate.renounced`, `Change.renounced` — every write to a mint respects it.
* **`authorities_stay_renounced`** — so does every run until the mint is closed.
-/

import Token2022.Environment
import Token2022.Writes.Program

namespace Token2022

open Fallible LabelledRun

variable {i : Invocation} {start : Ledger} {validated : List Address}

/-- The plaintext of the encrypted supply, zero where there is none. -/
def MintState.confidentialSupply (mint : MintState) : ℕ :=
  ((mint.get .confidentialMintBurn).map fun e => e.confidentialSupply.val).getD 0

/-- **What a mint has renounced in one state, it has renounced in the other**; without a mint
authority, neither supply is larger. -/
structure Renounced (mint mint' : MintState) : Prop where
  authority : ∀ type, mint.authority? type = none → mint'.authority? type = none
  supply : mint.base.mintAuthority = none → mint'.base.supply ≤ mint.base.supply
  confidential : mint.base.mintAuthority = none → mint'.confidentialSupply ≤ mint.confidentialSupply

namespace Renounced

theorem refl (mint : MintState) : Renounced mint mint :=
  ⟨fun _ none => none, fun _ => le_rfl, fun _ => le_rfl⟩

theorem trans {first second third : MintState} (before : Renounced first second)
    (after : Renounced second third) : Renounced first third where
  authority type none := after.authority type (before.authority type none)
  supply none := (after.supply (before.authority .mintTokens none)).trans (before.supply none)
  confidential none :=
    (after.confidential (before.authority .mintTokens none)).trans (before.confidential none)

end Renounced

/-! ### Updates of an extension -/

/-- No authority is kept in these extensions. -/
theorem AuthorityType.field?_type_ne {type : AuthorityType} {field : AuthorityField}
    (named : type.field? = some field) {t : ExtensionType}
    (other : t ∈ [ExtensionType.tokenMetadata, .tokenGroup, .tokenGroupMember,
      .confidentialMintBurn, .defaultAccountState]) : field.type ≠ t := by
  cases type <;> cases named <;> (rintro rfl; revert other; decide)

/-- **An authority that is not there does not come back** with an update of its extension. -/
theorem MintUpdate.renounced {mint : MintState} {t : ExtensionType} {e e' : Extension t}
    (update : MintUpdate i validated mint t e e') {type : AuthorityType} {field : AuthorityField}
    (named : type.field? = some field) (same : field.type = t)
    (none : (field.read (same ▸ e)).toOption = none) :
    (field.read (same ▸ e')).toOption = Option.none := by
  cases update with
  | @rotate type' field' _ key new named' authority signed =>
    cases type' <;> cases named' <;> cases type <;> cases named <;> cases same <;>
      first | exact none | exact absurd (authority.symm.trans none) (by simp)
  | updateMultiplier named authority signed kept =>
    cases type <;> cases named <;> cases same
    exact (congrArg MaybeNull.toOption kept).trans none
  | _ => cases type <;> cases named <;> cases same <;> exact none

/-! ### Writes to a mint -/

/-- The authorities of a mint, by where they are kept. -/
theorem MintState.authority?_renounced {mint mint' : MintState}
    (minter : mint.base.mintAuthority = none → mint'.base.mintAuthority = none)
    (freezer : mint.base.freezeAuthority = none → mint'.base.freezeAuthority = none)
    (fields : ∀ (type : AuthorityType) (field : AuthorityField), type.field? = some field →
      ((mint.get field.type).bind fun e => (field.read e).toOption) = none →
      ((mint'.get field.type).bind fun e => (field.read e).toOption) = none)
    (type : AuthorityType) (none : mint.authority? type = none) :
    mint'.authority? type = Option.none := by
  cases same : type
  all_goals rw [same] at none
  case mintTokens => exact minter none
  case freezeAccount => exact freezer none
  case accountOwner | closeAccount => rfl
  all_goals exact fields type _ (congrArg AuthorityType.field? same) none

theorem MintState.confidentialSupply_congr {mint mint' : MintState}
    (same : mint'.get .confidentialMintBurn = mint.get .confidentialMintBurn) :
    mint'.confidentialSupply = mint.confidentialSupply := by
  unfold confidentialSupply
  rw [same]

/-- **A write to the base state of a mint.** -/
theorem MintBaseChange.renounced {a : Address} {mint : MintState} {base : PodMint}
    (change : MintBaseChange i validated a mint base) : Renounced mint (mint.withBase base) := by
  have same : MintState.confidentialSupply (mint.withBase base) = mint.confidentialSupply :=
    MintState.confidentialSupply_congr (StateWithExtensions.get_withBase ..)
  refine ⟨MintState.authority?_renounced ?_ ?_ fun _ _ _ none => none, ?_, fun _ => same.le⟩
  · intro none
    cases change with
    | setMintAuthority authority signed => simp [none] at authority
    | _ => exact none
  · intro none
    cases change with
    | setFreezeAuthority named target authority signed => simp [none] at authority
    | _ => exact none
  · intro none
    cases change with
    | mintTo authority signed => simp [none] at authority
    | burn => exact Nat.sub_le ..
    | _ => exact le_rfl

/-- **Without a mint authority the encrypted supply stays as it is.** -/
theorem MintUpdate.confidentialSupply_eq {mint : MintState} {t : ExtensionType} {e e' : Extension t}
    (update : MintUpdate i validated mint t e e') (none : mint.base.mintAuthority = none)
    (same : t = .confidentialMintBurn) :
    ConfidentialMintBurn.confidentialSupply (same ▸ e' : Extension .confidentialMintBurn) =
      ConfidentialMintBurn.confidentialSupply (same ▸ e : Extension .confidentialMintBurn) := by
  cases update with
  | rotate named' authority signed =>
    exact absurd same (AuthorityType.field?_type_ne named' (by decide))
  | rotateSupplyKey authority | updateDecryptableSupply authority | confidentialMint authority
  | applyPendingBurn authority => simp [none] at authority
  | confidentialBurn => rfl
  | _ => cases same

/-- **An update of an extension.** -/
theorem MintUpdate.mint_renounced {mint : MintState} {t : ExtensionType} {e e' : Extension t}
    (held : mint.get t = some e) (update : MintUpdate i validated mint t e e') :
    Renounced mint (mint.set t e') := by
  refine ⟨MintState.authority?_renounced id id fun type field named none => ?_, fun _ => le_rfl,
    fun none => le_of_eq ?_⟩
  · by_cases same : field.type = t
    · subst same
      rw [held] at none
      rw [StateWithExtensions.get_set_self]
      exact update.renounced named rfl none
    · rwa [StateWithExtensions.get_set_of_ne _ same]
  · by_cases same : t = .confidentialMintBurn
    · subst same
      unfold MintState.confidentialSupply
      rw [StateWithExtensions.get_set_self, held]
      exact congrArg ZMod.val (update.confidentialSupply_eq none rfl)
    · exact MintState.confidentialSupply_congr (StateWithExtensions.get_set_of_ne _ (Ne.symm same) _)

/-- An allocating write of what a mint says about itself. -/
theorem renounced_of_writesOnly {mint mint' : MintState} {t : ExtensionType} {e : Extension t}
    (other : t ∈ [ExtensionType.tokenMetadata, .tokenGroup, .tokenGroupMember])
    (writes : StateWithExtensions.WritesOnly mint mint' t e) : Renounced mint mint' := by
  have known : t ∈ [ExtensionType.tokenMetadata, .tokenGroup, .tokenGroupMember,
      .confidentialMintBurn, .defaultAccountState] := by
    revert other
    simp only [List.mem_cons, List.not_mem_nil, or_false]
    tauto
  have supply : mint'.confidentialSupply = mint.confidentialSupply :=
    MintState.confidentialSupply_congr (writes.others _ (by rintro rfl; revert other; decide))
  refine ⟨MintState.authority?_renounced (by rw [writes.base]; exact id)
    (by rw [writes.base]; exact id) fun type field named none => ?_,
    fun _ => by rw [writes.base], fun _ => supply.le⟩
  rwa [writes.others _ (AuthorityType.field?_type_ne named known)]

/-- **Every write to a mint leaves it a mint, and respects what it has renounced.** -/
theorem Change.renounced {m : Address} {mint : MintState} {new : AccountData}
    (change : Change i start validated m (.mint mint) new) :
    ∃ mint', new = .mint mint' ∧ Renounced mint mint' := by
  cases change with
  | mintBase initial change => exact ⟨_, rfl, change.renounced⟩
  | mintUpdate initial held update => exact ⟨_, rfl, update.mint_renounced held⟩
  | addMetadata authority pointer written | updateMetadata held authority written =>
    exact ⟨_, rfl, renounced_of_writesOnly (by decide)
      (StateWithExtensions.allocAndSerializeVariableLenExtension_writesOnly written)⟩
  | addGroup authority pointer empty written | addMember authority pointer written =>
    exact ⟨_, rfl, renounced_of_writesOnly (by decide)
      (StateWithExtensions.allocAndSerialize_writesOnly written).2⟩

/-! ### Runs -/

/-- **Renounced authorities stay renounced**: in every run that does not close the mint, it stays a
mint, an authority that it does not have it never has again, and where it has no mint authority
neither its supply nor the plaintext of its encrypted supply ever grows. -/
theorem authorities_stay_renounced {L L' : Ledger} {events : List Event} {m : Address}
    {mint : MintState} (held : L.mint? m = some mint) (run : Runs L events L')
    (stays : ∀ e ∈ events, ¬ e.closes m) :
    ∃ mint', L'.mint? m = some mint' ∧
      (∀ type, mint.authority? type = none → mint'.authority? type = none) ∧
      (mint.base.mintAuthority = none → mint'.base.supply ≤ mint.base.supply ∧
        mint'.confidentialSupply ≤ mint.confidentialSupply) := by
  obtain ⟨owned, data⟩ := Ledger.mint?_eq_some_iff.mp held
  have kept : (L' m).owner = programId ∧ ∃ mint', (L' m).data = .mint mint' ∧
      Renounced mint mint' := by
    refine run.invariant_of (I := fun L => (L m).owner = programId ∧
      ∃ mint', (L m).data = .mint mint' ∧ Renounced mint mint') stays
      (fun M e M' open' holds step => ?_) ⟨owned, mint, data, .refl mint⟩
    refine step.follow (R := fun data => ∃ mint', data = .mint mint' ∧ Renounced mint mint') open'
      (fun i outcome old new _ _ earlier change => ?_) holds
    obtain ⟨mid, rfl, before⟩ := earlier
    obtain ⟨mint', same, after⟩ := change.renounced
    exact ⟨mint', same, before.trans after⟩
  obtain ⟨owned', mint', data', renounced⟩ := kept
  exact ⟨mint', Ledger.mint?_eq_some_iff.mpr ⟨owned', data'⟩, renounced.authority,
    fun none => ⟨renounced.supply none, renounced.confidential none⟩⟩

/-- The owner of the plain mint renounces minting; later tokens are transferred. -/
def Basic.renouncingTurns : List Turn :=
  plainTurns ++ [.basic (.setAuthority .mintTokens none) [.plain mint, .signer owner]]

theorem authorities_stay_renounced_example :
    ∃ L L' mint', runAll .fresh Basic.renouncingTurns = .ok L ∧
      runAll L [.invoke Basic.transfer] = .ok L' ∧ L'.mint? Basic.mint = some mint' ∧
      mint'.authority? .mintTokens = none ∧ mint'.base.supply ≤ 1000 := by
  have leads : LeadsTo (runAll .fresh Basic.renouncingTurns) fun L =>
      LeadsTo (runAll L [.invoke Basic.transfer]) fun _ =>
      ((L.mint? Basic.mint).any fun mint =>
        mint.authority? .mintTokens = none ∧ mint.base.supply = 1000) = true := by
    decide +kernel
  obtain ⟨L, ran, leads⟩ := leads.exists
  obtain ⟨L', later, renounced⟩ := leads.exists
  obtain ⟨mint, held, facts⟩ := (Option.any_eq_true ..).mp renounced
  obtain ⟨none, supply⟩ := of_decide_eq_true facts
  obtain ⟨mint', held', authority, less⟩ := authorities_stay_renounced held (runs_of_runAll later)
    (fun e member closes => by
      obtain ⟨i, rfl, named, -⟩ := closes
      obtain rfl := Event.invoke.inj (List.mem_singleton.mp member)
      simp [Basic.transfer, Invocation.basic] at named)
  exact ⟨L, L', mint', ran, later, held', authority _ none, supply ▸ (less none).1⟩

end Token2022
