/-
**Who may change what a mint says.**

Every part of a mint has a guardian: each authority guards itself, and what an extension says is
guarded by the authority that the extension names for it, by the mint authority, or by the freeze
authority. Without the word of the guardian nothing of it changes.

* `guarded`, `MintState.guardian?` — what of an extension is guarded, and by whom.
* `Invocation.VouchedBy` — a key is validated, or signs for itself.
* `Authorized` — what changes from one state of a mint to another was vouched for; it composes.
* `MintUpdate.authorized`, `Change.authorized`, `run_authorized` — every write is, every instruction.
* **`settings_authorized`** — every instruction is.
* **`settings_stay`** — a mint whose authorities are silent stays open, and stays as it is.
-/

import Token2022.Invariant.Layout
import Token2022.Property.Closing

namespace Token2022

open Fallible LabelledRun

variable {i : Invocation} {start L L' : Ledger} {validated : List Address} {outcome : Outcome}
  {m : Address}

/-! ### Guardians -/

/-- What of an extension of a mint is guarded: all of it but its authorities, which guard themselves,
and what holders add to it, which is withheld fees and burns. -/
def guarded : (t : ExtensionType) → Extension t → Extension t
  | .transferFeeConfig, e => { e with
      transferFeeConfigAuthority := ⟨0⟩
      withdrawWithheldAuthority := ⟨0⟩
      withheldAmount := 0 }
  | .mintCloseAuthority, _ => ⟨⟨0⟩⟩
  | .confidentialTransferMint, e => { e with authority := ⟨0⟩ }
  | .interestBearingConfig, e => { e with rateAuthority := ⟨0⟩ }
  | .permanentDelegate, _ => ⟨⟨0⟩⟩
  | .transferHook, e => { e with authority := ⟨0⟩ }
  | .confidentialTransferFeeConfig, e => { e with authority := ⟨0⟩, withheldAmount := 0 }
  | .metadataPointer, e => { e with authority := ⟨0⟩ }
  | .groupPointer, e => { e with authority := ⟨0⟩ }
  | .groupMemberPointer, e => { e with authority := ⟨0⟩ }
  | .confidentialMintBurn, e => { e with pendingBurn := 0 }
  | .scaledUiAmount, e => { e with authority := ⟨0⟩ }
  | .pausable, e => { e with authority := ⟨0⟩ }
  | .permissionedBurn, _ => ⟨⟨0⟩⟩
  | _, e => e

/-- The authority that guards an extension. What comes to a mint after it was initialized is for the
mint authority to add. -/
def ExtensionType.guardian? : ExtensionType → Option AuthorityType
  | .transferFeeConfig => some .transferFeeConfig
  | .confidentialTransferMint => some .confidentialTransferMint
  | .defaultAccountState => some .freezeAccount
  | .interestBearingConfig => some .interestRate
  | .transferHook => some .transferHookProgramId
  | .confidentialTransferFeeConfig => some .confidentialTransferFeeConfig
  | .metadataPointer => some .metadataPointer
  | .groupPointer => some .groupPointer
  | .groupMemberPointer => some .groupMemberPointer
  | .scaledUiAmount => some .scaledUiAmount
  | .pausable => some .pause
  | .confidentialMintBurn | .tokenMetadata | .tokenGroup | .tokenGroupMember => some .mintTokens
  | _ => none

namespace MintState

/-- The guarded part of an extension of a mint, where it has it. -/
def guarded? (mint : MintState) (t : ExtensionType) : Option (Extension t) :=
  (mint.get t).map (guarded t)

/-- An extension that is guarded as a whole is the same. -/
theorem get_of_guarded {mint mint' : MintState} {t : ExtensionType}
    (whole : Token2022.guarded t = id) (same : mint'.guarded? t = mint.guarded? t) :
    mint'.get t = mint.get t := by
  simpa only [guarded?, whole, Option.map_id_fun, id_eq] using same

/-- Who guards it. Metadata and a group that are there name their own authority. -/
def guardian? (mint : MintState) : ExtensionType → Option Address
  | .tokenMetadata => (mint.get .tokenMetadata).elim (mint.authority? .mintTokens)
      fun e => e.updateAuthority.toOption
  | .tokenGroup => (mint.get .tokenGroup).elim (mint.authority? .mintTokens)
      fun e => e.updateAuthority.toOption
  | t => t.guardian?.bind mint.authority?

theorem guardian?_eq (mint : MintState) {t : ExtensionType} (notMetadata : t ≠ .tokenMetadata)
    (notGroup : t ≠ .tokenGroup) : mint.guardian? t = t.guardian?.bind mint.authority? := by
  unfold guardian?
  split
  · exact absurd rfl notMetadata
  · exact absurd rfl notGroup
  · rfl

end MintState

/-- The key is validated as an authority, or signs for itself. -/
def Invocation.VouchedBy (i : Invocation) (validated : List Address) (key : Address) : Prop :=
  key ∈ validated ∨ i.SignedBy key

instance (i : Invocation) (validated : List Address) (key : Address) :
    Decidable (i.VouchedBy validated key) :=
  inferInstanceAs (Decidable (_ ∨ ∃ account ∈ i.accounts, _ ∧ _))

/-- The one that may vouch has vouched. -/
def Invocation.VouchedBy? (i : Invocation) (validated : List Address) (guardian : Option Address) :
    Prop := ∃ key, guardian = some key ∧ i.VouchedBy validated key

/-! ### Authorized changes -/

/-- **What changes from one state of a mint to the other was vouched for**: an authority by itself,
the guarded part of an extension by its guardian, and more supply by the mint authority. -/
structure Authorized (i : Invocation) (validated : List Address) (mint mint' : MintState) : Prop where
  authority : ∀ type, mint'.authority? type ≠ mint.authority? type →
    i.VouchedBy? validated (mint.authority? type)
  settings : ∀ t, mint'.guarded? t ≠ mint.guarded? t →
    i.VouchedBy? validated (mint.guardian? t)
  supply : mint.base.supply < mint'.base.supply →
    i.VouchedBy? validated (mint.authority? .mintTokens)

namespace Authorized

theorem refl (mint : MintState) : Authorized i validated mint mint :=
  ⟨fun _ changed => absurd rfl changed, fun _ changed => absurd rfl changed,
    fun more => absurd more (lt_irrefl _)⟩

/-- The guardian of an extension that names it itself, and is guarded as a whole. -/
theorem own_guardian {mint mint' : MintState} (authorized : Authorized i validated mint mint')
    {t : ExtensionType} {read : Extension t → Option Address} (whole : guarded t = id)
    (names : ∀ mint : MintState,
      mint.guardian? t = (mint.get t).elim (mint.authority? .mintTokens) read)
    (changed : mint'.guardian? t ≠ mint.guardian? t) :
    i.VouchedBy? validated (mint.guardian? t) := by
  by_cases same : mint'.guarded? t = mint.guarded? t
  · have held := MintState.get_of_guarded whole same
    rw [names, names, held] at changed
    rw [names]
    cases read : mint.get t with
    | none =>
      rw [read] at changed
      exact authorized.authority .mintTokens changed
    | some e =>
      rw [read] at changed
      exact absurd rfl changed
  · exact authorized.settings t same

/-- **A guardian is not replaced without its word.** -/
theorem guardian {mint mint' : MintState} (authorized : Authorized i validated mint mint')
    {t : ExtensionType} (changed : mint'.guardian? t ≠ mint.guardian? t) :
    i.VouchedBy? validated (mint.guardian? t) := by
  by_cases metadata : t = .tokenMetadata
  · subst metadata
    exact authorized.own_guardian rfl (fun _ => rfl) changed
  by_cases group : t = .tokenGroup
  · subst group
    exact authorized.own_guardian rfl (fun _ => rfl) changed
  rw [MintState.guardian?_eq _ metadata group, MintState.guardian?_eq _ metadata group] at changed
  rw [MintState.guardian?_eq _ metadata group]
  cases named : t.guardian? with
  | none =>
    rw [named] at changed
    exact absurd rfl changed
  | some type =>
    rw [named] at changed
    exact authorized.authority type changed

theorem trans {first second third : MintState} (before : Authorized i validated first second)
    (after : Authorized i validated second third) : Authorized i validated first third where
  authority type changed := by
    by_cases same : second.authority? type = first.authority? type
    · rw [← same]
      exact after.authority type fun stays => changed (stays.trans same)
    · exact before.authority type same
  settings t changed := by
    by_cases same : second.guarded? t = first.guarded? t
    · by_cases kept : second.guardian? t = first.guardian? t
      · rw [← kept]
        exact after.settings t fun stays => changed (stays.trans same)
      · exact before.guardian kept
    · exact before.settings t same
  supply more := by
    by_cases grows : first.base.supply < second.base.supply
    · exact before.supply grows
    · by_cases same : second.authority? .mintTokens = first.authority? .mintTokens
      · rw [← same]
        exact after.supply (lt_of_le_of_lt (not_lt.mp grows) more)
      · exact before.authority .mintTokens same

end Authorized

/-! ### Writes -/

/-- Validated keys vouch. -/
theorem Invocation.vouchedBy?_of_mem {key : Address} {guardian : Option Address}
    (named : guardian = some key) (signed : key ∈ validated) : i.VouchedBy? validated guardian :=
  ⟨key, named, .inl signed⟩

theorem Invocation.vouchedBy?_of_signed {key : Address} {guardian : Option Address}
    (named : guardian = some key) (signed : i.SignedBy key) : i.VouchedBy? validated guardian :=
  ⟨key, named, .inr signed⟩

/-- **An update of an extension, at the authorities in it**: one is replaced by its own word. -/
theorem MintUpdate.read_authority {mint : MintState} {t : ExtensionType} {e e' : Extension t}
    (update : MintUpdate i validated mint t e e') {type : AuthorityType} {field : AuthorityField}
    (named : type.field? = some field) (same : field.type = t) :
    (field.read (same ▸ e')).toOption = (field.read (same ▸ e)).toOption ∨
      i.VouchedBy? validated (field.read (same ▸ e)).toOption := by
  cases update with
  | @rotate type' field' _ key new named' authority signed =>
    cases type' <;> cases named' <;> cases type <;> cases named <;> cases same <;>
      first | exact .inl rfl | exact .inr (Invocation.vouchedBy?_of_mem authority signed)
  | updateMultiplier named authority signed kept =>
    cases type <;> cases named <;> cases same
    exact .inl (congrArg MaybeNull.toOption kept)
  | _ => cases type <;> cases named <;> cases same <;> exact .inl rfl

/-- An authority that an extension keeps. -/
theorem MintState.authority?_of_field (mint : MintState) {type : AuthorityType}
    {field : AuthorityField} (named : type.field? = some field) :
    mint.authority? type = (mint.get field.type).bind fun e => (field.read e).toOption := by
  cases type <;> cases named <;> rfl

/-- An authority, read from the extension that keeps it. -/
theorem MintState.authority?_eq_some {mint : MintState} (type : AuthorityType)
    {field : AuthorityField} (named : type.field? = some field) {e : Extension field.type}
    (held : mint.get field.type = some e) {key : Address}
    (authority : (field.read e).toOption = some key) : mint.authority? type = some key := by
  rw [mint.authority?_of_field named, held]
  exact authority

/-- **An update of an extension, at its guarded part.** -/
theorem MintUpdate.guarded {mint : MintState} {t : ExtensionType} {e e' : Extension t}
    (update : MintUpdate i validated mint t e e') (held : mint.get t = some e) :
    Token2022.guarded t e' = Token2022.guarded t e ∨
      i.VouchedBy? validated (mint.guardian? t) := by
  cases update with
  | @rotate type _ _ _ _ named =>
    left
    cases type <;> cases named <;> rfl
  | setTransferFee named authority signed =>
    exact .inr (Invocation.vouchedBy?_of_mem
      (MintState.authority?_eq_some .transferFeeConfig rfl held authority) signed)
  | updateConfidentialTransferMint authority signed =>
    exact .inr (Invocation.vouchedBy?_of_signed
      (MintState.authority?_eq_some .confidentialTransferMint rfl held authority) signed)
  | updateRate named authority signed =>
    exact .inr (Invocation.vouchedBy?_of_mem
      (MintState.authority?_eq_some .interestRate rfl held authority) signed)
  | updateTransferHook authority signed =>
    exact .inr (Invocation.vouchedBy?_of_mem
      (MintState.authority?_eq_some .transferHookProgramId rfl held authority) signed)
  | updateMetadataPointer authority signed =>
    exact .inr (Invocation.vouchedBy?_of_mem
      (MintState.authority?_eq_some .metadataPointer rfl held authority) signed)
  | updateGroupPointer authority signed =>
    exact .inr (Invocation.vouchedBy?_of_mem
      (MintState.authority?_eq_some .groupPointer rfl held authority) signed)
  | updateGroupMemberPointer authority signed =>
    exact .inr (Invocation.vouchedBy?_of_mem
      (MintState.authority?_eq_some .groupMemberPointer rfl held authority) signed)
  | updateMultiplier named authority signed =>
    exact .inr (Invocation.vouchedBy?_of_mem
      (MintState.authority?_eq_some .scaledUiAmount rfl held authority) signed)
  | togglePause authority signed =>
    exact .inr (Invocation.vouchedBy?_of_mem
      (MintState.authority?_eq_some .pause rfl held authority) signed)
  | toggleHarvestToMint authority signed =>
    exact .inr (Invocation.vouchedBy?_of_mem
      (MintState.authority?_eq_some .confidentialTransferFeeConfig rfl held authority) signed)
  | updateDefaultAccountState authority signed | rotateSupplyKey authority signed
  | updateDecryptableSupply authority signed | confidentialMint authority signed
  | applyPendingBurn authority signed =>
    exact .inr (Invocation.vouchedBy?_of_mem authority signed)
  | updateGroupMaxSize authority fits signed | updateGroupAuthority authority signed
  | enroll named authority room signed =>
    refine .inr (Invocation.vouchedBy?_of_signed ?_ signed)
    show (mint.get .tokenGroup).elim _ _ = _
    rw [held]
    exact authority
  | withhold | withholdEncrypted | confidentialBurn => exact .inl rfl

/-- **An update of an extension is authorized.** -/
theorem MintUpdate.authorized {mint : MintState} {t : ExtensionType} {e e' : Extension t}
    (held : mint.get t = some e) (update : MintUpdate i validated mint t e e') :
    Authorized i validated mint (mint.set t e') := by
  refine ⟨fun type changed => ?_, fun t' changed => ?_, fun more => absurd more (lt_irrefl _)⟩
  · cases named : type.field? with
    | none => cases type <;> first | exact absurd rfl changed | cases named
    | some field =>
      rw [MintState.authority?_of_field _ named, MintState.authority?_of_field _ named] at changed
      rw [MintState.authority?_of_field _ named]
      by_cases same : field.type = t
      · subst same
        rw [StateWithExtensions.get_set_self, held] at changed
        rw [held]
        exact (update.read_authority named rfl).resolve_left changed
      · rw [StateWithExtensions.get_set_of_ne _ same] at changed
        exact absurd rfl changed
  · by_cases same : t' = t
    · subst same
      have written : MintState.guarded? (mint.set t' e') t' = some (Token2022.guarded t' e') := by
        rw [MintState.guarded?, StateWithExtensions.get_set_self, Option.map_some]
      rw [written, MintState.guarded?, held, Option.map_some] at changed
      exact (update.guarded held).resolve_left fun same => changed (congrArg some same)
    · rw [MintState.guarded?, StateWithExtensions.get_set_of_ne _ same] at changed
      exact absurd rfl changed

/-- **A write to the base state is authorized.** -/
theorem MintBaseChange.authorized {mint : MintState} {base : PodMint}
    (change : MintBaseChange i validated m mint base) :
    Authorized i validated mint (mint.withBase base) := by
  refine ⟨fun type changed => ?_, fun t changed => absurd rfl changed, fun more => ?_⟩
  · cases change with
    | mintTo | burn => cases type <;> exact absurd rfl changed
    | setMintAuthority authority signed =>
      cases type
      case mintTokens => exact Invocation.vouchedBy?_of_mem authority signed
      all_goals exact absurd rfl changed
    | setFreezeAuthority named target authority signed =>
      cases type
      case freezeAccount => exact Invocation.vouchedBy?_of_mem authority signed
      all_goals exact absurd rfl changed
  · cases change with
    | mintTo authority signed => exact Invocation.vouchedBy?_of_mem authority signed
    | @burn n => exact absurd more (not_lt.mpr (Nat.sub_le mint.base.supply n))
    | setMintAuthority | setFreezeAuthority => exact absurd more (lt_irrefl _)

/-- **An extension is written to an initialized mint**, where its guardian has signed. -/
theorem authorized_of_writesOnly {mint mint' : MintState} {t : ExtensionType} {e : Extension t}
    (other : t ∈ [ExtensionType.tokenMetadata, .tokenGroup, .tokenGroupMember])
    (vouched : i.VouchedBy? validated (mint.guardian? t))
    (writes : StateWithExtensions.WritesOnly mint mint' t e) :
    Authorized i validated mint mint' := by
  have known : t ∈ [ExtensionType.tokenMetadata, .tokenGroup, .tokenGroupMember,
      .confidentialMintBurn, .defaultAccountState] := by
    revert other
    simp only [List.mem_cons, List.not_mem_nil, or_false]
    tauto
  refine ⟨fun type changed => absurd ?_ changed, fun t' changed => ?_, fun more => ?_⟩
  · cases named : type.field? with
    | none =>
      cases type
      case mintTokens => exact congrArg PodMint.mintAuthority writes.base
      case freezeAccount => exact congrArg PodMint.freezeAuthority writes.base
      case accountOwner | closeAccount => rfl
      all_goals cases named
    | some field =>
      rw [MintState.authority?_of_field _ named, MintState.authority?_of_field _ named,
        writes.others _ (AuthorityType.field?_type_ne named known)]
  · by_cases same : t' = t
    · exact same ▸ vouched
    · rw [MintState.guarded?, writes.others t' same] at changed
      exact absurd rfl changed
  · rw [writes.base] at more
    exact absurd more (lt_irrefl _)

/-- **Every write to a mint leaves it a mint, and is authorized.** -/
theorem Change.authorized {mint : MintState} {new : AccountData}
    (change : Change i start validated m (.mint mint) new) :
    ∃ mint', new = .mint mint' ∧ Authorized i validated mint mint' := by
  cases change with
  | mintBase initial change => exact ⟨_, rfl, change.authorized⟩
  | mintUpdate initial held update => exact ⟨_, rfl, update.authorized held⟩
  | addMetadata authority pointer written signed =>
    refine ⟨_, rfl, authorized_of_writesOnly (by decide)
      (Invocation.vouchedBy?_of_signed ?_ signed)
      (StateWithExtensions.allocAndSerializeVariableLenExtension_writesOnly written)⟩
    have absent : mint.get .tokenMetadata = none := by
      obtain ⟨absent, -⟩ := require_bind_eq_ok_iff.mp written
      simpa [StateWithExtensions.has] using absent
    show (mint.get .tokenMetadata).elim _ _ = _
    rw [absent]
    exact authority
  | updateMetadata held authority written signed =>
    refine ⟨_, rfl, authorized_of_writesOnly (by decide)
      (Invocation.vouchedBy?_of_signed ?_ signed)
      (StateWithExtensions.allocAndSerializeVariableLenExtension_writesOnly written)⟩
    show (mint.get .tokenMetadata).elim _ _ = _
    rw [held]
    exact authority
  | addGroup authority pointer empty written signed =>
    refine ⟨_, rfl, authorized_of_writesOnly (by decide)
      (Invocation.vouchedBy?_of_signed ?_ signed)
      (StateWithExtensions.allocAndSerialize_writesOnly written).2⟩
    show (mint.get .tokenGroup).elim _ _ = _
    rw [(allocAndSerialize_eq_ok written (by decide)).1]
    exact authority
  | addMember authority pointer written signed =>
    have guardian : mint.guardian? .tokenGroupMember = _ := authority
    exact ⟨_, rfl, authorized_of_writesOnly (by decide)
      (Invocation.vouchedBy?_of_signed guardian signed)
      (StateWithExtensions.allocAndSerialize_writesOnly written).2⟩

/-! ### Instructions and runs -/

/-- **What one instruction does to a mint is authorized**, or closes it. -/
theorem run_authorized {mint : MintState} (held : L.mint? m = some mint)
    (ok : i.run L = .ok outcome) :
    (∃ mint', outcome.ledger.mint? m = some mint' ∧ Authorized i outcome.validated mint mint') ∨
    i.closes m ∧ i.VouchedBy? outcome.validated (mint.authority? .closeMint) := by
  obtain ⟨owned, data⟩ := Ledger.mint?_eq_some_iff.mp held
  by_cases closes : i.closes m
  · obtain ⟨source, _, first, -, -, -, -, closed⟩ := closeAccount_cases closes.1 ok
    obtain rfl := Option.some.inj (closes.2.symm.trans first)
    cases closed with
    | account account =>
      cases data.symm.trans (Ledger.account?_eq_some_iff.mp account).2
    | mint there authority signed =>
      obtain rfl := Option.some.inj (held.symm.trans there)
      exact .inr ⟨closes, Invocation.vouchedBy?_of_mem authority
        (signed ▸ List.mem_singleton_self _)⟩
  · obtain ⟨owned', mint', data', authorized⟩ := (run_writes ok).follow
      (R := fun data => ∃ mint', data = .mint mint' ∧
        Authorized i outcome.validated mint mint') closes
      (fun old new before change => by
        obtain ⟨mid, rfl, before⟩ := before
        obtain ⟨mint', rfl, after⟩ := change.authorized
        exact ⟨mint', rfl, before.trans after⟩) ⟨owned, mint, data, .refl mint⟩
    exact .inl ⟨mint', Ledger.mint?_eq_some_iff.mpr ⟨owned', data'⟩, authorized⟩

/-- **What one instruction changes of a mint was vouched for.** Each authority changes by its own
word only, whichever instruction it is, and every other setting by that of its guardian; the supply
grows by the word of the mint authority; and the mint is closed by that of its close authority. -/
theorem settings_authorized {mint : MintState} (held : L.mint? m = some mint)
    (ok : i.run L = .ok outcome) :
    (∃ mint', outcome.ledger.mint? m = some mint' ∧
      (∀ type, mint'.authority? type ≠ mint.authority? type →
        i.VouchedBy? outcome.validated (mint.authority? type)) ∧
      (∀ t, mint'.guarded? t ≠ mint.guarded? t →
        i.VouchedBy? outcome.validated (mint.guardian? t)) ∧
      (mint.base.supply < mint'.base.supply →
        i.VouchedBy? outcome.validated mint.base.mintAuthority)) ∨
    i.closes m ∧ i.VouchedBy? outcome.validated (mint.authority? .closeMint) := by
  rcases run_authorized held ok with ⟨mint', held', authorized⟩ | closed
  · exact .inl ⟨mint', held', authorized.authority, authorized.settings, authorized.supply⟩
  · exact .inr closed

/-- The owner of the plain mint renounces minting. -/
def Basic.renouncing : Invocation :=
  .basic (.setAuthority .mintTokens none) [.plain mint, .signer owner]

/-- And vouches for it. -/
theorem settings_authorized_renouncing : ∃ L outcome, runAll .fresh Basic.plainTurns = .ok L ∧
    Basic.renouncing.run L = .ok outcome ∧
    Basic.renouncing.VouchedBy? outcome.validated (some Basic.owner) := by
  have leads : LeadsTo (runAll .fresh Basic.plainTurns) fun L =>
      LeadsTo (Basic.renouncing.run L) fun outcome =>
      ((L.mint? Basic.mint).any fun mint => mint.authority? .mintTokens = some Basic.owner) = true ∧
      ((outcome.ledger.mint? Basic.mint).any fun mint => mint.authority? .mintTokens = none) =
        true := by
    decide +kernel
  obtain ⟨L, ran, leads⟩ := leads.exists
  obtain ⟨outcome, ok, before, after⟩ := leads.exists
  obtain ⟨mint, held, named⟩ := (Option.any_eq_true ..).mp before
  obtain ⟨mint₁, held₁, gone⟩ := (Option.any_eq_true ..).mp after
  replace named := of_decide_eq_true named
  replace gone := of_decide_eq_true gone
  refine ⟨L, outcome, ran, ok, ?_⟩
  rcases settings_authorized held ok with ⟨mint', held', authority, -, -⟩ | ⟨⟨closes, -⟩, -⟩
  · obtain rfl := Option.some.inj (held₁.symm.trans held')
    rw [← named]
    exact authority .mintTokens (by rw [gone, named]; exact (Option.some_ne_none _).symm)
  · cases closes

/-- The event is an instruction that the key vouches for. -/
def Event.VouchedBy (e : Event) (L : Ledger) (key : Address) : Prop :=
  ∃ i outcome, e = .invoke i ∧ i.run L = .ok outcome ∧ i.VouchedBy outcome.validated key

theorem Event.vouchedBy_iff {key : Address} (ok : i.run L = .ok outcome) :
    (Event.invoke i).VouchedBy L key ↔ i.VouchedBy outcome.validated key := by
  constructor
  · rintro ⟨_, outcome', same, ok', vouched⟩
    cases same
    obtain rfl := Except.ok.inj (ok.symm.trans ok')
    exact vouched
  · intro vouched
    exact ⟨i, outcome, rfl, ok, vouched⟩

namespace MintState

/-- The keys that have a say in a mint. -/
def Names (mint : MintState) (key : Address) : Prop :=
  (∃ type, mint.authority? type = some key) ∨ ∃ t, mint.guardian? t = some key

/-- **The same authorities and settings**, and no more supply. -/
structure Unchanged (mint mint' : MintState) : Prop where
  authority : ∀ type, mint'.authority? type = mint.authority? type
  guarded : ∀ t, mint'.guarded? t = mint.guarded? t
  supply : mint'.base.supply ≤ mint.base.supply

theorem Unchanged.guardian {mint mint' : MintState} (same : mint.Unchanged mint')
    (t : ExtensionType) : mint'.guardian? t = mint.guardian? t := by
  by_cases metadata : t = .tokenMetadata
  · subst metadata
    show (mint'.get .tokenMetadata).elim _ _ = (mint.get .tokenMetadata).elim _ _
    rw [get_of_guarded rfl (same.guarded .tokenMetadata), same.authority]
  by_cases group : t = .tokenGroup
  · subst group
    show (mint'.get .tokenGroup).elim _ _ = (mint.get .tokenGroup).elim _ _
    rw [get_of_guarded rfl (same.guarded .tokenGroup), same.authority]
  rw [guardian?_eq _ metadata group, guardian?_eq _ metadata group, funext same.authority]

end MintState

/-- **A step that none of a mint's keys vouches for** leaves the mint as it is. -/
theorem Step.mint_unchanged {e : Event} {mint mid : MintState} (step : Step L e L')
    (silent : ∀ key, mint.Names key → ¬ e.VouchedBy L key) (held : L.mint? m = some mid)
    (same : mint.Unchanged mid) : ∃ mint', L'.mint? m = some mint' ∧ mint.Unchanged mint' := by
  cases step with
  | external ext => exact ⟨mid, ext.mint? held, same⟩
  | @invoke i outcome ok =>
    have none : ∀ guardian, (∀ key, guardian = some key → mint.Names key) →
        ¬ i.VouchedBy? outcome.validated guardian := by
      rintro guardian names ⟨key, named, vouched⟩
      exact silent key (names key named) ((Event.vouchedBy_iff ok).mpr vouched)
    have authority : ∀ type, ¬ i.VouchedBy? outcome.validated (mid.authority? type) :=
      fun type => none _ fun key named => .inl ⟨type, (same.authority type).symm.trans named⟩
    rcases run_authorized held ok with ⟨mint', held', changed, settings, supply⟩ | ⟨-, vouched⟩
    · refine ⟨mint', held', fun type => ?_, fun t => ?_, ?_⟩
      · by_contra different
        exact authority type (changed type fun kept => different (kept.trans (same.authority type)))
      · by_contra different
        refine none _ (fun key named => ?_)
          (settings t fun kept => different (kept.trans (same.guarded t)))
        exact .inr ⟨t, (same.guardian t).symm.trans named⟩
      · refine le_trans (not_lt.mp fun more => ?_) same.supply
        exact authority .mintTokens (supply more)
    · exact absurd vouched (authority .closeMint)

/-- **A mint is as its keys want it.** In every run in which none of the keys that have a say in a
mint vouches for an instruction, the mint stays open, all of its authorities and its settings stay,
and its supply does not grow. -/
theorem settings_stay {mint : MintState} {events : List Event} (held : L.mint? m = some mint)
    (run : Run (fun M e M' => Step M e M' ∧ ∀ key, mint.Names key → ¬ e.VouchedBy M key)
      L events L') :
    ∃ mint', L'.mint? m = some mint' ∧
      (∀ type, mint'.authority? type = mint.authority? type) ∧
      (∀ t, mint'.guarded? t = mint.guarded? t) ∧ mint'.base.supply ≤ mint.base.supply := by
  obtain ⟨mint', held', same⟩ := run.invariant
    (I := fun M => ∃ mint', M.mint? m = some mint' ∧ mint.Unchanged mint')
    (fun M e M' ⟨mid, there, before⟩ ⟨step, silent⟩ => step.mint_unchanged silent there before)
    ⟨mint, held, fun _ => rfl, fun _ => rfl, le_rfl⟩
  exact ⟨mint', held', same.authority, same.guarded, same.supply⟩

/-- A mint without extensions has no say but by its two authorities. -/
theorem MintState.Names.of_bare {mint : MintState} {key : Address} (bare : mint.extensionTypes = [])
    (names : mint.Names key) :
    mint.base.mintAuthority = some key ∨ mint.base.freezeAuthority = some key := by
  have absent : ∀ t, mint.get t = none := by
    intro t
    rw [← Option.not_isSome_iff_eq_none]
    intro held
    have member := StateWithExtensions.mem_extensionTypes.mpr held
    rw [bare] at member
    cases member
  have authority : ∀ type, mint.authority? type = some key →
      mint.base.mintAuthority = some key ∨ mint.base.freezeAuthority = some key := by
    intro type named
    cases kept : type.field? with
    | none =>
      cases type
      case mintTokens => exact .inl named
      case freezeAccount => exact .inr named
      case accountOwner | closeAccount => cases named
      all_goals cases kept
    | some field =>
      rw [mint.authority?_of_field kept, absent] at named
      cases named
  rcases names with ⟨type, named⟩ | ⟨t, named⟩
  · exact authority type named
  · by_cases metadata : t = .tokenMetadata
    · subst metadata
      rw [guardian?, absent] at named
      exact authority .mintTokens named
    by_cases group : t = .tokenGroup
    · subst group
      rw [guardian?, absent] at named
      exact authority .mintTokens named
    rw [guardian?_eq _ metadata group] at named
    obtain ⟨type, -, named⟩ := Option.bind_eq_some_iff.mp named
    exact authority type named

/-- The tokens that were transferred are transferred back. -/
def Basic.transferBack : Invocation :=
  .basic (.transfer 300) [.plain destination, .plain source, .signer other]

theorem settings_stay_transferBack : ∃ L outcome mint',
    runAll .fresh (Basic.plainTurns ++ [.invoke Basic.transfer]) = .ok L ∧
    Basic.transferBack.run L = .ok outcome ∧ outcome.ledger.mint? Basic.mint = some mint' ∧
    mint'.authority? .mintTokens = some Basic.owner ∧ mint'.base.supply ≤ 1000 := by
  have leads : LeadsTo (runAll .fresh (Basic.plainTurns ++ [.invoke Basic.transfer])) fun L =>
      LeadsTo (Basic.transferBack.run L) fun outcome => outcome.validated = [Basic.other] ∧
      ((L.mint? Basic.mint).any fun mint => mint.extensionTypes = [] ∧
        mint.base.mintAuthority = some Basic.owner ∧ mint.base.freezeAuthority = some Basic.owner ∧
        mint.base.supply = 1000) = true := by
    decide +kernel
  obtain ⟨L, ran, leads⟩ := leads.exists
  obtain ⟨outcome, ok, validated, before⟩ := leads.exists
  obtain ⟨mint, held, facts⟩ := (Option.any_eq_true ..).mp before
  obtain ⟨bare, minter, freezer, supply⟩ := of_decide_eq_true facts
  have silent : ∀ key, mint.Names key → ¬ (Event.invoke Basic.transferBack).VouchedBy L key := by
    intro key names
    have owner : Basic.owner = key := by
      rcases names.of_bare bare with named | named
      · exact Option.some.inj (minter.symm.trans named)
      · exact Option.some.inj (freezer.symm.trans named)
    subst owner
    rw [Event.vouchedBy_iff ok, validated]
    decide
  obtain ⟨mint', held', authority, -, less⟩ := settings_stay held (.single ⟨.invoke ok, silent⟩)
  exact ⟨L, outcome, mint', ran, ok, held', (authority .mintTokens).trans minter, supply ▸ less⟩

end Token2022
