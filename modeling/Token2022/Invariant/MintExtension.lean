/-
**An extension of a mint over a run.**

What holds of the value of one extension at one address: from the instruction that sets it, over the
initialization of the mint, and over all writes that keep it.

* `CarriesExtension` — the data of a mint, initialized or still to be, carries the extension, and the
  value has a property.
* `initializeMintExtension_starts`, `updateMintExtension_moves` — the instructions that set the value.
* `Prepares`, `initializers_prepare` — what the instructions do that prepare or open a mint.
* `initializers_carryExtension`, `Change.carriesExtension` — all others, which leave it, or keep the
  property.
* **`Step.carriesExtension`** — a step of the system.
-/

import Token2022.Environment
import Token2022.Writes.Program

namespace Token2022

open Fallible LabelledRun

variable {i : Invocation} {start L L' : Ledger} {outcome : Outcome} {validated : List Address}
  {m : Address} {t : ExtensionType} {P Q : Extension t → Prop}

/-! ### Data that carries an extension -/

/-- The extension of the mint at an address, or of what becomes one. -/
def Ledger.mintExtension? (L : Ledger) (m : Address) (t : ExtensionType) : Option (Extension t) :=
  match (L m).data with
  | .zeroed buffer => buffer.get t
  | .mint mint => mint.get t
  | _ => none

/-- The extensions of a buffer start with one of a mint. -/
def Buffer.OfMint (b : Buffer) : Prop :=
  b.extensionTypes.head?.map ExtensionType.getAccountType = some .mint

/-- **The data of a mint, initialized or still to be, with an extension of which `P` is true.** -/
inductive CarriesExtension (t : ExtensionType) (P : Extension t → Prop) : AccountData → Prop
  | staged {b : Buffer} {e : Extension t} (len : b.len ≠ multisigLen) (ofMint : b.OfMint)
      (held : b.get t = some e) (holds : P e) : CarriesExtension t P (.zeroed b)
  | opened {mint : MintState} {e : Extension t} (held : mint.get t = some e) (holds : P e) :
      CarriesExtension t P (.mint mint)

theorem CarriesExtension.extension (carries : CarriesExtension t P (L m).data) :
    ∃ e, L.mintExtension? m t = some e ∧ P e := by
  unfold Ledger.mintExtension?
  generalize (L m).data = data at carries
  cases carries with
  | staged len ofMint held holds => exact ⟨_, held, holds⟩
  | opened held holds => exact ⟨_, held, holds⟩

/-- A write keeps the kind of the first extension. -/
theorem Buffer.OfMint.set {b : Buffer} (ofMint : b.OfMint) (t : ExtensionType) (v : Extension t) :
    (b.set t v).OfMint := by
  unfold Buffer.OfMint Buffer.extensionTypes Buffer.set at *
  by_cases member : t ∈ b.entries.keys
  · rwa [KeyedList.keys_put_of_mem v member]
  · rw [KeyedList.keys_put_of_not_mem v member]
    cases keys : b.entries.keys with
    | nil => simp [keys] at ofMint
    | cons first rest => rwa [keys] at ofMint

/-- The first write to a mint to be makes its buffer one of a mint. -/
theorem Buffer.ofMint_of_unpacked {tlv : TlvData .mint} {t : ExtensionType} {v : Extension t}
    (unpacked : unpackUninitialized .mint (.zeroed tlv.toBuffer) = .ok tlv)
    (ofKind : t.getAccountType = .mint) : (tlv.toBuffer.set t v).OfMint := by
  simp only [unpackUninitialized, dif_pos tlv.valid] at unpacked
  split at unpacked
  · rename_i first
    cases entries : tlv.entries with
    | nil =>
      unfold Buffer.OfMint Buffer.extensionTypes Buffer.set
      rw [entries]
      exact congrArg some ofKind
    | cons e rest =>
      refine Buffer.OfMint.set ?_ t v
      unfold Buffer.OfMint Buffer.extensionTypes
      rw [entries] at first ⊢
      exact congrArg some (of_decide_eq_true first)
  · cases unpacked

/-- A buffer of a mint is not one of an account. -/
theorem Buffer.OfMint.not_account {tlv : TlvData .account} (ofMint : tlv.OfMint) :
    unpackUninitialized .account (.zeroed tlv.toBuffer) ≠ .ok tlv := by
  intro unpacked
  simp only [unpackUninitialized, dif_pos tlv.valid] at unpacked
  split at unpacked
  · rename_i first
    unfold Buffer.OfMint Buffer.extensionTypes at ofMint
    cases entries : tlv.entries with
    | nil => simp [entries] at ofMint
    | cons e rest =>
      rw [entries] at first ofMint
      have account : e.1.getAccountType = .account := of_decide_eq_true first
      simp [account] at ofMint
  · cases unpacked

/-! ### Instructions that set the value -/

/-- The extension that an instruction sets on a mint to be. -/
def TokenInstruction.stages : TokenInstruction → Option ExtensionType
  | .initializeMintCloseAuthority _ => some .mintCloseAuthority
  | .initializeNonTransferableMint => some .nonTransferable
  | .initializePermanentDelegate _ => some .permanentDelegate
  | .transferFeeExtension (.initializeTransferFeeConfig ..) => some .transferFeeConfig
  | .confidentialTransferExtension (.initializeMint ..) => some .confidentialTransferMint
  | .confidentialTransferFeeExtension (.initializeConfidentialTransferFeeConfig ..) =>
    some .confidentialTransferFeeConfig
  | .confidentialMintBurnExtension (.initializeMint ..) => some .confidentialMintBurn
  | .defaultAccountStateExtension (.initializeExtension _) => some .defaultAccountState
  | .interestBearingMintExtension (.initializeExtension ..) => some .interestBearingConfig
  | .transferHookExtension (.initializeExtension ..) => some .transferHook
  | .metadataPointerExtension (.initializeExtension ..) => some .metadataPointer
  | .groupPointerExtension (.initializeExtension ..) => some .groupPointer
  | .groupMemberPointerExtension (.initializeExtension ..) => some .groupMemberPointer
  | .scaledUiAmountExtension (.initializeExtension ..) => some .scaledUiAmount
  | .pausableExtension (.initializeExtension _) => some .pausable
  | .permissionedBurnExtension (.initializeExtension _) => some .permissionedBurn
  | _ => none

/-- The event sets the extension on the mint to be at the address. -/
def Event.stages (e : Event) (m : Address) (t : ExtensionType) : Prop :=
  ∃ i, e = .invoke i ∧ i.key? 0 = some m ∧ i.instruction.stages = some t

/-- The instruction that sets the fees of a mint to be. -/
theorem TokenInstruction.eq_of_stages_fees {instruction : TokenInstruction}
    (stages : instruction.stages = some .transferFeeConfig) :
    ∃ a w bps maximumFee,
      instruction = .transferFeeExtension (.initializeTransferFeeConfig a w bps maximumFee) := by
  cases instruction
  case transferFeeExtension inner =>
    cases inner
    case initializeTransferFeeConfig a w bps maximumFee => exact ⟨a, w, bps, maximumFee, rfl⟩
    all_goals cases stages
  all_goals try cases stages
  -- what is left sets another extension
  all_goals
    rename_i inner
    cases inner
    all_goals cases stages

/-- **Setting an extension of a mint to be starts with its value.** -/
theorem initializeMintExtension_starts {value : ProgramResult (Extension t)}
    (target : i.key? 0 = some m) (holds : ∀ v, value = .ok v → P v)
    (ok : initializeMintExtension L i.accounts t value = .ok outcome) :
    (outcome.ledger m).owner = programId ∧ CarriesExtension t P (outcome.ledger m).data := by
  simp only [initializeMintExtension, bind_eq_ok_iff, Prod.exists, nextAccountInfo_eq_ok_iff,
    checkProgramAccount_eq_ok_iff, exists_const] at ok
  obtain ⟨info, rest, shape, owned, tlv, unpacked, v, given, tlv', written, ledger, stored,
    same⟩ := ok
  obtain rfl := Except.ok.inj same
  obtain ⟨-, rfl⟩ := Ledger.writeData_eq_ok_iff.mp stored
  obtain rfl : info.key = m := Option.some.inj ((key?_zero shape).symm.trans target)
  obtain ⟨ofKind, -, rfl⟩ := TlvData.initExtension_eq_ok written
  rw [unpackUninitialized_eq_ok unpacked] at unpacked
  refine ⟨(Ledger.owner_setData ..).trans owned, ?_⟩
  rw [Ledger.data_setData_self]
  exact .staged tlv.valid.1 (Buffer.ofMint_of_unpacked unpacked ofKind)
    (Buffer.get_set_self ..) (holds v given)

/-- **An update of the extension moves its value**, at the first account of the list. -/
theorem updateMintExtension_moves {authorityOf : Extension t → MaybeNull Address}
    {missing : TokenError} {update : Extension t → ProgramResult (Extension t)}
    (moves : i.key? 0 = some m → ∀ e e', P e → update e = .ok e' → Q e')
    (ok : updateMintExtension L i.accounts t authorityOf missing update = .ok outcome)
    (carries : CarriesExtension t P (L m).data) :
    (outcome.ledger m).owner = (L m).owner ∧
      CarriesExtension t (if i.key? 0 = some m then Q else P) (outcome.ledger m).data := by
  simp only [updateMintExtension, bind_eq_ok_iff, Prod.exists,
    nextAccountInfo_eq_ok_iff, unpackMint_eq_ok_iff, okOr_eq_ok_iff,
    checkProgramAccount_eq_ok_iff, Except.ok.injEq, exists_const] at ok
  obtain ⟨info, rest, shape, _, _, -, -, mint, data, e, held, _, -, _, -, e', updated, ledger,
    stored, rfl⟩ := ok
  replace held := StateWithExtensions.getExtension_eq_ok_iff.mp held
  obtain ⟨-, rfl⟩ := Ledger.writeData_eq_ok_iff.mp stored
  refine ⟨Ledger.owner_setData .., ?_⟩
  have first := key?_zero shape
  by_cases here : info.key = m
  · subst here
    rw [data] at carries
    rw [if_pos first, Ledger.data_setData_self]
    cases carries with
    | opened held' holds =>
      obtain rfl := Option.some.inj (held.symm.trans held')
      exact .opened (StateWithExtensions.get_set_self ..) (moves first _ _ holds updated)
  · rw [if_neg fun target => here (Option.some.inj (first.symm.trans target)),
      Ledger.data_setData_of_ne _ (Ne.symm here)]
    exact carries

/-! ### Initializers -/

/-- **What prepares or opens a mint** sets the extension that it names, or opens the mint with what
was set before. -/
inductive Prepares (i : Invocation) : AccountData → AccountData → Prop
  | stage {tlv : TlvData .mint} {t : ExtensionType} {v : Extension t}
      (stages : i.instruction.stages = some t) :
      Prepares i (.zeroed tlv.toBuffer) (.zeroed (tlv.toBuffer.set t v))
  | opens {tlv : TlvData .mint} {base : PodMint} :
      Prepares i (.zeroed tlv.toBuffer) (.mint { base, tlv })

/-- The instruction writes to its first account, and prepares a mint there. -/
def Invocation.PreparesMint (i : Invocation) (L : Ledger) (outcome : Outcome) : Prop :=
  ∃ k new, i.key? 0 = some k ∧ (L k).owner = programId ∧ outcome.ledger = L.setData k new ∧
    Prepares i (L k).data new

/-- Setting an extension of a mint to be. -/
theorem initializeMintExtension_prepares {value : ProgramResult (Extension t)}
    (stages : i.instruction.stages = some t)
    (ok : initializeMintExtension L i.accounts t value = .ok outcome) :
    i.PreparesMint L outcome := by
  simp only [initializeMintExtension, bind_eq_ok_iff, Prod.exists, nextAccountInfo_eq_ok_iff,
    checkProgramAccount_eq_ok_iff, exists_const] at ok
  obtain ⟨info, rest, shape, owned, tlv, unpacked, v, -, tlv', written, ledger, stored, same⟩ := ok
  obtain rfl := Except.ok.inj same
  obtain ⟨-, -, rfl⟩ := TlvData.initExtension_eq_ok written
  refine ⟨info.key, _, key?_zero shape, owned, (Ledger.writeData_eq_ok_iff.mp stored).2, ?_⟩
  rw [unpackUninitialized_eq_ok unpacked]
  exact .stage stages

/-- Opening a mint. -/
theorem processInitializeMintWith_prepares {decimals : ℕ} {mintAuthority : Address}
    {freezeAuthority : Option Address} {rentSysvarAccount : Bool}
    (ok : processInitializeMintWith i.env L i.accounts decimals mintAuthority freezeAuthority
      rentSysvarAccount = .ok outcome) : i.PreparesMint L outcome := by
  simp only [processInitializeMintWith, bind_eq_ok_iff, Prod.exists,
    nextAccountInfo_eq_ok_iff] at ok
  obtain ⟨info, rest, shape, _, -, _, -, _, -, tlv, unpacked, _, -, _, -, _, -, _, -, ledger,
    stored, same⟩ := ok
  obtain rfl := Except.ok.inj same
  obtain ⟨owned, ledger⟩ := Ledger.writeData_eq_ok_iff.mp stored
  rw [unpackUninitialized_eq_ok unpacked] at owned
  obtain owned | same := owned
  · refine ⟨info.key, _, key?_zero shape, owned, ledger, ?_⟩
    rw [unpackUninitialized_eq_ok unpacked]
    exact .opens
  · cases same

/-- **The instructions that prepare or open a mint do only that.** -/
theorem initializers_prepare (named : i.instruction.initializes = some .mint)
    (ok : i.run L = .ok outcome) : i.PreparesMint L outcome := by
  unfold Invocation.run at ok
  cases instruction : i.instruction
  all_goals rw [instruction] at ok named
  case initializeMint => exact processInitializeMintWith_prepares ok
  case initializeMint2 => exact processInitializeMintWith_prepares ok
  case initializeMintCloseAuthority => exact initializeMintExtension_prepares (instruction ▸ rfl) ok
  case initializeNonTransferableMint => exact initializeMintExtension_prepares (instruction ▸ rfl) ok
  case initializePermanentDelegate => exact initializeMintExtension_prepares (instruction ▸ rfl) ok
  case defaultAccountStateExtension inner =>
    cases inner
    case initializeExtension =>
      obtain ⟨default, -, rest⟩ := bind_eq_ok_iff.mp ok
      exact initializeMintExtension_prepares (instruction ▸ rfl) rest
    case update => cases named
  all_goals try cases named
  -- what is left initializes one other extension
  all_goals
    rename_i inner
    cases inner
    all_goals first
      | cases named; done
      | exact initializeMintExtension_prepares (instruction ▸ rfl) ok

/-- **What prepares or opens a mint leaves the value**, unless it sets it. -/
theorem initializers_carryExtension (named : i.instruction.initializes = some .mint)
    (target : i.key? 0 = some m) (once : i.instruction.stages ≠ some t)
    (ok : i.run L = .ok outcome) (carries : CarriesExtension t P (L m).data) :
    CarriesExtension t P (outcome.ledger m).data := by
  obtain ⟨k, new, first, -, ledger, prepares⟩ := initializers_prepare named ok
  obtain rfl := Option.some.inj (first.symm.trans target)
  rw [ledger, Ledger.data_setData_self]
  generalize (L k).data = old at carries prepares
  cases prepares with
  | @stage tlv t' v stages =>
    have other : t ≠ t' := fun same => once (same ▸ stages)
    cases carries with
    | staged len ofMint held holds =>
      exact .staged len (ofMint.set t' v) ((Buffer.get_set_of_ne _ other v).trans held) holds
  | opens =>
    cases carries with
    | staged len ofMint held holds => exact .opened held holds

/-! ### All other writes -/

/-- An allocating write of another extension leaves the value. -/
theorem CarriesExtension.of_writesOnly {mint mint' : MintState} {t' : ExtensionType}
    {e : Extension t'} (other : t ≠ t') (writes : StateWithExtensions.WritesOnly mint mint' t' e)
    (carries : CarriesExtension t P (.mint mint)) : CarriesExtension t P (.mint mint') := by
  cases carries with
  | opened held holds => exact .opened ((writes.others _ other).trans held) holds

/-- **Every write that keeps the property of the value**, those to a mint to be apart. -/
theorem Change.carriesExtension {old new : AccountData}
    (change : Change i start validated m old new) (staged : t ∈ stagedTypes .mint)
    (keep : ∀ mint e e', MintUpdate i validated mint t e e' → P e → P e')
    (elsewhere : ¬ (i.instruction.initializes = some .mint ∧ i.key? 0 = some m))
    (carries : CarriesExtension t P old) : CarriesExtension t P new := by
  cases change with
  | @stage kind _ _ _ _ named target unpacked staged =>
    cases kind with
    | mint => exact absurd ⟨named, target⟩ elsewhere
    | account =>
      cases carries with
      | staged len ofMint held holds => exact absurd unpacked ofMint.not_account
    | uninitialized => cases staged
  | openMint named target => exact absurd ⟨named, target⟩ elsewhere
  | openNativeMint named here bare =>
    cases carries with
    | staged len ofMint held holds =>
      rw [bare] at held
      cases held
  | openAccount named target unpacked =>
    cases carries with
    | staged len ofMint held holds => exact absurd unpacked ofMint.not_account
  | openMultisig len =>
    cases carries with
    | staged other => exact absurd len other
  | mintBase initial change =>
    cases carries with
    | opened held holds => exact .opened held holds
  | @mintUpdate mint t' e e' initial held' update =>
    cases carries with
    | @opened _ v held holds =>
      by_cases here : t' = t
      · subst here
        obtain rfl : e = v := Option.some.inj (held'.symm.trans held)
        exact .opened (StateWithExtensions.get_set_self ..) (keep _ _ _ update holds)
      · exact .opened ((StateWithExtensions.get_set_of_ne _ (Ne.symm here) e').trans held) holds
  | addMetadata authority pointer written | updateMetadata held authority written =>
    have other : t ≠ .tokenMetadata := by
      rintro rfl
      exact absurd staged (by decide)
    exact carries.of_writesOnly other
      (StateWithExtensions.allocAndSerializeVariableLenExtension_writesOnly written)
  | addGroup authority pointer empty written =>
    have other : t ≠ .tokenGroup := by
      rintro rfl
      exact absurd staged (by decide)
    exact carries.of_writesOnly other
      (StateWithExtensions.allocAndSerialize_writesOnly written).2
  | addMember authority pointer written =>
    have other : t ≠ .tokenGroupMember := by
      rintro rfl
      exact absurd staged (by decide)
    exact carries.of_writesOnly other
      (StateWithExtensions.allocAndSerialize_writesOnly written).2
  | _ => cases carries

/-- **One step** whose updates keep the property of the value. -/
theorem Step.carriesExtension {e : Event} (step : Step L e L') (staged : t ∈ stagedTypes .mint)
    (stays : ¬ e.closes m) (once : ¬ e.stages m t)
    (keep : ∀ i validated mint v v', e = .invoke i → MintUpdate i validated mint t v v' →
      P v → P v')
    (init : (L m).owner = programId ∧ CarriesExtension t P (L m).data) :
    (L' m).owner = programId ∧ CarriesExtension t P (L' m).data := by
  cases step with
  | external ext =>
    obtain ⟨owned, data, -⟩ := ext.kept m init.1
    rw [data]
    exact ⟨owned, init.2⟩
  | @invoke i outcome ok =>
    have notClosed : ¬ i.closes m := fun closes => stays ⟨i, rfl, closes⟩
    by_cases initializes : i.instruction.initializes = some .mint ∧ i.key? 0 = some m
    · have owned := (run_writes ok).follow (R := fun _ => True) notClosed
        (fun _ _ _ _ => trivial) ⟨init.1, trivial⟩
      have other : i.instruction.stages ≠ some t := by
        intro stages
        exact once ⟨i, rfl, initializes.2, stages⟩
      exact ⟨owned.1, initializers_carryExtension initializes.1 initializes.2 other ok init.2⟩
    · refine (run_writes ok).follow notClosed (fun old new holds change => ?_) init
      exact change.carriesExtension staged (fun mint v v' => keep i _ mint v v' rfl) initializes
        holds

end Token2022
