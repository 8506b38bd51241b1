/-
**The flag of a transfer that is going on.**

Where a mint has a transfer hook, both accounts of a transfer are flagged before the hook program is
called, and the flags are taken back afterwards. A hook program tells by the flags that it is called
by a transfer.

* `Ledger.transferring` — the flag of an account; `Ledger.IdleBut` — no account is flagged, some
  apart.
* `Change.idle`, `Writes.idleBut` — only a transfer writes flags.
* `finishTransfer_idle`, `finishConfidentialTransfer_idle` — what a transfer flags, it takes back.
* `Invocation.CallsHookOnlyOn` — the ledgers on which an instruction calls the hook program.
* **`transferring_bracketed`** — between instructions no account is flagged, and where a transfer
  calls the hook program its two accounts are.
-/

import Token2022.Batch
import Token2022.Writes.Program

namespace Token2022

open Fallible LabelledRun Relation

variable {i : Invocation} {start L L' M : Ledger} {outcome : Outcome} {validated : List Address}
  {a b : Address} {S : Set Address}

/-! ### Flags -/

/-- The account is flagged: a transfer from it or to it is going on. -/
def Ledger.transferring (L : Ledger) (a : Address) : Prop :=
  ((L.account? a).bind fun st => st.get .transferHookAccount) = some ⟨true⟩

instance (L : Ledger) (a : Address) : Decidable (L.transferring a) :=
  inferInstanceAs (Decidable ((_ : Option TransferHookAccount) = _))

/-- The data of an account, initialized or still to be, without the flag. -/
def Idle : AccountData → Prop
  | .zeroed buffer => buffer.get .transferHookAccount ≠ some ⟨true⟩
  | .account st => st.get .transferHookAccount ≠ some ⟨true⟩
  | _ => True

/-- **No account of the program is flagged**, those of a set apart. -/
def Ledger.IdleBut (S : Set Address) (L : Ledger) : Prop :=
  ∀ a, (L a).owner = programId → a ∉ S → Idle (L a).data

theorem Ledger.transferring_iff : L.transferring a ↔
    ∃ st, (L a).owner = programId ∧ (L a).data = .account st ∧
      st.get .transferHookAccount = some ⟨true⟩ := by
  unfold Ledger.transferring
  rw [Option.bind_eq_some_iff]
  constructor
  · rintro ⟨st, held, flag⟩
    obtain ⟨owned, data⟩ := Ledger.account?_eq_some_iff.mp held
    exact ⟨st, owned, data, flag⟩
  · rintro ⟨st, owned, data, flag⟩
    exact ⟨st, Ledger.account?_eq_some_iff.mpr ⟨owned, data⟩, flag⟩

theorem Ledger.IdleBut.not_transferring (idle : L.IdleBut S) (outside : a ∉ S) :
    ¬ L.transferring a := by
  intro flagged
  obtain ⟨st, owned, data, flag⟩ := Ledger.transferring_iff.mp flagged
  have unflagged := idle a owned outside
  rw [data] at unflagged
  exact unflagged flag

/-! ### Instructions that are no transfers -/

/-- The extensions that an account starts with have no flag. -/
theorem initAccountExtensionFromType_idle {tlv tlv' : TlvData .account} {t : ExtensionType}
    (ok : tlv.initAccountExtensionFromType t = .ok tlv')
    (idle : tlv.get .transferHookAccount ≠ some ⟨true⟩) :
    tlv'.get .transferHookAccount ≠ some ⟨true⟩ := by
  obtain rfl | ⟨v, initial, written⟩ := TlvData.initAccountExtensionFromType_eq_ok ok
  · exact idle
  · obtain ⟨-, -, rfl⟩ := TlvData.initExtension_eq_ok written
    by_cases hook : .transferHookAccount = t
    · subst hook
      obtain rfl : ⟨false⟩ = v := Option.some.inj initial
      have unset : (tlv.set .transferHookAccount ⟨false⟩).get .transferHookAccount =
          some ⟨false⟩ := Buffer.get_set_self ..
      rw [unset]
      intro same
      cases same
    · exact (Buffer.get_set_of_ne _ hook v).trans_ne idle

/-- **Only a transfer writes flags.** -/
theorem Change.idle {old new : AccountData} (change : Change i start validated a old new)
    (quiet : ¬ i.transfersAt a) (idle : Idle old) : Idle new := by
  cases change with
  | @stage kind tlv tlv' t v named target unpacked staged written =>
    have other : ExtensionType.transferHookAccount ≠ t := by
      rintro rfl
      cases kind <;> exact absurd staged (by decide)
    obtain ⟨-, -, rfl⟩ := TlvData.initExtension_eq_ok written
    exact (Buffer.get_set_of_ne _ other v).trans_ne idle
  | @openAccount tlv tlv' types base named target unpacked required =>
    exact foldlM_invariant (P := fun tlv : TlvData .account =>
      tlv.get .transferHookAccount ≠ some ⟨true⟩)
      (fun _ _ _ _ holds ok => initAccountExtensionFromType_idle ok holds) idle required
  | accountBase change => exact idle
  | @accountUpdate st t e e' held update =>
    have other : ExtensionType.transferHookAccount ≠ t := by
      rintro rfl
      cases update with
      | setTransferring named => exact quiet named
    exact (StateWithExtensions.get_set_of_ne _ other e').trans_ne idle
  | @accountOpen st st' t e overwrite absent opening written =>
    have other : ExtensionType.transferHookAccount ≠ t := by
      rintro rfl
      cases opening
    obtain ⟨-, -, rfl⟩ := StateWithExtensions.initExtension_eq_ok written
    exact (StateWithExtensions.get_set_of_ne _ other e).trans_ne idle
  | accountResize written =>
    exact (StateWithExtensions.get_resize written .transferHookAccount).trans_ne idle
  | _ => trivial

/-- The rest of the world writes no flags. -/
theorem External.idleBut (ext : External L L') (idle : L.IdleBut S) : L'.IdleBut S :=
  ext.data_invariant (P := fun a data => a ∉ S → Idle data) (fun _ _ _ => nofun) idle

/-- **The writes of what is no transfer flag no account.** -/
theorem Writes.idleBut (writes : Writes i start validated L L')
    (quiet : i.instruction.destinationPlace? = none) (idle : L.IdleBut S) : L'.IdleBut S := by
  refine writes.data_invariant (P := fun a data => a ∉ S → Idle data) (fun _ _ _ => nofun)
    (fun a old new unflagged change outside => change.idle ?_ (unflagged outside)) idle
  rintro ⟨place, named, -⟩
  rw [quiet] at named
  cases named

/-! ### The parts of a transfer -/

/-- Writing an account leaves the others. -/
theorem Ledger.IdleBut.setData {data : AccountData} (idle : L.IdleBut S) :
    (L.setData a data).IdleBut (insert a S) := by
  intro b owned outside
  obtain ⟨ne, outside⟩ := not_or.mp outside
  rw [Ledger.owner_setData] at owned
  rw [Ledger.data_setData_of_ne _ ne]
  exact idle b owned outside

/-- Writing an account without the flag. -/
theorem Ledger.IdleBut.setData_idle {data : AccountData} (idle : L.IdleBut S) (unset : Idle data) :
    (L.setData a data).IdleBut (S \ {a}) := by
  intro b owned outside
  rw [Ledger.owner_setData] at owned
  by_cases here : b = a
  · subst here
    rwa [Ledger.data_setData_self]
  · rw [Ledger.data_setData_of_ne _ here]
    exact idle b owned fun inside => outside ⟨inside, here⟩

/-- `unset_transferring` takes the flag back. -/
theorem unsetTransferring_idleBut (ok : unsetTransferring L a = .ok L') (idle : L.IdleBut S) :
    L'.IdleBut (S \ {a}) := by
  simp only [unsetTransferring, bind_eq_ok_iff, unpackAccount_eq_ok_iff] at ok
  obtain ⟨st, -, v, -, stored⟩ := ok
  obtain ⟨-, rfl⟩ := Ledger.writeData_eq_ok_iff.mp stored
  refine idle.setData_idle (a := a) ?_
  show (st.set .transferHookAccount ⟨false⟩).get .transferHookAccount ≠ some ⟨true⟩
  rw [StateWithExtensions.get_set_self]
  intro same
  cases same

/-- An account that is written with the flag is flagged. -/
theorem writeFlagged_transferring {st flagged : TokenAccountState}
    (owned : (L a).owner = programId) (set : setTransferring st = .ok flagged)
    (stored : L.writeData a (.account flagged) = .ok L') : L'.transferring a := by
  simp only [setTransferring, bind_eq_ok_iff, Except.ok.injEq] at set
  obtain ⟨v, -, rfl⟩ := set
  obtain ⟨-, rfl⟩ := Ledger.writeData_eq_ok_iff.mp stored
  exact Ledger.transferring_iff.mpr ⟨_, (Ledger.owner_setData ..).trans owned,
    Ledger.data_setData_self .., StateWithExtensions.get_set_self ..⟩

/-- Writing another account leaves the flag. -/
theorem transferring_of_writeData {data : AccountData} (ne : a ≠ b)
    (stored : L.writeData b data = .ok L') (flagged : L.transferring a) : L'.transferring a := by
  obtain ⟨-, rfl⟩ := Ledger.writeData_eq_ok_iff.mp stored
  obtain ⟨st, owned, held, flag⟩ := Ledger.transferring_iff.mp flagged
  refine Ledger.transferring_iff.mpr ⟨st, (Ledger.owner_setData ..).trans owned, ?_, flag⟩
  rw [Ledger.data_setData_of_ne _ ne, held]

/-- **Two accounts, and no others, are flagged.** -/
def Ledger.FlagsBoth (s d : Address) (L : Ledger) : Prop :=
  L.IdleBut {s, d} ∧ L.transferring s ∧ L.transferring d

theorem Ledger.FlagsBoth.transferring_iff {s d : Address} (both : L.FlagsBoth s d) (a : Address) :
    L.transferring a ↔ a = s ∨ a = d := by
  constructor
  · intro flagged
    by_contra outside
    exact both.1.not_transferring outside flagged
  · rintro (rfl | rfl)
    · exact both.2.1
    · exact both.2.2

/-- **What is flagged is taken back**, after the hook program ran. -/
theorem Ledger.FlagsBoth.unset {s d : Address} {called mid : Ledger} (both : L.FlagsBoth s d)
    (ext : External L called) (first : unsetTransferring called s = .ok mid)
    (second : unsetTransferring mid d = .ok L') : L'.IdleBut ∅ := by
  have idle := unsetTransferring_idleBut second
    (unsetTransferring_idleBut first (ext.idleBut both.1))
  have none : ((({s, d} : Set Address) \ {s}) \ {d}) = ∅ := by
    ext a
    simp only [Set.mem_sdiff, Set.mem_insert_iff, Set.mem_singleton_iff, Set.mem_empty_iff_false]
    tauto
  rwa [none] at idle

/-- **Two accounts that are written with the flag**, one after the other, are flagged; they may be
one. -/
theorem writeBoth_flags {st st' flagged flagged' : TokenAccountState} {mid : Ledger}
    (owned : (L a).owner = programId) (owned' : (L b).owner = programId) (idle : L.IdleBut ∅)
    (set : setTransferring st = .ok flagged) (set' : setTransferring st' = .ok flagged')
    (first : L.writeData a (.account flagged) = .ok mid)
    (second : mid.writeData b (.account flagged') = .ok L') : L'.FlagsBoth a b := by
  have atFirst : mid.transferring a := writeFlagged_transferring owned set first
  have atSecond : L'.transferring b :=
    writeFlagged_transferring ((Ledger.owner_writeData first b).trans owned') set' second
  refine ⟨?_, ?_, atSecond⟩
  · obtain ⟨-, rfl⟩ := Ledger.writeData_eq_ok_iff.mp first
    obtain ⟨-, rfl⟩ := Ledger.writeData_eq_ok_iff.mp second
    have both : (L.setData a (.account flagged)).setData b (.account flagged')
      |>.IdleBut (insert b (insert a ∅)) := idle.setData.setData
    rwa [insert_empty_eq, Set.pair_comm] at both
  · by_cases self : a = b
    · rwa [self]
    · exact transferring_of_writeData self second atFirst

/-! #### The end of a plain transfer -/

section Plain

variable {env : Env} {source destination : AccountMeta}
  {sourceState destinationState : TokenAccountState} {hookProgramId : Option Address}
  {hookAccounts : List AccountMeta} {amount : ℕ}

/-- **The end of a plain transfer leaves no flags.** -/
theorem finishTransfer_idle (owned : (L source.key).owner = programId)
    (owned' : (L destination.key).owner = programId) (idle : L.IdleBut ∅)
    (idleSource : Idle (.account sourceState)) (idleDestination : Idle (.account destinationState))
    (ok : finishTransfer env L source destination sourceState destinationState hookProgramId
      hookAccounts amount = .ok L') : L'.IdleBut ∅ := by
  cases hookProgramId with
  | none =>
    obtain ⟨mid, first, second⟩ := bind_eq_ok_iff.mp ok
    obtain ⟨-, rfl⟩ := Ledger.writeData_eq_ok_iff.mp first
    obtain ⟨-, rfl⟩ := Ledger.writeData_eq_ok_iff.mp second
    have both := (idle.setData_idle (a := source.key) idleSource).setData_idle
      (a := destination.key) idleDestination
    rwa [Set.empty_sdiff, Set.empty_sdiff] at both
  | some program =>
    simp only [finishTransfer, bind_eq_ok_iff] at ok
    obtain ⟨flagged, setSource, flagged', setDestination, mid, first, last, second, called, hook,
      unset, unsetSource, unsetDestination⟩ := ok
    exact (writeBoth_flags owned owned' idle setSource setDestination first second).unset
      (env.programs.invokeExecute_external hook) unsetSource unsetDestination

/-- **The end of a plain transfer calls the hook program where its two accounts are flagged**:
another one that does the same there may take its place. -/
theorem finishTransfer_congr {env' : Env} (owned : (L source.key).owner = programId)
    (owned' : (L destination.key).owner = programId) (idle : L.IdleBut ∅)
    (same : ∀ program M accounts amount, M.FlagsBoth source.key destination.key →
      env'.programs.invokeExecute program M accounts amount =
        env.programs.invokeExecute program M accounts amount) :
    finishTransfer env' L source destination sourceState destinationState hookProgramId
      hookAccounts amount =
    finishTransfer env L source destination sourceState destinationState hookProgramId
      hookAccounts amount := by
  cases hookProgramId with
  | none => rfl
  | some program =>
    refine bind_congr_of_ok fun flagged setSource => bind_congr_of_ok fun flagged' setDestination =>
      bind_congr_of_ok fun mid first => bind_congr_of_ok fun last second => ?_
    rw [same program last _ _
      (writeBoth_flags owned owned' idle setSource setDestination first second)]

end Plain

/-! #### The end of a confidential transfer -/

section Confidential

variable {env : Env} {sourceInfo mintInfo destinationInfo authorityInfo : AccountMeta}
  {signers : List AccountMeta} {hookProgramId : Option Address}

theorem setTransferringAt_eq_ok (ok : setTransferringAt L a = .ok L') :
    ∃ st flagged, setTransferring st = .ok flagged ∧
      L.writeData a (.account flagged) = .ok L' := by
  simp only [setTransferringAt, bind_eq_ok_iff] at ok
  obtain ⟨st, -, flagged, set, stored⟩ := ok
  exact ⟨st, flagged, set, stored⟩

/-- The two accounts of a confidential transfer, which may be one, are flagged one after the other. -/
theorem setTransferringAt_flags {mid : Ledger} (owned : (L a).owner = programId)
    (owned' : (L b).owner = programId) (idle : L.IdleBut ∅)
    (setSource : setTransferringAt L a = .ok mid) (setDestination : setTransferringAt mid b = .ok L') :
    L'.FlagsBoth a b := by
  obtain ⟨st, flagged, set, first⟩ := setTransferringAt_eq_ok setSource
  obtain ⟨st', flagged', set', second⟩ := setTransferringAt_eq_ok setDestination
  exact writeBoth_flags owned owned' idle set set' first second

/-- **The end of a confidential transfer leaves no flags.** -/
theorem finishConfidentialTransfer_idle (owned : (L sourceInfo.key).owner = programId)
    (owned' : (L destinationInfo.key).owner = programId) (idle : L.IdleBut ∅)
    (ok : finishConfidentialTransfer env L sourceInfo mintInfo destinationInfo authorityInfo signers
      hookProgramId = .ok L') : L'.IdleBut ∅ := by
  cases hookProgramId with
  | none =>
    obtain rfl := Except.ok.inj ok
    exact idle
  | some program =>
    simp only [finishConfidentialTransfer, bind_eq_ok_iff] at ok
    obtain ⟨mid, setSource, last, setDestination, called, hook, unset, unsetSource,
      unsetDestination⟩ := ok
    exact (setTransferringAt_flags owned owned' idle setSource setDestination).unset
      (env.programs.invokeExecute_external hook) unsetSource unsetDestination

/-- **The end of a confidential transfer calls the hook program where its two accounts are
flagged.** -/
theorem finishConfidentialTransfer_congr {env' : Env} (owned : (L sourceInfo.key).owner = programId)
    (owned' : (L destinationInfo.key).owner = programId) (idle : L.IdleBut ∅)
    (same : ∀ program M accounts amount, M.FlagsBoth sourceInfo.key destinationInfo.key →
      env'.programs.invokeExecute program M accounts amount =
        env.programs.invokeExecute program M accounts amount) :
    finishConfidentialTransfer env' L sourceInfo mintInfo destinationInfo authorityInfo signers
      hookProgramId =
    finishConfidentialTransfer env L sourceInfo mintInfo destinationInfo authorityInfo signers
      hookProgramId := by
  cases hookProgramId with
  | none => rfl
  | some program =>
    refine bind_congr_of_ok fun mid setSource => bind_congr_of_ok fun last setDestination => ?_
    rw [same program last _ _ (setTransferringAt_flags owned owned' idle setSource setDestination)]

end Confidential

/-! ### Transfers -/

/-- A ledger with the same owners and data. -/
theorem Ledger.IdleBut.of_kept (idle : L.IdleBut S)
    (kept : ∀ b, (L' b).owner = (L b).owner ∧ (L' b).data = (L b).data) : L'.IdleBut S := by
  intro b owned outside
  rw [(kept b).1] at owned
  rw [(kept b).2]
  exact idle b owned outside

/-- Lamports move only with the tokens of a native account; owners and data stay. -/
theorem moved_kept {native : Bool} {s d : Address} {amount : ℕ}
    (followed : (if native then moveLamports L s d amount else .ok L) = .ok M) :
    ∀ b, (M b).owner = (L b).owner ∧ (M b).data = (L b).data := by
  split at followed
  · exact moveLamports_kept followed
  · obtain rfl := Except.ok.inj followed
    exact fun _ => ⟨rfl, rfl⟩

/-- A credit leaves the flag. -/
theorem creditTransfer_idle {destination credited : TokenAccountState} {amount fee : ℕ}
    (ok : creditTransfer destination amount fee = .ok credited)
    (idle : Idle (.account destination)) : Idle (.account credited) := by
  simp only [creditTransfer, bind_eq_ok_iff] at ok
  obtain ⟨net, -, total, -, ok⟩ := ok
  split at ok
  · split at ok
    · obtain ⟨withheld, -, same⟩ := bind_eq_ok_iff.mp ok
      obtain rfl := Except.ok.inj same
      exact (StateWithExtensions.get_set_of_ne _ (by decide) _).trans_ne idle
    · cases ok
  · obtain rfl := Except.ok.inj ok
    exact idle

/-- **A plain transfer leaves no flags.** -/
theorem processTransfer_idle {env : Env} {accounts : List AccountMeta} {amount : ℕ}
    {instruction : TransferInstruction} (idle : L.IdleBut ∅)
    (ok : processTransfer env L accounts amount instruction = .ok outcome) :
    outcome.ledger.IdleBut ∅ := by
  simp only [processTransfer, bind_eq_ok_iff, Prod.exists, nextAccountInfo_eq_ok_iff,
    checkProgramAccount_eq_ok_iff, unpackAccount_eq_ok_iff, require_eq_ok_iff, exists_const] at ok
  obtain ⟨sourceInfo, _, -, expectedMint, _, -, destinationInfo, _, -, authority, signers, -, owned,
    owned', source, data, -, -, -, terms, -, -, -, base, key, arm, -, ok⟩ := ok
  split at ok
  · obtain ⟨_, -, same⟩ := bind_eq_ok_iff.mp ok
    obtain rfl := Except.ok.inj same
    exact idle
  · simp only [bind_eq_ok_iff, unpackAccount_eq_ok_iff, require_eq_ok_iff, exists_const] at ok
    obtain ⟨destination, data', -, -, _, -, -, newAmount, -, credited, credit, moved, followed, ledger,
      finished, same⟩ := ok
    obtain rfl := Except.ok.inj same
    have kept := moved_kept followed
    have idleSource : Idle (.account source) := data ▸ idle _ owned (Set.notMem_empty _)
    have idleDestination : Idle (.account destination) :=
      data' ▸ idle _ owned' (Set.notMem_empty _)
    refine finishTransfer_idle ((kept _).1.trans owned) ((kept _).1.trans owned')
      (idle.of_kept kept) ?_ (creditTransfer_idle credit idleDestination) finished
    exact idleSource

/-- The two sides of a confidential transfer write no flags. -/
theorem confidentialSides_idle {env : Env} {sourceInfo mintInfo destinationInfo authorityInfo :
      AccountMeta} {accounts signers : List AccountMeta} {mint : MintState}
    {confidentialMint : ConfidentialTransferMint} {decryptable : AeCiphertext}
    {auditorLo auditorHi : Scalar} {offsets : ConfidentialTransferOffsets} {key : Address}
    (idle : L.IdleBut S)
    (ok : (match mint.get .transferFeeConfig with
      | none => confidentialTransferWithoutFee env L sourceInfo mintInfo destinationInfo accounts
          confidentialMint decryptable auditorLo auditorHi offsets
      | some feeConfig => confidentialTransferWithFee env L sourceInfo mintInfo destinationInfo
          accounts mint confidentialMint feeConfig decryptable auditorLo auditorHi offsets) =
      .ok (L', key, authorityInfo, signers)) :
    (L' sourceInfo.key).owner = programId ∧ (L' destinationInfo.key).owner = programId ∧
      L'.IdleBut S := by
  -- What the sides write, an instruction that is no transfer may write as well.
  obtain ⟨owned, owned', e, lo, hi, -, last, st, before, ownedLast, data, held, room, after⟩ :
      _ ∧ _ ∧ ∃ e lo hi, _ ∧ CreditsOf
        ⟨env, [sourceInfo], .confidentialTransferExtension (.withdraw 0 0 decryptable 0 0)⟩
        L [key] _ e lo hi L L' :=
    confidentialSides_creditsOf ⟨rfl, .inl rfl⟩ ok
  refine ⟨owned, owned', ?_⟩
  have idleLast := before.idleBut rfl idle
  refine after.idleBut rfl fun b ownedB outside => ?_
  rw [Ledger.owner_setData] at ownedB
  by_cases here : b = destinationInfo.key
  · subst here
    have unset := idleLast _ ownedB outside
    rw [data] at unset
    rw [Ledger.data_setData_self]
    exact (StateWithExtensions.get_set_of_ne _ (by decide) _).trans_ne unset
  · rw [Ledger.data_setData_of_ne _ here]
    exact idleLast b ownedB outside

/-- **A confidential transfer leaves no flags.** -/
theorem processConfidentialTransfer_idle {env : Env} {accounts : List AccountMeta}
    {decryptable : AeCiphertext} {auditorLo auditorHi : Scalar}
    {offsets : ConfidentialTransferOffsets} (idle : L.IdleBut ∅)
    (ok : processConfidentialTransfer env L accounts decryptable auditorLo auditorHi offsets =
      .ok outcome) : outcome.ledger.IdleBut ∅ := by
  simp only [processConfidentialTransfer, bind_eq_ok_iff, Prod.exists] at ok
  obtain ⟨sourceInfo, _, -, mintInfo, _, -, destinationInfo, _, -, _, -, mint, -, _, -,
    confidential, -, moved, key, authorityInfo, signers, sides, ledger, finished, same⟩ := ok
  obtain rfl := Except.ok.inj same
  obtain ⟨owned, owned', idleMoved⟩ := confidentialSides_idle idle sides
  exact finishConfidentialTransfer_idle owned owned' idleMoved finished

/-- **One step** leaves no flags. -/
theorem Step.idle {e : Event} (step : Step L e L') (idle : L.IdleBut ∅) : L'.IdleBut ∅ := by
  cases step with
  | external ext => exact ext.idleBut idle
  | @invoke i outcome ok =>
    cases place : i.instruction.destinationPlace? with
    | none => exact (run_writes ok).idleBut place idle
    | some n =>
      unfold Invocation.run at ok
      unfold TokenInstruction.destinationPlace? at place
      split at place
      case h_1 _ instruction | h_2 _ instruction | h_3 _ instruction =>
        rw [instruction] at ok
        exact processTransfer_idle idle ok
      case h_4 _ instruction | h_5 _ instruction =>
        rw [instruction] at ok
        exact processConfidentialTransfer_idle idle ok
      case h_6 => cases place

/-- **No account is flagged between instructions.** -/
theorem Reachable.idle (reachable : Reachable L) : L.IdleBut ∅ :=
  reachable.invariant (fun _ genesis a owned => absurd owned (genesis.unowned a))
    fun _ _ _ idle step => step.idle idle

/-! ### Where the hook program is called -/

theorem Invocation.transfersAt_iff {place : ℕ} {s d : Address}
    (named : i.instruction.destinationPlace? = some place) (source : i.key? 0 = some s)
    (destination : i.key? place = some d) : i.transfersAt a ↔ a = s ∨ a = d := by
  unfold Invocation.transfersAt
  rw [source]
  constructor
  · rintro ⟨place', named', same⟩
    obtain rfl := Option.some.inj (named.symm.trans named')
    rw [destination, Option.some.injEq, Option.some.injEq] at same
    exact same.imp Eq.symm Eq.symm
  · intro same
    refine ⟨place, named, ?_⟩
    rw [destination, Option.some.injEq, Option.some.injEq]
    exact same.imp Eq.symm Eq.symm

/-- The programs with another hook program, whichever it is that the mint names. -/
def Programs.withHook (programs : Programs)
    (hook : Address → Ledger → List AccountMeta → ℕ → ProgramResult Ledger)
    (external : ∀ {program L L' accounts amount},
      hook program L accounts amount = .ok L' → External L L') : Programs :=
  { programs with
    invokeExecute := hook
    invokeExecute_external := external }

/-- The environment with another hook program. -/
def Env.withHook (env : Env)
    (hook : Address → Ledger → List AccountMeta → ℕ → ProgramResult Ledger)
    (external : ∀ {program L L' accounts amount},
      hook program L accounts amount = .ok L' → External L L') : Env :=
  { env with programs := env.programs.withHook hook external }

/-- **The invocation calls the hook program on ledgers with `P` only**: a hook program that does the
same there, and anything else elsewhere, makes no difference. It may fail elsewhere, with any error,
and the invocation would fail with it if it made that call. -/
def Invocation.CallsHookOnlyOn (i : Invocation) (L : Ledger) (P : Ledger → Prop) : Prop :=
  ∀ (hook : Address → Ledger → List AccountMeta → ℕ → ProgramResult Ledger)
    (external : ∀ {program L L' accounts amount},
      hook program L accounts amount = .ok L' → External L L'),
    (∀ program M accounts amount, P M →
      hook program M accounts amount = i.env.programs.invokeExecute program M accounts amount) →
    Invocation.run { i with env := i.env.withHook hook external } L = i.run L

section Calls

variable {env : Env} {accounts : List AccountMeta}
  {hook : Address → Ledger → List AccountMeta → ℕ → ProgramResult Ledger}
  {external : ∀ {program L L' accounts amount},
    hook program L accounts amount = .ok L' → External L L'}

/-- **A plain transfer calls the hook program where its two accounts are flagged.** -/
theorem processTransfer_congr {amount : ℕ} {instruction : TransferInstruction} (idle : L.IdleBut ∅)
    (place : i.instruction.destinationPlace? = some instruction.destinationPlace)
    (same : ∀ program M accounts amount, (∀ a, M.transferring a ↔ i.transfersAt a) →
      hook program M accounts amount = i.env.programs.invokeExecute program M accounts amount) :
    processTransfer (i.env.withHook hook external) L i.accounts amount instruction =
      processTransfer i.env L i.accounts amount instruction := by
  unfold processTransfer
  refine bind_congr_of_ok ?_
  rintro ⟨sourceInfo, rest⟩ shape
  refine bind_congr_of_ok ?_
  rintro ⟨expectedMint, rest'⟩ next
  refine bind_congr_of_ok ?_
  rintro ⟨destinationInfo, rest''⟩ shape'
  refine bind_congr_of_ok ?_
  rintro ⟨authority, signers⟩ -
  refine bind_congr_of_ok fun _ owned => bind_congr_of_ok fun _ owned' =>
    bind_congr_of_ok fun source data => bind_congr_of_ok fun _ _ => bind_congr_of_ok fun _ _ =>
    bind_congr_of_ok fun _ _ => bind_congr_of_ok fun terms _ => bind_congr_of_ok fun _ _ => ?_
  refine bind_congr_of_ok fun _ _ => bind_congr_of_ok ?_
  rintro ⟨base, validated, arm⟩ -
  dsimp only
  split
  · rfl
  refine bind_congr_of_ok fun destination data' => bind_congr_of_ok fun _ _ =>
    bind_congr_of_ok fun _ _ => bind_congr_of_ok fun _ _ => bind_congr_of_ok fun _ _ =>
    bind_congr_of_ok fun newAmount _ => bind_congr_of_ok fun credited _ =>
    bind_congr_of_ok fun moved followed => ?_
  -- At the end of the transfer the two accounts are those that the invocation names.
  have parties := transferParties_keys (nextAccountInfo_eq_ok_iff.mp shape) next
    (nextAccountInfo_eq_ok_iff.mp shape')
  have kept := moved_kept followed
  replace owned := checkProgramAccount_eq_ok_iff.mp owned
  replace owned' := checkProgramAccount_eq_ok_iff.mp owned'
  refine congrArg (· >>= _) (finishTransfer_congr ((kept _).1.trans owned)
    ((kept _).1.trans owned') (idle.of_kept kept) fun program M accounts amount both => ?_)
  refine same program M accounts amount fun a => ?_
  rw [both.transferring_iff, Invocation.transfersAt_iff place parties.1 parties.2]

/-- **A confidential transfer calls the hook program where its two accounts are flagged**, or the one
account that is both. -/
theorem processConfidentialTransfer_congr {decryptable : AeCiphertext} {auditorLo auditorHi : Scalar}
    {offsets : ConfidentialTransferOffsets} (idle : L.IdleBut ∅)
    (place : i.instruction.destinationPlace? = some 2)
    (same : ∀ program M accounts amount, (∀ a, M.transferring a ↔ i.transfersAt a) →
      hook program M accounts amount = i.env.programs.invokeExecute program M accounts amount) :
    processConfidentialTransfer (i.env.withHook hook external) L i.accounts decryptable auditorLo
        auditorHi offsets =
      processConfidentialTransfer i.env L i.accounts decryptable auditorLo auditorHi offsets := by
  unfold processConfidentialTransfer
  refine bind_congr_of_ok ?_
  rintro ⟨sourceInfo, rest⟩ shape
  refine bind_congr_of_ok ?_
  rintro ⟨mintInfo, rest'⟩ shape'
  refine bind_congr_of_ok ?_
  rintro ⟨destinationInfo, rest''⟩ shape''
  refine bind_congr_of_ok fun _ _ => bind_congr_of_ok fun mint _ => bind_congr_of_ok fun _ _ =>
    bind_congr_of_ok fun confidentialMint _ => ?_
  refine bind_congr_of_ok ?_
  rintro ⟨moved, validated, authorityInfo, signers⟩ sides
  obtain ⟨owned, owned', idleMoved⟩ := confidentialSides_idle idle sides
  -- The two accounts are those that the invocation names.
  have source : i.key? 0 = some sourceInfo.key := key?_zero (nextAccountInfo_eq_ok_iff.mp shape)
  have destination : i.key? 2 = some destinationInfo.key := by
    rw [Invocation.key?, nextAccountInfo_eq_ok_iff.mp shape, nextAccountInfo_eq_ok_iff.mp shape',
      nextAccountInfo_eq_ok_iff.mp shape'']
    rfl
  refine congrArg (· >>= _) (finishConfidentialTransfer_congr owned owned' idleMoved
    fun program M accounts amount both => ?_)
  refine same program M accounts amount fun a => ?_
  rw [both.transferring_iff, Invocation.transfersAt_iff place source destination]

/-- **A transfer calls the hook program where its two accounts, and no others, are flagged.** -/
theorem callsHookOnlyOn_transferring (idle : L.IdleBut ∅) {place : ℕ}
    (transfers : i.instruction.destinationPlace? = some place) :
    i.CallsHookOnlyOn L fun M => ∀ a, M.transferring a ↔ i.transfersAt a := by
  intro hook external same
  have named := transfers
  unfold Invocation.run
  unfold TokenInstruction.destinationPlace? at transfers
  split at transfers
  case h_1 _ instruction | h_2 _ instruction | h_3 _ instruction =>
    obtain rfl := Option.some.inj transfers
    dsimp only
    rw [instruction]
    exact processTransfer_congr idle named same
  case h_4 _ instruction | h_5 _ instruction =>
    obtain rfl := Option.some.inj transfers
    dsimp only
    rw [instruction]
    exact processConfidentialTransfer_congr idle named same
  case h_6 => cases transfers

end Calls

/-- **The flag of a transfer is set for the call of the hook program, and only then.** In every
reachable ledger, and after every row of instructions that a batch runs from there, no account is
flagged. Where a transfer, plain or confidential, calls the hook program, its source and its
destination are flagged and no other account is. -/
theorem transferring_bracketed (reachable : Reachable L) :
    (∀ a, ¬ L.transferring a) ∧
    (∀ (decode : List UInt8 → ProgramResult TokenInstruction) (env : Env) (calls : List Call)
      (L' : Ledger), runCalls decode env L calls = .ok L' → ∀ a, ¬ L'.transferring a) ∧
    ∀ i : Invocation, i.instruction.destinationPlace? ≠ none →
      i.CallsHookOnlyOn L fun M => ∀ a, M.transferring a ↔ i.transfersAt a := by
  refine ⟨fun a => reachable.idle.not_transferring (Set.notMem_empty a),
    fun decode env calls L' ok a => ?_, fun i transfers => ?_⟩
  · obtain ⟨events, run, -⟩ := runs_of_runCalls decode env ok
    exact (reachable.run run).idle.not_transferring (Set.notMem_empty a)
  · obtain ⟨place, named⟩ := Option.ne_none_iff_exists'.mp transfers
    exact callsHookOnlyOn_transferring reachable.idle named

namespace Basic

/-- A mint with a transfer hook, and tokens in one of its two accounts. -/
def hookTurns : List Turn := [
  .allocate mint 234, .allocate source 171, .allocate destination 171,
  .basic (.transferHookExtension (.initializeExtension ⟨owner⟩ ⟨other⟩)) [.plain mint],
  .basic (.initializeMint2 0 owner none) [.plain mint],
  .basic (.initializeAccount3 owner) [.plain source, .plain mint],
  .basic (.initializeAccount3 other) [.plain destination, .plain mint],
  .basic (.mintTo 1000) [.plain mint, .plain source, .signer owner]]

def hookTransfer : Invocation :=
  .basic (.transferChecked 300 0) [.plain source, .plain mint, .plain destination, .signer owner]

/-- A hook program that accepts calls only where the two accounts are flagged and the mint is not. -/
def strictHook (_ : Address) (L : Ledger) (_ : List AccountMeta) (_ : ℕ) : ProgramResult Ledger :=
  if L.transferring source ∧ L.transferring destination ∧ ¬ L.transferring mint then .ok L
  else .error .invalidArgument

theorem strictHook_external {program : Address} {L L' : Ledger} {accounts : List AccountMeta}
    {amount : ℕ} (ok : strictHook program L accounts amount = .ok L') : External L L' := by
  unfold strictHook at ok
  split at ok
  · exact Except.ok.inj ok ▸ .refl _
  · cases ok

/-- A hook program that refuses every call. -/
def refusingHook (_ : Address) (_ : Ledger) (_ : List AccountMeta) (_ : ℕ) : ProgramResult Ledger :=
  .error .invalidArgument

end Basic

/-- The transfer does call the hook program, and a strict one accepts the call. -/
theorem transferring_bracketed_strict : ∃ L outcome, Reachable L ∧
    Basic.hookTransfer.run L = .ok outcome ∧
    (∀ outcome', Invocation.run { Basic.hookTransfer with
      env := Basic.hookTransfer.env.withHook Basic.refusingHook nofun } L ≠ .ok outcome') ∧
    Invocation.run { Basic.hookTransfer with
      env := Basic.hookTransfer.env.withHook Basic.strictHook Basic.strictHook_external } L =
        .ok outcome := by
  have leads : LeadsTo (runAll .fresh Basic.hookTurns) fun L =>
      (LeadsTo (Basic.hookTransfer.run L) fun _ => True) ∧
      ¬ LeadsTo (Invocation.run { Basic.hookTransfer with
        env := Basic.hookTransfer.env.withHook Basic.refusingHook nofun } L) fun _ => True := by
    decide +kernel
  obtain ⟨L, ran, leads, refused⟩ := leads.exists
  obtain ⟨outcome, ok, -⟩ := leads.exists
  have reachable : Reachable L := .of_runAll .fresh ran
  refine ⟨L, outcome, reachable, ok, fun outcome' accepted => ?_, ?_⟩
  · rw [accepted] at refused
    exact refused trivial
  · rw [(transferring_bracketed reachable).2.2 Basic.hookTransfer (by decide) Basic.strictHook
      Basic.strictHook_external fun program M accounts amount flags => ?_, ok]
    have atSource : M.transferring Basic.source := (flags _).mpr ⟨2, rfl, .inl rfl⟩
    have atDestination : M.transferring Basic.destination := (flags _).mpr ⟨2, rfl, .inr rfl⟩
    have atMint : ¬ M.transferring Basic.mint := by
      rw [flags, Invocation.transfersAt_iff rfl rfl rfl]
      decide
    exact if_pos ⟨atSource, atDestination, atMint⟩

end Token2022
