/-
**The layout of mints.**

What the mint's own walk over its bytes finds: distinct extensions of mints, in a combination that
is allowed, with the pointers that they need, in data of the length that they ask for.

* `ExtendedMintData`, `WellFormedMintData` — this, of any bytes.
* `MintState.Laid.data` — the bytes of a mint that is laid out.
* **`mint_layout`** — every mint of every reachable ledger; `InitializeMint` leaves such a mint, and
  every later step does.
-/

import Token2022.Environment
import Token2022.Interface.Layout
import Token2022.Invariant.Layout

namespace Token2022

open Fallible Interface LabelledRun

/-! ### Well-formed bytes -/

/-- **Bytes of a mint with extensions**, in which the walk finds the types and the bytes used. -/
structure ExtendedMintData (data : List UInt8) (info : TlvDataInfo) : Prop where
  accountType : byteAt data baseAccountLength = accountTypeByte .mint
  walk : getTlvDataInfo (data.drop baseAccountAndTypeLength) = .ok info
  length : tryGetAccountLen .mint (data.drop baseAccountAndTypeLength) = .ok data.length
  distinct : info.extensionTypes.Nodup
  kind : ∀ t ∈ info.extensionTypes, t.getAccountType = .mint
  valid : ExtensionType.checkForInvalidMintExtensionCombinations info.extensionTypes = .ok ()
  metadata : .tokenMetadata ∈ info.extensionTypes → .metadataPointer ∈ info.extensionTypes
  group : .tokenGroup ∈ info.extensionTypes → .groupPointer ∈ info.extensionTypes
  groupMember : .tokenGroupMember ∈ info.extensionTypes →
    .groupMemberPointer ∈ info.extensionTypes

/-- **Well-formed bytes of a mint.** -/
structure WellFormedMintData (data : List UInt8) : Prop where
  notMultisig : data.length ≠ multisigLen
  shape : data.length = AccountType.mint.baseLen ∨ ∃ info, ExtendedMintData data info

/-! ### A mint that is laid out -/

section Data

variable {values : ValueBytes} {mint : MintState}

theorem MintState.Extended.storable (extended : mint.Extended) : Storable mint.tlv.entries := by
  intro e member
  refine ⟨fun none => ?_, extended.short e member⟩
  have kind := extended.kind e.1 (List.mem_map_of_mem member)
  rw [none] at kind
  cases kind

theorem MintState.Extended.fits (extended : mint.Extended) :
    Buffer.usedLen mint.tlv.entries ≤ mint.tlv.tlvLen := by
  have long := le_adjustLenForMultisig
    (Buffer.usedLen mint.tlv.entries + baseAccountAndTypeLength)
  rw [← extended.length] at long
  unfold Buffer.tlvLen
  omega

theorem MintState.Laid.fits (laid : mint.Laid) :
    Buffer.usedLen mint.tlv.entries ≤ mint.tlv.tlvLen := by
  rcases laid with bare | extended
  · rw [bare]
    exact Nat.zero_le _
  · exact extended.fits

theorem MintState.Extended.len_ne (extended : mint.Extended) :
    mint.tlv.len ≠ AccountType.mint.baseLen := by
  have long := le_adjustLenForMultisig
    (Buffer.usedLen mint.tlv.entries + baseAccountAndTypeLength)
  rw [← extended.length] at long
  simp only [baseAccountAndTypeLength, AccountType.baseLen] at long ⊢
  omega

/-- What stands behind the account type of an extended mint. -/
theorem drop_mintData (values : ValueBytes) (extended : mint.tlv.len ≠ AccountType.mint.baseLen) :
    (mintData values mint).drop baseAccountAndTypeLength = tlvData values mint.tlv.toBuffer := by
  have front : (podMintBytes mint.base ++
      (List.replicate (baseAccountLength - AccountType.mint.baseLen) 0 ++
        [accountTypeByte .mint])).length = baseAccountAndTypeLength := by
    simp [AccountType.baseLen, baseAccountLength, baseAccountAndTypeLength]
  have bytes : mintData values mint = (podMintBytes mint.base ++
      (List.replicate (baseAccountLength - AccountType.mint.baseLen) 0 ++
        [accountTypeByte .mint])) ++ tlvData values mint.tlv.toBuffer := by
    simp [mintData, extended]
  rw [bytes, List.drop_left' front]

/-- **The bytes of an extended mint.** -/
theorem MintState.Extended.data (extended : mint.Extended) :
    ExtendedMintData (mintData values mint)
      ⟨mint.extensionTypes, Buffer.usedLen mint.tlv.entries⟩ := by
  have tail := drop_mintData values extended.len_ne
  have walk : getTlvDataInfo ((mintData values mint).drop baseAccountAndTypeLength) =
      .ok ⟨mint.extensionTypes, Buffer.usedLen mint.tlv.entries⟩ := by
    rw [tail]
    exact getTlvDataInfo_tlvData values extended.storable
  refine ⟨accountType_mintData extended.len_ne, walk, ?_, extended.distinct, extended.kind,
    ExtensionType.checkForInvalidMintExtensionCombinations_eq_ok_iff.mpr extended.valid,
    fun member => extended.pointed _ member _ rfl, fun member => extended.pointed _ member _ rfl,
    fun member => extended.pointed _ member _ rfl⟩
  rw [tryGetAccountLen, walk, length_mintData extended.fits, extended.length]
  exact if_neg extended.carries

/-- **The bytes of a mint that is laid out.** -/
theorem MintState.Laid.data (laid : mint.Laid) : WellFormedMintData (mintData values mint) := by
  refine ⟨length_mintData laid.fits ▸ mint.tlv.valid.1, ?_⟩
  rcases laid with bare | extended
  · left
    rw [length_mintData (MintState.Laid.fits (.inl bare)), bare]
  · exact .inr ⟨_, extended.data⟩

end Data

/-! ### Mints of a ledger -/

variable {L : Ledger}

theorem Reachable.mint_laid (reachable : Reachable L) {m : Address} {mint : MintState}
    (held : L.mint? m = some mint) : mint.Laid := by
  obtain ⟨owned, data⟩ := Ledger.mint?_eq_some_iff.mp held
  have laid := reachable.laid owned
  rwa [data] at laid

/-- Data of a mint stays a mint's. -/
theorem Change.mint_stays {i : Invocation} {start : Ledger} {validated : List Address}
    {a : Address} {old new : AccountData} (change : Change i start validated a old new)
    (mint : ∃ state, old = .mint state) : ∃ state, new = .mint state := by
  obtain ⟨state, rfl⟩ := mint
  cases change <;> exact ⟨_, rfl⟩

/-- A mint stays one until it is closed. -/
theorem Step.mint_stays {L' : Ledger} {e : Event} {m : Address} {mint : MintState}
    (step : Step L e L') (held : L.mint? m = some mint) (stays : ¬ e.closes m) :
    ∃ mint', L'.mint? m = some mint' := by
  obtain ⟨owned, data⟩ := Ledger.mint?_eq_some_iff.mp held
  obtain ⟨owned', state, data'⟩ := step.follow (R := fun data => ∃ state, data = .mint state) stays
    (fun _ _ _ _ _ _ mint change => change.mint_stays mint) ⟨owned, mint, data⟩
  exact ⟨state, Ledger.mint?_eq_some_iff.mpr ⟨owned', data'⟩⟩

/-- `InitializeMint` leaves a mint. -/
theorem processInitializeMintWith_opens {i : Invocation} {outcome : Outcome} {decimals : ℕ}
    {mintAuthority : Address} {freezeAuthority : Option Address} {rentSysvarAccount : Bool}
    (ok : processInitializeMintWith i.env L i.accounts decimals mintAuthority freezeAuthority
      rentSysvarAccount = .ok outcome) :
    ∃ m mint, i.key? 0 = some m ∧ outcome.ledger.mint? m = some mint := by
  simp only [processInitializeMintWith, bind_eq_ok_iff, Prod.exists, nextAccountInfo_eq_ok_iff,
    checkProgramAccount_eq_ok_iff, require_eq_ok_iff, exists_const] at ok
  obtain ⟨info, rest, shape, owned, _, -, -, tlv, -, len, -, -, -, -, -, ledger, stored, same⟩ := ok
  obtain rfl := Except.ok.inj same
  obtain ⟨-, rfl⟩ := Ledger.writeData_eq_ok_iff.mp stored
  have written : ∀ mint, ∃ mint', (L.setData info.key (.mint mint)).mint? info.key = some mint' :=
    fun mint => ⟨mint, Ledger.mint?_eq_some_iff.mpr
      ⟨(Ledger.owner_setData ..).trans owned, Ledger.data_setData_self ..⟩⟩
  obtain ⟨mint, held⟩ := written _
  exact ⟨info.key, mint, key?_zero shape, held⟩

/-- The instruction is one of the two that initialize a mint. -/
def TokenInstruction.InitializesMint (instruction : TokenInstruction) : Prop :=
  ∃ decimals mintAuthority freezeAuthority,
    instruction = .initializeMint decimals mintAuthority freezeAuthority ∨
      instruction = .initializeMint2 decimals mintAuthority freezeAuthority

theorem run_opens {i : Invocation} {outcome : Outcome} (named : i.instruction.InitializesMint)
    (ok : i.run L = .ok outcome) :
    ∃ m mint, i.key? 0 = some m ∧ outcome.ledger.mint? m = some mint := by
  obtain ⟨decimals, mintAuthority, freezeAuthority, named⟩ := named
  unfold Invocation.run at ok
  rcases named with named | named
  · rw [named] at ok
    exact processInitializeMintWith_opens ok
  · rw [named] at ok
    exact processInitializeMintWith_opens ok

/-- **The layout of mints**: in every reachable ledger the bytes of every mint are well formed;
`InitializeMint` leaves a mint of which this holds, and every step that does not close the mint
leaves it one of which it holds. -/
theorem mint_layout (values : ValueBytes) (reachable : Reachable L) :
    (∀ m mint, L.mint? m = some mint → WellFormedMintData (mintData values mint)) ∧
    (∀ (i : Invocation) (outcome : Outcome), i.instruction.InitializesMint →
      i.run L = .ok outcome → ∃ m mint, i.key? 0 = some m ∧ outcome.ledger.mint? m = some mint ∧
        WellFormedMintData (mintData values mint)) ∧
    ∀ e L' m mint, L.mint? m = some mint → Step L e L' → ¬ e.closes m →
      ∃ mint', L'.mint? m = some mint' ∧ WellFormedMintData (mintData values mint') := by
  refine ⟨fun m mint held => (reachable.mint_laid held).data, fun i outcome named ok => ?_,
    fun e L' m mint held step stays => ?_⟩
  · obtain ⟨m, mint, first, held⟩ := run_opens named ok
    exact ⟨m, mint, first, held, ((reachable.step (.invoke ok)).mint_laid held).data⟩
  · obtain ⟨mint', held'⟩ := step.mint_stays held stays
    exact ⟨mint', held', ((reachable.step step).mint_laid held').data⟩

section Example

open Basic AccountMeta

/-- A mint that points to itself gets metadata, which then grow and shrink. -/
def Basic.metadataTurns : List Turn := [
  .allocate mint 234,
  .basic (.metadataPointerExtension (.initializeExtension ⟨owner⟩ ⟨mint⟩)) [.plain mint],
  .basic (.initializeMint2 0 owner none) [.plain mint],
  .basic (.tokenMetadata (.initializeMetadata "A" "B" "C"))
    [.plain mint, .plain owner, .plain mint, .signer owner],
  .basic (.tokenMetadata (.updateField (.key "D") "EFG")) [.plain mint, .signer owner],
  .basic (.tokenMetadata (.updateField .name "")) [.plain mint, .signer owner]]

theorem mint_layout_metadata : ∃ L m, runAll .fresh Basic.metadataTurns = .ok L ∧
    L.mint? Basic.mint = some m ∧ m.has .tokenMetadata = true ∧ m.tlv.len = 332 ∧
    WellFormedMintData (mintData .zeroed m) := by
  have leads : LeadsTo (runAll .fresh Basic.metadataTurns) fun L =>
      ((L.mint? Basic.mint).any fun m => m.has .tokenMetadata = true ∧ m.tlv.len = 332) = true := by
    decide +kernel
  obtain ⟨L, ran, found⟩ := leads.exists
  obtain ⟨m, held, facts⟩ := (Option.any_eq_true ..).mp found
  obtain ⟨carries, length⟩ := of_decide_eq_true facts
  exact ⟨L, m, ran, held, carries, length,
    (mint_layout .zeroed (.of_runAll .fresh ran)).1 Basic.mint m held⟩

end Example

end Token2022
