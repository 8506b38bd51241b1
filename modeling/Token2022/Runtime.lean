/-
**The runtime: accounts, what an instruction sees, and what others may do.**

* `Ledger` — every account by its address, with its lamports, the program that owns it, and its
  data in the form in which the token program's readers see it (`AccountData`).
* `unpackAccount`, `unpackMint`, `unpackUninitialized` — those readers.
* `External` — what the rest of the world may do between and during instructions: it cannot write
  the data of the program's accounts or take lamports from them, and an account that is handed to
  the program is zeroed.
* `Env` — the clock, rent, call stack and transaction that an instruction runs in, and the programs
  it calls.
* `validateOwner` — the owner, or enough of the signers of an owning multisig, has signed.
-/

import Token2022.Confidential.Proof
import Token2022.State

namespace Token2022

open Fallible

/-! ### Accounts -/

/-- `ElGamalRegistry`. -/
structure ElGamalRegistry where
  owner : Address
  elgamalPubkey : ElGamalPubkey
  deriving DecidableEq

/-- The data of an account, as the token program's readers tell it apart. -/
inductive AccountData
  /-- A base of zeroes, and the extensions written behind it so far. -/
  | zeroed (buffer : Buffer)
  | mint (state : MintState)
  | account (state : TokenAccountState)
  | multisig (state : PodMultisig)
  | elgamalRegistry (registry : ElGamalRegistry)
  /-- A context of the proof program: what it has verified. -/
  | proofContext (context : VerifiedContext)
  /-- Data that none of the readers accepts. -/
  | other (len : ℕ)
  deriving DecidableEq

namespace AccountData

/-- `data_len`. The length of a proof context plays no role. -/
def len : AccountData → ℕ
  | .zeroed buffer => buffer.len
  | .mint state => state.tlv.len
  | .account state => state.tlv.len
  | .multisig _ => multisigLen
  | .elgamalRegistry _ => 64
  | .proofContext _ => 0
  | .other len => len

/-- The data of a deleted or never allocated account. -/
def empty : AccountData := .zeroed ⟨[], 0⟩

end AccountData

/-- What the runtime stores for an address. -/
structure AccountInfo where
  lamports : ℕ
  owner : Address
  data : AccountData
  deriving DecidableEq

/-- All accounts. -/
abbrev Ledger := Address → AccountInfo

/-- An account handed to an instruction, and whether it signed. -/
structure AccountMeta where
  key : Address
  isSigner : Bool
  deriving DecidableEq, Repr

/-- `next_account_info`. -/
def nextAccountInfo : List AccountMeta → ProgramResult (AccountMeta × List AccountMeta)
  | [] => .error .notEnoughAccountKeys
  | info :: rest => .ok (info, rest)

@[simp] theorem nextAccountInfo_eq_ok_iff {accounts rest : List AccountMeta} {info : AccountMeta} :
    nextAccountInfo accounts = .ok (info, rest) ↔ accounts = info :: rest := by
  cases accounts <;> simp [nextAccountInfo]

/-! ### Reading data -/

/-- `PodStateWithExtensions::<PodAccount>::unpack`. A mint read as an account has a state of zero
where it is long enough to have one. -/
def unpackAccount : AccountData → ProgramResult TokenAccountState
  | .account state => .ok state
  | .mint state =>
    if state.tlv.len < baseAccountLength then .error .invalidAccountData
    else .error .uninitializedAccount
  | .zeroed buffer =>
    if buffer.len = multisigLen ∨ buffer.len < baseAccountLength then .error .invalidAccountData
    else .error .uninitializedAccount
  | _ => .error .invalidAccountData

/-- Byte `i` of an address. -/
def Address.byte (a : Address) (i : ℕ) : BitVec 8 := (a.bits >>> (8 * (31 - i))).setWidth 8

/-- `PodStateWithExtensions::<PodMint>::unpack`. In an account read as a mint, byte 13 of the owner
stands where a mint says that it is initialized. -/
def unpackMint : AccountData → ProgramResult MintState
  | .mint state => .ok state
  | .account state =>
    if state.base.owner.byte 13 = 0 then .error .uninitializedAccount
    else .error .invalidAccountData
  | .zeroed buffer =>
    if buffer.len = multisigLen ∨ buffer.len < AccountType.mint.baseLen then
      .error .invalidAccountData
    else .error .uninitializedAccount
  | _ => .error .invalidAccountData

/-- `PodStateWithExtensionsMut::unpack_uninitialized`: a zero base of the kind, whose first
extension is of the kind too. -/
def unpackUninitialized (kind : AccountType) : AccountData → ProgramResult (TlvData kind)
  | .zeroed buffer =>
    if valid : kind.ValidLen buffer.len then
      if buffer.entries.head?.all (fun e => e.1.getAccountType = kind) then
        .ok { toBuffer := buffer, valid }
      else .error TokenError.extensionBaseMismatch
    else .error .invalidAccountData
  | .account state =>
    if kind = .account ∨ state.base.owner.byte 13 ≠ 0 then .error TokenError.alreadyInUse
    else .error .invalidAccountData
  | .mint _ =>
    if kind = .mint then .error TokenError.alreadyInUse else .error .invalidAccountData
  | _ => .error .invalidAccountData

/-- `bytemuck::try_from_bytes::<ElGamalRegistry>`: any data of its size is a registry. -/
def readElGamalRegistry : AccountData → ProgramResult ElGamalRegistry
  | .elgamalRegistry registry => .ok registry
  | .zeroed buffer =>
    if buffer = ⟨[], 64⟩ then .ok { owner := 0, elgamalPubkey := 0 } else .error .invalidArgument
  | _ => .error .invalidArgument

@[simp] theorem unpackAccount_eq_ok_iff {data : AccountData} {state : TokenAccountState} :
    unpackAccount data = .ok state ↔ data = .account state := by
  cases data with
  | zeroed buffer => simp only [unpackAccount]; split <;> simp
  | mint held => simp only [unpackAccount]; split <;> simp
  | _ => simp [unpackAccount]

@[simp] theorem unpackMint_eq_ok_iff {data : AccountData} {state : MintState} :
    unpackMint data = .ok state ↔ data = .mint state := by
  cases data with
  | zeroed buffer => simp only [unpackMint]; split <;> simp
  | account held => simp only [unpackMint]; split <;> simp
  | _ => simp [unpackMint]

theorem unpackUninitialized_eq_ok {kind : AccountType} {data : AccountData} {tlv : TlvData kind}
    (ok : unpackUninitialized kind data = .ok tlv) : data = .zeroed tlv.toBuffer := by
  cases data with
  | zeroed buffer =>
    simp only [unpackUninitialized] at ok
    split at ok
    · split at ok
      · rw [← Except.ok.inj ok]
      · simp at ok
    · simp at ok
  | account held => simp only [unpackUninitialized] at ok; split at ok <;> simp at ok
  | mint held => simp only [unpackUninitialized] at ok; split at ok <;> simp at ok
  | _ => simp [unpackUninitialized] at ok

/-! ### Writing accounts -/

/-- `check_program_account`. -/
def checkProgramAccount (owner : Address) : ProgramResult Unit :=
  require (owner = programId) .incorrectProgramId

@[simp] theorem checkProgramAccount_eq_ok_iff {owner : Address} {u : Unit} :
    checkProgramAccount owner = .ok u ↔ owner = programId := by
  simp [checkProgramAccount]

namespace Ledger

/-- The ledger with the data of one account replaced. -/
def setData (L : Ledger) (a : Address) (data : AccountData) : Ledger :=
  Function.update L a { L a with data }

/-- The ledger with the lamports of one account replaced. -/
def setLamports (L : Ledger) (a : Address) (lamports : ℕ) : Ledger :=
  Function.update L a { L a with lamports }

/-- Write data. The runtime keeps the data of other programs' accounts as it is. -/
def writeData (L : Ledger) (a : Address) (data : AccountData) : ProgramResult Ledger := do
  require ((L a).owner = programId ∨ (L a).data = data) .externalAccountDataModified
  .ok (L.setData a data)

/-- Take lamports, in 64-bit arithmetic. The runtime lets a program debit its own accounts only. -/
def debit (L : Ledger) (a : Address) (amount : ℕ) (error : ProgramError) :
    ProgramResult Ledger := do
  let lamports ← okOr (checkedSub (L a).lamports amount) error
  require ((L a).owner = programId ∨ amount = 0) .externalAccountLamportSpend
  .ok (L.setLamports a lamports)

/-- Give lamports, in 64-bit arithmetic. -/
def credit (L : Ledger) (a : Address) (amount : ℕ) (error : ProgramError) :
    ProgramResult Ledger := do
  let lamports ← okOr (checkedAdd (2 ^ 64) (L a).lamports amount) error
  .ok (L.setLamports a lamports)

theorem writeData_eq_ok_iff {L L' : Ledger} {a : Address} {data : AccountData} :
    L.writeData a data = .ok L' ↔
      ((L a).owner = programId ∨ (L a).data = data) ∧ L' = L.setData a data := by
  simp only [writeData, bind_eq_ok_iff, require_eq_ok_iff, exists_const, Except.ok.injEq]
  exact and_congr_right fun _ => eq_comm

theorem debit_eq_ok_iff {L L' : Ledger} {a : Address} {amount : ℕ} {error : ProgramError} :
    L.debit a amount error = .ok L' ↔
      amount ≤ (L a).lamports ∧ ((L a).owner = programId ∨ amount = 0) ∧
        L' = L.setLamports a ((L a).lamports - amount) := by
  simp only [debit, bind_eq_ok_iff, okOr_eq_ok_iff, checkedSub_eq_some_iff, require_eq_ok_iff,
    exists_const, Except.ok.injEq]
  constructor
  · rintro ⟨_, ⟨le, rfl⟩, owned, rfl⟩
    exact ⟨le, owned, rfl⟩
  · rintro ⟨le, owned, rfl⟩
    exact ⟨_, ⟨le, rfl⟩, owned, rfl⟩

theorem credit_eq_ok_iff {L L' : Ledger} {a : Address} {amount : ℕ} {error : ProgramError} :
    L.credit a amount error = .ok L' ↔
      (L a).lamports + amount < 2 ^ 64 ∧ L' = L.setLamports a ((L a).lamports + amount) := by
  simp only [credit, bind_eq_ok_iff, okOr_eq_ok_iff, checkedAdd_eq_some_iff, Except.ok.injEq]
  constructor
  · rintro ⟨_, ⟨small, rfl⟩, rfl⟩
    exact ⟨small, rfl⟩
  · rintro ⟨small, rfl⟩
    exact ⟨_, ⟨small, rfl⟩, rfl⟩

/-- The token account at an address, if the program owns an initialized one. -/
def account? (L : Ledger) (a : Address) : Option TokenAccountState :=
  if (L a).owner = programId then (unpackAccount (L a).data).toOption else none

/-- The mint at an address, if the program owns an initialized one. -/
def mint? (L : Ledger) (a : Address) : Option MintState :=
  if (L a).owner = programId then (unpackMint (L a).data).toOption else none

theorem account?_eq_some_iff {L : Ledger} {a : Address} {state : TokenAccountState} :
    L.account? a = some state ↔ (L a).owner = programId ∧ (L a).data = .account state := by
  unfold account?
  split
  · rename_i owned
    cases data : (L a).data with
    | zeroed buffer => simp only [unpackAccount]; split <;> simp [Except.toOption]
    | mint held => simp only [unpackAccount]; split <;> simp [Except.toOption]
    | _ => simp [unpackAccount, Except.toOption, owned]
  · rename_i foreign
    simp [foreign]

theorem mint?_eq_some_iff {L : Ledger} {a : Address} {state : MintState} :
    L.mint? a = some state ↔ (L a).owner = programId ∧ (L a).data = .mint state := by
  unfold mint?
  split
  · rename_i owned
    cases data : (L a).data with
    | zeroed buffer => simp only [unpackMint]; split <;> simp [Except.toOption]
    | account held => simp only [unpackMint]; split <;> simp [Except.toOption]
    | _ => simp [unpackMint, Except.toOption, owned]
  · rename_i foreign
    simp [foreign]

end Ledger

/-! ### The rest of the world -/

/-- Addresses that no one but the program itself can hand to it: the mint of wrapped lamports, which
the program alone signs for, and the two addresses that exist for their name. -/
def reserved (a : Address) : Prop := a = nativeMintId ∨ a = systemProgramId ∨ a = incineratorId

instance (a : Address) : Decidable (reserved a) := inferInstanceAs (Decidable (_ ∨ _ ∨ _))

/-- **What the rest of the world may do to the accounts.** -/
structure External (L L' : Ledger) : Prop where
  /-- An account of the program stays its own, with its data; it may be given lamports. -/
  kept : ∀ a, (L a).owner = programId →
    (L' a).owner = programId ∧ (L' a).data = (L a).data ∧ (L a).lamports ≤ (L' a).lamports
  /-- An account handed to the program is newly allocated: its data is zero. -/
  handed : ∀ a, (L a).owner ≠ programId → (L' a).owner = programId →
    ∃ len, (L' a).data = .zeroed ⟨[], len⟩
  /-- The reserved addresses are handed to no token program. -/
  reserved : ∀ a, reserved a → (L a).owner ≠ programId → (L' a).owner ≠ programId
  /-- The named system addresses hold no account of the original token program either. -/
  system : ∀ a, a = systemProgramId ∨ a = incineratorId →
    (L a).owner ≠ inlineSplTokenId → (L' a).owner ≠ inlineSplTokenId

namespace External

theorem refl (L : Ledger) : External L L where
  kept _ owned := ⟨owned, rfl, le_rfl⟩
  handed _ foreign owned := absurd owned foreign
  reserved _ _ foreign := foreign
  system _ _ foreign := foreign

theorem trans {L M N : Ledger} (first : External L M) (second : External M N) : External L N where
  kept a owned := by
    obtain ⟨owned', data, lamports⟩ := first.kept a owned
    obtain ⟨owned'', data', lamports'⟩ := second.kept a owned'
    exact ⟨owned'', data'.trans data, lamports.trans lamports'⟩
  handed a foreign owned := by
    by_cases middle : (M a).owner = programId
    · obtain ⟨len, data⟩ := first.handed a foreign middle
      exact ⟨len, (second.kept a middle).2.1.trans data⟩
    · exact second.handed a middle owned
  reserved a named foreign := second.reserved a named (first.reserved a named foreign)
  system a named foreign := second.system a named (first.system a named foreign)

theorem account? {L L' : Ledger} (ext : External L L') {a : Address} {state : TokenAccountState}
    (held : L.account? a = some state) : L'.account? a = some state := by
  obtain ⟨owned, data⟩ := Ledger.account?_eq_some_iff.mp held
  obtain ⟨owned', data', -⟩ := ext.kept a owned
  exact Ledger.account?_eq_some_iff.mpr ⟨owned', data'.trans data⟩

theorem mint? {L L' : Ledger} (ext : External L L') {a : Address} {state : MintState}
    (held : L.mint? a = some state) : L'.mint? a = some state := by
  obtain ⟨owned, data⟩ := Ledger.mint?_eq_some_iff.mp held
  obtain ⟨owned', data', -⟩ := ext.kept a owned
  exact Ledger.mint?_eq_some_iff.mpr ⟨owned', data'.trans data⟩

end External

/-! ### The environment of an instruction -/

/-- `Field` of the metadata interface. -/
inductive MetadataField
  | name | symbol | uri
  | key (key : String)
  deriving DecidableEq, Repr

/-- The programs and interface libraries that the token program calls, with what it relies on. -/
structure Programs where
  /-- `system_instruction::transfer`, from the first account to the second. -/
  systemTransfer : Ledger → AccountMeta → AccountMeta → ℕ → ProgramResult Ledger
  systemTransfer_external : ∀ {L L' source destination amount},
    systemTransfer L source destination amount = .ok L' → External L L'
  systemTransfer_credits : ∀ {L L' source destination amount},
    systemTransfer L source destination amount = .ok L' →
      (L destination.key).owner = programId →
        (L destination.key).lamports + amount ≤ (L' destination.key).lamports
  /-- `system_instruction::allocate` and `assign` of the native mint to the token program, which
  signs for it: they need an unallocated account of the system program. -/
  allocateNativeMint : Ledger → ℕ → ProgramResult Ledger
  allocateNativeMint_spec : ∀ {L L' len}, allocateNativeMint L len = .ok L' →
    (L nativeMintId).owner ≠ programId ∧
      L' = Function.update L nativeMintId
        { L nativeMintId with owner := programId, data := .zeroed ⟨[], len⟩ }
  /-- The transfer-hook program's `Execute`, with the accounts it is called on and the amount. -/
  invokeExecute : Address → Ledger → List AccountMeta → ℕ → ProgramResult Ledger
  invokeExecute_external : ∀ {program L L' accounts amount},
    invokeExecute program L accounts amount = .ok L' → External L L'
  /-- `TokenMetadata::update` of the metadata interface. -/
  updateMetadata : TokenMetadata → MetadataField → String → TokenMetadata
  /-- `TokenMetadata::remove_key`: whether the key was there, and the metadata without it. -/
  removeMetadataKey : TokenMetadata → String → Bool × TokenMetadata
  /-- `TokenGroup::update_max_size` of the group interface. -/
  updateGroupMaxSize : TokenGroup → ℕ → ProgramResult TokenGroup
  updateGroupMaxSize_spec : ∀ {group maxSize group'}, updateGroupMaxSize group maxSize = .ok group' ↔
    group.size ≤ maxSize ∧ group' = { group with maxSize }
  /-- `TokenGroup::increment_size`. -/
  incrementGroupSize : TokenGroup → ProgramResult TokenGroup
  incrementGroupSize_spec : ∀ {group group'}, incrementGroupSize group = .ok group' ↔
    group.size + 1 ≤ group.maxSize ∧ group' = { group with size := group.size + 1 }

/-- What an instruction reads besides its accounts and its data. -/
structure Env where
  epoch : ℕ
  unixTimestamp : ℤ
  /-- `Rent::minimum_balance`, by data length. -/
  minimumBalance : ℕ → ℕ
  /-- `in_cpi()`: the instruction was called by another program. -/
  inCpi : Bool
  /-- Whether the previous sibling instruction is a memo. -/
  previousSiblingIsMemo : Bool
  /-- What the proof instruction at an offset in the transaction verifies, if there is one. -/
  proofInstruction : ℤ → Option VerifiedContext
  programs : Programs

/-- `rent.is_exempt`. -/
def Env.isExempt (env : Env) (lamports len : ℕ) : Prop := env.minimumBalance len ≤ lamports

instance (env : Env) (lamports len : ℕ) : Decidable (env.isExempt lamports len) :=
  inferInstanceAs (Decidable (_ ≤ _))

/-- `Rent::from_account_info` of the next account where the instruction takes the sysvar account,
else `Rent::get`. -/
def Env.rentSysvar (rentSysvarAccount : Bool) (accounts : List AccountMeta) :
    ProgramResult (List AccountMeta) :=
  if rentSysvarAccount then do
    let (info, accounts) ← nextAccountInfo accounts
    require (info.key = rentSysvarId) .invalidArgument
    .ok accounts
  else .ok accounts

/-- `check_previous_sibling_instruction_is_memo`. -/
def Env.checkPreviousSiblingInstructionIsMemo (env : Env) : ProgramResult Unit :=
  require env.previousSiblingIsMemo TokenError.noMemo

/-- `verify_and_extract_context`: the context of the expected kind in the next account, which the
proof program owns, or in the proof instruction at the offset. -/
def Env.verifyAndExtractContext {C : Type} (env : Env) (L : Ledger)
    (select : VerifiedContext → Option C) (accounts : List AccountMeta) (offset : ℤ)
    (sysvar : Option AccountMeta) : ProgramResult (C × List AccountMeta) :=
  if offset = 0 then do
    let (info, accounts) ← nextAccountInfo accounts
    require ((L info.key).owner = zkElgamalProofProgramId) .incorrectProgramId
    match (L info.key).data with
    | .proofContext held => do
      let context ← okOr (select held) .invalidInstructionData
      .ok (context, accounts)
    | _ => .error .invalidArgument
  else do
    let (info, accounts) ← (match sysvar with
      | some info => .ok (info, accounts)
      | none => nextAccountInfo accounts)
    require (info.key = instructionsSysvarId) .unsupportedSysvar
    let held ← okOr (env.proofInstruction offset) .invalidInstructionData
    let context ← okOr (select held) .invalidInstructionData
    .ok (context, accounts)

/-! ### Authorities -/

/-- One signer of the list against the multisig's keys: a key counts at its first signature, and a
listed key that has not signed is an error. -/
def countSigner (signers : List Address) (matched : ℕ × (ℕ → Bool)) (signer : AccountMeta) :
    ProgramResult (ℕ × (ℕ → Bool)) :=
  signers.zipIdx.foldlM (fun (count, seen) (key, position) =>
    if key = signer.key ∧ seen position = false then do
      require signer.isSigner .missingRequiredSignature
      .ok (count + 1, Function.update seen position true)
    else .ok (count, seen)) matched

/-- `validate_owner`. -/
def validateOwner (L : Ledger) (expectedOwner : Address) (owner : AccountMeta)
    (signers : List AccountMeta) : ProgramResult Unit := do
  require (expectedOwner = owner.key) TokenError.ownerMismatch
  let info := L owner.key
  if (info.owner = programId ∨ info.owner = inlineSplTokenId) ∧ info.data.len = multisigLen then
    match info.data with
    | .multisig multisig => do
      let (count, _) ← signers.foldlM (countSigner multisig.signers) (0, fun _ => false)
      require (multisig.m ≤ count) .missingRequiredSignature
    | _ => .error .uninitializedAccount
  else require owner.isSigner .missingRequiredSignature

/-- The arms of a debit of tokens, in the order in which they are looked at. -/
inductive DebitArm
  | permanentDelegate | delegate | owner
  deriving DecidableEq, Repr

/-- The accounts after an instruction, and, for the statements about authority, the keys that
`validate_owner` accepted in it and the arm that authorized a debit of tokens. -/
structure Outcome where
  ledger : Ledger
  validated : List Address
  arm : Option DebitArm := none

theorem validateOwner_key {L : Ledger} {expectedOwner : Address} {owner : AccountMeta}
    {signers : List AccountMeta} {u : Unit}
    (ok : validateOwner L expectedOwner owner signers = .ok u) : owner.key = expectedOwner :=
  (require_bind_eq_ok_iff.mp ok).1.symm

end Token2022
