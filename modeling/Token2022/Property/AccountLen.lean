/-
**The length that is computed for an account suffices.**

A zeroed account of the length for its mint and for some more extensions takes `InitializeAccount`, and
`init_extension` of each of these, before it or after it, in any order.

* `InitExtension`, `initAccountExtension` — `init_extension` on an account, initialized or not.
* `InitializeAccountCall`, `openAccount` — the instruction, and a run that opens an account.
* `TlvData.accumulator` — a buffer of that length takes every extension that was counted.
* **`openAccount_eq`** — the run ends with exactly these extensions.
* **`account_len_correct`** — the length, computed from the bytes of the mint, and that it suffices.
-/

import Mathlib.Data.List.TakeWhile
import Token2022.Interface.AccountLen
import Token2022.Property.Layout

namespace Token2022

open Fallible Interface KeyedList

/-! ### Opening an account -/

/-- An `init_extension`: the type, the value that is written, and whether it may overwrite one. -/
structure InitExtension where
  type : ExtensionType
  value : Extension type
  overwrite : Bool

/-- `init_extension` on a token account: `unpack` where it is initialized, else
`unpack_uninitialized`. -/
def initAccountExtension (a : Address) (L : Ledger) (e : InitExtension) : ProgramResult Ledger :=
  match (L a).data with
  | .account st => do
    let st ← st.initExtension e.type e.value e.overwrite
    L.writeData a (.account st)
  | data => do
    let tlv ← unpackUninitialized .account data
    let tlv ← tlv.initExtension e.type e.value e.overwrite
    L.writeData a (.zeroed tlv.toBuffer)

/-- An `InitializeAccount`, in any of its variants. -/
structure InitializeAccountCall where
  env : Env
  accounts : List AccountMeta
  owner : Option Address
  rentSysvarAccount : Bool

namespace InitializeAccountCall

/-- The ledger that the instruction leaves. -/
def run (call : InitializeAccountCall) (L : Ledger) : ProgramResult Ledger := do
  let outcome ← processInitializeAccountWith call.env L call.accounts call.owner
    call.rentSysvarAccount
  .ok outcome.ledger

/-- The accounts of the instruction: the new account, its mint, the owner where the data do not name
it, and the rent sysvar where the variant takes it. -/
structure Names (call : InitializeAccountCall) (a m : Address) (newAccount mintInfo : AccountMeta)
    (rest : List AccountMeta) : Prop where
  accounts : call.accounts = newAccount :: mintInfo :: rest
  account : newAccount.key = a
  mint : mintInfo.key = m
  owner : call.owner = none → ∃ ownerInfo rest', rest = ownerInfo :: rest' ∧
    ∃ rest'', Env.rentSysvar call.rentSysvarAccount rest' = .ok rest''
  rent : call.owner ≠ none → ∃ rest', Env.rentSysvar call.rentSysvarAccount rest = .ok rest'

end InitializeAccountCall

/-- A run that opens an account: extensions, the instruction, and extensions. -/
def openAccount (a : Address) (before : List InitExtension) (call : InitializeAccountCall)
    (after : List InitExtension) (L : Ledger) : ProgramResult Ledger := do
  let L ← before.foldlM (initAccountExtension a) L
  let L ← call.run L
  after.foldlM (initAccountExtension a) L

/-! ### A buffer of the length -/

/-- **The extensions of a list of entries** are those of the set, each once. -/
structure Filled (entries : List Entry) (types : Finset ExtensionType) : Prop where
  distinct : entries.keys.Nodup
  keys : entries.keys.toFinset = types

section Filled

variable {entries : List Entry} {types : Finset ExtensionType}

theorem Filled.mem_keys_iff (filled : Filled entries types) {t : ExtensionType} :
    t ∈ entries.keys ↔ t ∈ types := by
  rw [← filled.keys, List.mem_toFinset]

/-- The bytes that such entries take. -/
theorem Filled.usedLen_eq (filled : Filled entries types)
    (kinds : ∀ t ∈ types, t.getAccountType = .account) :
    Buffer.usedLen entries = ∑ t ∈ types, (4 + t.typeLen) := by
  have sized : ∀ t ∈ entries.keys, t ≠ .tokenMetadata := by
    rintro t member rfl
    cases kinds _ (filled.mem_keys_iff.mp member)
  rw [Buffer.usedLen_eq_of_sized sized, ← filled.keys, List.sum_toFinset _ filled.distinct]
  refine congrArg List.sum (List.map_congr_left fun t _ => ?_)
  simp only [ExtensionType.addTypeAndLengthToLen]
  omega

theorem Filled.put (filled : Filled entries types) (t : ExtensionType) (v : Extension t) :
    Filled (put t v entries) (insert t types) := by
  refine ⟨nodup_keys_put filled.distinct, ?_⟩
  ext t'
  rw [List.mem_toFinset, mem_keys_put, filled.mem_keys_iff, Finset.mem_insert]

end Filled

/-- The entries in front of one that is there, and the entry itself, are among the entries. -/
theorem Buffer.usedLen_takeWhile_le {entries : List Entry} {t : ExtensionType} {v : Extension t}
    (held : find t entries = some v) :
    usedLen (entries.takeWhile fun e => e.1 ≠ t) +
      ExtensionType.addTypeAndLengthToLen (valueLen t v) ≤ usedLen entries := by
  induction entries with
  | nil => cases held
  | cons e entries ih =>
    obtain ⟨t', v'⟩ := e
    by_cases same : t' = t
    · subst same
      rw [find_cons_self] at held
      obtain rfl := Option.some.inj held
      rw [List.takeWhile_cons_of_neg (by simp), usedLen_nil, usedLen_cons, Nat.zero_add]
      exact Nat.le_add_right ..
    · rw [find_cons_of_ne same] at held
      have later := ih held
      rw [List.takeWhile_cons_of_pos (by simpa using same), usedLen_cons, usedLen_cons]
      omega

/-- **A buffer with the length for some extensions takes each of them**, over one that is there or
behind the others. -/
theorem TlvData.initExtension_of_allowed {allowed types : Finset ExtensionType}
    (kinds : ∀ t ∈ allowed, t.getAccountType = .account) {tlv : TlvData .account}
    (length : tokenAccountLen allowed ≤ tlv.len) (subset : types ⊆ allowed)
    (filled : Filled tlv.entries types) {e : InitExtension} (member : e.type ∈ allowed)
    (fresh : e.overwrite = true ∨ e.type ∉ types) :
    tlv.initExtension e.type e.value e.overwrite = .ok (tlv.set e.type e.value) := by
  have room := sum_le_tokenAccountLen ⟨e.type, member⟩
  have used := filled.usedLen_eq fun t inside => kinds t (subset inside)
  have sized : e.type ≠ .tokenMetadata := by
    intro same
    have typed := kinds _ member
    rw [same] at typed
    cases typed
  have long := valueLen_eq_typeLen sized e.value
  have short := valueLen_lt_of_sized sized e.value
  have allocated : tlv.alloc .account e.type (valueLen e.type e.value) e.overwrite = .ok () := by
    unfold Buffer.alloc
    refine require_bind_eq_ok_iff.mpr ⟨kinds _ member, ?_⟩
    dsimp only
    cases held : tlv.get e.type with
    | some v =>
      have asked : e.overwrite = true := by
        refine fresh.resolve_right fun absent => absent (filled.mem_keys_iff.mp ?_)
        exact find_isSome_iff.mp (Option.isSome_of_eq_some held)
      have front := Buffer.usedLen_takeWhile_le held
      have total : ∑ t ∈ types, (4 + t.typeLen) ≤ ∑ t ∈ allowed, (4 + t.typeLen) :=
        Finset.sum_le_sum_of_subset subset
      have same := valueLen_eq_typeLen sized v
      refine require_bind_eq_ok_iff.mpr ⟨?_, require_bind_eq_ok_iff.mpr ⟨asked,
        require_eq_ok_iff.mpr (same.trans long.symm)⟩⟩
      unfold Buffer.tlvLen
      rw [same] at front
      rw [long]
      omega
    | none =>
      have absent : e.type ∉ types := fun inside =>
        find_eq_none_iff.mp held (filled.mem_keys_iff.mpr inside)
      have front := Buffer.usedLen_takeWhile_of_absent held
      have total : 4 + e.type.typeLen + ∑ t ∈ types, (4 + t.typeLen) ≤
          ∑ t ∈ allowed, (4 + t.typeLen) := by
        rw [← Finset.sum_insert (f := fun t : ExtensionType => 4 + t.typeLen) absent]
        exact Finset.sum_le_sum_of_subset (Finset.insert_subset member subset)
      rw [front, long, used]
      unfold Buffer.tlvLen ExtensionType.addTypeAndLengthToLen
      refine require_bind_eq_ok_iff.mpr ⟨by omega, require_bind_eq_ok_iff.mpr ⟨by omega,
        require_eq_ok_iff.mpr (long ▸ short)⟩⟩
  unfold TlvData.initExtension
  rw [allocated]
  rfl

/-- **A buffer with the length for some extensions** accumulates them. -/
def TlvData.accumulator {allowed : Finset ExtensionType}
    (kinds : ∀ t ∈ allowed, t.getAccountType = .account) {len : ℕ}
    (enough : tokenAccountLen allowed ≤ len) :
    Accumulator (TlvData .account) ProgramError InitExtension.type fun types e =>
      e.type ∈ allowed ∧ (e.overwrite = true ∨ e.type ∉ types) where
  step tlv e := tlv.initExtension e.type e.value e.overwrite
  Holds tlv types :=
    tlv.len = len ∧ types ⊆ allowed ∧ Filled tlv.entries types
  step_eq := by
    rintro tlv types e ⟨rfl, subset, filled⟩ ⟨member, fresh⟩
    exact ⟨_, initExtension_of_allowed kinds enough subset filled member fresh, rfl,
      Finset.insert_subset member subset, filled.put e.type e.value⟩

/-! ### What a mint requires -/

/-- The extensions that a mint requires have a value to start with. -/
theorem initAccountExtensionFromType_eq {t t' : ExtensionType}
    (required : t' ∈ t.requiredInitAccountExtensions) : ∃ v : Extension t',
    ∀ tlv : TlvData .account,
      tlv.initAccountExtensionFromType t' = tlv.initExtension t' v true := by
  cases t with
  | transferFeeConfig =>
    obtain rfl := List.mem_singleton.mp required
    exact ⟨⟨0⟩, fun _ => rfl⟩
  | nonTransferable =>
    rcases List.mem_pair.mp required with rfl | rfl
    · exact ⟨(), fun _ => rfl⟩
    · exact ⟨(), fun _ => rfl⟩
  | transferHook =>
    obtain rfl := List.mem_singleton.mp required
    exact ⟨⟨false⟩, fun _ => rfl⟩
  | pausable =>
    obtain rfl := List.mem_singleton.mp required
    exact ⟨(), fun _ => rfl⟩
  | _ => cases required

/-- **A buffer with the length** accumulates what a mint requires. -/
def TlvData.requiredAccumulator {allowed : Finset ExtensionType}
    (kinds : ∀ t ∈ allowed, t.getAccountType = .account) {len : ℕ}
    (enough : tokenAccountLen allowed ≤ len) :
    Accumulator (TlvData .account) ProgramError id fun _ t =>
      t ∈ allowed ∧ ∃ t' : ExtensionType, t ∈ t'.requiredInitAccountExtensions where
  step := TlvData.initAccountExtensionFromType
  Holds := (accumulator kinds enough).Holds
  step_eq := by
    rintro tlv types t holds ⟨member, t', required⟩
    obtain ⟨v, same⟩ := initAccountExtensionFromType_eq required
    rw [same]
    exact (accumulator kinds enough).step_eq (i := ⟨t, v, true⟩) holds ⟨member, .inl rfl⟩

/-! ### The run -/

section Run

variable {L : Ledger} {a m : Address} {mint : MintState} {allowed : Finset ExtensionType}
  (kinds : ∀ t ∈ allowed, t.getAccountType = .account) {len : ℕ}
  (enough : tokenAccountLen allowed ≤ len)

/-- **An account whose data is a form of a buffer** accumulates as the buffer does. -/
def ledgerAccumulator (owned : (L a).owner = programId) (form : TlvData .account → AccountData)
    (reads : ∀ tlv tlv' e types, (TlvData.accumulator kinds enough).Holds tlv types →
      tlv.initExtension e.type e.value e.overwrite = .ok tlv' →
      initAccountExtension a (L.setData a (form tlv)) e =
        (L.setData a (form tlv)).writeData a (form tlv')) :
    Accumulator Ledger ProgramError InitExtension.type fun types e =>
      e.type ∈ allowed ∧ (e.overwrite = true ∨ e.type ∉ types) where
  step := initAccountExtension a
  Holds L' types := ∃ tlv, L' = L.setData a (form tlv) ∧ (TlvData.accumulator kinds enough).Holds tlv types
  step_eq := by
    rintro L' types e ⟨tlv, rfl, holds⟩ accepted
    obtain ⟨tlv', ok, holds'⟩ := (TlvData.accumulator kinds enough).step_eq holds accepted
    refine ⟨_, ?_, tlv', rfl, holds'⟩
    rw [reads tlv tlv' e types holds ok, Ledger.writeData_eq_ok_iff, Ledger.setData_setData]
    exact ⟨.inl ((Ledger.owner_setData ..).trans owned), rfl⟩

/-- A buffer that accumulates is read as that of an account to be. -/
theorem unpackUninitialized_of_holds {tlv : TlvData .account} {types : Finset ExtensionType}
    (holds : (TlvData.accumulator kinds enough).Holds tlv types) :
    unpackUninitialized .account (.zeroed tlv.toBuffer) = .ok tlv := by
  obtain ⟨-, subset, filled⟩ := holds
  have first : tlv.entries.head?.all (fun e => e.1.getAccountType = .account) = true := by
    cases head : tlv.entries.head? with
    | none => rfl
    | some e =>
      have member : e.1 ∈ tlv.entries.keys := List.mem_map_of_mem (List.mem_of_head? head)
      exact decide_eq_true (kinds _ (subset (filled.mem_keys_iff.mp member)))
  unfold unpackUninitialized
  dsimp only
  rw [dif_pos tlv.valid, if_pos first]

/-- **An account to be** accumulates extensions. -/
def zeroedAccumulator (owned : (L a).owner = programId) :=
  ledgerAccumulator kinds enough owned (fun tlv => .zeroed tlv.toBuffer) (by
    intro tlv tlv' e types holds ok
    unfold initAccountExtension
    rw [Ledger.data_setData_self]
    show (unpackUninitialized .account (.zeroed tlv.toBuffer) >>= _) = _
    rw [unpackUninitialized_of_holds kinds enough holds]
    show (tlv.initExtension e.type e.value e.overwrite >>= _) = _
    rw [ok]
    rfl)

/-- At first it has none. -/
theorem zeroedAccumulator_holds (owned : (L a).owner = programId)
    (zeroed : (L a).data = .zeroed ⟨[], tokenAccountLen allowed⟩) :
    (zeroedAccumulator kinds le_rfl owned).Holds L ∅ := by
  have same : L.setData a (.zeroed ⟨[], tokenAccountLen allowed⟩) = L := by
    rw [← zeroed, Ledger.setData_same]
  exact ⟨⟨⟨[], tokenAccountLen allowed⟩, tokenAccountLen_valid _⟩, same.symm, rfl,
    Finset.empty_subset _, List.nodup_nil, rfl⟩

/-- **An initialized account** accumulates extensions. -/
def accountAccumulator (owned : (L a).owner = programId) (base : PodAccount) :=
  ledgerAccumulator kinds enough owned (fun tlv => .account ⟨base, tlv⟩) (by
    intro tlv tlv' e types holds ok
    unfold initAccountExtension
    rw [Ledger.data_setData_self]
    show (StateWithExtensions.initExtension ⟨base, tlv⟩ e.type e.value e.overwrite >>= _) = _
    unfold StateWithExtensions.initExtension
    rw [ok]
    rfl)

/-- The owner that the instruction takes, from its data or from its accounts. -/
theorem InitializeAccountCall.Names.parsed {call : InitializeAccountCall}
    {newAccount mintInfo : AccountMeta} {rest : List AccountMeta}
    (names : call.Names a m newAccount mintInfo rest) :
    ∃ owner rest', (match call.owner with
      | some owner => .ok (owner, rest)
      | none => do
        let (ownerInfo, accounts) ← nextAccountInfo rest
        .ok (ownerInfo.key, accounts) : ProgramResult (Address × List AccountMeta)) =
          .ok (owner, rest') ∧
      ∃ rest'', Env.rentSysvar call.rentSysvarAccount rest' = .ok rest'' := by
  cases named : call.owner with
  | some owner =>
    exact ⟨owner, rest, rfl, names.rent (by rw [named]; exact Option.some_ne_none owner)⟩
  | none =>
    obtain ⟨info, rest', rfl, sysvar⟩ := names.owner named
    exact ⟨info.key, rest', rfl, sysvar⟩

/-- What an account of the native mint holds above its reserve. -/
theorem exists_isNative {env : Env} {lamports len : ℕ} (exempt : env.isExempt lamports len)
    (native : Prop) [Decidable native] :
    ∃ isNative amount, (if native then do
        let amount ← okOr (checkedSub lamports (env.minimumBalance len)) TokenError.overflow
        .ok (some (env.minimumBalance len), amount)
      else .ok (none, 0) : ProgramResult (Option ℕ × ℕ)) = .ok (isNative, amount) := by
  by_cases holds : native
  · have above : checkedSub lamports (env.minimumBalance len) =
        some (lamports - env.minimumBalance len) := checkedSub_eq_some_iff.mpr ⟨exempt, rfl⟩
    refine ⟨some (env.minimumBalance len), lamports - env.minimumBalance len, ?_⟩
    rw [if_pos holds, above]
    rfl
  · exact ⟨none, 0, if_neg holds⟩

/-- **`InitializeAccount` succeeds** on a buffer that takes what the mint requires. -/
theorem InitializeAccountCall.run_eq {call : InitializeAccountCall}
    {newAccount mintInfo : AccountMeta} {rest : List AccountMeta}
    (names : call.Names a m newAccount mintInfo rest) (owned : (L a).owner = programId)
    (held : L.mint? m = some mint) {tlv tlv' : TlvData .account}
    (zeroed : (L a).data = .zeroed tlv.toBuffer)
    (read : unpackUninitialized .account (.zeroed tlv.toBuffer) = .ok tlv)
    (exempt : call.env.isExempt (L a).lamports tlv.len) {required : ℕ}
    (calculated : mint.tryCalculateAccountLen [] = .ok required) (enough : required ≤ tlv.len)
    (started : mint.requiredInitAccountExtensions.foldlM TlvData.initAccountExtensionFromType tlv =
      .ok tlv') :
    ∃ base : PodAccount, base.mint = m ∧
      call.run L = .ok (L.setData a (.account ⟨base, tlv'⟩)) := by
  obtain ⟨ownedMint, data⟩ := Ledger.mint?_eq_some_iff.mp held
  obtain ⟨owner, rest', parsed, rest'', sysvar⟩ := names.parsed
  obtain ⟨accounts, rfl, rfl, -, -⟩ := names
  have length : (L newAccount.key).data.len = tlv.len := by
    rw [zeroed]
    rfl
  rw [← length] at exempt enough
  obtain ⟨isNative, amount, funded⟩ := exists_isNative exempt (mintInfo.key = nativeMintId)
  let base : PodAccount := {
    mint := mintInfo.key
    owner
    amount
    delegate := none
    state := mint.startingState.val
    isNative
    delegatedAmount := 0
    closeAuthority := none
    initialized := mint.startingState.property }
  have ran : processInitializeAccountWith call.env L call.accounts call.owner
      call.rentSysvarAccount =
        .ok ⟨L.setData newAccount.key (.account ⟨base, tlv'⟩), [], none⟩ := by
    simp only [processInitializeAccountWith, bind_eq_ok_iff, Prod.exists,
      nextAccountInfo_eq_ok_iff, checkProgramAccount_eq_ok_iff, require_eq_ok_iff, exists_const]
    refine ⟨newAccount, mintInfo :: rest, accounts, mintInfo, rest, rfl, owned, ownedMint, owner,
      rest', parsed, rest'', sysvar, tlv, ?_, exempt, mint, ?_, required, calculated, enough, tlv',
      started, isNative, amount, funded, _,
      Ledger.writeData_eq_ok_iff.mpr ⟨.inl owned, rfl⟩, rfl⟩
    · rw [zeroed, read]
    · rw [data]
      rfl
  refine ⟨base, rfl, ?_⟩
  unfold InitializeAccountCall.run
  rw [ran]
  rfl

end Run

/-- **Extensions that may be written one after the other**: each may overwrite, or is not there. -/
def Fresh : Finset ExtensionType → List InitExtension → Prop :=
  Along InitExtension.type fun types e => e.overwrite = true ∨ e.type ∉ types

/-- What is written before and after, and what the mint requires, is what was counted. -/
theorem union_eq_accountTypes {types additional : List ExtensionType}
    {before after : List InitExtension}
    (asked : ∀ t, t ∈ additional ↔ ∃ e ∈ before ++ after, e.type = t) :
    (before.map InitExtension.type).toFinset ∪ requiredInitTypes types ∪
      (after.map InitExtension.type).toFinset = accountTypes types additional := by
  ext t
  simp only [accountTypes, Finset.mem_union, List.mem_toFinset, List.mem_map, asked t,
    List.mem_append]
  constructor
  · rintro ((⟨e, member, rfl⟩ | required) | ⟨e, member, rfl⟩)
    · exact .inr ⟨e, .inl member, rfl⟩
    · exact .inl required
    · exact .inr ⟨e, .inr member, rfl⟩
  · rintro (required | ⟨e, member | member, rfl⟩)
    · exact .inl (.inr required)
    · exact .inl (.inl ⟨e, member, rfl⟩)
    · exact .inr ⟨e, member, rfl⟩

/-- **A zeroed account of the length takes the instruction and the extensions**, these before it or
after it and in any order, and ends with what the mint requires and what was asked for. -/
theorem openAccount_eq {L : Ledger} {a m : Address} {mint : MintState}
    {additional : List ExtensionType} (kinds : ∀ t ∈ additional, t.getAccountType = .account)
    (held : L.mint? m = some mint) (owned : (L a).owner = programId)
    (zeroed : (L a).data =
      .zeroed ⟨[], tokenAccountLen (accountTypes mint.extensionTypes additional)⟩)
    {call : InitializeAccountCall} {newAccount mintInfo : AccountMeta} {rest : List AccountMeta}
    (names : call.Names a m newAccount mintInfo rest)
    (exempt : call.env.isExempt (L a).lamports
      (tokenAccountLen (accountTypes mint.extensionTypes additional)))
    {before after : List InitExtension}
    (asked : ∀ t, t ∈ additional ↔ ∃ e ∈ before ++ after, e.type = t) (first : Fresh ∅ before)
    (second : Fresh ((before.map InitExtension.type).toFinset ∪
      requiredInitTypes mint.extensionTypes) after) :
    ∃ st : TokenAccountState, openAccount a before call after L = .ok (L.setData a (.account st)) ∧
      st.base.mint = m ∧ st.extensionTypes.Nodup ∧
      st.extensionTypes.toFinset = accountTypes mint.extensionTypes additional := by
  have allKinds : ∀ t ∈ accountTypes mint.extensionTypes additional,
      t.getAccountType = .account := by
    intro t member
    rcases Finset.mem_union.mp member with required | more
    · exact getAccountType_of_requiredInitTypes required
    · exact kinds t (List.mem_toFinset.mp more)
  have allowed : ∀ e ∈ before ++ after, e.type ∈ accountTypes mint.extensionTypes additional :=
    fun e member => Finset.mem_union_right _
      (List.mem_toFinset.mpr ((asked e.type).mpr ⟨e, member, rfl⟩))
  have other : m ≠ a := by
    rintro rfl
    have data := (Ledger.mint?_eq_some_iff.mp held).2
    rw [zeroed] at data
    cases data
  -- The extensions that come first.
  obtain ⟨L₁, ran₁, tlv₁, rfl, holds₁⟩ := (zeroedAccumulator allKinds le_rfl owned).foldlM_eq
    (zeroedAccumulator_holds allKinds owned zeroed)
    (Along.and_forall first fun e member => allowed e (List.mem_append_left _ member))
  -- The instruction, with what the mint requires.
  obtain ⟨tlv₂, started, holds₂⟩ := (TlvData.requiredAccumulator allKinds le_rfl).foldlM_eq holds₁
    (.of_forall (fun t member _ => ⟨Finset.mem_union_left _ (List.mem_toFinset.mpr member),
      (List.mem_flatMap.mp member).imp fun _ both => both.2⟩) _)
  have length : tlv₁.len = tokenAccountLen (accountTypes mint.extensionTypes additional) := holds₁.1
  have enough : tokenAccountLen (mint.requiredInitAccountExtensions.toFinset ∪
      ([] : List ExtensionType).toFinset) ≤ tlv₁.len := by
    rw [length]
    refine tokenAccountLen_mono ?_
    rw [List.toFinset_nil, Finset.union_empty]
    exact Finset.subset_union_left
  have held₁ : (L.setData a (.zeroed tlv₁.toBuffer)).mint? m = some mint := by
    rw [Ledger.mint?_eq_some_iff, Ledger.owner_setData, Ledger.data_setData_of_ne _ other]
    exact Ledger.mint?_eq_some_iff.mp held
  obtain ⟨base, about, opened⟩ := InitializeAccountCall.run_eq names
    ((Ledger.owner_setData ..).trans owned) held₁ (Ledger.data_setData_self ..)
    (unpackUninitialized_of_holds allKinds le_rfl holds₁)
    (by rwa [Ledger.lamports_setData, length])
    (mint.tryCalculateAccountLen_eq fun t none => absurd none List.not_mem_nil) enough started
  rw [Ledger.setData_setData] at opened
  -- The extensions that come afterwards.
  have between : (accountAccumulator allKinds le_rfl owned base).Holds
      (L.setData a (.account ⟨base, tlv₂⟩)) ((before.map InitExtension.type).toFinset ∪
        requiredInitTypes mint.extensionTypes) := by
    refine ⟨tlv₂, rfl, ?_⟩
    rw [Finset.empty_union, List.map_id] at holds₂
    exact holds₂
  obtain ⟨L₃, ran₃, tlv₃, rfl, -, -, filled⟩ := (accountAccumulator allKinds le_rfl owned base).foldlM_eq
    between (Along.and_forall second fun e member => allowed e (List.mem_append_right _ member))
  refine ⟨⟨base, tlv₃⟩, ?_, about, filled.distinct,
    filled.keys.trans (union_eq_accountTypes asked)⟩
  unfold openAccount
  show (List.foldlM (zeroedAccumulator allKinds le_rfl owned).step L before >>= _) = _
  rw [ran₁]
  show (call.run _ >>= _) = _
  rw [opened]
  exact ran₃

/-- **The program computes, from the bytes of a mint that is laid out, the length that its state
asks for.** -/
theorem MintState.Laid.tryCalculateAccountLen (crates : Crates) (values : ValueBytes)
    {mint : MintState} (laid : mint.Laid) {additional : List ExtensionType}
    (kinds : ∀ t ∈ additional, t.getAccountType = .account) :
    tryCalculateAccountLenFromMintData crates (mintData values mint) additional =
      Panicking.of (mint.tryCalculateAccountLen additional) := by
  have walked : ∃ info, getTlvDataInfo (if mint.tlv.len = AccountType.mint.baseLen then []
      else tlvData values mint.tlv.toBuffer) = .ok info ∧
        info.extensionTypes = mint.extensionTypes := by
    rcases laid with bare | extended
    · refine ⟨⟨[], 0⟩, ?_, ?_⟩
      · rw [if_pos (congrArg Buffer.len bare)]
        exact getTlvDataInfo_eq_ok_iff.mpr ⟨[], [], by simp [Readable], .inl (by simp), rfl, rfl⟩
      · show [] = mint.tlv.entries.keys
        rw [congrArg Buffer.entries bare]
        rfl
    · refine ⟨⟨mint.extensionTypes, Buffer.usedLen mint.tlv.entries⟩, ?_, rfl⟩
      rw [if_neg extended.len_ne]
      exact getTlvDataInfo_tlvData values extended.storable
  obtain ⟨info, walked, types⟩ := walked
  rw [tryCalculateAccountLenFromMintData_eq (unpack_mintData crates values laid.fits) walked kinds,
    mint.tryCalculateAccountLen_eq kinds, types]
  rfl

/-- **The length of an account is computed right and suffices.** From the bytes of a mint that is
unpacked and walked, and for any account extensions on top, it is the length of their union, whatever
their order and duplicates; and on a zeroed, rent-exempt account of that length, for a mint with these
extensions, `InitializeAccount` and every extension succeed, in any order, and leave the union. -/
theorem account_len_correct {crates : Crates} {mintData : List UInt8}
    {st : Interface.StateWithExtensions Interface.PodMint} {info : TlvDataInfo}
    (unpacked : PodStateWithExtensions.unpack (podMint crates) mintData = .ok st)
    (walked : getTlvDataInfo st.tlvData = .ok info) {additional : List ExtensionType}
    (kinds : ∀ t ∈ additional, t.getAccountType = .account) :
    tryCalculateAccountLenFromMintData crates mintData additional =
      Panicking.of (.ok (tokenAccountLen (accountTypes info.extensionTypes additional))) ∧
    (∀ additional' : List ExtensionType, additional'.toFinset = additional.toFinset →
      tryCalculateAccountLenFromMintData crates mintData additional' =
        tryCalculateAccountLenFromMintData crates mintData additional) ∧
    ∀ (L : Ledger) (a m : Address) (mint : MintState) (call : InitializeAccountCall)
      (newAccount mintInfo : AccountMeta) (rest : List AccountMeta)
      (before after : List InitExtension),
      L.mint? m = some mint → mint.extensionTypes = info.extensionTypes →
      (L a).owner = programId →
      (L a).data = .zeroed ⟨[], tokenAccountLen (accountTypes info.extensionTypes additional)⟩ →
      call.env.isExempt (L a).lamports
        (tokenAccountLen (accountTypes info.extensionTypes additional)) →
      call.Names a m newAccount mintInfo rest →
      (∀ t, t ∈ additional ↔ ∃ e ∈ before ++ after, e.type = t) → Fresh ∅ before →
      Fresh ((before.map InitExtension.type).toFinset ∪ requiredInitTypes info.extensionTypes)
        after →
      ∃ state : TokenAccountState,
        openAccount a before call after L = .ok (L.setData a (.account state)) ∧
        state.base.mint = m ∧ state.extensionTypes.Nodup ∧
        state.extensionTypes.toFinset = accountTypes info.extensionTypes additional := by
  refine ⟨tryCalculateAccountLenFromMintData_eq unpacked walked kinds, fun additional' same => ?_,
    fun L a m mint call newAccount mintInfo rest before after held types owned zeroed exempt names
      asked first second => ?_⟩
  · have kinds' : ∀ t ∈ additional', t.getAccountType = .account := by
      intro t member
      have inside : t ∈ additional.toFinset := same ▸ List.mem_toFinset.mpr member
      exact kinds t (List.mem_toFinset.mp inside)
    rw [tryCalculateAccountLenFromMintData_eq unpacked walked kinds,
      tryCalculateAccountLenFromMintData_eq unpacked walked kinds', accountTypes, accountTypes, same]
  · rw [← types] at zeroed exempt second ⊢
    exact openAccount_eq kinds held owned zeroed names exempt asked first second

section Example

open Basic AccountMeta

/-- A mint whose tokens cannot be transferred. -/
def Basic.nonTransferableMint : MintState where
  base := { mintAuthority := none, supply := 0, decimals := 0, freezeAuthority := none }
  tlv := { entries := [⟨.nonTransferable, ()⟩], len := 170, valid := by decide }

/-- The mint, and an account to be. -/
def Basic.nonTransferableLedger : Ledger :=
  Ledger.hand (Function.update Ledger.fresh mint
    { lamports := 10 ^ 9, owner := programId, data := .mint nonTransferableMint }) source 179 (10 ^ 9)

/-- Two extensions on top, one of which the mint requires: 179 bytes, which suffice. -/
theorem account_len_correct_nonTransferable :
    tryCalculateAccountLenFromMintData Crates.basic
      (List.replicate 45 0 ++ 1 :: (List.replicate 119 0 ++ [1, 9, 0, 0, 0]))
      [.memoTransfer, .immutableOwner] = Panicking.of (.ok 179) ∧
    ∃ state : TokenAccountState,
      openAccount source [⟨.immutableOwner, (), true⟩]
        ⟨.basic, [.plain source, .plain Basic.mint], some owner, false⟩
        [⟨.memoTransfer, ⟨true⟩, false⟩] nonTransferableLedger =
          .ok (nonTransferableLedger.setData source (.account state)) ∧
      state.extensionTypes.toFinset =
        {.nonTransferableAccount, .immutableOwner, .memoTransfer} := by
  let data : List UInt8 := List.replicate 45 0 ++ 1 :: (List.replicate 119 0 ++ [1, 9, 0, 0, 0])
  have unpacked : PodStateWithExtensions.unpack (podMint Crates.basic) data =
      .ok ⟨PodMint.ofBytes (data.take 82), [9, 0, 0, 0]⟩ := by
    refine PodStateWithExtensions.unpack_eq_ok_iff.mpr ⟨⟨by decide +kernel, ?_⟩, ⟨rfl, ?_⟩, ?_⟩
    · show 82 ≤ data.length
      decide +kernel
    · show Crates.basic.bool (byteAt (data.take 82) 45) = true
      decide +kernel
    · show unpackTlvData .mint (data.drop 82) = .ok [9, 0, 0, 0]
      decide +kernel
  have walked : getTlvDataInfo [9, 0, 0, 0] = .ok ⟨[.nonTransferable], 4⟩ := by decide +kernel
  have kinds : ∀ t ∈ [ExtensionType.memoTransfer, .immutableOwner], t.getAccountType = .account := by
    decide
  have types : accountTypes [.nonTransferable] [.memoTransfer, .immutableOwner] =
      {.nonTransferableAccount, .immutableOwner, .memoTransfer} := by decide
  have length : tokenAccountLen (accountTypes [.nonTransferable] [.memoTransfer, .immutableOwner]) =
      179 := by decide
  obtain ⟨computed, -, suffices'⟩ := account_len_correct unpacked walked kinds
  refine ⟨length ▸ computed, ?_⟩
  have asked : ∀ t, t ∈ [ExtensionType.memoTransfer, .immutableOwner] ↔
      ∃ e ∈ ([⟨.immutableOwner, (), true⟩, ⟨.memoTransfer, ⟨true⟩, false⟩] : List InitExtension),
        e.type = t := by
    intro t
    constructor
    · intro member
      rcases List.mem_pair.mp member with rfl | rfl
      · exact ⟨_, List.mem_cons_of_mem _ List.mem_cons_self, rfl⟩
      · exact ⟨_, List.mem_cons_self, rfl⟩
    · rintro ⟨e, member, rfl⟩
      rcases List.mem_pair.mp member with rfl | rfl <;> decide
  have held : nonTransferableLedger.mint? Basic.mint = some nonTransferableMint := by decide
  obtain ⟨state, ran, -, -, carries⟩ := suffices' nonTransferableLedger source Basic.mint
    nonTransferableMint ⟨.basic, [.plain source, .plain Basic.mint], some owner, false⟩
    (.plain source) (.plain Basic.mint) [] [⟨.immutableOwner, (), true⟩]
    [⟨.memoTransfer, ⟨true⟩, false⟩] held rfl rfl (by rw [length]; rfl) (by rw [length]; decide)
    ⟨rfl, rfl, rfl, fun none => (by cases none), fun _ => ⟨[], rfl⟩⟩ asked
    ⟨.inl rfl, trivial⟩ ⟨.inr (by decide), trivial⟩
  exact ⟨state, ran, carries.trans types⟩

end Example

end Token2022
