/-
**Base states and their extensions.**

A mint or a token account is a base state in front of a buffer of extensions. A value of
`PodMint`, `PodAccount` or `PodMultisig` is an initialized one: a buffer whose base is still zero is
a `Buffer`.

* `Buffer` — entries in their order and the length of the account's data; `TlvData` — one whose
  length can hold the base state of its kind, with `get`, `set`, `alloc`, `resize`.
* `StateWithExtensions` — the unpacked form, `MintState` and `TokenAccountState`.
* `unpackUninitialized`, `initExtension`, `initAccountExtensionFromType`, `allocAndSerialize`,
  `allocAndSerializeVariableLenExtension` — the operations on extensions that the processors use.
* **`get_set_self`, `get_set_of_ne`** — what is read after a write.
-/

import Token2022.Extension.Types
import Token2022.Lib.KeyedList

namespace Token2022

open Fallible

/-! ### Base states -/

/-- An initialized `PodMint`. -/
structure PodMint where
  mintAuthority : Option Address
  supply : ℕ
  decimals : ℕ
  freezeAuthority : Option Address
  deriving DecidableEq, Repr

/-- An initialized `PodAccount`. -/
structure PodAccount where
  mint : Address
  owner : Address
  amount : ℕ
  delegate : Option Address
  state : AccountState
  /-- The rent-exempt reserve of an account of the native mint. -/
  isNative : Option ℕ
  delegatedAmount : ℕ
  closeAuthority : Option Address
  initialized : state ≠ .uninitialized
  deriving DecidableEq, Repr

/-- An initialized `PodMultisig`, with the signers that count: `signers[0..n]`. -/
structure PodMultisig where
  m : ℕ
  signers : List Address
  deriving DecidableEq, Repr

namespace PodAccount

/-- `is_frozen`. -/
def isFrozen (a : PodAccount) : Bool := a.state = .frozen

/-- `is_native`. -/
def isNativeAccount (a : PodAccount) : Bool := a.isNative.isSome

/-- `is_owned_by_system_program_or_incinerator`. -/
def isOwnedBySystemProgramOrIncinerator (a : PodAccount) : Bool :=
  a.owner = systemProgramId || a.owner = incineratorId

end PodAccount

/-- `Multisig::LEN`. -/
def multisigLen : ℕ := 355

/-- `MAX_SIGNERS`. -/
def maxSigners : ℕ := 11

/-- `is_valid_signer_index`. -/
def isValidSignerIndex (index : ℕ) : Bool := 1 ≤ index && index ≤ maxSigners

/-- `BASE_ACCOUNT_LENGTH`, in front of the account type of every extended state. -/
def baseAccountLength : ℕ := 165

/-- `BASE_ACCOUNT_AND_TYPE_LENGTH`. -/
def baseAccountAndTypeLength : ℕ := 166

/-- `adjust_len_for_multisig`: no extended state has the length of a multisig. -/
def adjustLenForMultisig (len : ℕ) : ℕ := if len = multisigLen then len + 2 else len

theorem le_adjustLenForMultisig (len : ℕ) : len ≤ adjustLenForMultisig len := by
  unfold adjustLenForMultisig
  split <;> omega

theorem adjustLenForMultisig_le (len : ℕ) : adjustLenForMultisig len ≤ len + 2 := by
  unfold adjustLenForMultisig
  split <;> omega

theorem adjustLenForMultisig_ne (len : ℕ) : adjustLenForMultisig len ≠ multisigLen := by
  unfold adjustLenForMultisig
  split <;> omega

/-- `SIZE_OF` the base state of a kind. -/
def AccountType.baseLen : AccountType → ℕ
  | .uninitialized => 0
  | .mint => 82
  | .account => 165

/-- The data lengths a base state of the kind may have: its bare length, or one with room for the
account type; never a multisig's. -/
def AccountType.ValidLen (kind : AccountType) (len : ℕ) : Prop :=
  len ≠ multisigLen ∧ (len = kind.baseLen ∨ baseAccountAndTypeLength ≤ len)

instance (kind : AccountType) (len : ℕ) : Decidable (kind.ValidLen len) :=
  inferInstanceAs (Decidable (_ ∧ _))

/-! ### Buffers of extensions -/

/-- An extension with its value. -/
abbrev Entry := Sigma Extension

namespace TokenMetadata

/-- `get_packed_len`: two keys, then strings behind their four bytes of length. -/
def packedLen (m : TokenMetadata) : ℕ :=
  32 + 32 + (4 + m.name.utf8ByteSize) + (4 + m.symbol.utf8ByteSize) + (4 + m.uri.utf8ByteSize) + 4 +
    (m.additionalMetadata.map fun pair => 4 + pair.1.utf8ByteSize + (4 + pair.2.utf8ByteSize)).sum

end TokenMetadata

/-- The bytes that the value of an extension takes. -/
def valueLen : (t : ExtensionType) → Extension t → ℕ
  | .tokenMetadata, metadata => TokenMetadata.packedLen metadata
  | t, _ => t.typeLen

/-- The data of an account, past its base: the extensions written, in order, and the length. -/
structure Buffer where
  entries : List Entry
  len : ℕ
  deriving DecidableEq

namespace Buffer

/-- The extension types, `get_extension_types`. -/
def extensionTypes (b : Buffer) : List ExtensionType := b.entries.keys

/-- The bytes for extensions: what is left after the base and the account type. -/
def tlvLen (b : Buffer) : ℕ := b.len - baseAccountAndTypeLength

/-- The bytes that a list of entries takes. -/
def usedLen (entries : List Entry) : ℕ :=
  (entries.map fun e => ExtensionType.addTypeAndLengthToLen (valueLen e.1 e.2)).sum

theorem usedLen_nil : usedLen [] = 0 := rfl

theorem usedLen_cons (e : Entry) (entries : List Entry) :
    usedLen (e :: entries) =
      ExtensionType.addTypeAndLengthToLen (valueLen e.1 e.2) + usedLen entries := by
  simp [usedLen]

/-- The value of an extension. -/
def get (b : Buffer) (t : ExtensionType) : Option (Extension t) := KeyedList.find t b.entries

/-- `get_extension`, of an extension of the right kind: what it fails with tells whether there is
room for one more entry behind the last. -/
def getExtension (b : Buffer) (t : ExtensionType) : ProgramResult (Extension t) :=
  match b.get t with
  | some v => .ok v
  | none =>
    if 4 ≤ b.tlvLen - usedLen b.entries then .error TokenError.extensionNotFound
    else .error .invalidAccountData

@[simp] theorem getExtension_eq_ok_iff {b : Buffer} {t : ExtensionType} {v : Extension t} :
    b.getExtension t = .ok v ↔ b.get t = some v := by
  unfold getExtension
  cases held : b.get t with
  | some w => simp
  | none => by_cases room : 4 ≤ b.tlvLen - usedLen b.entries <;> simp [room]

/-- `alloc`: find the extension's entry, or the room for a new one. -/
def alloc (b : Buffer) (kind : AccountType) (t : ExtensionType) (length : ℕ) (overwrite : Bool) :
    ProgramResult Unit := do
  require (t.getAccountType = kind) .invalidAccountData
  let before := usedLen (b.entries.takeWhile fun e => e.1 ≠ t)
  match b.get t with
  | some v =>
    require (ExtensionType.addTypeAndLengthToLen length ≤ b.tlvLen - before) .invalidAccountData
    require overwrite TokenError.extensionAlreadyInitialized
    require (valueLen t v = length) TokenError.invalidLengthForAlloc
  | none =>
    require (4 ≤ b.tlvLen - before) .invalidAccountData
    require (ExtensionType.addTypeAndLengthToLen length ≤ b.tlvLen - before) .invalidAccountData
    require (length < 2 ^ 16) .accountDataTooSmall

/-- Write the value of an extension: over the old one, or behind the last entry. -/
def set (b : Buffer) (t : ExtensionType) (v : Extension t) : Buffer :=
  { b with entries := KeyedList.put t v b.entries }

@[simp] theorem get_set_self (b : Buffer) (t : ExtensionType) (v : Extension t) :
    (b.set t v).get t = some v := KeyedList.find_put_self t v b.entries

@[simp] theorem get_set_of_ne (b : Buffer) {t t' : ExtensionType} (ne : t' ≠ t)
    (v : Extension t) : (b.set t v).get t' = b.get t' := KeyedList.find_put_of_ne ne v b.entries

@[simp] theorem set_len (b : Buffer) (t : ExtensionType) (v : Extension t) :
    (b.set t v).len = b.len := rfl

theorem mem_extensionTypes {b : Buffer} {t : ExtensionType} :
    t ∈ b.extensionTypes ↔ (b.get t).isSome := KeyedList.find_isSome_iff.symm

end Buffer

/-- **A buffer whose length suits its kind of base state.** -/
structure TlvData (kind : AccountType) extends Buffer where
  valid : kind.ValidLen len
  deriving DecidableEq

/-- An unpacked state: the base, and the extensions behind it. -/
structure StateWithExtensions (kind : AccountType) (S : Type) where
  base : S
  tlv : TlvData kind
  deriving DecidableEq

/-- `PodStateWithExtensions<PodMint>`. -/
abbrev MintState := StateWithExtensions .mint PodMint

/-- `PodStateWithExtensions<PodAccount>`. -/
abbrev TokenAccountState := StateWithExtensions .account PodAccount

namespace TlvData

variable {kind : AccountType}

/-- Write the value of an extension. -/
def set (tlv : TlvData kind) (t : ExtensionType) (v : Extension t) : TlvData kind :=
  { toBuffer := tlv.toBuffer.set t v, valid := tlv.valid }

/-- `init_extension`: write `v` in a found or new entry. -/
def initExtension (tlv : TlvData kind) (t : ExtensionType) (v : Extension t) (overwrite : Bool) :
    ProgramResult (TlvData kind) := do
  tlv.alloc kind t (valueLen t v) overwrite
  .ok (tlv.set t v)

/-- `resize`, and the length check of the unpacking that follows it: data grows by at most
`MAX_PERMITTED_DATA_INCREASE`. -/
def resize (tlv : TlvData kind) (len : ℕ) : ProgramResult (TlvData kind) := do
  require (len ≤ tlv.len + 10240) .invalidRealloc
  if valid : kind.ValidLen len then .ok { entries := tlv.entries, len, valid }
  else .error .invalidAccountData

/-- `init_account_extension_from_type`: the extensions that an account starts with. -/
def initAccountExtensionFromType (tlv : TlvData kind) (t : ExtensionType) :
    ProgramResult (TlvData kind) :=
  match t with
  | .transferFeeAmount => tlv.initExtension .transferFeeAmount ⟨0⟩ true
  | .immutableOwner => tlv.initExtension .immutableOwner () true
  | .nonTransferableAccount => tlv.initExtension .nonTransferableAccount () true
  | .transferHookAccount => tlv.initExtension .transferHookAccount ⟨false⟩ true
  | .pausableAccount => tlv.initExtension .pausableAccount () true
  | _ => .ok tlv

/-- What a successful `init_extension` writes. -/
theorem initExtension_eq_ok {tlv tlv' : TlvData kind} {t : ExtensionType} {v : Extension t}
    {overwrite : Bool} (ok : tlv.initExtension t v overwrite = .ok tlv') :
    t.getAccountType = kind ∧ (overwrite = false → tlv.get t = none) ∧ tlv' = tlv.set t v := by
  rw [initExtension, bind_eq_ok_iff] at ok
  obtain ⟨⟨⟩, room, written⟩ := ok
  refine ⟨(require_bind_eq_ok_iff.mp room).1, fun fresh => ?_, (Except.ok.inj written).symm⟩
  subst fresh
  cases held : tlv.get t with
  | none => rfl
  | some w => simp [Buffer.alloc, require_bind_eq_ok_iff, held] at room

/-- The value with which an account starts, of the types that `init_account_extension_from_type`
knows. -/
def initialValue? : (t : ExtensionType) → Option (Extension t)
  | .transferFeeAmount => some ⟨0⟩
  | .immutableOwner => some ()
  | .nonTransferableAccount => some ()
  | .transferHookAccount => some ⟨false⟩
  | .pausableAccount => some ()
  | _ => none

/-- What a successful `init_account_extension_from_type` writes: the value of a type that it knows, or
nothing. -/
theorem initAccountExtensionFromType_eq_ok {tlv tlv' : TlvData kind} {t : ExtensionType}
    (ok : tlv.initAccountExtensionFromType t = .ok tlv') :
    tlv' = tlv ∨ ∃ v, initialValue? t = some v ∧ tlv.initExtension t v true = .ok tlv' := by
  unfold initAccountExtensionFromType at ok
  split at ok
  case h_6 => exact .inl (Except.ok.inj ok).symm
  all_goals exact .inr ⟨_, rfl, ok⟩

theorem resize_eq_ok {tlv tlv' : TlvData kind} {len : ℕ} (ok : tlv.resize len = .ok tlv') :
    tlv'.entries = tlv.entries ∧ tlv'.len = len := by
  unfold resize at ok
  obtain ⟨_, ok⟩ := require_bind_eq_ok_iff.mp ok
  split at ok
  · obtain rfl := Except.ok.inj ok
    exact ⟨rfl, rfl⟩
  · simp at ok

end TlvData

namespace StateWithExtensions

variable {kind : AccountType} {S : Type}

/-- The value of an extension. -/
def get (st : StateWithExtensions kind S) (t : ExtensionType) : Option (Extension t) :=
  st.tlv.get t

/-- Write the value of an extension. -/
def set (st : StateWithExtensions kind S) (t : ExtensionType) (v : Extension t) :
    StateWithExtensions kind S := { st with tlv := st.tlv.set t v }

/-- Write the base state. -/
def withBase (st : StateWithExtensions kind S) (base : S) : StateWithExtensions kind S :=
  { st with base }

/-- Whether the state carries an extension. -/
def has (st : StateWithExtensions kind S) (t : ExtensionType) : Bool := (st.get t).isSome

@[simp] theorem get_set_self (st : StateWithExtensions kind S) (t : ExtensionType)
    (v : Extension t) : (st.set t v).get t = some v := Buffer.get_set_self _ t v

@[simp] theorem get_set_of_ne (st : StateWithExtensions kind S) {t t' : ExtensionType}
    (ne : t' ≠ t) (v : Extension t) : (st.set t v).get t' = st.get t' :=
  Buffer.get_set_of_ne _ ne v

/-- A second write to an extension replaces the first. -/
@[simp] theorem set_set (st : StateWithExtensions kind S) (t : ExtensionType) (v w : Extension t) :
    (st.set t v).set t w = st.set t w := by
  have same : (st.tlv.set t v).set t w = st.tlv.set t w := by
    simp [TlvData.set, Buffer.set]
  simp [set, same]

@[simp] theorem get_withBase (st : StateWithExtensions kind S) (base : S) (t : ExtensionType) :
    (st.withBase base).get t = st.get t := rfl

@[simp] theorem base_withBase (st : StateWithExtensions kind S) (base : S) :
    (st.withBase base).base = base := rfl

@[simp] theorem base_set (st : StateWithExtensions kind S) (t : ExtensionType)
    (v : Extension t) : (st.set t v).base = st.base := rfl

/-- The extension types of a state. -/
def extensionTypes (st : StateWithExtensions kind S) : List ExtensionType :=
  st.tlv.extensionTypes

theorem mem_extensionTypes {st : StateWithExtensions kind S} {t : ExtensionType} :
    t ∈ st.extensionTypes ↔ st.has t = true := Buffer.mem_extensionTypes

/-- `get_extension`. -/
def getExtension (st : StateWithExtensions kind S) (t : ExtensionType) :
    ProgramResult (Extension t) := st.tlv.getExtension t

@[simp] theorem getExtension_eq_ok_iff {st : StateWithExtensions kind S} {t : ExtensionType}
    {v : Extension t} : st.getExtension t = .ok v ↔ st.get t = some v :=
  Buffer.getExtension_eq_ok_iff

/-- `init_extension`. -/
def initExtension (st : StateWithExtensions kind S) (t : ExtensionType) (v : Extension t)
    (overwrite : Bool) : ProgramResult (StateWithExtensions kind S) := do
  let tlv ← st.tlv.initExtension t v overwrite
  .ok { st with tlv }

theorem initExtension_eq_ok {st st' : StateWithExtensions kind S} {t : ExtensionType}
    {v : Extension t} {overwrite : Bool} (ok : st.initExtension t v overwrite = .ok st') :
    t.getAccountType = kind ∧ (overwrite = false → st.get t = none) ∧ st' = st.set t v := by
  obtain ⟨tlv, written, same⟩ := bind_eq_ok_iff.mp ok
  obtain ⟨ofKind, fresh, rfl⟩ := TlvData.initExtension_eq_ok written
  exact ⟨ofKind, fresh, (Except.ok.inj same).symm⟩

end StateWithExtensions

/-! ### Lengths -/

/-- `TlvLenAccumulator`: the bytes of the distinct extension types inserted so far. -/
structure TlvLenAccumulator where
  seen : List ExtensionType
  byteCount : ℕ

namespace TlvLenAccumulator

/-- `insert`: a type counts once. -/
def insert (acc : TlvLenAccumulator) (t : ExtensionType) : ProgramResult TlvLenAccumulator :=
  if t ∈ acc.seen then .ok acc
  else do
    let len ← t.tryGetTlvLen
    .ok ⟨t :: acc.seen, acc.byteCount + len⟩

/-- `account_len`. -/
def accountLen (acc : TlvLenAccumulator) (kind : AccountType) : ℕ :=
  if acc.seen = [] then kind.baseLen
  else adjustLenForMultisig (acc.byteCount + baseAccountAndTypeLength)

end TlvLenAccumulator

/-- `try_calculate_account_len`. -/
def tryCalculateAccountLen (kind : AccountType) (types : List ExtensionType) : ProgramResult ℕ := do
  let acc ← types.foldlM TlvLenAccumulator.insert ⟨[], 0⟩
  .ok (acc.accountLen kind)

/-- The account extensions that `InitializeAccount` creates for a mint, in the order of the mint's
extensions: what `try_for_each_required_init_account_extension` visits. -/
def MintState.requiredInitAccountExtensions (mint : MintState) : List ExtensionType :=
  mint.extensionTypes.flatMap ExtensionType.requiredInitAccountExtensions

/-- `try_calculate_account_len_from_mint_data`, of an unpacked mint. -/
def MintState.tryCalculateAccountLen (mint : MintState) (additional : List ExtensionType) :
    ProgramResult ℕ := do
  let acc ← mint.requiredInitAccountExtensions.foldlM TlvLenAccumulator.insert ⟨[], 0⟩
  let acc ← additional.foldlM TlvLenAccumulator.insert acc
  .ok (acc.accountLen .account)

/-! ### Extensions of initialized states that grow -/

namespace StateWithExtensions

variable {kind : AccountType} {S : Type}

/-- `try_get_new_account_len_for_extension_len`. -/
def newAccountLen (st : StateWithExtensions kind S) (t : ExtensionType) (length : ℕ) : ℕ :=
  let current := Buffer.usedLen st.tlv.entries + baseAccountAndTypeLength
  let held := match st.get t with
    | some v => ExtensionType.addTypeAndLengthToLen (valueLen t v)
    | none => 0
  adjustLenForMultisig (current - held + ExtensionType.addTypeAndLengthToLen length)

/-- Grow or shrink the data of a state. -/
def resize (st : StateWithExtensions kind S) (len : ℕ) :
    ProgramResult (StateWithExtensions kind S) := do
  let tlv ← st.tlv.resize len
  .ok { st with tlv }

/-- `alloc_and_serialize`: make room for a sized extension where there is none, then write it. -/
def allocAndSerialize (st : StateWithExtensions kind S) (t : ExtensionType) (v : Extension t)
    (overwrite : Bool) : ProgramResult (StateWithExtensions kind S) := do
  let len := st.newAccountLen t t.typeLen
  let st ← (if st.tlv.len < len then st.resize len else .ok st)
  st.initExtension t v overwrite

/-- `realloc_variable_len_extension`: replace the value, where the buffer has the room for it. -/
def reallocVariableLenExtension (st : StateWithExtensions kind S) (t : ExtensionType)
    (v : Extension t) : ProgramResult (StateWithExtensions kind S) := do
  let old ← st.getExtension t
  let used := Buffer.usedLen st.tlv.entries
  require (valueLen t v ≤ valueLen t old ∨
    used + (valueLen t v - valueLen t old) ≤ st.tlv.tlvLen) .invalidAccountData
  require (valueLen t v < 2 ^ 16) .accountDataTooSmall
  .ok (st.set t v)

/-- `alloc_and_serialize_variable_len_extension`: the data ends at the length that the new value
needs. -/
def allocAndSerializeVariableLenExtension (st : StateWithExtensions kind S) (t : ExtensionType)
    (v : Extension t) (overwrite : Bool) : ProgramResult (StateWithExtensions kind S) := do
  let len := st.newAccountLen t (valueLen t v)
  let already := st.has t
  require (¬ (already && !overwrite)) TokenError.extensionAlreadyInitialized
  if st.tlv.len < len then
    let st ← st.resize len
    if already then st.reallocVariableLenExtension t v else st.initExtension t v false
  else
    let st ← (if already then st.reallocVariableLenExtension t v
      else st.initExtension t v false)
    if st.tlv.len = len then .ok st else st.resize len

theorem resize_eq_ok {st st' : StateWithExtensions kind S} {len : ℕ}
    (ok : st.resize len = .ok st') :
    st'.base = st.base ∧ st'.tlv.entries = st.tlv.entries ∧ st'.tlv.len = len := by
  obtain ⟨tlv, resized, same⟩ := bind_eq_ok_iff.mp ok
  obtain rfl := Except.ok.inj same
  exact ⟨rfl, TlvData.resize_eq_ok resized⟩

theorem resize_le {st st' : StateWithExtensions kind S} {len : ℕ} (ok : st.resize len = .ok st') :
    len ≤ st.tlv.len + 10240 := by
  obtain ⟨tlv, resized, -⟩ := bind_eq_ok_iff.mp ok
  exact (require_bind_eq_ok_iff.mp resized).1

theorem get_resize {st st' : StateWithExtensions kind S} {len : ℕ} (ok : st.resize len = .ok st')
    (t : ExtensionType) : st'.get t = st.get t := by
  unfold get Buffer.get
  rw [(resize_eq_ok ok).2.1]

theorem reallocVariableLenExtension_eq_ok {st st' : StateWithExtensions kind S}
    {t : ExtensionType} {v : Extension t} (ok : st.reallocVariableLenExtension t v = .ok st') :
    st' = st.set t v := by
  simp only [reallocVariableLenExtension, bind_eq_ok_iff, require_eq_ok_iff, exists_const] at ok
  obtain ⟨_, _, _, _, written⟩ := ok
  exact (Except.ok.inj written).symm

/-- **What the allocating writes leave of a state**: its base, and every other extension. -/
structure WritesOnly (st st' : StateWithExtensions kind S) (t : ExtensionType) (v : Extension t) :
    Prop where
  base : st'.base = st.base
  written : st'.get t = some v
  others : ∀ t', t' ≠ t → st'.get t' = st.get t'

theorem writesOnly_set (st : StateWithExtensions kind S) (t : ExtensionType) (v : Extension t) :
    WritesOnly st (st.set t v) t v :=
  ⟨rfl, get_set_self st t v, fun _ ne => get_set_of_ne st ne v⟩

theorem WritesOnly.after_resize {st mid st' : StateWithExtensions kind S} {len : ℕ}
    {t : ExtensionType} {v : Extension t} (ok : st.resize len = .ok mid)
    (writes : WritesOnly mid st' t v) : WritesOnly st st' t v where
  base := writes.base.trans (resize_eq_ok ok).1
  written := writes.written
  others t' ne := (writes.others t' ne).trans (get_resize ok t')

theorem WritesOnly.before_resize {st mid st' : StateWithExtensions kind S} {len : ℕ}
    {t : ExtensionType} {v : Extension t} (writes : WritesOnly st mid t v)
    (ok : mid.resize len = .ok st') : WritesOnly st st' t v where
  base := (resize_eq_ok ok).1.trans writes.base
  written := (get_resize ok t).trans writes.written
  others t' ne := (get_resize ok t').trans (writes.others t' ne)

theorem allocAndSerialize_writesOnly {st st' : StateWithExtensions kind S} {t : ExtensionType}
    {v : Extension t} {overwrite : Bool} (ok : st.allocAndSerialize t v overwrite = .ok st') :
    t.getAccountType = kind ∧ WritesOnly st st' t v := by
  obtain ⟨mid, grown, written⟩ := bind_eq_ok_iff.mp ok
  obtain ⟨ofKind, -, rfl⟩ := initExtension_eq_ok written
  refine ⟨ofKind, ?_⟩
  split at grown
  · exact (writesOnly_set mid t v).after_resize grown
  · obtain rfl := Except.ok.inj grown
    exact writesOnly_set st t v

theorem allocAndSerializeVariableLenExtension_writesOnly {st st' : StateWithExtensions kind S}
    {t : ExtensionType} {v : Extension t} {overwrite : Bool}
    (ok : st.allocAndSerializeVariableLenExtension t v overwrite = .ok st') :
    WritesOnly st st' t v := by
  have write : ∀ {st st' : StateWithExtensions kind S} {already : Bool},
      (if already then st.reallocVariableLenExtension t v else st.initExtension t v false) =
        .ok st' → WritesOnly st st' t v := by
    intro st st' already written
    split at written
    · rw [reallocVariableLenExtension_eq_ok written]
      exact writesOnly_set st t v
    · rw [(initExtension_eq_ok written).2.2]
      exact writesOnly_set st t v
  unfold allocAndSerializeVariableLenExtension at ok
  obtain ⟨_, ok⟩ := require_bind_eq_ok_iff.mp ok
  split at ok
  · obtain ⟨mid, grown, written⟩ := bind_eq_ok_iff.mp ok
    exact (write written).after_resize grown
  · obtain ⟨mid, written, shrunk⟩ := bind_eq_ok_iff.mp ok
    split at shrunk
    · exact Except.ok.inj shrunk ▸ write written
    · exact (write written).before_resize shrunk

end StateWithExtensions

end Token2022
