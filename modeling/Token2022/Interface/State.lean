/-
**The base states on bytes, packed and as Pods.**

A mint takes 82 bytes, a token account 165 and a multisig 355. `Pack` decodes the fields and refuses
a tag or a flag that it does not write; a Pod is the bytes themselves, looked at as fields.

* `Crates` — what the readers use of other crates.
* `Mint`, `Account`, `Multisig` — `unpack_from_slice`, `pack_into_slice`.
* `PodMint`, `PodAccount`, `PodMultisig`, `PodCOption` — the Pods.
* **`Mint.packIntoSlice_unpackFromSlice`**, **`Account.packIntoSlice_unpackFromSlice`**,
  **`Multisig.packIntoSlice_unpackFromSlice`** — a state that was read is written back byte for byte.
* **`PodMint.agrees`**, **`PodAccount.agrees`** — the Pod of the same bytes has the same fields.
-/

import Token2022.Interface.Encoding
import Token2022.State

namespace Token2022.Interface

open Fallible

/-! ### Other crates -/

/-- **What the readers use of other crates**, with what they rely on. -/
structure Crates where
  /-- `Pack::unpack` of a type of the given length, with its `unpack_from_slice` and its
  `is_initialized`. -/
  unpack : {S : Type} → ℕ → (List UInt8 → ProgramResult S) → (S → Bool) → List UInt8 →
    ProgramResult S
  unpack_eq_ok_iff : ∀ {S : Type} {len : ℕ} {fromSlice : List UInt8 → ProgramResult S}
    {isInitialized : S → Bool} {bytes : List UInt8} {state : S},
    unpack len fromSlice isInitialized bytes = .ok state ↔
      bytes.length = len ∧ fromSlice bytes = .ok state ∧ isInitialized state = true
  /-- `bool::from`, of the byte of a zero-copy `Bool`. -/
  bool : UInt8 → Bool
  bool_zero : bool 0 = false
  bool_one : bool 1 = true

/-! ### Fields -/

/-- The bytes of a field, by its offset and its length. -/
def slice (bytes : List UInt8) (offset len : ℕ) : List UInt8 := (bytes.drop offset).take len

/-- The byte of a field. -/
def byteAt (bytes : List UInt8) (offset : ℕ) : UInt8 := bytes.getD offset 0

theorem length_slice {bytes : List UInt8} {offset len : ℕ} (inside : offset + len ≤ bytes.length) :
    (slice bytes offset len).length = len := by
  rw [slice, List.length_take, List.length_drop]
  omega

/-- Two fields next to each other. -/
theorem slice_append (bytes : List UInt8) (offset len len' : ℕ) :
    slice bytes offset len ++ slice bytes (offset + len) len' =
      slice bytes offset (len + len') := by
  unfold slice
  rw [← List.drop_drop, ← List.take_add]

theorem slice_one {bytes : List UInt8} {offset : ℕ} (inside : offset < bytes.length) :
    slice bytes offset 1 = [byteAt bytes offset] := by
  unfold slice byteAt
  rw [List.drop_eq_getElem_cons inside, List.take_succ_cons, List.take_zero,
    List.getD_eq_getElem?_getD, List.getElem?_eq_getElem inside, Option.getD_some]

theorem slice_self {bytes : List UInt8} {len : ℕ} (length : bytes.length = len) :
    slice bytes 0 len = bytes := by
  rw [slice, List.drop_zero, List.take_of_length_le length.le]

/-- The field that stands between what is in front of it and what is behind. -/
theorem slice_middle (before field rest : List UInt8) {offset len : ℕ}
    (start : before.length = offset) (length : field.length = len) :
    slice (before ++ (field ++ rest)) offset len = field := by
  subst start length
  rw [slice, List.drop_left, List.take_left]

/-- The byte that stands between what is in front of it and what is behind. -/
theorem byteAt_middle (before : List UInt8) (byte : UInt8) (rest : List UInt8) {offset : ℕ}
    (start : before.length = offset) : byteAt (before ++ byte :: rest) offset = byte := by
  subst start
  simp [byteAt, List.getD_eq_getElem?_getD]

/-- `COption`'s tag of no value, `PodCOption::NONE`. -/
def noneTag : List UInt8 := [0, 0, 0, 0]

/-- `COption`'s tag of a value, `PodCOption::SOME`. -/
def someTag : List UInt8 := [1, 0, 0, 0]

section COption

variable {α : Type}

/-- `unpack_coption_*`: a tag of four bytes, then the value. -/
def unpackCoption (ofBytes : List UInt8 → α) (src : List UInt8) : ProgramResult (Option α) :=
  if src.take 4 = noneTag then .ok none
  else if src.take 4 = someTag then .ok (some (ofBytes (src.drop 4)))
  else .error .invalidAccountData

/-- `pack_coption_*`: without a value, its bytes stay. -/
def packCoption (toBytes : α → List UInt8) (src : Option α) (dst : List UInt8) : List UInt8 :=
  match src with
  | some value => someTag ++ toBytes value
  | none => noneTag ++ dst.drop 4

theorem unpackCoption_eq_ok_iff {ofBytes : List UInt8 → α} {src : List UInt8} {value : Option α} :
    unpackCoption ofBytes src = .ok value ↔
      (src.take 4 = noneTag ∧ value = none) ∨
        (src.take 4 = someTag ∧ value = some (ofBytes (src.drop 4))) := by
  unfold unpackCoption
  by_cases none : src.take 4 = noneTag
  · simp [none, eq_comm, noneTag, someTag]
  · by_cases some : src.take 4 = someTag
    · simp [some, eq_comm, noneTag, someTag]
    · simp [none, some]

/-- **What was read is written back.** -/
theorem packCoption_unpackCoption {toBytes : α → List UInt8} {ofBytes : List UInt8 → α}
    {src : List UInt8} {value : Option α} (write : toBytes (ofBytes (src.drop 4)) = src.drop 4)
    (read : unpackCoption ofBytes src = .ok value) : packCoption toBytes value src = src := by
  rcases unpackCoption_eq_ok_iff.mp read with ⟨tag, rfl⟩ | ⟨tag, rfl⟩
  · rw [packCoption, ← tag, List.take_append_drop]
  · rw [packCoption, write, ← tag, List.take_append_drop]

end COption

/-- `unpack_coption_key`. -/
def unpackCoptionKey : List UInt8 → ProgramResult (Option Address) := unpackCoption addressOfBytes

/-- `pack_coption_key`. -/
def packCoptionKey : Option Address → List UInt8 → List UInt8 := packCoption addressBytes

/-- `unpack_coption_u64`. -/
def unpackCoptionU64 : List UInt8 → ProgramResult (Option UInt64) := unpackCoption u64OfBytes

/-- `pack_coption_u64`. -/
def packCoptionU64 : Option UInt64 → List UInt8 → List UInt8 := packCoption u64Bytes

/-- A flag of one byte, as `unpack_from_slice` reads it. -/
def unpackBool : UInt8 → ProgramResult Bool
  | 0 => .ok false
  | 1 => .ok true
  | _ => .error .invalidAccountData

/-- `bool as u8`. -/
def boolByte (b : Bool) : UInt8 := if b then 1 else 0

theorem unpackBool_eq_ok_iff {byte : UInt8} {b : Bool} :
    unpackBool byte = .ok b ↔ byte = boolByte b := by
  constructor
  · intro read
    unfold unpackBool at read
    split at read
    · obtain rfl := Except.ok.inj read
      rfl
    · obtain rfl := Except.ok.inj read
      rfl
    · cases read
  · rintro rfl
    cases b <;> rfl

theorem packCoptionKey_unpack {src : List UInt8} {value : Option Address}
    (length : src.length = 36) (read : unpackCoptionKey src = .ok value) :
    packCoptionKey value src = src :=
  packCoption_unpackCoption (addressBytes_addressOfBytes (by simp [length])) read

theorem packCoptionU64_unpack {src : List UInt8} {value : Option UInt64}
    (length : src.length = 12) (read : unpackCoptionU64 src = .ok value) :
    packCoptionU64 value src = src :=
  packCoption_unpackCoption (u64Bytes_u64OfBytes (by simp [length])) read

/-! ### Packed states -/

/-- `state::Mint`. -/
structure Mint where
  mintAuthority : Option Address
  supply : UInt64
  decimals : UInt8
  isInitialized : Bool
  freezeAuthority : Option Address
  deriving DecidableEq

namespace Mint

/-- `Mint::unpack_from_slice`. -/
def unpackFromSlice (src : List UInt8) : ProgramResult Mint := do
  let mintAuthority ← unpackCoptionKey (slice src 0 36)
  let isInitialized ← unpackBool (byteAt src 45)
  let freezeAuthority ← unpackCoptionKey (slice src 46 36)
  .ok { mintAuthority
        supply := u64OfBytes (slice src 36 8)
        decimals := byteAt src 44
        isInitialized
        freezeAuthority }

/-- `Mint::pack_into_slice`. -/
def packIntoSlice (mint : Mint) (dst : List UInt8) : List UInt8 :=
  packCoptionKey mint.mintAuthority (slice dst 0 36) ++ u64Bytes mint.supply ++ [mint.decimals] ++
    [boolByte mint.isInitialized] ++ packCoptionKey mint.freezeAuthority (slice dst 46 36)

/-- The fields that were read. -/
theorem unpackFromSlice_eq_ok {src : List UInt8} {mint : Mint}
    (read : unpackFromSlice src = .ok mint) :
    unpackCoptionKey (slice src 0 36) = .ok mint.mintAuthority ∧
      mint.supply = u64OfBytes (slice src 36 8) ∧ mint.decimals = byteAt src 44 ∧
      byteAt src 45 = boolByte mint.isInitialized ∧
      unpackCoptionKey (slice src 46 36) = .ok mint.freezeAuthority := by
  simp only [unpackFromSlice, bind_eq_ok_iff, unpackBool_eq_ok_iff] at read
  obtain ⟨mintAuthority, authority, isInitialized, flag, freezeAuthority, freeze, same⟩ := read
  obtain rfl := Except.ok.inj same
  exact ⟨authority, rfl, rfl, flag, freeze⟩

/-- **A mint that was read is written back.** -/
theorem packIntoSlice_unpackFromSlice {src : List UInt8} {mint : Mint} (length : src.length = 82)
    (read : unpackFromSlice src = .ok mint) : mint.packIntoSlice src = src := by
  obtain ⟨authority, supply, decimals, flag, freeze⟩ := unpackFromSlice_eq_ok read
  unfold packIntoSlice
  rw [packCoptionKey_unpack (length_slice (by omega)) authority, supply,
    u64Bytes_u64OfBytes (length_slice (by omega)), decimals, ← flag,
    packCoptionKey_unpack (length_slice (by omega)) freeze, ← slice_one (by omega),
    ← slice_one (by omega), slice_append src 0 36 8, slice_append src 0 44 1,
    slice_append src 0 45 1, slice_append src 0 46 36, slice_self length]

end Mint

/-- `AccountState::try_from_primitive`, as `Account::unpack_from_slice` uses it. -/
def accountStateOfByte : UInt8 → ProgramResult AccountState
  | 0 => .ok .uninitialized
  | 1 => .ok .initialized
  | 2 => .ok .frozen
  | _ => .error .invalidAccountData

/-- `AccountState as u8`. -/
def accountStateByte : AccountState → UInt8
  | .uninitialized => 0
  | .initialized => 1
  | .frozen => 2

theorem accountStateOfByte_eq_ok_iff {byte : UInt8} {state : AccountState} :
    accountStateOfByte byte = .ok state ↔ byte = accountStateByte state := by
  constructor
  · intro read
    unfold accountStateOfByte at read
    split at read
    all_goals first | cases read; rfl | cases read
  · rintro rfl
    cases state <;> rfl

theorem accountStateByte_inj {state state' : AccountState} :
    accountStateByte state = accountStateByte state' ↔ state = state' := by
  refine ⟨fun same => ?_, congrArg accountStateByte⟩
  cases state <;> cases state' <;> first | rfl | cases same

/-- `state::Account`. -/
structure Account where
  mint : Address
  owner : Address
  amount : UInt64
  delegate : Option Address
  state : AccountState
  isNative : Option UInt64
  delegatedAmount : UInt64
  closeAuthority : Option Address
  deriving DecidableEq

namespace Account

/-- `Account::unpack_from_slice`. -/
def unpackFromSlice (src : List UInt8) : ProgramResult Account := do
  let delegate ← unpackCoptionKey (slice src 72 36)
  let state ← accountStateOfByte (byteAt src 108)
  let isNative ← unpackCoptionU64 (slice src 109 12)
  let closeAuthority ← unpackCoptionKey (slice src 129 36)
  .ok { mint := addressOfBytes (slice src 0 32)
        owner := addressOfBytes (slice src 32 32)
        amount := u64OfBytes (slice src 64 8)
        delegate
        state
        isNative
        delegatedAmount := u64OfBytes (slice src 121 8)
        closeAuthority }

/-- `Account::pack_into_slice`. -/
def packIntoSlice (account : Account) (dst : List UInt8) : List UInt8 :=
  addressBytes account.mint ++ addressBytes account.owner ++ u64Bytes account.amount ++
    packCoptionKey account.delegate (slice dst 72 36) ++ [accountStateByte account.state] ++
    packCoptionU64 account.isNative (slice dst 109 12) ++ u64Bytes account.delegatedAmount ++
    packCoptionKey account.closeAuthority (slice dst 129 36)

/-- The fields that were read. -/
theorem unpackFromSlice_eq_ok {src : List UInt8} {account : Account}
    (read : unpackFromSlice src = .ok account) :
    account.mint = addressOfBytes (slice src 0 32) ∧
      account.owner = addressOfBytes (slice src 32 32) ∧
      account.amount = u64OfBytes (slice src 64 8) ∧
      unpackCoptionKey (slice src 72 36) = .ok account.delegate ∧
      byteAt src 108 = accountStateByte account.state ∧
      unpackCoptionU64 (slice src 109 12) = .ok account.isNative ∧
      account.delegatedAmount = u64OfBytes (slice src 121 8) ∧
      unpackCoptionKey (slice src 129 36) = .ok account.closeAuthority := by
  simp only [unpackFromSlice, bind_eq_ok_iff, accountStateOfByte_eq_ok_iff] at read
  obtain ⟨_, delegate, _, state, _, native, _, close, same⟩ := read
  obtain rfl := Except.ok.inj same
  exact ⟨rfl, rfl, rfl, delegate, state, native, rfl, close⟩

/-- **An account that was read is written back.** -/
theorem packIntoSlice_unpackFromSlice {src : List UInt8} {account : Account}
    (length : src.length = 165) (read : unpackFromSlice src = .ok account) :
    account.packIntoSlice src = src := by
  obtain ⟨mint, owner, amount, delegate, state, native, delegated, close⟩ :=
    unpackFromSlice_eq_ok read
  unfold packIntoSlice
  rw [mint, addressBytes_addressOfBytes (length_slice (by omega)), owner,
    addressBytes_addressOfBytes (length_slice (by omega)), amount,
    u64Bytes_u64OfBytes (length_slice (by omega)),
    packCoptionKey_unpack (length_slice (by omega)) delegate, ← state, ← slice_one (by omega),
    packCoptionU64_unpack (length_slice (by omega)) native, delegated,
    u64Bytes_u64OfBytes (length_slice (by omega)),
    packCoptionKey_unpack (length_slice (by omega)) close, slice_append src 0 32 32,
    slice_append src 0 64 8, slice_append src 0 72 36, slice_append src 0 108 1,
    slice_append src 0 109 12, slice_append src 0 121 8, slice_append src 0 129 36,
    slice_self length]

end Account

/-- `state::Multisig`. -/
structure Multisig where
  m : UInt8
  n : UInt8
  isInitialized : Bool
  signers : List Address
  deriving DecidableEq

/-- `Multisig::unpack_from_slice`. -/
def Multisig.unpackFromSlice (src : List UInt8) : ProgramResult Multisig := do
  let isInitialized ← unpackBool (byteAt src 2)
  .ok { m := byteAt src 0
        n := byteAt src 1
        isInitialized
        signers := (List.range maxSigners).map fun i => addressOfBytes (slice src (3 + 32 * i) 32) }

namespace Multisig

/-- `Multisig::pack_into_slice`: every byte is written. -/
def packIntoSlice (multisig : Multisig) : List UInt8 :=
  [multisig.m] ++ [multisig.n] ++ [boolByte multisig.isInitialized] ++
    multisig.signers.flatMap addressBytes

/-- The keys take 32 bytes each. -/
theorem length_flatMap_addressBytes (keys : List Address) :
    (keys.flatMap addressBytes).length = 32 * keys.length := by
  induction keys with
  | nil => rfl
  | cons key keys ih =>
    rw [List.flatMap_cons, List.length_append, length_addressBytes, ih, List.length_cons]
    omega

/-- Keys that were read one after the other are written back. -/
theorem flatMap_slice {src : List UInt8} {offset : ℕ} (count : ℕ)
    (inside : offset + 32 * count ≤ src.length) :
    ((List.range count).map fun i => addressOfBytes (slice src (offset + 32 * i) 32)).flatMap
      addressBytes = slice src offset (32 * count) := by
  induction count with
  | zero => rw [List.range_zero, List.map_nil, List.flatMap_nil, slice, List.take_zero]
  | succ count ih =>
    rw [List.range_succ, List.map_append, List.flatMap_append, ih (by omega), List.map_singleton,
      List.flatMap_singleton, addressBytes_addressOfBytes (length_slice (by omega)),
      slice_append src offset]
    rfl

/-- Keys that were written are read, each at its place. -/
theorem addressOfBytes_slice (before : List UInt8) (keys : List Address) {i : ℕ}
    (inside : i < keys.length) :
    addressOfBytes (slice (before ++ keys.flatMap addressBytes) (before.length + 32 * i) 32) =
      keys[i] := by
  have split : before ++ keys.flatMap addressBytes =
      (before ++ (keys.take i).flatMap addressBytes) ++
        (addressBytes keys[i] ++ (keys.drop (i + 1)).flatMap addressBytes) := by
    conv_lhs => rw [← List.take_append_drop i keys, List.drop_eq_getElem_cons inside]
    rw [List.flatMap_append, List.flatMap_cons, List.append_assoc]
  have start : (before ++ (keys.take i).flatMap addressBytes).length = before.length + 32 * i := by
    rw [List.length_append, length_flatMap_addressBytes, List.length_take_of_le inside.le]
  rw [split, slice_middle _ _ _ start (length_addressBytes _), addressOfBytes_addressBytes]

/-- The fields that were read. -/
theorem unpackFromSlice_eq_ok {src : List UInt8} {multisig : Multisig}
    (read : unpackFromSlice src = .ok multisig) :
    multisig.m = byteAt src 0 ∧ multisig.n = byteAt src 1 ∧
      byteAt src 2 = boolByte multisig.isInitialized ∧
      multisig.signers =
        (List.range maxSigners).map fun i => addressOfBytes (slice src (3 + 32 * i) 32) := by
  simp only [unpackFromSlice, bind_eq_ok_iff, unpackBool_eq_ok_iff] at read
  obtain ⟨_, flag, same⟩ := read
  obtain rfl := Except.ok.inj same
  exact ⟨rfl, rfl, flag, rfl⟩

/-- **A multisig that was read is written back.** -/
theorem packIntoSlice_unpackFromSlice {src : List UInt8} {multisig : Multisig}
    (length : src.length = multisigLen) (read : unpackFromSlice src = .ok multisig) :
    multisig.packIntoSlice = src := by
  have long : src.length = 355 := length
  obtain ⟨m, n, flag, signers⟩ := unpackFromSlice_eq_ok read
  unfold packIntoSlice
  rw [m, n, ← flag, signers, flatMap_slice maxSigners (by rw [long, maxSigners]),
    ← slice_one (by omega), ← slice_one (by omega), ← slice_one (by omega),
    slice_append src 0 1 1, slice_append src 0 2 1, slice_append src 0 3]
  exact slice_self length

/-- **A multisig that was written is read back.** -/
theorem unpackFromSlice_packIntoSlice {multisig : Multisig}
    (full : multisig.signers.length = maxSigners) :
    unpackFromSlice multisig.packIntoSlice = .ok multisig := by
  have signers : ((List.range maxSigners).map fun i =>
      addressOfBytes (slice multisig.packIntoSlice (3 + 32 * i) 32)) = multisig.signers := by
    refine List.ext_getElem (by simp [full]) fun i _ inside => ?_
    rw [List.getElem_map, List.getElem_range]
    exact addressOfBytes_slice [multisig.m, multisig.n, boolByte multisig.isInitialized] _ inside
  have flag : unpackBool (byteAt multisig.packIntoSlice 2) = .ok multisig.isInitialized :=
    unpackBool_eq_ok_iff.mpr rfl
  rw [unpackFromSlice, flag, signers]
  rfl

end Multisig

/-! ### Pods -/

/-- `PodCOption`. -/
structure PodCOption (α : Type) where
  /-- The tag, of four bytes. -/
  option : List UInt8
  value : α
  deriving DecidableEq

namespace PodCOption

variable {α : Type}

/-- `is_some`. -/
def isSome (p : PodCOption α) : Bool := p.option = someTag

/-- `is_none`. -/
def isNone (p : PodCOption α) : Bool := p.option = noneTag

/-- **The Pod is the option**: a canonical tag, and the value where there is one. -/
def Agrees (p : PodCOption α) : Option α → Prop
  | some value => p.isSome = true ∧ p.value = value
  | none => p.isNone = true

/-- A Pod of the bytes that an option was read from. -/
theorem agrees {ofBytes : List UInt8 → α} {src : List UInt8} {value : Option α}
    (read : unpackCoption ofBytes src = .ok value) :
    Agrees ⟨src.take 4, ofBytes (src.drop 4)⟩ value := by
  rcases unpackCoption_eq_ok_iff.mp read with ⟨tag, rfl⟩ | ⟨tag, rfl⟩
  · exact decide_eq_true tag
  · exact ⟨decide_eq_true tag, rfl⟩

end PodCOption

/-- `PodMint`, with its numbers read. -/
structure PodMint where
  mintAuthority : PodCOption Address
  supply : UInt64
  decimals : UInt8
  isInitialized : UInt8
  freezeAuthority : PodCOption Address
  deriving DecidableEq

/-- A field of 36 bytes as a `PodCOption<Address>`. -/
def podCOptionKey (src : List UInt8) : PodCOption Address :=
  ⟨src.take 4, addressOfBytes (src.drop 4)⟩

/-- A field of 12 bytes as a `PodCOption<U64>`. -/
def podCOptionU64 (src : List UInt8) : PodCOption UInt64 := ⟨src.take 4, u64OfBytes (src.drop 4)⟩

namespace PodMint

/-- `try_from_bytes::<PodMint>`, of 82 bytes. -/
def ofBytes (src : List UInt8) : PodMint where
  mintAuthority := podCOptionKey (slice src 0 36)
  supply := u64OfBytes (slice src 36 8)
  decimals := byteAt src 44
  isInitialized := byteAt src 45
  freezeAuthority := podCOptionKey (slice src 46 36)

/-- The fields of the Pod are those of the mint. -/
structure Agrees (crates : Crates) (pod : PodMint) (mint : Mint) : Prop where
  mintAuthority : pod.mintAuthority.Agrees mint.mintAuthority
  supply : pod.supply = mint.supply
  decimals : pod.decimals = mint.decimals
  isInitialized : crates.bool pod.isInitialized = mint.isInitialized
  freezeAuthority : pod.freezeAuthority.Agrees mint.freezeAuthority

end PodMint

theorem Crates.bool_boolByte (crates : Crates) (b : Bool) : crates.bool (boolByte b) = b := by
  cases b with
  | false => exact crates.bool_zero
  | true => exact crates.bool_one

/-- **The Pod of the bytes that a mint was read from.** -/
theorem PodMint.agrees (crates : Crates) {src : List UInt8} {mint : Mint}
    (read : Mint.unpackFromSlice src = .ok mint) : (PodMint.ofBytes src).Agrees crates mint := by
  obtain ⟨authority, supply, decimals, flag, freeze⟩ := Mint.unpackFromSlice_eq_ok read
  refine ⟨PodCOption.agrees authority, supply.symm, decimals.symm, ?_, PodCOption.agrees freeze⟩
  show crates.bool (byteAt src 45) = _
  rw [flag, crates.bool_boolByte]

/-- `PodAccount`, with its numbers read. -/
structure PodAccount where
  mint : Address
  owner : Address
  amount : UInt64
  delegate : PodCOption Address
  state : UInt8
  isNative : PodCOption UInt64
  delegatedAmount : UInt64
  closeAuthority : PodCOption Address
  deriving DecidableEq

namespace PodAccount

/-- `try_from_bytes::<PodAccount>`, of 165 bytes. -/
def ofBytes (src : List UInt8) : PodAccount where
  mint := addressOfBytes (slice src 0 32)
  owner := addressOfBytes (slice src 32 32)
  amount := u64OfBytes (slice src 64 8)
  delegate := podCOptionKey (slice src 72 36)
  state := byteAt src 108
  isNative := podCOptionU64 (slice src 109 12)
  delegatedAmount := u64OfBytes (slice src 121 8)
  closeAuthority := podCOptionKey (slice src 129 36)

/-- `PodAccount::is_initialized`. -/
def isInitialized (account : PodAccount) : Bool :=
  account.state = accountStateByte .initialized || account.state = accountStateByte .frozen

/-- The fields of the Pod are those of the account. -/
structure Agrees (pod : PodAccount) (account : Account) : Prop where
  mint : pod.mint = account.mint
  owner : pod.owner = account.owner
  amount : pod.amount = account.amount
  delegate : pod.delegate.Agrees account.delegate
  state : pod.state = accountStateByte account.state
  isNative : pod.isNative.Agrees account.isNative
  delegatedAmount : pod.delegatedAmount = account.delegatedAmount
  closeAuthority : pod.closeAuthority.Agrees account.closeAuthority

/-- **The Pod of the bytes that an account was read from.** -/
theorem agrees {src : List UInt8} {account : Account}
    (read : Account.unpackFromSlice src = .ok account) : (ofBytes src).Agrees account := by
  obtain ⟨mint, owner, amount, delegate, state, native, delegated, close⟩ :=
    Account.unpackFromSlice_eq_ok read
  exact ⟨mint.symm, owner.symm, amount.symm, PodCOption.agrees delegate, state,
    PodCOption.agrees native, delegated.symm, PodCOption.agrees close⟩

end PodAccount

/-- `PodMultisig`. -/
structure PodMultisig where
  m : UInt8
  n : UInt8
  isInitialized : UInt8
  signers : List Address
  deriving DecidableEq

/-- `try_from_bytes::<PodMultisig>`, of 355 bytes. -/
def PodMultisig.ofBytes (src : List UInt8) : PodMultisig where
  m := byteAt src 0
  n := byteAt src 1
  isInitialized := byteAt src 2
  signers := (List.range maxSigners).map fun i => addressOfBytes (slice src (3 + 32 * i) 32)

end Token2022.Interface
