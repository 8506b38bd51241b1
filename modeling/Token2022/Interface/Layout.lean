/-
**States as the bytes of an account.**

A bare mint is its base alone. Behind the base of an extended one stand zeroes up to the length of a
token account, the account type, the entries of its extensions, and zeroes to the end of the data.

* `ValueBytes` — how the values of extensions are written, of which only the lengths count.
* `rowBytes`, `tlvData`, `mintData`, `accountData` — the bytes of entries, of a buffer, of a mint and
  of a token account.
* **`getTlvDataInfo_tlvData`** — the walk over a buffer's bytes finds its entries.
* **`unpack_mintData`** — the bytes of a mint are read as a mint, with those of its extensions.
* **`unpack_accountData`** — and those of a token account, through `Pack`.
-/

import Token2022.Interface.Exclusion
import Token2022.Interface.TlvRow

namespace Token2022.Interface

open Bytes Fallible

/-! ### Entries -/

/-- **How the values of extensions are written**: each takes the bytes of its length. -/
structure ValueBytes where
  write : (t : ExtensionType) → Extension t → List UInt8
  length_write : ∀ t v, (write t v).length = valueLen t v

/-- Values of zeroes. -/
def ValueBytes.zeroed : ValueBytes where
  write t v := List.replicate (valueLen t v) 0
  length_write _ _ := List.length_replicate ..

/-- An entry: two bytes of type, two of length, and the value. -/
def entryBytes (values : ValueBytes) (e : Entry) : List UInt8 :=
  u16Bytes (extensionTypeCode e.1) ++
    (u16Bytes (.ofNat (valueLen e.1 e.2)) ++ values.write e.1 e.2)

/-- Entries, one behind the other. -/
def rowBytes (values : ValueBytes) (entries : List Entry) : List UInt8 :=
  entries.flatMap (entryBytes values)

/-- The entries that a row of bytes can hold: none says that the row ends, and the length of each
fits its two bytes. -/
def Storable (entries : List Entry) : Prop :=
  ∀ e ∈ entries, e.1 ≠ .uninitialized ∧ valueLen e.1 e.2 < 2 ^ 16

/-- The entries, with their values as bytes. -/
def rawEntries (values : ValueBytes) (entries : List Entry) : List RawEntry :=
  entries.map fun e => ⟨e.1, values.write e.1 e.2⟩

section Rows

variable (values : ValueBytes)

theorem rowBytes_eq (entries : List Entry) :
    rowBytes values entries = rawRowBytes (rawEntries values entries) := by
  unfold rowBytes rawRowBytes rawEntries
  rw [List.flatMap_map]
  refine congrArg (fun bytes => entries.flatMap bytes) (funext fun e => ?_)
  rw [entryBytes, rawEntryBytes, values.length_write]

theorem keys_rawEntries (entries : List Entry) : (rawEntries values entries).keys = entries.keys :=
  List.map_map

theorem Storable.readable {entries : List Entry} (storable : Storable entries) :
    Readable (rawEntries values entries) := by
  intro raw member
  obtain ⟨e, inside, rfl⟩ := List.mem_map.mp member
  obtain ⟨named, short⟩ := storable e inside
  exact ⟨named, (values.length_write e.1 e.2).trans_lt short⟩

theorem length_rowBytes (entries : List Entry) :
    (rowBytes values entries).length = Buffer.usedLen entries := by
  rw [rowBytes_eq, length_rawRowBytes, rawEntries, List.map_map, Buffer.usedLen]
  refine congrArg List.sum (List.map_congr_left fun e _ => ?_)
  simp only [Function.comp, values.length_write, ExtensionType.addTypeAndLengthToLen]
  omega

end Rows

/-! ### Buffers -/

/-- The bytes for extensions of a buffer: its entries, and zeroes. -/
def tlvData (values : ValueBytes) (b : Buffer) : List UInt8 :=
  rowBytes values b.entries ++ List.replicate (b.tlvLen - Buffer.usedLen b.entries) 0

/-- **The walk over the bytes of a buffer finds its entries.** -/
theorem getTlvDataInfo_tlvData (values : ValueBytes) {b : Buffer} (storable : Storable b.entries) :
    getTlvDataInfo (tlvData values b) = .ok ⟨b.extensionTypes, Buffer.usedLen b.entries⟩ := by
  refine getTlvDataInfo_eq_ok_iff.mpr ⟨rawEntries values b.entries, _, storable.readable values,
    stops_zeroes (b.tlvLen - Buffer.usedLen b.entries), ?_, ?_⟩
  · rw [tlvData, rowBytes_eq]
  · rw [keys_rawEntries, ← rowBytes_eq, length_rowBytes]
    rfl

/-! ### Mints -/

/-- A `PodCOption<Address>`. -/
def podCOptionKeyBytes : Option Address → List UInt8
  | some key => someTag ++ addressBytes key
  | none => noneTag ++ List.replicate 32 0

/-- The bytes of an initialized `PodMint`. -/
def podMintBytes (mint : Token2022.PodMint) : List UInt8 :=
  podCOptionKeyBytes mint.mintAuthority ++ (u64Bytes (.ofNat mint.supply) ++
    ([.ofNat mint.decimals, 1] ++ podCOptionKeyBytes mint.freezeAuthority))

/-- The bytes of a mint. -/
def mintData (values : ValueBytes) (mint : MintState) : List UInt8 :=
  if mint.tlv.len = AccountType.mint.baseLen then podMintBytes mint.base
  else podMintBytes mint.base ++
    (List.replicate (baseAccountLength - AccountType.mint.baseLen) 0 ++
      (accountTypeByte .mint :: tlvData values mint.tlv.toBuffer))

@[simp] theorem length_podCOptionKeyBytes (key : Option Address) :
    (podCOptionKeyBytes key).length = 36 := by
  cases key <;> simp [podCOptionKeyBytes, someTag, noneTag]

@[simp] theorem length_podMintBytes (mint : Token2022.PodMint) :
    (podMintBytes mint).length = AccountType.mint.baseLen := by
  simp [podMintBytes, AccountType.baseLen]

/-- The base of a mint says that it is initialized. -/
theorem isInitialized_podMintBytes (mint : Token2022.PodMint) :
    (PodMint.ofBytes (podMintBytes mint)).isInitialized = 1 := by
  have bytes : podMintBytes mint = (podCOptionKeyBytes mint.mintAuthority ++
      u64Bytes (.ofNat mint.supply) ++ [.ofNat mint.decimals]) ++
        1 :: podCOptionKeyBytes mint.freezeAuthority := by
    simp [podMintBytes]
  show byteAt (podMintBytes mint) 45 = 1
  rw [bytes]
  exact byteAt_middle _ _ _ (by simp)

/-- The bytes of a buffer take all that is left for them. -/
theorem length_tlvData {values : ValueBytes} {b : Buffer}
    (fits : Buffer.usedLen b.entries ≤ b.tlvLen) : (tlvData values b).length = b.tlvLen := by
  rw [tlvData, List.length_append, length_rowBytes, List.length_replicate]
  omega

theorem length_mintData {values : ValueBytes} {mint : MintState}
    (fits : Buffer.usedLen mint.tlv.entries ≤ mint.tlv.tlvLen) :
    (mintData values mint).length = mint.tlv.len := by
  have shape := mint.tlv.valid.2
  unfold mintData
  by_cases bare : mint.tlv.len = AccountType.mint.baseLen
  · rw [if_pos bare, length_podMintBytes, bare]
  · have long := shape.resolve_left bare
    rw [if_neg bare, List.length_append, List.length_append, List.length_cons, length_tlvData fits,
      length_podMintBytes, List.length_replicate]
    simp only [Buffer.tlvLen, baseAccountAndTypeLength, baseAccountLength, AccountType.baseLen]
      at long ⊢
    omega

/-- Behind the base of an extended mint stands its account type. -/
theorem accountType_mintData {values : ValueBytes} {mint : MintState}
    (extended : mint.tlv.len ≠ AccountType.mint.baseLen) :
    byteAt (mintData values mint) baseAccountLength = accountTypeByte .mint := by
  have front : (podMintBytes mint.base ++
      List.replicate (baseAccountLength - AccountType.mint.baseLen) 0).length =
        baseAccountLength := by
    simp [AccountType.baseLen, baseAccountLength]
  rw [mintData, if_neg extended, ← List.append_assoc]
  exact byteAt_middle _ _ _ front

/-- **The bytes of a mint are read as a mint**, with the bytes of its extensions. -/
theorem unpack_mintData (crates : Crates) (values : ValueBytes) {mint : MintState}
    (fits : Buffer.usedLen mint.tlv.entries ≤ mint.tlv.tlvLen) :
    PodStateWithExtensions.unpack (podMint crates) (mintData values mint) = .ok
      { base := PodMint.ofBytes (podMintBytes mint.base)
        tlvData := if mint.tlv.len = AccountType.mint.baseLen then []
          else tlvData values mint.tlv.toBuffer } := by
  have base : (mintData values mint).take AccountType.mint.baseLen = podMintBytes mint.base := by
    unfold mintData
    split
    · rw [List.take_of_length_le (length_podMintBytes _).le]
    · exact List.take_left' (length_podMintBytes _)
  have long : AccountType.mint.baseLen ≤ (mintData values mint).length := by
    have length := congrArg List.length base
    rw [List.length_take, length_podMintBytes] at length
    omega
  have initialized : crates.bool (PodMint.ofBytes (podMintBytes mint.base)).isInitialized = true := by
    rw [isInitialized_podMintBytes, crates.bool_one]
  refine PodStateWithExtensions.unpack_eq_ok_iff.mpr
    ⟨⟨length_mintData fits ▸ mint.tlv.valid.1, long⟩,
      ⟨congrArg PodMint.ofBytes base, initialized⟩, unpackTlvData_eq_ok_iff.mpr ?_⟩
  show _ ∨ _
  unfold mintData
  by_cases bare : mint.tlv.len = AccountType.mint.baseLen
  · left
    simp only [if_pos bare]
    exact ⟨List.drop_of_length_le (length_podMintBytes _).le, trivial⟩
  · right
    have padding : (List.replicate (baseAccountLength - AccountType.mint.baseLen) (0 : UInt8)).length
        = baseAccountLength - AccountType.mint.baseLen := List.length_replicate ..
    simp only [if_neg bare, podMint]
    rw [List.drop_left' (length_podMintBytes _)]
    refine ⟨by simp, ?_, ?_, ?_, ?_⟩
    · simp
    · rw [List.take_left' padding]
      exact fun b member => List.eq_of_mem_replicate member
    · exact byteAt_middle _ _ _ padding
    · rw [List.drop_append, padding]
      simp

/-! ### Accounts -/

/-- A `PodCOption<u64>`. -/
def podCOptionU64Bytes : Option ℕ → List UInt8
  | some n => someTag ++ u64Bytes (.ofNat n)
  | none => noneTag ++ List.replicate 8 0

/-- The bytes of an initialized `PodAccount`. -/
def podAccountBytes (account : Token2022.PodAccount) : List UInt8 :=
  addressBytes account.mint ++ (addressBytes account.owner ++ (u64Bytes (.ofNat account.amount) ++
    (podCOptionKeyBytes account.delegate ++ (accountStateByte account.state ::
      (podCOptionU64Bytes account.isNative ++ (u64Bytes (.ofNat account.delegatedAmount) ++
        podCOptionKeyBytes account.closeAuthority))))))

/-- The bytes of a token account. -/
def accountData (values : ValueBytes) (st : TokenAccountState) : List UInt8 :=
  if st.tlv.len = AccountType.account.baseLen then podAccountBytes st.base
  else podAccountBytes st.base ++ accountTypeByte .account :: tlvData values st.tlv.toBuffer

/-- The account that `Pack` reads from them. -/
def packedAccount (account : Token2022.PodAccount) : Account where
  mint := account.mint
  owner := account.owner
  amount := .ofNat account.amount
  delegate := account.delegate
  state := account.state
  isNative := account.isNative.map .ofNat
  delegatedAmount := .ofNat account.delegatedAmount
  closeAuthority := account.closeAuthority

section Accounts

@[simp] theorem length_podCOptionU64Bytes (n : Option ℕ) : (podCOptionU64Bytes n).length = 12 := by
  cases n <;> simp [podCOptionU64Bytes, someTag, noneTag]

@[simp] theorem length_podAccountBytes (account : Token2022.PodAccount) :
    (podAccountBytes account).length = AccountType.account.baseLen := by
  simp [podAccountBytes, AccountType.baseLen]

/-- What stands in front of a field is skipped. -/
theorem slice_append_of_le {before rest : List UInt8} {offset len : ℕ}
    (inside : before.length ≤ offset) :
    slice (before ++ rest) offset len = slice rest (offset - before.length) len := by
  rw [slice, slice, List.drop_append, List.drop_of_length_le inside, List.nil_append]

theorem slice_cons_of_pos {byte : UInt8} {rest : List UInt8} {offset len : ℕ}
    (inside : 0 < offset) : slice (byte :: rest) offset len = slice rest (offset - 1) len := by
  show slice ([byte] ++ rest) offset len = _
  exact slice_append_of_le inside

/-- The field that stands first. -/
theorem slice_append_zero {field rest : List UInt8} {len : ℕ} (length : field.length = len) :
    slice (field ++ rest) 0 len = field := slice_middle [] field rest rfl length

/-- **The fields of an account**, where `Pack` looks for them. -/
theorem slices_podAccountBytes (account : Token2022.PodAccount) :
    (slice (podAccountBytes account) 0 32 = addressBytes account.mint ∧
      slice (podAccountBytes account) 32 32 = addressBytes account.owner ∧
      slice (podAccountBytes account) 64 8 = u64Bytes (.ofNat account.amount) ∧
      slice (podAccountBytes account) 72 36 = podCOptionKeyBytes account.delegate) ∧
    byteAt (podAccountBytes account) 108 = accountStateByte account.state ∧
    slice (podAccountBytes account) 109 12 = podCOptionU64Bytes account.isNative ∧
    slice (podAccountBytes account) 121 8 = u64Bytes (.ofNat account.delegatedAmount) ∧
    slice (podAccountBytes account) 129 36 = podCOptionKeyBytes account.closeAuthority := by
  have state : byteAt (podAccountBytes account) 108 = accountStateByte account.state := by
    have bytes : podAccountBytes account = (addressBytes account.mint ++ addressBytes account.owner ++
        u64Bytes (.ofNat account.amount) ++ podCOptionKeyBytes account.delegate) ++
          accountStateByte account.state :: (podCOptionU64Bytes account.isNative ++
            (u64Bytes (.ofNat account.delegatedAmount) ++
              podCOptionKeyBytes account.closeAuthority)) := by
      simp [podAccountBytes]
    rw [bytes]
    exact byteAt_middle _ _ _ (by simp)
  refine ⟨⟨?_, ?_, ?_, ?_⟩, state, ?_, ?_, ?_⟩ <;>
    simp [podAccountBytes, slice_append_of_le, slice_cons_of_pos, slice_append_zero, slice_self]

theorem unpackCoptionKey_podCOptionKeyBytes (key : Option Address) :
    unpackCoptionKey (podCOptionKeyBytes key) = .ok key := by
  refine unpackCoption_eq_ok_iff.mpr ?_
  cases key with
  | none => exact .inl ⟨rfl, rfl⟩
  | some key => exact .inr ⟨rfl, congrArg some (addressOfBytes_addressBytes key).symm⟩

theorem unpackCoptionU64_podCOptionU64Bytes (n : Option ℕ) :
    unpackCoptionU64 (podCOptionU64Bytes n) = .ok (n.map .ofNat) := by
  refine unpackCoption_eq_ok_iff.mpr ?_
  cases n with
  | none => exact .inl ⟨rfl, rfl⟩
  | some n => exact .inr ⟨rfl, congrArg some (u64OfBytes_u64Bytes (.ofNat n)).symm⟩

/-- **`Pack` reads the account.** -/
theorem unpackFromSlice_podAccountBytes (account : Token2022.PodAccount) :
    Account.unpackFromSlice (podAccountBytes account) = .ok (packedAccount account) := by
  obtain ⟨⟨mint, owner, amount, delegate⟩, state, native, delegated, close⟩ :=
    slices_podAccountBytes account
  unfold Account.unpackFromSlice
  rw [mint, owner, amount, delegate, state, native, delegated, close,
    unpackCoptionKey_podCOptionKeyBytes, unpackCoptionU64_podCOptionU64Bytes,
    unpackCoptionKey_podCOptionKeyBytes, accountStateOfByte_eq_ok_iff.mpr rfl,
    addressOfBytes_addressBytes, addressOfBytes_addressBytes, u64OfBytes_u64Bytes,
    u64OfBytes_u64Bytes]
  rfl

theorem packCoptionKey_podCOptionKeyBytes (key : Option Address) :
    packCoptionKey key (podCOptionKeyBytes key) = podCOptionKeyBytes key := by
  cases key <;> rfl

/-- **Packing the account with another reserve** changes the bytes of the reserve alone. -/
theorem packIntoSlice_podAccountBytes (account : Token2022.PodAccount) (reserve : ℕ) :
    { packedAccount account with isNative := some (.ofNat reserve) }.packIntoSlice
      (podAccountBytes account) = podAccountBytes { account with isNative := some reserve } := by
  obtain ⟨⟨-, -, -, delegate⟩, -, -, -, close⟩ := slices_podAccountBytes account
  unfold Account.packIntoSlice
  rw [delegate, close]
  simp only [packedAccount, packCoptionKey_podCOptionKeyBytes, podAccountBytes, podCOptionU64Bytes,
    packCoptionU64, packCoption, List.append_assoc, List.cons_append, List.nil_append]

/-! #### With their extensions -/

/-- Behind a bare account there is nothing. -/
theorem tlvData_eq_nil {values : ValueBytes} {b : Buffer}
    (fits : Buffer.usedLen b.entries ≤ b.tlvLen) (bare : b.tlvLen = 0) : tlvData values b = [] :=
  List.length_eq_zero_iff.mp ((length_tlvData fits).trans bare)

/-- The bytes of an account, with the account type where it is extended. -/
theorem length_accountData {values : ValueBytes} {st : TokenAccountState}
    (fits : Buffer.usedLen st.tlv.entries ≤ st.tlv.tlvLen) :
    (accountData values st).length = st.tlv.len := by
  unfold accountData
  by_cases bare : st.tlv.len = AccountType.account.baseLen
  · rw [if_pos bare, length_podAccountBytes, bare]
  · have long := st.tlv.valid.2.resolve_left bare
    rw [if_neg bare, List.length_append, List.length_cons, length_tlvData fits,
      length_podAccountBytes]
    simp only [Buffer.tlvLen, baseAccountAndTypeLength, AccountType.baseLen] at long ⊢
    omega

/-- **The bytes of an account are read as an account**, with those of its extensions. -/
theorem unpack_accountData (crates : Crates) (values : ValueBytes) {st : TokenAccountState}
    (fits : Buffer.usedLen st.tlv.entries ≤ st.tlv.tlvLen) :
    StateWithExtensions.unpack crates packAccount (accountData values st) =
      .ok ⟨packedAccount st.base, tlvData values st.tlv.toBuffer⟩ := by
  have base : (accountData values st).take AccountType.account.baseLen = podAccountBytes st.base := by
    unfold accountData
    split
    · rw [List.take_of_length_le (length_podAccountBytes _).le]
    · exact List.take_left' (length_podAccountBytes _)
  have long : AccountType.account.baseLen ≤ (accountData values st).length := by
    have length := congrArg List.length base
    rw [List.length_take, length_podAccountBytes] at length
    omega
  refine StateWithExtensions.unpack_eq_ok_iff.mpr
    ⟨⟨length_accountData fits ▸ st.tlv.valid.1, long⟩, ⟨?_, ?_⟩, ?_⟩
  · exact (congrArg Account.unpackFromSlice base).trans (unpackFromSlice_podAccountBytes st.base)
  · exact decide_eq_true st.base.initialized
  · refine unpackTlvData_eq_ok_iff.mpr ?_
    show ((accountData values st).drop AccountType.account.baseLen = [] ∧ _) ∨ _
    unfold accountData
    by_cases bare : st.tlv.len = AccountType.account.baseLen
    · left
      have none : st.tlv.tlvLen = 0 := by rw [Buffer.tlvLen, bare]; rfl
      rw [if_pos bare]
      exact ⟨List.drop_of_length_le (length_podAccountBytes _).le, tlvData_eq_nil fits none⟩
    · right
      have rest : (podAccountBytes st.base ++ accountTypeByte .account ::
          tlvData values st.tlv.toBuffer).drop packAccount.kind.baseLen =
            accountTypeByte .account :: tlvData values st.tlv.toBuffer :=
        List.drop_left' (length_podAccountBytes _)
      rw [if_neg bare, rest]
      exact ⟨List.cons_ne_nil _ _, Nat.succ_le_succ (Nat.zero_le _),
        fun byte member => absurd member List.not_mem_nil, rfl, rfl⟩

end Accounts

end Token2022.Interface
