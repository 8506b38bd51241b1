/-
**The writers on the bytes of the program's data.**

An account is prepared by entries behind a base of zeroes, opened by the fields of its base and the
account type, and written to from then on: the base in place, the values of extensions in place, and new
entries behind the others.

* `getExtensionBytesMut`, `initAccountExtensionFromType`, `initAccountType` — what the writers of a
  state go through.
* `stageExtension`, `initializeMint`, `initializeAccount`, `initializeMultisig` — the writers in front of
  and at an initialization.
* `assignBase`, `assignExtension`, `addExtension` — the writers to an initialized state.
* **`getExtensionBytesMut_of_find`**, **`tlvData_of_writes`** — where a value stands, and what is left
  when one is written.
-/

import Token2022.Interface.Store

namespace Token2022.Interface

open Bytes Fallible KeyedList SliceProgram

/-! ### On the bytes of extensions -/

/-- `get_extension_bytes_mut`: where the value of the extension stands. -/
def getExtensionBytesMut (kind : AccountType) (t : ExtensionType) : TlvProgram (ℕ × ℕ) := do
  check (t.getAccountType = kind) .invalidAccountData
  let indices ← reading fun tlvData => indexedExtensionIndices tlvData t false
  let lengthBytes ← read indices.lengthStart indices.valueStart
  let length := (u16OfBytes lengthBytes).toNat
  let dataLen ← len
  check (indices.valueStart + length ≤ dataLen) .invalidAccountData
  range indices.valueStart (indices.valueStart + length)

/-- `get_extension_mut`, and an assignment to what it finds. -/
def assignValue (kind : AccountType) (t : ExtensionType) (value : List UInt8) : TlvProgram Unit := do
  let extension ← getExtensionBytesMut kind t
  within extension fun _ => (.ok (), value)

/-- `init_extension`, and an assignment to what it finds. -/
def initValue (kind : AccountType) (t : ExtensionType) (default value : List UInt8)
    (overwrite : Bool) : TlvProgram Unit := do
  let extension ← initExtension kind t default overwrite
  within extension fun _ => (.ok (), value)

/-- `init_account_extension_from_type`. The types that it does not expect are not asked for. -/
def initAccountExtensionFromType (values : ValueBytes) (t : ExtensionType) : TlvProgram Unit :=
  match TlvData.initialValue? t with
  | some v => do
    let _ ← initExtension .account t (values.write t v) true
    pure ()
  | none => pure ()

/-! ### On the bytes of an account -/

/-- Run on the bytes of the extensions, which the reader finds. -/
def onExtensions (unpack : List UInt8 → ProgramResult ℕ) (program : TlvProgram Unit) :
    DataProgram Unit := do
  let start ← reading fun data => .of (unpack data)
  behind start program

/-- `init_account_type`, where the extensions start at `start`. -/
def initAccountType (kind : AccountType) (start : ℕ) : DataProgram Unit := do
  let firstExtensionType ← reading fun data => .of (getFirstExtensionType (data.drop start))
  let dataLen ← len
  -- The slice of the account type is empty where there is nothing behind the base.
  onlyIf (kind.baseLen < dataLen) do
    check (∀ t ∈ firstExtensionType, t.getAccountType = kind) TokenError.extensionBaseMismatch
    write (start - 1) [accountTypeByte kind]

section Writers

variable (crates : Crates) (values : ValueBytes)

/-- How the instructions that prepare an account write an extension. -/
def stageExtension {S : Type} (B : PodBase S) (t : ExtensionType) (default value : List UInt8) :
    DataProgram Unit :=
  onExtensions (PodStateWithExtensionsMut.unpackUninitialized B) (initValue B.kind t default value true)

/-- What `_process_initialize_mint` writes. -/
def initializeMint (mint : Token2022.PodMint) : DataProgram Unit := do
  let start ← reading fun data => .of
    (PodStateWithExtensionsMut.unpackUninitialized (podMint crates) data)
  write 0 (podCOptionKeyBytes mint.mintAuthority)
  write 44 [.ofNat mint.decimals]
  write 45 [1]
  write 46 (podCOptionKeyBytes mint.freezeAuthority)
  initAccountType .mint start

/-- What `_process_initialize_account` writes, of an account that starts with the extensions. -/
def initializeAccount (extensionTypes : List ExtensionType) (account : Token2022.PodAccount) :
    DataProgram Unit := do
  let start ← reading fun data => .of
    (PodStateWithExtensionsMut.unpackUninitialized podAccount data)
  extensionTypes.forM fun t => behind start (initAccountExtensionFromType values t)
  write 0 (addressBytes account.mint)
  write 32 (addressBytes account.owner)
  write 129 (podCOptionKeyBytes account.closeAuthority)
  write 72 (podCOptionKeyBytes account.delegate)
  write 121 (u64Bytes (.ofNat account.delegatedAmount))
  write 108 [accountStateByte account.state]
  write 109 (podCOptionU64Bytes account.isNative)
  write 64 (u64Bytes (.ofNat account.amount))
  initAccountType .account start

/-- The keys of a multisig, from the one at `position` on. -/
def writeSigners (position : ℕ) : List Address → DataProgram Unit
  | [] => pure ()
  | key :: keys => do
    write (3 + 32 * position) (addressBytes key)
    writeSigners (position + 1) keys

/-- What `_process_initialize_multisig` writes. -/
def initializeMultisig (m : UInt8) (signers : List Address) : DataProgram Unit := do
  let dataLen ← len
  check (dataLen = multisigLen) .invalidArgument
  let initialized ← reading fun data => .of (.ok (crates.bool (byteAt data 2)))
  check (initialized = false) TokenError.alreadyInUse
  write 0 [m]
  write 1 [.ofNat signers.length]
  check (isValidSignerIndex (UInt8.ofNat signers.length).toNat)
    TokenError.invalidNumberOfProvidedSigners
  check (isValidSignerIndex m.toNat) TokenError.invalidNumberOfRequiredSigners
  writeSigners 0 signers
  write 2 [1]

/-- The assignments of an instruction to the fields of an initialized base, together. -/
def assignBase {S : Type} (B : PodBase S) (base : List UInt8) : DataProgram Unit := do
  let _ ← reading fun data => .of (PodStateWithExtensionsMut.unpack B data)
  write 0 base

/-- The assignments of an instruction to an extension of an initialized state, together. -/
def assignExtension {S : Type} (B : PodBase S) (t : ExtensionType) (value : List UInt8) :
    DataProgram Unit :=
  onExtensions (PodStateWithExtensionsMut.unpack B) (assignValue B.kind t value)

/-- A new extension of an initialized state. -/
def addExtension {S : Type} (B : PodBase S) (t : ExtensionType) (default value : List UInt8)
    (overwrite : Bool) : DataProgram Unit :=
  onExtensions (PodStateWithExtensionsMut.unpack B) (initValue B.kind t default value overwrite)

end Writers

/-! ### A value that is there -/

/-- **`get_extension_bytes_mut` finds a slot** where there is a value. -/
theorem getExtensionBytesMut_of_find (b : TlvBuffer) {t : ExtensionType} (named : t ≠ .uninitialized)
    {held : List UInt8} (found : find t b.row = some held) :
    ∃ bounds, getExtensionBytesMut t.getAccountType t b.bytes = some (.ok bounds, b.bytes) ∧
      Slot b t held.length b.bytes bounds := by
  have member : t ∈ b.row.keys := find_isSome_iff.mp (Option.isSome_of_eq_some found)
  obtain ⟨front, held', back, split, absent⟩ := exists_split member
  rw [split, find_split absent] at found
  obtain rfl := Option.some.inj found
  have short : held'.length < 2 ^ 16 := (b.readable ⟨t, held'⟩ (by simp [split])).2
  have slot := slot_present named split absent short b.room rfl
  rw [← split] at slot
  refine ⟨_, ?_, slot⟩
  have shape : b.bytes = rawRowBytes front ++
      (headerBytes t held'.length ++ (held' ++ (rawRowBytes back ++ List.replicate b.room 0))) := by
    rw [TlvBuffer.bytes, split, rawRowBytes_split]
  have readable : Readable front := fun e there =>
    b.readable e (by rw [split]; exact List.mem_append_left _ there)
  have lookup : indexedExtensionIndices b.bytes t false =
      .of (.ok (getTlvIndices (rawRowBytes front).length)) := by
    have place := getExtensionIndices_found false readable absent held'
      (rawRowBytes back ++ List.replicate b.room 0)
    rw [rawEntryBytes_eq, List.append_assoc, ← shape] at place
    rw [indexedExtensionIndices_eq, place]
  have length := read_length (rawRowBytes front) t held'.length
    (held' ++ (rawRowBytes back ++ List.replicate b.room 0))
  rw [← shape] at length
  have count : (u16OfBytes (u16Bytes (.ofNat held'.length))).toNat = held'.length := by
    rw [u16OfBytes_u16Bytes, UInt16.toNat_ofNat', Nat.mod_eq_of_lt short]
  have bound : (getTlvIndices (rawRowBytes front).length).valueStart + held'.length ≤
      b.bytes.length := by
    rw [shape]
    simp only [getTlvIndices, List.length_append, length_headerBytes]
    omega
  unfold getExtensionBytesMut
  rw [bind_of_ok (check_pos rfl _), bind_of_ok (reading_of lookup), bind_of_ok length]
  rw [count, bind_of_ok (m := len) rfl, bind_of_ok (check_pos bound _)]
  exact range_eq (Nat.le_add_right ..) bound

/-! ### The bytes of a buffer are canonical -/

section Canonical

/-- Entries with a value written, as bytes. -/
theorem rawEntries_put (values : ValueBytes) (t : ExtensionType) (v : Extension t)
    (entries : List Entry) : rawEntries values (put t v entries) =
      put t (values.write t v) (rawEntries values entries) := by
  by_cases member : t ∈ entries.keys
  · obtain ⟨front, held, back, rfl, absent⟩ := exists_split member
    have absent' : t ∉ (rawEntries values front).keys := by rwa [keys_rawEntries]
    rw [put_split absent]
    simp only [rawEntries, List.map_append, List.map_cons] at absent' ⊢
    rw [put_split absent']
  · have absent' : t ∉ (rawEntries values entries).keys := by rwa [keys_rawEntries]
    rw [put_of_not_mem member, put_of_not_mem absent']
    simp only [rawEntries, List.map_append, List.map_cons, List.map_nil]

variable {values : ValueBytes} {b : Buffer} {t : ExtensionType}

/-- The bytes of a buffer, as a canonical one. -/
def canonicalBuffer (values : ValueBytes) (b : Buffer) (storable : Storable b.entries)
    (distinct : b.extensionTypes.Nodup) : TlvBuffer where
  row := rawEntries values b.entries
  room := b.tlvLen - Buffer.usedLen b.entries
  readable := storable.readable values
  distinct := (keys_rawEntries values b.entries).symm ▸ distinct

variable {storable : Storable b.entries} {distinct : b.extensionTypes.Nodup}

theorem bytes_canonicalBuffer :
    (canonicalBuffer values b storable distinct).bytes = tlvData values b := by
  rw [tlvData, rowBytes_eq]
  rfl

/-- A canonical buffer with these entries and of this length has these bytes. -/
theorem TlvBuffer.bytes_eq_tlvData {b' : TlvBuffer} (row : b'.row = rawEntries values b.entries)
    (length : b'.bytes.length = b.tlvLen) : b'.bytes = tlvData values b := by
  rw [TlvBuffer.length_bytes, row, ← rowBytes_eq, length_rowBytes] at length
  have room : b'.room = b.tlvLen - Buffer.usedLen b.entries := by omega
  rw [TlvBuffer.bytes, tlvData, row, rowBytes_eq, room]

/-- **A value written into the bytes of a buffer** leaves those of the buffer with the value. -/
theorem tlvData_of_writes {v : Extension t} {data : List UInt8}
    (fits : Buffer.usedLen b.entries ≤ b.tlvLen)
    (writes : Writes (canonicalBuffer values b storable distinct) t (values.write t v) data) :
    data = tlvData values (b.set t v) := by
  obtain ⟨b', rfl, row, length⟩ := writes
  apply TlvBuffer.bytes_eq_tlvData
  · rw [row]
    exact (rawEntries_put values t v b.entries).symm
  · rw [length, bytes_canonicalBuffer, length_tlvData fits]
    rfl

end Canonical

end Token2022.Interface
