/-
**Writing an extension into an account, with the room that it needs.**

* `setAccountType`, `PodStateWithExtensionsMut.unpack`, `tryGetNewAccountLenForExtensionLen` — what
  the writers go through, on the bytes of an account.
* `allocAndSerialize`, `allocAndSerializeVariableLenExtension` — the writers.
* `MintBytes` — the bytes of an initialized mint, bare or with a canonical buffer.
* **`alloc_and_serialize_correct`** — both leave a mint in which the extension reads back, of the
  length that its extensions need, or fail for a reason that is listed.
-/

import Token2022.Interface.Exclusion
import Token2022.Interface.TlvFrame

namespace Token2022.Interface

open Codec ExtensionType Fallible KeyedList SliceProgram

/-! ### The steps -/

/-- A program over the bytes of an account. -/
abbrev DataProgram (α : Type) := SliceProgram ProgramError UInt8 α

/-- **Changing the length of an account**, which the runtime may refuse. -/
structure Resize where
  run : ℕ → List UInt8 → ProgramResult (List UInt8)
  run_eq : ∀ {n data data'}, run n data = .ok data' →
    data' = data.take n ++ List.replicate (n - data.length) 0

/-- `AccountInfo::resize`. -/
def Resize.program (resize : Resize) (n : ℕ) : DataProgram Unit := fun data =>
  match resize.run n data with
  | .ok data' => some (.ok (), data')
  | .error e => some (.error e, data)

/-- `set_account_type`. -/
def setAccountType (kind : AccountType) : DataProgram Unit := do
  reading fun input => .of (checkMinLenAndNotMultisig input kind.baseLen)
  reading fun input => .of <| require
    (¬ (kind = .account ∧ isInitializedAccount (input.take kind.baseLen) = false))
    ProgramError.invalidAccountData
  let indices ← reading fun input => .of (typeAndTlvIndices kind (input.drop kind.baseLen))
  let (accountTypeIndex, _) ← ofExcept (okOr indices ProgramError.invalidAccountData)
  let accountType ← reading fun input =>
    .of (accountTypeOfByte (byteAt (input.drop kind.baseLen) accountTypeIndex))
  if accountType = .uninitialized then
    write (kind.baseLen + accountTypeIndex) [accountTypeByte kind]
  else ofExcept (checkAccountType kind accountType)

section Mutable

variable {S : Type}

/-- `PodStateWithExtensionsMut::unpack`: where the bytes of the extensions start. -/
def PodStateWithExtensionsMut.unpack (B : PodBase S) (input : List UInt8) : ProgramResult ℕ := do
  checkMinLenAndNotMultisig input B.kind.baseLen
  let base := B.ofBytes (input.take B.kind.baseLen)
  if B.isInitialized base then do
    let rest := input.drop B.kind.baseLen
    match ← typeAndTlvIndices B.kind rest with
    | some (accountTypeIndex, tlvStartIndex) => do
      let accountType ← accountTypeOfByte (byteAt rest accountTypeIndex)
      checkAccountType B.kind accountType
      .ok (B.kind.baseLen + tlvStartIndex)
    -- Two empty slices.
    | none => .ok input.length
  else .error .uninitializedAccount

end Mutable

/-- `try_get_new_account_len_for_extension_len`. -/
def tryGetNewAccountLenForExtensionLen (kind : AccountType) (t : ExtensionType)
    (tlvData : List UInt8) (newExtensionLen : ℕ) : ProgramResult ℕ := do
  let newExtensionTlvLen := addTypeAndLengthToLen newExtensionLen
  let tlvInfo ← getTlvDataInfo tlvData
  let currentLen := tlvInfo.usedLen + baseAccountAndTypeLength
  let currentExtensionLen := match getExtensionBytes kind t tlvData with
    | .ok x => addTypeAndLengthToLen x.length
    | .error _ => 0
  .ok (adjustLenForMultisig (currentLen - currentExtensionLen + newExtensionTlvLen))

/-! ### The writers -/

section Writers

variable {S V : Type} (B : PodBase S) (resize : Resize)

/-- `alloc_and_serialize`, of an extension that is plain old data. -/
def allocAndSerialize (t : ExtensionType) (pod : Fixed V) (default newExtension : V)
    (overwrite : Bool) : DataProgram Unit := do
  let previousAccountLen ← len
  let newAccountLen ← reading fun data => .of do
    let state ← PodStateWithExtensions.unpack B data
    tryGetNewAccountLenForExtensionLen B.kind t state.tlvData pod.size
  onlyIf (previousAccountLen < newAccountLen) (resize.program newAccountLen)
  onlyIf (previousAccountLen ≤ baseAccountLength) (setAccountType B.kind)
  let start ← reading fun buffer => .of (PodStateWithExtensionsMut.unpack B buffer)
  behind start do
    let extension ← initExtension B.kind t (pod.write default) overwrite
    within extension fun _ => (.ok (), pod.write newExtension)

/-- `alloc_and_serialize_variable_len_extension`. -/
def allocAndSerializeVariableLenExtension (t : ExtensionType) (newExtension : VariableLen)
    (overwrite : Bool) : DataProgram Unit := do
  let previousAccountLen ← len
  let (newAccountLen, extensionAlreadyExists) ← reading fun data => .of do
    let state ← PodStateWithExtensions.unpack B data
    let packedLen ← newExtension.getPackedLen
    let newAccountLen ← tryGetNewAccountLenForExtensionLen B.kind t state.tlvData packedLen
    .ok (newAccountLen, (getExtensionBytes B.kind t state.tlvData).isOk)
  check (¬ (extensionAlreadyExists = true ∧ overwrite = false))
    TokenError.extensionAlreadyInitialized
  if previousAccountLen < newAccountLen then do
    resize.program newAccountLen
    if extensionAlreadyExists = true then do
      let start ← reading fun buffer => .of (PodStateWithExtensionsMut.unpack B buffer)
      behind start (reallocVariableLenExtension t newExtension)
    else do
      onlyIf (previousAccountLen ≤ baseAccountLength) (setAccountType B.kind)
      let start ← reading fun buffer => .of (PodStateWithExtensionsMut.unpack B buffer)
      behind start (initVariableLenExtension B.kind t newExtension false)
  else do
    let start ← reading fun buffer => .of (PodStateWithExtensionsMut.unpack B buffer)
    behind start (if extensionAlreadyExists = true then reallocVariableLenExtension t newExtension
      else initVariableLenExtension B.kind t newExtension false)
    let removedBytes ← ofExcept <| okOr (checkedSub previousAccountLen newAccountLen)
      ProgramError.accountDataTooSmall
    onlyIf (0 < removedBytes) (resize.program newAccountLen)

end Writers

/-! ### Lengths -/

/-- The bytes that a row takes once a value is written. -/
theorem length_rawRowBytes_put (row : List RawEntry) (t : ExtensionType) (value : List UInt8) :
    (rawRowBytes (put t value row)).length =
      (rawRowBytes row).length -
        (match find t row with
          | some held => addTypeAndLengthToLen held.length
          | none => 0) +
        addTypeAndLengthToLen value.length := by
  by_cases member : t ∈ row.keys
  · obtain ⟨front, held, back, rfl, absent⟩ := exists_split member
    rw [put_split absent, find_split absent]
    simp only [rawRowBytes_append, rawRowBytes_cons, List.length_append, length_rawEntryBytes,
      addTypeAndLengthToLen]
    omega
  · rw [put_of_not_mem member, find_eq_none_iff.mpr member]
    simp only [rawRowBytes_append, rawRowBytes_cons, rawRowBytes_nil, List.append_nil,
      List.length_append, length_rawEntryBytes, addTypeAndLengthToLen]
    omega

/-- A value that is there takes part of the bytes of its row. -/
theorem addTypeAndLengthToLen_le {row : List RawEntry} {t : ExtensionType} {held : List UInt8}
    (found : find t row = some held) :
    addTypeAndLengthToLen held.length ≤ (rawRowBytes row).length := by
  have member : t ∈ row.keys := find_isSome_iff.mp (Option.isSome_of_eq_some found)
  obtain ⟨front, held', back, rfl, absent⟩ := exists_split member
  rw [find_split absent] at found
  obtain rfl := Option.some.inj found
  simp only [rawRowBytes_append, rawRowBytes_cons, List.length_append, length_rawEntryBytes,
    addTypeAndLengthToLen]
  omega

/-- The length of a mint with the entries. -/
def requiredLen (row : List RawEntry) : ℕ :=
  adjustLenForMultisig ((rawRowBytes row).length + baseAccountAndTypeLength)

/-- **The length that is asked for is that of a mint in which the value is written.** -/
theorem tryGetNewAccountLen_eq (b : TlvBuffer) {t : ExtensionType} (named : t ≠ .uninitialized)
    (value : List UInt8) :
    tryGetNewAccountLenForExtensionLen t.getAccountType t b.bytes value.length =
      .ok (requiredLen (put t value b.row)) := by
  unfold tryGetNewAccountLenForExtensionLen requiredLen
  rw [b.getTlvDataInfo_eq]
  show Except.ok (adjustLenForMultisig (_ - _ + _)) = _
  rw [length_rawRowBytes_put]
  dsimp only
  cases found : find t b.row with
  | none =>
    have missing : ∀ value', getExtensionBytes t.getAccountType t b.bytes ≠ .ok value' := by
      intro value' ok
      rw [b.getExtensionBytes_eq_ok_iff named, found] at ok
      cases ok
    cases read : getExtensionBytes t.getAccountType t b.bytes with
    | ok value' => exact absurd read (missing value')
    | error e =>
      dsimp only
      congr 2
      omega
  | some held =>
    have long := addTypeAndLengthToLen_le found
    rw [(b.getExtensionBytes_eq_ok_iff named).mpr found]
    dsimp only
    congr 2
    omega

/-- What the walk says about the length. -/
theorem tryGetAccountLen_put (b : TlvBuffer) {kind : AccountType} {t : ExtensionType}
    {row : List RawEntry} {value : List UInt8} (written : b.row = put t value row) :
    tryGetAccountLen kind b.bytes = .ok (requiredLen b.row) := by
  have there : b.row.keys ≠ [] := by
    have member : t ∈ b.row.keys := by
      rw [written, mem_keys_put]
      exact .inl rfl
    exact List.ne_nil_of_mem member
  unfold tryGetAccountLen
  rw [b.getTlvDataInfo_eq]
  exact if_neg there

/-! ### The bytes of a mint -/

/-- **The bytes of an initialized mint** with a base and a canonical buffer. -/
structure MintBytes (crates : Crates) (data : List UInt8) (base : PodMint) (b : TlvBuffer) :
    Prop where
  unpack : PodStateWithExtensions.unpack (podMint crates) data = .ok ⟨base, b.bytes⟩

/-- The bytes of the base alone. -/
structure BareBytes (crates : Crates) (raw : List UInt8) (base : PodMint) : Prop where
  length : raw.length = 82
  ofBytes : PodMint.ofBytes raw = base
  initialized : crates.bool base.isInitialized = true

/-- The bytes of a mint with extensions. -/
def extendedBytes (raw tlvData : List UInt8) : List UInt8 :=
  raw ++ (List.replicate 83 0 ++ accountTypeByte .mint :: tlvData)

/-- The same buffer with other room. -/
def TlvBuffer.withRoom (b : TlvBuffer) (room : ℕ) : TlvBuffer := { b with room }

section Bytes

variable {crates : Crates} {raw tlvData : List UInt8} {base : PodMint} {b : TlvBuffer}

theorem BareBytes.length_extendedBytes (bare : BareBytes crates raw base) (tlvData : List UInt8) :
    (extendedBytes raw tlvData).length = tlvData.length + 166 := by
  simp only [extendedBytes, List.length_append, List.length_replicate, List.length_cons, bare.length]
  omega

theorem TlvBuffer.length_bytes (b : TlvBuffer) :
    b.bytes.length = (rawRowBytes b.row).length + b.room := by
  rw [TlvBuffer.bytes, List.length_append, List.length_replicate]

/-- What stands behind the base. -/
theorem unpackTlvData_extended :
    unpackTlvData .mint (List.replicate 83 0 ++ accountTypeByte .mint :: tlvData) = .ok tlvData := by
  have front : (List.replicate 83 (0 : UInt8)).length = 83 := List.length_replicate
  refine unpackTlvData_eq_ok_iff.mpr (.inr ⟨by simp, ?_, ?_, ?_, ?_⟩)
  · simp [baseAccountLength, AccountType.baseLen]
  · show ∀ byte ∈ (List.replicate 83 0 ++ accountTypeByte .mint :: tlvData).take 83, byte = 0
    rw [List.take_left' front]
    exact fun byte member => List.eq_of_mem_replicate member
  · show byteAt (List.replicate 83 0 ++ accountTypeByte .mint :: tlvData) 83 = _
    simp [byteAt]
  · show tlvData = (List.replicate 83 0 ++ accountTypeByte .mint :: tlvData).drop 84
    rw [show 84 = 83 + 1 from rfl, ← List.drop_drop, List.drop_left' front]
    rfl

/-- The bytes of a mint are those of its base, alone or in front of extensions. -/
inductive MintShape (raw : List UInt8) (b : TlvBuffer) : List UInt8 → Prop
  | bare (empty : b.bytes = []) : MintShape raw b raw
  | extended : MintShape raw b (extendedBytes raw b.bytes)

/-- **The shape of the bytes of a mint.** -/
theorem MintBytes.shape {data : List UInt8} (mint : MintBytes crates data base b) :
    BareBytes crates (data.take 82) base ∧ MintShape (data.take 82) b data ∧
      data.length ≠ multisigLen := by
  obtain ⟨⟨notMultisig, long⟩, ⟨read, initialized⟩, tail⟩ :=
    PodStateWithExtensions.unpack_eq_ok_iff.mp mint.unpack
  have long : 82 ≤ data.length := long
  refine ⟨⟨List.length_take_of_le long, read, initialized⟩, ?_, notMultisig⟩
  rcases unpackTlvData_eq_ok_iff.mp tail with ⟨bare, none⟩ | ⟨-, room, zero, byte, rest⟩
  · have short : data.length ≤ 82 := List.drop_eq_nil_iff.mp bare
    have shape : MintShape (data.take 82) b (data.take 82) := .bare none
    rwa [List.take_of_length_le short] at shape ⊢
  · have room : 84 ≤ (data.drop 82).length := room
    have zero : ∀ byte ∈ (data.drop 82).take 83, byte = 0 := zero
    have byte : byteAt (data.drop 82) 83 = accountTypeByte .mint := byte
    have rest : b.bytes = (data.drop 82).drop 84 := rest
    have zeroes : (data.drop 82).take 83 = List.replicate 83 0 :=
      List.eq_replicate_iff.mpr ⟨List.length_take_of_le (by omega), zero⟩
    have typed : (data.drop 82).drop 83 = accountTypeByte .mint :: b.bytes := by
      rw [List.drop_eq_getElem_cons (by omega), rest, ← byte, byteAt,
        List.getD_eq_getElem?_getD, List.getElem?_eq_getElem (by omega), Option.getD_some]
    have whole : data = extendedBytes (data.take 82) b.bytes := by
      rw [extendedBytes, ← zeroes, ← typed, List.take_append_drop, List.take_append_drop]
    have shape : MintShape (data.take 82) b (extendedBytes (data.take 82) b.bytes) := .extended
    rwa [← whole] at shape

/-- **Such bytes are those of a mint.** -/
theorem BareBytes.mintBytes (bare : BareBytes crates raw base)
    (length : (extendedBytes raw b.bytes).length ≠ multisigLen) :
    MintBytes crates (extendedBytes raw b.bytes) base b := by
  constructor
  have long := bare.length_extendedBytes b.bytes
  refine PodStateWithExtensions.unpack_eq_ok_iff.mpr ⟨⟨length, ?_⟩, ⟨?_, bare.initialized⟩, ?_⟩
  · show 82 ≤ _
    omega
  · show PodMint.ofBytes ((extendedBytes raw b.bytes).take 82) = base
    rw [extendedBytes, List.take_left' bare.length, bare.ofBytes]
  · show unpackTlvData .mint ((extendedBytes raw b.bytes).drop 82) = .ok b.bytes
    rw [extendedBytes, List.drop_left' bare.length, unpackTlvData_extended]

/-- **What `set_account_type` comes to**, where the base is accepted and an account type stands behind
it. -/
theorem setAccountType_eq {kind accountType : AccountType} {input : List UInt8}
    {accountTypeIndex tlvStartIndex : ℕ}
    (checked : checkMinLenAndNotMultisig input kind.baseLen = .ok ())
    (admitted : kind = .account → isInitializedAccount (input.take kind.baseLen) = true)
    (indices : typeAndTlvIndices kind (input.drop kind.baseLen) =
      .ok (some (accountTypeIndex, tlvStartIndex)))
    (typed : accountTypeOfByte (byteAt (input.drop kind.baseLen) accountTypeIndex) =
      .ok accountType) :
    setAccountType kind input =
      (if accountType = .uninitialized then
        write (kind.baseLen + accountTypeIndex) [accountTypeByte kind]
      else ofExcept (checkAccountType kind accountType)) input := by
  have allowed : require (¬ (kind = .account ∧
      isInitializedAccount (input.take kind.baseLen) = false)) ProgramError.invalidAccountData =
        .ok () := by
    refine require_eq_ok_iff.mpr ?_
    rintro ⟨account, uninitialized⟩
    exact Bool.noConfusion ((admitted account).symm.trans uninitialized)
  unfold setAccountType
  rw [bind_of_ok (reading_of (congrArg Panicking.of checked)),
    bind_of_ok (reading_of (congrArg Panicking.of allowed)),
    bind_of_ok (reading_of (congrArg Panicking.of indices))]
  exact bind_of_ok (reading_of (congrArg Panicking.of typed))

/-- The indices, in zeroes and a byte behind the base. -/
theorem typeAndTlvIndices_zeroes (byte : UInt8) :
    typeAndTlvIndices .mint (List.replicate 83 0 ++ byte :: tlvData) = .ok (some (83, 84)) := by
  unfold typeAndTlvIndices
  rw [if_neg (by simp)]
  refine require_bind_eq_ok_iff.mpr ⟨?_, require_bind_eq_ok_iff.mpr ⟨?_, rfl⟩⟩
  · simp [baseAccountLength, AccountType.baseLen]
  · rw [not_any_ne_zero]
    show ∀ byte' ∈ (List.replicate 83 0 ++ byte :: tlvData).take 83, byte' = 0
    rw [List.take_left' List.length_replicate]
    exact fun byte' member => List.eq_of_mem_replicate member

theorem byteAt_zeroes (byte : UInt8) :
    byteAt (List.replicate 83 0 ++ byte :: tlvData) 83 = byte := by
  simp [byteAt]

/-- **The extensions start behind the account type.** -/
theorem BareBytes.unpackMut (bare : BareBytes crates raw base)
    (length : (extendedBytes raw tlvData).length ≠ multisigLen) :
    PodStateWithExtensionsMut.unpack (podMint crates) (extendedBytes raw tlvData) = .ok 166 := by
  have long := bare.length_extendedBytes tlvData
  have checked : checkMinLenAndNotMultisig (extendedBytes raw tlvData) 82 = .ok () :=
    checkMinLen_eq_ok_iff.mpr ⟨length, by omega⟩
  have read : PodMint.ofBytes ((extendedBytes raw tlvData).take 82) = base := by
    rw [extendedBytes, List.take_left' bare.length, bare.ofBytes]
  have rest : (extendedBytes raw tlvData).drop 82 =
      List.replicate 83 0 ++ accountTypeByte .mint :: tlvData := by
    rw [extendedBytes, List.drop_left' bare.length]
  unfold PodStateWithExtensionsMut.unpack
  show (checkMinLenAndNotMultisig _ 82 >>= fun _ =>
    if crates.bool (PodMint.ofBytes (List.take 82 _)).isInitialized = true then
      typeAndTlvIndices .mint (List.drop 82 _) >>= _ else _) = _
  rw [checked, read, rest, typeAndTlvIndices_zeroes]
  show (if crates.bool base.isInitialized = true then _ else _) = _
  rw [if_pos bare.initialized]
  show (accountTypeOfByte (byteAt (List.drop 82 _) 83) >>= _) = _
  rw [rest, byteAt_zeroes]
  rfl

/-- **A base that has grown gains the account type.** -/
theorem BareBytes.setAccountType (bare : BareBytes crates raw base) {n : ℕ} (long : 166 ≤ n)
    (length : n ≠ multisigLen) :
    setAccountType .mint (raw ++ List.replicate (n - 82) 0) =
      some (.ok (), extendedBytes raw (List.replicate (n - 166) 0)) := by
  have grown : List.replicate (n - 82) (0 : UInt8) =
      List.replicate 83 0 ++ 0 :: List.replicate (n - 166) 0 := by
    rw [← List.replicate_succ, ← List.replicate_add]
    congr 1
    omega
  have total : (raw ++ (List.replicate 83 0 ++ 0 :: List.replicate (n - 166) (0 : UInt8))).length =
      n := by
    simp only [List.length_append, List.length_replicate, List.length_cons, bare.length]
    omega
  have checked : checkMinLenAndNotMultisig
      (raw ++ (List.replicate 83 0 ++ 0 :: List.replicate (n - 166) 0)) 82 = .ok () :=
    checkMinLen_eq_ok_iff.mpr ⟨by rwa [total], by omega⟩
  have rest : (raw ++ (List.replicate 83 0 ++ 0 :: List.replicate (n - 166) (0 : UInt8))).drop 82 =
      List.replicate 83 0 ++ 0 :: List.replicate (n - 166) 0 := List.drop_left' bare.length
  have indices : typeAndTlvIndices .mint (List.drop AccountType.mint.baseLen
      (raw ++ (List.replicate 83 0 ++ 0 :: List.replicate (n - 166) 0))) = .ok (some (83, 84)) := by
    show typeAndTlvIndices .mint (List.drop 82 _) = _
    rw [rest, typeAndTlvIndices_zeroes]
  have untyped : accountTypeOfByte (byteAt (List.drop AccountType.mint.baseLen
      (raw ++ (List.replicate 83 0 ++ 0 :: List.replicate (n - 166) 0))) 83) =
        .ok .uninitialized := by
    show accountTypeOfByte (byteAt (List.drop 82 _) 83) = _
    rw [rest, byteAt_zeroes]
    rfl
  have written : (write 165 [accountTypeByte .mint] : DataProgram Unit)
      (raw ++ (List.replicate 83 0 ++ 0 :: List.replicate (n - 166) 0)) =
        some (.ok (), extendedBytes raw (List.replicate (n - 166) 0)) := by
    have place : (write 165 [accountTypeByte .mint] : DataProgram Unit)
        ((raw ++ List.replicate 83 0) ++ ([0] ++ List.replicate (n - 166) 0)) = _ :=
      write_append _ _ (by rw [List.length_append, bare.length, List.length_replicate]) rfl
    rw [List.append_assoc, List.append_assoc, List.singleton_append, List.singleton_append] at place
    unfold extendedBytes
    exact place
  rw [grown]
  refine (setAccountType_eq checked ?_ indices untyped).trans written
  intro account
  cases account

/-- **A resize that leaves the entries their room** changes only the zeroes behind them. -/
theorem Resize.extended (resize : Resize) (bare : BareBytes crates raw base) {n : ℕ}
    {data' : List UInt8} (fits : (rawRowBytes b.row).length + 166 ≤ n)
    (ok : resize.run n (extendedBytes raw b.bytes) = .ok data') :
    data' = extendedBytes raw (b.withRoom (n - 166 - (rawRowBytes b.row).length)).bytes := by
  have total := bare.length_extendedBytes b.bytes
  have front : ∀ room, extendedBytes raw (b.withRoom room).bytes =
      extendedBytes raw (rawRowBytes b.row) ++ List.replicate room 0 := by
    intro room
    simp only [extendedBytes, TlvBuffer.bytes, TlvBuffer.withRoom, List.append_assoc,
      List.cons_append]
  have size := bare.length_extendedBytes (rawRowBytes b.row)
  have whole : extendedBytes raw b.bytes =
      extendedBytes raw (rawRowBytes b.row) ++ List.replicate b.room 0 := front b.room
  have long := b.length_bytes
  have count : min (n - ((rawRowBytes b.row).length + 166)) b.room +
      (n - ((rawRowBytes b.row).length + b.room + 166)) = n - 166 - (rawRowBytes b.row).length := by
    omega
  rw [resize.run_eq ok, front, total, whole, List.take_append, List.take_of_length_le (by omega),
    List.take_replicate, List.append_assoc, ← List.replicate_add, size, long, count]

end Bytes

/-! ### Writing where there is room -/

/-- **Serialising the value fails**, into whatever slice. -/
def VariableLen.Fails (value : VariableLen) : Prop :=
  ∀ n, value.getPackedLen = .ok n → ∀ dst, dst.length = n →
    ∃ error part, value.packIntoSlice dst = (.error error, part)

theorem VariableLen.Fails.not_serialises {value : VariableLen} (fails : value.Fails) :
    ¬ ∃ bytes, value.Serialises bytes := by
  rintro ⟨bytes, serialises⟩
  obtain ⟨error, part, failed⟩ := fails _ serialises.getPackedLen bytes rfl
  rw [serialises.packIntoSlice bytes rfl] at failed
  cases failed

section Room

variable {b : TlvBuffer} {t : ExtensionType}

/-- A computation on a slot that fails. -/
theorem Slot.within_fails {length : ℕ} {data : List UInt8} {bounds : ℕ × ℕ}
    (slot : Slot b t length data bounds) {compute : List UInt8 → ProgramResult Unit × List UInt8}
    (fails : ∀ old : List UInt8, old.length = length →
      ∃ error part, compute old = (.error error, part)) :
    ∃ error data', SliceProgram.within bounds compute data = some (.error error, data') := by
  obtain ⟨front, old, back, rfl, size, rfl, -⟩ := slot
  obtain ⟨error, part, failed⟩ := fails old size
  rw [within_append front back old compute rfl (by rw [size]), failed]
  exact ⟨_, _, rfl⟩

/-- A slot stays one when a value is written into it. -/
theorem Slot.rewritten {length : ℕ} {data : List UInt8} {bounds : ℕ × ℕ}
    (slot : Slot b t length data bounds) {value : List UInt8} (same : value.length = length) :
    ∃ data', (SliceProgram.within bounds fun _ => (.ok (), value) : TlvProgram Unit) data =
      some (.ok (), data') ∧ Slot b t length data' bounds := by
  obtain ⟨front, old, back, rfl, size, rfl, writes⟩ := slot
  refine ⟨front ++ (value ++ back), ?_, front, value, back, rfl, same, rfl, writes⟩
  rw [within_append front back old _ rfl (by rw [size])]

/-- **There is room for a value of the length.** -/
def TlvBuffer.HasRoom (b : TlvBuffer) (t : ExtensionType) (length : ℕ) : Prop :=
  (rawRowBytes (put t (List.replicate length 0) b.row)).length ≤ b.bytes.length

theorem TlvBuffer.HasRoom.absent {length : ℕ} (room : b.HasRoom t length)
    (absent : find t b.row = none) : 4 + length ≤ b.room := by
  unfold TlvBuffer.HasRoom at room
  rw [length_rawRowBytes_put, absent, b.length_bytes, List.length_replicate] at room
  simp only [addTypeAndLengthToLen] at room
  omega

theorem TlvBuffer.HasRoom.present {length : ℕ} (room : b.HasRoom t length) {held : List UInt8}
    (found : find t b.row = some held) : length - held.length ≤ b.room := by
  have part := addTypeAndLengthToLen_le found
  unfold TlvBuffer.HasRoom at room
  rw [length_rawRowBytes_put, found, b.length_bytes, List.length_replicate] at room
  simp only [addTypeAndLengthToLen] at room part
  omega

/-- **Where there is room, an allocation fails only for a value that is there or is too long.** -/
theorem alloc_settles (named : t ≠ .uninitialized) {length : ℕ} (room : b.HasRoom t length)
    (overwrite : Bool) (same : ∀ held, find t b.row = some held → overwrite = true →
      held.length = length) :
    (∃ bounds data, alloc t.getAccountType t length overwrite b.bytes = some (.ok bounds, data) ∧
      Slot b t length data bounds) ∨
    (∃ error data, alloc t.getAccountType t length overwrite b.bytes =
      some (.error error, data)) ∧
        (t ∈ b.row.keys ∧ overwrite = false ∨ 2 ^ 16 ≤ length) := by
  by_cases takes : b.Takes t length overwrite
  · exact .inl (alloc_of_takes named takes)
  · right
    constructor
    · by_cases tears : b.Tears t length
      · exact ⟨_, _, alloc_of_tears named tears⟩
      · obtain ⟨error, failed⟩ := alloc_of_refused named (.inr ⟨takes, tears⟩)
        exact ⟨error, _, failed⟩
    · unfold TlvBuffer.Takes at takes
      cases found : find t b.row with
      | none =>
        rw [found] at takes
        exact .inr (not_lt.mp fun short => takes ⟨room.absent found, short⟩)
      | some held =>
        rw [found] at takes
        have kept : overwrite = false :=
          Bool.eq_false_iff.mpr fun asked => takes ⟨asked, same held found asked⟩
        exact .inl ⟨find_isSome_iff.mp (Option.isSome_of_eq_some found), kept⟩

/-- **Where there is room, a reallocation fails only for a value that is too long.** -/
theorem realloc_settles (named : t ≠ .uninitialized) {length : ℕ} (room : b.HasRoom t length)
    (member : t ∈ b.row.keys) :
    (∃ bounds data, realloc t length b.bytes = some (.ok bounds, data) ∧
      Slot b t length data bounds) ∨
    (∃ error data, realloc t length b.bytes = some (.error error, data)) ∧ 2 ^ 16 ≤ length := by
  by_cases fits : b.Fits t length
  · exact .inl (realloc_of_fits named fits)
  · obtain ⟨held, found⟩ := Option.isSome_iff_exists.mp (find_isSome_iff.mpr member)
    obtain ⟨error, failed⟩ := realloc_of_refused named fits
    refine .inr ⟨⟨error, _, failed⟩, not_lt.mp fun short => fits ?_⟩
    exact ⟨held, found, room.present found, short⟩

/-- The writer of a value that is plain old data. -/
def writeExtension {V : Type} (t : ExtensionType) (pod : Fixed V) (default newExtension : V)
    (overwrite : Bool) : TlvProgram Unit := do
  let extension ← initExtension t.getAccountType t (pod.write default) overwrite
  SliceProgram.within extension fun _ => (.ok (), pod.write newExtension)

/-- **Where there is room, a value that is plain old data is written**, or one is there, or it is
too long. -/
theorem writeExtension_settles (named : t ≠ .uninitialized) {V : Type} (pod : Fixed V)
    (default newExtension : V) (overwrite : Bool) (room : b.HasRoom t pod.size)
    (same : ∀ held, find t b.row = some held → held.length = pod.size) :
    (∃ data, writeExtension t pod default newExtension overwrite b.bytes = some (.ok (), data) ∧
      Writes b t (pod.write newExtension) data) ∨
    (∃ error data, writeExtension t pod default newExtension overwrite b.bytes =
      some (.error error, data)) ∧ (t ∈ b.row.keys ∧ overwrite = false ∨ 2 ^ 16 ≤ pod.size) := by
  unfold writeExtension initExtension
  rw [pod.length_write]
  rcases alloc_settles named room overwrite (fun held found _ => same held found) with
    ⟨bounds, data, ok, slot⟩ | ⟨⟨error, data, failed⟩, either⟩
  · obtain ⟨data', first, slot'⟩ := slot.rewritten (pod.length_write default)
    obtain ⟨data'', second, writes⟩ := slot'.within
      (fun _ => (.ok (), pod.write newExtension)) (pod.length_write newExtension) fun _ _ => rfl
    refine .inl ⟨data'', ?_, writes⟩
    have allocated : (alloc t.getAccountType t pod.size overwrite >>= fun buffer =>
        (SliceProgram.within buffer fun _ => (.ok (), pod.write default) : TlvProgram Unit) >>=
          fun _ => pure buffer) b.bytes = some (.ok bounds, data') := by
      rw [bind_of_ok ok, bind_of_ok first]
      rfl
    rw [bind_of_ok allocated]
    exact second
  · exact .inr ⟨⟨error, data, bind_of_error (bind_of_error failed)⟩, either⟩

/-- The writer of a value of variable length. -/
def writeVariableLenExtension (t : ExtensionType) (newExtension : VariableLen)
    (extensionAlreadyExists : Bool) : TlvProgram Unit :=
  if extensionAlreadyExists = true then reallocVariableLenExtension t newExtension
  else initVariableLenExtension t.getAccountType t newExtension false

/-- **Where there is room, a value of variable length is written**, or it does not serialise, or it
is too long. -/
theorem writeVariableLenExtension_settles (named : t ≠ .uninitialized) {value : VariableLen}
    {n : ℕ} (packedLen : value.getPackedLen = .ok n)
    (settled : (∃ bytes, value.Serialises bytes) ∨ value.Fails) (room : b.HasRoom t n) :
    (∃ bytes data, value.Serialises bytes ∧
      writeVariableLenExtension t value (decide (t ∈ b.row.keys)) b.bytes = some (.ok (), data) ∧
        Writes b t bytes data) ∨
    (∃ error data, writeVariableLenExtension t value (decide (t ∈ b.row.keys)) b.bytes =
      some (.error error, data)) ∧ ((¬ ∃ bytes, value.Serialises bytes) ∨ 2 ^ 16 ≤ n) := by
  have slotted : (∃ bounds data, writeVariableLenExtension t value (decide (t ∈ b.row.keys))
      b.bytes = within bounds value.packIntoSlice data ∧ Slot b t n data bounds) ∨
      (∃ error data, writeVariableLenExtension t value (decide (t ∈ b.row.keys)) b.bytes =
        some (.error error, data)) ∧ 2 ^ 16 ≤ n := by
    unfold writeVariableLenExtension
    by_cases member : t ∈ b.row.keys
    · rw [if_pos (decide_eq_true member)]
      rw [reallocVariableLenExtension_eq packedLen]
      rcases realloc_settles named room member with
        ⟨bounds, data, ok, slot⟩ | ⟨⟨error, data, failed⟩, long⟩
      · exact .inl ⟨bounds, data, bind_of_ok ok, slot⟩
      · exact .inr ⟨⟨error, data, bind_of_error failed⟩, long⟩
    · rw [if_neg (by simpa using member)]
      rw [initVariableLenExtension_eq packedLen]
      rcases alloc_settles named room false (fun _ _ asked => by cases asked) with
        ⟨bounds, data, ok, slot⟩ | ⟨⟨error, data, failed⟩, either⟩
      · exact .inl ⟨bounds, data, bind_of_ok ok, slot⟩
      · exact .inr ⟨⟨error, data, bind_of_error failed⟩,
          either.resolve_left fun there => member there.1⟩
  rcases slotted with ⟨bounds, data, same, slot⟩ | ⟨failed, long⟩
  · rw [same]
    rcases settled with ⟨bytes, serialises⟩ | fails
    · obtain rfl := Except.ok.inj (packedLen.symm.trans serialises.getPackedLen)
      obtain ⟨data', written, writes⟩ := slot.within _ rfl serialises.packIntoSlice
      exact .inl ⟨bytes, data', serialises, written, writes⟩
    · exact .inr ⟨slot.within_fails (fails n packedLen), .inl fails.not_serialises⟩
  · exact .inr ⟨failed, .inr long⟩

end Room

/-! ### Making room -/

theorem podMint_kind (crates : Crates) : (podMint crates).kind = .mint := rfl

/-- **A mint in which a value was written**, and nothing else. -/
structure SerializedMint (crates : Crates) (base : PodMint) (b : TlvBuffer) (t : ExtensionType)
    (value data data' : List UInt8) (b' : TlvBuffer) : Prop where
  unpack : PodStateWithExtensions.unpack (podMint crates) data' = .ok ⟨base, b'.bytes⟩
  bytes : data'.take 82 = data.take 82
  accountType : byteAt data' 165 = accountTypeByte .mint
  read : getExtensionBytes .mint t b'.bytes = .ok value
  others : ∀ t' ≠ t, t' ≠ .uninitialized → ∀ value',
    getExtensionBytes .mint t' b'.bytes = .ok value' ↔
      getExtensionBytes .mint t' b.bytes = .ok value'
  /-- The entries keep their order, and a new one comes last. -/
  row : b'.row = put t value b.row
  required : tryGetAccountLen .mint b'.bytes = .ok (requiredLen b'.row)
  notMultisig : data'.length ≠ multisigLen

/-- **What comes of writing a value** that serialises to some bytes, where the length of the account
and the length that is required are related. -/
inductive SerializeOutcome (crates : Crates) (resize : Resize) (base : PodMint) (b : TlvBuffer)
    (t : ExtensionType) (overwrite : Bool) (data : List UInt8) (serialises : List UInt8 → Prop)
    (lengths : ℕ → ℕ → Prop) : ProgramResult Unit → List UInt8 → Prop
  | ok {bytes data' b'} (value : serialises bytes)
      (written : SerializedMint crates base b t bytes data data' b')
      (length : lengths (requiredLen b'.row) data'.length) :
      SerializeOutcome crates resize base b t overwrite data serialises lengths (.ok ()) data'
  /-- The extension is there, and is not to be overwritten. -/
  | present {error data'} (there : t ∈ b.row.keys) (kept : overwrite = false) :
      SerializeOutcome crates resize base b t overwrite data serialises lengths (.error error) data'
  /-- The value does not serialise. -/
  | unserializable {error data'} (none : ¬ ∃ bytes, serialises bytes) :
      SerializeOutcome crates resize base b t overwrite data serialises lengths (.error error) data'
  /-- The value is longer than its two bytes of length can say. -/
  | long {error data' bytes} (value : serialises bytes) (long : 2 ^ 16 ≤ bytes.length) :
      SerializeOutcome crates resize base b t overwrite data serialises lengths (.error error) data'
  /-- The resize to the length that is required is refused. -/
  | refused {error data' bytes} (value : serialises bytes)
      (refused : resize.run (requiredLen (put t bytes b.row)) data' = .error error) :
      SerializeOutcome crates resize base b t overwrite data serialises lengths (.error error) data'

section Growth

variable {crates : Crates} {raw data : List UInt8} {base : PodMint} {b : TlvBuffer}
  {t : ExtensionType}

theorem requiredLen_ne (row : List RawEntry) : requiredLen row ≠ multisigLen :=
  adjustLenForMultisig_ne _

theorem le_requiredLen (row : List RawEntry) : (rawRowBytes row).length + 166 ≤ requiredLen row :=
  le_adjustLenForMultisig _

/-- The length is that for any value as long. -/
theorem requiredLen_put (row : List RawEntry) (t : ExtensionType) (value : List UInt8) :
    requiredLen (put t (List.replicate value.length 0) row) = requiredLen (put t value row) := by
  unfold requiredLen
  rw [length_rawRowBytes_put, length_rawRowBytes_put, List.length_replicate]

/-- **The bytes of a mint whose row has the value written** and whose length is enough. -/
theorem BareBytes.serializedMint (bare : BareBytes crates (data.take 82) base)
    (typed : t.getAccountType = .mint) (named : t ≠ .uninitialized) {value : List UInt8}
    {b' : TlvBuffer} (row : b'.row = put t value b.row)
    (notMultisig : (extendedBytes (data.take 82) b'.bytes).length ≠ multisigLen) :
    SerializedMint crates base b t value data (extendedBytes (data.take 82) b'.bytes) b' where
  unpack := (bare.mintBytes notMultisig).unpack
  bytes := by rw [extendedBytes, List.take_left' bare.length]
  accountType := by
    have place := byteAt_drop (extendedBytes (data.take 82) b'.bytes) 82 83
    rw [← place, extendedBytes, List.drop_left' bare.length, byteAt_zeroes]
  read := by
    rw [← typed, b'.getExtensionBytes_eq_ok_iff named, row, find_put_self]
  others := by
    intro t' other named' value'
    rw [TlvBuffer.bytes, TlvBuffer.bytes,
      getExtensionBytes_eq_ok_iff b'.readable (stops_zeroes _) named',
      getExtensionBytes_eq_ok_iff b.readable (stops_zeroes _) named', row, find_put_of_ne other]
  row := row
  required := tryGetAccountLen_put b' row
  notMultisig := notMultisig

/-- **Room is made for a value**: the account grows where it is too short, and a bare one gains the
account type; or the growth is refused. -/
theorem makeRoom (bare : BareBytes crates raw base) (resize : Resize)
    (shape : MintShape raw b data) {newAccountLen : ℕ} (long : 166 ≤ newAccountLen)
    (valid : newAccountLen ≠ multisigLen) :
    (∃ error, onlyIf (data.length < newAccountLen) (resize.program newAccountLen) data =
      some (.error error, data) ∧ resize.run newAccountLen data = .error error) ∨
    ∃ data' room,
      onlyIf (data.length < newAccountLen) (resize.program newAccountLen) data =
        some (.ok (), data') ∧
      onlyIf (data.length ≤ baseAccountLength) (setAccountType .mint) data' =
        some (.ok (), extendedBytes raw (b.withRoom room).bytes) ∧
      (extendedBytes raw (b.withRoom room).bytes).length = max data.length newAccountLen := by
  have size : ∀ room, (extendedBytes raw (b.withRoom room).bytes).length =
      (rawRowBytes b.row).length + room + 166 := by
    intro room
    rw [bare.length_extendedBytes, (b.withRoom room).length_bytes]
    rfl
  have held := b.length_bytes
  by_cases short : data.length < newAccountLen
  · rw [onlyIf_pos short]
    unfold Resize.program
    cases ran : resize.run newAccountLen data with
    | error e => exact .inl ⟨e, rfl, rfl⟩
    | ok data' =>
      right
      cases shape with
      | bare empty =>
        -- The zeroes up to the account type come from the growth.
        rw [empty, List.length_nil] at held
        have noRow : rawRowBytes b.row = [] := List.eq_nil_of_length_eq_zero (by omega)
        have grown := resize.run_eq ran
        rw [List.take_of_length_le (by rw [bare.length]; omega), bare.length] at grown
        refine ⟨data', newAccountLen - 166, rfl, ?_, ?_⟩
        · have only : (b.withRoom (newAccountLen - 166)).bytes =
              List.replicate (newAccountLen - 166) 0 := by
            rw [TlvBuffer.bytes, TlvBuffer.withRoom, noRow, List.nil_append]
          rw [onlyIf_pos (by rw [bare.length, baseAccountLength]; omega), grown,
            bare.setAccountType long valid, only]
        · rw [size, noRow, bare.length]
          simp only [List.length_nil]
          omega
      | extended =>
        have total := bare.length_extendedBytes b.bytes
        refine ⟨data', newAccountLen - 166 - (rawRowBytes b.row).length, rfl, ?_, ?_⟩
        · rw [onlyIf_neg (by rw [total, baseAccountLength]; omega),
            resize.extended bare (by omega) ran]
        · rw [size]
          omega
  · rw [onlyIf_neg short]
    right
    cases shape with
    | bare empty =>
      rw [bare.length] at short
      omega
    | extended =>
      have total := bare.length_extendedBytes b.bytes
      refine ⟨_, b.room, rfl, ?_, ?_⟩
      · rw [onlyIf_neg (by rw [total, baseAccountLength]; omega)]
        rfl
      · rw [size]
        omega

/-- **The extensions are written to, behind the account type.** -/
theorem behind_extended (bare : BareBytes crates raw base) {tlvData tlvData' : List UInt8}
    {program : TlvProgram Unit} {result : ProgramResult Unit}
    (ran : program tlvData = some (result, tlvData')) :
    behind 166 program (extendedBytes raw tlvData) =
      some (result, extendedBytes raw tlvData') := by
  have parts : ∀ tlvData : List UInt8, extendedBytes raw tlvData =
      (raw ++ (List.replicate 83 0 ++ [accountTypeByte .mint])) ++ tlvData := by
    intro tlvData
    simp only [extendedBytes, List.append_assoc, List.singleton_append]
  rw [parts, parts]
  refine behind_append _ _ ?_ ran
  simp only [List.length_append, bare.length, List.length_replicate, List.length_singleton]

theorem unpack_behind (bare : BareBytes crates raw base) {tlvData tlvData' : List UInt8}
    (notMultisig : (extendedBytes raw tlvData).length ≠ multisigLen) {program : TlvProgram Unit}
    {result : ProgramResult Unit} (ran : program tlvData = some (result, tlvData')) :
    (do let start ← reading fun buffer =>
          .of (PodStateWithExtensionsMut.unpack (podMint crates) buffer)
        behind start program : DataProgram Unit) (extendedBytes raw tlvData) =
      some (result, extendedBytes raw tlvData') := by
  rw [bind_of_ok (reading_of (congrArg Panicking.of (bare.unpackMut notMultisig)))]
  exact behind_extended bare ran

/-- An extension of mints is an extension. -/
theorem ne_uninitialized_of_mint (typed : t.getAccountType = .mint) : t ≠ .uninitialized := by
  rintro rfl
  cases typed

/-- The length that is asked for, of a mint. -/
theorem tryGetNewAccountLen_mint (typed : t.getAccountType = .mint) (n : ℕ) :
    tryGetNewAccountLenForExtensionLen .mint t b.bytes n =
      .ok (requiredLen (put t (List.replicate n 0) b.row)) := by
  have named := ne_uninitialized_of_mint typed
  have asked := tryGetNewAccountLen_eq b named (List.replicate n 0)
  rwa [typed, List.length_replicate] at asked

/-- A buffer in an account that is long enough has room. -/
theorem hasRoom_of_le (bare : BareBytes crates raw base) {n : ℕ}
    (enough : requiredLen (put t (List.replicate n 0) b.row) ≤ (extendedBytes raw b.bytes).length) :
    b.HasRoom t n := by
  have long := le_requiredLen (put t (List.replicate n 0) b.row)
  rw [bare.length_extendedBytes] at enough
  unfold TlvBuffer.HasRoom
  omega

end Growth

/-! ### The writers are correct -/

section Correct

variable {crates : Crates} {data : List UInt8} {base : PodMint} {b : TlvBuffer} {t : ExtensionType}

/-- **`alloc_and_serialize` is correct.** -/
theorem allocAndSerialize_outcome (resize : Resize) (mint : MintBytes crates data base b)
    (typed : t.getAccountType = .mint) {V : Type} (pod : Fixed V) (default newExtension : V)
    (overwrite : Bool) (sized : ∀ held, find t b.row = some held → held.length = pod.size) :
    ∃ result data', allocAndSerialize (podMint crates) resize t pod default newExtension overwrite
      data = some (result, data') ∧
      SerializeOutcome crates resize base b t overwrite data (· = pod.write newExtension) (· ≤ ·)
        result data' := by
  have named := ne_uninitialized_of_mint typed
  obtain ⟨bare, shape, notMultisig⟩ := mint.shape
  have asked : (do
      let state ← PodStateWithExtensions.unpack (podMint crates) data
      tryGetNewAccountLenForExtensionLen .mint t state.tlvData pod.size) =
        .ok (requiredLen (put t (List.replicate pod.size 0) b.row)) := by
    rw [mint.unpack]
    exact tryGetNewAccountLen_mint typed pod.size
  have length := requiredLen_put b.row t (pod.write newExtension)
  rw [pod.length_write] at length
  unfold allocAndSerialize
  rw [podMint_kind, bind_of_ok (m := len) rfl, bind_of_ok (reading_of (congrArg Panicking.of asked))]
  rcases makeRoom bare resize shape (le_of_add_le_right (le_requiredLen _)) (requiredLen_ne _) with
    ⟨error, failed, refused⟩ | ⟨data₁, room, grown, typedNow, total⟩
  · rw [bind_of_error failed]
    exact ⟨_, _, rfl, .refused rfl (length ▸ refused)⟩
  · have enough := le_of_le_of_eq (le_max_right _ _) total.symm
    have valid : (extendedBytes (data.take 82) (b.withRoom room).bytes).length ≠ multisigLen := by
      rw [total]
      rcases max_choice data.length (requiredLen (put t (List.replicate pod.size 0) b.row)) with
        same | same
      · rwa [same]
      · rw [same]
        exact requiredLen_ne _
    rw [bind_of_ok grown, bind_of_ok typedNow]
    have written := writeExtension_settles named pod default newExtension overwrite
      (b := b.withRoom room) (hasRoom_of_le bare enough) sized
    unfold writeExtension at written
    rw [typed] at written
    rcases written with ⟨tlvData, ran, b', rfl, row, same⟩ | ⟨⟨error, tlvData, ran⟩, either⟩
    · refine ⟨_, _, unpack_behind bare valid ran, ?_⟩
      have kept : (extendedBytes (data.take 82) b'.bytes).length =
          (extendedBytes (data.take 82) (b.withRoom room).bytes).length := by
        rw [bare.length_extendedBytes, bare.length_extendedBytes, same]
      refine .ok rfl (bare.serializedMint typed named row (kept ▸ valid)) ?_
      rw [kept, row]
      exact length ▸ enough
    · refine ⟨_, _, unpack_behind bare valid ran, ?_⟩
      rcases either with ⟨there, unasked⟩ | long
      · exact .present there unasked
      · exact .long rfl (by rwa [pod.length_write])

/-- Whether an extension is there. -/
theorem isOk_getExtensionBytes (typed : t.getAccountType = .mint) :
    (getExtensionBytes .mint t b.bytes).isOk = decide (t ∈ b.row.keys) := by
  have named := ne_uninitialized_of_mint typed
  have read : ∀ value, getExtensionBytes .mint t b.bytes = .ok value ↔ find t b.row = some value := by
    intro value
    rw [← typed, b.getExtensionBytes_eq_ok_iff named]
  cases found : getExtensionBytes .mint t b.bytes with
  | ok value =>
    have there := (read value).mp found
    exact (decide_eq_true (find_isSome_iff.mp (Option.isSome_of_eq_some there))).symm
  | error e =>
    refine (decide_eq_false fun member => ?_).symm
    obtain ⟨value, there⟩ := Option.isSome_iff_exists.mp (find_isSome_iff.mpr member)
    rw [(read value).mpr there] at found
    cases found

/-- A mint that is long enough for a value has extensions already. -/
theorem MintShape.eq_extendedBytes {raw : List UInt8} (bare : BareBytes crates raw base)
    (shape : MintShape raw b data) {row : List RawEntry} (long : requiredLen row ≤ data.length) :
    data = extendedBytes raw b.bytes := by
  cases shape with
  | extended => rfl
  | bare empty =>
    have least := le_requiredLen row
    rw [bare.length] at long
    omega

theorem MintShape.lt_of_mem {raw : List UInt8} (bare : BareBytes crates raw base)
    (shape : MintShape raw b data) (member : t ∈ b.row.keys) : baseAccountLength < data.length := by
  cases shape with
  | extended =>
    rw [bare.length_extendedBytes, baseAccountLength]
    omega
  | bare empty =>
    obtain ⟨held, found⟩ := Option.isSome_iff_exists.mp (find_isSome_iff.mpr member)
    have part := addTypeAndLengthToLen_le found
    have size := b.length_bytes
    rw [empty, List.length_nil] at size
    simp only [addTypeAndLengthToLen] at part
    omega

/-- What `alloc_and_serialize_variable_len_extension` does once the account has grown. -/
def writeOnceGrown (crates : Crates) (t : ExtensionType) (value : VariableLen)
    (previousAccountLen : ℕ) (extensionAlreadyExists : Bool) : DataProgram Unit := do
  if extensionAlreadyExists = true then do
    let start ← reading fun buffer => .of (PodStateWithExtensionsMut.unpack (podMint crates) buffer)
    behind start (reallocVariableLenExtension t value)
  else do
    onlyIf (previousAccountLen ≤ baseAccountLength) (setAccountType .mint)
    let start ← reading fun buffer => .of (PodStateWithExtensionsMut.unpack (podMint crates) buffer)
    behind start (initVariableLenExtension .mint t value false)

/-- What it does last, where the account does not grow. -/
def removeBytes (resize : Resize) (previousAccountLen newAccountLen : ℕ) : DataProgram Unit := do
  let removedBytes ← ofExcept <| okOr (checkedSub previousAccountLen newAccountLen)
    ProgramError.accountDataTooSmall
  onlyIf (0 < removedBytes) (resize.program newAccountLen)

/-- An extension that is there is reallocated behind the account type, a new one behind the account
type that is then set. -/
theorem writeOnceGrown_eq {raw : List UInt8} (bare : BareBytes crates raw base)
    (shape : MintShape raw b data) (typed : t.getAccountType = .mint) {value : VariableLen}
    {room : ℕ} (valid : (extendedBytes raw (b.withRoom room).bytes).length ≠ multisigLen)
    {data₁ : List UInt8}
    (typedNow : (onlyIf (data.length ≤ baseAccountLength) (setAccountType .mint) :
      DataProgram Unit) data₁ = some (.ok (), extendedBytes raw (b.withRoom room).bytes))
    {result : ProgramResult Unit} {tlvData : List UInt8}
    (wrote : writeVariableLenExtension t value (decide (t ∈ b.row.keys)) (b.withRoom room).bytes =
      some (result, tlvData)) :
    writeOnceGrown crates t value data.length (decide (t ∈ b.row.keys)) data₁ =
      some (result, extendedBytes raw tlvData) := by
  unfold writeOnceGrown
  unfold writeVariableLenExtension at wrote
  by_cases member : t ∈ b.row.keys
  · rw [if_pos (decide_eq_true member)] at wrote ⊢
    rw [onlyIf_neg (not_le.mpr (shape.lt_of_mem bare member))] at typedNow
    obtain rfl := (Prod.mk.inj (Option.some.inj typedNow)).2
    exact unpack_behind bare valid wrote
  · rw [if_neg (by simpa using member)] at wrote ⊢
    rw [typed] at wrote
    rw [bind_of_ok typedNow]
    exact unpack_behind bare valid wrote

section Variable

variable {value : VariableLen} {n : ℕ} {overwrite : Bool} {resize : Resize}
  (packedLen : value.getPackedLen = .ok n)
  (settled : (∃ bytes, value.Serialises bytes) ∨ value.Fails)
include packedLen

/-- The bytes of a value are as many as it says. -/
theorem VariableLen.Serialises.length {bytes : List UInt8} (serialises : value.Serialises bytes) :
    bytes.length = n := Except.ok.inj (serialises.getPackedLen.symm.trans packedLen)

/-- A value that is written leaves an account of the length that is required. -/
theorem outcome_of_written (mint : MintBytes crates data base b) (typed : t.getAccountType = .mint)
    {bytes : List UInt8} (serialises : value.Serialises bytes) {b' : TlvBuffer}
    (row : b'.row = put t bytes b.row)
    (length : (extendedBytes (data.take 82) b'.bytes).length =
      requiredLen (put t (List.replicate n 0) b.row)) :
    SerializeOutcome crates resize base b t overwrite data value.Serialises (· = ·) (.ok ())
      (extendedBytes (data.take 82) b'.bytes) := by
  have named := ne_uninitialized_of_mint typed
  have valid : (extendedBytes (data.take 82) b'.bytes).length ≠ multisigLen := by
    rw [length]
    exact requiredLen_ne _
  refine .ok serialises (mint.shape.1.serializedMint typed named row valid) ?_
  rw [length, row, ← serialises.length packedLen, requiredLen_put]

include settled

/-- Why a write fails where there is room. -/
theorem outcome_of_unwritten {error : ProgramError} {data' : List UInt8}
    (reason : (¬ ∃ bytes, value.Serialises bytes) ∨ 2 ^ 16 ≤ n) :
    SerializeOutcome crates resize base b t overwrite data value.Serialises (· = ·) (.error error)
      data' := by
  rcases settled with ⟨bytes, serialises⟩ | fails
  · refine .long serialises ?_
    rw [serialises.length packedLen]
    exact reason.resolve_left fun none => none ⟨bytes, serialises⟩
  · exact .unserializable fails.not_serialises

/-- A resize that is refused. -/
theorem outcome_of_refused {error : ProgramError} {data' : List UInt8}
    (refused : resize.run (requiredLen (put t (List.replicate n 0) b.row)) data' = .error error) :
    SerializeOutcome crates resize base b t overwrite data value.Serialises (· = ·) (.error error)
      data' := by
  rcases settled with ⟨bytes, serialises⟩ | fails
  · refine .refused serialises ?_
    rwa [← serialises.length packedLen, requiredLen_put] at refused
  · exact .unserializable fails.not_serialises

/-- **First the account grows**, then the value is written. -/
theorem grow_outcome (mint : MintBytes crates data base b) (typed : t.getAccountType = .mint)
    (short : data.length < requiredLen (put t (List.replicate n 0) b.row)) :
    ∃ result data', (do
        resize.program (requiredLen (put t (List.replicate n 0) b.row))
        writeOnceGrown crates t value data.length (decide (t ∈ b.row.keys)) : DataProgram Unit)
        data = some (result, data') ∧
      SerializeOutcome crates resize base b t overwrite data value.Serialises (· = ·) result
        data' := by
  obtain ⟨bare, shape, notMultisig⟩ := mint.shape
  have room := makeRoom bare resize shape (le_of_add_le_right (le_requiredLen _))
    (requiredLen_ne (put t (List.replicate n 0) b.row))
  rw [onlyIf_pos short] at room
  rcases room with ⟨error, failed, refused⟩ | ⟨data₁, room, grown, typedNow, total⟩
  · rw [bind_of_error failed]
    exact ⟨_, _, rfl, outcome_of_refused packedLen settled refused⟩
  · rw [max_eq_right short.le] at total
    have valid : (extendedBytes (data.take 82) (b.withRoom room).bytes).length ≠ multisigLen := by
      rw [total]
      exact requiredLen_ne _
    rw [bind_of_ok grown]
    rcases writeVariableLenExtension_settles (b := b.withRoom room) (ne_uninitialized_of_mint typed)
      packedLen settled (hasRoom_of_le bare total.ge) with
      ⟨bytes, tlvData, serialises, wrote, b', rfl, row, same⟩ | ⟨⟨error, tlvData, failed⟩, reason⟩
    · refine ⟨_, _, writeOnceGrown_eq bare shape typed valid typedNow wrote,
        outcome_of_written packedLen mint typed serialises row ?_⟩
      rw [← total, bare.length_extendedBytes, bare.length_extendedBytes, same]
    · exact ⟨_, _, writeOnceGrown_eq bare shape typed valid typedNow failed,
        outcome_of_unwritten packedLen settled reason⟩

/-- **The bytes that are too many go**, once the value is written. -/
theorem removeBytes_outcome (mint : MintBytes crates data base b)
    (typed : t.getAccountType = .mint)
    (long : requiredLen (put t (List.replicate n 0) b.row) ≤ data.length) {bytes : List UInt8}
    (serialises : value.Serialises bytes) {b' : TlvBuffer} (row : b'.row = put t bytes b.row)
    (kept : (extendedBytes (data.take 82) b'.bytes).length = data.length) :
    ∃ result data', removeBytes resize data.length (requiredLen (put t (List.replicate n 0) b.row))
        (extendedBytes (data.take 82) b'.bytes) = some (result, data') ∧
      SerializeOutcome crates resize base b t overwrite data value.Serialises (· = ·) result
        data' := by
  obtain ⟨bare, shape, notMultisig⟩ := mint.shape
  have taken : okOr (checkedSub data.length (requiredLen (put t (List.replicate n 0) b.row)))
      ProgramError.accountDataTooSmall =
        .ok (data.length - requiredLen (put t (List.replicate n 0) b.row)) := by
    rw [okOr_eq_ok_iff, checkedSub_eq_some_iff]
    exact ⟨long, rfl⟩
  unfold removeBytes
  rw [bind_of_ok (ofExcept_of_ok taken)]
  by_cases excess : 0 < data.length - requiredLen (put t (List.replicate n 0) b.row)
  · rw [onlyIf_pos excess]
    unfold Resize.program
    cases ran : resize.run (requiredLen (put t (List.replicate n 0) b.row))
        (extendedBytes (data.take 82) b'.bytes) with
    | error e => exact ⟨_, _, rfl, outcome_of_refused packedLen settled ran⟩
    | ok data' =>
      have least := le_requiredLen b'.row
      have needed : requiredLen b'.row = requiredLen (put t (List.replicate n 0) b.row) := by
        rw [row, ← serialises.length packedLen, requiredLen_put]
      obtain rfl := resize.extended bare (by rw [← needed]; exact least) ran
      refine ⟨_, _, rfl, outcome_of_written packedLen mint typed serialises row ?_⟩
      rw [bare.length_extendedBytes, TlvBuffer.length_bytes]
      show (rawRowBytes b'.row).length + (_ - 166 - (rawRowBytes b'.row).length) + 166 = _
      omega
  · rw [onlyIf_neg excess]
    refine ⟨_, _, rfl, outcome_of_written packedLen mint typed serialises row ?_⟩
    omega

/-- **First the value is written**, then the account shrinks. -/
theorem shrink_outcome (mint : MintBytes crates data base b) (typed : t.getAccountType = .mint)
    (long : requiredLen (put t (List.replicate n 0) b.row) ≤ data.length) :
    ∃ result data', (do
        let start ← reading fun buffer =>
          .of (PodStateWithExtensionsMut.unpack (podMint crates) buffer)
        behind start (if decide (t ∈ b.row.keys) = true then reallocVariableLenExtension t value
          else initVariableLenExtension .mint t value false)
        removeBytes resize data.length (requiredLen (put t (List.replicate n 0) b.row)) :
          DataProgram Unit) data = some (result, data') ∧
      SerializeOutcome crates resize base b t overwrite data value.Serialises (· = ·) result
        data' := by
  obtain ⟨bare, shape, notMultisig⟩ := mint.shape
  have whole := shape.eq_extendedBytes bare long
  have valid : (extendedBytes (data.take 82) b.bytes).length ≠ multisigLen := by rwa [← whole]
  have start := bare.unpackMut valid
  rw [← whole] at start
  rw [bind_of_ok (reading_of (congrArg Panicking.of start))]
  have written := writeVariableLenExtension_settles (ne_uninitialized_of_mint typed) packedLen
    settled (hasRoom_of_le bare (whole ▸ long))
  unfold writeVariableLenExtension at written
  rw [typed] at written
  rcases written with ⟨bytes, tlvData, serialises, wrote, b', rfl, row, same⟩ |
    ⟨⟨error, tlvData, failed⟩, reason⟩
  · have kept : (extendedBytes (data.take 82) b'.bytes).length = data.length := by
      rw [bare.length_extendedBytes, same, ← bare.length_extendedBytes, ← whole]
    have first := behind_extended bare wrote
    rw [← whole] at first
    rw [bind_of_ok first]
    exact removeBytes_outcome packedLen settled mint typed long serialises row kept
  · have first := behind_extended bare failed
    rw [← whole] at first
    rw [bind_of_error first]
    exact ⟨_, _, rfl, outcome_of_unwritten packedLen settled reason⟩

end Variable

/-- **`alloc_and_serialize_variable_len_extension` is correct.** -/
theorem allocAndSerializeVariableLenExtension_outcome (resize : Resize)
    (mint : MintBytes crates data base b) (typed : t.getAccountType = .mint) (value : VariableLen)
    (settled : (∃ bytes, value.Serialises bytes) ∨ value.Fails) (overwrite : Bool) :
    ∃ result data', allocAndSerializeVariableLenExtension (podMint crates) resize t value overwrite
      data = some (result, data') ∧
      SerializeOutcome crates resize base b t overwrite data value.Serialises (· = ·) result
        data' := by
  unfold allocAndSerializeVariableLenExtension
  rw [podMint_kind, bind_of_ok (m := len) rfl]
  cases packedLen : value.getPackedLen with
  | error e =>
    have asked : (do
        let state ← PodStateWithExtensions.unpack (podMint crates) data
        let packedLen ← (.error e : ProgramResult ℕ)
        let newAccountLen ← tryGetNewAccountLenForExtensionLen .mint t state.tlvData packedLen
        .ok (newAccountLen, (getExtensionBytes .mint t state.tlvData).isOk)) = .error e := by
      rw [mint.unpack]
      rfl
    rw [bind_of_error (reading_of (congrArg Panicking.of asked))]
    refine ⟨_, _, rfl, .unserializable ?_⟩
    rintro ⟨bytes, serialises⟩
    rw [serialises.getPackedLen] at packedLen
    cases packedLen
  | ok n =>
    have asked : (do
        let state ← PodStateWithExtensions.unpack (podMint crates) data
        let packedLen ← (.ok n : ProgramResult ℕ)
        let newAccountLen ← tryGetNewAccountLenForExtensionLen .mint t state.tlvData packedLen
        .ok (newAccountLen, (getExtensionBytes .mint t state.tlvData).isOk)) =
          .ok (requiredLen (put t (List.replicate n 0) b.row), decide (t ∈ b.row.keys)) := by
      rw [mint.unpack]
      show (tryGetNewAccountLenForExtensionLen .mint t b.bytes n >>= _) = _
      rw [tryGetNewAccountLen_mint typed, ← isOk_getExtensionBytes typed]
      rfl
    rw [bind_of_ok (reading_of (congrArg Panicking.of asked))]
    dsimp only
    by_cases kept : decide (t ∈ b.row.keys) = true ∧ overwrite = false
    · rw [bind_of_error (check_neg (not_not_intro kept) _)]
      exact ⟨_, _, rfl, .present (of_decide_eq_true kept.1) kept.2⟩
    · rw [bind_of_ok (check_pos kept _)]
      by_cases short : data.length < requiredLen (put t (List.replicate n 0) b.row)
      · rw [if_pos short]
        exact grow_outcome packedLen settled mint typed short
      · rw [if_neg short]
        exact shrink_outcome packedLen settled mint typed (not_lt.mp short)

end Correct

/-- **The writers of extensions are correct end to end**, on a mint that is bare, of exactly its
length, or longer: of plain old data, where a value that is there has its size, and of a value of
variable length, which serialises or fails to. -/
theorem alloc_and_serialize_correct {crates : Crates} {data : List UInt8} {base : PodMint}
    {b : TlvBuffer} {t : ExtensionType} (resize : Resize) (overwrite : Bool)
    (mint : MintBytes crates data base b) (typed : t.getAccountType = .mint) :
    (∀ {V : Type} (pod : Fixed V) (default newExtension : V),
      (∀ held, find t b.row = some held → held.length = pod.size) →
      ∃ result data', allocAndSerialize (podMint crates) resize t pod default newExtension overwrite
        data = some (result, data') ∧
        SerializeOutcome crates resize base b t overwrite data (· = pod.write newExtension) (· ≤ ·)
          result data') ∧
    ∀ newExtension : VariableLen,
      ((∃ bytes, newExtension.Serialises bytes) ∨ newExtension.Fails) →
      ∃ result data', allocAndSerializeVariableLenExtension (podMint crates) resize t newExtension
        overwrite data = some (result, data') ∧
        SerializeOutcome crates resize base b t overwrite data newExtension.Serialises (· = ·)
          result data' :=
  ⟨fun pod default newExtension => allocAndSerialize_outcome resize mint typed pod default
      newExtension overwrite,
    fun newExtension settled => allocAndSerializeVariableLenExtension_outcome resize mint typed
      newExtension settled overwrite⟩

/-- A runtime that grants every length. -/
def Resize.granted : Resize where
  run n data := .ok (data.take n ++ List.replicate (n - data.length) 0)
  run_eq ran := (Except.ok.inj ran).symm

/-- A bare mint gains metadata of one byte: 171 bytes in all. -/
theorem alloc_and_serialize_correct_bare : ∃ data',
    allocAndSerializeVariableLenExtension (podMint Crates.basic) .granted .tokenMetadata (.zeroes 1)
        false (List.replicate 45 0 ++ 1 :: List.replicate 36 0) = some (.ok (), data') ∧
      data'.length = 171 ∧ data'.take 82 = List.replicate 45 0 ++ 1 :: List.replicate 36 0 ∧
      ∃ st, PodStateWithExtensions.unpack (podMint Crates.basic) data' = .ok st ∧
        getExtensionBytes .mint .tokenMetadata st.tlvData = .ok [0] := by
  let b : TlvBuffer := {
    row := []
    room := 0
    readable := by simp [Readable]
    distinct := List.nodup_nil }
  have mint : MintBytes Crates.basic (List.replicate 45 0 ++ 1 :: List.replicate 36 0)
      (PodMint.ofBytes (List.replicate 45 0 ++ 1 :: List.replicate 36 0)) b := ⟨by rfl⟩
  have serialises := VariableLen.serialises_zeroes 1
  obtain ⟨result, data', ran, outcome⟩ := (alloc_and_serialize_correct (t := .tokenMetadata)
    .granted false mint rfl).2 (.zeroes 1) (.inl ⟨_, serialises⟩)
  cases outcome with
  | @ok bytes data' b' value written length =>
    have same : bytes = [0] := by
      have size : bytes.length = 1 := (Except.ok.inj value.getPackedLen).symm
      exact (Prod.mk.inj ((value.packIntoSlice [0] size.symm).symm.trans
        (serialises.packIntoSlice [0] rfl))).2
    subst same
    refine ⟨data', ran, ?_, written.bytes, _, written.unpack, written.read⟩
    rw [← length, written.row]
    rfl
  | present there kept => exact absurd there List.not_mem_nil
  | unserializable none => exact absurd ⟨_, serialises⟩ none
  | long value long =>
    have size := (Except.ok.inj value.getPackedLen).symm
    omega
  | refused value refused => cases refused

end Token2022.Interface
