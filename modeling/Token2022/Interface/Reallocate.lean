/-
**Reallocation, on the bytes of an account.**

The length is asked for in terms of extensions. Where the data are shorter, they grow by zeroes, a base
alone gains the account type, and the base of a native account is packed again with its new reserve.

* `StateWithExtensionsMut.unpack`, `growAccount`, `reallocate` — what `process_reallocate` does to the
  data.
* `Resize.Grants` — the runtime grants data that are not much longer.
* `resize_accountData`, `setAccountType_account` — the zeroes, and the account type behind the base.
* **`reallocate_eq`**, **`growAccount_eq`** — the bytes of an account stay as they are, or become those
  of the account that has grown.
-/

import Token2022.Interface.AccountLen
import Token2022.Interface.AllocAndSerialize
import Token2022.Interface.Layout

namespace Token2022.Interface

open Fallible SliceProgram

/-! ### The program -/

/-- `StateWithExtensionsMut::unpack`: the base. -/
def StateWithExtensionsMut.unpack {S : Type} (crates : Crates) (B : PackBase S)
    (input : List UInt8) : ProgramResult S := do
  checkMinLenAndNotMultisig input B.kind.baseLen
  let base ← crates.unpack B.kind.baseLen B.unpackFromSlice B.isInitialized
    (input.take B.kind.baseLen)
  let rest := input.drop B.kind.baseLen
  match ← typeAndTlvIndices B.kind rest with
  | some (accountTypeIndex, _) => do
    let accountType ← accountTypeOfByte (byteAt rest accountTypeIndex)
    checkAccountType B.kind accountType
    .ok base
  -- Two empty slices.
  | none => .ok base

/-- The end of `process_reallocate`, on data that are too short: longer data, the account type, and
the reserve of a native account, which `pack_base` writes. -/
def growAccount (crates : Crates) (resize : Resize) (neededAccountLen newRentExemptReserve : ℕ)
    (isNative : Bool) : DataProgram Unit := do
  resize.program neededAccountLen
  setAccountType .account
  onlyIf (isNative = true) do
    let base ← reading fun tokenAccount =>
      .of (StateWithExtensionsMut.unpack crates packAccount tokenAccount)
    within (0, packAccount.kind.baseLen) fun baseData => (.ok (), packAccount.packIntoSlice
      { base with isNative := some (.ofNat newRentExemptReserve) } baseData)

/-- **What `process_reallocate` does to the data of the account**, where the owner signs and the
lamports suffice. -/
def reallocate (crates : Crates) (resize : Resize) (minimumBalance : ℕ → ℕ)
    (newExtensionTypes : List ExtensionType) : DataProgram Unit := do
  let (isNative, currentExtensionTypes) ← reading fun tokenAccount => .of do
    let account ← StateWithExtensions.unpack crates packAccount tokenAccount
    let tlvInfo ← getTlvDataInfo account.tlvData
    .ok (account.base.isNative.isSome, tlvInfo.extensionTypes)
  check (∀ t ∈ newExtensionTypes, t.getAccountType = .account) TokenError.invalidState
  let neededAccountLen ← ofExcept
    (tryCalculateAccountLen .account (currentExtensionTypes ++ newExtensionTypes))
  let dataLen ← len
  onlyIf (dataLen < neededAccountLen)
    (growAccount crates resize neededAccountLen (minimumBalance neededAccountLen) isNative)

/-- **The runtime grants longer data**, up to `MAX_PERMITTED_DATA_INCREASE` more. -/
def Resize.Grants (resize : Resize) : Prop :=
  ∀ n data, n ≤ data.length + 10240 → ∃ data', resize.run n data = .ok data'

/-- The account with another reserve, where it is native. -/
def withReserve (st : TokenAccountState) (reserve : ℕ) : TokenAccountState :=
  if st.base.isNativeAccount then st.withBase { st.base with isNative := some reserve } else st

/-! ### Its steps -/

section Steps

variable {crates : Crates} {values : ValueBytes}

/-- What the mutable reader accepts, it reads as the other one. -/
theorem StateWithExtensionsMut.unpack_of {S : Type} {B : PackBase S} {input : List UInt8}
    {st : StateWithExtensions S} (ok : StateWithExtensions.unpack crates B input = .ok st) :
    StateWithExtensionsMut.unpack crates B input = .ok st.base := by
  have owned := (unpackOwned_eq input).trans ok
  simp only [StateWithExtensionsOwned.unpack, bind_eq_ok_iff] at owned
  obtain ⟨⟨⟩, long, base, read, indices, found, rest⟩ := owned
  simp only [StateWithExtensionsMut.unpack, bind_eq_ok_iff]
  refine ⟨(), long, base, read, indices, found, ?_⟩
  cases indices with
  | none =>
    obtain rfl := Except.ok.inj rest
    rfl
  | some pair =>
    simp only [bind_eq_ok_iff] at rest ⊢
    obtain ⟨accountType, typed, ⟨⟩, checked, same⟩ := rest
    obtain rfl := Except.ok.inj same
    exact ⟨accountType, typed, (), checked, rfl⟩

/-- The bytes of a buffer that grows: behind its own there are more zeroes. -/
theorem tlvData_grown (values : ValueBytes) {b b' : Buffer} (fits : Buffer.usedLen b.entries ≤ b.tlvLen)
    (entries : b'.entries = b.entries) (longer : b.tlvLen ≤ b'.tlvLen) :
    tlvData values b' = tlvData values b ++ List.replicate (b'.tlvLen - b.tlvLen) 0 := by
  have room : b'.tlvLen - Buffer.usedLen b.entries =
      b.tlvLen - Buffer.usedLen b.entries + (b'.tlvLen - b.tlvLen) := by omega
  rw [tlvData, tlvData, entries, room, List.replicate_add, List.append_assoc]

/-- **The data of an account that grow**: zeroes behind it, the first of them in the place of the
account type where the account was bare. -/
theorem resize_accountData (values : ValueBytes) {resize : Resize} (grants : resize.Grants)
    {st resized : TokenAccountState} {n : ℕ} (fits : Buffer.usedLen st.tlv.entries ≤ st.tlv.tlvLen)
    (grown : st.resize n = .ok resized) (longer : st.tlv.len < n) :
    ∃ kind : AccountType, (kind = .uninitialized ∨ kind = .account) ∧
      resize.program n (accountData values st) = some (.ok (),
        podAccountBytes st.base ++ accountTypeByte kind :: tlvData values resized.tlv.toBuffer) := by
  obtain ⟨-, entries, length⟩ := StateWithExtensions.resize_eq_ok grown
  have length' : resized.tlv.tlvLen = n - baseAccountAndTypeLength := by rw [Buffer.tlvLen, length]
  obtain ⟨data', ran⟩ := grants n (accountData values st)
    (by rw [length_accountData fits]; exact StateWithExtensions.resize_le grown)
  have bytes : data' = accountData values st ++ List.replicate (n - st.tlv.len) 0 := by
    rw [resize.run_eq ran, length_accountData fits,
      List.take_of_length_le (by rw [length_accountData fits]; exact longer.le)]
  have program : resize.program n (accountData values st) = some (.ok (), data') := by
    unfold Resize.program
    rw [ran]
  have tail := tlvData_grown values fits entries (by
    rw [length']
    exact Nat.sub_le_sub_right longer.le _)
  rw [length'] at tail
  by_cases bare : st.tlv.len = AccountType.account.baseLen
  · have none : st.tlv.tlvLen = 0 := by rw [Buffer.tlvLen, bare]; rfl
    have count : n - st.tlv.len = (n - baseAccountAndTypeLength) + 1 := by
      rw [bare] at longer ⊢
      simp only [AccountType.baseLen, baseAccountAndTypeLength] at longer ⊢
      omega
    refine ⟨.uninitialized, .inl rfl, program.trans ?_⟩
    rw [bytes, count, List.replicate_succ, tail, tlvData_eq_nil fits none, none, Nat.sub_zero,
      List.nil_append, accountData, if_pos bare]
    rfl
  · have long := st.tlv.valid.2.resolve_left bare
    have count : n - baseAccountAndTypeLength - st.tlv.tlvLen = n - st.tlv.len := by
      unfold Buffer.tlvLen
      omega
    refine ⟨.account, .inr rfl, program.trans ?_⟩
    rw [bytes, tail, count, accountData, if_neg bare, List.append_assoc, List.cons_append]

/-- The bytes of a base with what stands behind it, of which the first byte is the account type. -/
theorem typedBytes_length (account : Token2022.PodAccount) (byte : UInt8) (tail : List UInt8) :
    (podAccountBytes account ++ byte :: tail).length = baseAccountAndTypeLength + tail.length := by
  rw [List.length_append, length_podAccountBytes, List.length_cons]
  simp only [AccountType.baseLen, baseAccountAndTypeLength]
  omega

/-- The bytes of an account are those of an initialized one. -/
theorem isInitializedAccount_podAccountBytes (account : Token2022.PodAccount) :
    isInitializedAccount (podAccountBytes account) = true := by
  have state : (podAccountBytes account).getD 108 (accountStateByte .uninitialized) =
      accountStateByte account.state := (slices_podAccountBytes account).2.1
  unfold isInitializedAccount
  rw [state]
  exact decide_eq_true fun zero => account.initialized (accountStateByte_inj.mp zero)

/-- The account type of an account stands right behind its base. -/
theorem typeAndTlvIndices_account (byte : UInt8) (tail : List UInt8) :
    typeAndTlvIndices .account (byte :: tail) = .ok (some (0, 1)) := by
  unfold typeAndTlvIndices
  rw [if_neg (List.cons_ne_nil byte tail)]
  refine require_bind_eq_ok_iff.mpr ⟨Nat.succ_le_succ (Nat.zero_le _), ?_⟩
  refine require_bind_eq_ok_iff.mpr ⟨not_any_ne_zero.mpr ?_, rfl⟩
  exact fun padding member => absurd member List.not_mem_nil

/-- **`set_account_type` leaves the type of an account**, over none or over itself. -/
theorem setAccountType_account (account : Token2022.PodAccount) {kind : AccountType}
    (known : kind = .uninitialized ∨ kind = .account) (tail : List UInt8)
    (length : (podAccountBytes account ++ accountTypeByte kind :: tail).length ≠ multisigLen) :
    setAccountType .account (podAccountBytes account ++ accountTypeByte kind :: tail) =
      some (.ok (), podAccountBytes account ++ accountTypeByte .account :: tail) := by
  have base : (podAccountBytes account ++ accountTypeByte kind :: tail).take
      AccountType.account.baseLen = podAccountBytes account :=
    List.take_left' (length_podAccountBytes account)
  have rest : (podAccountBytes account ++ accountTypeByte kind :: tail).drop
      AccountType.account.baseLen = accountTypeByte kind :: tail :=
    List.drop_left' (length_podAccountBytes account)
  have checked : checkMinLenAndNotMultisig (podAccountBytes account ++ accountTypeByte kind :: tail)
      AccountType.account.baseLen = .ok () := by
    refine checkMinLen_eq_ok_iff.mpr ⟨length, ?_⟩
    rw [typedBytes_length]
    exact (Nat.le_succ 165).trans (Nat.le_add_right ..)
  have initialized : isInitializedAccount ((podAccountBytes account ++
      accountTypeByte kind :: tail).take AccountType.account.baseLen) = true := by
    rw [base, isInitializedAccount_podAccountBytes]
  have indices : typeAndTlvIndices .account ((podAccountBytes account ++
      accountTypeByte kind :: tail).drop AccountType.account.baseLen) = .ok (some (0, 1)) := by
    rw [rest, typeAndTlvIndices_account]
  have typed : accountTypeOfByte (byteAt ((podAccountBytes account ++
      accountTypeByte kind :: tail).drop AccountType.account.baseLen) 0) = .ok kind := by
    rw [rest]
    exact accountTypeOfByte_eq_ok_iff.mpr rfl
  rw [setAccountType_eq checked (fun _ => initialized) indices typed]
  rcases known with rfl | rfl
  · rw [if_pos rfl]
    have written : (write 165 [accountTypeByte .account] : DataProgram Unit)
        (podAccountBytes account ++ ([accountTypeByte .uninitialized] ++ tail)) =
          some (.ok (), podAccountBytes account ++ ([accountTypeByte .account] ++ tail)) :=
      write_append _ _ (length_podAccountBytes account) rfl
    exact written
  · rw [if_neg (by decide)]
    exact ofExcept_of_ok (require_eq_ok_iff.mpr rfl)

end Steps

/-! ### The whole program -/

section Whole

variable {crates : Crates} {values : ValueBytes} {resize : Resize} {minimumBalance : ℕ → ℕ}
  {newExtensionTypes : List ExtensionType} {st resized : TokenAccountState}

/-- **What the program reads first.** -/
theorem read_accountData (fits : Buffer.usedLen st.tlv.entries ≤ st.tlv.tlvLen)
    (storable : Storable st.tlv.entries) :
    (do let account ← StateWithExtensions.unpack crates packAccount (accountData values st)
        let tlvInfo ← getTlvDataInfo account.tlvData
        .ok (account.base.isNative.isSome, tlvInfo.extensionTypes) :
          ProgramResult (Bool × List ExtensionType)) =
      .ok (st.base.isNativeAccount, st.extensionTypes) := by
  rw [unpack_accountData crates values fits]
  show (getTlvDataInfo (tlvData values st.tlv.toBuffer) >>= _) = _
  rw [getTlvDataInfo_tlvData values storable]
  show Except.ok ((st.base.isNative.map UInt64.ofNat).isSome, _) = _
  rw [Option.isSome_map]
  rfl

/-- An account that has grown is not bare. -/
theorem extended_of_resize {n : ℕ} (grown : st.resize n = .ok resized) (longer : st.tlv.len < n) :
    resized.tlv.len ≠ AccountType.account.baseLen := by
  rw [(StateWithExtensions.resize_eq_ok grown).2.2]
  rcases st.tlv.valid.2 with bare | long
  · rw [← bare]
    exact longer.ne'
  · simp only [AccountType.baseLen, baseAccountAndTypeLength] at long ⊢
    omega

/-- **Data that are too short become those of the account that has grown.** -/
theorem growAccount_eq (grants : resize.Grants) {n reserve : ℕ}
    (fits : Buffer.usedLen st.tlv.entries ≤ st.tlv.tlvLen) (grown : st.resize n = .ok resized)
    (longer : st.tlv.len < n) :
    growAccount crates resize n reserve st.base.isNativeAccount (accountData values st) =
      some (.ok (), accountData values (withReserve resized reserve)) := by
  obtain ⟨base, entries, length⟩ := StateWithExtensions.resize_eq_ok grown
  obtain ⟨kind, known, resizes⟩ := resize_accountData values grants fits grown longer
  have fits' : Buffer.usedLen resized.tlv.entries ≤ resized.tlv.tlvLen := by
    rw [entries, Buffer.tlvLen, length]
    exact fits.trans (Nat.sub_le_sub_right longer.le _)
  have extended := extended_of_resize grown longer
  have bytes : accountData values resized =
      podAccountBytes st.base ++ accountTypeByte .account :: tlvData values resized.tlv.toBuffer := by
    rw [accountData, if_neg extended, base]
  have notMultisig : (podAccountBytes st.base ++
      accountTypeByte kind :: tlvData values resized.tlv.toBuffer).length ≠ multisigLen := by
    have total : (accountData values resized).length = resized.tlv.len := length_accountData fits'
    rw [bytes, typedBytes_length] at total
    rw [typedBytes_length, total]
    exact resized.tlv.valid.1
  unfold growAccount
  rw [bind_of_ok resizes, bind_of_ok (setAccountType_account st.base known _ notMultisig), ← bytes]
  unfold withReserve
  rw [base]
  cases native : st.base.isNativeAccount with
  | false =>
    rw [onlyIf_neg Bool.false_ne_true]
    rfl
  | true =>
    have read := StateWithExtensionsMut.unpack_of (unpack_accountData crates values fits')
    have packed : (within (0, packAccount.kind.baseLen) fun baseData => (.ok (),
        packAccount.packIntoSlice { packedAccount st.base with isNative := some (.ofNat reserve) }
          baseData) : DataProgram Unit)
          ([] ++ (podAccountBytes st.base ++
            accountTypeByte .account :: tlvData values resized.tlv.toBuffer)) =
        some (.ok (), [] ++ (packAccount.packIntoSlice
          { packedAccount st.base with isNative := some (.ofNat reserve) } (podAccountBytes st.base) ++
            accountTypeByte .account :: tlvData values resized.tlv.toBuffer)) :=
      within_append [] _ (podAccountBytes st.base) _ rfl (by simp [packAccount])
    have written : accountData values (resized.withBase { st.base with isNative := some reserve }) =
        podAccountBytes { st.base with isNative := some reserve } ++
          accountTypeByte .account :: tlvData values resized.tlv.toBuffer := if_neg extended
    rw [onlyIf_pos rfl, bind_of_ok (reading_of (congrArg Panicking.of read)), bytes, base, if_pos rfl,
      written, ← packIntoSlice_podAccountBytes]
    exact packed

/-- **What the program does to the bytes of an account.** -/
theorem reallocate_eq (fits : Buffer.usedLen st.tlv.entries ≤ st.tlv.tlvLen)
    (storable : Storable st.tlv.entries) (held : ∀ t ∈ st.extensionTypes, t.getAccountType = .account)
    (asked : ∀ t ∈ newExtensionTypes, t.getAccountType = .account) :
    let needed := tokenAccountLen (st.extensionTypes ++ newExtensionTypes).toFinset
    reallocate crates resize minimumBalance newExtensionTypes (accountData values st) =
      onlyIf (st.tlv.len < needed)
        (growAccount crates resize needed (minimumBalance needed) st.base.isNativeAccount)
        (accountData values st) := by
  have kinds : ∀ t ∈ st.extensionTypes ++ newExtensionTypes, t.getAccountType = .account :=
    fun t member => (List.mem_append.mp member).elim (held t) (asked t)
  intro needed
  unfold reallocate
  rw [bind_of_ok (reading_of (congrArg Panicking.of (read_accountData fits storable)))]
  show (check (∀ t ∈ newExtensionTypes, t.getAccountType = .account) _ >>= _) _ = _
  rw [bind_of_ok (check_pos asked _), bind_of_ok (ofExcept_of_ok (tryCalculateAccountLen_eq kinds)),
    bind_of_ok (m := len) rfl, length_accountData fits]

end Whole

end Token2022.Interface
