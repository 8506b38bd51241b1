/-
**The readers on the bytes of the program's data.**

Each reader meets the data of the others: a mint that is read as an account shows a state of zero, and
an account that is read as a mint shows byte 13 of its owner where a mint says that it is initialized.
What is not initialized yet is zeroes up to the entries of its extensions.

* `zeroedData` — the bytes of data whose base is still zero.
* `PodStateWithExtensionsMut.unpackUninitialized` — the reader in front of an initialization.
* `validateOwnerData` — `validate_owner`, on the bytes of a multisig.
* `Crates.Flags` — every byte but zero is a flag that is set.
* **`unpackPod_accountData`**, **`unpackPod_mintData`**, **`unpackPod_zeroedData`** — what the readers of
  the two kinds make of these bytes, and **`unpackUninitialized_zeroedData`**, the one in front.
* **`getExtensionBytes_tlvData`** — the value of an extension, or why there is none.
-/

import Token2022.Interface.Reallocate
import Token2022.Runtime

namespace Token2022.Interface

open Bytes Fallible KeyedList Panicking

/-! ### Bytes that are not initialized -/

/-- The bytes of data whose base is still zero: zeroes up to the account type, which is zero too, and
the entries that were written behind it. -/
def zeroedData (values : ValueBytes) (b : Buffer) : List UInt8 :=
  List.replicate (min b.len baseAccountAndTypeLength) 0 ++ tlvData values b

/-- `check_account_type_matches_extension_type`. -/
def checkAccountTypeMatchesExtensionType (kind : AccountType) (tlvData : List UInt8) :
    ProgramResult Unit := do
  match ← getFirstExtensionType tlvData with
  | some t => require (t.getAccountType = kind) TokenError.extensionBaseMismatch
  | none => .ok ()

/-- `unpack_uninitialized_type_and_tlv_data_mut`: where the bytes of the extensions start, behind the
base. -/
def unpackUninitializedTypeAndTlvDataMut (kind : AccountType) (rest : List UInt8) :
    ProgramResult ℕ := do
  match ← typeAndTlvIndices kind rest with
  | some (accountTypeIndex, tlvStartIndex) => do
    let accountType ← accountTypeOfByte (byteAt rest accountTypeIndex)
    require (accountType = .uninitialized) .invalidAccountData
    .ok tlvStartIndex
  -- Two empty slices.
  | none => .ok rest.length

/-- `PodStateWithExtensionsMut::unpack_uninitialized`: where the bytes of the extensions start. -/
def PodStateWithExtensionsMut.unpackUninitialized {S : Type} (B : PodBase S) (input : List UInt8) :
    ProgramResult ℕ := do
  checkMinLenAndNotMultisig input B.kind.baseLen
  let base := B.ofBytes (input.take B.kind.baseLen)
  if B.isInitialized base then .error TokenError.alreadyInUse
  else do
    let tlvStartIndex ←
      unpackUninitializedTypeAndTlvDataMut B.kind (input.drop B.kind.baseLen)
    let start := B.kind.baseLen + tlvStartIndex
    checkAccountTypeMatchesExtensionType B.kind (input.drop start)
    .ok start

/-- `validate_owner`, with the bytes of the owner account and the program that it belongs to. -/
def validateOwnerData (crates : Crates) (expectedOwner : Address) (owner : AccountMeta)
    (program : Address) (data : List UInt8) (signers : List AccountMeta) :
    Panicking ProgramError Unit := do
  .of (require (expectedOwner = owner.key) TokenError.ownerMismatch)
  if (program = programId ∨ program = inlineSplTokenId) ∧ data.length = multisigLen then do
    let multisig ← .of (unpackPodMultisig crates data)
    -- The loop over the keys is inside the one over the signers.
    let keys ← if signers = [] then .of (.ok [])
      else Panicking.index multisig.signers 0 multisig.n.toNat
    .of do
      let (count, _) ← signers.foldlM (countSigner keys) (0, fun _ => false)
      require (multisig.m.toNat ≤ count) .missingRequiredSignature
  else .of (require owner.isSigner .missingRequiredSignature)

/-- `m`, and the first `n` of the keys. -/
def multisigView (multisig : PodMultisig) : Token2022.PodMultisig where
  m := multisig.m.toNat
  signers := multisig.signers.take multisig.n.toNat

/-- `bool::from` of a zero-copy `Bool` is set for every byte but zero. -/
def Crates.Flags (crates : Crates) : Prop := ∀ byte, crates.bool byte = decide (byte ≠ 0)

/-- Where the bytes of the extensions start, in data of the length. -/
def tlvStart (kind : AccountType) (len : ℕ) : ℕ :=
  if len = kind.baseLen then len else baseAccountAndTypeLength

/-! ### Single bytes -/

section Bytes

theorem byteAt_append_left {front rest : List UInt8} {offset : ℕ} (inside : offset < front.length) :
    byteAt (front ++ rest) offset = byteAt front offset := by
  simp only [byteAt, List.getD_eq_getElem?_getD, List.getElem?_append_left inside]

theorem byteAt_append_right {front rest : List UInt8} {offset : ℕ} (behind : front.length ≤ offset) :
    byteAt (front ++ rest) offset = byteAt rest (offset - front.length) := by
  simp only [byteAt, List.getD_eq_getElem?_getD, List.getElem?_append_right behind]

theorem byteAt_replicate (n offset : ℕ) : byteAt (List.replicate n 0) offset = 0 := by
  simp only [byteAt, List.getD_eq_getElem?_getD, List.getElem?_replicate]
  split <;> rfl

theorem byteAt_take {bytes : List UInt8} {n offset : ℕ} (inside : offset < n) :
    byteAt (bytes.take n) offset = byteAt bytes offset := by
  simp only [byteAt, List.getD_eq_getElem?_getD, List.getElem?_take_of_lt inside]

/-- Byte `i` of a number, from the low end. -/
theorem getElem?_leBytes {k i : ℕ} (n : ℕ) (inside : i < k) :
    (leBytes k n)[i]? = some (.ofNat (n / 256 ^ i)) := by
  induction k generalizing n i with
  | zero => omega
  | succ k ih =>
    cases i with
    | zero => simp [leBytes]
    | succ i =>
      rw [leBytes, List.getElem?_cons_succ, ih _ (by omega), Nat.div_div_eq_div_mul, pow_succ,
        Nat.mul_comm]

/-- **Byte `i` of an address** stands at offset `i`. -/
theorem byteAt_addressBytes (a : Address) {i : ℕ} (inside : i < 32) :
    (byteAt (addressBytes a) i).toBitVec = a.byte i := by
  have place : (addressBytes a)[i]? = some (.ofNat (a.bits.toNat / 256 ^ (31 - i))) := by
    rw [addressBytes, List.getElem?_reverse (by simpa using inside), length_leBytes]
    exact getElem?_leBytes _ (by omega)
  rw [byteAt, List.getD_eq_getElem?_getD, place, Option.getD_some]
  apply BitVec.eq_of_toNat_eq
  have power : 256 ^ (31 - i) = 2 ^ (8 * (31 - i)) := by
    rw [show 256 = 2 ^ 8 from rfl, ← pow_mul]
  rw [Address.byte, BitVec.toNat_setWidth, BitVec.toNat_ushiftRight, Nat.shiftRight_eq_div_pow, power]
  exact UInt8.toNat_ofNat'

end Bytes

/-! ### Where the readers look -/

section Fronts

variable {values : ValueBytes} {crates : Crates}

/-- The base of a token account is in front of its bytes. -/
theorem take_accountData (values : ValueBytes) (st : TokenAccountState) :
    (accountData values st).take AccountType.account.baseLen = podAccountBytes st.base := by
  unfold accountData
  split
  · rw [List.take_of_length_le (length_podAccountBytes _).le]
  · exact List.take_left' (length_podAccountBytes _)

/-- A reader of accounts looks at the state. -/
theorem isInitialized_account {bytes : List UInt8} :
    PodAccount.isInitialized (PodAccount.ofBytes (bytes.take AccountType.account.baseLen)) =
      (byteAt bytes 108 = 1 || byteAt bytes 108 = 2) := by
  show (byteAt (bytes.take 165) 108 = 1 || byteAt (bytes.take 165) 108 = 2) = _
  rw [byteAt_take (by omega)]

/-- A reader of mints looks at the flag. -/
theorem isInitialized_mint {bytes : List UInt8} :
    (podMint crates).isInitialized (PodMint.ofBytes (bytes.take AccountType.mint.baseLen)) =
      crates.bool (byteAt bytes 45) := by
  show crates.bool (byteAt (bytes.take 82) 45) = _
  rw [byteAt_take (by omega)]

/-- The state of a token account. -/
theorem state_accountData (values : ValueBytes) (st : TokenAccountState) :
    byteAt (accountData values st) 108 = accountStateByte st.base.state := by
  have front : byteAt (podAccountBytes st.base) 108 = accountStateByte st.base.state :=
    (slices_podAccountBytes st.base).2.1
  rw [← front, ← take_accountData values st, byteAt_take (by decide)]

/-- Byte 13 of the owner of a token account stands where a mint has its flag. -/
theorem flag_accountData (values : ValueBytes) (st : TokenAccountState) :
    (byteAt (accountData values st) 45).toBitVec = st.base.owner.byte 13 := by
  have front : byteAt (podAccountBytes st.base) 45 = byteAt (addressBytes st.base.owner) 13 := by
    rw [podAccountBytes, byteAt_append_right (by simp), length_addressBytes,
      byteAt_append_left (by simp)]
  rw [← byteAt_take (n := AccountType.account.baseLen) (by decide), take_accountData, front,
    byteAt_addressBytes _ (by omega)]

/-- Where a token account has its state, a mint has padding, if it is that long. -/
theorem state_mintData (values : ValueBytes) (mint : MintState) :
    byteAt (mintData values mint) 108 = 0 := by
  unfold mintData
  split
  · rw [byteAt, List.getD_eq_getElem?_getD, List.getElem?_eq_none (by simp [AccountType.baseLen])]
    rfl
  · rw [byteAt_append_right (by simp [AccountType.baseLen]), length_podMintBytes, byteAt_append_left
      (by simp [AccountType.baseLen, baseAccountLength]), byteAt_replicate]

/-- Zeroes stand wherever a reader looks at data that are not initialized. -/
theorem byteAt_zeroedData (values : ValueBytes) {b : Buffer}
    (fits : Buffer.usedLen b.entries ≤ b.tlvLen) {offset : ℕ}
    (inside : offset < baseAccountAndTypeLength) : byteAt (zeroedData values b) offset = 0 := by
  unfold zeroedData
  by_cases there : offset < b.len
  · rw [byteAt_append_left (by rw [List.length_replicate]; exact lt_min there inside),
      byteAt_replicate]
  · have bare : b.tlvLen = 0 := Nat.sub_eq_zero_of_le ((not_lt.mp there).trans inside.le)
    rw [tlvData_eq_nil fits bare, List.append_nil, byteAt_replicate]

theorem length_zeroedData (values : ValueBytes) {b : Buffer}
    (fits : Buffer.usedLen b.entries ≤ b.tlvLen) :
    (zeroedData values b).length = b.len := by
  rw [zeroedData, List.length_append, List.length_replicate, length_tlvData fits, Buffer.tlvLen]
  omega

end Fronts

/-! ### What the readers make of them -/

section Readers

variable {S : Type} {Q : PodBase S} {input : List UInt8}

/-- **Data that are too short, or of a multisig's length, are refused.** -/
theorem unpackPod_of_length (refused : input.length = multisigLen ∨ input.length < Q.kind.baseLen) :
    PodStateWithExtensions.unpack Q input = .error .invalidAccountData := by
  unfold PodStateWithExtensions.unpack checkMinLenAndNotMultisig
  rw [if_pos refused]
  rfl

theorem checkMinLen_of_not {minimumLen : ℕ}
    (taken : ¬ (input.length = multisigLen ∨ input.length < minimumLen)) :
    checkMinLenAndNotMultisig input minimumLen = .ok () := if_neg taken

/-- **A base that is not initialized is none.** -/
theorem unpackPod_of_uninitialized
    (taken : ¬ (input.length = multisigLen ∨ input.length < Q.kind.baseLen))
    (zero : Q.isInitialized (Q.ofBytes (input.take Q.kind.baseLen)) = false) :
    PodStateWithExtensions.unpack Q input = .error .uninitializedAccount := by
  unfold PodStateWithExtensions.unpack
  rw [checkMinLen_of_not taken]
  show (if Q.isInitialized (Q.ofBytes (input.take Q.kind.baseLen)) = true then _ else _) = _
  rw [if_neg (by rw [zero]; decide)]

/-- **What stands behind a base decides then.** -/
theorem unpackPod_of_rest {error : ProgramError}
    (taken : ¬ (input.length = multisigLen ∨ input.length < Q.kind.baseLen))
    (set : Q.isInitialized (Q.ofBytes (input.take Q.kind.baseLen)) = true)
    (failed : unpackTlvData Q.kind (input.drop Q.kind.baseLen) = .error error) :
    PodStateWithExtensions.unpack Q input = .error error := by
  unfold PodStateWithExtensions.unpack
  rw [checkMinLen_of_not taken]
  show (if Q.isInitialized (Q.ofBytes (input.take Q.kind.baseLen)) = true then _ else _) = _
  rw [if_pos set, failed]
  rfl

/-- **Something where a kind has its padding** is of no such kind. -/
theorem typeAndTlvIndices_dirty {kind : AccountType} {rest : List UInt8} {offset : ℕ}
    (inside : offset < baseAccountLength - kind.baseLen) (dirty : byteAt rest offset ≠ 0) :
    typeAndTlvIndices kind rest = .error .invalidAccountData := by
  have long : offset < rest.length := by
    by_contra short
    refine dirty ?_
    rw [byteAt, List.getD_eq_getElem?_getD, List.getElem?_eq_none (not_lt.mp short)]
    rfl
  have there : rest ≠ [] := by
    rintro rfl
    exact absurd long (Nat.not_lt_zero _)
  have byte : byteAt rest offset ∈ rest.take (baseAccountLength - kind.baseLen) := by
    rw [← byteAt_take inside, byteAt, List.getD_eq_getElem?_getD, List.getElem?_eq_getElem (by
      rw [List.length_take]
      exact lt_min inside long)]
    exact List.getElem_mem _
  unfold typeAndTlvIndices
  rw [if_neg there]
  dsimp only
  by_cases room : baseAccountLength - kind.baseLen + 1 ≤ rest.length
  · have refused : ¬ ¬ ((rest.take (baseAccountLength - kind.baseLen)).any (· ≠ 0)) := fun clean =>
      dirty (not_any_ne_zero.mp clean _ byte)
    rw [require, if_pos room]
    show (require _ _ >>= _) = _
    rw [require, if_neg refused]
    rfl
  · rw [require, if_neg room]
    rfl

/-- **What follows the account type**, behind zeroes. -/
theorem typeAndTlvIndices_padded {kind : AccountType} {byte : UInt8} {tail : List UInt8} :
    typeAndTlvIndices kind
      (List.replicate (baseAccountLength - kind.baseLen) 0 ++ byte :: tail) =
        .ok (some (baseAccountLength - kind.baseLen, baseAccountLength - kind.baseLen + 1)) := by
  have length : (List.replicate (baseAccountLength - kind.baseLen) (0 : UInt8)).length =
      baseAccountLength - kind.baseLen := List.length_replicate ..
  unfold typeAndTlvIndices
  rw [if_neg (by simp)]
  refine require_bind_eq_ok_iff.mpr ⟨?_, require_bind_eq_ok_iff.mpr ⟨?_, rfl⟩⟩
  · simp
  · rw [not_any_ne_zero, List.take_left' length]
    exact fun byte' member => List.eq_of_mem_replicate member

theorem byteAt_padded {n : ℕ} {byte : UInt8} {tail : List UInt8} :
    byteAt (List.replicate n 0 ++ byte :: tail) n = byte :=
  byteAt_middle _ _ _ (List.length_replicate ..)

end Readers

section Views

variable {crates : Crates} {values : ValueBytes}

/-- A token account as the reader shows it. -/
def accountView (values : ValueBytes) (st : TokenAccountState) : StateWithExtensions PodAccount :=
  ⟨PodAccount.ofBytes (podAccountBytes st.base), tlvData values st.tlv.toBuffer⟩

/-- A mint as the reader shows it. -/
def mintView (values : ValueBytes) (mint : MintState) : StateWithExtensions PodMint :=
  ⟨PodMint.ofBytes (podMintBytes mint.base), tlvData values mint.tlv.toBuffer⟩

/-- **A token account is read.** -/
theorem unpackPod_accountData {st : TokenAccountState}
    (fits : Buffer.usedLen st.tlv.entries ≤ st.tlv.tlvLen) :
    PodStateWithExtensions.unpack podAccount (accountData values st) =
      .ok (accountView values st) := by
  obtain ⟨length, ⟨read, initialized⟩, tail⟩ :=
    StateWithExtensions.unpack_eq_ok_iff.mp (unpack_accountData .basic values fits)
  refine PodStateWithExtensions.unpack_eq_ok_iff.mpr ⟨length, ⟨?_, ?_⟩, tail⟩
  · exact congrArg PodAccount.ofBytes (take_accountData values st)
  · have set := compatible_account.initialized read initialized
    have bytes := take_accountData values st
    exact (congrArg (fun base => PodAccount.isInitialized (PodAccount.ofBytes base)) bytes).symm.trans set

/-- **A mint is read.** -/
theorem unpackPod_mintData {mint : MintState}
    (fits : Buffer.usedLen mint.tlv.entries ≤ mint.tlv.tlvLen) :
    PodStateWithExtensions.unpack (podMint crates) (mintData values mint) =
      .ok (mintView values mint) := by
  rw [unpack_mintData crates values fits, mintView]
  by_cases bare : mint.tlv.len = AccountType.mint.baseLen
  · have none : mint.tlv.tlvLen = 0 := by
      rw [Buffer.tlvLen, bare]
      rfl
    rw [if_pos bare, tlvData_eq_nil fits none]
  · rw [if_neg bare]

/-- **A mint is not read as a token account**: it is too short, or says that it is not initialized. -/
theorem unpackPod_account_of_mint {mint : MintState}
    (fits : Buffer.usedLen mint.tlv.entries ≤ mint.tlv.tlvLen) :
    PodStateWithExtensions.unpack podAccount (mintData values mint) =
      (unpackAccount (.mint mint)).map (accountView values) := by
  have length : (mintData values mint).length = mint.tlv.len := length_mintData fits
  simp only [unpackAccount]
  by_cases short : mint.tlv.len < baseAccountLength
  · rw [if_pos short]
    exact unpackPod_of_length (.inr (length.trans_lt short))
  · rw [if_neg short]
    refine unpackPod_of_uninitialized ?_ (isInitialized_account.trans ?_)
    · rw [length, not_or]
      exact ⟨mint.tlv.valid.1, short⟩
    · rw [state_mintData]
      decide

/-- A token account is long enough for a mint. -/
theorem taken_mint_of_account (crates : Crates) (values : ValueBytes) {st : TokenAccountState}
    (fits : Buffer.usedLen st.tlv.entries ≤ st.tlv.tlvLen) :
    ¬ ((accountData values st).length = multisigLen ∨
      (accountData values st).length < (podMint crates).kind.baseLen) := by
  have long : 165 ≤ st.tlv.len := by
    have shape := st.tlv.valid.2
    simp only [AccountType.baseLen, baseAccountAndTypeLength] at shape
    omega
  have length : (accountData values st).length = st.tlv.len := length_accountData fits
  rw [length, not_or]
  refine ⟨st.tlv.valid.1, ?_⟩
  show ¬ st.tlv.len < 82
  omega

/-- Whether it says that it is one depends on its owner. -/
theorem flag_mint_of_account (values : ValueBytes) (flags : crates.Flags)
    (st : TokenAccountState) :
    (podMint crates).isInitialized
      ((podMint crates).ofBytes ((accountData values st).take (podMint crates).kind.baseLen)) =
        decide (st.base.owner.byte 13 ≠ 0) := by
  refine isInitialized_mint.trans ((flags _).trans ?_)
  rw [← flag_accountData values st]
  exact decide_eq_decide.mpr (not_congr UInt8.toBitVec_inj.symm)

/-- Where a mint has padding, a token account has its state. -/
theorem typeAndTlvIndices_mint_of_account (values : ValueBytes) (st : TokenAccountState) :
    typeAndTlvIndices .mint ((accountData values st).drop 82) = .error .invalidAccountData := by
  have dirty : byteAt ((accountData values st).drop 82) 26 ≠ 0 := by
    rw [byteAt_drop, state_accountData]
    exact fun none => st.base.initialized (accountStateByte_inj.mp none)
  exact typeAndTlvIndices_dirty (by decide) dirty

/-- **A token account is not read as a mint.** -/
theorem unpackPod_mint_of_account (flags : crates.Flags) {st : TokenAccountState}
    (fits : Buffer.usedLen st.tlv.entries ≤ st.tlv.tlvLen) :
    PodStateWithExtensions.unpack (podMint crates) (accountData values st) =
      (unpackMint (.account st)).map (mintView values) := by
  have taken := taken_mint_of_account crates values fits
  have flag := flag_mint_of_account values flags st
  simp only [unpackMint]
  by_cases zero : st.base.owner.byte 13 = 0
  · rw [if_pos zero]
    refine unpackPod_of_uninitialized taken (flag.trans ?_)
    rw [zero]
    rfl
  · rw [if_neg zero]
    refine unpackPod_of_rest taken (flag.trans (decide_eq_true zero)) ?_
    have refused := typeAndTlvIndices_mint_of_account values st
    show (typeAndTlvIndices .mint ((accountData values st).drop 82) >>= _) = _
    rw [refused]
    rfl

/-- **What is not initialized is read as nothing**, by the reader of a kind that takes zeroes for a base
that is not initialized. -/
theorem unpackPod_zeroedData {S : Type} {Q : PodBase S} {b : Buffer}
    (fits : Buffer.usedLen b.entries ≤ b.tlvLen)
    (zero : Q.isInitialized (Q.ofBytes ((zeroedData values b).take Q.kind.baseLen)) = false) :
    PodStateWithExtensions.unpack Q (zeroedData values b) =
      .error (if b.len = multisigLen ∨ b.len < Q.kind.baseLen then .invalidAccountData
        else .uninitializedAccount) := by
  have length := length_zeroedData values fits
  by_cases refused : b.len = multisigLen ∨ b.len < Q.kind.baseLen
  · rw [if_pos refused]
    exact unpackPod_of_length (by rwa [length])
  · rw [if_neg refused]
    exact unpackPod_of_uninitialized (by rwa [length]) zero

end Views

/-! ### In front of an initialization -/

section Uninitialized

variable {S : Type} {Q : PodBase S} {input : List UInt8} {values : ValueBytes} {crates : Crates}

theorem unpackUninitialized_of_length
    (refused : input.length = multisigLen ∨ input.length < Q.kind.baseLen) :
    PodStateWithExtensionsMut.unpackUninitialized Q input = .error .invalidAccountData := by
  unfold PodStateWithExtensionsMut.unpackUninitialized checkMinLenAndNotMultisig
  rw [if_pos refused]
  rfl

/-- **What is initialized is in use.** -/
theorem unpackUninitialized_of_set
    (taken : ¬ (input.length = multisigLen ∨ input.length < Q.kind.baseLen))
    (set : Q.isInitialized (Q.ofBytes (input.take Q.kind.baseLen)) = true) :
    PodStateWithExtensionsMut.unpackUninitialized Q input = .error TokenError.alreadyInUse := by
  unfold PodStateWithExtensionsMut.unpackUninitialized
  rw [checkMinLen_of_not taken]
  show (if Q.isInitialized (Q.ofBytes (input.take Q.kind.baseLen)) = true then _ else _) = _
  rw [if_pos set]

/-- **What stands behind a zero base decides then.** -/
theorem unpackUninitialized_of_zero
    (taken : ¬ (input.length = multisigLen ∨ input.length < Q.kind.baseLen))
    (zero : Q.isInitialized (Q.ofBytes (input.take Q.kind.baseLen)) = false) :
    PodStateWithExtensionsMut.unpackUninitialized Q input =
      (unpackUninitializedTypeAndTlvDataMut Q.kind (input.drop Q.kind.baseLen) >>= fun index =>
        checkAccountTypeMatchesExtensionType Q.kind (input.drop (Q.kind.baseLen + index)) >>= fun _ =>
          .ok (Q.kind.baseLen + index)) := by
  unfold PodStateWithExtensionsMut.unpackUninitialized
  rw [checkMinLen_of_not taken]
  show (if Q.isInitialized (Q.ofBytes (input.take Q.kind.baseLen)) = true then _ else _) = _
  rw [if_neg (by rw [zero]; decide)]

/-- The first extension of a buffer. -/
theorem getFirstExtensionType_tlvData (values : ValueBytes) {b : Buffer}
    (storable : Storable b.entries) :
    getFirstExtensionType (tlvData values b) = .ok b.extensionTypes.head? := by
  have found := getFirstExtensionType_row (storable.readable values)
    (stops_zeroes (b.tlvLen - Buffer.usedLen b.entries))
  rwa [keys_rawEntries, ← rowBytes_eq] at found

/-- The first extension of a buffer is of the kind, or there is none. -/
theorem checkAccountType_tlvData (values : ValueBytes) {kind : AccountType} {b : Buffer}
    (storable : Storable b.entries) :
    checkAccountTypeMatchesExtensionType kind (tlvData values b) =
      require (b.entries.head?.all (fun e => e.1.getAccountType = kind) = true)
        (.custom TokenError.extensionBaseMismatch) := by
  unfold checkAccountTypeMatchesExtensionType
  rw [getFirstExtensionType_tlvData values storable, Buffer.extensionTypes]
  cases b.entries with
  | nil => rfl
  | cons e entries =>
    show require (e.1.getAccountType = kind) _ = _
    unfold require
    simp

variable {kind : AccountType} {b : Buffer}

/-- Behind the base of data that are not initialized. -/
theorem drop_zeroedData (values : ValueBytes) {n : ℕ}
    (small : n ≤ min b.len baseAccountAndTypeLength) :
    (zeroedData values b).drop n =
      List.replicate (min b.len baseAccountAndTypeLength - n) 0 ++ tlvData values b := by
  rw [zeroedData, List.drop_append_of_le_length (by rwa [List.length_replicate]), List.drop_replicate]

/-- The zeroes behind a base, of which the last is the account type. -/
theorem drop_zeroedData_padded (values : ValueBytes) (small : kind.baseLen ≤ baseAccountLength)
    (long : baseAccountAndTypeLength ≤ b.len) :
    (zeroedData values b).drop kind.baseLen =
      List.replicate (baseAccountLength - kind.baseLen) 0 ++
        accountTypeByte .uninitialized :: tlvData values b := by
  have front : min b.len baseAccountAndTypeLength = baseAccountAndTypeLength := min_eq_right long
  have count : baseAccountAndTypeLength - kind.baseLen = baseAccountLength - kind.baseLen + 1 := by
    simp only [baseAccountLength, baseAccountAndTypeLength] at small ⊢
    omega
  rw [drop_zeroedData values (by rw [front]; exact small.trans (Nat.le_succ _)), front, count,
    List.replicate_add, List.append_assoc]
  rfl

/-- The extensions of data that are not initialized. -/
theorem drop_tlvStart (values : ValueBytes) (small : kind.baseLen ≤ baseAccountLength)
    (valid : kind.ValidLen b.len) (fits : Buffer.usedLen b.entries ≤ b.tlvLen) :
    (zeroedData values b).drop (tlvStart kind b.len) = tlvData values b := by
  unfold tlvStart
  by_cases bare : b.len = kind.baseLen
  · have none : b.tlvLen = 0 := by
      simp only [Buffer.tlvLen, baseAccountLength, baseAccountAndTypeLength] at small ⊢
      omega
    rw [if_pos bare, tlvData_eq_nil fits none]
    exact List.drop_of_length_le (length_zeroedData values fits).le
  · have front : min b.len baseAccountAndTypeLength = baseAccountAndTypeLength :=
      min_eq_right (valid.2.resolve_left bare)
    rw [if_neg bare, drop_zeroedData values (by rw [front]), front, Nat.sub_self]
    rfl

/-- **Where the extensions of data that are not initialized start.** -/
theorem unpackUninitializedTypeAndTlvDataMut_zeroedData (values : ValueBytes)
    (small : kind.baseLen ≤ baseAccountLength) (valid : kind.ValidLen b.len)
    (fits : Buffer.usedLen b.entries ≤ b.tlvLen) :
    ∃ index, unpackUninitializedTypeAndTlvDataMut kind ((zeroedData values b).drop kind.baseLen) =
        .ok index ∧ kind.baseLen + index = tlvStart kind b.len := by
  unfold tlvStart
  by_cases bare : b.len = kind.baseLen
  · have rest : (zeroedData values b).drop kind.baseLen = [] := by
      refine List.drop_of_length_le ?_
      rw [length_zeroedData values fits, bare]
    refine ⟨0, by rw [rest]; rfl, ?_⟩
    rw [if_pos bare, bare, Nat.add_zero]
  · refine ⟨baseAccountLength - kind.baseLen + 1, ?_, ?_⟩
    · rw [drop_zeroedData_padded values small (valid.2.resolve_left bare)]
      unfold unpackUninitializedTypeAndTlvDataMut
      rw [typeAndTlvIndices_padded]
      show (accountTypeOfByte (byteAt _ _) >>= _) = _
      rw [byteAt_padded]
      rfl
    · rw [if_neg bare]
      simp only [baseAccountLength, baseAccountAndTypeLength] at small ⊢
      omega

/-- Data that end between the base and the account type. -/
theorem unpackUninitializedTypeAndTlvDataMut_short {rest : List UInt8} (there : rest ≠ [])
    (short : rest.length < baseAccountLength - kind.baseLen + 1) :
    unpackUninitializedTypeAndTlvDataMut kind rest = .error .invalidAccountData := by
  have indices : typeAndTlvIndices kind rest = .error .invalidAccountData := by
    unfold typeAndTlvIndices
    rw [if_neg there]
    dsimp only
    rw [require, if_neg (not_le.mpr short)]
    rfl
  unfold unpackUninitializedTypeAndTlvDataMut
  rw [indices]
  rfl

/-- **Data that are not initialized** are taken where they have a length of the kind and their first
extension is of the kind. -/
theorem unpackUninitialized_zeroedData (small : Q.kind.baseLen ≤ baseAccountLength)
    (zero : Q.isInitialized (Q.ofBytes ((zeroedData values b).take Q.kind.baseLen)) = false)
    (fits : Buffer.usedLen b.entries ≤ b.tlvLen) (storable : Storable b.entries) :
    PodStateWithExtensionsMut.unpackUninitialized Q (zeroedData values b) =
      (unpackUninitialized Q.kind (.zeroed b)).map fun tlv => tlvStart Q.kind tlv.len := by
  have length := length_zeroedData values fits
  simp only [unpackUninitialized]
  by_cases valid : Q.kind.ValidLen b.len
  · have taken : ¬ ((zeroedData values b).length = multisigLen ∨
        (zeroedData values b).length < Q.kind.baseLen) := by
      have shape := valid.2
      rw [length, not_or]
      simp only [baseAccountLength, baseAccountAndTypeLength] at small shape
      exact ⟨valid.1, by omega⟩
    obtain ⟨index, found, start⟩ :=
      unpackUninitializedTypeAndTlvDataMut_zeroedData values small valid fits
    rw [dif_pos valid, unpackUninitialized_of_zero taken zero, found]
    show (checkAccountTypeMatchesExtensionType Q.kind _ >>= _) = _
    rw [start, drop_tlvStart values small valid fits, checkAccountType_tlvData values storable, require]
    split <;> rfl
  · rw [dif_neg valid]
    by_cases refused : b.len = multisigLen ∨ b.len < Q.kind.baseLen
    · exact unpackUninitialized_of_length (by rwa [length])
    · have ends : b.len ≠ Q.kind.baseLen ∧ b.len < baseAccountAndTypeLength := by
        simp only [AccountType.ValidLen, not_and, not_or, not_le] at valid refused
        exact valid refused.1
      have short := not_lt.mp (not_or.mp refused).2
      rw [unpackUninitialized_of_zero (by rwa [length]) zero,
        unpackUninitializedTypeAndTlvDataMut_short]
      · rfl
      · rw [Ne, List.drop_eq_nil_iff, length]
        omega
      · rw [List.length_drop, length]
        simp only [baseAccountLength, baseAccountAndTypeLength] at small ends ⊢
        omega

/-- Data that were read as initialized are in use. -/
theorem unpackUninitialized_of_read {st : StateWithExtensions S}
    (read : PodStateWithExtensions.unpack Q input = .ok st) :
    PodStateWithExtensionsMut.unpackUninitialized Q input = .error TokenError.alreadyInUse := by
  obtain ⟨⟨notMultisig, long⟩, ⟨base, set⟩, -⟩ := PodStateWithExtensions.unpack_eq_ok_iff.mp read
  exact unpackUninitialized_of_set (not_or.mpr ⟨notMultisig, not_lt.mpr long⟩) (base ▸ set)

/-- **A mint is not initialized as a token account.** -/
theorem unpackUninitialized_account_of_mint {mint : MintState}
    (fits : Buffer.usedLen mint.tlv.entries ≤ mint.tlv.tlvLen) :
    PodStateWithExtensionsMut.unpackUninitialized podAccount (mintData values mint) =
      .error .invalidAccountData := by
  have length : (mintData values mint).length = mint.tlv.len := length_mintData fits
  by_cases bare : mint.tlv.len = AccountType.mint.baseLen
  · refine unpackUninitialized_of_length (.inr ?_)
    rw [length, bare]
    decide
  · have long := mint.tlv.valid.2.resolve_left bare
    have taken : ¬ ((mintData values mint).length = multisigLen ∨
        (mintData values mint).length < podAccount.kind.baseLen) := by
      rw [length, not_or]
      exact ⟨mint.tlv.valid.1, not_lt.mpr ((Nat.le_succ 165).trans long)⟩
    have zero : podAccount.isInitialized
        (podAccount.ofBytes ((mintData values mint).take podAccount.kind.baseLen)) = false := by
      refine isInitialized_account.trans ?_
      rw [state_mintData]
      decide
    -- The account type is that of a mint.
    have typed : (mintData values mint).drop 165 =
        accountTypeByte .mint :: tlvData values mint.tlv.toBuffer := by
      have front : (podMintBytes mint.base ++
          List.replicate (baseAccountLength - AccountType.mint.baseLen) 0).length = 165 := by
        simp [AccountType.baseLen, baseAccountLength]
      rw [mintData, if_neg bare, ← List.append_assoc, List.drop_left' front]
    rw [unpackUninitialized_of_zero taken zero]
    show (unpackUninitializedTypeAndTlvDataMut .account ((mintData values mint).drop 165) >>= _) = _
    rw [typed]
    unfold unpackUninitializedTypeAndTlvDataMut
    rw [typeAndTlvIndices_account]
    rfl

/-- **A token account is not initialized as a mint.** -/
theorem unpackUninitialized_mint_of_account (flags : crates.Flags) {st : TokenAccountState}
    (fits : Buffer.usedLen st.tlv.entries ≤ st.tlv.tlvLen) :
    PodStateWithExtensionsMut.unpackUninitialized (podMint crates) (accountData values st) =
      .error (if st.base.owner.byte 13 ≠ 0 then .custom TokenError.alreadyInUse
        else .invalidAccountData) := by
  have taken := taken_mint_of_account crates values fits
  have flag := flag_mint_of_account values flags st
  by_cases zero : st.base.owner.byte 13 = 0
  · rw [if_neg (not_not_intro zero), unpackUninitialized_of_zero taken (by rw [flag, zero]; rfl)]
    have refused := typeAndTlvIndices_mint_of_account values st
    show (unpackUninitializedTypeAndTlvDataMut .mint ((accountData values st).drop 82) >>= _) = _
    unfold unpackUninitializedTypeAndTlvDataMut
    rw [refused]
    rfl
  · rw [if_pos zero]
    exact unpackUninitialized_of_set taken (flag.trans (decide_eq_true zero))

end Uninitialized

/-! ### Extensions -/

section Extensions

variable {values : ValueBytes} {kind : AccountType} {t : ExtensionType}

/-- The values of entries, as bytes. -/
theorem find_rawEntries (values : ValueBytes) (t : ExtensionType) (entries : List Entry) :
    find t (rawEntries values entries) = (find t entries).map (values.write t) := by
  induction entries with
  | nil => rfl
  | cons e entries ih =>
    obtain ⟨t', v⟩ := e
    show find t (⟨t', values.write t' v⟩ :: rawEntries values entries) = _
    by_cases same : t' = t
    · subst same
      rw [find_cons_self, find_cons_self]
      rfl
    · rw [find_cons_of_ne same, find_cons_of_ne same, ih]

/-- Where nothing is found, the room behind the entries decides why. -/
theorem getExtensionIndices_absent {row : List RawEntry} (readable : Readable row)
    (named : t ≠ .uninitialized) (absent : t ∉ row.keys) (room : ℕ) :
    getExtensionIndices (rawRowBytes row ++ List.replicate room 0) t false =
      .error (if 4 ≤ room then .custom TokenError.extensionNotFound else .invalidAccountData) := by
  rw [getExtensionIndices_tail readable absent, getExtensionIndicesFrom]
  dsimp only
  rw [List.length_append, List.length_replicate, typeCode_append]
  by_cases header : 4 ≤ room
  · have code : u16OfBytes ((List.replicate room (0 : UInt8)).take 2) =
        extensionTypeCode .uninitialized := by
      rw [List.take_replicate, min_eq_left (by omega)]
      rfl
    rw [if_pos (by omega), if_neg (by simp only [getTlvIndices]; omega), code,
      if_neg (fun same => named (extensionTypeCode_inj.mp same).symm), if_pos rfl, if_pos header]
    rfl
  · rw [if_neg header]
    by_cases empty : room = 0
    · rw [if_neg (by omega)]
    · rw [if_pos (by omega), if_pos (by simp only [getTlvIndices]; omega)]

/-- **The value of an extension**, or why there is none. -/
theorem getExtensionBytes_tlvData {b : Buffer} (storable : Storable b.entries)
    (named : t ≠ .uninitialized) :
    getExtensionBytes kind t (tlvData values b) =
      if t.getAccountType = kind then (b.getExtension t).map (values.write t)
      else .error .invalidAccountData := by
  by_cases typed : t.getAccountType = kind
  · rw [if_pos typed, Buffer.getExtension, Buffer.get]
    cases found : find t b.entries with
    | some v =>
      rw [tlvData, rowBytes_eq]
      refine (getExtensionBytes_eq_ok_iff (storable.readable values) (stops_zeroes _) named).mpr ?_
      rw [find_rawEntries, found]
      exact ⟨typed, rfl⟩
    | none =>
      have absent : t ∉ (rawEntries values b.entries).keys := by
        rw [keys_rawEntries]
        exact find_eq_none_iff.mp found
      rw [getExtensionBytes, require, if_pos typed, tlvData, rowBytes_eq]
      show (getExtensionIndices _ t false >>= _) = _
      rw [getExtensionIndices_absent (storable.readable values) named absent]
      dsimp only
      split <;> rfl
  · rw [if_neg typed, getExtensionBytes, require, if_neg typed]
    rfl

end Extensions

end Token2022.Interface
