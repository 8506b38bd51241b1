/-
**The bytes of the values that instructions and accounts carry.**

* `Address.toBytes`, `UInt64.toLeBytes`, `UInt16.toLeBytes`, `ExtensionType.toLeBytes` — the bytes of
  a value, with the readers of the interface: `unpackPubkey`, `unpackU64`, `unpackU16`.
* `unpackPubkeyOption`, `unpackU64Option`, `unpackAmountDecimals` — the readers built on them.
* `unpackExtensionTypes`, `unpackUiAmount` — the readers that take the whole input.
* **`exact_pubkey`**, **`exact_u64`**, … — each accepts exactly what its writer writes.
-/

import Token2022.Extension.Types
import Token2022.Lib.Bytes
import Token2022.Lib.Codec

namespace Token2022.Interface

open Bytes Codec Fallible

/-! ### Addresses and integers -/

/-- The bytes of an address, in the order in which they are written. -/
def addressBytes (a : Address) : List UInt8 := (leBytes 32 a.bits.toNat).reverse

/-- `Address::try_from`, of 32 bytes. -/
def addressOfBytes (bytes : List UInt8) : Address := ⟨.ofNat 256 (ofLeBytes bytes.reverse)⟩

/-- `u64::to_le_bytes`. -/
def u64Bytes (n : UInt64) : List UInt8 := leBytes 8 n.toNat

/-- `u64::from_le_bytes`. -/
def u64OfBytes (bytes : List UInt8) : UInt64 := .ofNat (ofLeBytes bytes)

/-- `u16::to_le_bytes`. -/
def u16Bytes (n : UInt16) : List UInt8 := leBytes 2 n.toNat

/-- `u16::from_le_bytes`. -/
def u16OfBytes (bytes : List UInt8) : UInt16 := .ofNat (ofLeBytes bytes)

/-- `unpack_pubkey`. -/
def unpackPubkey : Reader ProgramError Address :=
  readFixed 32 addressOfBytes TokenError.invalidInstruction

/-- `unpack_u64`. -/
def unpackU64 : Reader ProgramError UInt64 := readFixed 8 u64OfBytes TokenError.invalidInstruction

/-- `unpack_u16`. -/
def unpackU16 : Reader ProgramError UInt16 := readFixed 2 u16OfBytes TokenError.invalidInstruction

/-- `split_first`, of an instruction. -/
def unpackU8 : Reader ProgramError UInt8 := readByte TokenError.invalidInstruction

@[simp] theorem length_addressBytes (a : Address) : (addressBytes a).length = 32 := by
  simp [addressBytes]

@[simp] theorem length_u64Bytes (n : UInt64) : (u64Bytes n).length = 8 := length_leBytes ..

@[simp] theorem length_u16Bytes (n : UInt16) : (u16Bytes n).length = 2 := length_leBytes ..

theorem addressOfBytes_addressBytes (a : Address) : addressOfBytes (addressBytes a) = a := by
  have small : a.bits.toNat < 256 ^ 32 := lt_of_lt_of_eq a.bits.isLt (by norm_num)
  unfold addressOfBytes addressBytes
  rw [List.reverse_reverse, ofLeBytes_leBytes small, BitVec.ofNat_toNat, BitVec.setWidth_eq]

theorem addressBytes_addressOfBytes {bytes : List UInt8} (length : bytes.length = 32) :
    addressBytes (addressOfBytes bytes) = bytes := by
  have small : ofLeBytes bytes.reverse < 2 ^ 256 := by
    refine lt_of_lt_of_eq (ofLeBytes_lt _) ?_
    rw [List.length_reverse, length]
    norm_num
  unfold addressBytes addressOfBytes
  rw [BitVec.toNat_ofNat, Nat.mod_eq_of_lt small, leBytes_ofLeBytes_of_length (by simpa using length),
    List.reverse_reverse]

/-- **An address is read exactly.** -/
theorem exact_pubkey : Exact addressBytes unpackPubkey :=
  exact_fixed _ length_addressBytes addressOfBytes_addressBytes
    fun _ => addressBytes_addressOfBytes

theorem u64OfBytes_u64Bytes (n : UInt64) : u64OfBytes (u64Bytes n) = n := by
  have small : n.toNat < 256 ^ 8 := lt_of_lt_of_eq n.toNat_lt (by norm_num)
  rw [u64OfBytes, u64Bytes, ofLeBytes_leBytes small, UInt64.ofNat_toNat]

theorem u64Bytes_u64OfBytes {bytes : List UInt8} (length : bytes.length = 8) :
    u64Bytes (u64OfBytes bytes) = bytes := by
  have small : ofLeBytes bytes < 2 ^ 64 := by
    refine lt_of_lt_of_eq (ofLeBytes_lt _) ?_
    rw [length]
    norm_num
  rw [u64Bytes, u64OfBytes, UInt64.toNat_ofNat', Nat.mod_eq_of_lt small,
    leBytes_ofLeBytes_of_length length]

/-- **A 64-bit number is read exactly.** -/
theorem exact_u64 : Exact u64Bytes unpackU64 :=
  exact_fixed _ length_u64Bytes u64OfBytes_u64Bytes fun _ => u64Bytes_u64OfBytes

theorem u16OfBytes_u16Bytes (n : UInt16) : u16OfBytes (u16Bytes n) = n := by
  have small : n.toNat < 256 ^ 2 := lt_of_lt_of_eq n.toNat_lt (by norm_num)
  rw [u16OfBytes, u16Bytes, ofLeBytes_leBytes small, UInt16.ofNat_toNat]

theorem u16Bytes_u16OfBytes {bytes : List UInt8} (length : bytes.length = 2) :
    u16Bytes (u16OfBytes bytes) = bytes := by
  have small : ofLeBytes bytes < 2 ^ 16 := by
    refine lt_of_lt_of_eq (ofLeBytes_lt _) ?_
    rw [length]
    norm_num
  rw [u16Bytes, u16OfBytes, UInt16.toNat_ofNat', Nat.mod_eq_of_lt small,
    leBytes_ofLeBytes_of_length length]

/-- **A 16-bit number is read exactly.** -/
theorem exact_u16 : Exact u16Bytes unpackU16 :=
  exact_fixed _ length_u16Bytes u16OfBytes_u16Bytes fun _ => u16Bytes_u16OfBytes

/-! ### Optional values and pairs -/

/-- `pack_pubkey_option`. -/
def packPubkeyOption : Option Address → List UInt8 := writeOption addressBytes

/-- `unpack_pubkey_option`. -/
def unpackPubkeyOption : Reader ProgramError (Option Address) :=
  readOption unpackPubkey TokenError.invalidInstruction

/-- `pack_u64_option`. -/
def packU64Option : Option UInt64 → List UInt8 := writeOption u64Bytes

/-- `unpack_u64_option`. -/
def unpackU64Option : Reader ProgramError (Option UInt64) :=
  readOption unpackU64 TokenError.invalidInstruction

theorem exact_pubkeyOption : Exact packPubkeyOption unpackPubkeyOption :=
  exact_option exact_pubkey _

theorem exact_u64Option : Exact packU64Option unpackU64Option := exact_option exact_u64 _

/-- `unpack_amount_decimals`. -/
def unpackAmountDecimals : Reader ProgramError (UInt64 × UInt8) := fun input => do
  let (amount, rest) ← unpackU64 input
  let (decimals, rest) ← unpackU8 rest
  .ok ((amount, decimals), rest)

theorem exact_amountDecimals :
    Exact (fun pair => u64Bytes pair.1 ++ [pair.2]) unpackAmountDecimals := by
  rintro bytes ⟨amount, decimals⟩ rest
  simp only [unpackAmountDecimals, bind_eq_ok_iff, Prod.exists, exact_u64 _ _ _,
    exact_byte _ _ _ _, unpackU8, Except.ok.injEq, Prod.mk.injEq]
  constructor
  · rintro ⟨_, _, rfl, _, _, rfl, ⟨rfl, rfl⟩, rfl⟩
    rw [List.append_assoc]
  · rintro rfl
    exact ⟨_, _, List.append_assoc .., _, _, rfl, ⟨rfl, rfl⟩, rfl⟩

/-! ### Extension types -/

/-- `u16::from`, of an extension type. -/
def extensionTypeCode : ExtensionType → UInt16
  | .uninitialized => 0
  | .transferFeeConfig => 1
  | .transferFeeAmount => 2
  | .mintCloseAuthority => 3
  | .confidentialTransferMint => 4
  | .confidentialTransferAccount => 5
  | .defaultAccountState => 6
  | .immutableOwner => 7
  | .memoTransfer => 8
  | .nonTransferable => 9
  | .interestBearingConfig => 10
  | .cpiGuard => 11
  | .permanentDelegate => 12
  | .nonTransferableAccount => 13
  | .transferHook => 14
  | .transferHookAccount => 15
  | .confidentialTransferFeeConfig => 16
  | .confidentialTransferFeeAmount => 17
  | .metadataPointer => 18
  | .tokenMetadata => 19
  | .groupPointer => 20
  | .tokenGroup => 21
  | .groupMemberPointer => 22
  | .tokenGroupMember => 23
  | .confidentialMintBurn => 24
  | .scaledUiAmount => 25
  | .pausable => 26
  | .pausableAccount => 27
  | .permissionedBurn => 28

/-- The extension types, by their codes. -/
def extensionTypes : List ExtensionType := [
  .uninitialized, .transferFeeConfig, .transferFeeAmount, .mintCloseAuthority,
  .confidentialTransferMint, .confidentialTransferAccount, .defaultAccountState, .immutableOwner,
  .memoTransfer, .nonTransferable, .interestBearingConfig, .cpiGuard, .permanentDelegate,
  .nonTransferableAccount, .transferHook, .transferHookAccount, .confidentialTransferFeeConfig,
  .confidentialTransferFeeAmount, .metadataPointer, .tokenMetadata, .groupPointer, .tokenGroup,
  .groupMemberPointer, .tokenGroupMember, .confidentialMintBurn, .scaledUiAmount, .pausable,
  .pausableAccount, .permissionedBurn]

/-- `ExtensionType::try_from`, of a number. -/
def extensionTypeOfCode (code : UInt16) : Option ExtensionType := extensionTypes[code.toNat]?

theorem extensionTypeOfCode_eq_some_iff {code : UInt16} {t : ExtensionType} :
    extensionTypeOfCode code = some t ↔ code = extensionTypeCode t := by
  constructor
  · intro found
    obtain ⟨small, held⟩ := List.getElem?_eq_some_iff.mp found
    have codes : ∀ n, (bound : n < extensionTypes.length) →
        (extensionTypeCode extensionTypes[n]).toNat = n := by decide
    rw [← held]
    exact (UInt16.toNat_inj.mp (codes _ small)).symm
  · rintro rfl
    cases t <;> rfl

/-- `ExtensionType::try_from`, of two bytes. -/
def extensionTypeOfBytes (lo hi : UInt8) : ProgramResult ExtensionType :=
  okOr (extensionTypeOfCode (u16OfBytes [lo, hi])) .invalidAccountData

/-- The types one after the other. -/
def packExtensionTypes (types : List ExtensionType) : List UInt8 :=
  types.flatMap fun t => u16Bytes (extensionTypeCode t)

/-- The types of the chunks of two bytes, the last of which may be short. -/
def unpackExtensionTypes : List UInt8 → ProgramResult (List ExtensionType)
  | [] => .ok []
  | [_] => .error .invalidAccountData
  | lo :: hi :: rest => do
    let t ← extensionTypeOfBytes lo hi
    let types ← unpackExtensionTypes rest
    .ok (t :: types)

theorem extensionTypeOfBytes_eq_ok_iff {lo hi : UInt8} {t : ExtensionType} :
    extensionTypeOfBytes lo hi = .ok t ↔ [lo, hi] = u16Bytes (extensionTypeCode t) := by
  rw [extensionTypeOfBytes, okOr_eq_ok_iff, extensionTypeOfCode_eq_some_iff]
  constructor
  · intro code
    rw [← code, u16Bytes_u16OfBytes rfl]
  · intro bytes
    rw [bytes, u16OfBytes_u16Bytes]

/-- **A list of extension types takes the whole input**, and is read exactly. -/
theorem unpackExtensionTypes_eq_ok_iff {bytes : List UInt8} {types : List ExtensionType} :
    unpackExtensionTypes bytes = .ok types ↔ bytes = packExtensionTypes types := by
  induction bytes using unpackExtensionTypes.induct generalizing types with
  | case1 =>
    cases types with
    | nil => simp [unpackExtensionTypes, packExtensionTypes]
    | cons t types => simp [unpackExtensionTypes, packExtensionTypes, u16Bytes, leBytes]
  | case2 =>
    cases types with
    | nil => simp [unpackExtensionTypes, packExtensionTypes]
    | cons t types => simp [unpackExtensionTypes, packExtensionTypes, u16Bytes, leBytes]
  | case3 lo hi rest ih =>
    simp only [unpackExtensionTypes, bind_eq_ok_iff, extensionTypeOfBytes_eq_ok_iff,
      Except.ok.injEq]
    constructor
    · rintro ⟨t, code, tail, read, rfl⟩
      rw [packExtensionTypes, List.flatMap_cons, ← code, ih.mp read]
      rfl
    · intro same
      cases types with
      | nil => simp [packExtensionTypes] at same
      | cons t tail =>
        rw [packExtensionTypes, List.flatMap_cons] at same
        have same : [lo, hi] ++ rest = u16Bytes (extensionTypeCode t) ++
          packExtensionTypes tail := same
        obtain ⟨code, others⟩ := List.append_inj same (by simp)
        exact ⟨t, code, tail, ih.mpr others, rfl⟩

/-! ### Text -/

/-- `str::as_bytes`. -/
def textBytes (text : String) : List UInt8 := text.toByteArray.data.toList

/-- `str::from_utf8`, of an instruction. -/
def unpackUiAmount (bytes : List UInt8) : ProgramResult String :=
  okOr (String.fromUTF8? ⟨⟨bytes⟩⟩) TokenError.invalidInstruction

/-- **A text takes the whole input**, and is read exactly. -/
theorem unpackUiAmount_eq_ok_iff {bytes : List UInt8} {text : String} :
    unpackUiAmount bytes = .ok text ↔ bytes = textBytes text := by
  rw [unpackUiAmount, okOr_eq_ok_iff, String.fromUTF8?]
  constructor
  · intro read
    split at read
    · rw [← Option.some.inj read]
      rfl
    · cases read
  · rintro rfl
    have same : (⟨⟨textBytes text⟩⟩ : ByteArray) = text.toByteArray := rfl
    rw [same, dif_pos text.isValidUTF8]
    rfl

end Token2022.Interface
