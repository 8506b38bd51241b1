/-
**The instruction data as the program decodes it.**

The program does not unpack a `TokenInstruction`: it reads the type of the instruction from the first
byte and looks at the bytes that follow as plain old data. Clients pack, and displays unpack, with
the codec of the interface.

* `PodTokenInstruction` — the types of the instructions, `decodeInstructionType`.
* `decodeInstructionData`, `decodeInstructionDataWithCoptionPubkey`,
  `decodeInstructionDataWithCoptionU64` — the data behind the type.
* `decodeInner`, `decode` — what `_process_inner` and `process` decode.
* **`decode_eq_ok_iff`** — it is what the codec unpacks, where nothing is left behind data of a
  fixed size.
* **`pod_decoder_agrees`** — the two decoders agree.
-/

import Mathlib.Data.UInt
import Token2022.Interface.RoundTrip
import Token2022.Interface.State

namespace Token2022.Interface

open Codec Fallible

/-! ### Plain old data -/

/-- `Address`, as plain old data. -/
def podAddress : Fixed Address where
  size := 32
  write := addressBytes
  read := addressOfBytes
  length_write := length_addressBytes
  read_write := addressOfBytes_addressBytes
  write_read _ := addressBytes_addressOfBytes

/-- The unaligned `U64`. -/
def podU64 : Fixed UInt64 where
  size := 8
  write := u64Bytes
  read := u64OfBytes
  length_write := length_u64Bytes
  read_write := u64OfBytes_u64Bytes
  write_read _ := u64Bytes_u64OfBytes

/-- `InitializeMintData`. -/
structure InitializeMintData where
  decimals : UInt8
  mintAuthority : Address
  deriving DecidableEq

/-- `InitializeMultisigData`. -/
structure InitializeMultisigData where
  m : UInt8
  deriving DecidableEq

/-- `AmountData`. -/
structure AmountData where
  amount : UInt64
  deriving DecidableEq

/-- `AmountCheckedData`. -/
structure AmountCheckedData where
  amount : UInt64
  decimals : UInt8
  deriving DecidableEq

/-- `SetAuthorityData`. -/
structure SetAuthorityData where
  authorityType : UInt8
  deriving DecidableEq

def InitializeMintData.pod : Fixed InitializeMintData :=
  (Fixed.byte.pair podAddress).map
    ⟨fun (decimals, mintAuthority) => ⟨decimals, mintAuthority⟩,
      fun data => (data.decimals, data.mintAuthority), fun _ => rfl, fun _ => rfl⟩

def InitializeMultisigData.pod : Fixed InitializeMultisigData :=
  Fixed.byte.map ⟨fun m => ⟨m⟩, fun data => data.m, fun _ => rfl, fun _ => rfl⟩

def AmountData.pod : Fixed AmountData :=
  podU64.map ⟨fun amount => ⟨amount⟩, fun data => data.amount, fun _ => rfl, fun _ => rfl⟩

def AmountCheckedData.pod : Fixed AmountCheckedData :=
  (podU64.pair Fixed.byte).map
    ⟨fun (amount, decimals) => ⟨amount, decimals⟩, fun data => (data.amount, data.decimals),
      fun _ => rfl, fun _ => rfl⟩

def SetAuthorityData.pod : Fixed SetAuthorityData :=
  Fixed.byte.map ⟨fun t => ⟨t⟩, fun data => data.authorityType, fun _ => rfl, fun _ => rfl⟩

/-! ### Types of instructions -/

/-- `PodTokenInstruction`. -/
inductive PodTokenInstruction
  | initializeMint
  | initializeAccount
  | initializeMultisig
  | transfer
  | approve
  | revoke
  | setAuthority
  | mintTo
  | burn
  | closeAccount
  | freezeAccount
  | thawAccount
  | transferChecked
  | approveChecked
  | mintToChecked
  | burnChecked
  | initializeAccount2
  | syncNative
  | initializeAccount3
  | initializeMultisig2
  | initializeMint2
  | getAccountDataSize
  | initializeImmutableOwner
  | amountToUiAmount
  | uiAmountToAmount
  | initializeMintCloseAuthority
  | transferFeeExtension
  | confidentialTransferExtension
  | defaultAccountStateExtension
  | reallocate
  | memoTransferExtension
  | createNativeMint
  | initializeNonTransferableMint
  | interestBearingMintExtension
  | cpiGuardExtension
  | initializePermanentDelegate
  | transferHookExtension
  | confidentialTransferFeeExtension
  | withdrawExcessLamports
  | metadataPointerExtension
  | groupPointerExtension
  | groupMemberPointerExtension
  | confidentialMintBurnExtension
  | scaledUiAmountExtension
  | pausableExtension
  | unwrapLamports
  | permissionedBurnExtension
  | batch
  deriving DecidableEq

namespace PodTokenInstruction

/-- The types, by their bytes; `Batch` is not among them. -/
def all : List PodTokenInstruction := [
  .initializeMint, .initializeAccount, .initializeMultisig, .transfer, .approve,
  .revoke, .setAuthority, .mintTo, .burn, .closeAccount,
  .freezeAccount, .thawAccount, .transferChecked, .approveChecked, .mintToChecked,
  .burnChecked, .initializeAccount2, .syncNative, .initializeAccount3, .initializeMultisig2,
  .initializeMint2, .getAccountDataSize, .initializeImmutableOwner, .amountToUiAmount,
  .uiAmountToAmount, .initializeMintCloseAuthority, .transferFeeExtension,
  .confidentialTransferExtension, .defaultAccountStateExtension, .reallocate,
  .memoTransferExtension, .createNativeMint, .initializeNonTransferableMint,
  .interestBearingMintExtension, .cpiGuardExtension, .initializePermanentDelegate,
  .transferHookExtension, .confidentialTransferFeeExtension, .withdrawExcessLamports,
  .metadataPointerExtension, .groupPointerExtension, .groupMemberPointerExtension,
  .confidentialMintBurnExtension, .scaledUiAmountExtension, .pausableExtension,
  .unwrapLamports, .permissionedBurnExtension]

/-- `PodTokenInstruction::try_from`. -/
def ofByte (byte : UInt8) : Option PodTokenInstruction :=
  if byte = 255 then some .batch else all[byte.toNat]?

/-- `u8::from`, of a type: its place in the declaration, and 255 for `Batch`. -/
def byte : PodTokenInstruction → UInt8
  | .batch => 255
  | t => .ofNat (all.idxOf t)

theorem ofByte_eq_some_iff {b : UInt8} {t : PodTokenInstruction} :
    ofByte b = some t ↔ b = t.byte := by
  constructor
  · intro found
    unfold ofByte at found
    by_cases last : b = 255
    · rw [if_pos last] at found
      obtain rfl := Option.some.inj found
      exact last
    · rw [if_neg last] at found
      obtain ⟨small, held⟩ := List.getElem?_eq_some_iff.mp found
      have places : ∀ n, (bound : n < all.length) → (all[n]).byte.toNat = n := by decide
      rw [← held]
      exact (UInt8.toNat_inj.mp (places _ small)).symm
  · rintro rfl
    cases t <;> rfl

end PodTokenInstruction

/-- `decode_instruction_type::<PodTokenInstruction>`. -/
def decodeInstructionType : List UInt8 → ProgramResult PodTokenInstruction
  | [] => .error .invalidInstructionData
  | byte :: _ => okOr (PodTokenInstruction.ofByte byte) TokenError.invalidInstruction

theorem decodeInstructionType_eq_ok_iff {input : List UInt8} {t : PodTokenInstruction} :
    decodeInstructionType input = .ok t ↔ ∃ bytes, input = t.byte :: bytes := by
  cases input with
  | nil => simp [decodeInstructionType]
  | cons byte bytes =>
    rw [decodeInstructionType, okOr_eq_ok_iff, PodTokenInstruction.ofByte_eq_some_iff]
    simp

/-! ### Optional values -/

section Options

variable {α β : Type}

/-- **The tag is one of the two that stand for something.** -/
def PodCOption.Canonical (p : PodCOption α) : Prop := p.option = noneTag ∨ p.option = someTag

/-- `PodCOption::some`. -/
def PodCOption.some (value : α) : PodCOption α := ⟨someTag, value⟩

variable [Zero α]

/-- `PodCOption::none`. -/
def PodCOption.none : PodCOption α := ⟨noneTag, 0⟩

/-- `PodCOption::from`, of a `COption`. -/
def PodCOption.ofOption : Option α → PodCOption α
  | Option.none => ⟨noneTag, 0⟩
  | Option.some value => ⟨someTag, value⟩

theorem PodCOption.canonical_ofOption (value : Option α) :
    (PodCOption.ofOption value).Canonical := by
  cases value with
  | none => exact .inl rfl
  | some value => exact .inr rfl

/-- The readers of an optional value, `unpack_*_option`: a byte, then the value. -/
def unpackPodOption (pod : Fixed α) (input : List UInt8) : ProgramResult (PodCOption α) :=
  match input with
  | 0 :: _ => .ok PodCOption.none
  | 1 :: rest => do
    require (pod.size ≤ rest.length) .invalidInstructionData
    .ok (PodCOption.some (pod.read (rest.take pod.size)))
  | _ => .error .invalidInstructionData

/-- **What is read is what was written**, whatever follows. -/
theorem unpackPodOption_eq_ok_iff {pod : Fixed α} {input : List UInt8} {p : PodCOption α} :
    unpackPodOption pod input = .ok p ↔
      ∃ value rest, input = writeOption pod.write value ++ rest ∧ p = .ofOption value := by
  constructor
  · intro ok
    unfold unpackPodOption at ok
    split at ok
    next rest =>
      obtain rfl := Except.ok.inj ok
      exact ⟨Option.none, rest, rfl, rfl⟩
    next rest =>
      rw [require_bind_eq_ok_iff] at ok
      obtain ⟨fits, ok⟩ := ok
      obtain rfl := Except.ok.inj ok
      refine ⟨Option.some (pod.read (rest.take pod.size)), rest.drop pod.size, ?_, rfl⟩
      rw [writeOption, pod.write_read _ (List.length_take_of_le fits), List.cons_append,
        List.take_append_drop]
    next => cases ok
  · rintro ⟨value, rest, rfl, rfl⟩
    cases value with
    | none => rfl
    | some value =>
      show (do
        require (pod.size ≤ (pod.write value ++ rest).length) ProgramError.invalidInstructionData
        .ok (PodCOption.some (pod.read ((pod.write value ++ rest).take pod.size)))) = _
      rw [require_bind_eq_ok_iff]
      refine ⟨?_, ?_⟩
      · rw [List.length_append, pod.length_write]
        omega
      · rw [List.take_left' (pod.length_write value), pod.read_write]
        rfl

/-- `unpack_pubkey_option`, into a Pod. -/
def unpackPodPubkeyOption : List UInt8 → ProgramResult (PodCOption Address) :=
  unpackPodOption podAddress

/-- `unpack_u64_option`, into a Pod. -/
def unpackPodU64Option : List UInt8 → ProgramResult (PodCOption UInt64) := unpackPodOption podU64

/-! ### The data behind the type -/

/-- `decode_instruction_data`. -/
def decodeInstructionData (pod : Fixed β) (inputWithType : List UInt8) : ProgramResult β := do
  require (inputWithType.length = pod.size + 1) .invalidInstructionData
  .ok (pod.read (inputWithType.drop 1))

omit [Zero α] in
/-- The decoders of Pod data that an optional value follows. -/
def decodeInstructionDataWithCoption (unpackOption : List UInt8 → ProgramResult (PodCOption α))
    (pod : Fixed β) (inputWithType : List UInt8) : ProgramResult (β × PodCOption α) := do
  let endOfT := pod.size + 1
  require (endOfT ≤ inputWithType.length) .invalidInstructionData
  let value := pod.read (slice inputWithType 1 pod.size)
  let option ← unpackOption (inputWithType.drop endOfT)
  .ok (value, option)

/-- `decode_instruction_data_with_coption_pubkey`. -/
def decodeInstructionDataWithCoptionPubkey (pod : Fixed β) :
    List UInt8 → ProgramResult (β × PodCOption Address) :=
  decodeInstructionDataWithCoption unpackPodPubkeyOption pod

/-- `decode_instruction_data_with_coption_u64`. -/
def decodeInstructionDataWithCoptionU64 (pod : Fixed β) :
    List UInt8 → ProgramResult (β × PodCOption UInt64) :=
  decodeInstructionDataWithCoption unpackPodU64Option pod

omit [Zero α] in
/-- **Pod data is all that follows the type.** -/
theorem decodeInstructionData_eq_ok_iff {pod : Fixed β} {tag : UInt8} {bytes : List UInt8}
    {data : β} :
    decodeInstructionData pod (tag :: bytes) = .ok data ↔ bytes = pod.write data := by
  rw [decodeInstructionData, require_bind_eq_ok_iff, List.length_cons, Nat.add_right_cancel_iff,
    List.drop_one, List.tail_cons, Except.ok.injEq, pod.length_eq_and_read_eq_iff]

/-- **Pod data and an optional value** follow the type, and then anything. -/
theorem decodeInstructionDataWithCoption_eq_ok_iff {option : Fixed α} {pod : Fixed β} {tag : UInt8}
    {bytes : List UInt8} {data : β} {p : PodCOption α} :
    decodeInstructionDataWithCoption (unpackPodOption option) pod (tag :: bytes) = .ok (data, p) ↔
      ∃ value rest, bytes = pod.write data ++ (writeOption option.write value ++ rest) ∧
        p = .ofOption value := by
  rw [decodeInstructionDataWithCoption, require_bind_eq_ok_iff]
  simp only [bind_eq_ok_iff, unpackPodOption_eq_ok_iff, List.length_cons,
    Nat.add_le_add_iff_right, List.drop_succ_cons, slice, List.drop_zero, Except.ok.injEq,
    Prod.mk.injEq]
  constructor
  · rintro ⟨fits, _, ⟨value, rest, tail, rfl⟩, rfl, rfl⟩
    refine ⟨value, rest, ?_, rfl⟩
    rw [← tail, pod.write_read _ (List.length_take_of_le fits), List.take_append_drop]
  · rintro ⟨value, rest, rfl, rfl⟩
    have size := pod.length_write data
    refine ⟨?_, _, ⟨value, rest, List.drop_left' size, rfl⟩, ?_, rfl⟩
    · rw [List.length_append, size]
      omega
    · rw [List.take_left' size, pod.read_write]

end Options

/-! ### What `process` decodes -/

/-- The data that an instruction is processed with. -/
inductive PodData
  | nothing
  | initializeMint (data : InitializeMintData) (freezeAuthority : PodCOption Address)
  | owner (owner : Address)
  | initializeMultisig (data : InitializeMultisigData)
  | amount (data : AmountData)
  | amountChecked (data : AmountCheckedData)
  | setAuthority (authorityType : AuthorityType) (newAuthority : PodCOption Address)
  | extensionTypes (extensionTypes : List ExtensionType)
  | uiAmount (uiAmount : String)
  | closeAuthority (closeAuthority : PodCOption Address)
  | unwrapAmount (amount : PodCOption UInt64)
  /-- What the processor of an extension gets. -/
  | extension (input : List UInt8)
  | batch (input : List UInt8)
  deriving DecidableEq

/-- The optional value among the data has a canonical tag. -/
def PodData.Canonical : PodData → Prop
  | .initializeMint _ option | .setAuthority _ option | .closeAuthority option => option.Canonical
  | .unwrapAmount option => option.Canonical
  | _ => True

/-- The arms of `_process_inner`, up to their calls. -/
def decodeData (t : PodTokenInstruction) (input : List UInt8) : ProgramResult PodData :=
  match t with
  | .initializeMint | .initializeMint2 => do
    let (data, freezeAuthority) ←
      decodeInstructionDataWithCoptionPubkey InitializeMintData.pod input
    .ok (.initializeMint data freezeAuthority)
  | .initializeAccount2 | .initializeAccount3 | .initializePermanentDelegate =>
    .owner <$> decodeInstructionData podAddress input
  | .initializeMultisig | .initializeMultisig2 =>
    .initializeMultisig <$> decodeInstructionData InitializeMultisigData.pod input
  | .transfer | .approve | .mintTo | .burn | .amountToUiAmount =>
    .amount <$> decodeInstructionData AmountData.pod input
  | .transferChecked | .approveChecked | .mintToChecked | .burnChecked =>
    .amountChecked <$> decodeInstructionData AmountCheckedData.pod input
  | .setAuthority => do
    let (data, newAuthority) ← decodeInstructionDataWithCoptionPubkey SetAuthorityData.pod input
    let authorityType ← authorityTypeFrom data.authorityType
    .ok (.setAuthority authorityType newAuthority)
  | .getAccountDataSize | .reallocate =>
    .extensionTypes <$> unpackExtensionTypes (input.drop 1)
  | .uiAmountToAmount => .uiAmount <$> unpackUiAmount (input.drop 1)
  | .initializeMintCloseAuthority => do
    let (_, closeAuthority) ← decodeInstructionDataWithCoptionPubkey Fixed.unit input
    .ok (.closeAuthority closeAuthority)
  | .unwrapLamports => do
    let (_, amount) ← decodeInstructionDataWithCoptionU64 Fixed.unit input
    .ok (.unwrapAmount amount)
  | .transferFeeExtension | .confidentialTransferExtension | .defaultAccountStateExtension
  | .memoTransferExtension | .interestBearingMintExtension | .cpiGuardExtension
  | .transferHookExtension | .confidentialTransferFeeExtension | .metadataPointerExtension
  | .groupPointerExtension | .groupMemberPointerExtension | .confidentialMintBurnExtension
  | .scaledUiAmountExtension | .pausableExtension | .permissionedBurnExtension =>
    .ok (.extension (input.drop 1))
  | .initializeAccount | .revoke | .closeAccount | .freezeAccount | .thawAccount | .syncNative
  | .initializeImmutableOwner | .createNativeMint | .initializeNonTransferableMint
  | .withdrawExcessLamports => .ok .nothing
  | .batch => .error TokenError.invalidInstruction

/-- What `_process_inner` decodes, where it finds an instruction of the program. -/
def decodeInner (input : List UInt8) : ProgramResult (PodTokenInstruction × PodData) := do
  let t ← decodeInstructionType input
  let data ← decodeData t input
  .ok (t, data)

/-- What `process` decodes: a batch is taken off before `_process_inner`. -/
def decode (input : List UInt8) : ProgramResult (PodTokenInstruction × PodData) :=
  match decodeInstructionType input with
  | .ok .batch => .ok (.batch, .batch (input.drop 1))
  | _ => decodeInner input

/-! ### The fields of an instruction -/

namespace TokenInstruction

/-- The type of an instruction. -/
def podInstruction : TokenInstruction → PodTokenInstruction
  | .initializeMint .. => .initializeMint
  | .initializeAccount => .initializeAccount
  | .initializeMultisig _ => .initializeMultisig
  | .transfer _ => .transfer
  | .approve _ => .approve
  | .revoke => .revoke
  | .setAuthority .. => .setAuthority
  | .mintTo _ => .mintTo
  | .burn _ => .burn
  | .closeAccount => .closeAccount
  | .freezeAccount => .freezeAccount
  | .thawAccount => .thawAccount
  | .transferChecked .. => .transferChecked
  | .approveChecked .. => .approveChecked
  | .mintToChecked .. => .mintToChecked
  | .burnChecked .. => .burnChecked
  | .initializeAccount2 _ => .initializeAccount2
  | .syncNative => .syncNative
  | .initializeAccount3 _ => .initializeAccount3
  | .initializeMultisig2 _ => .initializeMultisig2
  | .initializeMint2 .. => .initializeMint2
  | .getAccountDataSize _ => .getAccountDataSize
  | .initializeImmutableOwner => .initializeImmutableOwner
  | .amountToUiAmount _ => .amountToUiAmount
  | .uiAmountToAmount _ => .uiAmountToAmount
  | .initializeMintCloseAuthority _ => .initializeMintCloseAuthority
  | .transferFeeExtension => .transferFeeExtension
  | .confidentialTransferExtension => .confidentialTransferExtension
  | .defaultAccountStateExtension => .defaultAccountStateExtension
  | .reallocate _ => .reallocate
  | .memoTransferExtension => .memoTransferExtension
  | .createNativeMint => .createNativeMint
  | .initializeNonTransferableMint => .initializeNonTransferableMint
  | .interestBearingMintExtension => .interestBearingMintExtension
  | .cpiGuardExtension => .cpiGuardExtension
  | .initializePermanentDelegate _ => .initializePermanentDelegate
  | .transferHookExtension => .transferHookExtension
  | .confidentialTransferFeeExtension => .confidentialTransferFeeExtension
  | .withdrawExcessLamports => .withdrawExcessLamports
  | .metadataPointerExtension => .metadataPointerExtension
  | .groupPointerExtension => .groupPointerExtension
  | .groupMemberPointerExtension => .groupMemberPointerExtension
  | .confidentialMintBurnExtension => .confidentialMintBurnExtension
  | .scaledUiAmountExtension => .scaledUiAmountExtension
  | .pausableExtension => .pausableExtension
  | .unwrapLamports _ => .unwrapLamports
  | .permissionedBurnExtension => .permissionedBurnExtension
  | .batch _ => .batch

/-- The fields of an instruction as Pods; an extension is left the rest. -/
def podData (v : TokenInstruction) (rest : List UInt8) : PodData :=
  match v with
  | .initializeMint decimals mintAuthority freezeAuthority
  | .initializeMint2 decimals mintAuthority freezeAuthority =>
    .initializeMint ⟨decimals, mintAuthority⟩ (.ofOption freezeAuthority)
  | .initializeAccount2 owner | .initializeAccount3 owner | .initializePermanentDelegate owner =>
    .owner owner
  | .initializeMultisig m | .initializeMultisig2 m => .initializeMultisig ⟨m⟩
  | .transfer amount | .approve amount | .mintTo amount | .burn amount
  | .amountToUiAmount amount => .amount ⟨amount⟩
  | .transferChecked amount decimals | .approveChecked amount decimals
  | .mintToChecked amount decimals | .burnChecked amount decimals =>
    .amountChecked ⟨amount, decimals⟩
  | .setAuthority authorityType newAuthority =>
    .setAuthority authorityType (.ofOption newAuthority)
  | .getAccountDataSize extensionTypes | .reallocate extensionTypes =>
    .extensionTypes extensionTypes
  | .uiAmountToAmount uiAmount => .uiAmount uiAmount
  | .initializeMintCloseAuthority closeAuthority => .closeAuthority (.ofOption closeAuthority)
  | .unwrapLamports amount => .unwrapAmount (.ofOption amount)
  | .transferFeeExtension | .confidentialTransferExtension | .defaultAccountStateExtension
  | .memoTransferExtension | .interestBearingMintExtension | .cpiGuardExtension
  | .transferHookExtension | .confidentialTransferFeeExtension | .metadataPointerExtension
  | .groupPointerExtension | .groupMemberPointerExtension | .confidentialMintBurnExtension
  | .scaledUiAmountExtension | .pausableExtension | .permissionedBurnExtension =>
    .extension rest
  | .batch data => .batch data
  | _ => .nothing

/-- The program decodes the instruction as Pod data of a fixed size and nothing else. -/
def PodSized : TokenInstruction → Prop
  | .initializeAccount2 _ | .initializeAccount3 _ | .initializePermanentDelegate _
  | .initializeMultisig _ | .initializeMultisig2 _ | .transfer _ | .approve _ | .mintTo _
  | .burn _ | .amountToUiAmount _ | .transferChecked .. | .approveChecked .. | .mintToChecked ..
  | .burnChecked .. => True
  | _ => False

/-! ### What the arms decode -/

/-- What follows a reader gets the value that was written, and has the result. -/
theorem bind_read_eq {α β : Type} {write : α → List UInt8} {read : Reader ProgramError α}
    {f : α × List UInt8 → ProgramResult β} {a : α} {b : β} (exact : Exact write read)
    (rest : List UInt8) (value : f (a, rest) = .ok b) : (read (write a ++ rest) >>= f) = .ok b :=
  (exact.bind_read_write a rest f).trans value

/-- **What an arm decodes is unpacked**, with the same fields. -/
theorem unpackTagged_of_decodeData {t : PodTokenInstruction} {bytes : List UInt8} {data : PodData}
    (ok : decodeData t (t.byte :: bytes) = .ok data) :
    ∃ v rest, unpackTagged t.byte bytes = .ok (v, rest) ∧ (v.PodSized → rest = []) ∧
      v.podInstruction = t ∧ v.podData rest = data := by
  unfold decodeData at ok
  cases t with
  | batch => cases ok
  -- The arms that carry nothing, and those that leave the rest to an extension.
  | initializeAccount | revoke | closeAccount | freezeAccount | thawAccount | syncNative
  | initializeImmutableOwner | createNativeMint | initializeNonTransferableMint
  | withdrawExcessLamports | transferFeeExtension | confidentialTransferExtension
  | defaultAccountStateExtension | memoTransferExtension | interestBearingMintExtension
  | cpiGuardExtension | transferHookExtension | confidentialTransferFeeExtension
  | metadataPointerExtension | groupPointerExtension | groupMemberPointerExtension
  | confidentialMintBurnExtension | scaledUiAmountExtension | pausableExtension
  | permissionedBurnExtension =>
    obtain rfl := Except.ok.inj ok
    exact ⟨_, bytes, rfl, False.elim, rfl, rfl⟩
  -- Data of a fixed size, behind which there is nothing.
  | initializeAccount2 | initializeAccount3 | initializePermanentDelegate =>
    simp only [map_eq_ok_iff, decodeInstructionData_eq_ok_iff] at ok
    obtain ⟨owner, rfl, rfl⟩ := ok
    rw [← List.append_nil (podAddress.write owner)]
    exact ⟨_, [], bind_read_eq exact_pubkey [] rfl, fun _ => rfl, rfl, rfl⟩
  | initializeMultisig | initializeMultisig2 =>
    simp only [map_eq_ok_iff, decodeInstructionData_eq_ok_iff] at ok
    obtain ⟨data, rfl, rfl⟩ := ok
    exact ⟨_, [], bind_read_eq exact_u8 [] rfl, fun _ => rfl, rfl, rfl⟩
  | transfer | approve | mintTo | burn | amountToUiAmount =>
    simp only [map_eq_ok_iff, decodeInstructionData_eq_ok_iff] at ok
    obtain ⟨data, rfl, rfl⟩ := ok
    rw [← List.append_nil (AmountData.pod.write data)]
    exact ⟨_, [], bind_read_eq exact_u64 [] rfl, fun _ => rfl, rfl, rfl⟩
  | transferChecked | approveChecked | mintToChecked | burnChecked =>
    simp only [map_eq_ok_iff, decodeInstructionData_eq_ok_iff] at ok
    obtain ⟨⟨amount, decimals⟩, rfl, rfl⟩ := ok
    rw [← List.append_nil (AmountCheckedData.pod.write _)]
    exact ⟨_, [], bind_read_eq (a := (amount, decimals)) exact_amountDecimals [] rfl,
      fun _ => rfl, rfl, rfl⟩
  -- Data that an optional value follows.
  | initializeMint | initializeMint2 =>
    simp only [decodeInstructionDataWithCoptionPubkey, unpackPodPubkeyOption, bind_eq_ok_iff,
      decodeInstructionDataWithCoption_eq_ok_iff, Prod.exists, Except.ok.injEq] at ok
    obtain ⟨⟨decimals, mintAuthority⟩, _, ⟨freezeAuthority, rest, rfl, rfl⟩, rfl⟩ := ok
    exact ⟨_, rest, bind_read_eq exact_u8 _ <| bind_read_eq exact_pubkey _ <|
      bind_read_eq exact_pubkeyOption rest rfl, False.elim, rfl, rfl⟩
  | setAuthority =>
    simp only [decodeInstructionDataWithCoptionPubkey, unpackPodPubkeyOption, bind_eq_ok_iff,
      decodeInstructionDataWithCoption_eq_ok_iff, Prod.exists, Except.ok.injEq] at ok
    obtain ⟨⟨t⟩, _, ⟨newAuthority, rest, rfl, rfl⟩, authorityType, known, rfl⟩ := ok
    exact ⟨_, rest, bind_read_eq exact_u8 _ <| bind_eq_ok_iff.mpr ⟨authorityType, known,
      bind_read_eq exact_pubkeyOption rest rfl⟩, False.elim, rfl, rfl⟩
  | initializeMintCloseAuthority =>
    simp only [decodeInstructionDataWithCoptionPubkey, unpackPodPubkeyOption, bind_eq_ok_iff,
      decodeInstructionDataWithCoption_eq_ok_iff, Prod.exists, Except.ok.injEq] at ok
    obtain ⟨_, _, ⟨closeAuthority, rest, rfl, rfl⟩, rfl⟩ := ok
    exact ⟨_, rest, bind_read_eq exact_pubkeyOption rest rfl, False.elim, rfl, rfl⟩
  | unwrapLamports =>
    simp only [decodeInstructionDataWithCoptionU64, unpackPodU64Option, bind_eq_ok_iff,
      decodeInstructionDataWithCoption_eq_ok_iff, Prod.exists, Except.ok.injEq] at ok
    obtain ⟨_, _, ⟨amount, rest, rfl, rfl⟩, rfl⟩ := ok
    exact ⟨_, rest, bind_read_eq exact_u64Option rest rfl, False.elim, rfl, rfl⟩
  -- Data that takes everything that follows.
  | getAccountDataSize | reallocate =>
    rw [map_eq_ok_iff] at ok
    obtain ⟨extensionTypes, read, rfl⟩ := ok
    exact ⟨_, [], bind_eq_ok_iff.mpr ⟨_, read, rfl⟩, False.elim, rfl, rfl⟩
  | uiAmountToAmount =>
    rw [map_eq_ok_iff] at ok
    obtain ⟨uiAmount, read, rfl⟩ := ok
    exact ⟨_, [], bind_eq_ok_iff.mpr ⟨_, read, rfl⟩, False.elim, rfl, rfl⟩

/-- **What is packed is decoded**, with the same fields. -/
theorem decodeData_pack (v : TokenInstruction) (rest : List UInt8)
    (all : v.TakesRest → rest = []) (sized : v.PodSized → rest = []) (inner : ∀ d, v ≠ .batch d) :
    ∃ bytes, v.pack ++ rest = v.podInstruction.byte :: bytes ∧
      decodeData v.podInstruction (v.podInstruction.byte :: bytes) = .ok (v.podData rest) := by
  cases v with
  | batch data => exact absurd rfl (inner data)
  | initializeAccount | revoke | closeAccount | freezeAccount | thawAccount | syncNative
  | initializeImmutableOwner | createNativeMint | initializeNonTransferableMint
  | withdrawExcessLamports | transferFeeExtension | confidentialTransferExtension
  | defaultAccountStateExtension | memoTransferExtension | interestBearingMintExtension
  | cpiGuardExtension | transferHookExtension | confidentialTransferFeeExtension
  | metadataPointerExtension | groupPointerExtension | groupMemberPointerExtension
  | confidentialMintBurnExtension | scaledUiAmountExtension | pausableExtension
  | permissionedBurnExtension => exact ⟨rest, rfl, rfl⟩
  | initializeAccount2 owner | initializeAccount3 owner | initializePermanentDelegate owner =>
    obtain rfl := sized trivial
    refine ⟨addressBytes owner, List.append_nil _, ?_⟩
    exact map_eq_ok_iff.mpr ⟨owner, decodeInstructionData_eq_ok_iff.mpr rfl, rfl⟩
  | initializeMultisig m | initializeMultisig2 m =>
    obtain rfl := sized trivial
    refine ⟨[m], rfl, ?_⟩
    exact map_eq_ok_iff.mpr ⟨⟨m⟩, decodeInstructionData_eq_ok_iff.mpr rfl, rfl⟩
  | transfer amount | approve amount | mintTo amount | burn amount | amountToUiAmount amount =>
    obtain rfl := sized trivial
    refine ⟨u64Bytes amount, List.append_nil _, ?_⟩
    exact map_eq_ok_iff.mpr ⟨⟨amount⟩, decodeInstructionData_eq_ok_iff.mpr rfl, rfl⟩
  | transferChecked amount decimals | approveChecked amount decimals
  | mintToChecked amount decimals | burnChecked amount decimals =>
    obtain rfl := sized trivial
    refine ⟨u64Bytes amount ++ [decimals], List.append_nil _, ?_⟩
    exact map_eq_ok_iff.mpr ⟨⟨amount, decimals⟩, decodeInstructionData_eq_ok_iff.mpr rfl, rfl⟩
  | initializeMint decimals mintAuthority freezeAuthority
  | initializeMint2 decimals mintAuthority freezeAuthority =>
    refine ⟨[decimals] ++ addressBytes mintAuthority ++ packPubkeyOption freezeAuthority ++ rest,
      by simp only [pack, List.append_assoc, List.cons_append, List.nil_append]; rfl, ?_⟩
    refine bind_eq_ok_iff.mpr ⟨(⟨decimals, mintAuthority⟩, .ofOption freezeAuthority), ?_, rfl⟩
    exact decodeInstructionDataWithCoption_eq_ok_iff.mpr
      ⟨freezeAuthority, rest, List.append_assoc .., rfl⟩
  | setAuthority authorityType newAuthority =>
    refine ⟨[authorityTypeInto authorityType] ++ packPubkeyOption newAuthority ++ rest, rfl, ?_⟩
    refine bind_eq_ok_iff.mpr ⟨(⟨authorityTypeInto authorityType⟩, .ofOption newAuthority), ?_, ?_⟩
    · exact decodeInstructionDataWithCoption_eq_ok_iff.mpr
        ⟨newAuthority, rest, List.append_assoc .., rfl⟩
    · exact bind_eq_ok_iff.mpr ⟨authorityType, authorityTypeFrom_eq_ok_iff.mpr rfl, rfl⟩
  | initializeMintCloseAuthority closeAuthority =>
    refine ⟨packPubkeyOption closeAuthority ++ rest, rfl, ?_⟩
    refine bind_eq_ok_iff.mpr ⟨((), .ofOption closeAuthority), ?_, rfl⟩
    exact decodeInstructionDataWithCoption_eq_ok_iff.mpr ⟨closeAuthority, rest, rfl, rfl⟩
  | unwrapLamports amount =>
    refine ⟨packU64Option amount ++ rest, rfl, ?_⟩
    refine bind_eq_ok_iff.mpr ⟨((), .ofOption amount), ?_, rfl⟩
    exact decodeInstructionDataWithCoption_eq_ok_iff.mpr ⟨amount, rest, rfl, rfl⟩
  | getAccountDataSize extensionTypes | reallocate extensionTypes =>
    obtain rfl := all trivial
    refine ⟨packExtensionTypes extensionTypes, List.append_nil _, ?_⟩
    exact map_eq_ok_iff.mpr ⟨extensionTypes, unpackExtensionTypes_eq_ok_iff.mpr rfl, rfl⟩
  | uiAmountToAmount uiAmount =>
    obtain rfl := all trivial
    refine ⟨textBytes uiAmount, List.append_nil _, ?_⟩
    exact map_eq_ok_iff.mpr ⟨uiAmount, unpackUiAmount_eq_ok_iff.mpr rfl, rfl⟩

end TokenInstruction

/-! ### The two decoders -/

/-- **`_process_inner` decodes what the codec unpacks**: not a batch, and nothing behind data of a
fixed size. -/
theorem decodeInner_eq_ok_iff {input : List UInt8} {t : PodTokenInstruction} {data : PodData} :
    decodeInner input = .ok (t, data) ↔
      ∃ v rest, TokenInstruction.unpackWithRest input = .ok (v, rest) ∧ (∀ d, v ≠ .batch d) ∧
        (v.PodSized → rest = []) ∧ v.podInstruction = t ∧ v.podData rest = data := by
  simp only [decodeInner, bind_eq_ok_iff, decodeInstructionType_eq_ok_iff, Except.ok.injEq,
    Prod.mk.injEq]
  constructor
  · rintro ⟨_, ⟨bytes, rfl⟩, _, ok, rfl, rfl⟩
    obtain ⟨v, rest, read, sized, same, fields⟩ := TokenInstruction.unpackTagged_of_decodeData ok
    refine ⟨v, rest, read, ?_, sized, same, fields⟩
    -- The arm of a batch fails.
    rintro d rfl
    rw [← same] at ok
    cases ok
  · rintro ⟨v, rest, read, inner, sized, rfl, rfl⟩
    obtain ⟨rfl, all⟩ := TokenInstruction.unpackWithRest_eq_ok_iff.mp read
    obtain ⟨bytes, same, ok⟩ := v.decodeData_pack rest all sized inner
    exact ⟨_, ⟨bytes, same⟩, _, same ▸ ok, rfl, rfl⟩

/-- Only a batch has the type of a batch. -/
theorem TokenInstruction.podInstruction_eq_batch_iff {v : TokenInstruction} :
    v.podInstruction = .batch ↔ ∃ d, v = .batch d := by
  constructor
  · intro type
    cases v with
    | batch d => exact ⟨d, rfl⟩
    | _ => cases type
  · rintro ⟨d, rfl⟩
    rfl

/-- **`process` decodes what the codec unpacks**, where nothing follows data of a fixed size. -/
theorem decode_eq_ok_iff {input : List UInt8} {t : PodTokenInstruction} {data : PodData} :
    decode input = .ok (t, data) ↔
      ∃ v rest, TokenInstruction.unpackWithRest input = .ok (v, rest) ∧
        (v.PodSized → rest = []) ∧ v.podInstruction = t ∧ v.podData rest = data := by
  by_cases batch : decodeInstructionType input = .ok .batch
  · obtain ⟨bytes, rfl⟩ := decodeInstructionType_eq_ok_iff.mp batch
    have read : TokenInstruction.unpackWithRest (PodTokenInstruction.batch.byte :: bytes) =
        .ok (.batch bytes, []) := rfl
    rw [decode, batch, read]
    simp only [Except.ok.injEq, Prod.mk.injEq, List.drop_one, List.tail_cons]
    constructor
    · rintro ⟨rfl, rfl⟩
      exact ⟨_, _, ⟨rfl, rfl⟩, False.elim, rfl, rfl⟩
    · rintro ⟨_, _, ⟨rfl, rfl⟩, -, rfl, rfl⟩
      exact ⟨rfl, rfl⟩
  · have other : decode input = decodeInner input := by
      unfold decode
      split
      next found => exact absurd found batch
      next => rfl
    rw [other, decodeInner_eq_ok_iff]
    constructor
    · rintro ⟨v, rest, read, -, fields⟩
      exact ⟨v, rest, read, fields⟩
    · rintro ⟨v, rest, read, fields⟩
      refine ⟨v, rest, read, ?_, fields⟩
      rintro d rfl
      obtain ⟨rfl, -⟩ := TokenInstruction.unpackWithRest_eq_ok_iff.mp read
      exact batch rfl

/-- The fields of an instruction have canonical tags. -/
theorem TokenInstruction.canonical_podData (v : TokenInstruction) (rest : List UInt8) :
    (v.podData rest).Canonical := by
  cases v with
  | initializeMint _ _ option | initializeMint2 _ _ option | setAuthority _ option
  | initializeMintCloseAuthority option | unwrapLamports option =>
    exact PodCOption.canonical_ofOption option
  | _ => trivial

/-- **The decoder of the program and the codec of the interface agree.** What `process` decodes is
unpacked as the same instruction, with the same fields; what is packed is decoded with its fields;
the tags of optional values are canonical. `_process_inner` decodes the same, but for batches. -/
theorem pod_decoder_agrees :
    (∀ input t data, decode input = .ok (t, data) →
      ∃ v rest, TokenInstruction.unpackWithRest input = .ok (v, rest) ∧
        TokenInstruction.unpack input = .ok v ∧
        v.podInstruction = t ∧ v.podData rest = data ∧ data.Canonical) ∧
    (∀ v : TokenInstruction, decode v.pack = .ok (v.podInstruction, v.podData [])) ∧
    ∀ input p, decodeInner input = .ok p ↔ decode input = .ok p ∧ p.1 ≠ .batch := by
  refine ⟨fun input t data ok => ?_, fun v => ?_, fun input p => ?_⟩
  · obtain ⟨v, rest, read, -, rfl, rfl⟩ := decode_eq_ok_iff.mp ok
    refine ⟨v, rest, read, ?_, rfl, rfl, v.canonical_podData rest⟩
    rw [TokenInstruction.unpack, read]
    rfl
  · have read := TokenInstruction.unpackWithRest_pack v [] fun _ => rfl
    rw [List.append_nil] at read
    exact decode_eq_ok_iff.mpr ⟨v, [], read, fun _ => rfl, rfl, rfl⟩
  · rw [decodeInner_eq_ok_iff (t := p.1), decode_eq_ok_iff (t := p.1)]
    constructor
    · rintro ⟨v, rest, read, inner, sized, type, fields⟩
      refine ⟨⟨v, rest, read, sized, type, fields⟩, ?_⟩
      rw [← type]
      intro batch
      obtain ⟨d, rfl⟩ := TokenInstruction.podInstruction_eq_batch_iff.mp batch
      exact inner d rfl
    · rintro ⟨⟨v, rest, read, sized, type, fields⟩, other⟩
      refine ⟨v, rest, read, ?_, sized, type, fields⟩
      rintro d rfl
      exact other type.symm

theorem pod_decoder_agrees_setAuthority :
    (∃ v rest, TokenInstruction.unpackWithRest [6, 16, 0] = .ok (v, rest) ∧
      TokenInstruction.unpack [6, 16, 0] = .ok v ∧ v.podInstruction = .setAuthority ∧
      v.podData rest = .setAuthority .pause ⟨noneTag, 0⟩ ∧
      (PodData.setAuthority .pause ⟨noneTag, 0⟩).Canonical) ∧
    decode (TokenInstruction.pack (.setAuthority .pause none)) =
      .ok (.setAuthority, .setAuthority .pause ⟨noneTag, 0⟩) :=
  ⟨pod_decoder_agrees.1 [6, 16, 0] .setAuthority (.setAuthority .pause ⟨noneTag, 0⟩) (by rfl),
    pod_decoder_agrees.2.1 (.setAuthority .pause none)⟩

end Token2022.Interface
