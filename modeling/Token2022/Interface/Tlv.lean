/-
**Extensions on bytes.**

Behind the account type of an extended state stands a row of entries: two bytes of type, two of
length, then the value. An entry of type zero ends the row.

* `getExtensionIndices`, `getTlvDataInfo`, `getFirstExtensionType`, `getExtensionBytes` — the readers
  of a row, on any bytes.
-/

import Token2022.Interface.State

namespace Token2022.Interface

open Fallible

/-- `TlvIndices`. -/
structure TlvIndices where
  typeStart : ℕ
  lengthStart : ℕ
  valueStart : ℕ
  deriving DecidableEq

/-- `get_tlv_indices`. -/
def getTlvIndices (typeStart : ℕ) : TlvIndices where
  typeStart
  lengthStart := typeStart + 2
  valueStart := typeStart + 2 + 2

/-- The type that is written at an entry, as a number. -/
def TlvIndices.typeCode (indices : TlvIndices) (tlvData : List UInt8) : UInt16 :=
  u16OfBytes (slice tlvData indices.typeStart 2)

/-- The `Length` that is written at an entry. -/
def TlvIndices.length (indices : TlvIndices) (tlvData : List UInt8) : ℕ :=
  (u16OfBytes (slice tlvData indices.lengthStart 2)).toNat

/-- The loop of `get_extension_indices`. -/
def getExtensionIndicesFrom (tlvData : List UInt8) (t : ExtensionType) (init : Bool)
    (startIndex : ℕ) : ProgramResult TlvIndices :=
  if startIndex < tlvData.length then
    let indices := getTlvIndices startIndex
    if tlvData.length < indices.valueStart then .error .invalidAccountData
    else if indices.typeCode tlvData = extensionTypeCode t then .ok indices
    else if indices.typeCode tlvData = extensionTypeCode .uninitialized then
      if init then .ok indices else .error TokenError.extensionNotFound
    else getExtensionIndicesFrom tlvData t init (indices.valueStart + indices.length tlvData)
  else .error .invalidAccountData
termination_by tlvData.length - startIndex
decreasing_by
  simp only [getTlvIndices]
  omega

/-- `get_extension_indices`. -/
def getExtensionIndices (tlvData : List UInt8) (t : ExtensionType) (init : Bool) :
    ProgramResult TlvIndices := getExtensionIndicesFrom tlvData t init 0

/-- `TlvDataInfo`. -/
structure TlvDataInfo where
  extensionTypes : List ExtensionType
  usedLen : ℕ
  deriving DecidableEq

/-- The loop of `get_tlv_data_info`. -/
def getTlvDataInfoFrom (tlvData : List UInt8) (startIndex : ℕ) : ProgramResult TlvDataInfo :=
  if startIndex < tlvData.length then
    let indices := getTlvIndices startIndex
    -- One byte that is left over is no entry.
    if tlvData.length < indices.lengthStart then .ok ⟨[], startIndex⟩
    else do
      let t ← okOr (extensionTypeOfCode (indices.typeCode tlvData)) .invalidAccountData
      if t = .uninitialized then .ok ⟨[], startIndex⟩
      else do
        require (indices.valueStart ≤ tlvData.length) .invalidAccountData
        let valueEnd := indices.valueStart + indices.length tlvData
        require (valueEnd ≤ tlvData.length) .invalidAccountData
        let info ← getTlvDataInfoFrom tlvData valueEnd
        .ok ⟨t :: info.extensionTypes, info.usedLen⟩
  else .ok ⟨[], startIndex⟩
termination_by tlvData.length - startIndex
decreasing_by
  simp only [getTlvIndices]
  omega

/-- `get_tlv_data_info`: the types of the entries, and the bytes that they take. -/
def getTlvDataInfo (tlvData : List UInt8) : ProgramResult TlvDataInfo :=
  getTlvDataInfoFrom tlvData 0

/-- `get_first_extension_type`. -/
def getFirstExtensionType (tlvData : List UInt8) : ProgramResult (Option ExtensionType) :=
  let indices := getTlvIndices 0
  if tlvData.length ≤ indices.lengthStart then .ok none
  else do
    let t ← okOr (extensionTypeOfCode (indices.typeCode tlvData)) .invalidAccountData
    .ok (if t = .uninitialized then none else some t)

/-- `get_extension_bytes`, of a state of the kind. -/
def getExtensionBytes (kind : AccountType) (t : ExtensionType) (tlvData : List UInt8) :
    ProgramResult (List UInt8) := do
  require (t.getAccountType = kind) .invalidAccountData
  let indices ← getExtensionIndices tlvData t false
  let length := indices.length tlvData
  require (indices.valueStart + length ≤ tlvData.length) .invalidAccountData
  .ok (slice tlvData indices.valueStart length)

/-- `try_get_account_len`. -/
def tryGetAccountLen (kind : AccountType) (tlvData : List UInt8) : ProgramResult ℕ := do
  let info ← getTlvDataInfo tlvData
  if info.extensionTypes = [] then .ok kind.baseLen
  else .ok (adjustLenForMultisig (info.usedLen + baseAccountAndTypeLength))

end Token2022.Interface
