/-
**Writing to a row of entries in place.**

* `alloc`, `realloc`, `initExtension`, `initVariableLenExtension`, `reallocVariableLenExtension` — the
  writers, as programs over the bytes of a row.
* `TlvBuffer` — a canonical buffer: distinct entries, and zeroes behind them.
* `Writes`, `Slot` — a buffer but for the value of one type, and the part of a buffer that takes it.
* **`alloc_of_takes`**, **`alloc_of_tears`**, **`alloc_of_refused`** — what `alloc` does to a canonical
  buffer.
* **`realloc_of_fits`**, **`realloc_of_refused`** — what `realloc` does.
-/

import Token2022.Interface.TlvBounds

namespace Token2022.Interface

open ExtensionType Fallible KeyedList Panicking SliceProgram

/-! ### The writers -/

/-- A program over the bytes of a row. -/
abbrev TlvProgram (α : Type) := SliceProgram ProgramError UInt8 α

/-- `Length::try_from`. -/
def lengthTryFrom (n : ℕ) : ProgramResult UInt16 :=
  if n < 2 ^ 16 then .ok (.ofNat n) else .error .accountDataTooSmall

/-- `alloc`, of a state of the kind: where the value of the extension stands. -/
def alloc (kind : AccountType) (t : ExtensionType) (length : ℕ) (overwrite : Bool) :
    TlvProgram (ℕ × ℕ) := do
  check (t.getAccountType = kind) .invalidAccountData
  let indices ← reading fun tlvData => indexedExtensionIndices tlvData t true
  let dataLen ← len
  let rest ← read indices.typeStart dataLen
  check (addTypeAndLengthToLen length ≤ rest.length) .invalidAccountData
  let typeBytes ← read indices.typeStart indices.lengthStart
  let extensionType ← ofExcept <| okOr (extensionTypeOfCode (u16OfBytes typeBytes))
    ProgramError.invalidAccountData
  if extensionType = .uninitialized ∨ overwrite = true then do
    write indices.typeStart (u16Bytes (extensionTypeCode t))
    let lengthBytes ← read indices.lengthStart indices.valueStart
    let oldLength := (u16OfBytes lengthBytes).toNat
    check (¬ (overwrite = true ∧ extensionType = t ∧ oldLength ≠ length))
      TokenError.invalidLengthForAlloc
    let lengthRef ← ofExcept (lengthTryFrom length)
    write indices.lengthStart (u16Bytes lengthRef)
    range indices.valueStart (indices.valueStart + length)
  else ofExcept (.error TokenError.extensionAlreadyInitialized)

/-- The end of `realloc`: move what is behind the value, and clear what that leaves. -/
def reallocMove (tlvLen valueStart oldLength length : ℕ) : TlvProgram (ℕ × ℕ) := do
  let oldValueEnd := valueStart + oldLength
  let newValueEnd := valueStart + length
  copyWithin oldValueEnd tlvLen newValueEnd
  let clear : TlvProgram Unit := match compare oldLength length with
    | .gt => fill (tlvLen - (oldLength - length)) tlvLen 0
    | .lt => fill oldValueEnd newValueEnd 0
    | .eq => pure ()
  clear
  range valueStart newValueEnd

/-- `realloc`: where the value of the extension stands. -/
def realloc (t : ExtensionType) (length : ℕ) : TlvProgram (ℕ × ℕ) := do
  let indices ← reading fun tlvData => indexedExtensionIndices tlvData t false
  let info ← reading indexedTlvDataInfo
  let tlvLen := info.usedLen
  let dataLen ← len
  let lengthBytes ← read indices.lengthStart indices.valueStart
  let oldLength := (u16OfBytes lengthBytes).toNat
  check (¬ (oldLength < length ∧ dataLen < tlvLen + (length - oldLength))) .invalidAccountData
  -- The new length is written after the check.
  let lengthRef ← ofExcept (lengthTryFrom length)
  write indices.lengthStart (u16Bytes lengthRef)
  reallocMove tlvLen indices.valueStart oldLength length

/-- `init_extension`, of a type whose default value has the given bytes. -/
def initExtension (kind : AccountType) (t : ExtensionType) (default : List UInt8)
    (overwrite : Bool) : TlvProgram (ℕ × ℕ) := do
  let buffer ← alloc kind t default.length overwrite
  within buffer fun _ => (.ok (), default)
  pure buffer

/-- A value that is `VariableLenPack`: its length, and how it is packed into a slice. -/
structure VariableLen where
  getPackedLen : ProgramResult ℕ
  /-- The result, and what the slice holds then. -/
  packIntoSlice : List UInt8 → ProgramResult Unit × List UInt8

/-- **Serialising the value succeeds**, and gives the bytes. -/
structure VariableLen.Serialises (value : VariableLen) (bytes : List UInt8) : Prop where
  getPackedLen : value.getPackedLen = .ok bytes.length
  packIntoSlice : ∀ dst, dst.length = bytes.length → value.packIntoSlice dst = (.ok (), bytes)

/-- `init_variable_len_extension`. -/
def initVariableLenExtension (kind : AccountType) (t : ExtensionType) (value : VariableLen)
    (overwrite : Bool) : TlvProgram Unit := do
  let length ← ofExcept value.getPackedLen
  let data ← alloc kind t length overwrite
  within data value.packIntoSlice

/-- `realloc_variable_len_extension`. -/
def reallocVariableLenExtension (t : ExtensionType) (value : VariableLen) : TlvProgram Unit := do
  let length ← ofExcept value.getPackedLen
  let data ← realloc t length
  within data value.packIntoSlice

section VariableLen

variable {t : ExtensionType} {value : VariableLen} {length : ℕ}
  (packedLen : value.getPackedLen = .ok length)
include packedLen

/-- The writers, of a value that says its length: a slot of the length, then the value. -/
theorem initVariableLenExtension_eq (kind : AccountType) (overwrite : Bool) :
    initVariableLenExtension kind t value overwrite =
      alloc kind t length overwrite >>= fun data => within data value.packIntoSlice := by
  funext data
  exact bind_of_ok (ofExcept_of_ok packedLen)

theorem reallocVariableLenExtension_eq :
    reallocVariableLenExtension t value =
      realloc t length >>= fun data => within data value.packIntoSlice := by
  funext data
  exact bind_of_ok (ofExcept_of_ok packedLen)

end VariableLen

/-! ### Canonical buffers -/

/-- **A canonical buffer**: distinct entries, and zeroes behind them. -/
structure TlvBuffer where
  row : List RawEntry
  /-- The zeroes. -/
  room : ℕ
  readable : Readable row
  distinct : row.keys.Nodup

/-- The bytes of a buffer. -/
def TlvBuffer.bytes (b : TlvBuffer) : List UInt8 := rawRowBytes b.row ++ List.replicate b.room 0

/-- **The buffer is the same but for the value of a type**, which is there now. -/
def Writes (b : TlvBuffer) (t : ExtensionType) (value data : List UInt8) : Prop :=
  ∃ b' : TlvBuffer, data = b'.bytes ∧ b'.row = put t value b.row ∧ data.length = b.bytes.length

/-- **A part of the bytes that takes a value of a type**, of its length. -/
def Slot (b : TlvBuffer) (t : ExtensionType) (length : ℕ) (data : List UInt8) (bounds : ℕ × ℕ) :
    Prop :=
  ∃ front old back, data = front ++ (old ++ back) ∧ old.length = length ∧
    bounds = (front.length, front.length + length) ∧
    ∀ value : List UInt8, value.length = length → Writes b t value (front ++ (value ++ back))

/-! ### Headers -/

/-- The type and the length of an entry. -/
def headerBytes (t : ExtensionType) (length : ℕ) : List UInt8 :=
  u16Bytes (extensionTypeCode t) ++ u16Bytes (.ofNat length)

@[simp] theorem length_headerBytes (t : ExtensionType) (length : ℕ) :
    (headerBytes t length).length = 4 := by
  simp [headerBytes]

theorem rawEntryBytes_eq (e : RawEntry) : rawEntryBytes e = headerBytes e.1 e.2.length ++ e.2 :=
  (List.append_assoc ..).symm

/-- Four zeroes are the header of no entry. -/
theorem zeroes_eq_header (room : ℕ) :
    List.replicate (room + 4) (0 : UInt8) =
      headerBytes .uninitialized 0 ++ List.replicate room 0 := rfl

section Header

variable (front : List UInt8) (t : ExtensionType) (length : ℕ) (rest : List UInt8)

theorem read_type :
    (SliceProgram.read (getTlvIndices front.length).typeStart
        (getTlvIndices front.length).lengthStart : TlvProgram _)
      (front ++ (headerBytes t length ++ rest)) =
      some (.ok (u16Bytes (extensionTypeCode t)), front ++ (headerBytes t length ++ rest)) := by
  rw [headerBytes, List.append_assoc]
  exact read_append front _ _ rfl (by simp [getTlvIndices])

theorem read_length :
    (SliceProgram.read (getTlvIndices front.length).lengthStart
        (getTlvIndices front.length).valueStart : TlvProgram _)
      (front ++ (headerBytes t length ++ rest)) =
      some (.ok (u16Bytes (.ofNat length)), front ++ (headerBytes t length ++ rest)) := by
  rw [headerBytes, List.append_assoc, ← List.append_assoc front]
  exact read_append (front ++ u16Bytes (extensionTypeCode t)) _ _ (by simp [getTlvIndices])
    (by simp [getTlvIndices])

theorem write_type (t' : ExtensionType) :
    (write (getTlvIndices front.length).typeStart (u16Bytes (extensionTypeCode t')) :
        TlvProgram _) (front ++ (headerBytes t length ++ rest)) =
      some (.ok (), front ++ (headerBytes t' length ++ rest)) := by
  unfold headerBytes
  rw [List.append_assoc, List.append_assoc]
  exact write_append front _ rfl (by simp)

theorem write_length (length' : ℕ) :
    (write (getTlvIndices front.length).lengthStart (u16Bytes (.ofNat length')) : TlvProgram _)
        (front ++ (headerBytes t length ++ rest)) =
      some (.ok (), front ++ (headerBytes t length' ++ rest)) := by
  unfold headerBytes
  rw [List.append_assoc, List.append_assoc, ← List.append_assoc front, ← List.append_assoc front]
  exact write_append (front ++ u16Bytes (extensionTypeCode t)) _ (by simp [getTlvIndices]) (by simp)

end Header

/-! ### `alloc` on a canonical buffer -/

theorem alloc_otherKind {kind : AccountType} {t : ExtensionType} (other : t.getAccountType ≠ kind)
    (length : ℕ) (overwrite : Bool) (data : List UInt8) :
    alloc kind t length overwrite data = some (.error .invalidAccountData, data) := by
  unfold alloc
  rw [bind_of_error (check_neg other _)]

section AllocAt

variable {t : ExtensionType} {front : List UInt8} {t' : ExtensionType} {n : ℕ} {rest : List UInt8}
  (length : ℕ) (overwrite : Bool)

/-- What is left of `alloc` where it has found a header. -/
def allocAt (t : ExtensionType) (front : List UInt8) (t' : ExtensionType) (n : ℕ)
    (rest : List UInt8) (length : ℕ) (overwrite : Bool) : ProgramResult (ℕ × ℕ) × List UInt8 :=
  let data := front ++ (headerBytes t' n ++ rest)
  let named := front ++ (headerBytes t n ++ rest)
  if rest.length < length then (.error .invalidAccountData, data)
  else if t' = .uninitialized ∨ overwrite = true then
    if overwrite = true ∧ t' = t ∧ n ≠ length then (.error TokenError.invalidLengthForAlloc, named)
    else if length < 2 ^ 16 then
      (.ok (front.length + 4, front.length + 4 + length),
        front ++ (headerBytes t length ++ rest))
    else (.error .accountDataTooSmall, named)
  else (.error TokenError.extensionAlreadyInitialized, data)

/-- **`alloc` where it has found a header.** -/
theorem alloc_eq (found : getExtensionIndices (front ++ (headerBytes t' n ++ rest)) t true =
    .ok (getTlvIndices front.length)) (short : n < 2 ^ 16) :
    alloc t.getAccountType t length overwrite (front ++ (headerBytes t' n ++ rest)) =
      some (allocAt t front t' n rest length overwrite) := by
  have lookup : indexedExtensionIndices (front ++ (headerBytes t' n ++ rest)) t true =
      .of (.ok (getTlvIndices front.length)) := by
    rw [indexedExtensionIndices_eq, found]
  have known : okOr (extensionTypeOfCode (u16OfBytes (u16Bytes (extensionTypeCode t'))))
      ProgramError.invalidAccountData = .ok t' := by
    rw [u16OfBytes_u16Bytes, okOr_eq_ok_iff, extensionTypeOfCode_eq_some_iff]
  have number : (u16OfBytes (u16Bytes (.ofNat n))).toNat = n := by
    rw [u16OfBytes_u16Bytes, UInt16.toNat_ofNat', Nat.mod_eq_of_lt short]
  have tail : (SliceProgram.read (getTlvIndices front.length).typeStart
      (front ++ (headerBytes t' n ++ rest)).length : TlvProgram _)
        (front ++ (headerBytes t' n ++ rest)) =
      some (.ok (headerBytes t' n ++ rest), front ++ (headerBytes t' n ++ rest)) := by
    have whole := read_append (ε := ProgramError) front [] (headerBytes t' n ++ rest) rfl
      List.length_append.symm
    rwa [List.append_nil] at whole
  have size : (headerBytes t' n ++ rest).length = 4 + rest.length := by
    rw [List.length_append, length_headerBytes]
  unfold alloc allocAt
  rw [bind_of_ok (check_pos rfl _), bind_of_ok (reading_of lookup), bind_of_ok (m := len) rfl,
    bind_of_ok tail]
  by_cases long : rest.length < length
  · rw [if_pos long, bind_of_error (check_neg (by rw [size, addTypeAndLengthToLen]; omega) _)]
  · rw [if_neg long, bind_of_ok (check_pos (by rw [size, addTypeAndLengthToLen]; omega) _),
      bind_of_ok (read_type front t' n rest), bind_of_ok (ofExcept_of_ok known)]
    by_cases open' : t' = .uninitialized ∨ overwrite = true
    · rw [if_pos open', if_pos open', bind_of_ok (write_type front t' n rest t),
        bind_of_ok (read_length front t n rest), number]
      by_cases other : overwrite = true ∧ t' = t ∧ n ≠ length
      · rw [if_pos other, bind_of_error (check_neg (not_not_intro other) _)]
      · rw [if_neg other, bind_of_ok (check_pos other _)]
        by_cases fits : length < 2 ^ 16
        · have converted : lengthTryFrom length = .ok (.ofNat length) := if_pos fits
          rw [if_pos fits, bind_of_ok (ofExcept_of_ok converted),
            bind_of_ok (write_length front t n rest length)]
          exact range_eq (Nat.le_add_right ..) (by simp [getTlvIndices]; omega)
        · have refused : lengthTryFrom length = .error .accountDataTooSmall := if_neg fits
          rw [if_neg fits, bind_of_error (ofExcept_of_error refused)]
    · rw [if_neg open', if_neg open']
      rfl

end AllocAt

/-! ### `realloc` on a canonical buffer -/

section Move

variable (front held back : List UInt8) (room : ℕ) {length : ℕ}

/-- The value gets shorter: what is behind it moves up, and the end is cleared. -/
theorem reallocMove_shrink (shorter : length < held.length) :
    reallocMove (front.length + held.length + back.length) front.length held.length length
        (front ++ (held ++ (back ++ List.replicate room 0))) =
      some (.ok (front.length, front.length + length),
        front ++ (held.take length ++
          (back ++ List.replicate (room + (held.length - length)) 0))) := by
  have kept : (held.take length).length = length := List.length_take_of_le shorter.le
  have freed : (held.drop length).length = held.length - length := List.length_drop
  have uncovered : ((held.drop length ++ back).drop back.length).length = held.length - length := by
    rw [List.length_drop, List.length_append, freed]
    omega
  have parts : front ++ (held ++ (back ++ List.replicate room 0)) = (front ++ held.take length) ++
      (held.drop length ++ (back ++ List.replicate room (0 : UInt8))) := by
    rw [List.append_assoc, ← List.append_assoc (held.take length), List.take_append_drop]
  have moved : (copyWithin (front.length + held.length) (front.length + held.length + back.length)
      (front.length + length) : TlvProgram _) (front ++ (held ++ (back ++ List.replicate room 0))) =
      some (.ok (), (front ++ (held.take length ++ back)) ++
        ((held.drop length ++ back).drop back.length ++ List.replicate room 0)) := by
    rw [parts, copyWithin_front (front ++ held.take length) _ (held.drop length) back
      (by rw [List.length_append, kept]) (by rw [freed]; omega) rfl,
      ← List.append_assoc (held.drop length), List.drop_append_of_le_length (by simp)]
    simp only [List.append_assoc]
  have cleared : (fill (front.length + held.length + back.length - (held.length - length))
      (front.length + held.length + back.length) 0 : TlvProgram _)
      ((front ++ (held.take length ++ back)) ++
        ((held.drop length ++ back).drop back.length ++ List.replicate room 0)) =
      some (.ok (), (front ++ (held.take length ++ back)) ++
        (List.replicate (held.length - length) 0 ++ List.replicate room 0)) := by
    rw [← uncovered]
    refine fill_append _ _ _ 0 ?_ ?_
    · rw [uncovered, List.length_append, List.length_append, kept]
      omega
    · rw [uncovered]
      omega
  have order : compare held.length length = .gt := Nat.compare_eq_gt.mpr shorter
  unfold reallocMove
  rw [bind_of_ok moved, order, bind_of_ok cleared, ← List.replicate_add, Nat.add_comm _ room]
  simp only [List.append_assoc]
  exact range_eq (Nat.le_add_right ..) (by simp [kept])

/-- The value gets longer: what is behind it moves down, and the gap is cleared. -/
theorem reallocMove_grow (longer : held.length < length) (fits : length - held.length ≤ room) :
    reallocMove (front.length + held.length + back.length) front.length held.length length
        (front ++ (held ++ (back ++ List.replicate room 0))) =
      some (.ok (front.length, front.length + length),
        front ++ ((held ++ List.replicate (length - held.length) 0) ++
          (back ++ List.replicate (room - (length - held.length)) 0))) := by
  set gap := length - held.length with known
  set zeroes : List UInt8 := List.replicate (room - gap) 0 with rest
  have parts : front ++ (held ++ (back ++ List.replicate room 0)) =
      (front ++ held) ++ (back ++ (List.replicate gap (0 : UInt8) ++ zeroes)) := by
    rw [rest, ← List.replicate_add, Nat.add_sub_cancel' fits, List.append_assoc]
  have covered : ((back ++ (List.replicate gap (0 : UInt8) ++ zeroes)).take gap).length = gap :=
    List.length_take_of_le (by simp only [List.length_append, List.length_replicate]; omega)
  have moved : (copyWithin (front.length + held.length) (front.length + held.length + back.length)
      (front.length + length) : TlvProgram _) (front ++ (held ++ (back ++ List.replicate room 0))) =
      some (.ok (), (front ++ held) ++
        ((back ++ (List.replicate gap 0 ++ zeroes)).take gap ++ (back ++ zeroes))) := by
    rw [parts]
    exact copyWithin_back (front ++ held) zeroes back (List.replicate gap 0)
      List.length_append rfl (by omega) List.length_replicate
  have cleared : (fill (front.length + held.length) (front.length + length) 0 : TlvProgram _)
      ((front ++ held) ++
        ((back ++ (List.replicate gap 0 ++ zeroes)).take gap ++ (back ++ zeroes))) =
      some (.ok (), (front ++ held) ++ (List.replicate gap 0 ++ (back ++ zeroes))) := by
    rw [fill_append (front ++ held) (back ++ zeroes) _ 0 List.length_append
      (by rw [covered]; omega), covered]
  have order : compare held.length length = .lt := Nat.compare_eq_lt.mpr longer
  unfold reallocMove
  rw [bind_of_ok moved, order, bind_of_ok cleared]
  simp only [List.append_assoc]
  exact range_eq (Nat.le_add_right ..) (by simp; omega)

/-- The value keeps its length: nothing moves. -/
theorem reallocMove_same :
    reallocMove (front.length + held.length + back.length) front.length held.length held.length
        (front ++ (held ++ (back ++ List.replicate room 0))) =
      some (.ok (front.length, front.length + held.length),
        front ++ (held ++ (back ++ List.replicate room 0))) := by
  have moved : (copyWithin (front.length + held.length) (front.length + held.length + back.length)
      (front.length + held.length) : TlvProgram _)
        (front ++ (held ++ (back ++ List.replicate room 0))) =
      some (.ok (), front ++ (held ++ (back ++ List.replicate room 0))) := by
    have copied := copyWithin_front (ε := ProgramError) (front ++ held) (List.replicate room 0) []
      back List.length_append (Nat.add_zero _) rfl
    rwa [List.nil_append, List.drop_left, List.append_assoc] at copied
  have order : compare held.length held.length = .eq := Nat.compare_eq_eq.mpr rfl
  unfold reallocMove
  rw [bind_of_ok moved, order, bind_of_ok rfl]
  exact range_eq (Nat.le_add_right ..) (by simp)

/-- **The value gets its new length**: its front stays, zeroes fill it up, and what is behind it
moves along. -/
theorem reallocMove_eq (fits : length - held.length ≤ room) :
    reallocMove (front.length + held.length + back.length) front.length held.length length
        (front ++ (held ++ (back ++ List.replicate room 0))) =
      some (.ok (front.length, front.length + length),
        front ++ ((held.take length ++ List.replicate (length - held.length) 0) ++
          (back ++ List.replicate (room + held.length - length) 0))) := by
  rcases Nat.lt_trichotomy length held.length with shorter | same | longer
  · rw [reallocMove_shrink front held back room shorter, Nat.sub_eq_zero_of_le shorter.le,
      List.replicate_zero, List.append_nil, Nat.add_sub_assoc shorter.le]
  · subst same
    rw [reallocMove_same, Nat.sub_self, List.replicate_zero, List.append_nil,
      List.take_of_length_le le_rfl, Nat.add_sub_cancel]
  · have left : room - (length - held.length) = room + held.length - length := by omega
    rw [reallocMove_grow front held back room longer fits, List.take_of_length_le longer.le, left]

end Move

section Realloc

variable {t : ExtensionType} (length : ℕ)

/-- The bytes of a row around an entry. -/
theorem rawRowBytes_split (front back : List RawEntry) (value tail : List UInt8) :
    rawRowBytes (front ++ ⟨t, value⟩ :: back) ++ tail = rawRowBytes front ++
      (headerBytes t value.length ++ (value ++ (rawRowBytes back ++ tail))) := by
  simp only [rawRowBytes_append, rawRowBytes_cons, rawEntryBytes_eq, List.append_assoc]

/-- **`realloc` where the type has an entry.** -/
theorem realloc_present {front back : List RawEntry} {held : List UInt8} (room : ℕ)
    (readable : Readable (front ++ ⟨t, held⟩ :: back)) (absent : t ∉ front.keys) :
    let start := (rawRowBytes front).length
    let data := rawRowBytes (front ++ ⟨t, held⟩ :: back) ++ List.replicate room 0
    let value := held.take length ++ List.replicate (length - held.length) 0
    realloc t length data = some (
      if room < length - held.length then (.error .invalidAccountData, data)
      else if length < 2 ^ 16 then (.ok (start + 4, start + 4 + length),
        rawRowBytes (front ++ ⟨t, value⟩ :: back) ++
          List.replicate (room + held.length - length) 0)
      else (.error .accountDataTooSmall, data)) := by
  intro start data value
  have short : held.length < 2 ^ 16 := (readable ⟨t, held⟩ (by simp)).2
  have shape : data = rawRowBytes front ++ (headerBytes t held.length ++
      (held ++ (rawRowBytes back ++ List.replicate room 0))) := rawRowBytes_split ..
  have lookup : indexedExtensionIndices data t false = .of (.ok (getTlvIndices start)) := by
    rw [indexedExtensionIndices_eq, shape, ← List.append_assoc (headerBytes t held.length),
      ← rawEntryBytes_eq ⟨t, held⟩,
      getExtensionIndices_found false (fun e there => readable e (List.mem_append_left _ there))
        absent]
  have walk : indexedTlvDataInfo data = .of (.ok ⟨(front ++ ⟨t, held⟩ :: back).keys,
      (rawRowBytes (front ++ ⟨t, held⟩ :: back)).length⟩) := by
    rw [indexedTlvDataInfo_eq,
      getTlvDataInfo_eq_ok_iff.mpr ⟨_, _, readable, stops_zeroes room, rfl, rfl⟩]
  have number : (u16OfBytes (u16Bytes (.ofNat held.length))).toNat = held.length := by
    rw [u16OfBytes_u16Bytes, UInt16.toNat_ofNat', Nat.mod_eq_of_lt short]
  have used : (rawRowBytes (front ++ ⟨t, held⟩ :: back)).length =
      start + 4 + held.length + (rawRowBytes back).length := by
    simp only [rawRowBytes_append, rawRowBytes_cons, List.length_append, length_rawEntryBytes]
    omega
  have size : data.length = start + 4 + held.length + (rawRowBytes back).length + room := by
    rw [List.length_append, used, List.length_replicate]
  have beyond : held.length < length ∧ data.length <
      (rawRowBytes (front ++ ⟨t, held⟩ :: back)).length + (length - held.length) ↔
        room < length - held.length := by
    rw [size, used]
    omega
  unfold realloc
  rw [bind_of_ok (reading_of lookup), bind_of_ok (reading_of walk), bind_of_ok (m := len) rfl]
  dsimp only
  rw [shape, bind_of_ok (read_length ..), number, ← shape]
  by_cases full : room < length - held.length
  · rw [if_pos full, bind_of_error (check_neg (not_not_intro (beyond.mpr full)) _)]
  · rw [if_neg full, bind_of_ok (check_pos (beyond.not.mpr full) _), used]
    by_cases fits : length < 2 ^ 16
    · have converted : lengthTryFrom length = .ok (.ofNat length) := if_pos fits
      have moved := reallocMove_eq (rawRowBytes front ++ headerBytes t length) held
        (rawRowBytes back) room (not_lt.mp full)
      have filled : value.length = length := by
        rw [List.length_append, List.length_take, List.length_replicate]
        omega
      rw [List.length_append, length_headerBytes, List.append_assoc, List.append_assoc] at moved
      rw [if_pos fits, bind_of_ok (ofExcept_of_ok converted), shape, bind_of_ok (write_length ..),
        rawRowBytes_split, filled]
      exact moved
    · have refused : lengthTryFrom length = .error .accountDataTooSmall := if_neg fits
      rw [if_neg fits, bind_of_error (ofExcept_of_error refused)]

/-- **`realloc` where the type has no entry.** -/
theorem realloc_absent {row : List RawEntry} (room : ℕ) (readable : Readable row)
    (absent : t ∉ row.keys) (named : t ≠ .uninitialized) :
    let data := rawRowBytes row ++ List.replicate room 0
    ∃ error, realloc t length data = some (.error error, data) := by
  intro data
  obtain ⟨error, missing⟩ := getExtensionIndicesFrom_stops (rawRowBytes row) (stops_zeroes room)
    named
  have lookup : indexedExtensionIndices data t false = .of (.error error) := by
    rw [indexedExtensionIndices_eq, getExtensionIndices_tail readable absent, missing]
  refine ⟨error, ?_⟩
  unfold realloc
  rw [bind_of_error (reading_of lookup)]

end Realloc

/-! ### Slots of a canonical buffer -/

/-- A readable row stays one when a value is written that is short enough. -/
theorem Readable.put {row : List RawEntry} (readable : Readable row) {t : ExtensionType}
    (named : t ≠ .uninitialized) {value : List UInt8} (short : value.length < 2 ^ 16) :
    Readable (put t value row) := by
  induction row with
  | nil =>
    intro e member
    obtain rfl := List.mem_singleton.mp member
    exact ⟨named, short⟩
  | cons entry row ih =>
    obtain ⟨t', held⟩ := entry
    unfold KeyedList.put
    intro e member
    by_cases same : t' = t
    · rw [if_pos same] at member
      rcases List.mem_cons.mp member with rfl | later
      · exact ⟨named, short⟩
      · exact readable e (List.mem_cons_of_mem _ later)
    · rw [if_neg same] at member
      rcases List.mem_cons.mp member with rfl | later
      · exact readable _ List.mem_cons_self
      · exact ih readable.tail e later

section Slots

variable {b : TlvBuffer} {t : ExtensionType}

theorem writes_of_eq (named : t ≠ .uninitialized) {value data : List UInt8}
    (short : value.length < 2 ^ 16) {room : ℕ}
    (bytes : data = rawRowBytes (put t value b.row) ++ List.replicate room 0)
    (length : data.length = b.bytes.length) : Writes b t value data :=
  ⟨⟨put t value b.row, room, b.readable.put named short, nodup_keys_put b.distinct⟩, bytes,
    rfl, length⟩

/-- The value of an entry is a slot for values of its length. -/
theorem slot_present (named : t ≠ .uninitialized) {front back : List RawEntry} {held : List UInt8}
    (split : b.row = front ++ ⟨t, held⟩ :: back) (absent : t ∉ front.keys) {value : List UInt8}
    (short : value.length < 2 ^ 16) (room : ℕ)
    (length : value.length + room = held.length + b.room) :
    Slot b t value.length (rawRowBytes (front ++ ⟨t, value⟩ :: back) ++ List.replicate room 0)
      ((rawRowBytes front).length + 4, (rawRowBytes front).length + 4 + value.length) := by
  have inside : ∀ value' : List UInt8, value'.length = value.length →
      rawRowBytes (front ++ ⟨t, value'⟩ :: back) ++ List.replicate room 0 =
        (rawRowBytes front ++ headerBytes t value.length) ++
          (value' ++ (rawRowBytes back ++ List.replicate room 0)) := by
    intro value' same
    rw [rawRowBytes_split, same, List.append_assoc]
  refine ⟨rawRowBytes front ++ headerBytes t value.length, value,
    rawRowBytes back ++ List.replicate room 0, inside value rfl, rfl, ?_, ?_⟩
  · rw [List.length_append, length_headerBytes]
  · intro value' same
    rw [← inside value' same]
    refine writes_of_eq named (same ▸ short) (by rw [split, put_split absent]) ?_
    rw [TlvBuffer.bytes, split, rawRowBytes_split, rawRowBytes_split]
    simp only [List.length_append, length_headerBytes, List.length_replicate]
    omega

/-- Behind the last entry there is a slot. -/
theorem slot_absent (named : t ≠ .uninitialized) (absent : t ∉ b.row.keys) {length : ℕ}
    (short : length < 2 ^ 16) (fits : 4 + length ≤ b.room) :
    Slot b t length (rawRowBytes b.row ++ (headerBytes t length ++
        List.replicate (b.room - 4) 0))
      ((rawRowBytes b.row).length + 4, (rawRowBytes b.row).length + 4 + length) := by
  have zeroes : List.replicate (b.room - 4) (0 : UInt8) =
      List.replicate length 0 ++ List.replicate (b.room - 4 - length) 0 := by
    rw [← List.replicate_add]
    congr 1
    omega
  refine ⟨rawRowBytes b.row ++ headerBytes t length, List.replicate length 0,
    List.replicate (b.room - 4 - length) 0, ?_, List.length_replicate, ?_, ?_⟩
  · rw [zeroes, List.append_assoc]
  · rw [List.length_append, length_headerBytes]
  · intro value same
    have shape : (rawRowBytes b.row ++ headerBytes t length) ++
        (value ++ List.replicate (b.room - 4 - length) 0) =
          rawRowBytes (put t value b.row) ++ List.replicate (b.room - 4 - length) 0 := by
      rw [put_of_not_mem absent, rawRowBytes_append, rawRowBytes_cons, rawEntryBytes_eq, same,
        rawRowBytes_nil, List.append_nil]
      simp only [List.append_assoc]
    refine writes_of_eq named (same ▸ short) shape ?_
    simp only [TlvBuffer.bytes, List.length_append, length_headerBytes, List.length_replicate, same]
    omega

end Slots

/-! ### What the allocators do to a canonical buffer -/

section Buffer

variable (b : TlvBuffer) {t : ExtensionType} (length : ℕ) (overwrite : Bool)

/-- **The buffer takes a value of the length**: over one of the same length if that is asked for,
or behind the last entry, where there is room and the length fits its two bytes. -/
def TlvBuffer.Takes (t : ExtensionType) (length : ℕ) (overwrite : Bool) : Prop :=
  match find t b.row with
  | some held => overwrite = true ∧ held.length = length
  | none => 4 + length ≤ b.room ∧ length < 2 ^ 16

/-- **There is room for an entry, but its length does not fit its two bytes.** -/
def TlvBuffer.Tears (t : ExtensionType) (length : ℕ) : Prop :=
  t ∉ b.row.keys ∧ 4 + length ≤ b.room ∧ 2 ^ 16 ≤ length

/-- The lookup for a slot, where there is no entry of the type. -/
theorem getExtensionIndices_open (absent : t ∉ b.row.keys) :
    getExtensionIndices (rawRowBytes b.row ++ (headerBytes .uninitialized 0 ++
        List.replicate (b.room - 4) 0)) t true =
      .ok (getTlvIndices (rawRowBytes b.row).length) := by
  rw [getExtensionIndices_tail b.readable absent, getExtensionIndicesFrom]
  dsimp only
  rw [if_pos (by simp), if_neg (by simp [getTlvIndices]; omega), typeCode_append]
  have code : u16OfBytes ((headerBytes .uninitialized 0 ++
      List.replicate (b.room - 4) 0).take 2) = extensionTypeCode .uninitialized := by
    rw [headerBytes, List.append_assoc, List.take_left' (length_u16Bytes _), u16OfBytes_u16Bytes]
  rw [code]
  by_cases same : extensionTypeCode .uninitialized = extensionTypeCode t
  · rw [if_pos same]
  · rw [if_neg same, if_pos rfl, if_pos rfl]

/-- The bytes behind the entries, if there is room for a header. -/
theorem TlvBuffer.bytes_open (fits : 4 ≤ b.room) : b.bytes =
    rawRowBytes b.row ++ (headerBytes .uninitialized 0 ++ List.replicate (b.room - 4) 0) := by
  rw [TlvBuffer.bytes, ← zeroes_eq_header, Nat.sub_add_cancel fits]

variable {b length overwrite}

/-- `alloc` of a type that is there. -/
theorem alloc_present {front back : List RawEntry} {held : List UInt8}
    (split : b.row = front ++ ⟨t, held⟩ :: back) (absent : t ∉ front.keys) :
    alloc t.getAccountType t length overwrite b.bytes =
      some (allocAt t (rawRowBytes front) t held.length
        (held ++ (rawRowBytes back ++ List.replicate b.room 0)) length overwrite) := by
  have readable := b.readable
  rw [split] at readable
  have short : held.length < 2 ^ 16 := (readable ⟨t, held⟩ (by simp)).2
  have found := getExtensionIndices_found true
    (fun e there => readable e (List.mem_append_left _ there)) absent held
    (rawRowBytes back ++ List.replicate b.room 0)
  rw [rawEntryBytes_eq, List.append_assoc] at found
  rw [TlvBuffer.bytes, split, rawRowBytes_split, alloc_eq _ _ found short]

/-- `alloc` of a type that is not there, where a header has room. -/
theorem alloc_open (absent : t ∉ b.row.keys) (fits : 4 ≤ b.room) :
    alloc t.getAccountType t length overwrite b.bytes =
      some (allocAt t (rawRowBytes b.row) .uninitialized 0 (List.replicate (b.room - 4) 0) length
        overwrite) := by
  rw [b.bytes_open fits, alloc_eq _ _ (getExtensionIndices_open b absent) (by norm_num)]

/-- `alloc` of a type that is not there, where a header has no room. -/
theorem alloc_full (absent : t ∉ b.row.keys) (full : b.room < 4) :
    alloc t.getAccountType t length overwrite b.bytes =
      some (.error .invalidAccountData, b.bytes) := by
  have lookup : indexedExtensionIndices b.bytes t true = .of (.error .invalidAccountData) := by
    rw [indexedExtensionIndices_eq, TlvBuffer.bytes,
      getExtensionIndices_tail b.readable absent, getExtensionIndicesFrom]
    dsimp only
    by_cases empty : b.room = 0
    · rw [if_neg (by simp [empty])]
    · rw [if_pos (by simp; omega), if_pos (by simp [getTlvIndices]; omega)]
  unfold alloc
  rw [bind_of_ok (check_pos rfl _), bind_of_error (reading_of lookup)]

/-- **`alloc` finds a slot** in a buffer that takes the value. -/
theorem alloc_of_takes (named : t ≠ .uninitialized) (takes : b.Takes t length overwrite) :
    ∃ bounds data, alloc t.getAccountType t length overwrite b.bytes = some (.ok bounds, data) ∧
      Slot b t length data bounds := by
  unfold TlvBuffer.Takes at takes
  by_cases member : t ∈ b.row.keys
  · obtain ⟨front, held, back, split, absent⟩ := exists_split member
    rw [split, find_split absent] at takes
    obtain ⟨asked, rfl⟩ := takes
    have short : held.length < 2 ^ 16 := (b.readable ⟨t, held⟩ (by simp [split])).2
    have slot := slot_present named split absent short b.room rfl
    rw [rawRowBytes_split] at slot
    refine ⟨_, _, ?_, slot⟩
    rw [alloc_present split absent, allocAt, if_neg (by simp), if_pos (.inr asked),
      if_neg (by simp), if_pos short]
  · rw [find_eq_none_iff.mpr member] at takes
    obtain ⟨fits, short⟩ := takes
    refine ⟨_, _, ?_, slot_absent named member short fits⟩
    rw [alloc_open member (by omega), allocAt, if_neg (by simp; omega), if_pos (.inl rfl),
      if_neg (fun wrong => named wrong.2.1.symm), if_pos short]

/-- The bytes that `alloc` leaves where a length does not fit: an entry of no bytes is there. -/
def TlvBuffer.torn (b : TlvBuffer) (t : ExtensionType) : List UInt8 :=
  rawRowBytes (b.row ++ [⟨t, []⟩]) ++ List.replicate (b.room - 4) 0

/-- **`alloc` leaves a type without a length** where the buffer has room for a value that is too
long. -/
theorem alloc_of_tears (named : t ≠ .uninitialized) (tears : b.Tears t length) :
    alloc t.getAccountType t length overwrite b.bytes =
      some (.error .accountDataTooSmall, b.torn t) := by
  obtain ⟨absent, fits, long⟩ := tears
  have bytes : b.torn t = rawRowBytes b.row ++
      (headerBytes t 0 ++ List.replicate (b.room - 4) 0) := by
    simp [TlvBuffer.torn, rawEntryBytes_eq]
  rw [bytes, alloc_open absent (by omega), allocAt, if_neg (by simp; omega), if_pos (.inl rfl),
    if_neg (fun wrong => named wrong.2.1.symm), if_neg (by omega)]

/-- The walk then finds one type more. -/
theorem getTlvDataInfo_torn (named : t ≠ .uninitialized) :
    getTlvDataInfo (b.torn t) = .ok ⟨b.row.keys ++ [t], (rawRowBytes b.row).length + 4⟩ := by
  have readable : Readable (b.row ++ [⟨t, []⟩]) := by
    refine b.readable.append fun e member => ?_
    obtain rfl := List.mem_singleton.mp member
    exact ⟨named, by norm_num⟩
  refine getTlvDataInfo_eq_ok_iff.mpr ⟨_, _, readable, stops_zeroes (b.room - 4), rfl, ?_⟩
  rw [keys_append, rawRowBytes_append, List.length_append, rawRowBytes_cons, List.length_append,
    length_rawEntryBytes]
  rfl

/-- **`alloc` refuses everything else**, and leaves the bytes as they are. -/
theorem alloc_of_refused (named : t ≠ .uninitialized) {kind : AccountType}
    (refused : t.getAccountType ≠ kind ∨ ¬ b.Takes t length overwrite ∧ ¬ b.Tears t length) :
    ∃ error, alloc kind t length overwrite b.bytes = some (.error error, b.bytes) := by
  by_cases other : t.getAccountType = kind
  · obtain ⟨notTaken, notTorn⟩ := refused.resolve_left (not_not_intro other)
    unfold TlvBuffer.Takes at notTaken
    unfold TlvBuffer.Tears at notTorn
    subst other
    by_cases member : t ∈ b.row.keys
    · obtain ⟨front, held, back, split, absent⟩ := exists_split member
      rw [split, find_split absent] at notTaken
      have bytes : b.bytes = rawRowBytes front ++ (headerBytes t held.length ++
          (held ++ (rawRowBytes back ++ List.replicate b.room 0))) := by
        rw [TlvBuffer.bytes, split, rawRowBytes_split]
      rw [alloc_present split absent, allocAt, bytes]
      by_cases long : (held ++ (rawRowBytes back ++ List.replicate b.room 0)).length < length
      · exact ⟨_, by rw [if_pos long]⟩
      · by_cases asked : overwrite = true
        · refine ⟨TokenError.invalidLengthForAlloc, ?_⟩
          rw [if_neg long, if_pos (.inr asked),
            if_pos ⟨asked, rfl, fun same => notTaken ⟨asked, same⟩⟩]
        · refine ⟨TokenError.extensionAlreadyInitialized, ?_⟩
          rw [if_neg long, if_neg (fun either => either.elim named asked)]
    · rw [find_eq_none_iff.mpr member] at notTaken
      have full : b.room < 4 + length := by
        by_contra enough
        by_cases short : length < 2 ^ 16
        · exact notTaken ⟨not_lt.mp enough, short⟩
        · exact notTorn ⟨member, not_lt.mp enough, not_lt.mp short⟩
      refine ⟨.invalidAccountData, ?_⟩
      by_cases header : 4 ≤ b.room
      · rw [alloc_open member header, b.bytes_open header, allocAt, if_pos (by simp; omega)]
      · exact alloc_full member (not_le.mp header)
  · exact ⟨_, alloc_otherKind other ..⟩

/-- **The buffer can give a value the length**: there is an entry of the type, and room where the
value gets longer. -/
def TlvBuffer.Fits (b : TlvBuffer) (t : ExtensionType) (length : ℕ) : Prop :=
  ∃ held, find t b.row = some held ∧ length - held.length ≤ b.room ∧ length < 2 ^ 16

/-- **`realloc` makes a slot** of the length. -/
theorem realloc_of_fits (named : t ≠ .uninitialized) (fits : b.Fits t length) :
    ∃ bounds data, realloc t length b.bytes = some (.ok bounds, data) ∧
      Slot b t length data bounds := by
  obtain ⟨held, found, room, short⟩ := fits
  have member : t ∈ b.row.keys := find_isSome_iff.mp (Option.isSome_of_eq_some found)
  obtain ⟨front, held', back, split, absent⟩ := exists_split member
  rw [split, find_split absent] at found
  obtain rfl := Option.some.inj found
  have readable := b.readable
  rw [split] at readable
  have filled : (held'.take length ++ List.replicate (length - held'.length) 0).length = length := by
    rw [List.length_append, List.length_take, List.length_replicate]
    omega
  have slot := slot_present named split absent (lt_of_eq_of_lt filled short)
    (b.room + held'.length - length) (by rw [filled]; omega)
  rw [filled] at slot
  refine ⟨_, _, ?_, slot⟩
  rw [TlvBuffer.bytes, split, realloc_present length b.room readable absent, if_neg (not_lt.mpr room),
    if_pos short]

/-- **`realloc` refuses everything else**, and leaves the bytes as they are. -/
theorem realloc_of_refused (named : t ≠ .uninitialized) (refused : ¬ b.Fits t length) :
    ∃ error, realloc t length b.bytes = some (.error error, b.bytes) := by
  by_cases member : t ∈ b.row.keys
  · obtain ⟨front, held, back, split, absent⟩ := exists_split member
    have readable := b.readable
    rw [split] at readable
    have same := realloc_present length b.room readable absent
    by_cases full : b.room < length - held.length
    · refine ⟨.invalidAccountData, ?_⟩
      rw [TlvBuffer.bytes, split, same, if_pos full]
    · refine ⟨.accountDataTooSmall, ?_⟩
      have long : ¬ length < 2 ^ 16 := fun short =>
        refused ⟨held, by rw [split, find_split absent], not_lt.mp full, short⟩
      rw [TlvBuffer.bytes, split, same, if_neg full, if_neg long]
  · exact realloc_absent length b.room b.readable member named

end Buffer

end Token2022.Interface
