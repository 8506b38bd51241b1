/-
**Rows of entries, on any bytes.**

What the readers of a row do on bytes that nobody vouches for: where the walk succeeds, the bytes are
entries, one behind the other, and a tail at which the walk stops; the lookup finds the value of the
first entry of its type.

* `RawEntry`, `rawEntryBytes`, `rawRowBytes` — an entry with its value as bytes, and entries one
  behind the other.
* `Readable`, `Stops` — the entries that a row can hold, and the bytes at which a row ends.
* **`getTlvDataInfo_eq_ok_iff`** — the walk succeeds on the bytes of a row with such a tail, and only
  there.
* **`getExtensionIndicesFrom_row`**, **`getExtensionBytes_row`** — the lookup on such bytes.
-/

import Token2022.Interface.Tlv
import Token2022.Lib.KeyedList

namespace Token2022.Interface

open Fallible KeyedList

/-! ### Entries -/

/-- An entry: its type, and the bytes of its value. -/
abbrev RawEntry := (_ : ExtensionType) × List UInt8

/-- Two bytes of type, two of length, and the value. -/
def rawEntryBytes (e : RawEntry) : List UInt8 :=
  u16Bytes (extensionTypeCode e.1) ++ (u16Bytes (.ofNat e.2.length) ++ e.2)

/-- Entries, one behind the other. -/
def rawRowBytes (row : List RawEntry) : List UInt8 := row.flatMap rawEntryBytes

/-- The entries that a row can hold: none says that the row ends, and the length of each fits its
two bytes. -/
def Readable (row : List RawEntry) : Prop :=
  ∀ e ∈ row, e.1 ≠ .uninitialized ∧ e.2.length < 2 ^ 16

/-- The bytes at which a row ends: too few for a type, or those of no type. -/
def Stops (tail : List UInt8) : Prop :=
  tail.length < 2 ∨ tail.take 2 = u16Bytes (extensionTypeCode .uninitialized)

@[simp] theorem length_rawEntryBytes (e : RawEntry) :
    (rawEntryBytes e).length = 4 + e.2.length := by
  simp only [rawEntryBytes, List.length_append, length_u16Bytes]
  omega

@[simp] theorem rawRowBytes_nil : rawRowBytes [] = [] := rfl

@[simp] theorem rawRowBytes_cons (e : RawEntry) (row : List RawEntry) :
    rawRowBytes (e :: row) = rawEntryBytes e ++ rawRowBytes row := List.flatMap_cons

@[simp] theorem rawRowBytes_append (row row' : List RawEntry) :
    rawRowBytes (row ++ row') = rawRowBytes row ++ rawRowBytes row' := List.flatMap_append

/-- The bytes that a row takes. -/
theorem length_rawRowBytes (row : List RawEntry) :
    (rawRowBytes row).length = (row.map fun e => 4 + e.2.length).sum := by
  induction row with
  | nil => rfl
  | cons e row ih =>
    rw [rawRowBytes_cons, List.length_append, length_rawEntryBytes, ih, List.map_cons,
      List.sum_cons]

theorem Readable.tail {e : RawEntry} {row : List RawEntry} (readable : Readable (e :: row)) :
    Readable row := fun e' member => readable e' (List.mem_cons_of_mem _ member)

theorem Readable.append {row row' : List RawEntry} (readable : Readable row)
    (readable' : Readable row') : Readable (row ++ row') := fun e member =>
  (List.mem_append.mp member).elim (readable e) (readable' e)

/-! ### One entry -/

section Header

variable (before bytes : List UInt8)

/-- The type that stands at the front of bytes. -/
theorem typeCode_append : (getTlvIndices before.length).typeCode (before ++ bytes) =
    u16OfBytes (bytes.take 2) := by
  rw [TlvIndices.typeCode, getTlvIndices, slice, List.drop_left]

/-- The length that stands behind it. -/
theorem length_append : (getTlvIndices before.length).length (before ++ bytes) =
    (u16OfBytes ((bytes.drop 2).take 2)).toNat := by
  rw [TlvIndices.length, getTlvIndices, slice, ← List.drop_drop, List.drop_left]

end Header

section Entry

variable (before rest : List UInt8) (e : RawEntry)

/-- The type that is written at an entry. -/
theorem typeCode_rawEntryBytes : (getTlvIndices before.length).typeCode
    (before ++ (rawEntryBytes e ++ rest)) = extensionTypeCode e.1 := by
  rw [typeCode_append, rawEntryBytes, List.append_assoc, List.take_left' (length_u16Bytes _),
    u16OfBytes_u16Bytes]

/-- The length that is written at an entry. -/
theorem length_rawEntryBytes_eq (short : e.2.length < 2 ^ 16) :
    (getTlvIndices before.length).length (before ++ (rawEntryBytes e ++ rest)) = e.2.length := by
  rw [length_append, rawEntryBytes, List.append_assoc, List.drop_left' (length_u16Bytes _),
    List.append_assoc, List.take_left' (length_u16Bytes _), u16OfBytes_u16Bytes,
    UInt16.toNat_ofNat', Nat.mod_eq_of_lt short]

end Entry

/-- **Bytes whose header fits them start with an entry.** -/
theorem exists_entry {t : ExtensionType} {bytes : List UInt8}
    (code : u16OfBytes (bytes.take 2) = extensionTypeCode t)
    (fits : 4 + (u16OfBytes ((bytes.drop 2).take 2)).toNat ≤ bytes.length) :
    ∃ value rest, bytes = rawEntryBytes ⟨t, value⟩ ++ rest ∧ value.length < 2 ^ 16 := by
  set length := u16OfBytes ((bytes.drop 2).take 2) with known
  have value : ((bytes.drop 4).take length.toNat).length = length.toNat := by
    rw [List.length_take, List.length_drop]
    omega
  have front : u16Bytes (extensionTypeCode t) = bytes.take 2 := by
    rw [← code, u16Bytes_u16OfBytes]
    exact List.length_take_of_le (by omega)
  have size : u16Bytes (.ofNat length.toNat) = (bytes.drop 2).take 2 := by
    rw [UInt16.ofNat_toNat, known, u16Bytes_u16OfBytes]
    exact List.length_take_of_le (by rw [List.length_drop]; omega)
  have shift : bytes.drop 4 = (bytes.drop 2).drop 2 := by rw [List.drop_drop]
  refine ⟨(bytes.drop 4).take length.toNat, (bytes.drop 4).drop length.toNat, ?_, ?_⟩
  · rw [rawEntryBytes, value, front, size, List.append_assoc, List.append_assoc,
      List.take_append_drop, shift, List.take_append_drop, List.take_append_drop]
  · rw [value]
    exact length.toNat_lt

/-- The bytes around an entry. -/
theorem length_around (before rest : List UInt8) (e : RawEntry) :
    (before ++ (rawEntryBytes e ++ rest)).length =
      before.length + (4 + e.2.length) + rest.length := by
  simp only [List.length_append, length_rawEntryBytes]
  omega

/-- The value of an entry ends where the next entry starts. -/
theorem valueEnd_rawEntryBytes (before : List UInt8) (e : RawEntry) :
    (getTlvIndices before.length).valueStart + e.2.length =
      before.length + (rawEntryBytes e).length := by
  simp only [getTlvIndices, length_rawEntryBytes]
  omega

/-! ### The walk -/

/-- The walk passes an entry. -/
theorem getTlvDataInfoFrom_entry (before rest : List UInt8) {e : RawEntry}
    (named : e.1 ≠ .uninitialized) (short : e.2.length < 2 ^ 16) :
    getTlvDataInfoFrom (before ++ (rawEntryBytes e ++ rest)) before.length = (do
      let info ← getTlvDataInfoFrom (before ++ (rawEntryBytes e ++ rest))
        (before.length + (rawEntryBytes e).length)
      .ok ⟨e.1 :: info.extensionTypes, info.usedLen⟩) := by
  have known : extensionTypeOfCode (extensionTypeCode e.1) = some e.1 :=
    extensionTypeOfCode_eq_some_iff.mpr rfl
  have long := length_around before rest e
  have stop := valueEnd_rawEntryBytes before e
  conv_lhs => rw [getTlvDataInfoFrom]
  rw [if_pos (by omega)]
  dsimp only
  rw [if_neg (by simp only [getTlvIndices]; omega), typeCode_rawEntryBytes, known]
  show (if e.1 = .uninitialized then _ else _) = _
  rw [if_neg named, length_rawEntryBytes_eq before rest e short, stop, require,
    if_pos (by simp only [getTlvIndices]; omega), require,
    if_pos (by simp only [length_rawEntryBytes]; omega)]
  rfl

/-- The walk stops at a tail. -/
theorem getTlvDataInfoFrom_stops (before : List UInt8) {tail : List UInt8} (stops : Stops tail) :
    getTlvDataInfoFrom (before ++ tail) before.length = .ok ⟨[], before.length⟩ := by
  rw [getTlvDataInfoFrom]
  dsimp only
  rw [List.length_append, typeCode_append]
  by_cases empty : tail.length = 0
  · rw [if_neg (by omega)]
  · rw [if_pos (by omega)]
    by_cases short : tail.length < 2
    · rw [if_pos (by simp only [getTlvIndices]; omega)]
    · have known : extensionTypeOfCode (extensionTypeCode .uninitialized) = some .uninitialized :=
        extensionTypeOfCode_eq_some_iff.mpr rfl
      rw [if_neg (by simp only [getTlvIndices]; omega), stops.resolve_left short,
        u16OfBytes_u16Bytes, known]
      rfl

/-- **The walk finds the entries of a row**, up to its tail. -/
theorem getTlvDataInfoFrom_row (before : List UInt8) {row : List RawEntry} {tail : List UInt8}
    (readable : Readable row) (stops : Stops tail) :
    getTlvDataInfoFrom (before ++ (rawRowBytes row ++ tail)) before.length =
      .ok ⟨row.keys, before.length + (rawRowBytes row).length⟩ := by
  -- The entries that were passed become part of what stands in front.
  induction row generalizing before with
  | nil => exact getTlvDataInfoFrom_stops before stops
  | cons e row ih =>
    obtain ⟨named, short⟩ := readable e List.mem_cons_self
    have rest := ih (before ++ rawEntryBytes e) readable.tail
    rw [List.append_assoc, List.length_append] at rest
    rw [rawRowBytes_cons, List.append_assoc, getTlvDataInfoFrom_entry before _ named short, rest,
      List.length_append, ← Nat.add_assoc]
    rfl

/-- Where the walk goes on, there is an entry. -/
theorem exists_entry_of_getTlvDataInfoFrom {before bytes : List UInt8} {info : TlvDataInfo}
    (ok : getTlvDataInfoFrom (before ++ bytes) before.length = .ok info) :
    Stops bytes ∨ ∃ e rest, bytes = rawEntryBytes e ++ rest ∧ e.1 ≠ .uninitialized ∧
      e.2.length < 2 ^ 16 := by
  rw [getTlvDataInfoFrom] at ok
  dsimp only at ok
  rw [List.length_append, typeCode_append, length_append] at ok
  by_cases short : bytes.length < 2
  · exact .inl (.inl short)
  · rw [if_pos (by omega), if_neg (by simp only [getTlvIndices]; omega)] at ok
    simp only [okOr_bind_eq_ok_iff, extensionTypeOfCode_eq_some_iff] at ok
    obtain ⟨t, code, ok⟩ := ok
    by_cases ends : t = .uninitialized
    · left
      right
      rw [← ends, ← code, u16Bytes_u16OfBytes (List.length_take_of_le (by omega))]
    · rw [if_neg ends, require_bind_eq_ok_iff, require_bind_eq_ok_iff] at ok
      obtain ⟨-, fits, -⟩ := ok
      simp only [getTlvIndices] at fits
      obtain ⟨value, rest, same, small⟩ := exists_entry code (by omega)
      exact .inr ⟨⟨t, value⟩, rest, same, ends, small⟩

/-- **Where the walk succeeds, there is a row.** -/
theorem exists_row_of_getTlvDataInfoFrom {before bytes : List UInt8} {info : TlvDataInfo}
    (ok : getTlvDataInfoFrom (before ++ bytes) before.length = .ok info) :
    ∃ row tail, Readable row ∧ Stops tail ∧ bytes = rawRowBytes row ++ tail := by
  -- Each entry leaves fewer bytes.
  induction size : bytes.length using Nat.strong_induction_on generalizing before bytes info with
  | _ n ih =>
    rcases exists_entry_of_getTlvDataInfoFrom ok with stops | ⟨e, rest, rfl, named, short⟩
    · exact ⟨[], bytes, fun _ none => absurd none List.not_mem_nil, stops, rfl⟩
    · rw [getTlvDataInfoFrom_entry before rest named short, bind_eq_ok_iff] at ok
      obtain ⟨info', ok', -⟩ := ok
      rw [← List.length_append, ← List.append_assoc] at ok'
      rw [List.length_append, length_rawEntryBytes] at size
      obtain ⟨row, tail, readable, stops, rfl⟩ := ih rest.length (by omega) ok' rfl
      refine ⟨e :: row, tail, ?_, stops, by rw [rawRowBytes_cons, List.append_assoc]⟩
      intro e' member
      rcases List.mem_cons.mp member with rfl | member
      · exact ⟨named, short⟩
      · exact readable e' member

/-- **The walk succeeds on rows, and only there.** -/
theorem getTlvDataInfo_eq_ok_iff {tlvData : List UInt8} {info : TlvDataInfo} :
    getTlvDataInfo tlvData = .ok info ↔ ∃ row tail, Readable row ∧ Stops tail ∧
      tlvData = rawRowBytes row ++ tail ∧ info = ⟨row.keys, (rawRowBytes row).length⟩ := by
  have found : ∀ {row tail}, Readable row → Stops tail →
      getTlvDataInfo (rawRowBytes row ++ tail) = .ok ⟨row.keys, (rawRowBytes row).length⟩ := by
    intro row tail readable stops
    have walk := getTlvDataInfoFrom_row [] readable stops
    rwa [List.nil_append, List.length_nil, Nat.zero_add] at walk
  constructor
  · intro ok
    have walk : getTlvDataInfoFrom ([] ++ tlvData) ([] : List UInt8).length = .ok info := ok
    obtain ⟨row, tail, readable, stops, rfl⟩ := exists_row_of_getTlvDataInfoFrom walk
    rw [found readable stops] at ok
    exact ⟨row, tail, readable, stops, rfl, (Except.ok.inj ok).symm⟩
  · rintro ⟨row, tail, readable, stops, rfl, rfl⟩
    exact found readable stops

/-- Zeroes are the end of a row. -/
theorem stops_zeroes (room : ℕ) : Stops (List.replicate room 0) := by
  match room with
  | 0 => exact .inl (by simp)
  | 1 => exact .inl (by simp)
  | room + 2 => exact .inr rfl

/-! ### The lookup -/

theorem extensionTypeCode_inj {t t' : ExtensionType} :
    extensionTypeCode t = extensionTypeCode t' ↔ t = t' := by
  constructor
  · intro same
    have known : extensionTypeOfCode (extensionTypeCode t') = some t :=
      extensionTypeOfCode_eq_some_iff.mpr same.symm
    rw [extensionTypeOfCode_eq_some_iff.mpr rfl] at known
    exact (Option.some.inj known).symm
  · rintro rfl
    rfl

section Lookup

variable {t : ExtensionType} {init : Bool}

/-- The lookup ends at an entry of its type. -/
theorem getExtensionIndicesFrom_here (before rest value : List UInt8) :
    getExtensionIndicesFrom (before ++ (rawEntryBytes ⟨t, value⟩ ++ rest)) t init before.length =
      .ok (getTlvIndices before.length) := by
  have long := length_around before rest ⟨t, value⟩
  rw [getExtensionIndicesFrom]
  dsimp only
  rw [if_pos (by omega), if_neg (by simp only [getTlvIndices]; omega),
    if_pos (typeCode_rawEntryBytes ..)]

/-- The lookup passes an entry of another type. -/
theorem getExtensionIndicesFrom_entry (before rest : List UInt8) {e : RawEntry}
    (named : e.1 ≠ .uninitialized) (short : e.2.length < 2 ^ 16) (other : e.1 ≠ t) :
    getExtensionIndicesFrom (before ++ (rawEntryBytes e ++ rest)) t init before.length =
      getExtensionIndicesFrom (before ++ (rawEntryBytes e ++ rest)) t init
        (before.length + (rawEntryBytes e).length) := by
  have long := length_around before rest e
  have stop := valueEnd_rawEntryBytes before e
  conv_lhs => rw [getExtensionIndicesFrom]
  dsimp only
  rw [if_pos (by omega), if_neg (by simp only [getTlvIndices]; omega), typeCode_rawEntryBytes,
    if_neg (fun same => other (extensionTypeCode_inj.mp same)),
    if_neg (fun same => named (extensionTypeCode_inj.mp same)),
    length_rawEntryBytes_eq before rest e short, stop]

/-- **The lookup passes the entries of other types.** -/
theorem getExtensionIndicesFrom_row (init : Bool) (before rest : List UInt8) {row : List RawEntry}
    (readable : Readable row) (absent : t ∉ row.keys) :
    getExtensionIndicesFrom (before ++ (rawRowBytes row ++ rest)) t init before.length =
      getExtensionIndicesFrom (before ++ (rawRowBytes row ++ rest)) t init
        (before.length + (rawRowBytes row).length) := by
  induction row generalizing before with
  | nil => rfl
  | cons e row ih =>
    obtain ⟨named, short⟩ := readable e List.mem_cons_self
    simp only [List.keys_cons, List.mem_cons, not_or] at absent
    have later := ih (before ++ rawEntryBytes e) readable.tail absent.2
    rw [List.append_assoc, List.length_append] at later
    rw [rawRowBytes_cons, List.append_assoc,
      getExtensionIndicesFrom_entry before _ named short (Ne.symm absent.1), later,
      List.length_append, ← Nat.add_assoc]

/-- **The lookup finds the first entry of its type.** -/
theorem getExtensionIndices_found (init : Bool) {front : List RawEntry}
    (readable : Readable front) (absent : t ∉ front.keys) (value rest : List UInt8) :
    getExtensionIndices (rawRowBytes front ++ (rawEntryBytes ⟨t, value⟩ ++ rest)) t init =
      .ok (getTlvIndices (rawRowBytes front).length) := by
  have passed := getExtensionIndicesFrom_row init []
    (rawEntryBytes ⟨t, value⟩ ++ rest) readable absent
  rw [List.nil_append, List.length_nil, Nat.zero_add] at passed
  rw [getExtensionIndices, passed, getExtensionIndicesFrom_here]

/-- Where there is no entry of its type, the lookup comes to the tail. -/
theorem getExtensionIndices_tail {row : List RawEntry} (readable : Readable row)
    (absent : t ∉ row.keys) (tail : List UInt8) :
    getExtensionIndices (rawRowBytes row ++ tail) t init =
      getExtensionIndicesFrom (rawRowBytes row ++ tail) t init (rawRowBytes row).length := by
  have passed := getExtensionIndicesFrom_row init [] tail readable absent
  rwa [List.nil_append, List.length_nil, Nat.zero_add] at passed

/-- At the tail, a type that can be read is not found. -/
theorem getExtensionIndicesFrom_stops (before : List UInt8) {tail : List UInt8}
    (stops : Stops tail) (named : t ≠ .uninitialized) :
    ∃ error, getExtensionIndicesFrom (before ++ tail) t false before.length = .error error := by
  rw [getExtensionIndicesFrom]
  dsimp only
  rw [List.length_append, typeCode_append]
  by_cases empty : tail.length = 0
  · exact ⟨_, if_neg (by omega)⟩
  · rw [if_pos (by omega)]
    by_cases short : tail.length < 4
    · exact ⟨_, if_pos (by simp only [getTlvIndices]; omega)⟩
    · rw [if_neg (by simp only [getTlvIndices]; omega), stops.resolve_left (by omega),
        u16OfBytes_u16Bytes, if_neg (fun same => named (extensionTypeCode_inj.mp same).symm),
        if_pos rfl]
      exact ⟨_, rfl⟩

end Lookup

/-- **What is read is the value of the first entry of the type.** -/
theorem getExtensionBytes_eq_ok_iff {kind : AccountType} {t : ExtensionType} {row : List RawEntry}
    {tail value : List UInt8} (readable : Readable row) (stops : Stops tail)
    (named : t ≠ .uninitialized) :
    getExtensionBytes kind t (rawRowBytes row ++ tail) = .ok value ↔
      t.getAccountType = kind ∧ find t row = some value := by
  rw [getExtensionBytes, require_bind_eq_ok_iff]
  refine and_congr_right fun _ => ?_
  by_cases member : t ∈ row.keys
  · obtain ⟨front, held, back, rfl, absent⟩ := exists_split member
    have shape : rawRowBytes (front ++ ⟨t, held⟩ :: back) ++ tail =
        rawRowBytes front ++ (rawEntryBytes ⟨t, held⟩ ++ (rawRowBytes back ++ tail)) := by
      simp only [rawRowBytes_append, rawRowBytes_cons, List.append_assoc]
    have short : held.length < 2 ^ 16 := (readable ⟨t, held⟩ (by simp)).2
    have long : (rawRowBytes front ++ (rawEntryBytes ⟨t, held⟩ ++ (rawRowBytes back ++ tail))).length
        = (rawRowBytes front).length + (4 + held.length) + (rawRowBytes back ++ tail).length := by
      simp only [List.length_append, length_rawEntryBytes]
      omega
    have place : slice (rawRowBytes front ++ (rawEntryBytes ⟨t, held⟩ ++ (rawRowBytes back ++ tail)))
        (getTlvIndices (rawRowBytes front).length).valueStart held.length = held := by
      rw [rawEntryBytes, List.append_assoc, ← List.append_assoc (rawRowBytes front),
        List.append_assoc (u16Bytes _), ← List.append_assoc (_ ++ _) (u16Bytes _)]
      exact slice_middle _ held _ (by simp [getTlvIndices]) rfl
    rw [shape, getExtensionIndices_found false
      (fun e there => readable e (List.mem_append_left _ there)) absent, find_split absent]
    show (require _ _ >>= _) = _ ↔ _
    rw [length_rawEntryBytes_eq _ _ ⟨t, held⟩ short, require_bind_eq_ok_iff, place,
      Except.ok.injEq, Option.some.injEq]
    refine and_iff_right ?_
    simp only [getTlvIndices]
    omega
  · obtain ⟨error, missing⟩ := getExtensionIndicesFrom_stops (rawRowBytes row) stops named
    rw [getExtensionIndices_tail readable member, missing, find_eq_none_iff.mpr member]
    constructor
    · intro ok
      cases ok
    · intro ok
      cases ok

/-- The first type is that of the first entry. -/
theorem getFirstExtensionType_row {row : List RawEntry} {tail : List UInt8}
    (readable : Readable row) (stops : Stops tail) :
    getFirstExtensionType (rawRowBytes row ++ tail) = .ok row.keys.head? := by
  have code := typeCode_append [] (rawRowBytes row ++ tail)
  rw [List.nil_append, List.length_nil] at code
  unfold getFirstExtensionType
  dsimp only
  rw [code]
  cases row with
  | nil =>
    rw [rawRowBytes_nil, List.nil_append]
    by_cases short : tail.length ≤ (getTlvIndices 0).lengthStart
    · rw [if_pos short]
      rfl
    · simp only [getTlvIndices, not_le] at short
      have known : extensionTypeOfCode (extensionTypeCode .uninitialized) = some .uninitialized :=
        extensionTypeOfCode_eq_some_iff.mpr rfl
      rw [if_neg (by simp only [getTlvIndices]; omega), stops.resolve_left (by omega),
        u16OfBytes_u16Bytes, known]
      rfl
  | cons e row =>
    obtain ⟨named, -⟩ := readable e List.mem_cons_self
    have known : extensionTypeOfCode (extensionTypeCode e.1) = some e.1 :=
      extensionTypeOfCode_eq_some_iff.mpr rfl
    rw [if_neg (by simp [getTlvIndices]; omega), rawRowBytes_cons, rawEntryBytes, List.append_assoc,
      List.append_assoc, List.take_left' (length_u16Bytes _), u16OfBytes_u16Bytes, known]
    show Except.ok (if e.1 = .uninitialized then _ else _) = _
    rw [if_neg named]
    rfl

end Token2022.Interface
