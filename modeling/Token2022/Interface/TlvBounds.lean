/-
**The readers of a row index in bounds, and agree.**

The readers again, with every index into the bytes checked as the source's slices check it: on no
bytes does a check fail. What the walk visits, the lookup finds.

* `indexedExtensionIndices`, `tryForEachTlvExtensionType`, `indexedTlvDataInfo`,
  `indexedFirstExtensionType`, `indexedExtensionBytes` — the readers with their indices checked.
* **`indexedExtensionIndices_eq`**, … — they do not panic, and are the readers.
* **`tryForEachTlvExtensionType_eq`** — the loop with a callback runs it on the types of the walk.
* **`tlv_readers_agree`** — lookup and walk agree on any bytes.
-/

import Token2022.Interface.TlvRow
import Token2022.Lib.SliceProgram

namespace Token2022.Interface

open Fallible KeyedList Panicking

/-! ### The readers, with their indices checked -/

/-- The loop of `get_extension_indices`. -/
def indexedExtensionIndicesFrom (tlvData : List UInt8) (t : ExtensionType) (init : Bool)
    (startIndex : ℕ) : Panicking ProgramError TlvIndices :=
  if startIndex < tlvData.length then
    let indices := getTlvIndices startIndex
    if tlvData.length < indices.valueStart then .of (.error .invalidAccountData)
    else do
      let extensionType := u16OfBytes (← index tlvData indices.typeStart indices.lengthStart)
      if extensionType = extensionTypeCode t then .of (.ok indices)
      else if extensionType = extensionTypeCode .uninitialized then
        if init then .of (.ok indices) else .of (.error TokenError.extensionNotFound)
      else do
        let length := u16OfBytes (← index tlvData indices.lengthStart indices.valueStart)
        indexedExtensionIndicesFrom tlvData t init (indices.valueStart + length.toNat)
  else .of (.error .invalidAccountData)
termination_by tlvData.length - startIndex
decreasing_by
  simp only [getTlvIndices]
  omega

/-- `get_extension_indices`. -/
def indexedExtensionIndices (tlvData : List UInt8) (t : ExtensionType) (init : Bool) :
    Panicking ProgramError TlvIndices := indexedExtensionIndicesFrom tlvData t init 0

section ForEach

variable {σ : Type} (f : σ → ExtensionType → ProgramResult σ)

/-- The loop of `try_for_each_tlv_extension_type`, with what `f` captures. -/
def tryForEachTlvExtensionTypeFrom (tlvData : List UInt8) (s : σ) (startIndex : ℕ) :
    Panicking ProgramError (ℕ × σ) :=
  if startIndex < tlvData.length then
    let indices := getTlvIndices startIndex
    if tlvData.length < indices.lengthStart then .of (.ok (indices.typeStart, s))
    else do
      let typeBytes ← index tlvData indices.typeStart indices.lengthStart
      let extensionType ← of <| okOr (extensionTypeOfCode (u16OfBytes typeBytes))
        ProgramError.invalidAccountData
      if extensionType = .uninitialized then .of (.ok (indices.typeStart, s))
      else if tlvData.length < indices.valueStart then .of (.error .invalidAccountData)
      else do
        let length := u16OfBytes (← index tlvData indices.lengthStart indices.valueStart)
        let valueEndIndex := indices.valueStart + length.toNat
        if tlvData.length < valueEndIndex then .of (.error .invalidAccountData)
        else do
          let s ← of (f s extensionType)
          tryForEachTlvExtensionTypeFrom tlvData s valueEndIndex
  else .of (.ok (startIndex, s))
termination_by tlvData.length - startIndex
decreasing_by
  simp only [getTlvIndices]
  omega

/-- `try_for_each_tlv_extension_type`. -/
def tryForEachTlvExtensionType (tlvData : List UInt8) (s : σ) : Panicking ProgramError (ℕ × σ) :=
  tryForEachTlvExtensionTypeFrom f tlvData s 0

end ForEach

/-- `get_tlv_data_info`. -/
def indexedTlvDataInfo (tlvData : List UInt8) : Panicking ProgramError TlvDataInfo := do
  let (usedLen, extensionTypes) ← tryForEachTlvExtensionType
    (fun extensionTypes extensionType => .ok (extensionTypes ++ [extensionType])) tlvData []
  of (.ok { extensionTypes, usedLen })

/-- `get_first_extension_type`. -/
def indexedFirstExtensionType (tlvData : List UInt8) :
    Panicking ProgramError (Option ExtensionType) :=
  if tlvData = [] then .of (.ok none)
  else
    let indices := getTlvIndices 0
    if tlvData.length ≤ indices.lengthStart then .of (.ok none)
    else do
      let typeBytes ← index tlvData indices.typeStart indices.lengthStart
      let extensionType ← of <| okOr (extensionTypeOfCode (u16OfBytes typeBytes))
        ProgramError.invalidAccountData
      if extensionType = .uninitialized then .of (.ok none)
      else .of (.ok (some extensionType))

/-- `get_extension_bytes`, of a state of the kind. -/
def indexedExtensionBytes (kind : AccountType) (t : ExtensionType) (tlvData : List UInt8) :
    Panicking ProgramError (List UInt8) :=
  if t.getAccountType ≠ kind then .of (.error .invalidAccountData)
  else do
    let indices ← indexedExtensionIndices tlvData t false
    let length := u16OfBytes (← index tlvData indices.lengthStart indices.valueStart)
    let valueEnd := indices.valueStart + length.toNat
    if tlvData.length < valueEnd then .of (.error .invalidAccountData)
    else index tlvData indices.valueStart valueEnd

/-! ### No check fails -/

section Header

variable {tlvData : List UInt8} {start : ℕ}

/-- The type at an index. -/
theorem index_type (fits : (getTlvIndices start).lengthStart ≤ tlvData.length) :
    (index tlvData (getTlvIndices start).typeStart (getTlvIndices start).lengthStart :
      Panicking ProgramError _) = .of (.ok (slice tlvData (getTlvIndices start).typeStart 2)) := by
  rw [index_eq (by simp [getTlvIndices]) fits]
  simp [slice, getTlvIndices]

/-- The length behind it. -/
theorem index_length (fits : (getTlvIndices start).valueStart ≤ tlvData.length) :
    (index tlvData (getTlvIndices start).lengthStart (getTlvIndices start).valueStart :
      Panicking ProgramError _) = .of (.ok (slice tlvData (getTlvIndices start).lengthStart 2)) := by
  rw [index_eq (by simp [getTlvIndices]) fits]
  simp [slice, getTlvIndices]

end Header

/-- **The lookup does not panic.** -/
theorem indexedExtensionIndicesFrom_eq (tlvData : List UInt8) (t : ExtensionType) (init : Bool)
    (startIndex : ℕ) : indexedExtensionIndicesFrom tlvData t init startIndex =
      .of (getExtensionIndicesFrom tlvData t init startIndex) := by
  induction left : tlvData.length - startIndex using Nat.strong_induction_on
    generalizing startIndex with
  | _ n ih =>
    rw [indexedExtensionIndicesFrom, getExtensionIndicesFrom]
    by_cases inside : startIndex < tlvData.length
    · rw [if_pos inside, if_pos inside]
      dsimp only
      by_cases short : tlvData.length < (getTlvIndices startIndex).valueStart
      · rw [if_pos short, if_pos short]
      · have fits := not_lt.mp short
        have header : (getTlvIndices startIndex).lengthStart ≤ tlvData.length := by
          simp only [getTlvIndices] at fits ⊢
          omega
        have next := ih _ (by simp only [getTlvIndices] at fits ⊢; omega)
          ((getTlvIndices startIndex).valueStart + (getTlvIndices startIndex).length tlvData) rfl
        rw [if_neg short, if_neg short, index_type header, ok_bind, index_length fits, ok_bind]
        by_cases same : (getTlvIndices startIndex).typeCode tlvData = extensionTypeCode t
        · exact (if_pos same).trans (congrArg of (if_pos same).symm)
        · rw [if_neg same]
          refine (if_neg same).trans ?_
          by_cases ends : (getTlvIndices startIndex).typeCode tlvData =
              extensionTypeCode .uninitialized
          · rw [if_pos ends]
            refine (if_pos ends).trans ?_
            cases init with
            | false => rfl
            | true => rfl
          · rw [if_neg ends]
            exact (if_neg ends).trans next
    · rw [if_neg inside, if_neg inside]

theorem indexedExtensionIndices_eq (tlvData : List UInt8) (t : ExtensionType) (init : Bool) :
    indexedExtensionIndices tlvData t init = .of (getExtensionIndices tlvData t init) :=
  indexedExtensionIndicesFrom_eq ..

section ForEach

variable {σ : Type} (f : σ → ExtensionType → ProgramResult σ)

/-- What the loop with a callback makes of the walk: where the walk succeeds, it runs the callback on
the types, and where the callback cannot fail, it fails as the walk does. -/
structure Follows (walk : ProgramResult TlvDataInfo) (s : σ) (result : ProgramResult (ℕ × σ)) :
    Prop where
  ok_iff : ∀ usedLen s', result = .ok (usedLen, s') ↔
    ∃ info, walk = .ok info ∧ info.usedLen = usedLen ∧ info.extensionTypes.foldlM f s = .ok s'
  error : ∀ e, walk = .error e → (∀ s t, ∃ s', f s t = .ok s') → result = .error e

variable {f}

/-- The walk ends. -/
theorem Follows.stop (start : ℕ) (s : σ) : Follows f (.ok ⟨[], start⟩) s (.ok (start, s)) where
  ok_iff usedLen s' := by
    constructor
    · intro ok
      obtain ⟨rfl, rfl⟩ := Prod.mk.inj (Except.ok.inj ok)
      exact ⟨_, rfl, rfl, rfl⟩
    · rintro ⟨info, same, rfl, run⟩
      obtain rfl := Except.ok.inj same
      obtain rfl := Except.ok.inj run
      rfl
  error e failed := by cases failed

/-- The walk fails. -/
theorem Follows.fail (e : ProgramError) (s : σ) : Follows f (.error e) s (.error e) where
  ok_iff usedLen s' := by
    constructor
    · intro ok
      cases ok
    · rintro ⟨info, same, -⟩
      cases same
  error e' failed _ := by rw [Except.error.inj failed]

/-- The walk passes an entry. -/
theorem Follows.entry {t : ExtensionType} {s : σ} {walk : ProgramResult TlvDataInfo}
    {rest : σ → ProgramResult (ℕ × σ)} (follows : ∀ s, Follows f walk s (rest s)) :
    Follows f (do let info ← walk; .ok ⟨t :: info.extensionTypes, info.usedLen⟩) s
      (f s t >>= rest) where
  ok_iff usedLen s' := by
    simp only [bind_eq_ok_iff, (follows _).ok_iff, Except.ok.injEq]
    constructor
    · rintro ⟨next, called, info, walked, rfl, run⟩
      refine ⟨_, ⟨info, walked, rfl⟩, rfl, ?_⟩
      rw [List.foldlM_cons, called]
      exact run
    · rintro ⟨_, ⟨info, walked, rfl⟩, rfl, run⟩
      rw [List.foldlM_cons, bind_eq_ok_iff] at run
      obtain ⟨next, called, run⟩ := run
      exact ⟨next, called, info, walked, rfl, run⟩
  error e failed total := by
    obtain ⟨next, called⟩ := total s t
    rw [called]
    refine (follows next).error e ?_ total
    cases walk with
    | error e' => exact failed
    | ok info => cases failed

/-- **The loop with a callback does not panic**, and follows the walk. -/
theorem tryForEachTlvExtensionTypeFrom_eq (tlvData : List UInt8) (s : σ) (startIndex : ℕ) :
    ∃ result, tryForEachTlvExtensionTypeFrom f tlvData s startIndex = .of result ∧
      Follows f (getTlvDataInfoFrom tlvData startIndex) s result := by
  induction left : tlvData.length - startIndex using Nat.strong_induction_on
    generalizing s startIndex with
  | _ n ih =>
    rw [tryForEachTlvExtensionTypeFrom, getTlvDataInfoFrom]
    by_cases inside : startIndex < tlvData.length
    · rw [if_pos inside, if_pos inside]
      dsimp only
      by_cases short : tlvData.length < (getTlvIndices startIndex).lengthStart
      · rw [if_pos short, if_pos short]
        exact ⟨_, rfl, .stop startIndex s⟩
      · rw [if_neg short, if_neg short, index_type (not_lt.mp short), ok_bind]
        show ∃ result, (of (okOr (extensionTypeOfCode ((getTlvIndices startIndex).typeCode
          tlvData)) _) >>= _) = _ ∧ _
        cases known : extensionTypeOfCode ((getTlvIndices startIndex).typeCode tlvData) with
        | none => exact ⟨_, rfl, .fail _ s⟩
        | some t =>
          show ∃ result, (if t = .uninitialized then _ else _) = _ ∧
            Follows f (if t = .uninitialized then _ else _) s result
          by_cases ends : t = .uninitialized
          · rw [if_pos ends, if_pos ends]
            exact ⟨_, rfl, .stop startIndex s⟩
          · rw [if_neg ends, if_neg ends]
            by_cases noLength : tlvData.length < (getTlvIndices startIndex).valueStart
            · rw [if_pos noLength, require, if_neg (not_le.mpr noLength)]
              exact ⟨_, rfl, .fail _ s⟩
            · have fits := not_lt.mp noLength
              rw [if_neg noLength, require, if_pos fits, index_length fits, ok_bind]
              set valueEnd := (getTlvIndices startIndex).valueStart +
                (getTlvIndices startIndex).length tlvData with stop
              show ∃ result, (if tlvData.length < valueEnd then _ else _) = _ ∧
                Follows f (require (valueEnd ≤ tlvData.length) _ >>= _) s result
              by_cases beyond : tlvData.length < valueEnd
              · rw [if_pos beyond, require, if_neg (not_le.mpr beyond)]
                exact ⟨_, rfl, .fail _ s⟩
              · rw [if_neg beyond, require, if_pos (not_lt.mp beyond)]
                have later : ∀ s, ∃ result, tryForEachTlvExtensionTypeFrom f tlvData s valueEnd =
                    .of result ∧ Follows f (getTlvDataInfoFrom tlvData valueEnd) s result :=
                  fun s => ih _ (by simp only [stop, getTlvIndices]; omega) s valueEnd rfl
                choose rest runs follows using later
                exact ⟨f s t >>= rest, of_bind_eq fun s' _ => runs s', .entry follows⟩
    · rw [if_neg inside, if_neg inside]
      exact ⟨_, rfl, .stop startIndex s⟩

end ForEach

/-- Pushing types collects them. -/
theorem foldlM_push (types front : List ExtensionType) :
    types.foldlM (fun (ts : List ExtensionType) t => (.ok (ts ++ [t]) : ProgramResult _)) front =
      .ok (front ++ types) := by
  induction types generalizing front with
  | nil => rw [List.append_nil]; rfl
  | cons t types ih =>
    rw [List.foldlM_cons]
    exact (ih (front ++ [t])).trans (by rw [List.append_assoc]; rfl)

/-- **The walk does not panic.** -/
theorem indexedTlvDataInfo_eq (tlvData : List UInt8) :
    indexedTlvDataInfo tlvData = .of (getTlvDataInfo tlvData) := by
  obtain ⟨result, runs, follows⟩ := tryForEachTlvExtensionTypeFrom_eq
    (f := fun ts t => .ok (ts ++ [t])) tlvData [] 0
  rw [indexedTlvDataInfo, tryForEachTlvExtensionType, runs, getTlvDataInfo]
  cases walked : getTlvDataInfoFrom tlvData 0 with
  | error e =>
    rw [follows.error e walked fun _ _ => ⟨_, rfl⟩]
    rfl
  | ok info =>
    have collected : result = .ok (info.usedLen, info.extensionTypes) :=
      (follows.ok_iff _ _).mpr ⟨info, walked, rfl, foldlM_push _ _⟩
    rw [collected]
    rfl

/-- **Looking at the first type does not panic.** -/
theorem indexedFirstExtensionType_eq (tlvData : List UInt8) :
    indexedFirstExtensionType tlvData = .of (getFirstExtensionType tlvData) := by
  unfold indexedFirstExtensionType getFirstExtensionType
  dsimp only
  by_cases empty : tlvData = []
  · rw [if_pos empty, if_pos (by rw [empty]; exact Nat.zero_le _)]
  · rw [if_neg empty]
    by_cases short : tlvData.length ≤ (getTlvIndices 0).lengthStart
    · rw [if_pos short, if_pos short]
    · rw [if_neg short, if_neg short, index_type (not_le.mp short).le, ok_bind]
      refine of_bind_eq fun t _ => ?_
      by_cases ends : t = .uninitialized
      · rw [if_pos ends, if_pos ends]
      · rw [if_neg ends, if_neg ends]

/-- The lookup ends where a length can be read. -/
theorem valueStart_le_of_getExtensionIndicesFrom {tlvData : List UInt8} {t : ExtensionType}
    {init : Bool} {startIndex : ℕ} {indices : TlvIndices}
    (ok : getExtensionIndicesFrom tlvData t init startIndex = .ok indices) :
    ∃ start, indices = getTlvIndices start ∧ indices.valueStart ≤ tlvData.length := by
  induction startIndex using getExtensionIndicesFrom.induct tlvData t init with
  | case1 startIndex inside _ short =>
    rw [getExtensionIndicesFrom, if_pos inside] at ok
    cases (if_pos short).symm.trans ok
  | case2 startIndex inside _ fits same =>
    rw [getExtensionIndicesFrom, if_pos inside] at ok
    dsimp only at ok
    rw [if_neg fits, if_pos same] at ok
    obtain rfl := Except.ok.inj ok
    exact ⟨startIndex, rfl, not_lt.mp fits⟩
  | case3 startIndex inside _ fits other ends asked =>
    rw [getExtensionIndicesFrom, if_pos inside] at ok
    dsimp only at ok
    rw [if_neg fits, if_neg other, if_pos ends, if_pos asked] at ok
    obtain rfl := Except.ok.inj ok
    exact ⟨startIndex, rfl, not_lt.mp fits⟩
  | case4 startIndex inside _ fits other ends asked =>
    rw [getExtensionIndicesFrom, if_pos inside] at ok
    dsimp only at ok
    rw [if_neg fits, if_neg other, if_pos ends, if_neg asked] at ok
    cases ok
  | case5 startIndex inside _ fits other more ih =>
    rw [getExtensionIndicesFrom, if_pos inside] at ok
    dsimp only at ok
    rw [if_neg fits, if_neg other, if_neg more] at ok
    exact ih ok
  | case6 startIndex outside =>
    rw [getExtensionIndicesFrom, if_neg outside] at ok
    cases ok

/-- **Reading a value does not panic.** -/
theorem indexedExtensionBytes_eq (kind : AccountType) (t : ExtensionType) (tlvData : List UInt8) :
    indexedExtensionBytes kind t tlvData = .of (getExtensionBytes kind t tlvData) := by
  unfold indexedExtensionBytes getExtensionBytes
  by_cases same : t.getAccountType = kind
  · rw [if_neg (not_not_intro same), require, if_pos same, indexedExtensionIndices_eq]
    refine of_bind_eq fun indices found => ?_
    obtain ⟨start, rfl, fits⟩ := valueStart_le_of_getExtensionIndicesFrom found
    rw [index_length fits, ok_bind]
    show (if tlvData.length < (getTlvIndices start).valueStart +
      (getTlvIndices start).length tlvData then _ else _) = of (require _ _ >>= _)
    by_cases beyond : tlvData.length < (getTlvIndices start).valueStart +
        (getTlvIndices start).length tlvData
    · rw [if_pos beyond, require, if_neg (not_le.mpr beyond)]
      rfl
    · rw [if_neg beyond, require, if_pos (not_lt.mp beyond)]
      refine (index_eq (Nat.le_add_right ..) (not_lt.mp beyond)).trans ?_
      rw [Nat.add_sub_cancel_left]
      rfl
  · rw [if_pos same, require, if_neg same]
    rfl

/-! ### Lookup and walk -/

/-- A value that is read lies in the buffer, where the lookup found its entry. -/
theorem exists_indices_of_getExtensionBytes {kind : AccountType} {t : ExtensionType}
    {tlvData value : List UInt8} (ok : getExtensionBytes kind t tlvData = .ok value) :
    ∃ indices, getExtensionIndices tlvData t false = .ok indices ∧
      indices.valueStart + value.length ≤ tlvData.length ∧
      slice tlvData indices.valueStart value.length = value := by
  rw [getExtensionBytes, require_bind_eq_ok_iff, bind_eq_ok_iff] at ok
  obtain ⟨-, indices, found, ok⟩ := ok
  dsimp only at ok
  rw [require_bind_eq_ok_iff] at ok
  obtain ⟨fits, ok⟩ := ok
  obtain rfl := Except.ok.inj ok
  have size := length_slice fits
  refine ⟨indices, found, ?_, ?_⟩
  · rwa [size]
  · rw [size]

/-- **The readers of a row agree, on any bytes.** None of them indexes out of bounds. Where the walk
succeeds, the bytes are a row of entries and a tail: the first type is that of the first entry, a
type of the state is found where it was visited, and what is read is the value of its first entry,
which lies in the buffer; the bytes used are those of the entries. -/
theorem tlv_readers_agree (tlvData : List UInt8) :
    (∀ t init, indexedExtensionIndices tlvData t init = .of (getExtensionIndices tlvData t init)) ∧
    (∀ kind t, indexedExtensionBytes kind t tlvData = .of (getExtensionBytes kind t tlvData)) ∧
    indexedTlvDataInfo tlvData = .of (getTlvDataInfo tlvData) ∧
    indexedFirstExtensionType tlvData = .of (getFirstExtensionType tlvData) ∧
    (∀ (σ : Type) (f : σ → ExtensionType → ProgramResult σ) (s : σ), ∃ result,
      tryForEachTlvExtensionType f tlvData s = .of result ∧
        ∀ usedLen s', result = .ok (usedLen, s') ↔ ∃ info, getTlvDataInfo tlvData = .ok info ∧
          info.usedLen = usedLen ∧ info.extensionTypes.foldlM f s = .ok s') ∧
    ∀ info, getTlvDataInfo tlvData = .ok info → ∃ row tail,
      tlvData = rawRowBytes row ++ tail ∧ Readable row ∧ Stops tail ∧
      row.keys = info.extensionTypes ∧ info.usedLen = (row.map fun e => 4 + e.2.length).sum ∧
      getFirstExtensionType tlvData = .ok info.extensionTypes.head? ∧
      ∀ kind t, kind ≠ .uninitialized → t.getAccountType = kind →
        ((∃ value, getExtensionBytes kind t tlvData = .ok value) ↔ t ∈ info.extensionTypes) ∧
        ∀ value, getExtensionBytes kind t tlvData = .ok value →
          find t row = some value ∧ ∃ indices,
            getExtensionIndices tlvData t false = .ok indices ∧
            indices.valueStart + value.length ≤ tlvData.length ∧
            slice tlvData indices.valueStart value.length = value := by
  refine ⟨indexedExtensionIndices_eq tlvData, fun kind t => indexedExtensionBytes_eq kind t tlvData,
    indexedTlvDataInfo_eq tlvData, indexedFirstExtensionType_eq tlvData, fun σ f s => ?_,
    fun info walked => ?_⟩
  · obtain ⟨result, runs, follows⟩ := tryForEachTlvExtensionTypeFrom_eq (f := f) tlvData s 0
    exact ⟨result, runs, follows.ok_iff⟩
  · obtain ⟨row, tail, readable, stops, rfl, rfl⟩ := getTlvDataInfo_eq_ok_iff.mp walked
    refine ⟨row, tail, rfl, readable, stops, rfl, length_rawRowBytes row,
      getFirstExtensionType_row readable stops, fun kind t typed same => ?_⟩
    have named : t ≠ .uninitialized := by
      rintro rfl
      exact typed same.symm
    refine ⟨?_, fun value ok => ?_⟩
    · simp only [getExtensionBytes_eq_ok_iff readable stops named, same, true_and]
      rw [← Option.isSome_iff_exists, find_isSome_iff]
    · exact ⟨((getExtensionBytes_eq_ok_iff readable stops named).mp ok).2,
        exists_indices_of_getExtensionBytes ok⟩

/-- Two entries, one of them of no bytes, and a byte that is left over. -/
theorem tlv_readers_agree_example : ∃ row tail,
    ([12, 0, 2, 0, 7, 8, 9, 0, 0, 0, 5] : List UInt8) = rawRowBytes row ++ tail ∧
      row.keys = [.permanentDelegate, .nonTransferable] ∧
      10 = (row.map fun e => 4 + e.2.length).sum ∧
      ∃ value, getExtensionBytes .mint .permanentDelegate [12, 0, 2, 0, 7, 8, 9, 0, 0, 0, 5] =
        .ok value ∧ find .permanentDelegate row = some value := by
  have walked : getTlvDataInfo [12, 0, 2, 0, 7, 8, 9, 0, 0, 0, 5] =
      .ok ⟨[.permanentDelegate, .nonTransferable], 10⟩ := by decide +kernel
  obtain ⟨row, tail, bytes, -, -, types, used, -, found⟩ :=
    (tlv_readers_agree [12, 0, 2, 0, 7, 8, 9, 0, 0, 0, 5]).2.2.2.2.2 _ walked
  obtain ⟨visited, read⟩ := found .mint .permanentDelegate (by decide) rfl
  obtain ⟨value, ok⟩ := visited.mpr List.mem_cons_self
  exact ⟨row, tail, bytes, types, used, value, ok, (read value ok).1⟩

end Token2022.Interface
