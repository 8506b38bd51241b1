/-
**What a write to a row of entries changes.**

A write that succeeds changes the value of its own type and nothing else; one that fails changes
nothing, but for one case: `alloc` writes a type before it finds that the length does not fit.

* `LocalWrite` — a canonical buffer in which one value was written.
* `Atomic` — a failure leaves the bytes as they were.
* **`tlv_writes_local`** — every write that succeeds is local.
* **`tlv_failed_writes_atomic_iff`** — when every write that fails is atomic.
* `unwritable_length_torn` — an allocation that is not.
-/

import Token2022.Interface.TlvWrite

namespace Token2022.Interface

open Fallible KeyedList SliceProgram

/-! ### Local writes -/

/-- **A write of the value of a type, and of nothing else**, into a canonical buffer. -/
structure LocalWrite (b : TlvBuffer) (t : ExtensionType) (value data : List UInt8) : Prop where
  length : data.length = b.bytes.length
  /-- The buffer is canonical again. Its entries keep their order, a new one comes last, and all but
  the one that was written keep their bytes. -/
  canonical : ∃ b' : TlvBuffer, data = b'.bytes ∧
    b'.row.keys = (if t ∈ b.row.keys then b.row.keys else b.row.keys ++ [t]) ∧
    ∀ t' ≠ t, find t' b'.row = find t' b.row
  read : getExtensionBytes t.getAccountType t data = .ok value
  others : ∀ t' ≠ t, t' ≠ .uninitialized → ∀ value',
    getExtensionBytes t'.getAccountType t' data = .ok value' ↔
      getExtensionBytes t'.getAccountType t' b.bytes = .ok value'
  /-- Behind the entries that the walk finds there are zeroes. -/
  walk : ∃ usedLen, getTlvDataInfo data =
      .ok ⟨if t ∈ b.row.keys then b.row.keys else b.row.keys ++ [t], usedLen⟩ ∧
    ∀ byte ∈ data.drop usedLen, byte = 0

section Buffer

variable {b : TlvBuffer} {t : ExtensionType}

/-- What is read from a canonical buffer. -/
theorem TlvBuffer.getExtensionBytes_eq_ok_iff (b : TlvBuffer) (named : t ≠ .uninitialized)
    {value : List UInt8} :
    getExtensionBytes t.getAccountType t b.bytes = .ok value ↔ find t b.row = some value := by
  rw [TlvBuffer.bytes, Interface.getExtensionBytes_eq_ok_iff b.readable (stops_zeroes b.room) named]
  exact and_iff_right rfl

/-- What the walk finds in a canonical buffer. -/
theorem TlvBuffer.getTlvDataInfo_eq (b : TlvBuffer) :
    getTlvDataInfo b.bytes = .ok ⟨b.row.keys, (rawRowBytes b.row).length⟩ :=
  getTlvDataInfo_eq_ok_iff.mpr ⟨_, _, b.readable, stops_zeroes b.room, rfl, rfl⟩

/-- **The same buffer but for the value of a type** was written locally. -/
theorem Writes.localWrite (named : t ≠ .uninitialized) {value data : List UInt8}
    (writes : Writes b t value data) : LocalWrite b t value data := by
  obtain ⟨b', rfl, row, length⟩ := writes
  have keys : b'.row.keys = if t ∈ b.row.keys then b.row.keys else b.row.keys ++ [t] := by
    rw [row]
    by_cases member : t ∈ b.row.keys
    · rw [if_pos member, keys_put_of_mem _ member]
    · rw [if_neg member, keys_put_of_not_mem _ member]
  have found : ∀ t' ≠ t, find t' b'.row = find t' b.row := by
    intro t' other
    rw [row, find_put_of_ne other]
  refine ⟨length, ⟨b', rfl, keys, found⟩, ?_, fun t' other named' value' => ?_, ?_⟩
  · rw [b'.getExtensionBytes_eq_ok_iff named, row, find_put_self]
  · rw [b'.getExtensionBytes_eq_ok_iff named', b.getExtensionBytes_eq_ok_iff named',
      found t' other]
  · refine ⟨(rawRowBytes b'.row).length, by rw [b'.getTlvDataInfo_eq, keys], ?_⟩
    rw [TlvBuffer.bytes, List.drop_left]
    exact fun byte member => List.eq_of_mem_replicate member

/-- **A slot takes its value.** -/
theorem Slot.within {length : ℕ} {data : List UInt8} {bounds : ℕ × ℕ}
    (slot : Slot b t length data bounds) {α : Type}
    (compute : List UInt8 → ProgramResult α × List UInt8) {a : α} {value : List UInt8}
    (same : value.length = length)
    (computed : ∀ old : List UInt8, old.length = length → compute old = (.ok a, value)) :
    ∃ data', within bounds compute data = some (.ok a, data') ∧ Writes b t value data' := by
  obtain ⟨front, old, back, rfl, size, rfl, writes⟩ := slot
  refine ⟨front ++ (value ++ back), ?_, writes value same⟩
  rw [within_append front back old compute rfl (by rw [size]), computed old size]

/-! ### What a success says -/

variable {kind : AccountType} {length : ℕ} {overwrite : Bool} {bounds : ℕ × ℕ} {data : List UInt8}

/-- **An allocation that succeeds finds a slot.** -/
theorem alloc_slot (named : t ≠ .uninitialized)
    (ok : alloc kind t length overwrite b.bytes = some (.ok bounds, data)) :
    Slot b t length data bounds := by
  by_cases typed : t.getAccountType = kind
  · subst typed
    by_cases takes : b.Takes t length overwrite
    · obtain ⟨bounds', data', same, slot⟩ := alloc_of_takes named takes
      rw [same] at ok
      cases ok
      exact slot
    · by_cases tears : b.Tears t length
      · rw [alloc_of_tears named tears] at ok
        cases ok
      · obtain ⟨error, failed⟩ := alloc_of_refused named (.inr ⟨takes, tears⟩)
        rw [failed] at ok
        cases ok
  · rw [alloc_otherKind typed] at ok
    cases ok

/-- **A reallocation that succeeds makes a slot.** -/
theorem realloc_slot (named : t ≠ .uninitialized)
    (ok : realloc t length b.bytes = some (.ok bounds, data)) : Slot b t length data bounds := by
  by_cases fits : b.Fits t length
  · obtain ⟨bounds', data', same, slot⟩ := realloc_of_fits named fits
    rw [same] at ok
    cases ok
    exact slot
  · obtain ⟨error, failed⟩ := realloc_of_refused named fits
    rw [failed] at ok
    cases ok

/-- An initialization that succeeds is local. -/
theorem initExtension_writes (named : t ≠ .uninitialized) {default : List UInt8}
    (ok : initExtension kind t default overwrite b.bytes = some (.ok bounds, data)) :
    Writes b t default data := by
  obtain ⟨buffer, allocated, first, ok⟩ := exists_of_bind_ok ok
  obtain ⟨data', written, writes⟩ := (alloc_slot named first).within
    (fun _ => (.ok (), default)) rfl fun _ _ => rfl
  rw [bind_of_ok written] at ok
  cases ok
  exact writes

/-- The end of a write of a value of variable length. -/
theorem within_writes {value : VariableLen} {bytes : List UInt8} (serialises : value.Serialises bytes)
    {slotted : List UInt8} (slot : Slot b t bytes.length slotted bounds)
    (ok : within bounds value.packIntoSlice slotted = some (.ok (), data)) :
    Writes b t bytes data := by
  obtain ⟨data', written, writes⟩ := slot.within _ rfl serialises.packIntoSlice
  rw [written] at ok
  cases ok
  exact writes

theorem initVariableLenExtension_writes (named : t ≠ .uninitialized) {value : VariableLen}
    {bytes : List UInt8} (serialises : value.Serialises bytes)
    (ok : initVariableLenExtension kind t value overwrite b.bytes = some (.ok (), data)) :
    Writes b t bytes data := by
  rw [initVariableLenExtension_eq serialises.getPackedLen] at ok
  obtain ⟨buffer, allocated, first, ok⟩ := exists_of_bind_ok ok
  exact within_writes serialises (alloc_slot named first) ok

theorem reallocVariableLenExtension_writes (named : t ≠ .uninitialized) {value : VariableLen}
    {bytes : List UInt8} (serialises : value.Serialises bytes)
    (ok : reallocVariableLenExtension t value b.bytes = some (.ok (), data)) :
    Writes b t bytes data := by
  rw [reallocVariableLenExtension_eq serialises.getPackedLen] at ok
  obtain ⟨buffer, allocated, first, ok⟩ := exists_of_bind_ok ok
  exact within_writes serialises (realloc_slot named first) ok

end Buffer

/-- **Every write that succeeds is local**: allocations and reallocations once the value is written
into the part that they give, and the writers that write it themselves. -/
theorem tlv_writes_local (b : TlvBuffer) {t : ExtensionType} (named : t ≠ .uninitialized) :
    (∀ kind length overwrite bounds data,
      alloc kind t length overwrite b.bytes = some (.ok bounds, data) →
      ∀ value : List UInt8, value.length = length → ∃ data',
        within bounds (fun _ => ((.ok () : ProgramResult Unit), value)) data =
          some (.ok (), data') ∧ LocalWrite b t value data') ∧
    (∀ kind default overwrite bounds data,
      initExtension kind t default overwrite b.bytes = some (.ok bounds, data) →
      LocalWrite b t default data) ∧
    (∀ kind (value : VariableLen) bytes overwrite data, value.Serialises bytes →
      initVariableLenExtension kind t value overwrite b.bytes = some (.ok (), data) →
      LocalWrite b t bytes data) ∧
    (∀ length bounds data, realloc t length b.bytes = some (.ok bounds, data) →
      ∀ value : List UInt8, value.length = length → ∃ data',
        within bounds (fun _ => ((.ok () : ProgramResult Unit), value)) data =
          some (.ok (), data') ∧ LocalWrite b t value data') ∧
    ∀ (value : VariableLen) bytes data, value.Serialises bytes →
      reallocVariableLenExtension t value b.bytes = some (.ok (), data) →
      LocalWrite b t bytes data := by
  refine ⟨fun kind length overwrite bounds data ok value same => ?_,
    fun kind default overwrite bounds data ok => ?_,
    fun kind value bytes overwrite data serialises ok => ?_,
    fun length bounds data ok value same => ?_, fun value bytes data serialises ok => ?_⟩
  · obtain ⟨data', written, writes⟩ := (alloc_slot named ok).within
      (fun _ => (.ok (), value)) same fun _ _ => rfl
    exact ⟨data', written, writes.localWrite named⟩
  · exact (initExtension_writes named ok).localWrite named
  · exact (initVariableLenExtension_writes named serialises ok).localWrite named
  · obtain ⟨data', written, writes⟩ := (realloc_slot named ok).within
      (fun _ => (.ok (), value)) same fun _ _ => rfl
    exact ⟨data', written, writes.localWrite named⟩
  · exact (reallocVariableLenExtension_writes named serialises ok).localWrite named

/-- A value of one byte for one of two, in front of an entry. -/
theorem tlv_writes_local_shrink : ∃ data',
    within (4, 5) (fun _ => ((.ok () : ProgramResult Unit), ([5] : List UInt8)))
        [19, 0, 1, 0, 7, 9, 0, 0, 0, 0] = some (.ok (), data') ∧
      data' = [19, 0, 1, 0, 5, 9, 0, 0, 0, 0] ∧
      getExtensionBytes .mint .nonTransferable data' = .ok [] := by
  let b : TlvBuffer := {
    row := [⟨.tokenMetadata, [7, 8]⟩, ⟨.nonTransferable, []⟩]
    room := 0
    readable := by simp [Readable]
    distinct := by decide }
  have bytes : b.bytes = [19, 0, 2, 0, 7, 8, 9, 0, 0, 0] := by decide
  have ran : realloc .tokenMetadata 1 b.bytes =
      some (.ok (4, 5), [19, 0, 1, 0, 7, 9, 0, 0, 0, 0]) := by
    rw [bytes]
    decide +kernel
  obtain ⟨data', written, local'⟩ := (tlv_writes_local b (t := .tokenMetadata)
    (by decide)).2.2.2.1 1 (4, 5) _ ran [5] rfl
  have held : getExtensionBytes .mint .nonTransferable b.bytes = .ok [] := by
    rw [bytes]
    decide +kernel
  refine ⟨data', written, ?_, (local'.others .nonTransferable (by decide) (by decide) []).mpr held⟩
  have computed : within (4, 5) (fun _ => ((.ok () : ProgramResult Unit), ([5] : List UInt8)))
      [19, 0, 1, 0, 7, 9, 0, 0, 0, 0] = some (.ok (), [19, 0, 1, 0, 5, 9, 0, 0, 0, 0]) := rfl
  exact (Prod.mk.inj (Option.some.inj (written.symm.trans computed))).2

/-! ### Failures -/

/-- **A failure leaves the bytes as they were.** -/
def Atomic {α : Type} (program : TlvProgram α) (b : TlvBuffer) : Prop :=
  ∀ error data, program b.bytes = some (.error error, data) → data = b.bytes

section Failures

variable {b : TlvBuffer} {t : ExtensionType} {kind : AccountType} {length : ℕ} {overwrite : Bool}

/-- A tear changes the bytes. -/
theorem TlvBuffer.torn_ne (b : TlvBuffer) (named : t ≠ .uninitialized) : b.torn t ≠ b.bytes := by
  intro same
  have walked := getTlvDataInfo_torn (b := b) named
  rw [same, b.getTlvDataInfo_eq] at walked
  have sizes := congrArg TlvDataInfo.usedLen (Except.ok.inj walked)
  simp at sizes

/-- **How an allocation fails**: without a change, unless it tears the buffer. -/
theorem alloc_fails (named : t ≠ .uninitialized) {error : ProgramError} {data : List UInt8}
    (failed : alloc kind t length overwrite b.bytes = some (.error error, data))
    (whole : ¬ (t.getAccountType = kind ∧ b.Tears t length)) : data = b.bytes := by
  by_cases refused : t.getAccountType ≠ kind ∨
      ¬ b.Takes t length overwrite ∧ ¬ b.Tears t length
  · obtain ⟨error', same⟩ : ∃ error, alloc kind t length overwrite b.bytes =
        some (.error error, b.bytes) := alloc_of_refused named refused
    rw [same] at failed
    cases failed
    rfl
  · simp only [not_or, not_and, not_not] at refused
    obtain ⟨rfl, either⟩ := refused
    have takes : b.Takes t length overwrite := by
      by_contra notTaken
      exact whole ⟨rfl, either notTaken⟩
    obtain ⟨bounds, data', same, -⟩ := alloc_of_takes named takes
    rw [same] at failed
    cases failed

/-- **An allocation is atomic**, unless it tears the buffer. -/
theorem alloc_atomic_iff (named : t ≠ .uninitialized) :
    Atomic (alloc kind t length overwrite) b ↔ ¬ (t.getAccountType = kind ∧ b.Tears t length) := by
  constructor
  · rintro atomic ⟨rfl, tears⟩
    exact b.torn_ne named (atomic _ _ (alloc_of_tears named tears))
  · intro whole error data failed
    exact alloc_fails named failed whole

/-- A write behind an allocation is as atomic as the allocation, if it does not fail itself. -/
theorem atomic_bind_alloc_iff (named : t ≠ .uninitialized) {α : Type}
    {rest : ℕ × ℕ → TlvProgram α}
    (total : ∀ bounds data, Slot b t length data bounds →
      ∃ a data', rest bounds data = some (.ok a, data')) :
    Atomic (alloc kind t length overwrite >>= rest) b ↔
      ¬ (t.getAccountType = kind ∧ b.Tears t length) := by
  have atomic_iff : Atomic (alloc kind t length overwrite) b ↔ _ := alloc_atomic_iff named
  rw [← atomic_iff]
  constructor
  · intro atomic error data failed
    exact atomic error data (bind_of_error failed)
  · intro atomic error data failed
    rcases exists_of_bind_error failed with first | ⟨bounds, data', first, later⟩
    · exact atomic error data first
    · obtain ⟨a, data'', ok⟩ := total bounds data' (alloc_slot named first)
      rw [ok] at later
      cases later

/-- **A reallocation is atomic.** -/
theorem realloc_atomic (named : t ≠ .uninitialized) : Atomic (realloc t length) b := by
  intro error data failed
  by_cases fits : b.Fits t length
  · obtain ⟨bounds, data', same, -⟩ := realloc_of_fits named fits
    rw [same] at failed
    cases failed
  · obtain ⟨error', same⟩ := realloc_of_refused named fits
    rw [same] at failed
    cases failed
    rfl

end Failures

/-- **When a write that fails leaves the buffer as it was**: always, but for an allocation of a type
that is not there, of the right kind, for which there is room, of a length that does not fit its two
bytes. -/
theorem tlv_failed_writes_atomic_iff (b : TlvBuffer) {t : ExtensionType}
    (named : t ≠ .uninitialized) :
    (∀ kind length overwrite, Atomic (alloc kind t length overwrite) b ↔
      ¬ (t.getAccountType = kind ∧ b.Tears t length)) ∧
    (∀ kind default overwrite, Atomic (initExtension kind t default overwrite) b ↔
      ¬ (t.getAccountType = kind ∧ b.Tears t default.length)) ∧
    (∀ kind (value : VariableLen) bytes overwrite, value.Serialises bytes →
      (Atomic (initVariableLenExtension kind t value overwrite) b ↔
        ¬ (t.getAccountType = kind ∧ b.Tears t bytes.length))) ∧
    (∀ length, Atomic (realloc t length) b) ∧
    ∀ (value : VariableLen) bytes, value.Serialises bytes →
      Atomic (reallocVariableLenExtension t value) b := by
  refine ⟨fun kind length overwrite => alloc_atomic_iff named,
    fun kind default overwrite => atomic_bind_alloc_iff named fun bounds data slot => ?_,
    fun kind value bytes overwrite serialises => ?_, fun length => realloc_atomic named,
    fun value bytes serialises error data failed => ?_⟩
  · obtain ⟨data', written, -⟩ := slot.within
      (fun _ => ((.ok () : ProgramResult Unit), default)) rfl fun _ _ => rfl
    exact ⟨bounds, data', bind_of_ok written⟩
  · rw [initVariableLenExtension_eq serialises.getPackedLen]
    exact atomic_bind_alloc_iff named fun bounds data slot => by
      obtain ⟨data', written, -⟩ := slot.within _ rfl serialises.packIntoSlice
      exact ⟨(), data', written⟩
  · rw [reallocVariableLenExtension_eq serialises.getPackedLen] at failed
    rcases exists_of_bind_error failed with first | ⟨bounds, data', first, later⟩
    · exact realloc_atomic named error data first
    · obtain ⟨data'', written, -⟩ := (realloc_slot named first).within _ rfl
        serialises.packIntoSlice
      rw [written] at later
      cases later

/-- A buffer without entries. -/
def TlvBuffer.zeroes (room : ℕ) : TlvBuffer where
  row := []
  room := room
  readable := by simp [Readable]
  distinct := List.nodup_nil

theorem TlvBuffer.bytes_zeroes (room : ℕ) : (TlvBuffer.zeroes room).bytes = List.replicate room 0 :=
  rfl

theorem tears_zeroes : (TlvBuffer.zeroes (2 ^ 16 + 4)).Tears .tokenMetadata (2 ^ 16) :=
  ⟨List.not_mem_nil, by simp [TlvBuffer.zeroes], le_rfl⟩

/-- Three bytes that do not fit leave six zeroes as they are; `2 ^ 16` bytes that fit do not. -/
theorem tlv_failed_writes_atomic_iff_empty :
    Atomic (alloc .mint .tokenMetadata 3 false) (.zeroes 6) ∧
      ¬ Atomic (alloc .mint .tokenMetadata (2 ^ 16) false) (.zeroes (2 ^ 16 + 4)) := by
  have named : ExtensionType.tokenMetadata ≠ .uninitialized := by decide
  constructor
  · refine ((tlv_failed_writes_atomic_iff (.zeroes 6) named).1 .mint 3 false).mpr ?_
    rintro ⟨-, -, fits, -⟩
    exact absurd fits (by decide)
  · intro atomic
    exact ((tlv_failed_writes_atomic_iff (.zeroes (2 ^ 16 + 4)) named).1 .mint (2 ^ 16)
      false).mp atomic ⟨rfl, tears_zeroes⟩

/-- A value of as many zeroes. -/
def VariableLen.zeroes (length : ℕ) : VariableLen where
  getPackedLen := .ok length
  packIntoSlice _ := (.ok (), List.replicate length 0)

theorem VariableLen.serialises_zeroes (length : ℕ) :
    (VariableLen.zeroes length).Serialises (List.replicate length 0) where
  getPackedLen := by rw [List.length_replicate]; rfl
  packIntoSlice _ _ := rfl

/-- **A value one byte too long tears an empty buffer that has room for it**: after the failure the
walk finds metadata. -/
theorem unwritable_length_torn : ∃ data,
    initVariableLenExtension .mint .tokenMetadata (.zeroes (2 ^ 16)) false
        (List.replicate (2 ^ 16 + 4) 0) = some (.error .accountDataTooSmall, data) ∧
      getTlvDataInfo (List.replicate (2 ^ 16 + 4) 0) = .ok ⟨[], 0⟩ ∧
      getTlvDataInfo data = .ok ⟨[.tokenMetadata], 4⟩ := by
  have failed : alloc .mint .tokenMetadata (2 ^ 16) false (TlvBuffer.zeroes (2 ^ 16 + 4)).bytes = _ :=
    alloc_of_tears (by decide) tears_zeroes
  have before : getTlvDataInfo (TlvBuffer.zeroes (2 ^ 16 + 4)).bytes = .ok ⟨[], 0⟩ :=
    TlvBuffer.getTlvDataInfo_eq _
  rw [TlvBuffer.bytes_zeroes] at failed before
  refine ⟨_, ?_, before, getTlvDataInfo_torn (b := .zeroes (2 ^ 16 + 4)) (by decide)⟩
  have packedLen : (VariableLen.zeroes (2 ^ 16)).getPackedLen = .ok (2 ^ 16) := rfl
  rw [initVariableLenExtension_eq packedLen]
  exact bind_of_error failed

end Token2022.Interface
