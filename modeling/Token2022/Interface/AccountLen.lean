/-
**The length of a token account, from the bytes of its mint.**

The program does not build a set: it walks the bytes of the mint once, and keeps the types that it has
counted as the bits of a word.

* `TlvLenAccumulator`, `tryCalculateAccountLen`, `tryForEachRequiredInitAccountExtension`,
  `tryCalculateAccountLenFromMintData` — the computation.
* `TlvLenAccumulator.accumulator` — the bits are a set of types, whose lengths are counted once each.
* **`tryCalculateAccountLenFromMintData_eq`** — the length is that of the extensions that the mint
  requires, and of those that are asked for on top.
-/

import Token2022.Extension.AccountLen
import Token2022.Interface.Readers
import Token2022.Interface.TlvBounds

namespace Token2022.Interface

open ExtensionType Fallible Panicking

/-! ### The computation -/

/-- `TlvLenAccumulator`: the types inserted so far, as bits, and the bytes that they take. -/
structure TlvLenAccumulator where
  seen : BitVec 64
  byteCount : ℕ

namespace TlvLenAccumulator

/-- The bit of a type. -/
def bit (t : ExtensionType) : BitVec 64 := 1#64 <<< (extensionTypeCode t).toNat

/-- `insert`. -/
def insert (acc : TlvLenAccumulator) (t : ExtensionType) : ProgramResult TlvLenAccumulator :=
  if acc.seen &&& bit t = 0 then do
    let len ← t.tryGetTlvLen
    .ok ⟨acc.seen ||| bit t, acc.byteCount + len⟩
  else .ok acc

/-- `account_len`. -/
def accountLen (acc : TlvLenAccumulator) (kind : AccountType) : ℕ :=
  if acc.seen = 0 then kind.baseLen
  else adjustLenForMultisig (acc.byteCount + baseAccountAndTypeLength)

end TlvLenAccumulator

/-- `try_calculate_account_len`. -/
def tryCalculateAccountLen (kind : AccountType) (extensionTypes : List ExtensionType) :
    ProgramResult ℕ := do
  let tlvLen ← extensionTypes.foldlM TlvLenAccumulator.insert ⟨0, 0⟩
  .ok (tlvLen.accountLen kind)

/-- `try_for_each_required_init_account_extension`, with what `f` captures. -/
def tryForEachRequiredInitAccountExtension {σ : Type} (f : σ → ExtensionType → ProgramResult σ)
    (mintTlvData : List UInt8) (s : σ) : Panicking ProgramError σ := do
  let (_, s) ← tryForEachTlvExtensionType
    (fun s mintExtensionType => mintExtensionType.requiredInitAccountExtensions.foldlM f s)
    mintTlvData s
  of (.ok s)

/-- `try_calculate_account_len_from_mint_data`. -/
def tryCalculateAccountLenFromMintData (crates : Crates) (mintData : List UInt8)
    (additionalAccountExtensions : List ExtensionType) : Panicking ProgramError ℕ :=
  if ∃ t ∈ additionalAccountExtensions, t.getAccountType ≠ .account then
    of (.error TokenError.extensionTypeMismatch)
  else do
    let state ← of <| okOr (PodStateWithExtensions.unpack (podMint crates) mintData).toOption
      TokenError.invalidMint
    let tlvLen ← tryForEachRequiredInitAccountExtension TlvLenAccumulator.insert state.tlvData
      ⟨0, 0⟩
    let tlvLen ← of (additionalAccountExtensions.foldlM TlvLenAccumulator.insert tlvLen)
    of (.ok (tlvLen.accountLen .account))

/-! ### The bits of a set of types -/

/-- The types have different bits, all of them in the word. -/
theorem extensionTypeCode_lt (t : ExtensionType) : (extensionTypeCode t).toNat < 64 := by
  cases t <;> decide

/-- The bits of a word are those of the types. -/
def Bits (seen : BitVec 64) (types : Finset ExtensionType) : Prop :=
  ∀ i, seen.getLsbD i = true ↔ ∃ t ∈ types, (extensionTypeCode t).toNat = i

section Bits

variable {seen : BitVec 64} {types : Finset ExtensionType}

theorem Bits.empty : Bits 0 ∅ := by
  intro i
  simp

theorem Bits.eq_zero_iff (bits : Bits seen types) : seen = 0 ↔ types = ∅ := by
  constructor
  · rintro rfl
    refine Finset.eq_empty_of_forall_notMem fun t member => ?_
    have set := (bits _).mpr ⟨t, member, rfl⟩
    simp at set
  · rintro rfl
    refine BitVec.eq_of_getLsbD_eq fun i _ => ?_
    have none : seen.getLsbD i ≠ true := by
      rw [Ne, bits]
      rintro ⟨t, member, -⟩
      exact absurd member (Finset.notMem_empty t)
    rw [Bool.eq_false_of_not_eq_true none]
    simp

/-- The bits of one type. -/
theorem getLsbD_bit (t : ExtensionType) (i : ℕ) :
    (TlvLenAccumulator.bit t).getLsbD i = true ↔ (extensionTypeCode t).toNat = i := by
  show (BitVec.twoPow 64 (extensionTypeCode t).toNat).getLsbD i = true ↔ _
  rw [BitVec.getLsbD_twoPow, Bool.and_eq_true, decide_eq_true_eq, decide_eq_true_eq]
  exact and_iff_right (extensionTypeCode_lt t)

/-- The test for a type. -/
theorem Bits.and_bit_eq_zero_iff (bits : Bits seen types) (t : ExtensionType) :
    seen &&& TlvLenAccumulator.bit t = 0 ↔ t ∉ types := by
  have common : Bits (seen &&& TlvLenAccumulator.bit t) (types.filter (· = t)) := by
    intro i
    rw [BitVec.getLsbD_and, Bool.and_eq_true, bits, getLsbD_bit]
    constructor
    · rintro ⟨⟨t', member, rfl⟩, same⟩
      obtain rfl := extensionTypeCode_inj.mp (UInt16.toNat_inj.mp same)
      exact ⟨_, Finset.mem_filter.mpr ⟨member, rfl⟩, rfl⟩
    · rintro ⟨t', member, rfl⟩
      obtain ⟨inside, rfl⟩ := Finset.mem_filter.mp member
      exact ⟨⟨_, inside, rfl⟩, rfl⟩
  rw [common.eq_zero_iff, Finset.filter_eq_empty_iff]
  exact ⟨fun none member => none member rfl, fun absent t' member same => absent (same ▸ member)⟩

/-- The type is added. -/
theorem Bits.or_bit (bits : Bits seen types) (t : ExtensionType) :
    Bits (seen ||| TlvLenAccumulator.bit t) (insert t types) := by
  intro i
  rw [BitVec.getLsbD_or, Bool.or_eq_true, bits, getLsbD_bit]
  constructor
  · rintro (⟨t', member, rfl⟩ | rfl)
    · exact ⟨t', Finset.mem_insert_of_mem member, rfl⟩
    · exact ⟨t, Finset.mem_insert_self t types, rfl⟩
  · rintro ⟨t', member, rfl⟩
    rcases Finset.mem_insert.mp member with rfl | member
    · exact .inr rfl
    · exact .inl ⟨t', member, rfl⟩

end Bits

/-- **The bits count each type once.** -/
def TlvLenAccumulator.accumulator :
    Accumulator TlvLenAccumulator ProgramError id fun _ (t : ExtensionType) => t.sized = true where
  step := insert
  Holds acc types := Bits acc.seen types ∧ acc.byteCount = ∑ t ∈ types, (4 + t.typeLen)
  step_eq := by
    rintro acc types t ⟨bits, count⟩ sized
    unfold insert
    by_cases seen : t ∈ types
    · rw [if_neg (fun zero => (bits.and_bit_eq_zero_iff t).mp zero seen)]
      refine ⟨acc, rfl, ?_⟩
      rw [id, Finset.insert_eq_of_mem seen]
      exact ⟨bits, count⟩
    · rw [if_pos ((bits.and_bit_eq_zero_iff t).mpr seen), tryGetTlvLen_eq sized]
      refine ⟨_, rfl, bits.or_bit t, ?_⟩
      rw [id, Finset.sum_insert seen, ← count]
      exact Nat.add_comm ..

/-- What it makes of the types is their length. -/
theorem TlvLenAccumulator.accountLen_eq {acc : TlvLenAccumulator} {types : Finset ExtensionType}
    (holds : accumulator.Holds acc types) : acc.accountLen .account = tokenAccountLen types := by
  obtain ⟨bits, count⟩ := holds
  unfold accountLen tokenAccountLen
  simp only [bits.eq_zero_iff, count, baseAccountAndTypeLength, AccountType.baseLen]
  split
  · rfl
  · rw [Nat.add_comm]

/-! ### The length -/

/-- **The length that is computed for types of extensions**, with their bits. -/
theorem tryCalculateAccountLen_eq {types : List ExtensionType}
    (kinds : ∀ t ∈ types, t.getAccountType = .account) :
    tryCalculateAccountLen .account types = .ok (tokenAccountLen types.toFinset) := by
  have start : TlvLenAccumulator.accumulator.Holds ⟨0, 0⟩ ∅ := ⟨Bits.empty, rfl⟩
  obtain ⟨acc, ran, holds⟩ := TlvLenAccumulator.accumulator.foldlM_eq start
    (.of_forall (fun t member _ => sized_of_account (kinds t member)) ∅)
  rw [List.map_id, Finset.empty_union] at holds
  unfold tryCalculateAccountLen
  show (List.foldlM TlvLenAccumulator.accumulator.step _ _ >>= _) = _
  rw [ran, ← TlvLenAccumulator.accountLen_eq holds]
  rfl

/-- The account extensions that a mint with the extensions requires. -/
def requiredInitTypes (mintTypes : List ExtensionType) : Finset ExtensionType :=
  (mintTypes.flatMap requiredInitAccountExtensions).toFinset

/-- The extensions of an account: what its mint requires, and what is asked for on top. -/
def accountTypes (mintTypes additional : List ExtensionType) : Finset ExtensionType :=
  requiredInitTypes mintTypes ∪ additional.toFinset

theorem getAccountType_of_requiredInitTypes {mintTypes : List ExtensionType} {t : ExtensionType}
    (member : t ∈ requiredInitTypes mintTypes) : t.getAccountType = .account := by
  obtain ⟨t', -, member⟩ := List.mem_flatMap.mp (List.mem_toFinset.mp member)
  exact getAccountType_of_required member

/-- **The length of an account, from the bytes of its mint**, is that of the extensions that the mint
requires, and of those that are asked for on top. -/
theorem tryCalculateAccountLenFromMintData_eq {crates : Crates} {mintData : List UInt8}
    {st : StateWithExtensions PodMint} {info : TlvDataInfo} {additional : List ExtensionType}
    (unpacked : PodStateWithExtensions.unpack (podMint crates) mintData = .ok st)
    (walked : getTlvDataInfo st.tlvData = .ok info)
    (kinds : ∀ t ∈ additional, t.getAccountType = .account) :
    tryCalculateAccountLenFromMintData crates mintData additional =
      of (.ok (tokenAccountLen (accountTypes info.extensionTypes additional))) := by
  have required : ∀ t ∈ info.extensionTypes.flatMap requiredInitAccountExtensions,
      t.sized = true := by
    intro t member
    exact sized_of_account (getAccountType_of_requiredInitTypes (List.mem_toFinset.mpr member))
  have start : TlvLenAccumulator.accumulator.Holds ⟨0, 0⟩ ∅ := ⟨Bits.empty, rfl⟩
  obtain ⟨acc, first, holds⟩ := TlvLenAccumulator.accumulator.foldlM_eq start
    (.of_forall (fun t member _ => required t member) ∅)
  obtain ⟨acc', second, holds'⟩ := TlvLenAccumulator.accumulator.foldlM_eq holds
    (.of_forall (fun t member _ => sized_of_account (kinds t member)) _)
  rw [List.map_id, List.map_id, Finset.empty_union] at holds'
  obtain ⟨result, runs, follows⟩ := tryForEachTlvExtensionTypeFrom_eq
    (f := fun s mintExtensionType => mintExtensionType.requiredInitAccountExtensions.foldlM
      TlvLenAccumulator.insert s) st.tlvData ⟨0, 0⟩ 0
  rw [foldlM_flatMap] at first
  have streamed : result = .ok (info.usedLen, acc) :=
    (follows.ok_iff _ _).mpr ⟨info, walked, rfl, first⟩
  have none : ¬ ∃ t ∈ additional, t.getAccountType ≠ .account := by
    rintro ⟨t, member, other⟩
    exact other (kinds t member)
  have walk : tryForEachRequiredInitAccountExtension TlvLenAccumulator.insert st.tlvData ⟨0, 0⟩ =
      of (.ok acc) := by
    unfold tryForEachRequiredInitAccountExtension tryForEachTlvExtensionType
    rw [runs, streamed]
    rfl
  unfold tryCalculateAccountLenFromMintData
  rw [if_neg none, unpacked]
  show (tryForEachRequiredInitAccountExtension TlvLenAccumulator.insert st.tlvData ⟨0, 0⟩ >>= _) = _
  rw [walk, ok_bind]
  show (of (List.foldlM TlvLenAccumulator.accumulator.step acc additional) >>= _) = _
  rw [second, ok_bind, TlvLenAccumulator.accountLen_eq holds']
  rfl

end Token2022.Interface
