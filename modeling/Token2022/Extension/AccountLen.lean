/-
**The length of a token account with extensions.**

* `tokenAccountLen` — the length that a set of extensions asks for.
* `tokenAccountLen_mono` — more extensions ask for no less.
* `TlvLenAccumulator.accumulator` — the accumulator of types counts each type once.
* `tryCalculateAccountLen_eq` — so that it computes the length of a set.
* **`MintState.tryCalculateAccountLen_eq`** — the length of an account for a mint is that of the
  extensions that the mint requires, and of those that are asked for on top.
-/

import Mathlib.Algebra.BigOperators.Group.Finset.Basic
import Mathlib.Algebra.Order.BigOperators.Group.Finset
import Token2022.Lib.Accumulator
import Token2022.State

namespace Token2022

open Fallible

/-! ### The length of a set of extensions -/

/-- **The length of a token account** with the extensions: the base, the account type, and each
extension behind its four bytes of type and length, but never the length of a multisig. -/
def tokenAccountLen (types : Finset ExtensionType) : ℕ :=
  if types = ∅ then AccountType.account.baseLen
  else adjustLenForMultisig (AccountType.account.baseLen + 1 + ∑ t ∈ types, (4 + t.typeLen))

section Length

variable {types types' : Finset ExtensionType}

theorem tokenAccountLen_ne (types : Finset ExtensionType) : tokenAccountLen types ≠ multisigLen := by
  unfold tokenAccountLen
  split
  · decide
  · exact adjustLenForMultisig_ne _

/-- The extensions fit into the length. -/
theorem sum_le_tokenAccountLen (some' : types.Nonempty) :
    baseAccountAndTypeLength + ∑ t ∈ types, (4 + t.typeLen) ≤ tokenAccountLen types := by
  rw [tokenAccountLen, if_neg some'.ne_empty]
  exact le_adjustLenForMultisig _

theorem tokenAccountLen_valid (types : Finset ExtensionType) :
    AccountType.account.ValidLen (tokenAccountLen types) := by
  refine ⟨tokenAccountLen_ne types, ?_⟩
  by_cases none : types = ∅
  · exact .inl (if_pos none)
  · have long := sum_le_tokenAccountLen (Finset.nonempty_of_ne_empty none)
    exact .inr (le_of_add_le_left long)

/-- **More extensions ask for no less.** The adjustment is less than what one more extension takes. -/
theorem tokenAccountLen_mono (subset : types ⊆ types') :
    tokenAccountLen types ≤ tokenAccountLen types' := by
  by_cases same : types = types'
  · rw [same]
  · obtain ⟨t, member, new⟩ := Finset.exists_of_ssubset (subset.ssubset_of_ne same)
    have long := sum_le_tokenAccountLen ⟨t, member⟩
    by_cases none : types = ∅
    · rw [tokenAccountLen, if_pos none]
      simp only [AccountType.baseLen, baseAccountAndTypeLength] at long ⊢
      omega
    · have more : ∑ t ∈ types, (4 + t.typeLen) + (4 + t.typeLen) ≤
          ∑ t ∈ types', (4 + t.typeLen) := by
        rw [add_comm, ← Finset.sum_insert (f := fun t => 4 + t.typeLen) new]
        exact Finset.sum_le_sum_of_subset (Finset.insert_subset member subset)
      have adjusted := adjustLenForMultisig_le
        (AccountType.account.baseLen + 1 + ∑ t ∈ types, (4 + t.typeLen))
      rw [tokenAccountLen, if_neg none]
      simp only [AccountType.baseLen, baseAccountAndTypeLength] at adjusted long ⊢
      omega

end Length

/-! ### The accumulator of types -/

namespace ExtensionType

theorem tryGetTlvLen_eq {t : ExtensionType} (sized : t.sized = true) :
    t.tryGetTlvLen = .ok (4 + t.typeLen) := by
  unfold tryGetTlvLen tryGetTypeLen
  rw [if_pos sized]
  show Except.ok (t.typeLen + 2 + 2) = _
  rw [Nat.add_comm 4]

/-- Every extension of accounts has a fixed length. -/
theorem sized_of_account {t : ExtensionType} (typed : t.getAccountType = .account) :
    t.sized = true := by
  cases t <;> first | rfl | cases typed

/-- What a mint requires are extensions of accounts. -/
theorem getAccountType_of_required {t t' : ExtensionType}
    (required : t' ∈ t.requiredInitAccountExtensions) : t'.getAccountType = .account := by
  have all : ∀ t' ∈ t.requiredInitAccountExtensions, t'.getAccountType = .account := by
    cases t <;> decide
  exact all t' required

end ExtensionType

/-- **The accumulator counts each type once.** -/
def TlvLenAccumulator.accumulator :
    Accumulator TlvLenAccumulator ProgramError id fun _ (t : ExtensionType) => t.sized = true where
  step := insert
  Holds acc types := acc.seen.toFinset = types ∧ acc.byteCount = ∑ t ∈ types, (4 + t.typeLen)
  step_eq := by
    rintro acc types t ⟨rfl, count⟩ sized
    unfold insert
    by_cases seen : t ∈ acc.seen
    · rw [if_pos seen]
      refine ⟨acc, rfl, ?_⟩
      rw [id, Finset.insert_eq_of_mem (List.mem_toFinset.mpr seen)]
      exact ⟨rfl, count⟩
    · rw [if_neg seen, ExtensionType.tryGetTlvLen_eq sized]
      refine ⟨_, rfl, List.toFinset_cons, ?_⟩
      rw [id, Finset.sum_insert (fun member => seen (List.mem_toFinset.mp member)), ← count]
      exact Nat.add_comm ..

/-- What it makes of the types is their length. -/
theorem TlvLenAccumulator.accountLen_eq {acc : TlvLenAccumulator} {types : Finset ExtensionType}
    (holds : accumulator.Holds acc types) : acc.accountLen .account = tokenAccountLen types := by
  obtain ⟨rfl, count⟩ := holds
  unfold accountLen tokenAccountLen
  simp only [List.toFinset_eq_empty_iff, count, baseAccountAndTypeLength, AccountType.baseLen]
  split
  · rfl
  · rw [Nat.add_comm]

/-- **The length that is computed for types of extensions**, whatever their order and duplicates. -/
theorem tryCalculateAccountLen_eq {types : List ExtensionType}
    (kinds : ∀ t ∈ types, t.getAccountType = .account) :
    tryCalculateAccountLen .account types = .ok (tokenAccountLen types.toFinset) := by
  have start : TlvLenAccumulator.accumulator.Holds ⟨[], 0⟩ ∅ := ⟨rfl, rfl⟩
  obtain ⟨acc, ran, holds⟩ := TlvLenAccumulator.accumulator.foldlM_eq start
    (.of_forall (fun t member _ => ExtensionType.sized_of_account (kinds t member)) ∅)
  rw [List.map_id, Finset.empty_union] at holds
  unfold tryCalculateAccountLen
  show (List.foldlM TlvLenAccumulator.accumulator.step _ _ >>= _) = _
  rw [ran, ← TlvLenAccumulator.accountLen_eq holds]
  rfl

/-! ### The accounts of a mint -/

/-- **The length of an account for a mint** is that of the extensions that the mint requires, and of
those that are asked for on top. -/
theorem MintState.tryCalculateAccountLen_eq (mint : MintState) {additional : List ExtensionType}
    (kinds : ∀ t ∈ additional, t.getAccountType = .account) :
    mint.tryCalculateAccountLen additional =
      .ok (tokenAccountLen (mint.requiredInitAccountExtensions.toFinset ∪ additional.toFinset)) := by
  have required : ∀ t ∈ mint.requiredInitAccountExtensions, t.sized = true := by
    intro t member
    obtain ⟨t', -, member⟩ := List.mem_flatMap.mp member
    exact ExtensionType.sized_of_account (ExtensionType.getAccountType_of_required member)
  have start : TlvLenAccumulator.accumulator.Holds ⟨[], 0⟩ ∅ := ⟨rfl, rfl⟩
  obtain ⟨acc, first, holds⟩ := TlvLenAccumulator.accumulator.foldlM_eq start
    (.of_forall (fun t member _ => required t member) ∅)
  obtain ⟨acc', second, holds'⟩ := TlvLenAccumulator.accumulator.foldlM_eq holds
    (.of_forall (fun t member _ => ExtensionType.sized_of_account (kinds t member)) _)
  rw [List.map_id, Finset.empty_union] at holds'
  rw [List.map_id] at holds'
  unfold MintState.tryCalculateAccountLen
  show (List.foldlM TlvLenAccumulator.accumulator.step _ _ >>= _) = _
  rw [first]
  show (List.foldlM TlvLenAccumulator.accumulator.step _ _ >>= _) = _
  rw [second, ← TlvLenAccumulator.accountLen_eq holds']
  rfl

end Token2022
