/-
**Collecting withheld fees is exact.**

A harvest and a withdrawal go through a list of accounts, in which an account may stand twice, be the
destination, or have no fees of the mint at all. What they do depends on the set of the accounts only.

* `Withholding`, `plainFees`, `encryptedFees` — the two forms in which an account withholds fees.
* `Ledger.feeAccount?`, `Ledger.withheldTotal`, `Ledger.emptied` — the accounts that can be collected
  from, what they withhold together, and the ledger in which they withhold nothing.
* `harvestToMint_setLoop`, `withdrawFromAccount_setLoop` and their confidential forms — the loops.
* **`collecting_exact`** — the four instructions.
-/

import Mathlib.Algebra.BigOperators.Group.Finset.Basic
import Token2022.Lib.SetLoop
import Token2022.Property.Supply

namespace Token2022

open Fallible

/-! ### What an account withholds -/

/-- A form in which token accounts withhold fees: the extension, the amount in it, and the extension
with nothing in it. -/
structure Withholding (M : Type) [AddCommMonoid M] where
  type : ExtensionType
  read : Extension type → M
  empty : Extension type
  read_empty : read empty = 0

/-- Fees of transfers. -/
def plainFees : Withholding ℕ where
  type := .transferFeeAmount
  read := TransferFeeAmount.withheldAmount
  empty := (⟨0⟩ : TransferFeeAmount)
  read_empty := rfl

/-- Fees of confidential transfers, by their plaintexts. -/
def encryptedFees : Withholding Scalar where
  type := .confidentialTransferFeeAmount
  read := ConfidentialTransferFeeAmount.withheldAmount
  empty := (⟨0⟩ : ConfidentialTransferFeeAmount)
  read_empty := rfl

variable {M : Type} [AddCommMonoid M] {w : Withholding M} {L L' : Ledger} {m d a : Address}
  {keys : Finset Address}

namespace Ledger

/-- **The token account of the mint at the address, with the extension that withholds fees**, if there
is one. -/
def feeAccount? (L : Ledger) (w : Withholding M) (m a : Address) :
    Option (TokenAccountState × Extension w.type) :=
  (L.account? a).bind fun account =>
    if account.base.mint = m then (account.get w.type).map (account, ·) else none

/-- What the account withholds, if it is one of these. -/
def withheld? (L : Ledger) (w : Withholding M) (m a : Address) : Option M :=
  (L.feeAccount? w m a).map fun found => w.read found.2

/-- **What the accounts withhold together**, each counted once. -/
def withheldTotal (L : Ledger) (w : Withholding M) (m : Address) (keys : Finset Address) : M :=
  ∑ a ∈ keys, (L.withheld? w m a).getD 0

/-- The account with nothing withheld in it. -/
def emptyAccount (L : Ledger) (w : Withholding M) (m a : Address) : AccountInfo :=
  match L.feeAccount? w m a with
  | some found => { L a with data := .account (found.1.set w.type w.empty) }
  | none => L a

/-- **The ledger in which the accounts withhold nothing**, and all else is as it was. -/
def emptied (L : Ledger) (w : Withholding M) (m : Address) (keys : Finset Address) : Ledger :=
  fun a => if a ∈ keys then L.emptyAccount w m a else L a

/-! ### One account -/

/-- An account is looked at where it stands. -/
theorem feeAccount?_congr (same : L' a = L a) : L'.feeAccount? w m a = L.feeAccount? w m a := by
  simp only [feeAccount?, account?, same]

theorem feeAccount?_eq_some_iff {found : TokenAccountState × Extension w.type} :
    L.feeAccount? w m a = some found ↔ L.account? a = some found.1 ∧ found.1.base.mint = m ∧
      found.1.get w.type = some found.2 := by
  obtain ⟨account, e⟩ := found
  simp only [feeAccount?, Option.bind_eq_some_iff]
  constructor
  · rintro ⟨st, held, found⟩
    split at found
    · rename_i mint
      obtain ⟨e', there, same⟩ := Option.map_eq_some_iff.mp found
      obtain ⟨rfl, rfl⟩ := Prod.mk.inj same
      exact ⟨held, mint, there⟩
    · cases found
  · rintro ⟨held, mint, there⟩
    refine ⟨account, held, ?_⟩
    rw [if_pos mint, there]
    rfl

/-- **After it was emptied**, an account can be collected from as before, and withholds nothing. -/
theorem feeAccount?_emptied (member : a ∈ keys) :
    (L.emptied w m keys).feeAccount? w m a =
      (L.feeAccount? w m a).map fun found => (found.1.set w.type w.empty, w.empty) := by
  cases found : L.feeAccount? w m a with
  | none =>
    have same : L.emptied w m keys a = L a := by
      rw [emptied, if_pos member, emptyAccount, found]
    rw [feeAccount?_congr same, found]
    rfl
  | some pair =>
    obtain ⟨held, mint, there⟩ := feeAccount?_eq_some_iff.mp found
    obtain ⟨owned, -⟩ := account?_eq_some_iff.mp held
    have after : L.emptied w m keys a =
        { L a with data := .account (pair.1.set w.type w.empty) } := by
      rw [emptied, if_pos member, emptyAccount, found]
    refine feeAccount?_eq_some_iff.mpr ⟨account?_eq_some_iff.mpr ?_, mint, ?_⟩
    · rw [after]
      exact ⟨owned, rfl⟩
    · exact StateWithExtensions.get_set_self ..

/-- An account that is not among them is as it was. -/
theorem feeAccount?_emptied_of_not_mem (absent : a ∉ keys) :
    (L.emptied w m keys).feeAccount? w m a = L.feeAccount? w m a :=
  feeAccount?_congr (if_neg absent)

/-- Where nothing can be collected from, emptying changes nothing. -/
theorem emptied_insert_of_none (none : L.feeAccount? w m a = none) :
    L.emptied w m (insert a keys) = L.emptied w m keys := by
  funext b
  unfold emptied
  by_cases here : b = a
  · subst here
    have same : L.emptyAccount w m b = L b := by rw [emptyAccount, none]
    rw [same, ite_self, ite_self]
  · simp only [Finset.mem_insert, here, false_or]

/-- **Emptying one more.** -/
theorem emptied_insert_of_some {found : TokenAccountState × Extension w.type}
    (some_ : (L.emptied w m keys).feeAccount? w m a = some found) :
    L.emptied w m (insert a keys) =
      (L.emptied w m keys).setData a (.account (found.1.set w.type w.empty)) := by
  funext b
  by_cases here : b = a
  · subst here
    rw [setData, Function.update_self]
    by_cases member : b ∈ keys
    · rw [Finset.insert_eq_of_mem member]
      rw [feeAccount?_emptied member, Option.map_eq_some_iff] at some_
      obtain ⟨pair, held, rfl⟩ := some_
      have after : L.emptied w m keys b =
          { L b with data := .account (pair.1.set w.type w.empty) } := by
        rw [emptied, if_pos member, emptyAccount, held]
      rw [after, StateWithExtensions.set_set]
    · rw [feeAccount?_emptied_of_not_mem member] at some_
      rw [show L.emptied w m keys b = L b from if_neg member, emptied,
        if_pos (Finset.mem_insert_self b keys), emptyAccount, some_]
  · rw [setData, Function.update_of_ne here]
    unfold emptied
    simp only [Finset.mem_insert, here, false_or]

/-- Collecting from one account: what it withholds, and the ledger in which it does not. -/
def collect? (L : Ledger) (w : Withholding M) (m a : Address) : Option (M × Ledger) :=
  (L.feeAccount? w m a).map fun found =>
    (w.read found.2, L.setData a (.account (found.1.set w.type w.empty)))

/-- **After others were emptied**, an account gives what it withheld, or nothing if it was among
them. -/
theorem collect?_emptied (L : Ledger) (w : Withholding M) (m a : Address) (keys : Finset Address) :
    (L.emptied w m keys).collect? w m a =
    (L.feeAccount? w m a).map fun found =>
      (if a ∈ keys then 0 else w.read found.2, L.emptied w m (insert a keys)) := by
  unfold collect?
  by_cases member : a ∈ keys
  · cases found : L.feeAccount? w m a with
    | none => rw [feeAccount?_emptied member, found]; rfl
    | some pair =>
      have after := feeAccount?_emptied (L := L) (w := w) (m := m) member
      rw [found, Option.map_some] at after
      rw [after, Option.map_some, Option.map_some, if_pos member, w.read_empty,
        emptied_insert_of_some after]
  · cases found : L.feeAccount? w m a with
    | none => rw [feeAccount?_emptied_of_not_mem member, found]; rfl
    | some pair =>
      have after := (feeAccount?_emptied_of_not_mem (L := L) (w := w) (m := m) member).trans found
      rw [after, Option.map_some, Option.map_some, if_neg member, emptied_insert_of_some after]

/-- **Each account counts once.** -/
theorem withheldTotal_insert : L.withheldTotal w m (insert a keys) =
    L.withheldTotal w m keys + if a ∈ keys then 0 else (L.withheld? w m a).getD 0 := by
  unfold withheldTotal
  by_cases member : a ∈ keys
  · rw [Finset.insert_eq_of_mem member, if_pos member, add_zero]
  · rw [Finset.sum_insert member, if_neg member, add_comm]

theorem withheldTotal_insert_of_none (none : L.feeAccount? w m a = none) :
    L.withheldTotal w m (insert a keys) = L.withheldTotal w m keys := by
  rw [withheldTotal_insert, withheld?, none, Option.map_none, Option.getD_none, ite_self, add_zero]

theorem withheldTotal_insert_of_some {found : TokenAccountState × Extension w.type}
    (some_ : L.feeAccount? w m a = some found) : L.withheldTotal w m (insert a keys) =
      L.withheldTotal w m keys + if a ∈ keys then 0 else w.read found.2 := by
  rw [withheldTotal_insert, withheld?, some_]
  rfl

@[simp] theorem emptied_empty : L.emptied w m ∅ = L := by
  funext a
  exact if_neg (Finset.notMem_empty a)

@[simp] theorem withheldTotal_empty : L.withheldTotal w m ∅ = 0 := Finset.sum_empty

end Ledger

/-! ### Harvests -/

/-- What the two forms of `harvest_from_account` do. -/
theorem collect_eq_ok_iff {found : M × Ledger} :
    (do
      let account ← unpackAccount (L a).data
      require (account.base.mint = m) TokenError.mintMismatch
      checkProgramAccount (L a).owner
      let withheld ← account.getExtension w.type
      let ledger ← L.writeData a (.account (account.set w.type w.empty))
      .ok (w.read withheld, ledger) : ProgramResult (M × Ledger)) = .ok found ↔
        L.collect? w m a = some found := by
  simp only [bind_eq_ok_iff, unpackAccount_eq_ok_iff, require_eq_ok_iff,
    checkProgramAccount_eq_ok_iff, exists_const, Except.ok.injEq, Ledger.writeData_eq_ok_iff,
    StateWithExtensions.getExtension_eq_ok_iff, Ledger.collect?, Option.map_eq_some_iff,
    Ledger.feeAccount?_eq_some_iff, Ledger.account?_eq_some_iff]
  constructor
  · rintro ⟨account, data, mint, owned, e, held, _, ⟨-, rfl⟩, rfl⟩
    exact ⟨(account, e), ⟨⟨owned, data⟩, mint, held⟩, rfl⟩
  · rintro ⟨⟨account, e⟩, ⟨⟨owned, data⟩, mint, held⟩, rfl⟩
    exact ⟨account, data, mint, owned, e, held, _, ⟨.inl owned, rfl⟩, rfl⟩

/-- **One account is harvested** if it is one of the mint's that withhold fees. -/
theorem harvestFromAccount_eq_ok_iff {found : ℕ × Ledger} :
    harvestFromAccount L m a = .ok found ↔ L.collect? plainFees m a = some found :=
  collect_eq_ok_iff (w := plainFees)

theorem harvestFromAccountConfidential_eq_ok_iff {found : Scalar × Ledger} :
    harvestFromAccountConfidential L m a = .ok found ↔
      L.collect? encryptedFees m a = some found :=
  collect_eq_ok_iff (w := encryptedFees)

/-- **What one more account adds to a collection**: nothing, where it cannot be collected from, else
what it withholds, unless it was among the accounts before. The ledger may have emptied other accounts
than those that count. -/
inductive CollectsFrom (L : Ledger) (w : Withholding M) (m a : Address)
    (keys keys' : Finset Address) : ProgramResult (M × Ledger) → Prop
  | nothing {e : ProgramError} (none : L.feeAccount? w m a = none)
      (ledger : L.emptied w m (insert a keys') = L.emptied w m keys')
      (total : L.withheldTotal w m (insert a keys) = L.withheldTotal w m keys) :
      CollectsFrom L w m a keys keys' (.error e)
  | fees {n : M} {found : TokenAccountState × Extension w.type}
      (there : L.feeAccount? w m a = some found)
      (total : L.withheldTotal w m (insert a keys) = L.withheldTotal w m keys + n) :
      CollectsFrom L w m a keys keys' (.ok (n, L.emptied w m (insert a keys')))

/-- A computation that collects from one account, in a ledger where others are emptied. -/
theorem collectsFrom_of_law {keys' : Finset Address} {result : ProgramResult (M × Ledger)}
    (law : ∀ r, result = .ok r ↔ (L.emptied w m keys').collect? w m a = some r)
    (same : a ∈ keys' ↔ a ∈ keys) : CollectsFrom L w m a keys keys' result := by
  have collected := Ledger.collect?_emptied L w m a keys'
  cases found : L.feeAccount? w m a with
  | none =>
    rw [found, Option.map_none] at collected
    cases result with
    | error e =>
      exact .nothing found (Ledger.emptied_insert_of_none found)
        (Ledger.withheldTotal_insert_of_none found)
    | ok r => cases collected.symm.trans ((law r).mp rfl)
  | some pair =>
    rw [found, Option.map_some] at collected
    simp only [same] at collected
    rw [(law _).mpr collected]
    exact .fees found (Ledger.withheldTotal_insert_of_some found)

/-- The amount and the fees of the accounts fit into 64 bits, if one of the accounts is harvested. -/
def Ledger.FitsWithheld (L : Ledger) (m : Address) (amount : ℕ) (keys : Finset Address) : Prop :=
  (∃ a ∈ keys, L.feeAccount? plainFees m a ≠ none) →
    amount + L.withheldTotal plainFees m keys < 2 ^ 64

theorem Ledger.fitsWithheld_insert_of_none {n : ℕ} (none : L.feeAccount? plainFees m a = none) :
    L.FitsWithheld m n (insert a keys) ↔ L.FitsWithheld m n keys := by
  unfold FitsWithheld
  rw [withheldTotal_insert_of_none none, Finset.exists_mem_insert]
  simp only [none, ne_eq, not_true_eq_false, false_or]

theorem Ledger.fitsWithheld_insert_of_some {n : ℕ} {found : TokenAccountState × TransferFeeAmount}
    (some_ : L.feeAccount? plainFees m a = some found) :
    L.FitsWithheld m n (insert a keys) ↔
      n + L.withheldTotal plainFees m (insert a keys) < 2 ^ 64 := by
  unfold FitsWithheld
  refine imp_iff_right ⟨a, Finset.mem_insert_self a keys, ?_⟩
  rw [some_]
  exact Option.some_ne_none _

theorem Ledger.fitsWithheld_empty {n : ℕ} : L.FitsWithheld m n ∅ :=
  fun ⟨_, member, _⟩ => absurd member (Finset.notMem_empty _)

theorem Ledger.FitsWithheld.earlier {n : ℕ} (fits : L.FitsWithheld m n (insert a keys)) :
    L.FitsWithheld m n keys := by
  rintro ⟨b, member, there⟩
  have all := fits ⟨b, Finset.mem_insert_of_mem member, there⟩
  have less : L.withheldTotal plainFees m keys ≤ L.withheldTotal plainFees m (insert a keys) := by
    rw [withheldTotal_insert]
    exact Nat.le_add_right _ _
  omega

/-- **The loop of a harvest.** -/
theorem harvestToMint_setLoop (n : ℕ) :
    SetLoop (harvestToMintStep m) AccountMeta.key
      (fun keys => (L.emptied plainFees m keys, n + L.withheldTotal plainFees m keys))
      (fun keys => m ∉ keys ∧ L.FitsWithheld m n keys) where
  start := ⟨Finset.notMem_empty m, Ledger.fitsWithheld_empty⟩
  earlier keys k fits :=
    ⟨fun member => fits.1 (Finset.mem_insert_of_mem member), fits.2.earlier⟩
  step keys info s fits := by
    rw [Finset.mem_insert, not_or]
    simp only [harvestToMintStep, bind_eq_ok_iff, require_eq_ok_iff, exists_const]
    have collected : CollectsFrom L plainFees m info.key keys keys _ :=
      collectsFrom_of_law (fun _ => harvestFromAccount_eq_ok_iff) Iff.rfl
    generalize harvestFromAccount (L.emptied plainFees m keys) m info.key = result at collected ⊢
    cases collected with
    | nothing none ledger total =>
      rw [ledger, total, Ledger.fitsWithheld_insert_of_none none]
      constructor
      · rintro ⟨ne, same⟩
        exact ⟨⟨⟨Ne.symm ne, fits.1⟩, fits.2⟩, (Except.ok.inj same).symm⟩
      · rintro ⟨⟨⟨ne, -⟩, -⟩, rfl⟩
        exact ⟨Ne.symm ne, rfl⟩
    | fees there total =>
      rw [Ledger.fitsWithheld_insert_of_some there, total, ← add_assoc]
      simp only [bind_eq_ok_iff, okOr_eq_ok_iff, checkedAdd_eq_some_iff, Except.ok.injEq]
      constructor
      · rintro ⟨ne, _, ⟨small, rfl⟩, rfl⟩
        exact ⟨⟨⟨Ne.symm ne, fits.1⟩, small⟩, rfl⟩
      · rintro ⟨⟨⟨ne, -⟩, small⟩, rfl⟩
        exact ⟨Ne.symm ne, _, ⟨small, rfl⟩, rfl⟩

/-- **The loop of a confidential harvest.** -/
theorem harvestToMintConfidential_setLoop (n : Scalar) :
    SetLoop (harvestToMintConfidentialStep m) AccountMeta.key
      (fun keys => (L.emptied encryptedFees m keys, n + L.withheldTotal encryptedFees m keys))
      (fun keys => m ∉ keys) where
  start := Finset.notMem_empty m
  earlier keys k fits member := fits (Finset.mem_insert_of_mem member)
  step keys info s fits := by
    rw [Finset.mem_insert, not_or]
    simp only [harvestToMintConfidentialStep, bind_eq_ok_iff, require_eq_ok_iff, exists_const]
    have collected : CollectsFrom L encryptedFees m info.key keys keys _ :=
      collectsFrom_of_law (fun _ => harvestFromAccountConfidential_eq_ok_iff) Iff.rfl
    generalize harvestFromAccountConfidential (L.emptied encryptedFees m keys) m info.key = result
      at collected ⊢
    cases collected with
    | nothing none ledger total =>
      rw [ledger, total]
      constructor
      · rintro ⟨ne, same⟩
        exact ⟨⟨Ne.symm ne, fits⟩, (Except.ok.inj same).symm⟩
      · rintro ⟨⟨ne, -⟩, rfl⟩
        exact ⟨Ne.symm ne, rfl⟩
    | fees there total =>
      rw [total, ← add_assoc]
      simp only [bind_eq_ok_iff, okOr_eq_ok_iff, CiphertextArithmetic.add, Option.some.injEq,
        Except.ok.injEq]
      constructor
      · rintro ⟨ne, _, rfl, rfl⟩
        exact ⟨⟨Ne.symm ne, fits⟩, rfl⟩
      · rintro ⟨⟨ne, -⟩, rfl⟩
        exact ⟨Ne.symm ne, _, rfl, rfl⟩

/-! ### Withdrawals from accounts -/

/-- The destination, with nothing withheld in it if it is one of the accounts. -/
def TokenAccountState.emptiedAt (st : TokenAccountState) (w : Withholding M) (d : Address)
    (keys : Finset Address) : TokenAccountState :=
  if d ∈ keys then st.set w.type w.empty else st

variable {st : TokenAccountState}

/-- The destination can be collected from if it withholds fees. -/
theorem Ledger.feeAccount?_destination (held : L.account? d = some st) (mint : st.base.mint = m) :
    L.feeAccount? w m d = (st.get w.type).map (st, ·) := by
  simp only [Ledger.feeAccount?, held, Option.bind_some, if_pos mint]

/-- The destination in memory is emptied once more where it stands again. -/
theorem TokenAccountState.emptiedAt_insert_self :
    st.emptiedAt w d (insert d keys) = (st.emptiedAt w d keys).set w.type w.empty := by
  unfold emptiedAt
  rw [if_pos (Finset.mem_insert_self d keys)]
  split
  · exact (StateWithExtensions.set_set ..).symm
  · rfl

theorem TokenAccountState.emptiedAt_insert_of_ne (ne : a ≠ d) :
    st.emptiedAt w d (insert a keys) = st.emptiedAt w d keys := by
  unfold emptiedAt
  simp only [Finset.mem_insert, ne.symm, false_or]

/-- What the destination in memory withholds: nothing if it stood before. -/
theorem TokenAccountState.get_emptiedAt :
    (st.emptiedAt w d keys).get w.type =
      if d ∈ keys then some w.empty else st.get w.type := by
  unfold emptiedAt
  split
  · exact StateWithExtensions.get_set_self ..
  · rfl

@[simp] theorem TokenAccountState.base_emptiedAt : (st.emptiedAt w d keys).base = st.base := by
  unfold emptiedAt
  split <;> rfl

/-- The account with more tokens. -/
def TokenAccountState.plus (st : TokenAccountState) (n : ℕ) : TokenAccountState :=
  st.withBase { st.base with amount := st.base.amount + n }

theorem TokenAccountState.plus_add (st : TokenAccountState) (n k : ℕ) :
    (st.plus n).withBase { (st.plus n).base with amount := (st.plus n).base.amount + k } =
      st.plus (n + k) := by
  simp [plus, StateWithExtensions.withBase, add_assoc]

/-- **The loop of a withdrawal**, with the destination in memory. -/
theorem withdrawFromAccount_setLoop (held : L.account? d = some st) (mint : st.base.mint = m) :
    SetLoop (withdrawFromAccountStep m d) AccountMeta.key
      (fun keys => (L.emptied plainFees m (keys.erase d),
        (st.emptiedAt plainFees d keys).plus (L.withheldTotal plainFees m keys)))
      (fun keys => m ∉ keys ∧ (d ∈ keys → L.feeAccount? plainFees m d ≠ none) ∧
        L.FitsWithheld m st.base.amount keys) where
  start := ⟨Finset.notMem_empty m, fun member => absurd member (Finset.notMem_empty d),
    Ledger.fitsWithheld_empty⟩
  earlier keys k fits := ⟨fun member => fits.1 (Finset.mem_insert_of_mem member),
    fun member => fits.2.1 (Finset.mem_insert_of_mem member), fits.2.2.earlier⟩
  step keys info s fits := by
    obtain ⟨absent, there, fits⟩ := fits
    rw [Finset.mem_insert, not_or]
    simp only [withdrawFromAccountStep, bind_eq_ok_iff, require_eq_ok_iff, exists_const]
    by_cases here : info.key = d
    · subst here
      have destination := Ledger.feeAccount?_destination (w := plainFees) held mint
      have inMemory : ((st.emptiedAt plainFees info.key keys).plus
          (L.withheldTotal plainFees m keys)).get .transferFeeAmount =
            if info.key ∈ keys then some ⟨0⟩ else st.get .transferFeeAmount :=
        TokenAccountState.get_emptiedAt
      rw [if_pos rfl, inMemory, Finset.erase_insert_eq_erase]
      cases carried : st.get .transferFeeAmount with
      | none =>
        have nothing : L.feeAccount? plainFees m info.key = none :=
          destination.trans (congrArg (Option.map _) carried)
        have first : info.key ∉ keys := fun member => there member nothing
        rw [if_neg first]
        constructor
        · rintro ⟨-, _, ⟨⟩, -⟩
        · rintro ⟨⟨-, present, -⟩, -⟩
          exact absurd nothing (present (Finset.mem_insert_self ..))
      | some e =>
        have found : L.feeAccount? plainFees m info.key = some (st, e) :=
          destination.trans (congrArg (Option.map _) carried)
        have withheld : (if info.key ∈ keys then some (⟨0⟩ : TransferFeeAmount) else some e) =
            some (if info.key ∈ keys then ⟨0⟩ else e) := (apply_ite some ..).symm
        have amount : (if info.key ∈ keys then (⟨0⟩ : TransferFeeAmount) else e).withheldAmount =
            if info.key ∈ keys then 0 else plainFees.read e := apply_ite ..
        rw [withheld, Ledger.fitsWithheld_insert_of_some found,
          Ledger.withheldTotal_insert_of_some found, TokenAccountState.emptiedAt_insert_self,
          ← add_assoc]
        simp only [bind_eq_ok_iff, okOr_eq_ok_iff, Option.some.injEq, checkedAdd_eq_some_iff,
          Except.ok.injEq, exists_eq_left', amount]
        constructor
        · rintro ⟨ne, _, ⟨small, rfl⟩, rfl⟩
          refine ⟨⟨⟨Ne.symm ne, absent⟩, fun _ => by rw [found]; exact Option.some_ne_none _, ?_⟩, ?_⟩
          · simpa [TokenAccountState.plus] using small
          · rw [← TokenAccountState.plus_add]
            rfl
        · rintro ⟨⟨⟨ne, -⟩, -, small⟩, rfl⟩
          refine ⟨Ne.symm ne, _, ⟨?_, rfl⟩, ?_⟩
          · simpa [TokenAccountState.plus] using small
          · rw [← TokenAccountState.plus_add]
            rfl
    · rw [if_neg here, Finset.erase_insert_of_ne here,
        TokenAccountState.emptiedAt_insert_of_ne here]
      have sameMember : info.key ∈ keys.erase d ↔ info.key ∈ keys := by
        rw [Finset.mem_erase, and_iff_right here]
      have others : (d ∈ insert info.key keys → L.feeAccount? plainFees m d ≠ none) ↔
          (d ∈ keys → L.feeAccount? plainFees m d ≠ none) := by
        rw [Finset.mem_insert, or_iff_right (Ne.symm here)]
      have collected : CollectsFrom L plainFees m info.key keys (keys.erase d) _ :=
        collectsFrom_of_law (fun _ => harvestFromAccount_eq_ok_iff) sameMember
      generalize harvestFromAccount (L.emptied plainFees m (keys.erase d)) m info.key = result
        at collected ⊢
      rw [others]
      cases collected with
      | nothing none ledger total =>
        rw [ledger, total, Ledger.fitsWithheld_insert_of_none none]
        constructor
        · rintro ⟨ne, same⟩
          exact ⟨⟨⟨Ne.symm ne, absent⟩, there, fits⟩, (Except.ok.inj same).symm⟩
        · rintro ⟨⟨⟨ne, -⟩, -⟩, rfl⟩
          exact ⟨Ne.symm ne, rfl⟩
      | fees found total =>
        rw [Ledger.fitsWithheld_insert_of_some found, total, ← add_assoc]
        simp only [bind_eq_ok_iff, okOr_eq_ok_iff, checkedAdd_eq_some_iff, Except.ok.injEq]
        constructor
        · rintro ⟨ne, _, ⟨small, rfl⟩, rfl⟩
          refine ⟨⟨⟨Ne.symm ne, absent⟩, there, ?_⟩, ?_⟩
          · simpa [TokenAccountState.plus] using small
          · rw [TokenAccountState.plus_add]
        · rintro ⟨⟨⟨ne, -⟩, -, small⟩, rfl⟩
          refine ⟨Ne.symm ne, _, ⟨?_, rfl⟩, ?_⟩
          · simpa [TokenAccountState.plus] using small
          · rw [TokenAccountState.plus_add]

/-- **The loop of a confidential withdrawal**, with the destination and the total in memory. -/
theorem withdrawFromAccountConfidential_setLoop (held : L.account? d = some st)
    (mint : st.base.mint = m) :
    SetLoop (withdrawFromAccountConfidentialStep m d) AccountMeta.key
      (fun keys => (L.emptied encryptedFees m (keys.erase d), st.emptiedAt encryptedFees d keys,
        L.withheldTotal encryptedFees m keys))
      (fun keys => m ∉ keys ∧ (d ∈ keys → L.feeAccount? encryptedFees m d ≠ none)) where
  start := ⟨Finset.notMem_empty m, fun member => absurd member (Finset.notMem_empty d)⟩
  earlier keys k fits := ⟨fun member => fits.1 (Finset.mem_insert_of_mem member),
    fun member => fits.2 (Finset.mem_insert_of_mem member)⟩
  step keys info s fits := by
    obtain ⟨absent, there⟩ := fits
    rw [Finset.mem_insert, not_or]
    simp only [withdrawFromAccountConfidentialStep, bind_eq_ok_iff, require_eq_ok_iff, exists_const]
    by_cases here : info.key = d
    · subst here
      have destination := Ledger.feeAccount?_destination (w := encryptedFees) held mint
      have inMemory : (st.emptiedAt encryptedFees info.key keys).get .confidentialTransferFeeAmount =
          if info.key ∈ keys then some ⟨0⟩ else st.get .confidentialTransferFeeAmount :=
        TokenAccountState.get_emptiedAt
      rw [if_pos rfl, inMemory, Finset.erase_insert_eq_erase]
      cases carried : st.get .confidentialTransferFeeAmount with
      | none =>
        have nothing : L.feeAccount? encryptedFees m info.key = none :=
          destination.trans (congrArg (Option.map _) carried)
        have first : info.key ∉ keys := fun member => there member nothing
        rw [if_neg first]
        constructor
        · rintro ⟨-, _, ⟨⟩, -⟩
        · rintro ⟨⟨-, present⟩, -⟩
          exact absurd nothing (present (Finset.mem_insert_self ..))
      | some e =>
        have found : L.feeAccount? encryptedFees m info.key = some (st, e) :=
          destination.trans (congrArg (Option.map _) carried)
        have withheld :
            (if info.key ∈ keys then some (⟨0⟩ : ConfidentialTransferFeeAmount) else some e) =
              some (if info.key ∈ keys then ⟨0⟩ else e) := (apply_ite some ..).symm
        have amount :
            (if info.key ∈ keys then (⟨0⟩ : ConfidentialTransferFeeAmount) else e).withheldAmount =
              if info.key ∈ keys then 0 else encryptedFees.read e := apply_ite ..
        rw [withheld, Ledger.withheldTotal_insert_of_some found,
          TokenAccountState.emptiedAt_insert_self]
        simp only [bind_eq_ok_iff, okOr_eq_ok_iff, Option.some.injEq, CiphertextArithmetic.add,
          Except.ok.injEq, exists_eq_left', amount]
        constructor
        · rintro ⟨ne, rfl⟩
          exact ⟨⟨⟨Ne.symm ne, absent⟩, fun _ => by rw [found]; exact Option.some_ne_none _⟩, rfl⟩
        · rintro ⟨⟨⟨ne, -⟩, -⟩, rfl⟩
          exact ⟨Ne.symm ne, rfl⟩
    · rw [if_neg here, Finset.erase_insert_of_ne here,
        TokenAccountState.emptiedAt_insert_of_ne here]
      have sameMember : info.key ∈ keys.erase d ↔ info.key ∈ keys := by
        rw [Finset.mem_erase, and_iff_right here]
      have collected : CollectsFrom L encryptedFees m info.key keys (keys.erase d) _ :=
        collectsFrom_of_law (fun _ => harvestFromAccountConfidential_eq_ok_iff) sameMember
      generalize harvestFromAccountConfidential (L.emptied encryptedFees m (keys.erase d)) m
        info.key = result at collected ⊢
      rw [Finset.mem_insert, or_iff_right (Ne.symm here)]
      cases collected with
      | nothing none ledger total =>
        rw [ledger, total]
        constructor
        · rintro ⟨ne, same⟩
          exact ⟨⟨⟨Ne.symm ne, absent⟩, there⟩, (Except.ok.inj same).symm⟩
        · rintro ⟨⟨⟨ne, -⟩, -⟩, rfl⟩
          exact ⟨Ne.symm ne, rfl⟩
      | fees found total =>
        rw [total]
        simp only [bind_eq_ok_iff, okOr_eq_ok_iff, CiphertextArithmetic.add, Option.some.injEq,
          Except.ok.injEq, exists_eq_left']
        constructor
        · rintro ⟨ne, rfl⟩
          exact ⟨⟨⟨Ne.symm ne, absent⟩, there⟩, rfl⟩
        · rintro ⟨⟨⟨ne, -⟩, -⟩, rfl⟩
          exact ⟨Ne.symm ne, rfl⟩

/-! ### The instructions -/

/-- The addresses of a list of accounts, each once. -/
def listed (infos : List AccountMeta) : Finset Address := (infos.map AccountMeta.key).toFinset

/-- `account_infos[num_signers..]`, the token accounts of a withdrawal. -/
def sourcesOf (numTokenAccounts : ℕ) (infos : List AccountMeta) : List AccountMeta :=
  infos.drop (infos.length - numTokenAccounts)

/-- The accounts of a withdrawal with its token accounts replaced. -/
def withSources (numTokenAccounts : ℕ) (infos sources : List AccountMeta) : List AccountMeta :=
  infos.take (infos.length - numTokenAccounts) ++ sources

section Sources

variable {n : ℕ} {infos sources : List AccountMeta}

theorem length_withSources (perm : sources.Perm (sourcesOf n infos)) :
    (withSources n infos sources).length = infos.length := by
  rw [withSources, List.length_append, perm.length_eq, sourcesOf, ← List.length_append,
    List.take_append_drop]

/-- The signers are the same, and the token accounts are the new ones. -/
theorem signers_withSources (perm : sources.Perm (sourcesOf n infos)) :
    (withSources n infos sources).take ((withSources n infos sources).length - n) =
      infos.take (infos.length - n) ∧
    (withSources n infos sources).drop ((withSources n infos sources).length - n) = sources := by
  have long : (infos.take (infos.length - n)).length = infos.length - n := by
    rw [List.length_take, Nat.min_eq_left (Nat.sub_le ..)]
  rw [length_withSources perm, withSources]
  exact ⟨List.take_left' long, List.drop_left' long⟩

end Sources

namespace Ledger

/-- Only the data of an account is emptied. -/
theorem setData_emptied {data : AccountData} :
    ({ L.emptied w m keys a with data } : AccountInfo) = { L a with data } := by
  unfold emptied emptyAccount
  split
  · split <;> rfl
  · rfl

/-- What an emptied account holds is replaced. -/
theorem setData_emptied_erase {data : AccountData} :
    (L.emptied w m (keys.erase a)).setData a data = (L.emptied w m keys).setData a data := by
  funext b
  unfold setData
  by_cases here : b = a
  · rw [here, Function.update_self, Function.update_self, setData_emptied, setData_emptied]
  · rw [Function.update_of_ne here, Function.update_of_ne here]
    unfold emptied
    simp only [Finset.mem_erase, ne_eq, here, not_false_eq_true, true_and]

/-- The destination, where the accounts are emptied. -/
theorem data_emptied (held : L.account? d = some st)
    (there : d ∈ keys → L.feeAccount? w m d ≠ none) :
    (L.emptied w m keys d).data = .account (st.emptiedAt w d keys) := by
  unfold TokenAccountState.emptiedAt
  by_cases member : d ∈ keys
  · obtain ⟨found, some_⟩ := Option.ne_none_iff_exists'.mp (there member)
    obtain ⟨same, -⟩ := feeAccount?_eq_some_iff.mp some_
    rw [emptied, if_pos member, emptyAccount, some_, if_pos member,
      Option.some.inj (held.symm.trans same)]
  · rw [emptied, if_neg member, if_neg member]
    exact (account?_eq_some_iff.mp held).2

end Ledger

/-- The mint has more withheld fees. -/
inductive CreditsMint : AccountData → ℕ → AccountData → Prop
  | mint {mint : MintState} {config : TransferFeeConfig} {n : ℕ}
      (held : mint.get .transferFeeConfig = some config) :
      CreditsMint (.mint mint) n (.mint (mint.set .transferFeeConfig
        { config with withheldAmount := config.withheldAmount + n }))

/-- The mint has more withheld fees of confidential transfers. -/
inductive CreditsMintEncrypted : AccountData → Scalar → AccountData → Prop
  | mint {mint : MintState} {config : ConfidentialTransferFeeConfig} {n : Scalar}
      (held : mint.get .confidentialTransferFeeConfig = some config) :
      CreditsMintEncrypted (.mint mint) n (.mint (mint.set .confidentialTransferFeeConfig
        { config with withheldAmount := config.withheldAmount + n }))

/-- The account has more tokens. -/
inductive CreditsAmount : AccountData → ℕ → AccountData → Prop
  | account {st : TokenAccountState} {n : ℕ} : CreditsAmount (.account st) n (.account (st.plus n))

/-- The account has a larger available balance, which its owner can decrypt. -/
inductive CreditsAvailable (decryptable : AeCiphertext) : AccountData → Scalar → AccountData → Prop
  | account {st : TokenAccountState} {e : ConfidentialTransferAccount} {n : Scalar}
      (held : st.get .confidentialTransferAccount = some e) :
      CreditsAvailable decryptable (.account st) n (.account (st.set .confidentialTransferAccount
        { e with
          availableBalance := e.availableBalance + n
          decryptableAvailableBalance := decryptable }))

/-- **The collection from the sources is exact**: those that can be collected from withhold nothing,
what they withheld, each counted once, is credited to the target, all else is as it was, and it is so
for the sources in every order. -/
structure CollectsExactly (w : Withholding M) (L : Ledger) (m target : Address)
    (Credits : AccountData → M → AccountData → Prop)
    (run : List AccountMeta → ProgramResult Outcome) (sources : List AccountMeta)
    (outcome : Outcome) : Prop where
  credited : ∃ data,
    Credits (L.emptied w m (listed sources) target).data (L.withheldTotal w m (listed sources)) data ∧
      outcome.ledger = (L.emptied w m (listed sources)).setData target data
  permuted : ∀ sources', sources'.Perm sources → run sources' = .ok outcome

variable {env : Env} {outcome : Outcome} {accounts : List AccountMeta} {numTokenAccounts : ℕ}

/-- **A harvest** leaves nothing withheld in the accounts and their total with the mint, in any
order. -/
theorem processHarvestWithheldTokensToMint_exact
    (ok : processHarvestWithheldTokensToMint L accounts = .ok outcome) :
    ∃ mintInfo sources, accounts = mintInfo :: sources ∧
      CollectsExactly plainFees L mintInfo.key mintInfo.key CreditsMint
        (fun sources => processHarvestWithheldTokensToMint L (mintInfo :: sources)) sources
        outcome := by
  simp only [processHarvestWithheldTokensToMint, bind_eq_ok_iff, Prod.exists,
    nextAccountInfo_eq_ok_iff, checkProgramAccount_eq_ok_iff, unpackMint_eq_ok_iff,
    exists_const] at ok
  obtain ⟨mintInfo, sources, given, owned, mint, data, config, held, M, n, loop, last, stored,
    done⟩ := ok
  obtain rfl := Except.ok.inj done
  have carried := StateWithExtensions.getExtension_eq_ok_iff.mp held
  have loops := harvestToMint_setLoop (L := L) (m := mintInfo.key) config.withheldAmount
  have starts : (L, config.withheldAmount) = (L.emptied plainFees mintInfo.key ∅,
      config.withheldAmount + L.withheldTotal plainFees mintInfo.key ∅) := by
    rw [Ledger.emptied_empty, Ledger.withheldTotal_empty, add_zero]
  rw [starts] at loop
  obtain ⟨⟨absent, -⟩, ended⟩ := loops.foldlM_eq_ok_iff.mp loop
  obtain ⟨rfl, rfl⟩ := Prod.mk.inj ended
  refine ⟨mintInfo, sources, given, ⟨_, ?_, (Ledger.writeData_eq_ok_iff.mp stored).2⟩, ?_⟩
  · have same : L.emptied plainFees mintInfo.key (listed sources) mintInfo.key = L mintInfo.key :=
      if_neg absent
    rw [same, data]
    exact CreditsMint.mint carried
  · intro sources' perm
    simp only [processHarvestWithheldTokensToMint, bind_eq_ok_iff, Prod.exists,
      nextAccountInfo_eq_ok_iff, checkProgramAccount_eq_ok_iff, unpackMint_eq_ok_iff,
      exists_const]
    rw [← loops.foldlM_perm perm, ← starts] at loop
    exact ⟨mintInfo, sources', rfl, owned, mint, data, config, held, _, _, loop, last, stored, rfl⟩

/-- **A confidential harvest** leaves nothing withheld in the accounts and their total with the mint,
in any order. -/
theorem processHarvestWithheldTokensToMintConfidential_exact
    (ok : processHarvestWithheldTokensToMintConfidential L accounts = .ok outcome) :
    ∃ mintInfo sources, accounts = mintInfo :: sources ∧
      CollectsExactly encryptedFees L mintInfo.key mintInfo.key CreditsMintEncrypted
        (fun sources => processHarvestWithheldTokensToMintConfidential L (mintInfo :: sources))
        sources outcome := by
  simp only [processHarvestWithheldTokensToMintConfidential, bind_eq_ok_iff, Prod.exists,
    nextAccountInfo_eq_ok_iff, checkProgramAccount_eq_ok_iff, unpackMint_eq_ok_iff,
    require_eq_ok_iff, exists_const] at ok
  obtain ⟨mintInfo, sources, given, owned, mint, data, fees, extended, config, held, enabled, M, n,
    loop, last, stored, done⟩ := ok
  obtain rfl := Except.ok.inj done
  have carried := StateWithExtensions.getExtension_eq_ok_iff.mp held
  have loops := harvestToMintConfidential_setLoop (L := L) (m := mintInfo.key) config.withheldAmount
  have starts : (L, config.withheldAmount) = (L.emptied encryptedFees mintInfo.key ∅,
      config.withheldAmount + L.withheldTotal encryptedFees mintInfo.key ∅) := by
    rw [Ledger.emptied_empty, Ledger.withheldTotal_empty, add_zero]
  rw [starts] at loop
  obtain ⟨absent, ended⟩ := loops.foldlM_eq_ok_iff.mp loop
  obtain ⟨rfl, rfl⟩ := Prod.mk.inj ended
  refine ⟨mintInfo, sources, given, ⟨_, ?_, (Ledger.writeData_eq_ok_iff.mp stored).2⟩, ?_⟩
  · have same : L.emptied encryptedFees mintInfo.key (listed sources) mintInfo.key = L mintInfo.key :=
      if_neg absent
    rw [same, data]
    exact CreditsMintEncrypted.mint carried
  · intro sources' perm
    simp only [processHarvestWithheldTokensToMintConfidential, bind_eq_ok_iff, Prod.exists,
      nextAccountInfo_eq_ok_iff, checkProgramAccount_eq_ok_iff, unpackMint_eq_ok_iff,
      require_eq_ok_iff, exists_const]
    rw [← loops.foldlM_perm perm, ← starts] at loop
    exact ⟨mintInfo, sources', rfl, owned, mint, data, fees, extended, config, held, enabled, _, _,
      loop, last, stored, rfl⟩

/-- **A withdrawal from accounts** leaves nothing withheld in them and their total in the amount of the
destination, in any order. -/
theorem processWithdrawWithheldTokensFromAccounts_exact
    (ok : processWithdrawWithheldTokensFromAccounts L accounts numTokenAccounts = .ok outcome) :
    ∃ mintInfo info authority rest, accounts = mintInfo :: info :: authority :: rest ∧
      CollectsExactly plainFees L mintInfo.key info.key CreditsAmount
        (fun sources => processWithdrawWithheldTokensFromAccounts L
          (mintInfo :: info :: authority :: withSources numTokenAccounts rest sources)
          numTokenAccounts)
        (sourcesOf numTokenAccounts rest) outcome := by
  simp only [processWithdrawWithheldTokensFromAccounts, bind_eq_ok_iff, Prod.exists,
    nextAccountInfo_eq_ok_iff, checkProgramAccount_eq_ok_iff, unpackMint_eq_ok_iff,
    unpackAccount_eq_ok_iff, require_eq_ok_iff, exists_const] at ok
  obtain ⟨mintInfo, _, given, info, _, given', authority, rest, given'', owned', owned, mint, data',
    config, held, expected, named, _, valid, destination, data, sameMint, thawed, M, _, loop, last,
    stored, done⟩ := ok
  obtain rfl := Except.ok.inj done
  have before : L.account? info.key = some destination :=
    Ledger.account?_eq_some_iff.mpr ⟨owned, data⟩
  have loops := withdrawFromAccount_setLoop before sameMint
  have starts : (L, destination) =
      (L.emptied plainFees mintInfo.key ((∅ : Finset Address).erase info.key),
      (destination.emptiedAt plainFees info.key ∅).plus
        (L.withheldTotal plainFees mintInfo.key ∅)) := by
    rfl
  rw [starts] at loop
  obtain ⟨⟨-, there, -⟩, ended⟩ := loops.foldlM_eq_ok_iff.mp loop
  obtain ⟨rfl, rfl⟩ := Prod.mk.inj ended
  have ledger := (Ledger.writeData_eq_ok_iff.mp stored).2
  rw [Ledger.setData_emptied_erase] at ledger
  refine ⟨mintInfo, info, authority, rest, ?_, ⟨_, ?_, ledger⟩, ?_⟩
  · rw [given, given', given'']
  · have here : (L.emptied plainFees mintInfo.key (listed (sourcesOf numTokenAccounts rest))
        info.key).data = .account (destination.emptiedAt plainFees info.key
          (listed (sourcesOf numTokenAccounts rest))) :=
      Ledger.data_emptied before there
    rw [here]
    exact CreditsAmount.account
  · intro sources perm
    obtain ⟨sameSigners, sameSources⟩ := signers_withSources perm
    simp only [processWithdrawWithheldTokensFromAccounts, bind_eq_ok_iff, Prod.exists,
      nextAccountInfo_eq_ok_iff, checkProgramAccount_eq_ok_iff, unpackMint_eq_ok_iff,
      unpackAccount_eq_ok_iff, require_eq_ok_iff, exists_const]
    have again := (loops.foldlM_perm perm).mpr loop
    rw [← starts] at again
    exact ⟨mintInfo, _, rfl, info, _, rfl, authority, _, rfl, owned', owned, mint, data', config,
      held, expected, named, _, sameSigners.symm ▸ valid, destination, data, sameMint, thawed, _, _,
      sameSources.symm ▸ again, last, stored, rfl⟩

/-- **The proof account is taken off the list**, and what follows it does not matter. -/
theorem verifyAndExtractContext_frame {C : Type} {select : VerifiedContext → Option C}
    {infos rest : List AccountMeta} {offset : ℤ} {context : C}
    (ok : env.verifyAndExtractContext L select infos offset none = .ok (context, rest)) :
    ∃ info, infos = info :: rest ∧ ∀ rest',
      env.verifyAndExtractContext L select (info :: rest') offset none = .ok (context, rest') := by
  unfold Env.verifyAndExtractContext at ok ⊢
  split at ok
  · rename_i inAccount
    simp only [bind_eq_ok_iff, Prod.exists, nextAccountInfo_eq_ok_iff, require_eq_ok_iff,
      exists_const] at ok
    obtain ⟨info, _, rfl, owned, ok⟩ := ok
    split at ok
    · rename_i held data
      simp only [bind_eq_ok_iff, okOr_eq_ok_iff, Except.ok.injEq, Prod.mk.injEq] at ok
      obtain ⟨_, selected, rfl, rfl⟩ := ok
      refine ⟨info, rfl, fun rest' => ?_⟩
      rw [if_pos inAccount]
      refine bind_eq_ok_iff.mpr ⟨(info, rest'), rfl, ?_⟩
      simp only [bind_eq_ok_iff, require_eq_ok_iff, exists_const, data, okOr_eq_ok_iff]
      exact ⟨owned, _, selected, rfl⟩
    · cases ok
  · rename_i inInstruction
    simp only [bind_eq_ok_iff, Prod.exists, nextAccountInfo_eq_ok_iff, require_eq_ok_iff,
      exists_const, okOr_eq_ok_iff, Except.ok.injEq, Prod.mk.injEq] at ok
    obtain ⟨info, _, rfl, sysvar, held, here, _, selected, rfl, rfl⟩ := ok
    refine ⟨info, rfl, fun rest' => ?_⟩
    rw [if_neg inInstruction]
    refine bind_eq_ok_iff.mpr ⟨(info, rest'), rfl, ?_⟩
    simp only [bind_eq_ok_iff, require_eq_ok_iff, exists_const, okOr_eq_ok_iff]
    exact ⟨sysvar, held, here, _, selected, rfl⟩

/-- **A confidential withdrawal from accounts** leaves nothing withheld in them and their total in the
available balance of the destination, in any order. -/
theorem processWithdrawWithheldTokensFromAccountsConfidential_exact {decryptable : AeCiphertext}
    {offset : ℤ} (ok : processWithdrawWithheldTokensFromAccountsConfidential env L accounts
      numTokenAccounts decryptable offset = .ok outcome) :
    ∃ mintInfo info proofInfo authority rest,
      accounts = mintInfo :: info :: proofInfo :: authority :: rest ∧
      CollectsExactly encryptedFees L mintInfo.key info.key (CreditsAvailable decryptable)
        (fun sources => processWithdrawWithheldTokensFromAccountsConfidential env L
          (mintInfo :: info :: proofInfo :: authority ::
            withSources numTokenAccounts rest sources) numTokenAccounts decryptable offset)
        (sourcesOf numTokenAccounts rest) outcome := by
  simp only [processWithdrawWithheldTokensFromAccountsConfidential, bind_eq_ok_iff, Prod.exists,
    nextAccountInfo_eq_ok_iff, checkProgramAccount_eq_ok_iff, unpackMint_eq_ok_iff,
    unpackAccount_eq_ok_iff, require_eq_ok_iff, exists_const] at ok
  obtain ⟨mintInfo, _, given, info, _, given', context, _, proof, authority, rest, given'', owned',
    mint, data', fees, feesHeld, expected, named, _, valid, owned, destination, data, sameMint, thawed,
    extension, held, _, open_, config, configHeld, first, second, M, _, _, loop, aggregate, extension',
    held', credited, credit, last, stored, done⟩ := ok
  obtain rfl := Except.ok.inj done
  obtain ⟨proofInfo, rfl, frame⟩ := verifyAndExtractContext_frame proof
  have before : L.account? info.key = some destination :=
    Ledger.account?_eq_some_iff.mpr ⟨owned, data⟩
  have loops := withdrawFromAccountConfidential_setLoop before sameMint
  have starts : (L, destination, 0) =
      (L.emptied encryptedFees mintInfo.key ((∅ : Finset Address).erase info.key),
        destination.emptiedAt encryptedFees info.key ∅,
        L.withheldTotal encryptedFees mintInfo.key ∅) := by
    rfl
  rw [starts] at loop
  obtain ⟨⟨-, there⟩, ended⟩ := loops.foldlM_eq_ok_iff.mp loop
  obtain ⟨rfl, ended'⟩ := Prod.mk.inj ended
  obtain ⟨rfl, rfl⟩ := Prod.mk.inj ended'
  have total : credited = { extension' with
      availableBalance := extension'.availableBalance +
        L.withheldTotal encryptedFees mintInfo.key (listed (sourcesOf numTokenAccounts rest))
      decryptableAvailableBalance := decryptable } := by
    simp only [ConfidentialTransferAccount.creditWithheld, bind_eq_ok_iff, okOr_eq_ok_iff,
      CiphertextArithmetic.add, Option.some.injEq, Except.ok.injEq] at credit
    obtain ⟨_, rfl, rfl⟩ := credit
    rw [← context.holds, aggregate]
    rfl
  subst total
  have carried := StateWithExtensions.getExtension_eq_ok_iff.mp held'
  have ledger := (Ledger.writeData_eq_ok_iff.mp stored).2
  rw [Ledger.setData_emptied_erase] at ledger
  refine ⟨mintInfo, info, proofInfo, authority, rest, ?_, ⟨_, ?_, ledger⟩, ?_⟩
  · rw [given, given', given'']
  · have here : (L.emptied encryptedFees mintInfo.key (listed (sourcesOf numTokenAccounts rest))
        info.key).data = .account (destination.emptiedAt encryptedFees info.key
          (listed (sourcesOf numTokenAccounts rest))) :=
      Ledger.data_emptied before there
    rw [here]
    exact CreditsAvailable.account carried
  · intro sources perm
    obtain ⟨sameSigners, sameSources⟩ := signers_withSources perm
    simp only [processWithdrawWithheldTokensFromAccountsConfidential, bind_eq_ok_iff, Prod.exists,
      nextAccountInfo_eq_ok_iff, checkProgramAccount_eq_ok_iff, unpackMint_eq_ok_iff,
      unpackAccount_eq_ok_iff, require_eq_ok_iff, exists_const]
    have again := (loops.foldlM_perm perm).mpr loop
    rw [← starts] at again
    exact ⟨mintInfo, _, rfl, info, _, rfl, context, _, frame _, authority, _, rfl, owned', mint, data',
      fees, feesHeld, expected, named, _, sameSigners.symm ▸ valid, owned, destination, data, sameMint,
      thawed, extension, held, _, open_, config, configHeld, first, second, _, _, _,
      sameSources.symm ▸ again, aggregate, extension', held', _, credit, last, stored, rfl⟩

/-- **Harvesting and withdrawing withheld fees is exact**, for every list of accounts, which may hold
an account twice, foreign accounts and the destination: the credit is the sum of what the distinct
accounts of the mint withheld, they withhold nothing afterwards, nothing else changes, and the order of
the accounts does not matter. -/
theorem collecting_exact (env : Env) (L : Ledger) (accounts : List AccountMeta) (outcome : Outcome) :
    (processHarvestWithheldTokensToMint L accounts = .ok outcome →
      ∃ mintInfo sources, accounts = mintInfo :: sources ∧
        CollectsExactly plainFees L mintInfo.key mintInfo.key CreditsMint
          (fun sources => processHarvestWithheldTokensToMint L (mintInfo :: sources)) sources
          outcome) ∧
    (∀ n, processWithdrawWithheldTokensFromAccounts L accounts n = .ok outcome →
      ∃ mintInfo info authority rest, accounts = mintInfo :: info :: authority :: rest ∧
        CollectsExactly plainFees L mintInfo.key info.key CreditsAmount
          (fun sources => processWithdrawWithheldTokensFromAccounts L
            (mintInfo :: info :: authority :: withSources n rest sources) n)
          (sourcesOf n rest) outcome) ∧
    (processHarvestWithheldTokensToMintConfidential L accounts = .ok outcome →
      ∃ mintInfo sources, accounts = mintInfo :: sources ∧
        CollectsExactly encryptedFees L mintInfo.key mintInfo.key CreditsMintEncrypted
          (fun sources => processHarvestWithheldTokensToMintConfidential L (mintInfo :: sources))
          sources outcome) ∧
    ∀ n decryptable offset,
      processWithdrawWithheldTokensFromAccountsConfidential env L accounts n decryptable offset =
        .ok outcome →
      ∃ mintInfo info proofInfo authority rest,
        accounts = mintInfo :: info :: proofInfo :: authority :: rest ∧
        CollectsExactly encryptedFees L mintInfo.key info.key (CreditsAvailable decryptable)
          (fun sources => processWithdrawWithheldTokensFromAccountsConfidential env L
            (mintInfo :: info :: proofInfo :: authority :: withSources n rest sources) n decryptable
            offset)
          (sourcesOf n rest) outcome :=
  ⟨processHarvestWithheldTokensToMint_exact,
    fun _ => processWithdrawWithheldTokensFromAccounts_exact,
    processHarvestWithheldTokensToMintConfidential_exact,
    fun _ _ _ => processWithdrawWithheldTokensFromAccountsConfidential_exact⟩

section Examples

open Basic AccountMeta

/-- The destination of a withdrawal stands twice among the accounts, between a foreign one and one with
no fees: what it withheld is credited once. -/
theorem collecting_exact_example : ∃ L outcome, runAll .fresh feeTurns = .ok L ∧
    L.withheldTotal plainFees mint {destination, owner, source} = 5 ∧
    CollectsExactly plainFees L mint destination CreditsAmount
      (fun sources => processWithdrawWithheldTokensFromAccounts L
        (plain mint :: plain destination :: signer owner ::
          withSources 4 [plain destination, plain owner, plain destination, plain source] sources) 4)
      [plain destination, plain owner, plain destination, plain source] outcome := by
  have leads : LeadsTo (runAll .fresh feeTurns) fun L =>
      LeadsTo (processWithdrawWithheldTokensFromAccounts L [plain mint, plain destination,
        signer owner, plain destination, plain owner, plain destination, plain source] 4) fun _ =>
          L.withheldTotal plainFees mint {destination, owner, source} = 5 := by
    decide +kernel
  obtain ⟨L, ran, leads⟩ := leads.exists
  obtain ⟨outcome, ok, total⟩ := leads.exists
  obtain ⟨_, _, _, _, same, collected⟩ := (collecting_exact .basic L _ outcome).2.1 4 ok
  cases same
  exact ⟨L, outcome, ran, total, collected⟩

end Examples

end Token2022
