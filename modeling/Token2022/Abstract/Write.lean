/-
**The writes of an instruction, one after the other.**

An instruction acts on the ledger by a chain of writes: each changes the data of one account, moves
lamports, lets another program run, or ends an account.

* `Write`, **`Writes`** — one write, and a chain of them.
* `Writes.ofChanges`, `Writes.ofWriteData` — a chain from what is written to one account.
* `Credits`, `CreditsOf` — a chain with a credit of a pending balance in it.
* `Configures` — a chain that comes by an account without the confidential extension.
* **`Writes.data_invariant`**, **`Writes.follow`** — the invariant rules: for all data of the
  program, and for the data of one account that stays open.
-/

import Mathlib.Logic.Relation
import Token2022.Abstract.Change
import Token2022.Abstract.Reading

namespace Token2022

open Fallible Relation

/-- **One write** of an instruction that found the ledger `start` and validated the keys. -/
inductive Write (i : Invocation) (start : Ledger) (validated : List Address) :
    Ledger → Ledger → Prop
  | data {L : Ledger} {a : Address} {new : AccountData} (owned : (L a).owner = programId)
      (change : Change i start validated a (L a).data new) :
      Write i start validated L (L.setData a new)
  | lamports {L L' : Ledger} (owner : ∀ a, (L' a).owner = (L a).owner)
      (data : ∀ a, (L' a).data = (L a).data) : Write i start validated L L'
  /-- Another program that the instruction calls. -/
  | external {L L' : Ledger} (ext : External L L') : Write i start validated L L'
  | allocateNativeMint {L : Ledger} (named : i.instruction = .createNativeMint)
      (foreign : (L nativeMintId).owner ≠ programId) :
      Write i start validated L (Function.update L nativeMintId { L nativeMintId with
        owner := programId
        data := .zeroed ⟨[], AccountType.mint.baseLen⟩ })
  | close {L : Ledger} {a : Address} (named : i.instruction = .closeAccount)
      (target : i.key? 0 = some a) : Write i start validated L (deleteAccount L a)

/-- **A chain of writes.** -/
abbrev Writes (i : Invocation) (start : Ledger) (validated : List Address) :
    Ledger → Ledger → Prop := ReflTransGen (Write i start validated)

/-- A chain of changes of the data of one account. -/
abbrev Changes (i : Invocation) (start : Ledger) (validated : List Address) (a : Address) :
    AccountData → AccountData → Prop := ReflTransGen (Change i start validated a)

variable {i : Invocation} {start L L' : Ledger} {validated : List Address} {a : Address}

/-! ### Ledgers after a write -/

namespace Ledger

@[simp] theorem setData_setData (L : Ledger) (a : Address) (data data' : AccountData) :
    (L.setData a data).setData a data' = L.setData a data' := by
  simp [setData]

theorem setData_same (L : Ledger) (a : Address) : L.setData a (L a).data = L := by
  simp [setData]

end Ledger

/-! ### Chains -/

/-- **Changes of one account's data are writes.** -/
theorem Writes.ofChanges {new : AccountData} (owned : (L a).owner = programId)
    (changes : Changes i start validated a (L a).data new) :
    Writes i start validated L (L.setData a new) := by
  induction changes with
  | refl => rw [Ledger.setData_same]
  | @tail mid new _ change ih =>
    have one : Write i start validated (L.setData a mid) ((L.setData a mid).setData a new) := by
      refine .data (by rw [Ledger.owner_setData, owned]) ?_
      rwa [Ledger.data_setData_self]
    rw [Ledger.setData_setData] at one
    exact ih.tail one

/-- **Data that is written by a chain of changes is written by a chain of writes.** -/
theorem Writes.ofWriteData {old new : AccountData} (owned : (L a).owner = programId)
    (data : (L a).data = old) (changes : Changes i start validated a old new)
    (stored : L.writeData a new = .ok L') : Writes i start validated L L' := by
  obtain ⟨-, rfl⟩ := Ledger.writeData_eq_ok_iff.mp stored
  subst data
  exact .ofChanges owned changes

/-- A single change of data that is written. -/
theorem Writes.ofChange {old new : AccountData} (owned : (L a).owner = programId)
    (data : (L a).data = old) (change : Change i start validated a old new)
    (stored : L.writeData a new = .ok L') : Writes i start validated L L' :=
  .ofWriteData owned data (.single change) stored

theorem Writes.ofExternal (ext : External L L') : Writes i start validated L L' :=
  .single (.external ext)

/-- Lamports move, owners and data stay. -/
theorem moveLamports_kept {s d : Address} {n : ℕ} (moved : moveLamports L s d n = .ok L') (b : Address) :
    (L' b).owner = (L b).owner ∧ (L' b).data = (L b).data := by
  obtain ⟨mid, debited, credited⟩ := bind_eq_ok_iff.mp moved
  obtain ⟨-, -, rfl⟩ := Ledger.debit_eq_ok_iff.mp debited
  obtain ⟨-, rfl⟩ := Ledger.credit_eq_ok_iff.mp credited
  constructor
  · rw [Ledger.owner_setLamports, Ledger.owner_setLamports]
  · rw [Ledger.data_setLamports, Ledger.data_setLamports]

theorem Writes.ofMoveLamports {s d : Address} {n : ℕ} (moved : moveLamports L s d n = .ok L') :
    Writes i start validated L L' :=
  .single (.lamports (fun b => (moveLamports_kept moved b).1) fun b => (moveLamports_kept moved b).2)

/-! ### Credits -/

/-- **The credit of a pending balance**, between the other writes of the instruction. -/
def Credits (i : Invocation) (start : Ledger) (validated : List Address) (a : Address)
    (L L' : Ledger) : Prop :=
  ∃ mid : Ledger, ∃ st : TokenAccountState, ∃ e : ConfidentialTransferAccount, ∃ lo hi : Scalar,
    Writes i start validated L mid ∧ (mid a).owner = programId ∧ (mid a).data = .account st ∧
    st.get .confidentialTransferAccount = some e ∧
    e.pendingBalanceCreditCounter + 1 ≤ e.maximumPendingBalanceCreditCounter ∧
    Writes i start validated
      (mid.setData a (.account (st.set .confidentialTransferAccount (e.credited lo hi)))) L'

/-- There is room for one more credit, and for its number. -/
structure ConfidentialTransferAccount.HasRoom (e : ConfidentialTransferAccount) : Prop where
  bounded : e.pendingBalanceCreditCounter + 1 ≤ e.maximumPendingBalanceCreditCounter
  fits : e.pendingBalanceCreditCounter + 1 < 2 ^ 64

/-- **One credit, of which the extension and the two amounts are known.** -/
def CreditsOf (i : Invocation) (start : Ledger) (validated : List Address) (a : Address)
    (e : ConfidentialTransferAccount) (lo hi : Scalar) (L L' : Ledger) : Prop :=
  ∃ mid : Ledger, ∃ st : TokenAccountState,
    Writes i start validated L mid ∧ (mid a).owner = programId ∧ (mid a).data = .account st ∧
    st.get .confidentialTransferAccount = some e ∧ e.HasRoom ∧ Writes i start validated
      (mid.setData a (.account (st.set .confidentialTransferAccount (e.credited lo hi)))) L'

section Credits

variable {e : ConfidentialTransferAccount} {lo hi : Scalar}

theorem CreditsOf.credits (credits : CreditsOf i start validated a e lo hi L L') :
    Credits i start validated a L L' := by
  obtain ⟨mid, st, before, owned, data, held, room, after⟩ := credits
  exact ⟨mid, st, e, lo, hi, before, owned, data, held, room.bounded, after⟩

/-- A chain with a credit in it is a chain of writes. -/
theorem Credits.writes (named : i.creditsPending? = some a)
    (credits : Credits i start validated a L L') : Writes i start validated L L' := by
  obtain ⟨mid, st, e, lo, hi, before, owned, data, held, room, after⟩ := credits
  refine (before.tail (.data owned ?_)).trans after
  rw [data]
  exact .accountUpdate held (.creditPending named room)

theorem CreditsOf.before {M : Ledger} (first : Writes i start validated L M)
    (credits : CreditsOf i start validated a e lo hi M L') :
    CreditsOf i start validated a e lo hi L L' := by
  obtain ⟨mid, st, before, rest⟩ := credits
  exact ⟨mid, st, first.trans before, rest⟩

theorem CreditsOf.after {M : Ledger} (credits : CreditsOf i start validated a e lo hi L M)
    (last : Writes i start validated M L') : CreditsOf i start validated a e lo hi L L' := by
  obtain ⟨mid, st, before, owned, data, held, room, after⟩ := credits
  exact ⟨mid, st, before, owned, data, held, room, after.trans last⟩

/-- **Data that is written with a credit among its changes.** -/
theorem CreditsOf.ofWriteData {old new : AccountData} {st : TokenAccountState}
    (owned : (L a).owner = programId)
    (data : (L a).data = old) (before : Changes i start validated a old (.account st))
    (held : st.get .confidentialTransferAccount = some e) (room : e.HasRoom)
    (after : Changes i start validated a
      (.account (st.set .confidentialTransferAccount (e.credited lo hi))) new)
    (stored : L.writeData a new = .ok L') : CreditsOf i start validated a e lo hi L L' := by
  obtain ⟨-, rfl⟩ := Ledger.writeData_eq_ok_iff.mp stored
  subst data
  refine ⟨L.setData a (.account st), st, .ofChanges owned before, ?_,
    Ledger.data_setData_self .., held, room, ?_⟩
  · rw [Ledger.owner_setData, owned]
  · rw [Ledger.setData_setData, ← Ledger.setData_setData L a _ new]
    refine .ofChanges ?_ ?_
    · rw [Ledger.owner_setData, owned]
    · rwa [Ledger.data_setData_self]

end Credits

/-! ### Configurations -/

/-- **A configuration**: where the extension is opened, there is none yet. -/
def Configures (i : Invocation) (start : Ledger) (validated : List Address) (a : Address)
    (L L' : Ledger) : Prop :=
  ∃ mid : Ledger, ∃ st : TokenAccountState,
    Writes i start validated L mid ∧ (mid a).data = .account st ∧
    st.get .confidentialTransferAccount = none ∧ Writes i start validated mid L'

theorem Configures.writes (configures : Configures i start validated a L L') :
    Writes i start validated L L' := by
  obtain ⟨mid, st, before, -, -, after⟩ := configures
  exact before.trans after

/-! ### The invariant rules -/

/-- The rest of the world keeps what holds of the program's data, and of new data. -/
theorem External.data_invariant {P : Address → AccountData → Prop}
    (fresh : ∀ a len, P a (.zeroed ⟨[], len⟩)) (ext : External L L')
    (init : ∀ a, (L a).owner = programId → P a (L a).data) (a : Address)
    (owned : (L' a).owner = programId) : P a (L' a).data := by
  by_cases before : (L a).owner = programId
  · rw [(ext.kept a before).2.1]
    exact init a before
  · obtain ⟨len, data⟩ := ext.handed a before owned
    rw [data]
    exact fresh a len

/-- **The invariant rule for the data of all accounts of the program.** -/
theorem Writes.data_invariant {P : Address → AccountData → Prop}
    (fresh : ∀ a len, P a (.zeroed ⟨[], len⟩))
    (keep : ∀ a old new, P a old → Change i start validated a old new → P a new)
    (writes : Writes i start validated L L')
    (init : ∀ a, (L a).owner = programId → P a (L a).data) :
    ∀ a, (L' a).owner = programId → P a (L' a).data := by
  induction writes with
  | refl => exact init
  | @tail M N _ one ih =>
    intro a owned
    cases one with
    | @data b new owned' change =>
      rw [Ledger.owner_setData] at owned
      by_cases here : a = b
      · subst here
        rw [Ledger.data_setData_self]
        exact keep a _ _ (ih a owned) change
      · rw [Ledger.data_setData_of_ne _ here]
        exact ih a owned
    | lamports owner data =>
      rw [data]
      exact ih a (owner a ▸ owned)
    | external ext => exact ext.data_invariant fresh ih a owned
    | allocateNativeMint named foreign =>
      by_cases here : a = nativeMintId
      · subst here
        rw [Function.update_self]
        exact fresh _ _
      · rw [Function.update_of_ne here] at owned ⊢
        exact ih a owned
    | @close b named target =>
      by_cases here : a = b
      · subst here
        rw [deleteAccount, Function.update_self] at owned
        exact absurd owned (by decide)
      · rw [deleteAccount, Function.update_of_ne here] at owned ⊢
        exact ih a owned

/-- The invocation closes the account. -/
def Invocation.closes (i : Invocation) (a : Address) : Prop :=
  i.instruction = .closeAccount ∧ i.key? 0 = some a

instance (i : Invocation) (a : Address) : Decidable (i.closes a) :=
  inferInstanceAs (Decidable (_ ∧ _))

/-- **The invariant rule for the data of one account** that no instruction closes. -/
theorem Writes.follow {R : AccountData → Prop} (stays : ¬ i.closes a)
    (keep : ∀ old new, R old → Change i start validated a old new → R new)
    (writes : Writes i start validated L L') (init : (L a).owner = programId ∧ R (L a).data) :
    (L' a).owner = programId ∧ R (L' a).data := by
  induction writes with
  | refl => exact init
  | @tail M N _ one ih =>
    obtain ⟨owned, holds⟩ := ih
    cases one with
    | @data b new owned' change =>
      rw [Ledger.owner_setData]
      refine ⟨owned, ?_⟩
      by_cases here : a = b
      · subst here
        rw [Ledger.data_setData_self]
        exact keep _ _ holds change
      · rwa [Ledger.data_setData_of_ne _ here]
    | lamports owner data =>
      rw [owner, data]
      exact ⟨owned, holds⟩
    | external ext =>
      obtain ⟨owned', data, -⟩ := ext.kept a owned
      rw [data]
      exact ⟨owned', holds⟩
    | allocateNativeMint named foreign =>
      have elsewhere : a ≠ nativeMintId := fun here => foreign (here ▸ owned)
      rw [Function.update_of_ne elsewhere]
      exact ⟨owned, holds⟩
    | @close b named target =>
      have elsewhere : a ≠ b := fun here => stays ⟨named, here ▸ target⟩
      rw [deleteAccount, Function.update_of_ne elsewhere]
      exact ⟨owned, holds⟩

end Token2022
