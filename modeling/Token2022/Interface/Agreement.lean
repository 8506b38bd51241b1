/-
**The readers through `Pack` and through Pods agree.**

What `Pack` accepts has canonical tags and flags, so the Pod of the same bytes shows the same fields
and is initialized too; the extensions behind the base go through the same checks.

* `Compatible` — a packed base state and a Pod of the same layout.
* **`compatible_mint`**, **`compatible_account`** — the two base states of the program.
* `ReadersAgree` — what the readers of two compatible base states have in common.
* **`pack_pod_agree`** — they agree on every byte string.
-/

import Token2022.Interface.Readers

namespace Token2022.Interface

open Fallible

/-- **A packed base state and a Pod of the same layout.** -/
structure Compatible {S T : Type} (P : PackBase S) (Q : PodBase T) (agrees : T → S → Prop) :
    Prop where
  kind : Q.kind = P.kind
  fields : ∀ {bytes state}, P.unpackFromSlice bytes = .ok state → agrees (Q.ofBytes bytes) state
  initialized : ∀ {bytes state}, P.unpackFromSlice bytes = .ok state →
    P.isInitialized state = true → Q.isInitialized (Q.ofBytes bytes) = true
  written : ∀ {bytes state}, bytes.length = P.kind.baseLen → P.unpackFromSlice bytes = .ok state →
    P.packIntoSlice state bytes = bytes

/-- **The mint and its Pod.** -/
theorem compatible_mint (crates : Crates) :
    Compatible packMint (podMint crates) (PodMint.Agrees crates) where
  kind := rfl
  fields read := PodMint.agrees crates read
  initialized read initialized := (PodMint.agrees crates read).isInitialized.trans initialized
  written length read := Mint.packIntoSlice_unpackFromSlice length read

/-- **The account and its Pod.** -/
theorem compatible_account : Compatible packAccount podAccount PodAccount.Agrees where
  kind := rfl
  fields read := PodAccount.agrees read
  initialized {bytes state} read initialized := by
    have byte := (PodAccount.agrees read).state
    have known : state.state ≠ .uninitialized := by simpa [packAccount] using initialized
    show PodAccount.isInitialized (PodAccount.ofBytes bytes) = true
    unfold PodAccount.isInitialized
    rw [byte]
    cases held : state.state with
    | uninitialized => exact absurd held known
    | initialized => rfl
    | frozen => rfl
  written length read := Account.packIntoSlice_unpackFromSlice length read

section Readers

variable {S T : Type} {crates : Crates} {P : PackBase S} {Q : PodBase T} {agrees : T → S → Prop}

/-- The owning reader reads what the other one does. -/
theorem unpackOwned_eq (input : List UInt8) :
    StateWithExtensionsOwned.unpack crates P input = StateWithExtensions.unpack crates P input := by
  unfold StateWithExtensionsOwned.unpack StateWithExtensions.unpack unpackTlvData
  congr 1
  funext _
  dsimp only
  congr 1
  funext base
  rw [bind_assoc]
  congr 1
  funext indices
  cases indices with
  | none => rfl
  | some pair =>
    rw [bind_assoc]
    show (accountTypeOfByte _ >>= _) = _
    congr 1
    funext accountType
    rw [bind_assoc]
    rfl

theorem checkMinLen_eq_ok_iff {input : List UInt8} {minimumLen : ℕ} {u : Unit} :
    checkMinLenAndNotMultisig input minimumLen = .ok u ↔
      input.length ≠ multisigLen ∧ minimumLen ≤ input.length := by
  unfold checkMinLenAndNotMultisig
  split
  · rename_i refused
    simp only [reduceCtorEq, false_iff, not_and]
    omega
  · rename_i accepted
    simp only [true_iff]
    omega

/-- What the reader through `Pack` accepts. -/
theorem StateWithExtensions.unpack_eq_ok_iff {input : List UInt8} {st : StateWithExtensions S} :
    StateWithExtensions.unpack crates P input = .ok st ↔
      (input.length ≠ multisigLen ∧ P.kind.baseLen ≤ input.length) ∧
        (P.unpackFromSlice (input.take P.kind.baseLen) = .ok st.base ∧
          P.isInitialized st.base = true) ∧
        unpackTlvData P.kind (input.drop P.kind.baseLen) = .ok st.tlvData := by
  simp only [StateWithExtensions.unpack, bind_eq_ok_iff, checkMinLen_eq_ok_iff, exists_const,
    crates.unpack_eq_ok_iff, List.length_take, Except.ok.injEq]
  constructor
  · rintro ⟨length, base, ⟨-, read, initialized⟩, tlvData, tail, rfl⟩
    exact ⟨length, ⟨read, initialized⟩, tail⟩
  · rintro ⟨length, ⟨read, initialized⟩, tail⟩
    exact ⟨length, st.base, ⟨by omega, read, initialized⟩, st.tlvData, tail, rfl⟩

/-- What the reader through Pods accepts. -/
theorem PodStateWithExtensions.unpack_eq_ok_iff {input : List UInt8}
    {st : StateWithExtensions T} :
    PodStateWithExtensions.unpack Q input = .ok st ↔
      (input.length ≠ multisigLen ∧ Q.kind.baseLen ≤ input.length) ∧
        (Q.ofBytes (input.take Q.kind.baseLen) = st.base ∧ Q.isInitialized st.base = true) ∧
        unpackTlvData Q.kind (input.drop Q.kind.baseLen) = .ok st.tlvData := by
  simp only [PodStateWithExtensions.unpack, bind_eq_ok_iff, checkMinLen_eq_ok_iff, exists_const]
  constructor
  · rintro ⟨length, ok⟩
    split at ok
    · rename_i initialized
      obtain ⟨tlvData, tail, same⟩ := bind_eq_ok_iff.mp ok
      obtain rfl := Except.ok.inj same
      exact ⟨length, ⟨rfl, initialized⟩, tail⟩
    · cases ok
  · rintro ⟨length, ⟨read, initialized⟩, tail⟩
    refine ⟨length, ?_⟩
    rw [read, if_pos initialized, tail]
    rfl

/-- **What `Pack` accepts, the Pod reader accepts**, with the same fields and extensions. -/
theorem Compatible.unpack (compatible : Compatible P Q agrees) {input : List UInt8}
    {st : StateWithExtensions S} (ok : StateWithExtensions.unpack crates P input = .ok st) :
    ∃ pod, PodStateWithExtensions.unpack Q input = .ok pod ∧ agrees pod.base st.base ∧
      pod.tlvData = st.tlvData := by
  obtain ⟨length, ⟨read, initialized⟩, tail⟩ := StateWithExtensions.unpack_eq_ok_iff.mp ok
  refine ⟨⟨Q.ofBytes (input.take Q.kind.baseLen), st.tlvData⟩,
    PodStateWithExtensions.unpack_eq_ok_iff.mpr ?_, ?_, rfl⟩
  · rw [compatible.kind]
    exact ⟨length, ⟨rfl, compatible.initialized read initialized⟩, tail⟩
  · rw [compatible.kind]
    exact compatible.fields read

/-- **The base that was read is packed to the bytes that it was read from.** -/
theorem Compatible.repack (compatible : Compatible P Q agrees) {input : List UInt8}
    {st : StateWithExtensions S} (ok : StateWithExtensions.unpack crates P input = .ok st) :
    P.packIntoSlice st.base (input.take P.kind.baseLen) ++ input.drop P.kind.baseLen = input := by
  obtain ⟨⟨-, long⟩, ⟨read, -⟩, -⟩ := StateWithExtensions.unpack_eq_ok_iff.mp ok
  rw [compatible.written (List.length_take_of_le long) read, List.take_append_drop]

end Readers

/-! ### On every byte string -/

/-- **The readers of two layouts agree**: what `Pack` reads, the Pod reader reads, with equal fields
and extensions; and the base, packed over its bytes, is read by both as it was. -/
def ReadersAgree {S T : Type} (crates : Crates) (P : PackBase S) (Q : PodBase T)
    (agrees : T → S → Prop) : Prop :=
  ∀ bytes st, (StateWithExtensions.unpack crates P bytes = .ok st ∨
      StateWithExtensionsOwned.unpack crates P bytes = .ok st) →
    (∃ pod, PodStateWithExtensions.unpack Q bytes = .ok pod ∧ agrees pod.base st.base ∧
      pod.tlvData = st.tlvData ∧
      ∀ t, getExtensionBytes Q.kind t pod.tlvData = getExtensionBytes P.kind t st.tlvData) ∧
    let repacked :=
      P.packIntoSlice st.base (bytes.take P.kind.baseLen) ++ bytes.drop P.kind.baseLen
    StateWithExtensions.unpack crates P repacked = .ok st ∧
      StateWithExtensionsOwned.unpack crates P repacked = .ok st ∧
      ∃ pod, PodStateWithExtensions.unpack Q repacked = .ok pod ∧ agrees pod.base st.base

theorem Compatible.readersAgree {S T : Type} {crates : Crates} {P : PackBase S} {Q : PodBase T}
    {agrees : T → S → Prop} (compatible : Compatible P Q agrees) :
    ReadersAgree crates P Q agrees := by
  intro bytes st read
  have ok : StateWithExtensions.unpack crates P bytes = .ok st := by
    rcases read with ok | owned
    · exact ok
    · rwa [unpackOwned_eq] at owned
  obtain ⟨pod, podOk, fields, tail⟩ := compatible.unpack ok
  refine ⟨⟨pod, podOk, fields, tail, fun t => by rw [tail, compatible.kind]⟩, ?_⟩
  rw [compatible.repack ok]
  exact ⟨ok, (unpackOwned_eq bytes).trans ok, pod, podOk, fields⟩

/-- **The readers through `Pack` and through Pods agree**, for mints and for accounts. -/
theorem pack_pod_agree (crates : Crates) :
    ReadersAgree crates packMint (podMint crates) (PodMint.Agrees crates) ∧
      ReadersAgree crates packAccount podAccount PodAccount.Agrees :=
  ⟨(compatible_mint crates).readersAgree, compatible_account.readersAgree⟩

/-! ### A mint -/

/-- The crates, as far as the readers use them. -/
def Crates.basic : Crates where
  unpack len fromSlice isInitialized bytes := do
    require (bytes.length = len) .invalidAccountData
    let state ← fromSlice bytes
    require (isInitialized state = true) .uninitializedAccount
    .ok state
  unpack_eq_ok_iff {S len fromSlice isInitialized bytes state} := by
    simp only [bind_eq_ok_iff, require_eq_ok_iff, exists_const, Except.ok.injEq]
    constructor
    · rintro ⟨length, _, read, initialized, rfl⟩
      exact ⟨length, read, initialized⟩
    · rintro ⟨length, read, initialized⟩
      exact ⟨length, state, read, initialized, rfl⟩
  bool byte := byte ≠ 0
  bool_zero := rfl
  bool_one := rfl

/-- A mint of forty-two tokens without authorities. -/
def mintBytes : List UInt8 :=
  List.replicate 36 0 ++ u64Bytes 42 ++ [7] ++ [1] ++ List.replicate 36 0

theorem pack_pod_agree_mint : ∃ st pod,
    StateWithExtensions.unpack .basic packMint mintBytes = .ok st ∧ st.base.supply = 42 ∧
      PodStateWithExtensions.unpack (podMint .basic) mintBytes = .ok pod ∧
      pod.base.Agrees .basic st.base := by
  have read : StateWithExtensions.unpack .basic packMint mintBytes =
      .ok ⟨⟨none, 42, 7, true, none⟩, []⟩ := by decide +kernel
  obtain ⟨⟨pod, podOk, fields, -⟩, -⟩ := (pack_pod_agree .basic).1 mintBytes _ (.inl read)
  exact ⟨_, pod, read, rfl, podOk, fields⟩

end Token2022.Interface
