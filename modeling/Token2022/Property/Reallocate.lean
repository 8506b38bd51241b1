/-
**Reallocation only grows an account, and loses nothing.**

The length is that of all extensions that are there or are asked for. Data that are long enough stay as
they are; data that are too short grow, and with them the reserve of a native account.

* `Reallocation` — the two ways in which a reallocation ends.
* `Reallocated`, `ReallocatedData` — what it leaves of the account, and of its bytes.
* `Ledger.Takes`, `Ledger.Settled` — the extensions that the account takes then, and one more
  reallocation.
* `processReallocate_eq_ok`, `processReallocate_same`, `processReallocate_again` — one reallocation, and
  one that finds the data long enough.
* **`reallocate_grows`** — all of this, of every account of every reachable ledger.
-/

import Token2022.Interface.Reallocate
import Token2022.Property.AccountLen
import Token2022.Property.Native

namespace Token2022

open Fallible Interface

variable {L L' : Ledger} {a : Address} {st st' : TokenAccountState}
  {newExtensionTypes : List ExtensionType}

/-! ### What is left -/

/-- **What a reallocation leaves of an account**: data that are no shorter, that suffice, and that are
no multisig's; every field but the native reserve; and every entry. -/
structure Reallocated (newExtensionTypes : List ExtensionType) (st st' : TokenAccountState) :
    Prop where
  grows : st.tlv.len ≤ st'.tlv.len
  enough : tokenAccountLen (st.extensionTypes.toFinset ∪ newExtensionTypes.toFinset) ≤ st'.tlv.len
  notMultisig : st'.tlv.len ≠ multisigLen
  base : { st'.base with isNative := st.base.isNative } = st.base
  native : st'.base.isNativeAccount = st.base.isNativeAccount
  entries : st'.tlv.entries = st.tlv.entries

/-- **The account takes the extensions**: each can be initialized, in any order, where it may overwrite
the one that is there or is new; and the base stays. -/
def Ledger.Takes (L : Ledger) (a : Address) (st : TokenAccountState)
    (types : Finset ExtensionType) : Prop :=
  ∀ es : List InitExtension, (∀ e ∈ es, e.type ∈ types) → Fresh st.extensionTypes.toFinset es →
    ∃ st' : TokenAccountState,
      es.foldlM (initAccountExtension a) L = .ok (L.setData a (.account st')) ∧
      st'.base = st.base ∧ st'.extensionTypes.Nodup ∧
      st'.extensionTypes.toFinset = st.extensionTypes.toFinset ∪ (es.map InitExtension.type).toFinset

/-- **The bytes of the account become those of the other one**, and are read as an account. -/
structure ReallocatedData (env : Env) (newExtensionTypes : List ExtensionType)
    (st st' : TokenAccountState) : Prop where
  runs : ∀ (crates : Crates) (values : ValueBytes) (resize : Resize), resize.Grants →
    reallocate crates resize env.minimumBalance newExtensionTypes (accountData values st) =
      some (.ok (), accountData values st')
  lengths : ∀ values, (accountData values st).length = st.tlv.len ∧
    (accountData values st').length = st'.tlv.len
  unpacks : ∀ crates values, StateWithExtensions.unpack crates packAccount (accountData values st') =
    .ok ⟨packedAccount st'.base, tlvData values st'.tlv.toBuffer⟩

/-- **One more reallocation with the same list changes nothing**, whoever pays for it, and succeeds
where the owner signs. -/
structure Ledger.Settled (L : Ledger) (a : Address) (newExtensionTypes : List ExtensionType)
    (st : TokenAccountState) : Prop where
  same : ∀ (i : Invocation) (outcome : Outcome), i.instruction = .reallocate newExtensionTypes →
    i.key? 0 = some a → i.run L = .ok outcome → outcome.ledger = L
  succeeds : ∀ (env : Env) (info payer system authority : AccountMeta) (signers : List AccountMeta),
    info.key = a → validateOwner L st.base.owner authority signers = .ok () →
      processReallocate env L (info :: payer :: system :: authority :: signers) newExtensionTypes =
        .ok { ledger := L, validated := [st.base.owner] }

/-! ### The account with another reserve -/

section Reserve

variable {reserve : ℕ}

theorem tlv_withReserve (st : TokenAccountState) (reserve : ℕ) :
    (withReserve st reserve).tlv = st.tlv := by
  unfold withReserve
  split <;> rfl

theorem base_withReserve (st : TokenAccountState) (reserve : ℕ) :
    { (withReserve st reserve).base with isNative := st.base.isNative } = st.base := by
  unfold withReserve
  split <;> rfl

theorem isNativeAccount_withReserve (st : TokenAccountState) (reserve : ℕ) :
    (withReserve st reserve).base.isNativeAccount = st.base.isNativeAccount := by
  unfold withReserve
  split
  · rename_i native
    exact native.symm
  · rfl

/-- **The reserve is brought up to date.** -/
theorem syncReserve_eq_ok (held : L.account? a = some st) (ok : syncReserve L a st reserve = .ok L') :
    L'.account? a = some (withReserve st reserve) := by
  unfold syncReserve at ok
  unfold withReserve
  split at ok
  · rename_i native
    simp only [bind_eq_ok_iff, require_eq_ok_iff, exists_const] at ok
    obtain ⟨_, -, -, stored⟩ := ok
    obtain ⟨-, rfl⟩ := Ledger.writeData_eq_ok_iff.mp stored
    obtain ⟨owned, -⟩ := Ledger.account?_eq_some_iff.mp held
    rw [if_pos native]
    exact Ledger.account?_eq_some_iff.mpr
      ⟨(Ledger.owner_setData ..).trans owned, Ledger.data_setData_self ..⟩
  · rename_i plain
    obtain rfl := Except.ok.inj ok
    rw [if_neg plain]
    exact held

end Reserve

/-! ### One reallocation -/

/-- **The two ways in which a reallocation ends**: the data are long enough, or they grow. -/
inductive Reallocation (env : Env) (L L' : Ledger) (n : ℕ) (st : TokenAccountState) :
    TokenAccountState → Prop
  | enough (long : n ≤ st.tlv.len) (same : L' = L) : Reallocation env L L' n st st
  | grown {resized : TokenAccountState} (short : st.tlv.len < n)
      (resize : st.resize n = .ok resized) :
      Reallocation env L L' n st (withReserve resized (env.minimumBalance n))

/-- **What a reallocation does.** -/
theorem processReallocate_eq_ok {env : Env} {accounts : List AccountMeta} {outcome : Outcome}
    (ok : processReallocate env L accounts newExtensionTypes = .ok outcome) :
    ∃ info rest st st' n, accounts = info :: rest ∧ L.account? info.key = some st ∧
      (∀ t ∈ newExtensionTypes, t.getAccountType = .account) ∧
      tryCalculateAccountLen .account (st.extensionTypes ++ newExtensionTypes) = .ok n ∧
      outcome.ledger.account? info.key = some st' ∧
      Reallocation env L outcome.ledger n st st' := by
  simp only [processReallocate, bind_eq_ok_iff, Prod.exists, nextAccountInfo_eq_ok_iff,
    checkProgramAccount_eq_ok_iff, unpackAccount_eq_ok_iff, require_eq_ok_iff, exists_const] at ok
  obtain ⟨info, rest, shape, payer, _, -, _, _, -, authority, signers, -, owned, account, data, _, -,
    kinds, n, needed, ok⟩ := ok
  have held : L.account? info.key = some account := Ledger.account?_eq_some_iff.mpr ⟨owned, data⟩
  split at ok
  · rename_i long
    obtain rfl := Except.ok.inj ok
    exact ⟨info, rest, account, account, n, shape, held, kinds, needed, held, .enough long rfl⟩
  · rename_i short
    simp only [bind_eq_ok_iff] at ok
    obtain ⟨resized, grown, _, -, mid, stored, funded, paid, synced, sync, same⟩ := ok
    obtain rfl := Except.ok.inj same
    have written : (mid info.key).owner = programId ∧ (mid info.key).data = .account resized := by
      obtain ⟨-, rfl⟩ := Ledger.writeData_eq_ok_iff.mp stored
      exact ⟨(Ledger.owner_setData ..).trans owned, Ledger.data_setData_self ..⟩
    obtain ⟨owned', data', -⟩ := (grow_external data grown stored paid).1.kept _ written.1
    have held' : funded.account? info.key = some resized :=
      Ledger.account?_eq_some_iff.mpr ⟨owned', data'.trans written.2⟩
    exact ⟨info, rest, account, _, n, shape, held, kinds, needed, syncReserve_eq_ok held' sync,
      .grown (not_le.mp short) grown⟩

/-- **Where the data are long enough, one more reallocation looks at the owner alone.** -/
theorem processReallocate_again {env : Env} {info payer system authority : AccountMeta}
    {signers : List AccountMeta} {n : ℕ} (held : L.account? info.key = some st)
    (kinds : ∀ t ∈ newExtensionTypes, t.getAccountType = .account)
    (needed : tryCalculateAccountLen .account (st.extensionTypes ++ newExtensionTypes) = .ok n)
    (long : n ≤ st.tlv.len)
    (signed : validateOwner L st.base.owner authority signers = .ok ()) :
    processReallocate env L (info :: payer :: system :: authority :: signers) newExtensionTypes =
      .ok { ledger := L, validated := [st.base.owner] } := by
  obtain ⟨owned, data⟩ := Ledger.account?_eq_some_iff.mp held
  simp only [processReallocate, bind_eq_ok_iff, Prod.exists, nextAccountInfo_eq_ok_iff,
    checkProgramAccount_eq_ok_iff, unpackAccount_eq_ok_iff, require_eq_ok_iff, exists_const]
  exact ⟨info, _, rfl, payer, _, rfl, system, _, rfl, authority, signers, rfl, owned, st, data, (),
    signed, kinds, n, needed, if_pos long⟩

section One

variable {env : Env} {n : ℕ}

/-- Both ways keep the entries. -/
theorem Reallocation.entries_eq (ends : Reallocation env L L' n st st') :
    st'.tlv.entries = st.tlv.entries := by
  cases ends with
  | enough => rfl
  | grown short resize =>
    rw [tlv_withReserve]
    exact (StateWithExtensions.resize_eq_ok resize).2.1

/-- Both ways leave data of the length. -/
theorem Reallocation.length_le (ends : Reallocation env L L' n st st') :
    st.tlv.len ≤ st'.tlv.len ∧ n ≤ st'.tlv.len := by
  cases ends with
  | enough long => exact ⟨le_rfl, long⟩
  | grown short resize =>
    rw [tlv_withReserve, (StateWithExtensions.resize_eq_ok resize).2.2]
    exact ⟨short.le, le_rfl⟩

/-- Both ways keep the base but for the reserve. -/
theorem Reallocation.base_eq (ends : Reallocation env L L' n st st') :
    { st'.base with isNative := st.base.isNative } = st.base ∧
      st'.base.isNativeAccount = st.base.isNativeAccount := by
  cases ends with
  | enough => exact ⟨rfl, rfl⟩
  | grown short resize =>
    obtain ⟨base, -⟩ := StateWithExtensions.resize_eq_ok resize
    rw [isNativeAccount_withReserve, ← base]
    exact ⟨base_withReserve _ _, rfl⟩

/-- **What either way leaves of the account.** -/
theorem Reallocation.reallocated (ends : Reallocation env L L' n st st')
    (needed : n = tokenAccountLen (st.extensionTypes.toFinset ∪ newExtensionTypes.toFinset)) :
    Reallocated newExtensionTypes st st' where
  grows := ends.length_le.1
  enough := needed ▸ ends.length_le.2
  notMultisig := st'.tlv.valid.1
  base := ends.base_eq.1
  native := ends.base_eq.2
  entries := ends.entries_eq

/-- The entries of an account can be written as bytes. -/
theorem TokenAccountState.Laid.storable (laid : TokenAccountState.Laid st) :
    Storable st.tlv.entries := by
  intro e member
  have kind := laid.kind e.1 (List.mem_map_of_mem member)
  refine ⟨fun none => ?_, valueLen_lt_of_sized (fun metadata => ?_) e.2⟩
  · rw [none] at kind
    cases kind
  · rw [metadata] at kind
    cases kind

/-- **What either way does to the bytes of the account.** -/
theorem Reallocation.data (ends : Reallocation env L L' n st st')
    (needed : n = tokenAccountLen (st.extensionTypes.toFinset ∪ newExtensionTypes.toFinset))
    (asked : ∀ t ∈ newExtensionTypes, t.getAccountType = .account)
    (laid : TokenAccountState.Laid st) (fits : st.tlv.Fits) (fits' : st'.tlv.Fits) :
    ReallocatedData env newExtensionTypes st st' where
  runs crates values resize grants := by
    rw [reallocate_eq fits laid.storable laid.kind asked, List.toFinset_append, ← needed]
    cases ends with
    | enough long => exact SliceProgram.onlyIf_neg (not_lt.mpr long) _
    | grown short grown =>
      rw [SliceProgram.onlyIf_pos short]
      exact growAccount_eq grants fits grown short
  lengths values := ⟨length_accountData fits, length_accountData fits'⟩
  unpacks crates values := unpack_accountData crates values fits'

end One

/-- An account of a reachable ledger is laid out, and its extensions fit. -/
theorem Reachable.account_laid (reachable : Reachable L) (held : L.account? a = some st) :
    TokenAccountState.Laid st ∧ st.tlv.Fits := by
  obtain ⟨owned, data⟩ := Ledger.account?_eq_some_iff.mp held
  have laid := reachable.laid owned
  have fits := reachable.fits owned
  rw [data] at laid fits
  exact ⟨laid, fits⟩

/-- The length that is computed is that of the extensions that are there and those asked for. -/
theorem needed_eq {n : ℕ} (laid : TokenAccountState.Laid st)
    (asked : ∀ t ∈ newExtensionTypes, t.getAccountType = .account)
    (needed : tryCalculateAccountLen .account (st.extensionTypes ++ newExtensionTypes) = .ok n) :
    n = tokenAccountLen (st.extensionTypes.toFinset ∪ newExtensionTypes.toFinset) := by
  have kinds : ∀ t ∈ st.extensionTypes ++ newExtensionTypes, t.getAccountType = .account :=
    fun t member => (List.mem_append.mp member).elim (laid.kind t) (asked t)
  rw [tryCalculateAccountLen_eq kinds, List.toFinset_append] at needed
  exact (Except.ok.inj needed).symm

/-- **A reallocation that finds the data long enough changes nothing.** -/
theorem processReallocate_same {i : Invocation} {outcome : Outcome} {n : ℕ}
    (first : i.key? 0 = some a) (held : L.account? a = some st)
    (needed : tryCalculateAccountLen .account (st.extensionTypes ++ newExtensionTypes) = .ok n)
    (long : n ≤ st.tlv.len)
    (ok : processReallocate i.env L i.accounts newExtensionTypes = .ok outcome) :
    outcome.ledger = L := by
  obtain ⟨info, rest, st₁, _, n', shape, held', -, needed', -, ends⟩ := processReallocate_eq_ok ok
  obtain rfl := Option.some.inj (first.symm.trans (key?_zero shape))
  obtain rfl := Option.some.inj (held.symm.trans held')
  obtain rfl := Except.ok.inj (needed.symm.trans needed')
  cases ends with
  | enough long same => exact same
  | grown short => exact absurd long (not_le.mpr short)

/-- **Data of the length for some extensions take them.** -/
theorem Ledger.takes_of_enough (held : L.account? a = some st) (laid : TokenAccountState.Laid st)
    {types : Finset ExtensionType} (kinds : ∀ t ∈ types, t.getAccountType = .account)
    (present : st.extensionTypes.toFinset ⊆ types) (enough : tokenAccountLen types ≤ st.tlv.len) :
    L.Takes a st types := by
  obtain ⟨owned, data⟩ := Ledger.account?_eq_some_iff.mp held
  have start : (accountAccumulator kinds enough owned st.base).Holds L st.extensionTypes.toFinset := by
    refine ⟨st.tlv, ?_, rfl, present, laid.distinct, rfl⟩
    show L = L.setData a (.account st)
    rw [← data, Ledger.setData_same]
  intro es asked fresh
  obtain ⟨L', ran, tlv, rfl, -, -, filled⟩ :=
    (accountAccumulator kinds enough owned st.base).foldlM_eq start
      (Along.and_forall fresh asked)
  exact ⟨⟨st.base, tlv⟩, ran, rfl, filled.distinct, filled.keys⟩

/-- **Reallocation only grows an account, and loses nothing.** In every reachable ledger, and whatever
extensions it accepts: the data are no shorter and suffice for the extensions that are there and those
that are asked for, and are no multisig's; every field but the native reserve and every entry stays; the
bytes become those of the account, and are read as one; a native account is backed; each extension that
is there or was asked for can then be initialized; and one more reallocation with the same list, if the
owner signs it, succeeds and changes nothing. -/
theorem reallocate_grows (reachable : Reachable L) {i : Invocation}
    (named : i.instruction = .reallocate newExtensionTypes) {outcome : Outcome}
    (ok : i.run L = .ok outcome) :
    ∃ a st st', i.key? 0 = some a ∧ L.account? a = some st ∧ outcome.ledger.account? a = some st' ∧
      Reallocated newExtensionTypes st st' ∧
      ReallocatedData i.env newExtensionTypes st st' ∧
      (∀ reserve, st'.base.isNative = some reserve → st'.base.amount = st.base.amount ∧
        st'.base.amount + reserve ≤ (outcome.ledger a).lamports) ∧
      outcome.ledger.Takes a st' (st.extensionTypes.toFinset ∪ newExtensionTypes.toFinset) ∧
      outcome.ledger.Settled a newExtensionTypes st' := by
  have ran : processReallocate i.env L i.accounts newExtensionTypes = .ok outcome := by
    rw [Invocation.run, named] at ok
    exact ok
  obtain ⟨info, rest, st, st', n, shape, held, asked, computed, held', ends⟩ :=
    processReallocate_eq_ok ran
  have reachable' : Reachable outcome.ledger := reachable.step (.invoke ok)
  obtain ⟨laid, fits⟩ := reachable.account_laid held
  obtain ⟨laid', fits'⟩ := reachable'.account_laid held'
  have needed := needed_eq laid asked computed
  have reallocated := ends.reallocated needed
  have types : st'.extensionTypes = st.extensionTypes := congrArg List.keys reallocated.entries
  have computed' : tryCalculateAccountLen .account (st'.extensionTypes ++ newExtensionTypes) = .ok n :=
    types ▸ computed
  have kinds : ∀ t ∈ st.extensionTypes.toFinset ∪ newExtensionTypes.toFinset,
      t.getAccountType = .account := by
    intro t member
    rcases Finset.mem_union.mp member with present | new
    · exact laid.kind t (List.mem_toFinset.mp present)
    · exact asked t (List.mem_toFinset.mp new)
  refine ⟨info.key, st, st', key?_zero shape, held, held', reallocated,
    ends.data needed asked laid fits fits', fun reserve native => ⟨?_, ?_⟩, ?_,
    fun j outcome' named' first ok' => ?_,
    fun env info' payer system authority signers same signed => ?_⟩
  · have same := congrArg PodAccount.amount reallocated.base
    exact same
  · exact (native_backed reachable' held' native).1
  · refine Ledger.takes_of_enough held' laid' kinds ?_ reallocated.enough
    rw [types]
    exact Finset.subset_union_left
  · rw [Invocation.run, named'] at ok'
    exact processReallocate_same first held' computed' ends.length_le.2 ok'
  · rw [← same] at held'
    exact processReallocate_again held' asked computed' ends.length_le.2 signed

section Example

open Basic AccountMeta

/-- A bare account of wrapped lamports. -/
def Basic.wrappedTurns : List Turn := [
  .basic .createNativeMint [.signer owner, .plain nativeMintId, .plain systemProgramId],
  .allocate source 165,
  .basic (.initializeAccount3 owner) [.plain source, .plain nativeMintId]]

/-- Room for two extensions, for which someone else pays. -/
def Basic.reallocation : Invocation :=
  .basic (.reallocate [.memoTransfer, .cpiGuard, .memoTransfer])
    [.plain source, .signer other, .plain systemProgramId, .signer owner]

/-- The data grow from 165 to 176 bytes, of which both extensions can be initialized. -/
theorem reallocate_grows_wrapped : ∃ L outcome st st', Reachable L ∧
    Basic.reallocation.run L = .ok outcome ∧ L.account? source = some st ∧
    outcome.ledger.account? source = some st' ∧ st.tlv.len = 165 ∧ st'.tlv.len = 176 ∧
    st.base.isNative = some 2039280 ∧ st'.base.isNative = some 2115840 ∧
    st'.base.amount + 2115840 ≤ (outcome.ledger source).lamports ∧
    Reallocated [.memoTransfer, .cpiGuard, .memoTransfer] st st' ∧
    (∃ st'', [⟨.cpiGuard, ⟨true⟩, true⟩, ⟨.memoTransfer, ⟨true⟩, false⟩].foldlM
      (initAccountExtension source) outcome.ledger =
        .ok (outcome.ledger.setData source (.account st'')) ∧ st''.base = st'.base) ∧
    reallocate Crates.basic .granted Env.basic.minimumBalance [.memoTransfer, .cpiGuard, .memoTransfer]
      (accountData .zeroed st) = some (.ok (), accountData .zeroed st') := by
  have leads : LeadsTo (runAll .fresh Basic.wrappedTurns) fun L =>
      LeadsTo (Basic.reallocation.run L) fun outcome =>
        (L.account? source).map (fun st => (st.tlv.len, st.base.isNative)) =
          some (165, some 2039280) ∧
        (outcome.ledger.account? source).map
            (fun st => (st.tlv.len, st.base.isNative, st.extensionTypes)) =
          some (176, some 2115840, []) := by decide +kernel
  obtain ⟨L, ran, leads⟩ := leads.exists
  obtain ⟨outcome, ok, before, after⟩ := leads.exists
  have reachable : Reachable L := .of_runAll .fresh ran
  obtain ⟨a, st, st', first, held, held', reallocated, data, backed, takes, -⟩ :=
    reallocate_grows reachable rfl ok
  obtain rfl := Option.some.inj (show some source = some a from first)
  rw [held, Option.map_some] at before
  rw [held', Option.map_some] at after
  obtain ⟨length, native⟩ := Prod.mk.inj (Option.some.inj before)
  obtain ⟨length', rest⟩ := Prod.mk.inj (Option.some.inj after)
  obtain ⟨native', bare⟩ := Prod.mk.inj rest
  have asked : ∀ e ∈ ([⟨.cpiGuard, ⟨true⟩, true⟩, ⟨.memoTransfer, ⟨true⟩, false⟩] :
      List InitExtension), e.type ∈ st.extensionTypes.toFinset ∪
        [ExtensionType.memoTransfer, .cpiGuard, .memoTransfer].toFinset := by
    intro e member
    refine Finset.mem_union_right _ ?_
    rcases List.mem_pair.mp member with rfl | rfl <;> decide
  have fresh : Fresh st'.extensionTypes.toFinset
      [⟨.cpiGuard, ⟨true⟩, true⟩, ⟨.memoTransfer, ⟨true⟩, false⟩] := by
    rw [bare]
    exact ⟨.inl rfl, .inr (by decide), trivial⟩
  obtain ⟨st'', opened, base, -⟩ := takes _ asked fresh
  exact ⟨L, outcome, st, st', reachable, ok, held, held', length, length', native, native',
    (backed _ native').2, reallocated, ⟨st'', opened, base⟩,
    data.runs _ _ _ fun n data _ => ⟨_, rfl⟩⟩

end Example

end Token2022
