/-
**Closing.**

`CloseAccount` deletes a token account or a mint. What it deletes is worth nothing: tokens are held
nowhere, in no form, neither in the account nor in an account of the mint. The native mint is beyond
it, and beyond every other instruction too.

* `closeAccount_cases` — what a close does, and to what.
* `Change.native_kept` — no write changes the native mint.
* **`nativeMint_immutable`** — once created, it is what it is for ever.
* `StateWithExtensions.Empty` — an account without tokens of any form.
* **`closing_loses_nothing`** — what is left without a mint, and what a close requires.
-/

import Token2022.Property.Native
import Token2022.Property.Renounced
import Token2022.Property.Supply
import Token2022.Refinement.Authority

namespace Token2022

open Fallible LabelledRun

variable {i : Invocation} {start L L' : Ledger} {validated : List Address} {outcome : Outcome}
  {a m : Address}

/-! ### Mints without supply -/

section Unissued

variable {mint : MintState} (mintBurn : ∀ e, mint.issuance.mintBurn = some e → e.supply = 0)
include mintBurn

theorem MintState.confidentialSupply_of_unissued : mint.confidentialSupply = 0 := by
  rw [StateWithExtensions.mintBurn_issuance] at mintBurn
  unfold confidentialSupply
  cases held : mint.get .confidentialMintBurn with
  | none => rfl
  | some e => exact (ZMod.val_eq_zero _).mpr (mintBurn e.encryptedSupply (by rw [held]; rfl))

/-- **A mint with neither supply has issued nothing.** -/
theorem MintState.issued_of_unissued (supply : mint.base.supply = 0) : mint.issuance.issued = 0 := by
  cases held : mint.issuance.mintBurn with
  | none => exact (Issuance.issued_of_plain held).trans supply
  | some e => exact (Issuance.issued_of_mintBurn held).trans ((ZMod.val_eq_zero _).mpr (mintBurn e held))

end Unissued

/-! ### The instruction -/

theorem Invocation.run_closeAccount (named : i.instruction = .closeAccount)
    (ok : i.run L = .ok outcome) : processCloseAccount i.env L i.accounts = .ok outcome := by
  rw [Invocation.run, named] at ok
  exact ok

/-- What is closed: a token account, or a mint. -/
inductive Closed (i : Invocation) (L : Ledger) (source destination : Address)
    (validated : List Address) : Prop
  | account {st : TokenAccountState} (held : L.account? source = some st)
      (closes : Closes i st.holding destination validated)
  | mint {mint : MintState} {key : Address} (held : L.mint? source = some mint)
      (authority : mint.authority? .closeMint = some key) (signed : validated = [key])
      (supply : mint.base.supply = 0)
      (mintBurn : ∀ e, mint.issuance.mintBurn = some e → e.supply = 0)

/-- **What a close does**: the lamports go to the destination, and the account is no one's. -/
theorem closeAccount_cases (named : i.instruction = .closeAccount) (ok : i.run L = .ok outcome) :
    ∃ source destination, i.key? 0 = some source ∧ i.key? 1 = some destination ∧
      source ≠ destination ∧ (L source).owner = programId ∧
      outcome.ledger = deleteAccount
        (L.setLamports destination ((L destination).lamports + (L source).lamports)) source ∧
      Closed i L source destination outcome.validated := by
  have ok := Invocation.run_closeAccount named ok
  simp only [processCloseAccount, bind_eq_ok_iff, Prod.exists, nextAccountInfo_eq_ok_iff,
    checkProgramAccount_eq_ok_iff, require_eq_ok_iff, exists_const] at ok
  obtain ⟨info, _, shape, destination, _, shape', authority, signers, -, owned, distinct, keys,
    asked, credited, credit, same⟩ := ok
  obtain rfl := Except.ok.inj same
  obtain ⟨-, rfl⟩ := Ledger.credit_eq_ok_iff.mp credit
  have target' : i.key? 1 = some destination.key := by
    rw [Invocation.key?, shape, shape']
    rfl
  refine ⟨info.key, destination.key, by rw [Invocation.key?, shape]; rfl, target', distinct, owned,
    rfl, ?_⟩
  split at asked
  · rename_i st read
    exact .account (Ledger.account?_eq_some_iff.mpr ⟨owned, unpackAccount_eq_ok_iff.mp read⟩)
      (closeTokenAccount_closes named target' asked)
  · split at asked
    · rename_i mint read
      obtain ⟨key, rfl, authority, supply, mintBurn⟩ := closeMint_spec asked
      exact .mint (Ledger.mint?_eq_some_iff.mpr ⟨owned, unpackMint_eq_ok_iff.mp read⟩) authority rfl
        supply mintBurn
    · simp at asked

/-! ### The native mint -/

theorem nativeMint_validLen : AccountType.mint.ValidLen AccountType.mint.baseLen := by decide

/-- **The native mint**: nobody's, and without extensions. -/
def nativeMint : MintState where
  base := { mintAuthority := none, supply := 0, decimals := nativeMintDecimals,
            freezeAuthority := none }
  tlv := { entries := [], len := AccountType.mint.baseLen, valid := nativeMint_validLen }

/-- **No write changes the native mint.** -/
theorem Change.native_kept {new : AccountData}
    (change : Change i start validated a (.mint nativeMint) new) : new = .mint nativeMint := by
  have bare : ∀ {t : ExtensionType} {e : Extension t}, nativeMint.get t ≠ some e :=
    fun held => Option.some_ne_none _ held.symm
  cases change with
  | mintBase initial change =>
    cases change with
    | @burn n =>
      have none : nativeMint.base.supply - n = nativeMint.base.supply := Nat.zero_sub n
      rw [none]
      rfl
    | mintTo authority | setMintAuthority authority => cases authority
    | setFreezeAuthority named target authority => cases authority
  | mintUpdate initial held => exact absurd held bare
  | updateMetadata held => exact absurd held bare
  | addMetadata authority | addGroup authority | addMember authority => cases authority

/-- No one may close it. -/
theorem nativeMint_stays (held : L.mint? a = some nativeMint) (ok : i.run L = .ok outcome) :
    ¬ i.closes a := by
  rintro ⟨named, target⟩
  obtain ⟨source, _, first, -, -, -, -, closed⟩ := closeAccount_cases named ok
  obtain rfl := Option.some.inj (target.symm.trans first)
  cases closed with
  | account account =>
    obtain ⟨-, data⟩ := Ledger.mint?_eq_some_iff.mp held
    obtain ⟨-, data'⟩ := Ledger.account?_eq_some_iff.mp account
    cases data.symm.trans data'
  | mint there authority =>
    obtain rfl := Option.some.inj (held.symm.trans there)
    cases authority

/-- **Its creation.** -/
theorem createNativeMint_creates (named : i.instruction = .createNativeMint)
    (ok : i.run L = .ok outcome) : outcome.ledger.mint? nativeMintId = some nativeMint := by
  rw [Invocation.run, named] at ok
  have ok : processCreateNativeMint i.env L i.accounts = .ok outcome := ok
  simp only [processCreateNativeMint, bind_eq_ok_iff, Prod.exists] at ok
  obtain ⟨_, _, -, _, _, -, _, _, -, -, -, _, -, allocated, assigned, ledger, stored, same⟩ := ok
  obtain rfl := Except.ok.inj same
  obtain ⟨-, rfl⟩ := i.env.programs.allocateNativeMint_spec assigned
  obtain ⟨-, rfl⟩ := Ledger.writeData_eq_ok_iff.mp stored
  refine Ledger.mint?_eq_some_iff.mpr ⟨?_, Ledger.data_setData_self ..⟩
  rw [Ledger.owner_setData, Function.update_self]

/-- Nothing else makes an account of the program of the address. -/
theorem Writes.native_foreign (other : i.instruction ≠ .createNativeMint)
    (writes : Writes i start validated L L') (foreign : (L nativeMintId).owner ≠ programId) :
    (L' nativeMintId).owner ≠ programId := by
  induction writes with
  | refl => exact foreign
  | @tail M N _ one ih =>
    cases one with
    | data owned change => rwa [Ledger.owner_setData]
    | lamports owner => rwa [owner]
    | external ext => exact ext.reserved _ (.inl rfl) ih
    | allocateNativeMint named => exact absurd named other
    | @close b named target =>
      by_cases here : nativeMintId = b
      · rw [deleteAccount, here, Function.update_self]
        decide
      · rwa [deleteAccount, Function.update_of_ne here]

/-- Where the native mint is, it stays. -/
theorem Step.nativeMint_stays {e : Event} (step : Step L e L')
    (held : L.mint? nativeMintId = some nativeMint) : L'.mint? nativeMintId = some nativeMint := by
  obtain ⟨owned, data⟩ := Ledger.mint?_eq_some_iff.mp held
  refine Ledger.mint?_eq_some_iff.mpr (step.follow (R := fun data => data = .mint nativeMint) ?_
    (fun _ _ _ _ _ _ before change => by subst before; exact change.native_kept) ⟨owned, data⟩)
  rintro ⟨i, rfl, closes⟩
  cases step with
  | invoke ok => exact Token2022.nativeMint_stays held ok closes

/-- An account of the program at the address of the native mint is the native mint. -/
theorem Step.nativeMint_only {e : Event} (step : Step L e L')
    (only : (L nativeMintId).owner = programId → L.mint? nativeMintId = some nativeMint)
    (owned : (L' nativeMintId).owner = programId) : L'.mint? nativeMintId = some nativeMint := by
  by_cases before : (L nativeMintId).owner = programId
  · exact step.nativeMint_stays (only before)
  · cases step with
    | @invoke i outcome ok =>
      by_cases creates : i.instruction = .createNativeMint
      · exact createNativeMint_creates creates ok
      · exact absurd owned ((run_writes ok).native_foreign creates before)
    | external ext => exact absurd owned (ext.reserved _ (.inl rfl) before)

/-- So it is in every reachable state. -/
theorem Reachable.nativeMint_there (reachable : Reachable L)
    (owned : (L nativeMintId).owner = programId) : L.mint? nativeMintId = some nativeMint :=
  reachable.invariant
    (I := fun L => (L nativeMintId).owner = programId → L.mint? nativeMintId = some nativeMint)
    (fun _ genesis owned => absurd owned (genesis.unowned _))
    (fun _ _ _ only step => step.nativeMint_only only) owned

/-- **The native mint is immutable.** In every reachable state an account of the program at its
address is the native mint as it was created: without authorities and extensions, and with no
supply. In every run from there it stays that, and it is not closed. -/
theorem nativeMint_immutable (reachable : Reachable L) (owned : (L nativeMintId).owner = programId) :
    L.mint? nativeMintId = some nativeMint ∧
      ∀ events L', Runs L events L' → L'.mint? nativeMintId = some nativeMint := by
  have held := reachable.nativeMint_there owned
  exact ⟨held, fun events L' run => run.invariant
    (I := fun L => L.mint? nativeMintId = some nativeMint)
    (fun M e M' held step => step.nativeMint_stays held) held⟩

/-- The native mint is created, and an account of it is funded. -/
theorem nativeMint_immutable_nativeTurns : ∃ L L',
    runAll .fresh (nativeTurns.take 1) = .ok L ∧ runAll L (nativeTurns.drop 1) = .ok L' ∧
    L'.mint? nativeMintId = some nativeMint := by
  have leads : LeadsTo (runAll .fresh (nativeTurns.take 1)) fun L =>
      (L nativeMintId).owner = programId ∧ LeadsTo (runAll L (nativeTurns.drop 1)) fun _ => True := by
    decide +kernel
  obtain ⟨L, created, owned, leads⟩ := leads.exists
  obtain ⟨L', ran, -⟩ := leads.exists
  exact ⟨L, L', created, ran,
    (nativeMint_immutable (.of_runAll .fresh created) owned).2 _ L' (runs_of_runAll ran)⟩

/-! ### Accounts without tokens -/

namespace StateWithExtensions

/-- No tokens next to the amount: neither in the confidential balances, nor withheld. -/
structure Cleared (st : TokenAccountState) : Prop where
  withheld : st.withheldAmount = 0
  available : st.availableBalance = 0
  pending : st.pendingBalance = 0
  confidentialWithheld : st.confidentialWithheldAmount = 0

/-- **No tokens.** -/
structure Empty (st : TokenAccountState) : Prop extends Cleared st where
  amount : st.base.amount = 0

theorem empty_of_value {st : TokenAccountState} (nothing : st.holding.value = 0) : st.Empty := by
  rw [value_holding, confidentialBalance] at nothing
  exact ⟨⟨by omega, (ZMod.val_eq_zero _).mp (by omega), (ZMod.val_eq_zero _).mp (by omega),
    (ZMod.val_eq_zero _).mp (by omega)⟩, by omega⟩

/-- What a close finds next to the amount. -/
theorem cleared_of_closes {st : TokenAccountState} {destination : Address}
    (closes : Closes i st.holding destination validated) : st.Cleared := by
  have balance : st.holding.balance.available = 0 ∧ st.holding.balance.pending = 0 := by
    unfold Holding.balance
    cases held : st.holding.encrypted with
    | none => exact ⟨rfl, EncryptedBalance.pending_zero⟩
    | some e =>
      obtain ⟨available, lo, hi⟩ := closes.balance e held
      refine ⟨available, ?_⟩
      show pendingTotal e.pendingLo e.pendingHi = 0
      rw [lo, hi, pendingTotal_zero]
  have withheld : st.holding.withheld.getD 0 = 0 := by
    cases held : st.holding.withheld with
    | none => rfl
    | some w => exact closes.withheld w held
  have confidential : st.holding.encryptedWithheld.getD 0 = 0 := by
    cases held : st.holding.encryptedWithheld with
    | none => rfl
    | some w => exact closes.encryptedWithheld w held
  rw [available_holding, pending_holding] at balance
  exact ⟨withheld, balance.1, balance.2, confidential⟩

end StateWithExtensions

/-- **Where a mint has issued nothing, its accounts are empty.** -/
theorem Reachable.empty_of_issued (reachable : Reachable L) (notNative : m ≠ nativeMintId)
    (nothing : (L.book.slot m).issued = 0) {st : TokenAccountState} (held : L.account? a = some st)
    (mint : st.base.mint = m) : st.Empty := by
  have zero := ((conserved_reachable reachable notNative).empty nothing).1 a
  rw [Ledger.slot_of_account? held, Slot.heldOf_holding mint] at zero
  exact StateWithExtensions.empty_of_value zero

/-- **Closing loses nothing.** In every reachable state an account without a mint is empty, be it that
the mint was closed or that it has yet to come: for every mint but the native one. And every close
leaves all other accounts as they are, pays all the lamports of the account to the destination, and
closes one of two things. Either it is a token account without tokens of any form, but for an amount
of wrapped lamports, which the lamports that are paid cover. Or it is a mint with a close authority,
which signed, that has issued nothing and keeps no fees, and all of whose accounts are empty. -/
theorem closing_loses_nothing (reachable : Reachable L) :
    (∀ m a st, m ≠ nativeMintId → L.mint? m = none → L.account? a = some st → st.base.mint = m →
      st.Empty) ∧
    ∀ (i : Invocation) (outcome : Outcome), i.instruction = .closeAccount →
      i.run L = .ok outcome → ∃ source destination, i.key? 0 = some source ∧
        i.key? 1 = some destination ∧ source ≠ destination ∧
        outcome.ledger = deleteAccount
          (L.setLamports destination ((L destination).lamports + (L source).lamports)) source ∧
        ((∃ st, L.account? source = some st ∧ st.Cleared ∧
            match st.base.isNative with
            | none => st.base.amount = 0
            | some reserve => st.base.amount + reserve ≤ (L source).lamports) ∨
          ∃ mint key, L.mint? source = some mint ∧ mint.authority? .closeMint = some key ∧
            outcome.validated = [key] ∧ mint.base.supply = 0 ∧ mint.confidentialSupply = 0 ∧
            mint.mintWithheldAmount = 0 ∧ mint.mintConfidentialWithheldAmount = 0 ∧
            ∀ a st, L.account? a = some st → st.base.mint = source → st.Empty) := by
  refine ⟨fun m a st notNative gone held mint => ?_, fun i outcome named ok => ?_⟩
  · exact reachable.empty_of_issued notNative (Ledger.issued_of_no_mint gone).1 held mint
  · obtain ⟨source, destination, first, second, distinct, owned, after, closed⟩ :=
      closeAccount_cases named ok
    refine ⟨source, destination, first, second, distinct, after, ?_⟩
    cases closed with
    | @account st held closes =>
      refine .inl ⟨st, held, StateWithExtensions.cleared_of_closes closes, ?_⟩
      cases native : st.base.isNative with
      | none =>
        refine closes.empty.resolve_left fun isNative => ?_
        rw [StateWithExtensions.base_holding, PodAccount.isNativeAccount, native] at isNative
        exact Bool.noConfusion isNative
      | some reserve =>
        exact backed_reachable reachable source _ reserve (Ledger.slot_of_account? held) native
    | @mint mint key held authority signed supply mintBurn =>
      have notNative : source ≠ nativeMintId := by
        rintro rfl
        obtain rfl := Option.some.inj
          (held.symm.trans (reachable.nativeMint_there owned))
        cases authority
      have issued : (L.book.slot source).issued = 0 := by
        rw [Ledger.slot_of_mint? held]
        exact MintState.issued_of_unissued mintBurn supply
      obtain ⟨-, due⟩ := (conserved_reachable reachable notNative).empty issued
      rw [Ledger.slot_of_mint? held] at due
      have retained : mint.mintWithheldAmount + mint.mintConfidentialWithheldAmount.val = 0 :=
        Nat.eq_zero_of_add_eq_zero_right (show mint.issuance.retained + _ = 0 from due)
      exact .inr ⟨mint, key, held, authority, signed, supply,
        MintState.confidentialSupply_of_unissued mintBurn, Nat.eq_zero_of_add_eq_zero_right retained,
        (ZMod.val_eq_zero _).mp (Nat.eq_zero_of_add_eq_zero_left retained),
        fun a st there minted => reachable.empty_of_issued notNative issued there minted⟩

/-- A mint that can be closed: all of its tokens are burned. -/
def Basic.burnedTurns : List Turn := [
  .allocate mint 202, .allocate source 165,
  .basic (.initializeMintCloseAuthority (some owner)) [.plain mint],
  .basic (.initializeMint2 0 owner none) [.plain mint],
  .basic (.initializeAccount3 owner) [.plain source, .plain mint],
  .basic (.mintTo 5) [.plain mint, .plain source, .signer owner],
  .basic (.burn 5) [.plain source, .plain mint, .signer owner]]

/-- Its close. -/
def Basic.closing : Invocation :=
  .basic .closeAccount [.plain mint, .plain other, .signer owner]

theorem closing_loses_nothing_burnedTurns : ∃ L outcome st,
    runAll .fresh Basic.burnedTurns = .ok L ∧ Basic.closing.run L = .ok outcome ∧
    L.account? Basic.source = some st ∧ st.Empty := by
  have leads : LeadsTo (runAll .fresh Basic.burnedTurns) fun L =>
      LeadsTo (Basic.closing.run L) fun _ =>
      (L.mint? Basic.mint).isSome = true ∧
      ((L.account? Basic.source).any fun st => st.base.mint = Basic.mint) = true := by
    decide +kernel
  obtain ⟨L, ran, leads⟩ := leads.exists
  obtain ⟨outcome, ok, isMint, there⟩ := leads.exists
  obtain ⟨st, held, minted⟩ := (Option.any_eq_true ..).mp there
  obtain ⟨source, _, first, -, -, -, closed⟩ :=
    (closing_loses_nothing (.of_runAll .fresh ran)).2 Basic.closing outcome rfl ok
  obtain rfl : Basic.mint = source := Option.some.inj first
  refine ⟨L, outcome, st, ran, ok, held, ?_⟩
  rcases closed with ⟨account, isAccount, -⟩ | ⟨mint, key, -, -, -, -, -, -, -, empty⟩
  · obtain ⟨-, data⟩ := Ledger.account?_eq_some_iff.mp isAccount
    obtain ⟨mint, isMint⟩ := Option.isSome_iff_exists.mp isMint
    cases data.symm.trans (Ledger.mint?_eq_some_iff.mp isMint).2
  · exact empty _ st held (of_decide_eq_true minted)

end Token2022
