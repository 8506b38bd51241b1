/-
**Supply: no token comes up or gets lost.**

* `Book.Unencrypted` — the accounts of a mint have no encrypted balance, for as long as the mint does
  not have the extension for it.
* **`supply_conserved`** — the supply of a mint without confidential transfers is in its accounts and
  in the fees that are withheld.
* **`confidentialSupply_conserved`** — with them, by the plaintexts of the balances, for every mint
  but the native one.
* `nativeMint_not_conserved` — the native mint counts no supply.
-/

import Token2022.Environment
import Token2022.Property.Reading

namespace Token2022

open LabelledRun

/-! ### Mints without confidential transfers -/

/-- The mint at `m`, if there is one, does not have the extension for confidential transfers. -/
def Ledger.WithoutConfidentialTransfers (m : Address) (L : Ledger) : Prop :=
  ∀ st, L.mint? m = some st → st.has .confidentialTransferMint = false

/-- The same of a book. -/
def Book.WithoutConfidentialTransfers (m : Address) (B : Book) : Prop :=
  ∀ iss, B.slot m = .issue iss → iss.confidential = false

theorem Ledger.WithoutConfidentialTransfers.book {m : Address} {L : Ledger}
    (without : L.WithoutConfidentialTransfers m) : L.book.WithoutConfidentialTransfers m := by
  intro iss issued
  obtain ⟨st, held, rfl⟩ := slot_issue_iff.mp issued
  exact without st held

/-- No account of the mint at `m` has an encrypted balance. -/
def Book.Unencrypted (m : Address) (B : Book) : Prop :=
  ∀ a h, B.slot a = .holding h → h.base.mint = m → h.encrypted = none ∧ h.encryptedWithheld = none

theorem Book.Unencrypted.kept (m : Address) :
    Kept (fun _ B => B.WithoutConfidentialTransfers m) fun B => B.WellFormed ∧ B.Unencrypted m where
  external holds ext :=
    ⟨holds.1.external ext, fun a h held => holds.2 a h (ext.holding_back held)⟩
  guard without ext := fun iss issued => without iss (ext.issue_back issued)
  effect {i v arm B B'} without holds effect := by
    refine ⟨holds.1.effect effect, fun a h' held' mint' => ?_⟩
    rcases (held' ▸ effect.slotStep a).holding_origin with
      ⟨h, held⟩ | ⟨m', b, iss, base, vacant, -, -, rfl, -⟩
    · have step := held ▸ held' ▸ effect.slotStep a
      have mint : h.base.mint = m := step.marks.mint.symm.trans mint'
      obtain ⟨encrypted, withheld⟩ := holds.2 a h held mint
      exact step.unencrypted (fun iss issued => without iss (mint ▸ issued)) encrypted withheld
    · rw [(holds.1.fresh a b vacant).openHolding]
      exact ⟨rfl, rfl⟩

/-- **Supply is conserved.** Along a run from a ledger without accounts of the program, the amounts
in the accounts of a mint and what is withheld of them, there or at the mint, are the supply: if the
mint is not the native one, and has confidential transfers in no state of the run. -/
theorem supply_conserved {G L : Ledger} {events : List Event} {m : Address} (genesis : Genesis G)
    (run : Staying Step (Ledger.WithoutConfidentialTransfers m) G events L)
    (notNative : m ≠ nativeMintId) :
    L.sumAccounts m (fun st => st.base.amount + st.withheldAmount) +
        (L.mint? m).elim 0 StateWithExtensions.mintWithheldAmount =
      (L.mint? m).elim 0 fun st => st.base.supply := by
  have start : G.WithoutConfidentialTransfers m := by
    intro st held
    exact absurd (Ledger.mint?_eq_some_iff.mp held).1 (genesis.unowned m)
  obtain ⟨without, wf, unencrypted⟩ := run.invariant
    (I := fun L => L.book.WellFormed ∧ L.book.Unencrypted m)
    (fun s e t holds _ kept one =>
      (Book.Unencrypted.kept m).step kept (fun i _ => holds.book) one) start
    ⟨.of_blank genesis.blank, fun a h held => by simp [genesis.blank.slot a] at held⟩
  have conserved := (conserved_reachable ⟨G, events, genesis, run.run⟩ notNative).balanced
  rw [Ledger.total_heldOf] at conserved
  have accounts : L.sumAccounts m (fun st => st.holding.value) =
      L.sumAccounts m fun st => st.base.amount + st.withheldAmount := by
    refine Ledger.sumAccounts_congr fun a st held mint => ?_
    obtain ⟨encrypted, withheld⟩ := unencrypted a _ (Ledger.slot_of_account? held) mint
    rw [Holding.value_eq_plain, Holding.balance_of_none encrypted, withheld,
      StateWithExtensions.plain_holding, EncryptedBalance.value_zero, Option.getD_none,
      ZMod.val_zero]
    rfl
  rw [accounts] at conserved
  cases held : L.mint? m with
  | none =>
    obtain ⟨issued, due⟩ := Ledger.issued_of_no_mint held
    rw [issued, due] at conserved
    show _ + 0 = 0
    omega
  | some st =>
    have combined := wf.combined m _ (Ledger.slot_of_mint? held)
    have confidential : st.issuance.confidential = false := without st held
    have mintBurn : st.issuance.mintBurn = none := by
      rw [← Option.not_isSome_iff_eq_none]
      exact fun some => by simp [combined.mintBurn some] at confidential
    have encryptedWithheld : st.issuance.encryptedWithheld = none := by
      rw [← Option.not_isSome_iff_eq_none]
      exact fun some => by simp [combined.encryptedWithheld some] at confidential
    rw [Ledger.slot_of_mint? held] at conserved
    have issued : (Slot.issue st.issuance).issued = st.base.supply :=
      Issuance.issued_of_plain mintBurn
    have due : (Slot.issue st.issuance).due = st.mintWithheldAmount := by
      show st.issuance.due = _
      rw [Issuance.due, Issuance.retained, mintBurn, encryptedWithheld]
      simp [StateWithExtensions.mintWithheldAmount, StateWithExtensions.fees_issuance]
    rw [issued, due] at conserved
    show _ + st.mintWithheldAmount = st.base.supply
    omega

section Examples

open Basic AccountMeta

/-- A mint that charges fees: a transfer pays one, which is harvested to the mint. -/
def feeTurns : List Turn := [
  .allocate mint 278, .allocate source 178, .allocate destination 178,
  .basic (.transferFeeExtension (.initializeTransferFeeConfig (some owner) (some owner) 100 10))
    [plain mint],
  .basic (.initializeMint2 0 owner none) [plain mint],
  .basic (.initializeAccount3 owner) [plain source, plain mint],
  .basic (.initializeAccount3 owner) [plain destination, plain mint],
  .basic (.mintTo 1000) [plain mint, plain source, signer owner],
  .basic (.transferChecked 300 0) [plain source, plain mint, plain destination, signer owner],
  .basic (.transferFeeExtension .harvestWithheldTokensToMint) [plain mint, plain destination],
  .basic (.transferChecked 500 0) [plain source, plain mint, plain destination, signer owner]]

instance (m : Address) : DecidablePred (Ledger.WithoutConfidentialTransfers m) := fun L =>
  decidable_of_iff ((L.mint? m).all (fun st => st.has .confidentialTransferMint = false) = true)
    (by cases held : L.mint? m <;> simp [Ledger.WithoutConfidentialTransfers, held])

theorem supply_conserved_feeTurns : ∃ L : Ledger, (L.mint? mint).map (fun st => st.base.supply) = some 1000 ∧
    L.sumAccounts mint (fun st => st.base.amount + st.withheldAmount) +
        (L.mint? mint).elim 0 StateWithExtensions.mintWithheldAmount =
      (L.mint? mint).elim 0 fun st => st.base.supply := by
  have leads : LeadsTo (stayAll (Ledger.WithoutConfidentialTransfers mint) .fresh feeTurns)
      fun L => (L.mint? mint).map (fun st => st.base.supply) = some 1000 := by decide +kernel
  obtain ⟨L, ok, supply⟩ := leads.exists
  exact ⟨L, supply, supply_conserved .fresh (staying_of_stayAll ok) (by decide)⟩

end Examples

/-! ### Mints with confidential transfers -/

/-- **Conservation by the plaintexts**, for the mint at `m`. The sums are of integers: no balance
goes around the order of the group. -/
structure ConfidentialSupplyConserved (L : Ledger) (m : Address) : Prop where
  /-- A mint with `ConfidentialMintBurn` issues nothing in the plain, and its confidential supply,
  less the pending burns, is in the confidential balances and withheld amounts. -/
  mintBurn : ∀ st mintBurn, L.mint? m = some st → st.get .confidentialMintBurn = some mintBurn →
    st.base.supply = 0 ∧
      (∀ a account, L.account? a = some account → account.base.mint = m →
        account.base.amount = 0) ∧
      mintBurn.pendingBurn.val ≤ mintBurn.confidentialSupply.val ∧
      L.sumAccounts m (fun account =>
          account.confidentialBalance + account.confidentialWithheldAmount.val) +
          st.mintConfidentialWithheldAmount.val =
        mintBurn.confidentialSupply.val - mintBurn.pendingBurn.val
  /-- The supply of any other mint is in amounts, confidential balances and withheld amounts. -/
  supply : ∀ st, L.mint? m = some st → st.get .confidentialMintBurn = none →
    L.sumAccounts m (fun account => account.base.amount + account.confidentialBalance +
        account.withheldAmount + account.confidentialWithheldAmount.val) +
        st.mintWithheldAmount + st.mintConfidentialWithheldAmount.val =
      st.base.supply

/-- **Confidential supply is conserved**, for every mint but the native one. -/
theorem confidentialSupply_conserved {L : Ledger} {m : Address} (reachable : Reachable L)
    (notNative : m ≠ nativeMintId) : ConfidentialSupplyConserved L m where
  mintBurn st mintBurn held burns := by
    have conserved := conserved_reachable reachable notNative
    have slot := Ledger.slot_of_mint? held
    have counts : st.issuance.mintBurn = some mintBurn.encryptedSupply := by
      rw [StateWithExtensions.mintBurn_issuance, burns]
      rfl
    have some : (L.book.slot m).mintBurn = true := by
      rw [slot]
      exact Option.isSome_iff_exists.mpr ⟨_, counts⟩
    have plain : st.issuance.plain = 0 := by
      have zero := conserved.plainless some m
      rw [slot] at zero
      exact (if_pos rfl).symm.trans zero
    obtain ⟨supply, withheld⟩ := Nat.add_eq_zero_iff.mp plain
    have plainOf : ∀ a account, L.account? a = Option.some account → account.base.mint = m →
        account.base.amount = 0 ∧ account.withheldAmount = 0 := by
      intro a account at_a mint
      exact Nat.add_eq_zero_iff.mp
        (conserved.plain_eq_zero some (Ledger.slot_of_account? at_a) mint)
    have accounts : L.sumAccounts m (fun account => account.holding.value) =
        L.sumAccounts m fun account =>
          account.confidentialBalance + account.confidentialWithheldAmount.val := by
      refine Ledger.sumAccounts_congr fun a account at_a mint => ?_
      obtain ⟨amount, withheld⟩ := plainOf a account at_a mint
      rw [StateWithExtensions.value_holding, amount, withheld]
      omega
    have balanced := conserved.balanced
    rw [Ledger.total_heldOf, accounts, slot] at balanced
    have issued : (Slot.issue st.issuance).issued = mintBurn.confidentialSupply.val :=
      Issuance.issued_of_mintBurn counts
    have due : (Slot.issue st.issuance).due =
        st.mintConfidentialWithheldAmount.val + mintBurn.pendingBurn.val := by
      have noFees : st.mintWithheldAmount = 0 := withheld
      show st.issuance.retained + (st.issuance.mintBurn.getD 0).pendingBurn.val = _
      rw [StateWithExtensions.retained_issuance, noFees, counts, Option.getD_some, Nat.zero_add]
      rfl
    rw [issued, due] at balanced
    refine ⟨supply, fun a account at_a mint => (plainOf a account at_a mint).1, by omega, by omega⟩
  supply st held burns := by
    have conserved := conserved_reachable reachable notNative
    have slot := Ledger.slot_of_mint? held
    have counts : st.issuance.mintBurn = none := by
      rw [StateWithExtensions.mintBurn_issuance, burns]
      rfl
    have accounts : L.sumAccounts m (fun account => account.holding.value) =
        L.sumAccounts m fun account => account.base.amount + account.confidentialBalance +
          account.withheldAmount + account.confidentialWithheldAmount.val := by
      refine Ledger.sumAccounts_congr fun a account _ _ => ?_
      rw [StateWithExtensions.value_holding]
      omega
    have balanced := conserved.balanced
    rw [Ledger.total_heldOf, accounts, slot] at balanced
    have issued : (Slot.issue st.issuance).issued = st.base.supply := Issuance.issued_of_plain counts
    have due : (Slot.issue st.issuance).due =
        st.mintWithheldAmount + st.mintConfidentialWithheldAmount.val := by
      show st.issuance.retained + (st.issuance.mintBurn.getD 0).pendingBurn.val = _
      rw [counts, Option.getD_none, EncryptedSupply.pendingBurn_zero, ZMod.val_zero]
      rfl
    rw [issued, due] at balanced
    omega

section Examples

open Basic AccountMeta

/-- A turn in a transaction that proves a public key valid. -/
def Turn.withKey (instruction : TokenInstruction) (accounts : List AccountMeta) : Turn :=
  .invoke {
    env := { Env.basic with proofInstruction := fun _ => some (.pubkeyValidity ⟨⟨7⟩⟩) }
    accounts, instruction }

/-- A mint with confidential transfers: tokens are deposited, and their balance is applied. -/
def depositTurns : List Turn := [
  .allocate mint 235, .allocate source 465,
  .basic (.confidentialTransferExtension (.initializeMint ⟨owner⟩ true .none)) [plain mint],
  .basic (.initializeMint2 0 owner none) [plain mint],
  .basic (.initializeAccount3 owner) [plain source, plain mint],
  .withKey (.confidentialTransferExtension (.configureAccount 0 10 1))
    [plain source, plain mint, plain instructionsSysvarId, signer owner],
  .basic (.mintTo 100000) [plain mint, plain source, signer owner],
  .basic (.confidentialTransferExtension (.deposit 70000 0))
    [plain source, plain mint, signer owner],
  .basic (.confidentialTransferExtension (.applyPendingBalance 1 0)) [plain source, signer owner],
  .basic (.confidentialTransferExtension (.deposit 20000 0))
    [plain source, plain mint, signer owner]]

theorem confidentialSupply_conserved_depositTurns : ∃ L : Ledger,
    (L.account? source).map StateWithExtensions.confidentialBalance = some 90000 ∧
      ConfidentialSupplyConserved L mint := by
  have leads : LeadsTo (runAll .fresh depositTurns) fun L =>
      (L.account? source).map StateWithExtensions.confidentialBalance = some 90000 := by
    decide +kernel
  obtain ⟨L, ok, balance⟩ := leads.exists
  exact ⟨L, balance, confidentialSupply_conserved (.of_runAll .fresh ok) (by decide)⟩

/-- The native mint, and a funded account of it. -/
def nativeTurns : List Turn := [
  .basic .createNativeMint [signer owner, plain nativeMintId, plain systemProgramId],
  .allocate source 165,
  .basic (.initializeAccount3 owner) [plain source, plain nativeMintId]]

/-- **The native mint counts no supply**: its accounts hold lamports that were never minted. -/
theorem nativeMint_not_conserved :
    ∃ L, Reachable L ∧ (L.mint? nativeMintId).isSome ∧ ¬ ConfidentialSupplyConserved L nativeMintId := by
  have leads : LeadsTo (runAll .fresh nativeTurns) fun L =>
      (L.mint? nativeMintId).map (fun st => (st.base.supply, st.get .confidentialMintBurn)) =
        some (0, none) ∧
      (L.account? source).map (fun st => (st.base.mint, st.base.amount)) =
        some (nativeMintId, 997960720) := by decide +kernel
  obtain ⟨L, ok, mint, account⟩ := leads.exists
  obtain ⟨st, held, zero⟩ := Option.map_eq_some_iff.mp mint
  obtain ⟨acc, there, funded⟩ := Option.map_eq_some_iff.mp account
  obtain ⟨supply, noBurn⟩ := Prod.mk.inj zero
  obtain ⟨native, amount⟩ := Prod.mk.inj funded
  refine ⟨L, .of_runAll .fresh ok, by rw [held]; rfl, fun conserved => ?_⟩
  have balanced := conserved.supply st held noBurn
  have part := Ledger.le_sumAccounts there native fun account =>
    account.base.amount + account.confidentialBalance + account.withheldAmount +
      account.confidentialWithheldAmount.val
  simp only [amount] at part
  omega

end Examples

end Token2022
