/-
**The effects of transfers and unwraps.**

* `debit_of_debitAuthority` — the arms of authority in the code are the arms of `Debit`.
* `finishTransfer_book` — the end of a transfer writes both accounts; the hook program, which runs
  in between, acts as the rest of the world does.
* **`processTransfer_refines`**, **`processUnwrapLamports_refines`**.
-/

import Token2022.Refinement.Initialize

namespace Token2022

open Fallible

variable {i : Invocation} {env : Env} {L : Ledger} {accounts : List AccountMeta} {outcome : Outcome}

/-! ### Authority -/

/-- **The arms of authority.** -/
theorem debit_of_debitAuthority {B : Book} {h : Holding} {authority : AccountMeta}
    {signers : List AccountMeta} {permanentDelegate : Option Address} {n : ℕ} {base : PodAccount}
    {key : Address} {arm : DebitArm}
    (named : ∀ k, permanentDelegate = some k →
      ∃ iss, B.slot h.base.mint = .issue iss ∧ iss.permanentDelegate = some k)
    (ok : debitAuthority L h.base authority signers permanentDelegate n true =
      .ok (base, key, arm)) :
    Debit B h n base key arm ∧ key = authority.key ∧
      (permanentDelegate = none → arm ≠ .permanentDelegate) := by
  unfold debitAuthority at ok
  split at ok
  · rename_i isPermanent
    simp only [bind_eq_ok_iff, Except.ok.injEq, Prod.mk.injEq] at ok
    obtain ⟨_, -, rfl, rfl, rfl⟩ := ok
    obtain ⟨iss, mint, delegate⟩ := named _ isPermanent
    exact ⟨.permanentDelegate mint delegate, rfl, fun none => by simp [none] at isPermanent⟩
  · split at ok
    · rename_i isDelegate
      simp only [bind_eq_ok_iff, require_eq_ok_iff, exists_const, Except.ok.injEq,
        Prod.mk.injEq] at ok
      obtain ⟨_, -, allowed, rfl, rfl, rfl⟩ := ok
      exact ⟨.delegate isDelegate allowed, rfl, fun _ => by simp⟩
    · simp only [bind_eq_ok_iff, Except.ok.injEq, Prod.mk.injEq] at ok
      obtain ⟨_, valid, rfl, rfl, rfl⟩ := ok
      exact ⟨.owner, (validateOwner_key valid).symm, fun _ => by simp⟩

/-! ### The parts of a transfer -/

/-- What the terms of a transfer say, with the mint and without it. -/
theorem terms_of_transfer {source : TokenAccountState} {amount : ℕ} {terms : TransferTerms}
    {expectedMint : Option (AccountMeta × ℕ)}
    (ok : (match expectedMint with
      | some (mintInfo, decimals) => checkedTransferTerms env L source mintInfo decimals amount
      | none => uncheckedTransferTerms source) = .ok terms) :
    ((terms.fee = 0 ∧ source.holding.withheld = none ∧ source.holding.hooked = false ∧
        source.holding.pausable = false) ∨
      ∃ iss, L.book.slot source.holding.base.mint = .issue iss ∧ iss.paused = false ∧
        iss.fee env.epoch amount = some terms.fee) ∧
    ∀ k, terms.permanentDelegate = some k → ∃ iss,
      L.book.slot source.holding.base.mint = .issue iss ∧ iss.permanentDelegate = some k := by
  cases expectedMint with
  | none =>
    simp only [uncheckedTransferTerms, bind_eq_ok_iff, require_eq_ok_iff, exists_const,
      Except.ok.injEq] at ok
    obtain ⟨hooked, withheld, pausable, rfl⟩ := ok
    refine ⟨.inl ⟨rfl, ?_, hooked, pausable⟩, fun k named => by simp at named⟩
    rw [StateWithExtensions.withheld_holding, Option.map_eq_none_iff]
    simpa [StateWithExtensions.has] using withheld
  | some expected =>
    obtain ⟨mintInfo, decimals⟩ := expected
    simp only [checkedTransferTerms, bind_eq_ok_iff, checkProgramAccount_eq_ok_iff,
      require_eq_ok_iff, unpackMint_eq_ok_iff, exists_const, Except.ok.injEq] at ok
    obtain ⟨owned, sameMint, mint, data, -, fee, charged, running, rfl⟩ := ok
    have issued : L.book.slot source.holding.base.mint = .issue mint.issuance := by
      rw [StateWithExtensions.base_holding, sameMint]
      exact Ledger.slot_of_unpackMint owned data
    refine ⟨.inr ⟨_, issued, running, ?_⟩, fun k named => ⟨_, issued, named⟩⟩
    unfold Issuance.fee
    rw [StateWithExtensions.fees_issuance]
    cases config : mint.get .transferFeeConfig with
    | none =>
      rw [config] at charged
      rw [Except.ok.inj charged]
    | some config =>
      rw [config, okOr_eq_ok_iff] at charged
      exact charged

/-- What the destination of a transfer is credited with. -/
theorem creditTransfer_spec {destination credited : TokenAccountState} {amount fee : ℕ}
    (ok : creditTransfer destination amount fee = .ok credited) :
    fee ≤ amount ∧ destination.base.amount + (amount - fee) < 2 ^ 64 ∧
      if 0 < fee then
        ∃ w, destination.holding.withheld = some w ∧ w + fee < 2 ^ 64 ∧
          credited.holding =
            { destination.holding.withAmount (destination.base.amount + (amount - fee)) with
              withheld := some (w + fee) }
      else credited.holding =
        destination.holding.withAmount (destination.base.amount + (amount - fee)) := by
  simp only [creditTransfer, bind_eq_ok_iff, okOr_eq_ok_iff, checkedSub_eq_some_iff,
    checkedAdd_eq_some_iff] at ok
  obtain ⟨net, ⟨le, rfl⟩, total, ⟨small, rfl⟩, ok⟩ := ok
  refine ⟨le, small, ?_⟩
  split at ok
  · rename_i charged
    rw [if_pos charged]
    split at ok
    · rename_i withheld held
      simp only [bind_eq_ok_iff, okOr_eq_ok_iff, checkedAdd_eq_some_iff, Except.ok.injEq] at ok
      obtain ⟨_, ⟨room, rfl⟩, rfl⟩ := ok
      rw [StateWithExtensions.get_withBase] at held
      refine ⟨withheld.withheldAmount, ?_, room, ?_⟩
      · rw [StateWithExtensions.withheld_holding, held]
        rfl
      · rw [StateWithExtensions.holding_set_transferFeeAmount]
        rfl
    · simp at ok
  · rename_i free
    rw [if_neg free, ← Except.ok.inj ok]
    rfl

theorem setTransferring_holding {st st' : TokenAccountState} (ok : setTransferring st = .ok st') :
    st'.holding = st.holding := by
  simp only [setTransferring, bind_eq_ok_iff, Except.ok.injEq] at ok
  obtain ⟨v, held, rfl⟩ := ok
  exact StateWithExtensions.holding_set_transferHookAccount st
    (StateWithExtensions.getExtension_eq_ok_iff.mp held)

/-- The transferring flag is no part of the book. -/
theorem unsetTransferring_book {L L' : Ledger} {a : Address}
    (ok : unsetTransferring L a = .ok L') : L'.book = L.book := by
  simp only [unsetTransferring, bind_eq_ok_iff, unpackAccount_eq_ok_iff] at ok
  obtain ⟨st, data, v, held, stored⟩ := ok
  refine Ledger.book_writeData_same stored fun _ => ?_
  rw [data]
  exact congrArg Slot.holding (StateWithExtensions.holding_set_transferHookAccount st
    (StateWithExtensions.getExtension_eq_ok_iff.mp held))

/-- **The end of a transfer, on the book.** -/
theorem finishTransfer_book {L L' : Ledger} {source destination : AccountMeta}
    {sourceState destinationState : TokenAccountState} {hookProgramId : Option Address}
    {hookAccounts : List AccountMeta} {amount : ℕ}
    (owned : (L source.key).owner = programId) (owned' : (L destination.key).owner = programId)
    (ok : finishTransfer env L source destination sourceState destinationState hookProgramId
      hookAccounts amount = .ok L') :
    Book.External ((L.book.write source.key (.holding sourceState.holding)).write destination.key
      (.holding destinationState.holding)) L'.book := by
  have both : ∀ {st st' : TokenAccountState} {mid last : Ledger},
      L.writeData source.key (.account st) = .ok mid →
        mid.writeData destination.key (.account st') = .ok last →
          last.book = (L.book.write source.key (.holding st.holding)).write destination.key
            (.holding st'.holding) := by
    intro st st' mid last first second
    rw [Ledger.book_writeData ((Ledger.owner_writeData first _).trans owned') second,
      Ledger.book_writeData owned first]
    rfl
  unfold finishTransfer at ok
  split at ok
  · obtain ⟨mid, first, second⟩ := bind_eq_ok_iff.mp ok
    rw [← both first second]
    exact .refl _
  · simp only [bind_eq_ok_iff] at ok
    obtain ⟨flagged, setSource, flagged', setDestination, mid, first, last, second, called, hook,
      unset, unsetSource, unsetDestination⟩ := ok
    have ext := (env.programs.invokeExecute_external hook).book
    rw [both first second, setTransferring_holding setSource,
      setTransferring_holding setDestination] at ext
    rwa [unsetTransferring_book unsetDestination, unsetTransferring_book unsetSource]

/-! ### Transfer -/

/-- **The effect of a transfer.** -/
theorem processTransfer_refines {amount : ℕ} {instruction : TransferInstruction}
    (ok : processTransfer i.env L accounts amount instruction = .ok outcome) :
    Refines i L outcome := by
  simp only [processTransfer, bind_eq_ok_iff, Prod.exists, nextAccountInfo_eq_ok_iff,
    checkProgramAccount_eq_ok_iff, unpackAccount_eq_ok_iff, require_eq_ok_iff, exists_const] at ok
  obtain ⟨sourceInfo, _, -, expectedMint, _, -, destinationInfo, _, -, authority, signers, -, owned,
    owned', source, data, thawed, enough, transferable, terms, agreed, -, unguarded, base, key, arm,
    authorized, ok⟩ := ok
  split at ok
  · simp only [bind_eq_ok_iff, Except.ok.injEq] at ok
    obtain ⟨_, -, rfl⟩ := ok
    exact .of_same rfl
  · rename_i distinct
    have ne : sourceInfo.key ≠ destinationInfo.key := by simpa using distinct
    simp only [bind_eq_ok_iff, unpackAccount_eq_ok_iff, require_eq_ok_iff, okOr_eq_ok_iff,
      checkedSub_eq_some_iff, exists_const] at ok
    obtain ⟨destination, data', thawed', sameMint, -, -, -, _, ⟨-, rfl⟩, credited, credit, moved,
      followed, ledger, finished, same⟩ := ok
    obtain rfl := Except.ok.inj same
    obtain ⟨agreedTerms, permanent⟩ := terms_of_transfer agreed
    have spends : (!decide (sourceInfo.key = destinationInfo.key)) = true := by simp [ne]
    rw [spends] at authorized
    obtain ⟨debit, rfl, -⟩ := debit_of_debitAuthority (h := source.holding) permanent authorized
    obtain ⟨feeLe, small, creditedHolding⟩ := creditTransfer_spec credit
    have native : base.isNativeAccount = source.base.isNativeAccount := by
      unfold PodAccount.isNativeAccount
      rw [debit.kept.2.2.2.2.1]
      rfl
    have lamports : (if source.holding.base.isNativeAccount then
        amount ≤ L.book.lamports sourceInfo.key ∧
          moved.book = L.book.pay sourceInfo.key destinationInfo.key amount
        else moved.book = L.book) ∧ ∀ a, (moved a).owner = (L a).owner := by
      replace followed : (if base.isNativeAccount then
        moveLamports L sourceInfo.key destinationInfo.key amount else .ok L) = .ok moved := followed
      rw [native] at followed
      split at followed
      · rename_i isNative
        obtain ⟨le, book, owner⟩ := moveLamports_book followed
        rw [StateWithExtensions.base_holding, if_pos isNative]
        exact ⟨⟨le, book⟩, owner⟩
      · rename_i plain
        rw [StateWithExtensions.base_holding, if_neg plain]
        obtain rfl := Except.ok.inj followed
        exact ⟨rfl, fun _ => rfl⟩
    have ext := finishTransfer_book ((lamports.2 _).trans owned) ((lamports.2 _).trans owned')
      finished
    refine ⟨L.book, _, .refl _, ?_, ext⟩
    exact Effect.transfer (Ledger.slot_of_unpackAccount owned data)
      (Ledger.slot_of_unpackAccount owned' data') ne sameMint.symm thawed thawed' enough
      transferable debit unguarded agreedTerms feeLe small creditedHolding lamports.1

/-! ### Unwrap -/

/-- **The effect of an unwrap.** -/
theorem processUnwrapLamports_refines {amount : Option ℕ}
    (ok : processUnwrapLamports i.env L accounts amount = .ok outcome) : Refines i L outcome := by
  simp only [processUnwrapLamports, bind_eq_ok_iff, Prod.exists, nextAccountInfo_eq_ok_iff,
    checkProgramAccount_eq_ok_iff, unpackAccount_eq_ok_iff, require_eq_ok_iff, exists_const] at ok
  obtain ⟨sourceInfo, _, -, destination, _, -, authority, signers, -, owned, source, data, n,
    remaining, amounts, native, base, key, arm, authorized, unguarded, moved, followed, ledger,
    stored, same⟩ := ok
  obtain rfl := Except.ok.inj same
  have split : n ≤ source.base.amount ∧ remaining = source.base.amount - n := by
    cases amount with
    | none =>
      obtain ⟨rfl, rfl⟩ := Prod.mk.inj (Except.ok.inj amounts)
      exact ⟨le_rfl, (Nat.sub_self _).symm⟩
    | some amount =>
      simp only [bind_eq_ok_iff, okOr_eq_ok_iff, checkedSub_eq_some_iff, Except.ok.injEq,
        Prod.mk.injEq] at amounts
      obtain ⟨_, ⟨le, rfl⟩, rfl, rfl⟩ := amounts
      exact ⟨le, rfl⟩
  obtain ⟨enough, rfl⟩ := split
  obtain ⟨debit, -, limited⟩ := debit_of_debitAuthority (h := source.holding) (B := L.book)
    (fun k named => by simp at named) authorized
  have sameAmount : base.amount = source.base.amount := debit.kept.2.2.1
  have lamports : (if n ≠ 0 ∧ sourceInfo.key ≠ destination.key then
      n ≤ L.book.lamports sourceInfo.key ∧
        moved.book = L.book.pay sourceInfo.key destination.key n
      else moved.book = L.book) ∧ ∀ a, (moved a).owner = (L a).owner := by
    split at followed
    · rename_i moves
      obtain ⟨le, book, owner⟩ := moveLamports_book followed
      rw [if_pos moves]
      exact ⟨⟨le, book⟩, owner⟩
    · rename_i stays
      rw [if_neg stays]
      obtain rfl := Except.ok.inj followed
      exact ⟨rfl, fun _ => rfl⟩
  have written : (if n = 0 then base else { base with amount := source.base.amount - n }) =
      { base with amount := source.base.amount - n } := by
    split
    · rename_i zero
      rw [zero, Nat.sub_zero, ← sameAmount]
    · rfl
  rw [written] at stored
  apply Refines.of_effect
  show Effect i [key] (some arm) L.book ledger.book
  rw [Ledger.book_writeData ((lamports.2 _).trans owned) stored]
  exact Effect.unwrap (Ledger.slot_of_unpackAccount owned data) native enough debit (limited rfl)
    unguarded lamports.1

end Token2022
