/-
**What is validated is signed.**

The statements about authority speak of the keys that `validate_owner` accepted. Here they are traced
back to the accounts of the transaction.

* `Ledger.Signs` — a key signs with an account of its own, or, as a multisig, with the accounts of
  enough of its keys.
* `signs_of_validateOwner` — what `validate_owner` asks for is no less.
* `Vouches.of_tail` — the instructions show it the accounts that they were given.
* **`run_signed`** — every key that an instruction validated has signed.
-/

import Token2022.Property.Multisig
import Token2022.Refinement.Confidential
import Token2022.System

namespace Token2022

open Fallible Threshold

/-! ### Signatures -/

/-- **The key signs**, among the accounts of an instruction. -/
inductive Ledger.Signs (L : Ledger) (accounts : List AccountMeta) (key : Address) : Prop
  | single (alone : ∀ multisig, ¬ L.HoldsMultisig key multisig)
      (signed : ∃ account ∈ accounts, account.key = key ∧ account.isSigner = true)
  | multisig {multisig : PodMultisig} (held : L.HoldsMultisig key multisig)
      (enough : multisig.m ≤ (List.range multisig.signers.length).countP fun position =>
        ∃ account ∈ accounts, multisig.signers[position]? = some account.key ∧
          account.isSigner = true)

variable {L : Ledger} {env : Env} {accounts : List AccountMeta} {outcome : Outcome}

/-- **What `validate_owner` accepts is signed.** -/
theorem signs_of_validateOwner {expected : Address} {owner : AccountMeta}
    {signers : List AccountMeta} {u : Unit} (member : owner ∈ accounts) (among : signers ⊆ accounts)
    (ok : validateOwner L expected owner signers = .ok u) : L.Signs accounts expected := by
  obtain rfl : owner.key = expected := validateOwner_key ok
  unfold validateOwner at ok
  obtain ⟨-, ok⟩ := require_bind_eq_ok_iff.mp ok
  dsimp only at ok
  split at ok
  · rename_i long
    split at ok
    · rename_i multisig data
      obtain ⟨⟨count, seen⟩, counted, enough⟩ := bind_eq_ok_iff.mp ok
      refine .multisig ⟨long.1, data⟩ ((require_eq_ok_iff.mp enough).trans ?_)
      refine (foldlM_visit_le AccountMeta.key AccountMeta.isSigner counted).trans
        (List.countP_mono_left fun position _ signed => ?_)
      obtain ⟨account, there, here, signs⟩ := of_decide_eq_true signed
      exact decide_eq_true ⟨account, among there, here, signs⟩
    · cases ok
  · rename_i short
    refine .single (fun multisig held => short ⟨held.1, ?_⟩)
      ⟨owner, member, rfl, require_eq_ok_iff.mp ok⟩
    rw [held.2]
    rfl

/-- The owner and the signers are the end of the list of accounts. -/
theorem signs_of_tail {expected : Address} {owner : AccountMeta} {signers : List AccountMeta}
    {u : Unit} (tail : owner :: signers <:+ accounts)
    (ok : validateOwner L expected owner signers = .ok u) : L.Signs accounts expected :=
  signs_of_validateOwner (tail.subset List.mem_cons_self)
    (fun _ member => tail.subset (List.mem_cons_of_mem _ member)) ok

/-- **Every key that was validated has signed.** -/
def Ledger.Vouches (L : Ledger) (accounts : List AccountMeta) (outcome : Outcome) : Prop :=
  ∀ key ∈ outcome.validated, L.Signs accounts key

namespace Ledger.Vouches

/-- An instruction that validates none. -/
theorem nil {ledger : Ledger} {arm : Option DebitArm} :
    L.Vouches accounts { ledger, validated := [], arm } :=
  fun _ member => absurd member List.not_mem_nil

/-- One key, of which it is known that it signs. -/
theorem of_signs {ledger : Ledger} {arm : Option DebitArm} {key : Address}
    (signs : L.Signs accounts key) : L.Vouches accounts { ledger, validated := [key], arm } := by
  intro key' member
  obtain rfl := List.mem_singleton.mp member
  exact signs

/-- **One key**, with the owner and the signers from the end of the list of accounts. -/
theorem of_tail {ledger : Ledger} {arm : Option DebitArm} {expected : Address} {owner : AccountMeta}
    {signers : List AccountMeta} {u : Unit} (tail : owner :: signers <:+ accounts)
    (ok : validateOwner L expected owner signers = .ok u) :
    L.Vouches accounts { ledger, validated := [expected], arm } :=
  of_signs (signs_of_tail tail ok)

end Ledger.Vouches

/-! ### Instructions without an authority -/

theorem initializeMintExtension_vouches {t : ExtensionType} {value : ProgramResult (Extension t)}
    (ok : initializeMintExtension L accounts t value = .ok outcome) :
    L.Vouches accounts outcome := by
  simp only [initializeMintExtension, bind_eq_ok_iff, Prod.exists] at ok
  obtain ⟨_, _, -, _, -, _, -, _, -, _, -, _, -, same⟩ := ok
  exact Except.ok.inj same ▸ .nil

theorem processInitializeMintWith_vouches {decimals : ℕ} {mintAuthority : Address}
    {freezeAuthority : Option Address} {rentSysvarAccount : Bool}
    (ok : processInitializeMintWith env L accounts decimals mintAuthority freezeAuthority
      rentSysvarAccount = .ok outcome) : L.Vouches accounts outcome := by
  simp only [processInitializeMintWith, bind_eq_ok_iff, Prod.exists] at ok
  obtain ⟨_, _, -, _, -, _, -, _, -, _, -, _, -, _, -, _, -, _, -, _, -, same⟩ := ok
  exact Except.ok.inj same ▸ .nil

theorem processCreateNativeMint_vouches
    (ok : processCreateNativeMint env L accounts = .ok outcome) : L.Vouches accounts outcome := by
  simp only [processCreateNativeMint, bind_eq_ok_iff, Prod.exists] at ok
  obtain ⟨_, _, -, _, _, -, _, _, -, _, -, _, -, _, -, _, -, same⟩ := ok
  exact Except.ok.inj same ▸ .nil

theorem processInitializeAccountWith_vouches {owner : Option Address} {rentSysvarAccount : Bool}
    (ok : processInitializeAccountWith env L accounts owner rentSysvarAccount = .ok outcome) :
    L.Vouches accounts outcome := by
  simp only [processInitializeAccountWith, bind_eq_ok_iff, Prod.exists] at ok
  obtain ⟨_, _, -, _, _, -, _, -, _, -, _, _, -, _, -, _, -, _, -, _, -, _, -, _, -, _, -, _, _, -, _, -,
    same⟩ := ok
  exact Except.ok.inj same ▸ .nil

theorem processInitializeImmutableOwner_vouches
    (ok : processInitializeImmutableOwner L accounts = .ok outcome) : L.Vouches accounts outcome := by
  simp only [processInitializeImmutableOwner, bind_eq_ok_iff, Prod.exists] at ok
  obtain ⟨_, _, -, _, -, _, -, _, -, _, -, same⟩ := ok
  exact Except.ok.inj same ▸ .nil

theorem processGetAccountDataSize_vouches {types : List ExtensionType}
    (ok : processGetAccountDataSize L accounts types = .ok outcome) : L.Vouches accounts outcome := by
  simp only [processGetAccountDataSize, bind_eq_ok_iff, Prod.exists] at ok
  obtain ⟨_, _, -, _, -, _, -, _, -, _, -, same⟩ := ok
  exact Except.ok.inj same ▸ .nil

theorem processUiConversion_vouches (ok : processUiConversion L accounts = .ok outcome) :
    L.Vouches accounts outcome := by
  simp only [processUiConversion, bind_eq_ok_iff, Prod.exists] at ok
  obtain ⟨_, _, -, _, -, _, -, same⟩ := ok
  exact Except.ok.inj same ▸ .nil

theorem processInitializeMultisigWith_vouches {m : ℕ} {rentSysvarAccount : Bool}
    (ok : processInitializeMultisigWith env L accounts m rentSysvarAccount = .ok outcome) :
    L.Vouches accounts outcome := by
  simp only [processInitializeMultisigWith, bind_eq_ok_iff, Prod.exists] at ok
  obtain ⟨_, _, -, _, -, _, -, _, -, ok⟩ := ok
  split at ok
  · simp only [bind_eq_ok_iff] at ok
    obtain ⟨_, -, _, -, _, -, _, -, _, -, same⟩ := ok
    exact Except.ok.inj same ▸ .nil
  · cases ok

theorem processSyncNative_vouches (ok : processSyncNative env L accounts = .ok outcome) :
    L.Vouches accounts outcome := by
  simp only [processSyncNative, bind_eq_ok_iff, Prod.exists] at ok
  obtain ⟨_, _, -, _, -, _, -, _, -, _, -, _, -, _, -, same⟩ := ok
  exact Except.ok.inj same ▸ .nil

theorem processHarvestWithheldTokensToMint_vouches
    (ok : processHarvestWithheldTokensToMint L accounts = .ok outcome) :
    L.Vouches accounts outcome := by
  simp only [processHarvestWithheldTokensToMint, bind_eq_ok_iff, Prod.exists] at ok
  obtain ⟨_, _, -, _, -, _, -, _, -, _, _, -, _, -, same⟩ := ok
  exact Except.ok.inj same ▸ .nil

theorem processHarvestWithheldTokensToMintConfidential_vouches
    (ok : processHarvestWithheldTokensToMintConfidential L accounts = .ok outcome) :
    L.Vouches accounts outcome := by
  simp only [processHarvestWithheldTokensToMintConfidential, bind_eq_ok_iff, Prod.exists] at ok
  obtain ⟨_, _, -, _, -, _, -, _, -, _, -, _, -, _, _, -, _, -, same⟩ := ok
  exact Except.ok.inj same ▸ .nil

/-- The authority of the confidential extension of a mint signs for itself. -/
theorem processUpdateConfidentialTransferMint_vouches {auto : Bool}
    {auditor : MaybeNull ElGamalPubkey}
    (ok : processUpdateConfidentialTransferMint L accounts auto auditor = .ok outcome) :
    L.Vouches accounts outcome := by
  simp only [processUpdateConfidentialTransferMint, bind_eq_ok_iff, Prod.exists] at ok
  obtain ⟨_, _, -, _, _, -, _, -, _, -, _, -, _, -, _, -, _, -, _, -, same⟩ := ok
  exact Except.ok.inj same ▸ .nil

theorem processApproveAccount_vouches (ok : processApproveAccount L accounts = .ok outcome) :
    L.Vouches accounts outcome := by
  simp only [processApproveAccount, bind_eq_ok_iff, Prod.exists] at ok
  obtain ⟨_, _, -, _, _, -, _, _, -, _, -, _, -, _, -, _, -, _, -, _, -, _, -, _, -, _, -, _, -, same⟩ := ok
  exact Except.ok.inj same ▸ .nil

theorem processConfigureAccountWithRegistry_vouches
    (ok : processConfigureAccountWithRegistry env L accounts = .ok outcome) :
    L.Vouches accounts outcome := by
  simp only [processConfigureAccountWithRegistry, bind_eq_ok_iff, Prod.exists] at ok
  obtain ⟨_, _, -, _, _, -, _, _, -, _, -, _, -, _, -, _, -, _, -, _, -, _, -, _, -, same⟩ := ok
  exact Except.ok.inj same ▸ .nil

/-! ### The base instructions -/

/-- **Who may debit an account signs**, whichever of the three it is. -/
theorem debitAuthority_signs {account base : PodAccount} {authority : AccountMeta}
    {signers : List AccountMeta} {permanentDelegate : Option Address} {amount : ℕ} {spends : Bool}
    {key : Address} {arm : DebitArm} (tail : authority :: signers <:+ accounts)
    (ok : debitAuthority L account authority signers permanentDelegate amount spends =
      .ok (base, key, arm)) : L.Signs accounts key := by
  unfold debitAuthority at ok
  split at ok
  · obtain ⟨_, valid, same⟩ := bind_eq_ok_iff.mp ok
    obtain ⟨-, rfl, -⟩ := Prod.mk.injEq .. ▸ Except.ok.inj same
    exact signs_of_tail tail valid
  · split at ok
    · simp only [bind_eq_ok_iff] at ok
      obtain ⟨_, valid, _, -, same⟩ := ok
      cases same
      exact signs_of_tail tail valid
    · obtain ⟨_, valid, same⟩ := bind_eq_ok_iff.mp ok
      cases same
      exact signs_of_tail tail valid

theorem nextMintInfo_suffix {decimals : Option ℕ} {mint : Option (AccountMeta × ℕ)}
    {rest : List AccountMeta} (ok : nextMintInfo decimals accounts = .ok (mint, rest)) :
    rest <:+ accounts := by
  cases decimals with
  | none =>
    obtain ⟨-, rfl⟩ := Prod.mk.inj (Except.ok.inj ok)
    exact List.suffix_rfl
  | some decimals =>
    simp only [nextMintInfo, bind_eq_ok_iff, Prod.exists, nextAccountInfo_eq_ok_iff] at ok
    obtain ⟨info, _, rfl, same⟩ := ok
    obtain ⟨-, rfl⟩ := Prod.mk.inj (Except.ok.inj same)
    exact List.suffix_cons ..

theorem processTransfer_vouches {amount : ℕ} {instruction : TransferInstruction}
    (ok : processTransfer env L accounts amount instruction = .ok outcome) :
    L.Vouches accounts outcome := by
  simp only [processTransfer, bind_eq_ok_iff, Prod.exists, nextAccountInfo_eq_ok_iff] at ok
  obtain ⟨source, _, rfl, mint, _, next, destination, _, rfl, authority, signers, rfl, _, -, _, -, _, -,
    _, -, _, -, _, -, terms, -, _, -, _, -, base, key, arm, debit, ok⟩ := ok
  have tail : authority :: signers <:+ source :: _ :=
    (List.suffix_cons ..).trans ((nextMintInfo_suffix next).trans (List.suffix_cons ..))
  have signs := debitAuthority_signs tail debit
  split at ok
  · simp only [bind_eq_ok_iff] at ok
    obtain ⟨_, -, same⟩ := ok
    exact Except.ok.inj same ▸ .of_signs signs
  · simp only [bind_eq_ok_iff] at ok
    obtain ⟨_, -, _, -, _, -, _, -, _, -, _, -, _, -, _, -, _, -, same⟩ := ok
    exact Except.ok.inj same ▸ .of_signs signs

theorem processApprove_vouches {amount : ℕ} {decimals : Option ℕ}
    (ok : processApprove env L accounts amount decimals = .ok outcome) :
    L.Vouches accounts outcome := by
  simp only [processApprove, bind_eq_ok_iff, Prod.exists, nextAccountInfo_eq_ok_iff] at ok
  obtain ⟨source, _, rfl, _, -, mint, _, next, delegate, _, rfl, owner, signers, rfl, _, -, _, -, _, -,
    _, valid, _, -, _, -, same⟩ := ok
  have tail : owner :: signers <:+ source :: _ :=
    (List.suffix_cons ..).trans ((nextMintInfo_suffix next).trans (List.suffix_cons ..))
  exact Except.ok.inj same ▸ .of_tail tail valid

theorem processRevoke_vouches (ok : processRevoke L accounts = .ok outcome) :
    L.Vouches accounts outcome := by
  simp only [processRevoke, bind_eq_ok_iff, Prod.exists, nextAccountInfo_eq_ok_iff] at ok
  obtain ⟨source, _, rfl, authority, signers, rfl, _, -, _, -, _, -, _, valid, _, -, same⟩ := ok
  exact Except.ok.inj same ▸ .of_tail (List.suffix_cons ..) valid

/-- The authorities of a token account. -/
theorem setAccountAuthority_signs {account : TokenAccountState} {base : PodAccount} {key : Address}
    {authority : AccountMeta} {signers : List AccountMeta} {type : AuthorityType}
    {new : Option Address} (tail : authority :: signers <:+ accounts)
    (ok : setAccountAuthority env L account authority signers type new = .ok (base, key)) :
    L.Signs accounts key := by
  obtain ⟨-, ok⟩ := require_bind_eq_ok_iff.mp ok
  cases type
  case accountOwner =>
    simp only [bind_eq_ok_iff] at ok
    obtain ⟨_, valid, _, -, _, -, _, -, _, -, same⟩ := ok
    cases same
    exact signs_of_tail tail valid
  case closeAccount =>
    simp only [bind_eq_ok_iff] at ok
    obtain ⟨_, valid, _, -, same⟩ := ok
    cases same
    exact signs_of_tail tail valid
  all_goals cases ok

/-- The authorities that an extension of a mint names. -/
theorem setExtensionAuthority_signs {mint mint' : MintState} {key : Address}
    {authority : AccountMeta} {signers : List AccountMeta} {new : Option Address} {t : ExtensionType}
    {read : Extension t → MaybeNull Address} {write : Extension t → MaybeNull Address → Extension t}
    (tail : authority :: signers <:+ accounts)
    (ok : setExtensionAuthority L mint authority signers new t read write = .ok (mint', key)) :
    L.Signs accounts key := by
  simp only [setExtensionAuthority, bind_eq_ok_iff] at ok
  obtain ⟨_, -, current, -, _, valid, _, -, same⟩ := ok
  cases same
  exact signs_of_tail tail valid

/-- The authorities of a mint. -/
theorem setMintAuthority_signs {mint mint' : MintState} {key : Address} {authority : AccountMeta}
    {signers : List AccountMeta} {type : AuthorityType} {new : Option Address}
    (tail : authority :: signers <:+ accounts)
    (ok : setMintAuthority L mint authority signers type new = .ok (mint', key)) :
    L.Signs accounts key := by
  have base : ∀ {expected : Address} {u : Unit} {state : MintState},
      validateOwner L expected authority signers = .ok u →
      (Except.ok (state, expected) : ProgramResult _) = .ok (mint', key) → L.Signs accounts key := by
    intro expected u state valid same
    cases same
    exact signs_of_tail tail valid
  cases type
  case mintTokens | freezeAccount =>
    simp only [setMintAuthority, bind_eq_ok_iff] at ok
    obtain ⟨_, -, _, valid, same⟩ := ok
    exact base valid same
  case accountOwner | closeAccount => cases ok
  all_goals exact setExtensionAuthority_signs tail ok

theorem processSetAuthority_vouches {type : AuthorityType} {new : Option Address}
    (ok : processSetAuthority env L accounts type new = .ok outcome) : L.Vouches accounts outcome := by
  simp only [processSetAuthority, bind_eq_ok_iff, Prod.exists, nextAccountInfo_eq_ok_iff] at ok
  obtain ⟨info, _, rfl, authority, signers, rfl, _, -, ok⟩ := ok
  have tail : authority :: signers <:+ info :: authority :: signers := List.suffix_cons ..
  split at ok
  · simp only [bind_eq_ok_iff, Prod.exists] at ok
    obtain ⟨base, key, set, _, -, same⟩ := ok
    exact Except.ok.inj same ▸ .of_signs (setAccountAuthority_signs tail set)
  · split at ok
    · simp only [bind_eq_ok_iff, Prod.exists] at ok
      obtain ⟨mint, key, set, _, -, same⟩ := ok
      exact Except.ok.inj same ▸ .of_signs (setMintAuthority_signs tail set)
    · cases ok

theorem processMintTo_vouches {amount : ℕ} {decimals : Option ℕ}
    (ok : processMintTo L accounts amount decimals = .ok outcome) : L.Vouches accounts outcome := by
  simp only [processMintTo, bind_eq_ok_iff, Prod.exists, nextAccountInfo_eq_ok_iff] at ok
  obtain ⟨mint, _, rfl, destination, _, rfl, owner, signers, rfl, _, -, _, -, _, -, _, -, _, -, _, -,
    _, -, _, -, _, -, _, -, _, -, _, -, _, valid, ok⟩ := ok
  obtain ⟨_, -, _, -, _, -, _, -, same⟩ := ok
  exact Except.ok.inj same ▸ .of_tail ⟨[mint, destination], rfl⟩ valid

/-- The approver of a permissioned burn comes before the authority. -/
theorem nextApprover_suffix {permissioned : Bool} {approver : Option AccountMeta}
    {rest : List AccountMeta}
    (ok : (if permissioned = true then do
        let (approver, accounts) ← nextAccountInfo accounts
        .ok (some approver, accounts)
      else .ok (none, accounts) : ProgramResult (Option AccountMeta × List AccountMeta)) =
        .ok (approver, rest)) : rest <:+ accounts := by
  split at ok
  · simp only [bind_eq_ok_iff, Prod.exists, nextAccountInfo_eq_ok_iff] at ok
    obtain ⟨info, _, rfl, same⟩ := ok
    obtain ⟨-, rfl⟩ := Prod.mk.inj (Except.ok.inj same)
    exact List.suffix_cons ..
  · obtain ⟨-, rfl⟩ := Prod.mk.inj (Except.ok.inj ok)
    exact List.suffix_rfl

/-- **A burn is signed**, but for that of tokens that the system program or the incinerator own. -/
theorem processBurn_vouches {amount : ℕ} {permissioned : Bool} {decimals : Option ℕ}
    (ok : processBurn env L accounts amount permissioned decimals = .ok outcome) :
    L.Vouches accounts outcome := by
  simp only [processBurn, bind_eq_ok_iff, Prod.exists, nextAccountInfo_eq_ok_iff] at ok
  obtain ⟨source, _, rfl, mint, _, rfl, _, -, _, -, approver, _, next, authority, signers, rfl, ok⟩ :=
    ok
  have tail : authority :: signers <:+ source :: mint :: _ :=
    (nextApprover_suffix next).trans ⟨[source, mint], rfl⟩
  obtain ⟨_, -, _, -, _, -, _, -, _, -, _, -, _, -, _, -, _, -, _, -, _, -, base, validated, arm, debit,
    _, -, _, -, _, -, _, -, same⟩ := ok
  split at debit
  · cases debit
    exact Except.ok.inj same ▸ .nil
  · simp only [bind_eq_ok_iff, Prod.exists] at debit
    obtain ⟨base', key, arm', debit, done⟩ := debit
    cases done
    exact Except.ok.inj same ▸ .of_signs (debitAuthority_signs tail debit)

theorem processCloseAccount_vouches (ok : processCloseAccount env L accounts = .ok outcome) :
    L.Vouches accounts outcome := by
  simp only [processCloseAccount, bind_eq_ok_iff, Prod.exists, nextAccountInfo_eq_ok_iff] at ok
  obtain ⟨source, _, rfl, destination, _, rfl, authority, signers, rfl, _, -, _, -, validated, closed,
    _, -, same⟩ := ok
  have tail : authority :: signers <:+ source :: destination :: authority :: signers :=
    ⟨[source, destination], rfl⟩
  split at closed
  · simp only [closeTokenAccount, bind_eq_ok_iff] at closed
    obtain ⟨_, -, _, asked, _, -, done⟩ := closed
    cases done
    split at asked
    · simp only [bind_eq_ok_iff] at asked
      obtain ⟨_, -, done⟩ := asked
      cases done
      exact Except.ok.inj same ▸ .nil
    · simp only [bind_eq_ok_iff] at asked
      obtain ⟨_, -, _, valid, done⟩ := asked
      cases done
      exact Except.ok.inj same ▸ .of_tail tail valid
  · split at closed
    · simp only [closeMint, bind_eq_ok_iff] at closed
      obtain ⟨_, -, _, -, _, valid, _, -, _, -, done⟩ := closed
      cases done
      exact Except.ok.inj same ▸ .of_tail tail valid
    · cases closed

theorem processToggleFreezeAccount_vouches {freeze : Bool}
    (ok : processToggleFreezeAccount L accounts freeze = .ok outcome) :
    L.Vouches accounts outcome := by
  simp only [processToggleFreezeAccount, bind_eq_ok_iff, Prod.exists, nextAccountInfo_eq_ok_iff] at ok
  obtain ⟨source, _, rfl, mint, _, rfl, authority, signers, rfl, _, -, _, -, _, -, _, -, _, -, _, -,
    _, -, _, -, _, valid, _, -, same⟩ := ok
  exact Except.ok.inj same ▸ .of_tail ⟨[source, mint], rfl⟩ valid

theorem processWithdrawExcessLamports_vouches
    (ok : processWithdrawExcessLamports env L accounts = .ok outcome) :
    L.Vouches accounts outcome := by
  simp only [processWithdrawExcessLamports, bind_eq_ok_iff, Prod.exists,
    nextAccountInfo_eq_ok_iff] at ok
  obtain ⟨source, _, rfl, destination, _, rfl, authority, signers, rfl, _, -, validated, asked, _, -,
    _, -, same⟩ := ok
  have tail : authority :: signers <:+ source :: destination :: authority :: signers :=
    ⟨[source, destination], rfl⟩
  unfold excessLamportsAuthority at asked
  split at asked
  · simp only [bind_eq_ok_iff] at asked
    obtain ⟨_, -, _, valid, _, -, done⟩ := asked
    cases done
    exact Except.ok.inj same ▸ .of_tail tail valid
  · split at asked
    · split at asked
      · obtain ⟨_, valid, done⟩ := bind_eq_ok_iff.mp asked
        cases done
        exact Except.ok.inj same ▸ .of_tail tail valid
      · simp only [bind_eq_ok_iff] at asked
        obtain ⟨_, -, _, -, done⟩ := asked
        cases done
        exact Except.ok.inj same ▸ .nil
    · simp only [bind_eq_ok_iff] at asked
      obtain ⟨_, -, _, valid, done⟩ := asked
      cases done
      exact Except.ok.inj same ▸ .of_tail tail valid

theorem processUnwrapLamports_vouches {amount : Option ℕ}
    (ok : processUnwrapLamports env L accounts amount = .ok outcome) : L.Vouches accounts outcome := by
  simp only [processUnwrapLamports, bind_eq_ok_iff, Prod.exists, nextAccountInfo_eq_ok_iff] at ok
  obtain ⟨source, _, rfl, destination, _, rfl, authority, signers, rfl, _, -, _, -, _, _, -, _, -,
    base, key, arm, debit, _, -, _, -, _, -, same⟩ := ok
  exact Except.ok.inj same ▸ .of_signs (debitAuthority_signs ⟨[source, destination], rfl⟩ debit)

/-! ### Settings -/

theorem processToggleRequiredMemoTransfers_vouches {enable : Bool}
    (ok : processToggleRequiredMemoTransfers L accounts enable = .ok outcome) :
    L.Vouches accounts outcome := by
  simp only [processToggleRequiredMemoTransfers, bind_eq_ok_iff, Prod.exists,
    nextAccountInfo_eq_ok_iff] at ok
  obtain ⟨info, _, rfl, owner, signers, rfl, _, -, _, -, _, valid, _, -, _, -, same⟩ := ok
  exact Except.ok.inj same ▸ .of_tail (List.suffix_cons ..) valid

theorem processToggleCpiGuard_vouches {enable : Bool}
    (ok : processToggleCpiGuard env L accounts enable = .ok outcome) :
    L.Vouches accounts outcome := by
  simp only [processToggleCpiGuard, bind_eq_ok_iff, Prod.exists, nextAccountInfo_eq_ok_iff] at ok
  obtain ⟨info, _, rfl, owner, signers, rfl, _, -, _, -, _, valid, _, -, _, -, _, -, same⟩ := ok
  exact Except.ok.inj same ▸ .of_tail (List.suffix_cons ..) valid

theorem processReallocate_vouches {types : List ExtensionType}
    (ok : processReallocate env L accounts types = .ok outcome) : L.Vouches accounts outcome := by
  simp only [processReallocate, bind_eq_ok_iff, Prod.exists, nextAccountInfo_eq_ok_iff] at ok
  obtain ⟨info, _, rfl, payer, _, rfl, system, _, rfl, authority, signers, rfl, _, -, _, -, _, valid,
    _, -, _, -, ok⟩ := ok
  have tail : authority :: signers <:+ info :: payer :: system :: authority :: signers :=
    ⟨[info, payer, system], rfl⟩
  split at ok
  · exact Except.ok.inj ok ▸ .of_tail tail valid
  · simp only [bind_eq_ok_iff] at ok
    obtain ⟨_, -, _, -, _, -, _, -, _, -, same⟩ := ok
    exact Except.ok.inj same ▸ .of_tail tail valid

/-- **The authority that an extension of a mint names.** -/
theorem updateMintExtension_vouches {t : ExtensionType} {authorityOf : Extension t → MaybeNull Address}
    {missing : TokenError} {update : Extension t → ProgramResult (Extension t)}
    (ok : updateMintExtension L accounts t authorityOf missing update = .ok outcome) :
    L.Vouches accounts outcome := by
  simp only [updateMintExtension, bind_eq_ok_iff, Prod.exists, nextAccountInfo_eq_ok_iff] at ok
  obtain ⟨mint, _, rfl, authority, signers, rfl, _, -, _, -, _, -, _, -, _, valid, _, -, _, -, same⟩ := ok
  exact Except.ok.inj same ▸ .of_tail (List.suffix_cons ..) valid

theorem processUpdateDefaultAccountState_vouches {state : AccountState}
    (ok : processUpdateDefaultAccountState L accounts state = .ok outcome) :
    L.Vouches accounts outcome := by
  simp only [processUpdateDefaultAccountState, bind_eq_ok_iff, Prod.exists,
    nextAccountInfo_eq_ok_iff] at ok
  obtain ⟨_, -, mint, _, rfl, authority, signers, rfl, _, -, _, -, _, -, _, valid, _, -, _, -, same⟩ := ok
  exact Except.ok.inj same ▸ .of_tail (List.suffix_cons ..) valid

theorem processSettingInstruction_vouches {instruction : TokenInstruction}
    (ok : processSettingInstruction env L accounts instruction = .ok outcome) :
    L.Vouches accounts outcome := by
  cases instruction
  case defaultAccountStateExtension instruction =>
    cases instruction
    case initializeExtension =>
      obtain ⟨default, -, rest⟩ := bind_eq_ok_iff.mp ok
      exact initializeMintExtension_vouches rest
    case update => exact processUpdateDefaultAccountState_vouches ok
  case memoTransferExtension instruction =>
    cases instruction
    all_goals exact processToggleRequiredMemoTransfers_vouches ok
  case cpiGuardExtension instruction =>
    cases instruction
    all_goals exact processToggleCpiGuard_vouches ok
  case interestBearingMintExtension instruction =>
    cases instruction
    case initializeExtension => exact initializeMintExtension_vouches ok
    case updateRate => exact updateMintExtension_vouches ok
  case transferHookExtension instruction =>
    cases instruction
    case initializeExtension => exact initializeMintExtension_vouches ok
    case update => exact updateMintExtension_vouches ok
  case metadataPointerExtension instruction =>
    cases instruction
    case initializeExtension => exact initializeMintExtension_vouches ok
    case update => exact updateMintExtension_vouches ok
  case groupPointerExtension instruction =>
    cases instruction
    case initializeExtension => exact initializeMintExtension_vouches ok
    case update => exact updateMintExtension_vouches ok
  case groupMemberPointerExtension instruction =>
    cases instruction
    case initializeExtension => exact initializeMintExtension_vouches ok
    case update => exact updateMintExtension_vouches ok
  case scaledUiAmountExtension instruction =>
    cases instruction
    case initializeExtension => exact initializeMintExtension_vouches ok
    case updateMultiplier => exact updateMintExtension_vouches ok
  case pausableExtension instruction =>
    cases instruction
    case initializeExtension => exact initializeMintExtension_vouches ok
    all_goals exact updateMintExtension_vouches ok
  all_goals cases ok

/-! ### Fees -/

theorem processWithdrawWithheldTokensFromMint_vouches
    (ok : processWithdrawWithheldTokensFromMint L accounts = .ok outcome) :
    L.Vouches accounts outcome := by
  simp only [processWithdrawWithheldTokensFromMint, bind_eq_ok_iff, Prod.exists,
    nextAccountInfo_eq_ok_iff] at ok
  obtain ⟨mint, _, rfl, destination, _, rfl, authority, signers, rfl, _, -, _, -, _, -, _, -, _, -, _,
    valid, _, -, _, -, _, -, _, -, _, -, _, -, same⟩ := ok
  exact Except.ok.inj same ▸ .of_tail ⟨[mint, destination], rfl⟩ valid

/-- The signers come before the accounts that fees are withdrawn from. -/
theorem signs_of_front {expected : Address} {owner : AccountMeta} {rest : List AccountMeta} {n : ℕ}
    {u : Unit} (tail : owner :: rest <:+ accounts)
    (ok : validateOwner L expected owner (rest.take n) = .ok u) : L.Signs accounts expected :=
  signs_of_validateOwner (tail.subset List.mem_cons_self)
    (fun _ member => tail.subset (List.mem_cons_of_mem _ (List.mem_of_mem_take member))) ok

theorem processWithdrawWithheldTokensFromAccounts_vouches {numTokenAccounts : ℕ}
    (ok : processWithdrawWithheldTokensFromAccounts L accounts numTokenAccounts = .ok outcome) :
    L.Vouches accounts outcome := by
  simp only [processWithdrawWithheldTokensFromAccounts, bind_eq_ok_iff, Prod.exists,
    nextAccountInfo_eq_ok_iff] at ok
  obtain ⟨mint, _, rfl, destination, _, rfl, authority, rest, rfl, _, -, _, -, _, -, _, -, _, -, _,
    valid, _, -, _, -, _, -, _, _, -, _, -, same⟩ := ok
  exact Except.ok.inj same ▸ .of_signs (signs_of_front ⟨[mint, destination], rfl⟩ valid)

theorem processTransferFeeInstruction_vouches {instruction : TransferFeeInstruction}
    (ok : processTransferFeeInstruction env L accounts instruction = .ok outcome) :
    L.Vouches accounts outcome := by
  cases instruction
  case initializeTransferFeeConfig => exact initializeMintExtension_vouches ok
  case transferCheckedWithFee => exact processTransfer_vouches ok
  case withdrawWithheldTokensFromMint => exact processWithdrawWithheldTokensFromMint_vouches ok
  case withdrawWithheldTokensFromAccounts =>
    exact processWithdrawWithheldTokensFromAccounts_vouches ok
  case harvestWithheldTokensToMint => exact processHarvestWithheldTokensToMint_vouches ok
  case setTransferFee => exact updateMintExtension_vouches ok

theorem processWithdrawWithheldTokensFromMintConfidential_vouches {decryptable : AeCiphertext}
    {offset : ℤ} (ok : processWithdrawWithheldTokensFromMintConfidential env L accounts decryptable
      offset = .ok outcome) : L.Vouches accounts outcome := by
  simp only [processWithdrawWithheldTokensFromMintConfidential, bind_eq_ok_iff, Prod.exists,
    nextAccountInfo_eq_ok_iff] at ok
  obtain ⟨mint, _, rfl, destination, front, rfl, _, _, proof, authority, signers, rfl, _, -, _, -, _, -,
    _, -, _, valid, ok⟩ := ok
  have tail : authority :: signers <:+ mint :: destination :: front :=
    (verifyAndExtractContext_suffix proof).trans ⟨[mint, destination], rfl⟩
  obtain ⟨_, -, _, -, _, -, _, -, _, -, _, -, _, -, _, -, _, -, _, -, _, -, _, -, _, -, same⟩ := ok
  exact Except.ok.inj same ▸ .of_tail tail valid

theorem processWithdrawWithheldTokensFromAccountsConfidential_vouches {numTokenAccounts : ℕ}
    {decryptable : AeCiphertext} {offset : ℤ}
    (ok : processWithdrawWithheldTokensFromAccountsConfidential env L accounts numTokenAccounts
      decryptable offset = .ok outcome) : L.Vouches accounts outcome := by
  simp only [processWithdrawWithheldTokensFromAccountsConfidential, bind_eq_ok_iff, Prod.exists,
    nextAccountInfo_eq_ok_iff] at ok
  obtain ⟨mint, _, rfl, destination, front, rfl, _, _, proof, authority, rest, rfl, _, -, _, -, _, -, _,
    -, _, valid, ok⟩ := ok
  have tail : authority :: rest <:+ mint :: destination :: front :=
    (verifyAndExtractContext_suffix proof).trans ⟨[mint, destination], rfl⟩
  obtain ⟨_, -, _, -, _, -, _, -, _, -, _, -, _, -, _, -, _, -, _, _, _, -, _, -, _, -, _, -, _, -,
    same⟩ := ok
  exact Except.ok.inj same ▸ .of_signs (signs_of_front tail valid)

theorem processConfidentialTransferFeeInstruction_vouches
    {instruction : ConfidentialTransferFeeInstruction}
    (ok : processConfidentialTransferFeeInstruction env L accounts instruction = .ok outcome) :
    L.Vouches accounts outcome := by
  cases instruction
  case initializeConfidentialTransferFeeConfig =>
    exact initializeMintExtension_vouches ok
  case withdrawWithheldTokensFromMint =>
    exact processWithdrawWithheldTokensFromMintConfidential_vouches ok
  case withdrawWithheldTokensFromAccounts =>
    exact processWithdrawWithheldTokensFromAccountsConfidential_vouches ok
  case harvestWithheldTokensToMint =>
    exact processHarvestWithheldTokensToMintConfidential_vouches ok
  case enableHarvestToMint | disableHarvestToMint => exact updateMintExtension_vouches ok

/-! ### Confidential balances -/

theorem processConfigureAccount_vouches {decryptable : AeCiphertext} {maximum : ℕ} {offset : ℤ}
    (ok : processConfigureAccount env L accounts decryptable maximum offset = .ok outcome) :
    L.Vouches accounts outcome := by
  simp only [processConfigureAccount, bind_eq_ok_iff, Prod.exists, nextAccountInfo_eq_ok_iff] at ok
  obtain ⟨account, _, rfl, mint, front, rfl, _, _, proof, _, -, _, -, _, -, authority, signers, rfl, _,
    valid, _, -, same⟩ := ok
  have tail : authority :: signers <:+ account :: mint :: front :=
    (verifyAndExtractContext_suffix proof).trans ⟨[account, mint], rfl⟩
  exact Except.ok.inj same ▸ .of_tail tail valid

theorem processEmptyAccount_vouches {offset : ℤ}
    (ok : processEmptyAccount env L accounts offset = .ok outcome) : L.Vouches accounts outcome := by
  simp only [processEmptyAccount, bind_eq_ok_iff, Prod.exists, nextAccountInfo_eq_ok_iff] at ok
  obtain ⟨account, front, rfl, _, _, proof, authority, signers, rfl, _, -, _, -, _, valid, _, -, _, -,
    _, -, _, -, _, -, same⟩ := ok
  have tail : authority :: signers <:+ account :: front :=
    (verifyAndExtractContext_suffix proof).trans (List.suffix_cons ..)
  exact Except.ok.inj same ▸ .of_tail tail valid

/-- The owner of an account that deposits or withdraws. -/
theorem confidentialExchangeAccount_validates {info mintInfo authority : AccountMeta}
    {signers : List AccountMeta} {account : TokenAccountState}
    (ok : confidentialExchangeAccount L info mintInfo authority signers = .ok account) :
    ∃ u, validateOwner L account.base.owner authority signers = .ok u := by
  simp only [confidentialExchangeAccount, bind_eq_ok_iff] at ok
  obtain ⟨_, -, _, -, _, -, u, valid, _, -, _, -, _, -, same⟩ := ok
  exact ⟨u, Except.ok.inj same ▸ valid⟩

theorem processDeposit_vouches {amount decimals : ℕ}
    (ok : processDeposit L accounts amount decimals = .ok outcome) : L.Vouches accounts outcome := by
  simp only [processDeposit, bind_eq_ok_iff, Prod.exists, nextAccountInfo_eq_ok_iff] at ok
  obtain ⟨info, _, rfl, mint, _, rfl, authority, signers, rfl, _, -, _, -, _, -, _, -, _, -, account,
    exchange, _, -, _, -, _, -, _, _, -, _, -, _, -, _, -, _, -, same⟩ := ok
  obtain ⟨u, valid⟩ := confidentialExchangeAccount_validates exchange
  exact Except.ok.inj same ▸ .of_tail ⟨[info, mint], rfl⟩ valid

theorem processWithdraw_vouches {amount decimals : ℕ} {decryptable : AeCiphertext}
    {equality range : ℤ} (ok : processWithdraw env L accounts amount decimals decryptable equality
      range = .ok outcome) : L.Vouches accounts outcome := by
  simp only [processWithdraw, bind_eq_ok_iff, Prod.exists, nextAccountInfo_eq_ok_iff] at ok
  obtain ⟨info, _, rfl, mint, front, rfl, _, _, proof, authority, signers, rfl, _, -, _, -, _, -, _, -,
    _, -, account, exchange, _, -, _, -, _, -, _, -, _, -, _, -, _, -, same⟩ := ok
  have tail : authority :: signers <:+ info :: mint :: front :=
    (verifyWithdrawProof_suffix proof).trans ⟨[info, mint], rfl⟩
  obtain ⟨u, valid⟩ := confidentialExchangeAccount_validates exchange
  exact Except.ok.inj same ▸ .of_tail tail valid

/-- **The owner of the source of a confidential transfer.** -/
theorem debitConfidential_validates {sourceInfo mintInfo authority : AccountMeta}
    {signers : List AccountMeta} {pubkey : ElGamalPubkey} {lo hi : GroupedElGamalCiphertext3Handles}
    {remaining : ElGamalCiphertext} {decryptable : AeCiphertext} {ledger : Ledger} {key : Address}
    (ok : debitConfidential env L sourceInfo mintInfo authority signers pubkey lo hi remaining
      decryptable = .ok (ledger, key)) : ∃ u, validateOwner L key authority signers = .ok u := by
  simp only [debitConfidential, bind_eq_ok_iff] at ok
  obtain ⟨_, -, _, -, _, -, u, valid, _, -, _, -, _, -, _, -, _, -, _, -, _, -, _, -, same⟩ := ok
  cases same
  exact ⟨u, valid⟩

theorem processConfidentialTransfer_vouches {decryptable : AeCiphertext}
    {auditorLo auditorHi : ElGamalCiphertext} {offsets : ConfidentialTransferOffsets}
    (ok : processConfidentialTransfer env L accounts decryptable auditorLo auditorHi offsets =
      .ok outcome) : L.Vouches accounts outcome := by
  simp only [processConfidentialTransfer, bind_eq_ok_iff, Prod.exists, nextAccountInfo_eq_ok_iff] at ok
  obtain ⟨source, _, rfl, mint, _, rfl, destination, front, rfl, _, -, _, -, _, -, _, -, moved, key, _, _,
    sides, _, -, same⟩ := ok
  have before : front <:+ source :: mint :: destination :: front :=
    ⟨[source, mint, destination], rfl⟩
  split at sides
  · simp only [confidentialTransferWithoutFee, bind_eq_ok_iff, Prod.exists,
      nextAccountInfo_eq_ok_iff] at sides
    obtain ⟨_, _, proof, authority, signers, rfl, _, -, _, -, ledger, key', debit, _, -, done⟩ := sides
    cases done
    obtain ⟨u, valid⟩ := debitConfidential_validates debit
    exact Except.ok.inj same ▸ .of_tail ((verifyThreeProofs_suffix proof).trans before) valid
  · simp only [confidentialTransferWithFee, bind_eq_ok_iff, Prod.exists,
      nextAccountInfo_eq_ok_iff] at sides
    obtain ⟨_, -, _, -, _, _, proof, authority, signers, rfl, _, -, _, -, _, -, _, -, ledger, key', debit,
      _, -, done⟩ := sides
    cases done
    obtain ⟨u, valid⟩ := debitConfidential_validates debit
    exact Except.ok.inj same ▸
      .of_tail ((verifyTransferWithFeeProof_suffix proof).trans before) valid

/-- **What an owner changes of the confidential extension.** -/
theorem updateConfidentialAccount_vouches {check : TokenAccountState → ProgramResult Unit}
    {update : ConfidentialTransferAccount → ProgramResult ConfidentialTransferAccount}
    (ok : updateConfidentialAccount L accounts check update = .ok outcome) :
    L.Vouches accounts outcome := by
  simp only [updateConfidentialAccount, bind_eq_ok_iff, Prod.exists, nextAccountInfo_eq_ok_iff] at ok
  obtain ⟨info, _, rfl, authority, signers, rfl, _, -, _, -, _, valid, _, -, _, -, _, -, _, -, same⟩ := ok
  exact Except.ok.inj same ▸ .of_tail (List.suffix_cons ..) valid

theorem processConfidentialTransferInstruction_vouches {instruction : ConfidentialTransferInstruction}
    (ok : processConfidentialTransferInstruction env L accounts instruction = .ok outcome) :
    L.Vouches accounts outcome := by
  cases instruction
  case initializeMint => exact initializeMintExtension_vouches ok
  case updateMint => exact processUpdateConfidentialTransferMint_vouches ok
  case configureAccount => exact processConfigureAccount_vouches ok
  case approveAccount => exact processApproveAccount_vouches ok
  case emptyAccount => exact processEmptyAccount_vouches ok
  case deposit => exact processDeposit_vouches ok
  case withdraw => exact processWithdraw_vouches ok
  case transfer | transferWithFee => exact processConfidentialTransfer_vouches ok
  case configureAccountWithRegistry => exact processConfigureAccountWithRegistry_vouches ok
  all_goals exact updateConfidentialAccount_vouches ok

/-! ### Confidential supplies -/

theorem validateMintAuthority_validates {mint : MintState} {authority : AccountMeta}
    {signers : List AccountMeta} {key : Address}
    (ok : validateMintAuthority L mint authority signers = .ok key) :
    ∃ u, validateOwner L key authority signers = .ok u := by
  simp only [validateMintAuthority, bind_eq_ok_iff] at ok
  obtain ⟨_, -, u, valid, same⟩ := ok
  exact ⟨u, Except.ok.inj same ▸ valid⟩

theorem processRotateSupplyElgamalPubkey_vouches {offset : ℤ}
    (ok : processRotateSupplyElgamalPubkey env L accounts offset = .ok outcome) :
    L.Vouches accounts outcome := by
  simp only [processRotateSupplyElgamalPubkey, bind_eq_ok_iff, Prod.exists,
    nextAccountInfo_eq_ok_iff] at ok
  obtain ⟨mint, front, rfl, _, -, _, -, _, -, _, _, proof, _, -, _, -, _, -, authority, signers, rfl, key,
    asked, _, -, same⟩ := ok
  have tail : authority :: signers <:+ mint :: front :=
    (verifyAndExtractContext_suffix proof).trans (List.suffix_cons ..)
  obtain ⟨u, valid⟩ := validateMintAuthority_validates asked
  exact Except.ok.inj same ▸ .of_tail tail valid

theorem processUpdateDecryptableSupply_vouches {decryptable : AeCiphertext}
    (ok : processUpdateDecryptableSupply L accounts decryptable = .ok outcome) :
    L.Vouches accounts outcome := by
  simp only [processUpdateDecryptableSupply, bind_eq_ok_iff, Prod.exists,
    nextAccountInfo_eq_ok_iff] at ok
  obtain ⟨mint, _, rfl, _, -, _, -, _, -, authority, signers, rfl, key, asked, _, -, same⟩ := ok
  obtain ⟨u, valid⟩ := validateMintAuthority_validates asked
  exact Except.ok.inj same ▸ .of_tail (List.suffix_cons ..) valid

theorem processApplyPendingBurn_vouches (ok : processApplyPendingBurn L accounts = .ok outcome) :
    L.Vouches accounts outcome := by
  simp only [processApplyPendingBurn, bind_eq_ok_iff, Prod.exists, nextAccountInfo_eq_ok_iff] at ok
  obtain ⟨mint, _, rfl, _, -, _, -, _, -, authority, signers, rfl, key, asked, _, -, _, -, same⟩ := ok
  obtain ⟨u, valid⟩ := validateMintAuthority_validates asked
  exact Except.ok.inj same ▸ .of_tail (List.suffix_cons ..) valid

theorem processConfidentialMint_vouches {data : MintInstructionData}
    (ok : processConfidentialMint env L accounts data = .ok outcome) : L.Vouches accounts outcome := by
  simp only [processConfidentialMint, verifyMintProof, bind_eq_ok_iff, Prod.exists,
    nextAccountInfo_eq_ok_iff] at ok
  obtain ⟨info, _, rfl, mint, front, rfl, _, -, _, -, _, -, _, -, _, -, _, -, _, -, _, -, _, _, proof,
    authority, signers, rfl, key, asked, ok⟩ := ok
  have tail : authority :: signers <:+ info :: mint :: front :=
    (verifyThreeProofs_suffix proof).trans ⟨[info, mint], rfl⟩
  obtain ⟨u, valid⟩ := validateMintAuthority_validates asked
  obtain ⟨_, -, _, -, _, -, _, -, _, -, _, -, _, -, _, -, _, -, _, -, _, -, _, -, same⟩ := ok
  exact Except.ok.inj same ▸ .of_tail tail valid

theorem processConfidentialBurn_vouches {data : BurnInstructionData} {permissioned : Bool}
    (ok : processConfidentialBurn env L accounts data permissioned = .ok outcome) :
    L.Vouches accounts outcome := by
  simp only [processConfidentialBurn, verifyBurnProof, bind_eq_ok_iff, Prod.exists,
    nextAccountInfo_eq_ok_iff] at ok
  obtain ⟨info, _, rfl, mint, front, rfl, _, -, _, -, _, -, _, -, _, _, proof, _, _, next, authority,
    signers, rfl, _, -, _, -, _, -, _, -, _, valid, ok⟩ := ok
  have tail : authority :: signers <:+ info :: mint :: front :=
    (nextApprover_suffix next).trans ((verifyThreeProofs_suffix proof).trans ⟨[info, mint], rfl⟩)
  obtain ⟨_, -, _, -, _, -, _, -, _, -, _, -, _, -, _, -, _, -, _, -, _, -, _, -, same⟩ := ok
  exact Except.ok.inj same ▸ .of_tail tail valid

theorem processConfidentialMintBurnInstruction_vouches
    {instruction : ConfidentialMintBurnInstruction}
    (ok : processConfidentialMintBurnInstruction env L accounts instruction = .ok outcome) :
    L.Vouches accounts outcome := by
  cases instruction
  case initializeMint => exact initializeMintExtension_vouches ok
  case rotateSupplyElgamalPubkey => exact processRotateSupplyElgamalPubkey_vouches ok
  case updateDecryptableSupply => exact processUpdateDecryptableSupply_vouches ok
  case mint => exact processConfidentialMint_vouches ok
  case burn => exact processConfidentialBurn_vouches ok
  case applyPendingBurn => exact processApplyPendingBurn_vouches ok

/-! ### Metadata and groups -/

theorem updateMetadataWith_vouches {update : TokenMetadata → ProgramResult TokenMetadata}
    (ok : updateMetadataWith L accounts update = .ok outcome) : L.Vouches accounts outcome := by
  simp only [updateMetadataWith, bind_eq_ok_iff, Prod.exists] at ok
  obtain ⟨_, _, -, _, _, -, _, -, _, -, _, -, _, -, _, -, _, -, _, -, same⟩ := ok
  exact Except.ok.inj same ▸ .nil

theorem updateGroupWith_vouches {update : TokenGroup → ProgramResult TokenGroup}
    (ok : updateGroupWith L accounts update = .ok outcome) : L.Vouches accounts outcome := by
  simp only [updateGroupWith, bind_eq_ok_iff, Prod.exists] at ok
  obtain ⟨_, _, -, _, _, -, _, -, _, -, _, -, _, -, _, -, _, -, same⟩ := ok
  exact Except.ok.inj same ▸ .nil

theorem processTokenMetadataInstruction_vouches {instruction : TokenMetadataInstruction}
    (ok : processTokenMetadataInstruction env L accounts instruction = .ok outcome) :
    L.Vouches accounts outcome := by
  cases instruction
  case initializeMetadata name symbol uri =>
    replace ok : processInitializeMetadata L accounts name symbol uri = .ok outcome := ok
    simp only [processInitializeMetadata, bind_eq_ok_iff, Prod.exists] at ok
    obtain ⟨_, _, -, _, _, -, _, _, -, _, _, -, _, -, _, -, _, -, _, -, _, -, _, -, _, -, same⟩ := ok
    exact Except.ok.inj same ▸ .nil
  case emit =>
    replace ok : processEmit L accounts = .ok outcome := ok
    simp only [processEmit, bind_eq_ok_iff, Prod.exists] at ok
    obtain ⟨_, _, -, _, -, _, -, _, -, same⟩ := ok
    exact Except.ok.inj same ▸ .nil
  all_goals exact updateMetadataWith_vouches ok

theorem processTokenGroupInstruction_vouches {instruction : TokenGroupInstruction}
    (ok : processTokenGroupInstruction env L accounts instruction = .ok outcome) :
    L.Vouches accounts outcome := by
  cases instruction
  case initializeGroup updateAuthority maxSize =>
    replace ok : processInitializeGroup L accounts updateAuthority maxSize.toNat = .ok outcome := ok
    simp only [processInitializeGroup, bind_eq_ok_iff, Prod.exists] at ok
    obtain ⟨_, _, -, _, _, -, _, _, -, _, -, _, -, _, -, _, -, _, -, _, -, same⟩ := ok
    exact Except.ok.inj same ▸ .nil
  case initializeMember =>
    replace ok : processInitializeMember env L accounts = .ok outcome := ok
    simp only [processInitializeMember, bind_eq_ok_iff, Prod.exists] at ok
    obtain ⟨_, _, -, _, _, -, _, _, -, _, _, -, _, _, -, _, -, _, -, _, -, _, -, _, -, _, -, _, -, _, -,
      _, -, _, -, _, -, _, -, _, -, same⟩ := ok
    exact Except.ok.inj same ▸ .nil
  all_goals exact updateGroupWith_vouches ok

/-! ### Every instruction -/

/-- **Every key that an instruction validated has signed.** -/
theorem run_signed {i : Invocation} (ok : i.run L = .ok outcome) : L.Vouches i.accounts outcome := by
  unfold Invocation.run at ok
  cases named : i.instruction
  all_goals rw [named] at ok
  case initializeMint | initializeMint2 => exact processInitializeMintWith_vouches ok
  case initializeAccount =>
    replace ok : processInitializeAccountWith i.env L i.accounts none true = .ok outcome := ok
    exact processInitializeAccountWith_vouches ok
  case initializeAccount2 owner =>
    replace ok : processInitializeAccountWith i.env L i.accounts (some owner) true = .ok outcome := ok
    exact processInitializeAccountWith_vouches ok
  case initializeAccount3 owner =>
    replace ok : processInitializeAccountWith i.env L i.accounts (some owner) false = .ok outcome :=
      ok
    exact processInitializeAccountWith_vouches ok
  case initializeMultisig | initializeMultisig2 => exact processInitializeMultisigWith_vouches ok
  case transfer | transferChecked => exact processTransfer_vouches ok
  case approve | approveChecked => exact processApprove_vouches ok
  case revoke => exact processRevoke_vouches ok
  case setAuthority => exact processSetAuthority_vouches ok
  case mintTo | mintToChecked => exact processMintTo_vouches ok
  case burn | burnChecked => exact processBurn_vouches ok
  case closeAccount => exact processCloseAccount_vouches ok
  case freezeAccount | thawAccount => exact processToggleFreezeAccount_vouches ok
  case syncNative => exact processSyncNative_vouches ok
  case getAccountDataSize => exact processGetAccountDataSize_vouches ok
  case initializeImmutableOwner => exact processInitializeImmutableOwner_vouches ok
  case amountToUiAmount | uiAmountToAmount => exact processUiConversion_vouches ok
  case initializeMintCloseAuthority | initializeNonTransferableMint | initializePermanentDelegate =>
    exact initializeMintExtension_vouches ok
  case transferFeeExtension => exact processTransferFeeInstruction_vouches ok
  case confidentialTransferExtension => exact processConfidentialTransferInstruction_vouches ok
  case confidentialTransferFeeExtension =>
    exact processConfidentialTransferFeeInstruction_vouches ok
  case confidentialMintBurnExtension => exact processConfidentialMintBurnInstruction_vouches ok
  case reallocate => exact processReallocate_vouches ok
  case createNativeMint => exact processCreateNativeMint_vouches ok
  case withdrawExcessLamports => exact processWithdrawExcessLamports_vouches ok
  case unwrapLamports => exact processUnwrapLamports_vouches ok
  case permissionedBurnExtension instruction =>
    cases instruction
    case initializeExtension => exact initializeMintExtension_vouches ok
    case burn | burnChecked => exact processBurn_vouches ok
    case confidentialBurn => exact processConfidentialBurn_vouches ok
  case tokenMetadata => exact processTokenMetadataInstruction_vouches ok
  case tokenGroup => exact processTokenGroupInstruction_vouches ok
  all_goals exact processSettingInstruction_vouches ok

end Token2022
