/-
**The writes of initialization.**

* `initializeMintExtension_writes` — an extension is staged.
* `processInitializeMintWith_writes`, `processInitializeAccountWith_writes`,
  `processInitializeMultisigWith_writes`, `processCreateNativeMint_writes` — a base state is written
  where there was none.
-/

import Token2022.Abstract.Write
import Token2022.Refinement.Program

namespace Token2022

open Fallible Relation

variable {i : Invocation} {L : Ledger} {outcome : Outcome}

/-! ### Mints -/

/-- **An extension that is set before its mint is initialized is staged.** -/
theorem initializeMintExtension_writes {t : ExtensionType} {value : ProgramResult (Extension t)}
    (named : i.instruction.initializes = some .mint) (staged : t ∈ stagedTypes .mint)
    (ok : initializeMintExtension L i.accounts t value = .ok outcome) :
    Writes i L outcome.validated L outcome.ledger := by
  simp only [initializeMintExtension, bind_eq_ok_iff, Prod.exists, nextAccountInfo_eq_ok_iff,
    checkProgramAccount_eq_ok_iff, exists_const] at ok
  obtain ⟨info, rest, shape, owned, tlv, unpacked, v, -, tlv', written, ledger, stored, same⟩ := ok
  obtain rfl := Except.ok.inj same
  have data := unpackUninitialized_eq_ok unpacked
  rw [data] at unpacked
  exact .ofChange owned data (.stage named (key?_zero shape) unpacked staged written) stored

/-- **A vacant account becomes a mint.** -/
theorem processInitializeMintWith_writes {decimals : ℕ} {mintAuthority : Address}
    {freezeAuthority : Option Address} {rentSysvarAccount : Bool}
    (named : i.instruction.initializes = some .mint)
    (ok : processInitializeMintWith i.env L i.accounts decimals mintAuthority freezeAuthority
      rentSysvarAccount = .ok outcome) : Writes i L outcome.validated L outcome.ledger := by
  simp only [processInitializeMintWith, bind_eq_ok_iff, Prod.exists, nextAccountInfo_eq_ok_iff,
    checkProgramAccount_eq_ok_iff, require_eq_ok_iff, exists_const,
    ExtensionType.checkForInvalidMintExtensionCombinations_eq_ok_iff] at ok
  obtain ⟨info, rest, shape, owned, _, -, -, tlv, unpacked, len, calculated, agrees, valid, thawable,
    ledger, stored, same⟩ := ok
  obtain rfl := Except.ok.inj same
  have data := unpackUninitialized_eq_ok unpacked
  rw [data] at unpacked agrees
  refine .ofChange owned data (.openMint named (key?_zero shape) unpacked ?_ valid ?_ rfl) stored
  · rw [calculated, agrees]
    rfl
  · intro default held frozen absent
    exact thawable ⟨by rw [held]; exact decide_eq_true frozen, absent⟩

/-- **The native mint is allocated, and opened.** -/
theorem processCreateNativeMint_writes (named : i.instruction = .createNativeMint)
    (ok : processCreateNativeMint i.env L i.accounts = .ok outcome) :
    Writes i L outcome.validated L outcome.ledger := by
  simp only [processCreateNativeMint, bind_eq_ok_iff, Prod.exists, nextAccountInfo_eq_ok_iff,
    require_eq_ok_iff, exists_const] at ok
  obtain ⟨payer, _, -, native, _, -, _, _, -, -, funded, transferred, allocated, assigned, ledger,
    stored, same⟩ := ok
  obtain rfl := Except.ok.inj same
  have paid : Writes i L [] L funded :=
    .ofExternal (i.env.programs.systemTransfer_external transferred)
  obtain ⟨foreign, rfl⟩ := i.env.programs.allocateNativeMint_spec assigned
  refine (paid.tail (.allocateNativeMint named foreign)).trans
    (Writes.ofChange ?_ ?_ (.openNativeMint named rfl rfl rfl) stored)
  · rw [Function.update_self]
  · rw [Function.update_self]

/-! ### Token accounts -/

/-- **A vacant account becomes a token account.** -/
theorem processInitializeAccountWith_writes {owner : Option Address} {rentSysvarAccount : Bool}
    (named : i.instruction.initializes = some .account)
    (ok : processInitializeAccountWith i.env L i.accounts owner rentSysvarAccount = .ok outcome) :
    Writes i L outcome.validated L outcome.ledger := by
  simp only [processInitializeAccountWith, bind_eq_ok_iff, Prod.exists, nextAccountInfo_eq_ok_iff,
    checkProgramAccount_eq_ok_iff, require_eq_ok_iff, okOr_eq_ok_iff, exists_const] at ok
  obtain ⟨newAccount, _, shape, mintInfo, _, -, owned, -, owner, _, -, _, -, tlv, unpacked, -, mint,
    -, _, -, -, tlv', required, isNative, amount, -, ledger, stored, same⟩ := ok
  obtain rfl := Except.ok.inj same
  have data := unpackUninitialized_eq_ok unpacked
  rw [data] at unpacked
  exact .ofChange owned data (.openAccount named (key?_zero shape) unpacked required) stored

/-- **The mark of an immutable owner is staged.** -/
theorem processInitializeImmutableOwner_writes
    (named : i.instruction.initializes = some .account)
    (ok : processInitializeImmutableOwner L i.accounts = .ok outcome) :
    Writes i L outcome.validated L outcome.ledger := by
  simp only [processInitializeImmutableOwner, bind_eq_ok_iff, Prod.exists,
    nextAccountInfo_eq_ok_iff, checkProgramAccount_eq_ok_iff, exists_const] at ok
  obtain ⟨info, rest, shape, owned, tlv, unpacked, tlv', written, ledger, stored, same⟩ := ok
  obtain rfl := Except.ok.inj same
  have data := unpackUninitialized_eq_ok unpacked
  rw [data] at unpacked
  exact .ofChange owned data (.stage named (key?_zero shape) unpacked (by decide) written) stored

theorem processGetAccountDataSize_writes {types : List ExtensionType}
    (ok : processGetAccountDataSize L i.accounts types = .ok outcome) :
    Writes i L outcome.validated L outcome.ledger := by
  simp only [processGetAccountDataSize, bind_eq_ok_iff, Prod.exists] at ok
  obtain ⟨_, _, -, _, -, _, -, _, -, _, -, same⟩ := ok
  obtain rfl := Except.ok.inj same
  exact .refl

theorem processUiConversion_writes (ok : processUiConversion L i.accounts = .ok outcome) :
    Writes i L outcome.validated L outcome.ledger := by
  simp only [processUiConversion, bind_eq_ok_iff, Prod.exists] at ok
  obtain ⟨_, _, -, _, -, _, -, same⟩ := ok
  obtain rfl := Except.ok.inj same
  exact .refl

/-! ### Multisigs -/

/-- **A vacant account becomes a multisig.** -/
theorem processInitializeMultisigWith_writes {m : ℕ} {rentSysvarAccount : Bool}
    (ok : processInitializeMultisigWith i.env L i.accounts m rentSysvarAccount = .ok outcome) :
    Writes i L outcome.validated L outcome.ledger := by
  simp only [processInitializeMultisigWith, bind_eq_ok_iff, Prod.exists,
    nextAccountInfo_eq_ok_iff, checkProgramAccount_eq_ok_iff, require_eq_ok_iff,
    exists_const] at ok
  obtain ⟨info, _, -, owned, signers, -, len, ok⟩ := ok
  split at ok
  · rename_i buffer data
    simp only [bind_eq_ok_iff, require_eq_ok_iff, exists_const] at ok
    obtain ⟨-, -, valid, few, ledger, stored, same⟩ := ok
    obtain rfl := Except.ok.inj same
    rw [data] at len
    have bounds : 1 ≤ m ∧ m ≤ maxSigners := by simpa [isValidSignerIndex] using valid
    exact .ofChange owned data
      (.openMultisig len bounds.2 (by rwa [List.length_map])) stored
  · simp at ok

end Token2022
