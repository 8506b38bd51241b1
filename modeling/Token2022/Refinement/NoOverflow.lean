/-
**The steps that cannot overflow.**

What an instruction reads, checks and writes, apart from its arithmetic, fails with other errors than
`Overflow`: an instruction that fails with it does so in its arithmetic.
-/

import Token2022.Lib.Avoids
import Token2022.Processor.MintConfig

namespace Token2022

open Fallible

/-- The computation does not fail with `TokenError::Overflow`. -/
abbrev NoOverflow {α : Type} (x : ProgramResult α) : Prop := Avoids (.custom .overflow) x

variable {L : Ledger} {accounts signers : List AccountMeta}

/-! ### Reading -/

theorem nextAccountInfo_noOverflow : NoOverflow (nextAccountInfo accounts) := by
  cases accounts with
  | nil => exact avoids_error (by decide)
  | cons info rest => exact avoids_ok _

theorem unpackMint_noOverflow {data : AccountData} : NoOverflow (unpackMint data) := by
  unfold unpackMint
  split
  case h_1 state => exact avoids_ok state
  case h_4 => exact avoids_error (by decide)
  all_goals split <;> exact avoids_error (by decide)

theorem unpackAccount_noOverflow {data : AccountData} : NoOverflow (unpackAccount data) := by
  unfold unpackAccount
  split
  case h_1 state => exact avoids_ok state
  case h_4 => exact avoids_error (by decide)
  all_goals split <;> exact avoids_error (by decide)

theorem getExtension_noOverflow {b : Buffer} {t : ExtensionType} : NoOverflow (b.getExtension t) := by
  unfold Buffer.getExtension
  split
  · exact avoids_ok _
  · split <;> exact avoids_error (by decide)

/-! ### Checking and writing -/

theorem checkProgramAccount_noOverflow {owner : Address} : NoOverflow (checkProgramAccount owner) :=
  avoids_require (by decide)

theorem writeData_noOverflow {a : Address} {data : AccountData} : NoOverflow (L.writeData a data) :=
  (avoids_require (by decide)).bind fun _ _ => avoids_ok _

/-- A listed key that has not signed is the only error of the count. -/
theorem countSigner_noOverflow {keys : List Address} {matched : ℕ × (ℕ → Bool)}
    {signer : AccountMeta} : NoOverflow (countSigner keys matched signer) := by
  refine avoids_foldlM (P := fun _ => True)
    (fun (key, position) _ (count, seen) _ => ⟨?_, fun _ _ => trivial⟩) trivial
  dsimp only
  split
  · exact (avoids_require (by decide)).bind fun _ _ => avoids_ok _
  · exact avoids_ok _

theorem validateOwner_noOverflow {expected : Address} {owner : AccountMeta} :
    NoOverflow (validateOwner L expected owner signers) := by
  refine (avoids_require (by decide)).bind fun _ _ => ?_
  dsimp only
  split
  · split
    · refine Avoids.bind ?_ fun _ _ => avoids_require (by decide)
      exact avoids_foldlM (P := fun _ => True)
        (fun _ _ _ _ => ⟨countSigner_noOverflow, fun _ _ => trivial⟩) trivial
    · exact avoids_error (by decide)
  · exact avoids_require (by decide)

/-- **An update of a mint's extension overflows only in its arithmetic.** -/
theorem updateMintExtension_noOverflow {t : ExtensionType}
    {authorityOf : Extension t → MaybeNull Address} {missing : TokenError}
    {update : Extension t → ProgramResult (Extension t)} (distinct : missing ≠ .overflow)
    (arithmetic : ∀ info rest mint e, accounts = info :: rest → (L info.key).data = .mint mint →
      mint.get t = some e → NoOverflow (update e)) :
    NoOverflow (updateMintExtension L accounts t authorityOf missing update) := by
  refine nextAccountInfo_noOverflow.bind fun (mintInfo, rest) shape => ?_
  refine nextAccountInfo_noOverflow.bind fun (authority, signers) _ => ?_
  refine checkProgramAccount_noOverflow.bind fun _ _ => ?_
  refine unpackMint_noOverflow.bind fun mint unpacked => ?_
  refine getExtension_noOverflow.bind fun e held => ?_
  refine (avoids_okOr (by simpa using distinct)).bind fun expected _ => ?_
  refine validateOwner_noOverflow.bind fun _ _ => ?_
  refine (arithmetic mintInfo rest mint e (nextAccountInfo_eq_ok_iff.mp shape)
    (unpackMint_eq_ok_iff.mp unpacked) (StateWithExtensions.getExtension_eq_ok_iff.mp held)).bind
      fun updated _ => ?_
  exact writeData_noOverflow.bind fun _ _ => avoids_ok _

end Token2022
