/-
**Addresses, and the addresses the program knows by name.**

An address is 32 bytes, here one number below `2 ^ 256`. The family of all addresses is finite, so
that a quantity can be summed over every account there is.

* `MaybeNull` — an optional key stored in place: the all-zero key stands for none.
-/

import Mathlib.Algebra.Group.Nat.Defs
import Mathlib.Data.Fintype.Basic
import Mathlib.Data.Fintype.Card
import Token2022.Error

namespace Token2022

open Fallible

/-- The address of an account or a program, read as a big-endian number. -/
structure Address where
  bits : BitVec 256
  deriving DecidableEq, Repr

namespace Address

/-- The all-zero address, `Address::default()`. -/
instance : Zero Address := ⟨⟨0⟩⟩

/-- Addresses are the numbers below `2 ^ 256`. -/
def equivFin : Fin (2 ^ 256) ≃ Address where
  toFun n := ⟨.ofFin n⟩
  invFun a := a.bits.toFin
  left_inv _ := rfl
  right_inv _ := rfl

instance : Fintype Address := Fintype.ofEquiv _ equivFin

end Address

/-! ### Named addresses -/

/-- The token program's own address, `crate::id()`. -/
def programId : Address :=
  ⟨0x06ddf6e1ee758fde18425dbce46ccddab61afc4d83b90d27febdf928d8a18bfc⟩

/-- The original token program, whose multisigs are accepted too. -/
def inlineSplTokenId : Address :=
  ⟨0x06ddf6e1d765a193d9cbe146ceeb79ac1cb485ed5f5b37913a8cf5857eff00a9⟩

/-- `native_mint::id()`, the mint of wrapped lamports: an address derived from the program's own. -/
def nativeMintId : Address :=
  ⟨0x830dfc9fde5fe6b8aa7c04a476e91e8ac6bb264aad90fa19c9df49d85c3e5b5e⟩

/-- `system_program::id()`, the all-zero address. -/
def systemProgramId : Address := ⟨0⟩

/-- `solana_sdk_ids::incinerator::id()`. -/
def incineratorId : Address :=
  ⟨0x0033390728d34116079bdc911bfff00dbd44d2ecdccf79ca6e10038e100000000⟩

/-- `solana_zk_elgamal_proof_interface::id()`, the owner of proof context accounts. -/
def zkElgamalProofProgramId : Address :=
  ⟨0x086375ace2aeea281a6b374d681ba76a53ccf638c07455936c05d06540000000⟩

/-- `spl_elgamal_registry::id()`. -/
def elgamalRegistryId : Address :=
  ⟨0x0cb810c94ad414397d37d0588138d32330600b85dea01bf0b6aaaa5cd63aa687⟩

/-- The rent sysvar account. -/
def rentSysvarId : Address :=
  ⟨0x06a7d517192c5c51218cc94c3d4af17f58daee089ba1fd44e3dbd98a00000000⟩

/-- The instructions sysvar account. -/
def instructionsSysvarId : Address :=
  ⟨0x06a7d517187bd16635dad40455fdc2c0c124c68f215675a5dbbacb5f08000000⟩

/-! ### Optional values stored in place -/

/-- `MaybeNull`: an optional key stored in place, none as the all-zero key. -/
structure MaybeNull (α : Type) where
  value : α
  deriving DecidableEq, Repr

namespace MaybeNull

variable {α : Type} [Zero α] [DecidableEq α]

def none : MaybeNull α := ⟨0⟩

/-- The key, unless it is the one that stands for none. -/
def toOption (a : MaybeNull α) : Option α :=
  if a.value = 0 then Option.none else some a.value

/-- `TryFrom<Option>`: the all-zero key has no representation of its own. -/
def tryFrom : Option α → ProgramResult (MaybeNull α)
  | Option.none => .ok none
  | some a => do
    require (a ≠ 0) .invalidArgument
    .ok ⟨a⟩

@[simp] theorem toOption_none : (none : MaybeNull α).toOption = Option.none := by
  simp [toOption, none]

/-- **What `tryFrom` stores reads back.** -/
theorem toOption_of_tryFrom {a : Option α} {stored : MaybeNull α}
    (ok : tryFrom a = .ok stored) : stored.toOption = a := by
  cases a with
  | none =>
    obtain rfl : none = stored := by simpa [tryFrom] using ok
    exact toOption_none
  | some a =>
    obtain ⟨nonzero, same⟩ := require_bind_eq_ok_iff.mp ok
    obtain rfl : (⟨a⟩ : MaybeNull α) = stored := by simpa using same
    simp [toOption, nonzero]

end MaybeNull

end Token2022
