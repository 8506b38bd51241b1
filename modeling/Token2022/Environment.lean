/-
**An environment to run in.**

The programs that the token program calls, as plainly as they can behave: the system program moves
lamports between accounts of its own and allocates what is not allocated, a hook program accepts
every transfer, and the interface libraries edit the values that they are given.

* `Programs.basic`, `Env.basic` — such programs, and an environment with them.
* **`Genesis.fresh`** — a ledger to start from, in which every account is an empty one of the system
  program's.
-/

import Token2022.System

namespace Token2022

namespace Basic

/-! ### The system program -/

/-- `system_instruction::transfer`: the source is the system program's, signs, and can pay. -/
def systemTransfer (L : Ledger) (source destination : AccountMeta) (amount : ℕ) :
    ProgramResult Ledger :=
  if (L source.key).owner = systemProgramId ∧ source.isSigner ∧ source.key ≠ destination.key ∧
      amount ≤ (L source.key).lamports then
    .ok ((L.setLamports source.key ((L source.key).lamports - amount)).setLamports destination.key
      ((L destination.key).lamports + amount))
  else .error .externalAccountLamportSpend

theorem systemTransfer_external {L L' : Ledger} {source destination : AccountMeta} {amount : ℕ}
    (ok : systemTransfer L source destination amount = .ok L') : External L L' := by
  unfold systemTransfer at ok
  split at ok
  · rename_i conditions
    obtain ⟨owner, -, -, -⟩ := conditions
    obtain rfl := Except.ok.inj ok
    have foreign : (L source.key).owner ≠ programId := by
      rw [owner]
      decide
    -- Owner and data stay; only the source, which is not the program's, has less.
    have same : ∀ a, ((((L.setLamports source.key ((L source.key).lamports - amount)).setLamports
        destination.key ((L destination.key).lamports + amount)) a).owner = (L a).owner) ∧
        ((((L.setLamports source.key ((L source.key).lamports - amount)).setLamports
        destination.key ((L destination.key).lamports + amount)) a).data = (L a).data) := by
      intro a
      by_cases atDestination : a = destination.key <;> by_cases atSource : a = source.key <;>
        simp [Ledger.setLamports, Function.update_apply, atDestination, atSource] <;>
        split <;> simp_all
    refine ⟨fun a owned => ⟨(same a).1.trans owned, (same a).2, ?_⟩, fun a foreign' owned => ?_,
      fun a _ foreign' => ?_, fun a _ foreign' => ?_⟩
    · have notSource : a ≠ source.key := fun at_source => foreign (at_source ▸ owned)
      by_cases atDestination : a = destination.key
      · subst atDestination
        simp [Ledger.setLamports]
      · simp [Ledger.setLamports, atDestination, notSource]
    · rw [(same a).1] at owned
      exact absurd owned foreign'
    · rwa [(same a).1]
    · rwa [(same a).1]
  · exact absurd ok (by simp)

theorem systemTransfer_credits {L L' : Ledger} {source destination : AccountMeta} {amount : ℕ}
    (ok : systemTransfer L source destination amount = .ok L') :
    (L destination.key).lamports + amount ≤ (L' destination.key).lamports := by
  unfold systemTransfer at ok
  split at ok
  · obtain rfl := Except.ok.inj ok
    simp [Ledger.setLamports]
  · exact absurd ok (by simp)

/-- `system_instruction::allocate` and `assign` of the native mint. -/
def allocateNativeMint (L : Ledger) (len : ℕ) : ProgramResult Ledger :=
  if (L nativeMintId).owner = systemProgramId ∧ (L nativeMintId).data.len = 0 then
    .ok (Function.update L nativeMintId
      { L nativeMintId with owner := programId, data := .zeroed ⟨[], len⟩ })
  else .error .invalidAccountData

theorem allocateNativeMint_spec {L L' : Ledger} {len : ℕ}
    (ok : allocateNativeMint L len = .ok L') : (L nativeMintId).owner ≠ programId ∧
      L' = Function.update L nativeMintId
        { L nativeMintId with owner := programId, data := .zeroed ⟨[], len⟩ } := by
  unfold allocateNativeMint at ok
  split at ok
  · rename_i conditions
    refine ⟨?_, (Except.ok.inj ok).symm⟩
    rw [conditions.1]
    decide
  · exact absurd ok (by simp)

/-! ### The interfaces -/

/-- `TokenMetadata::update`. -/
def updateMetadata (metadata : TokenMetadata) (field : MetadataField) (value : String) :
    TokenMetadata :=
  match field with
  | .name => { metadata with name := value }
  | .symbol => { metadata with symbol := value }
  | .uri => { metadata with uri := value }
  | .key key =>
    { metadata with additionalMetadata :=
        if metadata.additionalMetadata.any (fun pair => pair.1 = key) then
          metadata.additionalMetadata.map fun pair => if pair.1 = key then (key, value) else pair
        else metadata.additionalMetadata ++ [(key, value)] }

/-- `TokenMetadata::remove_key`. -/
def removeMetadataKey (metadata : TokenMetadata) (key : String) : Bool × TokenMetadata :=
  (metadata.additionalMetadata.any (fun pair => pair.1 = key),
    { metadata with additionalMetadata :=
        metadata.additionalMetadata.eraseP fun pair => pair.1 = key })

/-- `TokenGroup::update_max_size`. -/
def updateGroupMaxSize (group : TokenGroup) (maxSize : ℕ) : ProgramResult TokenGroup :=
  if group.size ≤ maxSize then .ok { group with maxSize } else .error .invalidArgument

/-- `TokenGroup::increment_size`. -/
def incrementGroupSize (group : TokenGroup) : ProgramResult TokenGroup :=
  if group.size + 1 ≤ group.maxSize then .ok { group with size := group.size + 1 }
  else .error .invalidArgument

end Basic

/-- **Programs that do what is relied on.** -/
def Programs.basic : Programs where
  systemTransfer := Basic.systemTransfer
  systemTransfer_external := Basic.systemTransfer_external
  systemTransfer_credits ok _ := Basic.systemTransfer_credits ok
  allocateNativeMint := Basic.allocateNativeMint
  allocateNativeMint_spec := Basic.allocateNativeMint_spec
  invokeExecute _ L _ _ := .ok L
  invokeExecute_external ok := Except.ok.inj ok ▸ .refl _
  updateMetadata := Basic.updateMetadata
  removeMetadataKey := Basic.removeMetadataKey
  updateGroupMaxSize := Basic.updateGroupMaxSize
  updateGroupMaxSize_spec := by
    intro group maxSize group'
    unfold Basic.updateGroupMaxSize
    split <;> simp_all [eq_comm]
  incrementGroupSize := Basic.incrementGroupSize
  incrementGroupSize_spec := by
    intro group group'
    unfold Basic.incrementGroupSize
    split <;> simp_all [eq_comm]

/-! ### The environment and the ledger -/

/-- Outside of a call by another program, without proofs in the transaction. -/
def Env.basic : Env where
  epoch := 0
  unixTimestamp := 0
  minimumBalance len := (128 + len) * 6960
  inCpi := false
  previousSiblingIsMemo := false
  proofInstruction _ := none
  programs := .basic

/-- Every account is the system program's, funded and without data. -/
def Ledger.fresh : Ledger := fun _ =>
  { lamports := 10 ^ 9, owner := systemProgramId, data := .other 0 }

theorem Genesis.fresh : Genesis Ledger.fresh where
  unowned _ := show systemProgramId ≠ programId by decide
  system _ _ := show systemProgramId ≠ inlineSplTokenId by decide

/-- An account that signs. -/
def AccountMeta.signer (key : Address) : AccountMeta := { key, isSigner := true }

/-- An account that does not. -/
def AccountMeta.plain (key : Address) : AccountMeta := { key, isSigner := false }

/-- An instruction in the basic environment. -/
def Invocation.basic (instruction : TokenInstruction) (accounts : List AccountMeta) : Invocation :=
  { env := .basic, accounts, instruction }

/-- A turn in the basic environment. -/
def Turn.basic (instruction : TokenInstruction) (accounts : List AccountMeta) : Turn :=
  .invoke (.basic instruction accounts)

/-- An account that is allocated with enough lamports for its length. -/
def Turn.allocate (a : Address) (len : ℕ) : Turn := .hand a len (10 ^ 9)

namespace Basic

def mint : Address := ⟨1⟩

def source : Address := ⟨2⟩

def destination : Address := ⟨3⟩

/-- The owner of the accounts, and every authority of the mint. -/
def owner : Address := ⟨4⟩

/-- Another owner. -/
def other : Address := ⟨5⟩

/-- A mint without extensions, with tokens in one of its two accounts. -/
def plainTurns : List Turn := [
  .allocate mint 82, .allocate source 165, .allocate destination 165,
  .basic (.initializeMint2 0 owner (some owner)) [.plain mint],
  .basic (.initializeAccount3 owner) [.plain source, .plain mint],
  .basic (.initializeAccount3 other) [.plain destination, .plain mint],
  .basic (.mintTo 1000) [.plain mint, .plain source, .signer owner]]

/-- A transfer between the two accounts, which the owner of the source signs. -/
def transfer : Invocation :=
  .basic (.transfer 300) [.plain source, .plain destination, .signer owner]

end Basic

end Token2022
