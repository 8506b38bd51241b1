/-
**Metadata, groups and group members kept in a mint.**

These extensions are written to an initialized mint, whose data grows or shrinks with them. Their
authorities sign for themselves: a multisig cannot act as one.
-/

import Token2022.Processor.MintConfig

namespace Token2022

open Fallible

/-! ### Metadata -/

/-- `token_metadata::check_update_authority`. -/
def checkMetadataUpdateAuthority (authority : AccountMeta) (expected : MaybeNull Address) :
    ProgramResult Unit := do
  require authority.isSigner .missingRequiredSignature
  let updateAuthority ← okOr expected.toOption TokenMetadataError.immutableMetadata
  require (updateAuthority = authority.key) TokenMetadataError.incorrectUpdateAuthority

/-- The mint authority has signed, and the mint carries the pointer extension. -/
def checkMintAuthority (mint : MintState) (authority : AccountMeta) (pointer : ExtensionType)
    (incorrect : ProgramError) : ProgramResult Unit := do
  require authority.isSigner .missingRequiredSignature
  require (mint.base.mintAuthority = some authority.key) incorrect
  require (mint.has pointer) TokenError.invalidExtensionCombination

/-- `token_metadata::process_initialize`. -/
def processInitializeMetadata (L : Ledger) (accounts : List AccountMeta)
    (name symbol uri : String) : ProgramResult Outcome := do
  let (metadataInfo, accounts) ← nextAccountInfo accounts
  let (updateAuthorityInfo, accounts) ← nextAccountInfo accounts
  let (mintInfo, accounts) ← nextAccountInfo accounts
  let (mintAuthority, _) ← nextAccountInfo accounts
  require (metadataInfo.key = mintInfo.key) TokenError.mintMismatch
  checkProgramAccount (L mintInfo.key).owner
  let mint ← unpackMint (L mintInfo.key).data
  checkMintAuthority mint mintAuthority .metadataPointer TokenMetadataError.incorrectMintAuthority
  let updateAuthority ← MaybeNull.tryFrom (some updateAuthorityInfo.key)
  let metadata : TokenMetadata :=
    { updateAuthority, mint := mintInfo.key, name, symbol, uri, additionalMetadata := [] }
  let updated ← mint.allocAndSerializeVariableLenExtension .tokenMetadata metadata false
  let ledger ← L.writeData metadataInfo.key (.mint updated)
  .ok { ledger, validated := [] }

/-- The common part of the instructions that change the metadata: the new value is written in an
entry, and an account, of its length. -/
def updateMetadataWith (L : Ledger) (accounts : List AccountMeta)
    (update : TokenMetadata → ProgramResult TokenMetadata) : ProgramResult Outcome := do
  let (metadataInfo, accounts) ← nextAccountInfo accounts
  let (updateAuthority, _) ← nextAccountInfo accounts
  checkProgramAccount (L metadataInfo.key).owner
  let mint ← unpackMint (L metadataInfo.key).data
  let metadata ← mint.getExtension .tokenMetadata
  checkMetadataUpdateAuthority updateAuthority metadata.updateAuthority
  let metadata ← update metadata
  let updated ← mint.allocAndSerializeVariableLenExtension .tokenMetadata metadata true
  let ledger ← L.writeData metadataInfo.key (.mint updated)
  .ok { ledger, validated := [] }

/-- `process_update_field`. -/
def processUpdateField (env : Env) (L : Ledger) (accounts : List AccountMeta)
    (field : MetadataField) (value : String) : ProgramResult Outcome :=
  updateMetadataWith L accounts fun metadata =>
    .ok (env.programs.updateMetadata metadata field value)

/-- `process_remove_key`. -/
def processRemoveKey (env : Env) (L : Ledger) (accounts : List AccountMeta) (key : String)
    (idempotent : Bool) : ProgramResult Outcome :=
  updateMetadataWith L accounts fun metadata => do
    let (removed, metadata) := env.programs.removeMetadataKey metadata key
    require (removed ∨ idempotent) TokenMetadataError.keyNotFound
    .ok metadata

/-- `token_metadata::process_update_authority`. -/
def processUpdateMetadataAuthority (L : Ledger) (accounts : List AccountMeta)
    (newAuthority : MaybeNull Address) : ProgramResult Outcome :=
  updateMetadataWith L accounts fun metadata => .ok { metadata with updateAuthority := newAuthority }

/-- `process_emit`: the bytes go to the caller, the accounts stay. -/
def processEmit (L : Ledger) (accounts : List AccountMeta) : ProgramResult Outcome := do
  let (metadataInfo, _) ← nextAccountInfo accounts
  checkProgramAccount (L metadataInfo.key).owner
  let mint ← unpackMint (L metadataInfo.key).data
  let _ ← mint.getExtension .tokenMetadata
  .ok { ledger := L, validated := [] }

/-! ### Groups -/

/-- `token_group::check_update_authority`. -/
def checkGroupUpdateAuthority (authority : AccountMeta) (expected : MaybeNull Address) :
    ProgramResult Unit := do
  require authority.isSigner .missingRequiredSignature
  let updateAuthority ← okOr expected.toOption TokenGroupError.immutableGroup
  require (updateAuthority = authority.key) TokenGroupError.incorrectUpdateAuthority

/-- `process_initialize_group`. -/
def processInitializeGroup (L : Ledger) (accounts : List AccountMeta)
    (updateAuthority : MaybeNull Address) (maxSize : ℕ) : ProgramResult Outcome := do
  let (groupInfo, accounts) ← nextAccountInfo accounts
  let (mintInfo, accounts) ← nextAccountInfo accounts
  let (mintAuthority, _) ← nextAccountInfo accounts
  require (groupInfo.key = mintInfo.key) TokenError.mintMismatch
  checkProgramAccount (L mintInfo.key).owner
  let mint ← unpackMint (L mintInfo.key).data
  checkMintAuthority mint mintAuthority .groupPointer TokenGroupError.incorrectMintAuthority
  let group : TokenGroup := { updateAuthority, mint := mintInfo.key, size := 0, maxSize }
  let updated ← mint.allocAndSerialize .tokenGroup group false
  let ledger ← L.writeData groupInfo.key (.mint updated)
  .ok { ledger, validated := [] }

/-- The common part of the instructions that change a group. -/
def updateGroupWith (L : Ledger) (accounts : List AccountMeta)
    (update : TokenGroup → ProgramResult TokenGroup) : ProgramResult Outcome := do
  let (groupInfo, accounts) ← nextAccountInfo accounts
  let (updateAuthority, _) ← nextAccountInfo accounts
  checkProgramAccount (L groupInfo.key).owner
  let mint ← unpackMint (L groupInfo.key).data
  let group ← mint.getExtension .tokenGroup
  checkGroupUpdateAuthority updateAuthority group.updateAuthority
  let group ← update group
  let ledger ← L.writeData groupInfo.key (.mint (mint.set .tokenGroup group))
  .ok { ledger, validated := [] }

/-- `process_update_group_max_size`. -/
def processUpdateGroupMaxSize (env : Env) (L : Ledger) (accounts : List AccountMeta)
    (maxSize : ℕ) : ProgramResult Outcome :=
  updateGroupWith L accounts fun group => env.programs.updateGroupMaxSize group maxSize

/-- `process_update_group_authority`. -/
def processUpdateGroupAuthority (L : Ledger) (accounts : List AccountMeta)
    (newAuthority : MaybeNull Address) : ProgramResult Outcome :=
  updateGroupWith L accounts fun group => .ok { group with updateAuthority := newAuthority }

/-- `process_initialize_member`. -/
def processInitializeMember (env : Env) (L : Ledger) (accounts : List AccountMeta) :
    ProgramResult Outcome := do
  let (memberInfo, accounts) ← nextAccountInfo accounts
  let (memberMintInfo, accounts) ← nextAccountInfo accounts
  let (memberMintAuthority, accounts) ← nextAccountInfo accounts
  let (groupInfo, accounts) ← nextAccountInfo accounts
  let (groupUpdateAuthority, _) ← nextAccountInfo accounts
  checkProgramAccount (L groupInfo.key).owner
  require (memberInfo.key = memberMintInfo.key) TokenError.mintMismatch
  checkProgramAccount (L memberMintInfo.key).owner
  let memberMint ← unpackMint (L memberMintInfo.key).data
  checkMintAuthority memberMint memberMintAuthority .groupMemberPointer
    TokenGroupError.incorrectMintAuthority
  require (memberInfo.key ≠ groupInfo.key) TokenGroupError.memberAccountIsGroupAccount
  let groupMint ← unpackMint (L groupInfo.key).data
  let group ← groupMint.getExtension .tokenGroup
  checkGroupUpdateAuthority groupUpdateAuthority group.updateAuthority
  let group ← env.programs.incrementGroupSize group
  let ledger ← L.writeData groupInfo.key (.mint (groupMint.set .tokenGroup group))
  let member : TokenGroupMember :=
    { mint := memberMintInfo.key, group := groupInfo.key, memberNumber := group.size }
  let updated ← memberMint.allocAndSerialize .tokenGroupMember member false
  let ledger ← ledger.writeData memberInfo.key (.mint updated)
  .ok { ledger, validated := [] }

end Token2022
