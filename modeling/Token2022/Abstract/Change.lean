/-
**What an instruction may write to the data of one account.**

The book forgets authorities, keys, counters and the layout of extensions. Here each kind of write is
kept as the program makes it: what stood there, what stands there afterwards, and who vouched for
it.

* `AuthorityType.field?`, `MintState.authority?` — the authorities of a mint, by their type.
* `MintBaseChange`, `MintUpdate` — the writes to an initialized mint; `AccountUpdate`,
  `AccountOpening` — to a token account.
* **`Change`** — all of them, with the phases before an account is initialized.
-/

import Token2022.Abstract.Effect

namespace Token2022

open Fallible

/-! ### The authorities of a mint -/

/-- An authority that an extension of a mint keeps. -/
structure AuthorityField where
  type : ExtensionType
  read : Extension type → MaybeNull Address
  write : Extension type → MaybeNull Address → Extension type

/-- Where `SetAuthority` finds an authority of a mint that an extension keeps. -/
def AuthorityType.field? : AuthorityType → Option AuthorityField
  | .mintTokens | .freezeAccount | .accountOwner | .closeAccount => none
  | .closeMint => some ⟨.mintCloseAuthority, MintCloseAuthority.closeAuthority,
      fun e a => { e with closeAuthority := a }⟩
  | .transferFeeConfig => some ⟨.transferFeeConfig, TransferFeeConfig.transferFeeConfigAuthority,
      fun e a => { e with transferFeeConfigAuthority := a }⟩
  | .withheldWithdraw => some ⟨.transferFeeConfig, TransferFeeConfig.withdrawWithheldAuthority,
      fun e a => { e with withdrawWithheldAuthority := a }⟩
  | .interestRate => some ⟨.interestBearingConfig, InterestBearingConfig.rateAuthority,
      fun e a => { e with rateAuthority := a }⟩
  | .permanentDelegate => some ⟨.permanentDelegate, PermanentDelegate.delegate,
      fun e a => { e with delegate := a }⟩
  | .confidentialTransferMint => some ⟨.confidentialTransferMint,
      ConfidentialTransferMint.authority, fun e a => { e with authority := a }⟩
  | .transferHookProgramId => some ⟨.transferHook, TransferHook.authority,
      fun e a => { e with authority := a }⟩
  | .confidentialTransferFeeConfig => some ⟨.confidentialTransferFeeConfig,
      ConfidentialTransferFeeConfig.authority, fun e a => { e with authority := a }⟩
  | .metadataPointer => some ⟨.metadataPointer, MetadataPointer.authority,
      fun e a => { e with authority := a }⟩
  | .groupPointer => some ⟨.groupPointer, GroupPointer.authority,
      fun e a => { e with authority := a }⟩
  | .groupMemberPointer => some ⟨.groupMemberPointer, GroupMemberPointer.authority,
      fun e a => { e with authority := a }⟩
  | .scaledUiAmount => some ⟨.scaledUiAmount, ScaledUiAmountConfig.authority,
      fun e a => { e with authority := a }⟩
  | .pause => some ⟨.pausable, PausableConfig.authority, fun e a => { e with authority := a }⟩
  | .permissionedBurn => some ⟨.permissionedBurn, PermissionedBurnConfig.authority,
      fun e a => { e with authority := a }⟩

/-- The authority of a mint of a type, where it has one. -/
def MintState.authority? (mint : MintState) : AuthorityType → Option Address
  | .mintTokens => mint.base.mintAuthority
  | .freezeAccount => mint.base.freezeAuthority
  | type => type.field?.bind fun field =>
      (mint.get field.type).bind fun e => (field.read e).toOption

/-! ### Which instruction -/

/-- The kind of account that an instruction prepares or opens, if it does. -/
def TokenInstruction.initializes : TokenInstruction → Option AccountType
  | .initializeMint .. | .initializeMint2 .. | .initializeMintCloseAuthority _
  | .initializeNonTransferableMint | .initializePermanentDelegate _
  | .transferFeeExtension (.initializeTransferFeeConfig ..)
  | .confidentialTransferExtension (.initializeMint ..)
  | .confidentialTransferFeeExtension (.initializeConfidentialTransferFeeConfig ..)
  | .confidentialMintBurnExtension (.initializeMint ..)
  | .defaultAccountStateExtension (.initializeExtension _)
  | .interestBearingMintExtension (.initializeExtension ..)
  | .transferHookExtension (.initializeExtension ..)
  | .metadataPointerExtension (.initializeExtension ..)
  | .groupPointerExtension (.initializeExtension ..)
  | .groupMemberPointerExtension (.initializeExtension ..)
  | .scaledUiAmountExtension (.initializeExtension ..)
  | .pausableExtension (.initializeExtension _)
  | .permissionedBurnExtension (.initializeExtension _) => some .mint
  | .initializeAccount | .initializeAccount2 _ | .initializeAccount3 _
  | .initializeImmutableOwner => some .account
  | _ => none

/-- The invocation withdraws withheld fees, in encrypted form, into the account. -/
def Invocation.withdrawsEncryptedInto (i : Invocation) (a : Address) : Prop :=
  match i.instruction with
  | .confidentialTransferFeeExtension (.withdrawWithheldTokensFromMint ..)
  | .confidentialTransferFeeExtension (.withdrawWithheldTokensFromAccounts ..) => i.key? 1 = some a
  | _ => False

instance (i : Invocation) (a : Address) : Decidable (i.withdrawsEncryptedInto a) := by
  unfold Invocation.withdrawsEncryptedInto
  split <;> infer_instance

/-- The account whose pending balance an instruction credits: of a deposit, of a confidential
transfer, of a confidential mint. -/
def Invocation.creditsPending? (i : Invocation) : Option Address :=
  match i.instruction with
  | .confidentialTransferExtension (.deposit ..) => i.key? 0
  | .confidentialTransferExtension (.transfer ..) => i.key? 2
  | .confidentialTransferExtension (.transferWithFee ..) => i.key? 2
  | .confidentialMintBurnExtension (.mint _) => i.key? 0
  | _ => none

/-- The account whose pending balance an instruction applies. -/
def Invocation.appliesPending? (i : Invocation) : Option Address :=
  match i.instruction with
  | .confidentialTransferExtension (.applyPendingBalance ..) => i.key? 0
  | _ => none

/-- The decryptable balance that an instruction brings for what it leaves of an available balance: a
withdrawal, a confidential transfer, a confidential burn. -/
def TokenInstruction.spendDecryptable? : TokenInstruction → Option AeCiphertext
  | .confidentialTransferExtension (.withdraw _ _ decryptable _ _) => some decryptable
  | .confidentialTransferExtension (.transfer decryptable _ _ _ _ _) => some decryptable
  | .confidentialTransferExtension (.transferWithFee decryptable _ _ _ _ _ _ _) => some decryptable
  | .confidentialMintBurnExtension (.burn data) => some data.newDecryptableAvailableBalance
  | .permissionedBurnExtension (.confidentialBurn data) => some data.newDecryptableAvailableBalance
  | _ => none

/-- The invocation may take from the available balance of the account and leave this decryptable
one. The writes of a confidential transfer are read as those of a plain one, too, which brings
none. -/
def Invocation.SpendsAvailable (i : Invocation) (a : Address) (decryptable : AeCiphertext) : Prop :=
  i.key? 0 = some a ∧ (i.instruction.spendDecryptable? = some decryptable ∨
    ∃ amount decimals, i.instruction = .transferChecked amount decimals)

/-- The instruction writes an encrypted supply, or what its authority decrypts of it. -/
def TokenInstruction.setsSupply : TokenInstruction → Bool
  | .confidentialMintBurnExtension (.mint _)
  | .confidentialMintBurnExtension (.updateDecryptableSupply _)
  | .confidentialMintBurnExtension .applyPendingBurn => true
  | _ => false

/-- The account that an instruction configures for confidential transfers. -/
def Invocation.configures? (i : Invocation) : Option Address :=
  match i.instruction with
  | .confidentialTransferExtension (.configureAccount ..) => i.key? 0
  | .confidentialTransferExtension .configureAccountWithRegistry => i.key? 0
  | _ => none

/-- The place of the destination among the accounts of a transfer, plain or confidential. -/
def TokenInstruction.destinationPlace? : TokenInstruction → Option ℕ
  | .transfer _ => some 1
  | .transferChecked .. | .transferFeeExtension (.transferCheckedWithFee ..)
  | .confidentialTransferExtension (.transfer ..)
  | .confidentialTransferExtension (.transferWithFee ..) => some 2
  | _ => none

/-- The account is the source or the destination of the transfer that the invocation makes. -/
def Invocation.transfersAt (i : Invocation) (a : Address) : Prop :=
  ∃ place, i.instruction.destinationPlace? = some place ∧
    (i.key? 0 = some a ∨ i.key? place = some a)

/-- The extensions that are set before an account of the kind is initialized. -/
def stagedTypes : AccountType → List ExtensionType
  | .mint => [.transferFeeConfig, .mintCloseAuthority, .confidentialTransferMint,
      .defaultAccountState, .nonTransferable, .interestBearingConfig, .permanentDelegate,
      .transferHook, .confidentialTransferFeeConfig, .metadataPointer, .groupPointer,
      .groupMemberPointer, .confidentialMintBurn, .scaledUiAmount, .pausable, .permissionedBurn]
  | .account => [.immutableOwner]
  | .uninitialized => []

/-- The key signs for itself, as one of the accounts of the invocation. -/
def Invocation.SignedBy (i : Invocation) (key : Address) : Prop :=
  ∃ account ∈ i.accounts, account.key = key ∧ account.isSigner = true

/-- Where the mint has an authority of permissioned burns, it signs for the invocation. -/
def Invocation.ApprovesBurn (i : Invocation) (mint : MintState) : Prop :=
  ∀ key, mint.permissionedBurnAuthority = some key → i.SignedBy key

/-! ### Mints -/

/-- The writes to the base state of the mint at `a`. -/
inductive MintBaseChange (i : Invocation) (validated : List Address) (a : Address)
    (mint : MintState) : PodMint → Prop
  | mintTo {key : Address} {n : ℕ} (authority : mint.base.mintAuthority = some key)
      (signed : key ∈ validated) :
      MintBaseChange i validated a mint { mint.base with supply := mint.base.supply + n }
  | burn {n : ℕ} (approved : i.ApprovesBurn mint) :
      MintBaseChange i validated a mint { mint.base with supply := mint.base.supply - n }
  | setMintAuthority {key : Address} {new : Option Address}
      (authority : mint.base.mintAuthority = some key) (signed : key ∈ validated) :
      MintBaseChange i validated a mint { mint.base with mintAuthority := new }
  | setFreezeAuthority {key : Address} {new : Option Address}
      (named : i.instruction = .setAuthority .freezeAccount new) (target : i.key? 0 = some a)
      (authority : mint.base.freezeAuthority = some key) (signed : key ∈ validated) :
      MintBaseChange i validated a mint { mint.base with freezeAuthority := new }

/-- The writes to the value of an extension that a mint carries. -/
inductive MintUpdate (i : Invocation) (validated : List Address) (mint : MintState) :
    (t : ExtensionType) → Extension t → Extension t → Prop
  | rotate {type : AuthorityType} {field : AuthorityField} {e : Extension field.type}
      {key : Address} {new : MaybeNull Address} (named : type.field? = some field)
      (authority : (field.read e).toOption = some key) (signed : key ∈ validated) :
      MintUpdate i validated mint field.type e (field.write e new)
  | setTransferFee {e : TransferFeeConfig} {fee : TransferFee} {key : Address}
      {bps : UInt16} {maximumFee : UInt64}
      (named : i.instruction = .transferFeeExtension (.setTransferFee bps maximumFee))
      (authority : e.transferFeeConfigAuthority.toOption = some key) (signed : key ∈ validated)
      (starts : fee.epoch = min (i.env.epoch + 2) (2 ^ 64 - 1)) :
      MintUpdate i validated mint .transferFeeConfig e { e with
        olderTransferFee := if e.newerTransferFee.epoch ≤ i.env.epoch then e.newerTransferFee
          else e.olderTransferFee
        newerTransferFee := fee }
  | withhold {e : TransferFeeConfig} {n : ℕ} :
      MintUpdate i validated mint .transferFeeConfig e { e with withheldAmount := n }
  | updateConfidentialTransferMint {e : ConfidentialTransferMint} {auto : Bool}
      {auditor : MaybeNull ElGamalPubkey} {key : Address}
      (authority : e.authority.toOption = some key) (signed : i.SignedBy key) :
      MintUpdate i validated mint .confidentialTransferMint e
        { e with autoApproveNewAccounts := auto, auditorElgamalPubkey := auditor }
  | updateDefaultAccountState {e e' : DefaultAccountState} {key : Address}
      (authority : mint.base.freezeAuthority = some key) (signed : key ∈ validated) :
      MintUpdate i validated mint .defaultAccountState e e'
  | updateRate {e : InterestBearingConfig} {rate : Int16} {average : ℤ} {key : Address}
      (named : i.instruction = .interestBearingMintExtension (.updateRate rate))
      (authority : e.rateAuthority.toOption = some key) (signed : key ∈ validated)
      (averaged : e.timeWeightedAverageRate i.env.unixTimestamp = some average) :
      MintUpdate i validated mint .interestBearingConfig e { e with
        preUpdateAverageRate := average
        lastUpdateTimestamp := i.env.unixTimestamp
        currentRate := rate.toInt }
  | updateTransferHook {e : TransferHook} {program : MaybeNull Address} {key : Address}
      (authority : e.authority.toOption = some key) (signed : key ∈ validated) :
      MintUpdate i validated mint .transferHook e { e with programId := program }
  | updateMetadataPointer {e : MetadataPointer} {address : MaybeNull Address} {key : Address}
      (authority : e.authority.toOption = some key) (signed : key ∈ validated) :
      MintUpdate i validated mint .metadataPointer e { e with metadataAddress := address }
  | updateGroupPointer {e : GroupPointer} {address : MaybeNull Address} {key : Address}
      (authority : e.authority.toOption = some key) (signed : key ∈ validated) :
      MintUpdate i validated mint .groupPointer e { e with groupAddress := address }
  | updateGroupMemberPointer {e : GroupMemberPointer} {address : MaybeNull Address} {key : Address}
      (authority : e.authority.toOption = some key) (signed : key ∈ validated) :
      MintUpdate i validated mint .groupMemberPointer e { e with memberAddress := address }
  | updateMultiplier {e e' : ScaledUiAmountConfig} {multiplier : PodF64} {timestamp : Int64}
      {key : Address}
      (named : i.instruction = .scaledUiAmountExtension (.updateMultiplier multiplier timestamp))
      (authority : e.authority.toOption = some key) (signed : key ∈ validated)
      (kept : e'.authority = e.authority) : MintUpdate i validated mint .scaledUiAmount e e'
  | togglePause {e : PausableConfig} {pause : Bool} {key : Address}
      (authority : e.authority.toOption = some key) (signed : key ∈ validated) :
      MintUpdate i validated mint .pausable e { e with paused := pause }
  | withholdEncrypted {e : ConfidentialTransferFeeConfig} {withheld : ElGamalCiphertext} :
      MintUpdate i validated mint .confidentialTransferFeeConfig e
        { e with withheldAmount := withheld }
  | toggleHarvestToMint {e : ConfidentialTransferFeeConfig} {enable : Bool} {key : Address}
      (authority : e.authority.toOption = some key) (signed : key ∈ validated) :
      MintUpdate i validated mint .confidentialTransferFeeConfig e
        { e with harvestToMintEnabled := enable }
  | rotateSupplyKey {e : ConfidentialMintBurn} {pubkey : ElGamalPubkey} {key : Address}
      (authority : mint.base.mintAuthority = some key) (signed : key ∈ validated)
      (settled : e.pendingBurn = 0) :
      MintUpdate i validated mint .confidentialMintBurn e { e with supplyElgamalPubkey := pubkey }
  | updateDecryptableSupply {e : ConfidentialMintBurn} {decryptable : AeCiphertext} {key : Address}
      (authority : mint.base.mintAuthority = some key) (signed : key ∈ validated)
      (named : i.instruction.setsSupply = true) :
      MintUpdate i validated mint .confidentialMintBurn e { e with decryptableSupply := decryptable }
  | confidentialMint {e : ConfidentialMintBurn} {n : Scalar} {decryptable : AeCiphertext}
      {key : Address} (authority : mint.base.mintAuthority = some key)
      (signed : key ∈ validated) (named : i.instruction.setsSupply = true) :
      MintUpdate i validated mint .confidentialMintBurn e { e with
        confidentialSupply := e.confidentialSupply + n
        decryptableSupply := decryptable }
  | confidentialBurn {e : ConfidentialMintBurn} {n : Scalar} (approved : i.ApprovesBurn mint) :
      MintUpdate i validated mint .confidentialMintBurn e
        { e with pendingBurn := e.pendingBurn + n }
  | applyPendingBurn {e : ConfidentialMintBurn} {key : Address}
      (authority : mint.base.mintAuthority = some key) (signed : key ∈ validated)
      (named : i.instruction.setsSupply = true) :
      MintUpdate i validated mint .confidentialMintBurn e { e with
        confidentialSupply := e.confidentialSupply - e.pendingBurn
        pendingBurn := 0 }
  | updateGroupMaxSize {e : TokenGroup} {maxSize : ℕ} {key : Address}
      (authority : e.updateAuthority.toOption = some key) (fits : e.size ≤ maxSize)
      (signed : i.SignedBy key) :
      MintUpdate i validated mint .tokenGroup e { e with maxSize }
  | updateGroupAuthority {e : TokenGroup} {new : MaybeNull Address} {key : Address}
      (authority : e.updateAuthority.toOption = some key) (signed : i.SignedBy key) :
      MintUpdate i validated mint .tokenGroup e { e with updateAuthority := new }
  | enroll {e : TokenGroup} {key : Address} (named : i.instruction = .tokenGroup .initializeMember)
      (authority : e.updateAuthority.toOption = some key)
      (room : e.size + 1 ≤ e.maxSize) (signed : i.SignedBy key) :
      MintUpdate i validated mint .tokenGroup e { e with size := e.size + 1 }

/-! ### Token accounts -/

/-- What every write to the base state of a token account keeps: its mint, and its owner but for the
owner's own word. -/
structure AccountBaseChange (validated : List Address) (base base' : PodAccount) : Prop where
  mint : base'.mint = base.mint
  owner : base.owner ∉ validated → base'.owner = base.owner

/-- The confidential extension with one more credit in its pending balance. -/
def ConfidentialTransferAccount.credited (e : ConfidentialTransferAccount) (lo hi : Scalar) :
    ConfidentialTransferAccount :=
  { e with
    pendingBalanceLo := e.pendingBalanceLo + lo
    pendingBalanceHi := e.pendingBalanceHi + hi
    pendingBalanceCreditCounter := e.pendingBalanceCreditCounter + 1 }

/-- The writes to the value of an extension that the account at `a` carries. -/
inductive AccountUpdate (i : Invocation) (validated : List Address) (a : Address)
    (st : TokenAccountState) : (t : ExtensionType) → Extension t → Extension t → Prop
  | creditPending {e : ConfidentialTransferAccount} {lo hi : Scalar}
      (named : i.creditsPending? = some a)
      (room : e.pendingBalanceCreditCounter + 1 ≤ e.maximumPendingBalanceCreditCounter) :
      AccountUpdate i validated a st .confidentialTransferAccount e (e.credited lo hi)
  | applyPending {e : ConfidentialTransferAccount} {expected : ℕ} {decryptable : AeCiphertext}
      (named : i.appliesPending? = some a) (signed : st.base.owner ∈ validated) :
      AccountUpdate i validated a st .confidentialTransferAccount e { e with
        availableBalance := e.availableBalance + pendingTotal e.pendingBalanceLo e.pendingBalanceHi
        actualPendingBalanceCreditCounter := e.pendingBalanceCreditCounter
        expectedPendingBalanceCreditCounter := expected
        decryptableAvailableBalance := decryptable
        pendingBalanceCreditCounter := 0
        pendingBalanceLo := 0
        pendingBalanceHi := 0 }
  | spend {e : ConfidentialTransferAccount} {available : Scalar} {decryptable : AeCiphertext}
      (signed : st.base.owner ∈ validated) (named : i.SpendsAvailable a decryptable) :
      AccountUpdate i validated a st .confidentialTransferAccount e { e with
        availableBalance := available
        decryptableAvailableBalance := decryptable }
  | creditWithheld {e : ConfidentialTransferAccount} {withheld : Scalar}
      {decryptable : AeCiphertext} (named : i.withdrawsEncryptedInto a) :
      AccountUpdate i validated a st .confidentialTransferAccount e { e with
        availableBalance := e.availableBalance + withheld
        decryptableAvailableBalance := decryptable }
  | approve {e : ConfidentialTransferAccount} :
      AccountUpdate i validated a st .confidentialTransferAccount e { e with approved := true }
  | allowConfidentialCredits {e : ConfidentialTransferAccount} {allow : Bool}
      (signed : st.base.owner ∈ validated) :
      AccountUpdate i validated a st .confidentialTransferAccount e
        { e with allowConfidentialCredits := allow }
  | allowNonConfidentialCredits {e : ConfidentialTransferAccount} {allow : Bool}
      (signed : st.base.owner ∈ validated) :
      AccountUpdate i validated a st .confidentialTransferAccount e
        { e with allowNonConfidentialCredits := allow }
  | withhold {e : TransferFeeAmount} {n : ℕ} :
      AccountUpdate i validated a st .transferFeeAmount e ⟨n⟩
  | withholdEncrypted {e : ConfidentialTransferFeeAmount} {withheld : ElGamalCiphertext} :
      AccountUpdate i validated a st .confidentialTransferFeeAmount e ⟨withheld⟩
  | setTransferring {e : TransferHookAccount} {transferring : Bool} (named : i.transfersAt a) :
      AccountUpdate i validated a st .transferHookAccount e ⟨transferring⟩
  | toggleMemo {e : MemoTransfer} {enable : Bool} (signed : st.base.owner ∈ validated) :
      AccountUpdate i validated a st .memoTransfer e ⟨enable⟩
  | toggleCpiGuard {e : CpiGuard} {enable : Bool} (signed : st.base.owner ∈ validated) :
      AccountUpdate i validated a st .cpiGuard e ⟨enable⟩

/-- The values with which an extension comes to the initialized token account at `a`. -/
inductive AccountOpening (i : Invocation) (validated : List Address) (a : Address)
    (st : TokenAccountState) : (t : ExtensionType) → Extension t → Prop
  | memo {enable : Bool} (signed : st.base.owner ∈ validated) :
      AccountOpening i validated a st .memoTransfer ⟨enable⟩
  | cpiGuard {enable : Bool} (signed : st.base.owner ∈ validated) :
      AccountOpening i validated a st .cpiGuard ⟨enable⟩
  | configure {approved : Bool} {pubkey : ElGamalPubkey} {decryptable : AeCiphertext}
      {maximum : ℕ} (named : i.configures? = some a) :
      AccountOpening i validated a st .confidentialTransferAccount
        (newConfidentialTransferAccount approved pubkey decryptable maximum)
  | configureFees : AccountOpening i validated a st .confidentialTransferFeeAmount ⟨0⟩

/-! ### All writes -/

/-- **The writes to the data of the account at `a`**, by an instruction that found the ledger
`start`. -/
inductive Change (i : Invocation) (start : Ledger) (validated : List Address) (a : Address) :
    AccountData → AccountData → Prop
  | stage {kind : AccountType} {tlv tlv' : TlvData kind} {t : ExtensionType} {v : Extension t}
      (named : i.instruction.initializes = some kind) (target : i.key? 0 = some a)
      (unpacked : unpackUninitialized kind (.zeroed tlv.toBuffer) = .ok tlv)
      (staged : t ∈ stagedTypes kind) (written : tlv.initExtension t v true = .ok tlv') :
      Change i start validated a (.zeroed tlv.toBuffer) (.zeroed tlv'.toBuffer)
  | openMint {tlv : TlvData .mint} {base : PodMint}
      (named : i.instruction.initializes = some .mint) (target : i.key? 0 = some a)
      (unpacked : unpackUninitialized .mint (.zeroed tlv.toBuffer) = .ok tlv)
      (len : tryCalculateAccountLen .mint tlv.extensionTypes = .ok tlv.len)
      (valid : ExtensionType.ValidCombination tlv.extensionTypes)
      (thawable : ∀ default, tlv.get .defaultAccountState = some default →
        default.state = .frozen → base.freezeAuthority ≠ none)
      (empty : base.supply = 0) :
      Change i start validated a (.zeroed tlv.toBuffer) (.mint { base, tlv })
  | openNativeMint {tlv : TlvData .mint} {base : PodMint}
      (named : i.instruction = .createNativeMint) (here : a = nativeMintId)
      (bare : tlv.toBuffer = ⟨[], AccountType.mint.baseLen⟩) (empty : base.supply = 0) :
      Change i start validated a (.zeroed tlv.toBuffer) (.mint { base, tlv })
  | openAccount {tlv tlv' : TlvData .account} {types : List ExtensionType} {base : PodAccount}
      (named : i.instruction.initializes = some .account) (target : i.key? 0 = some a)
      (unpacked : unpackUninitialized .account (.zeroed tlv.toBuffer) = .ok tlv)
      (required : types.foldlM TlvData.initAccountExtensionFromType tlv = .ok tlv') :
      Change i start validated a (.zeroed tlv.toBuffer) (.account { base, tlv := tlv' })
  | openMultisig {b : Buffer} {state : PodMultisig} (len : b.len = multisigLen)
      (small : state.m ≤ maxSigners) (few : state.signers.length ≤ maxSigners) :
      Change i start validated a (.zeroed b) (.multisig state)
  | mintBase {mint : MintState} {base : PodMint} (initial : (start a).data = .mint mint)
      (change : MintBaseChange i validated a mint base) :
      Change i start validated a (.mint mint) (.mint (mint.withBase base))
  | mintUpdate {mint : MintState} {t : ExtensionType} {e e' : Extension t}
      (initial : (start a).data = .mint mint) (held : mint.get t = some e)
      (update : MintUpdate i validated mint t e e') :
      Change i start validated a (.mint mint) (.mint (mint.set t e'))
  | addMetadata {mint mint' : MintState} {e : TokenMetadata} {key : Address}
      (authority : mint.base.mintAuthority = some key) (pointer : mint.has .metadataPointer = true)
      (written : mint.allocAndSerializeVariableLenExtension .tokenMetadata e false = .ok mint')
      (signed : i.SignedBy key) :
      Change i start validated a (.mint mint) (.mint mint')
  | updateMetadata {mint mint' : MintState} {e e' : TokenMetadata} {key : Address}
      (held : mint.get .tokenMetadata = some e)
      (authority : e.updateAuthority.toOption = some key)
      (written : mint.allocAndSerializeVariableLenExtension .tokenMetadata e' true = .ok mint')
      (signed : i.SignedBy key) :
      Change i start validated a (.mint mint) (.mint mint')
  | addGroup {mint mint' : MintState} {e : TokenGroup} {key : Address}
      (authority : mint.base.mintAuthority = some key) (pointer : mint.has .groupPointer = true)
      (empty : e.size = 0) (written : mint.allocAndSerialize .tokenGroup e false = .ok mint')
      (signed : i.SignedBy key) :
      Change i start validated a (.mint mint) (.mint mint')
  | addMember {mint mint' : MintState} {e : TokenGroupMember} {key : Address}
      (authority : mint.base.mintAuthority = some key)
      (pointer : mint.has .groupMemberPointer = true)
      (written : mint.allocAndSerialize .tokenGroupMember e false = .ok mint')
      (signed : i.SignedBy key) :
      Change i start validated a (.mint mint) (.mint mint')
  | accountBase {st : TokenAccountState} {base : PodAccount}
      (change : AccountBaseChange validated st.base base) :
      Change i start validated a (.account st) (.account (st.withBase base))
  | accountUpdate {st : TokenAccountState} {t : ExtensionType} {e e' : Extension t}
      (held : st.get t = some e) (update : AccountUpdate i validated a st t e e') :
      Change i start validated a (.account st) (.account (st.set t e'))
  | accountOpen {st st' : TokenAccountState} {t : ExtensionType} {e : Extension t}
      {overwrite : Bool} (absent : st.get t = none) (opening : AccountOpening i validated a st t e)
      (written : st.initExtension t e overwrite = .ok st') :
      Change i start validated a (.account st) (.account st')
  | accountResize {st st' : TokenAccountState} {len : ℕ} (written : st.resize len = .ok st')
      (grows : st.tlv.len ≤ len) : Change i start validated a (.account st) (.account st')

end Token2022
