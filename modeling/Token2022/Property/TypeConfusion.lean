/-
**Nothing is taken for what it is not.**

The readers of the three layouts accept disjoint sets of bytes. Before a mint or an account is
initialized its first extension tells what it is to become, and nothing but an initialization of that
layout touches it.

* `AccountData.extensionTypes`, `AccountData.layout?` — the extensions in data, and what it is or is to
  become.
* `TokenInstruction.initializesLayout` — the layout of what an instruction initializes.
* `AccountData.Admits`, `run_admits` — what an initialization asks of its account.
* `Change.prepares` — what changes data that waits for its initialization.
* **`type_confusion_impossible`** — all of it.
-/

import Token2022.Environment
import Token2022.Interface.Exclusion
import Token2022.Invariant.Layout

namespace Token2022

open Fallible Interface LabelledRun

/-! ### Layouts of data -/

/-- The layout of the states of a kind. -/
def AccountType.layout? : AccountType → Option Layout
  | .uninitialized => none
  | .mint => some .mint
  | .account => some .account

/-- The extensions that are written in data. -/
def AccountData.extensionTypes : AccountData → List ExtensionType
  | .zeroed b => b.extensionTypes
  | .mint state => StateWithExtensions.extensionTypes state
  | .account state => StateWithExtensions.extensionTypes state
  | _ => []

/-- The layout of data; before its initialization, that of its first extension. -/
def AccountData.layout? : AccountData → Option Layout
  | .zeroed b => b.extensionTypes.head?.bind fun t => t.getAccountType.layout?
  | .mint _ => some .mint
  | .account _ => some .account
  | .multisig _ => some .multisig
  | _ => none

/-- The layout of what an instruction initializes in its first account: an account, an extension of
one to be, or what a mint says about itself. -/
def TokenInstruction.initializesLayout : TokenInstruction → Option Layout
  | .initializeMultisig _ | .initializeMultisig2 _ => some .multisig
  | .tokenMetadata (.initializeMetadata ..) | .tokenGroup (.initializeGroup ..)
  | .tokenGroup .initializeMember => some .mint
  | instruction => instruction.initializes.bind AccountType.layout?

/-- What an initialization of the layout asks of the data that it is applied to. -/
inductive AccountData.Admits (data : AccountData) : Layout → Prop
  | unpacked {kind : AccountType} {layout : Layout} {tlv : TlvData kind}
      (named : kind.layout? = some layout) (ok : unpackUninitialized kind data = .ok tlv) :
      Admits data layout
  | mint {state : MintState} (held : data = .mint state) : Admits data .mint
  | multisig {b : Buffer} (held : data = .zeroed b) (len : b.len = multisigLen) :
      Admits data .multisig

/-- The extensions of data that is laid out are those of its layout. -/
theorem AccountData.Laid.layout?_of_mem {data : AccountData} (laid : data.Laid) {t : ExtensionType}
    (member : t ∈ data.extensionTypes) : t.getAccountType.layout? = data.layout? := by
  cases data with
  | zeroed b =>
    obtain ⟨kind, staged⟩ := laid
    have kinds := fun t member => getAccountType_of_staged (staged.staged t member)
    replace member : t ∈ b.extensionTypes := member
    show _ = b.extensionTypes.head?.bind _
    cases types : b.extensionTypes with
    | nil => simp [types] at member
    | cons first rest =>
      show _ = first.getAccountType.layout?
      rw [kinds t member, kinds first (by simp [types])]
  | mint state =>
    have carries := StateWithExtensions.mem_extensionTypes.mp member
    rw [(MintState.Laid.extended laid carries).kind t member]
    rfl
  | account state =>
    rw [TokenAccountState.Laid.kind laid t member]
    rfl
  | _ => cases member

/-- **What is laid out admits the initializations of its own layout only.** -/
theorem AccountData.Laid.layout_of_admits {data : AccountData} (laid : data.Laid)
    {layout layout' : Layout} (known : data.layout? = some layout) (admits : data.Admits layout') :
    layout' = layout := by
  cases admits with
  | @unpacked kind _ tlv named ok =>
    obtain rfl := unpackUninitialized_eq_ok ok
    obtain ⟨prepared, staged⟩ := laid
    obtain ⟨t, first, known⟩ := Option.bind_eq_some_iff.mp known
    have member := List.mem_of_mem_head? first
    rw [getAccountType_of_staged ((staged.of_unpacked ok).staged t member), named] at known
    exact Option.some.inj known
  | mint held =>
    subst held
    exact Option.some.inj known
  | @multisig b held len =>
    subst held
    obtain ⟨prepared, staged⟩ := laid
    obtain ⟨t, first, -⟩ := Option.bind_eq_some_iff.mp known
    have member := List.mem_of_mem_head? first
    exact absurd len (staged.length (List.ne_nil_of_mem member)).1

/-! ### What initializations ask for -/

section Admits

variable {i : Invocation} {L : Ledger} {outcome : Outcome} {a : Address}

theorem key?_zero_inj {info : AccountMeta} {rest : List AccountMeta}
    (shape : i.accounts = info :: rest) (first : i.key? 0 = some a) : info.key = a :=
  Option.some.inj ((key?_zero shape).symm.trans first)

theorem initializeMintExtension_unpacks {t : ExtensionType} {value : ProgramResult (Extension t)}
    (first : i.key? 0 = some a) (ok : initializeMintExtension L i.accounts t value = .ok outcome) :
    ∃ tlv, unpackUninitialized .mint (L a).data = .ok tlv := by
  simp only [initializeMintExtension, bind_eq_ok_iff, Prod.exists, nextAccountInfo_eq_ok_iff] at ok
  obtain ⟨info, rest, shape, _, -, tlv, unpacked, -⟩ := ok
  rw [key?_zero_inj shape first] at unpacked
  exact ⟨tlv, unpacked⟩

theorem processInitializeMintWith_unpacks {decimals : ℕ} {mintAuthority : Address}
    {freezeAuthority : Option Address} {rentSysvarAccount : Bool} (first : i.key? 0 = some a)
    (ok : processInitializeMintWith i.env L i.accounts decimals mintAuthority freezeAuthority
      rentSysvarAccount = .ok outcome) : ∃ tlv, unpackUninitialized .mint (L a).data = .ok tlv := by
  simp only [processInitializeMintWith, bind_eq_ok_iff, Prod.exists, nextAccountInfo_eq_ok_iff,
    require_eq_ok_iff, exists_const, checkProgramAccount_eq_ok_iff] at ok
  obtain ⟨info, rest, shape, -, _, -, -, tlv, unpacked, -⟩ := ok
  rw [key?_zero_inj shape first] at unpacked
  exact ⟨tlv, unpacked⟩

theorem processInitializeAccountWith_unpacks {owner : Option Address} {rentSysvarAccount : Bool}
    (first : i.key? 0 = some a)
    (ok : processInitializeAccountWith i.env L i.accounts owner rentSysvarAccount = .ok outcome) :
    ∃ tlv, unpackUninitialized .account (L a).data = .ok tlv := by
  simp only [processInitializeAccountWith, bind_eq_ok_iff, Prod.exists, nextAccountInfo_eq_ok_iff,
    require_eq_ok_iff, exists_const, checkProgramAccount_eq_ok_iff] at ok
  obtain ⟨info, rest, shape, _, _, -, -, -, _, _, -, _, -, tlv, unpacked, -⟩ := ok
  rw [key?_zero_inj shape first] at unpacked
  exact ⟨tlv, unpacked⟩

theorem processInitializeImmutableOwner_unpacks (first : i.key? 0 = some a)
    (ok : processInitializeImmutableOwner L i.accounts = .ok outcome) :
    ∃ tlv, unpackUninitialized .account (L a).data = .ok tlv := by
  simp only [processInitializeImmutableOwner, bind_eq_ok_iff, Prod.exists,
    nextAccountInfo_eq_ok_iff] at ok
  obtain ⟨info, rest, shape, _, -, tlv, unpacked, -⟩ := ok
  rw [key?_zero_inj shape first] at unpacked
  exact ⟨tlv, unpacked⟩

theorem processInitializeMultisigWith_admits {m : ℕ} {rentSysvarAccount : Bool}
    (first : i.key? 0 = some a)
    (ok : processInitializeMultisigWith i.env L i.accounts m rentSysvarAccount = .ok outcome) :
    (L a).data.Admits .multisig := by
  simp only [processInitializeMultisigWith, bind_eq_ok_iff, Prod.exists, nextAccountInfo_eq_ok_iff,
    require_eq_ok_iff, exists_const, checkProgramAccount_eq_ok_iff] at ok
  obtain ⟨info, rest, shape, -, _, -, len, ok⟩ := ok
  rw [key?_zero_inj shape first] at len ok
  split at ok
  · rename_i b held
    rw [held] at len
    exact .multisig held len
  · cases ok

theorem processInitializeMetadata_admits {name symbol uri : String} (first : i.key? 0 = some a)
    (ok : processInitializeMetadata L i.accounts name symbol uri = .ok outcome) :
    (L a).data.Admits .mint := by
  simp only [processInitializeMetadata, bind_eq_ok_iff, Prod.exists, nextAccountInfo_eq_ok_iff,
    require_eq_ok_iff, exists_const, checkProgramAccount_eq_ok_iff, unpackMint_eq_ok_iff] at ok
  obtain ⟨info, _, shape, _, _, -, mintInfo, _, -, _, _, -, same, -, mint, data, -⟩ := ok
  rw [← same, key?_zero_inj shape first] at data
  exact .mint data

theorem processInitializeGroup_admits {updateAuthority : MaybeNull Address} {maxSize : ℕ}
    (first : i.key? 0 = some a)
    (ok : processInitializeGroup L i.accounts updateAuthority maxSize = .ok outcome) :
    (L a).data.Admits .mint := by
  simp only [processInitializeGroup, bind_eq_ok_iff, Prod.exists, nextAccountInfo_eq_ok_iff,
    require_eq_ok_iff, exists_const, checkProgramAccount_eq_ok_iff, unpackMint_eq_ok_iff] at ok
  obtain ⟨info, _, shape, mintInfo, _, -, _, _, -, same, -, mint, data, -⟩ := ok
  rw [← same, key?_zero_inj shape first] at data
  exact .mint data

theorem processInitializeMember_admits (first : i.key? 0 = some a)
    (ok : processInitializeMember i.env L i.accounts = .ok outcome) :
    (L a).data.Admits .mint := by
  simp only [processInitializeMember, bind_eq_ok_iff, Prod.exists, nextAccountInfo_eq_ok_iff,
    require_eq_ok_iff, exists_const, checkProgramAccount_eq_ok_iff, unpackMint_eq_ok_iff] at ok
  obtain ⟨info, _, shape, mintInfo, _, -, _, _, -, _, _, -, _, _, -, -, same, -, mint, data, -⟩ := ok
  rw [← same, key?_zero_inj shape first] at data
  exact .mint data

/-- **What prepares or opens an account unpacked it as its kind.** -/
theorem run_unpacks {kind : AccountType} (named : i.instruction.initializes = some kind)
    (first : i.key? 0 = some a) (ok : i.run L = .ok outcome) :
    ∃ tlv, unpackUninitialized kind (L a).data = .ok tlv := by
  unfold Invocation.run at ok
  cases instruction : i.instruction
  all_goals rw [instruction] at named ok
  case initializeMint | initializeMint2 =>
    obtain rfl := Option.some.inj named
    exact processInitializeMintWith_unpacks first ok
  case initializeAccount =>
    obtain rfl := Option.some.inj named
    replace ok : processInitializeAccountWith i.env L i.accounts none true = .ok outcome := ok
    exact processInitializeAccountWith_unpacks first ok
  case initializeAccount2 owner =>
    obtain rfl := Option.some.inj named
    replace ok : processInitializeAccountWith i.env L i.accounts (some owner) true = .ok outcome := ok
    exact processInitializeAccountWith_unpacks first ok
  case initializeAccount3 owner =>
    obtain rfl := Option.some.inj named
    replace ok : processInitializeAccountWith i.env L i.accounts (some owner) false = .ok outcome :=
      ok
    exact processInitializeAccountWith_unpacks first ok
  case initializeImmutableOwner =>
    obtain rfl := Option.some.inj named
    exact processInitializeImmutableOwner_unpacks first ok
  case initializeMintCloseAuthority | initializeNonTransferableMint | initializePermanentDelegate =>
    obtain rfl := Option.some.inj named
    exact initializeMintExtension_unpacks first ok
  case defaultAccountStateExtension inner =>
    cases inner
    all_goals cases named
    obtain ⟨default, -, ok⟩ := bind_eq_ok_iff.mp ok
    exact initializeMintExtension_unpacks first ok
  case transferFeeExtension inner | confidentialTransferExtension inner
    | confidentialTransferFeeExtension inner | confidentialMintBurnExtension inner
    | interestBearingMintExtension inner | transferHookExtension inner
    | metadataPointerExtension inner | groupPointerExtension inner
    | groupMemberPointerExtension inner | scaledUiAmountExtension inner | pausableExtension inner
    | permissionedBurnExtension inner =>
    cases inner
    all_goals cases named
    exact initializeMintExtension_unpacks first ok
  all_goals cases named

/-- The initialization of a buffer found one that it unpacks. -/
theorem run_admits_unpacked {layout : Layout}
    (named : i.instruction.initializes.bind AccountType.layout? = some layout)
    (first : i.key? 0 = some a) (ok : i.run L = .ok outcome) : (L a).data.Admits layout := by
  obtain ⟨kind, prepares, known⟩ := Option.bind_eq_some_iff.mp named
  obtain ⟨tlv, unpacked⟩ := run_unpacks prepares first ok
  exact .unpacked known unpacked

/-- **A successful initialization found what it asks for.** -/
theorem run_admits {layout : Layout} (named : i.instruction.initializesLayout = some layout)
    (first : i.key? 0 = some a) (ok : i.run L = .ok outcome) : (L a).data.Admits layout := by
  -- But for three kinds of instruction, it is one of a buffer.
  have unpacked : i.instruction.initializes.bind AccountType.layout? = some layout →
      (L a).data.Admits layout := fun named => run_admits_unpacked named first ok
  rw [Invocation.run] at ok
  cases instruction : i.instruction
  all_goals rw [instruction] at named unpacked ok
  case initializeMultisig m | initializeMultisig2 m =>
    obtain rfl := Option.some.inj named
    exact processInitializeMultisigWith_admits first ok
  case tokenMetadata inner =>
    cases inner
    case initializeMetadata =>
      obtain rfl := Option.some.inj named
      exact processInitializeMetadata_admits first ok
    all_goals exact unpacked named
  case tokenGroup inner =>
    cases inner
    case initializeGroup =>
      obtain rfl := Option.some.inj named
      exact processInitializeGroup_admits first ok
    case initializeMember =>
      obtain rfl := Option.some.inj named
      exact processInitializeMember_admits first ok
    all_goals exact unpacked named
  all_goals exact unpacked named

end Admits

/-! ### What changes data that waits -/

section Waiting

variable {i : Invocation} {start L : Ledger} {validated : List Address} {a : Address}

/-- The instruction initializes the layout in its first account, which is `a`. -/
def Invocation.Initializes (i : Invocation) (a : Address) (layout : Layout) : Prop :=
  i.key? 0 = some a ∧ i.instruction.initializesLayout = some layout

/-- What prepares or opens an account initializes its layout. -/
theorem initializesLayout_of_initializes {instruction : TokenInstruction} {kind : AccountType}
    {layout : Layout} (prepares : instruction.initializes = some kind)
    (known : kind.layout? = some layout) : instruction.initializesLayout = some layout := by
  cases instruction
  case initializeMultisig | initializeMultisig2 => cases prepares
  case tokenMetadata inner | tokenGroup inner =>
    cases inner
    all_goals cases prepares
  all_goals exact Option.bind_eq_some_iff.mpr ⟨kind, prepares, known⟩

/-- **A change of data that waits, with extensions written in it, is by an initialization.** -/
theorem Change.prepares {b : Buffer} {new : AccountData} (waits : b.extensionTypes ≠ [])
    (staged : (AccountData.zeroed b).Laid) (change : Change i start validated a (.zeroed b) new) :
    ∃ layout, i.Initializes a layout ∧ (AccountData.zeroed b).layout? = some layout := by
  have known : ∀ {kind : AccountType} {tlv : TlvData kind}, tlv.toBuffer = b →
      unpackUninitialized kind (.zeroed tlv.toBuffer) = .ok tlv →
      ∃ layout, kind.layout? = some layout ∧ (AccountData.zeroed b).layout? = some layout := by
    rintro kind tlv rfl unpacked
    obtain ⟨prepared, laid⟩ := staged
    obtain ⟨t, rest, types⟩ := List.exists_cons_of_ne_nil waits
    have member : t ∈ tlv.extensionTypes := types ▸ List.mem_cons_self
    have ofKind := (laid.of_unpacked unpacked).staged t member
    have first : (AccountData.zeroed tlv.toBuffer).layout? = kind.layout? := by
      show tlv.extensionTypes.head?.bind _ = _
      rw [types]
      exact congrArg AccountType.layout? (getAccountType_of_staged ofKind)
    rw [first]
    cases kind with
    | uninitialized => cases ofKind
    | mint => exact ⟨_, rfl, rfl⟩
    | account => exact ⟨_, rfl, rfl⟩
  cases change with
  | stage named target unpacked | openMint named target unpacked
  | openAccount named target unpacked =>
    obtain ⟨layout, kind, first⟩ := known rfl unpacked
    exact ⟨layout, ⟨target, initializesLayout_of_initializes named kind⟩, first⟩
  | openNativeMint named here bare =>
    exact absurd (by rw [Buffer.extensionTypes, bare]; rfl) waits
  | openMultisig len =>
    obtain ⟨prepared, laid⟩ := staged
    exact absurd len (laid.length waits).1

/-- Only an initialized account is closed. -/
theorem not_closes_of_zeroed {outcome : Outcome} {b : Buffer} (data : (L a).data = .zeroed b)
    (ok : i.run L = .ok outcome) : ¬ i.closes a := by
  rintro ⟨named, target⟩
  rw [Invocation.run, named] at ok
  replace ok : processCloseAccount i.env L i.accounts = .ok outcome := ok
  simp only [processCloseAccount, bind_eq_ok_iff, Prod.exists, nextAccountInfo_eq_ok_iff] at ok
  obtain ⟨info, _, shape, _, _, -, _, _, -, _, -, _, -, validated, closed, -⟩ := ok
  rw [key?_zero_inj shape target, data] at closed
  split at closed
  · rename_i held
    cases unpackAccount_eq_ok_iff.mp held
  · split at closed
    · rename_i held
      cases unpackMint_eq_ok_iff.mp held
    · cases closed

/-- **Nothing but an initialization changes data that waits.** -/
theorem run_waiting {outcome : Outcome} {b : Buffer} (owned : (L a).owner = programId)
    (data : (L a).data = .zeroed b) (waits : b.extensionTypes ≠ [])
    (laid : (AccountData.zeroed b).Laid) (ok : i.run L = .ok outcome)
    (changed : (outcome.ledger a).data ≠ .zeroed b) :
    ∃ layout, i.Initializes a layout ∧ (AccountData.zeroed b).layout? = some layout := by
  by_contra none
  refine changed ((run_writes ok).follow (R := fun data => data = .zeroed b)
    (not_closes_of_zeroed data ok) (fun old new same change => ?_) ⟨owned, data⟩).2
  subst same
  exact absurd (change.prepares waits laid) none

end Waiting

/-! ### The system -/

/-- **Type confusion is impossible.** Of any bytes at most one layout's readers accept them, an
extensible state never has the length of a multisig, and `valid_account_data` tells the accounts. In
every reachable ledger all extensions in data of the program belong to the layout of that data, only
initializations of that layout succeed on it, and while it waits for its initialization nothing else
changes it. -/
theorem type_confusion_impossible (crates : Crates) :
    (∀ (bytes : List UInt8) (layout : Layout), Accepted crates bytes layout →
      (∀ layout', Accepted crates bytes layout' → layout' = layout) ∧
      (layout ≠ .multisig → bytes.length ≠ multisigLen) ∧
      (validAccountData bytes = true ↔ layout = .account)) ∧
    ∀ L a, Reachable L → (L a).owner = programId →
      (∀ t ∈ (L a).data.extensionTypes, t.getAccountType.layout? = (L a).data.layout?) ∧
      (∀ (i : Invocation) (outcome : Outcome) (layout layout' : Layout),
        i.run L = .ok outcome → (L a).data.layout? = some layout → i.Initializes a layout' →
        layout' = layout) ∧
      ∀ (i : Invocation) (outcome : Outcome) (b : Buffer), i.run L = .ok outcome →
        (L a).data = .zeroed b → b.extensionTypes ≠ [] → (outcome.ledger a).data ≠ (L a).data →
        ∃ layout, i.Initializes a layout ∧ (L a).data.layout? = some layout := by
  constructor
  · intro bytes layout read
    refine ⟨fun layout' read' => read'.exclusive read,
      fun other length => other (read.multisig_of_length length), fun valid => ?_, ?_⟩
    · by_contra other
      rw [read.not_validAccountData other] at valid
      cases valid
    · rintro rfl
      exact validAccountData_of_account read
  · intro L a reachable owned
    have laid := reachable.laid owned
    refine ⟨fun t member => laid.layout?_of_mem member, ?_, ?_⟩
    · rintro i outcome layout layout' ok known ⟨first, named⟩
      exact laid.layout_of_admits known (run_admits named first ok)
    · intro i outcome b ok data waits changed
      rw [data] at laid changed ⊢
      exact run_waiting owned data waits laid ok changed

section Example

open Basic AccountMeta

/-- An account to be: its owner is set to stay. -/
def Basic.immutableTurns : List Turn := [
  .allocate source 170,
  .basic .initializeImmutableOwner [.plain source]]

theorem type_confusion_impossible_example : ∃ L, runAll .fresh Basic.immutableTurns = .ok L ∧
    (L Basic.source).data.layout? = some .account ∧
    ∀ (i : Invocation) (outcome : Outcome) (layout : Layout), i.run L = .ok outcome →
      i.Initializes Basic.source layout → layout = .account := by
  have leads : LeadsTo (runAll .fresh Basic.immutableTurns) fun L =>
      (L Basic.source).owner = programId ∧ (L Basic.source).data.layout? = some .account := by
    decide +kernel
  obtain ⟨L, ran, owned, known⟩ := leads.exists
  exact ⟨L, ran, known, fun i outcome layout ok initializes =>
    ((type_confusion_impossible .basic).2 L Basic.source (.of_runAll .fresh ran) owned).2.1 i outcome
      .account layout ok known initializes⟩

end Example

end Token2022
