/-
**What an instruction does to the book.**

An instruction that succeeds has one of the effects below, up to what the rest of the world does
before and after it. An effect says which slots are written, with what, and under which guards; the
claims about the system are about effects.

* `Debit` — the arms of authority over an amount; `Adjustment` — what a holding's own instructions
  change; `SpendsEncrypted`, `ReceivesEncrypted` — the sides of confidential movements.
* `Collect` — one withheld fee on its way to the mint or to an account of its.
* **`Effect`** — the effects of the instructions.
-/

import Token2022.Abstract.Book
import Token2022.System

namespace Token2022

/-! ### What an invocation names -/

namespace Invocation

/-- The key of an account of the invocation, by its position. -/
def key? (i : Invocation) (n : ℕ) : Option Address := (i.accounts[n]?).map AccountMeta.key

/-- The invocation would initialize a mint at `m`. -/
def initializesMint (i : Invocation) (m : Address) : Bool :=
  match i.instruction with
  | .initializeMint .. | .initializeMint2 .. => i.key? 0 = some m
  | .createNativeMint => m = nativeMintId
  | _ => false

/-- The account, the delegate and the amount of an approval. -/
def approval (i : Invocation) : Option (Address × Address × ℕ) :=
  match i.instruction with
  | .approve amount => do
    let a ← i.key? 0
    let delegate ← i.key? 1
    some (a, delegate, amount.toNat)
  | .approveChecked amount _ => do
    let a ← i.key? 0
    let delegate ← i.key? 2
    some (a, delegate, amount.toNat)
  | _ => none

/-- The invocation burns tokens of an amount. -/
def isBurn (i : Invocation) : Bool :=
  match i.instruction with
  | .burn _ | .burnChecked .. => true
  | .permissionedBurnExtension (.burn _) | .permissionedBurnExtension (.burnChecked ..) => true
  | _ => false

/-- The invocation withdraws withheld fees, plain or confidential. -/
def withdrawsWithheld (i : Invocation) : Bool :=
  match i.instruction with
  | .transferFeeExtension .withdrawWithheldTokensFromMint => true
  | .transferFeeExtension (.withdrawWithheldTokensFromAccounts _) => true
  | .confidentialTransferFeeExtension (.withdrawWithheldTokensFromMint ..) => true
  | .confidentialTransferFeeExtension (.withdrawWithheldTokensFromAccounts ..) => true
  | _ => false

end Invocation

/-! ### Staging -/

/-- A value that an extension may have before its account is initialized: of a mint, with nothing in
it yet, or the mark of an immutable owner. -/
def FreshEntry : (t : ExtensionType) → Extension t → Prop
  | .transferFeeConfig, config => config.withheldAmount = 0
  | .confidentialTransferFeeConfig, config => config.withheldAmount = 0
  | .confidentialMintBurn, mintBurn => mintBurn.confidentialSupply = 0 ∧ mintBurn.pendingBurn = 0
  | .pausable, config => config.paused = false
  | t, _ => t.getAccountType = .mint ∨ t = .immutableOwner

/-- The issuance of `process_create_native_mint`. -/
def nativeIssuance : Issuance :=
  Buffer.issuance ⟨[], AccountType.mint.baseLen⟩
    { mintAuthority := none, supply := 0, decimals := nativeMintDecimals, freezeAuthority := none }

/-- The holding that a mint's new account is: the extensions set before, and those that the mint
requires. -/
def Buffer.openHolding (b : Buffer) (i : Issuance) (base : PodAccount) : Holding :=
  { b.holding base with
    withheld := if i.fees.isSome then some 0 else (b.holding base).withheld
    immutableOwner := i.nonTransferable || (b.holding base).immutableOwner
    nonTransferable := i.nonTransferable || (b.holding base).nonTransferable
    hooked := i.hook.isSome || (b.holding base).hooked
    pausable := i.pausable.isSome || (b.holding base).pausable }

/-- The base state of a new account of the mint at `m`: an amount only where lamports back it. -/
structure Opens (B : Book) (a m : Address) (i : Issuance) (base : PodAccount) : Prop where
  mint : base.mint = m
  delegate : base.delegate = none
  delegatedAmount : base.delegatedAmount = 0
  state : base.state = i.startingState
  native : m = nativeMintId →
    ∃ reserve, base.isNative = some reserve ∧ base.amount + reserve = B.lamports a
  plain : m ≠ nativeMintId → base.isNative = none ∧ base.amount = 0

/-! ### Mints -/

/-- The settings of a mint change, its tokens and what it demands of accounts do not. -/
structure ConfigOnly (i i' : Issuance) : Prop where
  supply : i'.base.supply = i.base.supply
  withheld : i'.fees.map TransferFeeConfig.withheldAmount =
    i.fees.map TransferFeeConfig.withheldAmount
  hook : i'.hook.isSome = i.hook.isSome
  paused : i'.pausable.map PausableConfig.paused = i.pausable.map PausableConfig.paused
  mintBurn : i'.mintBurn = i.mintBurn
  confidential : i'.confidential = i.confidential
  encryptedWithheld : i'.encryptedWithheld = i.encryptedWithheld
  nonTransferable : i'.nonTransferable = i.nonTransferable
  unfreezable : i.base.freezeAuthority = none →
    i'.base.freezeAuthority = none ∧ i'.startingState = i.startingState

theorem ConfigOnly.refl (i : Issuance) : ConfigOnly i i where
  supply := rfl
  withheld := rfl
  hook := rfl
  paused := rfl
  mintBurn := rfl
  confidential := rfl
  encryptedWithheld := rfl
  nonTransferable := rfl
  unfreezable none := ⟨none, rfl⟩

/-! ### Authority over tokens -/

/-- **The arms of a debit** of `n` from `h`: the base state with its allowance brought up to date,
the key that signs, and the arm. -/
inductive Debit (B : Book) (h : Holding) (n : ℕ) : PodAccount → Address → DebitArm → Prop
  | permanentDelegate {i : Issuance} {key : Address} (mint : B.slot h.base.mint = .issue i)
      (named : i.permanentDelegate = some key) : Debit B h n h.base key .permanentDelegate
  | delegate {key : Address} (named : h.base.delegate = some key)
      (allowed : n ≤ h.base.delegatedAmount) : Debit B h n (h.base.spendAllowance n) key .delegate
  | owner : Debit B h n h.base h.base.owner .owner

/-- A debit touches the allowance only. -/
theorem Debit.kept {B : Book} {h : Holding} {n : ℕ} {base : PodAccount} {key : Address}
    {arm : DebitArm} (debit : Debit B h n base key arm) :
    base.mint = h.base.mint ∧ base.owner = h.base.owner ∧ base.amount = h.base.amount ∧
      base.state = h.base.state ∧ base.isNative = h.base.isNative ∧
      base.closeAuthority = h.base.closeAuthority := by
  cases debit <;> exact ⟨rfl, rfl, rfl, rfl, rfl, rfl⟩

/-- A named system address has signed, where nothing stands at it that could sign in its place. -/
def Vouched (i : Invocation) (B : Book) (key : Address) : Prop :=
  key = systemProgramId ∨ key = incineratorId → B.slot key = .foreign → ¬ B.legacy →
    ∃ s ∈ i.accounts, s.key = key ∧ s.isSigner = true

/-- **What changes in a holding alone**, by an instruction on it at `a`. -/
inductive Adjustment (i : Invocation) (B : Book) (a : Address) (h : Holding) :
    List Address → Holding → Prop
  | approve {delegate : Address} {amount : ℕ} (named : i.approval = some (a, delegate, amount))
      (thawed : h.base.isFrozen = false) (unguarded : ¬ (h.cpiLocked ∧ i.env.inCpi)) :
      Adjustment i B a h [h.base.owner]
        (h.withBase { h.base with delegate := some delegate, delegatedAmount := amount })
  | revoke {validated : List Address} (thawed : h.base.isFrozen = false)
      (signed : h.base.owner ∈ validated ∨ ∃ key, h.base.delegate = some key ∧ key ∈ validated) :
      Adjustment i B a h validated (h.withBase { h.base with delegate := none, delegatedAmount := 0 })
  | setOwner {owner : Address} (thawed : h.base.isFrozen = false)
      (mutable : h.immutableOwner = false) (unlocked : h.cpiLocked = false) :
      Adjustment i B a h [h.base.owner]
        (h.withBase { h.base with
          owner
          delegate := none
          delegatedAmount := 0
          closeAuthority := if h.base.isNativeAccount then none else h.base.closeAuthority })
  | setCloseAuthority {new : Option Address} (thawed : h.base.isFrozen = false)
      (unguarded : ¬ (h.cpiLocked ∧ i.env.inCpi ∧ new.isSome)) :
      Adjustment i B a h [h.base.closeAuthority.getD h.base.owner]
        (h.withBase { h.base with closeAuthority := new })
  | lockCpi {lock : Bool} (outside : i.env.inCpi = false)
      (named : i.instruction = .cpiGuardExtension (if lock then .enable else .disable))
      (target : i.key? 0 = some a) (vouched : Vouched i B h.base.owner) :
      Adjustment i B a h [h.base.owner] { h with cpiLocked := lock }
  | configure {validated : List Address} {iss : Issuance} (fees : Bool)
      (issued : B.slot h.base.mint = .issue iss) (confidential : iss.confidential = true)
      (absent : h.encrypted = none) (noFees : fees = true → h.encryptedWithheld = none) :
      Adjustment i B a h validated { h with
        encrypted := some 0
        encryptedWithheld := if fees then some 0 else h.encryptedWithheld }
  | applyPending {e : EncryptedBalance} (thawed : h.base.isFrozen = false)
      (encrypted : h.encrypted = some e) :
      Adjustment i B a h [h.base.owner]
        { h with encrypted := some ⟨e.available + e.pending, 0, 0⟩ }

/-! ### Encrypted amounts -/

/-- The source of a confidential movement: a split amount leaves the available balance, which stays
a 64-bit number. -/
structure SpendsEncrypted (i : Invocation) (h h' : Holding) (m : Address) (lo hi : Scalar) :
    Prop where
  mint : h.base.mint = m
  thawed : h.base.isFrozen = false
  unguarded : ¬ (h.cpiLocked ∧ i.env.inCpi)
  split : SplitAmount lo hi
  moved : ∃ e remaining, h.encrypted = some e ∧ e.available = remaining + pendingTotal lo hi ∧
    remaining.val < 2 ^ 64 ∧ h' = { h with encrypted := some { e with available := remaining } }

/-- The destination of a confidential movement: a split amount is added to the pending balance. -/
structure ReceivesEncrypted (h h' : Holding) (m : Address) (lo hi : Scalar) : Prop where
  mint : h.base.mint = m
  thawed : h.base.isFrozen = false
  split : SplitAmount lo hi
  moved : ∃ e, h.encrypted = some e ∧ h' = { h with
    encrypted := some { e with pendingLo := e.pendingLo + lo, pendingHi := e.pendingHi + hi } }

/-- The destination of a confidential transfer with fee: a split fee, not above the amount, is
withheld of it. -/
structure ReceivesEncryptedWithFee (h h' : Holding) (m : Address) (lo hi feeLo feeHi : Scalar) :
    Prop where
  mint : h.base.mint = m
  thawed : h.base.isFrozen = false
  split : SplitAmount lo hi
  fee : SplitAmount feeLo feeHi
  fee_le : (pendingTotal feeLo feeHi).val ≤ (pendingTotal lo hi).val
  moved : ∃ e w, h.encrypted = some e ∧ h.encryptedWithheld = some w ∧ h' = { h with
    encrypted := some { e with
      pendingLo := e.pendingLo + lo - feeLo
      pendingHi := e.pendingHi + hi - feeHi }
    encryptedWithheld := some (w + pendingTotal feeLo feeHi) }

/-! ### Withheld fees -/

/-- **One withheld fee of the mint at `m` on its way**, out of the account at `a`, and then to the
mint or, `paid`, into an account of it. The two may be the same account. -/
inductive Collect (m : Address) : (paid : Bool) → Book → Book → Prop
  | toMint {B : Book} {a : Address} {h : Holding} {i : Issuance} {config : TransferFeeConfig}
      {w : ℕ} (held : B.slot a = .holding h) (mint : h.base.mint = m) (withheld : h.withheld = some w)
      (issued : B.slot m = .issue i) (fees : i.fees = some config)
      (small : config.withheldAmount + w < 2 ^ 64) :
      Collect m false B ((B.write a (.holding { h with withheld := some 0 })).write m
        (.issue { i with fees := some { config with withheldAmount := config.withheldAmount + w } }))
  | toAccount {B : Book} {a d : Address} {h hd : Holding} {w : ℕ} (held : B.slot a = .holding h)
      (mint : h.base.mint = m) (withheld : h.withheld = some w)
      (destination : (B.write a (.holding { h with withheld := some 0 })).slot d = .holding hd)
      (mint' : hd.base.mint = m) (thawed : hd.base.isFrozen = false)
      (small : hd.base.amount + w < 2 ^ 64) :
      Collect m true B ((B.write a (.holding { h with withheld := some 0 })).write d
        (.holding (hd.withAmount (hd.base.amount + w))))
  | encryptedToMint {B : Book} {a : Address} {h : Holding} {i : Issuance} {w r : Scalar}
      (held : B.slot a = .holding h) (mint : h.base.mint = m)
      (withheld : h.encryptedWithheld = some w) (issued : B.slot m = .issue i)
      (fees : i.encryptedWithheld = some r) :
      Collect m false B ((B.write a (.holding { h with encryptedWithheld := some 0 })).write m
        (.issue { i with encryptedWithheld := some (r + w) }))
  | encryptedToAccount {B : Book} {a d : Address} {h hd : Holding} {w : Scalar}
      {e : EncryptedBalance} (held : B.slot a = .holding h) (mint : h.base.mint = m)
      (withheld : h.encryptedWithheld = some w)
      (destination :
        (B.write a (.holding { h with encryptedWithheld := some 0 })).slot d = .holding hd)
      (mint' : hd.base.mint = m) (thawed : hd.base.isFrozen = false)
      (encrypted : hd.encrypted = some e) :
      Collect m true B ((B.write a (.holding { h with encryptedWithheld := some 0 })).write d
        (.holding { hd with encrypted := some { e with available := e.available + w } }))

/-! ### The effects -/

/-- What a close asks of a holding: no tokens, and the close authority or, without one, the owner;
the lamports of what the system program or the incinerator own go to the incinerator. -/
structure Closes (i : Invocation) (h : Holding) (destination : Address)
    (validated : List Address) : Prop where
  named : i.instruction = .closeAccount
  target : i.key? 1 = some destination
  empty : h.base.isNativeAccount = true ∨ h.base.amount = 0
  balance : ∀ e, h.encrypted = some e → e.available = 0 ∧ e.pendingLo = 0 ∧ e.pendingHi = 0
  withheld : ∀ w, h.withheld = some w → w = 0
  encryptedWithheld : ∀ w, h.encryptedWithheld = some w → w = 0
  authority : if h.base.isOwnedBySystemProgramOrIncinerator then
      validated = [] ∧ destination = incineratorId
    else validated = [h.base.closeAuthority.getD h.base.owner] ∧
      ¬ (h.cpiLocked ∧ i.env.inCpi ∧ destination ≠ h.base.owner)

/-- **The effects of instructions**, with the keys that were validated and the arm of a debit. -/
inductive Effect (i : Invocation) : List Address → Option DebitArm → Book → Book → Prop
  | idle {validated : List Address} {arm : Option DebitArm} {B : Book} : Effect i validated arm B B
  | stage {B : Book} {a : Address} {b : Buffer} {t : ExtensionType} {v : Extension t}
      (held : B.slot a = .vacant b) (fresh : FreshEntry t v) :
      Effect i [] none B (B.write a (.vacant (b.set t v)))
  | openMint {B : Book} {m : Address} {b : Buffer} {base : PodMint}
      (named : i.initializesMint m = true) (held : B.slot m = .vacant b)
      (valid : ExtensionType.ValidCombination b.extensionTypes) (empty : base.supply = 0) :
      Effect i [] none B (B.write m (.issue (b.issuance base)))
  | createNativeMint {B : Book} (named : i.initializesMint nativeMintId = true)
      (held : B.slot nativeMintId = .foreign) :
      Effect i [] none B (B.write nativeMintId (.issue nativeIssuance))
  | openHolding {B : Book} {a m : Address} {b : Buffer} {iss : Issuance} {base : PodAccount}
      (held : B.slot a = .vacant b) (issued : B.slot m = .issue iss) (opens : Opens B a m iss base) :
      Effect i [] none B (B.write a (.holding (b.openHolding iss base)))
  | openMultisig {B : Book} {a : Address} {b : Buffer} (held : B.slot a = .vacant b) :
      Effect i [] none B (B.write a .inert)
  | configureMint {B : Book} {m : Address} {iss iss' : Issuance} {validated : List Address}
      (issued : B.slot m = .issue iss) (same : ConfigOnly iss iss') :
      Effect i validated none B (B.write m (.issue iss'))
  | togglePause {B : Book} {m : Address} {iss : Issuance} {config : PausableConfig} {pause : Bool}
      {key : Address} (issued : B.slot m = .issue iss) (pausable : iss.pausable = some config)
      (named : i.instruction = .pausableExtension (if pause then .pause else .resume))
      (authority : config.authority.toOption = some key) :
      Effect i [key] none B
        (B.write m (.issue { iss with pausable := some { config with paused := pause } }))
  | adjust {B : Book} {a : Address} {h h' : Holding} {validated : List Address}
      (held : B.slot a = .holding h) (adjustment : Adjustment i B a h validated h') :
      Effect i validated none B (B.write a (.holding h'))
  | toggleFreeze {B : Book} {a : Address} {h : Holding} {iss : Issuance} {key : Address}
      {freeze : Bool} {state : AccountState} (initialized : state ≠ .uninitialized)
      (held : B.slot a = .holding h) (issued : B.slot h.base.mint = .issue iss)
      (authority : iss.base.freezeAuthority = some key) (plain : h.base.isNativeAccount = false)
      (before : h.base.isFrozen = !freeze) (after : state = if freeze then .frozen else .initialized)
      (named : i.instruction = if freeze then .freezeAccount else .thawAccount)
      (target : i.key? 0 = some a) :
      Effect i [key] none B
        (B.write a (.holding (h.withBase { h.base with state, initialized })))
  | reserve {B : Book} {a : Address} {h : Holding} {reserve : ℕ} (held : B.slot a = .holding h)
      (native : h.base.isNativeAccount = true) (funded : h.base.amount + reserve ≤ B.lamports a) :
      Effect i [h.base.owner] none B
        (B.write a (.holding (h.withBase { h.base with isNative := some reserve })))
  | syncNative {B : Book} {a : Address} {h : Holding} {amount reserve : ℕ}
      (named : i.instruction = .syncNative) (held : B.slot a = .holding h)
      (native : h.base.isNativeAccount = true) (backed : amount + reserve = B.lamports a) :
      Effect i [] none B
        (B.write a (.holding (h.withBase { h.base with isNative := some reserve, amount })))
  | withdrawExcess {B : Book} {s d : Address} {n : ℕ} {validated : List Address}
      (source : ∀ h, B.slot s = .holding h → h.base.isNativeAccount = false ∧
        validated = [h.base.owner] ∧ ¬ (h.cpiLocked ∧ i.env.inCpi))
      (own : B.slot s ≠ .foreign) (enough : n ≤ B.lamports s) :
      Effect i validated none B (B.pay s d n)
  | transfer {B B' : Book} {a d : Address} {h hd : Holding} {base : PodAccount} {key : Address}
      {arm : DebitArm} {n fee : ℕ} {hd' : Holding} (held : B.slot a = .holding h)
      (destination : B.slot d = .holding hd) (distinct : a ≠ d)
      (mint : hd.base.mint = h.base.mint) (thawed : h.base.isFrozen = false)
      (thawed' : hd.base.isFrozen = false) (enough : n ≤ h.base.amount)
      (transferable : h.nonTransferable = false) (debit : Debit B h n base key arm)
      (unguarded : ¬ (key = h.base.owner ∧ h.cpiLocked ∧ i.env.inCpi))
      (terms : (fee = 0 ∧ h.withheld = none ∧ h.hooked = false ∧ h.pausable = false) ∨
        ∃ iss, B.slot h.base.mint = .issue iss ∧ iss.paused = false ∧
          iss.fee i.env.epoch n = some fee)
      (fee_le : fee ≤ n) (small : hd.base.amount + (n - fee) < 2 ^ 64)
      (credited : if 0 < fee then
          ∃ w, hd.withheld = some w ∧ w + fee < 2 ^ 64 ∧
            hd' = { hd.withAmount (hd.base.amount + (n - fee)) with withheld := some (w + fee) }
        else hd' = hd.withAmount (hd.base.amount + (n - fee)))
      (lamports : if h.base.isNativeAccount then n ≤ B.lamports a ∧ B' = B.pay a d n else B' = B) :
      Effect i [key] (some arm) B
        ((B'.write a (.holding (h.withBase { base with amount := h.base.amount - n }))).write d
          (.holding hd'))
  | unwrap {B B' : Book} {a d : Address} {h : Holding} {base : PodAccount} {key : Address}
      {arm : DebitArm} {n : ℕ} (held : B.slot a = .holding h)
      (native : h.base.isNativeAccount = true) (enough : n ≤ h.base.amount)
      (debit : Debit B h n base key arm) (limited : arm ≠ .permanentDelegate)
      (unguarded : ¬ (h.cpiLocked ∧ i.env.inCpi))
      (lamports : if n ≠ 0 ∧ a ≠ d then n ≤ B.lamports a ∧ B' = B.pay a d n else B' = B) :
      Effect i [key] (some arm) B
        (B'.write a (.holding (h.withBase { base with amount := h.base.amount - n })))
  | mintTo {B : Book} {m a : Address} {iss : Issuance} {h : Holding} {key : Address} {n : ℕ}
      (issued : B.slot m = .issue iss) (held : B.slot a = .holding h) (mint : h.base.mint = m)
      (thawed : h.base.isFrozen = false) (plain : h.base.isNativeAccount = false)
      (marked : iss.nonTransferable = true → h.immutableOwner = true ∧ h.nonTransferable = true)
      (running : iss.paused = false) (base : iss.mintBurn = none)
      (small : h.base.amount + n < 2 ^ 64) (small' : iss.base.supply + n < 2 ^ 64) :
      Effect i [key] none B
        ((B.write a (.holding (h.withAmount (h.base.amount + n)))).write m
          (.issue { iss with base := { iss.base with supply := iss.base.supply + n } }))
  | burn {B : Book} {m a : Address} {iss : Issuance} {h : Holding} {base : PodAccount} {n : ℕ}
      {validated : List Address} {arm : Option DebitArm} (named : i.isBurn = true)
      (issued : B.slot m = .issue iss) (held : B.slot a = .holding h) (mint : h.base.mint = m)
      (thawed : h.base.isFrozen = false) (plain : h.base.isNativeAccount = false)
      (enough : n ≤ h.base.amount) (enough' : n ≤ iss.base.supply) (running : iss.paused = false)
      (noMintBurn : iss.mintBurn = none)
      (debit : if h.base.isOwnedBySystemProgramOrIncinerator then
          base = h.base ∧ validated = [] ∧ arm = none
        else ∃ key arm', Debit B h n base key arm' ∧ validated = [key] ∧ arm = some arm' ∧
          ¬ (key = h.base.owner ∧ h.cpiLocked ∧ i.env.inCpi)) :
      Effect i validated arm B
        ((B.write a (.holding (h.withBase { base with amount := h.base.amount - n }))).write m
          (.issue { iss with base := { iss.base with supply := iss.base.supply - n } }))
  | closeHolding {B : Book} {a d : Address} {h : Holding} {validated : List Address}
      (held : B.slot a = .holding h) (target : i.key? 0 = some a) (distinct : a ≠ d)
      (closes : Closes i h d validated) :
      Effect i validated none B ((B.pay a d (B.lamports a)).write a .foreign)
  | closeMint {B : Book} {m d : Address} {iss : Issuance} {key : Address}
      (issued : B.slot m = .issue iss) (named : i.instruction = .closeAccount) (distinct : m ≠ d)
      (authority : iss.closeAuthority = some key) (supply : iss.base.supply = 0)
      (mintBurn : ∀ e, iss.mintBurn = some e → e.supply = 0) :
      Effect i [key] none B ((B.pay m d (B.lamports m)).write m .foreign)
  | collect {B B' : Book} {m : Address} {paid : Bool} {validated : List Address}
      (named : paid = true → i.withdrawsWithheld = true)
      (chain : Relation.ReflTransGen (Collect m paid) B B') : Effect i validated none B B'
  | withdrawWithheld {B : Book} {m d : Address} {iss : Issuance} {config : TransferFeeConfig}
      {h : Holding} {key : Address} (named : i.withdrawsWithheld = true)
      (issued : B.slot m = .issue iss) (fees : iss.fees = some config)
      (held : B.slot d = .holding h) (mint : h.base.mint = m) (thawed : h.base.isFrozen = false)
      (small : h.base.amount + config.withheldAmount < 2 ^ 64) :
      Effect i [key] none B
        ((B.write m (.issue { iss with fees := some { config with withheldAmount := 0 } })).write d
          (.holding (h.withAmount (h.base.amount + config.withheldAmount))))
  | deposit {B : Book} {a : Address} {h : Holding} {iss : Issuance} {e : EncryptedBalance} {n : ℕ}
      (held : B.slot a = .holding h) (issued : B.slot h.base.mint = .issue iss)
      (running : iss.paused = false) (base : iss.mintBurn = none)
      (transferable : h.nonTransferable = false) (thawed : h.base.isFrozen = false)
      (plain : h.base.isNativeAccount = false) (enough : n ≤ h.base.amount) (small : n < 2 ^ 48)
      (encrypted : h.encrypted = some e) :
      Effect i [h.base.owner] none B
        (B.write a (.holding { h.withAmount (h.base.amount - n) with
          encrypted := some { e with
            pendingLo := e.pendingLo + ((n % 2 ^ 16 : ℕ) : Scalar)
            pendingHi := e.pendingHi + ((n / 2 ^ 16 : ℕ) : Scalar) } }))
  | withdraw {B : Book} {a : Address} {h : Holding} {iss : Issuance} {e : EncryptedBalance} {n : ℕ}
      {remaining : Scalar} (held : B.slot a = .holding h)
      (issued : B.slot h.base.mint = .issue iss) (running : iss.paused = false)
      (base : iss.mintBurn = none) (transferable : h.nonTransferable = false)
      (thawed : h.base.isFrozen = false) (plain : h.base.isNativeAccount = false)
      (small : h.base.amount + n < 2 ^ 64) (encrypted : h.encrypted = some e)
      (moved : e.available = remaining + (n : Scalar)) (bounded : remaining.val < 2 ^ 64) :
      Effect i [h.base.owner] none B
        (B.write a (.holding { h.withAmount (h.base.amount + n) with
          encrypted := some { e with available := remaining } }))
  | confidentialTransfer {B : Book} {a d m : Address} {iss : Issuance} {h h' hd hd' : Holding}
      {lo hi : Scalar} (issued : B.slot m = .issue iss) (running : iss.paused = false)
      (held : B.slot a = .holding h) (transferable : h.nonTransferable = false)
      (spends : SpendsEncrypted i h h' m lo hi)
      (destination : (B.write a (.holding h')).slot d = .holding hd)
      (receives : ReceivesEncrypted hd hd' m lo hi ∨
        a ≠ d ∧ ∃ feeLo feeHi, ReceivesEncryptedWithFee hd hd' m lo hi feeLo feeHi) :
      Effect i [h.base.owner] none B ((B.write a (.holding h')).write d (.holding hd'))
  | confidentialMint {B : Book} {a m : Address} {iss : Issuance} {e : EncryptedSupply}
      {h h' : Holding} {lo hi : Scalar} {key : Address} (issued : B.slot m = .issue iss)
      (running : iss.paused = false) (held : B.slot a = .holding h)
      (marked : iss.nonTransferable = true → h.immutableOwner = true ∧ h.nonTransferable = true)
      (receives : ReceivesEncrypted h h' m lo hi) (supply : iss.mintBurn = some e)
      (bounded : (e.supply + pendingTotal lo hi).val < 2 ^ 64) :
      Effect i [key] none B
        ((B.write a (.holding h')).write m
          (.issue { iss with mintBurn := some { e with supply := e.supply + pendingTotal lo hi } }))
  | confidentialBurn {B : Book} {a m : Address} {iss : Issuance} {e : EncryptedSupply}
      {h h' : Holding} {lo hi : Scalar} (issued : B.slot m = .issue iss)
      (running : iss.paused = false) (held : B.slot a = .holding h)
      (spends : SpendsEncrypted i h h' m lo hi) (supply : iss.mintBurn = some e) :
      Effect i [h.base.owner] none B
        ((B.write a (.holding h')).write m (.issue { iss with
          mintBurn := some { e with pendingBurn := e.pendingBurn + pendingTotal lo hi } }))
  | applyPendingBurn {B : Book} {m : Address} {iss : Issuance} {e : EncryptedSupply} {key : Address}
      (issued : B.slot m = .issue iss) (supply : iss.mintBurn = some e) :
      Effect i [key] none B
        (B.write m (.issue { iss with mintBurn := some ⟨e.supply - e.pendingBurn, 0⟩ }))
  | withdrawEncryptedWithheld {B : Book} {m d : Address} {iss : Issuance} {r : Scalar} {h : Holding}
      {e : EncryptedBalance} {key : Address} (named : i.withdrawsWithheld = true)
      (issued : B.slot m = .issue iss) (fees : iss.encryptedWithheld = some r)
      (held : B.slot d = .holding h) (mint : h.base.mint = m) (thawed : h.base.isFrozen = false)
      (encrypted : h.encrypted = some e) :
      Effect i [key] none B
        ((B.write d (.holding { h with
            encrypted := some { e with available := e.available + r } })).write m
          (.issue { iss with encryptedWithheld := some 0 }))

/-- **The effect of an instruction on the book**, with the rest of the world around it. -/
def Refines (i : Invocation) (L : Ledger) (outcome : Outcome) : Prop :=
  ∃ B B', Book.External L.book B ∧ Effect i outcome.validated outcome.arm B B' ∧
    Book.External B' outcome.ledger.book

theorem Refines.of_effect {i : Invocation} {L : Ledger} {outcome : Outcome}
    (effect : Effect i outcome.validated outcome.arm L.book outcome.ledger.book) :
    Refines i L outcome := ⟨_, _, .refl _, effect, .refl _⟩

/-- An instruction that leaves the book as it is. -/
theorem Refines.of_same {i : Invocation} {L : Ledger} {outcome : Outcome}
    (same : outcome.ledger.book = L.book) : Refines i L outcome :=
  .of_effect (same ▸ .idle)

end Token2022
