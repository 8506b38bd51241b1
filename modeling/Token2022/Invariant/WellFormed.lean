/-
**What every reachable book is like.**

* `NativeTerms` — what the native mint can never become; `Combined` — what the extensions of any
  mint say of each other.
* **`Book.WellFormed`** — accounts that wait for their initialization hold nothing; the native mint
  and its holdings are plain; nothing of the program stands at the named system addresses.
* **`wellFormed_reachable`** — it holds of every reachable state.
-/

import Token2022.Invariant.Rule

namespace Token2022

/-! ### The invariant -/

/-- What a buffer holds before its account is initialized. -/
def Buffer.Fresh (b : Buffer) : Prop := ∀ t v, b.get t = some v → FreshEntry t v

/-- What the extensions of a mint say of each other. -/
structure Combined (iss : Issuance) : Prop where
  mintBurn : iss.mintBurn.isSome = true → iss.confidential = true
  encryptedWithheld : iss.encryptedWithheld.isSome = true → iss.confidential = true
  nonTransferable : iss.nonTransferable = true → iss.confidential = true → iss.mintBurn.isSome = true

/-- The native mint has none of the extensions that matter, and cannot freeze. -/
structure NativeTerms (iss : Issuance) : Prop where
  freezeAuthority : iss.base.freezeAuthority = none
  startingState : iss.startingState = .initialized
  fees : iss.fees = none
  pausable : iss.pausable = none
  mintBurn : iss.mintBurn = none
  confidential : iss.confidential = false
  encryptedWithheld : iss.encryptedWithheld = none
  nonTransferable : iss.nonTransferable = false
  hook : iss.hook = none

theorem NativeTerms.combined {iss : Issuance} (terms : NativeTerms iss) : Combined iss where
  mintBurn held := by simp [terms.mintBurn] at held
  encryptedWithheld held := by simp [terms.encryptedWithheld] at held
  nonTransferable marked := by simp [terms.nonTransferable] at marked

/-- A holding of wrapped lamports holds nothing but its amount, and is not frozen. -/
structure NativeHolding (h : Holding) : Prop where
  encrypted : h.encrypted = none
  withheld : h.withheld = none
  encryptedWithheld : h.encryptedWithheld = none
  thawed : h.base.isFrozen = false

/-- **A well-formed book.** -/
structure Book.WellFormed (B : Book) : Prop where
  combined : ∀ m iss, B.slot m = .issue iss → Combined iss
  fresh : ∀ a b, B.slot a = .vacant b → b.Fresh
  nativeMint : B.slot nativeMintId = .foreign ∨
    ∃ iss, B.slot nativeMintId = .issue iss ∧ NativeTerms iss
  native : ∀ a h, B.slot a = .holding h →
    (h.base.isNativeAccount = true ↔ h.base.mint = nativeMintId)
  plain : ∀ a h, B.slot a = .holding h → h.base.mint = nativeMintId → NativeHolding h
  system : B.slot systemProgramId = .foreign
  incinerator : B.slot incineratorId = .foreign
  legacy : ¬ B.legacy

namespace Book.WellFormed

variable {B : Book}

theorem of_blank (blank : B.Blank) : B.WellFormed where
  combined m iss issued := by simp [blank.slot m] at issued
  fresh a b vacant := by simp [blank.slot a] at vacant
  nativeMint := .inl (blank.slot _)
  native a h held := by simp [blank.slot a] at held
  plain a h held := by simp [blank.slot a] at held
  system := blank.slot _
  incinerator := blank.slot _
  legacy := blank.legacy

/-- The native mint, where there is one. -/
theorem nativeTerms (wf : B.WellFormed) {iss : Issuance}
    (issued : B.slot nativeMintId = .issue iss) : NativeTerms iss := by
  rcases wf.nativeMint with foreign | ⟨iss', issued', terms⟩
  · simp [foreign] at issued
  · obtain rfl := Slot.issue.inj (issued.symm.trans issued')
    exact terms

/-- A holding of a mint that is not the native one is no native account. -/
theorem plainAccount (wf : B.WellFormed) {a : Address} {h : Holding} (held : B.slot a = .holding h)
    (ne : h.base.mint ≠ nativeMintId) : h.base.isNativeAccount = false := by
  rw [Bool.eq_false_iff]
  exact fun native => ne ((wf.native a h held).mp native)

end Book.WellFormed

/-! ### What was set before the initialization -/

namespace Buffer.Fresh

variable {b : Buffer} (fresh : b.Fresh)

include fresh

/-- An extension of accounts, other than the mark of an immutable owner, is not set before. -/
theorem get_eq_none {t : ExtensionType} (account : t.getAccountType = .account)
    (ne : t ≠ .immutableOwner) : b.get t = none := by
  cases held : b.get t with
  | none => rfl
  | some v =>
    have entry := fresh t v held
    exfalso
    cases t
    all_goals first
      | exact absurd account (by decide)
      | exact absurd rfl ne
      | exact absurd entry (by show ¬ (_ ∨ _); decide)

/-- **A new holding has nothing but its amount**, and the marks that its mint requires. -/
theorem openHolding (iss : Issuance) (base : PodAccount) :
    b.openHolding iss base =
      { base
        withheld := if iss.fees.isSome then some 0 else none
        encrypted := none
        encryptedWithheld := none
        cpiLocked := false
        immutableOwner := iss.nonTransferable || (b.get .immutableOwner).isSome
        nonTransferable := iss.nonTransferable
        hooked := iss.hook.isSome
        pausable := iss.pausable.isSome } := by
  have withheld : b.get .transferFeeAmount = none := fresh.get_eq_none rfl (by decide)
  have encrypted : b.get .confidentialTransferAccount = none := fresh.get_eq_none rfl (by decide)
  have encryptedWithheld : b.get .confidentialTransferFeeAmount = none := fresh.get_eq_none rfl (by decide)
  have guard : b.get .cpiGuard = none := fresh.get_eq_none rfl (by decide)
  have nonTransferable : b.get .nonTransferableAccount = none := fresh.get_eq_none rfl (by decide)
  have hooked : b.get .transferHookAccount = none := fresh.get_eq_none rfl (by decide)
  have pausable : b.get .pausableAccount = none := fresh.get_eq_none rfl (by decide)
  simp [Buffer.openHolding, Buffer.holding, withheld, encrypted, encryptedWithheld, guard,
    nonTransferable, hooked, pausable]

/-- **A new mint has issued and retained nothing**, and runs. -/
theorem issuance (base : PodMint) :
    (b.issuance base).retained = 0 ∧ (b.issuance base).paused = false ∧
      (∀ e, (b.issuance base).mintBurn = some e → e = 0) ∧
      (∀ r, (b.issuance base).encryptedWithheld = some r → r = 0) := by
  have withheld : ∀ config, b.get .transferFeeConfig = some config → config.withheldAmount = 0 :=
    fun config held => fresh _ config held
  have encryptedWithheld : ∀ config, b.get .confidentialTransferFeeConfig = some config →
      config.withheldAmount = 0 := fun config held => fresh _ config held
  have pausable : ∀ config, b.get .pausable = some config → config.paused = false :=
    fun config held => fresh _ config held
  have mintBurn : ∀ config, b.get .confidentialMintBurn = some config →
      config.confidentialSupply = 0 ∧ config.pendingBurn = 0 := fun config held => fresh _ config held
  refine ⟨?_, ?_, ?_, ?_⟩
  · unfold Issuance.retained
    have plain : ((b.issuance base).fees.map TransferFeeConfig.withheldAmount).getD 0 = 0 := by
      show ((b.get .transferFeeConfig).map TransferFeeConfig.withheldAmount).getD 0 = 0
      cases held : b.get .transferFeeConfig with
      | none => rfl
      | some config => exact withheld config held
    have encrypted : ((b.issuance base).encryptedWithheld.getD 0).val = 0 := by
      show (((b.get .confidentialTransferFeeConfig).map
        ConfidentialTransferFeeConfig.withheldAmount).getD 0).val = 0
      cases held : b.get .confidentialTransferFeeConfig with
      | none => simp
      | some config => simp [encryptedWithheld config held]
    rw [plain, encrypted]
  · show (b.get .pausable).any PausableConfig.paused = false
    cases held : b.get .pausable with
    | none => rfl
    | some config => exact pausable config held
  · intro e held
    obtain ⟨config, read, rfl⟩ := Option.map_eq_some_iff.mp held
    obtain ⟨supply, pending⟩ := mintBurn config read
    unfold ConfidentialMintBurn.encryptedSupply
    rw [supply, pending]
    rfl
  · intro r held
    obtain ⟨config, read, rfl⟩ := Option.map_eq_some_iff.mp held
    exact encryptedWithheld config read

end Buffer.Fresh

/-! ### It holds of every reachable state -/

/-- An extension set before the initialization leaves a buffer with nothing in it. -/
theorem Buffer.Fresh.set {b : Buffer} {t : ExtensionType} {x : Extension t} (fresh : b.Fresh)
    (entry : FreshEntry t x) : (b.set t x).Fresh := by
  intro t' v held
  by_cases same : t' = t
  · subst same
    rw [Buffer.get_set_self] at held
    exact Option.some.inj held ▸ entry
  · rw [Buffer.get_set_of_ne _ same] at held
    exact fresh t' v held

/-- A newly allocated buffer. -/
theorem Buffer.Fresh.allocated (len : ℕ) : (⟨[], len⟩ : Buffer).Fresh := by
  intro t v held
  simp [Buffer.get] at held

/-- **A new mint combines its extensions as the check of combinations demands.** -/
theorem Combined.of_valid {b : Buffer} (valid : ExtensionType.ValidCombination b.extensionTypes)
    (base : PodMint) : Combined (b.issuance base) where
  mintBurn held := by
    have staged : (b.get .confidentialMintBurn).isSome := by
      rw [← Option.isSome_map (f := ConfidentialMintBurn.encryptedSupply)]
      exact held
    exact Buffer.mem_extensionTypes.mp (valid.mintBurn (Buffer.mem_extensionTypes.mpr staged))
  encryptedWithheld held := by
    have staged : (b.get .confidentialTransferFeeConfig).isSome := by
      rw [← Option.isSome_map (f := ConfidentialTransferFeeConfig.withheldAmount)]
      exact held
    exact Buffer.mem_extensionTypes.mp (valid.feeConfig (Buffer.mem_extensionTypes.mpr staged)).2
  nonTransferable marked confidential := by
    have staged := valid.nonTransferable (Buffer.mem_extensionTypes.mpr marked)
      (Buffer.mem_extensionTypes.mpr confidential)
    show ((b.get .confidentialMintBurn).map ConfidentialMintBurn.encryptedSupply).isSome = true
    rw [Option.isSome_map]
    exact Buffer.mem_extensionTypes.mp staged

theorem SameDemands.combined {iss iss' : Issuance} (same : SameDemands iss iss')
    (combined : Combined iss) : Combined iss' where
  mintBurn := by
    rw [same.mintBurn, same.confidential]
    exact combined.mintBurn
  encryptedWithheld := by
    rw [same.encryptedWithheld, same.confidential]
    exact combined.encryptedWithheld
  nonTransferable := by
    rw [same.nonTransferable, same.confidential, same.mintBurn]
    exact combined.nonTransferable

theorem NativeTerms.of_nativeIssuance : NativeTerms nativeIssuance := by
  constructor <;> rfl

section Preservation

variable {i : Invocation} {B : Book} {a : Address} {v : List Address} {arm : Option DebitArm} {l : ℕ}

/-- A buffer comes from a buffer. -/
theorem SlotStep.fresh {s : Slot} {b' : Buffer} (step : SlotStep i B a v arm s (.vacant b') l)
    (before : ∀ b, s = .vacant b → b.Fresh) : b'.Fresh := by
  cases step with
  | keep => exact before _ rfl
  | drain => exact before _ rfl
  | stage fresh => exact (before _ rfl).set fresh

/-- **The native mint stays plain.** -/
theorem SlotStep.nativeTerms {iss iss' : Issuance}
    (step : SlotStep i B a v arm (.issue iss) (.issue iss') l) (terms : NativeTerms iss) :
    NativeTerms iss' := by
  have demands := step.demands
  have noneOf : ∀ {α : Type} {x y : Option α}, x.isSome = y.isSome → y = none → x = none :=
    fun same none => by rwa [none, Option.isSome_none, Option.isSome_eq_false_iff,
      Option.isNone_iff_eq_none] at same
  have unfreezable : iss'.base.freezeAuthority = none ∧ iss'.startingState = .initialized := by
    cases step with
    | configureMint same =>
      obtain ⟨authority, state⟩ := same.unfreezable terms.freezeAuthority
      exact ⟨authority, state.trans terms.startingState⟩
    | retained retained =>
      rw [retained.kept]
      exact ⟨terms.freezeAuthority, terms.startingState⟩
    | _ => exact ⟨terms.freezeAuthority, terms.startingState⟩
  exact {
    freezeAuthority := unfreezable.1
    startingState := unfreezable.2
    fees := noneOf demands.fees terms.fees
    pausable := noneOf demands.pausable terms.pausable
    mintBurn := noneOf demands.mintBurn terms.mintBurn
    confidential := demands.confidential.trans terms.confidential
    encryptedWithheld := noneOf demands.encryptedWithheld terms.encryptedWithheld
    nonTransferable := demands.nonTransferable.trans terms.nonTransferable
    hook := noneOf demands.hook terms.hook }

/-- **No encrypted balance comes up** in a holding whose mint does not have the extension for it. -/
theorem SlotStep.unencrypted {h h' : Holding}
    (step : SlotStep i B a v arm (.holding h) (.holding h') l)
    (without : ∀ iss, B.slot h.base.mint = .issue iss → iss.confidential = false)
    (encrypted : h.encrypted = none) (withheld : h.encryptedWithheld = none) :
    h'.encrypted = none ∧ h'.encryptedWithheld = none := by
  have clear : ∀ {e : EncryptedBalance}, h.encrypted ≠ some e := by
    intro e held
    simp [encrypted] at held
  cases step with
  | adjust adjustment =>
    cases adjustment with
    | configure fees issued confidential => simp [without _ issued] at confidential
    | applyPending thawed held => exact absurd held clear
    | _ => exact ⟨encrypted, withheld⟩
  | collected collected =>
    refine ⟨?_, ?_⟩
    · rcases collected.encrypted with same | ⟨e, n, held, -⟩
      · exact same.trans encrypted
      · exact absurd held clear
    · rw [← Option.not_isSome_iff_eq_none, collected.encryptedWithheld, withheld]
      exact Bool.false_ne_true
  | deposit _ _ _ _ _ held => exact absurd held clear
  | withdraw _ _ _ _ held => exact absurd held clear
  | spendEncrypted _ spends =>
    obtain ⟨e, _, held, -⟩ := spends.moved
    exact absurd held clear
  | receiveEncrypted _ receives =>
    obtain ⟨e, held, -⟩ := receives.moved
    exact absurd held clear
  | receiveEncryptedWithFee _ receives =>
    obtain ⟨e, w, held, -⟩ := receives.moved
    exact absurd held clear
  | exchangeEncrypted _ spends _ =>
    obtain ⟨e, _, held, -⟩ := spends.moved
    exact absurd held clear
  | withdrawEncryptedWithheld _ _ _ _ held => exact absurd held clear
  | _ => exact ⟨encrypted, withheld⟩

/-- **Freezing and thawing need the freeze authority**, and an account that is not of wrapped
lamports. -/
theorem SlotStep.frozen {h h' : Holding} (step : SlotStep i B a v arm (.holding h) (.holding h') l) :
    h'.base.isFrozen = h.base.isFrozen ∨
      ∃ iss key freeze, B.slot h.base.mint = .issue iss ∧ iss.base.freezeAuthority = some key ∧
        v = [key] ∧ h.base.isNativeAccount = false ∧ h.base.isFrozen = !freeze ∧
        i.instruction = (if freeze then .freezeAccount else .thawAccount) ∧ i.key? 0 = some a := by
  cases step with
  | adjust adjustment => cases adjustment <;> exact .inl rfl
  | toggleFreeze _ issued authority plain before _ named target =>
    exact .inr ⟨_, _, _, issued, authority, rfl, plain, before, named, target⟩
  | debit _ debit =>
    left
    unfold PodAccount.isFrozen
    rw [← debit.kept.2.2.2.1]
    rfl
  | collected collected => exact .inl collected.state
  | spendEncrypted _ spends =>
    obtain ⟨e, _, -, -, -, rfl⟩ := spends.moved
    exact .inl rfl
  | receiveEncrypted _ receives =>
    obtain ⟨e, -, rfl⟩ := receives.moved
    exact .inl rfl
  | receiveEncryptedWithFee _ receives =>
    obtain ⟨e, w, -, -, rfl⟩ := receives.moved
    exact .inl rfl
  | exchangeEncrypted _ spends receives =>
    obtain ⟨e, _, -, -, -, rfl⟩ := spends.moved
    obtain ⟨e', -, rfl⟩ := receives.moved
    exact .inl rfl
  | _ => exact .inl rfl

/-- **An account of wrapped lamports stays plain and thawed.** -/
theorem SlotStep.nativeHolding {h h' : Holding} (wf : B.WellFormed)
    (step : SlotStep i B a v arm (.holding h) (.holding h') l) (here : h.base.mint = nativeMintId)
    (native : h.base.isNativeAccount = true) (plain : NativeHolding h) : NativeHolding h' := by
  obtain ⟨encrypted, encryptedWithheld⟩ :=
    step.unencrypted (fun iss issued => (wf.nativeTerms (here ▸ issued)).confidential)
      plain.encrypted plain.encryptedWithheld
  refine ⟨encrypted, ?_, encryptedWithheld, ?_⟩
  · rw [← Option.not_isSome_iff_eq_none, step.marks.withheld, plain.withheld]
    exact Bool.false_ne_true
  · rcases step.frozen with same | ⟨iss, key, freeze, -, -, -, notNative, -⟩
    · exact same.trans plain.thawed
    · simp [native] at notNative

/-- **A new account of wrapped lamports is plain and thawed.** -/
theorem NativeHolding.of_open {b : Buffer} {iss : Issuance} {base : PodAccount} (fresh : b.Fresh)
    (terms : NativeTerms iss) (opens : Opens B a nativeMintId iss base) :
    NativeHolding (b.openHolding iss base) := by
  rw [fresh.openHolding]
  refine ⟨rfl, ?_, rfl, ?_⟩
  · show (if iss.fees.isSome then some 0 else none) = none
    rw [terms.fees]
    rfl
  · show base.isFrozen = false
    unfold PodAccount.isFrozen
    rw [opens.state, terms.startingState]
    rfl

/-- Nothing of the program comes to stand at an address that is handed to nobody. -/
theorem SlotStep.foreign {s' : Slot} (step : SlotStep i B a v arm .foreign s' l)
    (ne : a ≠ nativeMintId) : s' = .foreign := by
  cases step with
  | keep => rfl
  | drain => rfl
  | createNativeMint _ here => exact absurd here ne

end Preservation

namespace Book.WellFormed

/-- **The rest of the world keeps a book well-formed.** -/
theorem external {B B' : Book} (wf : B.WellFormed) (ext : Book.External B B') : B'.WellFormed where
  combined m iss issued := wf.combined m iss (ext.issue_back issued)
  fresh a b vacant := by
    by_cases foreign : B.slot a = .foreign
    · rcases ext.handed a foreign with same | ⟨len, allocated⟩
      · simp [same] at vacant
      · rw [← Slot.vacant.inj (allocated.symm.trans vacant)]
        exact .allocated len
    · exact wf.fresh a b ((ext.kept a foreign).1 ▸ vacant)
  nativeMint := by
    rcases wf.nativeMint with foreign | ⟨iss, issued, terms⟩
    · exact .inl (ext.reserved _ (.inl rfl) foreign)
    · exact .inr ⟨iss, ext.issue issued, terms⟩
  native a h held := wf.native a h (ext.holding_back held)
  plain a h held := wf.plain a h (ext.holding_back held)
  system := ext.reserved _ (.inr (.inl rfl)) wf.system
  incinerator := ext.reserved _ (.inr (.inr rfl)) wf.incinerator
  legacy := fun legacy => wf.legacy (ext.legacy legacy)

/-- **Every effect keeps a book well-formed.** -/
theorem effect {i : Invocation} {v : List Address} {arm : Option DebitArm} {B B' : Book}
    (wf : B.WellFormed) (effect : Effect i v arm B B') : B'.WellFormed where
  combined m iss' issued := by
    rcases (issued ▸ effect.slotStep m).issue_origin with
      ⟨iss, before⟩ | ⟨-, ⟨b, base, -, valid, -, rfl⟩ | ⟨-, -, rfl⟩⟩
    · exact (before ▸ issued ▸ effect.slotStep m).demands.combined (wf.combined m iss before)
    · exact .of_valid valid base
    · exact NativeTerms.of_nativeIssuance.combined
  fresh a b vacant := (vacant ▸ effect.slotStep a).fresh (wf.fresh a)
  nativeMint := by
    have step := effect.slotStep nativeMintId
    rcases wf.nativeMint with foreign | ⟨iss, issued, terms⟩
    · rw [foreign] at step
      generalize B'.slot nativeMintId = s' at step
      cases step with
      | keep => exact .inl rfl
      | drain => exact .inl rfl
      | createNativeMint => exact .inr ⟨nativeIssuance, rfl, .of_nativeIssuance⟩
    · rw [issued] at step
      cases after : B'.slot nativeMintId with
      | foreign => exact .inl rfl
      | issue iss' => exact .inr ⟨iss', rfl, (after ▸ step).nativeTerms terms⟩
      | _ =>
        rw [after] at step
        cases step
  native a h' held := by
    rcases (held ▸ effect.slotStep a).holding_origin with
      ⟨h, before⟩ | ⟨m, b, iss, base, -, -, opens, rfl, -⟩
    · have marks := (before ▸ held ▸ effect.slotStep a).marks
      rw [marks.native, marks.mint]
      exact wf.native a h before
    · show base.isNativeAccount = true ↔ base.mint = nativeMintId
      unfold PodAccount.isNativeAccount
      rw [opens.mint]
      by_cases here : m = nativeMintId
      · obtain ⟨reserve, native, -⟩ := opens.native here
        simp [native, here]
      · simp [(opens.plain here).1, here]
  plain a h' held here := by
    rcases (held ▸ effect.slotStep a).holding_origin with
      ⟨h, before⟩ | ⟨m, b, iss, base, vacant, issued, opens, rfl, -⟩
    · have step := before ▸ held ▸ effect.slotStep a
      rw [step.marks.mint] at here
      exact step.nativeHolding wf here ((wf.native a h before).mpr here) (wf.plain a h before here)
    · obtain rfl : m = nativeMintId := opens.mint.symm.trans here
      exact .of_open (wf.fresh a b vacant) (wf.nativeTerms issued) opens
  system := (wf.system ▸ effect.slotStep systemProgramId).foreign (by decide)
  incinerator := (wf.incinerator ▸ effect.slotStep incineratorId).foreign (by decide)
  legacy := effect.legacy ▸ wf.legacy

theorem kept : Kept (fun _ _ => True) Book.WellFormed where
  external := external
  guard := fun _ _ => trivial
  effect := fun _ => effect

end Book.WellFormed

/-- **Every reachable book is well-formed.** -/
theorem wellFormed_reachable {L : Ledger} (reachable : Reachable L) : L.book.WellFormed :=
  Book.WellFormed.kept.reachable (fun _ => .of_blank) reachable

end Token2022
