/-
**What an instruction does to one address.**

An effect writes up to two slots, which may be the same. What it does to the slot at one address is
said here once, so that a statement about a single account or mint has one case for each thing that
can happen to it.

* `Collected`, `Retained` — what a loop over withheld fees does to a holding and to a mint.
* **`SlotStep`** — the changes of a slot, with the lamports behind it.
* **`Effect.slotStep`** — every effect changes every slot in one of these ways.
* **`SlotStep.marks`**, **`SlotStep.demands`** — what never changes in a holding and in a mint.
-/

import Token2022.Abstract.Effect

namespace Token2022

/-! ### Fees that are collected -/

/-- The mint at `m` runs, unless a holding of it lacks the mark of a pausable mint. -/
def Book.Running (B : Book) (m : Address) : Prop :=
  ∀ iss, B.slot m = .issue iss → iss.paused = true →
    ∃ b h, B.slot b = .holding h ∧ h.base.mint = m ∧ h.pausable = false

/-- **A holding that fees are collected from or paid into.** -/
structure Collected (i : Invocation) (B : Book) (h h' : Holding) : Prop where
  base : h'.base = { h.base with amount := h'.base.amount }
  more : h.base.amount ≤ h'.base.amount
  withheld : h'.withheld.isSome = h.withheld.isSome
  encrypted : h'.encrypted = h.encrypted ∨ ∃ e n, h.encrypted = some e ∧
    h'.encrypted = some { e with available := e.available + n }
  encryptedWithheld : h'.encryptedWithheld.isSome = h.encryptedWithheld.isSome
  cpiLocked : h'.cpiLocked = h.cpiLocked
  immutableOwner : h'.immutableOwner = h.immutableOwner
  nonTransferable : h'.nonTransferable = h.nonTransferable
  hooked : h'.hooked = h.hooked
  pausable : h'.pausable = h.pausable
  paid : h'.base.amount ≠ h.base.amount ∨ h'.encrypted ≠ h.encrypted →
    i.withdrawsWithheld = true ∧ h.base.isFrozen = false
  funded : h'.base.amount ≠ h.base.amount →
    ∃ b hb, B.slot b = .holding hb ∧ hb.base.mint = h.base.mint ∧ hb.withheld.isSome = true

namespace Collected

variable {i : Invocation} {B : Book} {h h' h'' : Holding}

theorem refl (h : Holding) : Collected i B h h where
  base := rfl
  more := le_rfl
  withheld := rfl
  encrypted := .inl rfl
  encryptedWithheld := rfl
  cpiLocked := rfl
  immutableOwner := rfl
  nonTransferable := rfl
  hooked := rfl
  pausable := rfl
  paid := fun changed => by simp at changed
  funded := fun changed => absurd rfl changed

theorem mint (c : Collected i B h h') : h'.base.mint = h.base.mint := by rw [c.base]

theorem state (c : Collected i B h h') : h'.base.isFrozen = h.base.isFrozen := by
  unfold PodAccount.isFrozen
  rw [c.base]

theorem trans (c : Collected i B h h') (c' : Collected i B h' h'') : Collected i B h h'' where
  base := by rw [c'.base, c.base]
  more := c.more.trans c'.more
  withheld := c'.withheld.trans c.withheld
  encrypted := by
    rcases c'.encrypted with same | ⟨e, n, held, credited⟩
    · rcases c.encrypted with same' | ⟨e, n, held, credited⟩
      · exact .inl (same.trans same')
      · exact .inr ⟨e, n, held, same.trans credited⟩
    · rcases c.encrypted with same' | ⟨e', n', held', credited'⟩
      · exact .inr ⟨e, n, same' ▸ held, credited⟩
      · obtain rfl := Option.some.inj (credited'.symm.trans held)
        exact .inr ⟨e', n' + n, held', by rw [credited, ← add_assoc]⟩
  encryptedWithheld := c'.encryptedWithheld.trans c.encryptedWithheld
  cpiLocked := c'.cpiLocked.trans c.cpiLocked
  immutableOwner := c'.immutableOwner.trans c.immutableOwner
  nonTransferable := c'.nonTransferable.trans c.nonTransferable
  hooked := c'.hooked.trans c.hooked
  pausable := c'.pausable.trans c.pausable
  paid := fun changed => by
    by_cases first : h'.base.amount = h.base.amount ∧ h'.encrypted = h.encrypted
    · rw [first.1.symm, first.2.symm] at changed
      rw [← c.state]
      exact c'.paid changed
    · exact c.paid (by rwa [not_and_or] at first)
  funded := fun changed => by
    by_cases first : h'.base.amount = h.base.amount
    · rw [← c.mint]
      exact c'.funded (first ▸ changed)
    · exact c.funded first

end Collected

/-- **A mint whose withheld totals change.** -/
structure Retained (iss iss' : Issuance) : Prop where
  kept : iss' = { iss with fees := iss'.fees, encryptedWithheld := iss'.encryptedWithheld }
  fees : iss'.fees.isSome = iss.fees.isSome
  encryptedWithheld : iss'.encryptedWithheld.isSome = iss.encryptedWithheld.isSome

theorem Retained.trans {iss iss' iss'' : Issuance} (r : Retained iss iss')
    (r' : Retained iss' iss'') : Retained iss iss'' where
  kept := by
    have kept := r'.kept
    rw [r.kept] at kept
    exact kept
  fees := r'.fees.trans r.fees
  encryptedWithheld := r'.encryptedWithheld.trans r.encryptedWithheld

/-- A slot in a loop over withheld fees. -/
inductive CollectSlot (i : Invocation) (B : Book) : Slot → Slot → Prop
  | same (s : Slot) : CollectSlot i B s s
  | holding {h h' : Holding} (collected : Collected i B h h') :
      CollectSlot i B (.holding h) (.holding h')
  | issue {iss iss' : Issuance} (retained : Retained iss iss') :
      CollectSlot i B (.issue iss) (.issue iss')

theorem CollectSlot.trans {i : Invocation} {B : Book} {s s' s'' : Slot}
    (c : CollectSlot i B s s') (c' : CollectSlot i B s' s'') : CollectSlot i B s s'' := by
  cases c with
  | same => exact c'
  | holding collected =>
    cases c' with
    | same => exact .holding collected
    | holding collected' => exact .holding (collected.trans collected')
  | issue retained =>
    cases c' with
    | same => exact .issue retained
    | issue retained' => exact .issue (retained.trans retained')

/-- A holding in a loop was a holding, of the same mint and with the same extensions, before. -/
theorem CollectSlot.back {i : Invocation} {B : Book} {s : Slot} {h : Holding}
    (c : CollectSlot i B s (.holding h)) : ∃ h₀, s = .holding h₀ ∧
      h.base.mint = h₀.base.mint ∧ h.withheld.isSome = h₀.withheld.isSome := by
  cases c with
  | same => exact ⟨h, rfl, rfl, rfl⟩
  | holding collected => exact ⟨_, rfl, collected.mint, collected.withheld⟩

/-- Two writes, slot by slot. -/
theorem CollectSlot.write {i : Invocation} {B C : Book} {x : Address} {s : Slot}
    (here : CollectSlot i B (C.slot x) s) (a : Address) :
    CollectSlot i B (C.slot a) ((C.write x s).slot a) := by
  by_cases same : a = x
  · subst same
    rw [Book.slot_write_self]
    exact here
  · rw [Book.slot_write_of_ne _ same]
    exact .same _

/-- A release of what is withheld in a holding. -/
theorem CollectSlot.release (i : Invocation) (B : Book) {s : Slot} {h : Holding} {w : ℕ}
    (held : s = .holding h) (withheld : h.withheld = some w) :
    CollectSlot i B s (.holding { h with withheld := some 0 }) := by
  subst held
  exact .holding { Collected.refl h with withheld := by rw [withheld]; rfl }

theorem CollectSlot.releaseEncrypted (i : Invocation) (B : Book) {s : Slot} {h : Holding} {w : Scalar}
    (held : s = .holding h) (withheld : h.encryptedWithheld = some w) :
    CollectSlot i B s (.holding { h with encryptedWithheld := some 0 }) := by
  subst held
  exact .holding { Collected.refl h with encryptedWithheld := by rw [withheld]; rfl }

/-- **One step of a loop over withheld fees**, slot by slot. -/
theorem Collect.slot {i : Invocation} {B C C' : Book} {m : Address} {paid : Bool}
    (named : paid = true → i.withdrawsWithheld = true)
    (before : ∀ a, CollectSlot i B (B.slot a) (C.slot a)) (collect : Collect m paid C C')
    (a : Address) : CollectSlot i B (C.slot a) (C'.slot a) := by
  cases collect with
  | @toMint _ x h iss config w held mint withheld issued fees small =>
    have first := (CollectSlot.release i B held withheld).write a
    refine first.trans (CollectSlot.write ?_ a)
    rw [Book.slot_write_of_ne _ (fun same => by simp [same, held] at issued), issued]
    exact .issue ⟨rfl, by rw [fees]; rfl, rfl⟩
  | @toAccount _ x d h hd w held mint withheld destination mint' thawed small =>
    have first := (CollectSlot.release i B held withheld).write a
    refine first.trans (CollectSlot.write ?_ a)
    rw [destination]
    refine .holding { (Collected.refl hd : Collected i B hd hd) with
      base := rfl
      more := Nat.le_add_right _ _
      paid := fun _ => ⟨named rfl, thawed⟩
      funded := fun _ => ?_ }
    -- The source was there with its fee extension before the loop.
    have origin := before x
    rw [held] at origin
    obtain ⟨h₀, slot, sameMint, sameWithheld⟩ := origin.back
    exact ⟨x, h₀, slot, by rw [← sameMint, mint, mint'], by rw [← sameWithheld, withheld]; rfl⟩
  | @encryptedToMint _ x h iss w r held mint withheld issued fees =>
    have first := (CollectSlot.releaseEncrypted i B held withheld).write a
    refine first.trans (CollectSlot.write ?_ a)
    rw [Book.slot_write_of_ne _ (fun same => by simp [same, held] at issued), issued]
    exact .issue ⟨rfl, rfl, by rw [fees]; rfl⟩
  | @encryptedToAccount _ x d h hd w e held mint withheld destination mint' thawed encrypted =>
    have first := (CollectSlot.releaseEncrypted i B held withheld).write a
    refine first.trans (CollectSlot.write ?_ a)
    rw [destination]
    exact .holding { (Collected.refl hd : Collected i B hd hd) with
      encrypted := .inr ⟨e, w, encrypted, rfl⟩
      paid := fun _ => ⟨named rfl, thawed⟩
      funded := fun changed => absurd rfl changed }

theorem Collect.lamports {m : Address} {paid : Bool} {C C' : Book} (collect : Collect m paid C C') :
    C'.lamports = C.lamports := by
  cases collect <;> rfl

/-- **A loop over withheld fees**, slot by slot. -/
theorem Collect.chain_slot {i : Invocation} {B B' : Book} {m : Address} {paid : Bool}
    (named : paid = true → i.withdrawsWithheld = true)
    (chain : Relation.ReflTransGen (Collect m paid) B B') :
    (∀ a, CollectSlot i B (B.slot a) (B'.slot a)) ∧ B'.lamports = B.lamports := by
  induction chain with
  | refl => exact ⟨fun a => .same _, rfl⟩
  | tail _ step ih =>
    exact ⟨fun a => (ih.1 a).trans (step.slot named ih.1 a), step.lamports.trans ih.2⟩

/-- A loop over the withheld fees of one mint leaves the accounts of the others. -/
theorem Collect.chain_other {m a : Address} {paid : Bool} {C C' : Book} {h : Holding}
    (chain : Relation.ReflTransGen (Collect m paid) C C') (held : C.slot a = .holding h)
    (ne : h.base.mint ≠ m) : C'.slot a = .holding h := by
  induction chain with
  | refl => exact held
  | @tail D D' _ step ih =>
    have apart : ∀ {x h₀}, D.slot x = .holding h₀ → h₀.base.mint = m → a ≠ x := by
      intro x h₀ there mint same
      subst same
      obtain rfl := Slot.holding.inj (there.symm.trans ih)
      exact ne mint
    have atMint : ∀ {iss}, D.slot m = .issue iss → a ≠ m := by
      intro iss issued same
      rw [same, issued] at ih
      exact Slot.noConfusion ih
    -- The destination of what is taken from `x` is another account of the mint.
    have both : ∀ {x d : Address} {hd : Holding} {s t : Slot}, a ≠ x →
        (D.write x s).slot d = .holding hd → hd.base.mint = m →
          ((D.write x s).write d t).slot a = .holding h := by
      intro x d hd s t other destination mint
      have first : (D.write x s).slot a = .holding h := by
        rw [Book.slot_write_of_ne _ other, ih]
      rw [Book.slot_write_of_ne _ fun same => ?_, first]
      rw [← same, first] at destination
      exact ne (Slot.holding.inj destination ▸ mint)
    cases step with
    | toMint there mint _ issued =>
      rw [Book.slot_write_of_ne _ (atMint issued), Book.slot_write_of_ne _ (apart there mint), ih]
    | @toAccount _ x d _ _ _ there mint _ destination mint' =>
      exact both (apart there mint) destination mint'
    | encryptedToMint there mint _ issued =>
      rw [Book.slot_write_of_ne _ (atMint issued), Book.slot_write_of_ne _ (apart there mint), ih]
    | @encryptedToAccount _ x d _ _ _ _ there mint _ destination mint' =>
      exact both (apart there mint) destination mint'

/-! ### The changes of a slot -/

/-- **What happens to the slot at `a`**, from what it was to what it is, with the lamports that are
behind it afterwards. -/
inductive SlotStep (i : Invocation) (B : Book) (a : Address) :
    List Address → Option DebitArm → Slot → Slot → ℕ → Prop
  | keep {v : List Address} {arm : Option DebitArm} {s : Slot} {l : ℕ} (more : B.lamports a ≤ l) :
      SlotStep i B a v arm s s l
  | drain {v : List Address} {s : Slot} {l : ℕ}
      (source : ∀ h, s = .holding h → h.base.isNativeAccount = false ∧ v = [h.base.owner] ∧
        ¬ (h.cpiLocked ∧ i.env.inCpi)) : SlotStep i B a v none s s l
  | stage {b : Buffer} {t : ExtensionType} {x : Extension t} {l : ℕ} (fresh : FreshEntry t x) :
      SlotStep i B a [] none (.vacant b) (.vacant (b.set t x)) l
  | openMint {b : Buffer} {base : PodMint} {l : ℕ} (named : i.initializesMint a = true)
      (valid : ExtensionType.ValidCombination b.extensionTypes) (empty : base.supply = 0) :
      SlotStep i B a [] none (.vacant b) (.issue (b.issuance base)) l
  | createNativeMint {l : ℕ} (named : i.initializesMint a = true) (here : a = nativeMintId) :
      SlotStep i B a [] none .foreign (.issue nativeIssuance) l
  | openHolding {m : Address} {b : Buffer} {iss : Issuance} {base : PodAccount}
      (issued : B.slot m = .issue iss) (opens : Opens B a m iss base) :
      SlotStep i B a [] none (.vacant b) (.holding (b.openHolding iss base)) (B.lamports a)
  | openMultisig {b : Buffer} {l : ℕ} : SlotStep i B a [] none (.vacant b) .inert l
  | configureMint {v : List Address} {iss iss' : Issuance} {l : ℕ} (same : ConfigOnly iss iss') :
      SlotStep i B a v none (.issue iss) (.issue iss') l
  | togglePause {iss : Issuance} {config : PausableConfig} {pause : Bool} {key : Address} {l : ℕ}
      (pausable : iss.pausable = some config)
      (named : i.instruction = .pausableExtension (if pause then .pause else .resume))
      (authority : config.authority.toOption = some key) :
      SlotStep i B a [key] none (.issue iss)
        (.issue { iss with pausable := some { config with paused := pause } }) l
  | adjust {v : List Address} {h h' : Holding} (adjustment : Adjustment i B a h v h') :
      SlotStep i B a v none (.holding h) (.holding h') (B.lamports a)
  | toggleFreeze {h : Holding} {iss : Issuance} {key : Address} {freeze : Bool}
      {state : AccountState} (initialized : state ≠ .uninitialized)
      (issued : B.slot h.base.mint = .issue iss) (authority : iss.base.freezeAuthority = some key)
      (plain : h.base.isNativeAccount = false) (before : h.base.isFrozen = !freeze)
      (after : state = if freeze then .frozen else .initialized)
      (named : i.instruction = if freeze then .freezeAccount else .thawAccount)
      (target : i.key? 0 = some a) :
      SlotStep i B a [key] none (.holding h)
        (.holding (h.withBase { h.base with state, initialized })) (B.lamports a)
  | reserve {h : Holding} {reserve : ℕ} (native : h.base.isNativeAccount = true)
      (funded : h.base.amount + reserve ≤ B.lamports a) :
      SlotStep i B a [h.base.owner] none (.holding h)
        (.holding (h.withBase { h.base with isNative := some reserve })) (B.lamports a)
  | syncNative {h : Holding} {amount reserve : ℕ} (named : i.instruction = .syncNative)
      (native : h.base.isNativeAccount = true) (backed : amount + reserve = B.lamports a) :
      SlotStep i B a [] none (.holding h)
        (.holding (h.withBase { h.base with isNative := some reserve, amount })) (B.lamports a)
  | debit {h : Holding} {base : PodAccount} {key : Address} {arm : DebitArm} {n l : ℕ}
      (enough : n ≤ h.base.amount) (debit : Debit B h n base key arm)
      (unguarded : ¬ (key = h.base.owner ∧ h.cpiLocked ∧ i.env.inCpi))
      (thawed : h.base.isFrozen = false ∨ h.base.isNativeAccount = true)
      (running : B.Running h.base.mint ∨ h.base.isNativeAccount = true)
      (more : B.lamports a ≤ l + if h.base.isNativeAccount then n else 0) :
      SlotStep i B a [key] (some arm) (.holding h)
        (.holding (h.withBase { base with amount := h.base.amount - n })) l
  | burnExempt {h : Holding} {n : ℕ} (named : i.isBurn = true)
      (exempt : h.base.isOwnedBySystemProgramOrIncinerator = true) (enough : n ≤ h.base.amount)
      (thawed : h.base.isFrozen = false) (plain : h.base.isNativeAccount = false)
      (running : B.Running h.base.mint) :
      SlotStep i B a [] none (.holding h) (.holding (h.withAmount (h.base.amount - n)))
        (B.lamports a)
  | transferIn {h : Holding} {v : List Address} {arm : Option DebitArm} {n l : ℕ} {w : Option ℕ}
      (thawed : h.base.isFrozen = false) (small : h.base.amount + n < 2 ^ 64)
      (withheld : w.isSome = h.withheld.isSome) (running : B.Running h.base.mint)
      (more : B.lamports a ≤ l)
      (followed : ∃ b hb, B.slot b = .holding hb ∧ hb.base.mint = h.base.mint ∧
        (hb.base.isNativeAccount = true → B.lamports a + n ≤ l)) :
      SlotStep i B a v arm (.holding h)
        (.holding { h.withAmount (h.base.amount + n) with withheld := w }) l
  | mintTo {h : Holding} {n : ℕ} {key : Address} (thawed : h.base.isFrozen = false)
      (plain : h.base.isNativeAccount = false) (running : B.Running h.base.mint)
      (small : h.base.amount + n < 2 ^ 64) :
      SlotStep i B a [key] none (.holding h) (.holding (h.withAmount (h.base.amount + n)))
        (B.lamports a)
  | collected {v : List Address} {h h' : Holding} (collected : Collected i B h h')
      (along : ∃ m paid B', Relation.ReflTransGen (Collect m paid) B B' ∧
        B.slot a = .holding h ∧ B'.slot a = .holding h') :
      SlotStep i B a v none (.holding h) (.holding h') (B.lamports a)
  | withdrawWithheld {h : Holding} {iss : Issuance} {key : Address} {n : ℕ}
      (named : i.withdrawsWithheld = true) (issued : B.slot h.base.mint = .issue iss)
      (fees : iss.fees.isSome = true) (thawed : h.base.isFrozen = false)
      (small : h.base.amount + n < 2 ^ 64) :
      SlotStep i B a [key] none (.holding h) (.holding (h.withAmount (h.base.amount + n)))
        (B.lamports a)
  | deposit {h : Holding} {e : EncryptedBalance} {n : ℕ} (running : B.Running h.base.mint)
      (thawed : h.base.isFrozen = false) (plain : h.base.isNativeAccount = false)
      (enough : n ≤ h.base.amount) (small : n < 2 ^ 48) (encrypted : h.encrypted = some e) :
      SlotStep i B a [h.base.owner] none (.holding h)
        (.holding { h.withAmount (h.base.amount - n) with
          encrypted := some { e with
            pendingLo := e.pendingLo + ((n % 2 ^ 16 : ℕ) : Scalar)
            pendingHi := e.pendingHi + ((n / 2 ^ 16 : ℕ) : Scalar) } }) (B.lamports a)
  | withdraw {h : Holding} {e : EncryptedBalance} {n : ℕ} {remaining : Scalar}
      (running : B.Running h.base.mint) (thawed : h.base.isFrozen = false)
      (plain : h.base.isNativeAccount = false) (small : h.base.amount + n < 2 ^ 64)
      (encrypted : h.encrypted = some e) (moved : e.available = remaining + (n : Scalar))
      (bounded : remaining.val < 2 ^ 64) :
      SlotStep i B a [h.base.owner] none (.holding h)
        (.holding { h.withAmount (h.base.amount + n) with
          encrypted := some { e with available := remaining } }) (B.lamports a)
  | spendEncrypted {h h' : Holding} {m : Address} {lo hi : Scalar} (running : B.Running m)
      (spends : SpendsEncrypted i h h' m lo hi) :
      SlotStep i B a [h.base.owner] none (.holding h) (.holding h') (B.lamports a)
  | receiveEncrypted {h h' : Holding} {m : Address} {lo hi : Scalar} {v : List Address}
      (running : B.Running m) (receives : ReceivesEncrypted h h' m lo hi) :
      SlotStep i B a v none (.holding h) (.holding h') (B.lamports a)
  | receiveEncryptedWithFee {h h' : Holding} {m : Address} {lo hi feeLo feeHi : Scalar}
      {v : List Address} (running : B.Running m)
      (receives : ReceivesEncryptedWithFee h h' m lo hi feeLo feeHi) :
      SlotStep i B a v none (.holding h) (.holding h') (B.lamports a)
  | exchangeEncrypted {h mid h' : Holding} {m : Address} {lo hi : Scalar} (running : B.Running m)
      (spends : SpendsEncrypted i h mid m lo hi) (receives : ReceivesEncrypted mid h' m lo hi) :
      SlotStep i B a [h.base.owner] none (.holding h) (.holding h') (B.lamports a)
  | withdrawEncryptedWithheld {h : Holding} {e : EncryptedBalance} {iss : Issuance} {r : Scalar}
      {key : Address} (named : i.withdrawsWithheld = true)
      (issued : B.slot h.base.mint = .issue iss) (fees : iss.encryptedWithheld = some r)
      (thawed : h.base.isFrozen = false) (encrypted : h.encrypted = some e) :
      SlotStep i B a [key] none (.holding h)
        (.holding { h with encrypted := some { e with available := e.available + r } })
        (B.lamports a)
  | closeHolding {h : Holding} {d : Address} {v : List Address} {l : ℕ} (target : i.key? 0 = some a)
      (closes : Closes i h d v) : SlotStep i B a v none (.holding h) .foreign l
  | increaseSupply {iss : Issuance} {n : ℕ} {key : Address} {l : ℕ} (running : iss.paused = false)
      (plain : iss.mintBurn = none) :
      SlotStep i B a [key] none (.issue iss)
        (.issue { iss with base := { iss.base with supply := iss.base.supply + n } }) l
  | decreaseSupply {iss : Issuance} {n : ℕ} {v : List Address} {arm : Option DebitArm} {l : ℕ}
      (running : iss.paused = false) (plain : iss.mintBurn = none) :
      SlotStep i B a v arm (.issue iss)
        (.issue { iss with base := { iss.base with supply := iss.base.supply - n } }) l
  | retained {iss iss' : Issuance} {v : List Address} {l : ℕ} (retained : Retained iss iss') :
      SlotStep i B a v none (.issue iss) (.issue iss') l
  | changeSupply {iss : Issuance} {e e' : EncryptedSupply} {v : List Address} {l : ℕ}
      (running : iss.paused = false) (supply : iss.mintBurn = some e) :
      SlotStep i B a v none (.issue iss) (.issue { iss with mintBurn := some e' }) l
  | applyPendingBurn {iss : Issuance} {e : EncryptedSupply} {key : Address} {l : ℕ}
      (supply : iss.mintBurn = some e) :
      SlotStep i B a [key] none (.issue iss)
        (.issue { iss with mintBurn := some ⟨e.supply - e.pendingBurn, 0⟩ }) l
  | closeMint {iss : Issuance} {key : Address} {l : ℕ} (named : i.instruction = .closeAccount)
      (authority : iss.closeAuthority = some key) (supply : iss.base.supply = 0)
      (mintBurn : ∀ e, iss.mintBurn = some e → e.supply = 0) :
      SlotStep i B a [key] none (.issue iss) .foreign l

/-! ### Every effect, slot by slot -/

/-- A mint that is seen to run. -/
theorem Book.Running.of_issue {B : Book} {m : Address} {iss : Issuance} (issued : B.slot m = .issue iss)
    (running : iss.paused = false) : B.Running m := by
  intro iss' issued' paused
  obtain rfl := Slot.issue.inj (issued.symm.trans issued')
  rw [running] at paused
  exact absurd paused (by decide)

section Writes

variable {i : Invocation} {B : Book} {v : List Address} {arm : Option DebitArm}

/-- One write. -/
theorem SlotStep.of_write {x : Address} {s : Slot}
    (here : SlotStep i B x v arm (B.slot x) s (B.lamports x)) (a : Address) :
    SlotStep i B a v arm (B.slot a) ((B.write x s).slot a) ((B.write x s).lamports a) := by
  by_cases same : a = x
  · subst same
    rw [Book.slot_write_self]
    exact here
  · rw [Book.slot_write_of_ne _ same]
    exact .keep le_rfl

/-- Two writes at two addresses, with lamports moved before. -/
theorem SlotStep.of_writes {C : Book} {x y : Address} {s t : Slot} (ne : x ≠ y)
    (slots : C.slot = B.slot) (hereX : SlotStep i B x v arm (B.slot x) s (C.lamports x))
    (hereY : SlotStep i B y v arm (B.slot y) t (C.lamports y))
    (others : ∀ a, a ≠ x → a ≠ y → B.lamports a ≤ C.lamports a) (a : Address) :
    SlotStep i B a v arm (B.slot a) (((C.write x s).write y t).slot a)
      (((C.write x s).write y t).lamports a) := by
  by_cases atY : a = y
  · subst atY
    rw [Book.slot_write_self]
    exact hereY
  · rw [Book.slot_write_of_ne _ atY]
    by_cases atX : a = x
    · subst atX
      rw [Book.slot_write_self]
      exact hereX
    · rw [Book.slot_write_of_ne _ atX, slots]
      exact .keep (others a atX atY)

/-- A holding and its mint, both written. -/
theorem SlotStep.of_pair {x m : Address} {h : Holding} {iss : Issuance} {s t : Slot}
    (held : B.slot x = .holding h) (issued : B.slot m = .issue iss)
    (hereX : SlotStep i B x v arm (B.slot x) s (B.lamports x))
    (hereM : SlotStep i B m v arm (B.slot m) t (B.lamports m)) (a : Address) :
    SlotStep i B a v arm (B.slot a) (((B.write x s).write m t).slot a)
      (((B.write x s).write m t).lamports a) := by
  refine SlotStep.of_writes (fun same => ?_) rfl hereX hereM (fun _ _ _ => le_rfl) a
  rw [same, issued] at held
  exact Slot.noConfusion held

end Writes

/-- **Every effect changes every slot in one of these ways.** -/
theorem Effect.slotStep {i : Invocation} {v : List Address} {arm : Option DebitArm} {B B' : Book}
    (effect : Effect i v arm B B') (a : Address) :
    SlotStep i B a v arm (B.slot a) (B'.slot a) (B'.lamports a) := by
  cases effect with
  | idle => exact .keep le_rfl
  | stage held fresh => exact SlotStep.of_write (held ▸ .stage fresh) a
  | openMint named held valid empty => exact SlotStep.of_write (held ▸ .openMint named valid empty) a
  | createNativeMint named held =>
    exact SlotStep.of_write (held ▸ .createNativeMint named rfl) a
  | openHolding held issued opens => exact SlotStep.of_write (held ▸ .openHolding issued opens) a
  | openMultisig held => exact SlotStep.of_write (held ▸ .openMultisig) a
  | configureMint issued same => exact SlotStep.of_write (issued ▸ .configureMint same) a
  | togglePause issued pausable named authority =>
    exact SlotStep.of_write (issued ▸ .togglePause pausable named authority) a
  | adjust held adjustment => exact SlotStep.of_write (held ▸ .adjust adjustment) a
  | toggleFreeze initialized held issued authority plain before after named target =>
    exact SlotStep.of_write
      (held ▸ .toggleFreeze initialized issued authority plain before after named target) a
  | reserve held native funded => exact SlotStep.of_write (held ▸ .reserve native funded) a
  | syncNative named held native backed =>
    exact SlotStep.of_write (held ▸ .syncNative named native backed) a
  | @withdrawExcess _ s d n _ source own enough =>
    rw [Book.slot_pay]
    by_cases atSource : a = s
    · subst atSource
      exact .drain source
    · exact .keep (Book.lamports_pay_of_ne B atSource)
  | @transfer _ C x d h hd base key arm n fee hd' held destination distinct mint thawed thawed'
      enough transferable debit unguarded terms fee_le small credited lamports =>
    have running : B.Running h.base.mint := by
      rcases terms with ⟨-, -, -, unmarked⟩ | ⟨iss, issued, running, -⟩
      · exact fun _ _ _ => ⟨x, h, held, rfl, unmarked⟩
      · exact .of_issue issued running
    have slots := Book.slot_paid lamports
    have lamportsX : B.lamports x ≤ C.lamports x + if h.base.isNativeAccount then n else 0 := by
      split at lamports
      · rename_i native
        rw [if_pos native, lamports.2, Book.lamports_pay, if_neg distinct, if_pos rfl]
        omega
      · rw [lamports]
        exact Nat.le_add_right _ _
    have lamportsD : B.lamports d ≤ C.lamports d ∧
        (h.base.isNativeAccount = true → B.lamports d + (n - fee) ≤ C.lamports d) := by
      split at lamports
      · rw [lamports.2, Book.lamports_pay, if_pos rfl, if_neg distinct.symm]
        exact ⟨Nat.le_add_right _ _, fun _ => Nat.add_le_add_left (Nat.sub_le _ _) _⟩
      · rename_i plain
        rw [lamports]
        exact ⟨le_rfl, fun native => absurd native plain⟩
    have others : ∀ b, b ≠ x → b ≠ d → B.lamports b ≤ C.lamports b := by
      intro b atX _
      exact Book.lamports_paid_of_ne lamports atX
    have received : ∃ w : Option ℕ, w.isSome = hd.withheld.isSome ∧
        hd' = { hd.withAmount (hd.base.amount + (n - fee)) with withheld := w } := by
      split at credited
      · obtain ⟨w, withheld, -, rfl⟩ := credited
        exact ⟨some (w + fee), by rw [withheld]; rfl, rfl⟩
      · exact ⟨hd.withheld, rfl, credited⟩
    obtain ⟨w, withheld, rfl⟩ := received
    refine SlotStep.of_writes distinct slots ?_ ?_ others a
    · rw [held]
      exact .debit enough debit unguarded (.inl thawed) (.inl running) lamportsX
    · rw [destination]
      exact .transferIn thawed' small withheld (mint ▸ running) lamportsD.1
        ⟨x, h, held, mint.symm, lamportsD.2⟩
  | @unwrap _ C x d h base key arm n held native enough debit limited unguarded lamports =>
    have slots := Book.slot_paid lamports
    have lamportsX : B.lamports x ≤ C.lamports x + n := by
      split at lamports
      · rename_i moves
        rw [lamports.2, Book.lamports_pay, if_neg moves.2, if_pos rfl]
        omega
      · rw [lamports]
        exact Nat.le_add_right _ _
    have others : ∀ b, b ≠ x → B.lamports b ≤ C.lamports b := by
      intro b atX
      exact Book.lamports_paid_of_ne lamports atX
    by_cases atX : a = x
    · subst atX
      rw [Book.slot_write_self, held]
      refine .debit enough debit (fun guarded => unguarded guarded.2) (.inr native) (.inr native) ?_
      rw [if_pos native]
      exact lamportsX
    · rw [Book.slot_write_of_ne _ atX, slots]
      exact .keep (others a atX)
  | mintTo issued held mint thawed plain marked running base small small' =>
    subst mint
    exact SlotStep.of_pair held issued
      (held ▸ .mintTo thawed plain (.of_issue issued running) small)
      (issued ▸ .increaseSupply running base) a
  | @burn _ m x iss h base n _ _ named issued held mint thawed plain enough enough' running noMintBurn
      debit =>
    subst mint
    refine SlotStep.of_pair held issued ?_ (issued ▸ .decreaseSupply running noMintBurn) a
    rw [held]
    split at debit
    · rename_i exempt
      obtain ⟨rfl, rfl, rfl⟩ := debit
      exact .burnExempt named exempt enough thawed plain (.of_issue issued running)
    · obtain ⟨key, arm', debit, rfl, rfl, unguarded⟩ := debit
      exact .debit enough debit unguarded (.inl thawed) (.inl (.of_issue issued running))
        (Nat.le_add_right _ _)
  | @closeHolding _ x d h _ held target distinct closes =>
    by_cases atX : a = x
    · subst atX
      rw [Book.slot_write_self, held]
      exact .closeHolding target closes
    · rw [Book.slot_write_of_ne _ atX, Book.slot_pay]
      exact .keep (Book.lamports_pay_of_ne B atX)
  | @closeMint _ x d iss key issued named distinct authority supply mintBurn =>
    by_cases atX : a = x
    · subst atX
      rw [Book.slot_write_self, issued]
      exact .closeMint named authority supply mintBurn
    · rw [Book.slot_write_of_ne _ atX, Book.slot_pay]
      exact .keep (Book.lamports_pay_of_ne B atX)
  | collect named chain =>
    obtain ⟨slots, lamports⟩ := Collect.chain_slot named chain
    have here := slots a
    have along : ∀ {h h'}, B.slot a = .holding h → B'.slot a = .holding h' →
        ∃ m paid C, Relation.ReflTransGen (Collect m paid) B C ∧
          B.slot a = .holding h ∧ C.slot a = .holding h' :=
      fun before after => ⟨_, _, _, chain, before, after⟩
    rw [lamports]
    generalize before : B.slot a = s, after : B'.slot a = s' at here
    cases here with
    | same => exact .keep le_rfl
    | holding collected => exact .collected collected (along before after)
    | issue retained => exact .retained retained
  | @withdrawWithheld _ m d iss config h key named issued fees held mint thawed small =>
    subst mint
    have ne : h.base.mint ≠ d := fun same => by simp [same, held] at issued
    refine SlotStep.of_writes ne rfl (issued ▸ .retained ⟨rfl, by rw [fees]; rfl, rfl⟩)
      (held ▸ .withdrawWithheld named issued (by rw [fees]; rfl) thawed small)
      (fun _ _ _ => le_rfl) a
  | deposit held issued running base transferable thawed plain enough small encrypted =>
    exact SlotStep.of_write
      (held ▸ .deposit (.of_issue issued running) thawed plain enough small encrypted) a
  | withdraw held issued running base transferable thawed plain small encrypted moved bounded =>
    exact SlotStep.of_write
      (held ▸ .withdraw (.of_issue issued running) thawed plain small encrypted moved bounded) a
  | @confidentialTransfer _ x d m iss h h' hd hd' lo hi issued running held transferable spends
      destination receives =>
    have runs : B.Running m := .of_issue issued running
    by_cases self : x = d
    · subst self
      rw [Book.slot_write_self] at destination
      obtain rfl := Slot.holding.inj destination
      rw [Book.write_self]
      rcases receives with receives | ⟨other, -⟩
      · exact SlotStep.of_write (held ▸ .exchangeEncrypted runs spends receives) a
      · exact absurd rfl other
    · rw [Book.slot_write_of_ne _ (Ne.symm self)] at destination
      refine SlotStep.of_writes self rfl (held ▸ .spendEncrypted runs spends) ?_
        (fun _ _ _ => le_rfl) a
      rw [destination]
      rcases receives with receives | ⟨-, feeLo, feeHi, receives⟩
      · exact .receiveEncrypted runs receives
      · exact .receiveEncryptedWithFee runs receives
  | confidentialMint issued running held marked receives supply bounded =>
    exact SlotStep.of_pair held issued
      (held ▸ .receiveEncrypted (.of_issue issued running) receives)
      (issued ▸ .changeSupply running supply) a
  | confidentialBurn issued running held spends supply =>
    exact SlotStep.of_pair held issued
      (held ▸ .spendEncrypted (.of_issue issued running) spends)
      (issued ▸ .changeSupply running supply) a
  | applyPendingBurn issued supply => exact SlotStep.of_write (issued ▸ .applyPendingBurn supply) a
  | withdrawEncryptedWithheld named issued fees held mint thawed encrypted =>
    subst mint
    exact SlotStep.of_pair held issued
      (held ▸ .withdrawEncryptedWithheld named issued fees thawed encrypted)
      (issued ▸ .retained ⟨rfl, rfl, by rw [fees]; rfl⟩) a

/-! ### What never changes -/

/-- **What a holding is, for as long as it stands**: whose tokens it holds, and its marks. -/
structure SameMarks (h h' : Holding) : Prop where
  mint : h'.base.mint = h.base.mint
  native : h'.base.isNativeAccount = h.base.isNativeAccount
  withheld : h'.withheld.isSome = h.withheld.isSome
  immutableOwner : h'.immutableOwner = h.immutableOwner
  nonTransferable : h'.nonTransferable = h.nonTransferable
  hooked : h'.hooked = h.hooked
  pausable : h'.pausable = h.pausable

theorem SameMarks.refl (h : Holding) : SameMarks h h := ⟨rfl, rfl, rfl, rfl, rfl, rfl, rfl⟩

/-- A change of the base state that leaves the mint and the nature of the account. -/
theorem SameMarks.of_base {h : Holding} {base : PodAccount} (mint : base.mint = h.base.mint)
    (native : base.isNativeAccount = h.base.isNativeAccount) : SameMarks h (h.withBase base) :=
  ⟨mint, native, rfl, rfl, rfl, rfl, rfl⟩

theorem Collected.marks {i : Invocation} {B : Book} {h h' : Holding} (c : Collected i B h h') :
    SameMarks h h' where
  mint := c.mint
  native := by
    unfold PodAccount.isNativeAccount
    rw [c.base]
  withheld := c.withheld
  immutableOwner := c.immutableOwner
  nonTransferable := c.nonTransferable
  hooked := c.hooked
  pausable := c.pausable

theorem Adjustment.marks {i : Invocation} {B : Book} {a : Address} {h h' : Holding}
    {v : List Address} (adjustment : Adjustment i B a h v h') : SameMarks h h' := by
  cases adjustment with
  | approve => exact .of_base rfl rfl
  | revoke => exact .of_base rfl rfl
  | setOwner => exact .of_base rfl rfl
  | setCloseAuthority => exact .of_base rfl rfl
  | lockCpi => exact { SameMarks.refl h with }
  | configure => exact { SameMarks.refl h with }
  | applyPending => exact { SameMarks.refl h with }

/-- Confidential movements leave the base state. -/
theorem SpendsEncrypted.base {i : Invocation} {h h' : Holding} {m : Address} {lo hi : Scalar}
    (spends : SpendsEncrypted i h h' m lo hi) : h'.base = h.base := by
  obtain ⟨e, remaining, -, -, -, rfl⟩ := spends.moved
  rfl

theorem ReceivesEncrypted.base {h h' : Holding} {m : Address} {lo hi : Scalar}
    (receives : ReceivesEncrypted h h' m lo hi) : h'.base = h.base := by
  obtain ⟨e, -, rfl⟩ := receives.moved
  rfl

theorem ReceivesEncryptedWithFee.base {h h' : Holding} {m : Address} {lo hi feeLo feeHi : Scalar}
    (receives : ReceivesEncryptedWithFee h h' m lo hi feeLo feeHi) : h'.base = h.base := by
  obtain ⟨e, w, -, -, rfl⟩ := receives.moved
  rfl

theorem SpendsEncrypted.marks {i : Invocation} {h h' : Holding} {m : Address} {lo hi : Scalar}
    (spends : SpendsEncrypted i h h' m lo hi) : SameMarks h h' := by
  obtain ⟨e, remaining, -, -, -, rfl⟩ := spends.moved
  exact { SameMarks.refl h with }

theorem ReceivesEncrypted.marks {h h' : Holding} {m : Address} {lo hi : Scalar}
    (receives : ReceivesEncrypted h h' m lo hi) : SameMarks h h' := by
  obtain ⟨e, -, rfl⟩ := receives.moved
  exact { SameMarks.refl h with }

theorem ReceivesEncryptedWithFee.marks {h h' : Holding} {m : Address} {lo hi feeLo feeHi : Scalar}
    (receives : ReceivesEncryptedWithFee h h' m lo hi feeLo feeHi) : SameMarks h h' := by
  obtain ⟨e, w, -, -, rfl⟩ := receives.moved
  exact { SameMarks.refl h with }

theorem SameMarks.trans {h h' h'' : Holding} (first : SameMarks h h') (second : SameMarks h' h'') :
    SameMarks h h'' where
  mint := second.mint.trans first.mint
  native := second.native.trans first.native
  withheld := second.withheld.trans first.withheld
  immutableOwner := second.immutableOwner.trans first.immutableOwner
  nonTransferable := second.nonTransferable.trans first.nonTransferable
  hooked := second.hooked.trans first.hooked
  pausable := second.pausable.trans first.pausable

/-- **A holding that stays keeps its marks.** -/
theorem SlotStep.marks {i : Invocation} {B : Book} {a : Address} {v : List Address}
    {arm : Option DebitArm} {h h' : Holding} {l : ℕ}
    (step : SlotStep i B a v arm (.holding h) (.holding h') l) : SameMarks h h' := by
  cases step with
  | keep => exact .refl h
  | drain => exact .refl h
  | adjust adjustment => exact adjustment.marks
  | toggleFreeze => exact .of_base rfl rfl
  | reserve native => exact .of_base rfl native.symm
  | syncNative _ native => exact .of_base rfl native.symm
  | debit _ debit =>
    refine .of_base debit.kept.1 ?_
    unfold PodAccount.isNativeAccount
    rw [← debit.kept.2.2.2.2.1]
  | burnExempt => exact .of_base rfl rfl
  | transferIn _ _ withheld => exact { SameMarks.refl h with withheld, mint := rfl, native := rfl }
  | mintTo => exact .of_base rfl rfl
  | collected collected => exact collected.marks
  | withdrawWithheld => exact .of_base rfl rfl
  | deposit => exact { SameMarks.refl h with mint := rfl, native := rfl }
  | withdraw => exact { SameMarks.refl h with mint := rfl, native := rfl }
  | spendEncrypted _ spends => exact spends.marks
  | receiveEncrypted _ receives => exact receives.marks
  | receiveEncryptedWithFee _ receives => exact receives.marks
  | exchangeEncrypted _ spends receives => exact spends.marks.trans receives.marks
  | withdrawEncryptedWithheld => exact { SameMarks.refl h with }

/-- A holding comes from a holding, or is opened. -/
theorem SlotStep.holding_origin {i : Invocation} {B : Book} {a : Address} {v : List Address}
    {arm : Option DebitArm} {s : Slot} {h' : Holding} {l : ℕ}
    (step : SlotStep i B a v arm s (.holding h') l) : (∃ h, s = .holding h) ∨
      ∃ m b iss base, s = .vacant b ∧ B.slot m = .issue iss ∧ Opens B a m iss base ∧
        h' = b.openHolding iss base ∧ l = B.lamports a := by
  cases step with
  | openHolding issued opens => exact .inr ⟨_, _, _, _, rfl, issued, opens, rfl, rfl⟩
  | _ => exact .inl ⟨_, rfl⟩

/-- **What a mint demands of its accounts, for as long as it stands.** -/
structure SameDemands (iss iss' : Issuance) : Prop where
  fees : iss'.fees.isSome = iss.fees.isSome
  hook : iss'.hook.isSome = iss.hook.isSome
  pausable : iss'.pausable.isSome = iss.pausable.isSome
  mintBurn : iss'.mintBurn.isSome = iss.mintBurn.isSome
  confidential : iss'.confidential = iss.confidential
  encryptedWithheld : iss'.encryptedWithheld.isSome = iss.encryptedWithheld.isSome
  nonTransferable : iss'.nonTransferable = iss.nonTransferable

theorem SameDemands.refl (iss : Issuance) : SameDemands iss iss := ⟨rfl, rfl, rfl, rfl, rfl, rfl, rfl⟩

theorem ConfigOnly.demands {iss iss' : Issuance} (same : ConfigOnly iss iss') :
    SameDemands iss iss' where
  fees := by
    have mapped := congrArg Option.isSome same.withheld
    rwa [Option.isSome_map, Option.isSome_map] at mapped
  hook := same.hook
  pausable := by
    have mapped := congrArg Option.isSome same.paused
    rwa [Option.isSome_map, Option.isSome_map] at mapped
  mintBurn := congrArg Option.isSome same.mintBurn
  confidential := same.confidential
  encryptedWithheld := congrArg Option.isSome same.encryptedWithheld
  nonTransferable := same.nonTransferable

/-- **A mint that stays keeps its demands.** -/
theorem SlotStep.demands {i : Invocation} {B : Book} {a : Address} {v : List Address}
    {arm : Option DebitArm} {iss iss' : Issuance} {l : ℕ}
    (step : SlotStep i B a v arm (.issue iss) (.issue iss') l) : SameDemands iss iss' := by
  cases step with
  | keep => exact .refl iss
  | drain => exact .refl iss
  | configureMint same => exact same.demands
  | togglePause pausable => exact { SameDemands.refl iss with pausable := by rw [pausable]; rfl }
  | increaseSupply => exact { SameDemands.refl iss with }
  | decreaseSupply => exact { SameDemands.refl iss with }
  | retained retained =>
    rw [retained.kept]
    exact { SameDemands.refl iss with
      fees := retained.fees
      encryptedWithheld := retained.encryptedWithheld }
  | changeSupply _ supply => exact { SameDemands.refl iss with mintBurn := by rw [supply]; rfl }
  | applyPendingBurn supply => exact { SameDemands.refl iss with mintBurn := by rw [supply]; rfl }

/-- A mint comes from a mint, or is opened. -/
theorem SlotStep.issue_origin {i : Invocation} {B : Book} {a : Address} {v : List Address}
    {arm : Option DebitArm} {s : Slot} {iss' : Issuance} {l : ℕ}
    (step : SlotStep i B a v arm s (.issue iss') l) : (∃ iss, s = .issue iss) ∨
      (i.initializesMint a = true ∧ ((∃ b base, s = .vacant b ∧
          ExtensionType.ValidCombination b.extensionTypes ∧ base.supply = 0 ∧
          iss' = b.issuance base) ∨
        s = .foreign ∧ a = nativeMintId ∧ iss' = nativeIssuance)) := by
  cases step with
  | openMint named valid empty => exact .inr ⟨named, .inl ⟨_, _, rfl, valid, empty, rfl⟩⟩
  | createNativeMint named here => exact .inr ⟨named, .inr ⟨rfl, here, rfl⟩⟩
  | _ => exact .inl ⟨_, rfl⟩

theorem Collect.legacy {m : Address} {paid : Bool} {C C' : Book} (collect : Collect m paid C C') :
    C'.legacy = C.legacy := by
  cases collect <;> rfl

/-- No instruction hands an account to another program but the system program. -/
theorem Effect.legacy {i : Invocation} {v : List Address} {arm : Option DebitArm} {B B' : Book}
    (effect : Effect i v arm B B') : B'.legacy = B.legacy := by
  cases effect with
  | collect _ chain =>
    induction chain with
    | refl => rfl
    | tail _ step ih => exact step.legacy.trans ih
  | transfer _ _ _ _ _ _ _ _ _ _ _ _ _ _ lamports =>
    have kept := Book.legacy_paid lamports
    exact kept
  | unwrap _ _ _ _ _ _ lamports =>
    have kept := Book.legacy_paid lamports
    exact kept
  | _ => rfl

end Token2022
