/-
**The client of a mint with an encrypted supply.**

The program adds to the supply that it cannot read, and takes burns off it. Next to it stands what the
authority encrypted for itself when it minted last, from which the burns are not taken off. The client
finds the supply from the difference of the two, which it can decrypt as long as it is small.

* `Event.ChangesSupply` — the events that change either of the two.
* `SetsSupply`, `run_setsSupply` — what the instructions among them do, and to which mint.
* `Step.supply_aside` — everything else leaves both.
* **`SupplySession`** — the runs of the client and the program, with the burns that were applied since
  the client computed last.
* **`supply_client_exact`** — the client shows the supply where these burns are of 32 bits, and shows
  nothing elsewhere: it never shows another number.
-/

import Token2022.Confidential.Client
import Token2022.Invariant.Conservation
import Token2022.Invariant.MintExtension
import Token2022.Property.PendingCredits
import Token2022.Property.Reading

namespace Token2022

open Fallible

variable {i : Invocation} {start L L' : Ledger} {outcome : Outcome} {validated : List Address}
  {m k : Address} {e e' : ConfidentialMintBurn} {P Q : ConfidentialMintBurn → Prop} {aesKey : AeKey}

/-! ### What changes the supply -/

/-- The mint of which an instruction sets the encrypted supply, or what its authority decrypts. -/
def Invocation.supplyTarget? (i : Invocation) : Option Address :=
  match i.instruction with
  | .confidentialMintBurnExtension (.mint _) => i.key? 1
  | .confidentialMintBurnExtension (.updateDecryptableSupply _) => i.key? 0
  | .confidentialMintBurnExtension .applyPendingBurn => i.key? 0
  | _ => none

/-- The event sets one of the two, prepares the extension, or closes the mint. -/
def Event.ChangesSupply (event : Event) (m : Address) : Prop :=
  (∃ i, event = .invoke i ∧ i.supplyTarget? = some m) ∨
    event.stages m .confidentialMintBurn ∨ event.closes m

/-- **From one ledger to the other the extension of the mint is set**; no other mint is touched. -/
def SetsSupply (L L' : Ledger) (k : Address) (e e' : ConfidentialMintBurn) : Prop :=
  ∃ (M : Ledger) (mint : MintState),
    (∀ b, (∀ account, (L b).data ≠ .account account) → M b = L b) ∧ (L k).owner = programId ∧
    (L k).data = .mint mint ∧ mint.get .confidentialMintBurn = some e ∧
    L' = M.setData k (.mint (mint.set .confidentialMintBurn e'))

namespace SetsSupply

/-- The value at the mint. -/
theorem there (sets : SetsSupply L L' k e e') :
    (L k).owner = programId ∧ (∃ mint, (L k).data = .mint mint ∧
      mint.get .confidentialMintBurn = some e) ∧ (L' k).owner = programId ∧
      ∃ mint', (L' k).data = .mint mint' ∧ mint'.get .confidentialMintBurn = some e' := by
  obtain ⟨M, mint, others, owned, data, held, rfl⟩ := sets
  refine ⟨owned, ⟨mint, data, held⟩, ?_, _, Ledger.data_setData_self .., ?_⟩
  · rw [Ledger.owner_setData, others k (by simp [data])]
    exact owned
  · exact StateWithExtensions.get_set_self ..

/-- What was true of the value before, and what is true of it now. -/
theorem moves (sets : SetsSupply L L' k e e')
    (carries : CarriesExtension .confidentialMintBurn P (L k).data) (next : P e → Q e') :
    (L' k).owner = programId ∧ CarriesExtension .confidentialMintBurn Q (L' k).data := by
  obtain ⟨-, ⟨mint, data, held⟩, owned', mint', data', held'⟩ := sets.there
  rw [data] at carries
  cases carries with
  | opened there holds =>
    obtain rfl := Option.some.inj (held.symm.trans there)
    rw [data']
    exact ⟨owned', .opened held' (next holds)⟩

/-- Elsewhere nothing changes. -/
theorem elsewhere (sets : SetsSupply L L' k e e') (ne : m ≠ k)
    (carries : CarriesExtension .confidentialMintBurn P (L m).data) : L' m = L m := by
  obtain ⟨M, mint, others, -, -, -, rfl⟩ := sets
  rw [Ledger.setData, Function.update_of_ne ne]
  refine others m fun account data => ?_
  rw [data] at carries
  cases carries

end SetsSupply

/-! ### The instructions -/

/-- What a confidential mint does to the supply. -/
theorem processConfidentialMint_sets {data : MintInstructionData}
    (ok : processConfidentialMint i.env L i.accounts data = .ok outcome) :
    ∃ k e n, i.key? 1 = some k ∧ SetsSupply L outcome.ledger k e { e with
      confidentialSupply := e.confidentialSupply + n
      decryptableSupply := data.newDecryptableSupply } := by
  simp only [processConfidentialMint, bind_eq_ok_iff, Prod.exists, nextAccountInfo_eq_ok_iff,
    checkProgramAccount_eq_ok_iff, unpackMint_eq_ok_iff, unpackAccount_eq_ok_iff,
    require_eq_ok_iff, exists_const] at ok
  obtain ⟨info, _, shape, mintInfo, _, shape₁, owned', mint, data', _, -, -, owned, account, stored, -,
    mintBurn, supplied, context, _, -, authorityInfo, _, -, key, -, -, -, -,
    e, held, _, -, -, -, _, -, credited, credit, increased, increase, mid, first, last, second,
    same⟩ := ok
  obtain rfl := Except.ok.inj same
  simp only [ConfidentialMintBurn.increaseSupply, bind_eq_ok_iff, okOr_eq_ok_iff,
    require_eq_ok_iff, exists_const, Except.ok.injEq] at increase
  obtain ⟨-, n, added, -, rfl⟩ := increase
  obtain rfl := Option.some.inj added
  obtain ⟨-, rfl⟩ := Ledger.writeData_eq_ok_iff.mp first
  obtain ⟨-, rfl⟩ := Ledger.writeData_eq_ok_iff.mp second
  refine ⟨mintInfo.key, mintBurn, _, by rw [Invocation.key?, shape, shape₁]; rfl, _, mint, ?_, owned',
    data', StateWithExtensions.getExtension_eq_ok_iff.mp supplied, rfl⟩
  intro b other
  rw [Ledger.setData, Function.update_of_ne]
  rintro rfl
  exact other account stored

/-- What an update of the decryptable supply does. -/
theorem processUpdateDecryptableSupply_sets {decryptable : AeCiphertext}
    (ok : processUpdateDecryptableSupply L i.accounts decryptable = .ok outcome) :
    ∃ k e, i.key? 0 = some k ∧
      SetsSupply L outcome.ledger k e { e with decryptableSupply := decryptable } := by
  simp only [processUpdateDecryptableSupply, bind_eq_ok_iff, Prod.exists, nextAccountInfo_eq_ok_iff,
    checkProgramAccount_eq_ok_iff, unpackMint_eq_ok_iff, exists_const] at ok
  obtain ⟨info, _, shape, owned, mint, data, mintBurn, held, _, _, -, key, -, ledger, stored,
    same⟩ := ok
  obtain rfl := Except.ok.inj same
  obtain ⟨-, rfl⟩ := Ledger.writeData_eq_ok_iff.mp stored
  exact ⟨info.key, mintBurn, key?_zero shape, L, mint, fun _ _ => rfl, owned, data,
    StateWithExtensions.getExtension_eq_ok_iff.mp held, rfl⟩

/-- What the application of the pending burns does. -/
theorem processApplyPendingBurn_sets (ok : processApplyPendingBurn L i.accounts = .ok outcome) :
    ∃ k e, i.key? 0 = some k ∧ SetsSupply L outcome.ledger k e { e with
      confidentialSupply := e.confidentialSupply - e.pendingBurn
      pendingBurn := 0 } := by
  simp only [processApplyPendingBurn, bind_eq_ok_iff, Prod.exists, nextAccountInfo_eq_ok_iff,
    checkProgramAccount_eq_ok_iff, unpackMint_eq_ok_iff, okOr_eq_ok_iff, exists_const] at ok
  obtain ⟨info, _, shape, owned, mint, data, mintBurn, held, _, _, -, key, -, supply, less, ledger,
    stored, same⟩ := ok
  obtain rfl := Except.ok.inj same
  obtain rfl := Option.some.inj less
  obtain ⟨-, rfl⟩ := Ledger.writeData_eq_ok_iff.mp stored
  exact ⟨info.key, mintBurn, key?_zero shape, L, mint, fun _ _ => rfl, owned, data,
    StateWithExtensions.getExtension_eq_ok_iff.mp held, rfl⟩

/-- **The instructions that set a supply set the one of their target.** -/
theorem run_setsSupply (named : i.instruction.setsSupply = true) (ok : i.run L = .ok outcome) :
    ∃ k e e', i.supplyTarget? = some k ∧ SetsSupply L outcome.ledger k e e' := by
  unfold Invocation.run at ok
  unfold TokenInstruction.setsSupply at named
  split at named
  case h_1 _ data instruction =>
    rw [instruction] at ok
    obtain ⟨k, e, n, target, sets⟩ := processConfidentialMint_sets ok
    exact ⟨k, e, _, by rw [Invocation.supplyTarget?, instruction]; exact target, sets⟩
  case h_2 _ decryptable instruction =>
    rw [instruction] at ok
    obtain ⟨k, e, target, sets⟩ := processUpdateDecryptableSupply_sets ok
    exact ⟨k, e, _, by rw [Invocation.supplyTarget?, instruction]; exact target, sets⟩
  case h_3 _ instruction =>
    rw [instruction] at ok
    obtain ⟨k, e, target, sets⟩ := processApplyPendingBurn_sets ok
    exact ⟨k, e, _, by rw [Invocation.supplyTarget?, instruction]; exact target, sets⟩
  case h_4 => cases named

/-! ### Everything else -/

/-- An update of the extension by another instruction leaves the supply, and what its authority
decrypts. -/
theorem MintUpdate.supply_same {mint : MintState} {t : ExtensionType} {v v' : Extension t}
    (update : MintUpdate i validated mint t v v') (quiet : i.instruction.setsSupply = false)
    (same : t = .confidentialMintBurn) :
    ConfidentialMintBurn.confidentialSupply (same ▸ v' : Extension .confidentialMintBurn) =
      ConfidentialMintBurn.confidentialSupply (same ▸ v : Extension .confidentialMintBurn) ∧
    ConfidentialMintBurn.decryptableSupply (same ▸ v' : Extension .confidentialMintBurn) =
      ConfidentialMintBurn.decryptableSupply (same ▸ v : Extension .confidentialMintBurn) := by
  cases update with
  | @rotate type field e key new named => cases type <;> cases named <;> cases same
  | rotateSupplyKey | confidentialBurn => exact ⟨rfl, rfl⟩
  | updateDecryptableSupply _ _ named | confidentialMint _ _ named | applyPendingBurn _ _ named =>
    cases quiet.symm.trans named
  | _ => cases same

/-- **A step that changes neither.** -/
theorem Step.supply_aside {event : Event} {supply : ElGamalCiphertext} {decryptable : AeCiphertext}
    (step : Step L event L') (keep : ¬ event.ChangesSupply m)
    (init : (L m).owner = programId ∧ CarriesExtension .confidentialMintBurn
      (fun e : ConfidentialMintBurn => e.confidentialSupply = supply ∧ e.decryptableSupply = decryptable)
      (L m).data) :
    (L' m).owner = programId ∧ CarriesExtension .confidentialMintBurn
      (fun e : ConfidentialMintBurn => e.confidentialSupply = supply ∧ e.decryptableSupply = decryptable)
      (L' m).data := by
  by_cases sets : ∃ i, event = .invoke i ∧ i.instruction.setsSupply = true
  · obtain ⟨i, rfl, named⟩ := sets
    cases step with
    | invoke ok =>
      obtain ⟨k, e, e', target, sets⟩ := run_setsSupply named ok
      have ne : m ≠ k := by
        rintro rfl
        exact keep (.inl ⟨i, rfl, target⟩)
      rw [sets.elsewhere ne init.2]
      exact init
  · refine step.carriesExtension (by decide) (fun closes => keep (.inr (.inr closes)))
      (fun stages => keep (.inr (.inl stages))) ?_ init
    rintro i validated mint e e' rfl update ⟨supplied, decrypted⟩
    have quiet : i.instruction.setsSupply = false := by
      rw [← Bool.not_eq_true]
      exact fun named => sets ⟨i, rfl, named⟩
    obtain ⟨sameSupply, sameDecryptable⟩ := update.supply_same quiet rfl
    exact ⟨sameSupply.trans supplied, sameDecryptable.trans decrypted⟩

/-! ### The session -/

/-- What the client has read and not yet used, with the burns that were applied since. -/
structure SupplyRead where
  extension : ConfidentialMintBurn
  burned : ℕ

/-- **A session of the client of a mint**, from the preparation of the extension on: the burns that
were applied since the supply was read from which the decryptable one was computed, and the last
read. The authority mints, and updates the decryptable supply, as the client computes it. -/
inductive SupplySession (aesKey : AeKey) (m : Address) : Ledger → ℕ → Option SupplyRead → Prop
  | prepare {L : Ledger} {i : Invocation} {outcome : Outcome} {supplyElgamalPubkey : ElGamalPubkey}
      {nonce : ℕ} (reachable : Reachable L)
      (named : i.instruction = .confidentialMintBurnExtension
        (.initializeMint supplyElgamalPubkey (aesKey.encrypt nonce 0)))
      (target : i.key? 0 = some m) (ok : i.run L = .ok outcome) :
      SupplySession aesKey m outcome.ledger 0 none
  | read {L : Ledger} {n : ℕ} {last : Option SupplyRead} {e : ConfidentialMintBurn}
      (session : SupplySession aesKey m L n last)
      (found : L.mintExtension? m .confidentialMintBurn = some e) :
      SupplySession aesKey m L n (some ⟨e, 0⟩)
  /-- Anybody's step: burns, rotations of the key, and all that other mints do. -/
  | aside {L L' : Ledger} {n : ℕ} {last : Option SupplyRead} {event : Event}
      (session : SupplySession aesKey m L n last) (step : Step L event L')
      (keep : ¬ event.ChangesSupply m) : SupplySession aesKey m L' n last
  | applyBurns {L : Ledger} {n : ℕ} {last : Option SupplyRead} {e : ConfidentialMintBurn}
      {i : Invocation} {outcome : Outcome} (session : SupplySession aesKey m L n last)
      (named : i.instruction = .confidentialMintBurnExtension .applyPendingBurn)
      (target : i.key? 0 = some m) (found : L.mintExtension? m .confidentialMintBurn = some e)
      (ok : i.run L = .ok outcome) :
      SupplySession aesKey m outcome.ledger (n + e.pendingBurn.val)
        (last.map fun read => { read with burned := read.burned + e.pendingBurn.val })
  | mint {L : Ledger} {n : ℕ} {read : SupplyRead} {i : Invocation} {outcome : Outcome}
      {data : MintInstructionData} {amount nonce : ℕ}
      (session : SupplySession aesKey m L n (some read))
      (named : i.instruction = .confidentialMintBurnExtension (.mint data))
      (target : i.key? 1 = some m)
      (computed : (SupplyAccountInfo.new read.extension).newDecryptableSupply amount aesKey nonce =
        .ok data.newDecryptableSupply)
      (ok : i.run L = .ok outcome)
      (minted : ∀ before after, L.mintExtension? m .confidentialMintBurn = some before →
        outcome.ledger.mintExtension? m .confidentialMintBurn = some after →
        after.confidentialSupply = before.confidentialSupply + amount) :
      SupplySession aesKey m outcome.ledger read.burned none
  | update {L : Ledger} {n : ℕ} {read : SupplyRead} {i : Invocation} {outcome : Outcome}
      {supply nonce : ℕ} (session : SupplySession aesKey m L n (some read))
      (named : i.instruction = .confidentialMintBurnExtension
        (.updateDecryptableSupply (aesKey.encrypt nonce supply)))
      (target : i.key? 0 = some m)
      (computed : (SupplyAccountInfo.new read.extension).decryptedCurrentSupply aesKey = .ok supply)
      (ok : i.run L = .ok outcome) : SupplySession aesKey m outcome.ledger read.burned none

theorem SupplySession.reachable {n : ℕ} {last : Option SupplyRead}
    (session : SupplySession aesKey m L n last) : Reachable L := by
  induction session with
  | prepare reachable _ _ ok => exact reachable.step (.invoke ok)
  | read _ _ ih => exact ih
  | aside _ step _ ih => exact ih.step step
  | applyBurns _ _ _ _ ok ih => exact ih.step (.invoke ok)
  | mint _ _ _ _ ok _ ih => exact ih.step (.invoke ok)
  | update _ _ _ _ ok ih => exact ih.step (.invoke ok)

/-! ### How far behind -/

/-- **What the authority decrypts is behind the supply** by the burns of that many tokens. -/
structure Behind (aesKey : AeKey) (n : ℕ) (e : ConfidentialMintBurn) : Prop where
  decrypts : aesKey.decrypt e.decryptableSupply = some (e.confidentialSupply.val + n)
  small : e.confidentialSupply.val + n < 2 ^ 64

/-- **What was read is behind by what was burned since.** -/
structure SupplyRead.Fits (aesKey : AeKey) (e : ConfidentialMintBurn) (read : SupplyRead) : Prop where
  behind : ∃ n, Behind aesKey n read.extension
  supply : read.extension.confidentialSupply.val = e.confidentialSupply.val + read.burned

/-- What the client computes from an extension that is behind. -/
theorem Behind.computed {n supply : ℕ} (behind : Behind aesKey n e)
    (computed : (SupplyAccountInfo.new e).decryptedCurrentSupply aesKey = .ok supply) :
    supply = e.confidentialSupply.val := by
  rw [SupplyAccountInfo.decryptedCurrentSupply_eq behind.decrypts behind.small] at computed
  split at computed
  · exact (Except.ok.inj computed).symm
  · cases computed

/-- The same two values. -/
theorem Behind.of_same {n : ℕ} (behind : Behind aesKey n e)
    (supply : e'.confidentialSupply = e.confidentialSupply)
    (decryptable : e'.decryptableSupply = e.decryptableSupply) : Behind aesKey n e' := by
  obtain ⟨decrypts, small⟩ := behind
  constructor
  · rw [supply, decryptable]
    exact decrypts
  · rw [supply]
    exact small

/-- **The burns of a mint are covered by its supply**, in every reachable ledger. -/
theorem pendingBurn_le {mint : MintState} (reachable : Reachable L) (held : L.mint? m = some mint)
    (burns : mint.get .confidentialMintBurn = some e) :
    e.pendingBurn.val ≤ e.confidentialSupply.val := by
  have slot := Ledger.slot_of_mint? held
  have counts : mint.issuance.mintBurn = some e.encryptedSupply := by
    rw [StateWithExtensions.mintBurn_issuance, burns]
    rfl
  have notNative : m ≠ nativeMintId := by
    rintro rfl
    cases ((wellFormed_reachable reachable).nativeTerms slot).mintBurn.symm.trans counts
  have balanced := (conserved_reachable reachable notNative).balanced
  rw [slot] at balanced
  have issued : (Slot.issue mint.issuance).issued = e.confidentialSupply.val :=
    Issuance.issued_of_mintBurn counts
  have due : e.pendingBurn.val ≤ (Slot.issue mint.issuance).due := by
    show e.pendingBurn.val ≤ mint.issuance.retained + (mint.issuance.mintBurn.getD 0).pendingBurn.val
    rw [counts]
    exact Nat.le_add_left _ _
  omega

/-! ### The steps of a session -/

/-- The value that is carried. -/
theorem CarriesExtension.value {data : AccountData}
    (carries : CarriesExtension .confidentialMintBurn P data) :
    ∃ e, P e ∧ CarriesExtension .confidentialMintBurn (· = e) data := by
  cases carries with
  | staged len ofMint held holds => exact ⟨_, holds, .staged len ofMint held rfl⟩
  | opened held holds => exact ⟨_, holds, .opened held rfl⟩

theorem CarriesExtension.weaken {data : AccountData}
    (carries : CarriesExtension .confidentialMintBurn P data) (weaker : ∀ e, P e → Q e) :
    CarriesExtension .confidentialMintBurn Q data := by
  cases carries with
  | staged len ofMint held holds => exact .staged len ofMint held (weaker _ holds)
  | opened held holds => exact .opened held (weaker _ holds)

/-- The value that is found is the one that is carried. -/
theorem CarriesExtension.found (carries : CarriesExtension .confidentialMintBurn P (L m).data)
    (found : L.mintExtension? m .confidentialMintBurn = some e) : P e := by
  obtain ⟨e', found', holds⟩ := carries.extension
  obtain rfl := Option.some.inj (found.symm.trans found')
  exact holds

/-- What holds of the mint in a session. -/
def Ledger.FollowsSupply (L : Ledger) (aesKey : AeKey) (m : Address) (n : ℕ)
    (last : Option SupplyRead) : Prop :=
  (L m).owner = programId ∧ CarriesExtension .confidentialMintBurn
    (fun e => Behind aesKey n e ∧ ∀ read ∈ last, read.Fits aesKey e) (L m).data

/-- The application of the pending burns leaves the decryptable supply behind. -/
theorem Behind.applied {n : ℕ} (behind : Behind aesKey n e)
    (covered : e.pendingBurn.val ≤ e.confidentialSupply.val) :
    Behind aesKey (n + e.pendingBurn.val)
      { e with confidentialSupply := e.confidentialSupply - e.pendingBurn, pendingBurn := 0 } ∧
    (e.confidentialSupply - e.pendingBurn).val + e.pendingBurn.val = e.confidentialSupply.val := by
  have less : (e.confidentialSupply - e.pendingBurn).val =
      e.confidentialSupply.val - e.pendingBurn.val := ZMod.val_sub covered
  obtain ⟨decrypts, small⟩ := behind
  have total : e.confidentialSupply.val - e.pendingBurn.val + (n + e.pendingBurn.val) =
      e.confidentialSupply.val + n := by omega
  refine ⟨⟨?_, ?_⟩, ?_⟩
  · rw [less, total]
    exact decrypts
  · rw [less, total]
    exact small
  · omega

/-- **A mint from what was read** is behind by the burns since. -/
theorem Behind.minted {read : SupplyRead} {amount nonce : ℕ} (fits : read.Fits aesKey e)
    (computed : (SupplyAccountInfo.new read.extension).newDecryptableSupply amount aesKey nonce =
      .ok e'.decryptableSupply)
    (minted : e'.confidentialSupply = e.confidentialSupply + amount) :
    Behind aesKey read.burned e' := by
  obtain ⟨⟨n, behind⟩, supply⟩ := fits
  obtain ⟨current, known, small, brought⟩ :=
    SupplyAccountInfo.newDecryptableSupply_eq_ok_iff.mp computed
  obtain rfl := behind.computed known
  have value : e'.confidentialSupply.val = e.confidentialSupply.val + amount := by
    rw [minted]
    have exact : e.confidentialSupply + amount = ((e.confidentialSupply.val + amount : ℕ) : Scalar) := by
      rw [Nat.cast_add, ZMod.natCast_zmod_val]
    rw [exact]
    exact val_natCast_of_lt ((by omega : _ < 2 ^ 64).trans u64_lt_groupOrder)
  constructor
  · rw [brought, aesKey.decrypt_encrypt small, value, supply]
    exact congrArg some (by omega)
  · omega

/-- **An update from what was read** is behind by the burns since. -/
theorem Behind.updated {read : SupplyRead} {supply nonce : ℕ} (fits : read.Fits aesKey e)
    (computed : (SupplyAccountInfo.new read.extension).decryptedCurrentSupply aesKey = .ok supply) :
    Behind aesKey read.burned { e with decryptableSupply := aesKey.encrypt nonce supply } := by
  obtain ⟨⟨n, behind⟩, since⟩ := fits
  obtain rfl := behind.computed computed
  have small := behind.small
  constructor
  · exact (aesKey.decrypt_encrypt (by omega)).trans (congrArg some since)
  · show e.confidentialSupply.val + read.burned < 2 ^ 64
    omega

/-- **In every state of a session** the decryptable supply is behind by the burns that were applied. -/
theorem SupplySession.follows {n : ℕ} {last : Option SupplyRead}
    (session : SupplySession aesKey m L n last) : L.FollowsSupply aesKey m n last := by
  induction session with
  | @prepare L i outcome pubkey nonce reachable named target ok =>
    rw [Invocation.run, named] at ok
    refine initializeMintExtension_starts target (fun e given => ?_) ok
    obtain rfl := Except.ok.inj given
    have zero : (0 : Scalar).val + 0 = 0 := (Nat.add_zero _).trans ZMod.val_zero
    refine ⟨⟨?_, ?_⟩, fun read member => absurd member (Option.not_mem_none read)⟩
    · exact (aesKey.decrypt_encrypt (Nat.two_pow_pos 64)).trans (congrArg some zero.symm)
    · exact zero.trans_lt (Nat.two_pow_pos 64)
  | @read L n last e session found ih =>
    obtain ⟨owned, carries⟩ := ih
    obtain ⟨e', ⟨behind, -⟩, value⟩ := carries.value
    obtain rfl : e = e' := value.found found
    refine ⟨owned, value.weaken ?_⟩
    rintro _ rfl
    refine ⟨behind, fun read same => ?_⟩
    obtain rfl := Option.some.inj same
    exact ⟨⟨n, behind⟩, rfl⟩
  | @aside L L' n last event session step keep ih =>
    obtain ⟨owned, carries⟩ := ih
    obtain ⟨e, ⟨behind, fits⟩, value⟩ := carries.value
    obtain ⟨owned', carries'⟩ := step.supply_aside keep ⟨owned, value.weaken (by
      rintro _ rfl
      exact ⟨rfl, rfl⟩)⟩
    refine ⟨owned', carries'.weaken ?_⟩
    rintro e' ⟨supply, decryptable⟩
    refine ⟨behind.of_same supply decryptable, fun read member => ?_⟩
    obtain ⟨earlier, since⟩ := fits read member
    exact ⟨earlier, supply ▸ since⟩
  | @applyBurns L n last e i outcome session named target found ok ih =>
    rw [Invocation.run, named] at ok
    obtain ⟨k, e', target', sets⟩ := processApplyPendingBurn_sets ok
    obtain rfl := Option.some.inj (target.symm.trans target')
    obtain ⟨owned, ⟨mint, data, held⟩, -⟩ := sets.there
    have reachable := session.reachable
    refine sets.moves ih.2 ?_
    rintro ⟨behind, fits⟩
    obtain rfl : e' = e := by
      have found' : L.mintExtension? m .confidentialMintBurn = some e' := by
        simp only [Ledger.mintExtension?, data, held]
      exact Option.some.inj (found'.symm.trans found)
    have covered := pendingBurn_le reachable (Ledger.mint?_eq_some_iff.mpr ⟨owned, data⟩) held
    obtain ⟨later, less⟩ := behind.applied covered
    refine ⟨later, fun read member => ?_⟩
    obtain ⟨before, known, rfl⟩ := Option.map_eq_some_iff.mp member
    obtain ⟨earlier, since⟩ := fits before known
    refine ⟨earlier, ?_⟩
    show before.extension.confidentialSupply.val =
      (e'.confidentialSupply - e'.pendingBurn).val + (before.burned + e'.pendingBurn.val)
    omega
  | @mint L n read i outcome data amount nonce session named target computed ok minted ih =>
    rw [Invocation.run, named] at ok
    obtain ⟨k, e, added, target', sets⟩ := processConfidentialMint_sets ok
    obtain rfl := Option.some.inj (target.symm.trans target')
    obtain ⟨owned, ⟨mint, stored, held⟩, owned', mint', stored', held'⟩ := sets.there
    refine sets.moves ih.2 ?_
    rintro ⟨behind, fits⟩
    refine ⟨Behind.minted (fits read rfl) computed (minted e _ ?_ ?_),
      fun read member => absurd member (Option.not_mem_none read)⟩
    · simp only [Ledger.mintExtension?, stored, held]
    · simp only [Ledger.mintExtension?, stored', held']
  | @update L n read i outcome supply nonce session named target computed ok ih =>
    rw [Invocation.run, named] at ok
    obtain ⟨k, e, target', sets⟩ := processUpdateDecryptableSupply_sets ok
    obtain rfl := Option.some.inj (target.symm.trans target')
    refine sets.moves ih.2 ?_
    rintro ⟨behind, fits⟩
    exact ⟨Behind.updated (fits read rfl) computed,
      fun read member => absurd member (Option.not_mem_none read)⟩

/-- A run of steps that change neither. -/
theorem SupplySession.asides {n : ℕ} {last : Option SupplyRead} {events : List Event}
    (session : SupplySession aesKey m L n last) (run : Runs L events L')
    (keep : ∀ event ∈ events, ¬ event.ChangesSupply m) : SupplySession aesKey m L' n last := by
  induction run with
  | start => exact session
  | @step events event _ _ _ one ih =>
    have earlier := ih fun event member => keep event (by simp [member])
    exact earlier.aside one (keep event (by simp))

/-- **The client shows the supply, or nothing.** In every state of a session, whatever was burned, by
whom, and whatever else happened, the client finds the supply where the burns that were applied since
it computed last are of 32 bits, and fails where they are not. -/
theorem supply_client_exact {n : ℕ} {last : Option SupplyRead}
    (session : SupplySession aesKey m L n last) :
    ∃ e, L.mintExtension? m .confidentialMintBurn = some e ∧
      (SupplyAccountInfo.new e).decryptedCurrentSupply aesKey =
        if n < 2 ^ 32 then .ok e.confidentialSupply.val
        else .error (.error TokenError.accountDecryption) := by
  obtain ⟨e, found, behind, -⟩ := session.follows.2.extension
  exact ⟨e, found, SupplyAccountInfo.decryptedCurrentSupply_eq behind.decrypts behind.small⟩

section Examples

open Basic AccountMeta

instance (event : Event) (m : Address) : Decidable (event.ChangesSupply m) :=
  inferInstanceAs (Decidable ((∃ _, _ ∧ _) ∨ (∃ _, _ ∧ _) ∨ ∃ _, _ ∧ _))

/-- What is minted, what is burned of it, and what is left. -/
def mintedAmount : ℕ := 10
def burnedAmount : ℕ := 4
def keptAmount : ℕ := mintedAmount - burnedAmount

/-- What the transactions prove, with one key for all: a public key, the mint, and the burn. -/
def supplyProofs : ℤ → Option VerifiedContext
  | 1 => some (.pubkeyValidity ⟨⟨7⟩⟩)
  | 2 => some (.ciphertextCommitmentEquality ⟨⟨7⟩, mintedAmount, mintedAmount, rfl⟩)
  | 3 => some (.batchedGroupedCiphertext3HandlesValidity
      ⟨⟨7⟩, ⟨7⟩, 0, ⟨mintedAmount, mintedAmount, mintedAmount, mintedAmount⟩, ⟨0, 0, 0, 0⟩,
        by decide⟩)
  | 4 => some (.batchedRangeProofU128
      ⟨![mintedAmount, mintedAmount, 0, 0, 0, 0, 0, 0], ![64, 16, 32, 16, 0, 0, 0, 0], by decide⟩)
  | 5 => some (.ciphertextCommitmentEquality ⟨⟨7⟩, keptAmount, keptAmount, rfl⟩)
  | 6 => some (.batchedGroupedCiphertext3HandlesValidity
      ⟨⟨7⟩, ⟨7⟩, 0, ⟨burnedAmount, burnedAmount, burnedAmount, burnedAmount⟩, ⟨0, 0, 0, 0⟩,
        by decide⟩)
  | 7 => some (.batchedRangeProofU128
      ⟨![keptAmount, burnedAmount, 0, 0, 0, 0, 0, 0], ![64, 16, 32, 16, 0, 0, 0, 0], by decide⟩)
  | _ => none

/-- An instruction in a transaction with these proofs. -/
def supplied (instruction : TokenInstruction) (accounts : List AccountMeta) : Invocation :=
  { env := { Env.basic with proofInstruction := supplyProofs }, accounts, instruction }

/-- The preparation of the extension. -/
def prepareSupply : Invocation :=
  supplied (.confidentialMintBurnExtension (.initializeMint ⟨7⟩ (AeKey.basic.encrypt 0 0))) [plain mint]

/-- The mint is opened, and an account of it is configured. -/
def supplyTurns : List Turn := [
  .allocate source 465,
  .basic (.confidentialTransferExtension (.initializeMint ⟨Basic.owner⟩ true .none)) [plain mint],
  .basic (.initializeMint2 0 Basic.owner none) [plain mint],
  .basic (.initializeAccount3 Basic.owner) [plain source, plain mint],
  .invoke (supplied (.confidentialTransferExtension
      (.configureAccount (AeKey.basic.encrypt 0 0) 10 1))
    [plain source, plain mint, plain instructionsSysvarId, signer Basic.owner])]

/-- The tokens are minted. -/
def mintSupply : Invocation :=
  supplied (.confidentialMintBurnExtension
      (.mint ⟨AeKey.basic.encrypt 0 mintedAmount, mintedAmount, 0, 2, 3, 4⟩))
    [plain source, plain mint, plain instructionsSysvarId, signer Basic.owner]

/-- They are applied, and some of them are burned. -/
def burningTurns : List Turn := [
  .basic (.confidentialTransferExtension (.applyPendingBalance 1
      (AeKey.basic.encrypt 0 mintedAmount))) [plain source, signer Basic.owner],
  .invoke (supplied (.confidentialMintBurnExtension
      (.burn ⟨AeKey.basic.encrypt 0 keptAmount, burnedAmount, 0, 5, 6, 7⟩))
    [plain source, plain mint, plain instructionsSysvarId, signer Basic.owner])]

/-- The burn is applied. -/
def applyBurn : Invocation :=
  .basic (.confidentialMintBurnExtension .applyPendingBurn) [plain mint, signer Basic.owner]

/-- The extension as it is read, after the mint, before the burn is applied, and in the end. -/
def SupplyReads (first second third last : Option ConfidentialMintBurn) : Prop :=
  (∃ e ∈ first, e.confidentialSupply = 0 ∧ (SupplyAccountInfo.new e).newDecryptableSupply
    mintedAmount AeKey.basic 0 = .ok (AeKey.basic.encrypt 0 mintedAmount)) ∧
  (∃ e ∈ second, e.confidentialSupply = mintedAmount) ∧
  (∃ e ∈ third, e.pendingBurn = burnedAmount) ∧ ∃ e ∈ last, e.confidentialSupply = keptAmount

instance (first second third last : Option ConfidentialMintBurn) :
    Decidable (SupplyReads first second third last) :=
  inferInstanceAs (Decidable ((∃ _ ∈ first, _ ∧ _) ∧ (∃ _ ∈ second, _) ∧ (∃ _ ∈ third, _) ∧
    ∃ _ ∈ last, _))

/-- 10 tokens are minted and 4 of them burned: the client shows 6. -/
theorem supply_client_exact_burned : ∃ (L₀ L₁ L₂ : Ledger) (prepared minted applied : Outcome)
    (e : ConfidentialMintBurn), runAll .fresh [.allocate mint 435] = .ok L₀ ∧
      prepareSupply.run L₀ = .ok prepared ∧ runAll prepared.ledger supplyTurns = .ok L₁ ∧
      mintSupply.run L₁ = .ok minted ∧ runAll minted.ledger burningTurns = .ok L₂ ∧
      applyBurn.run L₂ = .ok applied ∧
      applied.ledger.mintExtension? mint .confidentialMintBurn = some e ∧
      (SupplyAccountInfo.new e).decryptedCurrentSupply AeKey.basic = .ok 6 := by
  have leads : LeadsTo (runAll .fresh [.allocate mint 435]) fun L₀ =>
      LeadsTo (prepareSupply.run L₀) fun prepared =>
      LeadsTo (runAll prepared.ledger supplyTurns) fun L₁ =>
      LeadsTo (mintSupply.run L₁) fun minted =>
      LeadsTo (runAll minted.ledger burningTurns) fun L₂ =>
      LeadsTo (applyBurn.run L₂) fun applied =>
        SupplyReads (L₁.mintExtension? mint .confidentialMintBurn)
          (minted.ledger.mintExtension? mint .confidentialMintBurn)
          (L₂.mintExtension? mint .confidentialMintBurn)
          (applied.ledger.mintExtension? mint .confidentialMintBurn) := by decide +kernel
  obtain ⟨L₀, allocated, leads⟩ := leads.exists
  obtain ⟨prepared, prepares, leads⟩ := leads.exists
  obtain ⟨L₁, opened, leads⟩ := leads.exists
  obtain ⟨minted, mints, leads⟩ := leads.exists
  obtain ⟨L₂, burned, leads⟩ := leads.exists
  obtain ⟨applied, applies, ⟨e₁, found₁, zero, computed⟩, ⟨e₂, found₂, ten⟩, ⟨e₃, found₃, four⟩,
    ⟨e₄, found₄, six⟩⟩ := leads.exists
  have first : SupplySession AeKey.basic mint prepared.ledger 0 none :=
    .prepare (.of_runAll .fresh allocated) rfl rfl prepares
  have second : SupplySession AeKey.basic mint L₁ 0 none :=
    first.asides (runs_of_runAll opened) (by decide)
  have third : SupplySession AeKey.basic mint minted.ledger 0 none := by
    refine (second.read found₁).mint (i := mintSupply) rfl rfl computed mints ?_
    intro before after found found'
    obtain rfl := Option.some.inj (found.symm.trans found₁)
    obtain rfl := Option.some.inj (found'.symm.trans found₂)
    rw [zero, ten]
    decide
  have fourth : SupplySession AeKey.basic mint L₂ 0 none :=
    third.asides (runs_of_runAll burned) (by decide)
  obtain ⟨e, found, shown⟩ := supply_client_exact
    (fourth.applyBurns (i := applyBurn) rfl rfl found₃ applies)
  obtain rfl := Option.some.inj (found.symm.trans found₄)
  have near : 0 + e₃.pendingBurn.val < 2 ^ 32 := by
    rw [four]
    decide
  rw [if_pos near, six] at shown
  exact ⟨L₀, L₁, L₂, prepared, minted, applied, e, allocated, prepares, opened, mints, burned, applies,
    found, shown⟩

end Examples

end Token2022
