/-
**Multisigs: m of n keys, and whether they can sign.**

* `validateOwner_eq` — what `validate_owner` checks of a multisig: every listed account of one of its
  keys has signed, and `m` of its positions are listed.
* **`multisig_threshold`** — hence only the set of the listed accounts of its keys matters.
* `PodMultisig.StoredAs` — the 355 bytes that the readers see as a multisig.
* `UsableMultisig` — bounds, keys, the bytes' round trip, and signatures that are enough.
* **`multisig_usable_iff`** — an initialized multisig is usable iff `m` is not above the number of its
  keys: the program checks each against the limits and not one against the other.
-/

import Token2022.Abstract.Book
import Token2022.Environment
import Token2022.Interface.Agreement
import Token2022.Lib.Threshold

namespace Token2022

open Fallible Threshold

/-! ### The threshold -/

/-- Listed accounts of one key have one flag: those of a transaction do. -/
def SameFlags (infos : List AccountMeta) : Prop :=
  ∀ a ∈ infos, ∀ b ∈ infos, a.key = b.key → a.isSigner = b.isSigner

section Multisig

variable {L : Ledger} {owner : AccountMeta} {multisig : PodMultisig}

/-- The data and the owner of a multisig account. -/
def Ledger.HoldsMultisig (L : Ledger) (a : Address) (multisig : PodMultisig) : Prop :=
  ((L a).owner = programId ∨ (L a).owner = inlineSplTokenId) ∧ (L a).data = .multisig multisig

/-- **What `validate_owner` checks of a multisig.** -/
theorem validateOwner_eq (held : L.HoldsMultisig owner.key multisig) {signers : List AccountMeta}
    (agree : ∀ a ∈ signers, ∀ b ∈ signers, a.key ∈ multisig.signers → a.key = b.key →
      a.isSigner = b.isSigner) :
    validateOwner L owner.key owner signers =
      require ((∀ info ∈ signers, info.key ∈ multisig.signers → info.isSigner = true) ∧
        multisig.m ≤ named multisig.signers (signers.map AccountMeta.key))
        .missingRequiredSignature := by
  have accepted : ((L owner.key).owner = programId ∨ (L owner.key).owner = inlineSplTokenId) ∧
      (L owner.key).data.len = multisigLen := ⟨held.1, by rw [held.2]; rfl⟩
  have counted := foldlM_visit ProgramError.missingRequiredSignature multisig.signers
    AccountMeta.key AccountMeta.isSigner signers agree
  have opened : validateOwner L owner.key owner signers =
      ((signers.foldlM (countSigner multisig.signers) (0, fun _ => false)).map Prod.fst >>=
        fun count => require (multisig.m ≤ count) .missingRequiredSignature) := by
    unfold validateOwner
    simp only [accepted, held.2]
    cases signers.foldlM (countSigner multisig.signers) (0, fun _ => false) <;> rfl
  rw [opened]
  refine (congrArg (· >>= _) counted).trans ?_
  by_cases signed : ∀ info ∈ signers, info.key ∈ multisig.signers → info.isSigner = true
  · simp only [require, eq_true signed, true_and]
    rfl
  · simp only [require, eq_false signed, false_and, if_false]
    rfl

/-- **A multisig is an m-of-n threshold.** Its validation succeeds iff every listed account of one of
its keys has signed, and `m` of its positions are listed; so only the set of the listed accounts of
its keys matters, not their order or number, nor what else is listed. -/
theorem multisig_threshold (held : L.HoldsMultisig owner.key multisig) {signers : List AccountMeta}
    (agree : SameFlags signers) :
    (validateOwner L owner.key owner signers = .ok () ↔
      (∀ info ∈ signers, info.key ∈ multisig.signers → info.isSigner = true) ∧
        multisig.m ≤ (List.range multisig.signers.length).countP fun position =>
          ∃ info ∈ signers, multisig.signers[position]? = some info.key) ∧
    ∀ signers' : List AccountMeta,
      (∀ info, info.key ∈ multisig.signers → (info ∈ signers' ↔ info ∈ signers)) →
        validateOwner L owner.key owner signers' = validateOwner L owner.key owner signers := by
  constructor
  · rw [validateOwner_eq held fun a mem b mem' _ => agree a mem b mem', require_eq_ok_iff,
      named_eq_positions]
    simp only [List.mem_map, exists_exists_and_eq_and]
  · intro signers' same
    have agree' : ∀ a ∈ signers', ∀ b ∈ signers', a.key ∈ multisig.signers → a.key = b.key →
        a.isSigner = b.isSigner := fun a mem b mem' counts equal =>
      agree a ((same a counts).mp mem) b ((same b (equal ▸ counts)).mp mem') equal
    have flags : (∀ info ∈ signers', info.key ∈ multisig.signers → info.isSigner = true) ↔
        ∀ info ∈ signers, info.key ∈ multisig.signers → info.isSigner = true :=
      ⟨fun all info mem counts => all info ((same info counts).mpr mem) counts,
        fun all info mem counts => all info ((same info counts).mp mem) counts⟩
    have count : named multisig.signers (signers'.map AccountMeta.key) =
        named multisig.signers (signers.map AccountMeta.key) := by
      refine named_congr fun key member => ?_
      simp only [List.mem_map]
      constructor
      · rintro ⟨info, mem, rfl⟩
        exact ⟨info, (same info member).mp mem, rfl⟩
      · rintro ⟨info, mem, rfl⟩
        exact ⟨info, (same info member).mpr mem, rfl⟩
    rw [validateOwner_eq held agree', validateOwner_eq held fun a mem b mem' _ => agree a mem b mem']
    simp only [flags, count]

/-- More signatures than there are keys are never reached: nothing that the multisig owns can be
moved again. -/
theorem validateOwner_locked (held : L.HoldsMultisig owner.key multisig)
    (few : multisig.signers.length < multisig.m) {signers : List AccountMeta}
    (agree : SameFlags signers) : validateOwner L owner.key owner signers ≠ .ok () := by
  rw [validateOwner_eq held fun a mem b mem' _ => agree a mem b mem', Ne, require_eq_ok_iff]
  rintro ⟨-, enough⟩
  have := named_le multisig.signers (signers.map AccountMeta.key)
  omega

/-- Accounts of these keys, all of which sign. -/
theorem isSigner_of_mem_signers {keys : List Address} {info : AccountMeta}
    (member : info ∈ keys.map AccountMeta.signer) : info.isSigner = true := by
  obtain ⟨key, -, rfl⟩ := List.mem_map.mp member
  rfl

/-- The signatures of all its keys are enough, where `m` is not above their number. -/
theorem validateOwner_all {a : Address} (held : L.HoldsMultisig a multisig)
    (reach : multisig.m ≤ multisig.signers.length) :
    validateOwner L a (AccountMeta.plain a) (multisig.signers.map AccountMeta.signer) = .ok () := by
  have keys : (multisig.signers.map AccountMeta.signer).map AccountMeta.key = multisig.signers := by
    rw [List.map_map]
    exact List.map_id _
  have agree : ∀ b ∈ multisig.signers.map AccountMeta.signer,
      ∀ c ∈ multisig.signers.map AccountMeta.signer, b.key ∈ multisig.signers → b.key = c.key →
        b.isSigner = c.isSigner := fun b mem c mem' _ _ =>
    (isSigner_of_mem_signers mem).trans (isSigner_of_mem_signers mem').symm
  have checked := validateOwner_eq (show L.HoldsMultisig (AccountMeta.plain a).key multisig from held)
    agree
  refine checked.trans (require_eq_ok_iff.mpr ⟨fun info mem _ => isSigner_of_mem_signers mem, ?_⟩)
  rw [keys, named_self]
  exact reach

end Multisig

section Example

open Basic AccountMeta

/-- A multisig of two out of three keys. -/
def Basic.multisigLedger : Ledger := Function.update Ledger.fresh mint
  { lamports := 10 ^ 9, owner := programId, data := .multisig ⟨2, [source, owner, other]⟩ }

/-- Two of the keys sign; one is listed twice, and so is an account that has nothing to do with it. -/
theorem multisig_threshold_two :
    validateOwner multisigLedger mint (plain mint)
      [signer owner, plain destination, signer other, signer owner] = .ok () ∧
    validateOwner multisigLedger mint (plain mint) [signer other, signer owner] = .ok () := by
  have held : multisigLedger.HoldsMultisig (plain mint).key ⟨2, [source, owner, other]⟩ :=
    ⟨.inl rfl, rfl⟩
  have agree : SameFlags [signer owner, plain destination, signer other, signer owner] := by
    unfold SameFlags
    decide
  obtain ⟨threshold, same⟩ := multisig_threshold held agree
  have signed := threshold.mpr (by decide)
  refine ⟨signed, (same [signer other, signer owner] fun info counts => ?_).trans signed⟩
  have related : info ≠ plain destination := by
    rintro rfl
    revert counts
    decide
  simp only [List.mem_cons, List.not_mem_nil]
  tauto

end Example

/-! ### The bytes -/

/-- The data of an account in which the readers see a multisig: its Pod has these fields, and the
keys that count are in front. The rest of the keys may be anything. -/
structure PodMultisig.StoredAs (multisig : PodMultisig) (bytes : List UInt8) : Prop where
  length : bytes.length = multisigLen
  m : (Interface.PodMultisig.ofBytes bytes).m.toNat = multisig.m
  n : (Interface.PodMultisig.ofBytes bytes).n.toNat = multisig.signers.length
  initialized : (Interface.PodMultisig.ofBytes bytes).isInitialized = 1
  signers : (Interface.PodMultisig.ofBytes bytes).signers.take multisig.signers.length =
    multisig.signers

/-- The fields that `_process_initialize_multisig` leaves, with the keys that were there behind. -/
def PodMultisig.fields (multisig : PodMultisig) (rest : List Address) : Interface.Multisig where
  m := .ofNat multisig.m
  n := .ofNat multisig.signers.length
  isInitialized := true
  signers := multisig.signers ++ rest

/-- Their bytes. -/
def PodMultisig.bytes (multisig : PodMultisig) (rest : List Address) : List UInt8 :=
  (multisig.fields rest).packIntoSlice

/-- **A multisig survives the round trip**: `Multisig::unpack` reads the fields of the Pod, packs them
to the same bytes, and reads these again. -/
def PodMultisig.RoundTrips (crates : Interface.Crates) (multisig : PodMultisig) : Prop :=
  ∀ bytes, multisig.StoredAs bytes → ∃ read : Interface.Multisig,
    crates.unpack multisigLen Interface.Multisig.unpackFromSlice
        Interface.Multisig.isInitialized bytes = .ok read ∧
      read.m.toNat = multisig.m ∧ read.n.toNat = multisig.signers.length ∧
      read.signers.take read.n.toNat = multisig.signers ∧
      read.packIntoSlice = bytes

theorem PodMultisig.roundTrips (crates : Interface.Crates) (multisig : PodMultisig) :
    multisig.RoundTrips crates := by
  intro bytes stored
  have flag : Interface.unpackBool (Interface.byteAt bytes 2) = .ok true :=
    Interface.unpackBool_eq_ok_iff.mpr stored.initialized
  have read : Interface.Multisig.unpackFromSlice bytes =
      .ok { m := Interface.byteAt bytes 0
            n := Interface.byteAt bytes 1
            isInitialized := true
            signers := (Interface.PodMultisig.ofBytes bytes).signers } := by
    rw [Interface.Multisig.unpackFromSlice, flag]
    rfl
  refine ⟨_, crates.unpack_eq_ok_iff.mpr ⟨stored.length, read, rfl⟩, stored.m, stored.n, ?_,
    Interface.Multisig.packIntoSlice_unpackFromSlice stored.length read⟩
  exact (congrArg (fun n => List.take n _) stored.n).trans stored.signers

/-- **The bytes of a multisig.** -/
theorem PodMultisig.storedAs_bytes {multisig : PodMultisig} (small : multisig.m ≤ maxSigners)
    {rest : List Address} (full : multisig.signers.length + rest.length = maxSigners) :
    multisig.StoredAs (multisig.bytes rest) := by
  have keys : (multisig.fields rest).signers.length = maxSigners := List.length_append.trans full
  have few : multisig.signers.length ≤ maxSigners := by omega
  have read := Interface.Multisig.unpackFromSlice_eq_ok
    (Interface.Multisig.unpackFromSlice_packIntoSlice keys)
  unfold maxSigners at small few
  refine ⟨?_, ?_, ?_, rfl, ?_⟩
  · simp only [bytes, fields, Interface.Multisig.packIntoSlice, List.length_append, List.length_singleton,
      Interface.Multisig.length_flatMap_addressBytes]
    unfold multisigLen maxSigners at *
    omega
  · show (UInt8.ofNat multisig.m).toNat = multisig.m
    rw [UInt8.toNat_ofNat']
    omega
  · show (UInt8.ofNat multisig.signers.length).toNat = multisig.signers.length
    rw [UInt8.toNat_ofNat']
    omega
  · have signers : (Interface.PodMultisig.ofBytes (multisig.bytes rest)).signers =
        multisig.signers ++ rest := read.2.2.2.symm
    rw [signers, List.take_left]

/-! ### Initialization -/

/-- **What `InitializeMultisig` is for**: a multisig of the program with the keys it was given, with
bounds, bytes and signatures to suit. -/
structure UsableMultisig (crates : Interface.Crates) (L : Ledger) (a : Address) (m : ℕ)
    (keys : List Address) : Prop where
  held : (L a).owner = programId ∧ (L a).data = .multisig { m, signers := keys }
  bounds : 1 ≤ m ∧ m ≤ keys.length ∧ keys.length ≤ maxSigners
  stored : ∀ rest, keys.length + rest.length = maxSigners →
    PodMultisig.StoredAs { m, signers := keys } (PodMultisig.bytes { m, signers := keys } rest)
  roundTrips : PodMultisig.RoundTrips crates { m, signers := keys }
  signs : keys.Nodup → ∃ signing : List AccountMeta,
    (∀ info ∈ signing, info.isSigner = true) ∧
      validateOwner L a (AccountMeta.plain a) signing = .ok ()

section Initialize

variable {env : Env} {L : Ledger} {accounts : List AccountMeta} {m : ℕ} {rentSysvarAccount : Bool}
  {outcome : Outcome}

/-- **What a successful initialization writes.** Where 257 accounts and more are listed their number
passes in a byte, but there is no room for their keys. -/
theorem processInitializeMultisigWith_eq_ok
    (ok : processInitializeMultisigWith env L accounts m rentSysvarAccount = .ok outcome) :
    ∃ info rest signerInfos, accounts = info :: rest ∧
      Env.rentSysvar rentSysvarAccount rest = .ok signerInfos ∧
      (L info.key).owner = programId ∧ (1 ≤ m ∧ m ≤ maxSigners) ∧
      signerInfos.length ≤ maxSigners ∧
      outcome.ledger = L.setData info.key
        (.multisig { m, signers := signerInfos.map AccountMeta.key }) := by
  simp only [processInitializeMultisigWith, bind_eq_ok_iff, Prod.exists,
    nextAccountInfo_eq_ok_iff, checkProgramAccount_eq_ok_iff, require_eq_ok_iff,
    exists_const] at ok
  obtain ⟨info, rest, listed, owned, signerInfos, rent, -, ok⟩ := ok
  split at ok
  · simp only [bind_eq_ok_iff, require_eq_ok_iff, exists_const] at ok
    obtain ⟨-, -, validM, few, ledger, stored, same⟩ := ok
    obtain rfl := Except.ok.inj same
    refine ⟨info, rest, signerInfos, listed, rent, owned, ?_, few,
      (Ledger.writeData_eq_ok_iff.mp stored).2⟩
    simpa [isValidSignerIndex] using validM
  · cases ok

/-- **An initialized multisig is usable iff `m` is not above the number of its keys.** -/
theorem multisig_usable_iff (crates : Interface.Crates)
    (ok : processInitializeMultisigWith env L accounts m rentSysvarAccount = .ok outcome) :
    ∃ info rest signerInfos, accounts = info :: rest ∧
      Env.rentSysvar rentSysvarAccount rest = .ok signerInfos ∧
      (UsableMultisig crates outcome.ledger info.key m (signerInfos.map AccountMeta.key) ↔
        m ≤ signerInfos.length) := by
  obtain ⟨info, rest, signerInfos, listed, rent, owned, ⟨least, most⟩, few, after⟩ :=
    processInitializeMultisigWith_eq_ok ok
  have held : (outcome.ledger info.key).owner = programId ∧ (outcome.ledger info.key).data =
      .multisig { m, signers := signerInfos.map AccountMeta.key } := by
    rw [after]
    exact ⟨(Ledger.owner_setData ..).trans owned, Ledger.data_setData_self ..⟩
  refine ⟨info, rest, signerInfos, listed, rent, ?_, fun reach => ?_⟩
  · intro usable
    simpa using usable.bounds.2.1
  · have reach' : m ≤ (signerInfos.map AccountMeta.key).length := by simpa using reach
    exact {
      held
      bounds := ⟨least, reach', by simpa using few⟩
      stored := fun rest full => PodMultisig.storedAs_bytes most full
      roundTrips := PodMultisig.roundTrips crates _
      signs := fun _ => ⟨_, fun _ => isSigner_of_mem_signers,
        validateOwner_all ⟨.inl held.1, held.2⟩ reach'⟩ }

end Initialize

section Examples

open Basic AccountMeta

/-- An account for a multisig. -/
def Basic.multisigTurns : List Turn := [.allocate mint multisigLen]

/-- Two of three keys, and any two of them sign. -/
theorem multisig_usable_iff_two : ∃ L outcome, Reachable L ∧
    processInitializeMultisigWith .basic L [plain mint, plain source, plain owner, plain other] 2
      false = .ok outcome ∧
    UsableMultisig Interface.Crates.basic outcome.ledger mint 2 [source, owner, other] := by
  have leads : LeadsTo (runAll .fresh Basic.multisigTurns) fun L =>
      LeadsTo (processInitializeMultisigWith .basic L
        [plain mint, plain source, plain owner, plain other] 2 false) fun _ => True := by
    decide +kernel
  obtain ⟨L, ran, leads⟩ := leads.exists
  obtain ⟨outcome, ok, -⟩ := leads.exists
  obtain ⟨info, rest, signerInfos, listed, rent, usable⟩ :=
    multisig_usable_iff Interface.Crates.basic ok
  obtain ⟨rfl, rfl⟩ := List.cons.inj listed
  obtain rfl := Except.ok.inj rent
  exact ⟨L, outcome, .of_runAll .fresh ran, ok, usable.mpr (by decide)⟩

/-- **A multisig that can never sign**: two signatures of one key are asked for. -/
theorem multisig_unusable : ∃ L outcome, Reachable L ∧
    processInitializeMultisigWith .basic L [plain mint, plain owner] 2 false = .ok outcome ∧
    ¬ UsableMultisig Interface.Crates.basic outcome.ledger mint 2 [owner] := by
  have leads : LeadsTo (runAll .fresh Basic.multisigTurns) fun L =>
      LeadsTo (processInitializeMultisigWith .basic L [plain mint, plain owner] 2 false)
        fun _ => True := by
    decide +kernel
  obtain ⟨L, ran, leads⟩ := leads.exists
  obtain ⟨outcome, ok, -⟩ := leads.exists
  refine ⟨L, outcome, .of_runAll .fresh ran, ok, fun usable => ?_⟩
  have reach := usable.bounds.2.1
  simp at reach

end Examples

end Token2022
