/-
**The ledger on bytes: what the readers see.**

The ledger holds data as the readers of the program tell them apart. Here the data are the bytes that
the runtime stores, and the readers are the ones that work on bytes.

* `AccountData.bytes?` — the bytes of the program's data.
* `multisigData` — what `validate_owner` makes of data.
* `ReadsAs` — every reader shows of the bytes what the ledger says, and fails with the same error.
* `readsAs_zeroed`, `readsAs_mint`, `readsAs_account`, `readsAs_multisig` — the kinds of data.
* **`bytes_read_as_ledger`** — every account of the program in every reachable ledger.
-/

import Token2022.Environment
import Token2022.Interface.Store
import Token2022.Property.Layout
import Token2022.Property.Multisig
import Token2022.Property.Reallocate

namespace Token2022

open Fallible Interface

/-! ### Bytes -/

/-- The bytes of the program's data. Behind the keys of a multisig are zeroes. -/
def AccountData.bytes? (values : ValueBytes) : AccountData → Option (List UInt8)
  | .zeroed buffer => some (zeroedData values buffer)
  | .mint state => some (mintData values state)
  | .account state => some (accountData values state)
  | .multisig state => some (state.bytes (List.replicate (maxSigners - state.signers.length) 0))
  | _ => none

/-- What `validate_owner` makes of data. -/
def multisigData : AccountData → ProgramResult PodMultisig
  | .multisig state => .ok state
  | data => .error (if data.len = multisigLen then .uninitializedAccount else .invalidArgument)

/-- **The readers show of the bytes what the ledger says of the data.** -/
structure ReadsAs (crates : Crates) (values : ValueBytes) (bytes : List UInt8) (data : AccountData) :
    Prop where
  length : bytes.length = data.len
  account : PodStateWithExtensions.unpack podAccount bytes =
    (unpackAccount data).map (accountView values)
  mint : PodStateWithExtensions.unpack (podMint crates) bytes =
    (unpackMint data).map (mintView values)
  newAccount : PodStateWithExtensionsMut.unpackUninitialized podAccount bytes =
    (unpackUninitialized .account data).map fun tlv => tlvStart .account tlv.len
  newMint : PodStateWithExtensionsMut.unpackUninitialized (podMint crates) bytes =
    (unpackUninitialized .mint data).map fun tlv => tlvStart .mint tlv.len
  multisig : (unpackPodMultisig crates bytes).map multisigView = multisigData data
  /-- The keys that count are among those that there are. -/
  keys : ∀ multisig, unpackPodMultisig crates bytes = .ok multisig →
    multisig.n.toNat ≤ multisig.signers.length
  accountExtension : ∀ st, unpackAccount data = .ok st → ∀ t, t.getAccountType = .account →
    getExtensionBytes .account t (accountView values st).tlvData =
      (st.getExtension t).map (values.write t)
  mintExtension : ∀ mint, unpackMint data = .ok mint → ∀ t, t.getAccountType = .mint →
    getExtensionBytes .mint t (mintView values mint).tlvData =
      (mint.getExtension t).map (values.write t)
  newExtension : ∀ (kind : AccountType) (tlv : TlvData kind), unpackUninitialized kind data = .ok tlv →
    kind ≠ .uninitialized → ∀ t, t.getAccountType = kind →
      getExtensionBytes kind t (bytes.drop (tlvStart kind tlv.len)) =
        (tlv.getExtension t).map (values.write t)

/-! ### What can be stored -/

theorem Buffer.Staged.storable {kind : AccountType} {b : Buffer} (staged : b.Staged kind) :
    Storable b.entries := by
  intro e member
  have listed := staged.staged e.1 (List.mem_map_of_mem member)
  refine ⟨fun none => ?_, valueLen_lt_of_sized (sized_of_staged listed) e.2⟩
  rw [none] at listed
  cases kind <;> exact absurd listed (by decide)

theorem MintState.Laid.storable {mint : MintState} (laid : MintState.Laid mint) :
    Storable mint.tlv.entries := by
  rcases laid with bare | extended
  · intro e member
    rw [bare] at member
    exact absurd member List.not_mem_nil
  · exact extended.storable

/-- No extension of a kind is the marker of free room. -/
theorem ne_uninitialized_of_kind {kind : AccountType} {t : ExtensionType}
    (there : kind ≠ .uninitialized) (ofKind : t.getAccountType = kind) : t ≠ .uninitialized := by
  rintro rfl
  exact there ofKind.symm

section Kinds

variable {crates : Crates} {values : ValueBytes}

/-! ### The multisig reader -/

/-- Data of another length are no multisig. -/
theorem unpackPodMultisig_of_length {bytes : List UInt8} (other : bytes.length ≠ multisigLen) :
    unpackPodMultisig crates bytes = .error .invalidArgument := by
  unfold unpackPodMultisig
  rw [require, if_neg other]
  rfl

/-- Data that say they are not initialized are none. -/
theorem unpackPodMultisig_of_zero (flags : crates.Flags) {bytes : List UInt8}
    (length : bytes.length = multisigLen) (zero : byteAt bytes 2 = 0) :
    unpackPodMultisig crates bytes = .error .uninitializedAccount := by
  have flag : crates.bool (Interface.PodMultisig.ofBytes bytes).isInitialized = false := by
    rw [flags]
    exact decide_eq_false (not_not_intro zero)
  unfold unpackPodMultisig
  rw [require, if_pos length]
  show (require (crates.bool (Interface.PodMultisig.ofBytes bytes).isInitialized = true) _ >>= _) = _
  rw [flag]
  rfl

/-- **The bytes of a multisig are read.** -/
theorem unpackPodMultisig_of_stored (flags : crates.Flags) {multisig : PodMultisig}
    {bytes : List UInt8} (stored : multisig.StoredAs bytes) :
    unpackPodMultisig crates bytes = .ok (.ofBytes bytes) := by
  unfold unpackPodMultisig
  refine require_bind_eq_ok_iff.mpr ⟨stored.length, require_bind_eq_ok_iff.mpr ⟨?_, rfl⟩⟩
  rw [stored.initialized, flags]
  rfl

/-! ### The kinds of data -/

/-- An error, whichever it is. -/
theorem map_ite_error {α β : Type} (f : α → β) (c : Prop) [Decidable c] (e e' : ProgramError) :
    (if c then Except.error e else Except.error e' : ProgramResult α).map f =
      .error (if c then e else e') := by
  split <;> rfl

/-- **Data that are not initialized.** -/
theorem readsAs_zeroed (flags : crates.Flags) {b : Buffer} {prepared : AccountType}
    (staged : b.Staged prepared) (fits : b.Fits) :
    ReadsAs crates values (zeroedData values b) (.zeroed b) := by
  have length := length_zeroedData values fits
  have zeroAccount : podAccount.isInitialized
      (podAccount.ofBytes ((zeroedData values b).take podAccount.kind.baseLen)) = false := by
    refine isInitialized_account.trans ?_
    rw [byteAt_zeroedData values fits (by decide)]
    rfl
  have zeroMint : (podMint crates).isInitialized
      ((podMint crates).ofBytes ((zeroedData values b).take (podMint crates).kind.baseLen)) =
        false := by
    refine isInitialized_mint.trans ?_
    rw [byteAt_zeroedData values fits (by decide), flags]
    rfl
  refine { length := length, account := ?_, mint := ?_, newAccount := ?_, newMint := ?_,
           multisig := ?_, keys := ?_, accountExtension := ?_, mintExtension := ?_,
           newExtension := ?_ }
  · exact (unpackPod_zeroedData fits zeroAccount).trans (map_ite_error _ _ _ _).symm
  · exact (unpackPod_zeroedData fits zeroMint).trans (map_ite_error _ _ _ _).symm
  · exact unpackUninitialized_zeroedData (le_refl _) zeroAccount fits staged.storable
  · exact unpackUninitialized_zeroedData (show 82 ≤ 165 by omega) zeroMint fits staged.storable
  · by_cases long : b.len = multisigLen
    · rw [unpackPodMultisig_of_zero flags (length.trans long)
        (byteAt_zeroedData values fits (by decide))]
      exact congrArg Except.error (if_pos long).symm
    · rw [unpackPodMultisig_of_length (by rwa [length])]
      exact congrArg Except.error (if_neg long).symm
  · intro multisig ok
    obtain ⟨long, ok⟩ := require_bind_eq_ok_iff.mp ok
    have flag : crates.bool (byteAt (zeroedData values b) 2) = true :=
      (require_bind_eq_ok_iff.mp ok).1
    rw [byteAt_zeroedData values fits (by decide), flags] at flag
    cases flag
  · intro st none
    cases unpackAccount_eq_ok_iff.mp none
  · intro mint none
    cases unpackMint_eq_ok_iff.mp none
  · intro kind tlv unpacked there t ofKind
    have small : kind.baseLen ≤ baseAccountLength := by cases kind <;> decide
    have same := unpackUninitialized_eq_ok unpacked
    obtain rfl : b = tlv.toBuffer := AccountData.zeroed.inj same
    rw [drop_tlvStart values small tlv.valid fits,
      getExtensionBytes_tlvData staged.storable (ne_uninitialized_of_kind there ofKind), if_pos ofKind]

/-- **Mints.** -/
theorem readsAs_mint {mint : MintState} (laid : mint.Laid) :
    ReadsAs crates values (mintData values mint) (.mint mint) := by
  have length : (mintData values mint).length = mint.tlv.len := length_mintData laid.fits
  have read : PodStateWithExtensions.unpack (podMint crates) (mintData values mint) =
    .ok (mintView values mint) := unpackPod_mintData laid.fits
  have noMultisig : unpackPodMultisig crates (mintData values mint) = .error .invalidArgument :=
    unpackPodMultisig_of_length (by rw [length]; exact mint.tlv.valid.1)
  refine { length := length, account := ?_, mint := read, newAccount := ?_, newMint := ?_,
           multisig := ?_, keys := ?_, accountExtension := ?_, mintExtension := ?_,
           newExtension := ?_ }
  · exact unpackPod_account_of_mint laid.fits
  · exact unpackUninitialized_account_of_mint laid.fits
  · exact unpackUninitialized_of_read read
  · rw [noMultisig]
    exact congrArg Except.error (if_neg mint.tlv.valid.1).symm
  · intro multisig ok
    rw [noMultisig] at ok
    cases ok
  · intro st none
    cases unpackAccount_eq_ok_iff.mp none
  · intro mint' same t ofKind
    obtain rfl : mint = mint' := AccountData.mint.inj (unpackMint_eq_ok_iff.mp same)
    refine (getExtensionBytes_tlvData laid.storable ?_).trans (if_pos ofKind)
    exact ne_uninitialized_of_kind (by decide) ofKind
  · intro kind tlv unpacked
    cases unpackUninitialized_eq_ok unpacked

/-- **Token accounts.** -/
theorem readsAs_account (flags : crates.Flags) {st : TokenAccountState}
    (laid : TokenAccountState.Laid st) (fits : st.tlv.Fits) :
    ReadsAs crates values (accountData values st) (.account st) := by
  have length : (accountData values st).length = st.tlv.len := length_accountData fits
  have read : PodStateWithExtensions.unpack podAccount (accountData values st) =
    .ok (accountView values st) := unpackPod_accountData fits
  have noMultisig : unpackPodMultisig crates (accountData values st) = .error .invalidArgument :=
    unpackPodMultisig_of_length (by rw [length]; exact st.tlv.valid.1)
  refine { length := length, account := read, mint := ?_, newAccount := ?_, newMint := ?_,
           multisig := ?_, keys := ?_, accountExtension := ?_, mintExtension := ?_,
           newExtension := ?_ }
  · exact unpackPod_mint_of_account flags fits
  · exact unpackUninitialized_of_read read
  · rw [unpackUninitialized_mint_of_account flags fits]
    simp only [unpackUninitialized, reduceCtorEq, false_or]
    exact (map_ite_error _ _ _ _).symm
  · rw [noMultisig]
    exact congrArg Except.error (if_neg st.tlv.valid.1).symm
  · intro multisig ok
    rw [noMultisig] at ok
    cases ok
  · intro st' same t ofKind
    obtain rfl : st = st' := AccountData.account.inj (unpackAccount_eq_ok_iff.mp same)
    refine (getExtensionBytes_tlvData laid.storable ?_).trans (if_pos ofKind)
    exact ne_uninitialized_of_kind (by decide) ofKind
  · intro mint none
    cases unpackMint_eq_ok_iff.mp none
  · intro kind tlv unpacked
    cases unpackUninitialized_eq_ok unpacked

/-- **Multisigs.** -/
theorem readsAs_multisig (flags : crates.Flags) {multisig : PodMultisig} {bytes : List UInt8}
    (stored : multisig.StoredAs bytes) : ReadsAs crates values bytes (.multisig multisig) := by
  have long : ∀ n, bytes.length = multisigLen ∨ bytes.length < n := fun n => .inl stored.length
  refine { length := stored.length, account := unpackPod_of_length (long _),
           mint := unpackPod_of_length (long _), newAccount := unpackUninitialized_of_length (long _),
           newMint := unpackUninitialized_of_length (long _),
           multisig := ?_, keys := ?_, accountExtension := ?_, mintExtension := ?_,
           newExtension := ?_ }
  · rw [unpackPodMultisig_of_stored flags stored]
    refine congrArg Except.ok ?_
    rw [multisigView, stored.m, stored.n, stored.signers]
  · intro read ok
    rw [unpackPodMultisig_of_stored flags stored] at ok
    obtain rfl := Except.ok.inj ok
    have some := congrArg List.length stored.signers
    rw [List.length_take] at some
    rw [stored.n]
    exact min_eq_left_iff.mp some
  · intro st none
    cases unpackAccount_eq_ok_iff.mp none
  · intro mint none
    cases unpackMint_eq_ok_iff.mp none
  · intro kind tlv unpacked
    cases unpackUninitialized_eq_ok unpacked

end Kinds

/-! ### Every account -/

/-- The multisigs of the program are within their bounds. -/
def AccountData.Bounded : AccountData → Prop
  | .multisig state => state.m ≤ maxSigners ∧ state.signers.length ≤ maxSigners
  | _ => True

theorem Change.bounded {i : Invocation} {start : Ledger} {validated : List Address} {a : Address}
    {old new : AccountData} (change : Change i start validated a old new) : new.Bounded := by
  cases change with
  | openMultisig len small few => exact ⟨small, few⟩
  | _ => trivial

/-- **Multisigs stay within their bounds.** -/
theorem Reachable.bounded {L : Ledger} (reachable : Reachable L) {a : Address}
    (owned : (L a).owner = programId) : (L a).data.Bounded :=
  reachable.data_invariant (P := fun _ data => data.Bounded) (fun _ _ => trivial)
    (fun _ _ _ _ _ _ _ change => change.bounded) a owned

section Ledgers

variable {crates : Crates} {values : ValueBytes} {data : AccountData}

/-- **Data that are laid out, fit and are within bounds** have bytes that are read as them. -/
theorem AccountData.readsAs (values : ValueBytes) (flags : crates.Flags) (laid : data.Laid) (fits : data.Fits)
    (bounded : data.Bounded) :
    ∃ bytes, data.bytes? values = some bytes ∧ ReadsAs crates values bytes data := by
  cases data with
  | zeroed buffer =>
    obtain ⟨kind, staged⟩ := laid
    exact ⟨_, rfl, readsAs_zeroed flags staged fits⟩
  | mint state => exact ⟨_, rfl, readsAs_mint laid⟩
  | account state => exact ⟨_, rfl, readsAs_account flags laid fits⟩
  | multisig state =>
    obtain ⟨small, few⟩ := bounded
    refine ⟨_, rfl, readsAs_multisig flags (PodMultisig.storedAs_bytes small ?_)⟩
    rw [List.length_replicate]
    omega
  | elgamalRegistry | proofContext | other => exact absurd laid id

/-- **`validate_owner` on the bytes** does what it does on the ledger, and does not panic. -/
theorem ReadsAs.validates {bytes : List UInt8} {L : Ledger} {owner : AccountMeta}
    (reads : ReadsAs crates values bytes (L owner.key).data) (expectedOwner : Address)
    (signers : List AccountMeta) :
    validateOwnerData crates expectedOwner owner (L owner.key).owner bytes signers =
      .of (validateOwner L expectedOwner owner signers) := by
  unfold validateOwnerData validateOwner
  refine Panicking.of_bind_eq fun _ _ => ?_
  dsimp only
  rw [reads.length]
  by_cases accepted : ((L owner.key).owner = programId ∨ (L owner.key).owner = inlineSplTokenId) ∧
      (L owner.key).data.len = multisigLen
  · rw [if_pos accepted, if_pos accepted]
    have found := reads.multisig
    generalize (L owner.key).data = data at found accepted
    cases read : unpackPodMultisig crates bytes with
    | error e =>
      rw [read] at found
      cases data with
      | multisig state => cases found
      | zeroed | mint | account | elgamalRegistry | proofContext | other =>
        simp only [multisigData, if_pos accepted.2] at found
        obtain rfl := Except.error.inj found
        rfl
    | ok multisig =>
      have bound := reads.keys multisig read
      rw [read] at found
      cases data with
      | multisig state =>
        obtain rfl : multisigView multisig = state := Except.ok.inj found
        cases signers with
        | nil => rfl
        | cons signer signers =>
          rw [Panicking.ok_bind, if_neg (List.cons_ne_nil _ _),
            Panicking.index_eq (Nat.zero_le _) bound, Panicking.ok_bind]
          rfl
      | zeroed | mint | account | elgamalRegistry | proofContext | other => cases found
  · rw [if_neg accepted, if_neg accepted]

end Ledgers

/-- **The readers on bytes see the ledger.** In every reachable ledger every account of the program has
bytes, and of these every reader shows what the ledger says of the account: as a token account, as a
mint, as either in front of its initialization and as a multisig, with the values of their extensions,
and with the same error wherever the ledger says that there is no such thing. -/
theorem bytes_read_as_ledger {crates : Crates} (flags : crates.Flags) (values : ValueBytes) {L : Ledger}
    (reachable : Reachable L) {a : Address} (owned : (L a).owner = programId) :
    ∃ bytes, (L a).data.bytes? values = some bytes ∧ ReadsAs crates values bytes (L a).data ∧
      ∀ (expectedOwner : Address) (owner : AccountMeta) (signers : List AccountMeta), owner.key = a →
        validateOwnerData crates expectedOwner owner (L a).owner bytes signers =
          .of (validateOwner L expectedOwner owner signers) := by
  obtain ⟨bytes, stored, reads⟩ := AccountData.readsAs values flags
    (reachable.laid owned) (reachable.fits owned) (reachable.bounded owned)
  refine ⟨bytes, stored, reads, fun expectedOwner owner signers same => ?_⟩
  subst same
  exact reads.validates expectedOwner signers

section Example

open Basic AccountMeta

theorem Interface.Crates.flags_basic : Crates.basic.Flags := fun _ => rfl

/-- A multisig of two out of three keys. -/
def Basic.storedMultisigTurns : List Turn := [
  .allocate mint multisigLen,
  .basic (.initializeMultisig2 2) [.plain mint, .plain source, .plain owner, .plain other]]

/-- Two of the keys sign for it, on its bytes. -/
theorem bytes_read_as_ledger_multisig : ∃ L bytes, runAll .fresh Basic.storedMultisigTurns = .ok L ∧
    (L mint).data = .multisig ⟨2, [source, owner, other]⟩ ∧
    (L mint).data.bytes? .zeroed = some bytes ∧
    ReadsAs Crates.basic .zeroed bytes (L mint).data ∧
    validateOwnerData Crates.basic mint (plain mint) programId bytes [signer other, signer owner] =
      .of (.ok ()) := by
  have leads : LeadsTo (runAll .fresh Basic.storedMultisigTurns) fun L =>
      (L mint).owner = programId ∧ (L mint).data = .multisig ⟨2, [source, owner, other]⟩ ∧
        validateOwner L mint (plain mint) [signer other, signer owner] = .ok () := by
    decide +kernel
  obtain ⟨L, ran, owned, held, signs⟩ := leads.exists
  obtain ⟨bytes, stored, reads, validates⟩ :=
    bytes_read_as_ledger Crates.flags_basic .zeroed (.of_runAll .fresh ran) owned
  refine ⟨L, bytes, ran, held, stored, reads, ?_⟩
  rw [← owned, validates mint (plain mint) _ rfl, signs]

end Example

end Token2022
