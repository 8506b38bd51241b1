/-
**The ledger on bytes: what the writers leave.**

* **`alloc_tlvData`** — `alloc` on bytes against `alloc` on entries, errors included.
* `initValue_tlvData`, `assignValue_tlvData` — the value of an extension that is initialized, and one
  that is assigned.
* **`unpackMut_eq`** — the reader for writing checks what the reader checks.
* `onExtensions_mintData`, `onExtensions_accountData` — programs on the extensions of an initialized
  state.
* `initializeMint_zeroedData`, `initializeAccount_zeroedData`, `initializeMultisig_zeroes` — the
  initializations.
* `WritesAs` — every writer does to the bytes what the ledger does to the data.
* **`bytes_written_as_ledger`** — every account of the program in every reachable ledger.
-/

import Token2022.Interface.StoreWrite
import Token2022.Lib.SliceSimulation
import Token2022.Property.Store

namespace Token2022

open Fallible Interface KeyedList SliceProgram

/-! ### The bytes of a buffer -/

section Buffers

variable {values : ValueBytes} {b : Buffer} {t : ExtensionType} {kind : AccountType}

/-- The entries in front of the one of a type. -/
theorem takeWhile_split {front back : List Entry} {v : Extension t} (absent : t ∉ front.keys) :
    (front ++ ⟨t, v⟩ :: back).takeWhile (fun e => e.1 ≠ t) = front := by
  have all : ∀ e ∈ front, decide (e.1 ≠ t) = true := by
    intro e member
    refine decide_eq_true fun same => absent ?_
    rw [← same]
    exact List.mem_map_of_mem member
  rw [List.takeWhile_append_of_pos all, List.takeWhile_cons_of_neg (by simp), List.append_nil]

/-- The bytes of entries, one of which is of a type. -/
theorem usedLen_split {front back : List Entry} {v : Extension t} :
    Buffer.usedLen (front ++ ⟨t, v⟩ :: back) =
      Buffer.usedLen front + (4 + valueLen t v + Buffer.usedLen back) := by
  simp only [Buffer.usedLen, List.map_append, List.map_cons, List.sum_append, List.sum_cons,
    ExtensionType.addTypeAndLengthToLen]
  omega

variable (storable : Storable b.entries) (distinct : b.extensionTypes.Nodup)
  (fits : Buffer.usedLen b.entries ≤ b.tlvLen)

include storable distinct fits in
/-- `alloc` over an entry of the type. -/
theorem alloc_present_tlvData {front back : List Entry} {held : Extension t}
    (named : t ≠ .uninitialized) (split : b.entries = front ++ ⟨t, held⟩ :: back)
    (absent : t ∉ front.keys) (length : ℕ) (overwrite : Bool) :
    ∃ result data, alloc t.getAccountType t length overwrite (tlvData values b) =
        some (result, data) ∧
      (result.map fun _ => ()) = b.alloc t.getAccountType t length overwrite := by
  have bytes : (canonicalBuffer values b storable distinct).bytes = tlvData values b :=
    bytes_canonicalBuffer
  have row : (canonicalBuffer values b storable distinct).row = rawEntries values front ++
      ⟨t, values.write t held⟩ :: rawEntries values back := by
    show rawEntries values b.entries = _
    rw [split]
    simp only [rawEntries, List.map_append, List.map_cons]
  have ran : alloc t.getAccountType t length overwrite
      (canonicalBuffer values b storable distinct).bytes = some (allocAt t _ t _ _ length overwrite) :=
    alloc_present row (by rwa [keys_rawEntries])
  rw [bytes] at ran
  have found : b.get t = some held := by
    rw [Buffer.get, split, find_split absent]
  have short : valueLen t held < 2 ^ 16 := (storable ⟨t, held⟩ (by rw [split]; simp)).2
  have used : Buffer.usedLen b.entries =
      Buffer.usedLen front + (4 + valueLen t held + Buffer.usedLen back) := by
    rw [split, usedLen_split]
  have rest : (values.write t held ++ (rawRowBytes (rawEntries values back) ++
      List.replicate (canonicalBuffer values b storable distinct).room 0)).length =
        b.tlvLen - Buffer.usedLen front - 4 := by
    rw [List.length_append, List.length_append, ← rowBytes_eq, length_rowBytes, values.length_write,
      List.length_replicate]
    show _ + (_ + (b.tlvLen - Buffer.usedLen b.entries)) = _
    omega
  generalize same : allocAt t _ t _ _ length overwrite = outcome at ran
  obtain ⟨result, data⟩ := outcome
  refine ⟨result, data, ran, ?_⟩
  have first := congrArg Prod.fst same
  dsimp only at first
  rw [← first]
  simp only [Buffer.alloc, found, split, takeWhile_split absent, require_bind, allocAt, rest,
    values.length_write, ExtensionType.addTypeAndLengthToLen, if_true, true_and]
  by_cases room : length + 2 + 2 ≤ b.tlvLen - Buffer.usedLen front
  · rw [if_neg (by omega), if_pos room]
    by_cases asked : overwrite = true
    · rw [if_pos (.inr asked), if_pos asked]
      by_cases same : valueLen t held = length
      · rw [if_neg (fun other => other.2 same), if_pos (same ▸ short), require, if_pos same]
        rfl
      · rw [if_pos ⟨asked, same⟩, require, if_neg same]
        rfl
    · rw [if_neg (fun either => either.elim named asked), if_neg asked]
      rfl
  · rw [if_pos (by omega), if_neg room]
    rfl

include storable distinct fits in
/-- `alloc` behind the entries, none of which is of the type. -/
theorem alloc_absent_tlvData (named : t ≠ .uninitialized) (absent : t ∉ b.entries.keys) (length : ℕ)
    (overwrite : Bool) :
    ∃ result data, alloc t.getAccountType t length overwrite (tlvData values b) =
        some (result, data) ∧
      (result.map fun _ => ()) = b.alloc t.getAccountType t length overwrite := by
  have bytes : (canonicalBuffer values b storable distinct).bytes = tlvData values b :=
    bytes_canonicalBuffer
  have absent' : t ∉ (canonicalBuffer values b storable distinct).row.keys := by
    show t ∉ (rawEntries values b.entries).keys
    rwa [keys_rawEntries]
  have none : b.get t = none := find_eq_none_iff.mpr absent
  have room : (canonicalBuffer values b storable distinct).room =
    b.tlvLen - Buffer.usedLen b.entries := rfl
  by_cases header : 4 ≤ b.tlvLen - Buffer.usedLen b.entries
  · have ran : alloc t.getAccountType t length overwrite
        (canonicalBuffer values b storable distinct).bytes =
          some (allocAt t _ .uninitialized 0 _ length overwrite) := alloc_open absent' header
    rw [bytes] at ran
    generalize same : allocAt t _ _ _ _ length overwrite = outcome at ran
    obtain ⟨result, data⟩ := outcome
    refine ⟨result, data, ran, ?_⟩
    have first := congrArg Prod.fst same
    dsimp only at first
    rw [← first]
    simp only [Buffer.alloc, none, require_bind, allocAt, Buffer.usedLen_takeWhile_of_absent none,
      ExtensionType.addTypeAndLengthToLen, if_true, List.length_replicate, room, true_or, if_pos header]
    by_cases enough : length + 2 + 2 ≤ b.tlvLen - Buffer.usedLen b.entries
    · rw [if_neg (by omega), if_pos enough, if_neg (fun wrong => named wrong.2.1.symm)]
      by_cases short : length < 2 ^ 16
      · rw [if_pos short, require, if_pos short]
        rfl
      · rw [if_neg short, require, if_neg short]
        rfl
    · rw [if_pos (by omega), if_neg enough]
      rfl
  · have ran : alloc t.getAccountType t length overwrite
        (canonicalBuffer values b storable distinct).bytes =
          some (.error .invalidAccountData, (canonicalBuffer values b storable distinct).bytes) :=
      alloc_full absent' (not_le.mp header)
    rw [bytes] at ran
    refine ⟨_, _, ran, ?_⟩
    simp only [Buffer.alloc, none, require_bind, Buffer.usedLen_takeWhile_of_absent none, if_true,
      if_neg header]
    rfl

/-- **`alloc` on the bytes of a buffer** does what it does on the buffer, with the same error, and finds
a slot where it succeeds. -/
theorem alloc_tlvData (values : ValueBytes) (kind : AccountType) (storable : Storable b.entries)
    (distinct : b.extensionTypes.Nodup) (fits : Buffer.usedLen b.entries ≤ b.tlvLen)
    (named : t ≠ .uninitialized) (length : ℕ) (overwrite : Bool) :
    ∃ result data, alloc kind t length overwrite (tlvData values b) = some (result, data) ∧
      (result.map fun _ => ()) = b.alloc kind t length overwrite ∧
      ∀ bounds, result = .ok bounds →
        Interface.Slot (canonicalBuffer values b storable distinct) t length data bounds := by
  have agrees : ∃ result data, alloc kind t length overwrite (tlvData values b) =
      some (result, data) ∧ (result.map fun _ => ()) = b.alloc kind t length overwrite := by
    by_cases typed : t.getAccountType = kind
    · subst typed
      by_cases member : t ∈ b.entries.keys
      · obtain ⟨front, held, back, split, absent⟩ := exists_split member
        exact alloc_present_tlvData storable distinct fits named split absent length overwrite
      · exact alloc_absent_tlvData storable distinct fits named member length overwrite
    · refine ⟨_, _, alloc_otherKind typed .., ?_⟩
      rw [Buffer.alloc, require_bind, if_neg typed]
      rfl
  obtain ⟨result, data, ran, same⟩ := agrees
  refine ⟨result, data, ran, same, fun bounds ok => ?_⟩
  subst ok
  have bytes : (canonicalBuffer values b storable distinct).bytes = tlvData values b :=
    bytes_canonicalBuffer
  rw [← bytes] at ran
  exact alloc_slot named ran

include fits in
/-- **`init_extension` finds a slot** on the bytes, where it does on the buffer. -/
theorem initExtension_tlvData (values : ValueBytes) (named : t ≠ .uninitialized) {v : Extension t}
    {overwrite : Bool} (ok : b.alloc kind t (valueLen t v) overwrite = .ok ()) {default : List UInt8}
    (sized : default.length = valueLen t v) :
    ∃ bounds data, initExtension kind t default overwrite (tlvData values b) =
        some (.ok bounds, data) ∧
      Interface.Slot (canonicalBuffer values b storable distinct) t (valueLen t v) data bounds := by
  obtain ⟨result, data, ran, same, slots⟩ :=
    alloc_tlvData values kind storable distinct fits named (valueLen t v) overwrite
  rw [ok] at same
  cases result with
  | error e => cases same
  | ok bounds =>
    obtain ⟨data', first, slot⟩ := (slots bounds rfl).rewritten sized
    refine ⟨bounds, data', ?_, slot⟩
    unfold initExtension
    rw [sized, bind_of_ok ran, bind_of_ok first]
    rfl

include storable distinct fits in
/-- **`init_extension` fails** on the bytes with the error with which it fails on the buffer. -/
theorem initExtension_tlvData_error (values : ValueBytes) (there : kind ≠ .uninitialized)
    {v : Extension t} {overwrite : Bool} {e : ProgramError}
    (failed : b.alloc kind t (valueLen t v) overwrite = .error e) {default : List UInt8}
    (sized : default.length = valueLen t v) :
    ∃ data, initExtension kind t default overwrite (tlvData values b) = some (.error e, data) := by
  have allocated : ∃ data, alloc kind t (valueLen t v) overwrite (tlvData values b) =
      some (.error e, data) := by
    by_cases typed : t.getAccountType = kind
    · obtain ⟨result, data, ran, same, -⟩ := alloc_tlvData values kind storable distinct fits
        (ne_uninitialized_of_kind there typed) (valueLen t v) overwrite
      rw [failed] at same
      cases result with
      | error e' =>
        obtain rfl := Except.error.inj same
        exact ⟨data, ran⟩
      | ok bounds => cases same
    · rw [Buffer.alloc, require_bind, if_neg typed] at failed
      obtain rfl := Except.error.inj failed
      exact ⟨_, alloc_otherKind typed ..⟩
  obtain ⟨data, ran⟩ := allocated
  refine ⟨data, ?_⟩
  unfold initExtension
  rw [sized, bind_of_error ran]

end Buffers

/-! ### The bytes of the extensions of a kind -/

section Extensions

variable {values : ValueBytes} {t : ExtensionType} {kind : AccountType} {tlv : TlvData kind}
  (storable : Storable tlv.entries) (distinct : tlv.extensionTypes.Nodup) (fits : tlv.Fits)

include storable distinct fits in
/-- **A value that is initialized.** -/
theorem initValue_tlvData (values : ValueBytes) (there : kind ≠ .uninitialized) (v : Extension t)
    (overwrite : Bool)
    {default : List UInt8} (sized : default.length = valueLen t v) :
    Performs (fun (tlv' : TlvData kind) data => data = tlvData values tlv'.toBuffer)
      (initValue kind t default (values.write t v) overwrite (tlvData values tlv.toBuffer))
      (tlv.initExtension t v overwrite) := by
  unfold initValue
  cases room : tlv.alloc kind t (valueLen t v) overwrite with
  | error e =>
    obtain ⟨data, failed⟩ :=
      initExtension_tlvData_error storable distinct fits values there room sized
    have step : tlv.initExtension t v overwrite = .error e := by
      rw [TlvData.initExtension, room]
      rfl
    rw [step]
    exact .of_error (bind_of_error failed)
  | ok =>
    have typed := (require_bind_eq_ok_iff.mp room).1
    obtain ⟨bounds, data, allocated, slot⟩ := initExtension_tlvData storable distinct fits values
      (ne_uninitialized_of_kind there typed) room sized
    obtain ⟨data', written, writes⟩ := slot.within
      (fun _ => (.ok (), values.write t v)) (values.length_write t v) fun _ _ => rfl
    have step : tlv.initExtension t v overwrite = .ok (tlv.set t v) := by
      rw [TlvData.initExtension, room]
      rfl
    rw [step, bind_of_ok allocated]
    exact .of_ok written (tlvData_of_writes fits writes)

/-- What is not read is not found for writing either. -/
theorem getExtensionBytesMut_of_error {data : List UInt8} {e : ProgramError}
    (failed : getExtensionBytes kind t data = .error e) :
    getExtensionBytesMut kind t data = some (.error e, data) := by
  unfold getExtensionBytes at failed
  unfold getExtensionBytesMut
  by_cases typed : t.getAccountType = kind
  · rw [require, if_pos typed] at failed
    rw [bind_of_ok (check_pos typed _)]
    have lookup : (reading fun tlvData => indexedExtensionIndices tlvData t false) data =
        some (getExtensionIndices data t false, data) :=
      reading_of (indexedExtensionIndices_eq data t false)
    cases found : getExtensionIndices data t false with
    | error e' =>
      rw [found] at failed lookup
      obtain rfl := Except.error.inj failed
      exact bind_of_error lookup
    | ok indices =>
      obtain ⟨start, rfl, inside⟩ := valueStart_le_of_getExtensionIndicesFrom found
      rw [found] at failed lookup
      have length : read (getTlvIndices start).lengthStart (getTlvIndices start).valueStart data =
          some (.ok (slice data (getTlvIndices start).lengthStart 2), data) :=
        reading_of (index_length inside)
      refine (bind_of_ok lookup).trans ((bind_of_ok length).trans ?_)
      rw [bind_of_ok (m := len) rfl]
      have beyond : ¬ (getTlvIndices start).valueStart + (getTlvIndices start).length data ≤
          data.length := by
        intro bound
        replace failed : (require _ _ >>= _) = _ := failed
        rw [require, if_pos bound] at failed
        cases failed
      replace failed : (require _ _ >>= _) = _ := failed
      rw [require, if_neg beyond] at failed
      obtain rfl := Except.error.inj failed
      exact bind_of_error (check_neg beyond _)
  · rw [require, if_neg typed] at failed
    obtain rfl := Except.error.inj failed
    exact bind_of_error (check_neg typed _)

include storable distinct fits in
/-- **A value that is assigned**, where there is one. -/
theorem assignValue_tlvData (values : ValueBytes) (there : kind ≠ .uninitialized)
    (typed : t.getAccountType = kind)
    (sized : t ≠ .tokenMetadata) (v' : Extension t) :
    Performs (fun (tlv' : TlvData kind) data => data = tlvData values tlv'.toBuffer)
      (assignValue kind t (values.write t v') (tlvData values tlv.toBuffer))
      (tlv.getExtension t >>= fun _ => .ok (tlv.set t v')) := by
  have named := ne_uninitialized_of_kind there typed
  have bytes : (canonicalBuffer values tlv.toBuffer storable distinct).bytes =
    tlvData values tlv.toBuffer := bytes_canonicalBuffer
  unfold assignValue
  cases read : tlv.getExtension t with
  | error e =>
    have failed : getExtensionBytes kind t (tlvData values tlv.toBuffer) = .error e := by
      rw [getExtensionBytes_tlvData storable named, if_pos typed, read]
      rfl
    exact .of_error (bind_of_error (getExtensionBytesMut_of_error failed))
  | ok v =>
    have held : tlv.get t = some v := Buffer.getExtension_eq_ok_iff.mp read
    have stored : find t (canonicalBuffer values tlv.toBuffer storable distinct).row =
        some (values.write t v) := by
      refine (find_rawEntries values t tlv.entries).trans ?_
      rw [show find t tlv.entries = some v from held]
      rfl
    obtain ⟨bounds, found, slot⟩ := getExtensionBytesMut_of_find _ named stored
    have same : (values.write t v').length = (values.write t v).length := by
      rw [values.length_write, values.length_write, valueLen_eq_typeLen sized,
        valueLen_eq_typeLen sized]
    obtain ⟨data, written, writes⟩ := slot.within (fun _ => (.ok (), values.write t v')) same
      fun _ _ => rfl
    rw [typed, bytes] at found
    rw [bytes] at written
    refine .of_ok ?_ (tlvData_of_writes fits writes)
    rw [bind_of_ok found]
    exact written

end Extensions

/-! ### In front of the extensions -/

section Fronts

/-- Where extensions start lies in the bytes. -/
theorem tlvStart_le_of_typeAndTlvIndices {kind : AccountType} {rest : List UInt8} {i j : ℕ}
    (found : typeAndTlvIndices kind rest = .ok (some (i, j))) : j ≤ rest.length := by
  unfold typeAndTlvIndices at found
  by_cases bare : rest = []
  · rw [if_pos bare] at found
    cases found
  · rw [if_neg bare] at found
    obtain ⟨room, found⟩ := require_bind_eq_ok_iff.mp found
    obtain ⟨-, same⟩ := require_bind_eq_ok_iff.mp found
    cases same
    exact room

/-- **The reader for writing checks what the reader checks**, and finds the extensions where that one
leaves them. -/
theorem unpackMut_eq {S : Type} (B : PodBase S) (input : List UInt8) :
    PodStateWithExtensionsMut.unpack B input = (PodStateWithExtensions.unpack B input).map
      fun state => input.length - state.tlvData.length := by
  unfold PodStateWithExtensionsMut.unpack PodStateWithExtensions.unpack
  cases checked : checkMinLenAndNotMultisig input B.kind.baseLen with
  | error e => rfl
  | ok =>
    obtain ⟨-, long⟩ := checkMinLen_eq_ok_iff.mp checked
    show (if B.isInitialized (B.ofBytes (input.take B.kind.baseLen)) = true then _ else _) =
      (if B.isInitialized (B.ofBytes (input.take B.kind.baseLen)) = true then _ else _ :
        ProgramResult (Interface.StateWithExtensions S)).map _
    by_cases initialized : B.isInitialized (B.ofBytes (input.take B.kind.baseLen)) = true
    · rw [if_pos initialized, if_pos initialized]
      unfold unpackTlvData
      cases indices : typeAndTlvIndices B.kind (input.drop B.kind.baseLen) with
      | error e => rfl
      | ok found =>
        cases found with
        | none => rfl
        | some found =>
          obtain ⟨i, j⟩ := found
          have inside := tlvStart_le_of_typeAndTlvIndices indices
          show (accountTypeOfByte (byteAt (input.drop B.kind.baseLen) i) >>= _) =
            ((accountTypeOfByte (byteAt (input.drop B.kind.baseLen) i) >>= _) >>= _ :
              ProgramResult (Interface.StateWithExtensions S)).map _
          cases accountTypeOfByte (byteAt (input.drop B.kind.baseLen) i) with
          | error e => rfl
          | ok accountType =>
            show (checkAccountType B.kind accountType >>= _) =
              ((checkAccountType B.kind accountType >>= _) >>= _ :
                ProgramResult (Interface.StateWithExtensions S)).map _
            cases checkAccountType B.kind accountType with
            | error e => rfl
            | ok =>
              refine congrArg Except.ok ?_
              rw [List.length_drop] at inside
              show _ = input.length - ((input.drop B.kind.baseLen).drop j).length
              rw [List.length_drop, List.length_drop]
              omega
    · rw [if_neg initialized, if_neg initialized]
      rfl

/-- What is read is found for writing. -/
theorem unpackMut_of_read {S : Type} {B : PodBase S} {front rest : List UInt8} {base : S}
    (read : PodStateWithExtensions.unpack B (front ++ rest) = .ok ⟨base, rest⟩) :
    PodStateWithExtensionsMut.unpack B (front ++ rest) = .ok front.length := by
  rw [unpackMut_eq, read]
  refine congrArg Except.ok ?_
  show (front ++ rest).length - rest.length = _
  rw [List.length_append, Nat.add_sub_cancel]

/-- What is not read is not found for writing either. -/
theorem unpackMut_of_error {S : Type} {B : PodBase S} {input : List UInt8} {e : ProgramError}
    (failed : PodStateWithExtensions.unpack B input = .error e) :
    PodStateWithExtensionsMut.unpack B input = .error e := by
  rw [unpackMut_eq, failed]
  rfl

section OnExtensions

variable {σ : Type} {holds : σ → List UInt8 → Prop} {unpack : List UInt8 → ProgramResult ℕ}
  {program : TlvProgram Unit} {step : ProgramResult σ} {front rest : List UInt8}

/-- **A program on the extensions** runs behind what the reader leaves in front. -/
theorem onExtensions_performs (found : unpack (front ++ rest) = .ok front.length)
    (ran : Performs holds (program rest) step) :
    Performs (fun s data => ∃ rest', data = front ++ rest' ∧ holds s rest')
      (onExtensions unpack program (front ++ rest)) step := by
  unfold onExtensions
  rw [bind_of_ok (reading_of (congrArg Panicking.of found))]
  exact ran.behind front rfl

theorem onExtensions_error {data : List UInt8} {e : ProgramError} (failed : unpack data = .error e) :
    onExtensions unpack program data = some (.error e, data) := by
  unfold onExtensions
  rw [bind_of_error (reading_of (congrArg Panicking.of failed))]

end OnExtensions

variable {crates : Crates} {values : ValueBytes}

/-- What stands in front of the extensions of a mint. -/
def mintFront (mint : MintState) : List UInt8 :=
  if mint.tlv.len = AccountType.mint.baseLen then podMintBytes mint.base
  else podMintBytes mint.base ++
    (List.replicate (baseAccountLength - AccountType.mint.baseLen) 0 ++ [accountTypeByte .mint])

theorem mintData_eq (values : ValueBytes) {mint : MintState}
    (fits : Buffer.usedLen mint.tlv.entries ≤ mint.tlv.tlvLen) :
    mintData values mint = mintFront mint ++ tlvData values mint.tlv.toBuffer := by
  unfold mintData mintFront
  by_cases bare : mint.tlv.len = AccountType.mint.baseLen
  · have none : mint.tlv.tlvLen = 0 := by
      rw [Buffer.tlvLen, bare]
      rfl
    rw [if_pos bare, if_pos bare, tlvData_eq_nil fits none, List.append_nil]
  · rw [if_neg bare, if_neg bare, List.append_assoc, List.append_assoc, List.singleton_append]

theorem unpackMut_mintData (crates : Crates) (values : ValueBytes) {mint : MintState}
    (fits : Buffer.usedLen mint.tlv.entries ≤ mint.tlv.tlvLen) :
    PodStateWithExtensionsMut.unpack (podMint crates) (mintData values mint) =
      .ok (mintFront mint).length := by
  have read : PodStateWithExtensions.unpack (podMint crates) (mintData values mint) =
    .ok (mintView values mint) := unpackPod_mintData fits
  rw [mintData_eq values fits] at read ⊢
  exact unpackMut_of_read read

/-- What stands in front of the extensions of a token account. -/
def accountFront (st : TokenAccountState) : List UInt8 :=
  if st.tlv.len = AccountType.account.baseLen then podAccountBytes st.base
  else podAccountBytes st.base ++ [accountTypeByte .account]

theorem accountData_eq (values : ValueBytes) {st : TokenAccountState}
    (fits : Buffer.usedLen st.tlv.entries ≤ st.tlv.tlvLen) :
    accountData values st = accountFront st ++ tlvData values st.tlv.toBuffer := by
  unfold accountData accountFront
  by_cases bare : st.tlv.len = AccountType.account.baseLen
  · have none : st.tlv.tlvLen = 0 := by
      rw [Buffer.tlvLen, bare]
      rfl
    rw [if_pos bare, if_pos bare, tlvData_eq_nil fits none, List.append_nil]
  · rw [if_neg bare, if_neg bare, List.append_assoc, List.singleton_append]

theorem unpackMut_accountData (values : ValueBytes) {st : TokenAccountState}
    (fits : Buffer.usedLen st.tlv.entries ≤ st.tlv.tlvLen) :
    PodStateWithExtensionsMut.unpack podAccount (accountData values st) =
      .ok (accountFront st).length := by
  have read : PodStateWithExtensions.unpack podAccount (accountData values st) =
    .ok (accountView values st) := unpackPod_accountData fits
  rw [accountData_eq values fits] at read ⊢
  exact unpackMut_of_read read

end Fronts

/-! ### Writers to an initialized state -/

section Initialized

variable {crates : Crates} {values : ValueBytes} {t : ExtensionType}

/-- Behind the base of a mint, whatever its fields. -/
theorem mintData_withBase (values : ValueBytes) (mint : MintState) :
    ∃ rest, ∀ base, mintData values (mint.withBase base) = podMintBytes base ++ rest := by
  by_cases bare : mint.tlv.len = AccountType.mint.baseLen
  · refine ⟨[], fun base => ?_⟩
    rw [List.append_nil]
    exact if_pos bare
  · refine ⟨List.replicate (baseAccountLength - AccountType.mint.baseLen) 0 ++
      (accountTypeByte .mint :: tlvData values mint.tlv.toBuffer), fun base => ?_⟩
    exact if_neg bare

/-- Behind the base of a token account, whatever its fields. -/
theorem accountData_withBase (values : ValueBytes) (st : TokenAccountState) :
    ∃ rest, ∀ base, accountData values (st.withBase base) = podAccountBytes base ++ rest := by
  by_cases bare : st.tlv.len = AccountType.account.baseLen
  · refine ⟨[], fun base => ?_⟩
    rw [List.append_nil]
    exact if_pos bare
  · refine ⟨accountTypeByte .account :: tlvData values st.tlv.toBuffer, fun base => ?_⟩
    exact if_neg bare

/-- A base is assigned in front of what stands behind it. -/
theorem assignBase_eq {S : Type} {B : PodBase S} {old new rest : List UInt8} {start : ℕ}
    (found : PodStateWithExtensionsMut.unpack B (old ++ rest) = .ok start)
    (same : new.length = old.length) :
    assignBase B new (old ++ rest) = some (.ok (), new ++ rest) := by
  unfold assignBase
  rw [bind_of_ok (reading_of (congrArg Panicking.of found))]
  exact write_append [] rest rfl same

/-- **The fields of a mint** are assigned in place. -/
theorem assignBase_mintData (mint : MintState) (base : PodMint)
    (fits : Buffer.usedLen mint.tlv.entries ≤ mint.tlv.tlvLen) :
    assignBase (podMint crates) (podMintBytes base) (mintData values mint) =
      some (.ok (), mintData values (mint.withBase base)) := by
  obtain ⟨rest, shape⟩ := mintData_withBase values mint
  have found := unpackMut_mintData crates values fits
  have before : mintData values mint = podMintBytes mint.base ++ rest := shape mint.base
  rw [before] at found ⊢
  rw [shape base]
  exact assignBase_eq found (by rw [length_podMintBytes, length_podMintBytes])

/-- **The fields of a token account** are assigned in place. -/
theorem assignBase_accountData (st : TokenAccountState) (base : PodAccount) (fits : st.tlv.Fits) :
    assignBase podAccount (podAccountBytes base) (accountData values st) =
      some (.ok (), accountData values (st.withBase base)) := by
  obtain ⟨rest, shape⟩ := accountData_withBase values st
  have found := unpackMut_accountData values fits
  have before : accountData values st = podAccountBytes st.base ++ rest := shape st.base
  rw [before] at found ⊢
  rw [shape base]
  exact assignBase_eq found (by rw [length_podAccountBytes, length_podAccountBytes])

/-- An assignment fails where the reader does. -/
theorem assignBase_error {S : Type} {B : PodBase S} {base data : List UInt8} {e : ProgramError}
    (failed : PodStateWithExtensionsMut.unpack B data = .error e) :
    assignBase B base data = some (.error e, data) := by
  unfold assignBase
  rw [bind_of_error (reading_of (congrArg Panicking.of failed))]

/-- An assignment leaves the length, and what fits. -/
theorem set_kept {kind : AccountType} {tlv tlv' : TlvData kind} {e' : Extension t} (fits : tlv.Fits)
    (sized : t ≠ .tokenMetadata)
    (set : (tlv.getExtension t >>= fun _ => .ok (tlv.set t e')) = .ok tlv') :
    tlv'.len = tlv.len ∧ tlv'.Fits := by
  cases read : tlv.getExtension t with
  | error e =>
    rw [read] at set
    cases set
  | ok e =>
    rw [read] at set
    obtain rfl := Except.ok.inj set
    exact ⟨rfl, TlvData.set_fits (Buffer.getExtension_eq_ok_iff.mp read) sized fits⟩

/-- So does an initialization. -/
theorem initExtension_kept {kind : AccountType} {tlv tlv' : TlvData kind} {v : Extension t}
    {overwrite : Bool} (fits : tlv.Fits) (written : tlv.initExtension t v overwrite = .ok tlv') :
    tlv'.len = tlv.len ∧ tlv'.Fits := by
  have room := TlvData.initExtension_fits fits written
  obtain ⟨-, -, rfl⟩ := TlvData.initExtension_eq_ok written
  exact ⟨rfl, room⟩

section OnExtensions

variable {program : TlvProgram Unit}

/-- **A program on the extensions of a mint.** -/
theorem onExtensions_mintData (crates : Crates) {mint : MintState}
    {step : ProgramResult (TlvData .mint)} (fits : mint.tlv.Fits)
    (ran : Performs (fun (tlv : TlvData .mint) data => data = tlvData values tlv.toBuffer)
      (program (tlvData values mint.tlv.toBuffer)) step)
    (kept : ∀ tlv, step = .ok tlv → tlv.len = mint.tlv.len ∧ tlv.Fits) :
    Performs (fun (mint' : MintState) data => data = mintData values mint')
      (onExtensions (PodStateWithExtensionsMut.unpack (podMint crates)) program
        (mintData values mint))
      (step >>= fun tlv => .ok { mint with tlv }) := by
  have found := unpackMut_mintData crates values fits
  rw [mintData_eq values fits] at found ⊢
  refine (onExtensions_performs found ran).map _ ?_
  intro tlv data ok held
  obtain ⟨rest, rfl, rfl⟩ := held
  obtain ⟨len, room⟩ := kept tlv ok
  have fits' : ({ mint with tlv } : MintState).tlv.Fits := room
  rw [mintData_eq values fits']
  unfold mintFront
  dsimp only
  rw [len]

/-- **A program on the extensions of a token account.** -/
theorem onExtensions_accountData {st : TokenAccountState} {step : ProgramResult (TlvData .account)}
    (fits : st.tlv.Fits)
    (ran : Performs (fun (tlv : TlvData .account) data => data = tlvData values tlv.toBuffer)
      (program (tlvData values st.tlv.toBuffer)) step)
    (kept : ∀ tlv, step = .ok tlv → tlv.len = st.tlv.len ∧ tlv.Fits) :
    Performs (fun (st' : TokenAccountState) data => data = accountData values st')
      (onExtensions (PodStateWithExtensionsMut.unpack podAccount) program (accountData values st))
      (step >>= fun tlv => .ok { st with tlv }) := by
  have found := unpackMut_accountData values fits
  rw [accountData_eq values fits] at found ⊢
  refine (onExtensions_performs found ran).map _ ?_
  intro tlv data ok held
  obtain ⟨rest, rfl, rfl⟩ := held
  obtain ⟨len, room⟩ := kept tlv ok
  have fits' : ({ st with tlv } : TokenAccountState).tlv.Fits := room
  rw [accountData_eq values fits']
  unfold accountFront
  dsimp only
  rw [len]

end OnExtensions

/-- The extensions of a mint are distinct. -/
theorem MintState.Laid.distinct {mint : MintState} (laid : MintState.Laid mint) :
    mint.extensionTypes.Nodup := by
  rcases laid with bare | extended
  · show mint.tlv.toBuffer.extensionTypes.Nodup
    rw [bare]
    exact List.nodup_nil
  · exact extended.distinct

/-- **The value of an extension of a mint** is assigned in place. -/
theorem assignExtension_mintData (crates : Crates) (values : ValueBytes) {mint : MintState}
    (laid : mint.Laid) (typed : t.getAccountType = .mint) (sized : t ≠ .tokenMetadata) (e' : Extension t) :
    Performs (fun (mint' : MintState) data => data = mintData values mint')
      (assignExtension (podMint crates) t (values.write t e') (mintData values mint))
      (mint.getExtension t >>= fun _ => .ok (mint.set t e')) := by
  have assigned := assignValue_tlvData laid.storable laid.distinct laid.fits
    values (by decide) typed sized e'
  have wrote := onExtensions_mintData crates laid.fits assigned
    fun _ => set_kept laid.fits sized
  rwa [bind_assoc] at wrote

/-- **The value of an extension of a token account** is assigned in place. -/
theorem assignExtension_accountData (values : ValueBytes) {st : TokenAccountState}
    (laid : TokenAccountState.Laid st) (fits : st.tlv.Fits) (typed : t.getAccountType = .account) (e' : Extension t) :
    Performs (fun (st' : TokenAccountState) data => data = accountData values st')
      (assignExtension podAccount t (values.write t e') (accountData values st))
      (st.getExtension t >>= fun _ => .ok (st.set t e')) := by
  have sized : t ≠ .tokenMetadata := by
    rintro rfl
    cases typed
  have assigned := assignValue_tlvData laid.storable laid.distinct fits
    values (by decide) typed sized e'
  have wrote := onExtensions_accountData fits assigned fun _ => set_kept fits sized
  rwa [bind_assoc] at wrote

/-- **A new extension of a token account** is written behind the others. -/
theorem addExtension_accountData {st : TokenAccountState} (laid : TokenAccountState.Laid st)
    (fits : st.tlv.Fits) (v : Extension t) (overwrite : Bool) {default : List UInt8}
    (sized : default.length = valueLen t v) :
    Performs (fun (st' : TokenAccountState) data => data = accountData values st')
      (addExtension podAccount t default (values.write t v) overwrite (accountData values st))
      (st.initExtension t v overwrite) := by
  have written := initValue_tlvData laid.storable laid.distinct fits values (by decide) v
    overwrite sized
  exact onExtensions_accountData fits written fun _ => initExtension_kept fits

end Initialized

/-! ### Writers to data that are not initialized -/

section Uninitialized

variable {values : ValueBytes} {t : ExtensionType} {b : Buffer} {kind : AccountType}

/-- The zeroes in front of the extensions. -/
theorem tlvStart_eq (small : kind.baseLen ≤ baseAccountLength) (valid : kind.ValidLen b.len) :
    (List.replicate (min b.len baseAccountAndTypeLength) (0 : UInt8)).length =
      tlvStart kind b.len := by
  rw [List.length_replicate, tlvStart]
  have shape := valid.2
  simp only [baseAccountLength, baseAccountAndTypeLength] at small shape ⊢
  split <;> omega

/-- **An extension is set** in front of the initialization. -/
theorem stageExtension_zeroedData {S : Type} {B : PodBase S}
    (small : B.kind.baseLen ≤ baseAccountLength) (there : B.kind ≠ .uninitialized)
    {tlv : TlvData B.kind} (storable : Storable tlv.entries) (distinct : tlv.extensionTypes.Nodup)
    (fits : tlv.Fits)
    (found : PodStateWithExtensionsMut.unpackUninitialized B (zeroedData values tlv.toBuffer) =
      .ok (tlvStart B.kind tlv.len)) (v : Extension t) {default : List UInt8}
    (sized : default.length = valueLen t v) :
    Performs (fun (tlv' : TlvData B.kind) data => data = zeroedData values tlv'.toBuffer)
      (stageExtension B t default (values.write t v) (zeroedData values tlv.toBuffer))
      (tlv.initExtension t v true) := by
  rw [← tlvStart_eq small tlv.valid] at found
  have written := initValue_tlvData storable distinct fits values there v true sized
  refine (onExtensions_performs found written).mono ?_
  intro tlv' data ok held
  obtain ⟨rest, rfl, rfl⟩ := held
  rw [zeroedData, (initExtension_kept fits ok).1]

/-- Nothing is written where only the base has room. -/
theorem initAccountType_bare {data : List UInt8} (bare : data.length = kind.baseLen) :
    initAccountType kind data.length data = some (.ok (), data) := by
  have first : getFirstExtensionType (data.drop data.length) = .ok none := by
    rw [List.drop_length]
    rfl
  unfold initAccountType
  rw [bind_of_ok (reading_of (congrArg Panicking.of first)), bind_of_ok (m := len) rfl,
    onlyIf_neg (by rw [bare]; exact lt_irrefl _)]

/-- **The account type is written** in front of extensions of the kind. -/
theorem initAccountType_extended (values : ValueBytes) (small : kind.baseLen ≤ baseAccountLength)
    (storable : Storable b.entries) (ofKind : ∀ t ∈ b.extensionTypes.head?, t.getAccountType = kind)
    (front : List UInt8) (size : front.length = baseAccountLength) (byte : UInt8) :
    initAccountType kind baseAccountAndTypeLength (front ++ ([byte] ++ tlvData values b)) =
      some (.ok (), front ++ ([accountTypeByte kind] ++ tlvData values b)) := by
  have behind : (front ++ ([byte] ++ tlvData values b)).drop baseAccountAndTypeLength =
      tlvData values b := by
    rw [← List.append_assoc]
    refine List.drop_left' ?_
    rw [List.length_append, size]
    rfl
  have first := getFirstExtensionType_tlvData values storable
  rw [← behind] at first
  have long : kind.baseLen < (front ++ ([byte] ++ tlvData values b)).length := by
    rw [List.length_append, size, List.length_append, List.length_singleton]
    omega
  unfold initAccountType
  rw [bind_of_ok (reading_of (congrArg Panicking.of first)), bind_of_ok (m := len) rfl,
    onlyIf_pos long, bind_of_ok (check_pos ofKind _)]
  exact write_append front _ (by rw [size]; rfl) rfl

/-- Zeroes, in parts. -/
theorem flatten_zeroes (widths : List ℕ) :
    (widths.map fun n => List.replicate n (0 : UInt8)).flatten = List.replicate widths.sum 0 := by
  induction widths with
  | nil => rfl
  | cons n widths ih =>
    rw [List.map_cons, List.flatten_cons, ih, List.sum_cons, List.replicate_add]

/-- Data that are not initialized, as zeroes in the parts of a base. -/
theorem zeroedData_split (values : ValueBytes) (widths : List ℕ)
    (small : widths.sum ≤ min b.len baseAccountAndTypeLength) :
    zeroedData values b = (widths.map fun n => List.replicate n 0).flatten ++
      (List.replicate (min b.len baseAccountAndTypeLength - widths.sum) 0 ++ tlvData values b) := by
  rw [zeroedData, flatten_zeroes, ← List.append_assoc, ← List.replicate_add,
    Nat.add_sub_cancel' small]

/-- **The account type is written**, where there is one, behind a base and the zeroes that follow. -/
theorem initAccountType_zeroes (values : ValueBytes) (small : kind.baseLen ≤ baseAccountLength)
    (valid : kind.ValidLen b.len)
    (fits : Buffer.usedLen b.entries ≤ b.tlvLen) (storable : Storable b.entries)
    (ofKind : ∀ t ∈ b.extensionTypes.head?, t.getAccountType = kind) {base : List UInt8}
    (size : base.length = kind.baseLen) :
    initAccountType kind (tlvStart kind b.len) (base ++
        (List.replicate (min b.len baseAccountAndTypeLength - kind.baseLen) 0 ++ tlvData values b)) =
      some (.ok (), if b.len = kind.baseLen then base else base ++
        (List.replicate (baseAccountLength - kind.baseLen) 0 ++
          (accountTypeByte kind :: tlvData values b))) := by
  by_cases bare : b.len = kind.baseLen
  · have none : b.tlvLen = 0 := by
      simp only [Buffer.tlvLen, baseAccountLength, baseAccountAndTypeLength] at small ⊢
      omega
    have count : min b.len baseAccountAndTypeLength - kind.baseLen = 0 := by
      rw [← bare]
      omega
    rw [if_pos bare, count, tlvData_eq_nil fits none, List.replicate_zero, List.append_nil,
      List.append_nil, tlvStart, if_pos bare, bare, ← size]
    exact initAccountType_bare size
  · have front : min b.len baseAccountAndTypeLength = baseAccountAndTypeLength :=
      min_eq_right (valid.2.resolve_left bare)
    have count : baseAccountAndTypeLength - kind.baseLen = baseAccountLength - kind.baseLen + 1 := by
      simp only [baseAccountLength, baseAccountAndTypeLength] at small ⊢
      omega
    have long : (base ++ List.replicate (baseAccountLength - kind.baseLen) (0 : UInt8)).length =
        baseAccountLength := by
      rw [List.length_append, size, List.length_replicate]
      omega
    have written := initAccountType_extended values small storable ofKind _ long 0
    rw [if_neg bare, tlvStart, if_neg bare, front, count, List.replicate_add]
    rw [List.append_assoc, List.append_assoc] at written
    rw [List.append_assoc]
    exact written

end Uninitialized

/-! ### Opening an account -/

section Opening

variable {crates : Crates} {values : ValueBytes}

/-- **A mint is opened**: the fields that are not zero, then the account type. -/
theorem initializeMint_zeroedData {tlv : TlvData .mint} {base : PodMint}
    (fits : Buffer.usedLen tlv.entries ≤ tlv.tlvLen) (storable : Storable tlv.entries)
    (ofKind : ∀ t ∈ tlv.extensionTypes.head?, t.getAccountType = .mint) (empty : base.supply = 0)
    (found : PodStateWithExtensionsMut.unpackUninitialized (podMint crates)
      (zeroedData values tlv.toBuffer) = .ok (tlvStart .mint tlv.len)) :
    initializeMint crates base (zeroedData values tlv.toBuffer) =
      some (.ok (), mintData values { base, tlv }) := by
  have small : AccountType.mint.baseLen ≤ min tlv.len baseAccountAndTypeLength := by
    have shape := tlv.valid.2
    simp only [AccountType.baseLen, baseAccountAndTypeLength] at shape ⊢
    omega
  generalize behind : List.replicate (min tlv.len baseAccountAndTypeLength -
    AccountType.mint.baseLen) 0 ++ tlvData values tlv.toBuffer = rest
  have before : zeroedData values tlv.toBuffer = [List.replicate 36 0, List.replicate 8 0, [0], [0],
      List.replicate 36 0].flatten ++ rest :=
    (zeroedData_split values [36, 8, 1, 1, 36] small).trans (congrArg _ behind)
  have fields : [podCOptionKeyBytes base.mintAuthority, List.replicate 8 0, [.ofNat base.decimals],
      [1], podCOptionKeyBytes base.freezeAuthority].flatten = podMintBytes base := by
    have supply : u64Bytes (.ofNat base.supply) = List.replicate 8 0 := by
      rw [empty]
      rfl
    simp [podMintBytes, supply]
  have typed := initAccountType_zeroes values (le_of_lt (by decide)) tlv.valid fits storable ofKind
    (length_podMintBytes base)
  rw [behind, ← fields] at typed
  unfold initializeMint
  rw [bind_of_ok (reading_of (congrArg Panicking.of found)), before]
  refine (bind_of_ok (write_part rest (i := 0) (by simp) (by simp) (by simp))).trans ?_
  refine (bind_of_ok (write_part rest (i := 2) (by simp) (by simp) (by simp))).trans ?_
  refine (bind_of_ok (write_part rest (i := 3) (by simp) (by simp) (by simp))).trans ?_
  refine (bind_of_ok (write_part rest (i := 4) (by simp) (by simp) (by simp))).trans ?_
  exact typed.trans (by rw [fields]; rfl)

/-- The value with which an account starts is written as any other. -/
theorem initAccountExtensionFromType_of_some {tlv : TlvData .account} {t : ExtensionType}
    {v : Extension t} (known : TlvData.initialValue? t = some v) :
    tlv.initAccountExtensionFromType t = tlv.initExtension t v true := by
  cases t <;> cases known <;> rfl

/-- Of other types nothing is written. -/
theorem initAccountExtensionFromType_of_none {tlv : TlvData .account} {t : ExtensionType}
    (unknown : TlvData.initialValue? t = none) : tlv.initAccountExtensionFromType t = .ok tlv := by
  cases t <;> first | rfl | cases unknown

/-- **One extension that an account starts with.** -/
theorem initAccountExtensionFromType_tlvData (values : ValueBytes) {tlv : TlvData .account}
    (storable : Storable tlv.entries) (distinct : tlv.extensionTypes.Nodup) (fits : tlv.Fits)
    (t : ExtensionType) :
    Performs (fun (tlv' : TlvData .account) data => data = tlvData values tlv'.toBuffer)
      (Interface.initAccountExtensionFromType values t (tlvData values tlv.toBuffer))
      (tlv.initAccountExtensionFromType t) := by
  unfold Interface.initAccountExtensionFromType
  cases known : TlvData.initialValue? t with
  | none =>
    rw [initAccountExtensionFromType_of_none known]
    exact .of_ok rfl rfl
  | some v =>
    rw [initAccountExtensionFromType_of_some known]
    dsimp only
    have sized := values.length_write t v
    cases room : tlv.alloc .account t (valueLen t v) true with
    | error e =>
      obtain ⟨data, failed⟩ := initExtension_tlvData_error storable distinct fits values (by decide)
        room sized
      have step : tlv.initExtension t v true = .error e := by
        rw [TlvData.initExtension, room]
        rfl
      rw [step]
      exact .of_error (bind_of_error failed)
    | ok =>
      have typed := (require_bind_eq_ok_iff.mp room).1
      have named := ne_uninitialized_of_kind (by decide) typed
      obtain ⟨bounds, data, ran, -⟩ := initExtension_tlvData storable distinct fits values named room
        sized
      have bytes : (canonicalBuffer values tlv.toBuffer storable distinct).bytes =
        tlvData values tlv.toBuffer := bytes_canonicalBuffer
      have writes : Interface.Writes (canonicalBuffer values tlv.toBuffer storable distinct) t
          (values.write t v) data := by
        rw [← bytes] at ran
        exact initExtension_writes named ran
      have step : tlv.initExtension t v true = .ok (tlv.set t v) := by
        rw [TlvData.initExtension, room]
        rfl
      rw [step, bind_of_ok ran]
      exact .of_ok rfl (tlvData_of_writes fits writes)

/-- What the extensions keep that are written one after the other. -/
structure BeingOpened (values : ValueBytes) (base : PodAccount) (len : ℕ) (tlv : TlvData .account)
    (data : List UInt8) : Prop where
  laid : TokenAccountState.Laid { base, tlv }
  fits : tlv.Fits
  len : tlv.len = len
  bytes : data = zeroedData values tlv.toBuffer

/-- **All extensions that an account starts with**, one after the other. -/
theorem initAccountExtensions_zeroedData (values : ValueBytes) {base : PodAccount}
    {tlv : TlvData .account} (laid : TokenAccountState.Laid { base, tlv }) (fits : tlv.Fits)
    (types : List ExtensionType) :
    Performs (BeingOpened values base tlv.len)
      ((types.forM fun t => behind (tlvStart .account tlv.len)
        (Interface.initAccountExtensionFromType values t) : DataProgram PUnit)
          (zeroedData values tlv.toBuffer))
      (types.foldlM TlvData.initAccountExtensionFromType tlv) := by
  refine Performs.forM ?_ types ⟨laid, fits, rfl, rfl⟩
  intro mid data t opens
  obtain ⟨laid, fits, len, rfl⟩ := opens
  have start : (List.replicate (min mid.len baseAccountAndTypeLength) (0 : UInt8)).length =
    tlvStart .account mid.len := tlvStart_eq (le_refl 165) mid.valid
  have wrote := initAccountExtensionFromType_tlvData values laid.storable laid.distinct fits t
  rw [← len]
  refine (wrote.behind _ start).mono ?_
  intro tlv' data ok held
  obtain ⟨rest, rfl, rfl⟩ := held
  have kept : TokenAccountState.Laid { base, tlv := tlv' } ∧ tlv'.Fits ∧ tlv'.len = mid.len := by
    obtain rfl | ⟨v, -, written⟩ := TlvData.initAccountExtensionFromType_eq_ok ok
    · exact ⟨laid, fits, rfl⟩
    · obtain ⟨ofKind, -, same⟩ := TlvData.initExtension_eq_ok written
      obtain ⟨len, room⟩ := initExtension_kept fits written
      exact ⟨laid.put ofKind (congrArg (fun tlv : TlvData .account => tlv.entries) same), room, len⟩
  obtain ⟨laid', fits', len'⟩ := kept
  refine ⟨laid', fits', len', ?_⟩
  rw [zeroedData, len']

/-- **A token account is opened**: the extensions that it starts with, its fields, then the account
type. -/
theorem initializeAccount_zeroedData (values : ValueBytes) {tlv : TlvData .account}
    {base : PodAccount} (laid : TokenAccountState.Laid { base, tlv }) (fits : tlv.Fits)
    (found : PodStateWithExtensionsMut.unpackUninitialized podAccount
      (zeroedData values tlv.toBuffer) = .ok (tlvStart .account tlv.len))
    (types : List ExtensionType) :
    Performs (fun (st : TokenAccountState) data => data = accountData values st)
      (initializeAccount values types base (zeroedData values tlv.toBuffer))
      (types.foldlM TlvData.initAccountExtensionFromType tlv >>= fun tlv => .ok { base, tlv }) := by
  unfold initializeAccount
  rw [bind_of_ok (reading_of (congrArg Panicking.of found))]
  refine (initAccountExtensions_zeroedData values laid fits types).bind ?_
  intro tlv' data ok opens
  obtain ⟨laid', fits', len, rfl⟩ := opens
  have small : AccountType.account.baseLen ≤ min tlv'.len baseAccountAndTypeLength := by
    have shape := tlv'.valid.2
    simp only [AccountType.baseLen, baseAccountAndTypeLength] at shape ⊢
    omega
  generalize behind : List.replicate (min tlv'.len baseAccountAndTypeLength -
    AccountType.account.baseLen) 0 ++ tlvData values tlv'.toBuffer = rest
  have before : zeroedData values tlv'.toBuffer = [List.replicate 32 0, List.replicate 32 0,
      List.replicate 8 0, List.replicate 36 0, [0], List.replicate 12 0, List.replicate 8 0,
      List.replicate 36 0].flatten ++ rest :=
    (zeroedData_split values [32, 32, 8, 36, 1, 12, 8, 36] small).trans (congrArg _ behind)
  have fields : [addressBytes base.mint, addressBytes base.owner, u64Bytes (.ofNat base.amount),
      podCOptionKeyBytes base.delegate, [accountStateByte base.state],
      podCOptionU64Bytes base.isNative, u64Bytes (.ofNat base.delegatedAmount),
      podCOptionKeyBytes base.closeAuthority].flatten = podAccountBytes base := by
    simp [podAccountBytes]
  have typed := initAccountType_zeroes values (le_refl 165) tlv'.valid fits' laid'.storable
    (fun t first => laid'.kind t (List.mem_of_mem_head? first)) (length_podAccountBytes base)
  rw [behind, ← fields] at typed
  refine .of_ok ?_ rfl
  rw [before, ← len]
  -- The fields, in the order of the source.
  refine (bind_of_ok (write_part rest (i := 0) (by simp) (by simp) (by simp))).trans ?_
  refine (bind_of_ok (write_part rest (i := 1) (by simp) (by simp) (by simp))).trans ?_
  refine (bind_of_ok (write_part rest (i := 7) (by simp) (by simp) (by simp))).trans ?_
  refine (bind_of_ok (write_part rest (i := 3) (by simp) (by simp) (by simp))).trans ?_
  refine (bind_of_ok (write_part rest (i := 6) (by simp) (by simp) (by simp))).trans ?_
  refine (bind_of_ok (write_part rest (i := 4) (by simp) (by simp) (by simp))).trans ?_
  refine (bind_of_ok (write_part rest (i := 5) (by simp) (by simp) (by simp))).trans ?_
  refine (bind_of_ok (write_part rest (i := 2) (by simp) (by simp) (by simp))).trans ?_
  exact typed.trans (by rw [fields]; rfl)

/-- The keys of a multisig are written, one behind the other. -/
theorem writeSigners_append (signers : List Address) {front old rest : List UInt8} {position : ℕ}
    (place : front.length = 3 + 32 * position) (size : old.length = 32 * signers.length) :
    writeSigners position signers (front ++ (old ++ rest)) =
      some (.ok (), front ++ (signers.flatMap addressBytes ++ rest)) := by
  induction signers generalizing front old position with
  | nil =>
    obtain rfl := List.eq_nil_of_length_eq_zero size
    rfl
  | cons key keys ih =>
    rw [List.length_cons] at size
    have split : old = old.take 32 ++ old.drop 32 := (List.take_append_drop 32 old).symm
    have same : (addressBytes key).length = (old.take 32).length := by
      rw [length_addressBytes, List.length_take]
      omega
    have next : (front ++ addressBytes key).length = 3 + 32 * (position + 1) := by
      rw [List.length_append, length_addressBytes, place]
      omega
    have left : (old.drop 32).length = 32 * keys.length := by
      rw [List.length_drop]
      omega
    unfold writeSigners
    rw [split, List.append_assoc, bind_of_ok (write_append front _ place same), ← List.append_assoc,
      ih next left, List.flatMap_cons, List.append_assoc, List.append_assoc]

/-- Keys of zeroes are zeroes. -/
theorem flatMap_addressBytes_zeroes (n : ℕ) :
    (List.replicate n (0 : Address)).flatMap addressBytes = List.replicate (32 * n) 0 := by
  induction n with
  | zero => rfl
  | succ n ih =>
    rw [List.replicate_succ, List.flatMap_cons, ih, Nat.mul_add, Nat.add_comm, List.replicate_add]
    rfl

/-- What `_process_initialize_multisig` makes of data. -/
def AccountData.initializeMultisig (m : ℕ) (signers : List Address) (data : AccountData) :
    ProgramResult AccountData := do
  require (data.len = multisigLen) .invalidArgument
  match data with
  | .zeroed _ => do
    require (isValidSignerIndex signers.length) TokenError.invalidNumberOfProvidedSigners
    require (isValidSignerIndex m) TokenError.invalidNumberOfRequiredSigners
    .ok (.multisig { m, signers })
  | _ => .error TokenError.alreadyInUse

/-- The bytes hold the data. -/
def AccountData.Held (values : ValueBytes) (data : AccountData) (bytes : List UInt8) : Prop :=
  data.bytes? values = some bytes

/-- **A multisig is opened.** -/
theorem initializeMultisig_zeroes (flags : crates.Flags) (values : ValueBytes) (m : UInt8)
    {signers : List Address} (few : signers.length < 2 ^ 8) {b : Buffer} (long : b.len = multisigLen) :
    Performs (AccountData.Held values)
      (initializeMultisig crates m signers (List.replicate multisigLen 0))
      ((AccountData.zeroed b).initializeMultisig m.toNat signers) := by
  have count : (UInt8.ofNat signers.length).toNat = signers.length := by
    rw [UInt8.toNat_ofNat', Nat.mod_eq_of_lt few]
  generalize tail : List.replicate (32 * maxSigners) (0 : UInt8) = keys
  have before : List.replicate multisigLen (0 : UInt8) = [[0], [0], [0]].flatten ++ keys := by
    rw [← tail]
    exact List.replicate_add 3 (32 * maxSigners) 0
  have length : ([[0], [0], [0]].flatten ++ keys).length = multisigLen := by
    rw [← before, List.length_replicate]
  have zero : crates.bool (byteAt ([[0], [0], [0]].flatten ++ keys) 2) = false := flags 0
  unfold initializeMultisig AccountData.initializeMultisig
  rw [require_bind, if_pos (show (AccountData.zeroed b).len = multisigLen from long), before]
  refine .past (m := len) rfl ?_
  refine .past (check_pos length _) ?_
  refine .past (reading_of rfl) ?_
  rw [zero]
  refine .past (check_pos rfl _) ?_
  refine .past (write_part keys (i := 0) (by simp) (by simp) (by simp)) ?_
  refine .past (write_part keys (i := 1) (by simp) (by simp) (by simp)) ?_
  dsimp only
  rw [require_bind, require_bind, count]
  by_cases provided : isValidSignerIndex signers.length = true
  · refine .past (check_pos provided _) ?_
    rw [if_pos provided]
    by_cases required : isValidSignerIndex m.toNat = true
    · refine .past (check_pos required _) ?_
      rw [if_pos required]
      have room : signers.length ≤ maxSigners :=
        of_decide_eq_true (Bool.and_eq_true_iff.mp provided).2
      have split : keys = List.replicate (32 * signers.length) 0 ++
          List.replicate (32 * (maxSigners - signers.length)) 0 := by
        rw [← tail, ← List.replicate_add, ← Nat.mul_add, Nat.add_sub_cancel' room]
      have place : ((([[0], [0], [0]].set 0 [m]).set 1
          [.ofNat signers.length]).flatten : List UInt8).length = 3 + 32 * 0 := rfl
      rw [split]
      refine .past (writeSigners_append signers place (List.length_replicate ..)) ?_
      refine .of_ok (write_part _ (i := 2) (by simp) (by simp) (by simp)) ?_
      have packed : ({ m := m.toNat, signers } : PodMultisig).bytes
          (List.replicate (maxSigners - signers.length) 0) =
            [m] ++ [.ofNat signers.length] ++ [1] ++ (signers.flatMap addressBytes ++
              List.replicate (32 * (maxSigners - signers.length)) 0) := by
        rw [← flatMap_addressBytes_zeroes, ← List.flatMap_append]
        show [UInt8.ofNat m.toNat] ++ _ ++ _ ++ _ = _
        rw [UInt8.ofNat_toNat]
        rfl
      exact congrArg some packed
    · rw [if_neg required]
      exact .of_error (bind_of_error (check_neg required _))
  · rw [if_neg provided]
    exact .of_error (bind_of_error (check_neg provided _))

end Opening

/-! ### Every account -/

/-- **The writers do to the bytes what the ledger does to the data**, and fail with the same error: the
assignments to the base of an initialized state and to the values of its extensions, new extensions of
an account, and the writers in front of and at an initialization. -/
structure WritesAs (crates : Crates) (values : ValueBytes) (bytes : List UInt8) (data : AccountData) :
    Prop where
  accountBase : ∀ base, Performs (AccountData.Held values)
    (assignBase podAccount (podAccountBytes base) bytes) (do
      let st ← unpackAccount data
      .ok (.account (st.withBase base)))
  mintBase : ∀ base, Performs (AccountData.Held values)
    (assignBase (podMint crates) (podMintBytes base) bytes) (do
      let mint ← unpackMint data
      .ok (.mint (mint.withBase base)))
  accountExtension : ∀ t, t.getAccountType = .account → ∀ e : Extension t,
    Performs (AccountData.Held values) (assignExtension podAccount t (values.write t e) bytes) (do
      let st ← unpackAccount data
      let _ ← st.getExtension t
      .ok (.account (st.set t e)))
  mintExtension : ∀ t, t.getAccountType = .mint → t ≠ .tokenMetadata → ∀ e : Extension t,
    Performs (AccountData.Held values) (assignExtension (podMint crates) t (values.write t e) bytes) (do
      let mint ← unpackMint data
      let _ ← mint.getExtension t
      .ok (.mint (mint.set t e)))
  newExtension : ∀ t (v : Extension t) (overwrite : Bool) (default : List UInt8),
    default.length = valueLen t v → Performs (AccountData.Held values)
      (addExtension podAccount t default (values.write t v) overwrite bytes) (do
        let st ← unpackAccount data
        let st ← st.initExtension t v overwrite
        .ok (.account st))
  stageAccount : ∀ t (v : Extension t) (default : List UInt8), default.length = valueLen t v →
    Performs (AccountData.Held values) (stageExtension podAccount t default (values.write t v) bytes) (do
      let tlv ← unpackUninitialized .account data
      let tlv ← tlv.initExtension t v true
      .ok (.zeroed tlv.toBuffer))
  stageMint : ∀ t (v : Extension t) (default : List UInt8), default.length = valueLen t v →
    Performs (AccountData.Held values)
      (stageExtension (podMint crates) t default (values.write t v) bytes) (do
        let tlv ← unpackUninitialized .mint data
        let tlv ← tlv.initExtension t v true
        .ok (.zeroed tlv.toBuffer))
  openAccount : ∀ types base, Performs (AccountData.Held values)
    (initializeAccount values types base bytes) (do
      let tlv ← unpackUninitialized .account data
      let tlv ← types.foldlM TlvData.initAccountExtensionFromType tlv
      .ok (.account { base, tlv }))
  openMint : ∀ base, base.supply = 0 → Performs (AccountData.Held values)
    (initializeMint crates base bytes) (do
      let tlv ← unpackUninitialized .mint data
      .ok (.mint { base, tlv }))
  /-- An instruction counts its accounts in a byte. -/
  openMultisig : ∀ (m : UInt8) (signers : List Address), signers.length < 2 ^ 8 →
    Performs (AccountData.Held values) (initializeMultisig crates m signers bytes)
      (data.initializeMultisig m.toNat signers)

section Readers

variable {crates : Crates} {values : ValueBytes} {bytes : List UInt8} {data : AccountData}
  {e : ProgramError}

/-- Where there is no account for the reader, there is none for the writers. -/
theorem ReadsAs.unpackMut_account (reads : ReadsAs crates values bytes data)
    (failed : unpackAccount data = .error e) :
    PodStateWithExtensionsMut.unpack podAccount bytes = .error e := by
  apply unpackMut_of_error
  rw [reads.account, failed]
  rfl

/-- Where there is no mint for the reader, there is none for the writers. -/
theorem ReadsAs.unpackMut_mint (reads : ReadsAs crates values bytes data)
    (failed : unpackMint data = .error e) :
    PodStateWithExtensionsMut.unpack (podMint crates) bytes = .error e := by
  apply unpackMut_of_error
  rw [reads.mint, failed]
  rfl

section Held

variable {run : Option (ProgramResult Unit × List UInt8)}

/-- The bytes of a token account hold it. -/
theorem held_account {step : ProgramResult TokenAccountState}
    (performs : Performs (fun st data => data = accountData values st) run step) :
    Performs (AccountData.Held values) run (step >>= fun st => .ok (.account st)) := by
  apply performs.map
  intro st data _ same
  exact congrArg some same.symm

/-- The bytes of a mint hold it. -/
theorem held_mint {step : ProgramResult MintState}
    (performs : Performs (fun mint data => data = mintData values mint) run step) :
    Performs (AccountData.Held values) run (step >>= fun mint => .ok (.mint mint)) := by
  apply performs.map
  intro mint data _ same
  exact congrArg some same.symm

/-- The bytes of data that are not initialized hold them. -/
theorem held_zeroed {kind : AccountType} {step : ProgramResult (TlvData kind)}
    (performs : Performs (fun tlv data => data = zeroedData values tlv.toBuffer) run step) :
    Performs (AccountData.Held values) run (step >>= fun tlv => .ok (.zeroed tlv.toBuffer)) := by
  apply performs.map
  intro tlv data _ same
  exact congrArg some same.symm

end Held

/-- A program in front of an initialization fails where its reader does. -/
theorem reading_error {α β : Type} {reader : List UInt8 → ProgramResult α} {f : α → DataProgram β}
    (failed : reader bytes = .error e) :
    ((reading fun data => .of (reader data)) >>= f : DataProgram β) bytes =
      some (.error e, bytes) := by
  rw [bind_of_error (reading_of (congrArg Panicking.of failed))]

end Readers

section Ledgers

variable {crates : Crates} {values : ValueBytes} {bytes : List UInt8} {data : AccountData}

/-- The extensions in front of an initialization, as a reader of a kind finds them. -/
theorem AccountData.Laid.unpacked {kind : AccountType} {tlv : TlvData kind} (laid : data.Laid)
    (fits : data.Fits) (found : unpackUninitialized kind data = .ok tlv) :
    tlv.toBuffer.Staged kind ∧ tlv.Fits := by
  obtain rfl := unpackUninitialized_eq_ok found
  obtain ⟨prepared, staged⟩ := laid
  exact ⟨staged.of_unpacked found, fits⟩

/-- Data of a multisig's length that are not initialized are zeroes. -/
theorem zeroedData_of_multisigLen (values : ValueBytes) {b : Buffer} {kind : AccountType}
    (staged : b.Staged kind) (long : b.len = multisigLen) :
    zeroedData values b = List.replicate multisigLen 0 := by
  have none : b.entries = [] := by
    by_contra some
    refine (staged.length ?_).1 long
    intro bare
    exact some (List.map_eq_nil_iff.mp bare)
  have tail : tlvData values b = List.replicate (multisigLen - baseAccountAndTypeLength) 0 := by
    rw [tlvData, none, Buffer.tlvLen, long]
    rfl
  rw [zeroedData, tail, long, ← List.replicate_add]
  rfl

/-- **A multisig is opened only in data that are not initialized.** -/
theorem ReadsAs.opensMultisig (reads : ReadsAs crates values bytes data) (flags : crates.Flags)
    (laid : data.Laid) (stored : data.bytes? values = some bytes) (m : UInt8)
    {signers : List Address} (few : signers.length < 2 ^ 8) :
    Performs (AccountData.Held values) (initializeMultisig crates m signers bytes)
      (data.initializeMultisig m.toNat signers) := by
  have length := reads.length
  have multisig := reads.multisig
  by_cases long : data.len = multisigLen
  · cases data with
    | zeroed b =>
      obtain ⟨kind, staged⟩ := laid
      have same : bytes = zeroedData values b := (Option.some.inj stored).symm
      rw [same, zeroedData_of_multisigLen values staged long]
      exact initializeMultisig_zeroes flags values m few long
    | mint mint => exact absurd long mint.tlv.valid.1
    | account st => exact absurd long st.tlv.valid.1
    | multisig state =>
      have flag : crates.bool (byteAt bytes 2) = true := by
        cases read : unpackPodMultisig crates bytes with
        | error e =>
          rw [read] at multisig
          cases multisig
        | ok found =>
          exact (require_bind_eq_ok_iff.mp (require_bind_eq_ok_iff.mp read).2).1
      unfold initializeMultisig
      refine .past (m := len) rfl ?_
      refine .past (check_pos (length.trans long) _) ?_
      refine .past (reading_of rfl) ?_
      rw [flag]
      exact .of_error (bind_of_error (check_neg Bool.true_eq_false.mp _))
    | elgamalRegistry | proofContext | other => exact absurd laid id
  · unfold initializeMultisig AccountData.initializeMultisig
    rw [require_bind, if_neg long]
    refine .past (m := len) rfl ?_
    exact .of_error (bind_of_error (check_neg (by rwa [length]) _))

/-- **Data that are laid out and fit** are written to as the ledger writes to them. -/
theorem AccountData.writesAs (flags : crates.Flags) (laid : data.Laid) (fits : data.Fits)
    (stored : data.bytes? values = some bytes) (reads : ReadsAs crates values bytes data) :
    WritesAs crates values bytes data := by
  have account : ∀ {st}, unpackAccount data = .ok st →
      bytes = accountData values st ∧ TokenAccountState.Laid st ∧ st.tlv.Fits := by
    intro st found
    obtain rfl := unpackAccount_eq_ok_iff.mp found
    exact ⟨(Option.some.inj stored).symm, laid, fits⟩
  have mint : ∀ {mint}, unpackMint data = .ok mint →
      bytes = mintData values mint ∧ MintState.Laid mint := by
    intro mint found
    obtain rfl := unpackMint_eq_ok_iff.mp found
    exact ⟨(Option.some.inj stored).symm, laid⟩
  have zeroed : ∀ {kind} {tlv : TlvData kind}, unpackUninitialized kind data = .ok tlv →
      bytes = zeroedData values tlv.toBuffer := by
    intro kind tlv found
    obtain rfl := unpackUninitialized_eq_ok found
    exact (Option.some.inj stored).symm
  have account_ne : AccountType.account ≠ .uninitialized := by decide
  have mint_ne : AccountType.mint ≠ .uninitialized := by decide
  refine { accountBase := ?_, mintBase := ?_, accountExtension := ?_, mintExtension := ?_,
           newExtension := ?_, stageAccount := ?_, stageMint := ?_, openAccount := ?_,
           openMint := ?_, openMultisig := ?_ }
  · intro base
    refine .after (fun e failed => ⟨_, assignBase_error (reads.unpackMut_account failed)⟩) ?_
    intro st found
    obtain ⟨rfl, -, fits⟩ := account found
    exact .of_ok (assignBase_accountData st base fits) rfl
  · intro base
    refine .after (fun e failed => ⟨_, assignBase_error (reads.unpackMut_mint failed)⟩) ?_
    intro mint' found
    obtain ⟨rfl, laid⟩ := mint found
    exact .of_ok (assignBase_mintData mint' base laid.fits) rfl
  · intro t typed e
    refine .after (fun e failed => ⟨_, onExtensions_error (reads.unpackMut_account failed)⟩) ?_
    intro st found
    obtain ⟨rfl, laid, fits⟩ := account found
    have wrote := held_account (assignExtension_accountData values laid fits typed e)
    rwa [bind_assoc] at wrote
  · intro t typed sized e
    refine .after (fun e failed => ⟨_, onExtensions_error (reads.unpackMut_mint failed)⟩) ?_
    intro mint' found
    obtain ⟨rfl, laid⟩ := mint found
    have wrote := held_mint (assignExtension_mintData crates values laid typed sized e)
    rwa [bind_assoc] at wrote
  · intro t v overwrite default sized
    refine .after (fun e failed => ⟨_, onExtensions_error (reads.unpackMut_account failed)⟩) ?_
    intro st found
    obtain ⟨rfl, laid, fits⟩ := account found
    exact held_account (addExtension_accountData laid fits v overwrite sized)
  · intro t v default sized
    refine .after (fun e failed => ⟨_, onExtensions_error ?_⟩) ?_
    · rw [reads.newAccount, failed]
      rfl
    · intro tlv found
      obtain ⟨staged, fits⟩ := laid.unpacked fits found
      obtain rfl := zeroed found
      have start := reads.newAccount
      rw [found] at start
      exact held_zeroed (stageExtension_zeroedData (B := podAccount) (le_refl 165) account_ne
        staged.storable staged.distinct fits start v sized)
  · intro t v default sized
    refine .after (fun e failed => ⟨_, onExtensions_error ?_⟩) ?_
    · rw [reads.newMint, failed]
      rfl
    · intro tlv found
      obtain ⟨staged, fits⟩ := laid.unpacked fits found
      obtain rfl := zeroed found
      have start := reads.newMint
      rw [found] at start
      exact held_zeroed (stageExtension_zeroedData (B := podMint crates) (show 82 ≤ 165 by omega)
        mint_ne staged.storable staged.distinct fits start v sized)
  · intro types base
    refine .after (fun e failed => ⟨_, reading_error ?_⟩) ?_
    · rw [reads.newAccount, failed]
      rfl
    · intro tlv found
      obtain ⟨staged, fits⟩ := laid.unpacked fits found
      obtain rfl := zeroed found
      have start := reads.newAccount
      rw [found] at start
      have laid : TokenAccountState.Laid { base, tlv } :=
        ⟨staged.distinct, fun t member => getAccountType_of_staged (staged.staged t member)⟩
      have wrote := held_account (initializeAccount_zeroedData values laid fits start types)
      rwa [bind_assoc] at wrote
  · intro base empty
    refine .after (fun e failed => ⟨_, reading_error ?_⟩) ?_
    · rw [reads.newMint, failed]
      rfl
    · intro tlv found
      obtain ⟨staged, fits⟩ := laid.unpacked fits found
      obtain rfl := zeroed found
      have start := reads.newMint
      rw [found] at start
      exact .of_ok (initializeMint_zeroedData fits staged.storable
        (fun t first => getAccountType_of_staged (staged.staged t (List.mem_of_mem_head? first)))
          empty start) rfl
  · intro m signers few
    exact reads.opensMultisig flags laid stored m few

end Ledgers

/-- **The writers on bytes do what the ledger does.** In every reachable ledger every account of the
program has bytes. A writer that is run on these leaves the bytes of the data to which the ledger comes
by the same step, or fails with the same error, and does not panic: the assignments to the base of an
account or a mint and to the value of an extension, a new extension of an account, what is set in front
of an initialization, and the initializations of accounts, mints and multisigs. -/
theorem bytes_written_as_ledger {crates : Crates} (flags : crates.Flags) (values : ValueBytes)
    {L : Ledger} (reachable : Reachable L) {a : Address} (owned : (L a).owner = programId) :
    ∃ bytes, (L a).data.bytes? values = some bytes ∧ WritesAs crates values bytes (L a).data := by
  have laid := reachable.laid owned
  have fits := reachable.fits owned
  obtain ⟨bytes, stored, reads⟩ := AccountData.readsAs values flags laid fits
    (reachable.bounded owned)
  exact ⟨bytes, stored, AccountData.writesAs flags laid fits stored reads⟩

section Example

open Basic

/-- On the bytes of a new account a multisig of two out of three keys is opened. -/
theorem bytes_written_as_ledger_multisig : ∃ L bytes bytes',
    runAll .fresh [.allocate mint multisigLen] = .ok L ∧
    (L mint).data.bytes? .zeroed = some bytes ∧
    WritesAs Crates.basic .zeroed bytes (L mint).data ∧
    initializeMultisig Crates.basic 2 [source, owner, other] bytes = some (.ok (), bytes') ∧
    (AccountData.multisig ⟨2, [source, owner, other]⟩).Held .zeroed bytes' := by
  have leads : LeadsTo (runAll .fresh [.allocate mint multisigLen]) fun L =>
      (L mint).owner = programId ∧ (L mint).data.initializeMultisig 2 [source, owner, other] =
        .ok (.multisig ⟨2, [source, owner, other]⟩) := by
    decide +kernel
  obtain ⟨L, ran, owned, opens⟩ := leads.exists
  obtain ⟨bytes, stored, writes⟩ :=
    bytes_written_as_ledger Crates.flags_basic .zeroed (.of_runAll .fresh ran) owned
  have performs := writes.openMultisig 2 [source, owner, other] (by decide)
  have step : (L mint).data.initializeMultisig (UInt8.toNat 2) [source, owner, other] =
    .ok (.multisig ⟨2, [source, owner, other]⟩) := opens
  rw [step] at performs
  obtain ⟨bytes', opened, held⟩ := performs.ok
  exact ⟨L, bytes, bytes', ran, stored, writes, opened, held⟩

end Example

end Token2022
