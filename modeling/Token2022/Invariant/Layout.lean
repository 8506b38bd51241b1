/-
**How the program's accounts are laid out.**

Extensions are set by their own instructions before a mint or an account is initialized; only
`InitializeMint` looks at the length and at the combination. Afterwards a mint grows and shrinks with
what it says about itself.

* `Buffer.Staged` — what is written in front of the initialization: distinct extensions of one kind.
* `MintState.Extended`, `MintState.Laid` — a mint with extensions, and either layout of a mint.
* `TokenAccountState.Laid`, **`AccountData.Laid`** — the layout of an account, and of any data.
* **`Change.laid`** — every write keeps the layout; **`Reachable.laid`** — all data of the program
  has it in every reachable ledger.
* `AccountData.Fits`, **`Change.fits`**, **`Reachable.fits`** — the extensions of an account, or of one
  to be, fit into its data.
-/

import Mathlib.Data.List.TakeWhile
import Token2022.Writes.Program

namespace Token2022

open Fallible KeyedList

/-! ### Lengths of entries -/

/-- Every value but the metadata has the length of its type. -/
theorem valueLen_eq_typeLen {t : ExtensionType} (sized : t ≠ .tokenMetadata) (v : Extension t) :
    valueLen t v = t.typeLen := by
  cases t <;> first | rfl | exact absurd rfl sized

namespace Buffer

/-- A value that is written over an old one takes its place. -/
theorem usedLen_put_of_find {entries : List Entry} {t : ExtensionType} {old v : Extension t}
    (held : find t entries = some old) :
    usedLen (put t v entries) + valueLen t old = usedLen entries + valueLen t v := by
  induction entries with
  | nil => cases held
  | cons e entries ih =>
    obtain ⟨t', v'⟩ := e
    by_cases same : t' = t
    · subst same
      rw [find_cons_self] at held
      obtain rfl := Option.some.inj held
      simp only [put, if_pos, usedLen_cons, ExtensionType.addTypeAndLengthToLen]
      omega
    · rw [find_cons_of_ne same] at held
      have rest := ih held
      simp only [put, if_neg same, usedLen_cons]
      omega

/-- A new value stands behind the others. -/
theorem usedLen_put_of_absent {entries : List Entry} {t : ExtensionType} {v : Extension t}
    (absent : find t entries = none) :
    usedLen (put t v entries) =
      usedLen entries + ExtensionType.addTypeAndLengthToLen (valueLen t v) := by
  induction entries with
  | nil => simp only [put, usedLen_cons, usedLen_nil, Nat.zero_add, Nat.add_zero]
  | cons e entries ih =>
    obtain ⟨t', v'⟩ := e
    by_cases same : t' = t
    · subst same
      rw [find_cons_self] at absent
      cases absent
    · rw [find_cons_of_ne same] at absent
      have rest := ih absent
      simp only [put, if_neg same, usedLen_cons]
      omega

/-- The entry of a held value is one of the row. -/
theorem addLen_le_usedLen {entries : List Entry} {t : ExtensionType} {v : Extension t}
    (held : find t entries = some v) :
    ExtensionType.addTypeAndLengthToLen (valueLen t v) ≤ usedLen entries := by
  induction entries with
  | nil => cases held
  | cons e entries ih =>
    obtain ⟨t', v'⟩ := e
    rw [usedLen_cons]
    by_cases same : t' = t
    · subst same
      rw [find_cons_self] at held
      obtain rfl := Option.some.inj held
      exact Nat.le_add_right ..
    · rw [find_cons_of_ne same] at held
      exact (ih held).trans (Nat.le_add_left ..)

/-- Where an extension is not there, it stands behind all entries. -/
theorem usedLen_takeWhile_of_absent {entries : List Entry} {t : ExtensionType}
    (absent : find t entries = none) :
    usedLen (entries.takeWhile fun e => e.1 ≠ t) = usedLen entries := by
  have all : ∀ e ∈ entries, e.1 ≠ t := by
    rintro e member rfl
    exact find_eq_none_iff.mp absent (List.mem_map_of_mem member)
  rw [List.takeWhile_eq_self_iff.mpr fun e member => decide_eq_true (all e member)]

/-- The bytes of entries of the lengths of their types. -/
theorem usedLen_eq_of_sized {entries : List Entry}
    (sized : ∀ t ∈ entries.keys, t ≠ .tokenMetadata) :
    usedLen entries =
      (entries.keys.map fun t => ExtensionType.addTypeAndLengthToLen t.typeLen).sum := by
  induction entries with
  | nil => rfl
  | cons e entries ih =>
    rw [List.keys_cons] at sized ⊢
    rw [usedLen_cons, ih fun t member => sized t (List.mem_cons_of_mem _ member),
      valueLen_eq_typeLen (sized _ List.mem_cons_self), List.map_cons, List.sum_cons]

end Buffer

/-- The entries after a write: the one that was written, and old ones. -/
theorem mem_put {t : ExtensionType} {v : Extension t} {entries : List Entry} {e : Entry}
    (member : e ∈ put t v entries) : e = ⟨t, v⟩ ∨ e ∈ entries := by
  induction entries with
  | nil => exact .inl (List.mem_singleton.mp member)
  | cons first entries ih =>
    obtain ⟨t', v'⟩ := first
    by_cases same : t' = t
    · rw [put, if_pos same] at member
      exact (List.mem_cons.mp member).imp id (List.mem_cons_of_mem _)
    · rw [put, if_neg same] at member
      rcases List.mem_cons.mp member with rfl | member
      · exact .inr List.mem_cons_self
      · exact (ih member).imp id (List.mem_cons_of_mem _)

/-! ### The length that `InitializeMint` asks for -/

/-- The loop of the accumulator, on types that it has not seen. -/
theorem TlvLenAccumulator.foldlM_insert {types : List ExtensionType}
    {acc acc' : TlvLenAccumulator} (distinct : types.Nodup) (fresh : ∀ t ∈ types, t ∉ acc.seen)
    (ok : types.foldlM insert acc = .ok acc') :
    acc'.byteCount = acc.byteCount +
        (types.map fun t => ExtensionType.addTypeAndLengthToLen t.typeLen).sum ∧
      (acc'.seen = [] ↔ types = [] ∧ acc.seen = []) := by
  induction types generalizing acc with
  | nil =>
    obtain rfl := Except.ok.inj ok
    simp
  | cons t types ih =>
    obtain ⟨mid, inserted, ok⟩ := bind_eq_ok_iff.mp ok
    rw [insert, if_neg (fresh t List.mem_cons_self)] at inserted
    obtain ⟨len, sized, same⟩ := bind_eq_ok_iff.mp inserted
    obtain rfl := Except.ok.inj same
    obtain ⟨typeLen, known, added⟩ := bind_eq_ok_iff.mp sized
    obtain rfl := Except.ok.inj added
    have length : typeLen = t.typeLen := by
      unfold ExtensionType.tryGetTypeLen at known
      split at known
      · exact (Except.ok.inj known).symm
      · cases known
    subst length
    rw [List.nodup_cons] at distinct
    obtain ⟨count, seen⟩ := ih distinct.2 (fun t' member inside => by
      rcases List.mem_cons.mp inside with rfl | inside
      · exact distinct.1 member
      · exact fresh t' (List.mem_cons_of_mem _ member) inside) ok
    refine ⟨?_, by simp [seen]⟩
    rw [count, List.map_cons, List.sum_cons, ← Nat.add_assoc]

/-- **The length of a state of distinct extensions.** -/
theorem tryCalculateAccountLen_eq_ok {kind : AccountType} {types : List ExtensionType} {len : ℕ}
    (distinct : types.Nodup) (ok : tryCalculateAccountLen kind types = .ok len) :
    len = if types = [] then kind.baseLen else adjustLenForMultisig
      ((types.map fun t => ExtensionType.addTypeAndLengthToLen t.typeLen).sum +
        baseAccountAndTypeLength) := by
  obtain ⟨acc, folded, same⟩ := bind_eq_ok_iff.mp ok
  obtain rfl := Except.ok.inj same
  obtain ⟨count, seen⟩ := TlvLenAccumulator.foldlM_insert distinct (by simp) folded
  rw [TlvLenAccumulator.accountLen, count, Nat.zero_add]
  simp [seen]

/-! ### Layouts -/

/-- The pointer without which a mint does not carry what it says about itself. -/
def ExtensionType.pointer? : ExtensionType → Option ExtensionType
  | .tokenMetadata => some .metadataPointer
  | .tokenGroup => some .groupPointer
  | .tokenGroupMember => some .groupMemberPointer
  | _ => none

/-- **What is written in front of the initialization**: distinct extensions that are set before an
account of the kind is initialized, in data that such an account may have. -/
structure Buffer.Staged (kind : AccountType) (b : Buffer) : Prop where
  distinct : b.extensionTypes.Nodup
  staged : ∀ t ∈ b.extensionTypes, t ∈ stagedTypes kind
  length : b.extensionTypes ≠ [] → kind.ValidLen b.len

/-- **The layout of a mint with extensions.** -/
structure MintState.Extended (mint : MintState) : Prop where
  carries : mint.extensionTypes ≠ []
  distinct : mint.extensionTypes.Nodup
  kind : ∀ t ∈ mint.extensionTypes, t.getAccountType = .mint
  valid : ExtensionType.ValidCombination mint.extensionTypes
  pointed : ∀ t ∈ mint.extensionTypes, ∀ p, t.pointer? = some p → p ∈ mint.extensionTypes
  short : ∀ e ∈ mint.tlv.entries, valueLen e.1 e.2 < 2 ^ 16
  length : mint.tlv.len =
    adjustLenForMultisig (Buffer.usedLen mint.tlv.entries + baseAccountAndTypeLength)

/-- **The layout of a mint**: bare, or with extensions. -/
def MintState.Laid (mint : MintState) : Prop :=
  mint.tlv.toBuffer = ⟨[], AccountType.mint.baseLen⟩ ∨ mint.Extended

/-- The layout of a token account, as far as its extensions go. -/
structure TokenAccountState.Laid (st : TokenAccountState) : Prop where
  distinct : st.extensionTypes.Nodup
  kind : ∀ t ∈ st.extensionTypes, t.getAccountType = .account

/-- **The layout of the program's data.** -/
def AccountData.Laid : AccountData → Prop
  | .zeroed b => ∃ kind, b.Staged kind
  | .mint state => MintState.Laid state
  | .account state => TokenAccountState.Laid state
  | .multisig _ => True
  | _ => False

/-! ### In front of the initialization -/

theorem getAccountType_of_staged {kind : AccountType} {t : ExtensionType}
    (staged : t ∈ stagedTypes kind) : t.getAccountType = kind := by
  have all : ∀ kind, ∀ t ∈ stagedTypes kind, t.getAccountType = kind := by
    intro kind
    cases kind <;> decide
  exact all kind t staged

theorem sized_of_staged {kind : AccountType} {t : ExtensionType} (staged : t ∈ stagedTypes kind) :
    t ≠ .tokenMetadata := by
  rintro rfl
  cases kind <;> exact absurd staged (by decide)

theorem pointer?_of_staged {kind : AccountType} {t : ExtensionType}
    (staged : t ∈ stagedTypes kind) : t.pointer? = none := by
  have all : ∀ kind, ∀ t ∈ stagedTypes kind, t.pointer? = none := by
    intro kind
    cases kind <;> decide
  exact all kind t staged

theorem valueLen_lt_of_sized {t : ExtensionType} (sized : t ≠ .tokenMetadata) (v : Extension t) :
    valueLen t v < 2 ^ 16 := by
  rw [valueLen_eq_typeLen sized]
  cases t <;> decide

/-- **Data that is unpacked as a kind was prepared for it.** -/
theorem Buffer.Staged.of_unpacked {kind prepared : AccountType} {tlv : TlvData kind}
    (staged : tlv.toBuffer.Staged prepared)
    (unpacked : unpackUninitialized kind (.zeroed tlv.toBuffer) = .ok tlv) :
    tlv.toBuffer.Staged kind := by
  have same : ∀ t ∈ tlv.extensionTypes, prepared = kind := by
    have first : tlv.entries.head?.all (fun e => e.1.getAccountType = kind) = true := by
      simp only [unpackUninitialized] at unpacked
      split at unpacked
      · split at unpacked
        · assumption
        · cases unpacked
      · cases unpacked
    intro t member
    cases shape : tlv.entries with
    | nil => rw [Buffer.extensionTypes, shape] at member; cases member
    | cons e entries =>
      rw [shape] at first
      have ofKind : e.1.getAccountType = kind := by simpa using first
      have head : e.1 ∈ tlv.extensionTypes := by
        rw [Buffer.extensionTypes, shape, List.keys_cons]
        exact List.mem_cons_self
      exact (getAccountType_of_staged (staged.staged _ head)).symm.trans ofKind
  exact ⟨staged.distinct, fun t member => same t member ▸ staged.staged t member, fun _ => tlv.valid⟩

/-- **One more extension is set.** -/
theorem Buffer.Staged.initExtension {kind : AccountType} {tlv tlv' : TlvData kind}
    {t : ExtensionType} {v : Extension t} (staged : tlv.toBuffer.Staged kind)
    (ofKind : t ∈ stagedTypes kind) (written : tlv.initExtension t v true = .ok tlv') :
    tlv'.toBuffer.Staged kind := by
  obtain ⟨-, -, rfl⟩ := TlvData.initExtension_eq_ok written
  refine ⟨nodup_keys_put staged.distinct, fun t' member => ?_, fun _ => tlv.valid⟩
  rcases (mem_keys_put v).mp member with rfl | member
  · exact ofKind
  · exact staged.staged t' member

/-- **`InitializeMint` leaves a mint that is laid out.** -/
theorem Buffer.Staged.mint {tlv : TlvData .mint} {base : PodMint}
    (staged : tlv.toBuffer.Staged .mint)
    (len : tryCalculateAccountLen .mint tlv.extensionTypes = .ok tlv.len)
    (valid : ExtensionType.ValidCombination tlv.extensionTypes) :
    MintState.Laid { base, tlv } := by
  have length := tryCalculateAccountLen_eq_ok staged.distinct len
  by_cases bare : tlv.extensionTypes = []
  · left
    have none : tlv.entries = [] := List.map_eq_nil_iff.mp bare
    rw [if_pos bare] at length
    show Buffer.mk tlv.entries tlv.len = _
    rw [none, length]
  · right
    rw [if_neg bare] at length
    refine ⟨bare, staged.distinct, fun t member => getAccountType_of_staged (staged.staged t member),
      valid, fun t member p named => ?_, fun e member => ?_, ?_⟩
    · rw [pointer?_of_staged (staged.staged t member)] at named
      cases named
    · exact valueLen_lt_of_sized
        (sized_of_staged (staged.staged _ (List.mem_map_of_mem member))) _
    · rw [Buffer.usedLen_eq_of_sized fun t member => sized_of_staged (staged.staged t member)]
      exact length

/-! ### Writes to a mint -/

/-- A bare mint carries no extension. -/
theorem MintState.Laid.extended {mint : MintState} (laid : mint.Laid) {t : ExtensionType}
    (carries : mint.has t = true) : mint.Extended := by
  rcases laid with bare | extended
  · have member := StateWithExtensions.mem_extensionTypes.mpr carries
    rw [StateWithExtensions.extensionTypes, bare] at member
    cases member
  · exact extended

/-- The length that a mint needs with a value, where that is what it holds. -/
theorem newAccountLen_put {mint : MintState} {t : ExtensionType} {v : Extension t} :
    mint.newAccountLen t (valueLen t v) = adjustLenForMultisig
      (Buffer.usedLen (put t v mint.tlv.entries) + baseAccountAndTypeLength) := by
  unfold StateWithExtensions.newAccountLen
  refine congrArg adjustLenForMultisig ?_
  cases held : mint.get t with
  | none =>
    rw [Buffer.usedLen_put_of_absent held]
    show _ - 0 + _ = _
    omega
  | some old =>
    have swapped := Buffer.usedLen_put_of_find (v := v) held
    have room := Buffer.addLen_le_usedLen held
    simp only [ExtensionType.addTypeAndLengthToLen] at room ⊢
    omega

/-- **An extended mint with one value written**, of the length that it needs. -/
theorem MintState.Extended.put {mint mint' : MintState} (extended : mint.Extended)
    {t : ExtensionType} {v : Extension t} (ofKind : t.getAccountType = .mint)
    (free : t ∈ mint.extensionTypes ∨
      t ∈ [ExtensionType.tokenMetadata, .tokenGroup, .tokenGroupMember])
    (pointed : ∀ p, t.pointer? = some p → p ∈ mint.extensionTypes)
    (short : valueLen t v < 2 ^ 16)
    (entries : mint'.tlv.entries = KeyedList.put t v mint.tlv.entries)
    (length : mint'.tlv.len = mint.newAccountLen t (valueLen t v)) : mint'.Extended := by
  have types : ∀ t', t' ∈ mint'.extensionTypes ↔ t' = t ∨ t' ∈ mint.extensionTypes := by
    intro t'
    show t' ∈ mint'.tlv.entries.keys ↔ _
    rw [entries]
    exact mem_keys_put v
  have checked : ∀ t' ∉ [ExtensionType.tokenMetadata, .tokenGroup, .tokenGroupMember],
      (t' ∈ mint'.extensionTypes ↔ t' ∈ mint.extensionTypes) := by
    intro t' other
    rw [types]
    refine ⟨fun either => either.elim (fun same => ?_) id, .inr⟩
    subst same
    exact free.resolve_right other
  have valid := extended.valid
  refine ⟨?_, ?_, ?_, ⟨?_, ?_, ?_, ?_, ?_⟩, ?_, ?_, ?_⟩
  · exact List.ne_nil_of_mem ((types t).mpr (.inl rfl))
  · show mint'.tlv.entries.keys.Nodup
    rw [entries]
    exact nodup_keys_put extended.distinct
  · intro t' member
    rcases (types t').mp member with rfl | member
    · exact ofKind
    · exact extended.kind t' member
  · rw [checked _ (by decide), checked _ (by decide), checked _ (by decide)]
    exact valid.feeConfig
  · rw [checked _ (by decide), checked _ (by decide), checked _ (by decide)]
    exact valid.confidentialFee
  · rw [checked _ (by decide), checked _ (by decide)]
    exact valid.mintBurn
  · rw [checked _ (by decide), checked _ (by decide)]
    exact valid.scaled
  · rw [checked _ (by decide), checked _ (by decide), checked _ (by decide)]
    exact valid.nonTransferable
  · intro t' member p named
    rcases (types t').mp member with rfl | member
    · exact (types p).mpr (.inr (pointed p named))
    · exact (types p).mpr (.inr (extended.pointed t' member p named))
  · intro e member
    rw [entries] at member
    rcases mem_put member with rfl | member
    · exact short
    · exact extended.short e member
  · rw [length, entries, newAccountLen_put]

/-- **An update of a value** leaves the layout as it is. -/
theorem MintState.Extended.update {mint : MintState} (extended : mint.Extended)
    {t : ExtensionType} {e e' : Extension t} (held : mint.get t = some e)
    (sized : t ≠ .tokenMetadata) : MintState.Extended (mint.set t e') := by
  have member : t ∈ mint.extensionTypes :=
    StateWithExtensions.mem_extensionTypes.mpr (Option.isSome_iff_exists.mpr ⟨e, held⟩)
  refine extended.put (v := e') (extended.kind t member) (.inl member) (extended.pointed t member)
    (valueLen_lt_of_sized sized e') rfl ?_
  have same := Buffer.usedLen_put_of_find (v := e') held
  rw [valueLen_eq_typeLen sized, valueLen_eq_typeLen sized, Nat.add_right_cancel_iff] at same
  rw [newAccountLen_put, same]
  exact extended.length

section Allocation

variable {mint mint' : MintState} {t : ExtensionType} {v : Extension t}

/-- What an entry that is allocated anew fits in. -/
theorem initExtension_short {kind : AccountType} {S : Type} {st st' : StateWithExtensions kind S}
    {overwrite : Bool} (absent : st.get t = none)
    (ok : st.initExtension t v overwrite = .ok st') : valueLen t v < 2 ^ 16 := by
  obtain ⟨tlv, written, -⟩ := bind_eq_ok_iff.mp ok
  obtain ⟨⟨⟩, room, -⟩ := bind_eq_ok_iff.mp written
  have free : st.tlv.toBuffer.get t = none := absent
  simp only [Buffer.alloc, free, require_bind_eq_ok_iff, require_eq_ok_iff] at room
  exact room.2.2.2

/-- **What `alloc_and_serialize` leaves**: the new entry behind the others, in data that has grown to
hold it. -/
theorem allocAndSerialize_eq_ok (ok : mint.allocAndSerialize t v false = .ok mint')
    (sized : t ≠ .tokenMetadata) : mint.get t = none ∧
      mint'.tlv.entries = put t v mint.tlv.entries ∧
      mint'.tlv.len = max mint.tlv.len (mint.newAccountLen t (valueLen t v)) := by
  obtain ⟨mid, grown, written⟩ := bind_eq_ok_iff.mp ok
  obtain ⟨-, fresh, rfl⟩ := StateWithExtensions.initExtension_eq_ok written
  rw [valueLen_eq_typeLen sized]
  split at grown
  · rename_i less
    obtain ⟨-, entries, len⟩ := StateWithExtensions.resize_eq_ok grown
    refine ⟨(StateWithExtensions.get_resize grown t).symm.trans (fresh rfl),
      congrArg (put t v) entries, ?_⟩
    show mid.tlv.len = _
    rw [len, max_eq_right less.le]
  · rename_i enough
    obtain rfl := Except.ok.inj grown
    exact ⟨fresh rfl, rfl, (max_eq_left (not_lt.mp enough)).symm⟩

/-- The two ways in which a value of variable length is written. -/
theorem variableLen_written {st st' : MintState}
    (ok : (if st.has t then st.reallocVariableLenExtension t v else st.initExtension t v false) =
      .ok st') : st' = st.set t v ∧ valueLen t v < 2 ^ 16 := by
  split at ok
  · refine ⟨StateWithExtensions.reallocVariableLenExtension_eq_ok ok, ?_⟩
    simp only [StateWithExtensions.reallocVariableLenExtension, bind_eq_ok_iff, require_eq_ok_iff,
      exists_const] at ok
    obtain ⟨_, _, _, short, -⟩ := ok
    exact short
  · rename_i absent
    have none : st.get t = none := by
      simpa [StateWithExtensions.has] using absent
    exact ⟨(StateWithExtensions.initExtension_eq_ok ok).2.2, initExtension_short none ok⟩

/-- **What `alloc_and_serialize_variable_len_extension` leaves**: the value in its entry, in data
that ends where it needs to. -/
theorem allocAndSerializeVariableLenExtension_eq_ok {overwrite : Bool}
    (ok : mint.allocAndSerializeVariableLenExtension t v overwrite = .ok mint') :
    valueLen t v < 2 ^ 16 ∧ mint'.tlv.entries = put t v mint.tlv.entries ∧
      mint'.tlv.len = mint.newAccountLen t (valueLen t v) := by
  obtain ⟨-, ok⟩ := require_bind_eq_ok_iff.mp ok
  split at ok
  · obtain ⟨mid, grown, written⟩ := bind_eq_ok_iff.mp ok
    obtain ⟨-, entries, len⟩ := StateWithExtensions.resize_eq_ok grown
    have same : mint.has t = mid.has t :=
      congrArg Option.isSome (StateWithExtensions.get_resize grown t).symm
    rw [same] at written
    obtain ⟨rfl, short⟩ := variableLen_written written
    exact ⟨short, congrArg (put t v) entries, len⟩
  · obtain ⟨mid, written, shrunk⟩ := bind_eq_ok_iff.mp ok
    obtain ⟨rfl, short⟩ := variableLen_written written
    refine ⟨short, ?_⟩
    split at shrunk
    · rename_i fitting
      obtain rfl := Except.ok.inj shrunk
      exact ⟨rfl, fitting⟩
    · obtain ⟨-, entries, len⟩ := StateWithExtensions.resize_eq_ok shrunk
      exact ⟨entries, len⟩

/-- **Metadata is written.** -/
theorem MintState.Extended.writeMetadata (extended : mint.Extended) {e : TokenMetadata}
    {overwrite : Bool} (pointer : .metadataPointer ∈ mint.extensionTypes)
    (ok : mint.allocAndSerializeVariableLenExtension .tokenMetadata e overwrite = .ok mint') :
    mint'.Extended := by
  obtain ⟨short, entries, length⟩ := allocAndSerializeVariableLenExtension_eq_ok ok
  refine extended.put rfl (.inr (by decide)) (fun p named => ?_) short entries length
  obtain rfl := Option.some.inj (show some ExtensionType.metadataPointer = some p from named)
  exact pointer

/-- **An entry about groups is written.** -/
theorem MintState.Extended.writeGroup (extended : mint.Extended)
    (about : t = .tokenGroup ∨ t = .tokenGroupMember)
    (pointed : ∀ p, t.pointer? = some p → p ∈ mint.extensionTypes)
    (ok : mint.allocAndSerialize t v false = .ok mint') : mint'.Extended := by
  have sized : t ≠ .tokenMetadata := by rcases about with rfl | rfl <;> decide
  have ofKind : t.getAccountType = .mint := by rcases about with rfl | rfl <;> rfl
  have free : t ∈ [ExtensionType.tokenMetadata, .tokenGroup, .tokenGroupMember] := by
    rcases about with rfl | rfl <;> decide
  have long : 2 ≤ t.typeLen := by rcases about with rfl | rfl <;> decide
  obtain ⟨absent, entries, length⟩ := allocAndSerialize_eq_ok ok sized
  refine extended.put ofKind (.inr free) pointed (valueLen_lt_of_sized sized v) entries ?_
  -- The data was as long as it needed to be, so that it grows.
  rw [length, max_eq_right]
  rw [extended.length, newAccountLen_put, Buffer.usedLen_put_of_absent absent,
    valueLen_eq_typeLen sized]
  refine (adjustLenForMultisig_le _).trans (le_trans ?_ (le_adjustLenForMultisig _))
  simp only [ExtensionType.addTypeAndLengthToLen]
  omega

end Allocation

/-! ### Writes to an account -/

theorem TokenAccountState.Laid.put {st st' : TokenAccountState}
    (laid : TokenAccountState.Laid st) {t : ExtensionType} {v : Extension t}
    (ofKind : t.getAccountType = .account)
    (entries : st'.tlv.entries = KeyedList.put t v st.tlv.entries) :
    TokenAccountState.Laid st' := by
  constructor
  · show st'.tlv.entries.keys.Nodup
    rw [entries]
    exact nodup_keys_put laid.distinct
  · intro t' member
    replace member : t' ∈ st'.tlv.entries.keys := member
    rw [entries] at member
    rcases (mem_keys_put v).mp member with rfl | member
    · exact ofKind
    · exact laid.kind t' member

/-- **The extensions that an account starts with** are written behind what was set before. -/
theorem TokenAccountState.laid_of_required {tlv tlv' : TlvData .account}
    {types : List ExtensionType} {base : PodAccount} (staged : tlv.toBuffer.Staged .account)
    (required : types.foldlM TlvData.initAccountExtensionFromType tlv = .ok tlv') :
    TokenAccountState.Laid { base, tlv := tlv' } := by
  refine foldlM_invariant (P := fun tlv => TokenAccountState.Laid { base, tlv })
    (fun t _ tlv tlv' laid ok => ?_)
    ⟨staged.distinct, fun t member => getAccountType_of_staged (staged.staged t member)⟩ required
  obtain rfl | ⟨v, -, written⟩ := TlvData.initAccountExtensionFromType_eq_ok ok
  · exact laid
  · obtain ⟨ofKind, -, same⟩ := TlvData.initExtension_eq_ok written
    exact laid.put ofKind (congrArg (fun tlv : TlvData .account => tlv.entries) same)

/-! ### All writes -/

variable {i : Invocation} {start : Ledger} {validated : List Address} {a : Address}

theorem MintUpdate.sized {mint : MintState} {t : ExtensionType} {e e' : Extension t}
    (update : MintUpdate i validated mint t e e') : t ≠ .tokenMetadata := by
  cases update with
  | @rotate type field _ _ _ named =>
    cases type <;> cases named <;> decide
  | _ => decide

theorem AccountUpdate.kind {st : TokenAccountState} {t : ExtensionType} {e e' : Extension t}
    (update : AccountUpdate i validated a st t e e') : t.getAccountType = .account := by
  cases update <;> rfl

theorem AccountOpening.kind {st : TokenAccountState} {t : ExtensionType} {e : Extension t}
    (opening : AccountOpening i validated a st t e) : t.getAccountType = .account := by
  cases opening <;> rfl

/-- **Every write keeps the layout.** -/
theorem Change.laid {old new : AccountData} (laid : old.Laid)
    (change : Change i start validated a old new) : new.Laid := by
  cases change with
  | stage named target unpacked ofKind written =>
    obtain ⟨prepared, staged⟩ := laid
    exact ⟨_, (staged.of_unpacked unpacked).initExtension ofKind written⟩
  | openMint named target unpacked len valid =>
    obtain ⟨prepared, staged⟩ := laid
    exact (staged.of_unpacked unpacked).mint len valid
  | openNativeMint named here bare => exact .inl bare
  | openAccount named target unpacked required =>
    obtain ⟨prepared, staged⟩ := laid
    exact TokenAccountState.laid_of_required (staged.of_unpacked unpacked) required
  | openMultisig => trivial
  | mintBase initial change =>
    exact laid.imp id fun extended => ⟨extended.carries, extended.distinct, extended.kind,
      extended.valid, extended.pointed, extended.short, extended.length⟩
  | mintUpdate initial held update =>
    exact .inr ((MintState.Laid.extended laid (Option.isSome_iff_exists.mpr ⟨_, held⟩)).update held
      update.sized)
  | addMetadata authority pointer written =>
    exact .inr ((MintState.Laid.extended laid pointer).writeMetadata
      (StateWithExtensions.mem_extensionTypes.mpr pointer) written)
  | updateMetadata held authority written =>
    have extended := MintState.Laid.extended laid (Option.isSome_iff_exists.mpr ⟨_, held⟩)
    have member := StateWithExtensions.mem_extensionTypes.mpr
      (Option.isSome_iff_exists.mpr ⟨_, held⟩)
    exact .inr (extended.writeMetadata (extended.pointed _ member _ rfl) written)
  | addGroup authority pointer empty written =>
    have pointed := StateWithExtensions.mem_extensionTypes.mpr pointer
    exact .inr ((MintState.Laid.extended laid pointer).writeGroup (.inl rfl)
      (fun p named => Option.some.inj named ▸ pointed) written)
  | addMember authority pointer written =>
    have pointed := StateWithExtensions.mem_extensionTypes.mpr pointer
    exact .inr ((MintState.Laid.extended laid pointer).writeGroup (.inr rfl)
      (fun p named => Option.some.inj named ▸ pointed) written)
  | accountBase change => exact ⟨laid.distinct, laid.kind⟩
  | accountUpdate held update => exact TokenAccountState.Laid.put laid update.kind rfl
  | accountOpen absent opening written =>
    obtain ⟨-, -, rfl⟩ := StateWithExtensions.initExtension_eq_ok written
    exact TokenAccountState.Laid.put laid opening.kind rfl
  | accountResize written =>
    obtain ⟨-, entries, -⟩ := StateWithExtensions.resize_eq_ok written
    constructor
    · show (_ : List Entry).keys.Nodup
      rw [entries]
      exact laid.distinct
    · intro t member
      refine laid.kind t ?_
      show t ∈ (_ : List Entry).keys
      rw [← entries]
      exact member

/-- **All data of the program is laid out**, in every reachable ledger. -/
theorem Reachable.laid {L : Ledger} (reachable : Reachable L) (owned : (L a).owner = programId) :
    (L a).data.Laid :=
  reachable.data_invariant (P := fun _ data => data.Laid)
    (fun _ _ => ⟨.mint, List.nodup_nil, fun _ member => absurd member List.not_mem_nil,
      fun some => absurd rfl some⟩)
    (fun _ _ _ _ _ _ laid change => change.laid laid) a owned

/-! ### Room for what is written -/

/-- The entries fit into the bytes for extensions. -/
def Buffer.Fits (b : Buffer) : Prop := usedLen b.entries ≤ b.tlvLen

/-- **The extensions fit into the data** of an account, and of one that is not initialized yet. -/
def AccountData.Fits : AccountData → Prop
  | .zeroed b => b.Fits
  | .account state => state.tlv.Fits
  | _ => True

section Fits

variable {kind : AccountType} {tlv tlv' : TlvData kind} {t : ExtensionType}

/-- **What is allocated fits**, where the others do. -/
theorem TlvData.initExtension_fits {v : Extension t} {overwrite : Bool} (fits : tlv.Fits)
    (ok : tlv.initExtension t v overwrite = .ok tlv') : tlv'.Fits := by
  obtain ⟨⟨⟩, room, written⟩ := bind_eq_ok_iff.mp ok
  obtain rfl := Except.ok.inj written
  obtain ⟨-, room⟩ := require_bind_eq_ok_iff.mp room
  show Buffer.usedLen (put t v tlv.entries) ≤ tlv.tlvLen
  cases held : tlv.get t with
  | some old =>
    simp only [held, require_bind_eq_ok_iff, require_eq_ok_iff] at room
    have swapped := Buffer.usedLen_put_of_find (v := v) held
    have total : Buffer.usedLen tlv.entries ≤ tlv.tlvLen := fits
    omega
  | none =>
    simp only [held, require_bind_eq_ok_iff, Buffer.usedLen_takeWhile_of_absent held] at room
    obtain ⟨first, all, -⟩ := room
    rw [Buffer.usedLen_put_of_absent held]
    omega

/-- A value that is written over one of the same length leaves the room as it is. -/
theorem TlvData.set_fits {e e' : Extension t} (held : tlv.get t = some e)
    (sized : t ≠ .tokenMetadata) (fits : tlv.Fits) : (tlv.set t e').Fits := by
  have swapped := Buffer.usedLen_put_of_find (v := e') held
  rw [valueLen_eq_typeLen sized, valueLen_eq_typeLen sized, Nat.add_right_cancel_iff] at swapped
  show Buffer.usedLen (put t e' tlv.entries) ≤ tlv.tlvLen
  rw [swapped]
  exact fits

/-- What an account starts with fits. -/
theorem TlvData.required_fits {types : List ExtensionType} {tlv tlv' : TlvData .account}
    (fits : tlv.Fits) (required : types.foldlM TlvData.initAccountExtensionFromType tlv = .ok tlv') :
    tlv'.Fits := by
  refine foldlM_invariant (P := fun tlv : TlvData .account => tlv.Fits)
    (fun t _ tlv tlv' fits ok => ?_) fits required
  obtain rfl | ⟨v, -, written⟩ := TlvData.initAccountExtensionFromType_eq_ok ok
  · exact fits
  · exact TlvData.initExtension_fits fits written

end Fits

/-- **Every write leaves room for what it writes.** -/
theorem Change.fits {old new : AccountData} (fits : old.Fits)
    (change : Change i start validated a old new) : new.Fits := by
  cases change with
  | stage named target unpacked ofKind written => exact TlvData.initExtension_fits fits written
  | openAccount named target unpacked required => exact TlvData.required_fits fits required
  | accountBase change => exact fits
  | accountUpdate held update =>
    refine TlvData.set_fits held (fun metadata => ?_) fits
    have ofKind := update.kind
    rw [metadata] at ofKind
    cases ofKind
  | accountOpen absent opening written =>
    obtain ⟨tlv, allocated, same⟩ := bind_eq_ok_iff.mp written
    obtain rfl := Except.ok.inj same
    exact TlvData.initExtension_fits fits allocated
  | accountResize written grows =>
    obtain ⟨-, entries, length⟩ := StateWithExtensions.resize_eq_ok written
    show Buffer.usedLen _ ≤ _ - baseAccountAndTypeLength
    rw [entries, length]
    exact le_trans fits (Nat.sub_le_sub_right grows _)
  | _ => trivial

/-- **The extensions of all accounts fit**, in every reachable ledger. -/
theorem Reachable.fits {L : Ledger} (reachable : Reachable L) (owned : (L a).owner = programId) :
    (L a).data.Fits :=
  reachable.data_invariant (P := fun _ data => data.Fits) (fun _ _ => Nat.zero_le _)
    (fun _ _ _ _ _ _ fits change => change.fits fits) a owned

end Token2022
