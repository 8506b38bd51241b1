/-
**What a transfer does, and that it does nothing else.**

* `Debited`, `Credited` — an account after it has given, and after it has received and withheld.
* **`Transferred`** — the ledger after a transfer: two accounts, and lamports with native ones.
* `HookCall` — what is left of a transfer once both accounts are written.
* `TransfersExactly` — a transfer of the amount with the fee that the mint of the source demands.
* `processTransfer_transferred` — the code's transfer, with the fee of its terms.
* **`transfer_exact_iff`** — it is the one that the mint demands unless an unchecked transfer passes
  over the fee of its mint.
* **`unchecked_transfer_without_fee`** — which it may, once a mint was closed and initialized again.
-/

import Token2022.Environment
import Token2022.Invariant.WellFormed
import Token2022.Property.Reading

namespace Token2022

open Fallible

variable {L L' : Ledger} {i : Invocation} {outcome : Outcome} {a f : ℕ}
  {flags : List ExtensionType}

/-! ### The two accounts -/

/-- **The extensions agree place by place**, in their types and in the values of all but some types;
so do the lengths. -/
structure StateWithExtensions.SameExcept (types : List ExtensionType)
    (st st' : TokenAccountState) : Prop where
  len : st'.tlv.len = st.tlv.len
  entries : KeyedList.SameExcept types st.tlv.entries st'.tlv.entries

/-- **An account that has given `a` tokens.** A delegate that gave them has spent its allowance. -/
structure Debited (a : ℕ) (arm : Option DebitArm) (flags : List ExtensionType)
    (st st' : TokenAccountState) : Prop where
  enough : a ≤ st.base.amount
  base : st'.base = { (if arm = some .delegate then st.base.spendAllowance a else st.base) with
    amount := st.base.amount - a }
  rest : st.SameExcept flags st'

/-- **An account that has received `a` tokens** and withholds `f` of them. -/
structure Credited (a f : ℕ) (flags : List ExtensionType) (st st' : TokenAccountState) : Prop where
  fee : f ≤ a
  base : st'.base = { st.base with amount := st.base.amount + (a - f) }
  withheld : (st'.get .transferFeeAmount).map TransferFeeAmount.withheldAmount =
    (st.get .transferFeeAmount).map fun e => e.withheldAmount + f
  place : 0 < f → st.has .transferFeeAmount = true
  rest : st.SameExcept (.transferFeeAmount :: flags) st'

/-- **The ledger after a transfer** from `s` to `d`. Lamports go with the tokens of native accounts,
which charge nothing. -/
structure Transferred (L L' : Ledger) (s d : Address) (a f : ℕ) (arm : Option DebitArm)
    (flags : List ExtensionType) : Prop where
  source : ∃ st st', L.account? s = some st ∧ L'.account? s = some st' ∧ Debited a arm flags st st'
  destination : ∃ st st', L.account? d = some st ∧ L'.account? d = some st' ∧
    Credited a f flags st st'
  native : ∀ st, L.account? s = some st → st.base.isNativeAccount = true →
    f = 0 ∧ (L' s).lamports + a = (L s).lamports ∧ (L' d).lamports = (L d).lamports + a
  plain : ∀ st, L.account? s = some st → st.base.isNativeAccount = false →
    (L' s).lamports = (L s).lamports ∧ (L' d).lamports = (L d).lamports
  others : ∀ b, b ≠ s → b ≠ d → L' b = L b

/-! ### The transfer that is asked for -/

/-- The kind and the amount of a transfer. -/
def TokenInstruction.transfer? : TokenInstruction → Option (TransferInstruction × ℕ)
  | .transfer amount => some (.unchecked, amount.toNat)
  | .transferChecked amount decimals => some (.checked decimals.toNat, amount.toNat)
  | .transferFeeExtension (.transferCheckedWithFee amount decimals fee) =>
    some (.checkedWithFee decimals.toNat fee.toNat, amount.toNat)
  | _ => none

/-- The place of the destination among the accounts: behind the mint, where there is one. -/
def TransferInstruction.destinationIndex (kind : TransferInstruction) : ℕ :=
  if kind.decimals.isSome then 2 else 1

/-- The fee that the mint demands in an epoch; nothing where there is no mint. -/
def Ledger.feeDue (L : Ledger) (m : Address) (epoch amount : ℕ) : Option ℕ :=
  match L.mint? m with
  | some mint =>
    match mint.get .transferFeeConfig with
    | some config => config.calculateEpochFee epoch amount
    | none => some 0
  | none => some 0

/-- The program that a transfer which names its mint calls. -/
def Ledger.hookProgram (L : Ledger) (kind : TransferInstruction) (m : Address) : Option Address :=
  match kind with
  | .unchecked => none
  | .checked _ | .checkedWithFee .. =>
    (L.mint? m).bind StateWithExtensions.transferHookProgramId

/-- **From the ledger before the hook program is called to the end**: without one that is the end. -/
def HookCall (i : Invocation) (hook : Option Address) (s d : Address) (a : ℕ)
    (mid final : Ledger) : Prop :=
  match hook with
  | none => final = mid
  | some program => ∃ called unset,
      i.env.programs.invokeExecute program mid i.accounts a = .ok called ∧
      unsetTransferring called s = .ok unset ∧ unsetTransferring unset d = .ok final

/-- **The transfer of the amount, with the fee that the mint of the source demands** and, where the
instruction names one, expects. The transferring flags are set where a hook program is called. -/
def TransfersExactly (i : Invocation) (L final : Ledger) (kind : TransferInstruction) (a : ℕ)
    (s d : Address) (arm : Option DebitArm) : Prop :=
  ∃ st f mid, L.account? s = some st ∧ L.feeDue st.base.mint i.env.epoch a = some f ∧
    (∀ fee, kind.expectedFee = some fee → fee = f) ∧
    HookCall i (L.hookProgram kind st.base.mint) s d a mid final ∧
    Transferred L mid s d a f arm
      (if (L.hookProgram kind st.base.mint).isSome then [.transferHookAccount] else [])

/-! ### The parts of the code -/

theorem StateWithExtensions.SameExcept.refl (types : List ExtensionType) (st : TokenAccountState) :
    st.SameExcept types st := ⟨rfl, .refl _ _⟩

/-- A write to an extension that is there. -/
theorem StateWithExtensions.SameExcept.set {types : List ExtensionType} {st : TokenAccountState}
    {t : ExtensionType} (held : st.has t = true) (listed : t ∈ types) (v : Extension t) :
    st.SameExcept types (st.set t v) :=
  ⟨rfl, KeyedList.SameExcept.put v (KeyedList.find_isSome_iff.mp held) listed⟩

theorem StateWithExtensions.SameExcept.trans {types : List ExtensionType}
    {st st' st'' : TokenAccountState} (first : st.SameExcept types st')
    (second : st'.SameExcept types st'') : st.SameExcept types st'' :=
  ⟨second.len.trans first.len, first.entries.trans second.entries⟩

/-- **The credit of a destination.** -/
theorem creditTransfer_credited {st st' : TokenAccountState}
    (ok : creditTransfer st a f = .ok st') : Credited a f [] st st' := by
  simp only [creditTransfer, bind_eq_ok_iff, okOr_eq_ok_iff, checkedSub_eq_some_iff,
    checkedAdd_eq_some_iff] at ok
  obtain ⟨net, ⟨le, rfl⟩, total, ⟨-, rfl⟩, ok⟩ := ok
  split at ok
  · split at ok
    · rename_i withheld held
      simp only [bind_eq_ok_iff, okOr_eq_ok_iff, checkedAdd_eq_some_iff, Except.ok.injEq] at ok
      obtain ⟨_, ⟨-, rfl⟩, rfl⟩ := ok
      have there : st.has .transferFeeAmount = true := Option.isSome_of_eq_some held
      refine ⟨le, rfl, ?_, fun _ => there, ⟨rfl, KeyedList.SameExcept.put _
        (KeyedList.find_isSome_iff.mp there) List.mem_cons_self⟩⟩
      rw [StateWithExtensions.get_set_self, ← StateWithExtensions.get_withBase st, held]
      rfl
    · cases ok
  · rename_i free
    obtain rfl := Except.ok.inj ok
    obtain rfl : f = 0 := Nat.eq_zero_of_not_pos free
    exact ⟨le, rfl, rfl, fun positive => absurd positive free, ⟨rfl, .refl _ _⟩⟩

/-- **The debit of a source**: the delegate's allowance is the only other thing to change. -/
theorem debitAuthority_debited {st : TokenAccountState} {authority : AccountMeta}
    {signers : List AccountMeta} {permanentDelegate : Option Address} {base : PodAccount}
    {key : Address} {arm : DebitArm} (enough : a ≤ st.base.amount)
    (ok : debitAuthority L st.base authority signers permanentDelegate a true =
      .ok (base, key, arm)) :
    Debited a (some arm) [] st (st.withBase { base with amount := st.base.amount - a }) := by
  refine ⟨enough, ?_, ⟨rfl, .refl _ _⟩⟩
  unfold debitAuthority at ok
  split at ok
  · obtain ⟨_, -, same⟩ := bind_eq_ok_iff.mp ok
    cases same
    rfl
  · split at ok
    · obtain ⟨_, -, rest⟩ := bind_eq_ok_iff.mp ok
      obtain ⟨-, same⟩ := require_bind_eq_ok_iff.mp rest
      cases same
      rfl
    · obtain ⟨_, -, same⟩ := bind_eq_ok_iff.mp ok
      cases same
      rfl

/-- Raising the flag keeps what a debit did. -/
theorem Debited.flag {arm : Option DebitArm} {st st' flagged : TokenAccountState}
    (debited : Debited a arm [] st st') (ok : setTransferring st' = .ok flagged) :
    Debited a arm [.transferHookAccount] st flagged := by
  simp only [setTransferring, bind_eq_ok_iff, Except.ok.injEq] at ok
  obtain ⟨v, held, rfl⟩ := ok
  have there : st'.has .transferHookAccount = true :=
    Option.isSome_of_eq_some (StateWithExtensions.getExtension_eq_ok_iff.mp held)
  refine ⟨debited.enough, debited.base, .trans ?_ (.set there (List.mem_singleton_self _) _)⟩
  exact ⟨debited.rest.len, debited.rest.entries.mono (by simp)⟩

/-- Raising the flag keeps what a credit did. -/
theorem Credited.flag {st st' flagged : TokenAccountState} (credited : Credited a f [] st st')
    (ok : setTransferring st' = .ok flagged) :
    Credited a f [.transferHookAccount] st flagged := by
  simp only [setTransferring, bind_eq_ok_iff, Except.ok.injEq] at ok
  obtain ⟨v, held, rfl⟩ := ok
  have there : st'.has .transferHookAccount = true :=
    Option.isSome_of_eq_some (StateWithExtensions.getExtension_eq_ok_iff.mp held)
  refine ⟨credited.fee, credited.base, ?_, credited.place, .trans ?_
    (.set there (List.mem_cons_of_mem _ (List.mem_singleton_self _)) _)⟩
  · rw [StateWithExtensions.get_set_of_ne _ (by decide)]
    exact credited.withheld
  · exact ⟨credited.rest.len, credited.rest.entries.mono (by simp)⟩

/-! ### The ledger -/

/-- Lamports move between two accounts. -/
theorem moveLamports_moved {s d : Address} (ne : s ≠ d) (ok : moveLamports L s d a = .ok L') :
    (L' s).lamports + a = (L s).lamports ∧ (L' d).lamports = (L d).lamports + a ∧
      ∀ b, b ≠ s → b ≠ d → L' b = L b := by
  obtain ⟨mid, debited, credited⟩ := bind_eq_ok_iff.mp ok
  obtain ⟨le, -, rfl⟩ := Ledger.debit_eq_ok_iff.mp debited
  obtain ⟨-, rfl⟩ := Ledger.credit_eq_ok_iff.mp credited
  refine ⟨?_, ?_, fun b notSource notDestination => ?_⟩
  · rw [Ledger.setLamports, Function.update_of_ne ne, Ledger.setLamports, Function.update_self]
    exact Nat.sub_add_cancel le
  · rw [Ledger.setLamports, Function.update_self, Ledger.setLamports, Function.update_of_ne ne.symm]
  · rw [Ledger.setLamports, Function.update_of_ne notDestination, Ledger.setLamports,
      Function.update_of_ne notSource]

/-- **Lamports moved and both accounts written: that is the transfer.** -/
theorem transferred_of_writes {moved mid : Ledger} {s d : Address}
    {st dt st' dt' : TokenAccountState} {arm : Option DebitArm} (ne : s ≠ d)
    (held : L.account? s = some st) (held' : L.account? d = some dt)
    (lamports : (if st.base.isNativeAccount then moveLamports L s d a else .ok L) = .ok moved)
    (free : st.base.isNativeAccount = true → f = 0)
    (first : moved.writeData s (.account st') = .ok mid)
    (second : mid.writeData d (.account dt') = .ok L')
    (debited : Debited a arm flags st st') (credited : Credited a f flags dt dt') :
    Transferred L L' s d a f arm flags := by
  obtain ⟨-, rfl⟩ := Ledger.writeData_eq_ok_iff.mp first
  obtain ⟨-, rfl⟩ := Ledger.writeData_eq_ok_iff.mp second
  have kept : (∀ b, (moved b).owner = (L b).owner) ∧
      (st.base.isNativeAccount = true → (moved s).lamports + a = (L s).lamports ∧
        (moved d).lamports = (L d).lamports + a) ∧
      (st.base.isNativeAccount = false → moved = L) ∧
      ∀ b, b ≠ s → b ≠ d → moved b = L b := by
    split at lamports
    · rename_i native
      obtain ⟨gave, got, others⟩ := moveLamports_moved ne lamports
      exact ⟨fun b => (moveLamports_book lamports).2.2 b, fun _ => ⟨gave, got⟩,
        fun plain => absurd (native.symm.trans plain) (by decide), others⟩
    · rename_i plain
      obtain rfl := Except.ok.inj lamports
      exact ⟨fun _ => rfl, fun native => absurd native plain, fun _ => rfl, fun _ _ _ => rfl⟩
  obtain ⟨owners, native, plain, others⟩ := kept
  obtain ⟨owned, -⟩ := Ledger.account?_eq_some_iff.mp held
  obtain ⟨owned', -⟩ := Ledger.account?_eq_some_iff.mp held'
  have lamportsKept : ∀ b, (((moved.setData s (.account st')).setData d (.account dt')) b).lamports =
      (moved b).lamports := by
    intro b
    rw [Ledger.lamports_setData, Ledger.lamports_setData]
  refine ⟨⟨st, st', held, ?_, debited⟩, ⟨dt, dt', held', ?_, credited⟩, ?_, ?_, ?_⟩
  · refine Ledger.account?_eq_some_iff.mpr ⟨?_, ?_⟩
    · rw [Ledger.owner_setData, Ledger.owner_setData, owners, owned]
    · rw [Ledger.data_setData_of_ne _ ne, Ledger.data_setData_self]
  · refine Ledger.account?_eq_some_iff.mpr ⟨?_, Ledger.data_setData_self ..⟩
    rw [Ledger.owner_setData, Ledger.owner_setData, owners, owned']
  · intro state there isNative
    obtain rfl := Option.some.inj (held.symm.trans there)
    rw [lamportsKept, lamportsKept]
    exact ⟨free isNative, native isNative⟩
  · intro state there isPlain
    obtain rfl := Option.some.inj (held.symm.trans there)
    rw [lamportsKept, lamportsKept, plain isPlain]
    exact ⟨rfl, rfl⟩
  · intro b notSource notDestination
    rw [Ledger.setData, Function.update_of_ne notDestination, Ledger.setData,
      Function.update_of_ne notSource]
    exact others b notSource notDestination

/-- **The end of a transfer**: both accounts are written, with their flags where a hook program is
called, and then it is called. -/
theorem finishTransfer_transferred {moved : Ledger} {sourceInfo destinationInfo : AccountMeta}
    {st dt st' dt' : TokenAccountState} {arm : Option DebitArm} {program : Option Address}
    (ne : sourceInfo.key ≠ destinationInfo.key) (held : L.account? sourceInfo.key = some st)
    (held' : L.account? destinationInfo.key = some dt)
    (lamports : (if st.base.isNativeAccount then
      moveLamports L sourceInfo.key destinationInfo.key a else .ok L) = .ok moved)
    (free : st.base.isNativeAccount = true → f = 0)
    (debited : Debited a arm [] st st') (credited : Credited a f [] dt dt')
    (finished : finishTransfer i.env moved sourceInfo destinationInfo st' dt' program i.accounts a =
      .ok L') :
    ∃ mid, HookCall i program sourceInfo.key destinationInfo.key a mid L' ∧
      Transferred L mid sourceInfo.key destinationInfo.key a f arm
        (if program.isSome then [.transferHookAccount] else []) := by
  cases program with
  | none =>
    obtain ⟨mid, first, second⟩ := bind_eq_ok_iff.mp finished
    exact ⟨L', rfl,
      transferred_of_writes ne held held' lamports free first second debited credited⟩
  | some program =>
    simp only [finishTransfer, bind_eq_ok_iff] at finished
    obtain ⟨flagged, setSource, flagged', setDestination, mid, first, last, second, after, hooked,
      unset, unsetSource, unsetDestination⟩ := finished
    exact ⟨last, ⟨after, unset, hooked, unsetSource, unsetDestination⟩,
      transferred_of_writes ne held held' lamports free first second (debited.flag setSource)
        (credited.flag setDestination)⟩

/-! ### The instruction -/

/-- The invocation of a transfer runs `process_transfer`. -/
theorem processTransfer_of_run {kind : TransferInstruction}
    (named : i.instruction.transfer? = some (kind, a)) (ok : i.run L = .ok outcome) :
    processTransfer i.env L i.accounts a kind = .ok outcome := by
  unfold Invocation.run at ok
  unfold TokenInstruction.transfer? at named
  split at named
  case h_4 => cases named
  all_goals
    rename_i instruction
    obtain ⟨rfl, rfl⟩ := Prod.mk.inj (Option.some.inj named)
    rw [instruction] at ok
    exact ok

/-- The mint among the accounts, where the transfer names one. -/
theorem nextMintInfo_eq_ok {kind : TransferInstruction} {accounts rest : List AccountMeta}
    {expectedMint : Option (AccountMeta × ℕ)}
    (ok : nextMintInfo kind.decimals accounts = .ok (expectedMint, rest)) :
    accounts = (expectedMint.map Prod.fst).toList ++ rest ∧
      expectedMint.map Prod.snd = kind.decimals := by
  cases decimals : kind.decimals with
  | none =>
    rw [decimals] at ok
    obtain ⟨rfl, rfl⟩ := Prod.mk.inj (Except.ok.inj ok)
    exact ⟨rfl, rfl⟩
  | some n =>
    rw [decimals] at ok
    simp only [nextMintInfo, bind_eq_ok_iff, Prod.exists, nextAccountInfo_eq_ok_iff] at ok
    obtain ⟨info, _, shape, same⟩ := ok
    obtain ⟨rfl, rfl⟩ := Prod.mk.inj (Except.ok.inj same)
    exact ⟨shape, rfl⟩

/-- **The terms of a transfer**: with the mint, what the mint demands; without it, no fee. -/
theorem terms_spec {kind : TransferInstruction} {source : TokenAccountState} {env : Env}
    {terms : TransferTerms} {expectedMint : Option (AccountMeta × ℕ)}
    (decimals : expectedMint.map Prod.snd = kind.decimals)
    (ok : (match expectedMint with
      | some (mintInfo, decimals) => checkedTransferTerms env L source mintInfo decimals a
      | none => uncheckedTransferTerms source) = .ok terms) :
    (kind = .unchecked → terms.fee = 0) ∧
      (kind ≠ .unchecked → L.feeDue source.base.mint env.epoch a = some terms.fee) ∧
      terms.transferHookProgramId = L.hookProgram kind source.base.mint := by
  cases expectedMint with
  | none =>
    have unchecked : kind = .unchecked := by
      cases kind with
      | unchecked => rfl
      | checked => cases decimals
      | checkedWithFee => cases decimals
    subst unchecked
    simp only [uncheckedTransferTerms, bind_eq_ok_iff, require_eq_ok_iff, exists_const,
      Except.ok.injEq] at ok
    obtain ⟨-, -, -, rfl⟩ := ok
    exact ⟨fun _ => rfl, fun checked => absurd rfl checked, rfl⟩
  | some expected =>
    obtain ⟨mintInfo, decimals'⟩ := expected
    simp only [checkedTransferTerms, bind_eq_ok_iff, checkProgramAccount_eq_ok_iff,
      require_eq_ok_iff, unpackMint_eq_ok_iff, exists_const, Except.ok.injEq] at ok
    obtain ⟨owned, sameMint, mint, data, -, fee, charged, -, rfl⟩ := ok
    have issued : L.mint? source.base.mint = some mint := by
      rw [sameMint]
      exact Ledger.mint?_eq_some_iff.mpr ⟨owned, data⟩
    refine ⟨?_, fun _ => ?_, ?_⟩
    · rintro rfl
      cases decimals
    · cases config : mint.get .transferFeeConfig with
      | none =>
        simp only [config, Except.ok.injEq] at charged
        simp only [Ledger.feeDue, issued, config, charged]
      | some config =>
        simp only [config, okOr_eq_ok_iff] at charged
        simp only [Ledger.feeDue, issued, config, charged]
    · cases kind with
      | unchecked => cases decimals
      | checked => rw [Ledger.hookProgram, issued, Option.bind_some]
      | checkedWithFee => rw [Ledger.hookProgram, issued, Option.bind_some]

/-- **The code's transfer**, with the fee of its terms. -/
theorem processTransfer_transferred {kind : TransferInstruction} {s d : Address}
    (ok : processTransfer i.env L i.accounts a kind = .ok outcome) (source : i.key? 0 = some s)
    (destination : i.key? kind.destinationIndex = some d) :
    ∃ st fee, L.account? s = some st ∧ (kind = .unchecked → fee = 0) ∧
      (kind ≠ .unchecked → L.feeDue st.base.mint i.env.epoch a = some fee) ∧
      (∀ expected, kind.expectedFee = some expected → expected = fee) ∧
      (s = d → outcome.ledger = L) ∧
      (s ≠ d → (st.base.isNativeAccount = true → fee = 0) → ∃ mid,
        HookCall i (L.hookProgram kind st.base.mint) s d a mid outcome.ledger ∧
        Transferred L mid s d a fee outcome.arm
          (if (L.hookProgram kind st.base.mint).isSome then [.transferHookAccount] else [])) := by
  simp only [processTransfer, bind_eq_ok_iff, Prod.exists, nextAccountInfo_eq_ok_iff,
    checkProgramAccount_eq_ok_iff, unpackAccount_eq_ok_iff, require_eq_ok_iff, exists_const] at ok
  obtain ⟨sourceInfo, _, shape, expectedMint, _, next, destinationInfo, _, shape', authority, signers,
    shape'', owned, owned', st, data, -, enough, -, terms, agreed, expects, -, base, key, arm,
    authorized, ok⟩ := ok
  obtain ⟨mintShape, decimals⟩ := nextMintInfo_eq_ok next
  have accounts : i.accounts = [sourceInfo] ++ (expectedMint.map Prod.fst).toList ++
      [destinationInfo, authority] ++ signers := by
    rw [shape, mintShape, shape', shape'']
    simp
  obtain rfl : sourceInfo.key = s := by
    rw [Invocation.key?, shape] at source
    exact Option.some.inj source
  obtain rfl : destinationInfo.key = d := by
    have place : i.accounts[kind.destinationIndex]? = some destinationInfo := by
      rw [accounts, TransferInstruction.destinationIndex, ← decimals]
      cases expectedMint <;> rfl
    rw [Invocation.key?, place] at destination
    exact Option.some.inj destination
  obtain ⟨unchecked, checked, hook⟩ := terms_spec decimals agreed
  refine ⟨st, terms.fee, Ledger.account?_eq_some_iff.mpr ⟨owned, data⟩, unchecked, checked, ?_, ?_, ?_⟩
  · intro expected named
    rw [named, Option.all_some] at expects
    exact (of_decide_eq_true expects).symm
  · intro same
    rw [if_pos (decide_eq_true same)] at ok
    obtain ⟨_, -, done⟩ := bind_eq_ok_iff.mp ok
    rw [← Except.ok.inj done]
  · intro ne free
    have notSelf : decide (sourceInfo.key = destinationInfo.key) = false := decide_eq_false ne
    rw [if_neg (by rw [notSelf]; exact Bool.false_ne_true)] at ok
    rw [notSelf] at authorized
    simp only [bind_eq_ok_iff, unpackAccount_eq_ok_iff, require_eq_ok_iff, okOr_eq_ok_iff,
      checkedSub_eq_some_iff, exists_const] at ok
    obtain ⟨dt, data', -, -, -, -, -, _, ⟨-, rfl⟩, credited, credit, moved, followed, ledger,
      finished, same⟩ := ok
    obtain rfl := Except.ok.inj same
    have debited := debitAuthority_debited enough authorized
    have received := creditTransfer_credited credit
    have native : base.isNativeAccount = st.base.isNativeAccount := by
      have same := congrArg PodAccount.isNative debited.base
      unfold PodAccount.isNativeAccount
      rw [show base.isNative = st.base.isNative from same.trans (by split <;> rfl)]
    replace followed : (if st.base.isNativeAccount then
        moveLamports L sourceInfo.key destinationInfo.key a else .ok L) = .ok moved :=
      native ▸ followed
    rw [← hook]
    exact finishTransfer_transferred ne (Ledger.account?_eq_some_iff.mpr ⟨owned, data⟩)
      (Ledger.account?_eq_some_iff.mpr ⟨owned', data'⟩) followed free debited received
      (accounts ▸ finished)

/-! ### What the mint demands -/

/-- **Wrapped lamports are transferred free of charge.** -/
theorem feeDue_of_native (reachable : Reachable L) {s : Address} {st : TokenAccountState}
    (held : L.account? s = some st) (native : st.base.isNativeAccount = true) (epoch amount : ℕ) :
    L.feeDue st.base.mint epoch amount = some 0 := by
  have wf := wellFormed_reachable reachable
  have nativeMint : st.base.mint = nativeMintId :=
    (wf.native s _ (Ledger.slot_of_account? held)).mp native
  unfold Ledger.feeDue
  cases issued : L.mint? st.base.mint with
  | none => rfl
  | some mint =>
    have terms := wf.nativeTerms (nativeMint ▸ Ledger.slot_of_mint? issued)
    have noFees : mint.get .transferFeeConfig = none := terms.fees
    simp only [noFees]

/-- A transfer credits its destination with one amount only: it withholds one fee. -/
theorem Transferred.fee_unique {s d : Address} {a f f' : ℕ} {arm arm' : Option DebitArm}
    {flags flags' : List ExtensionType} (first : Transferred L L' s d a f arm flags)
    (second : Transferred L L' s d a f' arm' flags') : f = f' := by
  obtain ⟨dt, dt', held, held', credited⟩ := first.destination
  obtain ⟨et, et', there, there', credited'⟩ := second.destination
  obtain rfl := Option.some.inj (held.symm.trans there)
  obtain rfl := Option.some.inj (held'.symm.trans there')
  have amounts := congrArg PodAccount.amount (credited.base.symm.trans credited'.base)
  have le := credited.fee
  have le' := credited'.fee
  replace amounts : dt.base.amount + (a - f) = dt.base.amount + (a - f') := amounts
  omega

/-- **Plain transfers do exactly what they say.** From every reachable ledger, a successful transfer
changes nothing at all where its two accounts are one, and else is the transfer with the fee that the
mint of the source demands; but for an unchecked transfer whose mint demands a fee. -/
theorem transfer_exact_iff {L : Ledger} {i : Invocation} {outcome : Outcome}
    {kind : TransferInstruction} {a : ℕ} {s d : Address} (reachable : Reachable L)
    (ok : i.run L = .ok outcome) (named : i.instruction.transfer? = some (kind, a))
    (source : i.key? 0 = some s) (destination : i.key? kind.destinationIndex = some d) :
    ((s = d → outcome.ledger = L) ∧
      (s ≠ d → TransfersExactly i L outcome.ledger kind a s d outcome.arm)) ↔
    (s ≠ d → kind = .unchecked → ∃ st, L.account? s = some st ∧
      L.feeDue st.base.mint i.env.epoch a = some 0) := by
  obtain ⟨st, fee, held, unchecked, checked, expects, self, transfers⟩ :=
    processTransfer_transferred (processTransfer_of_run named ok) source destination
  have free : st.base.isNativeAccount = true → fee = 0 := by
    intro native
    by_cases plain : kind = .unchecked
    · exact unchecked plain
    · have due := feeDue_of_native reachable held native i.env.epoch a
      exact Option.some.inj ((checked plain).symm.trans due)
  constructor
  · rintro ⟨-, exact⟩ ne plain
    obtain ⟨st', f, mid, there, due, -, call, transferred⟩ := exact ne
    obtain rfl := Option.some.inj (held.symm.trans there)
    obtain ⟨mid', call', transferred'⟩ := transfers ne free
    subst plain
    -- no hook program is called, so both are about the final ledger
    obtain rfl : outcome.ledger = mid := call
    obtain rfl : outcome.ledger = mid' := call'
    rw [transferred.fee_unique transferred', unchecked rfl] at due
    exact ⟨st, held, due⟩
  · intro condition
    refine ⟨self, fun ne => ?_⟩
    obtain ⟨mid, call, transferred⟩ := transfers ne free
    refine ⟨st, fee, mid, held, ?_, expects, call, transferred⟩
    by_cases plain : kind = .unchecked
    · obtain ⟨st', there, due⟩ := condition ne plain
      obtain rfl := Option.some.inj (held.symm.trans there)
      rw [unchecked plain]
      exact due
    · exact checked plain

section Examples

open Basic AccountMeta

/-- A transfer of plain tokens. -/
theorem transfer_exact_iff_plain : ∃ L outcome, Reachable L ∧ Basic.transfer.run L = .ok outcome ∧
    TransfersExactly Basic.transfer L outcome.ledger .unchecked 300 Basic.source Basic.destination
      outcome.arm := by
  have leads : LeadsTo (runAll .fresh plainTurns) fun L =>
      LeadsTo (Basic.transfer.run L) fun _ =>
        ((L.account? Basic.source).any fun st =>
          L.feeDue st.base.mint Basic.transfer.env.epoch 300 = some 0) = true := by
    decide +kernel
  obtain ⟨L, ran, leads⟩ := leads.exists
  obtain ⟨outcome, ok, free⟩ := leads.exists
  obtain ⟨st, held, due⟩ := (Option.any_eq_true ..).mp free
  have reachable := Reachable.of_runAll .fresh ran
  refine ⟨L, outcome, reachable, ok, ?_⟩
  exact ((transfer_exact_iff reachable ok rfl rfl rfl).2
    fun _ _ => ⟨st, held, of_decide_eq_true due⟩).2 (by decide)

/-- A mint is closed, and initialized with a transfer fee over the accounts that it had; tokens go to
one of them. -/
def chargingTurns : List Turn := [
  .allocate mint 202, .allocate Basic.source 165, .allocate Basic.destination 165,
  .basic (.initializeMintCloseAuthority (some owner)) [plain mint],
  .basic (.initializeMint2 0 owner none) [plain mint],
  .basic (.initializeAccount3 owner) [plain Basic.source, plain mint],
  .basic (.initializeAccount3 other) [plain Basic.destination, plain mint],
  .basic .closeAccount [plain mint, plain owner, signer owner],
  .allocate mint 278,
  .basic (.transferFeeExtension (.initializeTransferFeeConfig none none 100 10)) [plain mint],
  .basic (.initializeMint2 0 owner none) [plain mint],
  .basic (.mintTo 1000) [plain mint, plain Basic.source, signer owner]]

/-- **An unchecked transfer passes over the fee** of one percent that the mint demands. -/
theorem unchecked_transfer_without_fee : ∃ L outcome, Reachable L ∧
    Basic.transfer.run L = .ok outcome ∧
    Basic.transfer.instruction.transfer? = some (.unchecked, 300) ∧
    Basic.transfer.key? 0 = some Basic.source ∧ Basic.transfer.key? 1 = some Basic.destination ∧
    ¬ TransfersExactly Basic.transfer L outcome.ledger .unchecked 300 Basic.source
      Basic.destination outcome.arm := by
  have leads : LeadsTo (runAll .fresh chargingTurns) fun L =>
      LeadsTo (Basic.transfer.run L) fun outcome =>
        ((L.account? Basic.source).all fun st => L.feeDue st.base.mint 0 300 = some 3) = true ∧
        (L.account? Basic.destination).map (fun st => st.base.amount) = some 0 ∧
        (outcome.ledger.account? Basic.destination).map (fun st => st.base.amount) = some 300 := by
    decide +kernel
  obtain ⟨L, ran, leads⟩ := leads.exists
  obtain ⟨outcome, ok, demands, before, after⟩ := leads.exists
  refine ⟨L, outcome, .of_runAll .fresh ran, ok, rfl, rfl, rfl, ?_⟩
  rintro ⟨st, f, mid, held, due, -, call, transferred⟩
  obtain rfl : outcome.ledger = mid := call
  rw [held, Option.all_some] at demands
  obtain rfl : 3 = f := Option.some.inj ((of_decide_eq_true demands).symm.trans due)
  obtain ⟨dt, dt', there, there', credited⟩ := transferred.destination
  rw [there, Option.map_some, Option.some_inj] at before
  rw [there', Option.map_some, Option.some_inj, credited.base] at after
  replace after : dt.base.amount + (300 - 3) = 300 := after
  omega

end Examples

end Token2022
