/-
**A batch, on its bytes.**

A batch is a row of items, each with a count of accounts and a length of data before its data. The
loop takes an item off the data and its accounts off the list, runs it, and stops where the data
ends with the item. What it runs is `_process_inner`, which refuses a batch.

* `processInnerData`, `processBatchData`, `process` — `_process_inner`, `process_batch` and
  `process`, on bytes. How the data of one instruction is decoded is a parameter: no fact about
  batches rests on it.
* `executedCalls` — the calls of `_process_inner` that the loop makes.
* `BatchItem`, `batchBytes`, `batchCalls` — the items, their bytes, and the calls they stand for.
* **`processBatchData_item`** — one turn of the loop.
* **`batch_sequential`** — a batch is its items, one after the other.
-/

import Token2022.Environment

namespace Token2022

open Fallible

/-- The tag of `Batch`. -/
def batchTag : UInt8 := 255

/-- A call of `_process_inner`: the accounts and the data that it is given. -/
structure Call where
  accounts : List AccountMeta
  data : List UInt8

section Loop

variable (decode : List UInt8 → ProgramResult TokenInstruction) (env : Env)

/-- `_process_inner`, on the data of an instruction. -/
def processInnerData (L : Ledger) (call : Call) : ProgramResult Ledger := do
  require (call.data.head? ≠ some batchTag) TokenError.invalidInstruction
  let instruction ← decode call.data
  let outcome ← processInner env L call.accounts instruction
  .ok outcome.ledger

/-- `process_batch`. -/
def processBatchData (L : Ledger) (accounts : List AccountMeta) :
    List UInt8 → ProgramResult Ledger
  | expectedAccounts :: dataLen :: rest => do
    require (expectedAccounts.toNat ≤ accounts.length) .notEnoughAccountKeys
    require (dataLen.toNat ≤ rest.length) TokenError.invalidInstruction
    let L ← processInnerData decode env L
      ⟨accounts.take expectedAccounts.toNat, rest.take dataLen.toNat⟩
    if rest.drop dataLen.toNat = [] then .ok L
    else processBatchData L (accounts.drop expectedAccounts.toNat) (rest.drop dataLen.toNat)
  | _ => .error TokenError.invalidInstruction
termination_by data => data.length
decreasing_by
  simp only [List.length_drop, List.length_cons]
  omega

/-- `process`. -/
def process (L : Ledger) (accounts : List AccountMeta) (input : List UInt8) :
    ProgramResult Ledger :=
  if input.head? = some batchTag then processBatchData decode env L accounts (input.drop 1)
  else processInnerData decode env L ⟨accounts, input⟩

/-- The calls of `_process_inner` that `process_batch` makes, in order. -/
def executedCalls (L : Ledger) (accounts : List AccountMeta) : List UInt8 → List Call
  | expectedAccounts :: dataLen :: rest =>
    if expectedAccounts.toNat ≤ accounts.length ∧ dataLen.toNat ≤ rest.length then
      let call : Call := ⟨accounts.take expectedAccounts.toNat, rest.take dataLen.toNat⟩
      match processInnerData decode env L call with
      | .error _ => [call]
      | .ok L => call ::
        executedCalls L (accounts.drop expectedAccounts.toNat) (rest.drop dataLen.toNat)
    else []
  | _ => []
termination_by data => data.length
decreasing_by
  simp only [List.length_drop, List.length_cons]
  omega

/-- The calls one after the other. -/
def runCalls (L : Ledger) (calls : List Call) : ProgramResult Ledger :=
  calls.foldlM (processInnerData decode env) L

end Loop

/-! ### Items -/

/-- An item of a batch. Its length is written in one byte. -/
structure BatchItem where
  numAccounts : UInt8
  data : List UInt8
  short : data.length < 256

/-- The bytes of an item: the header, then the data. -/
def BatchItem.bytes (item : BatchItem) : List UInt8 :=
  item.numAccounts :: .ofNat item.data.length :: item.data

/-- The bytes of a row of items. -/
def batchBytes (items : List BatchItem) : List UInt8 := items.flatMap BatchItem.bytes

/-- How many accounts the items take. -/
def accountCount (items : List BatchItem) : ℕ := (items.map fun item => item.numAccounts.toNat).sum

/-- **The calls that the items stand for.** An item has the accounts that follow those of the items
before it, and its own data. -/
def batchCalls (accounts : List AccountMeta) (items : List BatchItem) : List Call :=
  items.mapIdx fun k item =>
    ⟨(accounts.drop (accountCount (items.take k))).take item.numAccounts.toNat, item.data⟩

@[simp] theorem batchBytes_nil : batchBytes [] = [] := rfl

@[simp] theorem batchBytes_cons (item : BatchItem) (items : List BatchItem) :
    batchBytes (item :: items) = item.bytes ++ batchBytes items := rfl

@[simp] theorem accountCount_nil : accountCount [] = 0 := rfl

@[simp] theorem accountCount_cons (item : BatchItem) (items : List BatchItem) :
    accountCount (item :: items) = item.numAccounts.toNat + accountCount items := rfl

@[simp] theorem batchCalls_nil (accounts : List AccountMeta) : batchCalls accounts [] = [] := rfl

/-- The first item has the first accounts; the others have what it leaves. -/
@[simp] theorem batchCalls_cons (accounts : List AccountMeta) (item : BatchItem)
    (items : List BatchItem) :
    batchCalls accounts (item :: items) =
      ⟨accounts.take item.numAccounts.toNat, item.data⟩ ::
        batchCalls (accounts.drop item.numAccounts.toNat) items := by
  unfold batchCalls
  rw [List.mapIdx_cons]
  congr 1
  refine congrArg (List.mapIdx · items) ?_
  funext k other
  rw [List.take_succ_cons, accountCount_cons, List.drop_drop]

theorem BatchItem.bytes_ne_nil (item : BatchItem) : item.bytes ≠ [] := List.cons_ne_nil _ _

/-- Bytes with room for what their header says start with an item. -/
def BatchItem.ofBytes (numAccounts dataLen : UInt8) (rest : List UInt8) : BatchItem where
  numAccounts
  data := rest.take dataLen.toNat
  short := by
    have bound := dataLen.toNat_lt
    rw [List.length_take]
    omega

theorem BatchItem.ofBytes_bytes {numAccounts dataLen : UInt8} {rest : List UInt8}
    (room : dataLen.toNat ≤ rest.length) :
    numAccounts :: dataLen :: rest =
      (BatchItem.ofBytes numAccounts dataLen rest).bytes ++ rest.drop dataLen.toNat := by
  have length : UInt8.ofNat (rest.take dataLen.toNat).length = dataLen := by
    rw [List.length_take_of_le room, UInt8.ofNat_toNat]
  show _ = numAccounts :: .ofNat (rest.take dataLen.toNat).length :: _ ++ _
  rw [length, List.cons_append, List.cons_append]
  congr 2
  exact (List.take_append_drop _ _).symm

section Sequential

variable (decode : List UInt8 → ProgramResult TokenInstruction) (env : Env)

/-- **One turn of the loop**, on an item and what follows it. -/
theorem processBatchData_item (L : Ledger) (accounts : List AccountMeta) (item : BatchItem)
    (tail : List UInt8) :
    processBatchData decode env L accounts (item.bytes ++ tail) = (do
      require (item.numAccounts.toNat ≤ accounts.length) .notEnoughAccountKeys
      let L ← processInnerData decode env L ⟨accounts.take item.numAccounts.toNat, item.data⟩
      if tail = [] then .ok L
      else processBatchData decode env L (accounts.drop item.numAccounts.toNat) tail) := by
  have length : (UInt8.ofNat item.data.length).toNat = item.data.length := by
    rw [UInt8.toNat_ofNat', Nat.mod_eq_of_lt item.short]
  show processBatchData decode env L accounts
    (item.numAccounts :: .ofNat item.data.length :: (item.data ++ tail)) = _
  have room : item.data.length ≤ (item.data ++ tail).length := by simp
  rw [processBatchData, length, List.take_left, List.drop_left]
  congr 1
  funext _
  rw [require, if_pos room]
  rfl

/-- The same turn, in the calls that are made. -/
theorem executedCalls_item {L : Ledger} {accounts : List AccountMeta} {item : BatchItem}
    {tail : List UInt8} (enough : item.numAccounts.toNat ≤ accounts.length) :
    executedCalls decode env L accounts (item.bytes ++ tail) =
      let call : Call := ⟨accounts.take item.numAccounts.toNat, item.data⟩
      match processInnerData decode env L call with
      | .error _ => [call]
      | .ok L => call ::
        executedCalls decode env L (accounts.drop item.numAccounts.toNat) tail := by
  have length : (UInt8.ofNat item.data.length).toNat = item.data.length := by
    rw [UInt8.toNat_ofNat', Nat.mod_eq_of_lt item.short]
  show executedCalls decode env L accounts
    (item.numAccounts :: .ofNat item.data.length :: (item.data ++ tail)) = _
  have room : item.data.length ≤ (item.data ++ tail).length := by simp
  rw [executedCalls, length, List.take_left, List.drop_left, if_pos ⟨enough, room⟩]

@[simp] theorem runCalls_nil (L : Ledger) : runCalls decode env L [] = .ok L := rfl

@[simp] theorem runCalls_cons (L : Ledger) (call : Call) (calls : List Call) :
    runCalls decode env L (call :: calls) =
      processInnerData decode env L call >>= fun L => runCalls decode env L calls :=
  List.foldlM_cons

/-- Bytes start with an item whose accounts are there, or the loop runs nothing and fails. -/
theorem item_or_stuck (L : Ledger) (accounts : List AccountMeta) (data : List UInt8) :
    (∃ (item : BatchItem) (tail : List UInt8), data = item.bytes ++ tail ∧
      item.numAccounts.toNat ≤ accounts.length) ∨
    (executedCalls decode env L accounts data = [] ∧
      ∃ e, processBatchData decode env L accounts data = .error e) := by
  match data with
  | [] => exact .inr ⟨by rw [executedCalls]; simp, _, by rw [processBatchData]; simp⟩
  | [_] => exact .inr ⟨by rw [executedCalls]; simp, _, by rw [processBatchData]; simp⟩
  | numAccounts :: dataLen :: rest =>
    by_cases enough : numAccounts.toNat ≤ accounts.length
    · by_cases room : dataLen.toNat ≤ rest.length
      · exact .inl ⟨_, _, BatchItem.ofBytes_bytes room, enough⟩
      · refine .inr ⟨?_, TokenError.invalidInstruction, ?_⟩
        · rw [executedCalls, if_neg fun both => room both.2]
        · rw [processBatchData, require, if_pos enough, require, if_neg room]
          rfl
    · refine .inr ⟨?_, .notEnoughAccountKeys, ?_⟩
      · rw [executedCalls, if_neg fun both => enough both.1]
      · rw [processBatchData, require, if_neg enough]
        rfl

/-- A successful call is no batch. -/
theorem not_batch_of_ok {L L' : Ledger} {call : Call}
    (ok : processInnerData decode env L call = .ok L') : call.data.head? ≠ some batchTag :=
  (require_bind_eq_ok_iff.mp ok).1

/-- **Success is the success of the items.** -/
theorem processBatchData_eq_ok_iff {L L' : Ledger} {accounts : List AccountMeta}
    {data : List UInt8} :
    processBatchData decode env L accounts data = .ok L' ↔
      ∃ items, items ≠ [] ∧ data = batchBytes items ∧ accountCount items ≤ accounts.length ∧
        (∀ item ∈ items, item.data.head? ≠ some batchTag) ∧
        runCalls decode env L (batchCalls accounts items) = .ok L' := by
  constructor
  · intro ok
    -- The induction is on the length of the data: a turn takes at least the header off it.
    induction size : data.length using Nat.strong_induction_on generalizing L accounts data with
    | _ n ih =>
      obtain ⟨item, tail, rfl, enough⟩ | ⟨-, e, stuck⟩ := item_or_stuck decode env L accounts data
      · rw [processBatchData_item, require_bind_eq_ok_iff] at ok
        obtain ⟨-, ok⟩ := ok
        obtain ⟨mid, first, ok⟩ := bind_eq_ok_iff.mp ok
        have alone := not_batch_of_ok decode env first
        split at ok
        · rename_i ended
          obtain rfl := Except.ok.inj ok
          refine ⟨[item], List.cons_ne_nil _ _, by simp [ended], by simpa using enough,
            by simpa using alone, ?_⟩
          rw [batchCalls_cons, runCalls_cons, first]
          rfl
        · have shorter : tail.length < n := by
            rw [← size, List.length_append]
            have := List.length_pos_iff.mpr item.bytes_ne_nil
            omega
          obtain ⟨items, -, rfl, fit, others, run⟩ := ih _ shorter ok rfl
          refine ⟨item :: items, List.cons_ne_nil _ _, rfl, ?_, ?_, ?_⟩
          · rw [List.length_drop] at fit
            rw [accountCount_cons]
            omega
          · exact List.forall_mem_cons.mpr ⟨alone, others⟩
          · rw [batchCalls_cons, runCalls_cons, first]
            exact run
      · rw [stuck] at ok
        cases ok
  · rintro ⟨items, some, rfl, fit, -, run⟩
    induction items generalizing L accounts with
    | nil => exact absurd rfl some
    | cons item items ih =>
      rw [accountCount_cons] at fit
      rw [batchCalls_cons, runCalls_cons] at run
      obtain ⟨mid, first, run⟩ := bind_eq_ok_iff.mp run
      rw [batchBytes_cons, processBatchData_item, require_bind_eq_ok_iff]
      refine ⟨by omega, bind_eq_ok_iff.mpr ⟨mid, first, ?_⟩⟩
      cases items with
      | nil => exact run
      | cons next items =>
        have more : batchBytes (next :: items) ≠ [] :=
          List.append_ne_nil_of_left_ne_nil next.bytes_ne_nil _
        rw [if_neg more]
        exact ih (List.cons_ne_nil _ _) (by rw [List.length_drop]; omega) run

/-- **The first item that fails gives the error**, whatever follows it. -/
theorem processBatchData_first_error {L mid : Ledger} {accounts : List AccountMeta}
    {before : List BatchItem} {item : BatchItem} {tail : List UInt8} {e : ProgramError}
    (fit : accountCount before + item.numAccounts.toNat ≤ accounts.length)
    (run : runCalls decode env L (batchCalls accounts before) = .ok mid)
    (fails : processInnerData decode env mid
      ⟨(accounts.drop (accountCount before)).take item.numAccounts.toNat, item.data⟩ = .error e) :
    processBatchData decode env L accounts (batchBytes before ++ (item.bytes ++ tail)) =
      .error e := by
  induction before generalizing L accounts with
  | nil =>
    obtain rfl := Except.ok.inj run
    rw [accountCount_nil, Nat.zero_add] at fit
    rw [accountCount_nil, List.drop_zero] at fails
    rw [batchBytes_nil, List.nil_append, processBatchData_item, require, if_pos fit, fails]
    rfl
  | cons first before ih =>
    rw [accountCount_cons] at fit fails
    rw [batchCalls_cons, runCalls_cons] at run
    obtain ⟨next, one, run⟩ := bind_eq_ok_iff.mp run
    have more : batchBytes before ++ (item.bytes ++ tail) ≠ [] := fun none =>
      item.bytes_ne_nil (List.append_eq_nil_iff.mp (List.append_eq_nil_iff.mp none).2).1
    rw [batchBytes_cons, List.append_assoc, processBatchData_item, require, if_pos (by omega), one]
    show (if _ then _ else _) = _
    rw [if_neg more]
    refine ih (by rw [List.length_drop]; omega) run ?_
    rw [List.drop_drop]
    exact fails

/-- **Only whole items are executed**, each with its own accounts and data. -/
theorem executedCalls_whole (L : Ledger) (accounts : List AccountMeta) (data : List UInt8) :
    ∃ items tail, data = batchBytes items ++ tail ∧ accountCount items ≤ accounts.length ∧
      executedCalls decode env L accounts data = batchCalls accounts items := by
  induction size : data.length using Nat.strong_induction_on generalizing L accounts data with
  | _ n ih =>
    obtain ⟨item, tail, rfl, enough⟩ | ⟨none, -⟩ := item_or_stuck decode env L accounts data
    · rw [executedCalls_item decode env enough]
      cases called : processInnerData decode env L
          ⟨accounts.take item.numAccounts.toNat, item.data⟩ with
      | error e =>
        exact ⟨[item], tail, by simp, by simpa using enough, by simp [called]⟩
      | ok mid =>
        have shorter : tail.length < n := by
          rw [← size, List.length_append]
          have := List.length_pos_iff.mpr item.bytes_ne_nil
          omega
        obtain ⟨items, rest, same, fit, calls⟩ :=
          ih _ shorter mid (accounts.drop item.numAccounts.toNat) tail rfl
        refine ⟨item :: items, rest, ?_, ?_, ?_⟩
        · rw [batchBytes_cons, List.append_assoc, ← same]
        · rw [List.length_drop] at fit
          rw [accountCount_cons]
          omega
        · simp only [called, batchCalls_cons, calls]
    · exact ⟨[], data, rfl, Nat.zero_le _, none⟩

/-- Calls that succeed one after the other are a run. -/
theorem runs_of_runCalls {L L' : Ledger} {calls : List Call}
    (ok : runCalls decode env L calls = .ok L') :
    ∃ events, Runs L events L' ∧ events.length = calls.length := by
  induction calls generalizing L with
  | nil =>
    obtain rfl := Except.ok.inj ok
    exact ⟨[], .start, rfl⟩
  | cons call calls ih =>
    rw [runCalls_cons] at ok
    obtain ⟨mid, first, others⟩ := bind_eq_ok_iff.mp ok
    obtain ⟨-, first⟩ := require_bind_eq_ok_iff.mp first
    obtain ⟨instruction, -, first⟩ := bind_eq_ok_iff.mp first
    obtain ⟨outcome, inner, same⟩ := bind_eq_ok_iff.mp first
    obtain rfl := Except.ok.inj same
    have one : Step L (.invoke ⟨env, call.accounts, instruction⟩) outcome.ledger := .invoke inner
    obtain ⟨events, run, count⟩ := ih others
    refine ⟨_, (LabelledRun.Run.single one).trans run, ?_⟩
    simp only [List.length_append, List.length_cons, List.length_nil, count]
    omega

/-- **What a batch leads to is reached by a run of its instructions.** -/
theorem runs_of_processBatchData {L L' : Ledger} {accounts : List AccountMeta}
    {data : List UInt8} (ok : processBatchData decode env L accounts data = .ok L') :
    ∃ events, Runs L events L' := by
  obtain ⟨items, -, -, -, -, run⟩ := (processBatchData_eq_ok_iff decode env).mp ok
  obtain ⟨events, taken, -⟩ := runs_of_runCalls decode env run
  exact ⟨events, taken⟩

end Sequential

section Examples

open Basic AccountMeta

/-- A decoder of two instructions. -/
def decodeTwo : List UInt8 → ProgramResult TokenInstruction
  | [20] => .ok (.initializeMint2 0 owner none)
  | [18] => .ok (.initializeAccount3 owner)
  | _ => .error TokenError.invalidInstruction

/-- A mint is initialized, and an account of it. -/
def twoItems : List BatchItem := [⟨1, [20], by decide⟩, ⟨2, [18], by decide⟩]

end Examples

end Token2022
