/-
**The members of a group are numbered.**

A group keeps the number of its members. A mint that joins is counted there, and gets an entry of
its own with the number that the group has reached.

* `Event.enrollsIn`, `memberNumber?` — who joins which group, and the number that is given out.
* `processInitializeMember_spec` — the two writes of one instruction.
* `Change.counts`, `Step.counts` — a step counts the member that joins, if one does.
* **`group_numbering`** — in every run after the initialization, the numbers that were given out are
  those from one to the size of the group.
-/

import Token2022.Property.Layout

namespace Token2022

open Fallible LabelledRun

variable {i : Invocation} {start L L' : Ledger} {outcome : Outcome} {validated : List Address}
  {g : Address} {size : ℕ}

/-! ### Groups and their members -/

/-- The invocation makes a mint a member of the group. -/
def Invocation.enrollsIn (i : Invocation) (g : Address) : Prop :=
  i.instruction = .tokenGroup .initializeMember ∧ i.key? 3 = some g

instance (i : Invocation) (g : Address) : Decidable (i.enrollsIn g) :=
  inferInstanceAs (Decidable (_ ∧ _))

/-- The event makes a mint a member of the group. -/
def Event.enrollsIn (e : Event) (g : Address) : Prop :=
  match e with
  | .invoke i => i.enrollsIn g
  | .external => False

instance (e : Event) (g : Address) : Decidable (e.enrollsIn g) :=
  match e with
  | .invoke i => inferInstanceAs (Decidable (i.enrollsIn g))
  | .external => inferInstanceAs (Decidable False)

/-- The number that the entry of the mint at an address gives it in the group. -/
def Ledger.numberIn? (L : Ledger) (m g : Address) : Option ℕ := do
  let mint ← L.mint? m
  let member ← mint.get .tokenGroupMember
  if member.group = g then some member.memberNumber else none

/-- The number in the group that an event gives out: the one in the entry that it leaves. -/
def memberNumber? (g : Address) (l : Event × Ledger) : Option ℕ :=
  match l.1 with
  | .invoke i => if i.enrollsIn g then (i.key? 0).bind fun m => l.2.numberIn? m g else none
  | .external => none

theorem memberNumber?_invoke : memberNumber? g (.invoke i, L) =
    if i.enrollsIn g then (i.key? 0).bind fun m => L.numberIn? m g else none := rfl

/-- **The data of the mint of a group** of a size, which its maximum allows. -/
inductive Counts (size : ℕ) : AccountData → Prop
  | intro {mint : MintState} {group : TokenGroup} (held : mint.get .tokenGroup = some group)
      (counted : group.size = size) (room : group.size ≤ group.maxSize) : Counts size (.mint mint)

/-- An allocating write of another extension leaves the group. -/
theorem Counts.of_writesOnly {mint mint' : MintState} {t : ExtensionType} {e : Extension t}
    (other : t ≠ .tokenGroup) (writes : StateWithExtensions.WritesOnly mint mint' t e)
    (counts : Counts size (.mint mint)) : Counts size (.mint mint') := by
  cases counts with
  | intro held counted room =>
    exact .intro ((writes.others _ (Ne.symm other)).trans held) counted room

/-! ### Joining a group -/

/-- **A mint joins a group**: the group counts it, if it has room, and its own entry says so. -/
theorem processInitializeMember_spec
    (ok : processInitializeMember i.env L i.accounts = .ok outcome) :
    ∃ (m g' : Address) (mint mint' groupMint : MintState) (group : TokenGroup),
      i.key? 0 = some m ∧ i.key? 3 = some g' ∧ m ≠ g' ∧
      L.mint? m = some mint ∧ L.mint? g' = some groupMint ∧
      groupMint.get .tokenGroup = some group ∧ group.size + 1 ≤ group.maxSize ∧
      mint.get .tokenGroupMember = none ∧
      StateWithExtensions.WritesOnly mint mint' .tokenGroupMember ⟨m, g', group.size + 1⟩ ∧
      outcome.ledger = (L.setData g'
        (.mint (groupMint.set .tokenGroup { group with size := group.size + 1 }))).setData m
          (.mint mint') := by
  simp only [processInitializeMember, bind_eq_ok_iff, Prod.exists, nextAccountInfo_eq_ok_iff,
    checkProgramAccount_eq_ok_iff, unpackMint_eq_ok_iff, require_eq_ok_iff, exists_const] at ok
  obtain ⟨info, _, first, mintInfo, _, second, _, _, third, groupInfo, _, fourth, _, _, -, owned',
    here, owned, mint, data, _, -, distinct, groupMint, data', group, held, _, -, group', counted,
    mid, stored, updated, written, last, stored', same⟩ := ok
  obtain rfl := Except.ok.inj same
  obtain ⟨room, rfl⟩ := i.env.programs.incrementGroupSize_spec.mp counted
  obtain ⟨-, rfl⟩ := Ledger.writeData_eq_ok_iff.mp stored
  obtain ⟨-, rfl⟩ := Ledger.writeData_eq_ok_iff.mp stored'
  have keys : i.key? 0 = some info.key ∧ i.key? 3 = some groupInfo.key := by
    subst second third fourth
    simp [Invocation.key?, first]
  rw [← here] at data owned
  have absent := (allocAndSerialize_eq_ok written (by decide)).1
  refine ⟨info.key, groupInfo.key, mint, updated, groupMint, group, keys.1, keys.2, distinct,
    Ledger.mint?_eq_some_iff.mpr ⟨owned, data⟩, Ledger.mint?_eq_some_iff.mpr ⟨owned', data'⟩,
    StateWithExtensions.getExtension_eq_ok_iff.mp held, room, absent, ?_, rfl⟩
  rw [here]
  exact (StateWithExtensions.allocAndSerialize_writesOnly written).2

/-! ### All other writes -/

/-- An update of the extension counts no member, but for the one that a new member makes. -/
theorem MintUpdate.counts {mint : MintState} {t : ExtensionType} {e e' : Extension t}
    (update : MintUpdate i validated mint t e e')
    (other : i.instruction ≠ .tokenGroup .initializeMember)
    (counts : Counts size (.mint mint)) (held : mint.get t = some e) :
    Counts size (.mint (mint.set t e')) := by
  cases update with
  | @rotate type field e key new named authority signed =>
    have ne : field.type ≠ .tokenGroup := by
      cases type <;> cases named <;> decide
    exact counts.of_writesOnly ne (StateWithExtensions.writesOnly_set ..)
  | updateGroupMaxSize authority fits =>
    obtain ⟨held', counted, room⟩ := counts
    obtain rfl := Option.some.inj (held.symm.trans held')
    exact .intro (StateWithExtensions.get_set_self ..) counted fits
  | updateGroupAuthority authority =>
    obtain ⟨held', counted, room⟩ := counts
    obtain rfl := Option.some.inj (held.symm.trans held')
    exact .intro (StateWithExtensions.get_set_self ..) counted room
  | enroll named => exact absurd named other
  | _ => exact counts.of_writesOnly (by decide) (StateWithExtensions.writesOnly_set ..)

/-- **Every write but those of a new member leaves the size**, and keeps it within the maximum. -/
theorem Change.counts {old new : AccountData} (change : Change i start validated g old new)
    (other : i.instruction ≠ .tokenGroup .initializeMember) (counts : Counts size old) :
    Counts size new := by
  cases change with
  | mintBase initial change =>
    obtain ⟨held, counted, room⟩ := counts
    exact .intro held counted room
  | mintUpdate initial held update => exact update.counts other counts held
  | addMetadata authority pointer written | updateMetadata held authority written =>
    exact counts.of_writesOnly (by decide)
      (StateWithExtensions.allocAndSerializeVariableLenExtension_writesOnly written)
  | addGroup authority pointer empty written =>
    -- A mint with a group gets no other one.
    obtain ⟨held, -, -⟩ := counts
    have absent := (allocAndSerialize_eq_ok written (by decide)).1
    rw [held] at absent
    cases absent
  | addMember authority pointer written =>
    exact counts.of_writesOnly (by decide)
      (StateWithExtensions.allocAndSerialize_writesOnly written).2
  | _ => cases counts

/-! ### Steps and runs -/

/-- **A new member of some group**: of this one, it is counted and gets the next number. -/
theorem initializeMember_counts (named : i.instruction = .tokenGroup .initializeMember)
    (ok : i.run L = .ok outcome) (counts : Counts size (L g).data) :
    (outcome.ledger g).owner = (L g).owner ∧
      Counts (size + if i.enrollsIn g then 1 else 0) (outcome.ledger g).data ∧
      memberNumber? g (.invoke i, outcome.ledger) =
        if i.enrollsIn g then some (size + 1) else none := by
  unfold Invocation.run at ok
  rw [named] at ok
  obtain ⟨m, g', mint, mint', groupMint, group, member, joined, ne, held, held', grouped, room, -,
    writes, ledger⟩ := processInitializeMember_spec ok
  obtain ⟨owned, data⟩ := Ledger.mint?_eq_some_iff.mp held
  obtain ⟨owned', data'⟩ := Ledger.mint?_eq_some_iff.mp held'
  have enrolls : i.enrollsIn g ↔ g' = g := by
    unfold Invocation.enrollsIn
    rw [joined, Option.some.injEq]
    exact and_iff_right named
  have owner : ∀ a, (outcome.ledger a).owner = (L a).owner := by
    intro a
    rw [ledger, Ledger.owner_setData, Ledger.owner_setData]
  have entry : outcome.ledger.mint? m = some mint' := by
    refine Ledger.mint?_eq_some_iff.mpr ⟨(owner m).trans owned, ?_⟩
    rw [ledger, Ledger.data_setData_self]
  refine ⟨owner g, ?_, ?_⟩
  · by_cases here : g' = g
    · subst here
      rw [if_pos (enrolls.mpr rfl), ledger, Ledger.data_setData_of_ne _ (Ne.symm ne),
        Ledger.data_setData_self]
      rw [data'] at counts
      obtain ⟨grouped', counted, -⟩ := counts
      obtain rfl := Option.some.inj (grouped.symm.trans grouped')
      exact .intro (StateWithExtensions.get_set_self ..) (congrArg (· + 1) counted) room
    · rw [if_neg (mt enrolls.mp here), ledger]
      by_cases self : m = g
      · -- The mint of the group joins another group.
        subst self
        rw [data] at counts
        rw [Ledger.data_setData_self]
        exact counts.of_writesOnly (by decide) writes
      · rwa [Ledger.data_setData_of_ne _ (Ne.symm self), Ledger.data_setData_of_ne _ (Ne.symm here)]
  · rw [memberNumber?_invoke]
    by_cases here : g' = g
    · subst here
      rw [if_pos (enrolls.mpr rfl), if_pos (enrolls.mpr rfl), member, Option.bind_some]
      rw [data'] at counts
      obtain ⟨grouped', counted, -⟩ := counts
      obtain rfl := Option.some.inj (grouped.symm.trans grouped')
      unfold Ledger.numberIn?
      rw [entry, Option.bind_eq_bind, Option.bind_some, writes.written, Option.bind_eq_bind,
        Option.bind_some, if_pos rfl, counted]
    · rw [if_neg (mt enrolls.mp here), if_neg (mt enrolls.mp here)]

/-- **One step** counts the member that joins, if one does, and gives it the next number. -/
theorem Step.counts {e : Event} (step : Step L e L') (stays : ¬ e.closes g)
    (init : (L g).owner = programId ∧ Counts size (L g).data) :
    (L' g).owner = programId ∧ Counts (size + if e.enrollsIn g then 1 else 0) (L' g).data ∧
      memberNumber? g (e, L') = if e.enrollsIn g then some (size + 1) else none := by
  cases step with
  | external ext =>
    obtain ⟨owned, data, -⟩ := ext.kept g init.1
    rw [data]
    exact ⟨owned, init.2, rfl⟩
  | @invoke i outcome ok =>
    by_cases named : i.instruction = .tokenGroup .initializeMember
    · obtain ⟨owner, counts, number⟩ := initializeMember_counts named ok init.2
      exact ⟨owner.trans init.1, counts, number⟩
    · have notEnrolls : ¬ i.enrollsIn g := fun enrolls => named enrolls.1
      have kept := (run_writes ok).follow (fun closes => stays ⟨i, rfl, closes⟩)
        (fun old new counts change => change.counts named counts) init
      have none : ¬ (Event.invoke i).enrollsIn g := notEnrolls
      rw [if_neg none, if_neg none]
      exact ⟨kept.1, kept.2, if_neg notEnrolls⟩

/-- **A run** counts the members that join, and numbers them in turn. -/
theorem runs_count {trace : List (Event × Ledger)} (run : Run (observed Step) L trace L')
    (stays : ∀ l ∈ trace, ¬ l.1.closes g)
    (init : (L g).owner = programId ∧ Counts 0 (L g).data) :
    (L' g).owner = programId ∧ Counts (trace.countP fun l => l.1.enrollsIn g) (L' g).data ∧
      trace.filterMap (memberNumber? g) =
        List.range' 1 (trace.countP fun l => l.1.enrollsIn g) := by
  induction run with
  | start => exact ⟨init.1, init.2, rfl⟩
  | @step trace l t t' _ one ih =>
    obtain ⟨owned, counts, numbers⟩ := ih fun l member => stays l (List.mem_append_left _ member)
    obtain ⟨e, after⟩ := l
    obtain ⟨step, rfl⟩ := one
    obtain ⟨owned', counts', number⟩ := step.counts (stays (e, after) (by simp)) ⟨owned, counts⟩
    rw [List.countP_append, List.filterMap_append, numbers, List.countP_singleton]
    refine ⟨owned', ?_, ?_⟩
    · by_cases enrolls : e.enrollsIn g <;> simpa [enrolls] using counts'
    · by_cases enrolls : e.enrollsIn g
      · rw [if_pos enrolls] at number
        simp [number, enrolls, List.range'_1_concat, Nat.add_comm 1]
      · rw [if_neg enrolls] at number
        simp [number, enrolls]

/-! ### The numbering -/

/-- A group starts without members. -/
theorem processInitializeGroup_counts {authority : MaybeNull Address} {maxSize : UInt64}
    (named : i.instruction = .tokenGroup (.initializeGroup authority maxSize))
    (target : i.key? 0 = some g) (ok : i.run L = .ok outcome) :
    (outcome.ledger g).owner = programId ∧ Counts 0 (outcome.ledger g).data := by
  unfold Invocation.run at ok
  rw [named] at ok
  replace ok : processInitializeGroup L i.accounts authority maxSize.toNat = .ok outcome := ok
  simp only [processInitializeGroup, bind_eq_ok_iff, Prod.exists, nextAccountInfo_eq_ok_iff,
    checkProgramAccount_eq_ok_iff, unpackMint_eq_ok_iff, require_eq_ok_iff, exists_const] at ok
  obtain ⟨info, _, shape, mintInfo, _, -, _, _, -, here, owned, mint, data, _, -, updated, written,
    ledger, stored, same⟩ := ok
  obtain rfl := Except.ok.inj same
  obtain ⟨-, rfl⟩ := Ledger.writeData_eq_ok_iff.mp stored
  obtain rfl : info.key = g := Option.some.inj ((key?_zero shape).symm.trans target)
  rw [← here] at owned
  refine ⟨(Ledger.owner_setData ..).trans owned, ?_⟩
  rw [Ledger.data_setData_self]
  have writes := (StateWithExtensions.allocAndSerialize_writesOnly written).2
  exact .intro writes.written rfl (Nat.zero_le _)

/-- **The members of a group are numbered from one to its size.** In every run of the system that
follows the initialization of a group and does not close its mint: the size is within the maximum and
is the number of the members that joined; the numbers they were given, in turn, are one to the size;
and no mint holds two entries of a member, in this group or any others. -/
theorem group_numbering {L L' : Ledger} {i : Invocation} {outcome : Outcome} {g : Address}
    {authority : MaybeNull Address} {maxSize : UInt64} {trace : List (Event × Ledger)}
    (reachable : Reachable L)
    (named : i.instruction = .tokenGroup (.initializeGroup authority maxSize))
    (target : i.key? 0 = some g) (ok : i.run L = .ok outcome)
    (run : Run (observed Step) outcome.ledger trace L') (stays : ∀ l ∈ trace, ¬ l.1.closes g) :
    ∃ mint group, L'.mint? g = some mint ∧ mint.get .tokenGroup = some group ∧
      group.size ≤ group.maxSize ∧
      group.size = trace.countP (fun l => l.1.enrollsIn g) ∧
      trace.filterMap (memberNumber? g) = List.range' 1 group.size ∧
      ∀ m mint, L'.mint? m = some mint → mint.extensionTypes.count .tokenGroupMember ≤ 1 := by
  have init := processInitializeGroup_counts named target ok
  obtain ⟨owned, counts, numbers⟩ := runs_count run stays init
  have reachable' : Reachable L' := (reachable.step (.invoke ok)).run run.of_observed
  generalize data : (L' g).data = new at counts
  obtain ⟨held, counted, room⟩ := counts
  refine ⟨_, _, Ledger.mint?_eq_some_iff.mpr ⟨owned, data⟩, held, room, counted, ?_, ?_⟩
  · rw [counted, numbers]
  · intro m mint there
    have distinct : mint.extensionTypes.Nodup := by
      rcases reachable'.mint_laid there with bare | extended
      · unfold StateWithExtensions.extensionTypes
        rw [bare]
        exact List.nodup_nil
      · exact extended.distinct
    exact List.nodup_iff_count_le_one.mp distinct _

namespace Basic

/-- The mint of a group, a mint that can be one and can join one, and a mint that can join one. -/
def groupTurns : List Turn := [
  .allocate mint 234, .allocate source 302, .allocate destination 234,
  .basic (.groupPointerExtension (.initializeExtension ⟨owner⟩ ⟨mint⟩)) [.plain mint],
  .basic (.groupPointerExtension (.initializeExtension ⟨owner⟩ ⟨source⟩)) [.plain source],
  .basic (.groupMemberPointerExtension (.initializeExtension ⟨owner⟩ ⟨source⟩)) [.plain source],
  .basic (.groupMemberPointerExtension (.initializeExtension ⟨owner⟩ ⟨destination⟩))
    [.plain destination],
  .basic (.initializeMint2 0 owner none) [.plain mint],
  .basic (.initializeMint2 0 owner none) [.plain source],
  .basic (.initializeMint2 0 owner none) [.plain destination]]

/-- A group of one member at most is made of a mint. -/
def initializeGroup (group : Address) : Invocation :=
  .basic (.tokenGroup (.initializeGroup ⟨owner⟩ 1)) [.plain group, .plain group, .signer owner]

/-- A mint joins a group. -/
def initializeMember (member group : Address) : Turn :=
  .basic (.tokenGroup .initializeMember)
    [.plain member, .plain member, .signer owner, .plain group, .signer owner]

/-- A mint that is a group itself joins, the maximum is raised, and another one joins. -/
def memberTurns : List Turn := [
  .invoke (initializeGroup source), initializeMember source mint,
  .basic (.tokenGroup (.updateGroupMaxSize 2)) [.plain mint, .signer owner],
  initializeMember destination mint]

end Basic

/-- The two members get the numbers one and two. -/
theorem group_numbering_two : ∃ L outcome L' trace,
    runAll .fresh Basic.groupTurns = .ok L ∧
    (Basic.initializeGroup Basic.mint).run L = .ok outcome ∧
    Run (observed Step) outcome.ledger trace L' ∧
    trace.map Prod.fst = Basic.memberTurns.map Turn.event ∧
    trace.filterMap (memberNumber? Basic.mint) = [1, 2] := by
  have leads : LeadsTo (runAll .fresh Basic.groupTurns) fun L =>
      LeadsTo ((Basic.initializeGroup Basic.mint).run L) fun outcome =>
      LeadsTo (runAll outcome.ledger Basic.memberTurns) fun _ => True := by
    decide +kernel
  obtain ⟨L, opened, leads⟩ := leads.exists
  obtain ⟨outcome, initialized, leads⟩ := leads.exists
  obtain ⟨L', ran, -⟩ := leads.exists
  obtain ⟨trace, labels, run⟩ := (runs_of_runAll ran).exists_observed
  have stays : ∀ e ∈ Basic.memberTurns.map Turn.event, ¬ e.closes Basic.mint := by
    intro e member
    simp only [Basic.memberTurns, Basic.initializeMember, Turn.basic, List.map_cons, List.map_nil,
      Turn.event, List.mem_cons, List.not_mem_nil, or_false] at member
    rintro ⟨i, rfl, named, -⟩
    rcases member with same | same | same | same
    all_goals
      obtain rfl := Event.invoke.inj same
      cases named
  obtain ⟨mint, group, -, -, -, size, numbers, -⟩ := group_numbering
    (Reachable.of_runAll .fresh opened) rfl rfl initialized run
    fun l member => stays l.1 (labels ▸ List.mem_map_of_mem member)
  have count : trace.countP (fun l => l.1.enrollsIn Basic.mint) =
      (trace.map Prod.fst).countP fun e => e.enrollsIn Basic.mint := by
    rw [List.countP_map]
    rfl
  rw [count, labels] at size
  have two : (Basic.memberTurns.map Turn.event).countP (fun e => e.enrollsIn Basic.mint) = 2 := by
    decide
  rw [size, two] at numbers
  exact ⟨L, outcome, L', trace, opened, initialized, run, labels, numbers⟩

end Token2022
