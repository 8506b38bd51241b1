/-
**Mints whose new accounts start frozen.**

The accounts of a mint may start frozen, and only its freeze authority thaws them. A mint cannot be
initialized so without that authority, and whoever changes the state that accounts start in is that
authority; but the authority may be given up.

* `MintState.StartsFrozen`, `Unthawable` — new accounts start frozen, and no one can thaw them.
* `GivesUpFreeze` — the freeze authority of such a mint gives itself up.
* `Change.unthawable`, `Step.unthawable` — nothing else makes a mint so.
* **`frozen_default_thawable`** — in every run, a mint that is so was made so by its authority.
-/

import Token2022.Environment
import Token2022.Writes.Program

namespace Token2022

open Fallible LabelledRun

variable {i : Invocation} {start L L' : Ledger} {validated : List Address} {a m : Address}
  {old new : AccountData}

/-! ### Mints that no one can thaw -/

/-- The new accounts of the mint start frozen. -/
def MintState.StartsFrozen (mint : MintState) : Prop :=
  (mint.get .defaultAccountState).any (fun default => default.state = .frozen) = true

instance (mint : MintState) : Decidable mint.StartsFrozen := inferInstanceAs (Decidable (_ = true))

/-- **New accounts of the mint start frozen, and no one can thaw them.** -/
inductive Unthawable : AccountData → Prop
  | mint {mint : MintState} (frozen : mint.StartsFrozen)
      (absent : mint.base.freezeAuthority = none) : Unthawable (.mint mint)

/-- **The freeze authority of the mint gives itself up**, with its signature, while new accounts start
frozen. -/
inductive GivesUpFreeze (i : Invocation) (L : Ledger) (validated : List Address) (m : Address) : Prop
  | intro {mint : MintState} {key : Address}
      (named : i.instruction = .setAuthority .freezeAccount none) (target : i.key? 0 = some m)
      (held : (L m).data = .mint mint) (frozen : mint.StartsFrozen)
      (authority : mint.base.freezeAuthority = some key) (signed : key ∈ validated)

/-- Where the state that accounts start in and the freeze authority stay, nothing changes. -/
theorem Unthawable.of_same {mint mint' : MintState} (unthawable : Unthawable (.mint mint'))
    (default : mint'.get .defaultAccountState = mint.get .defaultAccountState)
    (authority : mint'.base.freezeAuthority = mint.base.freezeAuthority) :
    Unthawable (.mint mint) := by
  cases unthawable with
  | mint frozen absent =>
    refine .mint ?_ (authority ▸ absent)
    unfold MintState.StartsFrozen at frozen ⊢
    rwa [default] at frozen

/-! ### One write -/

/-- A write to the base state of a mint gives up the freeze authority, or leaves it. -/
theorem MintBaseChange.unthawable {mint : MintState} {base : PodMint}
    (initial : (start a).data = .mint mint) (change : MintBaseChange i validated a mint base)
    (unthawable : Unthawable (.mint (mint.withBase base))) :
    Unthawable (.mint mint) ∨ GivesUpFreeze i start validated a := by
  cases change with
  | @setFreezeAuthority key new named target authority signed =>
    cases unthawable with
    | mint frozen absent =>
      obtain rfl : new = none := absent
      exact .inr (.intro named target initial frozen authority signed)
  | _ => exact .inl (unthawable.of_same rfl rfl)

/-- An update of an extension leaves the state that accounts start in, unless the freeze authority
sets it. -/
theorem MintUpdate.unthawable {mint : MintState} {t : ExtensionType} {e e' : Extension t}
    (update : MintUpdate i validated mint t e e')
    (unthawable : Unthawable (.mint (mint.set t e'))) : Unthawable (.mint mint) := by
  by_cases other : t = .defaultAccountState
  · cases update with
    | @updateDefaultAccountState _ _ key authority =>
      cases unthawable with
      | mint frozen absent =>
        have present : mint.base.freezeAuthority = none := absent
        rw [present] at authority
        cases authority
    | @rotate type field e key new named => cases type <;> cases named <;> cases other
    | _ => cases other
  · exact unthawable.of_same (StateWithExtensions.get_set_of_ne _ (Ne.symm other) e') rfl

/-- An allocating write leaves the state that accounts start in. -/
theorem Unthawable.of_writesOnly {mint mint' : MintState} {t : ExtensionType} {e : Extension t}
    (other : t ≠ .defaultAccountState) (writes : StateWithExtensions.WritesOnly mint mint' t e)
    (unthawable : Unthawable (.mint mint')) : Unthawable (.mint mint) :=
  unthawable.of_same (writes.others _ other.symm) (congrArg PodMint.freezeAuthority writes.base)

/-- **One write** makes a mint so only as its authority gives itself up. -/
theorem Change.unthawable (change : Change i start validated a old new)
    (unthawable : Unthawable new) :
    Unthawable old ∨ GivesUpFreeze i start validated a := by
  cases change with
  | @openMint tlv base named target unpacked len valid thawable =>
    cases unthawable with
    | mint frozen absent =>
      obtain ⟨default, held, state⟩ := (Option.any_eq_true ..).mp frozen
      exact absurd absent (thawable default held (of_decide_eq_true state))
  | @openNativeMint tlv base named here bare =>
    cases unthawable with
    | mint frozen absent =>
      obtain ⟨default, held, -⟩ := (Option.any_eq_true ..).mp frozen
      have none : tlv.toBuffer.get .defaultAccountState = none := by
        rw [bare]
        rfl
      cases none.symm.trans held
  | mintBase initial change => exact change.unthawable initial unthawable
  | mintUpdate initial held update => exact .inl (update.unthawable unthawable)
  | addMetadata authority pointer written | updateMetadata held authority written =>
    exact .inl (unthawable.of_writesOnly (by decide)
      (StateWithExtensions.allocAndSerializeVariableLenExtension_writesOnly written))
  | addGroup authority pointer empty written | addMember authority pointer written =>
    exact .inl (unthawable.of_writesOnly (by decide)
      (StateWithExtensions.allocAndSerialize_writesOnly written).2)
  | _ => cases unthawable

/-! ### Steps and runs -/

/-- A mint of the program at the address that no one can thaw. -/
def Ledger.UnthawableAt (L : Ledger) (m : Address) : Prop :=
  (L m).owner = programId ∧ Unthawable (L m).data

/-- **One step** makes a mint so only as its authority gives itself up. -/
theorem Step.unthawable {e : Event} (step : Step L e L') (thawable : ¬ L.UnthawableAt m)
    (unthawable : L'.UnthawableAt m) :
    ∃ i outcome, e = .invoke i ∧ i.run L = .ok outcome ∧ L' = outcome.ledger ∧
      GivesUpFreeze i L outcome.validated m := by
  cases step with
  | external ext =>
    by_cases before : (L m).owner = programId
    · obtain ⟨-, data, -⟩ := ext.kept m before
      exact absurd ⟨before, data ▸ unthawable.2⟩ thawable
    · obtain ⟨len, data⟩ := ext.handed m before unthawable.1
      have zeroed := unthawable.2
      rw [data] at zeroed
      cases zeroed
  | @invoke i outcome ok =>
    have all := (run_writes ok).data_invariant
      (P := fun a data => Unthawable data → L.UnthawableAt a ∨ GivesUpFreeze i L outcome.validated a)
      (fun a len zeroed => by cases zeroed)
      (fun a old new holds change made => (change.unthawable made).elim holds .inr)
      (fun a owned so => .inl ⟨owned, so⟩)
    have givesUp := (all m unthawable.1 unthawable.2).resolve_left thawable
    exact ⟨i, outcome, rfl, ok, rfl, givesUp⟩

/-- **A mint whose new accounts start frozen can thaw them**, unless its freeze authority gave itself
up: in every run from a state without accounts of the program, an initialized mint whose new accounts
start frozen has a freeze authority, or one of the steps of the run was the invocation with which that
authority, while they did, removed itself. -/
theorem frozen_default_thawable {G L : Ledger} {events : List Event} {m : Address} {mint : MintState}
    (genesis : Genesis G) (run : Runs G events L) (held : L.mint? m = some mint)
    (frozen : mint.StartsFrozen) :
    mint.base.freezeAuthority ≠ none ∨
      ∃ before i after L₁ outcome, events = before ++ .invoke i :: after ∧ Runs G before L₁ ∧
        i.run L₁ = .ok outcome ∧ Runs outcome.ledger after L ∧
        GivesUpFreeze i L₁ outcome.validated m := by
  by_cases absent : mint.base.freezeAuthority = none
  · refine .inr ?_
    obtain ⟨owned, data⟩ := Ledger.mint?_eq_some_iff.mp held
    have now : L.UnthawableAt m := ⟨owned, data ▸ .mint frozen absent⟩
    obtain ⟨before, e, after, L₁, L₂, rfl, first, one, rest, thawable, unthawable⟩ :=
      run.cause (B := fun L => L.UnthawableAt m) (fun so => genesis.unowned m so.1) now
    obtain ⟨i, outcome, rfl, ok, rfl, givesUp⟩ := one.unthawable thawable unthawable
    exact ⟨before, i, after, L₁, outcome, rfl, first, ok, rest, givesUp⟩
  · exact .inl absent

namespace Basic

/-- A mint whose new accounts start frozen. -/
def frozenTurns : List Turn := [
  .allocate mint 171,
  .basic (.defaultAccountStateExtension (.initializeExtension .frozen)) [.plain mint],
  .basic (.initializeMint2 0 owner (some owner)) [.plain mint]]

/-- Its freeze authority gives itself up. -/
def giveUpFreeze : Turn :=
  .basic (.setAuthority .freezeAccount none) [.plain mint, .signer owner]

end Basic

/-- A mint whose authority has not given itself up has it still. -/
theorem frozen_default_thawable_example : ∃ L mint, runAll .fresh Basic.frozenTurns = .ok L ∧
    L.mint? Basic.mint = some mint ∧ mint.StartsFrozen ∧ mint.base.freezeAuthority ≠ none := by
  have leads : LeadsTo (runAll .fresh Basic.frozenTurns) fun L =>
      (L.mint? Basic.mint).any (fun mint => mint.StartsFrozen) = true := by
    decide +kernel
  obtain ⟨L, ran, held⟩ := leads.exists
  obtain ⟨mint, held, frozen⟩ := (Option.any_eq_true ..).mp held
  refine ⟨L, mint, ran, held, of_decide_eq_true frozen, ?_⟩
  refine (frozen_default_thawable .fresh (runs_of_runAll ran) held
    (of_decide_eq_true frozen)).resolve_right ?_
  rintro ⟨before, i, after, L₁, outcome, shape, -, -, -, ⟨named, -⟩⟩
  have member : Event.invoke i ∈ Basic.frozenTurns.map Turn.event :=
    shape ▸ List.mem_append_right before List.mem_cons_self
  simp only [Basic.frozenTurns, Turn.allocate, Turn.basic, List.map_cons, List.map_nil, Turn.event,
    List.mem_cons, List.not_mem_nil, or_false, reduceCtorEq, false_or, Event.invoke.injEq] at member
  rcases member with rfl | rfl
  all_goals cases named

/-- **A mint whose new accounts start frozen, without a freeze authority.** -/
theorem frozen_default_unthawable : ∃ L mint, Reachable L ∧ L.mint? Basic.mint = some mint ∧
    mint.StartsFrozen ∧ mint.base.freezeAuthority = none := by
  have leads : LeadsTo (runAll .fresh (Basic.frozenTurns ++ [Basic.giveUpFreeze])) fun L =>
      (L.mint? Basic.mint).any
        (fun mint => mint.StartsFrozen ∧ mint.base.freezeAuthority = none) = true := by
    decide +kernel
  obtain ⟨L, ran, held⟩ := leads.exists
  obtain ⟨mint, held, so⟩ := (Option.any_eq_true ..).mp held
  exact ⟨L, mint, .of_runAll .fresh ran, held, of_decide_eq_true so⟩

end Token2022
