/-
**An m-of-n threshold, counted with a bitmap.**

A list of keys has a mark at each position. Items are shown one after the other; an item marks every
position of its key that is not marked yet, and must be signed if there is one.

* `visitPosition`, `visit` — the two loops.
* `named` — how many positions a list of keys names.
* `covered` — the count and the marks when the keys of a list have been shown.
* **`foldlM_visit`** — where equal keys are equally signed, the loop fails iff an item with a key of
  the list is not signed, and otherwise it has counted the positions that are named.
* **`foldlM_visit_le`** — whatever the items are, it has counted no more positions than those of
  signed items.
-/

import Mathlib.Data.Finset.Card
import Mathlib.Data.Finset.Range
import Token2022.Lib.Fallible

namespace Threshold

open Fallible

variable {κ α ε : Type} [DecidableEq κ]

/-! ### The loops -/

/-- One position: it is marked and counted once, by a signed item. -/
def visitPosition (error : ε) (key : κ) (signed : Bool) (matched : ℕ × (ℕ → Bool))
    (entry : κ × ℕ) : Except ε (ℕ × (ℕ → Bool)) :=
  if entry.1 = key ∧ matched.2 entry.2 = false then do
    require signed error
    .ok (matched.1 + 1, Function.update matched.2 entry.2 true)
  else .ok matched

/-- One item: every position, in order. -/
def visit (error : ε) (keys : List κ) (key : κ) (signed : Bool) (matched : ℕ × (ℕ → Bool)) :
    Except ε (ℕ × (ℕ → Bool)) :=
  keys.zipIdx.foldlM (visitPosition error key signed) matched

/-- How many positions of `keys` the listed keys name. -/
def named (keys listed : List κ) : ℕ := keys.countP (· ∈ listed)

theorem named_le (keys listed : List κ) : named keys listed ≤ keys.length :=
  List.countP_le_length

theorem named_self (keys : List κ) : named keys keys = keys.length :=
  List.countP_eq_length.mpr fun _ member => decide_eq_true member

theorem named_congr {keys listed listed' : List κ}
    (same : ∀ key ∈ keys, key ∈ listed ↔ key ∈ listed') : named keys listed = named keys listed' :=
  List.countP_congr fun key member => by simpa using same key member

/-! ### One item -/

/-- The positions of a key, marked and counted. -/
def mark (entries : List (κ × ℕ)) (key : κ) (matched : ℕ × (ℕ → Bool)) : ℕ × (ℕ → Bool) :=
  (matched.1 + entries.countP (fun e => e.1 = key ∧ matched.2 e.2 = false),
    fun i => matched.2 i || decide ((key, i) ∈ entries))

/-- An entry of another key, or one that is marked, changes nothing. -/
theorem mark_cons_of_not {entries : List (κ × ℕ)} {entry : κ × ℕ} {key : κ}
    {matched : ℕ × (ℕ → Bool)} (miss : ¬ (entry.1 = key ∧ matched.2 entry.2 = false)) :
    mark (entry :: entries) key matched = mark entries key matched := by
  unfold mark
  refine Prod.ext ?_ (funext fun i => ?_)
  · simp [miss]
  · by_cases here : (key, i) = entry
    · subst here
      have seen : matched.2 i = true := by simpa using miss
      simp [seen]
    · simp [here]

/-- An entry of the key that is not marked is counted once. -/
theorem mark_cons_of_hit {entries : List (κ × ℕ)} {key : κ} {position count : ℕ}
    {seen : ℕ → Bool} (unseen : seen position = false)
    (fresh : position ∉ entries.map Prod.snd) :
    mark ((key, position) :: entries) key (count, seen) =
      mark entries key (count + 1, Function.update seen position true) := by
  have others : ∀ e ∈ entries, Function.update seen position true e.2 = seen e.2 :=
    fun e member => Function.update_of_ne
      (fun same : e.2 = position => fresh (same ▸ List.mem_map_of_mem member)) true seen
  unfold mark
  refine Prod.ext ?_ (funext fun i => ?_)
  · have rest : entries.countP (fun e => e.1 = key ∧ seen e.2 = false) =
        entries.countP (fun e => e.1 = key ∧ Function.update seen position true e.2 = false) :=
      List.countP_congr fun e member => by simp [others e member]
    simp only [List.countP_cons, unseen, rest]
    simp [Nat.add_assoc, Nat.add_comm 1]
  · by_cases here : i = position
    · subst here
      simp
    · simp [here]

/-- **The inner loop.** No position stands for two entries, so that a mark set on the way is not met
again. -/
theorem foldlM_visitPosition (error : ε) (key : κ) (signed : Bool) (entries : List (κ × ℕ))
    (distinct : (entries.map Prod.snd).Nodup) (matched : ℕ × (ℕ → Bool)) :
    entries.foldlM (visitPosition error key signed) matched =
      if signed = true ∨ ∀ e ∈ entries, e.1 = key → matched.2 e.2 = true then
        .ok (mark entries key matched)
      else .error error := by
  induction entries generalizing matched with
  | nil => simp [mark, pure, Except.pure]
  | cons entry entries ih =>
    rw [List.map_cons, List.nodup_cons] at distinct
    obtain ⟨fresh, distinct⟩ := distinct
    rw [List.foldlM_cons, visitPosition]
    by_cases hit : entry.1 = key ∧ matched.2 entry.2 = false
    · rw [if_pos hit]
      obtain ⟨key', position⟩ := entry
      obtain ⟨rfl, unseen⟩ := hit
      cases signed with
      | false =>
        have unsigned : ¬ (false = true ∨ ∀ e ∈ (key', position) :: entries,
            e.1 = key' → matched.2 e.2 = true) := by
          simp [unseen]
        rw [if_neg unsigned]
        rfl
      | true =>
        rw [if_pos (.inl rfl), mark_cons_of_hit unseen fresh]
        exact (ih distinct _).trans (if_pos (.inl rfl))
    · rw [if_neg hit, mark_cons_of_not hit]
      refine (ih distinct matched).trans ?_
      have here : entry.1 = key → matched.2 entry.2 = true := by simpa using hit
      simp only [List.forall_mem_cons, eq_true here, true_and]

/-! ### All items -/

/-- The positions that the listed keys name, marked and counted. -/
def covered (keys listed : List κ) : ℕ × (ℕ → Bool) :=
  (named keys listed, fun i => decide (∃ key ∈ listed, (key, i) ∈ keys.zipIdx))

/-- A key that is listed adds the positions of its own. -/
theorem named_cons (keys listed : List κ) (key : κ) :
    named keys (key :: listed) =
      named keys listed + keys.countP (fun k => k = key ∧ k ∉ listed) := by
  simp only [named, List.mem_cons]
  induction keys with
  | nil => rfl
  | cons k keys ih =>
    simp only [List.countP_cons, ih]
    by_cases member : k ∈ listed
    · simp only [member, or_true, not_true, and_false, decide_true, decide_false]
      simp only [if_true, Bool.false_eq_true, if_false]
      omega
    · simp only [member, or_false, not_false_eq_true, and_true, decide_false]
      simp only [Bool.false_eq_true, if_false]
      omega

omit [DecidableEq κ] in
/-- What is asked of the entries of a list is asked of its keys. -/
theorem countP_zipIdx (keys : List κ) (p : κ → Bool) :
    keys.zipIdx.countP (fun e => p e.1) = keys.countP p := by
  conv_rhs => rw [← List.zipIdx_map_fst 0 keys, List.countP_map]
  rfl

/-- The count of the positions that are named. -/
theorem named_eq_positions (keys listed : List κ) :
    named keys listed =
      (List.range keys.length).countP fun i => ∃ key ∈ listed, keys[i]? = some key := by
  have positions : List.range keys.length = keys.zipIdx.map Prod.snd := by
    rw [List.zipIdx_map_snd, List.range_eq_range']
  rw [positions, List.countP_map, named, ← countP_zipIdx]
  refine List.countP_congr fun e member => ?_
  have here : keys[e.2]? = some e.1 := List.mem_zipIdx_iff_getElem?.mp member
  simp [here]

/-- A position is marked iff its key is listed. -/
theorem covered_iff {keys listed : List κ} {e : κ × ℕ} (member : e ∈ keys.zipIdx) :
    (covered keys listed).2 e.2 = true ↔ e.1 ∈ listed := by
  have here : keys[e.2]? = some e.1 := List.mem_zipIdx_iff_getElem?.mp member
  simp only [covered, decide_eq_true_eq]
  constructor
  · rintro ⟨key, listed, member'⟩
    rw [List.mem_zipIdx_iff_getElem?.mp member', Option.some_inj] at here
    exact here ▸ listed
  · intro listed
    exact ⟨e.1, listed, member⟩

/-- The marks and the count go on from one item to the next. -/
theorem mark_covered (keys listed : List κ) (key : κ) :
    mark keys.zipIdx key (covered keys listed) = covered keys (key :: listed) := by
  refine Prod.ext ?_ (funext fun i => ?_)
  · have unmarked : keys.zipIdx.countP (fun e => e.1 = key ∧ (covered keys listed).2 e.2 = false) =
        keys.zipIdx.countP (fun e => e.1 = key ∧ e.1 ∉ listed) :=
      List.countP_congr fun e member => by
        have marked : (covered keys listed).2 e.2 = true ↔ e.1 ∈ listed := covered_iff member
        simp [← marked]
    show named keys listed + keys.zipIdx.countP _ = named keys (key :: listed)
    rw [unmarked, named_cons]
    exact congrArg _ (countP_zipIdx keys fun k => k = key ∧ k ∉ listed)
  · simp [mark, covered, Bool.or_comm]

/-- **One item.** It fails iff it is not signed and names a position that is not marked. -/
theorem visit_covered (error : ε) (keys listed : List κ) (key : κ) (signed : Bool) :
    visit error keys key signed (covered keys listed) =
      if signed = true ∨ (key ∈ keys → key ∈ listed) then .ok (covered keys (key :: listed))
      else .error error := by
  have distinct : (keys.zipIdx.map Prod.snd).Nodup := by
    rw [List.zipIdx_map_snd]
    exact List.nodup_range'
  have marked : (∀ e ∈ keys.zipIdx, e.1 = key → (covered keys listed).2 e.2 = true) ↔
      (key ∈ keys → key ∈ listed) := by
    constructor
    · intro all member
      obtain ⟨i, here⟩ := List.mem_iff_getElem?.mp member
      have entry : (key, i) ∈ keys.zipIdx := List.mem_zipIdx_iff_getElem?.mpr here
      exact (covered_iff entry).mp (all _ entry rfl)
    · rintro all e entry rfl
      exact (covered_iff entry).mpr
        (all (List.mem_of_getElem? (List.mem_zipIdx_iff_getElem?.mp entry)))
  rw [visit, foldlM_visitPosition error key signed _ distinct, mark_covered]
  simp only [marked]

/-- **The loops.** The induction is on the items that are left; those whose key was listed before are
signed, since no item has failed so far. -/
theorem foldlM_visit_covered (error : ε) (keys : List κ) (key : α → κ) (signed : α → Bool)
    (items : List α) (listed : List κ)
    (agree : ∀ a ∈ items, ∀ b ∈ items, key a ∈ keys → key a = key b → signed a = signed b)
    (before : ∀ a ∈ items, key a ∈ keys → key a ∈ listed → signed a = true) :
    items.foldlM (fun matched a => visit error keys (key a) (signed a) matched)
        (covered keys listed) =
      if ∀ a ∈ items, key a ∈ keys → signed a = true then
        .ok (covered keys ((items.map key).reverse ++ listed))
      else .error error := by
  induction items generalizing listed with
  | nil => simp [pure, Except.pure]
  | cons a items ih =>
    rw [List.foldlM_cons, visit_covered]
    by_cases passes : signed a = true ∨ (key a ∈ keys → key a ∈ listed)
    · have here : key a ∈ keys → signed a = true := fun member =>
        passes.elim id fun seen => before a List.mem_cons_self member (seen member)
      have after : ∀ b ∈ items, key b ∈ keys → key b ∈ key a :: listed → signed b = true := by
        intro b member counts seen
        rcases List.mem_cons.mp seen with same | seen
        · have equal := agree b (.tail a member) a List.mem_cons_self counts same
          exact equal.trans (here (same ▸ counts))
        · exact before b (.tail a member) counts seen
      rw [if_pos passes]
      refine (ih (key a :: listed) (fun b mem c mem' => agree b (.tail a mem) c (.tail a mem'))
        after).trans ?_
      simp only [List.forall_mem_cons, eq_true here, true_and, List.map_cons, List.reverse_cons,
        List.append_assoc, List.singleton_append]
    · have unsigned : ¬ ∀ b ∈ a :: items, key b ∈ keys → signed b = true := fun all =>
        passes (by_cases (fun member => .inl (all a List.mem_cons_self member))
          fun foreign => .inr fun member => absurd member foreign)
      rw [if_neg passes, if_neg unsigned]
      rfl

/-- **What the loops count**: every item of a key of the list is signed, or they fail; and then the
count is that of the positions that are named. -/
theorem foldlM_visit (error : ε) (keys : List κ) (key : α → κ) (signed : α → Bool)
    (items : List α)
    (agree : ∀ a ∈ items, ∀ b ∈ items, key a ∈ keys → key a = key b → signed a = signed b) :
    (items.foldlM (fun matched a => visit error keys (key a) (signed a) matched)
        (0, fun _ => false)).map Prod.fst =
      if ∀ a ∈ items, key a ∈ keys → signed a = true then .ok (named keys (items.map key))
      else .error error := by
  have start : ((0, fun _ => false) : ℕ × (ℕ → Bool)) = covered keys [] := by
    simp [covered, named]
  have order : named keys ((items.map key).reverse ++ []) = named keys (items.map key) :=
    named_congr fun k _ => by simp
  rw [start, foldlM_visit_covered error keys key signed items [] agree (by simp)]
  split
  · exact congrArg Except.ok order
  · rfl

/-! ### Any items -/

/-- **What is counted is marked, and what is marked is signed.** -/
structure Justified (keys : List κ) (key : α → κ) (signed : α → Bool) (items : List α)
    (matched : ℕ × (ℕ → Bool)) : Prop where
  count : matched.1 = ((Finset.range keys.length).filter fun i => matched.2 i = true).card
  marked : ∀ i, matched.2 i = true → ∃ a ∈ items, keys[i]? = some (key a) ∧ signed a = true

omit [DecidableEq κ] in
/-- A new mark at the position of a signed item. -/
theorem Justified.update {keys : List κ} {key : α → κ} {signed : α → Bool} {items : List α}
    {count : ℕ} {seen : ℕ → Bool} (justified : Justified keys key signed items (count, seen)) {a : α}
    (member : a ∈ items) (signs : signed a = true) {i : ℕ} (here : keys[i]? = some (key a))
    (unseen : seen i = false) :
    Justified keys key signed items (count + 1, Function.update seen i true) where
  count := by
    have bounded : i < keys.length := (List.getElem?_eq_some_iff.mp here).1
    have fresh : i ∉ (Finset.range keys.length).filter fun j => seen j = true := by simp [unseen]
    have grown : ((Finset.range keys.length).filter fun j => Function.update seen i true j = true) =
        insert i ((Finset.range keys.length).filter fun j => seen j = true) := by
      ext j
      by_cases same : j = i
      · subst same
        simp [bounded]
      · simp [same]
    show count + 1 = _
    rw [grown, Finset.card_insert_of_notMem fresh]
    exact congrArg (· + 1) justified.count
  marked j marked := by
    by_cases same : j = i
    · subst same
      exact ⟨a, member, here, signs⟩
    · have before : Function.update seen i true j = true := marked
      rw [Function.update_of_ne same] at before
      exact justified.marked j before

/-- **One item.** -/
theorem Justified.visit {error : ε} {keys : List κ} {key : α → κ} {signed : α → Bool}
    {items : List α} {matched matched' : ℕ × (ℕ → Bool)}
    (justified : Justified keys key signed items matched) {a : α} (member : a ∈ items)
    (ran : visit error keys (key a) (signed a) matched = .ok matched') :
    Justified keys key signed items matched' := by
  refine foldlM_invariant (fun entry there t t' before one => ?_) justified ran
  unfold visitPosition at one
  split at one
  · rename_i hit
    obtain ⟨signs, same⟩ := require_bind_eq_ok_iff.mp one
    obtain rfl := Except.ok.inj same
    refine before.update member signs ?_ hit.2
    rw [← hit.1]
    exact List.mem_zipIdx_iff_getElem?.mp there
  · exact Except.ok.inj one ▸ before

/-- **No more is counted than is signed**, whatever the items are. -/
theorem foldlM_visit_le {error : ε} {keys : List κ} (key : α → κ) (signed : α → Bool)
    {items : List α} {count : ℕ} {seen : ℕ → Bool}
    (ran : items.foldlM (fun matched a => visit error keys (key a) (signed a) matched)
      (0, fun _ => false) = .ok (count, seen)) :
    count ≤ (List.range keys.length).countP fun i =>
      ∃ a ∈ items, keys[i]? = some (key a) ∧ signed a = true := by
  have start : Justified keys key signed items (0, fun _ => false) := ⟨by simp, by simp⟩
  have justified : Justified keys key signed items (count, seen) :=
    foldlM_invariant (fun a member t t' before one => before.visit member one) start ran
  calc count = ((List.range keys.length).filter fun i => seen i = true).length := justified.count
    _ = (List.range keys.length).countP fun i => seen i = true := List.countP_eq_length_filter.symm
    _ ≤ _ := List.countP_mono_left fun i _ marked =>
      decide_eq_true (justified.marked i (of_decide_eq_true marked))

end Threshold
