/-
**First-match keyed lists.**

A list of key/value pairs, the value's type given by the key, read by the first pair of a key and
written in place: the shape of a type-length-value buffer once its framing is gone.

* `find` — the first value of a key; `put` — overwrite it in place, or append.
* **`find_put_self`, `find_put_of_ne`** — what is read after a write, at the key and elsewhere.
* `keys_put_of_mem`, `keys_put_of_not_mem` — the order of the keys: a write to a present key keeps
  it, a write to an absent one appends.
* **`find_split`**, **`put_split`**, **`put_of_not_mem`** — reading and writing at the place of a key.
* `SameExcept` — two lists agree, place by place, but for the values of some keys.
-/

import Mathlib.Data.List.Sigma

namespace KeyedList

variable {K : Type*} {V : K → Type*} [DecidableEq K]

/-- The first value stored under `k`. -/
def find (k : K) (l : List (Sigma V)) : Option (V k) := l.dlookup k

/-- Overwrite the first value stored under `k`, or append the pair where there is none. -/
def put (k : K) (v : V k) : List (Sigma V) → List (Sigma V)
  | [] => [⟨k, v⟩]
  | ⟨k', v'⟩ :: l => if k' = k then ⟨k, v⟩ :: l else ⟨k', v'⟩ :: put k v l

@[simp] theorem find_nil (k : K) : find k ([] : List (Sigma V)) = none := rfl

theorem find_cons_self (k : K) (v : V k) (l : List (Sigma V)) :
    find k (⟨k, v⟩ :: l) = some v := List.dlookup_cons_eq l k v

theorem find_cons_of_ne {k k' : K} (ne : k' ≠ k) (v : V k') (l : List (Sigma V)) :
    find k (⟨k', v⟩ :: l) = find k l := List.dlookup_cons_ne l ⟨k', v⟩ ne.symm

/-- **A written key reads back.** -/
@[simp] theorem find_put_self (k : K) (v : V k) (l : List (Sigma V)) :
    find k (put k v l) = some v := by
  induction l with
  | nil => exact find_cons_self k v []
  | cons entry l ih =>
    obtain ⟨k', v'⟩ := entry
    by_cases same : k' = k
    · simp only [put, if_pos same, find_cons_self]
    · simp only [put, if_neg same, find_cons_of_ne same, ih]

/-- **A write leaves every other key alone.** -/
@[simp] theorem find_put_of_ne {k k' : K} (ne : k' ≠ k) (v : V k) (l : List (Sigma V)) :
    find k' (put k v l) = find k' l := by
  induction l with
  | nil => exact find_cons_of_ne ne.symm v []
  | cons entry l ih =>
    obtain ⟨j, w⟩ := entry
    by_cases same : j = k
    · subst same
      simp only [put, if_pos, find_cons_of_ne ne.symm]
    · simp only [put, if_neg same]
      by_cases here : j = k'
      · subst here
        simp only [find_cons_self]
      · simp only [find_cons_of_ne here, ih]

/-- **A second write to a key replaces the first.** -/
@[simp] theorem put_put (k : K) (v w : V k) (l : List (Sigma V)) :
    put k w (put k v l) = put k w l := by
  induction l with
  | nil => simp only [put, if_pos]
  | cons entry l ih =>
    obtain ⟨k', v'⟩ := entry
    by_cases same : k' = k
    · simp only [put, if_pos same, if_pos]
    · simp only [put, if_neg same, ih]

/-! ### Keys -/

theorem find_isSome_iff {k : K} {l : List (Sigma V)} : (find k l).isSome ↔ k ∈ l.keys :=
  List.dlookup_isSome

theorem keys_put_of_mem {k : K} (v : V k) {l : List (Sigma V)} (member : k ∈ l.keys) :
    (put k v l).keys = l.keys := by
  induction l with
  | nil => simp at member
  | cons entry l ih =>
    obtain ⟨k', v'⟩ := entry
    by_cases same : k' = k
    · subst same
      simp only [put, if_pos, List.keys_cons]
    · have tail : k ∈ l.keys := by
        simpa [List.keys_cons, Ne.symm same] using member
      simp only [put, if_neg same, List.keys_cons, ih tail]

theorem keys_put_of_not_mem {k : K} (v : V k) {l : List (Sigma V)} (absent : k ∉ l.keys) :
    (put k v l).keys = l.keys ++ [k] := by
  induction l with
  | nil => rfl
  | cons entry l ih =>
    obtain ⟨k', v'⟩ := entry
    simp only [List.keys_cons, List.mem_cons, not_or] at absent
    simp only [put, if_neg (Ne.symm absent.1), List.keys_cons, ih absent.2, List.cons_append]

theorem mem_keys_put {k j : K} (v : V k) {l : List (Sigma V)} :
    j ∈ (put k v l).keys ↔ j = k ∨ j ∈ l.keys := by
  by_cases member : k ∈ l.keys
  · rw [keys_put_of_mem v member]
    exact ⟨Or.inr, fun either => either.elim (fun same => same ▸ member) id⟩
  · rw [keys_put_of_not_mem v member, List.mem_append, List.mem_singleton, or_comm]

/-- A write moves no key. -/
theorem keys_prefix_keys_put (k : K) (v : V k) (l : List (Sigma V)) :
    l.keys <+: (put k v l).keys := by
  by_cases member : k ∈ l.keys
  · exact ⟨[], (List.append_nil _).trans (keys_put_of_mem v member).symm⟩
  · rw [keys_put_of_not_mem v member]
    exact List.prefix_append _ _

/-- Distinct keys stay so. -/
theorem nodup_keys_put {k : K} {v : V k} {l : List (Sigma V)} (distinct : l.keys.Nodup) :
    (put k v l).keys.Nodup := by
  by_cases member : k ∈ l.keys
  · rwa [keys_put_of_mem v member]
  · rw [keys_put_of_not_mem v member, List.nodup_append]
    exact ⟨distinct, List.nodup_singleton k, fun a there b last same =>
      member (List.mem_singleton.mp last ▸ same ▸ there)⟩

/-! ### The place of a key -/

omit [DecidableEq K] in
theorem keys_append (l l' : List (Sigma V)) : (l ++ l').keys = l.keys ++ l'.keys := List.map_append

/-- A key that is there has a first pair. -/
theorem exists_split {k : K} {l : List (Sigma V)} (member : k ∈ l.keys) :
    ∃ front v back, l = front ++ ⟨k, v⟩ :: back ∧ k ∉ front.keys := by
  induction l with
  | nil => cases member
  | cons entry l ih =>
    obtain ⟨k', v'⟩ := entry
    by_cases same : k' = k
    · subst same
      exact ⟨[], v', l, rfl, List.not_mem_nil⟩
    · obtain ⟨front, v, back, rfl, absent⟩ := ih (by simpa [List.keys_cons, Ne.symm same] using member)
      refine ⟨⟨k', v'⟩ :: front, v, back, rfl, ?_⟩
      simp only [List.keys_cons, List.mem_cons, not_or]
      exact ⟨Ne.symm same, absent⟩

section Split

variable {k : K} {front : List (Sigma V)} (absent : k ∉ front.keys) (v w : V k)
  (back : List (Sigma V))

include absent

/-- The pairs of other keys are passed. -/
theorem find_append : find k (front ++ back) = find k back := by
  induction front with
  | nil => rfl
  | cons entry front ih =>
    obtain ⟨k', v'⟩ := entry
    simp only [List.keys_cons, List.mem_cons, not_or] at absent
    rw [List.cons_append, find_cons_of_ne (Ne.symm absent.1), ih absent.2]

/-- **The first pair of a key is found.** -/
theorem find_split : find k (front ++ ⟨k, v⟩ :: back) = some v := by
  rw [find_append absent, find_cons_self]

/-- **The first pair of a key is overwritten in place.** -/
theorem put_split : put k v (front ++ ⟨k, w⟩ :: back) = front ++ ⟨k, v⟩ :: back := by
  induction front with
  | nil => exact if_pos rfl
  | cons entry front ih =>
    obtain ⟨k', v'⟩ := entry
    simp only [List.keys_cons, List.mem_cons, not_or] at absent
    rw [List.cons_append, put, if_neg (Ne.symm absent.1), ih absent.2, List.cons_append]

/-- **The pair of a key that is not there is appended.** -/
theorem put_of_not_mem : put k v front = front ++ [⟨k, v⟩] := by
  induction front with
  | nil => rfl
  | cons entry front ih =>
    obtain ⟨k', v'⟩ := entry
    simp only [List.keys_cons, List.mem_cons, not_or] at absent
    rw [put, if_neg (Ne.symm absent.1), ih absent.2, List.cons_append]

end Split

theorem find_eq_none_iff {k : K} {l : List (Sigma V)} : find k l = none ↔ k ∉ l.keys := by
  rw [← find_isSome_iff, Bool.not_eq_true, Option.isSome_eq_false_iff, Option.isNone_iff_eq_none]

/-! ### The frame of a write -/

/-- **The lists agree place by place**: in their keys, and in the values of all keys but `ks`. -/
def SameExcept (ks : List K) (l l' : List (Sigma V)) : Prop :=
  List.Forall₂ (fun e e' => e'.1 = e.1 ∧ (e.1 ∉ ks → e' = e)) l l'

namespace SameExcept

variable {ks : List K} {l l' l'' : List (Sigma V)}

omit [DecidableEq K] in
theorem refl (ks : List K) (l : List (Sigma V)) : SameExcept ks l l :=
  List.forall₂_same.mpr fun _ _ => ⟨rfl, fun _ => rfl⟩

omit [DecidableEq K] in
theorem trans (first : SameExcept ks l l') (second : SameExcept ks l' l'') :
    SameExcept ks l l'' := by
  unfold SameExcept at *
  induction first generalizing l'' with
  | nil => exact second
  | cons head _ ih =>
    cases second with
    | cons head' rest' =>
      refine .cons ⟨head'.1.trans head.1, fun other => ?_⟩ (ih rest')
      rw [head'.2 (head.1 ▸ other), head.2 other]

/-- A write to a key that is there changes the value of no other key. -/
theorem put {k : K} (v : V k) (there : k ∈ l.keys) (listed : k ∈ ks) :
    SameExcept ks l (put k v l) := by
  induction l with
  | nil => cases there
  | cons entry l ih =>
    obtain ⟨k', v'⟩ := entry
    by_cases same : k' = k
    · subst same
      rw [KeyedList.put, if_pos rfl]
      exact .cons ⟨rfl, fun other => absurd listed other⟩ (refl ks l)
    · have tail : k ∈ l.keys := by
        simpa [List.keys_cons, Ne.symm same] using there
      rw [KeyedList.put, if_neg same]
      exact .cons ⟨rfl, fun _ => rfl⟩ (ih tail)

omit [DecidableEq K] in
theorem mono {ks' : List K} (same : SameExcept ks l l') (more : ∀ k ∈ ks, k ∈ ks') :
    SameExcept ks' l l' :=
  List.Forall₂.imp (fun _ _ pair => ⟨pair.1, fun other => pair.2 fun there => other (more _ there)⟩)
    same

end SameExcept

end KeyedList
