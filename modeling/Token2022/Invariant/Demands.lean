/-
**The accounts of a mint answer its demands.**

A mint with transfer fees, a transfer hook or a pause wants a mark on each of its accounts, which an
account gets when it is initialized. An account can only lack one where the mint was initialized
again, after the account.

* `Holding.Answers` — the marks of a holding for the demands of a mint.
* `Book.Answered`, `Answering` — all accounts of a mint have them; an initialization leaves it so.
* **`Book.Answered.effect`** — every effect under this condition keeps it.
* `Book.Answered.not_running` — a paused mint of this kind does not run.
-/

import Token2022.Invariant.WellFormed

namespace Token2022

/-- **The marks that a mint demands of an account**, for the transfers that do not name the mint. -/
structure Holding.Answers (h : Holding) (iss : Issuance) : Prop where
  fees : iss.fees.isSome = true → h.withheld.isSome = true
  hook : iss.hook.isSome = true → h.hooked = true
  pausable : iss.pausable.isSome = true → h.pausable = true

/-- All accounts of the mint at `m` answer its demands. -/
def Book.Answered (m : Address) (B : Book) : Prop :=
  ∀ iss, B.slot m = .issue iss → ∀ a h, B.slot a = .holding h → h.base.mint = m → h.Answers iss

/-- **An initialization of a mint at `m` finds no account there that falls short of it.** -/
def Answering (m : Address) (i : Invocation) (B : Book) : Prop :=
  i.initializesMint m = true → ∀ b, B.slot m = .vacant b →
    ∀ a h, B.slot a = .holding h → h.base.mint = m → ∀ base, h.Answers (b.issuance base)

namespace Holding.Answers

/-- Marks and demands stay. -/
theorem step {h h' : Holding} {iss iss' : Issuance} (answers : h.Answers iss) (marks : SameMarks h h')
    (demands : SameDemands iss iss') : h'.Answers iss' where
  fees := by rw [demands.fees, marks.withheld]; exact answers.fees
  hook := by rw [demands.hook, marks.hooked]; exact answers.hook
  pausable := by rw [demands.pausable, marks.pausable]; exact answers.pausable

/-- **A new account gets its marks.** -/
theorem of_open (b : Buffer) (iss : Issuance) (base : PodAccount) :
    (b.openHolding iss base).Answers iss where
  fees demanded := by simp [Buffer.openHolding, demanded]
  hook demanded := by simp [Buffer.openHolding, demanded]
  pausable demanded := by simp [Buffer.openHolding, demanded]

/-- A mint without extensions demands nothing. -/
theorem of_allocated {h : Holding} (len : ℕ) (base : PodMint) :
    h.Answers ((⟨[], len⟩ : Buffer).issuance base) where
  fees demanded := absurd demanded Bool.false_ne_true
  hook demanded := absurd demanded Bool.false_ne_true
  pausable demanded := absurd demanded Bool.false_ne_true

/-- The native mint demands nothing. -/
theorem of_native {h : Holding} {iss : Issuance} (terms : NativeTerms iss) : h.Answers iss where
  fees demanded := by simp [terms.fees] at demanded
  hook demanded := by simp [terms.hook] at demanded
  pausable demanded := by simp [terms.pausable] at demanded

end Holding.Answers

namespace Book.Answered

variable {m : Address} {B B' : Book}

theorem of_blank (blank : B.Blank) : B.Answered m := fun iss issued => by
  simp [blank.slot] at issued

theorem external (answered : B.Answered m) (ext : Book.External B B') : B'.Answered m :=
  fun iss issued a h held => answered iss (ext.issue_back issued) a h (ext.holding_back held)

/-- **Every effect keeps the accounts of a mint answering**, where an initialization does. -/
theorem effect {i : Invocation} {v : List Address} {arm : Option DebitArm}
    (answering : Answering m i B) (answered : B.Answered m) (effect : Effect i v arm B B') :
    B'.Answered m := by
  intro iss' issued' a h' held' mint'
  have atMint := issued' ▸ effect.slotStep m
  have atAccount := held' ▸ effect.slotStep a
  rcases atMint.issue_origin with ⟨iss, issued⟩ | ⟨named, opened⟩
  · have demands := (issued ▸ atMint).demands
    rcases atAccount.holding_origin with ⟨h, held⟩ | ⟨m', b, iss₀, base, vacant, issued₀, opens, rfl, -⟩
    · have marks := (held ▸ atAccount).marks
      exact (answered iss issued a h held (marks.mint.symm.trans mint')).step marks demands
    · obtain rfl : m' = m := opens.mint.symm.trans mint'
      obtain rfl := Slot.issue.inj (issued.symm.trans issued₀)
      exact (Holding.Answers.of_open b iss base).step (.refl _) demands
  · rcases atAccount.holding_origin with ⟨h, held⟩ | ⟨m', b, iss₀, base, vacant, issued₀, opens, rfl, -⟩
    · have marks := (held ▸ atAccount).marks
      have mint := marks.mint.symm.trans mint'
      rcases opened with ⟨b, base, vacant, -, -, rfl⟩ | ⟨-, -, rfl⟩
      · exact (answering named b vacant a h held mint base).step marks (.refl _)
      · exact .of_native .of_nativeIssuance
    · -- An account is not initialized along with its mint.
      obtain rfl : m' = m := opens.mint.symm.trans mint'
      rcases opened with ⟨b, base, vacant, -⟩ | ⟨foreign, -⟩
      · simp [vacant] at issued₀
      · simp [foreign] at issued₀

/-- **A paused mint does not run**, where its accounts answer. -/
theorem not_running (answered : B.Answered m) {iss : Issuance} (issued : B.slot m = .issue iss)
    (paused : iss.paused = true) : ¬ B.Running m := by
  intro running
  obtain ⟨b, h, held, mint, unmarked⟩ := running iss issued paused
  have pausable : iss.pausable.isSome = true := by
    unfold Issuance.paused at paused
    cases config : iss.pausable with
    | none => simp [config] at paused
    | some c => rfl
  simp [(answered iss issued b h held mint).pausable pausable] at unmarked

end Book.Answered

/-- What the rest of the world hands over demands nothing. -/
theorem Answering.external {m : Address} {i : Invocation} {B B' : Book}
    (answering : Answering m i B) (ext : Book.External B B') : Answering m i B' := by
  intro named b vacant a h held mint base
  by_cases foreign : B.slot m = .foreign
  · rcases ext.handed m foreign with same | ⟨len, same⟩
    · simp [same] at vacant
    · obtain rfl := Slot.vacant.inj (same.symm.trans vacant)
      exact .of_allocated len base
  · exact answering named b ((ext.kept m foreign).1 ▸ vacant) a h (ext.holding_back held) mint base

/-- **The accounts of a mint answer along every run** that initializes it over answering accounts. -/
theorem Book.Answered.kept (m : Address) : Kept (Answering m) (Book.Answered m) where
  external := Book.Answered.external
  guard := Answering.external
  effect := Book.Answered.effect

end Token2022
