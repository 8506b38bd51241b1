/-
**Readers that accept exactly what a writer writes.**

A reader takes a value off the front of its input and leaves the rest. It is exact for a writer if it
succeeds with a value where the input starts with what the writer makes of it, and only there: then
what is written can be read, and what was read is written back byte for byte.

* `Exact`, **`Exact.read_write`** — the law, and the round trip.
* `readBytes`, `readByte`, `readFixed` — a fixed number of bytes, one byte, a value of fixed length.
* `readOption`, `writeOption` — a value behind a byte that says whether it is there.
* **`exact_fixed`**, **`exact_option`** — these are exact.
* `Fixed`, `Fixed.pair` — values that take a fixed number of bytes, with both of their laws.
-/

import Mathlib.Logic.Equiv.Defs
import Token2022.Lib.Fallible

namespace Codec

open Fallible

variable {ε α : Type}

/-- A reader. -/
abbrev Reader (ε α : Type) := List UInt8 → Except ε (α × List UInt8)

/-- **The reader accepts exactly what the writer writes**, whatever follows. -/
def Exact (write : α → List UInt8) (read : Reader ε α) : Prop :=
  ∀ bytes a rest, read bytes = .ok (a, rest) ↔ bytes = write a ++ rest

/-- What is written is read. -/
theorem Exact.read_write {write : α → List UInt8} {read : Reader ε α} (exact : Exact write read)
    (a : α) (rest : List UInt8) : read (write a ++ rest) = .ok (a, rest) :=
  (exact _ a rest).mpr rfl

/-- What is read was written. -/
theorem Exact.write_read {write : α → List UInt8} {read : Reader ε α} (exact : Exact write read)
    {bytes rest : List UInt8} {a : α} (ok : read bytes = .ok (a, rest)) : bytes = write a ++ rest :=
  (exact bytes a rest).mp ok

/-- What follows a reader gets the value that was written. -/
theorem Exact.bind_read_write {β : Type} {write : α → List UInt8} {read : Reader ε α}
    (exact : Exact write read) (a : α) (rest : List UInt8) (f : α × List UInt8 → Except ε β) :
    (read (write a ++ rest) >>= f) = f (a, rest) := by
  rw [exact.read_write]
  rfl

/-! ### Bytes -/

/-- Read `k` bytes. -/
def readBytes (k : ℕ) (error : ε) : Reader ε (List UInt8) := fun bytes => do
  require (k ≤ bytes.length) error
  .ok (bytes.take k, bytes.drop k)

theorem readBytes_eq_ok_iff {k : ℕ} {error : ε} {bytes taken rest : List UInt8} :
    readBytes k error bytes = .ok (taken, rest) ↔ taken.length = k ∧ bytes = taken ++ rest := by
  simp only [readBytes, require_bind_eq_ok_iff, Except.ok.injEq, Prod.mk.injEq]
  constructor
  · rintro ⟨enough, rfl, rfl⟩
    exact ⟨List.length_take_of_le enough, (List.take_append_drop k bytes).symm⟩
  · rintro ⟨rfl, rfl⟩
    exact ⟨by simp, List.take_left, List.drop_left⟩

/-- Read one byte. -/
def readByte (error : ε) : Reader ε UInt8
  | [] => .error error
  | byte :: rest => .ok (byte, rest)

/-- One byte is read exactly. -/
theorem exact_byte (error : ε) : Exact (fun byte => [byte]) (readByte error) := by
  intro bytes a rest
  cases bytes with
  | nil => simp [readByte]
  | cons byte bytes =>
    simp only [readByte, Except.ok.injEq, Prod.mk.injEq, List.singleton_append, List.cons.injEq]

/-! ### Values of a fixed length -/

/-- Read a value that takes `k` bytes. -/
def readFixed (k : ℕ) (ofBytes : List UInt8 → α) (error : ε) : Reader ε α := fun bytes => do
  let (taken, rest) ← readBytes k error bytes
  .ok (ofBytes taken, rest)

/-- **Values of a fixed length are read exactly**, where bytes and values correspond. -/
theorem exact_fixed {k : ℕ} {toBytes : α → List UInt8} {ofBytes : List UInt8 → α} (error : ε)
    (length : ∀ a, (toBytes a).length = k) (left : ∀ a, ofBytes (toBytes a) = a)
    (right : ∀ bytes, bytes.length = k → toBytes (ofBytes bytes) = bytes) :
    Exact toBytes (readFixed k ofBytes error) := by
  intro bytes a rest
  simp only [readFixed, bind_eq_ok_iff, Prod.exists, readBytes_eq_ok_iff, Except.ok.injEq,
    Prod.mk.injEq]
  constructor
  · rintro ⟨taken, _, ⟨fits, rfl⟩, rfl, rfl⟩
    rw [right taken fits]
  · rintro rfl
    exact ⟨toBytes a, rest, ⟨length a, rfl⟩, left a, rfl⟩

/-! ### Optional values -/

/-- Write an optional value behind a byte that says whether it is there. -/
def writeOption (write : α → List UInt8) : Option α → List UInt8
  | none => [0]
  | some a => 1 :: write a

/-- Read an optional value. -/
def readOption (read : Reader ε α) (error : ε) : Reader ε (Option α)
  | 0 :: rest => .ok (none, rest)
  | 1 :: rest => do
    let (a, rest) ← read rest
    .ok (some a, rest)
  | _ => .error error

/-- **Optional values are read exactly**, if the values are. -/
theorem exact_option {write : α → List UInt8} {read : Reader ε α} (exact : Exact write read)
    (error : ε) : Exact (writeOption write) (readOption read error) := by
  intro bytes value rest
  constructor
  · intro ok
    unfold readOption at ok
    split at ok
    · obtain ⟨rfl, rfl⟩ := Prod.mk.inj (Except.ok.inj ok)
      rfl
    · simp only [bind_eq_ok_iff, Prod.exists, Except.ok.injEq, Prod.mk.injEq] at ok
      obtain ⟨a, _, taken, rfl, rfl⟩ := ok
      rw [exact.write_read taken]
      rfl
    · cases ok
  · rintro rfl
    cases value with
    | none => rfl
    | some a =>
      show (do let (a, rest) ← read (write a ++ rest); .ok (some a, rest)) = _
      rw [exact.read_write]
      rfl

/-! ### Values that take a fixed number of bytes -/

/-- **Values that are as good as their bytes**: as many bytes for each, and each such string of
bytes stands for one. -/
structure Fixed (α : Type) where
  size : ℕ
  write : α → List UInt8
  read : List UInt8 → α
  length_write : ∀ a, (write a).length = size
  read_write : ∀ a, read (write a) = a
  write_read : ∀ bytes, bytes.length = size → write (read bytes) = bytes

namespace Fixed

variable {β : Type}

/-- The value that takes no bytes. -/
def unit : Fixed Unit where
  size := 0
  write _ := []
  read _ := ()
  length_write _ := rfl
  read_write _ := rfl
  write_read _ empty := (List.length_eq_zero_iff.mp empty).symm

/-- One byte. -/
def byte : Fixed UInt8 where
  size := 1
  write b := [b]
  read bytes := bytes.headD 0
  length_write _ := rfl
  read_write _ := rfl
  write_read bytes one := by
    obtain ⟨b, rfl⟩ := List.length_eq_one_iff.mp one
    rfl

/-- Two values, one after the other. -/
def pair (first : Fixed α) (second : Fixed β) : Fixed (α × β) where
  size := first.size + second.size
  write p := first.write p.1 ++ second.write p.2
  read bytes := (first.read (bytes.take first.size), second.read (bytes.drop first.size))
  length_write p := by rw [List.length_append, first.length_write, second.length_write]
  read_write p := by
    rw [List.take_left' (first.length_write p.1), List.drop_left' (first.length_write p.1),
      first.read_write, second.read_write]
  write_read bytes length := by
    have front : (bytes.take first.size).length = first.size :=
      List.length_take_of_le (by omega)
    have back : (bytes.drop first.size).length = second.size := by
      rw [List.length_drop]
      omega
    rw [first.write_read _ front, second.write_read _ back, List.take_append_drop]

/-- The same bytes, for values that correspond. -/
def map (fixed : Fixed α) (e : α ≃ β) : Fixed β where
  size := fixed.size
  write b := fixed.write (e.symm b)
  read bytes := e (fixed.read bytes)
  length_write b := fixed.length_write _
  read_write b := by rw [fixed.read_write, Equiv.apply_symm_apply]
  write_read bytes length := by rw [Equiv.symm_apply_apply, fixed.write_read _ length]

/-- **Bytes of the length are those of one value.** -/
theorem length_eq_and_read_eq_iff (fixed : Fixed α) {bytes : List UInt8} {a : α} :
    bytes.length = fixed.size ∧ fixed.read bytes = a ↔ bytes = fixed.write a := by
  constructor
  · rintro ⟨length, rfl⟩
    exact (fixed.write_read bytes length).symm
  · rintro rfl
    exact ⟨fixed.length_write a, fixed.read_write a⟩

end Fixed

end Codec
