/-!
# Byte strings

Payloads, log lines and keys are plain byte strings. This module fixes the type, the strings of
exactly `n` bytes that keys, signatures and tags are made of, and unsigned numerals with the least
significant byte first; signs and lengths of text belong to the modules above.
-/

namespace DexFeed

/-- A byte string of any length, which need not be text. -/
abbrev Bytes := List UInt8

/-- The bytes of an ASCII literal, one byte per character. -/
def ascii (text : String) : Bytes :=
  text.toList.map fun c => UInt8.ofNat c.toNat

/-- A byte string of exactly `n` bytes. -/
structure Fixed (n : Nat) where
  /-- The bytes themselves, first byte first. -/
  bytes : Bytes
  /-- There are exactly `n` of them. -/
  length_eq : bytes.length = n
deriving DecidableEq

namespace Fixed

/-- The string of `n` zero bytes, which stands for a value that was never filled in. -/
def zero (n : Nat) : Fixed n :=
  ⟨List.replicate n 0, List.length_replicate⟩

instance (n : Nat) : Inhabited (Fixed n) := ⟨zero n⟩

/-- The first `n` bytes and what follows them, if there are that many. -/
def take? (n : Nat) (bs : Bytes) : Option (Fixed n × Bytes) :=
  if h : n ≤ bs.length then
    some (⟨bs.take n, by simp [List.length_take, Nat.min_eq_left h]⟩, bs.drop n)
  else none

/-- Taking `n` bytes returns a string that was put in front of any others. -/
theorem take?_append {n : Nat} (x : Fixed n) (rest : Bytes) :
    take? n (x.bytes ++ rest) = some (x, rest) := by
  obtain ⟨bytes, rfl⟩ := x
  simp [take?]

/-- What was taken and what was left make up the input. -/
theorem eq_append_of_take? {n : Nat} {bs rest : Bytes} {x : Fixed n}
    (h : take? n bs = some (x, rest)) : bs = x.bytes ++ rest := by
  unfold take? at h
  split at h
  · simp only [Option.some.injEq, Prod.mk.injEq] at h
    rw [← h.1, ← h.2]
    exact (List.take_append_drop n bs).symm
  · cases h

end Fixed

/-! ## Numerals, least significant byte first -/

/-- The number that a byte string denotes with its least significant byte first. -/
def ofLittleEndian : Bytes → Nat
  | [] => 0
  | b :: rest => b.toNat + 256 * ofLittleEndian rest

/-- The lowest `n` bytes of a number, least significant first. -/
def littleEndian : (n : Nat) → Nat → Bytes
  | 0, _ => []
  | n + 1, v => UInt8.ofNat (v % 256) :: littleEndian n (v / 256)

/-- Exactly as many bytes are written as asked for, whatever the number. -/
@[simp] theorem length_littleEndian (n v : Nat) : (littleEndian n v).length = n := by
  induction n generalizing v with
  | zero => rfl
  | succ n ih => simp [littleEndian, ih]

end DexFeed
