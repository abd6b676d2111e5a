import DexFeed.Memory
import DexFeed.Text.Utf8

/-!
# Checking UTF-8 in memory

Whether a stretch of memory is well formed is found out by walking over it once, from character to
character. The first byte of a character fixes how many continuation bytes follow, and the walk ends
before it looks at them if the stretch is too short to hold them all.
-/

namespace DexFeed.Utf8

/-- What the first byte of a longer form tells: how many continuation bytes follow, the bits that it
holds itself, and the least value for which the form is the shortest. -/
def lead (a : UInt8) : Option (Nat × Nat × Nat) :=
  if a &&& 0xE0 = 0xC0 then some (1, (a &&& 0x1F).toNat, 0x80)
  else if a &&& 0xF0 = 0xE0 then some (2, (a &&& 0x0F).toNat, 0x800)
  else if a &&& 0xF8 = 0xF0 then some (3, (a &&& 0x07).toNat, 0x10000)
  else none

/-- Adds the bits of `n` continuation bytes to a value, if all of them are such. -/
def walkTail (position : Nat) : (n : Nat) → (value : Nat) → Probe (Option Nat)
  | 0, value => pure (some value)
  | n + 1, value => .look position fun b =>
    match continuation b with
    | some x => walkTail (position + 1) n (value * 64 + x)
    | none => pure none

/-- Whether `n` bytes from a position on are well formed. -/
def walk (position n : Nat) : Probe Bool :=
  match n with
  | 0 => pure true
  | n + 1 => .look position fun a =>
    if a < 0x80 then walk (position + 1) n
    else
      match lead a with
      | none => pure false
      | some (k, bits, least) =>
        if n < k then pure false
        else do
          match ← walkTail (position + 1) k bits with
          | none => pure false
          | some value =>
            if (scalar least value).isSome then walk (position + 1 + k) (n - k) else pure false
termination_by n
decreasing_by
  · exact Nat.lt_succ_self n
  · exact Nat.lt_succ_of_le (Nat.sub_le n k)

end DexFeed.Utf8
