import DexFeed.Text.Utf8
import DexFeed.Wire.Type

/-!
# Spelling of values in bytes

`WireType.parse` takes one value off the front of a byte string and returns what is left, or
nothing when the bytes do not hold such a value; `WireType.spell` writes the bytes of a value.
Parsing looks only at the bytes it consumes. Two spellings of one value exist only for truth
values, of which `spell` writes 0 and 1, and `spell` is exact only for texts and lists whose count
fits 32 bits.
-/

namespace DexFeed

/-- An unsigned number of `n` bytes at the front of a byte string. -/
def parseNat (n : Nat) (bs : Bytes) : Option (Nat × Bytes) :=
  (Fixed.take? n bs).map fun (x, rest) => (ofLittleEndian x.bytes, rest)

/-- A key at the front of a byte string. -/
def parseKey (bs : Bytes) : Option (Key × Bytes) :=
  Fixed.take? 32 bs

/-- A number of keys, one after the other. -/
def parseKeys : Nat → Bytes → Option (List Key × Bytes)
  | 0, bs => some ([], bs)
  | n + 1, bs => do
    let (k, bs) ← parseKey bs
    let (ks, bs) ← parseKeys n bs
    return (k :: ks, bs)

/-- Well formed text behind its length in bytes. -/
def parseText (bs : Bytes) : Option (String × Bytes) := do
  let (n, bs) ← parseNat 4 bs
  if n ≤ bs.length then
    let text ← Utf8.text? (bs.take n)
    return (text, bs.drop n)
  else none

namespace WireType

/-- A value at the front of a byte string and the bytes behind it. -/
def parse : (t : WireType) → Bytes → Option (t.Value × Bytes)
  | u8, bs => (parseNat 1 bs).map fun (v, rest) => (UInt8.ofNat v, rest)
  | u16, bs => (parseNat 2 bs).map fun (v, rest) => (UInt16.ofNat v, rest)
  | u32, bs => (parseNat 4 bs).map fun (v, rest) => (UInt32.ofNat v, rest)
  | u64, bs => (parseNat 8 bs).map fun (v, rest) => (UInt64.ofNat v, rest)
  | u128, bs => (parseNat 16 bs).map fun (v, rest) => (BitVec.ofNat 128 v, rest)
  | i32, bs => (parseNat 4 bs).map fun (v, rest) => ((UInt32.ofNat v).toInt32, rest)
  | i64, bs => (parseNat 8 bs).map fun (v, rest) => ((UInt64.ofNat v).toInt64, rest)
  | flag, bs => (parseNat 1 bs).map fun (v, rest) => (v != 0, rest)
  | key, bs => parseKey bs
  | text, bs => parseText bs
  | keys, bs => do
    let (n, bs) ← parseNat 4 bs
    parseKeys n bs
  | side, bs => do
    let (v, bs) ← parseNat 1 bs
    match v with
    | 0 => some (Side.buy, bs)
    | 1 => some (Side.sell, bs)
    | _ => none
  | triple, bs => do
    let (x, bs) ← parseNat 8 bs
    let (y, bs) ← parseNat 8 bs
    let (z, bs) ← parseNat 8 bs
    return ((UInt64.ofNat x, UInt64.ofNat y, UInt64.ofNat z), bs)

/-- The bytes of a value; truth values are written as 0 and 1. -/
def spell : (t : WireType) → t.Value → Bytes
  | u8, v => littleEndian 1 (UInt8.toNat v)
  | u16, v => littleEndian 2 (UInt16.toNat v)
  | u32, v => littleEndian 4 (UInt32.toNat v)
  | u64, v => littleEndian 8 (UInt64.toNat v)
  | u128, v => littleEndian 16 (BitVec.toNat v)
  | i32, v => littleEndian 4 (Int32.toUInt32 v).toNat
  | i64, v => littleEndian 8 (Int64.toUInt64 v).toNat
  | flag, v => littleEndian 1 (Bool.toNat v)
  | key, v => Fixed.bytes v
  | text, v => littleEndian 4 (Utf8.encode v).length ++ Utf8.encode v
  | keys, v => littleEndian 4 (List.length v) ++ List.flatMap Fixed.bytes v
  | side, .buy => [0]
  | side, .sell => [1]
  | triple, (x, y, z) =>
    littleEndian 8 x.toNat ++ (littleEndian 8 y.toNat ++ littleEndian 8 z.toNat)

end WireType

/-! ## Small laws of the parts -/

/-- Reading as many keys as were written returns them. -/
theorem parseKeys_append (ks : List Key) (rest : Bytes) :
    parseKeys ks.length (ks.flatMap Fixed.bytes ++ rest) = some (ks, rest) := by
  induction ks with
  | nil => rfl
  | cons k ks ih =>
    simp only [List.flatMap_cons, List.append_assoc, List.length_cons, parseKeys, parseKey,
      Fixed.take?_append, Option.bind_eq_bind, Option.bind_some, ih]
    rfl

end DexFeed
