import DexFeed.Bytes

/-!
# UTF-8 text

Names, symbols and links arrive as bytes that must be well formed UTF-8. `decode` reads the scalar
values back, one character of one to four bytes at a time, and refuses stray and missing
continuation bytes, overlong forms, surrogates and values above U+10FFFF. `encode` writes the
characters of a text with the shortest form of each; a byte string is well formed exactly when
`decode` answers.
-/

namespace DexFeed.Utf8

/-- The six payload bits of a continuation byte `10xxxxxx`. -/
def continuation (b : UInt8) : Option Nat :=
  if b &&& 0xC0 = 0x80 then some (b &&& 0x3F).toNat else none

/-- The character with scalar value `v`, if `v` is one and not below `least`, from which on a form
is the shortest. -/
def scalar (least v : Nat) : Option Char :=
  if least ≤ v then
    if h : v.isValidChar then some (Char.ofNatAux v h) else none
  else none

/-- The character of a two-byte form `110xxxxx 10xxxxxx`. -/
def ofTwo (a b : UInt8) : Option Char := do
  let x ← continuation b
  scalar 0x80 ((a &&& 0x1F).toNat * 64 + x)

/-- The character of a three-byte form `1110xxxx 10xxxxxx 10xxxxxx`. -/
def ofThree (a b c : UInt8) : Option Char := do
  let x ← continuation b
  let y ← continuation c
  scalar 0x800 (((a &&& 0x0F).toNat * 64 + x) * 64 + y)

/-- The character of a four-byte form `11110xxx 10xxxxxx 10xxxxxx 10xxxxxx`. -/
def ofFour (a b c d : UInt8) : Option Char := do
  let x ← continuation b
  let y ← continuation c
  let z ← continuation d
  scalar 0x10000 ((((a &&& 0x07).toNat * 64 + x) * 64 + y) * 64 + z)

/-- The characters that a byte string encodes; the first byte of each fixes how many follow. -/
def decode : Bytes → Option (List Char)
  | [] => some []
  | a :: rest =>
    if a < 0x80 then
      (decode rest).map (Char.ofUInt8 a :: ·)
    else if a &&& 0xE0 = 0xC0 then
      match rest with
      | b :: rest => do
        let c ← ofTwo a b
        return c :: (← decode rest)
      | _ => none
    else if a &&& 0xF0 = 0xE0 then
      match rest with
      | b :: c :: rest => do
        let c ← ofThree a b c
        return c :: (← decode rest)
      | _ => none
    else if a &&& 0xF8 = 0xF0 then
      match rest with
      | b :: c :: d :: rest => do
        let c ← ofFour a b c d
        return c :: (← decode rest)
      | _ => none
    else none

/-- The shortest encodings of characters, one after the other. -/
def encoding (cs : List Char) : Bytes :=
  cs.flatMap String.utf8EncodeChar

/-- The bytes of a text. -/
def encode (text : String) : Bytes :=
  encoding text.toList

/-- The text that a byte string encodes, if it is well formed. -/
def text? (bs : Bytes) : Option String :=
  (decode bs).map String.ofList

/-- A byte string is well formed when it decodes. -/
def isValid (bs : Bytes) : Bool :=
  (decode bs).isSome

end DexFeed.Utf8
