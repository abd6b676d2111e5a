import DexFeed.Bytes

/-!
# Base64 payloads

Log lines carry payloads in standard base64 with padding. `encode` writes it. `read` first checks
the length and that `=` stands only in the padding, and then hands the text to `blocks?`, a block
reader with rules of its own: it drops blanks in front, drops blanks, line ends and dashes at the
end while more than three characters remain, reads `=` as six zero bits and ignores bits below the
padding. The padding is counted on the text before that trimming, and as many bytes are cut off the
block.

The block reader takes the length of its text as a 32-bit number with a sign, so it is handed what
`measured` leaves of the text: of one with `2 ^ 31` characters or more only a beginning, or nothing.
The block can then be shorter than the padding, and reading ends with an error instead of an answer.
-/

namespace DexFeed.Base64

/-- The 64 digits of the standard alphabet. -/
def alphabet : Bytes :=
  ascii "ABCDEFGHIJKLMNOPQRSTUVWXYZabcdefghijklmnopqrstuvwxyz0123456789+/"

/-- The padding character `=`. -/
def padding : UInt8 := 61

/-- The character of the lowest six bits of a number. -/
def character (v : Nat) : UInt8 :=
  alphabet.getD (v % 64) padding

/-- The six bits of a character of the standard alphabet. -/
def sextet? (c : UInt8) : Option Nat :=
  alphabet.idxOf? c

/-- Standard base64, three bytes to four characters, the last group padded. The program writes it
for byte strings whose encoding has fewer than `2 ^ 31` characters, which are all that the block
writer can count. -/
def encode : Bytes → Bytes
  | [] => []
  | [a] =>
    let v := a.toNat * 65536
    [character (v / 262144), character (v / 4096), padding, padding]
  | [a, b] =>
    let v := a.toNat * 65536 + b.toNat * 256
    [character (v / 262144), character (v / 4096), character (v / 64), padding]
  | a :: b :: c :: rest =>
    let v := a.toNat * 65536 + b.toNat * 256 + c.toNat
    character (v / 262144) :: character (v / 4096) :: character (v / 64) :: character v ::
      encode rest

/-- The six bits of a character where padding counts as zero. -/
def paddedSextet? (c : UInt8) : Option Nat :=
  if c = padding then some 0 else sextet? c

/-- Three bytes for each group of four characters; an incomplete group is refused. -/
def groups? : Bytes → Option Bytes
  | [] => some []
  | a :: b :: c :: d :: rest => do
    let w ← paddedSextet? a
    let x ← paddedSextet? b
    let y ← paddedSextet? c
    let z ← paddedSextet? d
    let v := ((w * 64 + x) * 64 + y) * 64 + z
    let more ← groups? rest
    return UInt8.ofNat (v / 65536) :: UInt8.ofNat (v / 256 % 256) :: UInt8.ofNat (v % 256) :: more
  | _ => none

/-- A blank that may stand in front of a block: space or tab. -/
def isBlank (c : UInt8) : Bool :=
  c == 32 || c == 9

/-- A character that may trail a block: a blank, a line end or a dash. -/
def isTrailer (c : UInt8) : Bool :=
  isBlank c || c == 10 || c == 13 || c == 45

/-- Drops trailers from the front of a reversed text while more than three characters remain. -/
def dropTrailers : Bytes → Bytes
  | a :: b :: c :: d :: rest =>
    if isTrailer a then dropTrailers (b :: c :: d :: rest) else a :: b :: c :: d :: rest
  | short => short

/-- The text that the block reader looks at. -/
def trimBlock (text : Bytes) : Bytes :=
  (dropTrailers (text.dropWhile isBlank).reverse).reverse

/-- The bytes of a block of base64, padding read as zero bits. -/
def blocks? (text : Bytes) : Option Bytes :=
  groups? (trimBlock text)

/-- How many of the last two characters are padding, each counted on its own. -/
def padCount (text : Bytes) : Nat :=
  (text.drop (text.length - 2)).count padding

/-- What the block reader sees of a text whose length is handed over as a 32-bit number with a sign.
A negative length counts as none. -/
def measured (text : Bytes) : Bytes :=
  text.take (Int32.ofNat text.length).toNatClampNeg

/-- What comes of reading a text. -/
inductive Reading
  /-- The text is base64 for these bytes. -/
  | bytes (bs : Bytes)
  /-- The text is refused. -/
  | malformed
  /-- The block is shorter than the padding. The length that should remain wraps to one that no
  buffer can have, and the call ends with an error. -/
  | overrun
deriving DecidableEq

namespace Reading

/-- What comes of the answer of the block reader, where so many bytes of padding are cut off. -/
def ofBlock (pad : Nat) : Option Bytes → Reading
  | none => malformed
  | some block => if block.length < pad then overrun else bytes (block.take (block.length - pad))

/-- The bytes that were read. A text that is refused and one on which reading ends with an error are
not told apart. -/
def bytes? : Reading → Option Bytes
  | bytes bs => some bs
  | malformed => none
  | overrun => none

end Reading

/-- Reads a base64 text. -/
def read (text : Bytes) : Reading :=
  if text = [] then .bytes []
  else if text.length % 4 ≠ 0 then .malformed
  else
    let pad := padCount text
    if padding ∈ text.take (text.length - pad) then .malformed
    else .ofBlock pad (blocks? (measured text))

/-- The bytes of a base64 text. -/
def decode (text : Bytes) : Option Bytes :=
  (read text).bytes?

end DexFeed.Base64
