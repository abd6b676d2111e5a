import DexFeed.Bytes

/-!
# Base58 names

Keys and signatures are shown as base58 numerals: the bytes are read as one number with the most
significant byte first, each leading zero byte becomes a leading `1`, and the rest is written with
58 digits. Both conversions run through `mulAdd`, the schoolbook step on a numeral with its least
significant digit first, inside a working width fixed in advance by a rational bound on
`log 256 / log 58` and on its inverse. `mulAdd` reports the carry that did not fit, so that the
sufficiency of both widths can be stated.
-/

namespace DexFeed.Base58

/-- Multiplies a numeral by `scale` and adds `carry`, using at most `room` digits; the second
component is the carry for which no room was left. -/
def mulAdd (base scale : Nat) : (room : Nat) → (digits : List Nat) → (carry : Nat) → List Nat × Nat
  | 0, _, carry => ([], carry)
  | room + 1, [], carry =>
    if carry = 0 then ([], 0)
    else
      let more := mulAdd base scale room [] (carry / base)
      (carry % base :: more.1, more.2)
  | room + 1, d :: digits, carry =>
    let sum := carry + scale * d
    let more := mulAdd base scale room digits (sum / base)
    (sum % base :: more.1, more.2)

/-- The 58 digits: no zero, capital `O`, capital `I` or small `l`. -/
def alphabet : Bytes :=
  ascii "123456789ABCDEFGHJKLMNPQRSTUVWXYZabcdefghijkmnopqrstuvwxyz"

/-- The digit that stands for the value zero and for each leading zero byte. -/
def zeroDigit : UInt8 := 49

/-- The character of a digit. -/
def character (digit : Nat) : UInt8 :=
  alphabet.getD digit zeroDigit

/-- The value of a character of the alphabet. -/
def value? (c : UInt8) : Option Nat :=
  alphabet.idxOf? c

/-- Enough base 58 digits for `count` bytes. -/
def digitRoom (count : Nat) : Nat :=
  count * 138 / 100 + 1

/-- Enough bytes for `count` base 58 digits. -/
def byteRoom (count : Nat) : Nat :=
  count * 733 / 1000 + 1

/-- The base 58 digits of a byte string, least significant first, within `room` digits. -/
def digits (room : Nat) (bs : Bytes) : List Nat :=
  bs.foldl (fun ds b => (mulAdd 58 256 room ds b.toNat).1) []

/-- The base58 numeral of a byte string. -/
def encode (bs : Bytes) : Bytes :=
  let zeros := bs.takeWhile (· == 0)
  let body := bs.dropWhile (· == 0)
  List.replicate zeros.length zeroDigit ++
    ((digits (digitRoom body.length) body).reverse.map character)

/-- The bytes of a digit string, least significant first, within `room` bytes; a character outside
the alphabet and a carry without room are refused. -/
def bytes? (room : Nat) (text : Bytes) : Option (List Nat) :=
  text.foldlM (fun bs c => do
    let v ← value? c
    let next := mulAdd 256 58 room bs v
    if next.2 = 0 then some next.1 else none) []

/-- The byte string of a base58 numeral, if every character belongs to the alphabet. -/
def decode (text : Bytes) : Option Bytes :=
  let zeros := text.takeWhile (· == zeroDigit)
  let body := text.dropWhile (· == zeroDigit)
  (bytes? (byteRoom body.length) body).map fun bs =>
    List.replicate zeros.length 0 ++ (bs.reverse.map UInt8.ofNat)

/-- The fixed-width string of exactly `n` bytes that a base58 numeral names. -/
def fixed? (n : Nat) (text : Bytes) : Option (Fixed n) :=
  match decode text with
  | some bs => if h : bs.length = n then some ⟨bs, h⟩ else none
  | none => none

end DexFeed.Base58
