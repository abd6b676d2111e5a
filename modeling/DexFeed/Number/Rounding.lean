/-!
# Rounding a quotient

Latencies are counted in whole nanoseconds but averaged and printed as fractions, so quotients have
to be rounded, always to the nearest value and to the even one of two equally near. `divNearest`
rounds to a whole number. `Binary.nearest` rounds to a significand of a fixed number of bits: 53 in
a binary64 number and 64 in the extended format that sums are kept in. The exponent is not bounded
here, since quotients of 64-bit counts stay far from both ends of its range.
-/

namespace DexFeed

/-- The quotient rounded to the nearest whole number, ties to the even one. -/
def divNearest (num den : Nat) : Nat :=
  let q := num / den
  let r := num % den
  if 2 * r < den then q
  else if den < 2 * r then q + 1
  else q + q % 2

/-- A number that is not negative with a significand of so many bits at most:
`significand * 2 ^ exponent`. -/
structure Binary (precision : Nat) where
  /-- The significand, with its highest bit set unless the number is zero. -/
  significand : Nat
  /-- The exponent of the significand's last bit. -/
  exponent : Int
deriving DecidableEq

/-- A number in the interchange format of 64 bits. -/
abbrev Binary64 := Binary 53

/-- A number in the extended format of 80 bits. -/
abbrev Extended := Binary 64

namespace Binary

variable {precision : Nat}

/-- The number zero. -/
def zero : Binary precision := ⟨0, 0⟩

/-- The highest bit of a significand. -/
def leadingBit (precision : Nat) : Nat := 1 <<< (precision - 1)

/-- A quotient of two numbers scaled by a power of two, as a pair. -/
def scaled (num den : Nat) (exponent : Int) : Nat × Nat :=
  (num <<< (-exponent).toNat, den <<< exponent.toNat)

/-- The number nearest to a quotient, ties to the even significand. -/
def nearest (num den : Nat) : Binary precision :=
  if num = 0 ∨ den = 0 then zero
  else
    let high : Int := (num.log2 : Int) - (den.log2 : Int) - ((precision : Int) - 1)
    let s := scaled num den high
    let exponent := if s.1 / s.2 < leadingBit precision then high - 1 else high
    let t := scaled num den exponent
    let significand := divNearest t.1 t.2
    if significand = 2 * leadingBit precision then ⟨leadingBit precision, exponent + 1⟩
    else ⟨significand, exponent⟩

/-- The number as a quotient. -/
def ratio (x : Binary precision) : Nat × Nat :=
  (x.significand <<< x.exponent.toNat, 1 <<< (-x.exponent).toNat)

/-- The number nearest to a sum with a whole number. -/
def addNat (x : Binary precision) (n : Nat) : Binary precision :=
  nearest (x.ratio.1 + n * x.ratio.2) x.ratio.2

/-- The number nearest to a number divided by a whole one. -/
def divNat (x : Binary precision) (n : Nat) : Binary precision :=
  nearest x.ratio.1 (x.ratio.2 * n)

/-- The nearest number of another precision. -/
def convert {other : Nat} (x : Binary precision) : Binary other :=
  nearest x.ratio.1 x.ratio.2

/-- The interchange format: a biased exponent of eleven bits and the significand without its
leading bit. -/
def bits (x : Binary64) : UInt64 :=
  if x.significand = 0 then 0
  else UInt64.ofNat ((x.exponent + 1075).toNat * leadingBit 53 + (x.significand - leadingBit 53))

end Binary

end DexFeed
