import DexFeed.Number.Rounding

/-!
# Decimals with few significant digits

A number is printed with a fixed count of significant digits, rounded to nearest with ties to even,
and trailing zeros are left out together with a point that has nothing behind it. Exponents from -4
up to the digit count are written out in positions; others follow the letter `e` with a sign and at
least two digits.
-/

namespace DexFeed.Significant

/-- The decimal digits of a number, most significant first; zero has the digit 0. -/
def digits (n : Nat) : List Char :=
  Nat.toDigits 10 n

/-- The exponent `x` for which a positive quotient lies between `10 ^ x` and `10 ^ (x + 1)`. -/
def exponent (num den : Nat) : Int :=
  let a := (digits num).length
  let b := (digits den).length
  let guess : Int := (a : Int) - (b : Int)
  if den * Nat.pow 10 a ≤ num * Nat.pow 10 b then guess else guess - 1

/-- The rounded digits of a positive quotient and the exponent of the first of them. -/
def round (places num den : Nat) : Nat × Int :=
  let x := exponent num den
  let shift : Int := (places : Int) - 1 - x
  let m := divNearest (num * Nat.pow 10 shift.toNat) (den * Nat.pow 10 (-shift).toNat)
  if m = Nat.pow 10 places then (Nat.pow 10 (places - 1), x + 1) else (m, x)

/-- Leaves out the zeros at the end. -/
def dropZeros (cs : List Char) : List Char :=
  (cs.reverse.dropWhile (· == '0')).reverse

/-- A whole part and the digits behind the point, if any are left. -/
def withPoint (whole fraction : List Char) : List Char :=
  match dropZeros fraction with
  | [] => whole
  | fraction => whole ++ '.' :: fraction

/-- An exponent behind its letter, with a sign and at least two digits. -/
def exponentText (x : Int) : List Char :=
  let n := digits x.natAbs
  ['e', if x < 0 then '-' else '+'] ++ (if n.length < 2 then '0' :: n else n)

/-- The decimal text of a quotient with at most `places` significant digits. -/
def text (places num den : Nat) : String :=
  if num = 0 ∨ den = 0 then "0"
  else
    let (m, x) := round places num den
    let ds := digits m
    String.ofList <|
      if x < -4 ∨ (places : Int) ≤ x then withPoint (ds.take 1) (ds.drop 1) ++ exponentText x
      else if x < 0 then withPoint ['0'] (List.replicate (-x - 1).toNat '0' ++ ds)
      else withPoint (ds.take (x.toNat + 1)) (ds.drop (x.toNat + 1))

end DexFeed.Significant
