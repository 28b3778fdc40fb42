/-!
Decimals as digits and a power of ten, and two ways to write one: in full, and in full only while that
stays short.
-/
namespace ShapeVM

/-- The decimal `digits · 10 ^ exponent`. -/
structure Decimal where
  digits : Nat
  exponent : Int
  deriving DecidableEq, Repr

namespace Decimal

def digitChars (d : Decimal) : List Char :=
  Nat.toDigits 10 d.digits

def zeros (n : Nat) : List Char :=
  List.replicate n '0'

/-- How many digits stand before the point; zero or less if the decimal is below one tenth. -/
def integerPlaces (d : Decimal) : Int :=
  d.digitChars.length + d.exponent

/-- The digits written out in full, with a point only where digits follow it. -/
def positional (d : Decimal) : List Char :=
  let digits := d.digitChars
  let places := d.integerPlaces
  if 0 ≤ d.exponent then digits ++ zeros d.exponent.toNat
  else if 0 < places then digits.take places.toNat ++ '.' :: digits.drop places.toNat
  else '0' :: '.' :: zeros (-places).toNat ++ digits

/-- The first digit, the others after a point, and the power of ten that the first digit counts. The
power has its sign also when it is positive. -/
def scientific (d : Decimal) : List Char :=
  let power := d.integerPlaces - 1
  let sign := if power < 0 then '-' else '+'
  let mantissa :=
    match d.digitChars with
    | first :: rest@(_ :: _) => first :: '.' :: rest
    | digits => digits
  mantissa ++ 'e' :: sign :: Nat.toDigits 10 power.natAbs

/-- Positional with at least one digit after the point while at most 16 digits precede the point or at
most four zeros follow it, and scientific beyond. -/
def compact (d : Decimal) : List Char :=
  let places := d.integerPlaces
  if -5 < places && places ≤ 16 then
    if 0 ≤ d.exponent then d.positional ++ ['.', '0'] else d.positional
  else d.scientific

end Decimal

end ShapeVM
