import ShapeVM.Binary64.Basic

/-!
Rounding to binary64. A nonnegative rational goes to the nearest number of the format, from halfway to
the one with an even significand, and to infinity from halfway past the largest finite number.
-/
namespace ShapeVM

/-- The nearest integer to a nonnegative rational, from halfway to the even one. -/
def roundHalfEven (q : Rat) : Nat :=
  let below := q.floor.toNat
  let rest := q - below
  if rest < 1 / 2 then below
  else if 1 / 2 < rest then below + 1
  else if below % 2 = 0 then below else below + 1

/-- The exponent of the largest power of two that is at most the positive rational `q`. -/
def floorLog2 (q : Rat) : Int :=
  let guess : Int := (q.num.toNat.log2 : Int) - q.den.log2
  if q < 2 ^ guess then guess - 1 else guess

namespace Binary64

/-- Consecutive words are consecutive numbers, so a significand that rounds up to 2^53 carries into the
exponent field by itself. -/
def ofMagnitude (q : Rat) : Binary64 :=
  if q ≤ 0 then zero
  else
    let exponent := max (floorLog2 q - 52) (-1074)
    let word := (exponent + 1074).toNat * fractionSize + roundHalfEven (q / 2 ^ exponent)
    if word < infinity.bits.toNat then ⟨word.toUInt64⟩ else infinity

/-- Every 32-bit integer is a number of the format. -/
def ofInt (n : Int) : Binary64 :=
  if n < 0 then (ofMagnitude n.natAbs).neg else ofMagnitude n.natAbs

end Binary64

end ShapeVM
