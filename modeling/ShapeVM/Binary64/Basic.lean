/-!
Numbers in the binary64 format, held as their 64 bits. A finite number is a significand below 2^53
times a power of two, and every question about it is answered from its fields in exact arithmetic.
-/
namespace ShapeVM

structure Binary64 where
  bits : UInt64
  deriving DecidableEq, Inhabited

namespace Binary64

/-- Two to the 52: the words of one sign and one exponent field. -/
def fractionSize : Nat := 0x10000000000000

def isNegative (x : Binary64) : Bool :=
  0x8000000000000000 ≤ x.bits

def exponentField (x : Binary64) : Nat :=
  x.bits.toNat / fractionSize % 2048

def fraction (x : Binary64) : Nat :=
  x.bits.toNat % fractionSize

def isNaN (x : Binary64) : Bool :=
  x.exponentField = 2047 && x.fraction ≠ 0

def isInfinite (x : Binary64) : Bool :=
  x.exponentField = 2047 && x.fraction = 0

def isZero (x : Binary64) : Bool :=
  x.exponentField = 0 && x.fraction = 0

/-- The leading bit is implicit unless the exponent field is zero. -/
def significand (x : Binary64) : Nat :=
  if x.exponentField = 0 then x.fraction else x.fraction + fractionSize

def exponent (x : Binary64) : Int :=
  if x.exponentField = 0 then -1074 else (x.exponentField : Int) - 1075

/-- The exact value of a finite number without its sign. -/
def magnitude (x : Binary64) : Rat :=
  x.significand * 2 ^ x.exponent

def zero : Binary64 := ⟨0⟩

def infinity : Binary64 := ⟨0x7ff0000000000000⟩

def nan : Binary64 := ⟨0x7ff8000000000000⟩

def neg (x : Binary64) : Binary64 :=
  ⟨x.bits ^^^ 0x8000000000000000⟩

/-- Comparison of numbers, not of bits: a NaN equals nothing, and the two zeros are equal. -/
def equal (x y : Binary64) : Bool :=
  !x.isNaN && !y.isNaN && (x == y || x.isZero && y.isZero)

end Binary64

end ShapeVM
