import ShapeVM.Binary64.Rounding
import ShapeVM.Decimal

/-!
The shortest decimal of a binary64 number: of all decimals that round to the number, those on the
coarsest power-of-ten grid that holds any, and of these the nearest to the number.
-/
namespace ShapeVM

/-- Which of two equally near neighbours on a grid is taken. -/
inductive Tie where
  | up
  | even
  deriving DecidableEq

/-- The choice between `below` and its successor. -/
def Tie.resolve (below : Nat) : Tie → Nat
  | up => below + 1
  | even => if below % 2 = 0 then below else below + 1

namespace Binary64

/-- The reals that round to a positive finite number. The ends belong to them when the significand is
even. -/
structure Interval where
  lower : Rat
  upper : Rat
  closed : Bool

def Interval.contains (i : Interval) (q : Rat) : Bool :=
  if i.closed then i.lower ≤ q && q ≤ i.upper else i.lower < q && q < i.upper

/-- The gap below a power of two is half the gap above it, except where the numbers stop thinning out. -/
def interval (x : Binary64) : Interval :=
  let above : Rat := 2 ^ x.exponent
  let below := if x.fraction = 0 && 1 < x.exponentField then above / 2 else above
  { lower := x.magnitude - below / 2
    upper := x.magnitude + above / 2
    closed := x.significand % 2 = 0 }

/-- The nearer of the number's two neighbours on the grid of multiples of `10 ^ p`, if one of them
rounds to the number. -/
def onGrid? (x : Binary64) (tie : Tie) (p : Int) : Option Nat :=
  let scale : Rat := 10 ^ p
  let below := (x.magnitude / scale).floor.toNat
  let rest := x.magnitude / scale - below
  match x.interval.contains (below * scale), x.interval.contains ((below + 1 : Nat) * scale) with
  | true, true =>
    if rest < 1 / 2 then some below
    else if 1 / 2 < rest then some (below + 1)
    else some (tie.resolve below)
  | true, false => some below
  | false, true => some (below + 1)
  | false, false => none

/-- The exponent of a power of ten above a positive number, at most two places too high: 0.30102 and
0.30103 enclose the decimal logarithm of two. -/
def decimalBound (x : Binary64) : Int :=
  let powers := floorLog2 x.magnitude + 1
  max (powers * 30102 / 100000) (powers * 30103 / 100000) + 1

/-- The grids are tried from coarse to fine. Seventeen digits always suffice. -/
def shortest (x : Binary64) (tie : Tie) : Decimal :=
  let grids := (List.range 20).map fun (i : Nat) => x.decimalBound - i
  (grids.findSome? fun p => (x.onGrid? tie p).map fun n => Decimal.mk n p).getD ⟨0, 0⟩

/-- A number as inspection shows it: never an exponent, no point in an integral number, a sign on the
negative zero, and of two equally near shortest decimals the larger. -/
def toPlainString (x : Binary64) : String :=
  if x.isNaN then "NaN"
  else
    let magnitude :=
      if x.isInfinite then "inf"
      else if x.isZero then "0"
      else String.ofList (x.shortest .up).positional
    if x.isNegative then "-" ++ magnitude else magnitude

end Binary64

end ShapeVM
