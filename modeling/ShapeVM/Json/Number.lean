import ShapeVM.Binary64.Rounding

/-!
JSON numbers. A literal is an integer part without superfluous zeros, then perhaps a fraction and an
exponent. A literal that is only an integer part is an integer while it fits 64 bits; every other
literal is a binary64 number, or nothing if it is past the largest of them.

The number of a literal is not always the nearest: digits past the 64-bit range of the significand are
dropped, and the scaling by a power of ten is rounded on its own.
-/
namespace ShapeVM.Json

/-- Digits are given by their values. -/
structure NumberLiteral where
  negative : Bool
  integer : List Nat
  fraction : List Nat := []
  /-- Whether the exponent is negative, and its digits. -/
  exponent : Option (Bool × List Nat) := none
  deriving DecidableEq

inductive Number where
  | integer (n : Int)
  | float (x : Binary64)
  deriving DecidableEq

namespace NumberLiteral

/-! ## The form of a literal -/

def isDigit (c : Char) : Bool := '0' ≤ c && c ≤ '9'

def digitValue (c : Char) : Nat := c.toNat - '0'.toNat

/-- The digits at the start of a text, and the rest of it. -/
def digits (cs : List Char) : List Nat × List Char :=
  ((cs.takeWhile isDigit).map digitValue, cs.dropWhile isDigit)

def readFraction? : List Char → Option (List Nat × List Char)
  | '.' :: rest =>
    match digits rest with
    | ([], _) => none
    | found => some found
  | rest => some ([], rest)

def readSign : List Char → Bool × List Char
  | '-' :: rest => (true, rest)
  | '+' :: rest => (false, rest)
  | rest => (false, rest)

def readExponent? : List Char → Option (Option (Bool × List Nat) × List Char)
  | [] => some (none, [])
  | c :: rest =>
    if c = 'e' || c = 'E' then
      let (negative, rest) := readSign rest
      match digits rest with
      | ([], _) => none
      | (found, rest) => some (some (negative, found), rest)
    else some (none, c :: rest)

def readUnsigned? (negative : Bool) (cs : List Char) : Option (NumberLiteral × List Char) :=
  match digits cs with
  | ([], _) => none
  | (0 :: _ :: _, _) => none
  | (integer, rest) => do
    let (fraction, rest) ← readFraction? rest
    let (exponent, rest) ← readExponent? rest
    return ({ negative, integer, fraction, exponent }, rest)

/-- Reads the literal at the start of a text. -/
def read? : List Char → Option (NumberLiteral × List Char)
  | '-' :: rest => readUnsigned? true rest
  | cs => readUnsigned? false cs

/-! ## The number of a literal -/

def maxSignificand : Nat := 0xffffffffffffffff

/-- Appends digits to a significand while it fits 64 bits, and gives back the digits left over. -/
def accumulate (significand : Nat) : List Nat → Nat × List Nat
  | [] => (significand, [])
  | d :: rest =>
    if significand * 10 + d ≤ maxSignificand then accumulate (significand * 10 + d) rest
    else (significand, d :: rest)

def powerOfTen (n : Nat) : Binary64 := .ofMagnitude (10 ^ n)

/-- Divides by 10^308 until the exponent is within reach of the powers of ten. -/
def scaleDown (x : Binary64) (exponent : Int) : Binary64 :=
  if x.isZero then x
  else if -308 ≤ exponent then
    .ofMagnitude (x.magnitude / (powerOfTen exponent.natAbs).magnitude)
  else scaleDown (.ofMagnitude (x.magnitude / (powerOfTen 308).magnitude)) (exponent + 308)
termination_by exponent.natAbs

/-- A nonnegative number from its significand and its power of ten. -/
def scale? (significand : Nat) (exponent : Int) : Option Binary64 :=
  let x := Binary64.ofMagnitude significand
  if exponent < 0 then some (scaleDown x exponent)
  else if x.isZero then some x
  else if 308 < exponent then none
  else
    let scaled := Binary64.ofMagnitude (x.magnitude * (powerOfTen exponent.toNat).magnitude)
    if scaled.isInfinite then none else some scaled

/-- Exponents have 31 bits; a larger one leaves only zero or nothing. -/
def exponentValue? (digits : List Nat) : Option Nat :=
  let value := digits.foldl (fun n d => n * 10 + d) 0
  if value < 0x80000000 then some value else none

def magnitude? (l : NumberLiteral) : Option Binary64 :=
  let (significand, dropped) := accumulate 0 l.integer
  let (significand, ignored) := accumulate significand l.fraction
  let shift : Int := dropped.length - (l.fraction.length - ignored.length : Nat)
  match l.exponent with
  | none => scale? significand shift
  | some (negative, digits) =>
    match exponentValue? digits with
    | some e => scale? significand (if negative then shift - e else shift + e)
    | none => if significand = 0 || negative then some .zero else none

def float? (l : NumberLiteral) : Option Number :=
  l.magnitude?.map fun x => .float (if l.negative then x.neg else x)

/-- A negative integer has one more value than fits, and the negative zero is no integer. -/
def number? (l : NumberLiteral) : Option Number :=
  match l.fraction, l.exponent, accumulate 0 l.integer with
  | [], none, (n, []) =>
    if !l.negative then some (.integer n)
    else if 0 < n && n ≤ 0x8000000000000000 then some (.integer (-n))
    else l.float?
  | _, _, _ => l.float?

/-! ## Progress of reading -/

theorem length_le_of_digits {cs rest : List Char} {ds : List Nat} (h : digits cs = (ds, rest)) :
    rest.length ≤ cs.length := by
  obtain ⟨-, rfl⟩ := Prod.mk.inj h
  exact (List.dropWhile_suffix isDigit).length_le

theorem length_lt_of_digits {cs rest : List Char} {ds : List Nat} (h : digits cs = (ds, rest))
    (nonempty : ds ≠ []) : rest.length < cs.length := by
  obtain ⟨rfl, rfl⟩ := Prod.mk.inj h
  have split := congrArg List.length (List.takeWhile_append_dropWhile (p := isDigit) (l := cs))
  have := List.length_pos_iff.2 nonempty
  simp only [List.length_append, List.length_map] at split this
  omega

theorem length_le_of_readFraction? {cs rest : List Char} {ds : List Nat}
    (h : readFraction? cs = some (ds, rest)) : rest.length ≤ cs.length := by
  unfold readFraction? at h
  split at h
  · split at h
    · simp at h
    · have := length_le_of_digits (Option.some.inj h)
      exact Nat.le_succ_of_le this
  · simp_all

theorem length_readSign_le (cs : List Char) : (readSign cs).2.length ≤ cs.length := by
  unfold readSign
  split <;> simp

theorem length_le_of_readExponent? {cs rest : List Char} {e : Option (Bool × List Nat)}
    (h : readExponent? cs = some (e, rest)) : rest.length ≤ cs.length := by
  unfold readExponent? at h
  split at h
  · simp_all
  · rename_i c tail
    have sign := length_readSign_le tail
    split at h
    · simp only at h
      split at h
      · simp at h
      · rename_i hd
        have := length_le_of_digits hd
        simp_all
        omega
    · simp_all

theorem length_lt_of_readUnsigned? {negative : Bool} {cs rest : List Char} {l : NumberLiteral}
    (h : readUnsigned? negative cs = some (l, rest)) : rest.length < cs.length := by
  unfold readUnsigned? at h
  split at h
  · simp at h
  · simp at h
  · rename_i nonempty _ hd
    simp only [Option.bind_eq_bind, Option.bind_eq_some_iff] at h
    obtain ⟨⟨fraction, r₁⟩, h₁, ⟨exponent, r₂⟩, h₂, h⟩ := h
    have := length_lt_of_digits hd nonempty
    have := length_le_of_readFraction? h₁
    have := length_le_of_readExponent? h₂
    simp_all
    omega

theorem length_lt_of_read? {cs rest : List Char} {l : NumberLiteral}
    (h : read? cs = some (l, rest)) : rest.length < cs.length := by
  unfold read? at h
  split at h
  · exact Nat.lt_succ_of_lt (length_lt_of_readUnsigned? h)
  · exact length_lt_of_readUnsigned? h

end NumberLiteral

end ShapeVM.Json
