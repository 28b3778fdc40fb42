/-!
JSON string literals. Writing escapes quotes, backslashes and control characters, each in its shortest
form. Reading accepts every escape of the format; one that names half of a surrogate pair is part of a
well-formed literal, but only pairs name characters.
-/
namespace ShapeVM.Json

/-- A character as itself or by a short escape, or the 16-bit code of a long escape. -/
inductive Piece where
  | char (c : Char)
  | code (n : Nat)
  deriving DecidableEq

namespace StringLiteral

def hexDigit (n : Nat) : Char := Nat.digitChar n

def escapeChar (c : Char) : List Char :=
  match c with
  | '"' => ['\\', '"']
  | '\\' => ['\\', '\\']
  | '\x08' => ['\\', 'b']
  | '\x0c' => ['\\', 'f']
  | '\n' => ['\\', 'n']
  | '\r' => ['\\', 'r']
  | '\t' => ['\\', 't']
  | c =>
    if c.toNat < 0x20 then ['\\', 'u', '0', '0', hexDigit (c.toNat / 16), hexDigit (c.toNat % 16)]
    else [c]

def write (s : String) : List Char :=
  '"' :: s.toList.flatMap escapeChar ++ ['"']

def hexValue? (c : Char) : Option Nat :=
  if '0' ≤ c && c ≤ '9' then some (c.toNat - '0'.toNat)
  else if 'a' ≤ c && c ≤ 'f' then some (c.toNat - 'a'.toNat + 10)
  else if 'A' ≤ c && c ≤ 'F' then some (c.toNat - 'A'.toNat + 10)
  else none

def code? (a b c d : Char) : Option Nat := do
  return (((← hexValue? a) * 16 + (← hexValue? b)) * 16 + (← hexValue? c)) * 16 + (← hexValue? d)

def shortEscape? : Char → Option Char
  | '"' => some '"'
  | '\\' => some '\\'
  | '/' => some '/'
  | 'b' => some '\x08'
  | 'f' => some '\x0c'
  | 'n' => some '\n'
  | 'r' => some '\r'
  | 't' => some '\t'
  | _ => none

/-- Reads what follows the opening quote, up to and including the closing one. -/
def read? : List Char → Option (List Piece × List Char)
  | '"' :: rest => some ([], rest)
  | '\\' :: 'u' :: a :: b :: c :: d :: rest => do
    let n ← code? a b c d
    let (pieces, rest) ← read? rest
    return (.code n :: pieces, rest)
  | '\\' :: e :: rest => do
    let c ← shortEscape? e
    let (pieces, rest) ← read? rest
    return (.char c :: pieces, rest)
  | c :: rest =>
    if c.toNat < 0x20 || c = '\\' then none
    else do
      let (pieces, rest) ← read? rest
      return (.char c :: pieces, rest)
  | [] => none

def isHigh (n : Nat) : Bool := 0xd800 ≤ n && n ≤ 0xdbff

def isLow (n : Nat) : Bool := 0xdc00 ≤ n && n ≤ 0xdfff

def pair (high low : Nat) : Char :=
  Char.ofNat (0x10000 + (high - 0xd800) * 0x400 + (low - 0xdc00))

/-- The characters of a literal, if its surrogate codes come in pairs. -/
def chars? : List Piece → Option (List Char)
  | [] => some []
  | .char c :: rest => (chars? rest).map (c :: ·)
  | .code n :: rest =>
    if isHigh n then
      match rest with
      | .code m :: rest => if isLow m then (chars? rest).map (pair n m :: ·) else none
      | _ => none
    else if isLow n then none
    else (chars? rest).map (Char.ofNat n :: ·)

def text? (pieces : List Piece) : Option String :=
  (chars? pieces).map String.ofList

theorem length_lt_of_read? {cs rest : List Char} {pieces : List Piece}
    (h : read? cs = some (pieces, rest)) : rest.length < cs.length := by
  fun_induction read? cs generalizing pieces rest with
  | case1 => simp_all
  | case2 a b c d r ih | case3 e r _ ih =>
    simp only [Option.bind_eq_bind, Option.bind_eq_some_iff] at h
    obtain ⟨n, -, ⟨p, r'⟩, hr, h⟩ := h
    have := ih hr
    simp_all
    omega
  | case5 c r _ _ _ _ ih =>
    simp only [Option.bind_eq_bind, Option.bind_eq_some_iff] at h
    obtain ⟨⟨p, r'⟩, hr, h⟩ := h
    have := ih hr
    simp_all
    omega
  | case4 | case6 => simp at h

end StringLiteral

end ShapeVM.Json
