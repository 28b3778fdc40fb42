import ShapeVM.Json.StringLiteral
import ShapeVM.Json.Number

/-!
JSON tokens. Scanning skips blanks and stops at the first place where no token can be read, which
leaves a broken token at the end.
-/
namespace ShapeVM.Json

inductive Token where
  | openBrace
  | closeBrace
  | openBracket
  | closeBracket
  | colon
  | comma
  | null
  | boolean (b : Bool)
  | number (n : NumberLiteral)
  | string (s : List Piece)
  | broken
  deriving DecidableEq

namespace Token

def isBlank (c : Char) : Bool :=
  c = ' ' || c = '\t' || c = '\n' || c = '\r'

def scan (cs : List Char) : List Token :=
  match cs with
  | [] => []
  | '{' :: rest => openBrace :: scan rest
  | '}' :: rest => closeBrace :: scan rest
  | '[' :: rest => openBracket :: scan rest
  | ']' :: rest => closeBracket :: scan rest
  | ':' :: rest => colon :: scan rest
  | ',' :: rest => comma :: scan rest
  | 'n' :: 'u' :: 'l' :: 'l' :: rest => null :: scan rest
  | 't' :: 'r' :: 'u' :: 'e' :: rest => boolean true :: scan rest
  | 'f' :: 'a' :: 'l' :: 's' :: 'e' :: rest => boolean false :: scan rest
  | '"' :: rest =>
    match h : StringLiteral.read? rest with
    | some (s, rest') =>
      have := StringLiteral.length_lt_of_read? h
      string s :: scan rest'
    | none => [broken]
  | c :: rest =>
    if isBlank c then scan rest
    else
      match h : NumberLiteral.read? (c :: rest) with
      | some (n, rest') =>
        have := NumberLiteral.length_lt_of_read? h
        number n :: scan rest'
      | none => [broken]
termination_by cs.length
decreasing_by all_goals grind

end Token

end ShapeVM.Json
