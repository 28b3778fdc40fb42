import ShapeVM.Json.Token

/-!
JSON documents. A document is the tree that the tokens of a text build, as far as they go: where the
grammar breaks off, the containers still open stay unclosed and what is missing is broken. A reader
that walks the tree in order thus meets the faults of the text in the order of the text.
-/
namespace ShapeVM.Json

inductive Document where
  | null
  | boolean (b : Bool)
  | number (n : NumberLiteral)
  | string (s : List Piece)
  | array (items : List Document) (closed : Bool)
  | object (members : List (List Piece × Document)) (closed : Bool)
  | broken

namespace Document

/-- Whether a document is broken nowhere. -/
def isWhole : Document → Bool
  | array items closed => closed && wholeItems items
  | object members closed => closed && wholeMembers members
  | broken => false
  | _ => true
where
  wholeItems : List Document → Bool
    | [] => true
    | item :: rest => item.isWhole && wholeItems rest
  wholeMembers : List (List Piece × Document) → Bool
    | [] => true
    | (_, value) :: rest => value.isWhole && wholeMembers rest

/-- What is left of some tokens. -/
abbrev Rest (ts : List Token) := { r : List Token // r.length ≤ ts.length }

def Rest.none {ts : List Token} : Rest ts := ⟨[], Nat.zero_le _⟩

def Rest.widen {ts us : List Token} (r : Rest ts) (h : ts.length ≤ us.length) : Rest us :=
  ⟨r.1, Nat.le_trans r.2 h⟩

mutual

/-- The document at the start of some tokens. -/
def value (ts : List Token) : Document × Rest ts :=
  match ts with
  | .null :: r => (null, ⟨r, Nat.le_succ _⟩)
  | .boolean b :: r => (boolean b, ⟨r, Nat.le_succ _⟩)
  | .number n :: r => (number n, ⟨r, Nat.le_succ _⟩)
  | .string s :: r => (string s, ⟨r, Nat.le_succ _⟩)
  | .openBracket :: .closeBracket :: r => (array [] true, ⟨r, by simp; omega⟩)
  | .openBracket :: r =>
    let (found, closed, rest) := items r
    (array found closed, rest.widen (Nat.le_succ _))
  | .openBrace :: .closeBrace :: r => (object [] true, ⟨r, by simp; omega⟩)
  | .openBrace :: r =>
    let (found, closed, rest) := members r
    (object found closed, rest.widen (Nat.le_succ _))
  | _ => (broken, .none)
termination_by (ts.length, 0)

/-- The items of an array from one of them on. -/
def items (ts : List Token) : List Document × Bool × Rest ts :=
  match value ts with
  | (first, ⟨.comma :: r, h⟩) =>
    let (others, closed, rest) := items r
    (first :: others, closed, rest.widen (Nat.le_of_succ_le h))
  | (first, ⟨.closeBracket :: r, h⟩) => ([first], true, ⟨r, Nat.le_of_succ_le h⟩)
  | (first, _) => ([first], false, .none)
termination_by (ts.length, 1)

/-- The members of an object from one of them on. -/
def members (ts : List Token) : List (List Piece × Document) × Bool × Rest ts :=
  match ts with
  | .string key :: .colon :: r =>
    match value r with
    | (first, ⟨.comma :: r', h⟩) =>
      let (others, closed, rest) := members r'
      ((key, first) :: others, closed, rest.widen (by simp at h ⊢; omega))
    | (first, ⟨.closeBrace :: r', h⟩) =>
      ([(key, first)], true, ⟨r', by simp at h ⊢; omega⟩)
    | (first, _) => ([(key, first)], false, .none)
  | .string key :: _ => ([(key, broken)], false, .none)
  | _ => ([], false, .none)
termination_by (ts.length, 1)
decreasing_by all_goals simp_all [Prod.lex_def] <;> omega

end

/-- The document that a text starts with, and whether nothing but blanks follows it. -/
def ofString (text : String) : Document × Bool :=
  let (document, rest) := value (Token.scan text.toList)
  (document, rest.1.isEmpty)

end Document

end ShapeVM.Json
