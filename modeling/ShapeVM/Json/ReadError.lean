import ShapeVM.Binary64.Shortest
import ShapeVM.Json.Document
import ShapeVM.Text.Quoted

/-!
Why a JSON text is not a value of a kind. Text outside the grammar is malformed; a well-formed text can
still have a value of the wrong kind, too few items, or a member that is missing or given twice.
-/
namespace ShapeVM.Json

/-- What stands where something else was expected. -/
inductive Found where
  | null
  | boolean (b : Bool)
  | number (n : Json.Number)
  | string (s : String)
  | sequence
  | map

inductive Expected where
  | string
  | boolean
  | sequence
  | record (name : String) (fields : Nat)

inductive ReadError where
  | malformed
  | wrongKind (found : Found) (expected : Expected)
  /-- The length of an array that stands for a record. -/
  | tooShort (length : Nat) (expected : Expected)
  | missingField (name : String)
  | duplicateField (name : String)

namespace Found

/-- A number shows its point or its exponent, so that it does not look like an integer. Of two equally
near shortest decimals the one with the even last digit is taken. -/
def floatText (x : Binary64) : String :=
  let digits := if x.isZero then "0.0" else String.ofList (x.shortest .even).compact
  if x.isNegative then "-" ++ digits else digits

def text : Found → String
  | null => "null"
  | boolean true => "boolean `true`"
  | boolean false => "boolean `false`"
  | number (.integer n) => "integer `" ++ toString n ++ "`"
  | number (.float x) => "floating point `" ++ floatText x ++ "`"
  | string s => "string " ++ Text.quote s
  | sequence => "sequence"
  | map => "map"

end Found

namespace Expected

def text : Expected → String
  | string => "a string"
  | boolean => "a boolean"
  | sequence => "a sequence"
  | record name _ => "struct " ++ name

/-- A record in array form, by the number of its fields. -/
def arrayText : Expected → String
  | record name fields =>
    "struct " ++ name ++ " with " ++ toString fields ++ if fields = 1 then " element" else " elements"
  | other => other.text

end Expected

namespace ReadError

/-- A malformed text has no message of its own. -/
def message? : ReadError → Option String
  | malformed => none
  | wrongKind found expected =>
    some ("invalid type: " ++ found.text ++ ", expected " ++ expected.text)
  | tooShort length expected =>
    some ("invalid length " ++ toString length ++ ", expected " ++ expected.arrayText)
  | missingField name => some ("missing field `" ++ name ++ "`")
  | duplicateField name => some ("duplicate field `" ++ name ++ "`")

/-- The error for a document of the wrong kind. A literal that stands for nothing is malformed before
its kind matters; a container is known by its opening bracket. -/
def wrongDocument (document : Document) (expected : Expected) : ReadError :=
  let found : Option Found :=
    match document with
    | .null => some .null
    | .boolean b => some (.boolean b)
    | .number n => n.number?.map .number
    | .string s => (StringLiteral.text? s).map .string
    | .array _ _ => some .sequence
    | .object _ _ => some .map
    | .broken => none
  match found with
  | some found => wrongKind found expected
  | none => malformed

end ReadError

end ShapeVM.Json
