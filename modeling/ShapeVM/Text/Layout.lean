/-!
The layout of inspection text: a record shows its name and its fields, a wrapper its name and what it
wraps, a list its items in brackets. Everything stays on one line.
-/
namespace ShapeVM.Text

def commaSeparated (items : List String) : String :=
  String.intercalate ", " items

def record (name : String) (fields : List (String × String)) : String :=
  name ++ " \x7b " ++ commaSeparated (fields.map fun (field, text) => field ++ ": " ++ text) ++ " \x7d"

def wrapped (name inner : String) : String :=
  name ++ "(" ++ inner ++ ")"

def list (items : List String) : String :=
  "[" ++ commaSeparated items ++ "]"

def option : Option String → String
  | none => "None"
  | some inner => wrapped "Some" inner

def boolean : Bool → String
  | true => "true"
  | false => "false"

def natural (n : Nat) : String := String.ofList (Nat.toDigits 10 n)

def integer : Int → String
  | .ofNat n => natural n
  | .negSucc n => "-" ++ natural (n + 1)

end ShapeVM.Text
