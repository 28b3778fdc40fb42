import ShapeVM.Text.Unprintable

/-!
Quoted text for inspection. A string stands between double quotes; quotes, backslashes and characters
that could not be seen are written as escapes, so that two different strings never look the same.
-/
namespace ShapeVM.Text

/-- Lower-case hexadecimal digits without leading zeros. -/
def hexDigits (n : Nat) : String := String.ofList (Nat.toDigits 16 n)

def quoteChar (c : Char) : String :=
  match c with
  | '\x00' => "\\0"
  | '\t' => "\\t"
  | '\n' => "\\n"
  | '\r' => "\\r"
  | '"' => "\\\""
  | '\\' => "\\\\"
  | c =>
    if isUnprintable c then "\\u\x7b" ++ hexDigits c.toNat ++ "\x7d" else c.toString

/-- The apostrophe needs no escape between double quotes. -/
def quote (s : String) : String :=
  "\"" ++ s.foldl (fun acc c => acc ++ quoteChar c) "" ++ "\""

end ShapeVM.Text
