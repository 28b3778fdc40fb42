import ShapeVM.Json.Kind
import ShapeVM.Proofs.Json.Text

/-!
# Formats that write and read JSON

What is known of a format is what its documentation says. It writes compact JSON, a record as an object
with all its fields in order (`Format.Writes`); it reads the texts of documents and no others, and what
a document stands for is settled kind by kind (`Decodes`, `Format.Reads`). A record is visited member by
member: a member sets the field that it names, unless the field was set before, and is passed over if
it names none; at the end a field that was not set must be one whose value may be missing.
-/
namespace ShapeVM.Json

open StringLiteral

abbrev Member := List Piece × Document

/-! ## Kinds -/

mutual

/-- How many containers the values of a kind are nested in. -/
def Kind.depth : Kind → Nat
  | .boolean | .string => 0
  | .optional kind => kind.depth
  | .sequence kind => kind.depth + 1
  | .record _ fields => fields.depth + 1

def Fields.depth : Fields → Nat
  | .nil => 0
  | .cons _ kind others => max kind.depth others.depth

end

mutual

/-- No two fields of a record have one name, and a value that may be missing is not one of a kind whose
values may be missing themselves. -/
def Kind.Unambiguous : Kind → Prop
  | .boolean | .string => True
  | .optional kind => kind.absent? = none ∧ kind.Unambiguous
  | .sequence kind => kind.Unambiguous
  | .record _ fields => fields.names.Nodup ∧ fields.Unambiguous

def Fields.Unambiguous : Fields → Prop
  | .nil => True
  | .cons _ kind others => kind.Unambiguous ∧ others.Unambiguous

end

/-! ## Writing -/

section

variable {E : Type}

/-- The members that a format writes for a record. -/
def Fields.written (format : Format E) : (fields : Fields) → fields.Values → List (List Char)
  | .nil, () => []
  | .cons field kind others, (value, values) =>
    ((format.write .string field).toList ++ ':' :: (format.write kind value).toList) ::
      others.written format values

/-- The format writes JSON without blanks. A text is written as some literal that stands for it. -/
structure Format.Writes (format : Format E) : Prop where
  boolean (b : Bool) : (format.write .boolean b).toList = (if b then "true" else "false").toList
  string (s : String) : ∃ ps cs, (format.write .string s).toList = '"' :: cs ∧ LiteralForm ps cs ∧
    Means ps s.toList
  missing (kind : Kind) : (format.write (.optional kind) none).toList = "null".toList
  present (kind : Kind) (value : kind.Value) :
    format.write (.optional kind) (some value) = format.write kind value
  sequence (kind : Kind) (values : List kind.Value) :
    (format.write (.sequence kind) values).toList =
      '[' :: [','].intercalate (values.map fun value => (format.write kind value).toList) ++ [']']
  record (name : String) (fields : Fields) (values : fields.Values) :
    (format.write (.record name fields) values).toList =
      '{' :: [','].intercalate (fields.written format values) ++ ['}']

end

/-! ## Reading -/

section

variable (decode : (kind : Kind) → Document → Option kind.Value)

/-- The value of a field after a member that names it. -/
def setOnce {α : Type} (read : Document → Option α) (old : Option α) (document : Document) :
    Option (Option α) :=
  match old with
  | some _ => none
  | none => (read document).map some

namespace Fields

/-- What a value under a name makes of the values found so far. -/
def visit : (fields : Fields) → String → Document → fields.Found → Option fields.Found
  | .nil, _, document, () => if document.isWhole then some () else none
  | .cons field kind others, name, document, (old, rest) =>
    if name = field then (setOnce (decode kind) old document).map fun new => (new, rest)
    else (others.visit name document rest).map fun rest => (old, rest)

def visitMember (fields : Fields) (found : fields.Found) (m : Member) : Option fields.Found := do
  fields.visit decode (← text? m.1) m.2 found

/-- A field that was not set has the value that stands for its absence, if there is one. -/
def finish : (fields : Fields) → fields.Found → Option fields.Values
  | .nil, () => some ()
  | .cons _ kind others, (found, rest) => do return (← found.or kind.absent?, ← others.finish rest)

/-- The fields of a record in object form. -/
def ofMembers (fields : Fields) (members : List Member) : Option fields.Values := do
  fields.finish (← members.foldlM (fields.visitMember decode) fields.nothing)

/-- The fields of a record in array form, one item for each of them. -/
def ofItems : (fields : Fields) → List Document → Option fields.Values
  | .nil, [] => some ()
  | .cons _ kind others, item :: items => do return (← decode kind item, ← others.ofItems items)
  | _, _ => none

end Fields

/-- What documents stand for as values of each kind. -/
structure Decodes : Prop where
  boolean (d : Document) : decode .boolean d =
    match d with
    | .boolean b => some b
    | _ => none
  string (d : Document) : decode .string d =
    match d with
    | .string ps => text? ps
    | _ => none
  missing (kind : Kind) : decode (.optional kind) .null = some none
  present (kind : Kind) {d : Document} : d ≠ .null →
    decode (.optional kind) d = (decode kind d).map some
  sequence (kind : Kind) (d : Document) : decode (.sequence kind) d =
    match d with
    | .array items true => items.mapM (decode kind)
    | _ => none
  record (name : String) (fields : Fields) (d : Document) : decode (.record name fields) d =
    match d with
    | .object members true => fields.ofMembers decode members
    | .array items true => fields.ofItems decode items
    | _ => none

/-- The format reads the texts of documents, as long as the containers that it reads are not nested more
than 127 deep. -/
structure Format.Reads {E : Type} (format : Format E) : Prop extends Decodes decode where
  read_eq_ok {kind : Kind} {text : String} {value : kind.Value} : kind.depth < 128 →
    (format.read kind text = .ok value ↔
      ∃ d : Document, d.isWhole = true ∧ HasText d.tokens text.toList ∧ decode kind d = some value)

end

end ShapeVM.Json
