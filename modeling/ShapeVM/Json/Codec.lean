import ShapeVM.Json.Kind
import ShapeVM.Json.ReadError

/-!
The codec. Values are written without blanks, a record with its fields in the order in which they are
declared. They are read with blanks, the fields of a record in any order and among other members, or as
the items of an array.
-/
namespace ShapeVM.Json

namespace Codec

/-! ## Writing -/

def writeBoolean : Bool → List Char
  | true => "true".toList
  | false => "false".toList

def writeArray (items : List (List Char)) : List Char :=
  '[' :: List.intercalate [','] items ++ [']']

def writeMember (field : String) (value : List Char) : List Char :=
  StringLiteral.write field ++ ':' :: value

def writeObject (members : List (List Char)) : List Char :=
  '{' :: List.intercalate [','] members ++ ['}']

mutual

def write : (kind : Kind) → kind.Value → List Char
  | .boolean, b => writeBoolean b
  | .string, s => StringLiteral.write s
  | .optional _, none => "null".toList
  | .optional kind, some value => write kind value
  | .sequence kind, values => writeArray (values.map (write kind))
  | .record _ fields, values => writeObject (writeFields fields values)

def writeFields : (fields : Fields) → fields.Values → List (List Char)
  | .nil, () => []
  | .cons field kind others, (value, values) =>
    writeMember field (write kind value) :: writeFields others values

end

/-! ## Reading -/

def readBoolean : Document → Except ReadError Bool
  | .boolean b => .ok b
  | other => .error (.wrongDocument other .boolean)

def readString : Document → Except ReadError String
  | .string s =>
    match StringLiteral.text? s with
    | some text => .ok text
    | none => .error .malformed
  | other => .error (.wrongDocument other .string)

def readKey (key : List Piece) : Except ReadError String :=
  match StringLiteral.text? key with
  | some name => .ok name
  | none => .error .malformed

/-- What a container holds is read before it is asked for its end. -/
def closing {α : Type} (closed : Bool) (a : α) : Except ReadError α :=
  if closed then .ok a else .error .malformed

/-- A member that no field asks for only has to be well-formed. -/
def skip (document : Document) : Except ReadError Unit :=
  closing document.isWhole ()

/-- Sets a field that a record in object form gives, unless it has been given before. -/
def once {α : Type} (field : String) (old : Option α) (new : Except ReadError α) :
    Except ReadError (Option α) :=
  if old.isSome then .error (.duplicateField field) else some <$> new

def required {α : Type} (field : String) : Option α → Except ReadError α
  | some a => .ok a
  | none => .error (.missingField field)

/-- Only a field whose value may be missing may be left out. -/
def complete : (fields : Fields) → fields.Found → Except ReadError fields.Values
  | .nil, () => .ok ()
  | .cons field kind others, (found, rest) => do
    return (← required field (found.or kind.absent?), ← complete others rest)

/-- The item for a field of a record in array form. -/
def item (items : List Document) (closed : Bool) (record : Expected) (i : Nat) :
    Except ReadError Document :=
  match items[i]? with
  | some document => .ok document
  | none => if closed then .error (.tooShort i record) else .error .malformed

mutual

def read : (kind : Kind) → Document → Except ReadError kind.Value
  | .boolean, document => readBoolean document
  | .string, document => readString document
  | .optional _, .null => .ok none
  | .optional kind, document => some <$> read kind document
  | .sequence kind, .array items closed => do closing closed (← items.mapM (read kind))
  | .sequence _, other => .error (.wrongDocument other .sequence)
  | .record _ fields, .object members closed => do
    let found ← members.foldlM (fun found m => do readField fields (← readKey m.1) m.2 found)
      fields.nothing
    complete fields (← closing closed found)
  | .record name fields, .array items closed => do
    let values ← readItems fields (.record name fields.length) items closed 0
    closing (closed && items.length = fields.length) values
  | .record name fields, other => .error (.wrongDocument other (.record name fields.length))

def readField : (fields : Fields) → String → Document → fields.Found →
    Except ReadError fields.Found
  | .nil, _, document, () => skip document
  | .cons field kind others, name, document, (old, rest) => do
    if name = field then return (← once field old (read kind document), rest)
    else return (old, ← readField others name document rest)

def readItems : (fields : Fields) → Expected → List Document → Bool → Nat →
    Except ReadError fields.Values
  | .nil, _, _, _, _ => .ok ()
  | .cons _ kind others, record, items, closed, i => do
    let value ← read kind (← item items closed record i)
    return (value, ← readItems others record items closed (i + 1))

end

end Codec

/-- The first fault in the order of the text decides; text after the value is the last. -/
def codec : Format ReadError where
  write kind value := String.ofList (Codec.write kind value)
  read kind text := do
    let (document, ended) := Document.ofString text
    Codec.closing ended (← Codec.read kind document)

end ShapeVM.Json
