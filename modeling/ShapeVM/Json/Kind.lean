/-!
Kinds of values. A format knows nothing of a type but its kind: whether its values are booleans, texts,
values that may be missing, sequences, or records with named fields in the order in which they are
declared. A format writes the values of every kind as texts and reads texts as such values.
-/
namespace ShapeVM.Json

mutual

inductive Kind where
  | boolean
  | string
  | optional (kind : Kind)
  | sequence (kind : Kind)
  | record (name : String) (fields : Fields)

inductive Fields where
  | nil
  | cons (field : String) (kind : Kind) (others : Fields)

end

mutual

@[reducible] def Kind.Value : Kind → Type
  | .boolean => Bool
  | .string => String
  | .optional kind => Option kind.Value
  | .sequence kind => List kind.Value
  | .record _ fields => fields.Values

@[reducible] def Fields.Values : Fields → Type
  | .nil => Unit
  | .cons _ kind others => kind.Value × others.Values

end

/-- A format for values of every kind. Reading may fail with an error of the format's own. -/
structure Format (E : Type) where
  write : (kind : Kind) → kind.Value → String
  read : (kind : Kind) → String → Except E kind.Value

/-- What stands for a value that is left out of a record. -/
def Kind.absent? : (kind : Kind) → Option kind.Value
  | .optional _ => some none
  | _ => none

namespace Fields

def names : Fields → List String
  | nil => []
  | cons field _ others => field :: others.names

def length : Fields → Nat
  | nil => 0
  | cons _ _ others => others.length + 1

/-- The values of some of the fields. -/
@[reducible] def Found : Fields → Type
  | nil => Unit
  | cons _ kind others => Option kind.Value × others.Found

def nothing : (fields : Fields) → fields.Found
  | nil => ()
  | cons _ _ others => (none, others.nothing)

end Fields

end ShapeVM.Json
