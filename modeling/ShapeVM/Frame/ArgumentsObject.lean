import ShapeVM.Frame.ArgumentList
import ShapeVM.Properties.Store

/-!
Arguments objects. An index below the number of arguments that was never deleted is the argument
itself, shared with the frame; everything else is a property of the object. Three built-in names can
be hidden by properties of the same name but not deleted.
-/
namespace ShapeVM

/-- What an arguments object has of its own. The flags of deleted indices are made by the first
deletion. -/
structure ArgumentsState where
  length : Value
  callee : Value
  objectConstructor : Value
  deleted : Option (Array Bool) := none
  properties : PropertyStore
  deriving DecidableEq

/-- An arguments object together with the argument list it shares with its frame. -/
structure ArgumentsObject extends ArgumentsState where
  args : ArgumentList
  deriving DecidableEq

structure PropertyDescriptor where
  value : Value
  writable : Bool
  enumerable : Bool
  configurable : Bool
  deriving DecidableEq

def PropertyDescriptor.data (value : Value) : PropertyDescriptor :=
  ⟨value, true, true, true⟩

namespace ArgumentsObject

def size (a : ArgumentsObject) : Nat := a.args.size

/-- Whether an index still is the argument at that position. -/
def isLinked (a : ArgumentsObject) (i : UInt32) : Checked Bool :=
  if i.toNat < a.size then
    match a.deleted with
    | none => return true
    | some flags => return !(← readAt flags i.toNat)
  else return false

def getIndex (a : ArgumentsObject) (i : UInt32) : Checked (Option Value) := do
  if ← a.isLinked i then return a.args.get? i.toNat
  else a.properties.get? (.index i)

def putIndex (a : ArgumentsObject) (t : ShapeTable) (i : UInt32) (value : Value) :
    Checked (ArgumentsObject × ShapeTable) := do
  if ← a.isLinked i then
    return ({ a with args := (a.args.set? i.toNat value).getD a.args }, t)
  else
    let (properties, t) ← a.properties.insert t (.index i) value
    return ({ a with properties := properties }, t)

def hasIndex (a : ArgumentsObject) (i : UInt32) : Checked Bool := do
  return (← a.isLinked i) || a.properties.contains (.index i)

/-- Unlinks an argument for good. Deletion always succeeds. -/
def deleteIndex (a : ArgumentsObject) (i : UInt32) : Checked (ArgumentsObject × Bool) := do
  let deleted ←
    if i.toNat < a.size then
      some <$> writeAt (a.deleted.getD (Array.replicate a.size false)) i.toNat true
    else pure a.deleted
  return ({ a with deleted := deleted, properties := (a.properties.erase (.index i)).1 }, true)

def builtin? (a : ArgumentsObject) : String → Option Value
  | "length" => some a.length
  | "callee" => some a.callee
  | "constructor" => some a.objectConstructor
  | _ => none

def get? (a : ArgumentsObject) : Key → Checked (Option Value)
  | .index i => a.getIndex i
  | .name s => do return (← a.properties.get? (.name s)) <|> a.builtin? s

def put (a : ArgumentsObject) (t : ShapeTable) (key : Key) (value : Value) :
    Checked (ArgumentsObject × ShapeTable) :=
  match key with
  | .index i => a.putIndex t i value
  | .name s => do
    let (properties, t) ← a.properties.insert t (.name s) value
    return ({ a with properties := properties }, t)

def has (a : ArgumentsObject) : Key → Checked Bool
  | .index i => a.hasIndex i
  | .name s => return a.properties.contains (.name s) || (a.builtin? s).isSome

def delete (a : ArgumentsObject) : Key → Checked (ArgumentsObject × Bool)
  | .index i => a.deleteIndex i
  | .name s => return ({ a with properties := (a.properties.erase (.name s)).1 }, true)

/-- A property of the object comes before the argument at the same index. -/
def descriptor? (a : ArgumentsObject) (i : UInt32) : Checked (Option PropertyDescriptor) := do
  let value ←
    if !(← a.isLinked i) || a.properties.contains (.index i) then a.properties.get? (.index i)
    else pure (a.args.get? i.toNat)
  return value.map .data

/-- The indices of all the arguments, deleted or not, and nothing else. -/
def keys (a : ArgumentsObject) : List Key :=
  (List.range a.size.toUInt32.toNat).map fun i => .index i.toUInt32

end ArgumentsObject

end ShapeVM
