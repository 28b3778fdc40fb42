import ShapeVM.Binary64.Rounding
import ShapeVM.Function.Scope

/-!
Values. Objects and functions are values by reference, and two references are the same when they name
the same thing; everything else is a value by content.
-/
namespace ShapeVM

@[ext] structure TableId where
  index : Nat
  deriving DecidableEq

@[ext] structure ObjectId where
  index : Nat
  deriving DecidableEq

@[ext] structure FrameId where
  index : Nat
  deriving DecidableEq

structure FunctionId where
  index : Nat
  deriving DecidableEq

/-- A function's code never changes, so a reference carries it and its scope. -/
structure FunctionRef where
  id : FunctionId
  code : Function
  scope : Scope code := {}
  deriving DecidableEq

/-- A frame and its arguments object are two objects; the frame's number names both. -/
inductive ObjectRef where
  | ordinary (id : ObjectId)
  | arguments (frame : FrameId)
  | activation (frame : FrameId)
  deriving DecidableEq

def ObjectRef.className : ObjectRef → String
  | ordinary _ => "Object"
  | arguments _ => "Arguments"
  | activation _ => "Call"

inductive Value where
  | undefined
  | null
  | boolean (b : Bool)
  | int32 (n : Int32)
  | number (x : Binary64)
  | string (s : String)
  | object (o : ObjectRef)
  | function (f : FunctionRef)
  deriving DecidableEq

namespace Value

def asInt32 : Value → Option Int32
  | int32 n => some n
  | _ => none

/-- Integers are numbers too, though they equal no number. -/
def asNumber : Value → Option Binary64
  | int32 n => some (Binary64.ofInt n.toInt)
  | number x => some x
  | _ => none

def asString : Value → Option String
  | string s => some s
  | _ => none

def asObject : Value → Option ObjectRef
  | object o => some o
  | _ => none

def asFunction : Value → Option FunctionRef
  | function f => some f
  | _ => none

/-- Equality as programs see it: no two kinds are equal, numbers compare as numbers, and functions by
identity. -/
def equal : Value → Value → Bool
  | undefined, undefined => true
  | null, null => true
  | boolean a, boolean b => a == b
  | int32 a, int32 b => a == b
  | number a, number b => a.equal b
  | string a, string b => a == b
  | object a, object b => a == b
  | function f, function g => f.id == g.id
  | _, _ => false

end Value

end ShapeVM
