import ShapeVM.Refusal

/-!
Functions as the runtime sees them: the names of their bindings and of the properties they access, and
whether they call eval. Bindings are numbered, parameters first and then locals.
-/
namespace ShapeVM

structure FunctionFlags where
  usesEval : Bool := false
  deriving DecidableEq

structure Function where
  name : Option String := none
  flags : FunctionFlags := {}
  paramNames : List String := []
  localNames : List String := []
  /-- One property name for each place in the code that accesses a property. -/
  propertySites : List String := []
  deriving DecidableEq

namespace Function

def displayName (f : Function) : String :=
  f.name.getD "<anonymous>"

def paramCount (f : Function) : UInt32 := f.paramNames.length.toUInt32

def localCount (f : Function) : UInt32 := f.localNames.length.toUInt32

/-- A 32-bit sum; a function that was accepted is far from its wrap. -/
def bindingCount (f : Function) : UInt32 := f.paramCount + f.localCount

def bindingName? (f : Function) (index : UInt32) : Option String :=
  if index.toNat < f.paramNames.length then f.paramNames[index.toNat]?
  else f.localNames[index.toNat - f.paramNames.length]?

def checkBindings (f : Function) (limit : UInt32) : Except Refusal Unit :=
  let count := f.paramNames.length + f.localNames.length
  if limit.toNat < count then .error (.codeLimit (.bindings f.displayName count limit))
  else .ok ()

/-- The checks that precede compilation. A function that calls eval is refused for that, whatever its
size. -/
def accept (f : Function) (limit : UInt32) : Except Refusal Function :=
  if f.flags.usesEval then .error (.unoptimizable (.callsEval f.displayName))
  else (f.checkBindings limit).map fun _ => f

end Function

end ShapeVM
