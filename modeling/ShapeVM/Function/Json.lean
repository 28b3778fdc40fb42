import ShapeVM.Function.Basic
import ShapeVM.Json.Kind

/-!
The JSON form of functions, in whichever format: a function and its flags are records with all their
fields, under names of their own.
-/
namespace ShapeVM

open Json

def FunctionFlags.kind : Kind := .record "FunctionFlags" (.cons "uses_eval" .boolean .nil)

namespace Function

def fields : Fields :=
  .cons "name" (.optional .string) <|
  .cons "flags" FunctionFlags.kind <|
  .cons "param_names" (.sequence .string) <|
  .cons "local_names" (.sequence .string) <|
  .cons "property_sites" (.sequence .string) .nil

def kind : Kind := .record "Function" fields

def toValue (f : Function) : kind.Value :=
  (f.name, (f.flags.usesEval, ()), f.paramNames, f.localNames, f.propertySites, ())

def ofValue : kind.Value → Function
  | (name, (usesEval, ()), paramNames, localNames, propertySites, ()) =>
    { name, flags := { usesEval }, paramNames, localNames, propertySites }

variable {E : Type}

def toJson (format : Format E) (f : Function) : String := format.write kind f.toValue

def ofJson (format : Format E) (text : String) : Except E Function := ofValue <$> format.read kind text

end Function

end ShapeVM
