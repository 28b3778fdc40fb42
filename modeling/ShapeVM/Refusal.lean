/-!
Refusals. The fast tier declines work that goes past a class limit or that it cannot optimise, and the
caller runs the interpreter instead.
-/
namespace ShapeVM

/-- Why work was declined. -/
inductive Reason where
  | shapeProperties (limit : Nat)
  | tableShapes (limit : Nat)
  | bindings (function : String) (count : Nat) (limit : UInt32)
  | callsEval (function : String)
  /-- A reason in the embedding program's own words. -/
  | stated (text : String)
  deriving DecidableEq

def Reason.message : Reason → String
  | shapeProperties limit => s!"shape exceeds {limit} properties"
  | tableShapes limit => s!"shape table exceeds {limit} shapes"
  | bindings function count limit =>
    s!"function {function} declares {count} bindings, limit is {limit}"
  | callsEval function => s!"function {function} calls eval"
  | stated text => text

/-- A limit on a function's code is found before anything runs; the other class limits are found
while shapes grow. -/
inductive Refusal where
  | classLimit (reason : Reason)
  | codeLimit (reason : Reason)
  | unoptimizable (reason : Reason)
  deriving DecidableEq

namespace Refusal

def codeMessage (reason : Reason) : String :=
  "class limit exceeded: " ++ reason.message

def message : Refusal → String
  | classLimit reason => "ClassLimitError: " ++ reason.message
  | codeLimit reason => "Bytecode error: " ++ codeMessage reason
  | unoptimizable reason => "Unoptimizable: " ++ reason.message

def isClassLimit : Refusal → Bool
  | classLimit _ | codeLimit _ => true
  | unoptimizable _ => false

def requiresInterpreter (r : Refusal) : Bool :=
  r.isClassLimit || r matches unoptimizable _

end Refusal

/-- Runs the interpreted attempt only when the optimized one was refused for a reason that the
interpreter does not share. -/
def withFallback {m : Type → Type} [Monad m] {α : Type}
    (optimized interpreted : m (Except Refusal α)) : m (Except Refusal α) := do
  match ← optimized with
  | .error refusal =>
    if refusal.requiresInterpreter then interpreted else return .error refusal
  | .ok a => return .ok a

end ShapeVM
