/-!
The limits of a realm: how many shapes its table may hold, how many properties a shape may have, and
how many bindings a function may declare.
-/
namespace ShapeVM

structure Limits where
  maxShapes : Nat := 1048576
  maxShapeProperties : Nat := 1024
  maxBindings : UInt32 := 65535
  deriving DecidableEq

end ShapeVM
