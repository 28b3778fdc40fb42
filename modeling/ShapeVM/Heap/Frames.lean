import ShapeVM.Heap.Basic

/-!
Frames and arguments objects in the heap. A frame's arguments object is built when a reference to it
is first handed out; until then only the frame can reach the arguments.
-/
namespace ShapeVM.Heap

/-- Builds the arguments object that a value read from a frame refers to. -/
def handOut (h : Heap) : Value → Heap
  | .object (.arguments id) =>
    match h.frame id with
    | .ok f => h.setFrame f.withArguments
    | .error _ => h
  | _ => h

def getBinding (h : Heap) (id : FrameId) (i : UInt32) : Checked (Value × Heap) := do
  let value ← (← h.frame id).get i
  return (value, h.handOut value)

def setBinding (h : Heap) (id : FrameId) (i : UInt32) (value : Value) : Checked Heap := do
  return h.setFrame (← (← h.frame id).set i value)

def setConstBinding (h : Heap) (id : FrameId) (i : UInt32) (value : Value) : Checked Heap := do
  return h.setFrame (← (← h.frame id).setConst i value)

def isConstBinding (h : Heap) (id : FrameId) (i : UInt32) : Checked Bool := do
  (← h.frame id).isConst i

def setParent (h : Heap) (id parent : FrameId) : Checked Heap := do
  return h.setFrame { ← h.frame id with parent := some parent }

/-- The arguments object of a frame. -/
def arguments (h : Heap) (id : FrameId) : Checked (ObjectRef × Heap) := do
  return (.arguments id, h.setFrame (← h.frame id).withArguments)

/-- What the frame's program sees in the place of the arguments object. -/
def argumentsValue (h : Heap) (id : FrameId) : Checked (Value × Heap) := do
  let value := (← h.frame id).argumentsValue
  return (value, h.handOut value)

def getArgument (h : Heap) (id : FrameId) (i : UInt32) : Checked (Option Value) := do
  (← h.argumentsObject id).getIndex i

/-- Replaces an arguments object, and with it the arguments that the frame shares. -/
def setArgumentsObject (h : Heap) (id : FrameId) (a : ArgumentsObject) : Checked Heap := do
  return h.setFrame ((← h.frame id).setArgumentsObject a)

def putArgument (h : Heap) (id : FrameId) (i : UInt32) (value : Value) : Checked Heap := do
  let a ← h.argumentsObject id
  let (a, t) ← a.putIndex (← h.table a.properties.table) i value
  (h.setTable t).setArgumentsObject id a

def hasArgument (h : Heap) (id : FrameId) (i : UInt32) : Checked Bool := do
  (← h.argumentsObject id).hasIndex i

def deleteArgument (h : Heap) (id : FrameId) (i : UInt32) : Checked (Bool × Heap) := do
  let (a, deleted) ← (← h.argumentsObject id).deleteIndex i
  return (deleted, ← h.setArgumentsObject id a)

def argumentDescriptor? (h : Heap) (id : FrameId) (i : UInt32) :
    Checked (Option PropertyDescriptor) := do
  (← h.argumentsObject id).descriptor? i

end ShapeVM.Heap
