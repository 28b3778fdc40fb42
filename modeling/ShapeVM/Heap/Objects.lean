import ShapeVM.Heap.Frames

/-!
Access to any object by key: plain objects, arguments objects, and frames seen as objects.
-/
namespace ShapeVM.Heap

/-- What a key reads as; a key that is not there reads as nothing. -/
def read (h : Heap) (o : ObjectRef) (key : Key) : Checked (Option Value) :=
  match o with
  | .ordinary id => do (← h.object id).get? key
  | .arguments id => do (← h.argumentsObject id).get? key
  | .activation id => do (← h.frame id).getByKey key

/-- Reads a key. Through a frame this can hand out its arguments object. -/
def get (h : Heap) (o : ObjectRef) (key : Key) : Checked (Option Value × Heap) := do
  let value ← h.read o key
  match o, value with
  | .activation _, some v => return (value, h.handOut v)
  | _, _ => return (value, h)

def put (h : Heap) (o : ObjectRef) (key : Key) (value : Value) : Checked Heap :=
  match o with
  | .ordinary id => do
    let s ← h.object id
    let (s, t) ← s.insert (← h.table s.table) key value
    return (h.setTable t).setObject id s
  | .arguments id => do
    let a ← h.argumentsObject id
    let (a, t) ← a.put (← h.table a.properties.table) key value
    (h.setTable t).setArgumentsObject id a
  | .activation id => do
    let f ← h.frame id
    let (f, t) ← f.putByKey (← h.table f.properties.table) key value
    return (h.setTable t).setFrame f

def has (h : Heap) (o : ObjectRef) (key : Key) : Checked Bool :=
  match o with
  | .ordinary id => do return (← h.object id).contains key
  | .arguments id => do (← h.argumentsObject id).has key
  | .activation id => do return (← h.frame id).hasKey key

def delete (h : Heap) (o : ObjectRef) (key : Key) : Checked (Bool × Heap) :=
  match o with
  | .ordinary id => do
    let (s, deleted) := (← h.object id).erase key
    return (deleted, h.setObject id s)
  | .arguments id => do
    let (a, deleted) ← (← h.argumentsObject id).delete key
    return (deleted, ← h.setArgumentsObject id a)
  | .activation id => do
    let (f, deleted) := (← h.frame id).deleteKey key
    return (deleted, h.setFrame f)

def keys (h : Heap) (o : ObjectRef) : Checked (List Key) :=
  match o with
  | .ordinary id => do return (← h.object id).keys
  | .arguments id => do return (← h.argumentsObject id).keys
  | .activation id => do return (← h.frame id).keys

def getIndex (h : Heap) (o : ObjectRef) (i : UInt32) : Checked (Option Value × Heap) :=
  h.get o (.index i)

def putIndex (h : Heap) (o : ObjectRef) (i : UInt32) (value : Value) : Checked Heap :=
  h.put o (.index i) value

end ShapeVM.Heap
