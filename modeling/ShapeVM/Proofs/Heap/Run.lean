import ShapeVM.Proofs.Heap.Access
import ShapeVM.Proofs.Shape.Table

/-!
Runs. An operation is what a program can ask of a heap; a run is a history of operations, the newest
first, each of which the heap allowed and performed. A heap is reachable if a run leads to it from the
empty one: so it is one with any number of tables of any limits, and of objects, frames, arguments
objects and caches that share them.
-/
namespace ShapeVM

inductive Operation where
  | makeTable (limits : Limits)
  | makeFunction (code : Function)
  | makeObject (table : TableId)
  | makeFrame (table : TableId) (function : FunctionRef) (args : Array Value)
    (objectConstructor : Value)
  | makeCache (key : Key)
  | makeSiteCaches (code : Function)
  | transition (table : TableId) (shape : Shape) (key : Key)
  | get (o : ObjectRef) (key : Key)
  | put (o : ObjectRef) (key : Key) (value : Value)
  | delete (o : ObjectRef) (key : Key)
  | fetch (cache : CacheRef) (target : ObjectId)
  | store (cache : CacheRef) (target : ObjectId) (value : Value)
  | resetCache (cache : CacheRef)
  | getBinding (frame : FrameId) (i : UInt32)
  | setBinding (frame : FrameId) (i : UInt32) (value : Value)
  | setConstBinding (frame : FrameId) (i : UInt32) (value : Value)
  | setParent (frame parent : FrameId)
  | arguments (frame : FrameId)
  | argumentsValue (frame : FrameId)

namespace Operation

/-- An element of an arguments object is its property by an index. -/
def putArgument (frame : FrameId) (i : UInt32) (value : Value) : Operation :=
  .put (.arguments frame) (.index i) value

def deleteArgument (frame : FrameId) (i : UInt32) : Operation :=
  .delete (.arguments frame) (.index i)

end Operation

namespace Heap

/-- The heap after an operation. What the operation answers is the answer of the function that is
called here. -/
def perform (h : Heap) : Operation → Checked Heap
  | .makeTable limits => return (h.allocTable limits).2
  | .makeFunction code => return (h.allocFunction code).2
  | .makeObject table => return (h.allocObject table).2
  | .makeFrame table function args objectConstructor =>
    return (h.allocFrame table function args objectConstructor).2
  | .makeCache key => return (h.allocCache key).2
  | .makeSiteCaches code => return (h.allocSiteCaches code).2
  | .transition table shape key => return (← h.transition table shape key).2
  | .get o key => return (← h.get o key).2
  | .put o key value => h.put o key value
  | .delete o key => return (← h.delete o key).2
  | .fetch cache target => return (← h.fetch cache target).2
  | .store cache target value => h.store cache target value
  | .resetCache cache => h.resetCache cache
  | .getBinding frame i => return (← h.getBinding frame i).2
  | .setBinding frame i value => h.setBinding frame i value
  | .setConstBinding frame i value => h.setConstBinding frame i value
  | .setParent frame parent => h.setParent frame parent
  | .arguments frame => return (← h.arguments frame).2
  | .argumentsValue frame => return (← h.argumentsValue frame).2

/-- A program makes things for a table that is there, and extends a shape that the table has handed
out. -/
def Allows (h : Heap) : Operation → Prop
  | .makeObject table | .makeFrame table _ _ _ => ∃ t, h.table table = .ok t
  | .transition table shape _ => ∃ t, h.table table = .ok t ∧ t.Holds shape
  | _ => True

structure Step (h : Heap) (op : Operation) (h' : Heap) : Prop where
  allowed : h.Allows op
  performed : h.perform op = .ok h'

/-- The history of a run, the newest operation first. -/
inductive Runs (start : Heap) : List Operation → Heap → Prop
  | start : Runs start [] start
  | step {ops : List Operation} {h : Heap} {op : Operation} {h' : Heap} :
    Runs start ops h → h.Step op h' → Runs start (op :: ops) h'

def Reachable (h : Heap) : Prop := ∃ ops, Runs {} ops h

theorem Runs.trans {start h h' : Heap} {ops ops' : List Operation} (runs : start.Runs ops h)
    (later : h.Runs ops' h') : start.Runs (ops' ++ ops) h' := by
  induction later with
  | start => exact runs
  | step _ step ih => exact .step ih step

theorem Reachable.runs {h h' : Heap} {ops : List Operation} (reachable : h.Reachable)
    (runs : h.Runs ops h') : h'.Reachable := by
  obtain ⟨older, reached⟩ := reachable
  exact ⟨ops ++ older, reached.trans runs⟩

end Heap

end ShapeVM
