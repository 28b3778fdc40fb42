import ShapeVM.Cache
import ShapeVM.Frame.Basic

/-!
The heap holds everything that has an identity: shape tables, objects, frames and caches. Nothing is
ever removed from it, so a reference that it has given out stays good.
-/
namespace ShapeVM

@[ext] structure CacheId where
  index : Nat
  deriving DecidableEq

@[ext] structure SiteCachesId where
  index : Nat
  deriving DecidableEq

/-- A cache on its own, or the cache at a site of a function. -/
inductive CacheRef where
  | single (id : CacheId)
  | site (owner : SiteCachesId) (index : Nat)
  deriving DecidableEq

structure Heap where
  tables : Array ShapeTable := #[]
  objects : Array PropertyStore := #[]
  frames : Array Frame := #[]
  caches : Array Cache := #[]
  siteCaches : Array SiteCaches := #[]
  functionCount : Nat := 0

/-- A realm is a shape table with the limits it was made for and the constructor of its plain
objects. -/
structure Realm where
  table : TableId
  limits : Limits
  objectConstructor : FunctionRef

namespace Heap

def resolve {α : Type} (xs : Array α) (i : Nat) : Checked α :=
  match xs[i]? with
  | some x => .ok x
  | none => .error .dangling

def table (h : Heap) (id : TableId) : Checked ShapeTable := resolve h.tables id.index

def object (h : Heap) (id : ObjectId) : Checked PropertyStore := resolve h.objects id.index

def frame (h : Heap) (id : FrameId) : Checked Frame := resolve h.frames id.index

/-- The arguments object of a frame is there once it has been asked for. -/
def argumentsObject (h : Heap) (id : FrameId) : Checked ArgumentsObject := do
  match (← h.frame id).argumentsObject? with
  | some a => return a
  | none => .error .dangling

def setTable (h : Heap) (t : ShapeTable) : Heap :=
  { h with tables := h.tables.setIfInBounds t.id.index t }

def setObject (h : Heap) (id : ObjectId) (s : PropertyStore) : Heap :=
  { h with objects := h.objects.setIfInBounds id.index s }

def setFrame (h : Heap) (f : Frame) : Heap :=
  { h with frames := h.frames.setIfInBounds f.id.index f }

/-! ## Making things -/

def allocTable (h : Heap) (limits : Limits) : TableId × Heap :=
  let id : TableId := ⟨h.tables.size⟩
  (id, { h with tables := h.tables.push (.ofLimits id limits) })

def allocFunction (h : Heap) (code : Function) : FunctionRef × Heap :=
  ({ id := ⟨h.functionCount⟩, code }, { h with functionCount := h.functionCount + 1 })

def allocRealm (h : Heap) (limits : Limits) : Realm × Heap :=
  let (objectConstructor, h) := h.allocFunction { name := some "Object" }
  let (table, h) := h.allocTable limits
  ({ table, limits, objectConstructor }, h)

def allocObject (h : Heap) (table : TableId) : ObjectId × Heap :=
  (⟨h.objects.size⟩, { h with objects := h.objects.push (.empty table) })

def allocFrame (h : Heap) (table : TableId) (function : FunctionRef) (args : Array Value)
    (objectConstructor : Value) : FrameId × Heap :=
  let id : FrameId := ⟨h.frames.size⟩
  (id, { h with frames := h.frames.push (.ofCall id table function args objectConstructor) })

def allocCache (h : Heap) (key : Key) : CacheId × Heap :=
  (⟨h.caches.size⟩, { h with caches := h.caches.push { key } })

def allocSiteCaches (h : Heap) (f : Function) : SiteCachesId × Heap :=
  (⟨h.siteCaches.size⟩, { h with siteCaches := h.siteCaches.push (.ofFunction f) })

/-- Takes a function into the fast tier, under a new identity. -/
def prepare (h : Heap) (r : Realm) (f : Function) : Except Refusal (FunctionRef × Heap) :=
  (f.accept r.limits.maxBindings).map h.allocFunction

/-- A call in a realm. -/
def activate (h : Heap) (r : Realm) (function : FunctionRef) (args : Array Value) :
    FrameId × Heap :=
  h.allocFrame r.table function args (.function r.objectConstructor)

/-! ## Shapes -/

def transition (h : Heap) (table : TableId) (s : Shape) (key : Key) :
    Checked (Except Refusal Shape × Heap) := do
  let (answer, t) := (← h.table table).transition s key
  return (answer, h.setTable t)

end Heap

end ShapeVM
