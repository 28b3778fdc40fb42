import ShapeVM.Heap.Basic

/-!
Access to plain objects through the caches of the heap.
-/
namespace ShapeVM.Heap

/-- A site that the function does not have has no cache. -/
def cache? (h : Heap) : CacheRef → Option Cache
  | .single id => h.caches[id.index]?
  | .site owner i => do (← h.siteCaches[owner.index]?).caches.get? i

def cache (h : Heap) (ref : CacheRef) : Checked Cache :=
  match h.cache? ref with
  | some c => .ok c
  | none => .error .dangling

def setCache (h : Heap) (ref : CacheRef) (c : Cache) : Heap :=
  match ref with
  | .single id => { h with caches := h.caches.setIfInBounds id.index c }
  | .site owner i =>
    { h with
      siteCaches := h.siteCaches.modify owner.index fun v => ⟨v.caches.set i c⟩ }

def fetch (h : Heap) (ref : CacheRef) (target : ObjectId) : Checked (Option Value × Heap) := do
  let (value, c) ← (← h.cache ref).fetch (← h.object target)
  return (value, h.setCache ref c)

def store (h : Heap) (ref : CacheRef) (target : ObjectId) (value : Value) : Checked Heap := do
  let c ← h.cache ref
  let s ← h.object target
  let (s, t, c) ← c.store s (← h.table s.table) value
  return ((h.setTable t).setObject target s).setCache ref c

def resetCache (h : Heap) (ref : CacheRef) : Checked Heap := do
  return h.setCache ref (← h.cache ref).reset

end ShapeVM.Heap
