import ShapeVM.Cells
import ShapeVM.Properties.Store

/-!
Inline caches. A cache stands at one place in the code that accesses one key, and remembers where the
last object that was accessed there keeps that property. An object of the same shape is then accessed
without a search.
-/
namespace ShapeVM

/-- A hit is an access that the remembered location served, a miss any other. The counts have 64 bits
and wrap. -/
structure Cache where
  key : Key
  binding : Option Location := none
  hits : UInt64 := 0
  misses : UInt64 := 0
  deriving DecidableEq

namespace Cache

def isBound (c : Cache) : Bool := c.binding.isSome

def bind (c : Cache) (location : Location) : Cache := { c with binding := some location }

/-- Binds the cache where there is something to bind it to. -/
def bindFound (c : Cache) : Option Location → Cache
  | some location => c.bind location
  | none => c

def unbind (c : Cache) : Cache := { c with binding := none }

def countHit (c : Cache) : Cache := { c with hits := c.hits + 1 }

def countMiss (c : Cache) : Cache := { c with misses := c.misses + 1 }

/-- Reads the key of an object. A location that does not serve is forgotten, and the cache is bound
again only if the search finds the key in a slot. -/
def fetch (c : Cache) (s : PropertyStore) : Checked (Option Value × Cache) := do
  let mut c := c
  if let some location := c.binding then
    if let some value ← s.readLocated location then
      return (some value, c.countHit)
    c := c.unbind
  c := c.countMiss
  let found ← s.lookup c.key
  return (found.value, c.bindFound found.location?)

/-- Writes the key of an object, which can gain it or become a dictionary by that. -/
def store (c : Cache) (s : PropertyStore) (t : ShapeTable) (value : Value) :
    Checked (PropertyStore × ShapeTable × Cache) := do
  let mut c := c
  if let some location := c.binding then
    if let some s ← s.writeLocated location value then
      return (s, t, c.countHit)
    c := c.unbind
  c := c.countMiss
  let (s, t, location?) ← s.insertLocated t c.key value
  return (s, t, c.bindFound location?)

/-- Forgets the location and the counts. -/
def reset (c : Cache) : Cache := { c.unbind with hits := 0, misses := 0 }

end Cache

/-- The caches of a function, one for each of its property sites. -/
structure SiteCaches where
  caches : Cells Cache
  deriving DecidableEq

namespace SiteCaches

def ofFunction (f : Function) : SiteCaches :=
  ⟨{ initial := (f.propertySites.map fun name => { key := .name name }).toArray }⟩

def size (v : SiteCaches) : Nat := v.caches.size

/-- The misses at all sites. The sum has 64 bits and wraps. -/
def misses (v : SiteCaches) : UInt64 := v.caches.toArray.foldl (fun n c => n + c.misses) 0

end SiteCaches

end ShapeVM
