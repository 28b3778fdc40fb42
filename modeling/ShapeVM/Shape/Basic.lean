import Std.Data.ExtTreeMap
import ShapeVM.Value

/-!
Shapes. A shape records which keys an object has and in which order they were added: the root has
none, and every other shape is its parent with one more key. The position of a key in that order is
its offset, the slot in which an object of this shape keeps the value.
-/
namespace ShapeVM

/-- The root of a table has number 0; the table numbers the other shapes as it makes them. A shape
keeps its table, its size and its offsets at hand. -/
inductive Shape where
  | root (table : TableId)
  | child (parent : Shape) (id : Nat) (key : Key)
with
  @[computed_field] table : Shape → TableId
    | .root table => table
    | .child parent _ _ => parent.table
  @[computed_field] size : Shape → Nat
    | .root _ => 0
    | .child parent _ _ => parent.size + 1
  /-- Offsets have 32 bits. -/
  @[computed_field] offsets : Shape → Std.ExtTreeMap Key UInt32
    | .root _ => ∅
    | .child parent _ key => parent.offsets.insert key parent.size.toUInt32
  deriving DecidableEq

namespace Shape

@[simp] theorem table_root (table : TableId) : (root table).table = table := rfl

@[simp] theorem table_child (parent : Shape) (id : Nat) (key : Key) :
    (child parent id key).table = parent.table := rfl

@[simp] theorem size_root (table : TableId) : (root table).size = 0 := rfl

@[simp] theorem size_child (parent : Shape) (id : Nat) (key : Key) :
    (child parent id key).size = parent.size + 1 := rfl

def id : Shape → Nat
  | root _ => 0
  | child _ id _ => id

def parent? : Shape → Option Shape
  | root _ => none
  | child parent _ _ => some parent

/-- The key by which a shape differs from its parent. -/
def key? : Shape → Option Key
  | root _ => none
  | child _ _ key => some key

def isRoot (s : Shape) : Bool := s.parent?.isNone

/-- The keys in the order of their offsets. -/
def keys : Shape → Array Key
  | root _ => #[]
  | child parent _ key => parent.keys.push key

def offset? (s : Shape) (key : Key) : Option UInt32 := s.offsets[key]?

@[simp] theorem offset?_root (table : TableId) (key : Key) : (root table).offset? key = none := by
  simp [offset?, offsets]

theorem offset?_child (parent : Shape) (id : Nat) (last key : Key) :
    (child parent id last).offset? key =
      if last = key then some parent.size.toUInt32 else parent.offset? key := by
  simp [offset?, offsets, Std.ExtTreeMap.getElem?_insert]

def contains (s : Shape) (key : Key) : Bool := (s.offset? key).isSome

@[simp] theorem contains_root (table : TableId) (key : Key) : (root table).contains key = false := by
  simp [contains]

theorem contains_child (parent : Shape) (id : Nat) (last key : Key) :
    (child parent id last).contains key = (decide (last = key) || parent.contains key) := by
  simp only [contains, offset?_child]
  split <;> simp_all

/-- The offset of the key by which a shape differs from its parent. -/
def lastOffset? (s : Shape) : Option UInt32 :=
  s.key?.map fun _ => s.size.toUInt32 - 1

/-- Shapes are compared by identity: the table and the number within it, never the keys. -/
def same (s t : Shape) : Bool :=
  s.id == t.id && s.table == t.table

end Shape

/-- Where the objects of a shape keep a property. -/
structure Location where
  shape : Shape
  offset : UInt32
  deriving DecidableEq

end ShapeVM
