import ShapeVM.Shape.Basic
import ShapeVM.Limits

/-!
Shape tables. A table makes each shape once: adding a key to a shape follows the recorded transition if
there is one, and otherwise makes the next shape, unless that would break a limit of the table.
-/
namespace ShapeVM

/-- The addition of a key to the shape numbered `source`. -/
structure Edge where
  source : Nat
  key : Key
  deriving DecidableEq

namespace Edge

/-- Edges from one shape stand together, in the order of their keys. -/
instance : Ord Edge where
  compare := compareLex (compareOn source) (compareOn key)

theorem compare_def (a b : Edge) :
    compare a b = (compare a.source b.source).then (compare a.key b.key) := rfl

instance : Std.TransOrd Edge :=
  inferInstanceAs (Std.TransCmp (compareLex (compareOn source) (compareOn key)))

instance : Std.LawfulEqOrd Edge where
  eq_of_compare {a b} h := by
    rw [compare_def, Ordering.then_eq_eq] at h
    cases a
    cases b
    simp_all

end Edge

/-- A table counts its shapes and numbers them, each by a counter of its own. Neither counter passes
the limit on shapes, unless that is below the one shape that every table has. -/
structure ShapeTable where
  id : TableId
  maxShapes : Nat
  maxShapeProperties : Nat
  transitions : Std.ExtTreeMap Edge Shape := ∅
  /-- The number of the next shape that is made. -/
  nextId : Nat := 1
  shapeCount : Nat := 1

namespace ShapeTable

def ofLimits (id : TableId) (limits : Limits) : ShapeTable where
  id := id
  maxShapes := limits.maxShapes
  maxShapeProperties := limits.maxShapeProperties

def root (t : ShapeTable) : Shape := .root t.id

def transitionCount (t : ShapeTable) : Nat := t.transitions.size

def target? (t : ShapeTable) (source : Nat) (key : Key) : Option Shape :=
  t.transitions[Edge.mk source key]?

/-- Makes the shape that adds `key` to `s`: it is counted, takes the next number, and is recorded as the
target of its transition. -/
def extend (t : ShapeTable) (s : Shape) (key : Key) : Shape × ShapeTable :=
  let made := Shape.child s t.nextId key
  (made, { t with
    transitions := t.transitions.insert ⟨s.id, key⟩ made
    nextId := t.nextId + 1
    shapeCount := t.shapeCount + 1 })

theorem target?_extend (t : ShapeTable) (s : Shape) (key : Key) (source : Nat) (k : Key) :
    (t.extend s key).2.target? source k =
      if s.id = source ∧ key = k then some (t.extend s key).1 else t.target? source k := by
  simp [extend, target?, Std.ExtTreeMap.getElem?_insert]

/-- The shape with the keys of `s` and then `key`, and the table afterwards. A key that `s` has already
and a transition that is known already never meet a limit, and of two limits the one on properties is
met first. A number is taken only once both limits have let the shape through. -/
def transition (t : ShapeTable) (s : Shape) (key : Key) : Except Refusal Shape × ShapeTable :=
  if s.contains key then (.ok s, t)
  else
    match t.target? s.id key with
    | some target => (.ok target, t)
    | none =>
      if t.maxShapeProperties ≤ s.size then
        (.error (.classLimit (.shapeProperties t.maxShapeProperties)), t)
      else if t.maxShapes ≤ t.shapeCount then (.error (.classLimit (.tableShapes t.maxShapes)), t)
      else
        let (made, t) := t.extend s key
        (.ok made, t)

end ShapeTable

end ShapeVM
