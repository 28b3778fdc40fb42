import ShapeVM.Fault
import ShapeVM.Shape.Table
import ShapeVM.Properties.Entries

/-!
Property stores. While a store only ever gains keys, and its table accepts them, its layout is a shape
and a slot for each of the shape's keys. A deletion or a refused key makes it a dictionary for good.
-/
namespace ShapeVM

inductive Layout where
  | shaped (shape : Shape) (slots : Array Value)
  | dictionary (entries : Entries)
  deriving DecidableEq

structure PropertyStore where
  table : TableId
  layout : Layout
  deriving DecidableEq

/-- What a store knows about a key. A dictionary has no shape and no offsets. -/
structure Lookup where
  shape : Option Shape
  offset : Option UInt32
  value : Option Value
  deriving DecidableEq

def Lookup.location? (l : Lookup) : Option Location := do
  return ⟨← l.shape, ← l.offset⟩

namespace PropertyStore

/-- A new store has its table's root shape and no slots. -/
def empty (table : TableId) : PropertyStore where
  table := table
  layout := .shaped (.root table) #[]

def shape? (s : PropertyStore) : Option Shape :=
  match s.layout with
  | .shaped shape _ => some shape
  | .dictionary _ => none

def isDictionary (s : PropertyStore) : Bool := s.shape?.isNone

def size (s : PropertyStore) : Nat :=
  match s.layout with
  | .shaped shape _ => shape.size
  | .dictionary entries => entries.size

def keys (s : PropertyStore) : List Key :=
  match s.layout with
  | .shaped shape _ => shape.keys.toList
  | .dictionary entries => entries.keys

def contains (s : PropertyStore) (key : Key) : Bool :=
  match s.layout with
  | .shaped shape _ => shape.contains key
  | .dictionary entries => entries.contains key

def lookup (s : PropertyStore) (key : Key) : Checked Lookup :=
  match s.layout with
  | .shaped shape slots =>
    match shape.offset? key with
    | some offset => return ⟨some shape, some offset, some (← readAt slots offset.toNat)⟩
    | none => return ⟨some shape, none, none⟩
  | .dictionary entries => return ⟨none, none, entries.get? key⟩

def get? (s : PropertyStore) (key : Key) : Checked (Option Value) :=
  match s.layout with
  | .shaped shape slots =>
    match shape.offset? key with
    | some offset => return some (← readAt slots offset.toNat)
    | none => return none
  | .dictionary entries => return entries.get? key

/-- A key reads as the value with which it is looked up. -/
theorem get?_eq_lookup (s : PropertyStore) (key : Key) :
    s.get? key = (s.lookup key).map (·.value) := by
  obtain ⟨table, layout⟩ := s
  cases layout with
  | dictionary entries => rfl
  | shaped shape slots =>
    simp only [get?, lookup]
    cases shape.offset? key with
    | none => rfl
    | some offset => cases read : readAt slots offset.toNat <;> simp [read, Except.map]

theorem get?_of_lookup {s : PropertyStore} {key : Key} {found : Lookup}
    (searched : s.lookup key = .ok found) : s.get? key = .ok found.value := by
  rw [get?_eq_lookup, searched, Except.map]

/-- The value in a slot. It is for the caller to know that a shaped store has the slot; a dictionary
has no slots, and any of them reads as undefined. -/
def slot (s : PropertyStore) (offset : UInt32) : Checked Value :=
  match s.layout with
  | .shaped _ slots => readAt slots offset.toNat
  | .dictionary _ => return .undefined

/-- The properties of a shaped layout in the order of their offsets. -/
def entriesOf (shape : Shape) (slots : Array Value) : Entries :=
  .ofList (shape.keys.toList.zip slots.toList)

/-- Undefined slots at the end. -/
def pad (slots : Array Value) : Nat → Array Value
  | 0 => slots
  | n + 1 => pad (slots.push .undefined) n

def resize (slots : Array Value) (size : Nat) : Array Value :=
  if slots.size ≤ size then pad slots (size - slots.size) else slots.take size

/-- One slot more, written at once, is a slot pushed. -/
theorem writeAt_resize {slots : Array Value} {size : Nat} (more : size = slots.size + 1)
    (value : Value) : writeAt (resize slots size) (size - 1) value = .ok (slots.push value) := by
  subst more
  have resized : resize slots (slots.size + 1) = slots.push .undefined := by
    simp [resize, pad]
  rw [resized, Nat.add_sub_cancel, writeAt_of_lt (by simp), Array.push_eq_append,
    Array.setIfInBounds_append_right (Nat.le_refl _), Nat.sub_self, Array.push_eq_append]
  rfl

/-- Writes a property and says where it now is, unless that is in a dictionary. A present key is
overwritten in place; an absent one takes a shaped store to the next shape, or to a dictionary if
the table refuses. -/
def insertLocated (s : PropertyStore) (t : ShapeTable) (key : Key) (value : Value) :
    Checked (PropertyStore × ShapeTable × Option Location) :=
  match s.layout with
  | .shaped shape slots =>
    match shape.offset? key with
    | some offset => do
      let slots ← writeAt slots offset.toNat value
      return ({ s with layout := .shaped shape slots }, t, some ⟨shape, offset⟩)
    | none =>
      match t.transition shape key with
      | (.ok next, t) => do
        let slots ← writeAt (resize slots next.size) (next.size - 1) value
        return ({ s with layout := .shaped next slots }, t, some ⟨next, next.size.toUInt32 - 1⟩)
      | (.error _, t) =>
        return ({ s with layout := .dictionary ((entriesOf shape slots).insert key value) }, t, none)
  | .dictionary entries =>
    return ({ s with layout := .dictionary (entries.insert key value) }, t, none)

def insert (s : PropertyStore) (t : ShapeTable) (key : Key) (value : Value) :
    Checked (PropertyStore × ShapeTable) := do
  let (s, t, _) ← s.insertLocated t key value
  return (s, t)

/-- Deletes a property and says whether it was there. -/
def erase (s : PropertyStore) (key : Key) : PropertyStore × Bool :=
  if s.contains key then
    let entries :=
      match s.layout with
      | .shaped shape slots => entriesOf shape slots
      | .dictionary entries => entries
    ({ s with layout := .dictionary (entries.erase key) }, true)
  else (s, false)

/-- The value at a location, if the store still has the location's shape. -/
def readLocated (s : PropertyStore) (l : Location) : Checked (Option Value) :=
  match s.layout with
  | .shaped shape slots =>
    if shape.same l.shape then return some (← readAt slots l.offset.toNat) else return none
  | .dictionary _ => return none

/-- The store with the value at a location replaced, if it still has the location's shape. -/
def writeLocated (s : PropertyStore) (l : Location) (value : Value) :
    Checked (Option PropertyStore) :=
  match s.layout with
  | .shaped shape slots =>
    if shape.same l.shape then do
      let slots ← writeAt slots l.offset.toNat value
      return some { s with layout := .shaped shape slots }
    else return none
  | .dictionary _ => return none

end PropertyStore

end ShapeVM
