import Std.Data.ExtTreeMap
import ShapeVM.Fault

/-!
Cells. A row of cells is filled from an array and then written one cell at a time. The array may be
shared with others and stays as it was; what is written is kept beside it. No row grows.
-/
namespace ShapeVM

structure Cells (α : Type) where
  initial : Array α
  written : Std.ExtTreeMap Nat α := ∅
  deriving DecidableEq

namespace Cells

variable {α : Type}

def size (c : Cells α) : Nat := c.initial.size

def get? (c : Cells α) (i : Nat) : Option α :=
  c.initial[i]?.map (c.written.getD i ·)

/-- Past the end nothing is written. -/
def set (c : Cells α) (i : Nat) (x : α) : Cells α :=
  if i < c.size then { c with written := c.written.insert i x } else c

def isWritten (c : Cells α) : Bool := !c.written.isEmpty

def toArray (c : Cells α) : Array α :=
  c.initial.mapIdx fun i x => c.written.getD i x

/-- A read that is an error past the end. -/
def read (c : Cells α) (i : Nat) : Checked α :=
  match c.get? i with
  | some x => .ok x
  | none => .error (.outOfRange c.size i)

/-- A write that is an error past the end. -/
def write (c : Cells α) (i : Nat) (x : α) : Checked (Cells α) :=
  if i < c.size then .ok (c.set i x) else .error (.outOfRange c.size i)

@[simp] theorem size_set (c : Cells α) (i : Nat) (x : α) : (c.set i x).size = c.size := by
  simp only [set]
  split <;> rfl

theorem isSome_get? (c : Cells α) (i : Nat) : (c.get? i).isSome = decide (i < c.size) := by
  simp only [get?, size, Option.isSome_map]
  grind

theorem getElem?_toArray (c : Cells α) (i : Nat) : c.toArray[i]? = c.get? i := by
  rw [toArray, Array.getElem?_mapIdx, get?]

theorem get?_set (c : Cells α) (i j : Nat) (x : α) :
    (c.set i x).get? j = if i = j ∧ i < c.size then some x else c.get? j := by
  simp only [set]
  split
  · next h =>
    by_cases hij : i = j
    · subst hij
      simp [get?, h, show i < c.initial.size from h]
    · simp [get?, Std.ExtTreeMap.getD_insert, hij]
  · next h => simp [h]

end Cells

end ShapeVM
