import ShapeVM.Cells
import ShapeVM.Value

/-!
Argument lists. The caller's array is shared by everyone it was passed to; the first write to a list
ends the sharing, and the caller's array stays as it was.
-/
namespace ShapeVM

structure ArgumentList where
  cells : Cells Value
  deriving DecidableEq

namespace ArgumentList

def ofArray (passed : Array Value) : ArgumentList := ⟨{ initial := passed }⟩

def values (a : ArgumentList) : Array Value := a.cells.toArray

def size (a : ArgumentList) : Nat := a.cells.size

def get? (a : ArgumentList) (i : Nat) : Option Value := a.cells.get? i

/-- No list grows: past its end nothing is written. -/
def set? (a : ArgumentList) (i : Nat) (value : Value) : Option ArgumentList :=
  if i < a.size then some ⟨a.cells.set i value⟩ else none

def isShared (a : ArgumentList) : Bool := !a.cells.isWritten

end ArgumentList

end ShapeVM
