import ShapeVM.Frame.ArgumentList

/-!
Writing an argument. The list takes its copy with the first write inside it and with nothing else, and
the array that the caller passed stays what it was.
-/
namespace ShapeVM.ArgumentList

variable (a : ArgumentList) (i j : Nat) (value : Value)

/-- The list with one argument replaced; past its end it stays as it is. -/
def replace : ArgumentList := (a.set? i value).getD a

theorem replace_eq : a.replace i value = if i < a.size then ⟨a.cells.set i value⟩ else a := by
  rw [replace, set?]
  split
  · rfl
  · rfl

@[simp] theorem size_replace : (a.replace i value).size = a.size := by
  rw [replace_eq]
  split
  · exact Cells.size_set ..
  · rfl

@[simp] theorem initial_replace : (a.replace i value).cells.initial = a.cells.initial := by
  rw [replace_eq]
  split
  · simp only [Cells.set]
    split
    · rfl
    · rfl
  · rfl

theorem get?_replace :
    (a.replace i value).get? j = if i = j ∧ i < a.size then some value else a.get? j := by
  rw [replace_eq]
  split
  · exact Cells.get?_set ..
  · next outside => rw [if_neg fun both => outside both.2]

theorem get?_replace_of_ne {i j : UInt32} (apart : i ≠ j) (value : Value) :
    (a.replace i.toNat value).get? j.toNat = a.get? j.toNat := by
  rw [get?_replace, if_neg fun both => apart (UInt32.toNat_inj.1 both.1)]

theorem isSome_get? : (a.get? i).isSome = decide (i < a.size) := Cells.isSome_get? ..

variable {a i} in
theorem isShared_replace (inside : i < a.size) : (a.replace i value).isShared = false := by
  rw [replace_eq, if_pos inside]
  have inside' : i < a.cells.size := inside
  simp [isShared, Cells.isWritten, Cells.set, inside']

@[simp] theorem size_ofArray (passed : Array Value) : (ofArray passed).size = passed.size := rfl

@[simp] theorem get?_ofArray (passed : Array Value) (i : Nat) :
    (ofArray passed).get? i = passed[i]? := by
  simp [ofArray, get?, Cells.get?]

@[simp] theorem isShared_ofArray (passed : Array Value) : (ofArray passed).isShared = true := by
  simp [ofArray, isShared, Cells.isWritten]

end ShapeVM.ArgumentList
