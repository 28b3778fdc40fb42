/-!
Property keys. A key is a name or an array index; the name `0` and the index 0 are different keys.
Keys have an order, by which maps find them; nothing else depends on it.
-/
namespace ShapeVM

inductive Key where
  | name (s : String)
  | index (i : UInt32)
  deriving DecidableEq

namespace Key

def asName : Key → Option String
  | name s => some s
  | index _ => none

def asIndex : Key → Option UInt32
  | name _ => none
  | index i => some i

/-! ## The order of keys -/

/-- Names come before indices. -/
instance : Ord Key where
  compare
    | name s, name t => compare s t
    | name _, index _ => .lt
    | index _, name _ => .gt
    | index i, index j => compare i j

@[simp] theorem compare_name (s t : String) : compare (name s) (name t) = compare s t := rfl

@[simp] theorem compare_index (i j : UInt32) : compare (index i) (index j) = compare i j := rfl

@[simp] theorem compare_name_index (s : String) (i : UInt32) :
    compare (name s) (index i) = .lt := rfl

@[simp] theorem compare_index_name (i : UInt32) (s : String) :
    compare (index i) (name s) = .gt := rfl

instance : Std.TransOrd Key where
  eq_swap {a b} := by
    cases a <;> cases b <;>
      simp only [compare_name, compare_index, compare_name_index, compare_index_name,
        Ordering.swap_lt, Ordering.swap_gt] <;>
      exact Std.OrientedCmp.eq_swap
  isLE_trans {a b c} := by
    cases a <;> cases b <;> cases c <;>
      simp only [compare_name, compare_index, compare_name_index, compare_index_name] <;>
      first | exact Std.TransCmp.isLE_trans | simp

instance : Std.LawfulEqOrd Key where
  eq_of_compare {a b} := by cases a <;> cases b <;> simp

end Key

end ShapeVM
