import ShapeVM.Proofs.Shape.Table

/-!
Chains of parents. A shape other than the root says by which key it differs from its parent and which
offset that key has. The way up from a shape takes one step for each of its keys and ends at the root
(`Shape.ancestor?_eq_root_iff`); a table that holds the shape holds all the shapes on the way
(`WellFormed.holds_ancestor?`).
-/
namespace ShapeVM

namespace Shape

variable {s parent ancestor : Shape} {id n : Nat} {key : Key}

/-! ## One step -/

theorem isRoot_iff : s.isRoot = true ↔ s = root s.table := by
  cases s with
  | root table => exact iff_of_true rfl rfl
  | child parent id key => exact iff_of_false Bool.false_ne_true Shape.noConfusion

/-- What a shape other than the root differs by from its parent, the root does without. -/
theorem eq_root_iff : s = root s.table ↔
    s.parent? = none ∧ s.key? = none ∧ s.lastOffset? = none ∧ s.keys = #[] := by
  cases s with
  | root table => exact iff_of_true rfl ⟨rfl, rfl, rfl, rfl⟩
  | child parent id key =>
    refine iff_of_false Shape.noConfusion ?_
    rintro ⟨⟨⟩, _⟩

/-- The last offset is that of the last key. -/
theorem lastOffset?_eq (s : Shape) : s.lastOffset? = s.key?.bind s.offset? := by
  cases s with
  | root table => rfl
  | child parent id key => exact (offset?_last parent id key).symm

theorem toNat_lastOffset?_child (large : (child parent id key).size ≤ UInt32.size) :
    (child parent id key).lastOffset?.map UInt32.toNat = some parent.size := by
  have isNumber : parent.size.toUInt32.toNat = parent.size := UInt32.toNat_ofNat_of_lt' large
  have isLast : (child parent id key).lastOffset? = some parent.size.toUInt32 := by
    rw [lastOffset?_eq, key?, Option.bind_some, offset?_child, if_pos rfl]
  rw [isLast, Option.map_some, isNumber]

/-! ## The way up -/

/-- The shape to which so many steps from a shape to its parent lead. -/
def ancestor? (s : Shape) : Nat → Option Shape
  | 0 => some s
  | n + 1 => s.parent?.bind fun parent => parent.ancestor? n

theorem ancestor?_child_succ (parent : Shape) (id : Nat) (key : Key) (n : Nat) :
    (child parent id key).ancestor? (n + 1) = parent.ancestor? n := rfl

/-- Each step up leaves a key behind. -/
theorem size_ancestor? (up : s.ancestor? n = some ancestor) : ancestor.size + n = s.size := by
  induction n generalizing s with
  | zero =>
    cases up
    rfl
  | succ n ih =>
    cases s with
    | root table => cases up
    | child parent id key =>
      rw [ancestor?_child_succ] at up
      rw [size_child, ← ih up, Nat.add_assoc]

theorem ancestor?_size (s : Shape) : s.ancestor? s.size = some (root s.table) := by
  induction s with
  | root table => rfl
  | child parent id key ih =>
    rw [size_child, ancestor?_child_succ, table_child]
    exact ih

theorem ancestor?_eq_root_iff : s.ancestor? n = some (root s.table) ↔ n = s.size := by
  constructor
  · intro up
    rw [← size_ancestor? up, size_root, Nat.zero_add]
  · rintro rfl
    exact ancestor?_size s

end Shape

namespace ShapeTable.WellFormed

variable {t : ShapeTable} {s ancestor : Shape} {n : Nat}

theorem holds_ancestor? (w : t.WellFormed) (held : t.Holds s) (up : s.ancestor? n = some ancestor) :
    t.Holds ancestor := by
  induction n generalizing s with
  | zero =>
    cases up
    exact held
  | succ n ih =>
    cases s with
    | root table => cases up
    | child parent id key => exact ih (w.of_child held).1 up

end ShapeTable.WellFormed

end ShapeVM
