import ShapeVM.Proofs.Shape.Table

/-!
Shapes as key orders. Within a table a shape is determined by its keys in their order
(`WellFormed.eq_of_keys_eq`), since each path from the root is in the table once. So a transition that
succeeded once succeeds ever after, and leads to the same shape (`WellFormed.transition_later`): either
it never left its shape, or its edge is in the table, and a known edge meets no limit.
-/
namespace ShapeVM.ShapeTable.WellFormed

variable {t t' t'' : ShapeTable} {s s' target : Shape} {key : Key}

/-- One path from the root for each order of keys. -/
theorem eq_of_keys_eq (w : t.WellFormed) (held : t.Holds s) (held' : t.Holds s')
    (same : s.keys = s'.keys) : s = s' := by
  induction s generalizing s' with
  | root id =>
    cases s' with
    | root id' =>
      have here : id = t.id := w.table_eq held
      have here' : id' = t.id := w.table_eq held'
      rw [here, here']
    | child parent' id' key' =>
      rw [Shape.keys, Shape.keys] at same
      exact (Array.push_ne_empty same.symm).elim
  | child parent id key ih =>
    cases s' with
    | root id' =>
      rw [Shape.keys, Shape.keys] at same
      exact (Array.push_ne_empty same).elim
    | child parent' id' key' =>
      rw [Shape.keys, Shape.keys, Array.push_eq_push] at same
      obtain ⟨rfl, sameParent⟩ := same
      obtain ⟨heldParent, known, _⟩ := w.of_child held
      obtain ⟨heldParent', known', _⟩ := w.of_child held'
      obtain rfl := ih heldParent heldParent' sameParent
      exact Option.some.inj (known.symm.trans known')

/-- The identity of a shape says as much as its keys do. -/
theorem same_iff_keys_eq (w : t.WellFormed) (held : t.Holds s) (held' : t.Holds s') :
    s.same s' = true ↔ s.keys = s'.keys := by
  rw [w.same_iff held held']
  exact ⟨congrArg Shape.keys, w.eq_of_keys_eq held held'⟩

/-- A transition to a shape that the table has handed out meets no limit. -/
theorem transition_of_keys_eq (w : t.WellFormed) (held : t.Holds s) (held' : t.Holds target)
    (added : target.keys = s.keys.push key) : t.transition s key = (.ok target, t) := by
  cases target with
  | root id =>
    rw [Shape.keys] at added
    exact (Array.push_ne_empty added.symm).elim
  | child parent id last =>
    rw [Shape.keys, Array.push_eq_push] at added
    obtain ⟨rfl, sameParent⟩ := added
    obtain ⟨heldParent, known, absent, _⟩ := w.of_child held'
    obtain rfl := w.eq_of_keys_eq heldParent held sameParent
    simp [ShapeTable.transition, absent, known]

theorem keys_of_transition (w : t.WellFormed) (held : t.Holds s)
    (done : t.transition s key = (.ok target, t')) (absent : s.contains key = false) :
    target.keys = s.keys.push key := by
  obtain ⟨_, _, _, isChild⟩ := w.transition held done
  rw [isChild absent, Shape.keys]

/-- A transition that succeeded once succeeds ever after, with the same result. -/
theorem transition_later (w : t.WellFormed) (held : t.Holds s)
    (done : t.transition s key = (.ok target, t')) (le : t'.Extends t'') (w'' : t''.WellFormed) :
    t''.transition s key = (.ok target, t'') := by
  obtain ⟨_, grown, held', _⟩ := w.transition held done
  cases contained : s.contains key with
  | true =>
    rw [ShapeTable.transition, if_pos contained] at done ⊢
    cases done
    rfl
  | false =>
    have added := w.keys_of_transition held done contained
    exact w''.transition_of_keys_eq (held.extends (grown.trans le)) (held'.extends le) added

end ShapeVM.ShapeTable.WellFormed
