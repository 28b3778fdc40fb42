import Mathlib.Data.Finset.Card
import ShapeVM.Proofs.Shape.Limits

/-!
The budget of a table. Of the pairs of a shape and a key that a table was ever asked for, those that
leave room for another property draw on its budget of shapes, each of them once (`Serves`): the first
request makes the shape while there is one left, a repeated one finds it, and one that is refused takes
nothing. So the table has as many shapes as there are such pairs, beside the root, or as many as its
limit says.
-/
namespace ShapeVM.ShapeTable

variable {t t' : ShapeTable} {s : Shape} {key : Key} {pairs : Finset (Shape × Key)}

/-- The table's shapes are the root and one for each of the pairs, up to its limit. -/
structure Serves (t : ShapeTable) (pairs : Finset (Shape × Key)) : Prop where
  edge : ∀ {source key target}, t.target? source key = some target →
    ∃ s, t.Holds s ∧ s.id = source ∧ (s, key) ∈ pairs
  served : ∀ {s key}, (s, key) ∈ pairs →
    (∃ target, t.target? s.id key = some target) ∨ t.maxShapes ≤ t.shapeCount
  count : t.shapeCount = min (max 1 t.maxShapes) (1 + pairs.card)

theorem serves_ofLimits (id : TableId) (limits : Limits) : (ofLimits id limits).Serves ∅ where
  edge := by
    intro source key target known
    simp [ofLimits, target?] at known
  served := by
    intro s key mem
    cases Finset.notMem_empty _ mem
  count := (Nat.min_eq_right (Nat.le_max_left ..)).symm

namespace Serves

variable (serves : t.Serves pairs)
include serves

/-- A transition that the table knows was asked for. -/
theorem mem_of_known {target : Shape} (w : t.WellFormed) (held : t.Holds s)
    (known : t.target? s.id key = some target) : (s, key) ∈ pairs := by
  obtain ⟨s', held', same, mem⟩ := serves.edge known
  rwa [w.unique held' held same] at mem

theorem made (held : t.Holds s) (unknown : t.target? s.id key = none) (room : t.Room s) :
    (t.extend s key).2.Serves (insert (s, key) pairs) where
  edge := by
    intro source k target known
    rw [target?_extend] at known
    split at known
    · next same =>
      obtain ⟨rfl, rfl⟩ := same
      exact ⟨s, held.extends (extends_extend unknown), rfl, Finset.mem_insert_self ..⟩
    · obtain ⟨s', held', named, mem⟩ := serves.edge known
      exact ⟨s', held'.extends (extends_extend unknown), named, Finset.mem_insert_of_mem mem⟩
  served := by
    intro s' k mem
    rcases Finset.mem_insert.1 mem with new | old
    · cases new
      exact .inl ⟨_, by rw [target?_extend, if_pos ⟨rfl, rfl⟩]⟩
    · rcases serves.served old with ⟨target, known⟩ | full
      · exact .inl ⟨target, (extends_extend unknown).target known⟩
      · exact absurd full (Nat.not_le.2 room.2)
  count := by
    -- A pair that was asked for before would be known, unless the table were full.
    have new : (s, key) ∉ pairs := by
      intro mem
      rcases serves.served mem with ⟨target, known⟩ | full
      · cases unknown.symm.trans known
      · exact absurd full (Nat.not_le.2 room.2)
    have count := serves.count
    have room := room.2
    rw [Finset.card_insert_of_notMem new]
    change t.shapeCount + 1 = min (max 1 t.maxShapes) (1 + (pairs.card + 1))
    omega

theorem refused (full : t.maxShapes ≤ t.shapeCount) : t.Serves (insert (s, key) pairs) where
  edge := by
    intro source k target known
    obtain ⟨s', held', named, mem⟩ := serves.edge known
    exact ⟨s', held', named, Finset.mem_insert_of_mem mem⟩
  served := by
    intro s' k mem
    exact .inr full
  count := by
    -- The count has reached its cap, so that it stays where it is with a pair more.
    have count := serves.count
    have more := Finset.card_le_card (Finset.subset_insert (s, key) pairs)
    omega

/-- One more request. -/
theorem requested (w : t.WellFormed) (held : t.Holds s) (requested : t.Requested s key t') :
    t'.Serves (if s.size < t.maxShapeProperties then insert (s, key) pairs else pairs) := by
  cases requested with
  | known known =>
    have mem := serves.mem_of_known w held known
    rwa [Finset.insert_eq_of_mem mem, ite_self]
  | made unknown room isMade =>
    rw [if_pos room.1, isMade]
    exact serves.made held unknown room
  | refused unknown full =>
    split
    · next small =>
      exact serves.refused (Nat.le_of_not_lt fun few => full ⟨small, few⟩)
    · exact serves

end Serves

end ShapeVM.ShapeTable
