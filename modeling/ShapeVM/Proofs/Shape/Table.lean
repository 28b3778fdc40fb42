import ShapeVM.Shape.Table
import ShapeVM.Proofs.Shape.Offsets

/-!
Tables as tries. The shapes that a table has handed out are its root and the targets of its
transitions. Every one of them is a child of another by the key of its transition, and its number is
its own, so a transition from the number of a shape is a transition from that shape.

A transition only ever adds to a table (`Extends`), and keeps it well-formed (`WellFormed.transition`).
-/
namespace ShapeVM.ShapeTable

variable {t t' t'' : ShapeTable} {s s' target : Shape} {key : Key} {source : Nat}

/-! ## What a transition does -/

/-- The three ways in which a transition succeeds. -/
theorem transition_eq_ok (h : t.transition s key = (.ok target, t')) :
    (s.contains key = true ∧ t' = t ∧ target = s) ∨
      (s.contains key = false ∧ t.target? s.id key = some target ∧ t' = t) ∨
      (s.contains key = false ∧ t.target? s.id key = none ∧ s.size < t.maxShapeProperties ∧
        t.shapeCount < t.maxShapes ∧ t' = (t.extend s key).2 ∧ target = (t.extend s key).1) := by
  simp only [transition] at h
  split at h
  · next present =>
    cases h
    exact .inl ⟨present, rfl, rfl⟩
  · next absent =>
    rw [Bool.not_eq_true] at absent
    split at h
    · next known =>
      cases h
      exact .inr (.inl ⟨absent, known, rfl⟩)
    · next unknown =>
      split at h
      · cases h
      · next small =>
        split at h
        · cases h
        · next room =>
          cases h
          exact .inr (.inr ⟨absent, unknown, Nat.lt_of_not_le small, Nat.lt_of_not_le room, rfl, rfl⟩)

/-- A refusal changes neither counter and no transition. -/
theorem eq_of_transition_eq_error {refusal : Refusal}
    (h : t.transition s key = (.error refusal, t')) : t' = t := by
  simp only [transition] at h
  split at h
  · cases h
  · split at h
    · cases h
    · split at h
      · cases h
        rfl
      · split at h
        · cases h
          rfl
        · cases h

/-! ## Growth -/

/-- The table `t'` is `t` at a later time. -/
structure Extends (t t' : ShapeTable) : Prop where
  id : t'.id = t.id
  maxShapes : t'.maxShapes = t.maxShapes
  maxShapeProperties : t'.maxShapeProperties = t.maxShapeProperties
  target : ∀ {source key s}, t.target? source key = some s → t'.target? source key = some s

namespace Extends

theorem rfl : t.Extends t := ⟨.refl _, .refl _, .refl _, fun known => known⟩

theorem trans (h : t.Extends t') (h' : t'.Extends t'') : t.Extends t'' where
  id := h'.id.trans h.id
  maxShapes := h'.maxShapes.trans h.maxShapes
  maxShapeProperties := h'.maxShapeProperties.trans h.maxShapeProperties
  target known := h'.target (h.target known)

end Extends

theorem extends_extend (unknown : t.target? s.id key = none) : t.Extends (t.extend s key).2 where
  id := rfl
  maxShapes := rfl
  maxShapeProperties := rfl
  target := by
    intro source k target known
    rw [target?_extend, if_neg]
    · exact known
    · rintro ⟨rfl, rfl⟩
      rw [known] at unknown
      cases unknown

/-- A shape that is made is one more transition. -/
theorem transitionCount_extend (unknown : t.target? s.id key = none) :
    (t.extend s key).2.transitionCount = t.transitionCount + 1 := by
  have new : t.transitions.contains ⟨s.id, key⟩ = false := by
    rw [Std.ExtTreeMap.contains_eq_isSome_getElem?, ← target?, unknown, Option.isSome_none]
  simp [extend, transitionCount, Std.ExtTreeMap.size_insert, new]

/-- Offsets reach every slot of every shape that the table allows. -/
def Addressable (t : ShapeTable) : Prop := t.maxShapeProperties < UInt32.size

instance (t : ShapeTable) : Decidable t.Addressable :=
  inferInstanceAs (Decidable (t.maxShapeProperties < UInt32.size))

theorem Addressable.extends (h : t.Addressable) (le : t.Extends t') : t'.Addressable := by
  rwa [Addressable, le.maxShapeProperties]

/-! ## The shapes of a table -/

/-- The shapes that a table has handed out. -/
def Holds (t : ShapeTable) (s : Shape) : Prop :=
  s = t.root ∨ ∃ source key, t.target? source key = some s

theorem holds_root (t : ShapeTable) : t.Holds t.root := .inl rfl

theorem holds_of_target? (h : t.target? source key = some s) : t.Holds s := .inr ⟨source, key, h⟩

theorem Holds.extends (h : t.Holds s) (le : t.Extends t') : t'.Holds s := by
  rcases h with rfl | ⟨source, key, known⟩
  · rw [root, ← le.id]
    exact .inl rfl
  · exact .inr ⟨source, key, le.target known⟩

theorem holds_extend (unknown : t.target? s.id key = none) :
    (t.extend s key).2.Holds s' ↔ t.Holds s' ∨ s' = (t.extend s key).1 := by
  constructor
  · rintro (rfl | ⟨source, k, known⟩)
    · exact .inl (.inl rfl)
    · rw [target?_extend] at known
      split at known
      · exact .inr (Option.some.inj known).symm
      · exact .inl (.inr ⟨source, k, known⟩)
  · rintro (held | rfl)
    · exact held.extends (extends_extend unknown)
    · exact .inr ⟨s.id, key, by rw [target?_extend, if_pos ⟨rfl, rfl⟩]⟩

/-- What keeps a table a trie. -/
structure WellFormed (t : ShapeTable) : Prop where
  count : t.shapeCount = t.transitionCount + 1
  /-- The two counters are in step. -/
  next : t.nextId = t.shapeCount
  edge : ∀ {source key target}, t.target? source key = some target →
    ∃ parent, t.Holds parent ∧ parent.id = source ∧ parent.contains key = false ∧
      parent.size < t.maxShapeProperties ∧ target = .child parent target.id key ∧
      parent.id < target.id ∧ target.id < t.shapeCount
  unique : ∀ {s s'}, t.Holds s → t.Holds s' → s.id = s'.id → s = s'
  numbered : ∀ {n}, n < t.shapeCount → ∃ s, t.Holds s ∧ s.id = n

theorem wellFormed_ofLimits (id : TableId) (limits : Limits) : (ofLimits id limits).WellFormed := by
  have none {source key} : (ofLimits id limits).target? source key = none := by
    simp [ofLimits, target?]
  have only {s} (h : (ofLimits id limits).Holds s) : s = (ofLimits id limits).root := by
    rcases h with rfl | ⟨source, key, known⟩
    · rfl
    · rw [none] at known
      cases known
  refine ⟨rfl, rfl, fun known => ?_, fun h h' _ => (only h).trans (only h').symm, fun {n} lt => ?_⟩
  · rw [none] at known
    cases known
  · obtain rfl : n = 0 := Nat.lt_one_iff.1 lt
    exact ⟨_, holds_root _, rfl⟩

namespace WellFormed

variable (w : t.WellFormed)
include w

theorem id_lt (h : t.Holds s) : s.id < t.shapeCount := by
  rcases h with rfl | ⟨source, key, known⟩
  · rw [w.count]
    exact Nat.succ_pos _
  · obtain ⟨_, _, _, _, _, _, _, lt⟩ := w.edge known
    exact lt

/-- The number that the next shape gets is new. -/
theorem id_lt_nextId (h : t.Holds s) : s.id < t.nextId := w.next ▸ w.id_lt h

/-- A known transition from the number of a shape leads to a child of the shape. -/
theorem target?_eq (h : t.Holds s) (known : t.target? s.id key = some target) :
    target = .child s target.id key := by
  obtain ⟨parent, held, same, _, _, eq, _⟩ := w.edge known
  rwa [w.unique held h same] at eq

/-- A shape that is not the root is in the table by the transition from its parent. -/
theorem of_child {parent : Shape} {id : Nat} (h : t.Holds (.child parent id key)) :
    t.Holds parent ∧ t.target? parent.id key = some (.child parent id key) ∧
      parent.contains key = false ∧ parent.size < t.maxShapeProperties ∧ parent.id < id := by
  rcases h with h | ⟨source, k, known⟩
  · cases h
  · obtain ⟨p, held, rfl, absent, small, eq, lt, _⟩ := w.edge known
    cases eq
    exact ⟨held, known, absent, small, lt⟩

theorem table_eq (h : t.Holds s) : s.table = t.id := by
  induction s with
  | root id =>
    rcases h with h | ⟨_, _, known⟩
    · cases h
      rfl
    · obtain ⟨_, _, _, _, _, eq, _⟩ := w.edge known
      cases eq
  | child parent id key ih => exact ih (w.of_child h).1

theorem distinct (h : t.Holds s) : s.Distinct := by
  induction s with
  | root => trivial
  | child parent id key ih =>
    obtain ⟨held, _, absent, _⟩ := w.of_child h
    exact ⟨absent, ih held⟩

theorem size_le (h : t.Holds s) : s.size ≤ t.maxShapeProperties := by
  cases s with
  | root => exact Nat.zero_le _
  | child parent id key =>
    obtain ⟨_, _, _, small, _⟩ := w.of_child h
    exact small

theorem size_le_of_addressable (h : t.Holds s) (small : t.Addressable) : s.size ≤ UInt32.size :=
  Nat.le_of_lt (Nat.lt_of_le_of_lt (w.size_le h) small)

/-- Within a table, shapes of one number are one shape. -/
theorem same_iff (h : t.Holds s) (h' : t.Holds s') : s.same s' = true ↔ s = s' := by
  simp only [Shape.same, Bool.and_eq_true, beq_iff_eq]
  exact ⟨fun eq => w.unique h h' eq.1, fun eq => eq ▸ ⟨rfl, rfl⟩⟩

theorem extend (h : t.Holds s) (absent : s.contains key = false)
    (unknown : t.target? s.id key = none) (small : s.size < t.maxShapeProperties) :
    (t.extend s key).2.WellFormed where
  count := by
    rw [transitionCount_extend unknown, ← w.count]
    rfl
  next := congrArg (· + 1) w.next
  edge := by
    intro source k target known
    rw [target?_extend] at known
    split at known
    · next same =>
      obtain ⟨rfl, rfl⟩ := same
      cases known
      exact ⟨s, h.extends (extends_extend unknown), rfl, absent, small, rfl, w.id_lt_nextId h,
        Nat.lt_succ_of_le (Nat.le_of_eq w.next)⟩
    · obtain ⟨parent, held, eq, new, little, isChild, lt, bound⟩ := w.edge known
      exact ⟨parent, held.extends (extends_extend unknown), eq, new, little, isChild, lt,
        Nat.lt_succ_of_lt bound⟩
  unique := by
    intro a b ha hb same
    rw [holds_extend unknown] at ha hb
    have fresh {s'} (held : t.Holds s') : s'.id ≠ t.nextId := Nat.ne_of_lt (w.id_lt_nextId held)
    rcases ha with ha | rfl <;> rcases hb with hb | rfl
    · exact w.unique ha hb same
    · exact (fresh ha same).elim
    · exact (fresh hb same.symm).elim
    · rfl
  numbered := by
    intro n lt
    rcases Nat.lt_or_eq_of_le (Nat.le_of_lt_succ lt) with lt | rfl
    · obtain ⟨s', held, eq⟩ := w.numbered lt
      exact ⟨s', held.extends (extends_extend unknown), eq⟩
    · exact ⟨_, (holds_extend unknown).2 (.inr rfl), w.next⟩

/-- A transition from a shape of the table leads to a shape of the table. -/
theorem transition (h : t.Holds s) (done : t.transition s key = (.ok target, t')) :
    t'.WellFormed ∧ t.Extends t' ∧ t'.Holds target ∧
      (s.contains key = false → target = .child s target.id key) := by
  rcases transition_eq_ok done with ⟨present, rfl, rfl⟩ | ⟨_, known, rfl⟩ |
    ⟨absent, unknown, small, _, rfl, rfl⟩
  · exact ⟨w, .rfl, h, by simp [present]⟩
  · exact ⟨w, .rfl, holds_of_target? known, fun _ => w.target?_eq h known⟩
  · exact ⟨w.extend h absent unknown small, extends_extend unknown,
      (holds_extend unknown).2 (.inr rfl), fun _ => rfl⟩

end WellFormed

end ShapeVM.ShapeTable
