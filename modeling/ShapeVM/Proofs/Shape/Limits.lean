import ShapeVM.Proofs.Shape.Table

/-!
The limits of a table. Adding to a shape a key that it does not have follows the transition if the
table knows it, whatever the limits; otherwise it makes a shape if both limits leave room, and is
refused if one does not. Only making a shape changes the table (`Requested`), and then by one shape and
one transition, so that a table never has more shapes than its limit says, the root apart
(`Requested.shapeCount_le`).
-/
namespace ShapeVM.ShapeTable

variable {t t' : ShapeTable} {s target : Shape} {key : Key}

/-- Both limits leave room for another child of the shape. -/
def Room (t : ShapeTable) (s : Shape) : Prop :=
  s.size < t.maxShapeProperties ∧ t.shapeCount < t.maxShapes

/-- The table lets the shape grow by the key. -/
def Accepts (t : ShapeTable) (s : Shape) (key : Key) : Prop :=
  (∃ target, t.target? s.id key = some target) ∨ t.Room s

/-! ## The three answers -/

section

variable (absent : s.contains key = false)
include absent

theorem transition_of_known (known : t.target? s.id key = some target) :
    t.transition s key = (.ok target, t) := by
  simp [transition, absent, known]

theorem transition_of_room (unknown : t.target? s.id key = none) (room : t.Room s) :
    t.transition s key = (.ok (t.extend s key).1, (t.extend s key).2) := by
  simp [transition, absent, unknown, Nat.not_le.2 room.1, Nat.not_le.2 room.2]

/-- A key that the shape does not have is added exactly where the table lets the shape grow. -/
theorem accepts_iff : t.Accepts s key ↔ ∃ t' target, t.transition s key = (.ok target, t') := by
  constructor
  · intro accepts
    cases known : t.target? s.id key with
    | some target => exact ⟨t, target, transition_of_known absent known⟩
    | none =>
      rcases accepts with ⟨target, found⟩ | room
      · cases known.symm.trans found
      · exact ⟨_, _, transition_of_room absent known room⟩
  · rintro ⟨t', target, done⟩
    rcases transition_eq_ok done with ⟨present, _⟩ | ⟨_, known, _⟩ | ⟨_, _, small, few, _⟩
    · cases absent.symm.trans present
    · exact .inl ⟨target, known⟩
    · exact .inr ⟨small, few⟩

end

/-! ## What is left of the table -/

/-- What becomes of a table that is asked to add to a shape a key that the shape does not have. -/
inductive Requested (t : ShapeTable) (s : Shape) (key : Key) : ShapeTable → Prop
  | known {target : Shape} : t.target? s.id key = some target → Requested t s key t
  | made {t' : ShapeTable} : t.target? s.id key = none → t.Room s → t' = (t.extend s key).2 →
    t'.shapeCount = t.shapeCount + 1 → t'.transitionCount = t.transitionCount + 1 →
    t'.nextId = t.nextId + 1 → Requested t s key t'
  | refused : t.target? s.id key = none → ¬t.Room s → Requested t s key t

theorem requested_of_ok (absent : s.contains key = false)
    (done : t.transition s key = (.ok target, t')) : t.Requested s key t' := by
  rcases transition_eq_ok done with ⟨present, _⟩ | ⟨_, known, rfl⟩ |
    ⟨_, unknown, small, few, rfl, rfl⟩
  · cases absent.symm.trans present
  · exact .known known
  · exact .made unknown ⟨small, few⟩ rfl rfl (transitionCount_extend unknown) rfl

theorem requested_of_error {refusal : Refusal} (absent : s.contains key = false)
    (failed : t.transition s key = (.error refusal, t')) : t.Requested s key t' := by
  have refused : ¬t.Accepts s key := by
    intro accepts
    obtain ⟨_, _, done⟩ := (accepts_iff absent).1 accepts
    cases failed.symm.trans done
  obtain rfl := eq_of_transition_eq_error failed
  apply Requested.refused
  · exact Option.eq_none_iff_forall_ne_some.2 fun target known => refused (.inl ⟨target, known⟩)
  · exact fun room => refused (.inr room)

/-- The root is there even if no shape is allowed. -/
theorem Requested.shapeCount_le (requested : t.Requested s key t')
    (within : t.shapeCount ≤ max 1 t.maxShapes) : t'.shapeCount ≤ max 1 t'.maxShapes := by
  cases requested with
  | known _ => exact within
  | made _ room isMade count _ _ =>
    have kept : t'.maxShapes = t.maxShapes := by
      rw [isMade]
      rfl
    rw [count, kept]
    exact Nat.le_trans room.2 (Nat.le_max_right ..)
  | refused _ _ => exact within

end ShapeVM.ShapeTable
