/-!
Faults. Every access by position is checked, and one past the end is a fault that names both numbers;
so is the use of a reference to nothing. Faults belong to the caller, refusals to the fast tier.
-/
namespace ShapeVM

inductive Fault where
  | outOfRange (length index : Nat)
  | dangling
  deriving DecidableEq

def Fault.message : Fault → String
  | outOfRange length index => s!"index out of bounds: the len is {length} but the index is {index}"
  | dangling => "reference to nothing"

/-- The result of an operation that accesses by position. -/
abbrev Checked := Except Fault

namespace Checked

variable {α β : Type}

instance decidableEq [DecidableEq α] : DecidableEq (Checked α)
  | .error _, .error _ => decidable_of_iff (_ = _) ⟨congrArg _, Except.error.inj⟩
  | .ok _, .ok _ => decidable_of_iff (_ = _) ⟨congrArg _, Except.ok.inj⟩
  | .error _, .ok _ | .ok _, .error _ => .isFalse nofun

@[simp] theorem pure_def (a : α) : (pure a : Checked α) = .ok a := rfl

@[simp] theorem ok_bind (a : α) (f : α → Checked β) : ((.ok a : Checked α) >>= f) = f a := rfl

@[simp] theorem error_bind (fault : Fault) (f : α → Checked β) :
    ((.error fault : Checked α) >>= f) = .error fault := rfl

@[simp] theorem map_ok (f : α → β) (a : α) : (f <$> (.ok a : Checked α)) = .ok (f a) := rfl

theorem bind_eq_ok {x : Checked α} {f : α → Checked β} {b : β} :
    (x >>= f) = .ok b ↔ ∃ a, x = .ok a ∧ f a = .ok b := by
  cases x with
  | error _ => exact ⟨nofun, nofun⟩
  | ok a => exact ⟨fun h => ⟨a, rfl, h⟩, fun ⟨_, rfl, h⟩ => h⟩

end Checked

def readAt {α : Type} (xs : Array α) (i : Nat) : Checked α :=
  match xs[i]? with
  | some x => .ok x
  | none => .error (.outOfRange xs.size i)

def writeAt {α : Type} (xs : Array α) (i : Nat) (x : α) : Checked (Array α) :=
  if i < xs.size then .ok (xs.setIfInBounds i x) else .error (.outOfRange xs.size i)

theorem readAt_eq_ok {α : Type} {xs : Array α} {i : Nat} {x : α} :
    readAt xs i = .ok x ↔ xs[i]? = some x := by
  simp only [readAt]
  split <;> simp_all

theorem readAt_eq_error {α : Type} {xs : Array α} {i : Nat} {fault : Fault} :
    readAt xs i = .error fault ↔ xs.size ≤ i ∧ fault = .outOfRange xs.size i := by
  simp only [readAt]
  split
  · next x found =>
    have inside := (Array.getElem?_eq_some_iff.1 found).1
    exact ⟨nofun, fun outside => absurd inside (Nat.not_lt.2 outside.1)⟩
  · next missing =>
    rw [Array.getElem?_eq_none_iff] at missing
    exact ⟨fun eq => ⟨missing, (Except.error.inj eq).symm⟩, fun both => by rw [both.2]⟩

theorem writeAt_of_lt {α : Type} {xs : Array α} {i : Nat} (h : i < xs.size) (x : α) :
    writeAt xs i x = .ok (xs.setIfInBounds i x) := if_pos h

theorem writeAt_eq_ok {α : Type} {xs ys : Array α} {i : Nat} {x : α} :
    writeAt xs i x = .ok ys ↔ i < xs.size ∧ ys = xs.setIfInBounds i x := by
  simp only [writeAt]
  split
  · next h => simp [h, eq_comm]
  · next h => simp [h]

end ShapeVM
