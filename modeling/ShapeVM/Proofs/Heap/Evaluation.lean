import ShapeVM.Proofs.Heap.Run

/-!
Runs that can be evaluated. Whether a heap allows an operation and performs it can be decided, so a
given history is a run if its evaluation says so, and it leads to the heap that is evaluated.
-/
namespace ShapeVM

namespace Checked

variable {α : Type}

/-- Whether there is a result, and whether it has a property that can be decided. -/
instance decidableExists (x : Checked α) (p : α → Prop) [DecidablePred p] :
    Decidable (∃ a, x = .ok a ∧ p a) :=
  match x with
  | .error _ => .isFalse nofun
  | .ok a => decidable_of_iff (p a) ⟨fun h => ⟨a, rfl, h⟩, fun ⟨_, same, h⟩ => Except.ok.inj same ▸ h⟩

instance decidableOk : (x : Checked α) → Decidable (∃ a, x = .ok a)
  | .error _ => .isFalse nofun
  | .ok a => .isTrue ⟨a, rfl⟩

end Checked

instance ShapeTable.decidableHolds (t : ShapeTable) : DecidablePred t.Holds := fun s =>
  decidable_of_iff (s = t.root ∨ ∃ entry ∈ t.transitions.toList, entry.2 = s) <| by
    refine or_congr_right ⟨?_, ?_⟩
    · rintro ⟨⟨e, _⟩, mem, rfl⟩
      exact ⟨e.source, e.key, Std.ExtTreeMap.mem_toList_iff_getElem?_eq_some.1 mem⟩
    · rintro ⟨source, key, known⟩
      exact ⟨(⟨source, key⟩, s), Std.ExtTreeMap.mem_toList_iff_getElem?_eq_some.2 known, rfl⟩

namespace Heap

variable {start h h' : Heap} {op : Operation} {ops : List Operation}

instance decidableAllows (h : Heap) : DecidablePred h.Allows := fun op => by
  cases op with
  | makeObject table => exact Checked.decidableOk (h.table table)
  | makeFrame table _ _ _ => exact Checked.decidableOk (h.table table)
  | transition table shape _ => exact Checked.decidableExists (h.table table) (·.Holds shape)
  | _ => exact .isTrue trivial

/-- The heap after an operation. What fails changes nothing. -/
def after (h : Heap) (op : Operation) : Heap := (h.perform op).toOption.getD h

theorem Step.after_eq (step : h.Step op h') : h.after op = h' := by
  rw [after, step.performed]
  rfl

/-- The heap after a history, the newest operation first. -/
def afterAll (start : Heap) : List Operation → Heap
  | [] => start
  | op :: older => (start.afterAll older).after op

theorem Runs.afterAll_eq (runs : start.Runs ops h) : start.afterAll ops = h := by
  induction runs with
  | start => rfl
  | step _ step ih => rw [afterAll, ih, step.after_eq]

/-- Each operation of a history is allowed, and succeeds. -/
def PerformsAll (start : Heap) : List Operation → Prop
  | [] => True
  | op :: older => start.PerformsAll older ∧ (start.afterAll older).Allows op ∧
    ((start.afterAll older).perform op).isOk = true

instance decidablePerformsAll (start : Heap) : DecidablePred start.PerformsAll
  | [] => .isTrue trivial
  | _ :: older =>
    have := decidablePerformsAll start older
    inferInstanceAs (Decidable (_ ∧ _ ∧ _))

theorem step_after (allowed : h.Allows op) (succeeds : (h.perform op).isOk = true) :
    h.Step op (h.after op) := by
  refine ⟨allowed, ?_⟩
  rw [after]
  cases done : h.perform op with
  | error fault => simp [done, Except.isOk, Except.toBool] at succeeds
  | ok h' => rfl

theorem runs_afterAll (performs : start.PerformsAll ops) : start.Runs ops (start.afterAll ops) := by
  induction ops with
  | nil => exact .start
  | cons op older ih =>
    obtain ⟨before, allowed, succeeds⟩ := performs
    exact .step (ih before) (step_after allowed succeeds)

end Heap

end ShapeVM
