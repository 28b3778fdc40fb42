import ShapeVM.Proofs.Function.Scope

/-!
Admission of functions. A function is accepted unless it calls eval or declares more bindings than the
limit, and the first of these reasons is the one that is given (`accept_eq_iff`). As no limit is
larger than the largest position, the bindings of an accepted function are numbered without a wrap, and
the position of the arguments object is left over (`Numbered`).
-/
namespace ShapeVM

namespace Function

variable {f : Function} {limit : UInt32}

/-- The outcomes of the checks that precede compilation. -/
inductive Admission (f : Function) (limit : UInt32) : Except Refusal Function → Prop
  | accepted : f.flags.usesEval = false →
    f.paramNames.length + f.localNames.length ≤ limit.toNat → Admission f limit (.ok f)
  | callsEval : f.flags.usesEval = true →
    Admission f limit (.error (.unoptimizable (.callsEval f.displayName)))
  | tooMany : f.flags.usesEval = false →
    limit.toNat < f.paramNames.length + f.localNames.length →
    Admission f limit (.error (.codeLimit (.bindings f.displayName
      (f.paramNames.length + f.localNames.length) limit)))

theorem admission_accept (f : Function) (limit : UInt32) : f.Admission limit (f.accept limit) := by
  cases eval : f.flags.usesEval with
  | true =>
    rw [accept, if_pos eval]
    exact .callsEval eval
  | false =>
    rw [accept, if_neg (Bool.eq_false_iff.1 eval), checkBindings]
    split
    · next many => exact .tooMany eval many
    · next few => exact .accepted eval (Nat.le_of_not_lt few)

theorem accept_eq_iff {outcome : Except Refusal Function} :
    f.accept limit = outcome ↔ f.Admission limit outcome := by
  constructor
  · rintro rfl
    exact f.admission_accept limit
  · intro admission
    cases admission with
    | accepted plain few => simp [accept, checkBindings, plain, Nat.not_lt.2 few, Except.map]
    | callsEval eval => exact if_pos eval
    | tooMany plain many => simp [accept, checkBindings, plain, many, Except.map]

/-- A function is accepted as it is. -/
theorem accept_eq_ok_iff {g : Function} : f.accept limit = .ok g ↔
    g = f ∧ f.flags.usesEval = false ∧
      f.paramNames.length + f.localNames.length ≤ limit.toNat := by
  rw [accept_eq_iff]
  constructor
  · intro admission
    cases admission with
    | accepted plain few => exact ⟨rfl, plain, few⟩
  · rintro ⟨rfl, plain, few⟩
    exact .accepted plain few

/-- A refused function is one for the interpreter. -/
theorem Admission.requiresInterpreter {refusal : Refusal}
    (admission : f.Admission limit (.error refusal)) :
    refusal.requiresInterpreter = true := by
  cases admission with
  | callsEval _ => rfl
  | tooMany _ _ => rfl

/-- The positions of the bindings have 32 bits, and so has the one beyond them that is kept for the
arguments object. -/
structure Numbered (f : Function) : Prop where
  noWrap : f.paramCount.toNat + f.localCount.toNat < UInt32.size
  count : f.bindingCount.toNat = f.paramNames.length + f.localNames.length
  name : ∀ {i}, i < f.bindingCount → ∃ s, (f.paramNames ++ f.localNames)[i.toNat]? = some s ∧
    f.bindingName? i = some s
  nameless : ∀ {i}, f.bindingCount ≤ i → f.bindingName? i = none
  below : ∀ {k}, k < f.paramNames.length + f.localNames.length → k < argumentsIndex.toNat
  position : ∀ {k}, k < f.paramNames.length + f.localNames.length →
    k.toUInt32 < f.bindingCount ∧ k.toUInt32 < argumentsIndex

theorem numbered_of_lt (few : f.names.length < UInt32.size) : f.Numbered := by
  have count := toNat_bindingCount few
  have length : f.names.length = f.paramNames.length + f.localNames.length := List.length_append
  have last : argumentsIndex.toNat = UInt32.size - 1 := rfl
  refine ⟨?_, count.trans length, fun {i} inside => ?_, fun {i} outside => ?_, fun {k} inside => ?_,
    fun {k} inside => ?_⟩
  · have params : f.paramCount.toNat ≤ f.paramNames.length := Nat.mod_le ..
    have locals : f.localCount.toNat ≤ f.localNames.length := Nat.mod_le ..
    omega
  · rw [UInt32.lt_iff_toNat_lt, count] at inside
    rw [bindingName?_eq]
    exact ⟨_, List.getElem?_eq_getElem inside, List.getElem?_eq_getElem inside⟩
  · rw [UInt32.le_iff_toNat_le, count] at outside
    rw [bindingName?_eq, List.getElem?_eq_none outside]
  · omega
  · rw [← length] at inside
    rw [UInt32.lt_iff_toNat_lt, UInt32.lt_iff_toNat_lt, toNat_position few inside, count]
    exact ⟨inside, by omega⟩

/-- A limit is a position itself. -/
theorem numbered_of_le (few : f.paramNames.length + f.localNames.length ≤ limit.toNat) : f.Numbered := by
  apply numbered_of_lt
  rw [names, List.length_append]
  exact Nat.lt_of_le_of_lt few limit.toNat_lt

end Function

/-! ## Falling back -/

section

variable {m : Type → Type} [Monad m] [LawfulMonad m] {α : Type} {attempt : Except Refusal α}

theorem withFallback_of_ok {a : α} (interpreted : m (Except Refusal α)) (done : attempt = .ok a) :
    withFallback (pure attempt) interpreted = pure (.ok a) := by
  rw [withFallback, pure_bind, done]

theorem withFallback_of_refused {refusal : Refusal} (interpreted : m (Except Refusal α))
    (failed : attempt = .error refusal) (refused : refusal.requiresInterpreter = true) :
    withFallback (pure attempt) interpreted = interpreted := by
  rw [withFallback, pure_bind, failed]
  exact if_pos refused

end

end ShapeVM
