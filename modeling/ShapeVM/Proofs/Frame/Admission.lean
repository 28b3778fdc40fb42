import ShapeVM.Proofs.Frame.Rebinding
import ShapeVM.Proofs.Function.Admission

/-!
Frames of accepted functions. A realm accepts a function under its own limit, and whoever asked runs the
interpreter exactly if it refused. In every frame of a function that was accepted the bindings have the
positions of their names, and none of them is the position of the arguments object: an access to the one
is never an access to the other, even if the limit is the largest there is
(`functions_are_admitted_exactly`).
-/
namespace ShapeVM.Heap

variable {h h' : Heap} {r : Realm} {f : Function} {id : FrameId} {fr fr' : Frame} {i j : UInt32}

/-! ## One frame -/

/-- The bindings of a frame of the function, and the place of its arguments object. -/
structure PlaceApart (h : Heap) (id : FrameId) (f : Function) : Prop where
  count : ∃ fr, h.frame id = .ok fr ∧ fr.bindingCount = f.bindingCount ∧
    h.valueAt id argumentsIndex = .ok fr.argumentsValue
  apart : ∀ {i}, i < f.bindingCount → i ≠ argumentsIndex
  resolve : ∀ {s i}, f.resolve? (.name s) = some i →
    s ∈ f.paramNames ++ f.localNames ∧ i < f.bindingCount ∨ s = "arguments" ∧ i = argumentsIndex
  setBinding : ∀ {i}, i < f.bindingCount → ∀ value, ∃ h', h.setBinding id i value = .ok h' ∧
    h'.valueAt id argumentsIndex = h.valueAt id argumentsIndex
  setConstBinding : ∀ {i}, i < f.bindingCount → ∀ value, ∃ h', h.setConstBinding id i value = .ok h' ∧
    h'.valueAt id argumentsIndex = h.valueAt id argumentsIndex
  setPlace : ∀ value, ∃ h', h.setBinding id argumentsIndex value = .ok h' ∧
    h'.valueAt id argumentsIndex = .ok value ∧
    ∀ {i}, i < f.bindingCount → h'.valueAt id i = h.valueAt id i
  setConstPlace : ∀ value, h.setConstBinding id argumentsIndex value = .ok h

theorem valueAt_of_assigned {args : ArgumentList} (isFrame : h.frame id = .ok fr) (named : fr.id = id)
    (assigned : fr.Assigned i args fr') (other : j ≠ i) :
    (h.setFrame fr').valueAt id j = h.valueAt id j := by
  have isFrame' : (h.setFrame fr').frame id = .ok fr' :=
    frame_setFrame_self isFrame (assigned.id_eq.trans named)
  rw [valueAt_eq isFrame', valueAt_eq isFrame, assigned.others other]

theorem Reachable.placeApart (reachable : h.Reachable) (isFrame : h.frame id = .ok fr)
    (few : fr.function.code.names.length < UInt32.size) : h.PlaceApart id fr.function.code := by
  obtain ⟨named, wf, _⟩ := reachable.wellFormed.frame isFrame
  have count := Call.bindingCount_eq reachable isFrame
  have apart {i : UInt32} (inside : i < fr.function.code.bindingCount) : i ≠ argumentsIndex := by
    rintro rfl
    exact Frame.argumentsIndex_not_lt _ inside
  refine ⟨⟨fr, isFrame, count, ?_⟩, apart, fun {s i} resolved => ?_, fun {i} inside value => ?_,
    fun {i} inside value => ?_, fun value => ?_, fun value => ?_⟩
  · rw [valueAt_eq isFrame, fr.get_argumentsIndex]
  · rcases (Function.resolve?_name few).1 resolved with last | ⟨_, same, last⟩
    · refine .inl ⟨last.mem, ?_⟩
      rw [UInt32.lt_iff_toNat_lt, Function.toNat_bindingCount few]
      exact (List.getElem?_eq_some_iff.1 last.here).1
    · exact .inr ⟨same, last⟩
  · obtain ⟨fr', done, assigned⟩ := wf.set i value
    exact ⟨h.setFrame fr', by simp [Heap.setBinding, isFrame, done],
      valueAt_of_assigned isFrame named assigned (apart inside).symm⟩
  · obtain ⟨fr', done, assigned⟩ := wf.setConst i value
    exact ⟨h.setFrame fr', by simp [Heap.setConstBinding, isFrame, done],
      valueAt_of_assigned isFrame named assigned (apart inside).symm⟩
  · obtain ⟨fr', done, assigned⟩ := wf.set argumentsIndex value
    have isFrame' : (h.setFrame fr').frame id = .ok fr' :=
      frame_setFrame_self isFrame (assigned.id_eq.trans named)
    have free := Frame.final?_of_not_hasSlot fr.not_hasSlot_argumentsIndex
    refine ⟨h.setFrame fr', by simp [Heap.setBinding, isFrame, done], ?_, fun {i} inside => ?_⟩
    · rw [valueAt_eq isFrame', wf.get_set (.inr rfl) done, free, Option.getD_none]
    · exact valueAt_of_assigned isFrame named assigned (apart inside)
  · have same := Frame.setConst_of_not_hasSlot fr.not_hasSlot_argumentsIndex value
    simp [Heap.setConstBinding, isFrame, same, setFrame_self (named.symm ▸ isFrame)]

/-! ## Admission -/

theorem prepare_eq_ok {answer : FunctionRef × Heap} : h.prepare r f = .ok answer ↔
    (f.flags.usesEval = false ∧
      f.paramNames.length + f.localNames.length ≤ r.limits.maxBindings.toNat) ∧
      h.allocFunction f = answer := by
  rw [prepare]
  constructor
  · intro done
    cases accepted : f.accept r.limits.maxBindings with
    | error refusal =>
      rw [accepted] at done
      cases done
    | ok g =>
      obtain ⟨rfl, admitted⟩ := Function.accept_eq_ok_iff.1 accepted
      rw [accepted] at done
      cases done
      exact ⟨admitted, rfl⟩
  · rintro ⟨admitted, rfl⟩
    rw [Function.accept_eq_ok_iff.2 ⟨rfl, admitted⟩]
    rfl

theorem prepare_eq_error {refusal : Refusal} : h.prepare r f = .error refusal ↔
    f.Admission r.limits.maxBindings (.error refusal) := by
  rw [prepare, ← Function.accept_eq_iff]
  cases f.accept r.limits.maxBindings with
  | ok g => exact ⟨nofun, nofun⟩
  | error refusal' =>
    rw [Except.map]
    simp only [Except.error.injEq]

/-- How a realm admits a function, and what follows for a function that it accepts. -/
structure Prepares (h : Heap) (r : Realm) (f : Function) : Prop where
  accepted_iff : (∃ answer, h.prepare r f = .ok answer) ↔ f.flags.usesEval = false ∧
    f.paramNames.length + f.localNames.length ≤ r.limits.maxBindings.toNat
  accepted : ∀ {prepared h'}, h.prepare r f = .ok (prepared, h') →
    prepared.code = f ∧ prepared.id = ⟨h.functionCount⟩
  callsEval : f.flags.usesEval = true →
    h.prepare r f = .error (.unoptimizable (.callsEval f.displayName))
  tooMany : f.flags.usesEval = false →
    r.limits.maxBindings.toNat < f.paramNames.length + f.localNames.length →
    h.prepare r f = .error (.codeLimit (.bindings f.displayName
      (f.paramNames.length + f.localNames.length) r.limits.maxBindings))
  /-- Whatever effects the interpreter has, none of them happens. -/
  optimized : ∀ {m : Type → Type} [Monad m] [LawfulMonad m] {α : Type} {answer}
    (use : FunctionRef × Heap → α) (interpreted : m (Except Refusal α)), h.prepare r f = .ok answer →
    withFallback (pure ((h.prepare r f).map use)) interpreted = pure (.ok (use answer))
  /-- The interpreter runs, and its answer is the answer. -/
  interpreted : ∀ {m : Type → Type} [Monad m] [LawfulMonad m] {α : Type} {refusal}
    (use : FunctionRef × Heap → α) (interpreted : m (Except Refusal α)),
    h.prepare r f = .error refusal →
    withFallback (pure ((h.prepare r f).map use)) interpreted = interpreted
  numbered : (∃ answer, h.prepare r f = .ok answer) → f.Numbered
  frames : (∃ answer, h.prepare r f = .ok answer) → ∀ {later : Heap} {id fr}, later.Reachable →
    later.frame id = .ok fr → fr.function.code = f → later.PlaceApart id f

theorem functions_are_admitted_exactly (h : Heap) (r : Realm) (f : Function) : h.Prepares r f := by
  have admitted (accepted : ∃ answer, h.prepare r f = .ok answer) : f.flags.usesEval = false ∧
      f.paramNames.length + f.localNames.length ≤ r.limits.maxBindings.toNat := by
    obtain ⟨_, done⟩ := accepted
    exact (prepare_eq_ok.1 done).1
  refine ⟨⟨admitted, fun both => ⟨_, prepare_eq_ok.2 ⟨both, rfl⟩⟩⟩, fun {prepared h'} done => ?_,
    fun eval => prepare_eq_error.2 (.callsEval eval),
    fun plain many => prepare_eq_error.2 (.tooMany plain many), ?_, ?_, fun accepted => ?_, ?_⟩
  · obtain ⟨_, same⟩ := prepare_eq_ok.1 done
    cases same
    exact ⟨rfl, rfl⟩
  · intro m _ _ α answer use interpreted done
    exact withFallback_of_ok interpreted (by rw [done]; rfl)
  · intro m _ _ α refusal use interpreted failed
    refine withFallback_of_refused interpreted ?_ (prepare_eq_error.1 failed).requiresInterpreter
    rw [failed]
    rfl
  · exact Function.numbered_of_le (admitted accepted).2
  · rintro accepted later id fr reachable isFrame rfl
    refine reachable.placeApart isFrame ?_
    rw [Function.names, List.length_append]
    exact Nat.lt_of_le_of_lt (admitted accepted).2 r.limits.maxBindings.toNat_lt

/-- The largest limit, and a function that has as many parameters as it allows: the count of its
bindings is the position of the arguments object, so that the last of them is just below. -/
theorem functions_are_admitted_exactly_at_largest_limit : ∃ r f answer,
    r.limits.maxBindings.toNat = UInt32.size - 1 ∧ f.paramNames.length + f.localNames.length =
      UInt32.size - 1 ∧ prepare {} r f = .ok answer ∧ f.bindingCount = argumentsIndex ∧
    Prepares {} r f := by
  let r : Realm := ⟨⟨0⟩, { maxBindings := 0xffffffff }, { id := ⟨0⟩, code := {} }⟩
  let f : Function := { paramNames := List.replicate (UInt32.size - 1) "a" }
  have full : f.paramNames.length + f.localNames.length = UInt32.size - 1 := by
    simp only [f, List.length_replicate, List.length_nil, Nat.add_zero]
  have prepares := functions_are_admitted_exactly {} r f
  obtain ⟨answer, done⟩ := prepares.accepted_iff.2 ⟨rfl, Nat.le_of_eq full⟩
  have count := (prepares.numbered ⟨answer, done⟩).count.trans full
  exact ⟨r, f, answer, rfl, full, done, UInt32.toNat_inj.1 count, prepares⟩

end ShapeVM.Heap
