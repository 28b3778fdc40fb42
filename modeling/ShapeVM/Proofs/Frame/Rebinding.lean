import ShapeVM.Proofs.Frame.Positions

/-!
The place of the arguments object. A frame has one arguments object, and a place for it that a program
can give another value: by its position, and by the name `arguments` where no binding has this name.
What the place shows is the value of the latest such rebinding. The arguments object itself, and the
arguments that it shares with the frame, are no part of the place, and no rebinding reaches them.
-/
namespace ShapeVM

namespace Function

variable {f : Function} {s : String} {i : UInt32} {key : Key} (few : f.names.length < UInt32.size)
include few

/-- No binding stands in the place of the arguments object. -/
theorem LastAt.ne_argumentsIndex (last : f.LastAt s i) : i ≠ argumentsIndex := by
  rintro rfl
  exact Nat.not_lt.2 (Nat.le_of_lt_succ few) (List.getElem?_eq_some_iff.1 last.here).1

theorem resolve?_eq_argumentsIndex :
    f.resolve? key = some argumentsIndex ↔ key = .name "arguments" ∧ "arguments" ∉ f.names := by
  constructor
  · intro resolved
    cases key with
    | index _ => simp at resolved
    | name s =>
      rcases (resolve?_name few).1 resolved with last | ⟨undeclared, rfl, _⟩
      · exact (last.ne_argumentsIndex few rfl).elim
      · exact ⟨rfl, undeclared⟩
  · rintro ⟨rfl, undeclared⟩
    exact resolve?_arguments few undeclared

end Function

/-- The value that an operation puts in the place of the arguments object. -/
def Operation.rebinds? (frame : FrameId) (code : Function) : Operation → Option Value
  | .setBinding id i value => if id = frame ∧ i = argumentsIndex then some value else none
  | .put (.activation id) key value =>
    if id = frame ∧ key = .name "arguments" ∧ "arguments" ∉ code.names then some value else none
  | _ => none

namespace Operation

variable {op : Operation} {frame : FrameId} {code : Function} {value : Value}

theorem rebinds?_of_frame?_ne (elsewhere : op.frame? ≠ some frame) : op.rebinds? frame code = none := by
  cases op with
  | setBinding id i value => exact if_neg fun both => elsewhere (congrArg some both.1)
  | put o key value =>
    cases o with
    | activation id => exact if_neg fun both => elsewhere (congrArg some both.1)
    | _ => rfl
  | _ => rfl

/-- A rebinding is what the frame does at the last position. -/
theorem rebinds?_eq_some_iff (few : code.names.length < UInt32.size) :
    op.rebinds? frame code = some value ↔
      op.touch? frame code argumentsIndex = some (.byFrame value) := by
  cases op with
  | setBinding id i v => simp [rebinds?, touch?, Option.ite_none_right_eq_some]
  | put o key v =>
    cases o with
    | ordinary id => simp [rebinds?, touch?]
    | arguments id => simp [rebinds?, touch?, Option.ite_none_right_eq_some]
    | activation id =>
      simp [rebinds?, touch?, Option.ite_none_right_eq_some, Function.resolve?_eq_argumentsIndex few]
  | delete o key =>
    cases o with
    | arguments id => simp [rebinds?, touch?, Option.ite_none_right_eq_some]
    | _ => simp [rebinds?, touch?]
  | _ => simp [rebinds?, touch?]

end Operation

namespace Frame

variable {f f' : Frame} {i : UInt32} {value : Value}

/-- The frame with something else in the place of its arguments object. -/
def rebind (f : Frame) (binding : Option Value) : Frame := { f with argumentsBinding := binding }

@[simp] theorem id_rebind (f : Frame) (binding : Option Value) : (f.rebind binding).id = f.id := rfl

theorem argumentsBinding_updateSlot {change : LocalSlot → LocalSlot}
    (done : f.updateSlot i change = .ok f') : f'.argumentsBinding = f.argumentsBinding := by
  obtain ⟨_, _, done⟩ := Checked.bind_eq_ok.1 done
  obtain ⟨_, _, ⟨⟩⟩ := Checked.bind_eq_ok.1 done
  rfl

/-- No binding stands at the last position. -/
theorem argumentsIndex_not_lt (n : UInt32) : ¬argumentsIndex < n :=
  UInt32.not_lt.2 (UInt32.le_iff_toNat_le.2 (Nat.le_of_lt_succ n.toNat_lt))

theorem set_argumentsIndex (f : Frame) (value : Value) :
    f.set argumentsIndex value = .ok (f.rebind (some value)) := by
  rw [set, if_neg (argumentsIndex_not_lt _), if_neg (argumentsIndex_not_lt _), if_pos rfl]
  rfl

theorem get_argumentsIndex (f : Frame) : f.get argumentsIndex = .ok f.argumentsValue := by
  rw [get, if_neg (argumentsIndex_not_lt _), if_neg (argumentsIndex_not_lt _), if_pos rfl]
  rfl

theorem argumentsBinding_set (done : f.set i value = .ok f') (apart : i ≠ argumentsIndex) :
    f'.argumentsBinding = f.argumentsBinding := by
  rw [set] at done
  split at done
  · cases done
    rfl
  · split at done
    · exact argumentsBinding_updateSlot done
    · cases done
      rfl

theorem argumentsBinding_setConst (done : f.setConst i value = .ok f') :
    f'.argumentsBinding = f.argumentsBinding := by
  rw [setConst] at done
  split at done
  · exact argumentsBinding_updateSlot done
  · cases done
    rfl

end Frame

variable {h h' : Heap} {op : Operation} {f f' : Frame}

/-- The place changes by rebindings alone. -/
theorem Heap.FrameEffect.argumentsBinding (effect : h.FrameEffect f op f')
    (few : f.function.code.names.length < UInt32.size) :
    f'.argumentsBinding = (op.rebinds? f.id f.function.code).or f.argumentsBinding := by
  have untouched (none : op.touch? f.id f.function.code argumentsIndex = none) :
      op.rebinds? f.id f.function.code = .none := by
    cases rebinds : op.rebinds? f.id f.function.code with
    | none => rfl
    | some value => cases none.symm.trans ((Operation.rebinds?_eq_some_iff few).1 rebinds)
  cases effect with
  | still elsewhere => rw [Operation.rebinds?_of_frame?_ne elsewhere, Option.none_or]
  | built isRead =>
    rw [untouched (isRead.touch? ..), Option.none_or, Frame.withArguments_eq]
  | @assign _ i value _ _ touch _ done =>
    by_cases last : i = argumentsIndex
    · subst last
      rw [(Operation.rebinds?_eq_some_iff few).2 ((touch _).trans (if_pos rfl))]
      rw [Frame.set_argumentsIndex] at done
      cases done
      rfl
    · rw [untouched ((touch _).trans (if_neg (Ne.symm last))), Option.none_or,
        Frame.argumentsBinding_set done last]
  | freeze _ done => exact Frame.argumentsBinding_setConst done
  | ownProperty _ none => rw [untouched (none _), Option.none_or]
  | putArgument _ => rfl
  | putProperty _ _ _ => rfl
  | deleteProperty _ => rfl

namespace Call

variable {c : Call} {ops : List Operation}

/-- The value of the latest rebinding in a history, which has the newest first. -/
def rebound? (c : Call) (ops : List Operation) : Option Value :=
  ops.findSome? (·.rebinds? c.frame c.function.code)

theorem Ran.argumentsBinding (ran : c.Ran ops h) (few : c.function.code.names.length < UInt32.size)
    (isFrame : h.frame c.frame = .ok f) : f.argumentsBinding = c.rebound? ops := by
  induction ran generalizing f with
  | @made h₀ h₁ table objectConstructor _ named made =>
    obtain ⟨_, ⟨⟩⟩ := made
    rw [Heap.frame_allocFrame, if_pos named] at isFrame
    cases isFrame
    rfl
  | @step ops h op h' ran step ih =>
    obtain ⟨w, f₀, isFrame₀, inv⟩ := ran.invariant
    obtain ⟨f', isFrame', effect⟩ := step.effect.frameEffect w isFrame₀
    obtain rfl := Except.ok.inj (isFrame'.symm.trans isFrame)
    rw [effect.argumentsBinding (inv.function ▸ few), inv.id, inv.function, ih isFrame₀, rebound?,
      rebound?, List.findSome?_cons]
    cases op.rebinds? c.frame c.function.code with
    | none => rfl
    | some value => rfl

end Call

/-! ## The place and the rest of the frame -/

namespace Frame

variable (f : Frame) (binding binding' : Option Value)

theorem rebind_rebind : (f.rebind binding).rebind binding' = f.rebind binding' := rfl

theorem rebind_self : f.rebind f.argumentsBinding = f := rfl

theorem get_rebind {i : UInt32} (apart : i ≠ argumentsIndex) : (f.rebind binding).get i = f.get i :=
  get_congr rfl rfl (fun _ => rfl) rfl fun last => (apart last).elim

theorem withArguments_rebind : (f.rebind binding).withArguments = f.withArguments.rebind binding := by
  rw [withArguments_eq, withArguments_eq]
  rfl

end Frame

namespace Heap

variable {id : FrameId} {o : ObjectRef} {i : UInt32} {value : Value}

theorem setFrame_setFrame (same : f'.id = f.id) : (h.setFrame f).setFrame f' = h.setFrame f' := by
  rw [setFrame, setFrame, setFrame, same, Array.setIfInBounds_setIfInBounds]

theorem fst_argumentsValue (isFrame : h.frame id = .ok f) :
    (·.1) <$> h.argumentsValue id = .ok f.argumentsValue := by
  rw [argumentsValue, isFrame]
  rfl

theorem setBinding_argumentsIndex (isFrame : h.frame id = .ok f) (value : Value) :
    h.setBinding id argumentsIndex value = .ok (h.setFrame (f.rebind (some value))) := by
  rw [setBinding, isFrame, Checked.ok_bind, Frame.set_argumentsIndex]
  rfl

section

variable (isFrame : h.frame id = .ok f) (named : f.id = id) (binding : Option Value)
include isFrame named

theorem frame_rebind : (h.setFrame (f.rebind binding)).frame id = .ok (f.rebind binding) :=
  frame_setFrame_self isFrame named

theorem argumentsObject_rebind :
    (h.setFrame (f.rebind binding)).argumentsObject id = h.argumentsObject id := by
  rw [argumentsObject, argumentsObject, frame_rebind isFrame named, isFrame]
  rfl

theorem Shares.rebind {id' : FrameId} (shares : h.Shares op o id' i value) :
    (h.setFrame (f.rebind binding)).Shares op o id' i value := by
  have kept {g : Frame} {a : ArgumentsObject} (isFrame' : h.frame id' = .ok g)
      (isObject : h.argumentsObject id' = .ok a) :
      ∃ g', (h.setFrame (f.rebind binding)).frame id' = .ok g' ∧
        (h.setFrame (f.rebind binding)).argumentsObject id' = .ok a ∧
        g'.localsStart = g.localsStart ∧ g'.function = g.function := by
    by_cases here : id' = id
    · subst here
      obtain rfl := Except.ok.inj (isFrame.symm.trans isFrame')
      exact ⟨_, frame_rebind isFrame named binding,
        (argumentsObject_rebind isFrame named binding).trans isObject, rfl, rfl⟩
    · have elsewhere : (h.setFrame (f.rebind binding)).frame id' = h.frame id' :=
        (frame_setFrame (f := f.rebind binding) (named ▸ isFrame) id').trans (if_neg (named ▸ here))
      refine ⟨g, elsewhere.trans isFrame', ?_, rfl, rfl⟩
      rw [argumentsObject, elsewhere]
      exact isObject
  cases shares with
  | byFrame isFrame' isObject parameter linked touch =>
    obtain ⟨_, isFrame'', isObject', start, function⟩ := kept isFrame' isObject
    exact .byFrame isFrame'' isObject' (start ▸ parameter) linked (function ▸ touch)
  | byObject isFrame' isObject parameter linked =>
    obtain ⟨_, isFrame'', isObject', start, _⟩ := kept isFrame' isObject
    exact .byObject isFrame'' isObject' (start ▸ parameter) linked

/-- What is shared has nothing to do with the place. -/
theorem shares_rebind {id' : FrameId} :
    (h.setFrame (f.rebind binding)).Shares op o id' i value ↔ h.Shares op o id' i value := by
  refine ⟨fun shares => ?_, .rebind isFrame named binding⟩
  -- What was in the place can be put back.
  have back := shares.rebind (frame_rebind isFrame named binding) named f.argumentsBinding
  rwa [Frame.rebind_rebind, Frame.rebind_self, setFrame_setFrame (f.id_rebind binding).symm,
    setFrame_self (named.symm ▸ isFrame)] at back

end

end Heap

namespace Call

variable {c : Call} {ops : List Operation} {value : Value}

/-- What a rebinding leaves of everything but the place: the other positions, the arguments object that
asking for it gives, and what this shares with the parameters. -/
structure Rebinds (c : Call) (h h' : Heap) : Prop where
  valueAt : ∀ {i}, i ≠ argumentsIndex → h'.valueAt c.frame i = h.valueAt c.frame i
  arguments : ∃ k k' a, h.arguments c.frame = .ok (.arguments c.frame, k) ∧
    h'.arguments c.frame = .ok (.arguments c.frame, k') ∧
    k.argumentsObject c.frame = .ok a ∧ k'.argumentsObject c.frame = .ok a ∧
    ∀ {op o id i value}, k'.Shares op o id i value ↔ k.Shares op o id i value

/-- A binding that has the name of the arguments object: neither the name nor the place reaches the
other. -/
structure Shadows (c : Call) (h : Heap) (i : UInt32) : Prop where
  last : c.function.code.LastAt "arguments" i
  apart : i ≠ argumentsIndex
  binds : h.Binds c.frame (.name "arguments") i
  put : ∀ {value h'}, h.put (.activation c.frame) (.name "arguments") value = .ok h' →
    (·.1) <$> h'.argumentsValue c.frame = (·.1) <$> h.argumentsValue c.frame
  rebind : ∀ {value h'}, h.setBinding c.frame argumentsIndex value = .ok h' →
    (·.1) <$> h'.get (.activation c.frame) (.name "arguments") =
      (·.1) <$> h.get (.activation c.frame) (.name "arguments")

/-- The place of the arguments object after a history of the call. -/
structure HasPlace (c : Call) (ops : List Operation) (h : Heap) : Prop where
  agree : h.getBinding c.frame argumentsIndex = h.argumentsValue c.frame
  unbound : c.rebound? ops = none → ∃ k, h.arguments c.frame = .ok (.arguments c.frame, k) ∧
    h.argumentsValue c.frame = .ok (.object (.arguments c.frame), k)
  rebound : ∀ {value}, c.rebound? ops = some value → ∃ k, h.argumentsValue c.frame = .ok (value, k)
  unshadowed : "arguments" ∉ c.function.code.names → h.Binds c.frame (.name "arguments") argumentsIndex
  shadowed : "arguments" ∈ c.function.code.names → ∃ i, c.Shadows h i
  rebinds : ∀ {op value h'}, h.Step op h' → op.rebinds? c.frame c.function.code = some value →
    c.Rebinds h h'

theorem rebinds_rebind (isFrame : h.frame c.frame = .ok f) (named : f.id = c.frame)
    (binding : Option Value) : c.Rebinds h (h.setFrame (f.rebind binding)) := by
  have isFrame' := Heap.frame_rebind isFrame named binding
  refine ⟨fun {i} apart => ?_, ?_⟩
  · rw [Heap.valueAt_eq isFrame', Heap.valueAt_eq isFrame, f.get_rebind binding apart]
  · have named' : f.withArguments.id = c.frame := f.id_withArguments.trans named
    have built : (h.setFrame f.withArguments).frame c.frame = .ok f.withArguments :=
      Heap.frame_setFrame_self isFrame named'
    have rebuilt : (h.setFrame (f.rebind binding)).arguments c.frame = .ok (.arguments c.frame,
        (h.setFrame f.withArguments).setFrame (f.withArguments.rebind binding)) := by
      rw [Heap.arguments, isFrame', Checked.ok_bind, Frame.withArguments_rebind,
        Heap.setFrame_setFrame (by simp),
        Heap.setFrame_setFrame (f.withArguments.id_rebind binding)]
      rfl
    have isObject : (h.setFrame f.withArguments).argumentsObject c.frame = .ok f.object :=
      Heap.argumentsObject_eq_ok.2 ⟨_, built, f.argumentsObject?_withArguments⟩
    exact ⟨h.setFrame f.withArguments, _, f.object, by simp [Heap.arguments, isFrame], rebuilt,
      isObject, (Heap.argumentsObject_rebind built named' binding).trans isObject,
      Heap.shares_rebind built named' binding⟩

section

variable (ran : c.Ran ops h) (few : c.function.code.names.length < UInt32.size)
include ran few

theorem Ran.rebinds (step : h.Step op h')
    (rebinds : op.rebinds? c.frame c.function.code = some value) : c.Rebinds h h' := by
  obtain ⟨w, f, isFrame, inv⟩ := ran.invariant
  have bound {h' : Heap} (done : h.setBinding c.frame argumentsIndex value = .ok h') :
      c.Rebinds h h' := by
    rw [Heap.setBinding_argumentsIndex isFrame] at done
    cases done
    exact rebinds_rebind isFrame inv.id _
  cases op with
  | setBinding id i v =>
    obtain ⟨⟨rfl, rfl⟩, ⟨⟩⟩ := Option.ite_none_right_eq_some.1 rebinds
    exact bound step.performed
  | put o key v =>
    cases o with
    | activation id =>
      obtain ⟨⟨rfl, rfl, undeclared⟩, ⟨⟩⟩ := Option.ite_none_right_eq_some.1 rebinds
      have resolved := Function.resolve?_arguments few undeclared
      obtain ⟨_, done, done'⟩ := (w.binds isFrame (inv.function ▸ resolved)).put value
      obtain rfl := Except.ok.inj (done'.symm.trans step.performed)
      exact bound done
    | _ => cases rebinds
  | _ => cases rebinds

theorem Ran.shadows {i : UInt32} (last : c.function.code.LastAt "arguments" i) : c.Shadows h i := by
  obtain ⟨w, f, isFrame, inv⟩ := ran.invariant
  have wf := (w.frame isFrame).frame
  have apart := last.ne_argumentsIndex few
  have resolved : f.function.code.resolve? (.name "arguments") = some i :=
    inv.function ▸ (Function.resolve?_name few).2 (.inl last)
  have binds := w.binds isFrame resolved
  refine ⟨last, apart, binds, fun {value h'} done => ?_, fun {value h'} done => ?_⟩
  · obtain ⟨f', written, assigned⟩ := wf.set i value
    obtain ⟨_, set, put⟩ := binds.put value
    obtain rfl := Except.ok.inj (put.symm.trans done)
    rw [Heap.setBinding, isFrame, Checked.ok_bind, written] at set
    cases set
    have isFrame' : (h.setFrame f').frame c.frame = .ok f' :=
      Heap.frame_setFrame_self isFrame (assigned.id_eq.trans inv.id)
    rw [Heap.fst_argumentsValue isFrame', Heap.fst_argumentsValue isFrame, Frame.argumentsValue,
      Frame.argumentsValue, Frame.argumentsBinding_set written apart, assigned.id_eq]
  · rw [Heap.setBinding_argumentsIndex isFrame] at done
    cases done
    have resolved' : (f.rebind (some value)).function.code.resolve? (.name "arguments") = some i :=
      resolved
    rw [Heap.fst_get, Heap.fst_get, Heap.read, Heap.frame_rebind isFrame inv.id, Heap.read, isFrame,
      Checked.ok_bind, Checked.ok_bind, Frame.getByKey, Frame.getByKey, Frame.resolve?_eq,
      Frame.resolve?_eq, resolved, resolved']
    simp only [f.get_rebind (some value) apart]

/-- The bound `few` is that of 32-bit positions: among more names two would have one position. -/
theorem arguments_are_rebound : c.HasPlace ops h := by
  obtain ⟨w, f, isFrame, inv⟩ := ran.invariant
  have binding := ran.argumentsBinding few isFrame
  have value : f.argumentsValue = (c.rebound? ops).getD (.object (.arguments c.frame)) := by
    rw [Frame.argumentsValue, binding, inv.id]
  have shown : h.argumentsValue c.frame = .ok (f.argumentsValue, h.handOut f.argumentsValue) := by
    simp [Heap.argumentsValue, isFrame]
  refine ⟨?_, fun none => ?_, fun {v} rebound => ?_, fun undeclared => ?_, fun declared => ?_,
    ran.rebinds few⟩
  · rw [Heap.getBinding, isFrame, Checked.ok_bind, Frame.get_argumentsIndex, shown]
    rfl
  · rw [none, Option.getD_none] at value
    refine ⟨h.setFrame f.withArguments, by simp [Heap.arguments, isFrame], ?_⟩
    rw [shown, value, Heap.handOut, isFrame]
  · rw [rebound, Option.getD_some] at value
    exact ⟨_, value ▸ shown⟩
  · exact w.binds isFrame (inv.function ▸ Function.resolve?_arguments few undeclared)
  · obtain ⟨i, last⟩ := Function.exists_lastAt few declared
    exact ⟨i, ran.shadows few last⟩

end

/-- A frame rebinds the place by its position and then by its name. In another, a parameter has the name,
so that only the first of the two is a rebinding. -/
theorem arguments_are_rebound_of_both : ∃ c ops h c' ops' h', Ran c ops h ∧
    c.function.code.names.length < UInt32.size ∧ "arguments" ∉ c.function.code.names ∧
    c.rebound? ops = some .null ∧ c.HasPlace ops h ∧ Ran c' ops' h' ∧
    c'.function.code.names.length < UInt32.size ∧ "arguments" ∈ c'.function.code.names ∧
    c'.rebound? ops' = some (.boolean true) ∧ c'.HasPlace ops' h' := by
  let call (parameter : String) : Call :=
    ⟨⟨0⟩, { id := ⟨0⟩, code := { paramNames := [parameter] } }, #[.undefined]⟩
  have ran : Ran (call "a") [.put (.activation ⟨0⟩) (.name "arguments") .null,
      .setBinding ⟨0⟩ argumentsIndex (.boolean true), .argumentsValue ⟨0⟩] _ :=
    ran_afterAll ⟨0⟩ .null [.makeTable {}] _ (by decide +kernel) (by decide +kernel)
  have ran' : Ran (call "arguments") [.put (.activation ⟨0⟩) (.name "arguments") .null,
      .setBinding ⟨0⟩ argumentsIndex (.boolean true), .argumentsValue ⟨0⟩] _ :=
    ran_afterAll ⟨0⟩ .null [.makeTable {}] _ (by decide +kernel) (by decide +kernel)
  exact ⟨_, _, _, _, _, _, ran, by decide, by decide, by decide, arguments_are_rebound ran (by decide),
    ran', by decide, by decide, by decide, arguments_are_rebound ran' (by decide)⟩

end Call

end ShapeVM
