import ShapeVM.Proofs.Frame.Names

/-!
Constants. A slot of a frame gets its final value once: from then on no write reaches it, by position,
by name, by another final value or through the arguments object. The positions below the first slot and
those past the last one are never constant.
-/
namespace ShapeVM

/-! ## Slots -/

namespace LocalSlot

variable (slot : LocalSlot) (value : Value)

/-- The value that a slot was given for good. -/
def final? : LocalSlot → Option Value
  | var _ => none
  | const v => some v

theorem isConst_eq : slot.isConst = slot.final?.isSome := by
  cases slot with
  | var _ => rfl
  | const _ => rfl

theorem final?_assign : (slot.assign value).final? = slot.final? := by
  cases slot with
  | var _ => rfl
  | const _ => rfl

theorem final?_freeze : (slot.freeze value).final? = some (slot.final?.getD value) := by
  cases slot with
  | var _ => rfl
  | const _ => rfl

theorem value_of_final? {slot : LocalSlot} {value : Value} (final : slot.final? = some value) :
    slot.value = value := by
  cases slot with
  | var _ => cases final
  | const _ => exact Option.some.inj final

end LocalSlot

namespace Frame

variable {f f' : Frame} {i j : UInt32} {value : Value}

/-- The position is a slot of the frame: a local, or a parameter that got no argument. -/
def HasSlot (f : Frame) (i : UInt32) : Prop := f.localsStart ≤ i ∧ i < f.bindingCount

instance (f : Frame) (i : UInt32) : Decidable (f.HasSlot i) :=
  inferInstanceAs (Decidable (f.localsStart ≤ i ∧ i < f.bindingCount))

/-- The value that the slot at a position was given for good. -/
def final? (f : Frame) (i : UInt32) : Option Value :=
  if f.HasSlot i then (f.locals.get? (f.slotIndex i)).bind (·.final?) else none

theorem not_hasSlot_argumentsIndex (f : Frame) : ¬f.HasSlot argumentsIndex := by
  rintro ⟨_, inside⟩
  rw [UInt32.lt_iff_toNat_lt] at inside
  exact Nat.not_lt.2 (Nat.le_of_lt_succ f.bindingCount.toNat_lt) inside

theorem final?_of_not_hasSlot (outside : ¬f.HasSlot i) : f.final? i = none := if_neg outside

theorem WellFormed.slot (w : f.WellFormed) (slot : f.HasSlot i) :
    ∃ s, f.locals.get? (f.slotIndex i) = some s ∧ f.final? i = s.final? := by
  obtain ⟨s, found⟩ := w.read_slot (UInt32.not_lt.2 slot.1) slot.2
  refine ⟨s, found, ?_⟩
  rw [final?, if_pos slot, found, Option.bind_some]

theorem WellFormed.isConst_eq (w : f.WellFormed) (i : UInt32) :
    f.isConst i = .ok (f.final? i).isSome := by
  rw [Frame.isConst]
  by_cases slot : f.HasSlot i
  · obtain ⟨s, found, final⟩ := w.slot slot
    rw [if_pos (by simpa [HasSlot] using slot), Cells.read_eq_ok.2 found, final]
    exact congrArg Except.ok s.isConst_eq
  · rw [if_neg (by simpa [HasSlot] using slot), final?_of_not_hasSlot slot]
    rfl

theorem WellFormed.get_of_final? (w : f.WellFormed) (final : f.final? i = some value) :
    f.get i = .ok value := by
  by_cases slot : f.HasSlot i
  · obtain ⟨s, found, isFinal⟩ := w.slot slot
    rw [Frame.get, if_neg (UInt32.not_lt.2 slot.1), if_pos slot.2, Cells.read_eq_ok.2 found]
    exact congrArg Except.ok (LocalSlot.value_of_final? (isFinal.symm.trans final))
  · cases (final?_of_not_hasSlot slot).symm.trans final

/-! ## Writing -/

/-- A change of slots that goes by what they were given for good changes one of them. -/
theorem final?_updateSlot {change : LocalSlot → LocalSlot} {g : Option Value → Option Value}
    (slot : f.HasSlot i) (done : f.updateSlot i change = .ok f')
    (changes : ∀ s, (change s).final? = g s.final?) (j : UInt32) :
    f'.final? j = if j = i then g (f.final? i) else f.final? j := by
  obtain ⟨s, found, done⟩ := Checked.bind_eq_ok.1 done
  obtain ⟨locals, written, ⟨⟩⟩ := Checked.bind_eq_ok.1 done
  obtain ⟨inside, rfl⟩ := Cells.write_eq_ok.1 written
  have kept : final? { f with locals := f.locals.set (f.slotIndex i) (change s) } j =
      if f.HasSlot j then
        ((f.locals.set (f.slotIndex i) (change s)).get? (f.slotIndex j)).bind (·.final?)
      else none := rfl
  rw [kept, Cells.get?_set]
  by_cases same : j = i
  · subst same
    rw [if_pos slot, if_pos ⟨rfl, inside⟩, if_pos rfl, final?, if_pos slot, Cells.read_eq_ok.1 found]
    exact changes s
  · have apart : ¬(f.slotIndex i = f.slotIndex j ∧ f.slotIndex i < f.locals.size) :=
      fun both => same (slotIndex_inj both.1.symm)
    rw [if_neg apart, if_neg same]
    rfl

theorem final?_set (done : f.set i value = .ok f') (j : UInt32) : f'.final? j = f.final? j := by
  rw [Frame.set] at done
  split at done
  · cases done
    rfl
  · next start =>
    split at done
    · next inside =>
      have slot : f.HasSlot i := ⟨UInt32.not_lt.1 start, inside⟩
      rw [final?_updateSlot (g := fun final => final) slot done (·.final?_assign value)]
      split
      · next same => rw [same]
      · rfl
    · split at done
      · cases done
        rfl
      · cases done
        rfl

theorem final?_setConst (done : f.setConst i value = .ok f') (j : UInt32) :
    f'.final? j = if j = i ∧ f.HasSlot j then some ((f.final? j).getD value) else f.final? j := by
  rw [Frame.setConst] at done
  split at done
  · next slot =>
    have slot : f.HasSlot i := by simpa [HasSlot] using slot
    rw [final?_updateSlot (g := fun final => some (final.getD value)) slot done
      (·.final?_freeze value)]
    by_cases same : j = i
    · subst same
      rw [if_pos rfl, if_pos ⟨rfl, slot⟩]
    · rw [if_neg same, if_neg fun both => same both.1]
  · next outside =>
    cases done
    have outside : ¬f.HasSlot i := by simpa [HasSlot] using outside
    rw [if_neg]
    rintro ⟨rfl, slot⟩
    exact outside slot

theorem setConst_of_not_hasSlot (outside : ¬f.HasSlot i) (value : Value) :
    f.setConst i value = .ok f := if_neg (by simpa [HasSlot] using outside)

end Frame

/-! ## One operation -/

namespace Heap.FrameEffect

variable {h : Heap} {op : Operation} {f f' : Frame}

theorem bindingCount (effect : h.FrameEffect f op f') : f'.bindingCount = f.bindingCount := by
  cases effect with
  | built _ => rw [Frame.withArguments_eq]
  | assign _ _ done _ =>
    obtain ⟨_, _, rfl⟩ := done.frame
    rfl
  | freeze done _ =>
    obtain ⟨_, _, rfl⟩ := done.frame
    rfl
  | _ => rfl

theorem hasSlot (effect : h.FrameEffect f op f') (i : UInt32) : f'.HasSlot i ↔ f.HasSlot i := by
  obtain ⟨_, _, start, _⟩ := effect.call
  rw [Frame.HasSlot, start, effect.bindingCount, Frame.HasSlot]

/-- Only the first of the values that a slot is given for good counts. -/
theorem final? (effect : h.FrameEffect f op f') (i : UInt32) : f'.final? i =
    match op.final? f.id i with
    | some value => if f.HasSlot i then some ((f.final? i).getD value) else none
    | none => f.final? i := by
  cases effect with
  | still elsewhere => rw [Operation.final?_of_frame?_ne elsewhere]
  | built isRead =>
    rw [Operation.final?_of_frame?_ne (by simp [isRead.frame?]), Frame.withArguments_eq]
    rfl
  | assign _ touch _ written =>
    rw [Operation.final?_of_touch? ((touch _).trans (if_pos rfl)), Frame.final?_set written]
  | @freeze j value _ _ written =>
    rw [Frame.final?_setConst written, Operation.final?]
    by_cases same : j = i
    · subst same
      by_cases slot : f.HasSlot j
      · simp [slot]
      · simp [slot, Frame.final?_of_not_hasSlot]
    · simp [same, Ne.symm same]
  | ownProperty _ _ _ unfinal =>
    rw [unfinal]
    rfl
  | putArgument _ => rfl
  | putProperty _ _ _ => rfl
  | deleteProperty _ => rfl

theorem makes_constant (effect : h.FrameEffect f op f') {i : UInt32} (before : f.final? i = none)
    (after : (f'.final? i).isSome = true) :
    f.HasSlot i ∧ ∃ value, op = .setConstBinding f.id i value := by
  rw [effect.final?] at after
  cases final : op.final? f.id i with
  | none =>
    rw [final, before] at after
    cases after
  | some value =>
    refine ⟨?_, value, Operation.eq_of_final? final⟩
    by_cases slot : f.HasSlot i
    · exact slot
    · simp [final, slot] at after

end Heap.FrameEffect

/-! ## A call -/

namespace Call

variable {c : Call} {ops : List Operation} {h h' : Heap} {f : Frame} {i : UInt32}

/-- The values that a history gave the slot at a position for good, the newest first. -/
def finals (c : Call) (i : UInt32) (ops : List Operation) : List Value :=
  ops.filterMap (·.final? c.frame i)

theorem finals_cons_of_none {op : Operation} (unfinal : op.final? c.frame i = none) :
    c.finals i (op :: ops) = c.finals i ops := List.filterMap_cons_none unfinal

theorem finals_cons_of_some {op : Operation} {value : Value}
    (final : op.final? c.frame i = some value) : c.finals i (op :: ops) = value :: c.finals i ops :=
  List.filterMap_cons_some final

theorem finals_append (c : Call) (i : UInt32) (later ops : List Operation) :
    c.finals i (later ++ ops) = c.finals i later ++ c.finals i ops := List.filterMap_append

theorem final?_ofCall (id : FrameId) (table : TableId) (function : FunctionRef) (args : Array Value)
    (objectConstructor : Value) (i : UInt32) :
    (Frame.ofCall id table function args objectConstructor).final? i = none := by
  rw [Frame.final?]
  split
  · simp only [Frame.ofCall, Cells.get?, Array.getElem?_replicate]
    split
    · simp [LocalSlot.final?]
    · rfl
  · rfl

theorem Ran.final? (ran : c.Ran ops h) : ∃ f, h.frame c.frame = .ok f ∧
    f.bindingCount = c.function.code.bindingCount ∧
    ∀ i, f.final? i = if f.HasSlot i then (c.finals i ops).getLast? else none := by
  induction ran with
  | @made h₀ h₁ table objectConstructor reachable named made =>
    obtain ⟨_, ⟨⟩⟩ := made
    refine ⟨_, (Heap.frame_allocFrame ..).trans (if_pos named), rfl, fun i => ?_⟩
    rw [final?_ofCall, finals, List.filterMap_nil, List.getLast?_nil, ite_self]
  | @step ops h op h' ran step ih =>
    -- Histories have the newest first: an older final value stays the last of the list.
    obtain ⟨f, isFrame, count, final⟩ := ih
    have w := ran.invariant.1
    obtain ⟨f', isFrame', effect⟩ := step.effect.frameEffect w isFrame
    refine ⟨f', isFrame', effect.bindingCount.trans count, fun i => ?_⟩
    rw [effect.final?, final, (w.frame isFrame).id]
    simp only [effect.hasSlot]
    cases isFinal : op.final? c.frame i with
    | none => rw [finals_cons_of_none isFinal]
    | some value =>
      rw [finals_cons_of_some isFinal, List.getLast?_cons]
      by_cases slot : f.HasSlot i
      · simp [slot]
      · simp [slot]

theorem bindingCount_eq {id : FrameId} (reachable : h.Reachable) (isFrame : h.frame id = .ok f) :
    f.bindingCount = f.function.code.bindingCount := by
  obtain ⟨c, ops, rfl, ran⟩ := exists_ran reachable isFrame
  obtain ⟨_, found, count, _⟩ := ran.final?
  obtain rfl := Except.ok.inj (isFrame.symm.trans found)
  obtain ⟨_, _, found, inv⟩ := ran.invariant
  obtain rfl := Except.ok.inj (isFrame.symm.trans found)
  rw [count, inv.function]

/-- A slot that was given a value for good answers with this value, by position and by name. -/
structure Constant (c : Call) (h : Heap) (i : UInt32) (value : Value) : Prop where
  isConst : h.isConstBinding c.frame i = .ok true
  get : ∃ h', h.getBinding c.frame i = .ok (value, h')
  getByKey : ∀ {key}, c.function.code.resolve? key = some i →
    ∃ h', h.get (.activation c.frame) key = .ok (some value, h')

theorem constant_of_final? {value : Value} (w : h.WellFormed) (isFrame : h.frame c.frame = .ok f)
    (function : f.function = c.function) (final : f.final? i = some value) : c.Constant h i value := by
  have wf := (w.frame isFrame).frame
  have found := wf.get_of_final? final
  have get : h.getBinding c.frame i = .ok (value, h.handOut value) := by
    simp [Heap.getBinding, isFrame, found]
  refine ⟨?_, ⟨_, get⟩, fun {key} resolved => ?_⟩
  · simp [Heap.isConstBinding, isFrame, wf.isConst_eq, final]
  · rw [← function] at resolved
    obtain ⟨_, _, got, gotByKey⟩ := (w.binds isFrame resolved).get
    cases get.symm.trans got
    exact ⟨_, gotByKey⟩

theorem Ran.isConst_eq (ran : c.Ran ops h) (isFrame : h.frame c.frame = .ok f) (i : UInt32) :
    h.isConstBinding c.frame i = .ok (f.final? i).isSome := by
  simp [Heap.isConstBinding, isFrame, (ran.invariant.1.frame isFrame).frame.isConst_eq]

/-- The first of the values that a slot was given for good is the first in every longer history. -/
theorem Ran.constant_of_finals {later : List Operation} {value : Value} (ran : c.Ran ops h)
    (isFrame : h.frame c.frame = .ok f) (slot : f.HasSlot i)
    (first : (c.finals i ops).getLast? = some value) (runs : h.Runs later h') :
    c.Constant h' i value := by
  obtain ⟨_, found, count, _⟩ := ran.final?
  obtain rfl := Except.ok.inj (isFrame.symm.trans found)
  obtain ⟨_, _, found, inv⟩ := ran.invariant
  obtain rfl := Except.ok.inj (isFrame.symm.trans found)
  have ran' := ran.runs runs
  obtain ⟨f', isFrame', count', final'⟩ := ran'.final?
  obtain ⟨w', _, found, inv'⟩ := ran'.invariant
  obtain rfl := Except.ok.inj (isFrame'.symm.trans found)
  have slot' : f'.HasSlot i := by
    rw [Frame.HasSlot, inv'.localsStart, count']
    rwa [Frame.HasSlot, inv.localsStart, count] at slot
  refine constant_of_final? w' isFrame' inv'.function ?_
  rw [final', if_pos slot', finals_append, List.getLast?_append, first]
  rfl

theorem Ran.makes_constant {op : Operation} (ran : c.Ran ops h) (isFrame : h.frame c.frame = .ok f)
    (step : h.Step op h') (before : h.isConstBinding c.frame i = .ok false)
    (after : h'.isConstBinding c.frame i = .ok true) :
    f.HasSlot i ∧ ∃ value, op = .setConstBinding c.frame i value := by
  have w := ran.invariant.1
  obtain ⟨f', isFrame', effect⟩ := step.effect.frameEffect w isFrame
  rw [ran.isConst_eq isFrame] at before
  rw [(Ran.step ran step).isConst_eq isFrame'] at after
  have absent : f.final? i = none :=
    Option.isNone_iff_eq_none.1 (Option.isSome_eq_false_iff.1 (Except.ok.inj before))
  have made := effect.makes_constant absent (Except.ok.inj after)
  rwa [(w.frame isFrame).id] at made

theorem not_hasSlot_of_outside
    (outside : i < f.localsStart ∨ f.bindingCount ≤ i ∨ i = argumentsIndex) : ¬f.HasSlot i := by
  intro slot
  rcases outside with parameter | past | rfl
  · exact UInt32.not_le.2 parameter slot.1
  · exact UInt32.not_lt.2 past slot.2
  · exact f.not_hasSlot_argumentsIndex slot

/-- Constants over the life of a frame. -/
structure KeepsConstants (c : Call) (ops : List Operation) (h : Heap) (f : Frame) : Prop where
  localsStart : f.localsStart = c.localsStart
  bindingCount : f.bindingCount = c.function.code.bindingCount
  isConst : ∀ i, h.isConstBinding c.frame i = .ok (decide (f.HasSlot i ∧ c.finals i ops ≠ []))
  /-- Whatever happens later, a constant keeps the first of the values it was given for good. -/
  permanent : ∀ {i value later h'}, f.HasSlot i → (c.finals i ops).getLast? = some value →
    h.Runs later h' → c.Constant h' i value
  /-- Nothing else makes a constant. -/
  made : ∀ {i op h'}, h.Step op h' → h.isConstBinding c.frame i = .ok false →
    h'.isConstBinding c.frame i = .ok true →
    f.HasSlot i ∧ ∃ value, op = .setConstBinding c.frame i value
  outside : ∀ {i}, i < f.localsStart ∨ f.bindingCount ≤ i ∨ i = argumentsIndex →
    h.isConstBinding c.frame i = .ok false ∧ ∀ value, h.setConstBinding c.frame i value = .ok h

theorem constants_are_permanent (ran : c.Ran ops h) :
    ∃ f, h.frame c.frame = .ok f ∧ c.KeepsConstants ops h f := by
  obtain ⟨f, isFrame, count, final⟩ := ran.final?
  obtain ⟨w, _, found, inv⟩ := ran.invariant
  obtain rfl := Except.ok.inj (isFrame.symm.trans found)
  refine ⟨f, isFrame, inv.localsStart, count, fun i => ?_, ran.constant_of_finals isFrame,
    ran.makes_constant isFrame, fun {i} outside => ?_⟩
  · rw [ran.isConst_eq isFrame, final]
    by_cases slot : f.HasSlot i
    · rw [if_pos slot]
      cases c.finals i ops with
      | nil => simp
      | cons newest older => simp [slot]
    · simp [slot]
  · have outside := not_hasSlot_of_outside outside
    refine ⟨?_, fun value => ?_⟩
    · rw [ran.isConst_eq isFrame, Frame.final?_of_not_hasSlot outside]
      rfl
    · have same : h.setFrame f = h := Heap.setFrame_self ((w.frame isFrame).id.symm ▸ isFrame)
      simp [Heap.setConstBinding, isFrame, Frame.setConst_of_not_hasSlot outside, same]

/-- The parameter `b`, which got no argument, is made constant. A second final value, a write by
position, one by name and one to the same index of the arguments object come after it. -/
theorem constants_are_permanent_of_parameter : ∃ c ops h f, Ran c ops h ∧
    h.frame c.frame = .ok f ∧ c.KeepsConstants ops h f ∧ f.HasSlot 1 ∧
    c.finals 1 ops = [.boolean true, .null] ∧ c.function.code.resolve? (.name "b") = some 1 ∧
    c.Constant h 1 .null := by
  let code : Function := { paramNames := ["a", "b"] }
  have ran : Ran ⟨⟨0⟩, { id := ⟨0⟩, code }, #[.undefined]⟩ [
      .putArgument ⟨0⟩ 1 (.boolean true), .arguments ⟨0⟩,
      .put (.activation ⟨0⟩) (.name "b") (.boolean true), .setBinding ⟨0⟩ 1 (.boolean true),
      .setConstBinding ⟨0⟩ 1 (.boolean true), .setConstBinding ⟨0⟩ 1 .null] _ :=
    ran_afterAll ⟨0⟩ .null [.makeTable {}] _ (by decide +kernel) (by decide +kernel)
  obtain ⟨f, isFrame, keeps⟩ := constants_are_permanent ran
  have slot : f.HasSlot 1 := by
    rw [Frame.HasSlot, keeps.localsStart, keeps.bindingCount]
    decide
  exact ⟨_, _, _, f, ran, isFrame, keeps, slot, rfl, rfl, keeps.permanent slot rfl .start⟩

end Call

end ShapeVM
