import ShapeVM.Proofs.Frame.Aliasing
import ShapeVM.Proofs.Heap.Separation

/-!
The positions of a frame. Below the supplied parameters they are arguments, from there to the binding
count they are slots, the last position of all is that of the arguments object, and those between have
nothing. Each of them is a cell of its own: a write to one shows there, unless it is a constant or has
no binding, and nowhere else.
-/
namespace ShapeVM

namespace Cells

variable {α : Type} {c : Cells α} {i : Nat} {x : α}

@[simp] theorem initial_set (c : Cells α) (i : Nat) (x : α) : (c.set i x).initial = c.initial := by
  rw [set]
  split
  · rfl
  · rfl

/-- Writing again what was written. -/
theorem set_self (found : c.get? i = some x) (written : c.initial[i]? ≠ some x) : c.set i x = c := by
  obtain ⟨y, at_i, current⟩ := Option.map_eq_some_iff.1 found
  have changed : y ≠ x := fun same => written (same ▸ at_i)
  have recorded : c.written[i]? = some x := by
    rw [Std.ExtTreeMap.getD_eq_getD_getElem?] at current
    cases entry : c.written[i]? with
    | none => exact absurd (by simpa [entry] using current) changed
    | some z => simpa [entry] using current
  rw [set]
  split
  · congr 1
    refine Std.ExtTreeMap.ext_getElem? fun {j} => ?_
    simp only [Std.ExtTreeMap.getElem?_insert, Std.compare_eq_iff_eq]
    split
    · next same => rw [← same, recorded]
    · rfl
  · rfl

theorem eq_of_get?_replicate {n : Nat} {y : α}
    (found : get? { initial := Array.replicate n x } i = some y) : y = x := by
  simp only [get?, Array.getElem?_replicate, Option.map_eq_some_iff] at found
  obtain ⟨_, made, rfl⟩ := found
  obtain ⟨_, ⟨⟩⟩ := Option.ite_none_right_eq_some.1 made
  exact Std.ExtTreeMap.getD_empty

end Cells

namespace Frame

variable {f f' : Frame} {i : UInt32} {value v : Value}

/-! ## Slots as they were made -/

theorem initial_updateSlot {change : LocalSlot → LocalSlot} (done : f.updateSlot i change = .ok f') :
    f'.locals.initial = f.locals.initial := by
  obtain ⟨_, _, done⟩ := Checked.bind_eq_ok.1 done
  obtain ⟨_, written, ⟨⟩⟩ := Checked.bind_eq_ok.1 done
  obtain ⟨_, rfl⟩ := Cells.write_eq_ok.1 written
  exact Cells.initial_set ..

theorem initial_set (done : f.set i value = .ok f') : f'.locals.initial = f.locals.initial := by
  rw [Frame.set] at done
  split at done
  · cases done
    rfl
  · split at done
    · exact initial_updateSlot done
    · split at done
      · cases done
        rfl
      · cases done
        rfl

theorem initial_setConst (done : f.setConst i value = .ok f') :
    f'.locals.initial = f.locals.initial := by
  rw [Frame.setConst] at done
  split at done
  · exact initial_updateSlot done
  · cases done
    rfl

/-- No slot is made a constant one. -/
def MadeVariable (f : Frame) : Prop := ∃ n, f.locals.initial = Array.replicate n (.var .undefined)

/-! ## Constants and positions without a binding -/

theorem hasSlot_of_final? (final : f.final? i = some v) : f.HasSlot i := by
  apply Decidable.byContradiction
  intro outside
  cases (final?_of_not_hasSlot outside).symm.trans final

/-- A constant takes no second value. -/
theorem WellFormed.setConst_of_final? (w : f.WellFormed) (made : f.MadeVariable)
    (final : f.final? i = some v) (value : Value) : f.setConst i value = .ok f := by
  have slot := hasSlot_of_final? final
  obtain ⟨s, found, isFinal⟩ := w.slot slot
  obtain ⟨n, made⟩ := made
  cases s with
  | var _ => cases isFinal.symm.trans final
  | const v' =>
    have written : f.locals.initial[f.slotIndex i]? ≠ some (.const v') := by
      rw [made, Array.getElem?_replicate]
      split <;> simp
    have kept : f.locals.write (f.slotIndex i) (.const v') = .ok f.locals := by
      rw [Cells.write_eq_ok, Cells.set_self found written]
      exact ⟨w.slotIndex_lt (UInt32.not_lt.2 slot.1) slot.2, rfl⟩
    rw [Frame.setConst, if_pos (by simpa [HasSlot] using slot), Frame.updateSlot,
      Cells.read_eq_ok.2 found, Checked.ok_bind, LocalSlot.freeze, kept]
    rfl

theorem WellFormed.get_setConst (w : f.WellFormed) (slot : f.HasSlot i) (free : f.final? i = none)
    (done : f.setConst i value = .ok f') : f'.get i = .ok value := by
  obtain ⟨s, found, isFinal⟩ := w.slot slot
  rw [Frame.setConst, if_pos (by simpa [HasSlot] using slot)] at done
  rw [get_updateSlot slot found done]
  cases s with
  | var _ => rfl
  | const _ => cases isFinal.symm.trans free

theorem get_of_unbound (supplied : ¬i < f.localsStart) (unbound : ¬i < f.bindingCount)
    (apart : i ≠ argumentsIndex) : f.get i = .ok .undefined := by
  rw [get, if_neg supplied, if_neg unbound, if_neg apart]
  rfl

end Frame

namespace Heap

variable {h h' : Heap} {op : Operation} {f f' : Frame} {id : FrameId} {i : UInt32}

theorem FrameEffect.initial (effect : h.FrameEffect f op f') :
    f'.locals.initial = f.locals.initial := by
  cases effect with
  | still _ => rfl
  | built _ => rw [Frame.withArguments_eq]
  | assign _ _ _ done => exact Frame.initial_set done
  | freeze _ done => exact Frame.initial_setConst done
  | ownProperty _ _ _ _ => rfl
  | putArgument _ => rfl
  | putProperty _ _ _ => rfl
  | deleteProperty _ => rfl

/-- What a position of a frame reads as. -/
def valueAt (h : Heap) (id : FrameId) (i : UInt32) : Checked Value := (·.1) <$> h.getBinding id i

theorem valueAt_eq (isFrame : h.frame id = .ok f) (i : UInt32) : h.valueAt id i = f.get i :=
  fst_getBinding isFrame i

theorem isConstBinding_eq (isFrame : h.frame id = .ok f) (wf : f.WellFormed) (i : UInt32) :
    h.isConstBinding id i = .ok (f.final? i).isSome := by
  simp [isConstBinding, isFrame, wf.isConst_eq]

end Heap

namespace Call

variable {c : Call} {ops : List Operation} {h h' : Heap} {f f' : Frame} {i : UInt32} {value : Value}

/-- How many positions have a binding, that of the arguments object apart. -/
def count (c : Call) : Nat := c.function.code.paramNames.length + c.function.code.localNames.length

theorem supplied_le_count (c : Call) : c.supplied ≤ c.count :=
  Nat.le_trans (Nat.min_le_right ..) (Nat.le_add_right ..)

theorem Ran.madeVariable (ran : c.Ran ops h) (isFrame : h.frame c.frame = .ok f) : f.MadeVariable := by
  induction ran generalizing f with
  | @made h₀ h₁ table objectConstructor _ named made =>
    obtain ⟨_, ⟨⟩⟩ := made
    rw [Heap.frame_allocFrame, if_pos named] at isFrame
    cases isFrame
    exact ⟨_, rfl⟩
  | step ran step ih =>
    obtain ⟨w, f₀, isFrame₀, _⟩ := ran.invariant
    obtain ⟨f', isFrame', effect⟩ := step.effect.frameEffect w isFrame₀
    obtain rfl := Except.ok.inj (isFrame'.symm.trans isFrame)
    obtain ⟨n, made⟩ := ih isFrame₀
    exact ⟨n, effect.initial.trans made⟩

/-- The frame has the positions of the call. -/
structure Placed (c : Call) (f : Frame) : Prop where
  id : f.id = c.frame
  wellFormed : f.WellFormed
  made : f.MadeVariable
  supplied : ∀ {i}, i < f.localsStart ↔ i.toNat < c.supplied
  count : ∀ {i}, i < f.bindingCount ↔ i.toNat < c.count

theorem Ran.placed (ran : c.Ran ops h) (countable : c.Countable) (isFrame : h.frame c.frame = .ok f) :
    c.Placed f := by
  obtain ⟨w, _, found, inv⟩ := ran.invariant
  obtain rfl := Except.ok.inj (isFrame.symm.trans found)
  obtain ⟨_, found, count, _⟩ := ran.final?
  obtain rfl := Except.ok.inj (isFrame.symm.trans found)
  have few : c.function.code.names.length < UInt32.size := by
    rw [Function.names, List.length_append]
    exact countable.bindings
  refine ⟨inv.id, (w.frame isFrame).frame, ran.madeVariable isFrame, fun {i} => ?_, fun {i} => ?_⟩
  · rw [inv.localsStart, UInt32.lt_iff_toNat_lt, countable.toNat_localsStart]
  · rw [count, UInt32.lt_iff_toNat_lt, Function.toNat_bindingCount few, Function.names,
      List.length_append, Call.count]

/-! ## Cells -/

/-- The position is a slot that is not constant. -/
def IsVariable (c : Call) (h : Heap) (i : UInt32) : Prop :=
  c.supplied ≤ i.toNat ∧ i.toNat < c.count ∧ h.isConstBinding c.frame i = .ok false

/-- The frame when it was made. -/
structure Opens (c : Call) (h : Heap) : Prop where
  argument : ∀ {i : UInt32}, i.toNat < c.supplied →
    ∃ value, c.args[i.toNat]? = some value ∧ h.valueAt c.frame i = .ok value
  undefined : ∀ {i : UInt32}, c.supplied ≤ i.toNat → i.toNat < c.count →
    h.valueAt c.frame i = .ok .undefined
  isConst : ∀ i, h.isConstBinding c.frame i = .ok false

/-- At every other position the two heaps have the same. -/
structure SparesOthers (c : Call) (h : Heap) (i : UInt32) (h' : Heap) : Prop where
  valueAt : ∀ {j}, j ≠ i → h'.valueAt c.frame j = h.valueAt c.frame j
  isConst : ∀ {j}, j ≠ i → h'.isConstBinding c.frame j = h.isConstBinding c.frame j

/-- What a write of the position leaves. -/
structure Assigns (c : Call) (h : Heap) (i : UInt32) (value : Value) (h' : Heap) : Prop where
  written : i.toNat < c.supplied ∨ c.IsVariable h i ∨ i = argumentsIndex →
    h'.valueAt c.frame i = .ok value
  constant : h.isConstBinding c.frame i = .ok true → h'.valueAt c.frame i = h.valueAt c.frame i
  unbound : c.count ≤ i.toNat → i < argumentsIndex → h'.valueAt c.frame i = .ok .undefined
  others : c.SparesOthers h i h'

/-- What giving the position a value for good leaves. -/
structure Freezes (c : Call) (h : Heap) (i : UInt32) (value : Value) (h' : Heap) : Prop where
  written : c.IsVariable h i →
    h'.valueAt c.frame i = .ok value ∧ h'.isConstBinding c.frame i = .ok true
  ignored : ¬c.IsVariable h i → h' = h
  others : c.SparesOthers h i h'

namespace Placed

variable (placed : c.Placed f) (isFrame : h.frame c.frame = .ok f)
include placed

theorem hasSlot : f.HasSlot i ↔ c.supplied ≤ i.toNat ∧ i.toNat < c.count := by
  rw [Frame.HasSlot, placed.count, ← UInt32.not_lt, placed.supplied, Nat.not_lt]

include isFrame

theorem isVariable : c.IsVariable h i ↔ f.HasSlot i ∧ f.final? i = none := by
  rw [IsVariable, Heap.isConstBinding_eq isFrame placed.wellFormed, Except.ok.injEq,
    Option.isSome_eq_false_iff, Option.isNone_iff_eq_none, ← and_assoc, ← placed.hasSlot]

theorem sparesOthers (isFrame' : h'.frame c.frame = .ok f') (w' : f'.WellFormed)
    (get : ∀ {j}, j ≠ i → f'.get j = f.get j) (final : ∀ {j}, j ≠ i → f'.final? j = f.final? j) :
    c.SparesOthers h i h' where
  valueAt {j} apart := by rw [Heap.valueAt_eq isFrame', Heap.valueAt_eq isFrame, get apart]
  isConst {j} apart := by
    rw [Heap.isConstBinding_eq isFrame' w', Heap.isConstBinding_eq isFrame placed.wellFormed,
      final apart]

/-- The positions that take a value have a binding, and none for good. -/
theorem bound_and_free (writable : i.toNat < c.supplied ∨ c.IsVariable h i ∨ i = argumentsIndex) :
    (i < f.bindingCount ∨ i = argumentsIndex) ∧ f.final? i = none := by
  obtain parameter | isVariable | rfl := writable
  · have outside : ¬f.HasSlot i := by
      intro slot
      exact Nat.not_lt.2 (placed.hasSlot.1 slot).1 parameter
    have inside := placed.count.2 (Nat.lt_of_lt_of_le parameter c.supplied_le_count)
    exact ⟨.inl inside, Frame.final?_of_not_hasSlot outside⟩
  · obtain ⟨slot, free⟩ := (placed.isVariable isFrame).1 isVariable
    exact ⟨.inl slot.2, free⟩
  · exact ⟨.inr rfl, Frame.final?_of_not_hasSlot f.not_hasSlot_argumentsIndex⟩

theorem exists_final? (isConst : h.isConstBinding c.frame i = .ok true) :
    ∃ final, f.final? i = some final := by
  rw [Heap.isConstBinding_eq isFrame placed.wellFormed, Except.ok.injEq] at isConst
  exact Option.isSome_iff_exists.1 isConst

omit isFrame in
theorem unbound (past : c.count ≤ i.toNat) : ¬i < f.localsStart ∧ ¬i < f.bindingCount := by
  rw [placed.supplied, placed.count, Nat.not_lt, Nat.not_lt]
  exact ⟨Nat.le_trans c.supplied_le_count past, past⟩

theorem setBinding (i : UInt32) (value : Value) :
    ∃ h', h.setBinding c.frame i value = .ok h' ∧ c.Assigns h i value h' := by
  have wf := placed.wellFormed
  obtain ⟨f', done, assigned⟩ := wf.set i value
  have isFrame' : (h.setFrame f').frame c.frame = .ok f' :=
    Heap.frame_setFrame_self isFrame (assigned.id_eq.trans placed.id)
  have shown (bound : i < f.bindingCount ∨ i = argumentsIndex) :
      (h.setFrame f').valueAt c.frame i = .ok ((f.final? i).getD value) := by
    rw [Heap.valueAt_eq isFrame', wf.get_set bound done]
  refine ⟨h.setFrame f', by simp [Heap.setBinding, isFrame, done], ?_, ?_, ?_, ?_⟩
  · intro writable
    obtain ⟨bound, free⟩ := placed.bound_and_free isFrame writable
    rw [shown bound, free, Option.getD_none]
  · intro isConst
    obtain ⟨final, isFinal⟩ := placed.exists_final? isFrame isConst
    rw [shown (.inl (Frame.hasSlot_of_final? isFinal).2), isFinal, Heap.valueAt_eq isFrame,
      wf.get_of_final? isFinal, Option.getD_some]
  · intro past below
    obtain ⟨parameter, binding⟩ := placed.unbound past
    have last : i ≠ argumentsIndex := UInt32.ne_of_lt below
    rw [Frame.set, if_neg parameter, if_neg binding, if_neg last] at done
    cases done
    rw [Heap.valueAt_eq isFrame', Frame.get_of_unbound parameter binding last]
  · exact placed.sparesOthers isFrame isFrame' (assigned.wellFormed (by split <;> simp) wf)
      assigned.others fun _ => Frame.final?_set done _

theorem setConstBinding (i : UInt32) (value : Value) :
    ∃ h', h.setConstBinding c.frame i value = .ok h' ∧ c.Freezes h i value h' := by
  have wf := placed.wellFormed
  obtain ⟨f', done, assigned⟩ := wf.setConst i value
  have isFrame' : (h.setFrame f').frame c.frame = .ok f' :=
    Heap.frame_setFrame_self isFrame (assigned.id_eq.trans placed.id)
  have w' := assigned.wellFormed rfl wf
  refine ⟨h.setFrame f', by simp [Heap.setConstBinding, isFrame, done], fun isVariable => ?_,
    fun fixed => ?_, ?_⟩
  · obtain ⟨slot, free⟩ := (placed.isVariable isFrame).1 isVariable
    rw [Heap.valueAt_eq isFrame', wf.get_setConst slot free done, Heap.isConstBinding_eq isFrame' w',
      Frame.final?_setConst done, if_pos ⟨rfl, slot⟩]
    exact ⟨rfl, rfl⟩
  · have same : f' = f := by
      by_cases slot : f.HasSlot i
      · cases isFinal : f.final? i with
        | none => exact (fixed ((placed.isVariable isFrame).2 ⟨slot, isFinal⟩)).elim
        | some v => exact Except.ok.inj (done.symm.trans (wf.setConst_of_final? placed.made isFinal value))
      · exact Except.ok.inj (done.symm.trans (Frame.setConst_of_not_hasSlot slot value))
    rw [same]
    exact Heap.setFrame_self (placed.id.symm ▸ isFrame)
  · refine placed.sparesOthers isFrame isFrame' w' assigned.others fun {j} apart => ?_
    rw [Frame.final?_setConst done, if_neg fun both => apart both.1]

end Placed

theorem Ran.opens (countable : c.Countable) (ran : c.Ran [] h) : c.Opens h := by
  cases ran with
  | @made h₀ _ table objectConstructor reachable named made =>
    have ran : c.Ran [] h := .made reachable named made
    obtain ⟨_, ⟨⟩⟩ := made
    let f := Frame.ofCall c.frame table c.function c.args objectConstructor
    have isFrame : Heap.frame _ c.frame = .ok f := (Heap.frame_allocFrame ..).trans (if_pos named)
    have placed := ran.placed countable isFrame
    refine ⟨fun {i} supplied => ?_, fun {i} start inside => ?_, fun i => ?_⟩
    · have inside : i.toNat < c.args.size := Nat.lt_of_lt_of_le supplied (Nat.min_le_left ..)
      have passed := Array.getElem?_eq_getElem inside
      refine ⟨c.args[i.toNat], passed, ?_⟩
      rw [Heap.valueAt_eq isFrame, Frame.get_of_lt (placed.supplied.2 supplied)]
      exact congrArg (fun found => Except.ok (Option.getD found .undefined))
        ((ArgumentList.get?_ofArray ..).trans passed)
    · have slot := placed.hasSlot.2 ⟨start, inside⟩
      obtain ⟨s, found, _⟩ := placed.wellFormed.slot slot
      obtain rfl := Cells.eq_of_get?_replicate found
      rw [Heap.valueAt_eq isFrame, Frame.get, if_neg (UInt32.not_lt.2 slot.1), if_pos slot.2,
        Cells.read_eq_ok.2 found]
      rfl
    · rw [Heap.isConstBinding_eq isFrame placed.wellFormed, final?_ofCall]
      rfl

/-- The positions of a call's frame, as it is made and whatever happens to it. -/
structure HasCells (c : Call) : Prop where
  opens : ∀ {h}, c.Ran [] h → c.Opens h
  setBinding : ∀ {ops h}, c.Ran ops h → ∀ i value,
    ∃ h', h.setBinding c.frame i value = .ok h' ∧ c.Assigns h i value h'
  setConstBinding : ∀ {ops h}, c.Ran ops h → ∀ i value,
    ∃ h', h.setConstBinding c.frame i value = .ok h' ∧ c.Freezes h i value h'

theorem positions_are_cells (countable : c.Countable) : c.HasCells := by
  refine ⟨fun ran => ran.opens countable, fun ran => ?_, fun ran => ?_⟩
  · obtain ⟨_, f, isFrame, _⟩ := ran.invariant
    exact (ran.placed countable isFrame).setBinding isFrame
  · obtain ⟨_, f, isFrame, _⟩ := ran.invariant
    exact (ran.placed countable isFrame).setConstBinding isFrame

/-- An argument for the first of two parameters, and a local: a parameter in the argument list, one in a
slot that is made constant, and a slot that stays variable. -/
theorem positions_are_cells_of_slots : ∃ c ops h, Countable c ∧ c.HasCells ∧ c.Ran ops h ∧
    c.supplied = 1 ∧ c.count = 3 ∧ h.valueAt c.frame 0 = .ok (.boolean true) ∧
    h.isConstBinding c.frame 1 = .ok true ∧ c.IsVariable h 2 := by
  let code : Function := { paramNames := ["a", "b"], localNames := ["x"] }
  obtain ⟨h, ran, written, isConst, notConst⟩ : ∃ h, Ran ⟨⟨0⟩, { id := ⟨0⟩, code }, #[.null]⟩ [
      .setBinding ⟨0⟩ 1 .null, .setConstBinding ⟨0⟩ 1 .undefined, .setBinding ⟨0⟩ 0 (.boolean true)] h ∧
      h.valueAt ⟨0⟩ 0 = .ok (.boolean true) ∧ h.isConstBinding ⟨0⟩ 1 = .ok true ∧
      h.isConstBinding ⟨0⟩ 2 = .ok false :=
    ⟨_, ran_afterAll ⟨0⟩ .null [.makeTable {}] _ (by decide +kernel) (by decide +kernel),
      by decide +kernel, by decide +kernel, by decide +kernel⟩
  exact ⟨_, _, h, ⟨by decide, by decide⟩, positions_are_cells ⟨by decide, by decide⟩, ran, rfl, rfl,
    written, isConst, by decide, by decide, notConst⟩

end Call

end ShapeVM
