import ShapeVM.Frame.Basic
import ShapeVM.Proofs.Frame.ArgumentsObject

/-!
What the bindings of a frame share with its arguments object. Whether the object was built or not, its
state is determined by the frame (`Frame.object`), so nothing that is read here can tell when it was
built. A write through the frame changes one argument or no argument.
-/
namespace ShapeVM

theorem Cells.read_eq_ok {α : Type} {c : Cells α} {i : Nat} {x : α} :
    c.read i = .ok x ↔ c.get? i = some x := by
  simp only [read]
  split <;> simp_all

theorem Cells.write_eq_ok {α : Type} {c c' : Cells α} {i : Nat} {x : α} :
    c.write i x = .ok c' ↔ i < c.size ∧ c' = c.set i x := by
  rw [write]
  split
  · next inside => simp [inside, eq_comm]
  · next outside => simp [outside]

namespace Frame

variable {f f' : Frame} {a : ArgumentsObject} {i j : UInt32} {value : Value} {key : Key}

/-! ## The arguments object -/

/-- An arguments object that was just built. -/
def freshArguments (f : Frame) : ArgumentsState where
  length := .int32 (Int32.ofNat f.args.size)
  callee := .function f.function
  objectConstructor := f.objectConstructor
  properties := .empty f.table

/-- The arguments object of a frame, as it is or as it is going to be built. -/
def object (f : Frame) : ArgumentsObject :=
  { f.arguments.getD f.freshArguments with args := f.args }

theorem withArguments_eq (f : Frame) :
    f.withArguments = { f with arguments := some (f.arguments.getD f.freshArguments) } := by
  obtain ⟨_, _, _, _, _, _, _, _, arguments, _, _, _⟩ := f
  cases arguments with
  | none => rfl
  | some state => rfl

theorem argumentsObject?_withArguments (f : Frame) :
    f.withArguments.argumentsObject? = some f.object := by
  rw [withArguments_eq]
  rfl

theorem object_of_argumentsObject? (built : f.argumentsObject? = some a) : f.object = a := by
  obtain ⟨state, isState, rfl⟩ := Option.map_eq_some_iff.1 built
  rw [object, isState]
  rfl

@[simp] theorem object_args (f : Frame) : f.object.args = f.args := rfl

@[simp] theorem object_withArguments (f : Frame) : f.withArguments.object = f.object := by
  rw [withArguments_eq]
  rfl

@[simp] theorem object_setArgumentsObject (f : Frame) (a : ArgumentsObject) :
    (f.setArgumentsObject a).object = a := rfl

@[simp] theorem id_withArguments (f : Frame) : f.withArguments.id = f.id := by rw [withArguments_eq]

@[simp] theorem get_withArguments (f : Frame) (i : UInt32) : f.withArguments.get i = f.get i := by
  rw [withArguments_eq]
  rfl

@[simp] theorem getByKey_withArguments (f : Frame) (key : Key) :
    f.withArguments.getByKey key = f.getByKey key := by
  rw [withArguments_eq]
  rfl

@[simp] theorem hasCopiedArguments_withArguments (f : Frame) :
    f.withArguments.hasCopiedArguments = f.hasCopiedArguments := by
  rw [withArguments_eq]
  rfl

/-! ## Well-formed frames -/

/-- The first positions are arguments, and each of the later ones has a slot. -/
structure WellFormed (f : Frame) : Prop where
  localsStart_le : f.localsStart.toNat ≤ f.args.size
  sized : f.locals.size = f.bindingCount.toNat - f.localsStart.toNat
  object : f.object.WellFormed

theorem wellFormed_ofCall (id : FrameId) (table : TableId) (function : FunctionRef) (args : Array Value)
    (objectConstructor : Value) : (ofCall id table function args objectConstructor).WellFormed where
  localsStart_le := by
    have supplied : args.size.toUInt32.toNat ≤ args.size := by simpa using Nat.mod_le ..
    exact Nat.le_trans (UInt32.le_iff_toNat_le.1 (Std.min_le_left)) supplied
  sized := by simp [ofCall, Cells.size]
  object := nofun

theorem WellFormed.withArguments (w : f.WellFormed) : f.withArguments.WellFormed where
  localsStart_le := by
    rw [withArguments_eq]
    exact w.localsStart_le
  sized := by
    rw [withArguments_eq]
    exact w.sized
  object := by
    rw [object_withArguments]
    exact w.object

theorem WellFormed.setArgumentsObject (w : f.WellFormed) (w' : a.WellFormed)
    (sized : a.args.size = f.args.size) : (f.setArgumentsObject a).WellFormed where
  localsStart_le := sized ▸ w.localsStart_le
  sized := w.sized
  object := w'

/-! ## Reading -/

theorem get_of_lt (inside : i < f.localsStart) :
    f.get i = .ok ((f.args.get? i.toNat).getD .undefined) := if_pos inside

/-- A position reads the same in frames that agree there. -/
theorem get_congr (start : f'.localsStart = f.localsStart) (count : f'.bindingCount = f.bindingCount)
    (args : i < f.localsStart → f'.args.get? i.toNat = f.args.get? i.toNat)
    (locals : f'.locals.read (f.slotIndex i) = f.locals.read (f.slotIndex i))
    (object : i = argumentsIndex → f'.argumentsValue = f.argumentsValue) : f'.get i = f.get i := by
  have slot : f'.slotIndex i = f.slotIndex i := by rw [slotIndex, start, slotIndex]
  rw [get, get, start, count, slot, locals]
  split
  · next inside => rw [args inside]
  · split
    · rfl
    · split
      · next here => rw [object here]
      · rfl

theorem WellFormed.slotIndex_lt (w : f.WellFormed) (start : ¬i < f.localsStart)
    (inside : i < f.bindingCount) : f.slotIndex i < f.locals.size := by
  rw [UInt32.lt_iff_toNat_lt] at start inside
  have le : f.localsStart ≤ i := UInt32.le_iff_toNat_le.2 (Nat.le_of_not_lt start)
  rw [w.sized, slotIndex, UInt32.toNat_sub_of_le _ _ le]
  omega

theorem WellFormed.read_slot (w : f.WellFormed) (start : ¬i < f.localsStart)
    (inside : i < f.bindingCount) : ∃ slot, f.locals.get? (f.slotIndex i) = some slot := by
  have := f.locals.isSome_get? (f.slotIndex i)
  rw [decide_eq_true (w.slotIndex_lt start inside)] at this
  exact Option.isSome_iff_exists.1 this

theorem WellFormed.get (w : f.WellFormed) (i : UInt32) : ∃ value, f.get i = .ok value := by
  rw [Frame.get]
  split
  · exact ⟨_, rfl⟩
  · next start =>
    split
    · next inside =>
      obtain ⟨slot, found⟩ := w.read_slot start inside
      exact ⟨slot.value, by simp [Cells.read_eq_ok.2 found]⟩
    · split
      · exact ⟨_, rfl⟩
      · exact ⟨_, rfl⟩

theorem WellFormed.isConst (w : f.WellFormed) (i : UInt32) : ∃ answer, f.isConst i = .ok answer := by
  rw [Frame.isConst]
  split
  · next both =>
    rw [Bool.and_eq_true, decide_eq_true_eq, decide_eq_true_eq] at both
    obtain ⟨slot, found⟩ := w.read_slot (UInt32.not_lt.2 both.1) both.2
    exact ⟨slot.isConst, by simp [Cells.read_eq_ok.2 found]⟩
  · exact ⟨false, rfl⟩

/-- Each of the first positions has an argument. -/
theorem WellFormed.argument (w : f.WellFormed) (inside : i < f.localsStart) :
    ∃ value, f.args.get? i.toNat = some value := by
  have supplied := Nat.lt_of_lt_of_le (UInt32.lt_iff_toNat_lt.1 inside) w.localsStart_le
  rw [← Option.isSome_iff_exists, ArgumentList.isSome_get?, decide_eq_true supplied]

/-! ## Writing -/

/-- The frame `f'` is `f` with the argument list `args` and the binding at `i` changed. -/
structure Assigned (f : Frame) (i : UInt32) (args : ArgumentList) (f' : Frame) : Prop where
  frame : ∃ locals binding, f' = { f with args, locals, argumentsBinding := binding }
  sized : f'.locals.size = f.locals.size
  others : ∀ {j}, j ≠ i → f'.get j = f.get j

theorem Assigned.rfl (f : Frame) (i : UInt32) : f.Assigned i f.args f :=
  ⟨⟨_, _, .refl f⟩, .refl _, fun _ => .refl _⟩

theorem slotIndex_inj (same : f.slotIndex j = f.slotIndex i) : j = i := by
  have := UInt32.toNat_inj.1 same
  grind

theorem WellFormed.updateSlot (w : f.WellFormed) (start : ¬i < f.localsStart)
    (inside : i < f.bindingCount) (change : LocalSlot → LocalSlot) :
    ∃ f', f.updateSlot i change = .ok f' ∧ f.Assigned i f.args f' := by
  obtain ⟨slot, found⟩ := w.read_slot start inside
  have written : f.locals.write (f.slotIndex i) (change slot) =
      .ok (f.locals.set (f.slotIndex i) (change slot)) :=
    if_pos (w.slotIndex_lt start inside)
  refine ⟨{ f with locals := f.locals.set (f.slotIndex i) (change slot) },
    by simp [Frame.updateSlot, Cells.read_eq_ok.2 found, written], ⟨_, _, rfl⟩, Cells.size_set .., ?_⟩
  intro j apart
  refine get_congr rfl rfl (fun _ => rfl) ?_ fun _ => rfl
  rw [Cells.read, Cells.read, Cells.get?_set, Cells.size_set,
    if_neg fun same => apart (slotIndex_inj same.1.symm)]

/-- Writing a binding never faults. The argument list changes if the position is one of its. -/
theorem WellFormed.set (w : f.WellFormed) (i : UInt32) (value : Value) :
    ∃ f', f.set i value = .ok f' ∧
      f.Assigned i (if i < f.localsStart then f.args.replace i.toNat value else f.args) f' := by
  rw [Frame.set]
  split
  · refine ⟨_, rfl, ⟨_, _, rfl⟩, rfl, fun {j} apart => ?_⟩
    exact get_congr rfl rfl (fun _ => f.args.get?_replace_of_ne apart.symm value) rfl fun _ => rfl
  · next start =>
    split
    · next inside => exact w.updateSlot start inside _
    · split
      · next last =>
        refine ⟨_, rfl, ⟨_, _, rfl⟩, rfl, fun {j} apart => ?_⟩
        exact get_congr rfl rfl (fun _ => rfl) rfl fun here => (apart (here.trans last.symm)).elim
      · exact ⟨f, rfl, .rfl f i⟩

/-- Giving a slot its final value never faults, and never changes the argument list. -/
theorem WellFormed.setConst (w : f.WellFormed) (i : UInt32) (value : Value) :
    ∃ f', f.setConst i value = .ok f' ∧ f.Assigned i f.args f' := by
  rw [Frame.setConst]
  split
  · next both =>
    rw [Bool.and_eq_true, decide_eq_true_eq, decide_eq_true_eq] at both
    exact w.updateSlot (UInt32.not_lt.2 both.1) both.2 _
  · exact ⟨f, rfl, .rfl f i⟩

namespace Assigned

variable {args : ArgumentList}

theorem args_eq (done : f.Assigned i args f') : f'.args = args := by
  obtain ⟨_, _, rfl⟩ := done.frame
  rfl

theorem id_eq (done : f.Assigned i args f') : f'.id = f.id := by
  obtain ⟨_, _, rfl⟩ := done.frame
  rfl

theorem function_eq (done : f.Assigned i args f') : f'.function = f.function := by
  obtain ⟨_, _, rfl⟩ := done.frame
  rfl

theorem properties_eq (done : f.Assigned i args f') : f'.properties = f.properties := by
  obtain ⟨_, _, rfl⟩ := done.frame
  rfl

/-- The arguments object keeps everything but the arguments. -/
theorem object_eq (done : f.Assigned i args f') (sized : args.size = f.args.size) :
    f'.object = { f.object with args } := by
  obtain ⟨_, _, rfl⟩ := done.frame
  simp only [Frame.object, freshArguments, sized]

theorem wellFormed (done : f.Assigned i args f') (sized : args.size = f.args.size) (w : f.WellFormed) :
    f'.WellFormed where
  localsStart_le := by
    have start := w.localsStart_le
    obtain ⟨_, _, rfl⟩ := done.frame
    exact sized ▸ start
  sized := by
    have slots := done.sized.trans w.sized
    obtain ⟨_, _, rfl⟩ := done.frame
    exact slots
  object := by
    rw [done.object_eq sized]
    exact w.object.setArgs sized

end Assigned

/-! ## Writing by key -/

theorem resolve?_eq (f : Frame) (key : Key) : f.resolve? key = f.function.code.resolve? key :=
  f.function.scope.resolve?_eq key

/-- The two ways in which a key is written. -/
theorem putByKey_eq_ok {t t' : ShapeTable} (done : f.putByKey t key value = .ok (f', t')) :
    (∃ i, f.function.code.resolve? key = some i ∧ f.set i value = .ok f' ∧ t' = t) ∨
      f.function.code.resolve? key = none ∧ ∃ properties,
        f.properties.insert t key value = .ok (properties, t') ∧ f' = { f with properties } := by
  rw [← resolve?_eq]
  rw [putByKey] at done
  split at done
  · next i resolved =>
    obtain ⟨_, written, ⟨⟩⟩ := Checked.bind_eq_ok.1 done
    exact .inl ⟨i, resolved, written, rfl⟩
  · next unresolved =>
    obtain ⟨⟨properties, _⟩, inserted, ⟨⟩⟩ := Checked.bind_eq_ok.1 done
    exact .inr ⟨unresolved, properties, inserted, rfl⟩

/-- A binding stays what it is. -/
theorem deleteKey_of_resolved (resolved : f.function.code.resolve? key = some i) :
    f.deleteKey key = (f, false) := by
  rw [deleteKey, resolve?_eq, resolved]
  rfl

theorem deleteKey_of_unresolved (unresolved : f.function.code.resolve? key = none) :
    f.deleteKey key =
      ({ f with properties := (f.properties.erase key).1 }, (f.properties.erase key).2) := by
  rw [deleteKey, resolve?_eq, unresolved]
  rfl

end Frame

end ShapeVM
