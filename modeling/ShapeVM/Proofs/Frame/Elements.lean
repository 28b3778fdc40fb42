import ShapeVM.Proofs.Heap.Separation
import ShapeVM.Proofs.Properties.Apart
import ShapeVM.Proofs.Heap.Evaluation

/-!
The elements of an arguments object. Reading an element looks at the arguments first, and describing it
looks at the object's own properties first. The two agree because an index that is linked is never a
property too (`ArgumentsObject.Unmixed`): a linked index is written to the argument, and the deletion
that unlinks it also takes the property away. No write or deletion of an element has a part in the
property under the name that spells the index.
-/
namespace ShapeVM

namespace ArgumentsObject

variable {a a' : ArgumentsObject} {t t' : ShapeTable} {i : UInt32} {key k : Key} {value : Value}

/-- An index that still is an argument is none of the object's own properties. -/
def Unmixed (a : ArgumentsObject) : Prop :=
  ∀ i, a.linked i = true → a.properties.contains (.index i) = false

/-! ## One element -/

/-- What an arguments object has at an index, whichever way it is asked. -/
structure HasElement (a : ArgumentsObject) (i : UInt32) (element : Option Value) : Prop where
  getIndex : a.getIndex i = .ok element
  hasIndex : a.hasIndex i = .ok element.isSome
  descriptor? : a.descriptor? i = .ok (element.map fun value =>
    { value, writable := true, enumerable := true, configurable := true })

theorem WellFormed.exists_hasElement (w : a.WellFormed) (fits : a.properties.Fits t)
    (unmixed : a.Unmixed) (i : UInt32) : ∃ element, a.HasElement i element := by
  cases linked : a.linked i with
  | true =>
    have shown := a.isSome_argument? i
    rw [linked, argument?, if_pos linked] at shown
    refine ⟨_, w.getIndex_of_linked linked, ?_, ?_⟩
    · simp [ArgumentsObject.hasIndex, w.isLinked, linked, shown]
    · simp [ArgumentsObject.descriptor?, w.isLinked, linked, unmixed i linked]
      rfl
  | false =>
    obtain ⟨element, found, present⟩ := fits.isSome_get? (.index i)
    refine ⟨element, (w.getIndex_of_not_linked linked).trans found, ?_, ?_⟩
    · simp [ArgumentsObject.hasIndex, w.isLinked, linked, present]
    · simp [ArgumentsObject.descriptor?, w.isLinked, linked, found]
      rfl

/-! ## One key and the others -/

theorem get?_setProperties {properties : PropertyStore}
    (same : properties.get? k = a.properties.get? k) : get? { a with properties } k = a.get? k := by
  cases k with
  | name s =>
    rw [get?, same]
    rfl
  | index i =>
    rw [get?, getIndex, same]
    rfl

theorem has_setProperties {properties : PropertyStore}
    (same : properties.contains k = a.properties.contains k) : has { a with properties } k = a.has k := by
  cases k with
  | name s =>
    rw [has, same]
    rfl
  | index i =>
    rw [has, hasIndex, same]
    rfl

/-- The object answers for a key as `a` does. What it reads as is known as long as the properties have
32-bit offsets of their own. -/
structure AgreesAt (a : ArgumentsObject) (k : Key) (a' : ArgumentsObject) : Prop where
  has : a'.has k = a.has k
  get? : a.properties.size ≤ UInt32.size → a'.get? k = a.get? k

theorem WellFormed.put_agrees (w : a.WellFormed) (fits : a.properties.Fits t) (wt : t.WellFormed)
    (done : a.put t key value = .ok (a', t')) (apart : k ≠ key) : a.AgreesAt k a' := by
  rcases w.put_eq_ok done with ⟨i, rfl, linked, rfl, rfl⟩ | ⟨unlinked, properties, inserted, rfl⟩
  · have sized := a.args.size_replace i.toNat value
    refine ⟨has_setArgs w sized k, fun _ => get?_setArgs w sized ?_⟩
    rintro j rfl _
    exact a.args.get?_replace_of_ne (fun same => apart (congrArg Key.index same.symm)) value
  · refine ⟨has_setProperties ?_, fun small => get?_setProperties ?_⟩
    · rw [fits.contains_insert wt inserted, decide_eq_false apart.symm, Bool.false_or]
    · exact fits.get?_insert_of_ne wt small inserted apart

theorem WellFormed.delete_agrees {deleted : Bool} (w : a.WellFormed) (fits : a.properties.Fits t)
    (wt : t.WellFormed) (done : a.delete key = .ok (a', deleted)) (apart : k ≠ key) :
    a.AgreesAt k a' := by
  have spec := w.deleted_of_delete done
  have behind := behind?_of_delete done
  have kept : a'.properties.contains k = a.properties.contains k := by
    rw [spec.properties, fits.contains_erase wt, decide_eq_false apart.symm]
    rfl
  have same (small : a.properties.size ≤ UInt32.size) : a'.properties.get? k = a.properties.get? k := by
    rw [spec.properties, fits.get?_erase_of_ne wt small apart]
  cases k with
  | name s =>
    have builtin : a'.builtin? s = a.builtin? s := congrFun behind (.name s)
    refine ⟨?_, fun small => ?_⟩
    · rw [ArgumentsObject.has, ArgumentsObject.has, kept, builtin]
    · rw [ArgumentsObject.get?, ArgumentsObject.get?, same small, builtin]
  | index j =>
    have linked : a'.linked j = a.linked j := by
      rw [spec.linked, decide_eq_true apart.symm, Bool.and_true]
    refine ⟨?_, fun small => ?_⟩
    · rw [ArgumentsObject.has, ArgumentsObject.has, hasIndex, hasIndex, spec.wellFormed.isLinked,
        w.isLinked, linked, kept]
    · rw [ArgumentsObject.get?, ArgumentsObject.get?, getIndex, getIndex, spec.wellFormed.isLinked,
        w.isLinked, linked, spec.args, same small]

/-! ## The invariant -/

theorem Unmixed.setArgs {args : ArgumentList} (unmixed : a.Unmixed) (sized : args.size = a.args.size) :
    Unmixed { a with args } := by
  intro i linked
  rw [linked_setArgs sized] at linked
  exact unmixed i linked

end ArgumentsObject

variable {h h' : Heap} {op : Operation} {f f' : Frame} {id : FrameId}

/-- A put goes to the properties only where no argument is, and a deletion empties both places. -/
theorem Heap.FrameEffect.unmixed (effect : h.FrameEffect f op f') (w : h.WellFormed)
    (fits : h.Fits f.object.properties) (unmixed : f.object.Unmixed) : f'.object.Unmixed := by
  obtain ⟨t, table, fits⟩ := fits
  have wt := (w.table table).2
  cases effect with
  | still _ => exact unmixed
  | built _ =>
    rw [Frame.object_withArguments]
    exact unmixed
  | assign _ _ done =>
    rw [done.object_eq (by split <;> simp)]
    exact unmixed.setArgs (by split <;> simp)
  | freeze done =>
    rw [done.object_eq rfl]
    exact unmixed
  | ownProperty _ _ => exact unmixed
  | putArgument _ => exact unmixed.setArgs (f.args.size_replace ..)
  | putProperty unlinked table' inserted =>
    obtain rfl := Except.ok.inj (table.symm.trans table')
    intro i linked
    rw [Frame.object_setArgumentsObject] at linked ⊢
    have linked : f.object.linked i = true := linked
    rw [fits.contains_insert wt inserted, unmixed i linked, Bool.or_false]
    refine decide_eq_false fun same => ?_
    cases (unlinked i same).symm.trans linked
  | deleteProperty deleted =>
    intro i linked
    rw [Frame.object_setArgumentsObject, deleted.linked, Bool.and_eq_true] at linked
    rw [Frame.object_setArgumentsObject, deleted.properties, fits.contains_erase wt,
      unmixed i linked.1, Bool.and_false]

theorem Call.Ran.unmixed {c : Call} {ops : List Operation} (ran : c.Ran ops h)
    (isFrame : h.frame c.frame = .ok f) : f.object.Unmixed := by
  induction ran generalizing f with
  | @made h₀ h₁ table objectConstructor _ named made =>
    obtain ⟨_, ⟨⟩⟩ := made
    rw [Heap.frame_allocFrame, if_pos named] at isFrame
    cases isFrame
    exact fun i _ => Shape.contains_root table (.index i)
  | step ran step ih =>
    obtain ⟨w, f₀, isFrame₀, _⟩ := ran.invariant
    obtain ⟨f', isFrame', effect⟩ := step.effect.frameEffect w isFrame₀
    obtain rfl := Except.ok.inj (isFrame'.symm.trans isFrame)
    exact effect.unmixed w (w.frame isFrame₀).object (ih isFrame₀)

/-! ## The heap -/

namespace Heap

variable {a : ArgumentsObject} {i : UInt32} {key k : Key} {value : Value}

/-- What the arguments object of a frame has at an index, asked for by the index and by the key. -/
structure HasElement (h : Heap) (id : FrameId) (i : UInt32) (element : Option Value) : Prop where
  getArgument : h.getArgument id i = .ok element
  hasArgument : h.hasArgument id i = .ok element.isSome
  argumentDescriptor? : h.argumentDescriptor? id i = .ok (element.map fun value =>
    { value, writable := true, enumerable := true, configurable := true })
  get : h.get (.arguments id) (.index i) = .ok (element, h)
  has : h.has (.arguments id) (.index i) = .ok element.isSome

/-- The arguments object answers for a key in `h'` as in `h`. The bound in `get` is that of 32-bit
offsets: of more properties than these, two would have one offset. -/
structure AgreesAt (h : Heap) (id : FrameId) (k : Key) (h' : Heap) : Prop where
  has : h'.has (.arguments id) k = h.has (.arguments id) k
  get : ∀ {a}, h.argumentsObject id = .ok a → a.properties.size ≤ UInt32.size →
    (·.1) <$> h'.get (.arguments id) k = (·.1) <$> h.get (.arguments id) k

/-- The elements of an arguments object, and the other keys beside them. -/
structure ElementsAgree (h : Heap) (id : FrameId) (a : ArgumentsObject) : Prop where
  unmixed : ∀ {i}, a.isLinked i = .ok true → a.properties.contains (.index i) = false
  element : ∀ i, ∃ element, h.HasElement id i element
  putIndex : ∀ i value, h.put (.arguments id) (.index i) value = h.putArgument id i value
  deleteIndex : ∀ i, h.delete (.arguments id) (.index i) = h.deleteArgument id i
  /-- An index and the name that spells it are two keys. -/
  put : ∀ key value, ∃ h', h.put (.arguments id) key value = .ok h' ∧ ∀ {k}, k ≠ key → h.AgreesAt id k h'
  delete : ∀ key, ∃ h', h.delete (.arguments id) key = .ok (true, h') ∧
    ∀ {k}, k ≠ key → h.AgreesAt id k h'

theorem agreesAt_of_object {a' : ArgumentsObject} (isObject : h.argumentsObject id = .ok a)
    (isObject' : h'.argumentsObject id = .ok a') (agrees : a.AgreesAt k a') : h.AgreesAt id k h' where
  has := by simpa [Heap.has, isObject, isObject'] using agrees.has
  get found small := by
    obtain rfl := Except.ok.inj (isObject.symm.trans found)
    rw [fst_get, fst_get]
    simpa [Heap.read, isObject, isObject'] using agrees.get? small

theorem argumentsObject_setArgumentsObject (isFrame : h.frame id = .ok f) (named : f.id = id)
    (a : ArgumentsObject) : (h.setFrame (f.setArgumentsObject a)).argumentsObject id = .ok a :=
  argumentsObject_eq_ok.2 ⟨f.setArgumentsObject a, frame_setFrame_self isFrame named, rfl⟩

namespace WellFormed

variable (w : h.WellFormed) (isObject : h.argumentsObject id = .ok a)
include w isObject

theorem put_arguments (key : Key) (value : Value) :
    ∃ h', h.put (.arguments id) key value = .ok h' ∧ ∀ {k}, k ≠ key → h.AgreesAt id k h' := by
  obtain ⟨f, isFrame, rfl⟩ := frame_of_argumentsObject isObject
  obtain ⟨named, wf, _, t, table, fits⟩ := w.frame isFrame
  have wt := (w.table table).2
  obtain ⟨a', t', done⟩ := wf.object.put fits wt key value
  have isFrame' : (h.setTable t').frame id = .ok f := isFrame
  refine ⟨(h.setTable t').setFrame (f.setArgumentsObject a'), ?_, fun {k} apart => ?_⟩
  · simp [Heap.put, isObject, table, done, Heap.setArgumentsObject, isFrame']
  · exact agreesAt_of_object isObject (argumentsObject_setArgumentsObject isFrame' named a')
      (wf.object.put_agrees fits wt done apart)

theorem delete_arguments (key : Key) :
    ∃ h', h.delete (.arguments id) key = .ok (true, h') ∧ ∀ {k}, k ≠ key → h.AgreesAt id k h' := by
  obtain ⟨f, isFrame, rfl⟩ := frame_of_argumentsObject isObject
  obtain ⟨named, wf, _, t, table, fits⟩ := w.frame isFrame
  obtain ⟨a', done, _⟩ := wf.object.delete key
  refine ⟨h.setFrame (f.setArgumentsObject a'), ?_, fun {k} apart => ?_⟩
  · simp [Heap.delete, isObject, done, Heap.setArgumentsObject, isFrame]
  · exact agreesAt_of_object isObject (argumentsObject_setArgumentsObject isFrame named a')
      (wf.object.delete_agrees fits (w.table table).2 done apart)

theorem exists_hasElement (unmixed : a.Unmixed) (i : UInt32) : ∃ element, h.HasElement id i element := by
  obtain ⟨f, isFrame, rfl⟩ := frame_of_argumentsObject isObject
  obtain ⟨_, wf, _, _, _, fits⟩ := w.frame isFrame
  obtain ⟨element, spec⟩ := wf.object.exists_hasElement fits unmixed i
  refine ⟨element, ?_, ?_, ?_, ?_, ?_⟩
  · simpa [Heap.getArgument, isObject] using spec.getIndex
  · simpa [Heap.hasArgument, isObject] using spec.hasIndex
  · simpa [Heap.argumentDescriptor?, isObject] using spec.descriptor?
  · simp [Heap.get, Heap.read, isObject, ArgumentsObject.get?, spec.getIndex]
  · simpa [Heap.has, isObject, ArgumentsObject.has] using spec.hasIndex

end WellFormed

theorem Reachable.unmixed (reachable : h.Reachable) (isObject : h.argumentsObject id = .ok a) :
    a.Unmixed := by
  obtain ⟨f, isFrame, rfl⟩ := frame_of_argumentsObject isObject
  obtain ⟨c, ops, rfl, ran⟩ := Call.exists_ran reachable isFrame
  exact ran.unmixed isFrame

theorem elements_agree (reachable : h.Reachable) (isObject : h.argumentsObject id = .ok a) :
    h.ElementsAgree id a := by
  have w := reachable.wellFormed
  have unmixed := reachable.unmixed isObject
  refine ⟨fun {i} linked => unmixed i ?_, w.exists_hasElement isObject unmixed, fun _ _ => rfl,
    fun _ => rfl, w.put_arguments isObject, w.delete_arguments isObject⟩
  obtain ⟨f, isFrame, rfl⟩ := frame_of_argumentsObject isObject
  exact Except.ok.inj (((w.frame isFrame).frame.object.isLinked i).symm.trans linked)

theorem ElementsAgree.hasElement {i : UInt32} {element : Option Value} (agree : h.ElementsAgree id a)
    (found : h.getArgument id i = .ok element) : h.HasElement id i element := by
  obtain ⟨_, has⟩ := agree.element i
  cases has.getArgument.symm.trans found
  exact has

/-- The first of two arguments is deleted and put again, an index past them is put, and so is the name
that spells the index of the second, which is written by the frame. -/
theorem elements_agree_of_deleted : ∃ h a, Reachable h ∧ h.argumentsObject ⟨0⟩ = .ok a ∧
    h.ElementsAgree ⟨0⟩ a ∧ h.HasElement ⟨0⟩ 0 (some .null) ∧ h.HasElement ⟨0⟩ 1 (some (.boolean true)) ∧
    h.HasElement ⟨0⟩ 5 (some .undefined) ∧ h.HasElement ⟨0⟩ 6 none ∧
    h.get (.arguments ⟨0⟩) (.name "1") = .ok (some .null, h) := by
  obtain ⟨h, runs, ⟨a, isObject⟩, restored, written, outside, absent, byName⟩ : ∃ h, Runs {} [
      .setBinding ⟨0⟩ 1 (.boolean true), .put (.arguments ⟨0⟩) (.name "1") .null,
      .putArgument ⟨0⟩ 5 .undefined, .putArgument ⟨0⟩ 0 .null, .deleteArgument ⟨0⟩ 0, .arguments ⟨0⟩,
      .makeFrame ⟨0⟩ { id := ⟨0⟩, code := { paramNames := ["a", "b"] } } #[.undefined, .undefined] .null,
      .makeTable {}] h ∧
      (∃ a, h.argumentsObject ⟨0⟩ = .ok a) ∧ h.getArgument ⟨0⟩ 0 = .ok (some .null) ∧
      h.getArgument ⟨0⟩ 1 = .ok (some (.boolean true)) ∧
      h.getArgument ⟨0⟩ 5 = .ok (some .undefined) ∧ h.getArgument ⟨0⟩ 6 = .ok none ∧
      h.read (.arguments ⟨0⟩) (.name "1") = .ok (some .null) :=
    ⟨_, runs_afterAll (by decide +kernel), by decide +kernel, by decide +kernel, by decide +kernel,
      by decide +kernel, by decide +kernel, by decide +kernel⟩
  have agree := elements_agree ⟨_, runs⟩ isObject
  refine ⟨h, a, ⟨_, runs⟩, isObject, agree, agree.hasElement restored, agree.hasElement written,
    agree.hasElement outside, agree.hasElement absent, ?_⟩
  rw [Heap.get, byName]
  rfl

end Heap

end ShapeVM
