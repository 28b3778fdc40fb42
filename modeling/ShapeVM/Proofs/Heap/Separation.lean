import ShapeVM.Proofs.Frame.CopyOnWrite
import ShapeVM.Proofs.Heap.Forcing
import ShapeVM.Proofs.Heap.ObjectEffect
import ShapeVM.Proofs.Heap.View
import ShapeVM.Proofs.Heap.Evaluation

/-!
Objects do not interfere. Objects share the shapes of their tables, and a frame shares its arguments
with its arguments object; an operation on one object leaves everything that can be asked of another as
it was, except that a write to an argument that a frame and its arguments object share is seen by both
(`Shares`, `Sees`).
-/
namespace ShapeVM

/-- The object that an operation writes. -/
def Operation.target? : Operation → Option ObjectRef
  | .put o _ _ | .delete o _ => some o
  | .store _ target _ => some (.ordinary target)
  | .setBinding frame _ _ | .setConstBinding frame _ _ | .setParent frame _ => some (.activation frame)
  | _ => none

namespace Operation

variable {op : Operation} {id : FrameId}

theorem edit?_of_target?_ne {o : ObjectId} (other : op.target? ≠ some (.ordinary o))
    (keyOf : CacheRef → Option Key) : op.edit? keyOf o = none := by
  cases op with
  | put target key value =>
    cases target with
    | ordinary id => exact if_neg fun same => other (by rw [same]; rfl)
    | _ => rfl
  | delete target key =>
    cases target with
    | ordinary id => exact if_neg fun same => other (by rw [same]; rfl)
    | _ => rfl
  | store cache id value => exact if_neg fun same => other (by rw [same]; rfl)
  | _ => rfl

/-- Of the operations that change a frame, those on something else are on its arguments object. -/
theorem onArguments_of_frame? (named : op.frame? = some id)
    (other : op.target? ≠ some (.activation id)) :
    (∃ key value, op = .put (.arguments id) key value) ∨ ∃ key, op = .delete (.arguments id) key := by
  cases op with
  | put o key value =>
    cases o with
    | ordinary _ => cases named
    | arguments frame =>
      cases named
      exact .inl ⟨key, value, rfl⟩
    | activation frame =>
      cases named
      exact (other rfl).elim
  | delete o key =>
    cases o with
    | ordinary _ => cases named
    | arguments frame =>
      cases named
      exact .inr ⟨key, rfl⟩
    | activation frame =>
      cases named
      exact (other rfl).elim
  | setBinding frame i value =>
    cases named
    exact (other rfl).elim
  | setConstBinding frame i value =>
    cases named
    exact (other rfl).elim
  | setParent frame parent =>
    cases named
    exact (other rfl).elim
  | _ => cases named

end Operation

/-! ## Other arguments -/

/-- An arguments object answers the same with other arguments, as far as they agree on its linked
indices. -/
theorem ArgumentsObject.get?_setArgs {a : ArgumentsObject} {args : ArgumentList} {key : Key}
    (w : a.WellFormed) (sized : args.size = a.args.size)
    (agree : ∀ {i}, key = .index i → a.linked i = true → args.get? i.toNat = a.args.get? i.toNat) :
    get? { a with args } key = a.get? key := by
  cases key with
  | name s => rfl
  | index i =>
    have w' : WellFormed { a with args } := w.setArgs sized
    have linked' := linked_setArgs (a := a) sized i
    cases linked : a.linked i with
    | true =>
      rw [linked] at linked'
      exact (w'.getIndex_of_linked linked').trans
        ((congrArg Except.ok (agree rfl linked)).trans (w.getIndex_of_linked linked).symm)
    | false =>
      rw [linked] at linked'
      exact (w'.getIndex_of_not_linked linked').trans (w.getIndex_of_not_linked linked).symm

theorem ArgumentsObject.has_setArgs {a : ArgumentsObject} {args : ArgumentList} (w : a.WellFormed)
    (sized : args.size = a.args.size) (key : Key) : has { a with args } key = a.has key := by
  cases key with
  | name s => rfl
  | index i =>
    have w' : WellFormed { a with args } := w.setArgs sized
    simp only [has, hasIndex, w.isLinked, w'.isLinked, linked_setArgs sized]

namespace Heap

variable {h h' : Heap} {op : Operation} {o : ObjectRef} {id : FrameId} {f f' : Frame}
  {a : ArgumentsObject} {i : UInt32} {value : Value}

/-! ## What is shared -/

/-- Through one of a frame and its arguments object the operation writes an argument that both have, and
`o` is the other one. -/
inductive Shares (h : Heap) : Operation → ObjectRef → FrameId → UInt32 → Value → Prop
  | byFrame {op : Operation} {id : FrameId} {f : Frame} {a : ArgumentsObject} {i : UInt32}
    {value : Value} : h.frame id = .ok f → h.argumentsObject id = .ok a → i < f.localsStart →
    a.isLinked i = .ok true → op.touch? id f.function.code i = some (.byFrame value) →
    Shares h op (.arguments id) id i value
  | byObject {id : FrameId} {f : Frame} {a : ArgumentsObject} {i : UInt32} {value : Value} :
    h.frame id = .ok f → h.argumentsObject id = .ok a → i < f.localsStart → a.isLinked i = .ok true →
    Shares h (.putArgument id i value) (.activation id) id i value

/-- The key is that of an index of the arguments, or of a position of the frame. -/
def KeyAt (h : Heap) : ObjectRef → UInt32 → Key → Prop
  | .ordinary _, _, _ => False
  | .arguments _, i, key => key = .index i
  | .activation id, i, key => ∃ f, h.frame id = .ok f ∧ f.function.code.resolve? key = some i

/-- The value shows at the position of the frame, under the binding's name, and as the element of the
arguments object. -/
structure Sees (h : Heap) (id : FrameId) (i : UInt32) (value : Value) : Prop where
  getBinding : ∃ k, h.getBinding id i = .ok (value, k)
  getByKey : ∀ {f key}, h.frame id = .ok f → f.function.code.resolve? key = some i →
    ∃ k, h.get (.activation id) key = .ok (some value, k)
  getIndex : ∃ k, h.get (.arguments id) (.index i) = .ok (some value, k)

/-- The properties that an object has of its own. -/
def properties (h : Heap) : ObjectRef → Checked PropertyStore
  | .ordinary id => h.object id
  | .arguments id => (·.properties) <$> h.argumentsObject id
  | .activation id => (·.properties) <$> h.frame id

/-- Nothing that can be asked of the object is different after the operation, but what is shared. -/
structure Undisturbed (h : Heap) (op : Operation) (h' : Heap) (o : ObjectRef) : Prop where
  there : h'.Has o
  has : ∀ key, h'.has o key = h.has o key
  keys : h'.keys o = h.keys o
  /-- The layout of the properties among them, and how many there are. -/
  properties : h'.properties o = h.properties o
  isConst : ∀ {id}, o = .activation id → ∀ i, h'.isConstBinding id i = h.isConstBinding id i
  parent : ∀ {id}, o = .activation id → (·.parent) <$> h'.frame id = (·.parent) <$> h.frame id
  get : ∀ {key}, (∀ {id i value}, h.Shares op o id i value → ¬h.KeyAt o i key) →
    (·.1) <$> h'.get o key = (·.1) <$> h.get o key
  getBinding : ∀ {id i}, o = .activation id → (∀ value, ¬h.Shares op o id i value) →
    (·.1) <$> h'.getBinding id i = (·.1) <$> h.getBinding id i
  shared : ∀ {id i value}, h.Shares op o id i value → h'.Sees id i value

/-- An arguments object that was built is there for good. -/
theorem FrameEffect.argumentsObject (effect : h.FrameEffect f op f')
    (built : f.argumentsObject? = some a) (isFrame' : h'.frame id = .ok f') :
    h'.argumentsObject id = .ok f'.object := by
  have built' := effect.stays_built (Option.isSome_map ▸ Option.isSome_of_eq_some built)
  obtain ⟨state', isState'⟩ := Option.isSome_iff_exists.1 built'
  refine argumentsObject_eq_ok.2 ⟨f', isFrame', ?_⟩
  rw [Frame.argumentsObject?, isState', Frame.object, isState']
  rfl

theorem fst_get (h : Heap) (o : ObjectRef) (key : Key) : (·.1) <$> h.get o key = h.read o key := by
  rw [Heap.get]
  cases h.read o key with
  | error fault => rfl
  | ok value =>
    rw [Checked.ok_bind]
    split
    · rfl
    · rfl

theorem fst_getBinding (isFrame : h.frame id = .ok f) (i : UInt32) :
    (·.1) <$> h.getBinding id i = f.get i := by
  rw [Heap.getBinding, isFrame, Checked.ok_bind]
  cases f.get i with
  | error fault => rfl
  | ok value => rfl

/-- An argument that both have, once it was written, is read through both. -/
theorem WellFormed.sees (w : h.WellFormed) (isFrame : h.frame id = .ok f)
    (isObject : h.argumentsObject id = .ok f.object) (parameter : i < f.localsStart)
    (linked : f.object.linked i = true) (argument : f.args.get? i.toNat = some value) :
    h.Sees id i value := by
  have wf := (w.frame isFrame).frame
  have read : f.get i = .ok value := by
    rw [Frame.get_of_lt parameter, argument, Option.getD_some]
  refine ⟨⟨h.handOut value, by simp [Heap.getBinding, isFrame, read]⟩,
    fun {f' key} isFrame' resolved => ?_, ?_⟩
  · obtain rfl := Except.ok.inj (isFrame.symm.trans isFrame')
    refine get_eq_ok.2 ?_
    simp [Heap.read, isFrame, Frame.getByKey, f.resolve?_eq, resolved, read]
  · refine get_eq_ok.2 ?_
    have element : f.object.getIndex i = .ok (some value) :=
      (wf.object.getIndex_of_linked linked).trans (congrArg Except.ok argument)
    simp [Heap.read, isObject, ArgumentsObject.get?, element]

theorem Shares.sees (shares : h.Shares op o id i value) (effect : h.Effect op h') (w : h.WellFormed) :
    h'.Sees id i value := by
  have written : ∃ f a, h.frame id = .ok f ∧ h.argumentsObject id = .ok a ∧ i < f.localsStart ∧
      a.isLinked i = .ok true ∧ (op.touch? id f.function.code i = some (.byFrame value) ∨
        op.touch? id f.function.code i = some (.byObject value)) := by
    cases shares with
    | byFrame isFrame isObject parameter linked touch =>
      exact ⟨_, _, isFrame, isObject, parameter, linked, .inl touch⟩
    | byObject isFrame isObject parameter linked =>
      exact ⟨_, _, isFrame, isObject, parameter, linked, .inr (by simp [Operation.putArgument])⟩
  obtain ⟨f, a, isFrame, isObject, parameter, linked, touch⟩ := written
  obtain ⟨_, found, built⟩ := argumentsObject_eq_ok.1 isObject
  obtain rfl := Except.ok.inj (isFrame.symm.trans found)
  obtain rfl := Frame.object_of_argumentsObject? built
  obtain ⟨rfl, wf, _, _⟩ := w.frame isFrame
  rw [wf.object.isLinked, Except.ok.injEq] at linked
  obtain ⟨f', isFrame', effect'⟩ := effect.frameEffect w isFrame
  obtain ⟨_, _, start, _⟩ := effect'.call
  have isObject' := effect'.argumentsObject built isFrame'
  have linked' : f'.object.linked i = true := by
    rw [effect'.linked, linked]
    rcases touch with touch | touch
    · simp [touch]
    · simp [touch]
  have argument' : f'.args.get? i.toNat = some value := by
    rw [effect'.argument wf]
    rcases touch with touch | touch
    · simp [touch, parameter]
    · simp [touch, linked]
  exact (effect.preserved w).wellFormed.sees isFrame' isObject' (start ▸ parameter) linked' argument'

/-! ## One kind of object after the other -/

theorem WellFormed.undisturbed_ordinary {id : ObjectId} (w : h.WellFormed) (effect : h.Effect op h')
    (other : op.target? ≠ some (.ordinary id)) (has : h.Has (.ordinary id)) :
    h.Undisturbed op h' (.ordinary id) := by
  obtain ⟨s, isObject⟩ := has
  have kept := effect.objectEffect w h.agrees_cacheKey? id
  rw [Operation.edit?_of_target?_ne other] at kept
  have same : h'.object id = h.object id := by
    cases kept with
    | kept same => exact same
    | made missing _ => cases isObject.symm.trans missing
  refine ⟨⟨s, same.trans isObject⟩, fun key => ?_, ?_, same, nofun, nofun, fun _ => ?_, nofun, nofun⟩
  · rw [Heap.has, same, Heap.has]
  · rw [Heap.keys, same, Heap.keys]
  · rw [fst_get, fst_get, Heap.read, same, Heap.read]

/-- What an operation on something else leaves of a frame. -/
theorem Effect.frame_of_target?_ne (effect : h.Effect op h') (w : h.WellFormed)
    (isFrame : h.frame id = .ok f) (other : op.target? ≠ some (.activation id)) :
    ∃ args arguments, h'.frame id = .ok { f with args, arguments } ∧
      (args = f.args ∨ ∃ i value, op = .putArgument id i value ∧
        h.argumentsObject id = .ok f.object ∧ f.object.linked i = true ∧
        args = f.args.replace i.toNat value) := by
  have named := (w.frame isFrame).id
  by_cases here : op.frame? = some id
  · have found (h₁ : Heap) (frames : h₁.frames = h.frames) (a : ArgumentsObject) :
        (h₁.setFrame (f.setArgumentsObject a)).frame id = .ok (f.setArgumentsObject a) := by
      have isFrame₁ : h₁.frame id = .ok f := by
        rw [Heap.frame, frames]
        exact isFrame
      exact frame_setFrame_self isFrame₁ named
    rcases Operation.onArguments_of_frame? here other with ⟨key, value, rfl⟩ | ⟨key, rfl⟩
    · cases effect with
      | read isRead => cases isRead
      | handOut isRead _ => cases isRead
      | putArguments isFrame' built isTable done =>
        obtain rfl := Except.ok.inj (isFrame.symm.trans isFrame')
        have isObject : h.argumentsObject id = .ok _ := argumentsObject_eq_ok.2 ⟨f, isFrame, built⟩
        obtain rfl := Frame.object_of_argumentsObject? built
        rcases (w.frame isFrame).frame.object.put_eq_ok done with ⟨i, rfl, linked, rfl, rfl⟩ |
          ⟨_, properties, _, rfl⟩
        · exact ⟨_, _, found _ rfl _, .inr ⟨i, value, rfl, isObject, linked, rfl⟩⟩
        · exact ⟨_, _, found _ rfl _, .inl rfl⟩
    · cases effect with
      | read isRead => cases isRead
      | handOut isRead _ => cases isRead
      | deleteArguments isFrame' built done =>
        obtain rfl := Except.ok.inj (isFrame.symm.trans isFrame')
        obtain rfl := Frame.object_of_argumentsObject? built
        have deleted := (w.frame isFrame).frame.object.deleted_of_delete done
        exact ⟨_, _, found h rfl _, .inl deleted.args⟩
  · obtain ⟨f', isFrame', effect'⟩ := effect.frameEffect w isFrame
    rw [← named] at here
    rcases effect'.of_elsewhere here with rfl | rfl
    · exact ⟨_, _, isFrame', .inl rfl⟩
    · rw [Frame.withArguments_eq] at isFrame'
      exact ⟨_, _, isFrame', .inl rfl⟩

theorem WellFormed.undisturbed_activation (w : h.WellFormed) (effect : h.Effect op h')
    (other : op.target? ≠ some (.activation id)) (has : h.Has (.activation id)) :
    h.Undisturbed op h' (.activation id) := by
  obtain ⟨f, isFrame⟩ := has
  have wf := (w.frame isFrame).frame
  obtain ⟨args, arguments, isFrame', shared⟩ := effect.frame_of_target?_ne w isFrame other
  have position {i : UInt32} (unshared : ∀ value, ¬h.Shares op (.activation id) id i value) :
      Frame.get { f with args, arguments } i = f.get i := by
    refine Frame.get_congr rfl rfl (fun parameter => ?_) rfl fun _ => rfl
    rcases shared with rfl | ⟨j, value, rfl, isObject, linked, rfl⟩
    · rfl
    · refine f.args.get?_replace_of_ne ?_ value
      rintro rfl
      have linked : f.object.isLinked j = .ok true :=
        (wf.object.isLinked j).trans (congrArg Except.ok linked)
      exact unshared value (.byObject isFrame isObject parameter linked)
  refine ⟨⟨_, isFrame'⟩, fun key => ?_, ?_, ?_, ?_, ?_, fun {key} unshared => ?_, ?_,
    fun shares => ?_⟩
  · rw [Heap.has, isFrame', Heap.has, isFrame]
    rfl
  · rw [Heap.keys, isFrame', Heap.keys, isFrame]
    rfl
  · rw [Heap.properties, isFrame', Heap.properties, isFrame]
    rfl
  · intro id' same i
    cases same
    rw [Heap.isConstBinding, isFrame', Heap.isConstBinding, isFrame]
    rfl
  · intro id' same
    cases same
    rw [isFrame', isFrame]
    rfl
  · rw [fst_get, fst_get, Heap.read, isFrame', Heap.read, isFrame, Checked.ok_bind, Checked.ok_bind,
      Frame.getByKey, Frame.getByKey, Frame.resolve?_eq, Frame.resolve?_eq]
    cases resolved : f.function.code.resolve? key with
    | none => rfl
    | some i =>
      have same := position (i := i) fun value shares => unshared shares ⟨f, isFrame, resolved⟩
      simp only [same]
  · intro id' i same unshared
    cases same
    rw [fst_getBinding isFrame', fst_getBinding isFrame]
    exact position unshared
  · cases shares with
    | byObject isFrame isObject parameter linked =>
      exact (Shares.byObject isFrame isObject parameter linked).sees effect w

/-- What an operation on something else leaves of an arguments object. -/
theorem Effect.argumentsObject_of_target?_ne (effect : h.Effect op h') (w : h.WellFormed)
    (isFrame : h.frame id = .ok f) (built : f.argumentsObject? = some a)
    (other : op.target? ≠ some (.arguments id)) :
    ∃ args, h'.argumentsObject id = .ok { a with args } ∧
      (args = a.args ∨ ∃ i value, op.touch? id f.function.code i = some (.byFrame value) ∧
        i < f.localsStart ∧ args = a.args.replace i.toNat value) := by
  obtain rfl := Frame.object_of_argumentsObject? built
  obtain ⟨rfl, _, _, _⟩ := w.frame isFrame
  obtain ⟨f', isFrame', effect'⟩ := effect.frameEffect w isFrame
  have isObject' : h'.argumentsObject f.id = .ok f'.object :=
    effect'.argumentsObject built isFrame'
  rw [isObject']
  cases effect' with
  | still _ => exact ⟨_, rfl, .inl rfl⟩
  | built _ => exact ⟨_, congrArg Except.ok f.object_withArguments, .inl rfl⟩
  | @assign _ i value _ _ touch assigned _ =>
    have sized : (if i < f.localsStart then f.args.replace i.toNat value else f.args).size =
        f.args.size := by
      split <;> simp
    refine ⟨_, congrArg Except.ok (assigned.object_eq sized), ?_⟩
    split
    · next parameter => exact .inr ⟨i, value, (touch i).trans (if_pos rfl), parameter, rfl⟩
    · exact .inl rfl
  | freeze assigned _ => exact ⟨_, congrArg Except.ok (assigned.object_eq rfl), .inl rfl⟩
  | ownProperty _ _ _ _ => exact ⟨_, rfl, .inl rfl⟩
  | putArgument _ => exact (other rfl).elim
  | putProperty _ _ _ => exact (other rfl).elim
  | deleteProperty _ => exact (other rfl).elim

theorem WellFormed.undisturbed_arguments (w : h.WellFormed) (effect : h.Effect op h')
    (other : op.target? ≠ some (.arguments id)) (has : h.Has (.arguments id)) :
    h.Undisturbed op h' (.arguments id) := by
  obtain ⟨a, isObject⟩ := has
  obtain ⟨f, isFrame, built⟩ := argumentsObject_eq_ok.1 isObject
  obtain ⟨args, isObject', shared⟩ := effect.argumentsObject_of_target?_ne w isFrame built other
  obtain rfl := Frame.object_of_argumentsObject? built
  have wa := (w.frame isFrame).frame.object
  have sized : args.size = f.object.args.size := by
    rcases shared with rfl | ⟨i, value, _, _, rfl⟩
    · rfl
    · exact ArgumentList.size_replace ..
  refine ⟨⟨_, isObject'⟩, fun key => ?_, ?_, ?_, nofun, nofun, fun {key} unshared => ?_, nofun,
    fun shares => shares.sees effect w⟩
  · rw [Heap.has, isObject', Heap.has, isObject]
    exact ArgumentsObject.has_setArgs wa sized key
  · rw [Heap.keys, isObject', Heap.keys, isObject]
    exact congrArg Except.ok (ArgumentsObject.keys_of_size sized)
  · rw [Heap.properties, isObject', Heap.properties, isObject]
    rfl
  · rw [fst_get, fst_get, Heap.read, isObject', Heap.read, isObject]
    refine ArgumentsObject.get?_setArgs wa sized fun {i} isIndex linked => ?_
    rcases shared with rfl | ⟨j, value, touch, parameter, rfl⟩
    · rfl
    · refine f.args.get?_replace_of_ne ?_ value
      rintro rfl
      have linked : f.object.isLinked j = .ok true :=
        (wa.isLinked j).trans (congrArg Except.ok linked)
      exact unshared (.byFrame isFrame isObject parameter linked touch) isIndex

theorem objects_do_not_interfere (reachable : h.Reachable) (step : h.Step op h') (has : h.Has o)
    (other : op.target? ≠ some o) : h.Undisturbed op h' o := by
  have w := reachable.wellFormed
  have effect := step.effect
  cases o with
  | ordinary id => exact w.undisturbed_ordinary effect other has
  | arguments id => exact w.undisturbed_arguments effect other has
  | activation id => exact w.undisturbed_activation effect other has

/-- A frame writes its parameter by name. Its arguments object, which still has the argument, sees that;
an object that uses another table sees nothing. -/
theorem objects_do_not_interfere_of_parameter : ∃ h op h', Reachable h ∧ h.Step op h' ∧
    h.Has (.arguments ⟨0⟩) ∧ op.target? ≠ some (.arguments ⟨0⟩) ∧ h.Undisturbed op h' (.arguments ⟨0⟩) ∧
    h.Shares op (.arguments ⟨0⟩) ⟨0⟩ 0 (.boolean true) ∧ h'.Sees ⟨0⟩ 0 (.boolean true) ∧
    h.Has (.ordinary ⟨0⟩) ∧ op.target? ≠ some (.ordinary ⟨0⟩) ∧ h.Undisturbed op h' (.ordinary ⟨0⟩) := by
  let op : Operation := .put (.activation ⟨0⟩) (.name "a") (.boolean true)
  obtain ⟨h, runs, step, ⟨s, isOrdinary⟩, f, isFrame, parameter, touch, a, isObject, linked⟩ : ∃ h, Runs {} [
      .arguments ⟨0⟩, .makeFrame ⟨0⟩ { id := ⟨0⟩, code := { paramNames := ["a"] } } #[.null] .undefined,
      .put (.ordinary ⟨0⟩) (.name "a") .null, .makeObject ⟨1⟩, .makeTable {}, .makeTable {}] h ∧
      h.Step op (h.after op) ∧ (∃ s, h.object ⟨0⟩ = .ok s) ∧
      ∃ f, h.frame ⟨0⟩ = .ok f ∧ 0 < f.localsStart ∧
        op.touch? ⟨0⟩ f.function.code 0 = some (.byFrame (.boolean true)) ∧
        ∃ a, h.argumentsObject ⟨0⟩ = .ok a ∧ a.isLinked 0 = .ok true :=
    ⟨_, runs_afterAll (by decide +kernel), step_after trivial (by decide +kernel), by decide +kernel,
      by decide +kernel⟩
  have shares : h.Shares op (.arguments ⟨0⟩) ⟨0⟩ 0 (.boolean true) :=
    .byFrame isFrame isObject parameter linked touch
  have has : h.Has (.arguments ⟨0⟩) := ⟨a, isObject⟩
  have has' : h.Has (.ordinary ⟨0⟩) := ⟨s, isOrdinary⟩
  have undisturbed := objects_do_not_interfere ⟨_, runs⟩ step has (by decide)
  have undisturbed' := objects_do_not_interfere ⟨_, runs⟩ step has' (by decide)
  exact ⟨h, op, _, ⟨_, runs⟩, step, has, by decide, undisturbed, shares, undisturbed.shared shares,
    has', by decide, undisturbed'⟩

end Heap

end ShapeVM
