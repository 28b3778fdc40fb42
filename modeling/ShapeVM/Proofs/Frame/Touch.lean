import ShapeVM.Proofs.Heap.WellFormed

/-!
What an operation does to one frame. Only operations on the frame itself or on its arguments object
change it, and of these a single index of the arguments is touched, if any: through the frame, through
the arguments object, or by a deletion. The properties that the frame has of its own are changed by
keys that no binding has.
-/
namespace ShapeVM

/-- What happens at one index of the arguments of a call. -/
inductive Touch where
  | byFrame (value : Value)
  | byObject (value : Value)
  | deletion
  deriving DecidableEq

namespace Operation

/-- The frame that an operation may change. -/
def frame? : Operation → Option FrameId
  | .setBinding frame _ _ | .setConstBinding frame _ _ | .setParent frame _ => some frame
  | .put (.activation frame) _ _ | .delete (.activation frame) _ => some frame
  | .put (.arguments frame) _ _ | .delete (.arguments frame) _ => some frame
  | _ => none

/-- What an operation does at an index of a frame whose function is `code`. -/
def touch? (frame : FrameId) (code : Function) (i : UInt32) : Operation → Option Touch
  | .setBinding id j value => if id = frame ∧ j = i then some (.byFrame value) else none
  | .put (.activation id) key value =>
    if id = frame ∧ code.resolve? key = some i then some (.byFrame value) else none
  | .put (.arguments id) key value =>
    if id = frame ∧ key = .index i then some (.byObject value) else none
  | .delete (.arguments id) key => if id = frame ∧ key = .index i then some .deletion else none
  | _ => none

/-- The change that an operation makes to the properties that a frame has of its own. -/
def ownEdit? (frame : FrameId) (code : Function) : Operation → Option Edit
  | .put (.activation id) key value =>
    if id = frame ∧ code.resolve? key = none then some (.put key value) else none
  | .delete (.activation id) key =>
    if id = frame ∧ code.resolve? key = none then some (.delete key) else none
  | _ => none

/-- The value that an operation gives a slot of a frame for good. -/
def final? (frame : FrameId) (i : UInt32) : Operation → Option Value
  | .setConstBinding id j value => if id = frame ∧ j = i then some value else none
  | _ => none

variable {op : Operation} {frame : FrameId}

theorem touch?_of_frame?_ne (elsewhere : op.frame? ≠ some frame) (code : Function) (i : UInt32) :
    op.touch? frame code i = none := by
  have apart {id : FrameId} (eq : op.frame? = some id) : id ≠ frame :=
    fun same => elsewhere (same ▸ eq)
  cases op with
  | setBinding id j value => exact if_neg fun both => apart rfl both.1
  | put o key value =>
    cases o with
    | ordinary id => rfl
    | arguments id => exact if_neg fun both => apart rfl both.1
    | activation id => exact if_neg fun both => apart rfl both.1
  | delete o key =>
    cases o with
    | ordinary id => rfl
    | arguments id => exact if_neg fun both => apart rfl both.1
    | activation id => rfl
  | _ => rfl

@[simp] theorem touch?_put_arguments (frame : FrameId) (code : Function) (i : UInt32) (key : Key)
    (value : Value) : (put (.arguments frame) key value).touch? frame code i =
      if key = .index i then some (.byObject value) else none := by
  simp [touch?]

@[simp] theorem touch?_delete_arguments (frame : FrameId) (code : Function) (i : UInt32) (key : Key) :
    (delete (.arguments frame) key).touch? frame code i =
      if key = .index i then some .deletion else none := by
  simp [touch?]

theorem IsRead.frame? (read : op.IsRead) : op.frame? = none := by
  cases op <;> first | rfl | cases read

theorem IsRead.touch? (read : op.IsRead) (frame : FrameId) (code : Function) (i : UInt32) :
    op.touch? frame code i = none :=
  touch?_of_frame?_ne (by simp [read.frame?]) code i

theorem ownEdit?_of_frame?_ne (elsewhere : op.frame? ≠ some frame) (code : Function) :
    op.ownEdit? frame code = none := by
  cases op with
  | put o key value =>
    cases o with
    | activation id => exact if_neg fun both => elsewhere (congrArg some both.1)
    | _ => rfl
  | delete o key =>
    cases o with
    | activation id => exact if_neg fun both => elsewhere (congrArg some both.1)
    | _ => rfl
  | _ => rfl

theorem eq_of_final? {i : UInt32} {value : Value} (final : op.final? frame i = some value) :
    op = .setConstBinding frame i value := by
  cases op with
  | setConstBinding id j value' =>
    rw [final?, Option.ite_none_right_eq_some] at final
    obtain ⟨⟨rfl, rfl⟩, ⟨⟩⟩ := final
    rfl
  | _ => cases final

theorem final?_of_frame?_ne (elsewhere : op.frame? ≠ some frame) (i : UInt32) :
    op.final? frame i = none := by
  cases op with
  | setConstBinding id j value => exact if_neg fun both => elsewhere (congrArg some both.1)
  | _ => rfl

theorem final?_of_touch? {code : Function} {i : UInt32} {t : Touch}
    (touch : op.touch? frame code i = some t) (j : UInt32) : op.final? frame j = none := by
  cases op with
  | setConstBinding id j value => cases touch
  | _ => rfl

/-- Properties are put under keys that no binding has. -/
theorem resolve?_of_ownEdit? {code : Function} {key : Key} {value : Value}
    (edit : op.ownEdit? frame code = some (.put key value)) : code.resolve? key = none := by
  cases op with
  | put o k v =>
    cases o with
    | activation id =>
      rw [ownEdit?, Option.ite_none_right_eq_some] at edit
      obtain ⟨⟨_, unresolved⟩, ⟨⟩⟩ := edit
      exact unresolved
    | _ => cases edit
  | delete o k =>
    cases o with
    | activation id =>
      rw [ownEdit?, Option.ite_none_right_eq_some] at edit
      cases edit.2
    | _ => cases edit
  | _ => cases edit

theorem ownEdit?_of_touch? {code : Function} {i : UInt32} {t : Touch}
    (touch : op.touch? frame code i = some t) : op.ownEdit? frame code = none := by
  cases op with
  | put o key value =>
    cases o with
    | activation id =>
      rw [touch?, Option.ite_none_right_eq_some] at touch
      exact if_neg fun both => by cases both.2.symm.trans touch.1.2
    | _ => rfl
  | delete o key =>
    cases o with
    | activation id => cases touch
    | _ => rfl
  | _ => rfl

end Operation

namespace Heap

variable {h h' : Heap} {op : Operation} {f f' : Frame} {id : FrameId}

/-- What an operation on a heap leaves of the properties that a frame has of its own. -/
inductive OwnEffect (h : Heap) (f : Frame) : Operation → PropertyStore → Prop
  | kept {op : Operation} : op.ownEdit? f.id f.function.code = none → OwnEffect h f op f.properties
  | put {key : Key} {value : Value} {t t' : ShapeTable} {properties : PropertyStore} :
    f.function.code.resolve? key = none → h.table f.properties.table = .ok t →
    f.properties.insert t key value = .ok (properties, t') →
    OwnEffect h f (.put (.activation f.id) key value) properties
  | delete {key : Key} : f.function.code.resolve? key = none →
    OwnEffect h f (.delete (.activation f.id) key) (f.properties.erase key).1

/-- What an operation on a heap does to a frame, one case for each way in which it can change it. -/
inductive FrameEffect (h : Heap) (f : Frame) : Operation → Frame → Prop
  | still {op : Operation} : op.frame? ≠ some f.id → FrameEffect h f op f
  | built {op : Operation} : op.IsRead → FrameEffect h f op f.withArguments
  | assign {op : Operation} {i : UInt32} {value : Value} {f' : Frame} : op.frame? = some f.id →
    (∀ j, op.touch? f.id f.function.code j = if j = i then some (.byFrame value) else none) →
    f.Assigned i (if i < f.localsStart then f.args.replace i.toNat value else f.args) f' →
    f.set i value = .ok f' → FrameEffect h f op f'
  | freeze {i : UInt32} {value : Value} {f' : Frame} : f.Assigned i f.args f' →
    f.setConst i value = .ok f' → FrameEffect h f (.setConstBinding f.id i value) f'
  | ownProperty {op : Operation} {properties : PropertyStore} {parent : Option FrameId} :
    op.frame? = some f.id → (∀ i, op.touch? f.id f.function.code i = none) →
    h.OwnEffect f op properties → (∀ i, op.final? f.id i = none) →
    FrameEffect h f op { f with properties, parent }
  | putArgument {i : UInt32} {value : Value} : f.object.linked i = true →
    FrameEffect h f (.put (.arguments f.id) (.index i) value)
      (f.setArgumentsObject { f.object with args := f.args.replace i.toNat value })
  | putProperty {key : Key} {value : Value} {t t' : ShapeTable} {properties : PropertyStore} :
    (∀ i, key = .index i → f.object.linked i = false) →
    h.table f.object.properties.table = .ok t →
    f.object.properties.insert t key value = .ok (properties, t') →
    FrameEffect h f (.put (.arguments f.id) key value)
      (f.setArgumentsObject { f.object with properties })
  | deleteProperty {key : Key} {a : ArgumentsObject} : f.object.Deleted key a →
    FrameEffect h f (.delete (.arguments f.id) key) (f.setArgumentsObject a)

theorem FrameEffect.unnamed (unnamed : op.frame? = none) : h.FrameEffect f op f :=
  .still fun named => by cases unnamed.symm.trans named

/-- Replacing a frame is the operation's effect on that frame, and does nothing to any other. -/
private theorem frameEffect_setFrame {h₀ : Heap} {f₀ f₁ : Frame} (found : h₀.frame f₀.id = .ok f₀)
    (named : f₁.id = f₀.id) (isFrame : h₀.frame f.id = .ok f)
    (names : op.frame? = some f₀.id ∨ op.frame? = none) (here : f₀ = f → h.FrameEffect f op f₁) :
    ∃ f', (h₀.setFrame f₁).frame f.id = .ok f' ∧ h.FrameEffect f op f' := by
  rw [frame_setFrame (named ▸ found), named]
  by_cases same : f₀.id = f.id
  · rw [← same, found] at isFrame
    exact ⟨f₁, if_pos same.symm, here (Except.ok.inj isFrame)⟩
  · refine ⟨f, (if_neg (Ne.symm same)).trans isFrame, .still fun eq => ?_⟩
    rcases names with named | unnamed
    · exact same (Option.some.inj (named.symm.trans eq))
    · cases unnamed.symm.trans eq

theorem Effect.frameEffect (effect : h.Effect op h') (w : h.WellFormed) (isFrame : h.frame id = .ok f) :
    ∃ f', h'.frame id = .ok f' ∧ h.FrameEffect f op f' := by
  obtain ⟨rfl, _, _, _⟩ := w.frame isFrame
  cases effect with
  | makeTable => exact ⟨f, isFrame, .unnamed rfl⟩
  | makeFunction => exact ⟨f, isFrame, .unnamed rfl⟩
  | makeObject found => exact ⟨f, isFrame, .unnamed rfl⟩
  | makeFrame found =>
    refine ⟨f, ?_, .unnamed rfl⟩
    rw [frame_allocFrame, if_neg]
    · exact isFrame
    · intro last
      rw [last] at isFrame
      simp [Heap.frame, resolve] at isFrame
  | makeCache => exact ⟨f, isFrame, .unnamed rfl⟩
  | makeSiteCaches => exact ⟨f, isFrame, .unnamed rfl⟩
  | transition found held done => exact ⟨f, isFrame, .unnamed rfl⟩
  | refuse => exact ⟨f, isFrame, .unnamed rfl⟩
  | read isRead => exact ⟨f, isFrame, .unnamed isRead.frame?⟩
  | handOut isRead found =>
    obtain ⟨rfl, _, _, _⟩ := w.frame found
    refine frameEffect_setFrame found (Frame.id_withArguments _) isFrame (.inr isRead.frame?) ?_
    rintro rfl
    exact .built isRead
  | putObject isObject table inserted => exact ⟨f, isFrame, .unnamed rfl⟩
  | deleteObject isObject => exact ⟨f, isFrame, .unnamed rfl⟩
  | fetch found isObject done => exact ⟨f, (frame_setCache ..).trans isFrame, .unnamed rfl⟩
  | store found isObject table done => exact ⟨f, (frame_setCache ..).trans isFrame, .unnamed rfl⟩
  | resetCache found => exact ⟨f, (frame_setCache ..).trans isFrame, .unnamed rfl⟩
  | @setBinding _ i value f₀ f₁ found done =>
    obtain ⟨rfl, wf, _, _⟩ := w.frame found
    obtain ⟨_, done', spec⟩ := wf.set i value
    cases done.symm.trans done'
    refine frameEffect_setFrame found spec.id_eq isFrame (.inl rfl) ?_
    rintro rfl
    exact .assign rfl (fun j => by simp [Operation.touch?, eq_comm]) spec done
  | @setConstBinding _ i value f₀ f₁ found done =>
    obtain ⟨rfl, wf, _, _⟩ := w.frame found
    obtain ⟨_, done', spec⟩ := wf.setConst i value
    cases done.symm.trans done'
    refine frameEffect_setFrame found spec.id_eq isFrame (.inl rfl) ?_
    rintro rfl
    exact .freeze spec done
  | @setParent _ parent f₀ found =>
    obtain ⟨rfl, _, _, _⟩ := w.frame found
    refine frameEffect_setFrame found rfl isFrame (.inl rfl) ?_
    rintro rfl
    exact .ownProperty rfl (fun _ => rfl) (.kept rfl) fun _ => rfl
  | @putActivation _ key value f₀ _ _ _ found table done =>
    obtain ⟨rfl, wf, _, _⟩ := w.frame found
    rcases Frame.putByKey_eq_ok done with ⟨i, resolved, written, rfl⟩ |
      ⟨unresolved, properties, inserted, rfl⟩
    · obtain ⟨_, done', spec⟩ := wf.set i _
      cases written.symm.trans done'
      refine frameEffect_setFrame found spec.id_eq isFrame (.inl rfl) ?_
      rintro rfl
      exact .assign rfl (fun j => by simp [Operation.touch?, resolved, eq_comm]) spec written
    · refine frameEffect_setFrame found rfl isFrame (.inl rfl) ?_
      rintro rfl
      have untouched i : Operation.touch? f₀.id f₀.function.code i (.put (.activation f₀.id) key value) =
          none := by
        simp [Operation.touch?, unresolved]
      exact .ownProperty rfl untouched (.put unresolved table inserted) fun _ => rfl
  | @deleteActivation _ key f₀ found =>
    obtain ⟨rfl, _, _, _⟩ := w.frame found
    cases resolved : f₀.function.code.resolve? key with
    | some i =>
      rw [Frame.deleteKey_of_resolved resolved]
      refine frameEffect_setFrame found rfl isFrame (.inl rfl) ?_
      rintro rfl
      have kept : Operation.ownEdit? f₀.id f₀.function.code (.delete (.activation f₀.id) key) = none :=
        if_neg fun both => by cases both.2.symm.trans resolved
      exact .ownProperty rfl (fun _ => rfl) (.kept kept) fun _ => rfl
    | none =>
      rw [Frame.deleteKey_of_unresolved resolved]
      refine frameEffect_setFrame found rfl isFrame (.inl rfl) ?_
      rintro rfl
      exact .ownProperty rfl (fun _ => rfl) (.delete resolved) fun _ => rfl
  | putArguments found isObject table done =>
    obtain ⟨rfl, wf, _, _⟩ := w.frame found
    obtain rfl := Frame.object_of_argumentsObject? isObject
    rcases wf.object.put_eq_ok done with ⟨i, rfl, linked, rfl, rfl⟩ |
      ⟨unlinked, properties, inserted, rfl⟩
    · refine frameEffect_setFrame found rfl isFrame (.inl rfl) ?_
      rintro rfl
      exact .putArgument linked
    · refine frameEffect_setFrame found rfl isFrame (.inl rfl) ?_
      rintro rfl
      exact .putProperty unlinked table inserted
  | deleteArguments found isObject done =>
    obtain ⟨rfl, wf, _, _⟩ := w.frame found
    obtain rfl := Frame.object_of_argumentsObject? isObject
    refine frameEffect_setFrame found rfl isFrame (.inl rfl) ?_
    rintro rfl
    exact .deleteProperty (wf.object.deleted_of_delete done)

end Heap

end ShapeVM
