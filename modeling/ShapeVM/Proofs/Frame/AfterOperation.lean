import ShapeVM.Proofs.Frame.Touch

/-!
What is read of a frame and its arguments object after an operation, in terms of what was read before
and of the index that the operation touched.
-/
namespace ShapeVM

/-- The operation writes an argument: a parameter that got one through the frame, or an index through
the arguments object while it is linked. -/
def Operation.Copies (op : Operation) (f : Frame) : Prop :=
  ∃ i value, op.touch? f.id f.function.code i = some (.byFrame value) ∧ i < f.localsStart ∨
    op.touch? f.id f.function.code i = some (.byObject value) ∧ f.object.linked i = true

/-- The operation is one on the arguments object of a frame. -/
def Operation.OnArguments (frame : FrameId) : Operation → Prop
  | .put (.arguments id) _ _ | .delete (.arguments id) _ => id = frame
  | _ => False

/-- The operation writes the binding at a position, or makes it constant. -/
def Operation.Binds (frame : FrameId) (code : Function) (i : UInt32) : Operation → Prop
  | .setBinding id j _ | .setConstBinding id j _ => id = frame ∧ j = i
  | .put (.activation id) key _ => id = frame ∧ code.resolve? key = some i
  | _ => False

theorem Operation.binds_of_touch? {op : Operation} {frame : FrameId} {code : Function} {i : UInt32}
    {value : Value} (touch : op.touch? frame code i = some (.byFrame value)) :
    op.Binds frame code i := by
  cases op with
  | setBinding id j _ =>
    rw [touch?, Option.ite_none_right_eq_some] at touch
    exact touch.1
  | put o key _ =>
    cases o with
    | ordinary id => cases touch
    | arguments id =>
      rw [touch?, Option.ite_none_right_eq_some] at touch
      cases touch.2
    | activation id =>
      rw [touch?, Option.ite_none_right_eq_some] at touch
      exact touch.1
  | delete o key =>
    cases o with
    | ordinary id => cases touch
    | arguments id =>
      rw [touch?, Option.ite_none_right_eq_some] at touch
      cases touch.2
    | activation id => cases touch
  | _ => cases touch

namespace Heap

variable {h h' : Heap} {op : Operation} {f f' : Frame} {id : FrameId}

namespace FrameEffect

variable (effect : h.FrameEffect f op f')
include effect

/-- The call that a frame stands for. -/
theorem call : f'.id = f.id ∧ f'.function = f.function ∧ f'.localsStart = f.localsStart ∧
    f'.args.size = f.args.size ∧ f'.args.cells.initial = f.args.cells.initial := by
  cases effect with
  | still _ => exact ⟨rfl, rfl, rfl, rfl, rfl⟩
  | built _ =>
    rw [Frame.withArguments_eq]
    exact ⟨rfl, rfl, rfl, rfl, rfl⟩
  | assign _ _ done =>
    obtain ⟨_, _, rfl⟩ := done.frame
    refine ⟨rfl, rfl, rfl, ?_, ?_⟩
    · dsimp only
      split <;> simp
    · dsimp only
      split <;> simp
  | freeze done =>
    obtain ⟨_, _, rfl⟩ := done.frame
    exact ⟨rfl, rfl, rfl, rfl, rfl⟩
  | ownProperty _ _ => exact ⟨rfl, rfl, rfl, rfl, rfl⟩
  | putArgument _ => exact ⟨rfl, rfl, rfl, f.args.size_replace .., f.args.initial_replace ..⟩
  | putProperty _ _ _ => exact ⟨rfl, rfl, rfl, rfl, rfl⟩
  | deleteProperty deleted =>
    refine ⟨rfl, rfl, rfl, ?_, ?_⟩
    · exact congrArg ArgumentList.size deleted.args
    · exact congrArg (·.cells.initial) deleted.args

/-- An index is unlinked by its deletion and by nothing else. -/
theorem linked (i : UInt32) : f'.object.linked i =
    (f.object.linked i && decide (op.touch? f.id f.function.code i ≠ some .deletion)) := by
  cases effect with
  | still elsewhere => simp [Operation.touch?_of_frame?_ne elsewhere]
  | built isRead => simp [isRead.touch?]
  | assign _ touch done =>
    rw [done.object_eq (by split <;> simp), ArgumentsObject.linked_setArgs (by split <;> simp), touch]
    split <;> simp
  | freeze done =>
    rw [done.object_eq rfl, ArgumentsObject.linked_setArgs rfl]
    exact (Bool.and_true _).symm
  | ownProperty _ untouched =>
    rw [untouched]
    exact (Bool.and_true _).symm
  | putArgument _ =>
    rw [Frame.object_setArgumentsObject, ArgumentsObject.linked_setArgs (by simp),
      Operation.touch?_put_arguments]
    split <;> simp
  | putProperty _ _ _ =>
    rw [Operation.touch?_put_arguments]
    split
    · exact (Bool.and_true _).symm
    · exact (Bool.and_true _).symm
  | deleteProperty deleted =>
    rw [Frame.object_setArgumentsObject, deleted.linked, Operation.touch?_delete_arguments]
    split <;> simp [*]

/-- An argument is written by a parameter's writes through the frame, and by writes through the
arguments object to a linked index. -/
theorem argument (w : f.WellFormed) (i : UInt32) : f'.args.get? i.toNat =
    match op.touch? f.id f.function.code i with
    | some (.byFrame value) => if i < f.localsStart then some value else f.args.get? i.toNat
    | some (.byObject value) => if f.object.linked i then some value else f.args.get? i.toNat
    | _ => f.args.get? i.toNat := by
  cases effect with
  | still elsewhere => simp [Operation.touch?_of_frame?_ne elsewhere]
  | built isRead => rw [isRead.touch?, Frame.withArguments_eq]
  | @assign _ j value _ _ touch done =>
    rw [done.args_eq, touch]
    by_cases here : i = j
    · subst here
      rw [if_pos rfl]
      by_cases parameter : i < f.localsStart
      · have inside := Nat.lt_of_lt_of_le (UInt32.lt_iff_toNat_lt.1 parameter) w.localsStart_le
        rw [if_pos parameter, ArgumentList.get?_replace, if_pos ⟨rfl, inside⟩]
        exact (if_pos parameter).symm
      · rw [if_neg parameter]
        exact (if_neg parameter).symm
    · rw [if_neg here]
      split
      · exact ArgumentList.get?_replace_of_ne f.args (Ne.symm here) value
      · rfl
  | freeze done =>
    rw [done.args_eq]
    rfl
  | ownProperty _ untouched => rw [untouched]
  | @putArgument j value linked =>
    have inside := ArgumentsObject.lt_size_of_linked linked
    rw [Operation.touch?_put_arguments]
    by_cases here : i = j
    · subst here
      rw [if_pos rfl]
      exact ((f.args.get?_replace ..).trans (if_pos ⟨rfl, inside⟩)).trans (if_pos linked).symm
    · rw [if_neg fun same => here (Key.index.inj same).symm]
      exact ArgumentList.get?_replace_of_ne f.args (Ne.symm here) value
  | @putProperty key value _ _ _ unlinked _ _ =>
    rw [Operation.touch?_put_arguments]
    by_cases here : key = .index i
    · rw [if_pos here]
      exact (if_neg (by simp [unlinked i here])).symm
    · rw [if_neg here]
      rfl
  | @deleteProperty key _ deleted =>
    refine (congrArg (·.get? i.toNat) deleted.args).trans ?_
    rw [Operation.touch?_delete_arguments]
    by_cases here : key = .index i
    · rw [if_pos here]
      rfl
    · rw [if_neg here]
      rfl

/-- The arguments object's own properties are changed through the object alone. -/
theorem properties (elsewhere : ¬op.OnArguments f.id) :
    f'.object.properties = f.object.properties := by
  cases effect with
  | still _ => rfl
  | built _ => rw [Frame.object_withArguments]
  | assign _ _ done => rw [done.object_eq (by split <;> simp)]
  | freeze done => rw [done.object_eq rfl]
  | ownProperty _ _ => rfl
  | putArgument _ => rfl
  | putProperty _ _ _ => exact (elsewhere rfl).elim
  | deleteProperty _ => exact (elsewhere rfl).elim

/-- The arguments object's own property of an index is written while the index is not linked. -/
theorem property (w : h.WellFormed) (fits : h.Fits f.object.properties) (small : h.Addressable)
    (i : UInt32) : f'.object.properties.toList.get? (.index i) =
      match op.touch? f.id f.function.code i with
      | some (.byObject value) =>
        if f.object.linked i then f.object.properties.toList.get? (.index i) else some value
      | some .deletion => none
      | _ => f.object.properties.toList.get? (.index i) := by
  obtain ⟨t, table, fits⟩ := fits
  have wt := (w.table table).2
  cases effect with
  | still elsewhere => rw [Operation.touch?_of_frame?_ne elsewhere]
  | built isRead => rw [isRead.touch?, Frame.object_withArguments]
  | @assign _ j value _ _ touch done =>
    rw [done.object_eq (by split <;> simp), touch]
    by_cases here : i = j
    · rw [if_pos here]
    · rw [if_neg here]
  | freeze done =>
    rw [done.object_eq rfl]
    rfl
  | ownProperty _ untouched =>
    rw [untouched]
    rfl
  | @putArgument j value linked =>
    rw [Frame.object_setArgumentsObject, Operation.touch?_put_arguments]
    by_cases here : Key.index j = .index i
    · cases here
      rw [if_pos rfl]
      exact (if_pos linked).symm
    · rw [if_neg here]
  | @putProperty key value t₀ t' properties unlinked table' inserted =>
    obtain rfl := Except.ok.inj (table.symm.trans table')
    obtain ⟨_, done⟩ := PropertyStore.insert_eq_ok.1 inserted
    have spec := PropertyStore.inserted_of_insertLocated fits wt done
    rw [Frame.object_setArgumentsObject, spec.toList (small.table table), PropertyList.get?_put,
      Operation.touch?_put_arguments]
    by_cases here : key = .index i
    · rw [if_pos here, if_pos here]
      exact (if_neg (by simp [unlinked i here])).symm
    · rw [if_neg here, if_neg here]
  | @deleteProperty key _ deleted =>
    rw [Frame.object_setArgumentsObject, deleted.properties, PropertyStore.toList_erase fits wt,
      PropertyList.get?_delete, Operation.touch?_delete_arguments]
    by_cases here : key = .index i
    · rw [if_pos here, if_pos here]
    · rw [if_neg here, if_neg here]

/-- The copy is taken by the first operation that writes an argument. -/
theorem hasCopiedArguments (w : f.WellFormed) :
    f'.hasCopiedArguments = true ↔ f.hasCopiedArguments = true ∨ op.Copies f := by
  have still (same : f'.args.isShared = f.args.isShared) (quiet : ¬op.Copies f) :
      f'.hasCopiedArguments = true ↔ f.hasCopiedArguments = true ∨ op.Copies f := by
    rw [Frame.hasCopiedArguments, same, Frame.hasCopiedArguments]
    exact ⟨.inl, fun either => either.resolve_right quiet⟩
  have untouched (none : ∀ i, op.touch? f.id f.function.code i = none) : ¬op.Copies f := by
    rintro ⟨i, value, ⟨touch, _⟩ | ⟨touch, _⟩⟩
    · cases (none i).symm.trans touch
    · cases (none i).symm.trans touch
  have copied (own : f'.args.isShared = false) (writes : op.Copies f) :
      f'.hasCopiedArguments = true ↔ f.hasCopiedArguments = true ∨ op.Copies f := by
    rw [Frame.hasCopiedArguments, own]
    exact ⟨fun _ => .inr writes, fun _ => rfl⟩
  cases effect with
  | still elsewhere => exact still rfl (untouched (Operation.touch?_of_frame?_ne elsewhere _))
  | built isRead => exact still (by rw [Frame.withArguments_eq]) (untouched (isRead.touch? _ _))
  | @assign _ j value _ _ touch done =>
    by_cases parameter : j < f.localsStart
    · have inside := Nat.lt_of_lt_of_le (UInt32.lt_iff_toNat_lt.1 parameter) w.localsStart_le
      refine copied ?_ ⟨j, value, .inl ⟨(touch j).trans (if_pos rfl), parameter⟩⟩
      rw [done.args_eq, if_pos parameter, ArgumentList.isShared_replace value inside]
    · refine still (by rw [done.args_eq, if_neg parameter]) ?_
      rintro ⟨i, _, ⟨written, inside⟩ | ⟨written, _⟩⟩
      · rw [touch, Option.ite_none_right_eq_some] at written
        exact parameter (written.1 ▸ inside)
      · rw [touch, Option.ite_none_right_eq_some] at written
        cases written.2
  | freeze done => exact still (by rw [done.args_eq]) (untouched fun _ => rfl)
  | ownProperty _ none => exact still rfl (untouched none)
  | @putArgument j value linked =>
    refine copied ?_ ⟨j, value, .inr ⟨by simp, linked⟩⟩
    exact ArgumentList.isShared_replace value (ArgumentsObject.lt_size_of_linked linked)
  | @putProperty key value _ _ _ unlinked _ _ =>
    refine still rfl ?_
    rintro ⟨i, _, ⟨written, _⟩ | ⟨written, linked⟩⟩
    · rw [Operation.touch?_put_arguments, Option.ite_none_right_eq_some] at written
      cases written.2
    · rw [Operation.touch?_put_arguments, Option.ite_none_right_eq_some] at written
      cases (unlinked i written.1).symm.trans linked
  | @deleteProperty key _ deleted =>
    refine still (congrArg ArgumentList.isShared deleted.args) ?_
    rintro ⟨i, _, ⟨written, _⟩ | ⟨written, _⟩⟩
    · rw [Operation.touch?_delete_arguments, Option.ite_none_right_eq_some] at written
      cases written.2
    · rw [Operation.touch?_delete_arguments, Option.ite_none_right_eq_some] at written
      cases written.2

/-- A position reads the same until it is written, unless the arguments object writes its argument. -/
theorem get {i : UInt32} (unbound : ¬op.Binds f.id f.function.code i)
    (apart : f.localsStart ≤ i ∨ f.object.linked i = false) : f'.get i = f.get i := by
  cases effect with
  | still elsewhere => rfl
  | built isRead => exact f.get_withArguments i
  | @assign _ j value _ _ touch done =>
    refine done.others ?_
    rintro rfl
    exact unbound (Operation.binds_of_touch? ((touch i).trans (if_pos rfl)))
  | freeze done =>
    refine done.others ?_
    rintro rfl
    exact unbound ⟨rfl, rfl⟩
  | ownProperty _ none => rfl
  | @putArgument j value linked =>
    refine Frame.get_congr rfl rfl (fun parameter => ?_) rfl fun _ => rfl
    refine f.args.get?_replace_of_ne ?_ value
    rintro rfl
    have unlinked := apart.resolve_left (UInt32.not_le.2 parameter)
    cases unlinked.symm.trans linked
  | putProperty _ _ _ => rfl
  | deleteProperty deleted =>
    exact Frame.get_congr rfl rfl (fun _ => congrArg (·.get? i.toNat) deleted.args) rfl fun _ => rfl

theorem ownEffect : h.OwnEffect f op f'.properties := by
  cases effect with
  | still elsewhere => exact .kept (Operation.ownEdit?_of_frame?_ne elsewhere _)
  | built isRead =>
    rw [Frame.withArguments_eq]
    exact .kept (Operation.ownEdit?_of_frame?_ne (by simp [isRead.frame?]) _)
  | @assign _ i _ _ _ touch done =>
    obtain ⟨_, _, rfl⟩ := done.frame
    exact .kept (Operation.ownEdit?_of_touch? ((touch i).trans (if_pos rfl)))
  | freeze done =>
    obtain ⟨_, _, rfl⟩ := done.frame
    exact .kept rfl
  | ownProperty _ _ own => exact own
  | putArgument _ => exact .kept rfl
  | putProperty _ _ _ => exact .kept rfl
  | deleteProperty _ => exact .kept rfl

end FrameEffect

/-- The keys of a frame's own properties are those that the changes of the properties say. -/
theorem OwnEffect.keys {properties : PropertyStore} (own : h.OwnEffect f op properties)
    (w : h.WellFormed) (fits : h.Fits f.properties) :
    properties.keys = match op.ownEdit? f.id f.function.code with
      | some e => (f.properties.toList.edit e).keys
      | none => f.properties.keys := by
  obtain ⟨t, table, fits⟩ := fits
  have wt := (w.table table).2
  cases own with
  | kept unchanged => rw [unchanged]
  | put unresolved table' inserted =>
    obtain rfl := Except.ok.inj (table.symm.trans table')
    obtain ⟨_, done⟩ := PropertyStore.insert_eq_ok.1 inserted
    rw [Operation.ownEdit?, if_pos ⟨rfl, unresolved⟩]
    exact (PropertyStore.inserted_of_insertLocated fits wt done).keys
  | @delete key unresolved =>
    rw [Operation.ownEdit?, if_pos ⟨rfl, unresolved⟩, PropertyStore.keys_eq (fits.erase key),
      PropertyStore.toList_erase fits wt]
    rfl

end Heap

end ShapeVM
