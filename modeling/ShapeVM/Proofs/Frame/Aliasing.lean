import ShapeVM.Proofs.Frame.Call
import ShapeVM.Proofs.Heap.Progress

/-!
Parameters and the arguments object. A parameter that got an argument and the index of that argument
are one variable, until the index is deleted; from then on they are two, each written from its own
side. An index of a surplus argument is written by the arguments object alone, and any other index is a
property.
-/
namespace ShapeVM

namespace Touch

variable {passed : Value} {touches newer older : List Touch}

/-- The value that a touch writes, through either side. -/
def written? : Touch → Option Value
  | .byFrame value | .byObject value => some value
  | .deletion => none

def byFrame? : Touch → Option Value
  | .byFrame value => some value
  | _ => none

def byObject? : Touch → Option Value
  | .byObject value => some value
  | _ => none

theorem argument_parameter (live : .deletion ∉ touches) :
    argument true passed touches = (touches.findSome? written?).getD passed := by
  induction touches with
  | nil => rfl
  | cons t older ih =>
    rw [List.mem_cons, not_or] at live
    cases t with
    | byFrame value => rfl
    | byObject value => rw [argument, if_neg live.2, List.findSome?_cons_of_isSome rfl]; rfl
    | deletion => exact (live.1 rfl).elim

theorem argument_surplus (live : .deletion ∉ touches) :
    argument false passed touches = (touches.findSome? byObject?).getD passed := by
  induction touches with
  | nil => rfl
  | cons t older ih =>
    rw [List.mem_cons, not_or] at live
    cases t with
    | byFrame value => exact ih live.2
    | byObject value => rw [argument, if_neg live.2]; rfl
    | deletion => exact (live.1 rfl).elim

/-- After a deletion the frame alone writes the parameter. -/
theorem argument_deleted (newer older : List Touch) :
    argument true passed (newer ++ .deletion :: older) =
      (newer.findSome? byFrame?).getD (argument true passed older) := by
  induction newer with
  | nil => rfl
  | cons t newer ih =>
    cases t with
    | byFrame value => rfl
    | byObject value => exact (if_pos (by simp)).trans ih
    | deletion => exact ih

end Touch

namespace Call

variable {c : Call} {ops : List Operation} {h h' : Heap} {f : Frame}

private theorem toNat_min (m n : UInt32) : (min m n).toNat = min m.toNat n.toNat := by
  rw [Std.min_eq_if, Nat.min_def]
  simp only [UInt32.le_iff_toNat_le]
  split
  · rfl
  · rfl

/-- How many parameters got an argument. -/
def supplied (c : Call) : Nat := min c.args.size c.function.code.paramNames.length

/-- A function and an argument list whose positions have 32 bits. -/
structure Countable (c : Call) : Prop where
  bindings : c.function.code.paramNames.length + c.function.code.localNames.length < UInt32.size
  args : c.args.size < 0x80000000

theorem Countable.toNat_localsStart (countable : c.Countable) : c.localsStart.toNat = c.supplied := by
  have args : c.args.size.toUInt32.toNat = c.args.size :=
    UInt32.toNat_ofNat_of_lt' (Nat.lt_trans countable.args (by decide))
  have params : c.function.code.paramCount.toNat = c.function.code.paramNames.length :=
    UInt32.toNat_ofNat_of_lt' (Nat.lt_of_le_of_lt (Nat.le_add_right ..) countable.bindings)
  rw [localsStart, toNat_min, args, params, supplied]

/-- What a frame and its arguments object hold, index by index, after a history of the call. -/
structure Aliases (c : Call) (ops : List Operation) (h : Heap) (f : Frame) (a : ArgumentsObject) :
    Prop where
  /-- The frame and the arguments object both give what was last written through either. -/
  parameter : ∀ {i passed}, c.args[i.toNat]? = some passed → i.toNat < c.supplied →
    .deletion ∉ c.touches i ops →
    f.get i = .ok (((c.touches i ops).findSome? Touch.written?).getD passed) ∧
      a.getIndex i = .ok (some (((c.touches i ops).findSome? Touch.written?).getD passed))
  /-- What was last written through the arguments object. -/
  surplus : ∀ {i passed}, c.args[i.toNat]? = some passed → c.supplied ≤ i.toNat →
    .deletion ∉ c.touches i ops →
    a.getIndex i = .ok (some (((c.touches i ops).findSome? Touch.byObject?).getD passed))
  /-- The binding is left what it was at the first deletion, until the frame writes it. -/
  deleted : ∀ {i passed newer older}, c.args[i.toNat]? = some passed → i.toNat < c.supplied →
    c.touches i ops = newer ++ .deletion :: older → .deletion ∉ older →
    f.get i =
      .ok ((newer.findSome? Touch.byFrame?).getD ((older.findSome? Touch.written?).getD passed))
  /-- Where there is no argument, or no longer one, there is a property or nothing. `Addressable` is the
  bound of 32-bit offsets: a shape with more keys would have two of them at one offset. -/
  property : h.Addressable → ∀ {i}, c.args.size ≤ i.toNat ∨ .deletion ∈ c.touches i ops →
    a.getIndex i = .ok (Touch.property (c.touches i ops))
  /-- A binding that is no argument is changed by operations on that binding alone. -/
  unlinked : ∀ {i}, c.supplied ≤ i.toNat ∨ .deletion ∈ c.touches i ops →
    ∀ {op h'}, h.Step op h' → ¬op.Binds c.frame c.function.code i →
    ∃ f', h'.frame c.frame = .ok f' ∧ f'.get i = f.get i
  /-- An index that is no argument is changed by operations on the arguments object alone. -/
  separate : ∀ {i}, c.args.size ≤ i.toNat ∨ .deletion ∈ c.touches i ops →
    ∀ {op h'}, h.Step op h' → ¬op.OnArguments c.frame →
    ∃ f' a', h'.frame c.frame = .ok f' ∧ f'.withArguments.argumentsObject? = some a' ∧
      a'.getIndex i = a.getIndex i
  /-- No read or write of the call is out of range. -/
  performed : ∀ {op}, op.frame? = some c.frame → h.Names op → ∃ h', h.Step op h'

namespace Invariant

variable (inv : c.Invariant h ops f)
include inv

theorem get_of_supplied (countable : c.Countable) {i : UInt32} {passed : Value}
    (isArg : c.args[i.toNat]? = some passed) (supplied : i.toNat < c.supplied) :
    f.get i = .ok (Touch.argument true passed (c.touches i ops)) := by
  have parameter : i < c.localsStart :=
    UInt32.lt_iff_toNat_lt.2 (countable.toNat_localsStart ▸ supplied)
  rw [Frame.get_of_lt (inv.localsStart ▸ parameter), inv.argument isArg, decide_eq_true parameter]
  rfl

theorem getIndex_of_live (wf : f.WellFormed) {i : UInt32} {passed : Value}
    (isArg : c.args[i.toNat]? = some passed) (live : .deletion ∉ c.touches i ops) :
    f.object.getIndex i =
      .ok (some (Touch.argument (i < c.localsStart) passed (c.touches i ops))) := by
  have inside : i.toNat < c.args.size := (Array.getElem?_eq_some_iff.1 isArg).1
  rw [wf.object.getIndex_of_linked ((inv.linked i).2 ⟨inside, live⟩)]
  exact congrArg Except.ok (inv.argument isArg)

theorem linked_eq_false {i : UInt32} (outside : c.args.size ≤ i.toNat ∨ .deletion ∈ c.touches i ops) :
    f.object.linked i = false := by
  rw [← Bool.not_eq_true, inv.linked]
  rintro ⟨inside, live⟩
  rcases outside with outside | deleted
  · exact Nat.not_lt.2 outside inside
  · exact live deleted

end Invariant

theorem allows_of_frame? {op : Operation} {id : FrameId} (names : op.frame? = some id) (h : Heap) :
    h.Allows op := by
  cases op with
  | makeObject | makeFrame | transition => cases names
  | _ => trivial

/-- The arguments object is the one there is, or the one that asking for it now would build. -/
theorem frame_aliases_arguments (countable : c.Countable) (ran : c.Ran ops h) :
    ∃ f a, h.frame c.frame = .ok f ∧ f.withArguments.argumentsObject? = some a ∧
      c.Aliases ops h f a := by
  obtain ⟨w, f, isFrame, inv⟩ := ran.invariant
  obtain ⟨_, wf, _, t, table, fits⟩ := w.frame isFrame
  have start := countable.toNat_localsStart
  refine ⟨f, f.object, isFrame, f.argumentsObject?_withArguments,
    ?_, ?_, ?_, ?_, ?_, ?_, ?_⟩
  · intro i passed isArg supplied live
    have parameter : i < c.localsStart := UInt32.lt_iff_toNat_lt.2 (start ▸ supplied)
    rw [inv.get_of_supplied countable isArg supplied, inv.getIndex_of_live wf isArg live,
      decide_eq_true parameter, Touch.argument_parameter live]
    exact ⟨rfl, rfl⟩
  · intro i passed isArg surplus live
    have surplus : ¬i < c.localsStart := fun parameter =>
      Nat.not_lt.2 surplus (start ▸ UInt32.lt_iff_toNat_lt.1 parameter)
    rw [inv.getIndex_of_live wf isArg live, decide_eq_false surplus, Touch.argument_surplus live]
  · intro i passed newer older isArg supplied history first
    rw [inv.get_of_supplied countable isArg supplied, history, Touch.argument_deleted,
      Touch.argument_parameter first]
  · intro small i outside
    have unlinked := inv.linked_eq_false outside
    rw [wf.object.getIndex_of_not_linked unlinked,
      PropertyStore.get?_eq fits (w.table table).2 (small.table table), inv.property small, unlinked]
    rfl
  · intro i outside op h' step unbound
    obtain ⟨f', isFrame', effect⟩ := step.effect.frameEffect w isFrame
    rw [← inv.id, ← inv.function] at unbound
    refine ⟨f', isFrame', effect.get unbound ?_⟩
    rcases outside with surplus | deleted
    · rw [inv.localsStart, UInt32.le_iff_toNat_le, start]
      exact .inl surplus
    · exact .inr (inv.linked_eq_false (.inr deleted))
  · intro i outside op h' step elsewhere
    obtain ⟨f', isFrame', effect⟩ := step.effect.frameEffect w isFrame
    have wf' := ((step.effect.preserved w).wellFormed.frame isFrame').frame
    have unlinked := inv.linked_eq_false outside
    have unlinked' : f'.object.linked i = false := by rw [effect.linked, unlinked, Bool.false_and]
    rw [← inv.id] at elsewhere
    refine ⟨f', f'.object, isFrame', f'.argumentsObject?_withArguments, ?_⟩
    rw [wf'.object.getIndex_of_not_linked unlinked', wf.object.getIndex_of_not_linked unlinked,
      effect.properties elsewhere]
  · intro op names there
    obtain ⟨h', done⟩ := w.perform there
    exact ⟨h', allows_of_frame? names h, done⟩

/-- Two parameters and a surplus argument. The first parameter is deleted, and then written by the
frame. -/
theorem frame_aliases_arguments_of_deleted : ∃ c ops h f a, Countable c ∧ c.Ran ops h ∧
    h.frame c.frame = .ok f ∧ f.withArguments.argumentsObject? = some a ∧
    c.touches 0 ops = [.byFrame (.boolean true), .deletion] ∧ c.Aliases ops h f a := by
  let function : FunctionRef := { id := ⟨0⟩, code := { paramNames := ["a", "b"] } }
  let args : Array Value := #[.null, .undefined, .boolean true]
  have ran : Ran ⟨⟨0⟩, function, args⟩ [
      .setBinding ⟨0⟩ 0 (.boolean true), .deleteArgument ⟨0⟩ 0, .arguments ⟨0⟩] _ :=
    ran_afterAll ⟨0⟩ .null [.makeTable {}] _ (by decide +kernel) (by decide +kernel)
  have countable : Countable ⟨⟨0⟩, function, args⟩ := ⟨by decide, by decide⟩
  obtain ⟨f, a, isFrame, isObject, aliases⟩ := frame_aliases_arguments countable ran
  exact ⟨_, _, _, f, a, countable, ran, isFrame, isObject, rfl, aliases⟩

end Call

end ShapeVM
