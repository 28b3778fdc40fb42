import ShapeVM.Proofs.Frame.AfterOperation
import ShapeVM.Proofs.Heap.Evaluation

/-!
Calls. What a frame and its arguments object hold after a history of operations is determined by the
arguments that the caller passed and by the touches of each index in the history; when the arguments
object was built, and what was done to anything else, has no part in it.
-/
namespace ShapeVM

/-! ## One index -/

namespace Touch

/-- The argument at an index after a history of touches, the newest first. The frame writes it if it is
a parameter, the arguments object until the index is deleted. -/
def argument (parameter : Bool) (passed : Value) : List Touch → Value
  | [] => passed
  | .byFrame value :: older => if parameter then value else argument parameter passed older
  | .byObject value :: older => if .deletion ∈ older then argument parameter passed older else value
  | .deletion :: older => argument parameter passed older

/-- The arguments object's own property of an index that is none of its arguments. -/
def property : List Touch → Option Value
  | [] => none
  | .byFrame _ :: older => property older
  | .byObject value :: _ => some value
  | .deletion :: _ => none

end Touch

/-! ## A call and its frame -/

structure Call where
  frame : FrameId
  function : FunctionRef
  args : Array Value

namespace Call

variable {c : Call} {ops : List Operation} {h h' : Heap} {op : Operation} {f f' : Frame}

/-- The positions below this are arguments. -/
def localsStart (c : Call) : UInt32 := min c.args.size.toUInt32 c.function.code.paramCount

/-- What a history did at an index. -/
def touches (c : Call) (i : UInt32) (ops : List Operation) : List Touch :=
  ops.filterMap (·.touch? c.frame c.function.code i)

/-- The history of a call: the operations since its frame was made, the newest first. -/
inductive Ran (c : Call) : List Operation → Heap → Prop
  | made {h₀ h₁ : Heap} {table : TableId} {objectConstructor : Value} : h₀.Reachable →
    c.frame = ⟨h₀.frames.size⟩ → h₀.Step (.makeFrame table c.function c.args objectConstructor) h₁ →
    Ran c [] h₁
  | step {ops : List Operation} {h : Heap} {op : Operation} {h' : Heap} : Ran c ops h → h.Step op h' →
    Ran c (op :: ops) h'

theorem Ran.runs {later : List Operation} (ran : c.Ran ops h) (runs : h.Runs later h') :
    c.Ran (later ++ ops) h' := by
  induction runs with
  | start => exact ran
  | step _ step ih => exact .step ih step

theorem Ran.reachable (ran : c.Ran ops h) : h.Reachable := by
  induction ran with
  | made reachable _ made => exact reachable.runs (.step .start made)
  | step _ step ih => exact ih.runs (.step .start step)

/-- A call whose history, and that of the heap before it, can be evaluated. -/
theorem ran_afterAll (table : TableId) (objectConstructor : Value) (before later : List Operation)
    (named : c.frame = ⟨(Heap.afterAll {} before).frames.size⟩)
    (performs : Heap.PerformsAll {}
      (later ++ .makeFrame table c.function c.args objectConstructor :: before)) :
    c.Ran later
      (Heap.afterAll {} (later ++ .makeFrame table c.function c.args objectConstructor :: before)) := by
  induction later with
  | nil =>
    obtain ⟨reached, allowed, succeeds⟩ := performs
    exact .made ⟨_, Heap.runs_afterAll reached⟩ named (Heap.step_after allowed succeeds)
  | cons op older ih =>
    obtain ⟨ran, allowed, succeeds⟩ := performs
    exact .step (ih ran) (Heap.step_after allowed succeeds)

/-- After the history `older`, the operation writes an argument. -/
def Writes (c : Call) (older : List Operation) (op : Operation) : Prop :=
  ∃ i value, op.touch? c.frame c.function.code i = some (.byFrame value) ∧ i < c.localsStart ∨
    op.touch? c.frame c.function.code i = some (.byObject value) ∧ i.toNat < c.args.size ∧
      .deletion ∉ c.touches i older

/-- What the history of a call determines. -/
structure Invariant (c : Call) (h : Heap) (ops : List Operation) (f : Frame) : Prop where
  id : f.id = c.frame
  function : f.function = c.function
  localsStart : f.localsStart = c.localsStart
  initial : f.args.cells.initial = c.args
  linked : ∀ i, f.object.linked i = true ↔ i.toNat < c.args.size ∧ .deletion ∉ c.touches i ops
  argument : ∀ {i passed}, c.args[i.toNat]? = some passed →
    f.args.get? i.toNat = some (Touch.argument (i < c.localsStart) passed (c.touches i ops))
  property : h.Addressable → ∀ i, f.object.properties.toList.get? (.index i) =
    if f.object.linked i then none else Touch.property (c.touches i ops)
  copied : f.hasCopiedArguments = true ↔ ∃ op older, op :: older <:+ ops ∧ c.Writes older op

theorem touches_cons_of_none {i : UInt32} (untouched : op.touch? c.frame c.function.code i = none) :
    c.touches i (op :: ops) = c.touches i ops := List.filterMap_cons_none untouched

theorem touches_cons_of_some {i : UInt32} {t : Touch}
    (touch : op.touch? c.frame c.function.code i = some t) :
    c.touches i (op :: ops) = t :: c.touches i ops := List.filterMap_cons_some touch

theorem invariant_ofCall (c : Call) (h : Heap) (table : TableId) (objectConstructor : Value) :
    c.Invariant h [] (.ofCall c.frame table c.function c.args objectConstructor) where
  id := rfl
  function := rfl
  localsStart := rfl
  initial := rfl
  linked i := by
    simp [touches, ArgumentsObject.linked, ArgumentsObject.flag, Frame.object, Frame.freshArguments,
      Frame.ofCall, ArgumentsObject.size]
  argument isArg := by
    rw [touches, List.filterMap_nil, Touch.argument, ← isArg]
    exact ArgumentList.get?_ofArray ..
  property _ i := by
    rw [touches, List.filterMap_nil, Touch.property, ite_self]
    rfl
  copied := by
    have shared :
        (Frame.ofCall c.frame table c.function c.args objectConstructor).hasCopiedArguments = false :=
      congrArg (!·) (ArgumentList.isShared_ofArray c.args)
    simp [shared]

namespace Invariant

variable (inv : c.Invariant h ops f)
include inv

theorem size : f.args.size = c.args.size := congrArg Array.size inv.initial

theorem copies_iff_writes : op.Copies f ↔ c.Writes ops op := by
  simp only [Operation.Copies, Writes, inv.id, inv.function, inv.localsStart, inv.linked]

theorem step (w : h.WellFormed) (fits : h.FrameFits c.frame f) (grows : h.Grows h')
    (effect : h.FrameEffect f op f') : c.Invariant h' (op :: ops) f' := by
  obtain ⟨id, function, start, _, initial⟩ := effect.call
  refine ⟨id.trans inv.id, function.trans inv.function, start.trans inv.localsStart,
    initial.trans inv.initial, fun i => ?_, fun {i passed} isArg => ?_, fun small i => ?_, ?_⟩
  · rw [effect.linked, Bool.and_eq_true, inv.linked, decide_eq_true_eq, inv.id, inv.function]
    cases touch : op.touch? c.frame c.function.code i with
    | none => simp [touches_cons_of_none touch]
    | some t => cases t <;> simp [touches_cons_of_some touch]
  · rw [effect.argument fits.frame, inv.argument isArg, inv.id, inv.function, inv.localsStart]
    cases touch : op.touch? c.frame c.function.code i with
    | none => rw [touches_cons_of_none touch]
    | some t =>
      rw [touches_cons_of_some touch]
      cases t with
      | byFrame value =>
        simp only [Touch.argument, decide_eq_true_eq]
        split <;> rfl
      | byObject value =>
        have inside : i.toNat < c.args.size := (Array.getElem?_eq_some_iff.1 isArg).1
        by_cases gone : .deletion ∈ c.touches i ops
        · simp [Touch.argument, inv.linked, gone]
        · simp [Touch.argument, inv.linked, inside, gone]
      | deletion => rfl
  · have old := inv.property (grows.addressable small) i
    rw [effect.property w fits.object (grows.addressable small), effect.linked, inv.id, inv.function,
      old]
    cases touch : op.touch? c.frame c.function.code i with
    | none => simp [touches_cons_of_none touch]
    | some t =>
      rw [touches_cons_of_some touch]
      cases t with
      | byFrame value => simp [Touch.property]
      | byObject value =>
        cases linked : f.object.linked i with
        | true => simp
        | false => simp [Touch.property]
      | deletion => simp [Touch.property]
  · rw [effect.hasCopiedArguments fits.frame, inv.copied, inv.copies_iff_writes]
    constructor
    · rintro (⟨op', older, suffix, writes⟩ | writes)
      · exact ⟨op', older, suffix.trans (List.suffix_cons ..), writes⟩
      · exact ⟨op, ops, List.suffix_rfl, writes⟩
    · rintro ⟨op', older, suffix, writes⟩
      rcases List.suffix_cons_iff.1 suffix with same | suffix
      · cases same
        exact .inr writes
      · exact .inl ⟨op', older, suffix, writes⟩

end Invariant

/-- The frame of a call keeps to its history. -/
theorem Ran.invariant (ran : c.Ran ops h) :
    h.WellFormed ∧ ∃ f, h.frame c.frame = .ok f ∧ c.Invariant h ops f := by
  induction ran with
  | @made h₀ h₁ table objectConstructor reachable named made =>
    have w := reachable.wellFormed
    refine ⟨(made.effect.preserved w).wellFormed, _, ?_, c.invariant_ofCall h₁ table objectConstructor⟩
    obtain ⟨_, performed⟩ := made
    cases performed
    rw [Heap.frame_allocFrame, if_pos named]
  | @step ops h op h' _ step ih =>
    obtain ⟨w, f, isFrame, inv⟩ := ih
    obtain ⟨w', grows⟩ := step.effect.preserved w
    obtain ⟨f', isFrame', effect⟩ := step.effect.frameEffect w isFrame
    exact ⟨w', f', isFrame', inv.step w (w.frame isFrame) grows effect⟩

/-- Every frame was made by a call. -/
theorem exists_ran {id : FrameId} (reachable : h.Reachable) (isFrame : h.frame id = .ok f) :
    ∃ (c : Call) (ops : List Operation), c.frame = id ∧ c.Ran ops h := by
  obtain ⟨all, runs⟩ := reachable
  induction runs generalizing f with
  | start => simp [Heap.frame, Heap.resolve] at isFrame
  | @step older h op h' runs step ih =>
    by_cases before : ∃ f₀, h.frame id = .ok f₀
    · obtain ⟨f₀, isFrame₀⟩ := before
      obtain ⟨c, ops, named, ran⟩ := ih isFrame₀
      exact ⟨c, op :: ops, named, .step ran step⟩
    · -- The frame was not there before, so it is the one that was just made.
      have outside : h.frames.size ≤ id.index := by
        refine Nat.le_of_not_lt fun inside => before ⟨h.frames[id.index], ?_⟩
        exact Heap.resolve_eq_ok.2 (Array.getElem?_eq_getElem inside)
      have inside : id.index < h'.frames.size :=
        (Array.getElem?_eq_some_iff.1 (Heap.resolve_eq_ok.1 isFrame)).1
      rcases step.effect.frames_size with same | ⟨table, function, args, _, rfl, made⟩
      · rw [same] at inside
        exact absurd inside (Nat.not_lt.2 outside)
      · have size : h'.frames.size = h.frames.size + 1 := by
          rw [made]
          exact Array.size_push ..
        rw [size] at inside
        have named : id = ⟨h.frames.size⟩ :=
          FrameId.ext (Nat.le_antisymm (Nat.le_of_lt_succ inside) outside)
        exact ⟨⟨id, function, args⟩, [], rfl, .made ⟨_, runs⟩ named step⟩

end Call

end ShapeVM
