import ShapeVM.Proofs.Frame.Call

/-!
Arguments are copied on write. However many frames were called with one array, each of them takes its
own copy with the first write to one of its arguments, and no frame sees what was done to another.
-/
namespace ShapeVM

namespace Heap.FrameEffect

variable {h : Heap} {op : Operation} {f f' : Frame} {a : ArgumentsObject}

/-- An operation elsewhere at most has the frame's arguments object built. -/
theorem of_elsewhere (effect : h.FrameEffect f op f') (elsewhere : op.frame? ≠ some f.id) :
    f' = f ∨ f' = f.withArguments := by
  cases effect with
  | still _ => exact .inl rfl
  | built _ => exact .inr rfl
  | assign here _ _ => exact (elsewhere here).elim
  | freeze _ => exact (elsewhere rfl).elim
  | ownProperty here _ => exact (elsewhere here).elim
  | putArgument _ => exact (elsewhere rfl).elim
  | putProperty _ _ _ => exact (elsewhere rfl).elim
  | deleteProperty _ => exact (elsewhere rfl).elim

end Heap.FrameEffect

namespace Call

variable {c : Call} {ops : List Operation} {h h' : Heap}

/-- What two frames have in common that differ at most in whether their arguments object is built. -/
structure Indistinct (f f' : Frame) : Prop where
  get : ∀ i, f'.get i = f.get i
  getByKey : ∀ key, f'.getByKey key = f.getByKey key
  hasCopiedArguments : f'.hasCopiedArguments = f.hasCopiedArguments
  argumentsObject : ∀ {a}, f.argumentsObject? = some a → f'.argumentsObject? = some a

theorem indistinct_withArguments (f : Frame) : Indistinct f f.withArguments where
  get := f.get_withArguments
  getByKey := f.getByKey_withArguments
  hasCopiedArguments := f.hasCopiedArguments_withArguments
  argumentsObject built := by
    rw [f.argumentsObject?_withArguments, Frame.object_of_argumentsObject? built]

/-- The array that the caller passed stays what it was, the copy is taken by the first operation that
writes an argument, and operations on anything else do not show in the frame. -/
structure CopiesOnWrite (c : Call) (ops : List Operation) (h : Heap) (f : Frame) : Prop where
  passed : f.args.cells.initial = c.args
  copied : f.hasCopiedArguments = true ↔ ∃ op older, op :: older <:+ ops ∧ c.Writes older op
  isolated : ∀ {op h'}, h.Step op h' → op.frame? ≠ some c.frame →
    ∃ f', h'.frame c.frame = .ok f' ∧ Indistinct f f'

theorem arguments_copied_on_write (ran : c.Ran ops h) :
    ∃ f, h.frame c.frame = .ok f ∧ c.CopiesOnWrite ops h f := by
  obtain ⟨w, f, isFrame, inv⟩ := ran.invariant
  refine ⟨f, isFrame, inv.initial, inv.copied, fun {op h'} step elsewhere => ?_⟩
  obtain ⟨f', isFrame', effect⟩ := step.effect.frameEffect w isFrame
  rw [← inv.id] at elsewhere
  refine ⟨f', isFrame', ?_⟩
  rcases effect.of_elsewhere elsewhere with rfl | rfl
  · exact ⟨fun _ => rfl, fun _ => rfl, rfl, id⟩
  · exact indistinct_withArguments f

/-- Two frames of one array, of which the first has written its parameter and the second an element of
its arguments object. -/
theorem arguments_copied_of_two_frames : ∃ c ops h f, Ran c ops h ∧ h.frame c.frame = .ok f ∧
    f.hasCopiedArguments = true ∧ c.CopiesOnWrite ops h f := by
  let function : FunctionRef := { id := ⟨0⟩, code := { paramNames := ["a"] } }
  let args : Array Value := #[.null, .undefined]
  have ran : Ran ⟨⟨0⟩, function, args⟩ [
      .putArgument ⟨1⟩ 1 (.boolean false), .arguments ⟨1⟩, .setBinding ⟨0⟩ 0 (.boolean true),
      .makeFrame ⟨0⟩ function args .null] _ :=
    ran_afterAll ⟨0⟩ .null [.makeTable {}] _ (by decide +kernel) (by decide +kernel)
  obtain ⟨f, isFrame, copies⟩ := arguments_copied_on_write ran
  exact ⟨_, _, _, f, ran, isFrame,
    copies.copied.2 ⟨_, _, ⟨[_, _], rfl⟩, 0, _, .inl ⟨rfl, by decide⟩⟩, copies⟩

end Call

end ShapeVM
