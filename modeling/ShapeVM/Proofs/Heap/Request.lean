import ShapeVM.Inspect
import ShapeVM.Proofs.Frame.Touch

/-!
Requests and their answers. Beside the operations a program can ask things that no heap changes by. A
heap answers each request in one way (`Responds.unique`), and what it does with a request is what the
operation does to it (`Responds.preserved`).
-/
namespace ShapeVM

inductive Request where
  | operation (op : Operation)
  | has (o : ObjectRef) (key : Key)
  | keys (o : ObjectRef)
  | inspect (o : ObjectRef)
  | isConst (frame : FrameId) (i : UInt32)
  | hasCopiedArguments (frame : FrameId)
  | parent (frame : FrameId)
  | argumentCount (frame : FrameId)
  | descriptor (frame : FrameId) (i : UInt32)
  | shapeCount (table : TableId)

/-- What a program is told. -/
inductive Answer where
  | nothing
  /-- The number of the thing that was made, among those of its kind. -/
  | made (index : Nat)
  | shape (answer : Except Refusal Shape)
  | value (value : Option Value)
  | object (o : Option ObjectRef)
  | truth (answer : Bool)
  | keys (keys : List Key)
  | descriptor (descriptor : Option PropertyDescriptor)
  | count (n : Nat)
  | text (text : String)

namespace Heap

variable {h h' h'' : Heap} {op : Operation} {r : Request} {a a' : Answer} {id : FrameId} {f : Frame}

/-- The answer of an operation, and the heap after it. -/
def reply (h : Heap) : Operation → Checked (Answer × Heap)
  | .makeTable limits => return (.made (h.allocTable limits).1.index, (h.allocTable limits).2)
  | .makeFunction code => return (.made (h.allocFunction code).1.id.index, (h.allocFunction code).2)
  | .makeObject table => return (.made (h.allocObject table).1.index, (h.allocObject table).2)
  | .makeFrame table function args objectConstructor =>
    let (id, h) := h.allocFrame table function args objectConstructor
    return (.made id.index, h)
  | .makeCache key => return (.made (h.allocCache key).1.index, (h.allocCache key).2)
  | .makeSiteCaches code => return (.made (h.allocSiteCaches code).1.index, (h.allocSiteCaches code).2)
  | .transition table shape key => do
    let (answer, h) ← h.transition table shape key
    return (.shape answer, h)
  | .get o key => do
    let (value, h) ← h.get o key
    return (.value value, h)
  | .put o key value => return (.nothing, ← h.put o key value)
  | .delete o key => do
    let (deleted, h) ← h.delete o key
    return (.truth deleted, h)
  | .fetch cache target => do
    let (value, h) ← h.fetch cache target
    return (.value value, h)
  | .store cache target value => return (.nothing, ← h.store cache target value)
  | .resetCache cache => return (.nothing, ← h.resetCache cache)
  | .getBinding frame i => do
    let (value, h) ← h.getBinding frame i
    return (.value (some value), h)
  | .setBinding frame i value => return (.nothing, ← h.setBinding frame i value)
  | .setConstBinding frame i value => return (.nothing, ← h.setConstBinding frame i value)
  | .setParent frame parent => return (.nothing, ← h.setParent frame parent)
  | .arguments frame => do
    let (o, h) ← h.arguments frame
    return (.object (some o), h)
  | .argumentsValue frame => do
    let (value, h) ← h.argumentsValue frame
    return (.value (some value), h)

def respond (h : Heap) : Request → Checked (Answer × Heap)
  | .operation op => h.reply op
  | .has o key => return (.truth (← h.has o key), h)
  | .keys o => return (.keys (← h.keys o), h)
  | .inspect o => return (.text (← h.inspectObject o), h)
  | .isConst frame i => return (.truth (← h.isConstBinding frame i), h)
  | .hasCopiedArguments frame => return (.truth (← h.frame frame).hasCopiedArguments, h)
  | .parent frame => return (.object ((← h.frame frame).parent.map .activation), h)
  | .argumentCount frame => return (.count (← h.argumentsObject frame).size, h)
  | .descriptor frame i => return (.descriptor (← h.argumentDescriptor? frame i), h)
  | .shapeCount table => return (.count (← h.table table).shapeCount, h)

theorem perform_of_reply (done : h.reply op = .ok (a, h')) : h.perform op = .ok h' := by
  cases op with
  | makeTable | makeFunction | makeObject | makeFrame | makeCache | makeSiteCaches =>
    cases done
    rfl
  | put | store | resetCache | setBinding | setConstBinding | setParent =>
    obtain ⟨_, written, ⟨⟩⟩ := Checked.bind_eq_ok.1 done
    exact written
  | transition | get | delete | fetch | getBinding | arguments | argumentsValue =>
    obtain ⟨_, answered, ⟨⟩⟩ := Checked.bind_eq_ok.1 done
    exact Checked.bind_eq_ok.2 ⟨_, answered, rfl⟩

theorem reply_of_perform (done : h.perform op = .ok h') : ∃ a, h.reply op = .ok (a, h') := by
  cases op with
  | makeTable | makeFunction | makeObject | makeFrame | makeCache | makeSiteCaches =>
    cases done
    exact ⟨_, rfl⟩
  | put | store | resetCache | setBinding | setConstBinding | setParent =>
    exact ⟨.nothing, Checked.bind_eq_ok.2 ⟨h', done, rfl⟩⟩
  | transition | get | delete | fetch | getBinding | arguments | argumentsValue =>
    obtain ⟨_, answered, ⟨⟩⟩ := Checked.bind_eq_ok.1 done
    exact ⟨_, Checked.bind_eq_ok.2 ⟨_, answered, rfl⟩⟩

/-- The heap allows the request and answers it. -/
structure Responds (h : Heap) (r : Request) (a : Answer) (h' : Heap) : Prop where
  allowed : ∀ {op}, r = .operation op → h.Allows op
  answered : h.respond r = .ok (a, h')

theorem Responds.unique (responds : h.Responds r a h') (responds' : h.Responds r a' h'') :
    a' = a ∧ h'' = h' := by
  cases responds.answered.symm.trans responds'.answered
  exact ⟨rfl, rfl⟩

/-- A request is an operation or leaves the heap as it is. -/
theorem Responds.step (responds : h.Responds r a h') :
    (∃ op, r = .operation op ∧ h.Step op h') ∨ h' = h := by
  obtain ⟨allowed, answered⟩ := responds
  cases r with
  | operation op => exact .inl ⟨op, rfl, allowed rfl, perform_of_reply answered⟩
  | has | keys | inspect | isConst | hasCopiedArguments | parent | argumentCount | descriptor |
      shapeCount =>
    obtain ⟨_, _, ⟨⟩⟩ := Checked.bind_eq_ok.1 answered
    exact .inr rfl

theorem Responds.preserved (responds : h.Responds r a h') (w : h.WellFormed) : h.Preserved h' := by
  rcases responds.step with ⟨op, _, step⟩ | rfl
  · exact step.effect.preserved w
  · exact w.unchanged

/-- No frame is taken back. -/
theorem Responds.frame (responds : h.Responds r a h') (w : h.WellFormed) (isFrame : h.frame id = .ok f) :
    ∃ f', h'.frame id = .ok f' := by
  rcases responds.step with ⟨op, _, step⟩ | rfl
  · obtain ⟨f', isFrame', _⟩ := step.effect.frameEffect w isFrame
    exact ⟨f', isFrame'⟩
  · exact ⟨f, isFrame⟩

end Heap

end ShapeVM
