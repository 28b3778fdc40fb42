import ShapeVM.Proofs.Heap.Run

/-!
What an operation does to a heap, one case for each of the ways in which one can succeed. Everything
else about runs is derived from these cases.
-/
namespace ShapeVM

/-- Operations that only read. They can build an arguments object, as a reference to it is read. -/
def Operation.IsRead : Operation → Prop
  | .get .. | .getBinding .. | .arguments .. | .argumentsValue .. => True
  | _ => False

namespace Heap

inductive Effect (h : Heap) : Operation → Heap → Prop
  | makeTable {limits : Limits} : Effect h (.makeTable limits) (h.allocTable limits).2
  | makeFunction {code : Function} : Effect h (.makeFunction code) (h.allocFunction code).2
  | makeObject {table : TableId} {t : ShapeTable} : h.table table = .ok t →
    Effect h (.makeObject table) (h.allocObject table).2
  | makeFrame {table : TableId} {function : FunctionRef} {args : Array Value}
    {objectConstructor : Value} {t : ShapeTable} : h.table table = .ok t →
    Effect h (.makeFrame table function args objectConstructor)
      (h.allocFrame table function args objectConstructor).2
  | makeCache {key : Key} : Effect h (.makeCache key) (h.allocCache key).2
  | makeSiteCaches {code : Function} : Effect h (.makeSiteCaches code) (h.allocSiteCaches code).2
  | transition {table : TableId} {shape target : Shape} {key : Key} {t t' : ShapeTable} :
    h.table table = .ok t → t.Holds shape → t.transition shape key = (.ok target, t') →
    Effect h (.transition table shape key) (h.setTable t')
  | refuse {table : TableId} {shape : Shape} {key : Key} {t t' : ShapeTable} {refusal : Refusal} :
    h.table table = .ok t → t.transition shape key = (.error refusal, t') →
    Effect h (.transition table shape key) (h.setTable t')
  | read {op : Operation} : op.IsRead → Effect h op h
  | handOut {op : Operation} {id : FrameId} {f : Frame} : op.IsRead → h.frame id = .ok f →
    Effect h op (h.setFrame f.withArguments)
  | putObject {id : ObjectId} {key : Key} {value : Value} {s s' : PropertyStore} {t t' : ShapeTable} :
    h.object id = .ok s → h.table s.table = .ok t → s.insert t key value = .ok (s', t') →
    Effect h (.put (.ordinary id) key value) ((h.setTable t').setObject id s')
  | deleteObject {id : ObjectId} {key : Key} {s : PropertyStore} : h.object id = .ok s →
    Effect h (.delete (.ordinary id) key) (h.setObject id (s.erase key).1)
  | fetch {cache : CacheRef} {id : ObjectId} {c c' : Cache} {s : PropertyStore} {found : Option Value} :
    h.cache? cache = some c → h.object id = .ok s → c.fetch s = .ok (found, c') →
    Effect h (.fetch cache id) (h.setCache cache c')
  | store {cache : CacheRef} {id : ObjectId} {value : Value} {c c' : Cache} {s s' : PropertyStore}
    {t t' : ShapeTable} :
    h.cache? cache = some c → h.object id = .ok s → h.table s.table = .ok t →
    c.store s t value = .ok (s', t', c') →
    Effect h (.store cache id value) (((h.setTable t').setObject id s').setCache cache c')
  | resetCache {cache : CacheRef} {c : Cache} : h.cache? cache = some c →
    Effect h (.resetCache cache) (h.setCache cache c.reset)
  | setBinding {id : FrameId} {i : UInt32} {value : Value} {f f' : Frame} : h.frame id = .ok f →
    f.set i value = .ok f' → Effect h (.setBinding id i value) (h.setFrame f')
  | setConstBinding {id : FrameId} {i : UInt32} {value : Value} {f f' : Frame} : h.frame id = .ok f →
    f.setConst i value = .ok f' → Effect h (.setConstBinding id i value) (h.setFrame f')
  | setParent {id parent : FrameId} {f : Frame} : h.frame id = .ok f →
    Effect h (.setParent id parent) (h.setFrame { f with parent := some parent })
  | putActivation {id : FrameId} {key : Key} {value : Value} {f f' : Frame} {t t' : ShapeTable} :
    h.frame id = .ok f → h.table f.properties.table = .ok t → f.putByKey t key value = .ok (f', t') →
    Effect h (.put (.activation id) key value) ((h.setTable t').setFrame f')
  | deleteActivation {id : FrameId} {key : Key} {f : Frame} : h.frame id = .ok f →
    Effect h (.delete (.activation id) key) (h.setFrame (f.deleteKey key).1)
  | putArguments {id : FrameId} {key : Key} {value : Value} {f : Frame} {a a' : ArgumentsObject}
    {t t' : ShapeTable} :
    h.frame id = .ok f → f.argumentsObject? = some a → h.table a.properties.table = .ok t →
    a.put t key value = .ok (a', t') →
    Effect h (.put (.arguments id) key value) ((h.setTable t').setFrame (f.setArgumentsObject a'))
  | deleteArguments {id : FrameId} {key : Key} {f : Frame} {a a' : ArgumentsObject} {deleted : Bool} :
    h.frame id = .ok f → f.argumentsObject? = some a → a.delete key = .ok (a', deleted) →
    Effect h (.delete (.arguments id) key) (h.setFrame (f.setArgumentsObject a'))

variable {h h' : Heap} {op : Operation}

theorem handOut_effect (h : Heap) (value : Value) (read : op.IsRead) :
    h.Effect op (h.handOut value) := by
  unfold Heap.handOut
  split
  · split
    · next found => exact .handOut read found
    · exact .read read
  · exact .read read

/-- A step is one of the cases. -/
theorem Step.effect (step : h.Step op h') : h.Effect op h' := by
  obtain ⟨allowed, performed⟩ := step
  cases op with
  | makeTable limits => cases performed; exact .makeTable
  | makeFunction code => cases performed; exact .makeFunction
  | makeObject table =>
    obtain ⟨t, found⟩ := allowed
    cases performed
    exact .makeObject found
  | makeFrame table function args objectConstructor =>
    obtain ⟨t, found⟩ := allowed
    cases performed
    exact .makeFrame found
  | makeCache key => cases performed; exact .makeCache
  | makeSiteCaches code => cases performed; exact .makeSiteCaches
  | transition table shape key =>
    obtain ⟨t, found, held⟩ := allowed
    rw [perform, Heap.transition, found, Checked.ok_bind] at performed
    cases done : t.transition shape key with
    | mk answer t' =>
      rw [done] at performed
      cases performed
      cases answer with
      | ok target => exact .transition found held done
      | error refusal => exact .refuse found done
  | get o key =>
    obtain ⟨⟨_, _⟩, got, ⟨⟩⟩ := Checked.bind_eq_ok.1 performed
    obtain ⟨value, _, answered⟩ := Checked.bind_eq_ok.1 got
    split at answered
    · cases answered
      exact handOut_effect h _ trivial
    · cases answered
      exact .read trivial
  | put o key value =>
    cases o with
    | ordinary id =>
      obtain ⟨s, object, performed⟩ := Checked.bind_eq_ok.1 performed
      obtain ⟨t, table, performed⟩ := Checked.bind_eq_ok.1 performed
      obtain ⟨⟨s', t'⟩, inserted, ⟨⟩⟩ := Checked.bind_eq_ok.1 performed
      exact .putObject object table inserted
    | arguments id =>
      obtain ⟨a, object, performed⟩ := Checked.bind_eq_ok.1 performed
      obtain ⟨f, frame, isObject⟩ := argumentsObject_eq_ok.1 object
      obtain ⟨t, table, performed⟩ := Checked.bind_eq_ok.1 performed
      obtain ⟨⟨a', t'⟩, done, performed⟩ := Checked.bind_eq_ok.1 performed
      obtain ⟨f', frame', ⟨⟩⟩ := Checked.bind_eq_ok.1 performed
      obtain rfl : f = f' := Except.ok.inj (frame.symm.trans frame')
      exact .putArguments frame isObject table done
    | activation id =>
      obtain ⟨f, frame, performed⟩ := Checked.bind_eq_ok.1 performed
      obtain ⟨t, table, performed⟩ := Checked.bind_eq_ok.1 performed
      obtain ⟨⟨f', t'⟩, done, ⟨⟩⟩ := Checked.bind_eq_ok.1 performed
      exact .putActivation frame table done
  | delete o key =>
    obtain ⟨⟨_, _⟩, answered, ⟨⟩⟩ := Checked.bind_eq_ok.1 performed
    cases o with
    | ordinary id =>
      obtain ⟨s, object, ⟨⟩⟩ := Checked.bind_eq_ok.1 answered
      exact .deleteObject object
    | arguments id =>
      obtain ⟨a, object, rest⟩ := Checked.bind_eq_ok.1 answered
      obtain ⟨f, frame, isObject⟩ := argumentsObject_eq_ok.1 object
      obtain ⟨⟨a', deleted⟩, done, rest⟩ := Checked.bind_eq_ok.1 rest
      obtain ⟨_, replaced, ⟨⟩⟩ := Checked.bind_eq_ok.1 rest
      obtain ⟨f', frame', ⟨⟩⟩ := Checked.bind_eq_ok.1 replaced
      obtain rfl : f = f' := Except.ok.inj (frame.symm.trans frame')
      exact .deleteArguments frame isObject done
    | activation id =>
      obtain ⟨f, frame, ⟨⟩⟩ := Checked.bind_eq_ok.1 answered
      exact .deleteActivation frame
  | fetch cache target =>
    obtain ⟨⟨_, _⟩, answered, ⟨⟩⟩ := Checked.bind_eq_ok.1 performed
    obtain ⟨c, found, rest⟩ := Checked.bind_eq_ok.1 answered
    obtain ⟨s, object, rest⟩ := Checked.bind_eq_ok.1 rest
    obtain ⟨⟨value, c'⟩, done, ⟨⟩⟩ := Checked.bind_eq_ok.1 rest
    exact .fetch (cache_eq_ok.1 found) object done
  | store cache target value =>
    obtain ⟨c, found, performed⟩ := Checked.bind_eq_ok.1 performed
    obtain ⟨s, object, performed⟩ := Checked.bind_eq_ok.1 performed
    obtain ⟨t, table, performed⟩ := Checked.bind_eq_ok.1 performed
    obtain ⟨⟨s', t', c'⟩, done, ⟨⟩⟩ := Checked.bind_eq_ok.1 performed
    exact .store (cache_eq_ok.1 found) object table done
  | resetCache cache =>
    obtain ⟨c, found, ⟨⟩⟩ := Checked.bind_eq_ok.1 performed
    exact .resetCache (cache_eq_ok.1 found)
  | getBinding id i =>
    obtain ⟨⟨_, _⟩, answered, ⟨⟩⟩ := Checked.bind_eq_ok.1 performed
    obtain ⟨f, frame, rest⟩ := Checked.bind_eq_ok.1 answered
    obtain ⟨value, _, ⟨⟩⟩ := Checked.bind_eq_ok.1 rest
    exact handOut_effect h _ trivial
  | setBinding id i value =>
    obtain ⟨f, frame, performed⟩ := Checked.bind_eq_ok.1 performed
    obtain ⟨f', done, ⟨⟩⟩ := Checked.bind_eq_ok.1 performed
    exact .setBinding frame done
  | setConstBinding id i value =>
    obtain ⟨f, frame, performed⟩ := Checked.bind_eq_ok.1 performed
    obtain ⟨f', done, ⟨⟩⟩ := Checked.bind_eq_ok.1 performed
    exact .setConstBinding frame done
  | setParent id parent =>
    obtain ⟨f, frame, ⟨⟩⟩ := Checked.bind_eq_ok.1 performed
    exact .setParent frame
  | arguments id =>
    obtain ⟨⟨_, _⟩, answered, ⟨⟩⟩ := Checked.bind_eq_ok.1 performed
    obtain ⟨f, frame, ⟨⟩⟩ := Checked.bind_eq_ok.1 answered
    have read : (Operation.arguments id).IsRead := trivial
    exact .handOut read frame
  | argumentsValue id =>
    obtain ⟨⟨_, _⟩, answered, ⟨⟩⟩ := Checked.bind_eq_ok.1 performed
    obtain ⟨f, frame, ⟨⟩⟩ := Checked.bind_eq_ok.1 answered
    exact handOut_effect h _ trivial

/-- Only a call makes a frame. -/
theorem Effect.frames_size (effect : h.Effect op h') : h'.frames.size = h.frames.size ∨
    ∃ table function args objectConstructor, op = .makeFrame table function args objectConstructor ∧
      h' = (h.allocFrame table function args objectConstructor).2 := by
  cases effect with
  | makeFrame _ => exact .inr ⟨_, _, _, _, rfl, rfl⟩
  | handOut _ _ => exact .inl Array.size_setIfInBounds
  | fetch _ _ _ => exact .inl (congrArg Array.size (frames_setCache ..))
  | store _ _ _ _ => exact .inl (congrArg Array.size (frames_setCache ..))
  | resetCache _ => exact .inl (congrArg Array.size (frames_setCache ..))
  | setBinding _ _ => exact .inl Array.size_setIfInBounds
  | setConstBinding _ _ => exact .inl Array.size_setIfInBounds
  | setParent _ => exact .inl Array.size_setIfInBounds
  | putActivation _ _ _ => exact .inl Array.size_setIfInBounds
  | deleteActivation _ => exact .inl Array.size_setIfInBounds
  | putArguments _ _ _ _ => exact .inl Array.size_setIfInBounds
  | deleteArguments _ _ _ => exact .inl Array.size_setIfInBounds
  | _ => exact .inl rfl

end Heap

end ShapeVM
