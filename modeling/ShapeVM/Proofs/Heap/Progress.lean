import ShapeVM.Proofs.Heap.WellFormed

/-!
Progress. In a well-formed heap an operation whose references are all to things that are there is
performed: none of the checked accesses by position that it makes is out of range. So all that an
operation can fail at is a reference to nothing.
-/
namespace ShapeVM

variable {key : Key}

/-! ## Stores and frames -/

namespace PropertyStore

variable {s : PropertyStore} {t : ShapeTable}

theorem Fits.get? (fits : s.Fits t) (key : Key) : ∃ value, s.get? key = .ok value := by
  obtain ⟨found, searched, _⟩ := fits.lookup key
  exact ⟨found.value, get?_of_lookup searched⟩

theorem Fits.insert (fits : s.Fits t) (w : t.WellFormed) (key : Key) (value : Value) :
    ∃ s' t', s.insert t key value = .ok (s', t') := by
  obtain ⟨s', t', place?, done, _⟩ := fits.insertLocated w key value
  exact ⟨s', t', insert_eq_ok.2 ⟨place?, done⟩⟩

end PropertyStore

namespace ArgumentsObject

variable {a : ArgumentsObject} {t : ShapeTable}

theorem WellFormed.get? (w : a.WellFormed) (fits : a.properties.Fits t) (key : Key) :
    ∃ value, a.get? key = .ok value := by
  obtain ⟨own, found⟩ := fits.get? key
  cases key with
  | name s => exact ⟨own <|> a.builtin? s, by simp [ArgumentsObject.get?, found]⟩
  | index i =>
    cases linked : a.linked i with
    | true => exact ⟨_, w.getIndex_of_linked linked⟩
    | false => exact ⟨own, (w.getIndex_of_not_linked linked).trans found⟩

theorem WellFormed.put (w : a.WellFormed) (fits : a.properties.Fits t) (wt : t.WellFormed) (key : Key)
    (value : Value) : ∃ a' t', a.put t key value = .ok (a', t') := by
  obtain ⟨properties, t', inserted⟩ := fits.insert wt key value
  cases key with
  | name s => exact ⟨{ a with properties }, t', by simp [ArgumentsObject.put, inserted]⟩
  | index i =>
    cases linked : a.linked i with
    | true =>
      exact ⟨{ a with args := a.args.replace i.toNat value }, t,
        by simp [ArgumentsObject.put, putIndex, w.isLinked, linked, ArgumentList.replace]⟩
    | false =>
      exact ⟨{ a with properties }, t',
        by simp [ArgumentsObject.put, putIndex, w.isLinked, linked, inserted]⟩

end ArgumentsObject

namespace Frame

variable {f : Frame} {t : ShapeTable}

theorem WellFormed.getByKey (w : f.WellFormed) (fits : f.properties.Fits t) (key : Key) :
    ∃ value, f.getByKey key = .ok value := by
  rw [Frame.getByKey]
  split
  · next i _ =>
    obtain ⟨value, found⟩ := w.get i
    exact ⟨some value, by simp [found]⟩
  · exact fits.get? key

theorem WellFormed.putByKey (w : f.WellFormed) (fits : f.properties.Fits t) (wt : t.WellFormed)
    (key : Key) (value : Value) : ∃ f' t', f.putByKey t key value = .ok (f', t') := by
  rw [Frame.putByKey]
  split
  · next i _ =>
    obtain ⟨f', done, _⟩ := w.set i value
    exact ⟨f', t, by simp [done]⟩
  · obtain ⟨properties, t', inserted⟩ := fits.insert wt key value
    exact ⟨{ f with properties }, t', by simp [inserted]⟩

end Frame

/-! ## Heaps -/

namespace Heap

variable {h : Heap} {op : Operation}

def Has (h : Heap) : ObjectRef → Prop
  | .ordinary id => ∃ s, h.object id = .ok s
  | .arguments id => ∃ a, h.argumentsObject id = .ok a
  | .activation id => ∃ f, h.frame id = .ok f

/-- The operation is on things that are there. -/
def Names (h : Heap) : Operation → Prop
  | .makeTable _ | .makeFunction _ | .makeCache _ | .makeSiteCaches _ => True
  | .makeObject table | .makeFrame table _ _ _ | .transition table _ _ => ∃ t, h.table table = .ok t
  | .get o _ | .put o _ _ | .delete o _ => h.Has o
  | .fetch cache target | .store cache target _ =>
    (∃ c, h.cache? cache = some c) ∧ ∃ s, h.object target = .ok s
  | .resetCache cache => ∃ c, h.cache? cache = some c
  | .getBinding frame _ | .setBinding frame _ _ | .setConstBinding frame _ _ | .setParent frame _
  | .arguments frame | .argumentsValue frame => ∃ f, h.frame frame = .ok f

namespace WellFormed

variable (w : h.WellFormed)
include w

theorem read (o : ObjectRef) (key : Key) (has : h.Has o) : ∃ value, h.read o key = .ok value := by
  cases o with
  | ordinary id =>
    obtain ⟨s, isObject⟩ := has
    obtain ⟨t, _, fits⟩ := w.object isObject
    obtain ⟨value, found⟩ := fits.get? key
    exact ⟨value, by simp [Heap.read, isObject, found]⟩
  | arguments id =>
    obtain ⟨a, isObject⟩ := has
    obtain ⟨f, isFrame, rfl⟩ := frame_of_argumentsObject isObject
    obtain ⟨_, wf, _, t, _, fits⟩ := w.frame isFrame
    obtain ⟨value, found⟩ := wf.object.get? fits key
    exact ⟨value, by simp [Heap.read, isObject, found]⟩
  | activation id =>
    obtain ⟨f, isFrame⟩ := has
    obtain ⟨_, wf, ⟨t, _, fits⟩, _⟩ := w.frame isFrame
    obtain ⟨value, found⟩ := wf.getByKey fits key
    exact ⟨value, by simp [Heap.read, isFrame, found]⟩

theorem put (o : ObjectRef) (key : Key) (value : Value) (has : h.Has o) :
    ∃ h', h.put o key value = .ok h' := by
  cases o with
  | ordinary id =>
    obtain ⟨s, isObject⟩ := has
    obtain ⟨t, isTable, fits⟩ := w.object isObject
    obtain ⟨s', t', inserted⟩ := fits.insert (w.table isTable).2 key value
    exact ⟨(h.setTable t').setObject id s', by simp [Heap.put, isObject, isTable, inserted]⟩
  | arguments id =>
    obtain ⟨a, isObject⟩ := has
    obtain ⟨f, isFrame, rfl⟩ := frame_of_argumentsObject isObject
    obtain ⟨_, wf, _, t, isTable, fits⟩ := w.frame isFrame
    obtain ⟨a', t', done⟩ := wf.object.put fits (w.table isTable).2 key value
    have same : (h.setTable t').frame id = .ok f := isFrame
    exact ⟨(h.setTable t').setFrame (f.setArgumentsObject a'),
      by simp [Heap.put, isObject, isTable, done, Heap.setArgumentsObject, same]⟩
  | activation id =>
    obtain ⟨f, isFrame⟩ := has
    obtain ⟨_, wf, ⟨t, isTable, fits⟩, _⟩ := w.frame isFrame
    obtain ⟨f', t', done⟩ := wf.putByKey fits (w.table isTable).2 key value
    exact ⟨(h.setTable t').setFrame f', by simp [Heap.put, isFrame, isTable, done]⟩

theorem delete (o : ObjectRef) (key : Key) (has : h.Has o) :
    ∃ answer, h.delete o key = .ok answer := by
  cases o with
  | ordinary id =>
    obtain ⟨s, isObject⟩ := has
    exact ⟨_, by simp only [Heap.delete, isObject, Checked.ok_bind]; rfl⟩
  | arguments id =>
    obtain ⟨a, isObject⟩ := has
    obtain ⟨f, isFrame, rfl⟩ := frame_of_argumentsObject isObject
    obtain ⟨a', done, _⟩ := (w.frame isFrame).frame.object.delete key
    exact ⟨(true, h.setFrame (f.setArgumentsObject a')),
      by simp [Heap.delete, isObject, done, Heap.setArgumentsObject, isFrame]⟩
  | activation id =>
    obtain ⟨f, isFrame⟩ := has
    exact ⟨_, by simp only [Heap.delete, isFrame, Checked.ok_bind]; rfl⟩

theorem perform (names : h.Names op) : ∃ h', h.perform op = .ok h' := by
  cases op with
  | makeTable limits => exact ⟨_, rfl⟩
  | makeFunction code => exact ⟨_, rfl⟩
  | makeObject table => exact ⟨_, rfl⟩
  | makeFrame table function args objectConstructor => exact ⟨_, rfl⟩
  | makeCache key => exact ⟨_, rfl⟩
  | makeSiteCaches code => exact ⟨_, rfl⟩
  | transition table shape key =>
    obtain ⟨t, isTable⟩ := names
    exact ⟨_, by simp only [Heap.perform, Heap.transition, isTable, Checked.ok_bind]; rfl⟩
  | get o key =>
    obtain ⟨value, found⟩ := w.read o key names
    simp only [Heap.perform, Heap.get, found, Checked.ok_bind]
    split
    · exact ⟨_, rfl⟩
    · exact ⟨_, rfl⟩
  | put o key value => exact w.put o key value names
  | delete o key =>
    obtain ⟨answer, done⟩ := w.delete o key names
    exact ⟨answer.2, by simp [Heap.perform, done]⟩
  | fetch cache target =>
    obtain ⟨⟨c, isCache⟩, s, isObject⟩ := names
    obtain ⟨t, _, fits⟩ := w.object isObject
    obtain ⟨_, c', done, _⟩ :=
      Cache.fetch_eq_get (w.usableOn (w.object isObject) (w.cache isCache)) fits
    exact ⟨h.setCache cache c',
      by simp [Heap.perform, Heap.fetch, cache_eq_ok.2 isCache, isObject, done]⟩
  | store cache target value =>
    obtain ⟨⟨c, isCache⟩, s, isObject⟩ := names
    obtain ⟨t, isTable, fits⟩ := w.object isObject
    obtain ⟨s', t', c', done, _⟩ := Cache.store_eq_insert
      (w.usableOn (w.object isObject) (w.cache isCache)) fits (w.table isTable).2 value
    exact ⟨((h.setTable t').setObject target s').setCache cache c',
      by simp [Heap.perform, Heap.store, cache_eq_ok.2 isCache, isObject, isTable, done]⟩
  | resetCache cache =>
    obtain ⟨c, isCache⟩ := names
    exact ⟨h.setCache cache c.reset, by simp [Heap.perform, Heap.resetCache, cache_eq_ok.2 isCache]⟩
  | getBinding id i =>
    obtain ⟨f, isFrame⟩ := names
    obtain ⟨value, found⟩ := (w.frame isFrame).frame.get i
    exact ⟨h.handOut value, by simp [Heap.perform, Heap.getBinding, isFrame, found]⟩
  | setBinding id i value =>
    obtain ⟨f, isFrame⟩ := names
    obtain ⟨f', done, _⟩ := (w.frame isFrame).frame.set i value
    exact ⟨h.setFrame f', by simp [Heap.perform, Heap.setBinding, isFrame, done]⟩
  | setConstBinding id i value =>
    obtain ⟨f, isFrame⟩ := names
    obtain ⟨f', done, _⟩ := (w.frame isFrame).frame.setConst i value
    exact ⟨h.setFrame f', by simp [Heap.perform, Heap.setConstBinding, isFrame, done]⟩
  | setParent id parent =>
    obtain ⟨f, isFrame⟩ := names
    exact ⟨h.setFrame { f with parent := some parent },
      by simp [Heap.perform, Heap.setParent, isFrame]⟩
  | arguments id =>
    obtain ⟨f, isFrame⟩ := names
    exact ⟨h.setFrame f.withArguments, by simp [Heap.perform, Heap.arguments, isFrame]⟩
  | argumentsValue id =>
    obtain ⟨f, isFrame⟩ := names
    exact ⟨h.handOut f.argumentsValue, by simp [Heap.perform, Heap.argumentsValue, isFrame]⟩

end WellFormed

/-! ## References to nothing -/

theorem resolve_eq_error {α : Type} {xs : Array α} {i : Nat} (missing : ¬∃ x, resolve xs i = .ok x) :
    resolve xs i = .error .dangling := by
  rw [resolve]
  split
  · next x found => exact absurd ⟨x, resolve_eq_ok.2 found⟩ missing
  · rfl

theorem table_eq_error {id : TableId} (missing : ¬∃ t, h.table id = .ok t) :
    h.table id = .error .dangling := resolve_eq_error missing

theorem object_eq_error {id : ObjectId} (missing : ¬∃ s, h.object id = .ok s) :
    h.object id = .error .dangling := resolve_eq_error missing

theorem frame_eq_error {id : FrameId} (missing : ¬∃ f, h.frame id = .ok f) :
    h.frame id = .error .dangling := resolve_eq_error missing

theorem cache_eq_error {ref : CacheRef} (missing : ¬∃ c, h.cache? ref = some c) :
    h.cache ref = .error .dangling := by
  rw [cache]
  split
  · next c found => exact absurd ⟨c, found⟩ missing
  · rfl

theorem argumentsObject_eq_error {id : FrameId} (missing : ¬∃ a, h.argumentsObject id = .ok a) :
    h.argumentsObject id = .error .dangling := by
  by_cases isFrame : ∃ f, h.frame id = .ok f
  · obtain ⟨f, isFrame⟩ := isFrame
    cases built : f.argumentsObject? with
    | none => simp [argumentsObject, isFrame, built]
    | some a => exact absurd ⟨a, argumentsObject_eq_ok.2 ⟨f, isFrame, built⟩⟩ missing
  · simp [argumentsObject, frame_eq_error isFrame]

section

variable {o : ObjectRef} (missing : ¬h.Has o) (key : Key)
include missing

theorem read_eq_error : h.read o key = .error .dangling := by
  cases o with
  | ordinary id => simp [Heap.read, object_eq_error missing]
  | arguments id => simp [Heap.read, argumentsObject_eq_error missing]
  | activation id => simp [Heap.read, frame_eq_error missing]

theorem put_eq_error (value : Value) : h.put o key value = .error .dangling := by
  cases o with
  | ordinary id => simp [Heap.put, object_eq_error missing]
  | arguments id => simp [Heap.put, argumentsObject_eq_error missing]
  | activation id => simp [Heap.put, frame_eq_error missing]

theorem delete_eq_error : h.delete o key = .error .dangling := by
  cases o with
  | ordinary id => simp [Heap.delete, object_eq_error missing]
  | arguments id => simp [Heap.delete, argumentsObject_eq_error missing]
  | activation id => simp [Heap.delete, frame_eq_error missing]

end

/-- An operation that names a thing that is not there fails for that, unless it asks nothing of the
thing. -/
theorem perform_of_not_names (missing : ¬h.Names op) :
    h.perform op = .error .dangling ∨ ∃ h', h.perform op = .ok h' := by
  cases op with
  | makeTable limits => exact .inr ⟨_, rfl⟩
  | makeFunction code => exact .inr ⟨_, rfl⟩
  | makeObject table => exact .inr ⟨_, rfl⟩
  | makeFrame table function args objectConstructor => exact .inr ⟨_, rfl⟩
  | makeCache key => exact .inr ⟨_, rfl⟩
  | makeSiteCaches code => exact .inr ⟨_, rfl⟩
  | transition table shape key =>
    exact .inl (by simp [perform, Heap.transition, table_eq_error missing])
  | get o key => exact .inl (by simp [perform, Heap.get, read_eq_error missing])
  | put o key value => exact .inl (put_eq_error missing key value)
  | delete o key => exact .inl (by simp [perform, delete_eq_error missing])
  | fetch cache target =>
    by_cases isCache : ∃ c, h.cache? cache = some c
    · obtain ⟨c, isCache⟩ := isCache
      have missing := object_eq_error fun isObject => missing ⟨⟨c, isCache⟩, isObject⟩
      exact .inl (by simp [perform, Heap.fetch, cache_eq_ok.2 isCache, missing])
    · exact .inl (by simp [perform, Heap.fetch, cache_eq_error isCache])
  | store cache target value =>
    by_cases isCache : ∃ c, h.cache? cache = some c
    · obtain ⟨c, isCache⟩ := isCache
      have missing := object_eq_error fun isObject => missing ⟨⟨c, isCache⟩, isObject⟩
      exact .inl (by simp [perform, Heap.store, cache_eq_ok.2 isCache, missing])
    · exact .inl (by simp [perform, Heap.store, cache_eq_error isCache])
  | resetCache cache => exact .inl (by simp [perform, Heap.resetCache, cache_eq_error missing])
  | getBinding id i =>
    exact .inl (by simp [perform, Heap.getBinding, frame_eq_error missing])
  | setBinding id i value =>
    exact .inl (by simp [perform, Heap.setBinding, frame_eq_error missing])
  | setConstBinding id i value =>
    exact .inl (by simp [perform, Heap.setConstBinding, frame_eq_error missing])
  | setParent id parent =>
    exact .inl (by simp [perform, Heap.setParent, frame_eq_error missing])
  | arguments id =>
    exact .inl (by simp [perform, Heap.arguments, frame_eq_error missing])
  | argumentsValue id =>
    exact .inl (by simp [perform, Heap.argumentsValue, frame_eq_error missing])

theorem WellFormed.perform_eq_error (w : h.WellFormed) {fault : Fault}
    (failed : h.perform op = .error fault) : fault = .dangling := by
  by_cases names : h.Names op
  · obtain ⟨h', done⟩ := w.perform names
    cases failed.symm.trans done
  · rcases perform_of_not_names names with dangling | ⟨h', done⟩
    · exact Except.error.inj (failed.symm.trans dangling)
    · cases failed.symm.trans done

end Heap

end ShapeVM
