import ShapeVM.Proofs.Frame.Publication
import ShapeVM.Proofs.Heap.Bounds
import ShapeVM.Proofs.Heap.Request

/-!
Publication. Two heaps that differ only in which arguments objects are built answer every request in
the same way, and differ only in that afterwards.
-/
namespace ShapeVM.Heap

variable {h h' h'' : Heap} {op : Operation} {r : Request} {a : Answer} {id : FrameId} {f : Frame}
  {o : ObjectRef} {key : Key} {frames : Array Frame}

/-- The heap `h'` is `h`, perhaps with the arguments objects of some of its frames built. -/
inductive Published (h : Heap) : Heap → Prop
  | mk {frames : Array Frame} : frames.size = h.frames.size →
    (∀ {i : Nat} {f}, h.frames[i]? = some f → ∃ f', frames[i]? = some f' ∧ f.Published f') →
    Published h { h with frames }

theorem FrameFits.published {f' : Frame} (fits : h.FrameFits id f) (published : f.Published f') :
    h.FrameFits id f' := by
  cases published with
  | same => exact fits
  | built =>
    rw [← Frame.withArguments_eq_state]
    exact fits.withArguments

namespace Published

theorem refl (h : Heap) : h.Published h := .mk rfl fun found => ⟨_, found, .same⟩

theorem trans (published : h.Published h') (published' : h'.Published h'') : h.Published h'' := by
  obtain ⟨sized, related⟩ := published
  obtain ⟨sized', related'⟩ := published'
  refine .mk (sized'.trans sized) fun found => ?_
  obtain ⟨f', found', published⟩ := related found
  obtain ⟨f'', found'', published'⟩ := related' found'
  exact ⟨f'', found'', published.trans published'⟩

section

variable (published : h.Published h')
include published

theorem frame (isFrame : h.frame id = .ok f) : ∃ f', h'.frame id = .ok f' ∧ f.Published f' := by
  obtain ⟨_, related⟩ := published
  obtain ⟨f', found, published⟩ := related (resolve_eq_ok.1 isFrame)
  exact ⟨f', resolve_eq_ok.2 found, published⟩

theorem frame_eq_error {fault : Fault} (missing : h.frame id = .error fault) :
    h'.frame id = .error fault := by
  obtain ⟨sized, _⟩ := published
  rw [Heap.frame, resolve] at missing ⊢
  split at missing
  · cases missing
  · next none =>
    rw [Array.getElem?_eq_none_iff, ← sized, ← Array.getElem?_eq_none_iff] at none
    rw [none]
    exact missing

theorem frame_of_ok {f' : Frame} (isFrame' : h'.frame id = .ok f') :
    ∃ f, h.frame id = .ok f ∧ f.Published f' := by
  cases isFrame : h.frame id with
  | ok f =>
    obtain ⟨g, found, published'⟩ := published.frame isFrame
    obtain rfl := Except.ok.inj (found.symm.trans isFrame')
    exact ⟨f, rfl, published'⟩
  | error fault => cases (published.frame_eq_error isFrame).symm.trans isFrame'

theorem size_eq : h'.frames.size = h.frames.size := by
  obtain ⟨sized, _⟩ := published
  exact sized

/-! ### What is no frame is the same -/

theorem table_eq (id : TableId) : h'.table id = h.table id := by
  obtain ⟨_, _⟩ := published
  rfl

theorem object_eq (id : ObjectId) : h'.object id = h.object id := by
  obtain ⟨_, _⟩ := published
  rfl

theorem cache_eq (ref : CacheRef) : h'.cache ref = h.cache ref := by
  obtain ⟨_, _⟩ := published
  cases ref with
  | single _ => rfl
  | site _ _ => rfl

theorem tables_eq : h'.tables = h.tables := by
  obtain ⟨_, _⟩ := published
  rfl

theorem grows : h.Grows h' := by
  obtain ⟨_, _⟩ := published
  exact .of_eq rfl rfl rfl

theorem wellFormed (w : h.WellFormed) : h'.WellFormed where
  table found := w.table ((published.table_eq _).symm.trans found)
  object found := (w.object ((published.object_eq _).symm.trans found)).grow published.grows
  frame found := by
    obtain ⟨f, isFrame, related⟩ := published.frame_of_ok found
    exact ((w.frame isFrame).published related).grow published.grows
  cache found := by
    rw [← cache_eq_ok, published.cache_eq, cache_eq_ok] at found
    exact (w.cache found).grow published.grows

theorem argumentsObject {a : ArgumentsObject} (isObject : h.argumentsObject id = .ok a) :
    h'.argumentsObject id = .ok a := by
  obtain ⟨f, isFrame, built⟩ := argumentsObject_eq_ok.1 isObject
  obtain ⟨f', isFrame', published⟩ := published.frame isFrame
  obtain rfl := published.eq_of_argumentsObject? built
  exact argumentsObject_eq_ok.2 ⟨f', isFrame', built⟩

theorem allows (allowed : h.Allows op) : h'.Allows op := by
  obtain ⟨_, _⟩ := published
  cases op <;> exact allowed

/-! ### Replacing -/

theorem setTable (t : ShapeTable) : (h.setTable t).Published (h'.setTable t) := by
  obtain ⟨sized, related⟩ := published
  exact .mk sized related

theorem setObject (id : ObjectId) (s : PropertyStore) :
    (h.setObject id s).Published (h'.setObject id s) := by
  obtain ⟨sized, related⟩ := published
  exact .mk sized related

theorem setCache (ref : CacheRef) (c : Cache) : (h.setCache ref c).Published (h'.setCache ref c) := by
  obtain ⟨sized, related⟩ := published
  cases ref with
  | single _ => exact .mk sized related
  | site _ _ => exact .mk sized related

theorem setFrame {g g' : Frame} (published' : g.Published g') :
    (h.setFrame g).Published (h'.setFrame g') := by
  obtain ⟨sized, related⟩ := published
  refine .mk (by simp [Heap.setFrame, sized]) fun {i f} found => ?_
  rw [Heap.setFrame, Array.getElem?_setIfInBounds] at found
  rw [published'.id_eq, Array.getElem?_setIfInBounds]
  split at found
  · next same =>
    rw [if_pos same, sized]
    split at found
    · next inside =>
      cases found
      exact ⟨g', if_pos inside, published'⟩
    · cases found
  · next apart =>
    rw [if_neg apart]
    exact related found

theorem handOut (value : Value) : (h.handOut value).Published (h'.handOut value) := by
  unfold Heap.handOut
  split
  · next id =>
    cases isFrame : h.frame id with
    | ok f =>
      obtain ⟨f', isFrame', published'⟩ := published.frame isFrame
      rw [isFrame']
      exact published.setFrame published'.withArguments
    | error fault =>
      rw [published.frame_eq_error isFrame]
      exact published
  · exact published

theorem setArgumentsObject {k : Heap} {a : ArgumentsObject} (done : h.setArgumentsObject id a = .ok k) :
    ∃ k', h'.setArgumentsObject id a = .ok k' ∧ k.Published k' := by
  obtain ⟨f, isFrame, ⟨⟩⟩ := Checked.bind_eq_ok.1 done
  obtain ⟨f', isFrame', published'⟩ := published.frame isFrame
  refine ⟨h'.setFrame (f.setArgumentsObject a), ?_, published.setFrame .same⟩
  rw [← published'.reads (·.setArgumentsObject a) fun _ _ => rfl]
  exact Checked.bind_eq_ok.2 ⟨f', isFrame', rfl⟩

/-! ### Asking -/

theorem askFrame {α : Type} {ask : Frame → Checked α} {x : α}
    (ignores : ∀ f arguments, ask { f with arguments } = ask f)
    (answered : (h.frame id >>= ask) = .ok x) : (h'.frame id >>= ask) = .ok x := by
  obtain ⟨f, isFrame, answered⟩ := Checked.bind_eq_ok.1 answered
  obtain ⟨f', isFrame', published'⟩ := published.frame isFrame
  rw [← published'.reads ask ignores] at answered
  exact Checked.bind_eq_ok.2 ⟨f', isFrame', answered⟩

theorem askArguments {α : Type} {ask : ArgumentsObject → Checked α} {x : α}
    (answered : (h.argumentsObject id >>= ask) = .ok x) : (h'.argumentsObject id >>= ask) = .ok x := by
  obtain ⟨a, isObject, answered⟩ := Checked.bind_eq_ok.1 answered
  exact Checked.bind_eq_ok.2 ⟨a, published.argumentsObject isObject, answered⟩

theorem read {value : Option Value} (found : h.read o key = .ok value) : h'.read o key = .ok value := by
  cases o with
  | ordinary id => rwa [Heap.read, published.object_eq]
  | arguments id => exact published.askArguments found
  | activation id => exact published.askFrame (fun _ _ => rfl) found

theorem has {answer : Bool} (found : h.has o key = .ok answer) : h'.has o key = .ok answer := by
  cases o with
  | ordinary id => rwa [Heap.has, published.object_eq]
  | arguments id => exact published.askArguments found
  | activation id => exact published.askFrame (fun _ _ => rfl) found

theorem keys {answer : List Key} (listed : h.keys o = .ok answer) : h'.keys o = .ok answer := by
  cases o with
  | ordinary id => rwa [Heap.keys, published.object_eq]
  | arguments id => exact published.askArguments listed
  | activation id => exact published.askFrame (fun _ _ => rfl) listed

theorem inspectObject {text : String} (shown : h.inspectObject o = .ok text) :
    h'.inspectObject o = .ok text := by
  cases o with
  | ordinary id => rwa [Heap.inspectObject, published.object_eq]
  | arguments id => exact published.askArguments shown
  | activation id => exact published.askFrame (fun _ _ => rfl) shown

/-! ### Doing -/

theorem get {k : Heap} {value : Option Value} (done : h.get o key = .ok (value, k)) :
    ∃ k', h'.get o key = .ok (value, k') ∧ k.Published k' := by
  obtain ⟨value', found, done⟩ := Checked.bind_eq_ok.1 done
  rw [Heap.get, published.read found, Checked.ok_bind]
  split at done
  · cases done
    exact ⟨_, rfl, published.handOut _⟩
  · cases done
    exact ⟨h', rfl, published⟩

theorem put {k : Heap} {value : Value} (done : h.put o key value = .ok k) :
    ∃ k', h'.put o key value = .ok k' ∧ k.Published k' := by
  cases o with
  | ordinary id =>
    obtain ⟨s, isObject, done⟩ := Checked.bind_eq_ok.1 done
    obtain ⟨t, isTable, done⟩ := Checked.bind_eq_ok.1 done
    obtain ⟨⟨s', t'⟩, inserted, ⟨⟩⟩ := Checked.bind_eq_ok.1 done
    refine ⟨(h'.setTable t').setObject id s', ?_, (published.setTable t').setObject id s'⟩
    simp [Heap.put, published.object_eq, isObject, published.table_eq, isTable, inserted]
  | arguments id =>
    obtain ⟨a, isObject, done⟩ := Checked.bind_eq_ok.1 done
    obtain ⟨t, isTable, done⟩ := Checked.bind_eq_ok.1 done
    obtain ⟨⟨a', t'⟩, written, done⟩ := Checked.bind_eq_ok.1 done
    obtain ⟨k', done', published'⟩ := (published.setTable t').setArgumentsObject done
    refine ⟨k', ?_, published'⟩
    simp [Heap.put, published.argumentsObject isObject, published.table_eq, isTable, written, done']
  | activation id =>
    obtain ⟨f, isFrame, done⟩ := Checked.bind_eq_ok.1 done
    obtain ⟨t, isTable, done⟩ := Checked.bind_eq_ok.1 done
    obtain ⟨⟨g, t'⟩, written, ⟨⟩⟩ := Checked.bind_eq_ok.1 done
    obtain ⟨f', isFrame', related⟩ := published.frame isFrame
    obtain ⟨g', written', related'⟩ := related.putByKey written
    refine ⟨(h'.setTable t').setFrame g', ?_, (published.setTable t').setFrame related'⟩
    simp [Heap.put, isFrame', related.reads Frame.properties fun _ _ => rfl, published.table_eq, isTable,
      written']

theorem delete {k : Heap} {deleted : Bool} (done : h.delete o key = .ok (deleted, k)) :
    ∃ k', h'.delete o key = .ok (deleted, k') ∧ k.Published k' := by
  cases o with
  | ordinary id =>
    obtain ⟨s, isObject, ⟨⟩⟩ := Checked.bind_eq_ok.1 done
    refine ⟨_, ?_, published.setObject id _⟩
    simp only [Heap.delete, published.object_eq, isObject, Checked.ok_bind]
    rfl
  | arguments id =>
    obtain ⟨a, isObject, done⟩ := Checked.bind_eq_ok.1 done
    obtain ⟨⟨a', deleted⟩, unlinked, done⟩ := Checked.bind_eq_ok.1 done
    obtain ⟨k, replaced, ⟨⟩⟩ := Checked.bind_eq_ok.1 done
    obtain ⟨k', replaced', published'⟩ := published.setArgumentsObject replaced
    refine ⟨k', ?_, published'⟩
    simp [Heap.delete, published.argumentsObject isObject, unlinked, replaced']
  | activation id =>
    obtain ⟨f, isFrame, done⟩ := Checked.bind_eq_ok.1 done
    cases removed : f.deleteKey key with
    | mk g deleted' =>
      simp only [removed] at done
      cases done
      obtain ⟨f', isFrame', related⟩ := published.frame isFrame
      obtain ⟨g', removed', related'⟩ := related.deleteKey removed
      exact ⟨h'.setFrame g', by simp [Heap.delete, isFrame', removed'], published.setFrame related'⟩

theorem transition {k : Heap} {table : TableId} {shape : Shape} {answer : Except Refusal Shape}
    (done : h.transition table shape key = .ok (answer, k)) :
    ∃ k', h'.transition table shape key = .ok (answer, k') ∧ k.Published k' := by
  obtain ⟨t, isTable, done⟩ := Checked.bind_eq_ok.1 done
  cases done
  rw [Heap.transition, published.table_eq, isTable, Checked.ok_bind]
  exact ⟨_, rfl, published.setTable _⟩

theorem fetch {k : Heap} {ref : CacheRef} {target : ObjectId} {value : Option Value}
    (done : h.fetch ref target = .ok (value, k)) :
    ∃ k', h'.fetch ref target = .ok (value, k') ∧ k.Published k' := by
  obtain ⟨c, isCache, done⟩ := Checked.bind_eq_ok.1 done
  obtain ⟨s, isObject, done⟩ := Checked.bind_eq_ok.1 done
  obtain ⟨⟨value, c'⟩, found, ⟨⟩⟩ := Checked.bind_eq_ok.1 done
  refine ⟨h'.setCache ref c', ?_, published.setCache ref c'⟩
  simp [Heap.fetch, published.cache_eq, isCache, published.object_eq, isObject, found]

theorem store {k : Heap} {ref : CacheRef} {target : ObjectId} {value : Value}
    (done : h.store ref target value = .ok k) :
    ∃ k', h'.store ref target value = .ok k' ∧ k.Published k' := by
  obtain ⟨c, isCache, done⟩ := Checked.bind_eq_ok.1 done
  obtain ⟨s, isObject, done⟩ := Checked.bind_eq_ok.1 done
  obtain ⟨t, isTable, done⟩ := Checked.bind_eq_ok.1 done
  obtain ⟨⟨s', t', c'⟩, written, ⟨⟩⟩ := Checked.bind_eq_ok.1 done
  refine ⟨((h'.setTable t').setObject target s').setCache ref c', ?_,
    ((published.setTable t').setObject target s').setCache ref c'⟩
  simp [Heap.store, published.cache_eq, isCache, published.object_eq, isObject, published.table_eq,
    isTable, written]

theorem resetCache {k : Heap} {ref : CacheRef} (done : h.resetCache ref = .ok k) :
    ∃ k', h'.resetCache ref = .ok k' ∧ k.Published k' := by
  obtain ⟨c, isCache, ⟨⟩⟩ := Checked.bind_eq_ok.1 done
  refine ⟨h'.setCache ref c.reset, ?_, published.setCache ref c.reset⟩
  simp [Heap.resetCache, published.cache_eq, isCache]

theorem getBinding {k : Heap} {i : UInt32} {value : Value} (done : h.getBinding id i = .ok (value, k)) :
    ∃ k', h'.getBinding id i = .ok (value, k') ∧ k.Published k' := by
  obtain ⟨f, isFrame, done⟩ := Checked.bind_eq_ok.1 done
  obtain ⟨value, found, ⟨⟩⟩ := Checked.bind_eq_ok.1 done
  obtain ⟨f', isFrame', related⟩ := published.frame isFrame
  rw [← related.reads (·.get i) fun _ _ => rfl] at found
  exact ⟨h'.handOut value, by simp [Heap.getBinding, isFrame', found], published.handOut value⟩

theorem setBinding {k : Heap} {i : UInt32} {value : Value} (done : h.setBinding id i value = .ok k) :
    ∃ k', h'.setBinding id i value = .ok k' ∧ k.Published k' := by
  obtain ⟨f, isFrame, done⟩ := Checked.bind_eq_ok.1 done
  obtain ⟨g, written, ⟨⟩⟩ := Checked.bind_eq_ok.1 done
  obtain ⟨f', isFrame', related⟩ := published.frame isFrame
  obtain ⟨g', written', related'⟩ := related.set written
  exact ⟨h'.setFrame g', by simp [Heap.setBinding, isFrame', written'], published.setFrame related'⟩

theorem setConstBinding {k : Heap} {i : UInt32} {value : Value}
    (done : h.setConstBinding id i value = .ok k) :
    ∃ k', h'.setConstBinding id i value = .ok k' ∧ k.Published k' := by
  obtain ⟨f, isFrame, done⟩ := Checked.bind_eq_ok.1 done
  obtain ⟨g, written, ⟨⟩⟩ := Checked.bind_eq_ok.1 done
  obtain ⟨f', isFrame', related⟩ := published.frame isFrame
  obtain ⟨g', written', related'⟩ := related.setConst written
  exact ⟨h'.setFrame g', by simp [Heap.setConstBinding, isFrame', written'], published.setFrame related'⟩

theorem setParent {k : Heap} {parent : FrameId} (done : h.setParent id parent = .ok k) :
    ∃ k', h'.setParent id parent = .ok k' ∧ k.Published k' := by
  obtain ⟨f, isFrame, ⟨⟩⟩ := Checked.bind_eq_ok.1 done
  obtain ⟨f', isFrame', related⟩ := published.frame isFrame
  exact ⟨h'.setFrame { f' with parent := some parent }, by simp [Heap.setParent, isFrame'],
    published.setFrame (related.setParent _)⟩

theorem arguments {k : Heap} (done : h.arguments id = .ok (o, k)) :
    ∃ k', h'.arguments id = .ok (o, k') ∧ k.Published k' := by
  obtain ⟨f, isFrame, ⟨⟩⟩ := Checked.bind_eq_ok.1 done
  obtain ⟨f', isFrame', related⟩ := published.frame isFrame
  exact ⟨h'.setFrame f'.withArguments, by simp [Heap.arguments, isFrame'],
    published.setFrame related.withArguments⟩

theorem argumentsValue {k : Heap} {value : Value} (done : h.argumentsValue id = .ok (value, k)) :
    ∃ k', h'.argumentsValue id = .ok (value, k') ∧ k.Published k' := by
  obtain ⟨f, isFrame, ⟨⟩⟩ := Checked.bind_eq_ok.1 done
  obtain ⟨f', isFrame', related⟩ := published.frame isFrame
  have same : f'.argumentsValue = f.argumentsValue := related.reads Frame.argumentsValue fun _ _ => rfl
  exact ⟨h'.handOut f.argumentsValue, by simp [Heap.argumentsValue, isFrame', same],
    published.handOut _⟩

/-! ### Making -/

theorem allocFrame (table : TableId) (function : FunctionRef) (args : Array Value)
    (objectConstructor : Value) :
    (h.allocFrame table function args objectConstructor).2.Published
      (h'.allocFrame table function args objectConstructor).2 := by
  obtain ⟨sized, related⟩ := published
  simp only [Heap.allocFrame, sized]
  refine .mk (by simp [sized]) fun {i f} found => ?_
  rw [Array.getElem?_push] at found ⊢
  rw [sized]
  split at found
  · next last =>
    cases found
    exact ⟨_, if_pos last, .same⟩
  · next older =>
    rw [if_neg older]
    exact related found

end

/-! ### Answering -/

/-- An answer that is made of a result is the same if the result is. -/
theorem answer {α : Type} {x y : Checked (α × Heap)} {k : Heap} (form : α → Answer)
    (same : ∀ {result k}, x = .ok (result, k) → ∃ k', y = .ok (result, k') ∧ k.Published k')
    (answered : (x >>= fun done => .ok (form done.1, done.2)) = .ok (a, k)) :
    ∃ k', (y >>= fun done => .ok (form done.1, done.2)) = .ok (a, k') ∧ k.Published k' := by
  obtain ⟨⟨result, k⟩, done, ⟨⟩⟩ := Checked.bind_eq_ok.1 answered
  obtain ⟨k', done', published⟩ := same done
  exact ⟨k', Checked.bind_eq_ok.2 ⟨_, done', rfl⟩, published⟩

theorem answerNothing {x y : Checked Heap} {k : Heap}
    (same : ∀ {k}, x = .ok k → ∃ k', y = .ok k' ∧ k.Published k')
    (answered : (x >>= fun k => .ok (Answer.nothing, k)) = .ok (a, k)) :
    ∃ k', (y >>= fun k => .ok (Answer.nothing, k)) = .ok (a, k') ∧ k.Published k' := by
  obtain ⟨k, done, ⟨⟩⟩ := Checked.bind_eq_ok.1 answered
  obtain ⟨k', done', published⟩ := same done
  exact ⟨k', Checked.bind_eq_ok.2 ⟨_, done', rfl⟩, published⟩

section

variable (published : h.Published h')
include published

/-- An answer to a question that changes nothing. -/
theorem answerAsked {α : Type} {x y : Checked α} {k : Heap} (form : α → Answer)
    (same : ∀ {result}, x = .ok result → y = .ok result)
    (answered : (x >>= fun result => .ok (form result, h)) = .ok (a, k)) :
    ∃ k', (y >>= fun result => .ok (form result, h')) = .ok (a, k') ∧ k.Published k' := by
  obtain ⟨result, found, ⟨⟩⟩ := Checked.bind_eq_ok.1 answered
  exact ⟨h', Checked.bind_eq_ok.2 ⟨result, same found, rfl⟩, published⟩

theorem reply {k : Heap} (done : h.reply op = .ok (a, k)) :
    ∃ k', h'.reply op = .ok (a, k') ∧ k.Published k' := by
  cases op with
  | makeTable | makeFunction | makeObject | makeCache | makeSiteCaches =>
    cases done
    obtain ⟨sized, related⟩ := published
    exact ⟨_, rfl, .mk sized related⟩
  | makeFrame table function args objectConstructor =>
    cases done
    refine ⟨_, ?_, published.allocFrame table function args objectConstructor⟩
    rw [← published.size_eq]
    rfl
  | transition => exact answer .shape published.transition done
  | get => exact answer .value published.get done
  | put => exact answerNothing published.put done
  | delete => exact answer .truth published.delete done
  | fetch => exact answer .value published.fetch done
  | store => exact answerNothing published.store done
  | resetCache => exact answerNothing published.resetCache done
  | getBinding => exact answer (.value ∘ some) published.getBinding done
  | setBinding => exact answerNothing published.setBinding done
  | setConstBinding => exact answerNothing published.setConstBinding done
  | setParent => exact answerNothing published.setParent done
  | arguments => exact answer (.object ∘ some) published.arguments done
  | argumentsValue => exact answer (.value ∘ some) published.argumentsValue done

theorem respond {k : Heap} (done : h.respond r = .ok (a, k)) :
    ∃ k', h'.respond r = .ok (a, k') ∧ k.Published k' := by
  cases r with
  | operation op => exact published.reply done
  | has => exact published.answerAsked .truth published.has done
  | keys => exact published.answerAsked .keys published.keys done
  | inspect => exact published.answerAsked .text published.inspectObject done
  | isConst => exact published.answerAsked .truth (published.askFrame fun _ _ => rfl) done
  | hasCopiedArguments id =>
    obtain ⟨f, isFrame, ⟨⟩⟩ := Checked.bind_eq_ok.1 done
    obtain ⟨f', isFrame', related⟩ := published.frame isFrame
    rw [← related.reads Frame.hasCopiedArguments fun _ _ => rfl]
    exact ⟨h', Checked.bind_eq_ok.2 ⟨f', isFrame', rfl⟩, published⟩
  | parent id =>
    obtain ⟨f, isFrame, ⟨⟩⟩ := Checked.bind_eq_ok.1 done
    obtain ⟨f', isFrame', related⟩ := published.frame isFrame
    rw [← related.reads Frame.parent fun _ _ => rfl]
    exact ⟨h', Checked.bind_eq_ok.2 ⟨f', isFrame', rfl⟩, published⟩
  | argumentCount =>
    exact published.answerAsked (.count ∘ ArgumentsObject.size) published.argumentsObject done
  | descriptor => exact published.answerAsked .descriptor published.askArguments done
  | shapeCount id =>
    exact published.answerAsked (.count ∘ ShapeTable.shapeCount) (published.table_eq id).trans done

theorem responds {k : Heap} (responds : h.Responds r a k) :
    ∃ k', h'.Responds r a k' ∧ k.Published k' := by
  obtain ⟨allowed, answered⟩ := responds
  obtain ⟨k', answered', published'⟩ := published.respond answered
  exact ⟨k', ⟨fun isOperation => published.allows (allowed isOperation), answered'⟩, published'⟩

end

end Published

end ShapeVM.Heap
