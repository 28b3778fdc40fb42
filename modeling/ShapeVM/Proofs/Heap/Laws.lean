import ShapeVM.Proofs.Heap.View
import ShapeVM.Proofs.Heap.Evaluation

/-!
The laws of writing and deleting, one set of them for all kinds of objects. After a write the key is
there and reads as what was written, unless it is that of a constant; after a deletion it is gone, or
what stands behind it shows. Whatever the key reaches, a slot, a dictionary, an argument, a binding or
the place of the arguments object, every other key reads as before.
-/
namespace ShapeVM

/-- Arguments objects list their arguments only; the others list what is added to them. -/
def ObjectRef.ListsAdded : ObjectRef → Prop
  | .arguments _ => False
  | _ => True

namespace Heap

variable {h : Heap} {o : ObjectRef} {key : Key} {id : FrameId} {f : Frame}

/-- The key is that of a constant binding. -/
def Fixes (h : Heap) : ObjectRef → Key → Prop
  | .activation id, key => ∃ f i, h.frame id = .ok f ∧ f.function.code.resolve? key = some i ∧
      h.isConstBinding id i = .ok true
  | _, _ => False

/-- What a deletion answers and leaves. -/
inductive Deletes (h : Heap) (v : View) : Key → ObjectRef → Bool → Heap → View → Prop
  | property {id : ObjectId} {key : Key} {h' : Heap} {v' : View} : v.Spares key v' → v'.Lacks key →
    Deletes h v key (.ordinary id) (v.has key) h' v'
  | ownProperty {id : FrameId} {f : Frame} {key : Key} {h' : Heap} {v' : View} :
    h.frame id = .ok f → f.function.code.resolve? key = none → v.has key = true →
    v.Spares key v' → v'.Lacks key → Deletes h v key (.activation id) true h' v'
  /-- A binding stays, and what is not there cannot go. -/
  | nothing {id : FrameId} {f : Frame} {key : Key} : h.frame id = .ok f →
    (∃ i, f.function.code.resolve? key = some i) ∨ v.has key = false →
    Deletes h v key (.activation id) false h v
  | index {id : FrameId} {i : UInt32} {h' : Heap} {v' : View} : v.Spares (.index i) v' →
    v'.Lacks (.index i) → Deletes h v (.index i) (.arguments id) true h' v'
  | name {id : FrameId} {a : ArgumentsObject} {s : String} {h' : Heap} {v' : View} :
    h.argumentsObject id = .ok a → v.Spares (.name s) v' → v'.get (.name s) = a.builtin? s →
    v'.has (.name s) = (a.builtin? s).isSome → Deletes h v (.name s) (.arguments id) true h' v'

structure Laws (h : Heap) (o : ObjectRef) (v : View) : Prop where
  shows : h.Shows o v
  put : ∀ key value, ∃ h' v', h.put o key value = .ok h' ∧ h'.Shows o v' ∧
    v.Put key value (h.Fixes o key) o.ListsAdded v'
  delete : ∀ key, ∃ deleted h' v', h.delete o key = .ok (deleted, h') ∧ h'.Shows o v' ∧
    h.Deletes v key o deleted h' v'

namespace WellFormed

variable (w : h.WellFormed)
include w

theorem fixes_activation (isFrame : h.frame id = .ok f) :
    h.Fixes (.activation id) key = f.Fixes key := by
  have wf := (w.frame isFrame).frame
  have isConst (i : UInt32) : h.isConstBinding id i = .ok (f.final? i).isSome := by
    simp [Heap.isConstBinding, isFrame, wf.isConst_eq]
  refine propext ⟨?_, ?_⟩
  · rintro ⟨_, i, isFrame', resolved, const⟩
    obtain rfl := Except.ok.inj (isFrame.symm.trans isFrame')
    exact ⟨i, resolved, Except.ok.inj ((isConst i).symm.trans const)⟩
  · rintro ⟨i, resolved, final⟩
    exact ⟨f, i, isFrame, resolved, (isConst i).trans (congrArg Except.ok final)⟩

variable (small : h.Addressable)
include small

theorem laws_ordinary {id : ObjectId} {s : PropertyStore} (isObject : h.object id = .ok s) :
    h.Laws (.ordinary id) s.view := by
  obtain ⟨t, isTable, fits⟩ := w.object isObject
  have wt := (w.table isTable).2
  have addressable := small.table isTable
  have readable := fits.readable wt addressable
  refine ⟨shows_ordinary isObject readable, fun key value => ?_, fun key => ?_⟩
  · obtain ⟨s', t', inserted⟩ := fits.insert wt key value
    obtain ⟨readable', put⟩ := fits.put wt addressable inserted
    have after : ((h.setTable t').setObject id s').object id = .ok s' :=
      (object_setObject (h := h.setTable t') isObject s' id).trans (if_pos rfl)
    exact ⟨(h.setTable t').setObject id s', s'.view, by simp [Heap.put, isObject, isTable, inserted],
      shows_ordinary after readable', put⟩
  · have after : (h.setObject id (s.erase key).1).object id = .ok (s.erase key).1 :=
      (object_setObject isObject _ id).trans (if_pos rfl)
    refine ⟨s.view.has key, h.setObject id (s.erase key).1, (s.erase key).1.view, ?_,
      shows_ordinary after (readable.erase key), ?_⟩
    · simp [Heap.delete, isObject, readable.erase_snd]
    · exact .property (readable.erase_spares key) (readable.erase_lacks key)

theorem laws_arguments {a : ArgumentsObject} (isObject : h.argumentsObject id = .ok a) :
    h.Laws (.arguments id) a.view := by
  obtain ⟨f, isFrame, built⟩ := argumentsObject_eq_ok.1 isObject
  obtain rfl := Frame.object_of_argumentsObject? built
  obtain ⟨named, wf, _, t, isTable, fits⟩ := w.frame isFrame
  have wt := (w.table isTable).2
  have addressable := small.table isTable
  have readable := fits.readable wt addressable
  have after {h₁ : Heap} (found : h₁.frame id = .ok f) (a' : ArgumentsObject) :
      (h₁.setFrame (f.setArgumentsObject a')).argumentsObject id = .ok a' :=
    argumentsObject_eq_ok.2 ⟨f.setArgumentsObject a', frame_setFrame_self found named, rfl⟩
  refine ⟨shows_arguments isObject wf.object readable, fun key value => ?_, fun key => ?_⟩
  · obtain ⟨a', t', done⟩ := wf.object.put fits wt key value
    obtain ⟨w', readable', put⟩ := wf.object.put_view fits wt addressable done
    have kept : (h.setTable t').frame id = .ok f := isFrame
    refine ⟨(h.setTable t').setFrame (f.setArgumentsObject a'), a'.view, ?_,
      shows_arguments (after kept a') w' readable', put⟩
    simp [Heap.put, isObject, isTable, done, Heap.setArgumentsObject, kept]
  · obtain ⟨a', done, w', readable', bared⟩ := wf.object.delete_view readable key
    refine ⟨true, h.setFrame (f.setArgumentsObject a'), a'.view, ?_,
      shows_arguments (after isFrame a') w' readable', ?_⟩
    · simp [Heap.delete, isObject, done, Heap.setArgumentsObject, isFrame]
    · cases key with
      | index i => exact .index bared.others ⟨bared.get, bared.has⟩
      | name s => exact .name isObject bared.others bared.get bared.has

theorem laws_activation (isFrame : h.frame id = .ok f)
    (counted : f.bindingCount = f.function.code.bindingCount)
    (few : f.function.code.names.length < UInt32.size) : h.Laws (.activation id) f.view := by
  obtain ⟨named, wf, ⟨t, isTable, fits⟩, _⟩ := w.frame isFrame
  have wt := (w.table isTable).2
  have addressable := small.table isTable
  have readable := fits.readable wt addressable
  refine ⟨shows_activation isFrame wf readable, fun key value => ?_, fun key => ?_⟩
  · obtain ⟨f', t', done⟩ := wf.putByKey fits wt key value
    obtain ⟨named', wf', readable', put⟩ := wf.put_view few counted fits wt addressable done
    rw [w.fixes_activation isFrame]
    have kept : (h.setTable t').frame id = .ok f := isFrame
    refine ⟨(h.setTable t').setFrame f', f'.view, ?_,
      shows_activation (frame_setFrame_self kept (named'.trans named)) wf' readable', put⟩
    simp [Heap.put, isFrame, isTable, done]
  · rcases f.delete_view readable key with ⟨done, bare⟩ | ⟨unresolved, present, done⟩
    · have same : h.setFrame f = h := setFrame_self (named.symm ▸ isFrame)
      refine ⟨false, h, f.view, ?_, shows_activation isFrame wf readable, .nothing isFrame bare⟩
      simp [Heap.delete, isFrame, done, same]
    · obtain ⟨spares, lacks⟩ := f.erase_ownProperty readable unresolved
      let f' := { f with properties := (f.properties.erase key).1 }
      have found : (h.setFrame f').frame id = .ok f' := frame_setFrame_self isFrame named
      refine ⟨true, h.setFrame f', f'.view, ?_, shows_activation found (wf.setProperties _)
        (readable.erase key), .ownProperty isFrame unresolved present spares lacks⟩
      simp [Heap.delete, isFrame, done, f']

end WellFormed

/-- The positions of a frame number all of its bindings. -/
def Numbered (h : Heap) (o : ObjectRef) : Prop :=
  ∀ {id f}, o = .activation id → h.frame id = .ok f → f.function.code.names.length < UInt32.size

theorem objects_obey_put_and_delete (reachable : h.Reachable) (small : h.Addressable) (has : h.Has o)
    (few : h.Numbered o) : ∃ v, h.Laws o v := by
  have w := reachable.wellFormed
  cases o with
  | ordinary id =>
    obtain ⟨s, isObject⟩ := has
    exact ⟨s.view, w.laws_ordinary small isObject⟩
  | arguments id =>
    obtain ⟨a, isObject⟩ := has
    exact ⟨a.view, w.laws_arguments small isObject⟩
  | activation id =>
    obtain ⟨f, isFrame⟩ := has
    have counted := Call.bindingCount_eq reachable isFrame
    exact ⟨f.view, w.laws_activation small isFrame counted (few rfl isFrame)⟩

/-- A frame with a parameter, a constant local and a property, whose arguments object has lost its
element and is hidden by a property `length`. -/
theorem objects_obey_put_and_delete_of_constant : ∃ h v v', Reachable h ∧ h.Addressable ∧
    h.Has (.activation ⟨0⟩) ∧ h.Numbered (.activation ⟨0⟩) ∧ h.Laws (.activation ⟨0⟩) v ∧
    h.Fixes (.activation ⟨0⟩) (.name "c") ∧
    v.keys = [.name "p", .name "c", .name "arguments", .name "x"] ∧
    h.Has (.arguments ⟨0⟩) ∧ h.Numbered (.arguments ⟨0⟩) ∧ h.Laws (.arguments ⟨0⟩) v' ∧
    v'.get (.name "length") = some .null ∧ v'.keys = [.index 0] := by
  let code : Function := { paramNames := ["p"], localNames := ["c"] }
  obtain ⟨h, runs, small, ⟨f, isFrame, isCode, own⟩, isConst, ⟨a, isObject, keys'⟩, get'⟩ :
      ∃ h, Runs {} [
        .delete (.arguments ⟨0⟩) (.index 0), .put (.arguments ⟨0⟩) (.name "length") .null,
        .arguments ⟨0⟩, .put (.activation ⟨0⟩) (.name "x") .null, .setConstBinding ⟨0⟩ 1 .null,
        .makeFrame ⟨0⟩ { id := ⟨0⟩, code } #[.undefined] .null, .makeTable {}] h ∧ h.Addressable ∧
      (∃ f, h.frame ⟨0⟩ = .ok f ∧ f.function.code = code ∧ f.properties.keys = [.name "x"]) ∧
      h.isConstBinding ⟨0⟩ 1 = .ok true ∧
      (∃ a, h.argumentsObject ⟨0⟩ = .ok a ∧ a.keys = [.index 0]) ∧
      h.read (.arguments ⟨0⟩) (.name "length") = .ok (some .null) :=
    ⟨_, runs_afterAll (by decide +kernel), by decide +kernel, by decide +kernel, by decide +kernel,
      by decide +kernel, by decide +kernel⟩
  have few : f.function.code.names.length < UInt32.size := by
    rw [isCode]
    decide
  have bound : f.function.code.boundKeys = [.name "p", .name "c", .name "arguments"] :=
    Function.boundKeys_eq_of_sorted
      [(.name "p", 0), (.name "c", 1), (.name "arguments", argumentsIndex)] few
      (isCode ▸ by decide +kernel) (by decide)
  have resolved : f.function.code.resolve? (.name "c") = some 1 := by
    rw [isCode]
    decide +kernel
  have keys : h.keys (.activation ⟨0⟩) = .ok [.name "p", .name "c", .name "arguments", .name "x"] := by
    rw [keys_activation isFrame, bound, own]
    rfl
  have listed : h.keys (.arguments ⟨0⟩) = .ok [.index 0] := by
    rw [Heap.keys, isObject, Checked.ok_bind, keys']
    rfl
  have numbered : h.Numbered (.activation ⟨0⟩) := by
    intro id f' same isFrame'
    cases same
    cases isFrame.symm.trans isFrame'
    exact few
  have numbered' : h.Numbered (.arguments ⟨0⟩) := by rintro _ _ ⟨⟩
  have has' : h.Has (.activation ⟨0⟩) := ⟨f, isFrame⟩
  have has : h.Has (.arguments ⟨0⟩) := ⟨a, isObject⟩
  obtain ⟨v, laws⟩ := objects_obey_put_and_delete ⟨_, runs⟩ small has' numbered
  obtain ⟨v', laws'⟩ := objects_obey_put_and_delete ⟨_, runs⟩ small has numbered'
  exact ⟨h, v, v', ⟨_, runs⟩, small, has', numbered, laws, ⟨f, 1, isFrame, resolved, isConst⟩,
    Except.ok.inj (laws.shows.keys.symm.trans keys), has, numbered', laws',
    Except.ok.inj ((laws'.shows.read _).symm.trans get'),
    Except.ok.inj (laws'.shows.keys.symm.trans listed)⟩

end Heap

end ShapeVM
