import ShapeVM.Proofs.Frame.Call
import ShapeVM.Proofs.Function.Scope
import ShapeVM.Proofs.Heap.Progress

/-!
Frames by name. A key that resolves is the binding at its position, and any other is one of the
properties that the frame has of its own. As a binding's key never becomes such a property, whatever
was put and deleted before, the keys of a frame are the visible names and then the keys of its own
properties, none of them twice.
-/
namespace ShapeVM

namespace Heap

variable {h : Heap} {id : FrameId} {f : Frame} {key : Key} {i : UInt32}

/-- Only the first read of a reference to an arguments object builds the object. -/
theorem WellFormed.handOut_of_has (w : h.WellFormed) {value : Value}
    (built : ∀ id, value = .object (.arguments id) → h.Has (.arguments id)) :
    h.handOut value = h := by
  unfold Heap.handOut
  split
  · next id =>
    obtain ⟨a, isObject⟩ := built id rfl
    obtain ⟨f, isFrame, isState⟩ := argumentsObject_eq_ok.1 isObject
    obtain ⟨state, isState, _⟩ := Option.map_eq_some_iff.1 isState
    have same : f.withArguments = f := by simp only [Frame.withArguments, isState]
    rw [isFrame]
    simp only [same]
    exact setFrame_self ((w.frame isFrame).id.symm ▸ isFrame)
  · rfl

/-! ## One key -/

/-- The key is the binding at a position. -/
structure Binds (h : Heap) (id : FrameId) (key : Key) (i : UInt32) : Prop where
  get : ∃ value h', h.getBinding id i = .ok (value, h') ∧
    h.get (.activation id) key = .ok (some value, h')
  put : ∀ value, ∃ h', h.setBinding id i value = .ok h' ∧ h.put (.activation id) key value = .ok h'
  has : h.has (.activation id) key = .ok true
  delete : h.delete (.activation id) key = .ok (false, h)

/-- The key is one of the properties that the frame has of its own, or may become one. -/
structure Owns (h : Heap) (id : FrameId) (f : Frame) (key : Key) : Prop where
  /-- Reading leaves the heap as it is, once the arguments object that is read is there. -/
  get : ∃ value, f.properties.get? key = .ok value ∧
    h.get (.activation id) key = .ok (value, value.elim h h.handOut) ∧
    ((∀ id', value = some (.object (.arguments id')) → h.Has (.arguments id')) →
      value.elim h h.handOut = h)
  put : ∀ value, ∃ t properties t', h.table f.properties.table = .ok t ∧
    f.properties.insert t key value = .ok (properties, t') ∧
    h.put (.activation id) key value = .ok ((h.setTable t').setFrame { f with properties })
  has : h.has (.activation id) key = .ok (f.properties.contains key)
  delete : h.delete (.activation id) key = .ok ((f.properties.erase key).2,
    h.setFrame { f with properties := (f.properties.erase key).1 })

namespace WellFormed

variable (w : h.WellFormed) (isFrame : h.frame id = .ok f)
include w isFrame

theorem binds (resolved : f.function.code.resolve? key = some i) : h.Binds id key i := by
  obtain ⟨named, wf, ⟨t, table, _⟩, _⟩ := w.frame isFrame
  have resolves : f.resolve? key = some i := (f.resolve?_eq key).trans resolved
  refine ⟨?_, fun value => ?_, ?_, ?_⟩
  · obtain ⟨value, found⟩ := wf.get i
    exact ⟨value, h.handOut value, by simp [getBinding, isFrame, found],
      by simp [Heap.get, Heap.read, isFrame, Frame.getByKey, resolves, found]⟩
  · obtain ⟨f', done, _⟩ := wf.set i value
    have same : h.setTable t = h := setTable_self ((w.table table).1.symm ▸ table)
    exact ⟨h.setFrame f', by simp [setBinding, isFrame, done],
      by simp [Heap.put, isFrame, table, Frame.putByKey, resolves, done, same]⟩
  · simp [Heap.has, isFrame, Frame.hasKey, resolves]
  · have same : h.setFrame f = h := setFrame_self (named.symm ▸ isFrame)
    simp [Heap.delete, isFrame, Frame.deleteKey_of_resolved resolved, same]

theorem owns (unresolved : f.function.code.resolve? key = none) : h.Owns id f key := by
  obtain ⟨_, _, ⟨t, table, fits⟩, _⟩ := w.frame isFrame
  have resolves : f.resolve? key = none := (f.resolve?_eq key).trans unresolved
  refine ⟨?_, fun value => ?_, ?_, ?_⟩
  · obtain ⟨value, found⟩ := fits.get? key
    refine ⟨value, found, ?_, fun built => ?_⟩
    · cases value <;> simp [Heap.get, Heap.read, isFrame, Frame.getByKey, resolves, found]
    · cases value with
      | none => rfl
      | some v => exact w.handOut_of_has fun id' isReference => built id' (congrArg some isReference)
  · obtain ⟨properties, t', inserted⟩ := fits.insert (w.table table).2 key value
    exact ⟨t, properties, t', table, inserted,
      by simp [Heap.put, isFrame, table, Frame.putByKey, resolves, inserted]⟩
  · simp [Heap.has, isFrame, Frame.hasKey, resolves]
  · simp [Heap.delete, isFrame, Frame.deleteKey_of_unresolved unresolved]

end WellFormed

end Heap

namespace Call

variable {c : Call} {ops : List Operation} {h : Heap} {f : Frame} {key : Key}

/-! ## Every key of a call -/

/-- What a history changed of the properties that the frame has of its own. -/
def ownEdits (c : Call) (ops : List Operation) : List Edit :=
  ops.filterMap (·.ownEdit? c.frame c.function.code)

theorem Ran.ownKeys (ran : c.Ran ops h) (isFrame : h.frame c.frame = .ok f) :
    f.properties.keys = (PropertyList.ofEdits (c.ownEdits ops)).keys := by
  induction ran generalizing f with
  | @made h₀ h₁ table objectConstructor _ named made =>
    obtain ⟨_, ⟨⟩⟩ := made
    rw [Heap.frame_allocFrame, if_pos named] at isFrame
    cases isFrame
    rfl
  | @step ops h op h' ran step ih =>
    obtain ⟨w, f₀, isFrame₀, inv⟩ := ran.invariant
    have fits := (w.frame isFrame₀).properties
    obtain ⟨f', isFrame', effect⟩ := step.effect.frameEffect w isFrame₀
    obtain rfl := Except.ok.inj (isFrame'.symm.trans isFrame)
    rw [effect.ownEffect.keys w fits, inv.id, inv.function, ownEdits, List.filterMap_cons]
    have ih := ih isFrame₀
    cases op.ownEdit? c.frame c.function.code with
    | none => exact ih
    | some e =>
      obtain ⟨_, _, fits⟩ := fits
      rw [PropertyStore.keys_eq fits] at ih
      exact PropertyList.keys_edit_congr ih e

/-- No binding's key is among the frame's own properties. -/
theorem resolve?_of_mem_ownEdits (mem : key ∈ (PropertyList.ofEdits (c.ownEdits ops)).keys) :
    c.function.code.resolve? key = none := by
  obtain ⟨value, put⟩ := PropertyList.mem_keys_ofEdits mem
  obtain ⟨op, _, edit⟩ := List.mem_filterMap.1 put
  exact Operation.resolve?_of_ownEdit? edit

/-- How the frame of a call resolves keys, and what it then does with them. -/
structure ResolvesNames (c : Call) (ops : List Operation) (h : Heap) (f : Frame) : Prop where
  scope : ∀ key, f.resolve? key = c.function.code.resolve? key
  names : ∀ i, c.function.code.bindingName? i = c.function.code.names[i.toNat]?
  name : ∀ {s i}, c.function.code.resolve? (.name s) = some i ↔ c.function.code.LastAt s i ∨
    s ∉ c.function.code.names ∧ s = "arguments" ∧ i = argumentsIndex
  index : ∀ i, c.function.code.resolve? (.index i) = none
  bound : ∀ {key i}, c.function.code.resolve? key = some i → h.Binds c.frame key i
  unbound : ∀ {key}, c.function.code.resolve? key = none → h.Owns c.frame f key
  /-- The keys of the frame's own properties stand in the order in which they were added. -/
  added : f.properties.keys = (PropertyList.ofEdits (c.ownEdits ops)).keys
  /-- The keys of the bindings come in the order of their positions, and in no other, whatever the order
  in which they are taken from the map. -/
  ordered : c.function.code.Lists c.function.code.boundKeys ∧
    ∀ {entries}, entries.Perm c.function.code.positions.toList →
      keysByPosition entries = c.function.code.boundKeys
  keys : h.keys (.activation c.frame) = .ok (c.function.code.boundKeys ++ f.properties.keys)
  nodup : (c.function.code.boundKeys ++ f.properties.keys).Nodup

theorem frame_resolves_names (few : c.function.code.names.length < UInt32.size) (ran : c.Ran ops h) :
    ∃ f, h.frame c.frame = .ok f ∧ c.ResolvesNames ops h f := by
  obtain ⟨w, f, isFrame, inv⟩ := ran.invariant
  have lists := Function.lists_boundKeys few
  have added := ran.ownKeys isFrame
  refine ⟨f, isFrame, fun key => ?_, Function.bindingName?_eq _, Function.resolve?_name few,
    Function.resolve?_index _, fun resolved => ?_, fun unresolved => ?_, added,
    ⟨lists, Function.keysByPosition_of_perm few⟩, ?_, ?_⟩
  · rw [f.resolve?_eq, inv.function]
  · exact w.binds isFrame (inv.function ▸ resolved)
  · exact w.owns isFrame (inv.function ▸ unresolved)
  · rw [Heap.keys_activation isFrame, inv.function]
  · rw [added]
    refine List.nodup_append.2 ⟨lists.nodup, PropertyList.nodup_keys_ofEdits _, ?_⟩
    -- A key in both parts would resolve and not resolve.
    rintro key mem _ own rfl
    obtain ⟨i, resolved⟩ := lists.mem.1 mem
    cases resolved.symm.trans (resolve?_of_mem_ownEdits own)

/-- The second parameter `a` hides the first, and a local hides `b`. Of the keys that no binding has,
one is put, deleted and put again. -/
theorem frame_resolves_names_of_repeated : ∃ c ops h f, Ran c ops h ∧
    c.function.code.names.length < UInt32.size ∧ h.frame c.frame = .ok f ∧
    f.resolve? (.name "a") = some 2 ∧ f.resolve? (.name "b") = some 3 ∧
    h.keys (.activation c.frame) =
      .ok [.name "a", .name "b", .name "arguments", .index 7, .name "x"] ∧
    c.ResolvesNames ops h f := by
  let code : Function := { paramNames := ["a", "b", "a"], localNames := ["b"] }
  have ran : Ran ⟨⟨0⟩, { id := ⟨0⟩, code }, #[.null]⟩ [
      .put (.activation ⟨0⟩) (.name "b") .null, .put (.activation ⟨0⟩) (.name "x") .null,
      .put (.activation ⟨0⟩) (.index 7) .null, .delete (.activation ⟨0⟩) (.name "x"),
      .put (.activation ⟨0⟩) (.name "x") .undefined] _ :=
    ran_afterAll ⟨0⟩ .null [.makeTable {}] _ (by decide +kernel) (by decide +kernel)
  obtain ⟨f, isFrame, resolves⟩ := frame_resolves_names (by decide) ran
  refine ⟨_, _, _, f, ran, by decide, isFrame, (resolves.scope _).trans (by decide +kernel),
    (resolves.scope _).trans (by decide +kernel), ?_, resolves⟩
  have bound : code.boundKeys = [.name "a", .name "b", .name "arguments"] :=
    Function.boundKeys_eq_of_sorted
      [(.name "a", 2), (.name "b", 3), (.name "arguments", argumentsIndex)]
      (by decide) (by decide +kernel) (by decide)
  have added : f.properties.keys = [.index 7, .name "x"] := resolves.added.trans (by decide +kernel)
  rw [resolves.keys, bound, added]
  rfl

end Call

end ShapeVM
