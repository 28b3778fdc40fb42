import Mathlib.Data.List.Nodup
import ShapeVM.Proofs.Frame.Aliasing
import ShapeVM.Proofs.Frame.Names
import ShapeVM.Proofs.Heap.View
import ShapeVM.Proofs.Properties.Apart

/-!
Presence. Asking for a key, reading it and listing the keys search different structures: the offsets
of a shape and the order of its keys, the entries of a dictionary, the scope of a function, the flags
of deleted indices and the built-in names. They agree in every object: a key is there exactly if it
reads as something, and a plain object or a frame lists the keys that are there, each of them once. An
arguments object lists the indices of the arguments that were passed, whether they are still there or
not.
-/
namespace ShapeVM

variable {key : Key} {t : ShapeTable}

/-! ## Stores -/

namespace PropertyStore

variable {s : PropertyStore}

theorem mem_keys : key ∈ s.keys ↔ s.contains key = true := by
  obtain ⟨table, layout⟩ := s
  cases layout with
  | dictionary entries => exact entries.mem_keys key
  | shaped shape slots => exact Array.mem_toList_iff.trans Shape.mem_keys

theorem length_keys (s : PropertyStore) : s.keys.length = s.size := by
  obtain ⟨table, layout⟩ := s
  cases layout with
  | dictionary entries => exact entries.length_keys
  | shaped shape slots => exact shape.size_keys

theorem Fits.nodup_keys (fits : s.Fits t) (w : t.WellFormed) : s.keys.Nodup := by
  obtain ⟨table, layout⟩ := s
  cases layout with
  | dictionary entries => exact entries.nodup_keys
  | shaped shape slots => exact (w.distinct (fits.held rfl)).nodup_keys

end PropertyStore

/-! ## Arguments objects -/

/-- The indices of the arguments that were passed. -/
def Call.indices (c : Call) : List Key := (List.range c.args.size).map fun i => .index i.toUInt32

namespace ArgumentsObject

variable {a : ArgumentsObject}

theorem WellFormed.isSome_get? (w : a.WellFormed) (fits : a.properties.Fits t) (key : Key) :
    ∃ value, a.get? key = .ok value ∧ a.has key = .ok value.isSome := by
  obtain ⟨own, found, present⟩ := fits.isSome_get? key
  cases key with
  | name s =>
    refine ⟨own <|> a.builtin? s, by simp [ArgumentsObject.get?, found], ?_⟩
    simp [ArgumentsObject.has, present]
  | index i =>
    cases linked : a.linked i with
    | true =>
      have inside : (a.args.get? i.toNat).isSome = true := by
        rw [ArgumentList.isSome_get?]
        exact decide_eq_true (lt_size_of_linked linked)
      refine ⟨_, w.getIndex_of_linked linked, ?_⟩
      simp [ArgumentsObject.has, hasIndex, w.isLinked, linked, inside]
    | false =>
      refine ⟨own, (w.getIndex_of_not_linked linked).trans found, ?_⟩
      simp [ArgumentsObject.has, hasIndex, w.isLinked, linked, present]

/-- No index wraps. -/
theorem keys_of_few {c : Call} (sized : a.size = c.args.size) (few : c.args.size < UInt32.size) :
    a.keys = c.indices := by
  have exact : c.args.size.toUInt32.toNat = c.args.size := UInt32.toNat_ofNat_of_lt' few
  rw [keys, sized, exact, Call.indices]

end ArgumentsObject

/-! ## Frames -/

namespace Frame

variable {f : Frame}

theorem WellFormed.isSome_getByKey (w : f.WellFormed) (fits : f.properties.Fits t) (key : Key) :
    ∃ value, f.getByKey key = .ok value ∧ f.hasKey key = value.isSome := by
  rw [Frame.getByKey, hasKey]
  cases f.resolve? key with
  | some i =>
    obtain ⟨value, found⟩ := w.get i
    exact ⟨some value, by simp [found], rfl⟩
  | none =>
    obtain ⟨value, found, present⟩ := fits.isSome_get? key
    exact ⟨value, found, present⟩

/-- Positions have 32 bits, and the number of arguments has 31. -/
structure Countable (f : Frame) : Prop where
  bindings : f.function.code.names.length < UInt32.size
  args : f.args.size < 0x80000000

theorem mem_boundKeys : key ∈ f.function.scope.keys ↔ ∃ i, f.resolve? key = some i := by
  rw [Scope.keys_eq, f.resolve?_eq, Function.mem_boundKeys]

theorem mem_keys : key ∈ f.keys ↔ f.hasKey key = true := by
  rw [keys, List.mem_append, mem_boundKeys, PropertyStore.mem_keys, hasKey, Bool.or_eq_true,
    Option.isSome_iff_exists]

theorem nodup_keys (few : f.function.code.names.length < UInt32.size)
    (distinct : f.properties.keys.Nodup)
    (own : ∀ key ∈ f.properties.keys, f.resolve? key = none) : f.keys.Nodup := by
  refine List.nodup_append.2 ⟨?_, distinct, ?_⟩
  · rw [Scope.keys_eq]
    exact (Function.lists_boundKeys few).nodup
  · rintro key mem _ mem' rfl
    obtain ⟨i, resolved⟩ := mem_boundKeys.1 mem
    cases resolved.symm.trans (own key mem')

end Frame

/-! ## Objects of all kinds -/

/-- The frame of an arguments object or of a call's bindings. -/
def ObjectRef.frame? : ObjectRef → Option FrameId
  | .ordinary _ => none
  | .arguments id | .activation id => some id

namespace Heap

variable {h : Heap} {o : ObjectRef} {id : FrameId} {f : Frame}

/-- The keys that an object lists. -/
inductive Lists (h : Heap) : ObjectRef → List Key → Prop
  | ordinary {id : ObjectId} {s : PropertyStore} {keys : List Key} : h.object id = .ok s →
    keys.Nodup → (∀ key, key ∈ keys ↔ h.has (.ordinary id) key = .ok true) → keys.length = s.size →
    Lists h (.ordinary id) keys
  | activation {id : FrameId} {keys : List Key} : keys.Nodup →
    (∀ key, key ∈ keys ↔ h.has (.activation id) key = .ok true) → Lists h (.activation id) keys
  | arguments {id : FrameId} {keys : List Key} : (∃ c ops, c.frame = id ∧ Call.Ran c ops h) →
    (∀ {c : Call} {ops}, c.frame = id → c.Ran ops h → keys = c.indices) → Lists h (.arguments id) keys

/-- The ways of asking what an object has agree. -/
structure Coherent (h : Heap) (o : ObjectRef) : Prop where
  present : ∀ key, ∃ value h', h.get o key = .ok (value, h') ∧ h.has o key = .ok value.isSome
  listed : ∃ keys, h.keys o = .ok keys ∧ h.Lists o keys

namespace WellFormed

variable (w : h.WellFormed)
include w

theorem isSome_read (has : h.Has o) (key : Key) :
    ∃ value, h.read o key = .ok value ∧ h.has o key = .ok value.isSome := by
  cases o with
  | ordinary id =>
    obtain ⟨s, isObject⟩ := has
    obtain ⟨t, _, fits⟩ := w.object isObject
    obtain ⟨value, found, present⟩ := fits.isSome_get? key
    exact ⟨value, by simp [Heap.read, isObject, found], by simp [Heap.has, isObject, present]⟩
  | arguments id =>
    obtain ⟨a, isObject⟩ := has
    obtain ⟨f, isFrame, rfl⟩ := frame_of_argumentsObject isObject
    obtain ⟨_, wf, _, t, _, fits⟩ := w.frame isFrame
    obtain ⟨value, found, present⟩ := wf.object.isSome_get? fits key
    exact ⟨value, by simp [Heap.read, isObject, found], by simp [Heap.has, isObject, present]⟩
  | activation id =>
    obtain ⟨f, isFrame⟩ := has
    obtain ⟨_, wf, ⟨t, _, fits⟩, _⟩ := w.frame isFrame
    obtain ⟨value, found, present⟩ := wf.isSome_getByKey fits key
    exact ⟨value, by simp [Heap.read, isFrame, found], by simp [Heap.has, isFrame, present]⟩

theorem lists_ordinary {id : ObjectId} {s : PropertyStore} (isObject : h.object id = .ok s) :
    h.Lists (.ordinary id) s.keys := by
  obtain ⟨t, isTable, fits⟩ := w.object isObject
  refine .ordinary isObject (fits.nodup_keys (w.table isTable).2) (fun key => ?_) s.length_keys
  simp [Heap.has, isObject, PropertyStore.mem_keys]

theorem lists_activation (isFrame : h.frame id = .ok f)
    (few : f.function.code.names.length < UInt32.size)
    (own : ∀ key ∈ f.properties.keys, f.resolve? key = none) : h.Lists (.activation id) f.keys := by
  obtain ⟨_, _, ⟨t, isTable, fits⟩, _⟩ := w.frame isFrame
  have distinct := fits.nodup_keys (w.table isTable).2
  refine .activation (Frame.nodup_keys few distinct own) fun key => ?_
  simp [Heap.has, isFrame, Frame.mem_keys]

end WellFormed

theorem presence_reads_and_keys_agree (reachable : h.Reachable) (has : h.Has o)
    (countable : ∀ {id f}, o.frame? = some id → h.frame id = .ok f → f.Countable) : h.Coherent o := by
  have w := reachable.wellFormed
  constructor
  · intro key
    obtain ⟨value, read, present⟩ := w.isSome_read has key
    obtain ⟨h', got⟩ := get_eq_ok.2 read
    exact ⟨value, h', got, present⟩
  · cases o with
    | ordinary id =>
      obtain ⟨s, isObject⟩ := has
      exact ⟨s.keys, by simp [Heap.keys, isObject], w.lists_ordinary isObject⟩
    | arguments id =>
      obtain ⟨a, isObject⟩ := has
      obtain ⟨f, isFrame, rfl⟩ := frame_of_argumentsObject isObject
      refine ⟨f.object.keys, by simp [Heap.keys, isObject], .arguments ?_ ?_⟩
      · exact Call.exists_ran reachable isFrame
      · rintro c ops rfl ran
        obtain ⟨_, f', isFrame', inv⟩ := ran.invariant
        obtain rfl := Except.ok.inj (isFrame.symm.trans isFrame')
        have short : f.args.size < UInt32.size :=
          Nat.lt_trans (countable rfl isFrame).args (by decide)
        exact ArgumentsObject.keys_of_few inv.size (inv.size ▸ short)
    | activation id =>
      obtain ⟨f, isFrame⟩ := has
      obtain ⟨c, ops, rfl, ran⟩ := Call.exists_ran reachable isFrame
      obtain ⟨_, f', isFrame', inv⟩ := ran.invariant
      obtain rfl := Except.ok.inj (isFrame.symm.trans isFrame')
      have few := (countable rfl isFrame).bindings
      refine ⟨f.keys, by simp [Heap.keys, isFrame], w.lists_activation isFrame few fun key mem => ?_⟩
      rw [f.resolve?_eq, inv.function]
      rw [ran.ownKeys isFrame] at mem
      exact Call.resolve?_of_mem_ownEdits mem

/-- In a full table: a dictionary, an arguments object whose first argument was deleted, and the frame of
that call, which hides a parameter and has a property of its own. -/
theorem presence_reads_and_keys_agree_in_full_table : ∃ h, Reachable h ∧
    h.Coherent (.ordinary ⟨0⟩) ∧ h.keys (.ordinary ⟨0⟩) = .ok [.name "y"] ∧
    h.Coherent (.arguments ⟨0⟩) ∧ h.keys (.arguments ⟨0⟩) = .ok [.index 0, .index 1] ∧
    h.has (.arguments ⟨0⟩) (.index 0) = .ok false ∧
    h.Coherent (.activation ⟨0⟩) ∧
    h.keys (.activation ⟨0⟩) = .ok [.name "a", .name "arguments", .name "x"] := by
  let code : Function := { paramNames := ["a", "a"] }
  obtain ⟨h, ran, ordinary, keys, arguments, indices, deleted⟩ : ∃ h,
      Call.Ran ⟨⟨0⟩, { id := ⟨0⟩, code }, #[.null, .undefined]⟩ [
        .deleteArgument ⟨0⟩ 0, .arguments ⟨0⟩, .put (.activation ⟨0⟩) (.name "x") .null] h ∧
      (∃ s, h.object ⟨0⟩ = .ok s) ∧ h.keys (.ordinary ⟨0⟩) = .ok [.name "y"] ∧
      (∃ a, h.argumentsObject ⟨0⟩ = .ok a) ∧ h.keys (.arguments ⟨0⟩) = .ok [.index 0, .index 1] ∧
      h.has (.arguments ⟨0⟩) (.index 0) = .ok false :=
    ⟨_, Call.ran_afterAll ⟨0⟩ .null
      [.put (.ordinary ⟨0⟩) (.name "y") .null, .makeObject ⟨0⟩, .makeTable { maxShapes := 1 }] _
      (by decide +kernel) (by decide +kernel), by decide +kernel, by decide +kernel, by decide +kernel,
      by decide +kernel, by decide +kernel⟩
  obtain ⟨_, f, isFrame, inv⟩ := ran.invariant
  have countable {o : ObjectRef} {id : FrameId} {f' : Frame} (here : o.frame? = some id)
      (only : o.frame? = some ⟨0⟩) (isFrame' : h.frame id = .ok f') : f'.Countable := by
    cases here.symm.trans only
    cases isFrame.symm.trans isFrame'
    exact ⟨by rw [inv.function]; decide, by rw [inv.size]; decide⟩
  have bound : f.function.code.boundKeys = [.name "a", .name "arguments"] :=
    Function.boundKeys_eq_of_sorted [(.name "a", 1), (.name "arguments", argumentsIndex)]
      (by rw [inv.function]; decide) (inv.function ▸ by decide +kernel) (by decide)
  have own : f.properties.keys = [.name "x"] := (ran.ownKeys isFrame).trans (by decide +kernel)
  refine ⟨h, ran.reachable, ?_, keys, ?_, indices, deleted, ?_, ?_⟩
  · exact presence_reads_and_keys_agree ran.reachable ordinary nofun
  · exact presence_reads_and_keys_agree ran.reachable arguments fun here => countable here rfl
  · exact presence_reads_and_keys_agree ran.reachable ⟨f, isFrame⟩ fun here => countable here rfl
  · rw [keys_activation isFrame, bound, own]
    rfl

end Heap

end ShapeVM
