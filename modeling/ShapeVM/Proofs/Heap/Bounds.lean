import ShapeVM.Proofs.Cache.AfterAccess
import ShapeVM.Proofs.Heap.HandedOut
import ShapeVM.Proofs.Heap.Progress
import ShapeVM.Proofs.Heap.Evaluation

/-!
Accesses by position. In a heap that a run leads to, every access that is made by position is inside:
to a slot by the offset of a key or by a remembered location, to a binding, to an argument, to a flag
of a deleted index. The one read that is out of range for some callers is that of a slot by a number of
their own, and it is so exactly past the slots of a shaped store.
-/
namespace ShapeVM

/-! ## Stores -/

namespace PropertyStore

variable {s : PropertyStore} {t : ShapeTable}

/-- The accesses of a store to its slots, and what reading a slot by a number gives. The number can be
out of range, and then nothing happened: reading gives no store back. -/
structure InBounds (s : PropertyStore) (t : ShapeTable) : Prop where
  offset : ∀ {shape slots key offset}, s.layout = .shaped shape slots →
    shape.offset? key = some offset → offset.toNat < slots.size
  lookup : ∀ key, ∃ found, s.lookup key = .ok found
  insert : ∀ key value, ∃ s' t' place?, s.insertLocated t key value = .ok (s', t', place?) ∧
    ∀ {place shape slots}, place? = some place → s'.layout = .shaped shape slots →
      place.offset.toNat < slots.size
  slot : ∀ {offset fault}, s.slot offset = .error fault ↔
    s.isDictionary = false ∧ s.size ≤ offset.toNat ∧ fault = .outOfRange s.size offset.toNat
  dictionary : s.isDictionary = true → ∀ offset, s.slot offset = .ok .undefined

theorem Fits.slot_eq_error_iff (fits : s.Fits t) {offset : UInt32} {fault : Fault} :
    s.slot offset = .error fault ↔
      s.isDictionary = false ∧ s.size ≤ offset.toNat ∧ fault = .outOfRange s.size offset.toNat := by
  obtain ⟨table, layout⟩ := s
  cases layout with
  | dictionary entries => exact ⟨nofun, nofun⟩
  | shaped shape slots =>
    have sized : slots.size = shape.size := fits.sized rfl
    rw [slot, readAt_eq_error, sized]
    exact ⟨fun outside => ⟨rfl, outside⟩, fun both => both.2⟩

theorem Fits.inBounds (fits : s.Fits t) (w : t.WellFormed) : s.InBounds t where
  offset layout found := fits.sized layout ▸ Shape.offset?_lt found
  lookup key := by
    obtain ⟨found, searched, _⟩ := fits.lookup key
    exact ⟨found, searched⟩
  insert key value := by
    obtain ⟨s', t', place?, done, spec⟩ := fits.insertLocated w key value
    refine ⟨s', t', place?, done, fun {place shape slots} located layout => ?_⟩
    obtain ⟨isShape, keeps⟩ := spec.located located
    rw [shape?, layout] at isShape
    obtain rfl := Option.some.inj isShape
    exact spec.fits.sized layout ▸ Shape.offset?_lt keeps
  slot := fits.slot_eq_error_iff
  dictionary isDictionary offset := by
    obtain ⟨table, layout⟩ := s
    cases layout with
    | dictionary entries => rfl
    | shaped shape slots => cases isDictionary

end PropertyStore

/-! ## Locations -/

/-- The accesses that a remembered location serves. -/
structure Location.InBounds (place : Location) (s : PropertyStore) : Prop where
  offset : ∀ {shape slots}, s.layout = .shaped shape slots → shape.same place.shape = true →
    place.offset.toNat < slots.size
  read : ∃ served, s.readLocated place = .ok served
  write : ∀ value, ∃ served, s.writeLocated place value = .ok served

theorem Cache.UsableOn.inBounds {c : Cache} {s : PropertyStore} {t : ShapeTable} {place : Location}
    (usable : c.UsableOn s) (fits : s.Fits t) (bound : c.binding = some place) : place.InBounds s where
  offset {shape slots} layout same := by
    obtain ⟨keeps, recognizes⟩ := usable bound
    have isShape : s.shape? = some shape := by rw [PropertyStore.shape?, layout]
    obtain rfl := recognizes isShape same
    exact fits.sized layout ▸ Shape.offset?_lt keeps
  read := by
    obtain ⟨keeps, recognizes⟩ := usable bound
    obtain ⟨served, read, _⟩ := fits.readLocated recognizes keeps
    exact ⟨served, read⟩
  write value := by
    obtain ⟨keeps, recognizes⟩ := usable bound
    obtain ⟨served, written, _⟩ := fits.writeLocated recognizes keeps value
    exact ⟨served, written⟩

/-! ## Frames and arguments objects -/

/-- The accesses of a frame to its arguments and to its slots. -/
structure Frame.InBounds (f : Frame) : Prop where
  argument : ∀ {i}, i < f.localsStart → ∃ value, f.args.get? i.toNat = some value
  slot : ∀ {i}, f.localsStart ≤ i → i < f.bindingCount → f.slotIndex i < f.locals.size
  get : ∀ i, ∃ value, f.get i = .ok value
  set : ∀ i value, ∃ f', f.set i value = .ok f'
  setConst : ∀ i value, ∃ f', f.setConst i value = .ok f'
  isConst : ∀ i, ∃ answer, f.isConst i = .ok answer

theorem Frame.WellFormed.inBounds {f : Frame} (w : f.WellFormed) : f.InBounds where
  argument inside := w.argument inside
  slot start inside := w.slotIndex_lt (UInt32.not_lt.2 start) inside
  get := w.get
  set i value := by
    obtain ⟨f', done, _⟩ := w.set i value
    exact ⟨f', done⟩
  setConst i value := by
    obtain ⟨f', done, _⟩ := w.setConst i value
    exact ⟨f', done⟩
  isConst := w.isConst

namespace ArgumentsObject

variable {a : ArgumentsObject} {t : ShapeTable}

/-- The accesses of an arguments object to the flags of its deleted indices. -/
structure InBounds (a : ArgumentsObject) : Prop where
  flag : ∀ {i : UInt32} {flags}, i.toNat < a.size → a.deleted = some flags → i.toNat < flags.size
  isLinked : ∀ i, ∃ answer, a.isLinked i = .ok answer
  getIndex : ∀ i, ∃ value, a.getIndex i = .ok value
  hasIndex : ∀ i, ∃ answer, a.hasIndex i = .ok answer
  deleteIndex : ∀ i, ∃ a', a.deleteIndex i = .ok (a', true)
  descriptor : ∀ i, ∃ descriptor, a.descriptor? i = .ok descriptor

theorem WellFormed.has (w : a.WellFormed) (key : Key) : ∃ answer, a.has key = .ok answer := by
  cases key with
  | name s => exact ⟨_, rfl⟩
  | index i =>
    exact ⟨a.linked i || a.properties.contains (.index i),
      by simp [ArgumentsObject.has, hasIndex, w.isLinked]⟩

theorem WellFormed.descriptor? (w : a.WellFormed) (fits : a.properties.Fits t) (i : UInt32) :
    ∃ descriptor, a.descriptor? i = .ok descriptor := by
  obtain ⟨own, found⟩ := fits.get? (.index i)
  rw [ArgumentsObject.descriptor?, w.isLinked, Checked.ok_bind, found]
  split
  · exact ⟨_, rfl⟩
  · exact ⟨_, rfl⟩

theorem WellFormed.inBounds (w : a.WellFormed) (fits : a.properties.Fits t) : a.InBounds where
  flag inside isFlags := w isFlags ▸ inside
  isLinked i := ⟨_, w.isLinked i⟩
  getIndex i := w.get? fits (.index i)
  hasIndex i := w.has (.index i)
  deleteIndex i := by
    obtain ⟨a', done, _⟩ := w.delete (.index i)
    exact ⟨a', done⟩
  descriptor := w.descriptor? fits

end ArgumentsObject

/-! ## Heaps -/

namespace Heap

variable {h : Heap}

theorem WellFormed.has (w : h.WellFormed) (o : ObjectRef) (key : Key) (has : h.Has o) :
    ∃ answer, h.has o key = .ok answer := by
  cases o with
  | ordinary id =>
    obtain ⟨s, isObject⟩ := has
    exact ⟨s.contains key, by simp [Heap.has, isObject]⟩
  | arguments id =>
    obtain ⟨a, isObject⟩ := has
    obtain ⟨f, isFrame, rfl⟩ := frame_of_argumentsObject isObject
    obtain ⟨answer, found⟩ := (w.frame isFrame).frame.object.has key
    exact ⟨answer, by simp [Heap.has, isObject, found]⟩
  | activation id =>
    obtain ⟨f, isFrame⟩ := has
    exact ⟨f.hasKey key, by simp [Heap.has, isFrame]⟩

theorem keys_eq_ok (o : ObjectRef) (has : h.Has o) : ∃ keys, h.keys o = .ok keys := by
  cases o with
  | ordinary id =>
    obtain ⟨s, isObject⟩ := has
    exact ⟨s.keys, by simp [Heap.keys, isObject]⟩
  | arguments id =>
    obtain ⟨a, isObject⟩ := has
    exact ⟨a.keys, by simp [Heap.keys, isObject]⟩
  | activation id =>
    obtain ⟨f, isFrame⟩ := has
    exact ⟨f.keys, by simp [Heap.keys, isFrame]⟩

/-- Every operation on things that are there is performed, and every access that it makes by position
is inside. -/
structure WithinBounds (h : Heap) : Prop where
  perform : ∀ {op}, h.Names op → ∃ h', h.perform op = .ok h'
  fault : ∀ {op fault}, h.perform op = .error fault → fault = .dangling
  query : ∀ {o} key, h.Has o → ∃ value present keys,
    h.read o key = .ok value ∧ h.has o key = .ok present ∧ h.keys o = .ok keys
  store : ∀ {s}, h.HasStore s → ∃ t, h.table s.table = .ok t ∧ s.InBounds t
  cache : ∀ {ref c place id s}, h.cache? ref = some c → c.binding = some place →
    h.object id = .ok s → place.InBounds s
  frame : ∀ {id f}, h.frame id = .ok f → f.InBounds
  arguments : ∀ {id a}, h.argumentsObject id = .ok a → a.InBounds

theorem every_access_within_bounds (reachable : h.Reachable) : h.WithinBounds := by
  have w := reachable.wellFormed
  refine ⟨w.perform, w.perform_eq_error, fun {o} key has => ?_, fun {s} has => ?_,
    fun {ref c place id s} isCache bound isObject => ?_,
    fun {id f} isFrame => (w.frame isFrame).frame.inBounds, fun {id a} isObject => ?_⟩
  · obtain ⟨value, read⟩ := w.read o key has
    obtain ⟨present, found⟩ := w.has o key has
    obtain ⟨keys, listed⟩ := keys_eq_ok o has
    exact ⟨value, present, keys, read, found, listed⟩
  · obtain ⟨t, isTable, fits⟩ := w.fits has
    exact ⟨t, isTable, fits.inBounds (w.table isTable).2⟩
  · obtain ⟨t, _, fits⟩ := w.object isObject
    have usable := w.usableOn (w.object isObject) (w.cache isCache)
    exact usable.inBounds fits bound
  · obtain ⟨f, isFrame, rfl⟩ := frame_of_argumentsObject isObject
    obtain ⟨t, _, fits⟩ := (w.frame isFrame).object
    exact (w.frame isFrame).frame.object.inBounds fits

/-- A shaped object with a slot that its cache remembers, an object that a deletion made a dictionary,
and a frame with a supplied and a missing parameter, the first of which was deleted from the arguments
object. -/
theorem every_access_within_bounds_of_each : ∃ h s d f a c place, Reachable h ∧
    h.object ⟨0⟩ = .ok s ∧ s.slot 0 = .ok .null ∧ s.slot 1 = .error (.outOfRange 1 1) ∧
    h.object ⟨1⟩ = .ok d ∧ d.slot 1 = .ok .undefined ∧
    h.cache? (.single ⟨0⟩) = some c ∧ c.binding = some place ∧
    h.frame ⟨0⟩ = .ok f ∧ f.localsStart = 1 ∧ f.bindingCount = 2 ∧
    h.argumentsObject ⟨0⟩ = .ok a ∧ a.deleted = some #[true] ∧ h.WithinBounds := by
  obtain ⟨h, runs, ⟨s, isShaped, inside, outside⟩, ⟨d, isDictionary, slot⟩, ⟨c, isCache, bound⟩,
      ⟨f, isFrame, start, count⟩, a, isArguments, deleted⟩ : ∃ h, Runs {} [
        .delete (.arguments ⟨0⟩) (.index 0), .arguments ⟨0⟩,
        .makeFrame ⟨0⟩ { id := ⟨0⟩, code := { paramNames := ["p", "q"] } } #[.null] .undefined,
        .delete (.ordinary ⟨1⟩) (.name "x"), .put (.ordinary ⟨1⟩) (.name "x") .null,
        .fetch (.single ⟨0⟩) ⟨0⟩, .makeCache (.name "x"), .put (.ordinary ⟨0⟩) (.name "x") .null,
        .makeObject ⟨0⟩, .makeObject ⟨0⟩, .makeTable {}] h ∧
      (∃ s, h.object ⟨0⟩ = .ok s ∧ s.slot 0 = .ok .null ∧ s.slot 1 = .error (.outOfRange 1 1)) ∧
      (∃ d, h.object ⟨1⟩ = .ok d ∧ d.slot 1 = .ok .undefined) ∧
      (∃ c, h.cache (.single ⟨0⟩) = .ok c ∧ c.binding.isSome = true) ∧
      (∃ f, h.frame ⟨0⟩ = .ok f ∧ f.localsStart = 1 ∧ f.bindingCount = 2) ∧
      ∃ a, h.argumentsObject ⟨0⟩ = .ok a ∧ a.deleted = some #[true] :=
    ⟨_, runs_afterAll (by decide +kernel), by decide +kernel, by decide +kernel, by decide +kernel,
      by decide +kernel, by decide +kernel⟩
  obtain ⟨place, bound⟩ := Option.isSome_iff_exists.1 bound
  exact ⟨h, s, d, f, a, c, place, ⟨_, runs⟩, isShaped, inside, outside, isDictionary, slot,
    cache_eq_ok.1 isCache, bound, isFrame, start, count, isArguments, deleted,
    every_access_within_bounds ⟨_, runs⟩⟩

end Heap

end ShapeVM
