import ShapeVM.Proofs.Cache.AfterAccess
import ShapeVM.Proofs.Heap.Layouts
import ShapeVM.Proofs.Properties.Apart
import ShapeVM.Proofs.Properties.Lookup
import ShapeVM.Proofs.Heap.Evaluation

/-!
Locations of properties. The location of a property is the shape of the object and the offset of the
key in it. It is what a look-up reports, what a write returns and what a cache remembers, and the slot
to which it leads has what reading the key gives. As a shape that follows another only adds to it, a
property keeps its offset for as long as its object has a shape (`locations_are_coherent`).
-/
namespace ShapeVM.Heap

variable {h h' : Heap} {ops : List Operation} {o : ObjectId} {s s' : PropertyStore} {t t' : ShapeTable}
  {shape shape' : Shape} {key : Key} {value : Value} {offset : UInt32}

/-! ## Offsets over time -/

theorem Follows.offset? (follows : Follows (some shape') (some shape)) (w : t.WellFormed)
    (held : t.Holds shape') (isOffset : shape.offset? key = some offset) :
    shape'.offset? key = some offset := by
  cases follows with
  | kept => exact isOffset
  | child isChild =>
    cases shape' with
    | root table => cases isChild
    | child parent id last =>
      cases isChild
      have mem := Shape.mem_keys.2 (Shape.contains_of_offset? isOffset)
      rw [(w.distinct held).offset?_of_mem_parent mem, isOffset]

/-- Between two times at which an object has a shape it has had one all along. -/
theorem Runs.offset? (runs : h.Runs ops h') (w : h.WellFormed) (isObject : h.object o = .ok s)
    (isObject' : h'.object o = .ok s') (isShape : s.shape? = some shape)
    (isShape' : s'.shape? = some shape') (isOffset : shape.offset? key = some offset) :
    shape'.offset? key = some offset := by
  induction runs generalizing s' shape' with
  | start =>
    obtain rfl := Except.ok.inj (isObject.symm.trans isObject')
    obtain rfl := Option.some.inj (isShape.symm.trans isShape')
    exact isOffset
  | @step ops before op h' runs step ih =>
    obtain ⟨w, grows⟩ := runs.preserved w
    obtain ⟨s₁, isObject₁, _⟩ := grows.object isObject
    obtain ⟨_, found, relaid⟩ := w.relaid isObject₁ step
    obtain rfl := Except.ok.inj (isObject'.symm.trans found)
    have follows := relaid.follows (w.object isObject₁)
    rw [isShape'] at follows
    cases isShape₁ : s₁.shape? with
    | none =>
      -- No shape follows a dictionary, so the object cannot have lost its shape on the way.
      rw [isShape₁] at follows
      cases follows
    | some shape₁ =>
      rw [isShape₁] at follows
      have w' := (step.effect.preserved w).wellFormed
      obtain ⟨t, isTable, fits⟩ := w'.object isObject'
      exact follows.offset? (w'.table isTable).2 (fits.holds isShape') (ih isObject₁ isShape₁)

/-! ## Locations that a write returns -/

/-- Writing the key of the object leaves the store `s'` and returns the location `place?`. -/
structure PutAt (h : Heap) (o : ObjectId) (s : PropertyStore) (key : Key) (value : Value)
    (s' : PropertyStore) (place? : Option Location) : Prop where
  inserted : ∃ t t', h.table s.table = .ok t ∧ s.insertLocated t key value = .ok (s', t', place?)
  put : ∃ h', h.put (.ordinary o) key value = .ok h' ∧ h'.object o = .ok s'
  found : ∃ found, s'.lookup key = .ok found ∧ found.location? = place?
  dictionary : place? = none ↔ s'.isDictionary = true
  /-- A cache through which the key is written then remembers the location. -/
  bound : ∀ {ref c}, h.cache? ref = some c → c.key = key → ∃ h' c', h.store ref o value = .ok h' ∧
    h'.object o = .ok s' ∧ h'.cache? ref = some c' ∧ c'.binding = place?

theorem WellFormed.putAt (w : h.WellFormed) (isObject : h.object o = .ok s) (key : Key) (value : Value) :
    ∃ s' place?, h.PutAt o s key value s' place? := by
  obtain ⟨t, isTable, fits⟩ := w.object isObject
  have wt := (w.table isTable).2
  obtain ⟨s', t', place?, inserted, spec⟩ := fits.insertLocated wt key value
  have done := PropertyStore.insert_eq_ok.2 ⟨_, inserted⟩
  obtain ⟨found, searched, located⟩ := fits.lookup_of_insertLocated wt inserted
  have isObject' : ((h.setTable t').setObject o s').object o = .ok s' :=
    (object_setObject (h := h.setTable t') isObject s' o).trans (if_pos rfl)
  refine ⟨s', place?, ⟨t, t', isTable, inserted⟩, ⟨_, ?_, isObject'⟩, ⟨found, searched, located⟩, ?_, ?_⟩
  · simp [Heap.put, isObject, isTable, done]
  · rw [PropertyStore.isDictionary, Option.isNone_iff_eq_none]
    constructor
    · rintro rfl
      exact PropertyStore.shape?_of_insertLocated inserted
    · intro noShape
      cases place? with
      | none => rfl
      | some place => cases noShape.symm.trans (spec.located rfl).1
  · rintro ref c isCache rfl
    have usable := w.usableOn (w.object isObject) (w.cache isCache)
    obtain ⟨s₁, t₁, found₁, stored, searched₁⟩ := Cache.store_eq_accessed usable fits wt value
    obtain ⟨_, _, _, stored', done', _⟩ := Cache.store_eq_insert usable fits wt value
    cases stored.symm.trans stored'
    cases done.symm.trans done'
    cases searched.symm.trans searched₁
    refine ⟨((h.setTable t').setObject o s').setCache ref (c.accessed (c.serves s) found.location?),
      c.accessed (c.serves s) found.location?, ?_, ?_, ?_, ?_⟩
    · simp [Heap.store, cache_eq_ok.2 isCache, isObject, isTable, stored]
    · rw [object_setCache, isObject']
    · exact (cache?_setCache (h := (h.setTable t').setObject o s') isCache _ ref).trans (if_pos rfl)
    · rw [Cache.binding_accessed, located]

/-! ## Objects -/

/-- The ways to the properties of an object agree. -/
structure Locates (h : Heap) (o : ObjectId) (s : PropertyStore) : Prop where
  get : ∀ key, ∃ value, s.get? key = .ok value ∧ h.get (.ordinary o) key = .ok (value, h) ∧
    h.has (.ordinary o) key = .ok (s.contains key) ∧ s.contains key = value.isSome
  lookup : ∀ key, ∃ found, s.lookup key = .ok found ∧ s.Reports key found
  slot : ∀ {shape offset}, s.shape? = some shape → offset.toNat < s.size →
    ∃ key value, shape.keys[offset.toNat]? = some key ∧ s.KeepsAt key offset value
  later : ∀ {ops h' s'}, h.Runs ops h' → h'.object o = .ok s' → s'.isDictionary = false →
    ∀ {key offset value}, s.KeepsAt key offset value →
      ∃ value', s'.KeepsAt key offset value'
  put : ∀ key value, ∃ s' place?, h.PutAt o s key value s' place?

theorem locations_are_coherent (reachable : h.Reachable) (isObject : h.object o = .ok s)
    (isTable : h.table s.table = .ok t) (addressable : t.Addressable) : h.Locates o s := by
  have w := reachable.wellFormed
  obtain ⟨_, found, fits⟩ := w.object isObject
  obtain rfl := Except.ok.inj (isTable.symm.trans found)
  have wt := (w.table isTable).2
  refine ⟨fun key => ?_, fits.reports wt addressable, fits.keepsAt_of_lt wt addressable, ?_,
    w.putAt isObject⟩
  · obtain ⟨value, got, present⟩ := fits.isSome_get? key
    exact ⟨value, got, by simp [Heap.get, Heap.read, isObject, got], by simp [Heap.has, isObject],
      present⟩
  · intro ops h' s' runs isObject' shaped key offset value keeps
    obtain ⟨w', grows⟩ := runs.preserved w
    obtain ⟨shape, isShape, isOffset, _⟩ := keeps.shaped
    obtain ⟨shape', isShape'⟩ := PropertyStore.isDictionary_eq_false_iff.1 shaped
    have isOffset' := runs.offset? w isObject isObject' isShape isShape' isOffset
    obtain ⟨_, found, sameTable⟩ := grows.object isObject
    obtain rfl := Except.ok.inj (isObject'.symm.trans found)
    obtain ⟨t', isTable', grown⟩ := grows.table isTable
    obtain ⟨_, found, fits'⟩ := w'.object isObject'
    rw [sameTable] at found
    obtain rfl := Except.ok.inj (isTable'.symm.trans found)
    obtain ⟨value', _, keeps'⟩ :=
      fits'.keepsAt (w'.table isTable').2 (addressable.extends grown) isShape' isOffset'
    exact ⟨value', keeps'⟩

/-- Of an object with two keys the second is overwritten through a cache, which that binds. -/
theorem locations_are_coherent_of_two_keys : ∃ h s t, Reachable h ∧ h.object ⟨0⟩ = .ok s ∧
    h.table s.table = .ok t ∧ t.Addressable ∧ s.keys = [.name "x", .name "y"] ∧
    s.KeepsAt (.name "y") 1 (.boolean true) ∧ h.Locates ⟨0⟩ s := by
  obtain ⟨h, runs, s, isObject, keys, shaped, slot, got, t, isTable, addressable⟩ : ∃ h, Runs {} [
      .store (.single ⟨0⟩) ⟨0⟩ (.boolean true), .makeCache (.name "y"),
      .put (.ordinary ⟨0⟩) (.name "y") .undefined, .put (.ordinary ⟨0⟩) (.name "x") .null,
      .makeObject ⟨0⟩, .makeTable {}] h ∧
      ∃ s, h.object ⟨0⟩ = .ok s ∧ s.keys = [.name "x", .name "y"] ∧
        (∃ shape, s.shape? = some shape ∧ shape.offset? (.name "y") = some 1 ∧
          shape.keys[1]? = some (.name "y")) ∧
        s.slot 1 = .ok (.boolean true) ∧ s.get? (.name "y") = .ok (some (.boolean true)) ∧
        ∃ t, h.table s.table = .ok t ∧ t.Addressable :=
    ⟨_, runs_afterAll (by decide +kernel), by decide +kernel⟩
  exact ⟨h, s, t, ⟨_, runs⟩, isObject, isTable, addressable, keys, ⟨shaped, slot, got⟩,
    locations_are_coherent ⟨_, runs⟩ isObject isTable addressable⟩

end ShapeVM.Heap
