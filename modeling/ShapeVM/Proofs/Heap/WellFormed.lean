import ShapeVM.Proofs.Cache.Access
import ShapeVM.Proofs.Frame.Bindings
import ShapeVM.Proofs.Heap.Effect

/-!
The invariant of heaps. Each table is a trie, each store fits the table it names, each frame is
well-formed with stores that fit, and each cache is bound to a location where objects of a shape that
some table has handed out keep its key (`WellFormed`). An operation keeps all of it, and never takes
back a table, an object or a cache (`Grows`).
-/
namespace ShapeVM.Heap

variable {h h' h'' : Heap}

/-! ## Growth -/

/-- The heap `h'` is `h` at a later time. -/
structure Grows (h h' : Heap) : Prop where
  table : ∀ {id t}, h.table id = .ok t → ∃ t', h'.table id = .ok t' ∧ t.Extends t'
  object : ∀ {id s}, h.object id = .ok s → ∃ s', h'.object id = .ok s' ∧ s'.table = s.table
  cache : ∀ {ref c}, h.cache? ref = some c → ∃ c', h'.cache? ref = some c' ∧ c'.key = c.key

namespace Grows

theorem rfl : h.Grows h where
  table found := ⟨_, found, .rfl⟩
  object found := ⟨_, found, .refl _⟩
  cache found := ⟨_, found, .refl _⟩

theorem trans (grows : h.Grows h') (grows' : h'.Grows h'') : h.Grows h'' where
  table found := by
    obtain ⟨t', found', le⟩ := grows.table found
    obtain ⟨t'', found'', le'⟩ := grows'.table found'
    exact ⟨t'', found'', le.trans le'⟩
  object found := by
    obtain ⟨s', found', eq⟩ := grows.object found
    obtain ⟨s'', found'', eq'⟩ := grows'.object found'
    exact ⟨s'', found'', eq'.trans eq⟩
  cache found := by
    obtain ⟨c', found', eq⟩ := grows.cache found
    obtain ⟨c'', found'', eq'⟩ := grows'.cache found'
    exact ⟨c'', found'', eq'.trans eq⟩

/-- Frames and functions are free to change. -/
theorem of_eq (tables : h'.tables = h.tables) (objects : h'.objects = h.objects)
    (caches : h'.cache? = h.cache?) : h.Grows h' where
  table found := ⟨_, (congrArg (resolve · _) tables).trans found, .rfl⟩
  object found := ⟨_, (congrArg (resolve · _) objects).trans found, .refl _⟩
  cache found := ⟨_, (congrFun caches _).trans found, .refl _⟩

end Grows

/-! ## What things of a heap refer to -/

/-- The store fits the table that it names. -/
def Fits (h : Heap) (s : PropertyStore) : Prop := ∃ t, h.table s.table = .ok t ∧ s.Fits t

/-- The location's shape is one that its table has handed out. -/
def Knows (h : Heap) (place : Location) : Prop :=
  ∃ t, h.table place.shape.table = .ok t ∧ t.Holds place.shape

/-- A cache that may be used on the objects of the heap. -/
def Serves (h : Heap) (c : Cache) : Prop :=
  ∀ ⦃place⦄, c.binding = some place → h.Knows place ∧ place.Keeps c.key

/-- An arguments object that is there is that of its frame. -/
theorem frame_of_argumentsObject {id : FrameId} {a : ArgumentsObject}
    (isObject : h.argumentsObject id = .ok a) : ∃ f, h.frame id = .ok f ∧ f.object = a := by
  obtain ⟨f, isFrame, built⟩ := argumentsObject_eq_ok.1 isObject
  exact ⟨f, isFrame, Frame.object_of_argumentsObject? built⟩

structure FrameFits (h : Heap) (id : FrameId) (f : Frame) : Prop where
  id : f.id = id
  frame : f.WellFormed
  properties : h.Fits f.properties
  object : h.Fits f.object.properties

theorem Fits.erase {s : PropertyStore} (fits : h.Fits s) (key : Key) : h.Fits (s.erase key).1 := by
  obtain ⟨t, found, fits⟩ := fits
  exact ⟨t, by rwa [PropertyStore.table_erase], fits.erase key⟩

section

variable (grows : h.Grows h')
include grows

theorem Fits.grow {s : PropertyStore} (fits : h.Fits s) : h'.Fits s := by
  obtain ⟨t, found, fits⟩ := fits
  obtain ⟨t', found', le⟩ := grows.table found
  exact ⟨t', found', fits.extends le⟩

theorem Serves.grow {c : Cache} (serves : h.Serves c) : h'.Serves c := by
  intro place bound
  obtain ⟨⟨t, found, held⟩, keeps⟩ := serves bound
  obtain ⟨t', found', le⟩ := grows.table found
  exact ⟨⟨t', found', held.extends le⟩, keeps⟩

theorem FrameFits.grow {id : FrameId} {f : Frame} (fits : h.FrameFits id f) : h'.FrameFits id f where
  id := fits.id
  frame := fits.frame
  properties := fits.properties.grow grows
  object := fits.object.grow grows

end

namespace FrameFits

variable {id : FrameId} {f f' : Frame}

theorem withArguments (fits : h.FrameFits id f) : h.FrameFits id f.withArguments where
  id := f.id_withArguments.trans fits.id
  frame := fits.frame.withArguments
  properties := by
    rw [Frame.withArguments_eq]
    exact fits.properties
  object := by
    rw [Frame.object_withArguments]
    exact fits.object

theorem assigned {i : UInt32} {args : ArgumentList} (fits : h.FrameFits id f)
    (done : f.Assigned i args f') (sized : args.size = f.args.size) : h.FrameFits id f' where
  id := by
    obtain ⟨_, _, rfl⟩ := done.frame
    exact fits.id
  frame := done.wellFormed sized fits.frame
  properties := by
    obtain ⟨_, _, rfl⟩ := done.frame
    exact fits.properties
  object := by
    rw [done.object_eq sized]
    exact fits.object

theorem setProperties {properties : PropertyStore} (fits : h.FrameFits id f)
    (fits' : h.Fits properties) : h.FrameFits id { f with properties } :=
  ⟨fits.id, ⟨fits.frame.localsStart_le, fits.frame.sized, fits.frame.object⟩, fits', fits.object⟩

theorem setParent (fits : h.FrameFits id f) (parent : FrameId) :
    h.FrameFits id { f with parent := some parent } :=
  ⟨fits.id, ⟨fits.frame.localsStart_le, fits.frame.sized, fits.frame.object⟩, fits.properties,
    fits.object⟩

theorem setArgumentsObject {a : ArgumentsObject} (fits : h.FrameFits id f) (w : a.WellFormed)
    (sized : a.args.size = f.args.size) (fits' : h.Fits a.properties) :
    h.FrameFits id (f.setArgumentsObject a) :=
  ⟨fits.id, fits.frame.setArgumentsObject w sized, fits.properties, fits'⟩

end FrameFits

/-! ## The invariant -/

structure WellFormed (h : Heap) : Prop where
  table : ∀ {id t}, h.table id = .ok t → t.id = id ∧ t.WellFormed
  object : ∀ {id s}, h.object id = .ok s → h.Fits s
  frame : ∀ {id f}, h.frame id = .ok f → h.FrameFits id f
  cache : ∀ {ref c}, h.cache? ref = some c → h.Serves c

theorem wellFormed_empty : ({} : Heap).WellFormed where
  table found := by simp [Heap.table, resolve] at found
  object found := by simp [Heap.object, resolve] at found
  frame found := by simp [Heap.frame, resolve] at found
  cache {ref c} found := by cases ref <;> simp [cache?] at found

/-- What becomes of a well-formed heap. -/
structure Preserved (h h' : Heap) : Prop where
  wellFormed : h'.WellFormed
  grows : h.Grows h'

theorem Preserved.trans (kept : h.Preserved h') (kept' : h'.Preserved h'') : h.Preserved h'' :=
  ⟨kept'.wellFormed, kept.grows.trans kept'.grows⟩

namespace WellFormed

variable (w : h.WellFormed)
include w

theorem unchanged : h.Preserved h := ⟨w, .rfl⟩

/-- A table that refuses is put back as it was. -/
theorem setTable_of_refused {id : TableId} {t t' : ShapeTable} {shape : Shape} {key : Key}
    {refusal : Refusal} (found : h.table id = .ok t)
    (failed : t.transition shape key = (.error refusal, t')) : h.setTable t' = h := by
  obtain ⟨rfl, _⟩ := w.table found
  rw [ShapeTable.eq_of_transition_eq_error failed]
  exact setTable_self found

/-! ### Replacing -/

theorem setTable {t t' : ShapeTable} (found : h.table t.id = .ok t) (w' : t'.WellFormed)
    (le : t.Extends t') : h.Preserved (h.setTable t') := by
  have at_id : h.table t'.id = .ok t := le.id ▸ found
  have grows : h.Grows (h.setTable t') := by
    refine ⟨fun {id t₀} found₀ => ?_, fun found => ⟨_, found, .refl _⟩,
      fun found => ⟨_, found, .refl _⟩⟩
    rw [table_setTable at_id]
    by_cases same : id = t'.id
    · subst same
      obtain rfl := Except.ok.inj (at_id.symm.trans found₀)
      exact ⟨t', if_pos rfl, le⟩
    · exact ⟨t₀, (if_neg same).trans found₀, .rfl⟩
  refine ⟨⟨fun {id t₀} found₀ => ?_, fun found => (w.object found).grow grows,
    fun found => (w.frame found).grow grows, fun found => (w.cache found).grow grows⟩, grows⟩
  · rw [table_setTable at_id] at found₀
    split at found₀
    · next same =>
      cases found₀
      exact ⟨same.symm, w'⟩
    · exact w.table found₀

theorem keepTable {id : TableId} {t : ShapeTable} (found : h.table id = .ok t) :
    h.Preserved (h.setTable t) := by
  obtain ⟨rfl, w'⟩ := w.table found
  exact w.setTable found w' .rfl

theorem setObject {id : ObjectId} {s s' : PropertyStore} (found : h.object id = .ok s)
    (fits : h.Fits s') (table : s'.table = s.table) : h.Preserved (h.setObject id s') := by
  have grows : h.Grows (h.setObject id s') := by
    refine ⟨fun found => ⟨_, found, .rfl⟩, fun {id' s₀} found₀ => ?_,
      fun found => ⟨_, found, .refl _⟩⟩
    rw [object_setObject found]
    split
    · next same =>
      subst same
      obtain rfl := Except.ok.inj (found.symm.trans found₀)
      exact ⟨s', .refl _, table⟩
    · exact ⟨s₀, found₀, .refl _⟩
  refine ⟨⟨w.table, fun {id' s₀} found₀ => ?_, fun found => (w.frame found).grow grows,
    w.cache⟩, grows⟩
  rw [object_setObject found] at found₀
  split at found₀
  · cases found₀
    exact fits
  · exact w.object found₀

theorem setFrame {id : FrameId} {f f' : Frame} (found : h.frame id = .ok f)
    (fits : h.FrameFits id f') : h.Preserved (h.setFrame f') := by
  obtain rfl := fits.id
  have grows : h.Grows (h.setFrame f') := .of_eq (.refl _) (.refl _) (.refl _)
  refine ⟨⟨w.table, w.object, fun {id f₀} found₀ => ?_, w.cache⟩, grows⟩
  rw [frame_setFrame found] at found₀
  split at found₀
  · next same =>
    cases found₀
    exact same ▸ fits.grow grows
  · exact (w.frame found₀).grow grows

theorem setCache {ref : CacheRef} {c c' : Cache} (found : h.cache? ref = some c) (serves : h.Serves c')
    (key : c'.key = c.key) : h.Preserved (h.setCache ref c') := by
  have grows : h.Grows (h.setCache ref c') := by
    refine ⟨fun found => ⟨_, (table_setCache ..).trans found, .rfl⟩,
      fun found => ⟨_, (object_setCache ..).trans found, .refl _⟩, fun {ref' c₀} found₀ => ?_⟩
    rw [cache?_setCache found]
    split
    · next same =>
      subst same
      obtain rfl := Option.some.inj (found.symm.trans found₀)
      exact ⟨c', .refl _, key⟩
    · exact ⟨c₀, found₀, .refl _⟩
  refine ⟨⟨fun found => ?_, fun found => ?_, fun found => ?_, fun {ref' c₀} found₀ => ?_⟩, grows⟩
  · exact w.table ((table_setCache ..).symm.trans found)
  · exact (w.object ((object_setCache ..).symm.trans found)).grow grows
  · exact (w.frame ((frame_setCache ..).symm.trans found)).grow grows
  · rw [cache?_setCache found] at found₀
    split at found₀
    · cases found₀
      exact serves.grow grows
    · exact (w.cache found₀).grow grows

/-! ### Making -/

theorem allocTable (limits : Limits) : h.Preserved (h.allocTable limits).2 := by
  have grows : h.Grows (h.allocTable limits).2 := by
    refine ⟨fun {id t} found => ?_, fun found => ⟨_, found, .refl _⟩,
      fun found => ⟨_, found, .refl _⟩⟩
    rw [table_allocTable]
    split
    · next last =>
      subst last
      simp [Heap.table, resolve] at found
    · exact ⟨t, found, .rfl⟩
  refine ⟨⟨fun {id t} found => ?_, fun found => (w.object found).grow grows,
    fun found => (w.frame found).grow grows, fun found => (w.cache found).grow grows⟩, grows⟩
  rw [table_allocTable] at found
  split at found
  · cases found
    exact ⟨.refl _, ShapeTable.wellFormed_ofLimits id limits⟩
  · exact w.table found

theorem allocFunction (code : Function) : h.Preserved (h.allocFunction code).2 := by
  have grows : h.Grows (h.allocFunction code).2 := .of_eq (.refl _) (.refl _) (.refl _)
  exact ⟨⟨w.table, w.object, fun found => (w.frame found).grow grows, w.cache⟩, grows⟩

theorem fits_empty {table : TableId} {t : ShapeTable} (found : h.table table = .ok t) :
    h.Fits (.empty table) := by
  obtain ⟨rfl, _⟩ := w.table found
  exact ⟨t, found, PropertyStore.fits_empty t⟩

theorem allocObject {table : TableId} {t : ShapeTable} (found : h.table table = .ok t) :
    h.Preserved (h.allocObject table).2 := by
  have grows : h.Grows (h.allocObject table).2 := by
    refine ⟨fun found => ⟨_, found, .rfl⟩, fun {id s} found' => ?_,
      fun found => ⟨_, found, .refl _⟩⟩
    rw [object_allocObject]
    split
    · next last =>
      subst last
      simp [Heap.object, resolve] at found'
    · exact ⟨s, found', .refl _⟩
  refine ⟨⟨w.table, fun {id s} found' => ?_, fun found => (w.frame found).grow grows,
    w.cache⟩, grows⟩
  rw [object_allocObject] at found'
  split at found'
  · cases found'
    exact w.fits_empty found
  · exact w.object found'

theorem allocFrame {table : TableId} {t : ShapeTable} (found : h.table table = .ok t)
    (function : FunctionRef) (args : Array Value) (objectConstructor : Value) :
    h.Preserved (h.allocFrame table function args objectConstructor).2 := by
  have grows : h.Grows (h.allocFrame table function args objectConstructor).2 :=
    .of_eq (.refl _) (.refl _) (.refl _)
  refine ⟨⟨w.table, w.object, fun {id f} found' => ?_, w.cache⟩, grows⟩
  rw [frame_allocFrame] at found'
  split at found'
  · cases found'
    exact ⟨.refl _, Frame.wellFormed_ofCall .., w.fits_empty found, w.fits_empty found⟩
  · exact (w.frame found').grow grows

theorem allocCache (key : Key) : h.Preserved (h.allocCache key).2 := by
  have grows : h.Grows (h.allocCache key).2 := by
    refine ⟨fun found => ⟨_, found, .rfl⟩, fun found => ⟨_, found, .refl _⟩,
      fun {ref c} found => ?_⟩
    rw [cache?_allocCache]
    split
    · next last =>
      subst last
      simp [cache?] at found
    · exact ⟨c, found, .refl _⟩
  refine ⟨⟨w.table, w.object, fun found => (w.frame found).grow grows,
    fun {ref c} found => ?_⟩, grows⟩
  rw [cache?_allocCache] at found
  split at found
  · cases found
    intro place bound
    cases bound
  · exact w.cache found

theorem allocSiteCaches (code : Function) : h.Preserved (h.allocSiteCaches code).2 := by
  have grows : h.Grows (h.allocSiteCaches code).2 :=
    ⟨fun found => ⟨_, found, .rfl⟩, fun found => ⟨_, found, .refl _⟩,
      fun found => ⟨_, cache?_allocSiteCaches_of_some found code, .refl _⟩⟩
  refine ⟨⟨w.table, w.object, fun found => (w.frame found).grow grows,
    fun {ref c} found => ?_⟩, grows⟩
  rcases cache?_allocSiteCaches h code found with ⟨_, rfl⟩ | found
  · intro place bound
    cases bound
  · exact w.cache found

/-! ### Stores and caches -/

/-- Writing to a store that fits keeps the table a trie, and the store fits the table as it then is. -/
theorem insert {s s' : PropertyStore} {t t' : ShapeTable} {key : Key} {value : Value}
    (fits : h.Fits s) (table : h.table s.table = .ok t) (done : s.insert t key value = .ok (s', t')) :
    h.Preserved (h.setTable t') ∧ (h.setTable t').Fits s' ∧ s'.table = s.table := by
  obtain ⟨_, found, fits⟩ := fits
  obtain rfl := Except.ok.inj (table.symm.trans found)
  obtain ⟨eq, wt⟩ := w.table table
  rw [← eq] at table
  obtain ⟨_, done⟩ := PropertyStore.insert_eq_ok.1 done
  have spec := PropertyStore.inserted_of_insertLocated fits wt done
  have named : s'.table = t'.id := spec.fits.table
  refine ⟨w.setTable table spec.wellFormed spec.grown, ⟨t', ?_, spec.fits⟩, ?_⟩
  · rw [named, table_setTable (spec.grown.id ▸ table), if_pos rfl]
  · rw [named, spec.grown.id, eq]

/-- A store tells its shape from every other that the tables of the heap have handed out. -/
theorem recognizes {s : PropertyStore} {place : Location} (fits : h.Fits s) (known : h.Knows place) :
    s.Recognizes place := by
  intro shape isShape same
  obtain ⟨t, found, fits⟩ := fits
  obtain ⟨t', found', held'⟩ := known
  obtain ⟨eq, wt⟩ := w.table found
  have held := fits.holds isShape
  have table : shape.table = place.shape.table := by
    rw [Shape.same, Bool.and_eq_true, beq_iff_eq, beq_iff_eq] at same
    exact same.2
  rw [← table, wt.table_eq held, eq, found] at found'
  cases found'
  exact (wt.same_iff held held').1 same

theorem usableOn {s : PropertyStore} {c : Cache} (fits : h.Fits s) (serves : h.Serves c) :
    c.UsableOn s :=
  fun _ bound => ⟨(serves bound).2, w.recognizes fits (serves bound).1⟩

theorem rebound {s : PropertyStore} {c c' : Cache} (fits : h.Fits s) (serves : h.Serves c)
    (bound : c.Rebound s c') : h.Serves c' := by
  intro place isBound
  rw [bound.key]
  rcases bound.binding with same | new
  · exact serves (same.symm.trans isBound)
  · obtain ⟨isShape, keeps⟩ := new isBound
    obtain ⟨t, found, fits⟩ := fits
    obtain ⟨eq, wt⟩ := w.table found
    have held := fits.holds isShape
    exact ⟨⟨t, by rwa [wt.table_eq held, eq], held⟩, keeps⟩

/-- Writing through a cache is writing the key that it guards. -/
theorem inserted_of_store {s s' : PropertyStore} {t t' : ShapeTable} {c c' : Cache} {value : Value}
    (fits : h.Fits s) (table : h.table s.table = .ok t) (serves : h.Serves c)
    (done : c.store s t value = .ok (s', t', c')) :
    s.insert t c.key value = .ok (s', t') ∧ c.Rebound s' c' := by
  have usable := w.usableOn fits serves
  obtain ⟨_, found, fits⟩ := fits
  obtain rfl := Except.ok.inj (table.symm.trans found)
  obtain ⟨_, _, _, done', inserted⟩ := Cache.store_eq_insert usable fits (w.table table).2 value
  cases done.symm.trans done'
  exact inserted

end WellFormed

/-! ## Operations -/

variable {op : Operation}

/-- Every operation keeps the invariant. -/
theorem Effect.preserved (effect : h.Effect op h') (w : h.WellFormed) : h.Preserved h' := by
  cases effect with
  | makeTable => exact w.allocTable _
  | makeFunction => exact w.allocFunction _
  | makeObject found => exact w.allocObject found
  | makeFrame found => exact w.allocFrame found ..
  | makeCache => exact w.allocCache _
  | makeSiteCaches => exact w.allocSiteCaches _
  | transition found held done =>
    obtain ⟨rfl, w'⟩ := w.table found
    obtain ⟨w'', grown, _⟩ := w'.transition held done
    exact w.setTable found w'' grown
  | refuse found failed =>
    rw [w.setTable_of_refused found failed]
    exact w.unchanged
  | read _ => exact w.unchanged
  | handOut _ found => exact w.setFrame found (w.frame found).withArguments
  | putObject object table inserted =>
    obtain ⟨kept, fits, eq⟩ := w.insert (w.object object) table inserted
    exact kept.trans (kept.wellFormed.setObject object fits eq)
  | deleteObject object =>
    exact w.setObject object ((w.object object).erase _) (PropertyStore.table_erase ..)
  | fetch found object done =>
    have fits := w.object object
    obtain ⟨_, table, fitsTable⟩ := w.object object
    obtain ⟨_, _, done', _, bound⟩ := Cache.fetch_eq_get (w.usableOn fits (w.cache found)) fitsTable
    cases done.symm.trans done'
    exact w.setCache found (w.rebound fits (w.cache found) bound) bound.key
  | store found object table done =>
    have fits := w.object object
    obtain ⟨inserted, bound⟩ := w.inserted_of_store fits table (w.cache found) done
    obtain ⟨kept, fits', eq⟩ := w.insert fits table inserted
    have kept' := kept.trans (kept.wellFormed.setObject object fits' eq)
    have serves := kept'.wellFormed.rebound (fits'.grow .rfl) ((w.cache found).grow kept'.grows) bound
    exact kept'.trans (kept'.wellFormed.setCache found serves bound.key)
  | resetCache found => exact w.setCache found nofun rfl
  | setBinding frame done =>
    have fits := w.frame frame
    obtain ⟨_, done', spec⟩ := fits.frame.set _ _
    cases done.symm.trans done'
    exact w.setFrame frame (fits.assigned spec (by split <;> simp))
  | setConstBinding frame done =>
    have fits := w.frame frame
    obtain ⟨_, done', spec⟩ := fits.frame.setConst _ _
    cases done.symm.trans done'
    exact w.setFrame frame (fits.assigned spec rfl)
  | setParent frame => exact w.setFrame frame ((w.frame frame).setParent _)
  | putActivation frame table done =>
    have fits := w.frame frame
    rcases Frame.putByKey_eq_ok done with ⟨i, _, written, rfl⟩ | ⟨_, properties, inserted, rfl⟩
    · obtain ⟨_, done', spec⟩ := fits.frame.set _ _
      cases written.symm.trans done'
      have kept := w.keepTable table
      have fits' := fits.assigned spec (by split <;> simp)
      exact kept.trans (kept.wellFormed.setFrame frame (fits'.grow kept.grows))
    · obtain ⟨kept, fits', _⟩ := w.insert fits.properties table inserted
      exact kept.trans (kept.wellFormed.setFrame frame ((fits.grow kept.grows).setProperties fits'))
  | @deleteActivation id key f frame =>
    have fits := w.frame frame
    cases resolved : f.function.code.resolve? key with
    | some i =>
      rw [Frame.deleteKey_of_resolved resolved]
      exact w.setFrame frame fits
    | none =>
      rw [Frame.deleteKey_of_unresolved resolved]
      exact w.setFrame frame (fits.setProperties (fits.properties.erase key))
  | @putArguments id key value f a a' t t' frame isObject table done =>
    have fits := w.frame frame
    obtain rfl := Frame.object_of_argumentsObject? isObject
    rcases fits.frame.object.put_eq_ok done with ⟨i, _, _, rfl, rfl⟩ | ⟨_, properties, inserted, rfl⟩
    · have kept := w.keepTable table
      have sized := f.args.size_replace i.toNat value
      have fits' := fits.setArgumentsObject (fits.frame.object.setArgs sized) sized fits.object
      exact kept.trans (kept.wellFormed.setFrame frame (fits'.grow kept.grows))
    · obtain ⟨kept, fits', _⟩ := w.insert fits.object table inserted
      exact kept.trans (kept.wellFormed.setFrame frame
        ((fits.grow kept.grows).setArgumentsObject fits.frame.object rfl fits'))
  | deleteArguments frame isObject done =>
    have fits := w.frame frame
    obtain rfl := Frame.object_of_argumentsObject? isObject
    have spec := fits.frame.object.deleted_of_delete done
    refine w.setFrame frame (fits.setArgumentsObject spec.wellFormed (by rw [spec.args]; rfl) ?_)
    rw [spec.properties]
    exact fits.object.erase _

theorem Runs.preserved {ops : List Operation} (runs : h.Runs ops h') (w : h.WellFormed) :
    h.Preserved h' := by
  induction runs with
  | start => exact w.unchanged
  | step _ step ih => exact ih.trans (step.effect.preserved ih.wellFormed)

theorem Reachable.wellFormed (reachable : h.Reachable) : h.WellFormed := by
  obtain ⟨ops, runs⟩ := reachable
  exact (runs.preserved wellFormed_empty).wellFormed

/-- The limits of every table let offsets reach every slot. -/
def Addressable (h : Heap) : Prop := ∀ t ∈ h.tables, t.Addressable

instance (h : Heap) : Decidable h.Addressable :=
  inferInstanceAs (Decidable (∀ t ∈ h.tables, t.Addressable))

theorem Addressable.table (small : h.Addressable) {id : TableId} {t : ShapeTable}
    (found : h.table id = .ok t) : t.Addressable :=
  small t (Array.mem_of_getElem? (resolve_eq_ok.1 found))

/-- Tables never change their limits. -/
theorem Grows.addressable (grows : h.Grows h') (small : h'.Addressable) : h.Addressable := by
  intro t mem
  obtain ⟨i, at_i⟩ := Array.mem_iff_getElem?.1 mem
  have found : h.table ⟨i⟩ = .ok t := resolve_eq_ok.2 at_i
  obtain ⟨t', found', le⟩ := grows.table found
  rw [ShapeTable.Addressable, ← le.maxShapeProperties]
  exact small.table found'

end ShapeVM.Heap
