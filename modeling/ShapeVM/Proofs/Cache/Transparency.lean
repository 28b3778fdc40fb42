import ShapeVM.Proofs.Heap.WellFormed
import ShapeVM.Proofs.Heap.Evaluation

/-!
Caches are transparent. In a heap that a run leads to, an access through any cache answers what plain
access by the cache's key would, and leaves every table, object and frame as plain access would. Only
the caches themselves can tell the two apart.
-/
namespace ShapeVM.Heap

variable {h : Heap} {ref : CacheRef} {c : Cache} {id : ObjectId} {s : PropertyStore}

/-- Heaps that differ in their caches at most. -/
structure SameBesidesCaches (h h' : Heap) : Prop where
  tables : h'.tables = h.tables
  objects : h'.objects = h.objects
  frames : h'.frames = h.frames
  functionCount : h'.functionCount = h.functionCount

theorem sameBesidesCaches_setCache (h : Heap) (ref : CacheRef) (c : Cache) :
    h.SameBesidesCaches (h.setCache ref c) := by
  cases ref with
  | single _ => exact ⟨rfl, rfl, rfl, rfl⟩
  | site _ _ => exact ⟨rfl, rfl, rfl, rfl⟩

theorem WellFormed.fetch (w : h.WellFormed) (isCache : h.cache? ref = some c)
    (isObject : h.object id = .ok s) :
    ∃ found h', h.fetch ref id = .ok (found, h') ∧ s.get? c.key = .ok found ∧
      h.SameBesidesCaches h' := by
  have fits := w.object isObject
  obtain ⟨t, _, fitsTable⟩ := w.object isObject
  obtain ⟨found, c', done, got, _⟩ := Cache.fetch_eq_get (w.usableOn fits (w.cache isCache)) fitsTable
  refine ⟨found, h.setCache ref c', ?_, got, sameBesidesCaches_setCache ..⟩
  simp [Heap.fetch, cache_eq_ok.2 isCache, isObject, done]

theorem WellFormed.store (w : h.WellFormed) (isCache : h.cache? ref = some c)
    (isObject : h.object id = .ok s) (value : Value) :
    ∃ put h', h.put (.ordinary id) c.key value = .ok put ∧
      h.store ref id value = .ok h' ∧ put.SameBesidesCaches h' := by
  have fits := w.object isObject
  obtain ⟨t, isTable, fitsTable⟩ := w.object isObject
  obtain ⟨s', t', c', done, inserted, _⟩ :=
    Cache.store_eq_insert (w.usableOn fits (w.cache isCache)) fitsTable (w.table isTable).2 value
  refine ⟨(h.setTable t').setObject id s', ((h.setTable t').setObject id s').setCache ref c', ?_, ?_,
    sameBesidesCaches_setCache ..⟩
  · simp [Heap.put, isObject, isTable, inserted]
  · simp [Heap.store, cache_eq_ok.2 isCache, isObject, isTable, done]

theorem access_through_cache (reachable : h.Reachable) (isCache : h.cache? ref = some c)
    (isObject : h.object id = .ok s) (value : Value) :
    (∃ found read, h.fetch ref id = .ok (found, read) ∧ h.get (.ordinary id) c.key = .ok (found, h) ∧
      h.SameBesidesCaches read) ∧
    ∃ put stored, h.put (.ordinary id) c.key value = .ok put ∧ h.store ref id value = .ok stored ∧
      put.SameBesidesCaches stored := by
  have w := reachable.wellFormed
  refine ⟨?_, w.store isCache isObject value⟩
  obtain ⟨found, read, done, got, same⟩ := w.fetch isCache isObject
  refine ⟨found, read, done, ?_, same⟩
  simp [Heap.get, Heap.read, isObject, got]

/-- A cache that one object bound serves another of its shape, also when a third object, of another
table, has a shape of the same number. -/
theorem access_through_bound_cache : ∃ h c s, Reachable h ∧ h.cache? (.single ⟨0⟩) = some c ∧
    c.isBound = true ∧ h.object ⟨1⟩ = .ok s ∧
    (∃ found read, h.fetch (.single ⟨0⟩) ⟨1⟩ = .ok (found, read) ∧
      h.get (.ordinary ⟨1⟩) c.key = .ok (found, h) ∧ h.SameBesidesCaches read) ∧
    ∃ put stored, h.put (.ordinary ⟨1⟩) c.key .undefined = .ok put ∧
      h.store (.single ⟨0⟩) ⟨1⟩ .undefined = .ok stored ∧ put.SameBesidesCaches stored := by
  obtain ⟨h, runs, ⟨c, isCache, bound⟩, s, isObject⟩ : ∃ h, Runs {} [
      .store (.single ⟨0⟩) ⟨0⟩ (.boolean false), .makeCache (.index 7),
      .put (.ordinary ⟨2⟩) (.index 3) .null, .put (.ordinary ⟨1⟩) (.index 7) .null,
      .makeObject ⟨1⟩, .makeObject ⟨0⟩, .makeObject ⟨0⟩, .makeTable {}, .makeTable {}] h ∧
      (∃ c, h.cache (.single ⟨0⟩) = .ok c ∧ c.isBound = true) ∧ ∃ s, h.object ⟨1⟩ = .ok s :=
    ⟨_, runs_afterAll (by decide +kernel), by decide +kernel, by decide +kernel⟩
  have isCache := cache_eq_ok.1 isCache
  exact ⟨h, c, s, ⟨_, runs⟩, isCache, bound, isObject, access_through_cache ⟨_, runs⟩ isCache isObject _⟩

end ShapeVM.Heap
