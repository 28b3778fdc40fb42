import ShapeVM.Proofs.Cache.AfterAccess
import ShapeVM.Proofs.Heap.Progress

/-!
Uses of caches. An operation uses at most one cache, for an access or to reset it, and the others stay
as they are (`Effect.caches`). An access leaves its cache with what a look-up of the key in the object
then reports.
-/
namespace ShapeVM

/-- What can be done with a cache. -/
inductive CacheUse where
  | access (target : ObjectId)
  | reset
  deriving DecidableEq

namespace Operation

/-- What an operation does with a cache. -/
def use? (ref : CacheRef) : Operation → Option CacheUse
  | .fetch cache target | .store cache target _ => if cache = ref then some (.access target) else none
  | .resetCache cache => if cache = ref then some .reset else none
  | _ => none

theorem IsRead.use? {op : Operation} (read : op.IsRead) (ref : CacheRef) : op.use? ref = none := by
  cases op <;> first | rfl | cases read

end Operation

namespace Heap

variable {h h' : Heap} {op : Operation} {ref : CacheRef} {c : Cache} {target : ObjectId}

/-- The cache `c'` is `c` after a use that led from the heap `h` to `h'`. -/
inductive Used (h h' : Heap) (c : Cache) : CacheUse → Cache → Prop
  | access {target : ObjectId} {s s' : PropertyStore} {found : Lookup} : h.object target = .ok s →
    h'.object target = .ok s' → s'.lookup c.key = .ok found →
    Used h h' c (.access target) (c.accessed (c.serves s) found.location?)
  | reset : Used h h' c .reset c.reset

/-- What an operation does to the caches of a heap: it has no part in them, or makes some, or uses
one. -/
inductive CachesEffect (h : Heap) (op : Operation) (h' : Heap) : Prop
  | kept : (∀ ref, op.use? ref = none) → (∀ ref, h'.cache? ref = h.cache? ref) → CachesEffect h op h'
  | made : (∀ ref, op.use? ref = none) →
    (∀ {ref c}, h.cache? ref = some c → h'.cache? ref = some c) →
    (∀ {ref c}, h'.cache? ref = some c → (∃ key, c = { key }) ∨ h.cache? ref = some c) →
    CachesEffect h op h'
  | used {ref : CacheRef} {use : CacheUse} {c c' : Cache} :
    (∀ ref', op.use? ref' = if ref = ref' then some use else none) → h.cache? ref = some c →
    h.Used h' c use c' → (∀ ref', h'.cache? ref' = if ref' = ref then some c' else h.cache? ref') →
    CachesEffect h op h'

theorem Effect.caches (effect : h.Effect op h') (w : h.WellFormed) : h.CachesEffect op h' := by
  cases effect with
  | makeTable => exact .kept (fun _ => rfl) fun _ => rfl
  | makeFunction => exact .kept (fun _ => rfl) fun _ => rfl
  | makeObject _ => exact .kept (fun _ => rfl) fun _ => rfl
  | makeFrame _ => exact .kept (fun _ => rfl) fun _ => rfl
  | @makeCache key =>
    refine .made (fun _ => rfl) (fun {ref c} found => ?_) fun {ref c} found => ?_
    · rw [cache?_allocCache, if_neg]
      · exact found
      · rintro rfl
        simp [cache?] at found
    · rw [cache?_allocCache] at found
      split at found
      · exact .inl ⟨key, (Option.some.inj found).symm⟩
      · exact .inr found
  | makeSiteCaches =>
    exact .made (fun _ => rfl) (fun found => cache?_allocSiteCaches_of_some found _)
      fun found => cache?_allocSiteCaches h _ found
  | transition _ _ _ => exact .kept (fun _ => rfl) fun _ => rfl
  | refuse => exact .kept (fun _ => rfl) fun _ => rfl
  | read isRead => exact .kept isRead.use? fun _ => rfl
  | handOut isRead _ => exact .kept isRead.use? fun _ => rfl
  | putObject _ _ _ => exact .kept (fun _ => rfl) fun _ => rfl
  | deleteObject _ => exact .kept (fun _ => rfl) fun _ => rfl
  | @fetch cache id c c' s value isCache isObject done =>
    have fits := w.object isObject
    obtain ⟨_, _, fitsTable⟩ := w.object isObject
    obtain ⟨_, found, done', searched⟩ :=
      Cache.fetch_eq_accessed (w.usableOn fits (w.cache isCache)) fitsTable
    cases done.symm.trans done'
    have same : (h.setCache cache (c.accessed (c.serves s) found.location?)).object id = .ok s :=
      (object_setCache ..).trans isObject
    exact .used (fun _ => rfl) isCache (.access isObject same searched) (cache?_setCache isCache _)
  | @store cache id value c c' s s' t t' isCache isObject isTable done =>
    have fits := w.object isObject
    obtain ⟨_, isTable', fitsTable⟩ := w.object isObject
    obtain rfl := Except.ok.inj (isTable.symm.trans isTable')
    obtain ⟨_, _, found, done', searched⟩ := Cache.store_eq_accessed
      (w.usableOn fits (w.cache isCache)) fitsTable (w.table isTable).2 value
    cases done.symm.trans done'
    have isObject' : (h.setTable t').object id = .ok s := isObject
    have isCache' : ((h.setTable t').setObject id s').cache? cache = some c := isCache
    have same : (((h.setTable t').setObject id s').setCache cache
        (c.accessed (c.serves s) found.location?)).object id = .ok s' := by
      rw [object_setCache, object_setObject isObject', if_pos rfl]
    exact .used (fun _ => rfl) isCache (.access isObject same searched) (cache?_setCache isCache' _)
  | resetCache isCache =>
    exact .used (fun _ => rfl) isCache .reset (cache?_setCache isCache _)
  | setBinding _ _ => exact .kept (fun _ => rfl) fun _ => rfl
  | setConstBinding _ _ => exact .kept (fun _ => rfl) fun _ => rfl
  | setParent _ => exact .kept (fun _ => rfl) fun _ => rfl
  | putActivation _ _ _ => exact .kept (fun _ => rfl) fun _ => rfl
  | deleteActivation _ => exact .kept (fun _ => rfl) fun _ => rfl
  | putArguments _ _ _ _ => exact .kept (fun _ => rfl) fun _ => rfl
  | deleteArguments _ _ _ => exact .kept (fun _ => rfl) fun _ => rfl

/-- Accesses to objects that are there succeed. -/
theorem WellFormed.access (w : h.WellFormed) (use : op.use? ref = some (.access target))
    (isCache : h.cache? ref = some c) {s : PropertyStore} (isObject : h.object target = .ok s) :
    ∃ h', h.Step op h' := by
  cases op with
  | fetch cache id =>
    rw [Operation.use?, Option.ite_none_right_eq_some] at use
    obtain ⟨rfl, ⟨⟩⟩ := use
    have names : h.Names (.fetch cache target) := ⟨⟨c, isCache⟩, s, isObject⟩
    obtain ⟨h', done⟩ := w.perform names
    exact ⟨h', trivial, done⟩
  | store cache id value =>
    rw [Operation.use?, Option.ite_none_right_eq_some] at use
    obtain ⟨rfl, ⟨⟩⟩ := use
    have names : h.Names (.store cache target value) := ⟨⟨c, isCache⟩, s, isObject⟩
    obtain ⟨h', done⟩ := w.perform names
    exact ⟨h', trivial, done⟩
  | resetCache cache =>
    rw [Operation.use?, Option.ite_none_right_eq_some] at use
    cases use.2
  | _ => cases use

end Heap

end ShapeVM
