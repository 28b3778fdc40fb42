import ShapeVM.Heap.Caches
import ShapeVM.Heap.Objects

/-!
What a heap holds after something in it was replaced or made: the new thing in its place, and in every
other place what was there before.
-/
namespace ShapeVM.Heap

variable {h : Heap}

theorem resolve_eq_ok {α : Type} {xs : Array α} {i : Nat} {x : α} :
    resolve xs i = .ok x ↔ xs[i]? = some x := by
  simp only [resolve]
  split <;> simp_all

theorem resolve_set {α : Type} {xs : Array α} {i : Nat} {x₀ : α} (found : resolve xs i = .ok x₀) (x : α)
    (j : Nat) : resolve (xs.setIfInBounds i x) j = if j = i then .ok x else resolve xs j := by
  have inside : i < xs.size := (Array.getElem?_eq_some_iff.1 (resolve_eq_ok.1 found)).1
  by_cases same : j = i
  · subst same
    rw [if_pos rfl, resolve_eq_ok, Array.getElem?_setIfInBounds_self_of_lt inside]
  · rw [if_neg same, resolve, resolve, Array.getElem?_setIfInBounds_ne (Ne.symm same)]

/-- Putting back what is there. -/
theorem setIfInBounds_of_resolve {α : Type} {xs : Array α} {i : Nat} {x : α}
    (found : resolve xs i = .ok x) : xs.setIfInBounds i x = xs := by
  obtain ⟨inside, rfl⟩ := Array.getElem?_eq_some_iff.1 (resolve_eq_ok.1 found)
  rw [Array.setIfInBounds, dif_pos inside, Array.set_getElem_self]

theorem resolve_push {α : Type} (xs : Array α) (x : α) (i : Nat) :
    resolve (xs.push x) i = if i = xs.size then .ok x else resolve xs i := by
  rw [resolve, Array.getElem?_push]
  by_cases last : i = xs.size
  · rw [if_pos last, if_pos last]
  · rw [if_neg last, if_neg last, resolve]

/-! ## Tables -/

theorem table_setTable {t t₀ : ShapeTable} (found : h.table t.id = .ok t₀) (id : TableId) :
    (h.setTable t).table id = if id = t.id then .ok t else h.table id := by
  refine (resolve_set found t id.index).trans ?_
  simp only [table, TableId.ext_iff]

theorem setTable_self {t : ShapeTable} (found : h.table t.id = .ok t) : h.setTable t = h := by
  rw [setTable, setIfInBounds_of_resolve found]

theorem table_allocTable (h : Heap) (limits : Limits) (id : TableId) :
    (h.allocTable limits).2.table id =
      if id = ⟨h.tables.size⟩ then .ok (.ofLimits id limits) else h.table id := by
  refine (resolve_push ..).trans ?_
  obtain ⟨index⟩ := id
  simp only [table, TableId.mk.injEq]
  split
  · next same => rw [same]
  · rfl

/-! ## Objects -/

theorem object_setObject {id : ObjectId} {s₀ : PropertyStore} (found : h.object id = .ok s₀)
    (s : PropertyStore) (id' : ObjectId) :
    (h.setObject id s).object id' = if id' = id then .ok s else h.object id' := by
  refine (resolve_set found s id'.index).trans ?_
  simp only [object, ObjectId.ext_iff]

theorem object_allocObject (h : Heap) (table : TableId) (id : ObjectId) :
    (h.allocObject table).2.object id =
      if id = ⟨h.objects.size⟩ then .ok (.empty table) else h.object id := by
  refine (resolve_push ..).trans ?_
  simp only [object, ObjectId.ext_iff]

/-! ## Frames -/

theorem frame_setFrame {f f₀ : Frame} (found : h.frame f.id = .ok f₀) (id : FrameId) :
    (h.setFrame f).frame id = if id = f.id then .ok f else h.frame id := by
  refine (resolve_set found f id.index).trans ?_
  simp only [frame, FrameId.ext_iff]

theorem frame_setFrame_self {f f₀ : Frame} {id : FrameId} (found : h.frame id = .ok f₀)
    (named : f.id = id) : (h.setFrame f).frame id = .ok f := by
  subst named
  exact (frame_setFrame found f.id).trans (if_pos rfl)

theorem setFrame_self {f : Frame} (found : h.frame f.id = .ok f) : h.setFrame f = h := by
  rw [setFrame, setIfInBounds_of_resolve found]

theorem frame_allocFrame (h : Heap) (table : TableId) (function : FunctionRef) (args : Array Value)
    (objectConstructor : Value) (id : FrameId) :
    (h.allocFrame table function args objectConstructor).2.frame id =
      if id = ⟨h.frames.size⟩ then .ok (.ofCall id table function args objectConstructor)
      else h.frame id := by
  refine (resolve_push ..).trans ?_
  obtain ⟨index⟩ := id
  simp only [frame, FrameId.mk.injEq]
  split
  · next same => rw [same]
  · rfl

theorem argumentsObject_eq_ok {id : FrameId} {a : ArgumentsObject} :
    h.argumentsObject id = .ok a ↔ ∃ f, h.frame id = .ok f ∧ f.argumentsObject? = some a := by
  rw [argumentsObject, Checked.bind_eq_ok]
  refine exists_congr fun f => and_congr_right fun _ => ?_
  split <;> simp_all

theorem keys_activation {id : FrameId} {f : Frame} (isFrame : h.frame id = .ok f) :
    h.keys (.activation id) = .ok (f.function.code.boundKeys ++ f.properties.keys) := by
  rw [Heap.keys, isFrame, Checked.ok_bind, Frame.keys, Scope.keys_eq]
  rfl

/-! ## Caches -/

theorem cache_eq_ok {ref : CacheRef} {c : Cache} : h.cache ref = .ok c ↔ h.cache? ref = some c := by
  rw [cache]
  split <;> simp_all

@[simp] theorem tables_setCache (h : Heap) (ref : CacheRef) (c : Cache) :
    (h.setCache ref c).tables = h.tables := by
  cases ref with
  | single _ => rfl
  | site _ _ => rfl

@[simp] theorem objects_setCache (h : Heap) (ref : CacheRef) (c : Cache) :
    (h.setCache ref c).objects = h.objects := by
  cases ref with
  | single _ => rfl
  | site _ _ => rfl

@[simp] theorem frames_setCache (h : Heap) (ref : CacheRef) (c : Cache) :
    (h.setCache ref c).frames = h.frames := by
  cases ref with
  | single _ => rfl
  | site _ _ => rfl

@[simp] theorem table_setCache (h : Heap) (ref : CacheRef) (c : Cache) (id : TableId) :
    (h.setCache ref c).table id = h.table id := by rw [table, tables_setCache, table]

@[simp] theorem object_setCache (h : Heap) (ref : CacheRef) (c : Cache) (id : ObjectId) :
    (h.setCache ref c).object id = h.object id := by rw [object, objects_setCache, object]

@[simp] theorem frame_setCache (h : Heap) (ref : CacheRef) (c : Cache) (id : FrameId) :
    (h.setCache ref c).frame id = h.frame id := by rw [frame, frames_setCache, frame]

theorem cache?_setCache {ref : CacheRef} {c₀ : Cache} (found : h.cache? ref = some c₀) (c : Cache)
    (ref' : CacheRef) :
    (h.setCache ref c).cache? ref' = if ref' = ref then some c else h.cache? ref' := by
  cases ref with
  | single id =>
    cases ref' with
    | single id' =>
      have inside : id.index < h.caches.size := (Array.getElem?_eq_some_iff.1 found).1
      simp only [cache?, setCache, CacheRef.single.injEq, CacheId.ext_iff, Array.getElem?_setIfInBounds]
      by_cases same : id'.index = id.index
      · rw [if_pos same.symm, if_pos inside, if_pos same]
      · rw [if_neg (Ne.symm same), if_neg same]
    | site owner i => simp [cache?, setCache]
  | site owner i =>
    cases ref' with
    | single id' => simp [cache?, setCache]
    | site owner' j =>
      simp only [cache?, Option.bind_eq_bind, Option.bind_eq_some_iff] at found
      obtain ⟨v, found, at_i⟩ := found
      have inside : i < v.caches.size := by
        simpa [v.caches.isSome_get? i] using Option.isSome_of_eq_some at_i
      simp only [cache?, setCache, Array.getElem?_modify, CacheRef.site.injEq, SiteCachesId.ext_iff]
      by_cases same : owner.index = owner'.index
      · simp only [← same, if_true, found, Option.map_some, Option.bind_eq_bind, Option.bind_some,
          Cells.get?_set, true_and, inside, and_true]
        by_cases here : i = j
        · rw [if_pos here, if_pos here.symm]
        · rw [if_neg here, if_neg (Ne.symm here)]
      · rw [if_neg same, if_neg fun eq => same eq.1.symm]

theorem cache?_allocCache (h : Heap) (key : Key) (ref : CacheRef) :
    (h.allocCache key).2.cache? ref =
      if ref = .single ⟨h.caches.size⟩ then some { key } else h.cache? ref := by
  cases ref with
  | single id => simp [cache?, allocCache, Array.getElem?_push, CacheId.ext_iff]
  | site owner i => simp [cache?, allocCache]

theorem cache?_allocSiteCaches_of_some {ref : CacheRef} {c : Cache} (found : h.cache? ref = some c)
    (f : Function) : (h.allocSiteCaches f).2.cache? ref = some c := by
  cases ref with
  | single id => exact found
  | site owner i =>
    simp only [cache?, Option.bind_eq_bind, Option.bind_eq_some_iff] at found
    obtain ⟨v, isOwner, at_i⟩ := found
    have older : owner.index ≠ h.siteCaches.size :=
      Nat.ne_of_lt (Array.getElem?_eq_some_iff.1 isOwner).1
    simp only [cache?, allocSiteCaches, Array.getElem?_push, if_neg older, isOwner, at_i,
      Option.bind_eq_bind, Option.bind_some]

/-- A cache that was made with a function's sites is as new. -/
theorem cache?_allocSiteCaches (h : Heap) (f : Function) {ref : CacheRef} {c : Cache}
    (found : (h.allocSiteCaches f).2.cache? ref = some c) :
    (∃ key, c = { key }) ∨ h.cache? ref = some c := by
  cases ref with
  | single id => exact .inr found
  | site owner i =>
    simp only [cache?, allocSiteCaches, Array.getElem?_push] at found
    split at found
    · simp only [SiteCaches.ofFunction, Cells.get?, Option.bind_eq_bind, Option.bind_some,
        Option.map_eq_some_iff] at found
      obtain ⟨made, at_i, rfl⟩ := found
      obtain ⟨name, _, rfl⟩ := List.mem_map.1 (List.mem_toArray.1 (Array.mem_of_getElem? at_i))
      exact .inl ⟨.name name, by simp⟩
    · exact .inr found

end ShapeVM.Heap
