import ShapeVM.Proofs.Heap.WellFormed

/-!
What an operation does to one plain object. A write or a deletion through the object itself or through
a cache is the change that it makes (`Operation.edit?`); every other operation leaves the object as it
is (`Effect.objectEffect`).
-/
namespace ShapeVM

/-- The change that an operation makes to an object. A write through a cache is one of the key that the
cache guards. -/
def Operation.edit? (keyOf : CacheRef → Option Key) (o : ObjectId) : Operation → Option Edit
  | .put (.ordinary id) key value => if id = o then some (.put key value) else none
  | .delete (.ordinary id) key => if id = o then some (.delete key) else none
  | .store cache id value => if id = o then (keyOf cache).map (.put · value) else none
  | _ => none

theorem Operation.IsRead.edit? {op : Operation} (read : op.IsRead) (keyOf : CacheRef → Option Key)
    (o : ObjectId) : op.edit? keyOf o = none := by
  cases op <;> first | rfl | cases read

namespace Heap

variable {h h' : Heap} {op : Operation} {o : ObjectId} {keyOf : CacheRef → Option Key}

/-- Keys of caches, as the caches of the heap have them. -/
def Agrees (h : Heap) (keyOf : CacheRef → Option Key) : Prop :=
  ∀ {ref c}, h.cache? ref = some c → keyOf ref = some c.key

theorem Grows.agrees (grows : h.Grows h') (agrees : h'.Agrees keyOf) : h.Agrees keyOf := by
  intro ref c found
  obtain ⟨c', found', same⟩ := grows.cache found
  rw [agrees found', same]

def cacheKey? (h : Heap) (ref : CacheRef) : Option Key := (h.cache? ref).map (·.key)

theorem agrees_cacheKey? (h : Heap) : h.Agrees h.cacheKey? := by
  intro ref c found
  rw [cacheKey?, found, Option.map_some]

/-- What becomes of an object with the change that an operation makes to it, if it makes one. -/
inductive ObjectEffect (h h' : Heap) (o : ObjectId) : Option Edit → Prop
  | kept : h'.object o = h.object o → ObjectEffect h h' o none
  | made {table : TableId} : h.object o = .error .dangling → h'.object o = .ok (.empty table) →
    ObjectEffect h h' o none
  | put {s s' : PropertyStore} {t t' : ShapeTable} {key : Key} {value : Value} :
    h.object o = .ok s → h.table s.table = .ok t → s.insert t key value = .ok (s', t') →
    h'.object o = .ok s' → h'.table s.table = .ok t' → ObjectEffect h h' o (some (.put key value))
  | delete {s : PropertyStore} {key : Key} : h.object o = .ok s →
    h'.object o = .ok (s.erase key).1 → ObjectEffect h h' o (some (.delete key))

namespace WellFormed

variable {id : ObjectId} {s s' : PropertyStore} {t t' : ShapeTable} {key : Key} {value : Value}

/-- A table that a write has left stands in the place of the one that the store named. -/
theorem table_insert (w : h.WellFormed) (fits : h.Fits s) (table : h.table s.table = .ok t)
    (inserted : s.insert t key value = .ok (s', t')) (name : TableId) :
    (h.setTable t').table name = if name = s.table then .ok t' else h.table name := by
  obtain ⟨_, found, fitsTable⟩ := fits
  obtain rfl := Except.ok.inj (table.symm.trans found)
  obtain ⟨named, wt⟩ := w.table table
  obtain ⟨_, done⟩ := PropertyStore.insert_eq_ok.1 inserted
  have spec := PropertyStore.inserted_of_insertLocated fitsTable wt done
  have same : t'.id = s.table := spec.grown.id.trans named
  rw [table_setTable (same ▸ table), same]

theorem objectEffect_put (w : h.WellFormed) (isObject : h.object id = .ok s)
    (table : h.table s.table = .ok t) (inserted : s.insert t key value = .ok (s', t'))
    (objects : h'.objects = ((h.setTable t').setObject id s').objects)
    (tables : h'.tables = (h.setTable t').tables) (o : ObjectId) :
    h.ObjectEffect h' o (if id = o then some (.put key value) else none) := by
  have after : h'.object o = if o = id then .ok s' else h.object o := by
    rw [Heap.object, objects]
    exact object_setObject (h := h.setTable t') isObject s' o
  split
  · next same =>
    subst same
    refine .put isObject table inserted (after.trans (if_pos rfl)) ?_
    rw [Heap.table, tables]
    exact (w.table_insert (w.object isObject) table inserted s.table).trans (if_pos rfl)
  · next other => exact .kept (after.trans (if_neg (Ne.symm other)))

end WellFormed

theorem Effect.objectEffect (effect : h.Effect op h') (w : h.WellFormed) (agrees : h.Agrees keyOf)
    (o : ObjectId) : h.ObjectEffect h' o (op.edit? keyOf o) := by
  cases effect with
  | makeTable => exact .kept rfl
  | makeFunction => exact .kept rfl
  | @makeObject table t found =>
    by_cases last : o = ⟨h.objects.size⟩
    · have missing : h.object o = .error .dangling := by
        rw [last]
        simp [object, resolve]
      exact .made missing ((object_allocObject ..).trans (if_pos last))
    · exact .kept ((object_allocObject ..).trans (if_neg last))
  | makeFrame found => exact .kept rfl
  | makeCache => exact .kept rfl
  | makeSiteCaches => exact .kept rfl
  | transition found held done => exact .kept rfl
  | refuse found failed => exact .kept rfl
  | read isRead =>
    rw [isRead.edit?]
    exact .kept rfl
  | handOut isRead found =>
    rw [isRead.edit?]
    exact .kept rfl
  | putObject isObject table inserted => exact w.objectEffect_put isObject table inserted rfl rfl o
  | @deleteObject id key s isObject =>
    have after := object_setObject isObject (s.erase key).1 o
    rw [Operation.edit?]
    split
    · next same =>
      subst same
      exact .delete isObject (after.trans (if_pos rfl))
    · next other => exact .kept (after.trans (if_neg (Ne.symm other)))
  | fetch found isObject done => exact .kept (object_setCache ..)
  | store found isObject table done =>
    obtain ⟨inserted, _⟩ := w.inserted_of_store (w.object isObject) table (w.cache found) done
    rw [Operation.edit?, agrees found, Option.map_some]
    exact w.objectEffect_put isObject table inserted (objects_setCache ..) (tables_setCache ..) o
  | resetCache found => exact .kept (object_setCache ..)
  | setBinding frame done => exact .kept rfl
  | setConstBinding frame done => exact .kept rfl
  | setParent frame => exact .kept rfl
  | putActivation frame table done => exact .kept rfl
  | deleteActivation frame => exact .kept rfl
  | putArguments frame isObject table done => exact .kept rfl
  | deleteArguments frame isObject done => exact .kept rfl

end Heap

end ShapeVM
