import ShapeVM.Proofs.Heap.ObjectEffect
import ShapeVM.Proofs.Heap.Progress
import ShapeVM.Proofs.Heap.Evaluation

/-!
Objects as property lists. The properties of an object are those that its own history of writes and
deletions says, and nothing else that was done to the heap has a part in them: not the limits of its
table, not the other objects of the table, not the caches through which some of the writes went.
-/
namespace ShapeVM.Heap

variable {h h' : Heap} {op : Operation} {ops : List Operation} {o : ObjectId} {s : PropertyStore}
  {keyOf : CacheRef → Option Key}

/-- The properties of an object; one that is not there yet has none. -/
def listOf (h : Heap) (o : ObjectId) : PropertyList :=
  match h.object o with
  | .ok s => s.toList
  | .error _ => []

theorem listOf_eq (isObject : h.object o = .ok s) : h.listOf o = s.toList := by
  rw [listOf, isObject]

/-- What an operation does to the properties of an object. -/
theorem Effect.listOf (effect : h.Effect op h') (w : h.WellFormed) (small : h.Addressable)
    (agrees : h.Agrees keyOf) (o : ObjectId) :
    h'.listOf o = match op.edit? keyOf o with
      | some e => (h.listOf o).edit e
      | none => h.listOf o := by
  have change := effect.objectEffect w agrees o
  generalize op.edit? keyOf o = e? at change ⊢
  cases change with
  | kept same => simp only [Heap.listOf, same]
  | made missing isObject' => simp only [Heap.listOf, missing, isObject', PropertyStore.toList_empty]
  | put isObject table inserted isObject' _ =>
    obtain ⟨_, found, fits⟩ := w.object isObject
    obtain rfl := Except.ok.inj (table.symm.trans found)
    obtain ⟨_, done⟩ := PropertyStore.insert_eq_ok.1 inserted
    have spec := PropertyStore.inserted_of_insertLocated fits (w.table table).2 done
    rw [listOf_eq isObject', listOf_eq isObject]
    exact spec.toList (small.table table)
  | delete isObject isObject' =>
    obtain ⟨t, table, fits⟩ := w.object isObject
    rw [listOf_eq isObject', listOf_eq isObject]
    exact PropertyStore.toList_erase fits (w.table table).2 _

theorem Runs.listOf (runs : Runs {} ops h) (small : h.Addressable) (agrees : h.Agrees keyOf)
    (o : ObjectId) : h.listOf o = .ofEdits (ops.filterMap (·.edit? keyOf o)) := by
  induction runs with
  | start => simp [Heap.listOf, object, resolve, PropertyList.ofEdits]
  | @step ops h op h' runs step ih =>
    have w := (runs.preserved wellFormed_empty).wellFormed
    have grows := (step.effect.preserved w).grows
    rw [step.effect.listOf w (grows.addressable small) (grows.agrees agrees),
      ih (grows.addressable small) (grows.agrees agrees), List.filterMap_cons]
    cases op.edit? keyOf o with
    | none => rfl
    | some e => rfl

/-- An object that answers as a property list does. -/
structure Refines (h : Heap) (o : ObjectId) (l : PropertyList) : Prop where
  get : ∀ key, h.get (.ordinary o) key = .ok (l.get? key, h)
  has : ∀ key, h.has (.ordinary o) key = .ok (l.contains key)
  keys : h.keys (.ordinary o) = .ok l.keys
  size : ∃ s, h.object o = .ok s ∧ s.size = l.length
  lookup : ∀ key, ∃ s found, h.object o = .ok s ∧ s.lookup key = .ok found ∧ found.value = l.get? key
  put : ∀ key value, ∃ h', h.put (.ordinary o) key value = .ok h'
  delete : ∀ key, ∃ h', h.delete (.ordinary o) key = .ok (l.contains key, h')

theorem WellFormed.refines (w : h.WellFormed) (small : h.Addressable) (isObject : h.object o = .ok s) :
    h.Refines o (h.listOf o) := by
  obtain ⟨t, table, fits⟩ := w.object isObject
  have wt := (w.table table).2
  rw [listOf_eq isObject]
  refine ⟨fun key => ?_, fun key => ?_, ?_, ⟨s, isObject, PropertyStore.size_eq fits⟩, fun key => ?_,
    fun key value => w.put _ key value ⟨s, isObject⟩, fun key => ?_⟩
  · simp [Heap.get, Heap.read, isObject, PropertyStore.get?_eq fits wt (small.table table)]
  · simp [Heap.has, isObject, PropertyStore.contains_eq fits]
  · simp [Heap.keys, isObject, PropertyStore.keys_eq fits]
  · obtain ⟨found, searched, _, value⟩ := fits.lookup key
    exact ⟨s, found, isObject, searched, value wt (small.table table)⟩
  · refine ⟨h.setObject o (s.erase key).1, ?_⟩
    simp [Heap.delete, isObject, ← PropertyStore.erase_snd, ← PropertyStore.contains_eq fits]

/-- An object answers as the list of its own changes does. -/
theorem object_refines_edits (runs : Runs {} ops h) (small : h.Addressable)
    (isObject : h.object o = .ok s) :
    h.Refines o (.ofEdits (ops.filterMap (·.edit? h.cacheKey? o))) := by
  have w := (runs.preserved wellFormed_empty).wellFormed
  rw [← runs.listOf small h.agrees_cacheKey? o]
  exact w.refines small isObject

/-- The table is full after the first write, the cache then writes the second key to a dictionary, and
the first key is deleted and written again. -/
theorem object_refines_edits_of_full_table : ∃ ops h s, Runs {} ops h ∧ h.Addressable ∧
    h.object ⟨0⟩ = .ok s ∧ s.isDictionary = true ∧
    h.Refines ⟨0⟩ [(.index 2, .boolean true), (.index 1, .undefined)] := by
  let ops : List Operation := [
    .put (.ordinary ⟨0⟩) (.index 1) .undefined, .delete (.ordinary ⟨0⟩) (.index 1),
    .put (.ordinary ⟨1⟩) (.index 5) .null, .store (.single ⟨0⟩) ⟨0⟩ (.boolean true),
    .makeCache (.index 2), .put (.ordinary ⟨0⟩) (.index 1) .null,
    .makeObject ⟨0⟩, .makeObject ⟨0⟩, .makeTable { maxShapes := 2 }]
  obtain ⟨h, runs, small, edits, s, isObject, dictionary⟩ : ∃ h, Runs {} ops h ∧ h.Addressable ∧
      PropertyList.ofEdits (ops.filterMap (·.edit? h.cacheKey? ⟨0⟩)) =
        [(.index 2, .boolean true), (.index 1, .undefined)] ∧
      ∃ s, h.object ⟨0⟩ = .ok s ∧ s.isDictionary = true :=
    ⟨_, runs_afterAll (by decide +kernel), by decide +kernel, by decide +kernel, by decide +kernel⟩
  exact ⟨ops, h, s, runs, small, isObject, dictionary, edits ▸ object_refines_edits runs small isObject⟩

end ShapeVM.Heap
