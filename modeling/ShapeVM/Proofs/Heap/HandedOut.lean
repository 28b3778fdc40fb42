import ShapeVM.Proofs.Heap.WellFormed
import ShapeVM.Proofs.Shape.KeyOrder
import ShapeVM.Proofs.Heap.Evaluation

/-!
Shapes that were handed out. A program gets the shapes of a table from the table itself, from the
stores that use it and from the caches, and may keep them. Whenever it got them, two of them are the
same exactly if they have the same keys in the same order, and a transition that once led to a shape
does so for good, whatever became of the limits (`shapes_are_key_orders`).
-/
namespace ShapeVM.Heap

variable {h h' : Heap} {id : TableId} {s target : Shape} {key : Key} {store : PropertyStore}

/-- The stores of a heap: plain objects, and the properties that frames and arguments objects have of
their own. -/
inductive HasStore (h : Heap) : PropertyStore → Prop
  | object {id : ObjectId} {s : PropertyStore} : h.object id = .ok s → HasStore h s
  | frame {id : FrameId} {f : Frame} : h.frame id = .ok f → HasStore h f.properties
  | arguments {id : FrameId} {a : ArgumentsObject} : h.argumentsObject id = .ok a →
    HasStore h a.properties

theorem WellFormed.fits (w : h.WellFormed) (has : h.HasStore store) : h.Fits store := by
  cases has with
  | object isObject => exact w.object isObject
  | frame isFrame => exact (w.frame isFrame).properties
  | arguments isObject =>
    obtain ⟨f, isFrame, rfl⟩ := frame_of_argumentsObject isObject
    exact (w.frame isFrame).object

/-- Something that a program can do in the heap `h` gives it a shape of a table, and leads to `h'`. -/
inductive Gives (h : Heap) (id : TableId) : Shape → Heap → Prop
  | root {t : ShapeTable} : h.table id = .ok t → Gives h id t.root h
  | transition {s target : Shape} {key : Key} {h' : Heap} : h.Allows (.transition id s key) →
    h.transition id s key = .ok (.ok target, h') → Gives h id target h'
  | store {store : PropertyStore} {s : Shape} : h.HasStore store → store.table = id →
    store.shape? = some s → Gives h id s h
  | cache {ref : CacheRef} {c : Cache} {place : Location} : h.cache? ref = some c →
    c.binding = some place → place.shape.table = id → Gives h id place.shape h

/-- At some time of a run that leads to the heap, the shape was given to the program. -/
def HandedOut (h : Heap) (id : TableId) (s : Shape) : Prop :=
  ∃ (start given : Heap) (ops : List Operation),
    start.Reachable ∧ start.Gives id s given ∧ given.Runs ops h

/-! ## Transitions in a heap -/

theorem transition_eq_ok (h : Heap) (id : TableId) (s : Shape) (key : Key) :
    h.transition id s key = .ok (.ok target, h') ↔ ∃ t t', h.table id = .ok t ∧
      t.transition s key = (.ok target, t') ∧ h' = h.setTable t' := by
  rw [Heap.transition, Checked.bind_eq_ok]
  constructor
  · rintro ⟨t, isTable, answered⟩
    obtain ⟨isTarget, rfl⟩ := Prod.mk.inj (Except.ok.inj answered)
    exact ⟨t, _, isTable, Prod.ext isTarget rfl, rfl⟩
  · rintro ⟨t, t', isTable, done, rfl⟩
    exact ⟨t, isTable, by rw [done]; rfl⟩

/-- A transition that its table answers without growing. -/
theorem WellFormed.transition_of_known {t : ShapeTable} (w : h.WellFormed) (isTable : h.table id = .ok t)
    (known : t.transition s key = (.ok target, t)) :
    h.transition id s key = .ok (.ok target, h) := by
  obtain ⟨named, _⟩ := w.table isTable
  rw [transition_eq_ok]
  exact ⟨t, t, isTable, known, (setTable_self (named ▸ isTable)).symm⟩

/-- The table after a transition, as the heap then has it. -/
theorem WellFormed.transition {t t' : ShapeTable} (w : h.WellFormed) (isTable : h.table id = .ok t)
    (held : t.Holds s) (done : t.transition s key = (.ok target, t')) :
    h.Preserved (h.setTable t') ∧ (h.setTable t').table id = .ok t' ∧ t'.Holds target := by
  obtain ⟨rfl, wt⟩ := w.table isTable
  obtain ⟨wt', grown, held', _⟩ := wt.transition held done
  refine ⟨w.setTable isTable wt' grown, ?_, held'⟩
  rw [table_setTable (grown.id ▸ isTable), grown.id, if_pos rfl]

/-! ## Shapes that were handed out -/

theorem Gives.holds (gives : h.Gives id s h') (w : h.WellFormed) :
    h'.WellFormed ∧ ∃ t, h'.table id = .ok t ∧ t.Holds s := by
  cases gives with
  | root isTable => exact ⟨w, _, isTable, ShapeTable.holds_root _⟩
  | transition allowed answered =>
    obtain ⟨t, t', isTable, done, rfl⟩ := (transition_eq_ok ..).1 answered
    obtain ⟨_, isTable', held⟩ := allowed
    obtain rfl := Except.ok.inj (isTable.symm.trans isTable')
    obtain ⟨kept, isTable', held'⟩ := w.transition isTable held done
    exact ⟨kept.wellFormed, t', isTable', held'⟩
  | store has named isShape =>
    obtain ⟨t, isTable, fits⟩ := w.fits has
    exact ⟨w, t, named ▸ isTable, fits.holds isShape⟩
  | cache isCache bound named =>
    obtain ⟨⟨t, isTable, held⟩, _⟩ := w.cache isCache bound
    exact ⟨w, t, named ▸ isTable, held⟩

/-- No table forgets a shape. -/
theorem HandedOut.holds (handed : h.HandedOut id s) : ∃ t, h.table id = .ok t ∧ t.Holds s := by
  obtain ⟨start, given, ops, reachable, gives, runs⟩ := handed
  obtain ⟨w, t, isTable, held⟩ := gives.holds reachable.wellFormed
  obtain ⟨t', isTable', le⟩ := (runs.preserved w).grows.table isTable
  exact ⟨t', isTable', held.extends le⟩

/-- Shapes of one table are the same when their keys are, and a step from one to the next stays. -/
structure KeyOrdered (h : Heap) : Prop where
  identity : ∀ {id s s'}, h.HandedOut id s → h.HandedOut id s' →
    (s.same s' = true ↔ s.keys = s'.keys)
  stores : ∀ {a b s s'}, h.HasStore a → h.HasStore b → a.table = b.table → a.shape? = some s →
    b.shape? = some s' → (s.same s' = true ↔ a.keys = b.keys)
  /-- Whoever has added the key to the shape, no limit is met by adding it again. -/
  known : ∀ {id s target key}, h.HandedOut id s → h.HandedOut id target →
    target.keys = s.keys.push key → h.transition id s key = .ok (.ok target, h)
  permanent : ∀ {id s key target h' ops later}, h.Allows (.transition id s key) →
    h.transition id s key = .ok (.ok target, h') → h'.Runs ops later →
    later.transition id s key = .ok (.ok target, later)

theorem shapes_are_key_orders (reachable : h.Reachable) : h.KeyOrdered := by
  have w := reachable.wellFormed
  refine ⟨fun {id s s'} handed handed' => ?_, fun {a b s s'} has has' sameTable isShape isShape' => ?_,
    fun {id s target key} handed handed' added => ?_,
    fun {id s key target h' ops later} allowed answered runs => ?_⟩
  · obtain ⟨t, isTable, held⟩ := handed.holds
    obtain ⟨_, isTable', held'⟩ := handed'.holds
    obtain rfl := Except.ok.inj (isTable.symm.trans isTable')
    exact (w.table isTable).2.same_iff_keys_eq held held'
  · obtain ⟨t, isTable, fits⟩ := w.fits has
    obtain ⟨_, isTable', fits'⟩ := w.fits has'
    rw [sameTable] at isTable
    obtain rfl := Except.ok.inj (isTable.symm.trans isTable')
    rw [(w.table isTable).2.same_iff_keys_eq (fits.holds isShape) (fits'.holds isShape'),
      PropertyStore.keys_of_shape? isShape, PropertyStore.keys_of_shape? isShape', Array.toList_inj]
  · obtain ⟨t, isTable, held⟩ := handed.holds
    obtain ⟨_, isTable', held'⟩ := handed'.holds
    obtain rfl := Except.ok.inj (isTable.symm.trans isTable')
    exact w.transition_of_known isTable ((w.table isTable).2.transition_of_keys_eq held held' added)
  · obtain ⟨t, t', isTable, done, rfl⟩ := (transition_eq_ok ..).1 answered
    obtain ⟨_, isTable', held⟩ := allowed
    obtain rfl := Except.ok.inj (isTable.symm.trans isTable')
    obtain ⟨kept, isTable', _⟩ := w.transition isTable held done
    obtain ⟨w'', grows⟩ := runs.preserved kept.wellFormed
    obtain ⟨t'', isTable'', le⟩ := grows.table isTable'
    have wt'' := (w''.table isTable'').2
    exact w''.transition_of_known isTable'' ((w.table isTable).2.transition_later held done le wt'')

/-- The table became full when the first object got its key, and another key was refused; the second
object still gets the shape of the first. -/
theorem shapes_are_key_orders_of_full_table : ∃ h t a b s, Reachable h ∧ h.table ⟨0⟩ = .ok t ∧
    t.maxShapes = t.shapeCount ∧ h.object ⟨0⟩ = .ok a ∧ h.object ⟨1⟩ = .ok b ∧
    a.shape? = some s ∧ b.shape? = some s ∧ h.KeyOrdered := by
  obtain ⟨h, runs, ⟨t, isTable, full⟩, a, isObject, b, isObject', s, isShape, isShape'⟩ :
      ∃ h, Runs {} [
        .put (.ordinary ⟨1⟩) (.name "k") .undefined, .transition ⟨0⟩ (.root ⟨0⟩) (.index 5),
        .put (.ordinary ⟨0⟩) (.name "k") .null, .makeObject ⟨0⟩, .makeObject ⟨0⟩,
        .makeTable { maxShapes := 2 }] h ∧
      (∃ t, h.table ⟨0⟩ = .ok t ∧ t.maxShapes = t.shapeCount) ∧
      ∃ a, h.object ⟨0⟩ = .ok a ∧ ∃ b, h.object ⟨1⟩ = .ok b ∧
        ∃ s, a.shape? = some s ∧ b.shape? = some s :=
    ⟨_, runs_afterAll (by decide +kernel), by decide +kernel, by decide +kernel⟩
  exact ⟨h, t, a, b, s, ⟨_, runs⟩, isTable, full, isObject, isObject', isShape, isShape',
    shapes_are_key_orders ⟨_, runs⟩⟩

end ShapeVM.Heap
