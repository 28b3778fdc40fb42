import ShapeVM.Proofs.Heap.HandedOut
import ShapeVM.Proofs.Heap.ObjectEffect
import ShapeVM.Proofs.Properties.Layout
import ShapeVM.Proofs.Heap.Evaluation

/-!
What a table accounts for. All the clients of a table draw on one budget: an operation can only change
the table by asking it to add to a shape a key that the shape does not have (`Asks`), and is then
answered by a known transition, by one new shape, or by a refusal (`Effect.tableEffect`). So after any
run the shapes that a table has handed out are numbered without a gap, are one more than its
transitions, and keep within the limits that the table was made with (`tables_are_accounted`).
-/
namespace ShapeVM

/-- Operations that never add a key to a shape: they read, delete, bind or make something. -/
def Operation.NeverAdds : Operation → Prop
  | .transition .. | .put .. | .store .. => False
  | _ => True

theorem Operation.IsRead.neverAdds {op : Operation} (read : op.IsRead) : op.NeverAdds := by
  cases op <;> trivial

namespace Heap

variable {h h' : Heap} {op : Operation} {id : TableId} {t t' : ShapeTable} {s s' : PropertyStore}
  {shape : Shape} {key key' : Key} {value : Value}

/-! ## What an operation asks of a table -/

/-- The operation writes the key to a store: that of a plain object, or, where the key is neither a
binding nor an argument, that of a frame or of an arguments object. -/
inductive Writes (h : Heap) : Operation → PropertyStore → Key → Prop
  | object {o : ObjectId} {key : Key} {value : Value} {s : PropertyStore} : h.object o = .ok s →
    Writes h (.put (.ordinary o) key value) s key
  | cache {ref : CacheRef} {o : ObjectId} {value : Value} {c : Cache} {s : PropertyStore} :
    h.cache? ref = some c → h.object o = .ok s → Writes h (.store ref o value) s c.key
  | activation {frame : FrameId} {key : Key} {value : Value} {f : Frame} : h.frame frame = .ok f →
    f.function.code.resolve? key = none →
    Writes h (.put (.activation frame) key value) f.properties key
  | arguments {frame : FrameId} {key : Key} {value : Value} {a : ArgumentsObject} :
    h.argumentsObject frame = .ok a → (∀ i, key = .index i → a.linked i = false) →
    Writes h (.put (.arguments frame) key value) a.properties key

/-- The operation asks the table to add the key to a shape that does not have it. -/
inductive Asks (h : Heap) (id : TableId) (shape : Shape) (key : Key) : Operation → Prop
  | transition : shape.contains key = false → Asks h id shape key (.transition id shape key)
  | write {op : Operation} {s : PropertyStore} : h.Writes op s key → s.table = id →
    s.growing? key = some shape → Asks h id shape key op

theorem Writes.hasStore (writes : h.Writes op s key) : h.HasStore s := by
  cases writes with
  | object isObject => exact .object isObject
  | cache isCache isObject => exact .object isObject
  | activation isFrame unresolved => exact .frame isFrame
  | arguments isObject unlinked => exact .arguments isObject

theorem Writes.unique (writes : h.Writes op s key) (writes' : h.Writes op s' key') :
    s' = s ∧ key' = key := by
  cases writes with
  | object isObject =>
    cases writes' with
    | object isObject' => exact ⟨Except.ok.inj (isObject'.symm.trans isObject), rfl⟩
  | cache isCache isObject =>
    cases writes' with
    | cache isCache' isObject' =>
      obtain rfl := Option.some.inj (isCache.symm.trans isCache')
      exact ⟨Except.ok.inj (isObject'.symm.trans isObject), rfl⟩
  | activation isFrame =>
    cases writes' with
    | activation isFrame' =>
      obtain rfl := Except.ok.inj (isFrame.symm.trans isFrame')
      exact ⟨rfl, rfl⟩
  | arguments isObject =>
    cases writes' with
    | arguments isObject' =>
      obtain rfl := Except.ok.inj (isObject.symm.trans isObject')
      exact ⟨rfl, rfl⟩

theorem Writes.asks_iff (writes : h.Writes op s key) :
    h.Asks id shape key' op ↔ key' = key ∧ s.table = id ∧ s.growing? key = some shape := by
  constructor
  · intro asks
    cases asks with
    | transition _ => cases writes
    | write writes' named growing =>
      obtain ⟨rfl, rfl⟩ := writes.unique writes'
      exact ⟨rfl, named, growing⟩
  · rintro ⟨rfl, named, growing⟩
    exact .write writes named growing

theorem Asks.unique {shape' : Shape} (asks : h.Asks id shape key op)
    (asks' : h.Asks id shape' key' op) : shape' = shape ∧ key' = key := by
  cases asks with
  | transition _ =>
    cases asks' with
    | transition _ => exact ⟨rfl, rfl⟩
    | write writes _ _ => cases writes
  | write writes named growing =>
    obtain ⟨rfl, _, growing'⟩ := writes.asks_iff.1 asks'
    exact ⟨Option.some.inj (growing'.symm.trans growing), rfl⟩

/-- Overwriting a key asks for nothing, and neither does any write to a dictionary. -/
theorem Writes.not_asks (writes : h.Writes op s key)
    (settled : s.contains key = true ∨ s.shape? = none) : ¬h.Asks id shape key' op := by
  rw [writes.asks_iff, PropertyStore.growing?_eq_some_iff]
  rintro ⟨rfl, _, isShape, absent⟩
  rcases settled with present | isDictionary
  · cases absent.symm.trans ((PropertyStore.contains_of_shape? isShape _).symm.trans present)
  · cases isShape.symm.trans isDictionary

theorem not_asks_of_neverAdds (never : op.NeverAdds) : ¬h.Asks id shape key op := by
  intro asks
  cases asks with
  | transition _ => cases never
  | write writes _ _ => cases writes <;> cases never

/-! ## One operation -/

/-- What becomes of a table with an operation. -/
inductive TableEffect (h : Heap) (id : TableId) (t : ShapeTable) (op : Operation) : ShapeTable → Prop
  | kept : (∀ shape key, ¬h.Asks id shape key op) → TableEffect h id t op t
  | asked {shape : Shape} {key : Key} {t' : ShapeTable} : h.Asks id shape key op →
    t.Requested shape key t' → TableEffect h id t op t'

theorem WellFormed.tableEffect_write {t₀ t₀' : ShapeTable} (w : h.WellFormed)
    (writes : h.Writes op s key) (found : h.table s.table = .ok t₀)
    (inserted : s.insert t₀ key value = .ok (s', t₀')) (tables : h'.tables = (h.setTable t₀').tables)
    (isTable : h.table id = .ok t) :
    ∃ t', h'.table id = .ok t' ∧ h.TableEffect id t op t' := by
  have after : h'.table id = if id = s.table then .ok t₀' else h.table id := by
    rw [Heap.table, tables]
    exact w.table_insert (w.fits writes.hasStore) found inserted id
  by_cases same : id = s.table
  · subst same
    obtain rfl := Except.ok.inj (found.symm.trans isTable)
    refine ⟨t₀', after.trans (if_pos rfl), ?_⟩
    rcases (PropertyStore.written_of_insert inserted).table with ⟨settled, rfl⟩ |
      ⟨shape, growing, requested⟩
    · refine .kept fun shape key' asks => ?_
      cases settled.symm.trans (writes.asks_iff.1 asks).2.2
    · exact .asked (.write writes rfl growing) requested
  · refine ⟨t, after.trans ((if_neg same).trans isTable), .kept fun shape key' asks => ?_⟩
    exact same (writes.asks_iff.1 asks).2.1.symm

theorem WellFormed.tableEffect_transition {table : TableId} {t₀ t₀' : ShapeTable} {target : Shape}
    (w : h.WellFormed) (found : h.table table = .ok t₀) (held : t₀.Holds shape)
    (done : t₀.transition shape key = (.ok target, t₀')) (isTable : h.table id = .ok t) :
    ∃ t', (h.setTable t₀').table id = .ok t' ∧ h.TableEffect id t (.transition table shape key) t' := by
  obtain ⟨rfl, wt⟩ := w.table found
  obtain ⟨_, grown, _⟩ := wt.transition held done
  have after := table_setTable (grown.id ▸ found) id
  rw [grown.id] at after
  by_cases same : id = t₀.id
  · subst same
    obtain rfl := Except.ok.inj (found.symm.trans isTable)
    refine ⟨t₀', after.trans (if_pos rfl), ?_⟩
    cases absent : shape.contains key with
    | false => exact .asked (.transition absent) (ShapeTable.requested_of_ok absent done)
    | true =>
      rw [ShapeTable.transition, if_pos absent] at done
      cases done
      refine .kept fun _ _ asks => ?_
      cases asks with
      | transition absent' => cases absent.symm.trans absent'
      | write writes _ _ => cases writes
  · refine ⟨t, after.trans ((if_neg same).trans isTable), .kept fun _ _ asks => ?_⟩
    cases asks with
    | transition _ => exact same rfl
    | write writes _ _ => cases writes

theorem tableEffect_refuse {table : TableId} {t₀ t₀' : ShapeTable} {refusal : Refusal}
    (found : h.table table = .ok t₀) (failed : t₀.transition shape key = (.error refusal, t₀'))
    (isTable : h.table id = .ok t) : h.TableEffect id t (.transition table shape key) t := by
  cases absent : shape.contains key with
  | true =>
    rw [ShapeTable.transition, if_pos absent] at failed
    cases failed
  | false =>
    by_cases same : id = table
    · subst same
      obtain rfl := Except.ok.inj (found.symm.trans isTable)
      obtain rfl := ShapeTable.eq_of_transition_eq_error failed
      exact .asked (.transition absent) (ShapeTable.requested_of_error absent failed)
    · refine .kept fun _ _ asks => ?_
      cases asks with
      | transition _ => exact same rfl
      | write writes _ _ => cases writes

theorem Effect.tableEffect (effect : h.Effect op h') (w : h.WellFormed) (isTable : h.table id = .ok t) :
    ∃ t', h'.table id = .ok t' ∧ h.TableEffect id t op t' := by
  have never (never : op.NeverAdds) : h.TableEffect id t op t :=
    .kept fun _ _ => not_asks_of_neverAdds never
  cases effect with
  | makeTable =>
    refine ⟨t, ?_, never trivial⟩
    rw [table_allocTable, if_neg]
    · exact isTable
    · rintro rfl
      simp [Heap.table, resolve] at isTable
  | makeFunction => exact ⟨t, isTable, never trivial⟩
  | makeObject found => exact ⟨t, isTable, never trivial⟩
  | makeFrame found => exact ⟨t, isTable, never trivial⟩
  | makeCache => exact ⟨t, isTable, never trivial⟩
  | makeSiteCaches => exact ⟨t, isTable, never trivial⟩
  | transition found held done => exact w.tableEffect_transition found held done isTable
  | refuse found failed =>
    rw [w.setTable_of_refused found failed]
    exact ⟨t, isTable, tableEffect_refuse found failed isTable⟩
  | read isRead => exact ⟨t, isTable, never isRead.neverAdds⟩
  | handOut isRead found => exact ⟨t, isTable, never isRead.neverAdds⟩
  | putObject isObject found inserted =>
    exact w.tableEffect_write (.object isObject) found inserted rfl isTable
  | deleteObject isObject => exact ⟨t, isTable, never trivial⟩
  | fetch found isObject done => exact ⟨t, (table_setCache ..).trans isTable, never trivial⟩
  | store isCache isObject found done =>
    obtain ⟨inserted, _⟩ := w.inserted_of_store (w.object isObject) found (w.cache isCache) done
    exact w.tableEffect_write (.cache isCache isObject) found inserted (tables_setCache ..) isTable
  | resetCache found => exact ⟨t, (table_setCache ..).trans isTable, never trivial⟩
  | setBinding found done => exact ⟨t, isTable, never trivial⟩
  | setConstBinding found done => exact ⟨t, isTable, never trivial⟩
  | setParent found => exact ⟨t, isTable, never trivial⟩
  | @putActivation _ _ _ f f' t₀ t₀' isFrame found done =>
    rcases Frame.putByKey_eq_ok done with ⟨i, resolved, _, rfl⟩ | ⟨unresolved, properties, inserted, rfl⟩
    -- A binding is written, and the table that is put back is the one that was there.
    · have same : h.setTable t₀' = h := setTable_self ((w.table found).1.symm ▸ found)
      rw [same]
      refine ⟨t, isTable, .kept fun _ _ asks => ?_⟩
      cases asks with
      | write writes _ _ =>
        cases writes with
        | activation isFrame' unresolved =>
          obtain rfl := Except.ok.inj (isFrame.symm.trans isFrame')
          cases resolved.symm.trans unresolved
    · exact w.tableEffect_write (.activation isFrame unresolved) found inserted rfl isTable
  | deleteActivation found => exact ⟨t, isTable, never trivial⟩
  | @putArguments _ _ _ f a a' t₀ t₀' isFrame built found done =>
    have isObject := argumentsObject_eq_ok.2 ⟨f, isFrame, built⟩
    have wa := (w.frame isFrame).frame.object
    obtain rfl := Frame.object_of_argumentsObject? built
    rcases wa.put_eq_ok done with ⟨i, rfl, linked, _, rfl⟩ | ⟨unlinked, properties, inserted, rfl⟩
    · have same : h.setTable t₀' = h := setTable_self ((w.table found).1.symm ▸ found)
      rw [same]
      refine ⟨t, isTable, .kept fun _ _ asks => ?_⟩
      cases asks with
      | write writes _ _ =>
        cases writes with
        | arguments isObject' unlinked =>
          obtain rfl := Except.ok.inj (isObject.symm.trans isObject')
          cases linked.symm.trans (unlinked i rfl)
    · exact w.tableEffect_write (.arguments isObject unlinked) found inserted rfl isTable
  | deleteArguments found isObject done => exact ⟨t, isTable, never trivial⟩

/-! ## A run -/

theorem TableEffect.shapeCount_le (effect : h.TableEffect id t op t')
    (within : t.shapeCount ≤ max 1 t.maxShapes) : t'.shapeCount ≤ max 1 t'.maxShapes := by
  cases effect with
  | kept _ => exact within
  | asked _ requested => exact requested.shapeCount_le within

theorem Runs.shapeCount_le {start : Heap} {ops : List Operation} (runs : start.Runs ops h)
    (w : start.WellFormed) (isTable : start.table id = .ok t)
    (within : t.shapeCount ≤ max 1 t.maxShapes) :
    ∃ t', h.table id = .ok t' ∧ t'.shapeCount ≤ max 1 t'.maxShapes := by
  induction runs with
  | start => exact ⟨t, isTable, within⟩
  | step runs step ih =>
    obtain ⟨t', isTable', within'⟩ := ih
    obtain ⟨t'', isTable'', effect⟩ := step.effect.tableEffect (runs.preserved w).wellFormed isTable'
    exact ⟨t'', isTable'', effect.shapeCount_le within'⟩

/-- A program can have been given every shape that a table knows, for it only has to follow the
table's transitions. -/
theorem Reachable.handedOut_iff (reachable : h.Reachable) (isTable : h.table id = .ok t) :
    h.HandedOut id shape ↔ t.Holds shape := by
  constructor
  · intro handed
    obtain ⟨_, found, held⟩ := handed.holds
    obtain rfl := Except.ok.inj (isTable.symm.trans found)
    exact held
  · intro held
    have w := reachable.wellFormed
    refine ⟨h, h, [], reachable, ?_, .start⟩
    rcases held with rfl | ⟨source, key, known⟩
    · exact .root isTable
    · obtain ⟨parent, held, rfl, absent, _⟩ := (w.table isTable).2.edge known
      have follows := ShapeTable.transition_of_known absent known
      exact .transition ⟨t, isTable, held⟩ (w.transition_of_known isTable follows)

/-- What a table accounts for that was made with the limits. -/
structure Accounted (h : Heap) (id : TableId) (limits : Limits) (t : ShapeTable) : Prop where
  maxShapes : t.maxShapes = limits.maxShapes
  maxShapeProperties : t.maxShapeProperties = limits.maxShapeProperties
  count : t.shapeCount = t.transitionCount + 1
  /-- The number that the next shape gets is the first one that is free. -/
  next : t.nextId = t.shapeCount
  within : t.shapeCount ≤ max 1 limits.maxShapes
  root : h.HandedOut id (.root id) ∧
    ∀ {shape}, h.HandedOut id shape → (shape.id = 0 ↔ shape = .root id)
  numbers : ∀ {n}, n < t.shapeCount ↔ ∃ shape, h.HandedOut id shape ∧ shape.id = n
  numbered : ∀ {shape shape'}, h.HandedOut id shape → h.HandedOut id shape' → shape.id = shape'.id →
    shape = shape'
  small : ∀ {shape}, h.HandedOut id shape → shape.size ≤ limits.maxShapeProperties
  asked : ∀ {op h' shape key}, h.Step op h' → h.Asks id shape key op →
    ∃ t', h'.table id = .ok t' ∧ t.Requested shape key t'
  kept : ∀ {op h'}, h.Step op h' → (∀ shape key, ¬h.Asks id shape key op) → h'.table id = .ok t
  /-- In particular these ask for nothing. -/
  spared : ∀ {op h'}, h.Step op h' →
    (op.NeverAdds ∨ ∃ s key, h.Writes op s key ∧ (s.contains key = true ∨ s.shape? = none)) →
    h'.table id = .ok t

/-- The facts about the shapes are those of a trie; only the limit on their count is one of the run. -/
theorem Reachable.accounted {limits : Limits} (reachable : h.Reachable) (isTable : h.table id = .ok t)
    (maxShapes : t.maxShapes = limits.maxShapes)
    (maxShapeProperties : t.maxShapeProperties = limits.maxShapeProperties)
    (within : t.shapeCount ≤ max 1 t.maxShapes) : h.Accounted id limits t := by
  have w := reachable.wellFormed
  obtain ⟨rfl, wt⟩ := w.table isTable
  have handed {shape} : h.HandedOut t.id shape ↔ t.Holds shape := reachable.handedOut_iff isTable
  have kept {op h'} (step : h.Step op h') (unasked : ∀ shape key, ¬h.Asks t.id shape key op) :
      h'.table t.id = .ok t := by
    obtain ⟨t', isTable', effect⟩ := step.effect.tableEffect w isTable
    cases effect with
    | kept _ => exact isTable'
    | asked asks _ => exact (unasked _ _ asks).elim
  refine ⟨maxShapes, maxShapeProperties, wt.count, wt.next, maxShapes ▸ within, ⟨?_, ?_⟩, ?_, ?_,
    ?_, ?_, kept, ?_⟩
  · exact handed.2 (ShapeTable.holds_root t)
  · intro shape is
    refine ⟨fun zero => wt.unique (handed.1 is) (ShapeTable.holds_root t) zero, ?_⟩
    rintro rfl
    rfl
  · intro n
    constructor
    · intro lt
      obtain ⟨shape, held, numbered⟩ := wt.numbered lt
      exact ⟨shape, handed.2 held, numbered⟩
    · rintro ⟨shape, is, rfl⟩
      exact wt.id_lt (handed.1 is)
  · intro shape shape' is is' same
    exact wt.unique (handed.1 is) (handed.1 is') same
  · intro shape is
    exact maxShapeProperties ▸ wt.size_le (handed.1 is)
  · intro op h' shape key step asks
    obtain ⟨t', isTable', effect⟩ := step.effect.tableEffect w isTable
    cases effect with
    | kept unasked => exact (unasked _ _ asks).elim
    | asked asks' requested =>
      obtain ⟨rfl, rfl⟩ := asks.unique asks'
      exact ⟨t', isTable', requested⟩
  · intro op h' step harmless
    refine kept step fun shape key => ?_
    rcases harmless with never | ⟨s, key', writes, settled⟩
    · exact not_asks_of_neverAdds never
    · exact writes.not_asks settled

theorem tables_are_accounted {start made : Heap} {limits : Limits} {ops : List Operation}
    (reachable : start.Reachable) (make : start.Step (.makeTable limits) made)
    (runs : made.Runs ops h) :
    ∃ t, h.table ⟨start.tables.size⟩ = .ok t ∧ h.Accounted ⟨start.tables.size⟩ limits t := by
  have reachable := reachable.runs (.step .start make)
  have w := reachable.wellFormed
  obtain ⟨_, ⟨⟩⟩ := make
  have isNew := (table_allocTable start limits ⟨start.tables.size⟩).trans (if_pos rfl)
  obtain ⟨t, isTable, within⟩ := runs.shapeCount_le w isNew (Nat.le_max_left ..)
  obtain ⟨_, found, grown⟩ := (runs.preserved w).grows.table isNew
  obtain rfl := Except.ok.inj (isTable.symm.trans found)
  exact ⟨t, isTable,
    (reachable.runs runs).accounted isTable grown.maxShapes grown.maxShapeProperties within⟩

/-- All kinds of clients, of a table that has room for two shapes beside the root: an object and a
cache make one each, a frame then follows the first of them, and what the arguments object and a direct
transition ask for is refused. -/
theorem tables_are_accounted_of_full_table : ∃ start made h t ops, Reachable start ∧
    start.Step (.makeTable { maxShapes := 3 }) made ∧ made.Runs ops h ∧
    h.table ⟨start.tables.size⟩ = .ok t ∧ t.shapeCount = 3 ∧
    h.Accounted ⟨start.tables.size⟩ { maxShapes := 3 } t := by
  let function : FunctionRef := { id := ⟨0⟩, code := { paramNames := ["a"] } }
  let made : Heap := after {} (.makeTable { maxShapes := 3 })
  have make : Heap.Step {} (.makeTable { maxShapes := 3 }) made := step_after trivial (by decide +kernel)
  obtain ⟨h, runs, t, isTable, full⟩ : ∃ h, made.Runs [
      .transition ⟨0⟩ (.root ⟨0⟩) (.index 7), .put (.arguments ⟨0⟩) (.name "z") .null,
      .arguments ⟨0⟩, .put (.activation ⟨0⟩) (.name "x") .null,
      .makeFrame ⟨0⟩ function #[.null] .null, .store (.single ⟨0⟩) ⟨0⟩ .undefined,
      .makeCache (.name "y"), .put (.ordinary ⟨0⟩) (.name "x") .null, .makeObject ⟨0⟩] h ∧
      ∃ t, h.table ⟨0⟩ = .ok t ∧ t.shapeCount = 3 :=
    ⟨_, runs_afterAll (by decide +kernel), by decide +kernel⟩
  obtain ⟨t', isTable', accounted⟩ := tables_are_accounted ⟨_, .start⟩ make runs
  obtain rfl := Except.ok.inj (isTable.symm.trans isTable')
  exact ⟨_, made, h, t, _, ⟨_, .start⟩, make, runs, isTable, full, accounted⟩

end Heap

end ShapeVM
