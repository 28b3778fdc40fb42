import ShapeVM.Proofs.Heap.ObjectEffect
import ShapeVM.Proofs.Heap.Progress
import ShapeVM.Proofs.Properties.Layout
import ShapeVM.Proofs.Shape.Population

/-!
Populating a table, by transitions or by writes to objects. Whether a fresh table has room for some
sequences of keys, and which orders of keys it then holds, depends on the sequences and not on how their
steps were interleaved. Objects that are written in the same way reach the same shapes, whatever the
values, since a write of a shaped object is the transition of its shape.
-/
namespace ShapeVM.Heap

variable {n : Nat} {h : Heap} {id : TableId} {objects : Fin n → ObjectId} {t t' : ShapeTable}
  {reached reached' : Fin n → Shape} {i : Fin n} {key : Key} {target : Shape}

/-- Writes to several objects, the oldest first. -/
def puts (objects : Fin n → ObjectId) (writes : List (Fin n × Key × Value)) : List Operation :=
  writes.map fun (i, key, value) => .put (.ordinary (objects i)) key value

/-- The keys that are written, without the values. -/
def additions (writes : List (Fin n × Key × Value)) : List (Fin n × Key) :=
  writes.map fun (i, key, _) => (i, key)

/-- Each object has the shape that its builder has reached. -/
structure Shaped (h : Heap) (id : TableId) (objects : Fin n → ObjectId) (t : ShapeTable)
    (reached : Fin n → Shape) : Prop where
  wellFormed : h.WellFormed
  table : h.table id = .ok t
  object : ∀ i, ∃ s, h.object (objects i) = .ok s ∧ s.table = id ∧ s.shape? = some (reached i)

theorem shaped_of_empty (w : h.WellFormed) (isTable : h.table id = .ok t)
    (fresh : ∀ i, h.object (objects i) = .ok (.empty id)) :
    h.Shaped id objects t fun _ => .root id :=
  ⟨w, isTable, fun i => ⟨.empty id, fresh i, rfl, rfl⟩⟩

namespace Shaped

variable (shaped : h.Shaped id objects t reached) (distinct : Function.Injective objects)
include shaped distinct

/-- A write follows the transition of the object's shape, and leaves the other objects as they are. -/
theorem put (moved : t.transition (reached i) key = (.ok target, t')) (value : Value) :
    ∃ h', h.Step (.put (.ordinary (objects i)) key value) h' ∧
      h'.Shaped id objects t' (Function.update reached i target) := by
  have w := shaped.wellFormed
  obtain ⟨s, isObject, named, isShape⟩ := shaped.object i
  have isTable : h.table s.table = .ok t := named ▸ shaped.table
  obtain ⟨_, found, fits⟩ := w.object isObject
  obtain rfl := Except.ok.inj (isTable.symm.trans found)
  obtain ⟨s', t₁, inserted⟩ := fits.insert (w.table isTable).2 key value
  obtain ⟨rfl, named', isShape'⟩ := (PropertyStore.written_of_insert inserted).follows isShape moved
  let h' := (h.setTable t₁).setObject (objects i) s'
  have step : h.Step (.put (.ordinary (objects i)) key value) h' :=
    ⟨trivial, by simp [Heap.perform, Heap.put, isObject, isTable, inserted, h']⟩
  refine ⟨h', step, (step.effect.preserved w).wellFormed, ?_, fun j => ?_⟩
  · have after := w.table_insert (w.object isObject) isTable inserted id
    exact after.trans (if_pos named.symm)
  · have after : h'.object (objects j) =
        if objects j = objects i then .ok s' else h.object (objects j) :=
      object_setObject (h := h.setTable t₁) isObject s' (objects j)
    rw [after, Function.update_apply]
    by_cases same : j = i
    · subst same
      exact ⟨s', if_pos rfl, named'.trans named, by rw [if_pos rfl, isShape']⟩
    · rw [if_neg fun eq => same (distinct eq), if_neg same]
      exact shaped.object j

theorem puts {writes : List (Fin n × Key × Value)}
    (done : t.populate reached (additions writes) = .ok (t', reached')) :
    ∃ h', h.Runs (Heap.puts objects writes).reverse h' ∧ h'.Shaped id objects t' reached' := by
  induction writes generalizing h t reached with
  | nil =>
    cases done
    exact ⟨h, .start, shaped⟩
  | cons write later ih =>
    obtain ⟨i, key, value⟩ := write
    change t.populate reached ((i, key) :: additions later) = _ at done
    rw [ShapeTable.populate] at done
    split at done
    · next t₁ target moved =>
      obtain ⟨h₁, step, shaped₁⟩ := shaped.put distinct moved value
      obtain ⟨h', runs, shaped'⟩ := ih shaped₁ done
      refine ⟨h', ?_, shaped'⟩
      rw [Heap.puts, List.map_cons, List.reverse_cons]
      exact (Runs.step .start step).trans runs
    · cases done

end Shaped

/-- What an interleaving of some sequences leaves, in terms of the sequences alone. -/
structure OrderIndependent (limits : Limits) (seqs : Fin n → List Key) (steps : List (Fin n × Key)) :
    Prop where
  accepted : ∀ id, (∃ t reached,
      (ShapeTable.ofLimits id limits).populate (fun _ => .root id) steps = .ok (t, reached)) ↔
    ShapeTable.LargeEnough limits seqs
  populated : ∀ {id t reached},
    (ShapeTable.ofLimits id limits).populate (fun _ => .root id) steps = .ok (t, reached) →
    ShapeTable.Populated seqs t reached
  /-- The steps are taken by writes to new objects, one for each sequence. -/
  objects : ShapeTable.LargeEnough limits seqs →
    ∀ {start : Heap} {id : TableId} {objects : Fin n → ObjectId} {writes : List (Fin n × Key × Value)},
      start.Reachable → start.table id = .ok (.ofLimits id limits) → Function.Injective objects →
      (∀ i, start.object (objects i) = .ok (.empty id)) → additions writes = steps →
      ∃ h t reached, start.Runs (puts objects writes).reverse h ∧ h.table id = .ok t ∧
        (∀ i, ∃ s, h.object (objects i) = .ok s ∧ s.shape? = some (reached i)) ∧
        ShapeTable.Populated seqs t reached

theorem population_is_order_independent {limits : Limits} {seqs : Fin n → List Key}
    {steps : List (Fin n × Key)} (woven : Interleaves steps seqs) :
    OrderIndependent limits seqs steps where
  accepted _ := ShapeTable.populate_iff_largeEnough woven
  populated done := (ShapeTable.grown_of_populate woven done).2.populated
  objects := by
    intro large start id objects writes reachable isTable distinct fresh written
    obtain ⟨t, reached, done⟩ : ∃ t reached,
        (ShapeTable.ofLimits id limits).populate (fun _ => .root id) steps = .ok (t, reached) :=
      (ShapeTable.populate_iff_largeEnough woven).2 large
    have populated := (ShapeTable.grown_of_populate woven done).2.populated
    have shaped := shaped_of_empty reachable.wellFormed isTable fresh
    rw [← written] at done
    obtain ⟨h, runs, shaped'⟩ := shaped.puts distinct done
    refine ⟨h, t, reached, runs, shaped'.table, fun i => ?_, populated⟩
    obtain ⟨s, isObject, _, isShape⟩ := shaped'.object i
    exact ⟨s, isObject, isShape⟩

/-- Two sequences that share a prefix and then part, the first with a repetition, and a third in the
other order. The table has room for the five shapes and the root, and for no other. -/
theorem population_is_order_independent_of_three : ∃ (seqs : Fin 3 → List Key)
    (steps : List (Fin 3 × Key)),
    Interleaves steps seqs ∧ OrderIndependent { maxShapes := 6 } seqs steps ∧
    ShapeTable.LargeEnough { maxShapes := 6 } seqs ∧
    ¬ShapeTable.LargeEnough { maxShapes := 5 } seqs := by
  let a : Key := .name "a"
  let b : Key := .name "b"
  let seqs : Fin 3 → List Key := fun i =>
    if i = 0 then [a, b, a] else if i = 1 then [a, .index 0] else [b, a]
  have woven : Interleaves [(2, b), (0, a), (1, a), (0, b), (2, a), (1, .index 0), (0, a)] seqs := by
    intro i
    revert i
    decide
  have alike : OrderIndependent { maxShapes := 6 } seqs _ := population_is_order_independent woven
  have alike' : OrderIndependent { maxShapes := 5 } seqs _ := population_is_order_independent woven
  refine ⟨seqs, _, woven, alike, (alike.accepted ⟨0⟩).1 ⟨_, _, rfl⟩, fun large => ?_⟩
  obtain ⟨t, reached, done⟩ := (alike'.accepted ⟨0⟩).2 large
  cases done

end ShapeVM.Heap
