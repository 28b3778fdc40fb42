import ShapeVM.Proofs.Properties.Store
import ShapeVM.Proofs.Shape.Limits

/-!
What a write or a deletion does to the layout of a store. A present key leaves the layout what it is.
An absent one takes a shaped store to the shape that its table answers, or to a dictionary if the table
refuses; so a shaped store stays shaped exactly where the table lets its shape grow, and only such a
write asks anything of the table. A dictionary stays one.
-/
namespace ShapeVM.PropertyStore

variable {s s' : PropertyStore} {t t' : ShapeTable} {shape : Shape} {key : Key} {value : Value}

/-- What a write leaves of a store and of its table. -/
inductive Written (s : PropertyStore) (t : ShapeTable) (key : Key) (value : Value) :
    PropertyStore → ShapeTable → Prop
  | overwritten {shape : Shape} {slots slots' : Array Value} : s.layout = .shaped shape slots →
    shape.contains key = true → Written s t key value { s with layout := .shaped shape slots' } t
  | grown {shape next : Shape} {slots slots' : Array Value} {t' : ShapeTable} :
    s.layout = .shaped shape slots → shape.contains key = false →
    t.transition shape key = (.ok next, t') →
    Written s t key value { s with layout := .shaped next slots' } t'
  | refused {shape : Shape} {slots : Array Value} {refusal : Refusal} {t' : ShapeTable} :
    s.layout = .shaped shape slots → shape.contains key = false →
    t.transition shape key = (.error refusal, t') →
    Written s t key value
      { s with layout := .dictionary ((entriesOf shape slots).insert key value) } t'
  | inDictionary {entries : Entries} : s.layout = .dictionary entries →
    Written s t key value { s with layout := .dictionary (entries.insert key value) } t

theorem written_of_insert (done : s.insert t key value = .ok (s', t')) :
    s.Written t key value s' t' := by
  obtain ⟨place?, done⟩ := insert_eq_ok.1 done
  rw [insertLocated] at done
  split at done
  · next shape slots layout =>
    split at done
    · next offset found =>
      obtain ⟨slots', _, ⟨⟩⟩ := Checked.bind_eq_ok.1 done
      exact .overwritten layout (Shape.contains_of_offset? found)
    · next missing =>
      have absent := Shape.offset?_eq_none_iff.1 missing
      split at done
      · next next t' moved =>
        obtain ⟨slots', _, ⟨⟩⟩ := Checked.bind_eq_ok.1 done
        exact .grown layout absent moved
      · next refusal t' failed =>
        cases done
        exact .refused layout absent failed
  · next entries layout =>
    cases done
    exact .inDictionary layout

/-! ## The shape -/

theorem shape?_eq_some_iff : s.shape? = some shape ↔ ∃ slots, s.layout = .shaped shape slots := by
  obtain ⟨table, layout⟩ := s
  cases layout with
  | shaped shape' slots => simp [shape?]
  | dictionary entries => simp [shape?]

theorem contains_of_shape? (isShape : s.shape? = some shape) (key : Key) :
    s.contains key = shape.contains key := by
  obtain ⟨slots, layout⟩ := shape?_eq_some_iff.1 isShape
  simp only [contains, layout]

theorem shape?_of_dictionary {entries : Entries} (layout : s.layout = .dictionary entries) :
    s.shape? = none := by
  rw [shape?, layout]

/-- What a write leaves of the shape of a store. -/
theorem Written.shape? (written : s.Written t key value s' t') :
    s'.shape? = s.shape? ∧ (s.contains key = true ∨ s.shape? = none) ∨
      ∃ shape, s.shape? = some shape ∧ shape.contains key = false ∧
        ((∃ next, t.transition shape key = (.ok next, t') ∧ s'.shape? = some next) ∨
          ∃ refusal, t.transition shape key = (.error refusal, t') ∧ s'.shape? = none) := by
  cases written with
  | overwritten layout present =>
    have isShape := shape?_eq_some_iff.2 ⟨_, layout⟩
    exact .inl ⟨isShape.symm, .inl ((contains_of_shape? isShape key).trans present)⟩
  | grown layout absent moved =>
    exact .inr ⟨_, shape?_eq_some_iff.2 ⟨_, layout⟩, absent, .inl ⟨_, moved, rfl⟩⟩
  | refused layout absent failed =>
    exact .inr ⟨_, shape?_eq_some_iff.2 ⟨_, layout⟩, absent, .inr ⟨_, failed, rfl⟩⟩
  | inDictionary layout =>
    have isDictionary := shape?_of_dictionary layout
    exact .inl ⟨isDictionary.symm, .inr isDictionary⟩

/-- A shaped store goes where the table's transition leads. -/
theorem Written.follows {target : Shape} {t₁ : ShapeTable} (written : s.Written t key value s' t')
    (isShape : s.shape? = some shape) (moved : t.transition shape key = (.ok target, t₁)) :
    t' = t₁ ∧ s'.table = s.table ∧ s'.shape? = some target := by
  obtain ⟨slots, isLayout⟩ := shape?_eq_some_iff.1 isShape
  cases written with
  | overwritten layout present =>
    cases isLayout.symm.trans layout
    rw [ShapeTable.transition, if_pos present] at moved
    cases moved
    exact ⟨rfl, rfl, rfl⟩
  | grown layout _ moved' =>
    cases isLayout.symm.trans layout
    cases moved.symm.trans moved'
    exact ⟨rfl, rfl, rfl⟩
  | refused layout _ failed =>
    cases isLayout.symm.trans layout
    cases moved.symm.trans failed
  | inDictionary layout => cases isLayout.symm.trans layout

/-- A refused key goes last in the dictionary that the store becomes. -/
theorem Written.toList_of_refused {refusal : Refusal} {t₁ : ShapeTable}
    (written : s.Written t key value s' t')
    (fits : s.Fits t) (w : t.WellFormed) (isShape : s.shape? = some shape)
    (absent : shape.contains key = false) (failed : t.transition shape key = (.error refusal, t₁)) :
    s'.toList = s.toList ++ [(key, value)] := by
  obtain ⟨slots, isLayout⟩ := shape?_eq_some_iff.1 isShape
  cases written with
  | overwritten layout present =>
    cases isLayout.symm.trans layout
    cases absent.symm.trans present
  | grown layout _ moved =>
    cases isLayout.symm.trans layout
    cases failed.symm.trans moved
  | refused layout _ _ =>
    cases isLayout.symm.trans layout
    have new : (shape.slotList slots).contains key = false := by
      rw [Shape.contains_slotList (fits.sized layout), absent]
    have before : s.toList = shape.slotList slots := by rw [toList, layout]
    rw [toList_dictionary, Entries.toList_insert,
      toList_entriesOf (w.distinct (fits.held layout)) (fits.sized layout), before,
      PropertyList.put, if_neg (by rw [new]; exact Bool.false_ne_true)]
  | inDictionary layout => cases isLayout.symm.trans layout

/-- A deletion that deletes something leaves a dictionary, and any other leaves the store. -/
theorem shape?_erase (s : PropertyStore) (key : Key) :
    (s.contains key = true ∧ (s.erase key).1.shape? = none) ∨
      s.contains key = false ∧ (s.erase key).1 = s := by
  rw [erase]
  split
  · next present => exact .inl ⟨present, rfl⟩
  · next absent => exact .inr ⟨Bool.not_eq_true _ ▸ absent, rfl⟩

/-! ## The table -/

/-- The shape to which a write of the key asks the table to add it. -/
def growing? (s : PropertyStore) (key : Key) : Option Shape :=
  s.shape?.filter fun shape => !shape.contains key

theorem growing?_eq_some_iff :
    s.growing? key = some shape ↔ s.shape? = some shape ∧ shape.contains key = false := by
  simp [growing?, Option.filter_eq_some_iff]

/-- A write asks of the table what its key asks of the store's shape, and nothing else. -/
theorem Written.table (written : s.Written t key value s' t') :
    (s.growing? key = none ∧ t' = t) ∨
      ∃ shape, s.growing? key = some shape ∧ t.Requested shape key t' := by
  cases written with
  | overwritten layout present =>
    refine .inl ⟨?_, rfl⟩
    simp [growing?, PropertyStore.shape?, layout, present]
  | grown layout absent moved =>
    exact .inr ⟨_, growing?_eq_some_iff.2 ⟨shape?_eq_some_iff.2 ⟨_, layout⟩, absent⟩,
      ShapeTable.requested_of_ok absent moved⟩
  | refused layout absent failed =>
    exact .inr ⟨_, growing?_eq_some_iff.2 ⟨shape?_eq_some_iff.2 ⟨_, layout⟩, absent⟩,
      ShapeTable.requested_of_error absent failed⟩
  | inDictionary layout =>
    refine .inl ⟨?_, rfl⟩
    simp [growing?, PropertyStore.shape?, layout]

end ShapeVM.PropertyStore
