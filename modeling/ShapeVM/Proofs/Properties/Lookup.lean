import ShapeVM.Proofs.Properties.Layout

/-!
What a look-up reports. A store is searched by key, by the order of its shape's keys and by slot. As
long as every slot has an offset these lead to one value: the offset that a look-up reports is the
place of the key among the keys of the shape, and the slot there has the value that reading the key
gives.
-/
namespace ShapeVM.PropertyStore

variable {s : PropertyStore} {t : ShapeTable} {shape : Shape} {key : Key} {offset : UInt32}

theorem isDictionary_eq_false_iff : s.isDictionary = false ↔ ∃ shape, s.shape? = some shape := by
  rw [isDictionary, Option.isNone_eq_false_iff, Option.isSome_iff_exists]

/-- The store keeps the value of the key at the offset, however it is searched. -/
structure KeepsAt (s : PropertyStore) (key : Key) (offset : UInt32) (value : Value) : Prop where
  shaped : ∃ shape, s.shape? = some shape ∧ shape.offset? key = some offset ∧
    shape.keys[offset.toNat]? = some key
  slot : s.slot offset = .ok value
  get? : s.get? key = .ok (some value)

/-- What looking up a key of the store reports. -/
structure Reports (s : PropertyStore) (key : Key) (found : Lookup) : Prop where
  shape : found.shape = s.shape?
  value : s.get? key = .ok found.value
  offset : found.offset.isSome = true ↔ s.isDictionary = false ∧ s.contains key = true
  located : ∀ {offset}, found.offset = some offset →
    ∃ value, found.value = some value ∧ s.KeepsAt key offset value

variable (fits : s.Fits t) (w : t.WellFormed) (small : t.Addressable)
include fits w small

theorem Fits.keepsAt (isShape : s.shape? = some shape) (isOffset : shape.offset? key = some offset) :
    ∃ value, s.lookup key = .ok ⟨some shape, some offset, some value⟩ ∧ s.KeepsAt key offset value := by
  obtain ⟨slots, layout⟩ := shape?_eq_some_iff.1 isShape
  have large := w.size_le_of_addressable (fits.held layout) small
  have inside : offset.toNat < slots.size := fits.sized layout ▸ Shape.offset?_lt isOffset
  have read : readAt slots offset.toNat = .ok slots[offset.toNat] :=
    readAt_eq_ok.2 (Array.getElem?_eq_getElem inside)
  have searched : s.lookup key = .ok ⟨some shape, some offset, some slots[offset.toNat]⟩ := by
    simp [PropertyStore.lookup, layout, isOffset, read]
  refine ⟨_, searched, ⟨shape, isShape, isOffset, ?_⟩, ?_, ?_⟩
  · exact Shape.getElem?_keys_of_offset? large isOffset
  · rw [slot, layout]
    exact read
  · exact get?_of_lookup searched

theorem Fits.reports (key : Key) : ∃ found, s.lookup key = .ok found ∧ s.Reports key found := by
  cases isShape : s.shape? with
  | none =>
    obtain ⟨table, layout⟩ := s
    cases layout with
    | dictionary entries =>
      refine ⟨_, rfl, rfl, rfl, ?_, ?_⟩
      · simp [isDictionary, shape?]
      · rintro _ ⟨⟩
    | shaped shape slots => cases isShape
  | some shape =>
    have shaped := isDictionary_eq_false_iff.2 ⟨shape, isShape⟩
    have present := contains_of_shape? isShape key
    cases isOffset : shape.offset? key with
    | none =>
      have searched : s.lookup key = .ok ⟨some shape, none, none⟩ := by
        obtain ⟨slots, layout⟩ := shape?_eq_some_iff.1 isShape
        simp [PropertyStore.lookup, layout, isOffset]
      refine ⟨_, searched, isShape.symm, ?_, ?_, ?_⟩
      · exact get?_of_lookup searched
      · rw [Shape.offset?_eq_none_iff] at isOffset
        simp [present, isOffset]
      · rintro _ ⟨⟩
    | some offset =>
      obtain ⟨value, searched, keeps⟩ := fits.keepsAt w small isShape isOffset
      refine ⟨_, searched, isShape.symm, keeps.get?, ?_, ?_⟩
      · simp [shaped, present, Shape.contains_of_offset? isOffset]
      · rintro _ ⟨⟩
        exact ⟨value, rfl, keeps⟩

/-- Every slot is that of the key at its place. -/
theorem Fits.keepsAt_of_lt (isShape : s.shape? = some shape)
    (inside : offset.toNat < s.size) :
    ∃ key value, shape.keys[offset.toNat]? = some key ∧ s.KeepsAt key offset value := by
  obtain ⟨slots, layout⟩ := shape?_eq_some_iff.1 isShape
  have size : s.size = shape.size := by rw [PropertyStore.size, layout]
  have held := fits.held layout
  have large := w.size_le_of_addressable held small
  have inside : offset.toNat < shape.keys.size := by rwa [shape.size_keys, ← size]
  have isKey := Array.getElem?_eq_getElem inside
  have isOffset := ((w.distinct held).offset?_eq_some_iff large).2 isKey
  obtain ⟨value, _, keeps⟩ := fits.keepsAt w small isShape isOffset
  exact ⟨_, value, isKey, keeps⟩

end ShapeVM.PropertyStore
