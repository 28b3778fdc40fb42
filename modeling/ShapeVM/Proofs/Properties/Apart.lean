import ShapeVM.Proofs.Properties.Store

/-!
One key of a store and the others. A write or a deletion changes whether its key is there, and for no
other key. What the others read as stays too, as long as the store has no more keys than there are
offsets: past that, two keys of one shape share a slot.
-/
namespace ShapeVM

/-! ## Slots by key -/

namespace Shape

variable {shape : Shape} {slots : Array Value} {key k : Key} {offset : UInt32}

/-- The slot to which the offset of a key leads. -/
def slot? (shape : Shape) (slots : Array Value) (key : Key) : Option Value :=
  (shape.offset? key).bind fun offset => slots[offset.toNat]?

theorem isSome_slot? (sized : slots.size = shape.size) (key : Key) :
    (shape.slot? slots key).isSome = shape.contains key := by
  rw [slot?, contains]
  cases found : shape.offset? key with
  | none => rfl
  | some offset =>
    have inside : offset.toNat < slots.size := sized ▸ offset?_lt found
    rw [Option.bind_some, Array.getElem?_eq_getElem inside]
    rfl

/-- With no more keys than offsets, keys do not share a slot. -/
theorem slot?_set_of_ne (large : shape.size ≤ UInt32.size) (found : shape.offset? key = some offset)
    (apart : k ≠ key) (value : Value) :
    shape.slot? (slots.setIfInBounds offset.toNat value) k = shape.slot? slots k := by
  rw [slot?, slot?]
  cases found' : shape.offset? k with
  | none => rfl
  | some offset' =>
    have other : offset.toNat ≠ offset'.toNat := by
      intro same
      have at_offset := getElem?_keys_of_offset? large found
      rw [same, getElem?_keys_of_offset? large found'] at at_offset
      exact apart (Option.some.inj at_offset)
    exact Array.getElem?_setIfInBounds_ne other

theorem slot?_push_of_ne (sized : slots.size = shape.size) (apart : k ≠ key) (id : Nat)
    (value : Value) : (child shape id key).slot? (slots.push value) k = shape.slot? slots k := by
  rw [slot?, slot?, offset?_child, if_neg apart.symm]
  cases found : shape.offset? k with
  | none => rfl
  | some offset =>
    have inside : offset.toNat < slots.size := sized ▸ offset?_lt found
    rw [Option.bind_some, Option.bind_some, Array.getElem?_push, if_neg (Nat.ne_of_lt inside)]

end Shape

namespace PropertyStore

variable {s s' : PropertyStore} {t t' : ShapeTable} {shape : Shape} {slots : Array Value}
  {key k : Key} {value : Value}

theorem get?_shaped {table : TableId} (sized : slots.size = shape.size) (key : Key) :
    get? ⟨table, .shaped shape slots⟩ key = .ok (shape.slot? slots key) := by
  rw [get?, Shape.slot?]
  cases found : shape.offset? key with
  | none => simp [found]
  | some offset =>
    have inside : offset.toNat < slots.size := sized ▸ Shape.offset?_lt found
    have at_offset := Array.getElem?_eq_getElem inside
    simp [found, readAt_eq_ok.2 at_offset, at_offset]

/-- The dictionary that a shaped store becomes reads as the store did. -/
theorem get?_entriesOf (distinct : shape.Distinct) (large : shape.size ≤ UInt32.size)
    (sized : slots.size = shape.size) (key : Key) :
    (entriesOf shape slots).get? key = shape.slot? slots key := by
  rw [Entries.get?_eq_get?_toList, toList_entriesOf distinct sized,
    Shape.get?_slotList distinct large sized, Shape.slot?]

/-! ## One key and the others -/

section

variable (fits : s.Fits t)
include fits

/-- A key reads as something exactly if it is there. -/
theorem Fits.isSome_get? (key : Key) :
    ∃ value, s.get? key = .ok value ∧ s.contains key = value.isSome := by
  obtain ⟨table, layout⟩ := s
  cases layout with
  | dictionary entries => exact ⟨_, rfl, entries.contains_eq_isSome_get? key⟩
  | shaped shape slots =>
    have sized := fits.sized rfl
    exact ⟨_, get?_shaped sized key, (Shape.isSome_slot? sized key).symm⟩

variable (w : t.WellFormed)
include w

theorem Fits.contains_insert (done : s.insert t key value = .ok (s', t')) (k : Key) :
    s'.contains k = (decide (key = k) || s.contains k) := by
  obtain ⟨_, done⟩ := insert_eq_ok.1 done
  have inserted := inserted_of_insertLocated fits w done
  rw [contains_eq inserted.fits, PropertyList.contains, ← keys_eq inserted.fits, inserted.keys,
    contains_eq fits, ← PropertyList.contains_put s.toList key k value]
  rfl

theorem Fits.contains_erase (key k : Key) :
    (s.erase key).1.contains k = (!decide (key = k) && s.contains k) := by
  rw [contains_eq (fits.erase key), toList_erase fits w, PropertyList.contains_delete, contains_eq fits]

variable (small : s.size ≤ UInt32.size)
include small

theorem Fits.get?_erase_of_ne (apart : k ≠ key) : (s.erase key).1.get? k = s.get? k := by
  rw [PropertyStore.erase]
  split
  · obtain ⟨table, layout⟩ := s
    cases layout with
    | dictionary entries =>
      refine congrArg Except.ok ?_
      rw [Entries.get?_erase, if_neg apart.symm]
    | shaped shape slots =>
      have sized := fits.sized rfl
      rw [get?_shaped sized, ← get?_entriesOf (w.distinct (fits.held rfl)) small sized]
      refine congrArg Except.ok ?_
      rw [Entries.get?_erase, if_neg apart.symm]
  · rfl

/-- Where no two keys of a shape have one offset, writing a key leaves the others. -/
theorem Fits.get?_insert_of_ne (done : s.insert t key value = .ok (s', t')) (apart : k ≠ key) :
    s'.get? k = s.get? k := by
  obtain ⟨place?, done⟩ := insert_eq_ok.1 done
  obtain ⟨table, layout⟩ := s
  cases layout with
  | dictionary entries =>
    cases done
    refine congrArg Except.ok ?_
    rw [Entries.get?_insert, if_neg apart.symm]
  | shaped shape slots =>
    have held := fits.held rfl
    have sized := fits.sized rfl
    rw [get?_shaped sized]
    rw [PropertyStore.insertLocated] at done
    dsimp only at done
    split at done
    · next offset found =>
      obtain ⟨slots', written, ⟨⟩⟩ := Checked.bind_eq_ok.1 done
      obtain ⟨_, rfl⟩ := writeAt_eq_ok.1 written
      rw [get?_shaped (by rw [Array.size_setIfInBounds, sized]),
        Shape.slot?_set_of_ne small found apart]
    · next missing =>
      have absent := Shape.offset?_eq_none_iff.1 missing
      split at done
      · next next t' moved =>
        obtain ⟨slots', written, ⟨⟩⟩ := Checked.bind_eq_ok.1 done
        obtain ⟨_, _, _, isChild⟩ := w.transition held moved
        have more : (Shape.child shape next.id key).size = slots.size + 1 := by
          rw [Shape.size_child, sized]
        rw [isChild absent, writeAt_resize more] at written
        cases written
        rw [isChild absent, get?_shaped (by rw [Array.size_push, Shape.size_child, sized]),
          Shape.slot?_push_of_ne sized apart]
      · next refusal t' failed =>
        cases done
        rw [← get?_entriesOf (w.distinct held) small sized]
        refine congrArg Except.ok ?_
        rw [Entries.get?_insert, if_neg apart.symm]

end

end PropertyStore

end ShapeVM
