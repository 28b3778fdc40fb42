import ShapeVM.Properties.Store
import ShapeVM.Proofs.Properties.PropertyList
import ShapeVM.Proofs.Shape.Table

/-!
Property stores as property lists. A store fits a table when its shape is one of the table's and has a
slot for each of its keys (`Fits`). Such a store means a property list (`toList`), whichever of the two
layouts it has, and each operation does to the list what it says: `Fits.insertLocated`,
`Fits.erase` and the reads below. Only an operation that searches a slot by its offset needs the
offsets to be addressable; none of them ever faults.
-/
namespace ShapeVM

/-! ## Slots as properties -/

/-- The properties of a shaped layout in the order of their offsets. -/
def Shape.slotList (shape : Shape) (slots : Array Value) : PropertyList :=
  shape.keys.toList.zip slots.toList

namespace Shape

variable {shape : Shape} {slots : Array Value} {key : Key} {offset : UInt32}

theorem keys_slotList (sized : slots.size = shape.size) :
    (shape.slotList slots).keys = shape.keys.toList := by
  apply List.map_fst_zip
  apply Nat.le_of_eq
  rw [Array.length_toList, Array.length_toList, size_keys, sized]

theorem length_slotList (sized : slots.size = shape.size) :
    (shape.slotList slots).length = shape.size := by
  simp [slotList, size_keys, sized]

theorem contains_slotList (sized : slots.size = shape.size) :
    (shape.slotList slots).contains key = shape.contains key := by
  rw [Bool.eq_iff_iff, PropertyList.contains, keys_slotList sized, decide_eq_true_eq,
    Array.mem_toList_iff, mem_keys]

theorem get?_slotList (distinct : shape.Distinct) (large : shape.size ≤ UInt32.size)
    (sized : slots.size = shape.size) :
    (shape.slotList slots).get? key = (shape.offset? key).bind fun offset => slots[offset.toNat]? := by
  have nodup : (shape.slotList slots).keys.Nodup := by
    rw [keys_slotList sized]
    exact distinct.nodup_keys
  cases found : shape.offset? key with
  | none =>
    rw [offset?_eq_none_iff, ← contains_slotList sized, PropertyList.contains_eq_isSome_get?] at found
    simpa using found
  | some offset =>
    have inside : offset.toNat < slots.size := sized ▸ offset?_lt found
    rw [Option.bind_some, Array.getElem?_eq_getElem inside, PropertyList.get?_eq_some_iff nodup]
    apply List.mem_of_getElem?
    rw [slotList, List.getElem?_zip_eq_some]
    exact ⟨by simpa using getElem?_keys_of_offset? large found, by simp [inside]⟩

/-- Writing a slot overwrites the property in place. -/
theorem slotList_set (distinct : shape.Distinct) (large : shape.size ≤ UInt32.size)
    (sized : slots.size = shape.size) (found : shape.offset? key = some offset) (value : Value) :
    shape.slotList (slots.setIfInBounds offset.toNat value) =
      (shape.slotList slots).put key value := by
  have present : (shape.slotList slots).contains key = true := by
    rw [contains_slotList sized]
    exact contains_of_offset? found
  have inside : offset.toNat < slots.size := sized ▸ offset?_lt found
  rw [PropertyList.put, if_pos present]
  refine List.ext_getElem? fun i => Option.ext fun entry => ?_
  simp only [slotList, List.getElem?_map, Option.map_eq_some_iff, List.getElem?_zip_eq_some,
    Array.getElem?_toList, Array.getElem?_setIfInBounds]
  -- The place `i` holds the key exactly if it is the offset of the key.
  have here {k : Key} (at_i : shape.keys[i]? = some k) : k = key ↔ offset.toNat = i := by
    have at_offset := getElem?_keys_of_offset? large found
    constructor
    · rintro rfl
      rw [← Array.getElem?_toList] at at_i at_offset
      exact (List.getElem?_inj (List.getElem?_eq_some_iff.1 at_offset).1 distinct.nodup_keys).1
        (at_offset.trans at_i.symm)
    · rintro rfl
      exact Option.some.inj (at_i.symm.trans at_offset)
  constructor
  · rintro ⟨at_i, written⟩
    by_cases same : offset.toNat = i
    · rw [if_pos same, if_pos inside] at written
      obtain ⟨k, v⟩ := entry
      cases written
      obtain rfl := (here at_i).2 same
      exact ⟨(k, slots[offset.toNat]), ⟨at_i, by rw [← same, Array.getElem?_eq_getElem inside]⟩,
        by simp⟩
    · rw [if_neg same] at written
      exact ⟨entry, ⟨at_i, written⟩, if_neg fun eq => same ((here at_i).1 eq)⟩
  · rintro ⟨old, ⟨at_i, read⟩, rfl⟩
    by_cases same : offset.toNat = i
    · rw [if_pos ((here at_i).2 same), if_pos same, if_pos inside]
      exact ⟨(here at_i).2 same ▸ at_i, rfl⟩
    · rw [if_neg fun eq => same ((here at_i).1 eq), if_neg same]
      exact ⟨at_i, read⟩

/-- A new slot is a new property at the end. -/
theorem slotList_push (sized : slots.size = shape.size) (id : Nat) (key : Key) (value : Value) :
    (child shape id key).slotList (slots.push value) = shape.slotList slots ++ [(key, value)] := by
  rw [slotList, keys, Array.toList_push, Array.toList_push, List.zip_append]
  · rfl
  · rw [Array.length_toList, Array.length_toList, size_keys, sized]

end Shape

namespace PropertyStore

variable {s s' : PropertyStore} {t t' : ShapeTable} {shape : Shape} {slots : Array Value}
  {key : Key} {value : Value}

theorem toList_entriesOf (distinct : shape.Distinct) (sized : slots.size = shape.size) :
    (entriesOf shape slots).toList = shape.slotList slots := by
  apply Entries.toList_ofList
  have keys := Shape.keys_slotList sized
  rw [Shape.slotList, PropertyList.keys] at keys
  rw [keys]
  exact distinct.nodup_keys

/-- What a store means. -/
def toList (s : PropertyStore) : PropertyList :=
  match s.layout with
  | .shaped shape slots => shape.slotList slots
  | .dictionary entries => entries.toList

@[simp] theorem toList_shaped (table : TableId) (shape : Shape) (slots : Array Value) :
    toList ⟨table, .shaped shape slots⟩ = shape.slotList slots := rfl

@[simp] theorem toList_dictionary (table : TableId) (entries : Entries) :
    toList ⟨table, .dictionary entries⟩ = entries.toList := rfl

theorem toList_empty (table : TableId) : (empty table).toList = [] := rfl

/-- The shape of a shaped store is its table's, and each key has a slot. -/
structure Fits (s : PropertyStore) (t : ShapeTable) : Prop where
  table : s.table = t.id
  held : ∀ {shape slots}, s.layout = .shaped shape slots → t.Holds shape
  sized : ∀ {shape slots}, s.layout = .shaped shape slots → slots.size = shape.size

theorem fits_empty (t : ShapeTable) : (empty t.id).Fits t where
  table := rfl
  held layout := by
    cases layout
    exact t.holds_root
  sized layout := by
    cases layout
    rfl

theorem fits_dictionary {table : TableId} (entries : Entries) (named : table = t.id) :
    Fits ⟨table, .dictionary entries⟩ t where
  table := named
  held layout := by cases layout
  sized layout := by cases layout

theorem Fits.extends (fits : s.Fits t) (le : t.Extends t') : s.Fits t' where
  table := fits.table.trans le.id.symm
  held layout := (fits.held layout).extends le
  sized := fits.sized

theorem Fits.holds (fits : s.Fits t) (found : s.shape? = some shape) : t.Holds shape := by
  obtain ⟨table, layout⟩ := s
  cases layout with
  | dictionary entries => cases found
  | shaped shape slots =>
    cases found
    exact fits.held rfl

theorem keys_of_shape? (found : s.shape? = some shape) : s.keys = shape.keys.toList := by
  obtain ⟨table, layout⟩ := s
  cases layout with
  | dictionary entries => cases found
  | shaped shape slots =>
    cases found
    rfl

/-! ## Writing -/

/-- What writing a property comes to, wherever the table lets the store keep it. -/
structure Inserted (s : PropertyStore) (t : ShapeTable) (key : Key) (value : Value)
    (s' : PropertyStore) (t' : ShapeTable) (place? : Option Location) : Prop where
  wellFormed : t'.WellFormed
  grown : t.Extends t'
  fits : s'.Fits t'
  located : ∀ {place}, place? = some place →
    s'.shape? = some place.shape ∧ place.shape.offset? key = some place.offset
  toList : t.Addressable → s'.toList = s.toList.put key value
  keys : s'.keys = (s.toList.put key value).keys

/-- Writing never faults. -/
theorem Fits.insertLocated (fits : s.Fits t) (w : t.WellFormed) (key : Key) (value : Value) :
    ∃ s' t' place?, s.insertLocated t key value = .ok (s', t', place?) ∧
      Inserted s t key value s' t' place? := by
  obtain ⟨table, layout⟩ := s
  cases layout with
  | dictionary entries =>
    have inserted := entries.toList_insert key value
    refine ⟨_, t, none, rfl, w, .rfl, fits_dictionary _ fits.table, ?_, fun _ => inserted,
      congrArg PropertyList.keys inserted⟩
    rintro _ ⟨⟩
  | shaped shape slots =>
    have held := fits.held rfl
    have sized := fits.sized rfl
    have distinct := w.distinct held
    simp only [PropertyStore.insertLocated]
    cases found : shape.offset? key with
    | some offset =>
      have inside : offset.toNat < slots.size := sized ▸ Shape.offset?_lt found
      refine ⟨⟨table, .shaped shape (slots.setIfInBounds offset.toNat value)⟩, t, some ⟨shape, offset⟩,
        by simp [writeAt_of_lt inside], w, .rfl, ⟨fits.table, ?_, ?_⟩, ?_, fun small => ?_, ?_⟩
      · rintro _ _ ⟨⟩
        exact held
      · rintro _ _ ⟨⟩
        rw [Array.size_setIfInBounds, sized]
      · rintro _ ⟨⟩
        exact ⟨rfl, found⟩
      · exact Shape.slotList_set distinct (w.size_le_of_addressable held small) sized found value
      · have present : key ∈ shape.keys.toList :=
          Array.mem_toList_iff.2 (Shape.mem_keys.2 (Shape.contains_of_offset? found))
        rw [toList_shaped, PropertyList.keys_put, Shape.keys_slotList sized, if_pos present]
        rfl
    | none =>
      have absent := Shape.offset?_eq_none_iff.1 found
      have new : ¬(shape.slotList slots).contains key = true := by
        rw [Shape.contains_slotList sized, absent]
        exact Bool.false_ne_true
      cases done : t.transition shape key with
      | mk answer t' =>
      cases answer with
      | ok next =>
        obtain ⟨w', grown, held', isChild⟩ := w.transition held done
        have isChild := isChild absent
        have sized' : (slots.push value).size = next.size := by
          rw [isChild, Array.size_push, Shape.size_child, sized]
        have written : writeAt (resize slots next.size) (next.size - 1) value =
            .ok (slots.push value) :=
          writeAt_resize (sized'.symm.trans (Array.size_push value)) value
        have pushed : next.slotList (slots.push value) = (shape.slotList slots).put key value := by
          rw [isChild, PropertyList.put, if_neg new]
          exact Shape.slotList_push sized _ key value
        refine ⟨⟨table, .shaped next (slots.push value)⟩, t', some ⟨next, next.size.toUInt32 - 1⟩,
          by simp [written], w', grown, ⟨fits.table.trans grown.id.symm, ?_, ?_⟩, ?_, fun _ => pushed,
          (Shape.keys_slotList sized').symm.trans (congrArg PropertyList.keys pushed)⟩
        · rintro _ _ ⟨⟩
          exact held'
        · rintro _ _ ⟨⟩
          exact sized'
        · rintro _ ⟨⟩
          refine ⟨rfl, ?_⟩
          rw [isChild]
          exact Shape.offset?_last ..
      | error refusal =>
        have inserted : ((entriesOf shape slots).insert key value).toList =
            (shape.slotList slots).put key value := by
          rw [Entries.toList_insert, toList_entriesOf distinct sized]
        obtain rfl := ShapeTable.eq_of_transition_eq_error done
        refine ⟨_, t', none, rfl, w, .rfl, fits_dictionary _ fits.table, ?_, fun _ => inserted,
          congrArg PropertyList.keys inserted⟩
        rintro _ ⟨⟩

theorem inserted_of_insertLocated {place? : Option Location} (fits : s.Fits t) (w : t.WellFormed)
    (done : s.insertLocated t key value = .ok (s', t', place?)) :
    Inserted s t key value s' t' place? := by
  obtain ⟨_, _, _, done', inserted⟩ := fits.insertLocated w key value
  cases done.symm.trans done'
  exact inserted

theorem insert_eq_ok : s.insert t key value = .ok (s', t') ↔
    ∃ place?, s.insertLocated t key value = .ok (s', t', place?) := by
  rw [insert, Checked.bind_eq_ok]
  constructor
  · rintro ⟨⟨_, _, place?⟩, done, ⟨⟩⟩
    exact ⟨place?, done⟩
  · rintro ⟨place?, done⟩
    exact ⟨_, done, rfl⟩

/-! ## Deleting -/

theorem contains_eq (fits : s.Fits t) (key : Key) : s.contains key = s.toList.contains key := by
  obtain ⟨table, layout⟩ := s
  cases layout with
  | dictionary entries => exact entries.contains_eq_contains_toList key
  | shaped shape slots => exact (Shape.contains_slotList (fits.sized rfl)).symm

theorem table_erase (s : PropertyStore) (key : Key) : (s.erase key).1.table = s.table := by
  rw [erase]
  split
  · rfl
  · rfl

theorem Fits.erase (fits : s.Fits t) (key : Key) : (s.erase key).1.Fits t := by
  rw [PropertyStore.erase]
  split
  · exact fits_dictionary _ fits.table
  · exact fits

theorem toList_erase (fits : s.Fits t) (w : t.WellFormed) (key : Key) :
    (s.erase key).1.toList = s.toList.delete key := by
  rw [erase]
  split
  · obtain ⟨table, layout⟩ := s
    cases layout with
    | dictionary entries => exact entries.toList_erase key
    | shaped shape slots =>
      change ((entriesOf shape slots).erase key).toList = (shape.slotList slots).delete key
      rw [Entries.toList_erase, toList_entriesOf (w.distinct (fits.held rfl)) (fits.sized rfl)]
      rfl
  · next absent =>
    rw [contains_eq fits, PropertyList.contains, decide_eq_true_eq] at absent
    refine (List.filter_eq_self.2 fun entry mem => ?_).symm
    rw [decide_eq_true_eq]
    rintro rfl
    exact absent (List.mem_map_of_mem mem)

theorem erase_snd (s : PropertyStore) (key : Key) : (s.erase key).2 = s.contains key := by
  rw [erase]
  split
  · next present => exact present.symm
  · next absent => exact (Bool.not_eq_true _ ▸ absent).symm

/-! ## Reading -/

theorem keys_eq (fits : s.Fits t) : s.keys = s.toList.keys := by
  obtain ⟨table, layout⟩ := s
  cases layout with
  | dictionary entries => rfl
  | shaped shape slots => exact (Shape.keys_slotList (fits.sized rfl)).symm

theorem size_eq (fits : s.Fits t) : s.size = s.toList.length := by
  obtain ⟨table, layout⟩ := s
  cases layout with
  | dictionary entries =>
    change entries.size = entries.toList.length
    rw [← entries.length_keys, Entries.keys, List.length_map]
  | shaped shape slots => exact (Shape.length_slotList (fits.sized rfl)).symm

/-- Looking up a key never faults. -/
theorem Fits.lookup (fits : s.Fits t) (key : Key) : ∃ found, s.lookup key = .ok found ∧
    (∀ {place}, found.location? = some place →
      s.shape? = some place.shape ∧ place.shape.offset? key = some place.offset) ∧
    (t.WellFormed → t.Addressable → found.value = s.toList.get? key) := by
  obtain ⟨table, layout⟩ := s
  cases layout with
  | dictionary entries =>
    refine ⟨_, rfl, ?_, fun _ _ => entries.get?_eq_get?_toList key⟩
    rintro _ ⟨⟩
  | shaped shape slots =>
    have held := fits.held rfl
    have sized := fits.sized rfl
    simp only [PropertyStore.lookup]
    cases found : shape.offset? key with
    | none =>
      refine ⟨_, rfl, ?_, fun w small => ?_⟩
      · rintro _ ⟨⟩
      · rw [toList_shaped,
          Shape.get?_slotList (w.distinct held) (w.size_le_of_addressable held small) sized, found]
        rfl
    | some offset =>
      have inside : offset.toNat < slots.size := sized ▸ Shape.offset?_lt found
      have read : readAt slots offset.toNat = .ok slots[offset.toNat] :=
        readAt_eq_ok.2 (Array.getElem?_eq_getElem inside)
      refine ⟨⟨some shape, some offset, some slots[offset.toNat]⟩, by simp [read], ?_, fun w small => ?_⟩
      · rintro _ ⟨⟩
        exact ⟨rfl, found⟩
      · rw [toList_shaped,
          Shape.get?_slotList (w.distinct held) (w.size_le_of_addressable held small) sized, found,
          Option.bind_some, Array.getElem?_eq_getElem inside]

theorem get?_eq (fits : s.Fits t) (w : t.WellFormed) (small : t.Addressable) (key : Key) :
    s.get? key = .ok (s.toList.get? key) := by
  obtain ⟨found, done, _, value⟩ := fits.lookup key
  rw [get?_of_lookup done, value w small]

end PropertyStore

end ShapeVM
