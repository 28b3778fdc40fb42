import ShapeVM.Proofs.Cache.Access

/-!
A cache after an access. Whether the access was served by the remembered location or not, the cache
then remembers what a look-up of its key in the object reports, and has counted one hit or one miss
more.
-/
namespace ShapeVM

namespace PropertyStore

variable {s s' : PropertyStore} {t t' : ShapeTable} {place : Location} {key : Key} {value : Value}

/-- The store has the location's shape, by identity. -/
def hasShapeOf (s : PropertyStore) (place : Location) : Bool := s.shape?.any (·.same place.shape)

theorem isSome_of_readLocated {served : Option Value} (done : s.readLocated place = .ok served) :
    served.isSome = s.hasShapeOf place := by
  obtain ⟨table, layout⟩ := s
  cases layout with
  | dictionary entries =>
    cases done
    rfl
  | shaped shape slots =>
    change _ = shape.same place.shape
    simp only [readLocated] at done
    split at done
    · next same =>
      obtain ⟨_, _, ⟨⟩⟩ := Checked.bind_eq_ok.1 done
      exact same.symm
    · next other =>
      cases done
      exact (Bool.not_eq_true _ ▸ other).symm

theorem isSome_of_writeLocated {served : Option PropertyStore}
    (done : s.writeLocated place value = .ok served) : served.isSome = s.hasShapeOf place := by
  obtain ⟨table, layout⟩ := s
  cases layout with
  | dictionary entries =>
    cases done
    rfl
  | shaped shape slots =>
    change _ = shape.same place.shape
    simp only [writeLocated] at done
    split at done
    · next same =>
      obtain ⟨_, _, ⟨⟩⟩ := Checked.bind_eq_ok.1 done
      exact same.symm
    · next other =>
      cases done
      exact (Bool.not_eq_true _ ▸ other).symm

/-- A look-up reports the location at which objects of the store's shape keep the key. -/
theorem Fits.lookup_of_keeps (fits : s.Fits t) (isShape : s.shape? = some place.shape)
    (keeps : place.Keeps key) : ∃ found, s.lookup key = .ok found ∧ found.location? = some place := by
  obtain ⟨found, searched, _⟩ := fits.lookup key
  refine ⟨found, searched, ?_⟩
  obtain ⟨table, layout⟩ := s
  cases layout with
  | dictionary entries => cases isShape
  | shaped shape slots =>
    cases isShape
    rw [Location.Keeps] at keeps
    simp only [PropertyStore.lookup, keeps] at searched
    obtain ⟨_, _, ⟨⟩⟩ := Checked.bind_eq_ok.1 searched
    rfl

theorem lookup_of_shape?_eq_none (isDictionary : s.shape? = none) (key : Key) :
    ∃ found, s.lookup key = .ok found ∧ found.location? = none := by
  obtain ⟨table, layout⟩ := s
  cases layout with
  | dictionary entries => exact ⟨_, rfl, rfl⟩
  | shaped shape slots => cases isDictionary

/-- A write that does not say where the property is has left it in a dictionary. -/
theorem shape?_of_insertLocated (done : s.insertLocated t key value = .ok (s', t', none)) :
    s'.shape? = none := by
  obtain ⟨table, layout⟩ := s
  cases layout with
  | dictionary entries =>
    cases done
    rfl
  | shaped shape slots =>
    simp only [insertLocated] at done
    split at done
    · obtain ⟨_, _, ⟨⟩⟩ := Checked.bind_eq_ok.1 done
    · split at done
      · obtain ⟨_, _, ⟨⟩⟩ := Checked.bind_eq_ok.1 done
      · cases done
        rfl

/-- A write says where a look-up then finds the property. -/
theorem Fits.lookup_of_insertLocated {place? : Option Location} (fits : s.Fits t) (w : t.WellFormed)
    (done : s.insertLocated t key value = .ok (s', t', place?)) :
    ∃ found, s'.lookup key = .ok found ∧ found.location? = place? := by
  cases place? with
  | none => exact lookup_of_shape?_eq_none (shape?_of_insertLocated done) key
  | some place =>
    have spec := inserted_of_insertLocated fits w done
    obtain ⟨isShape, keeps⟩ := spec.located rfl
    exact spec.fits.lookup_of_keeps isShape keeps

end PropertyStore

namespace Cache

variable {c : Cache} {s : PropertyStore} {t : ShapeTable}

/-- The remembered location serves an access to the store. -/
def serves (c : Cache) (s : PropertyStore) : Bool := c.binding.any s.hasShapeOf

/-- The cache after an access that was served by its location or not, when the key is then found at
`place?`. -/
def accessed (c : Cache) (served : Bool) (place? : Option Location) : Cache :=
  if served then { c with binding := place?, hits := c.hits + 1 }
  else { c with binding := place?, misses := c.misses + 1 }

theorem key_accessed (c : Cache) (served : Bool) (place? : Option Location) :
    (c.accessed served place?).key = c.key := by
  cases served with
  | true => rfl
  | false => rfl

theorem binding_accessed (c : Cache) (served : Bool) (place? : Option Location) :
    (c.accessed served place?).binding = place? := by
  cases served with
  | true => rfl
  | false => rfl

/-- A location that served is where a look-up finds the key. -/
theorem UsableOn.lookup {place : Location} (usable : c.UsableOn s) (fits : s.Fits t)
    (bound : c.binding = some place) (served : s.hasShapeOf place = true) :
    ∃ found, s.lookup c.key = .ok found ∧ found.location? = c.binding := by
  obtain ⟨keeps, recognizes⟩ := usable bound
  obtain ⟨shape, isShape, same⟩ := (Option.any_eq_true ..).1 served
  obtain rfl := recognizes isShape same
  rw [bound]
  exact fits.lookup_of_keeps isShape keeps

theorem fetch_eq_accessed (usable : c.UsableOn s) (fits : s.Fits t) :
    ∃ value found, c.fetch s = .ok (value, c.accessed (c.serves s) found.location?) ∧
      s.lookup c.key = .ok found := by
  obtain ⟨found, searched, _⟩ := fits.lookup c.key
  cases bound : c.binding with
  | none =>
    exact ⟨found.value, found, by simp [fetch_eq, missed, serves, accessed, bound, searched], searched⟩
  | some place =>
    obtain ⟨keeps, recognizes⟩ := usable bound
    obtain ⟨served, read, _⟩ := fits.readLocated recognizes keeps
    have hit := PropertyStore.isSome_of_readLocated read
    cases served with
    | none =>
      refine ⟨found.value, found, ?_, searched⟩
      simp [fetch_eq, missed, serves, accessed, bound, read, searched, ← hit]
    | some value =>
      obtain ⟨found, searched, located⟩ := usable.lookup fits bound hit.symm
      rw [bound] at located
      refine ⟨some value, found, ?_, searched⟩
      simp [fetch_eq, countHit, serves, accessed, bound, read, located, ← hit]

theorem store_eq_accessed (usable : c.UsableOn s) (fits : s.Fits t) (w : t.WellFormed) (value : Value) :
    ∃ s' t' found, c.store s t value = .ok (s', t', c.accessed (c.serves s) found.location?) ∧
      s'.lookup c.key = .ok found := by
  obtain ⟨s', t', place?, inserted, _⟩ := fits.insertLocated w c.key value
  obtain ⟨found, searched, located⟩ := fits.lookup_of_insertLocated w inserted
  cases bound : c.binding with
  | none =>
    refine ⟨s', t', found, ?_, searched⟩
    simp [store_eq, missed, serves, accessed, bound, inserted, located]
  | some place =>
    obtain ⟨keeps, recognizes⟩ := usable bound
    obtain ⟨served, written, asInsert⟩ := fits.writeLocated recognizes keeps value
    have hit := PropertyStore.isSome_of_writeLocated written
    cases served with
    | none =>
      refine ⟨s', t', found, ?_, searched⟩
      simp [store_eq, missed, serves, accessed, bound, written, inserted, located, ← hit]
    | some s'' =>
      obtain ⟨found, searched, located⟩ := fits.lookup_of_insertLocated w (asInsert rfl)
      refine ⟨s'', t, found, ?_, searched⟩
      simp [store_eq, countHit, serves, accessed, bound, written, located, ← hit]

end Cache

end ShapeVM
