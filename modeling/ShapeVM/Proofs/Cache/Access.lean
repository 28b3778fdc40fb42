import ShapeVM.Cache
import ShapeVM.Proofs.Properties.Store

/-!
Access through a cache is plain access. A cache is bound to a location where objects of one shape keep
its key; if a store that is of the same shape by identity has that very shape, then reading the
location is looking up the key, and writing it is writing the key. An access that does not use the
location searches for the key, and binds the cache to what it finds.
-/
namespace ShapeVM

/-- Objects of the location's shape keep the key at its offset. -/
def Location.Keeps (place : Location) (key : Key) : Prop :=
  place.shape.offset? key = some place.offset

namespace PropertyStore

variable {s s' : PropertyStore} {t : ShapeTable} {place : Location} {key : Key}

/-- A store of the same shape as the location, by identity, has the shape of the location. -/
def Recognizes (s : PropertyStore) (place : Location) : Prop :=
  ∀ {shape}, s.shape? = some shape → shape.same place.shape = true → shape = place.shape

theorem Fits.readLocated (fits : s.Fits t) (sound : s.Recognizes place) (keeps : place.Keeps key) :
    ∃ served, s.readLocated place = .ok served ∧
      ∀ {value}, served = some value → s.get? key = .ok (some value) := by
  obtain ⟨table, layout⟩ := s
  cases layout with
  | dictionary entries => exact ⟨none, rfl, nofun⟩
  | shaped shape slots =>
    cases same : shape.same place.shape with
    | false => exact ⟨none, by simp [PropertyStore.readLocated, same], nofun⟩
    | true =>
      obtain rfl := sound rfl same
      have inside : place.offset.toNat < slots.size := fits.sized rfl ▸ Shape.offset?_lt keeps
      have read : readAt slots place.offset.toNat = .ok slots[place.offset.toNat] :=
        readAt_eq_ok.2 (Array.getElem?_eq_getElem inside)
      refine ⟨some slots[place.offset.toNat], by simp [PropertyStore.readLocated, same, read], ?_⟩
      rintro _ ⟨⟩
      rw [Location.Keeps] at keeps
      simp [get?, keeps, read]

theorem Fits.writeLocated (fits : s.Fits t) (sound : s.Recognizes place) (keeps : place.Keeps key)
    (value : Value) : ∃ served, s.writeLocated place value = .ok served ∧
      ∀ {s'}, served = some s' → s.insertLocated t key value = .ok (s', t, some place) := by
  obtain ⟨table, layout⟩ := s
  cases layout with
  | dictionary entries => exact ⟨none, rfl, nofun⟩
  | shaped shape slots =>
    cases same : shape.same place.shape with
    | false => exact ⟨none, by simp [PropertyStore.writeLocated, same], nofun⟩
    | true =>
      obtain rfl := sound rfl same
      have inside : place.offset.toNat < slots.size := fits.sized rfl ▸ Shape.offset?_lt keeps
      have written := writeAt_of_lt inside value
      refine ⟨some ⟨table, .shaped place.shape (slots.setIfInBounds place.offset.toNat value)⟩,
        by simp [PropertyStore.writeLocated, same, written], ?_⟩
      rintro _ ⟨⟩
      rw [Location.Keeps] at keeps
      simp [PropertyStore.insertLocated, keeps, written]

end PropertyStore

namespace Cache

variable {c : Cache} {s : PropertyStore} {t : ShapeTable}

/-! ## The steps of an access -/

/-- The cache after an access that searched: whatever it was bound to, it is now bound to where the key
was found. -/
def missed (c : Cache) (place? : Option Location) : Cache :=
  { c with binding := place?, misses := c.misses + 1 }

theorem bindFound_of_unbound (unbound : c.binding = none) (place? : Option Location) :
    c.countMiss.bindFound place? = c.missed place? := by
  cases place? with
  | none => simp [bindFound, countMiss, missed, unbound]
  | some location => rfl

/-- Forgetting a location that did not serve and binding to one that was found comes to binding to what
was found or not. -/
theorem fetch_eq (c : Cache) (s : PropertyStore) : c.fetch s = (do
    let served ← match c.binding with
      | some location => s.readLocated location
      | none => pure none
    match served with
    | some value => return (some value, c.countHit)
    | none =>
      let found ← s.lookup c.key
      return (found.value, c.missed found.location?)) := by
  rw [fetch]
  cases bound : c.binding with
  | none =>
    simp only [bindFound_of_unbound bound]
    rfl
  | some location =>
    have unbound : c.unbind.binding = none := rfl
    simp only [bindFound_of_unbound unbound]
    cases s.readLocated location with
    | error fault => rfl
    | ok served =>
      cases served with
      | some answer => rfl
      | none => rfl

theorem store_eq (c : Cache) (s : PropertyStore) (t : ShapeTable) (value : Value) :
    c.store s t value = (do
    let served ← match c.binding with
      | some location => s.writeLocated location value
      | none => pure none
    match served with
    | some s => return (s, t, c.countHit)
    | none =>
      let (s, t, place?) ← s.insertLocated t c.key value
      return (s, t, c.missed place?)) := by
  rw [store]
  cases bound : c.binding with
  | none =>
    simp only [bindFound_of_unbound bound]
    rfl
  | some location =>
    have unbound : c.unbind.binding = none := rfl
    simp only [bindFound_of_unbound unbound]
    cases s.writeLocated location value with
    | error fault => rfl
    | ok served =>
      cases served with
      | some answer => rfl
      | none => rfl

/-! ## Access as without a cache -/

/-- A cache that may be used on a store: its location keeps its key, and the store tells its shape. -/
def UsableOn (c : Cache) (s : PropertyStore) : Prop :=
  ∀ ⦃place⦄, c.binding = some place → place.Keeps c.key ∧ s.Recognizes place

/-- The cache `c'` guards the key of `c`, at its location or at one in a store just accessed. -/
structure Rebound (c : Cache) (s : PropertyStore) (c' : Cache) : Prop where
  key : c'.key = c.key
  binding : c'.binding = c.binding ∨
    ∀ {place}, c'.binding = some place → s.shape? = some place.shape ∧ place.Keeps c.key

/-- Reading through a cache never faults. -/
theorem fetch_eq_get (usable : c.UsableOn s) (fits : s.Fits t) :
    ∃ value c', c.fetch s = .ok (value, c') ∧ s.get? c.key = .ok value ∧ c.Rebound s c' := by
  obtain ⟨found, searched, located, _⟩ := fits.lookup c.key
  have missed := PropertyStore.get?_of_lookup searched
  cases bound : c.binding with
  | none =>
    refine ⟨found.value, c.missed found.location?, by simp [fetch_eq, bound, searched], missed, rfl,
      .inr located⟩
  | some place =>
    obtain ⟨keeps, sound⟩ := usable bound
    obtain ⟨served, read, hit⟩ := fits.readLocated sound keeps
    cases served with
    | some value =>
      exact ⟨some value, c.countHit, by simp [fetch_eq, bound, read], hit rfl, rfl, .inl rfl⟩
    | none =>
      refine ⟨found.value, c.missed found.location?, by simp [fetch_eq, bound, read, searched], missed,
        rfl, .inr located⟩

/-- Writing through a cache never faults. -/
theorem store_eq_insert (usable : c.UsableOn s) (fits : s.Fits t) (w : t.WellFormed) (value : Value) :
    ∃ s' t' c', c.store s t value = .ok (s', t', c') ∧ s.insert t c.key value = .ok (s', t') ∧
      c.Rebound s' c' := by
  obtain ⟨s', t', place?, inserted, spec⟩ := fits.insertLocated w c.key value
  have missed := PropertyStore.insert_eq_ok.2 ⟨_, inserted⟩
  cases bound : c.binding with
  | none =>
    exact ⟨s', t', c.missed place?, by simp [store_eq, bound, inserted], missed, rfl,
      .inr spec.located⟩
  | some place =>
    obtain ⟨keeps, sound⟩ := usable bound
    obtain ⟨served, written, hit⟩ := fits.writeLocated sound keeps value
    cases served with
    | some s'' =>
      exact ⟨s'', t, c.countHit, by simp [store_eq, bound, written],
        PropertyStore.insert_eq_ok.2 ⟨_, hit rfl⟩, rfl, .inl rfl⟩
    | none =>
      exact ⟨s', t', c.missed place?, by simp [store_eq, bound, written, inserted], missed, rfl,
        .inr spec.located⟩

end Cache

end ShapeVM
