import ShapeVM.Proofs.Properties.Store

/-!
What a program sees of an object: what each key reads as, which keys are there, and the keys in order.
A write and a deletion are described by what they do to this view, whatever the object keeps its
properties in (`View.Put`, `View.Spares`, `View.Lacks`). A store shows the properties that it means as
long as offsets reach all of its slots (`PropertyStore.Readable`).
-/
namespace ShapeVM

/-- Not every key that is there is listed. -/
structure View where
  get : Key → Option Value
  has : Key → Bool
  keys : List Key

namespace View

structure Lacks (v : View) (key : Key) : Prop where
  get : v.get key = none
  has : v.has key = false

/-- At every other key the two show the same. -/
structure Spares (v : View) (key : Key) (v' : View) : Prop where
  get : ∀ {k}, k ≠ key → v'.get k = v.get k
  has : ∀ {k}, k ≠ key → v'.has k = v.has k

/-- What is seen after a write of a key, whose value may be fixed, to an object that may list what is
added to it. -/
structure Put (v : View) (key : Key) (value : Value) (fixed listed : Prop) (v' : View) : Prop where
  has : v'.has key = true
  get : ¬fixed → v'.get key = some value
  get_of_fixed : fixed → v'.get key = v.get key
  others : v.Spares key v'
  keys : v.has key = true ∨ ¬listed → v'.keys = v.keys
  added : v.has key = false → listed → v'.keys = v.keys ++ [key]

end View

/-! ## Property lists -/

namespace PropertyList

def view (l : PropertyList) : View where
  get := l.get?
  has := l.contains
  keys := l.keys

theorem has_view (l : PropertyList) (key : Key) : l.view.has key = (l.get? key).isSome :=
  l.contains_eq_isSome_get? key

theorem put_view (l : PropertyList) (key : Key) (value : Value) :
    l.view.Put key value False True (l.put key value).view where
  has := by rw [has_view, get?_put, if_pos rfl, Option.isSome_some]
  get _ := (l.get?_put key key value).trans (if_pos rfl)
  get_of_fixed := False.elim
  others.get apart := (l.get?_put key _ value).trans (if_neg apart.symm)
  others.has apart := by rw [has_view, get?_put, if_neg apart.symm, has_view]
  keys present := by
    have mem : key ∈ l.keys := by simpa [view, contains] using present
    exact (l.keys_put key value).trans (if_pos mem)
  added absent _ := by
    have new : key ∉ l.keys := by simpa [view, contains] using absent
    exact (l.keys_put key value).trans (if_neg new)

theorem delete_spares (l : PropertyList) (key : Key) : l.view.Spares key (l.delete key).view where
  get apart := (l.get?_delete key _).trans (if_neg apart.symm)
  has apart := by rw [has_view, get?_delete, if_neg apart.symm, has_view]

theorem delete_lacks (l : PropertyList) (key : Key) : (l.delete key).view.Lacks key where
  get := (l.get?_delete key key).trans (if_pos rfl)
  has := by rw [has_view, get?_delete, if_pos rfl, Option.isSome_none]

end PropertyList

/-! ## Stores -/

namespace PropertyStore

variable {s s' : PropertyStore} {t t' : ShapeTable} {key : Key} {value : Value}

def view (s : PropertyStore) : View := s.toList.view

/-- The store fits a table whose limits let offsets reach every slot. -/
def Readable (s : PropertyStore) : Prop :=
  ∃ t : ShapeTable, s.Fits t ∧ t.WellFormed ∧ t.Addressable

theorem Fits.readable (fits : s.Fits t) (w : t.WellFormed) (small : t.Addressable) : s.Readable :=
  ⟨t, fits, w, small⟩

namespace Readable

variable (readable : s.Readable) (key : Key)
include readable

theorem get?_eq : s.get? key = .ok (s.view.get key) := by
  obtain ⟨t, fits, w, small⟩ := readable
  exact PropertyStore.get?_eq fits w small key

theorem contains_eq : s.contains key = s.view.has key := by
  obtain ⟨t, fits, _, _⟩ := readable
  exact PropertyStore.contains_eq fits key

theorem keys_eq : s.keys = s.view.keys := by
  obtain ⟨t, fits, _, _⟩ := readable
  exact PropertyStore.keys_eq fits

theorem erase : (s.erase key).1.Readable := by
  obtain ⟨t, fits, w, small⟩ := readable
  exact (fits.erase key).readable w small

theorem erase_spares : s.view.Spares key (s.erase key).1.view := by
  obtain ⟨t, fits, w, _⟩ := readable
  rw [view, view, toList_erase fits w]
  exact s.toList.delete_spares key

theorem erase_lacks : (s.erase key).1.view.Lacks key := by
  obtain ⟨t, fits, w, _⟩ := readable
  rw [view, toList_erase fits w]
  exact s.toList.delete_lacks key

theorem erase_snd : (s.erase key).2 = s.view.has key := by
  rw [PropertyStore.erase_snd, readable.contains_eq]

end Readable

theorem Fits.put (fits : s.Fits t) (w : t.WellFormed) (small : t.Addressable)
    (done : s.insert t key value = .ok (s', t')) :
    s'.Readable ∧ s.view.Put key value False True s'.view := by
  obtain ⟨_, done⟩ := insert_eq_ok.1 done
  have inserted := inserted_of_insertLocated fits w done
  refine ⟨inserted.fits.readable inserted.wellFormed (small.extends inserted.grown), ?_⟩
  rw [view, view, inserted.toList small]
  exact s.toList.put_view key value

end PropertyStore

end ShapeVM
