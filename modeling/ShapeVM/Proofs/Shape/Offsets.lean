import ShapeVM.Shape.Basic

/-!
Offsets are positions. In a shape that adds no key twice, the offset of a key is its place in the
order of keys, so a key is found at its offset and nowhere else. With 32 bits to an offset this takes
at most 2 ^ 32 keys; that every offset lies below the size takes nothing.
-/
namespace ShapeVM.Shape

variable {s : Shape} {key key' : Key} {offset : UInt32}

theorem size_keys (s : Shape) : s.keys.size = s.size := by
  induction s with
  | root => rfl
  | child parent id key ih => rw [keys, Array.size_push, ih, size_child]

theorem mem_keys : key ∈ s.keys ↔ s.contains key = true := by
  induction s with
  | root => simp [keys]
  | child parent id last ih =>
    rw [keys, Array.mem_push, ih, contains_child, Bool.or_eq_true, decide_eq_true_eq]
    exact or_comm.trans (or_congr_left eq_comm)

theorem contains_of_offset? (h : s.offset? key = some offset) : s.contains key = true := by
  simp [contains, h]

theorem offset?_eq_none_iff : s.offset? key = none ↔ s.contains key = false := by
  simp [contains]

/-- Holds of large shapes too: past 2 ^ 32 an offset falls back, never beyond the slots. -/
theorem offset?_lt (h : s.offset? key = some offset) : offset.toNat < s.size := by
  induction s with
  | root => simp at h
  | child parent id last ih =>
    rw [offset?_child] at h
    rw [size_child]
    split at h
    · cases h
      exact Nat.lt_succ_of_le (Nat.mod_le ..)
    · exact Nat.lt_succ_of_lt (ih h)

/-- The offset of the last key, computed from the size that the shape then has. -/
theorem offset?_last (parent : Shape) (id : Nat) (key : Key) :
    (child parent id key).offset? key = some ((child parent id key).size.toUInt32 - 1) := by
  simp only [offset?_child, if_true, size_child, Option.some.injEq]
  apply UInt32.toBitVec_inj.1
  simp [Nat.toUInt32]

/-! ## Shapes without a key twice -/

/-- Each step from the root adds a key that was not there. -/
def Distinct : Shape → Prop
  | root _ => True
  | child parent _ key => parent.contains key = false ∧ parent.Distinct

theorem Distinct.nodup_keys (h : s.Distinct) : s.keys.toList.Nodup := by
  induction s with
  | root => simp [keys]
  | child parent id key ih =>
    obtain ⟨absent, older⟩ := h
    rw [keys, Array.toList_push]
    refine List.nodup_append.2 ⟨ih older, by simp, ?_⟩
    rintro k mem _ last rfl
    rw [List.mem_singleton.1 last, Array.mem_toList_iff, mem_keys, absent] at mem
    cases mem

/-- The key at an offset. -/
theorem getElem?_keys_of_offset? (large : s.size ≤ UInt32.size) (h : s.offset? key = some offset) :
    s.keys[offset.toNat]? = some key := by
  induction s with
  | root => simp at h
  | child parent id last ih =>
    rw [size_child] at large
    rw [offset?_child] at h
    rw [keys, Array.getElem?_push, size_keys]
    split at h
    · next same =>
      cases h
      rw [Nat.toUInt32_eq, UInt32.toNat_ofNat_of_lt' large, if_pos rfl, same]
    · have := offset?_lt h
      rw [if_neg (Nat.ne_of_lt this)]
      exact ih (Nat.le_of_succ_le large) h

/-- An offset leads to one key and a key to one offset. -/
theorem Distinct.offset?_eq_some_iff (distinct : s.Distinct) (large : s.size ≤ UInt32.size) :
    s.offset? key = some offset ↔ s.keys[offset.toNat]? = some key := by
  refine ⟨getElem?_keys_of_offset? large, fun h => ?_⟩
  have present : s.contains key = true := mem_keys.1 (Array.mem_of_getElem? h)
  obtain ⟨found, hfound⟩ := Option.isSome_iff_exists.1 present
  have at_found := getElem?_keys_of_offset? large hfound
  rw [← Array.getElem?_toList] at h at_found
  have same : found.toNat = offset.toNat :=
    (List.getElem?_inj (List.getElem?_eq_some_iff.1 at_found).1 distinct.nodup_keys).1
      (at_found.trans h.symm)
  rw [hfound, UInt32.toNat_inj.1 same]

/-- As numbers, offsets and places are the same. -/
theorem Distinct.toNat_offset?_eq_some_iff {place : Nat} (distinct : s.Distinct)
    (large : s.size ≤ UInt32.size) :
    (s.offset? key).map UInt32.toNat = some place ↔ s.keys[place]? = some key := by
  constructor
  · intro found
    obtain ⟨offset, isOffset, rfl⟩ := Option.map_eq_some_iff.1 found
    exact getElem?_keys_of_offset? large isOffset
  · intro isKey
    have inside : place < s.size := size_keys s ▸ (Array.getElem?_eq_some_iff.1 isKey).1
    have isNumber : place.toUInt32.toNat = place :=
      UInt32.toNat_ofNat_of_lt' (Nat.lt_of_lt_of_le inside large)
    rw [← isNumber] at isKey
    rw [(distinct.offset?_eq_some_iff large).2 isKey, Option.map_some, isNumber]

/-- The offsets are the numbers below the size. -/
theorem Distinct.exists_toNat_offset?_iff {place : Nat} (distinct : s.Distinct)
    (large : s.size ≤ UInt32.size) :
    (∃ key, (s.offset? key).map UInt32.toNat = some place) ↔ place < s.size := by
  simp only [distinct.toNat_offset?_eq_some_iff large]
  rw [← size_keys]
  constructor
  · rintro ⟨key, isKey⟩
    exact (Array.getElem?_eq_some_iff.1 isKey).1
  · intro inside
    exact ⟨_, Array.getElem?_eq_getElem inside⟩

/-- A shape keeps the offsets of its parent. -/
theorem Distinct.offset?_of_mem_parent {parent : Shape} {id : Nat} {last : Key}
    (distinct : (child parent id last).Distinct) (mem : key ∈ parent.keys) :
    (child parent id last).offset? key = parent.offset? key := by
  have other : last ≠ key := by
    rintro rfl
    rw [mem_keys, distinct.1] at mem
    cases mem
  rw [offset?_child, if_neg other]

end ShapeVM.Shape
