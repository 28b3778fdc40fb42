import Std.Data.ExtTreeMap
import ShapeVM.Value

/-!
Entries: properties by key, listed in the order in which the keys were added. A key that is written
again keeps its place; a key that is erased and added again goes last.

Each addition of a key has a number, and each key that is there refers to its addition. `toList` is the
view: `toList_insert_of_contains`, `toList_insert_of_not_contains` and `toList_erase` say what the
operations do to it, and `get?_eq_some_iff` that a key is looked up in it.
-/
namespace ShapeVM

/-- Additions are listed with the newest first. The addition of an erased key stays in the list, where
nothing refers to it any more. -/
structure Entries where
  additions : List (Nat × Key) := []
  current : Std.ExtTreeMap Key (Nat × Value) := ∅
  numbered : additions.Pairwise fun newer older => older.1 < newer.1 := by simp
  recorded : ∀ key n value, current[key]? = some (n, value) → (n, key) ∈ additions := by simp
  deriving DecidableEq

namespace Entries

def empty : Entries := {}

/-- The number of the next addition. -/
def next : List (Nat × Key) → Nat
  | [] => 0
  | newest :: _ => newest.1 + 1

theorem lt_next {additions : List (Nat × Key)}
    (h : additions.Pairwise fun newer older => older.1 < newer.1) {a : Nat × Key}
    (mem : a ∈ additions) : a.1 < next additions := by
  cases additions with
  | nil => cases mem
  | cons newest older =>
    have := (List.pairwise_cons.1 h).1
    rcases List.mem_cons.1 mem with rfl | mem
    · exact Nat.lt_succ_self _
    · exact Nat.lt_succ_of_lt (this a mem)

def size (e : Entries) : Nat := e.current.size

def contains (e : Entries) (key : Key) : Bool := e.current.contains key

def get? (e : Entries) (key : Key) : Option Value := e.current[key]?.map (·.2)

/-- The entry that an addition made, if its key still refers to it. -/
def live? (current : Std.ExtTreeMap Key (Nat × Value)) (a : Nat × Key) : Option (Key × Value) :=
  match current[a.2]? with
  | some (n, value) => if n = a.1 then some (a.2, value) else none
  | none => none

def toList (e : Entries) : List (Key × Value) := e.additions.reverse.filterMap (live? e.current)

def keys (e : Entries) : List Key := e.toList.map (·.1)

def insert (e : Entries) (key : Key) (value : Value) : Entries :=
  match found : e.current[key]? with
  | some (n, _) =>
    { e with
      current := e.current.insert key (n, value)
      recorded := by
        intro k m v h
        rw [Std.ExtTreeMap.getElem?_insert] at h
        have := e.recorded k m v
        have := e.recorded key n _ found
        grind }
  | none =>
    { additions := (next e.additions, key) :: e.additions
      current := e.current.insert key (next e.additions, value)
      numbered := List.pairwise_cons.2 ⟨fun _ mem => lt_next e.numbered mem, e.numbered⟩
      recorded := by
        intro k m v h
        rw [Std.ExtTreeMap.getElem?_insert] at h
        have := e.recorded k m v
        grind }

def erase (e : Entries) (key : Key) : Entries :=
  { e with
    current := e.current.erase key
    recorded := by
      intro k m v h
      rw [Std.ExtTreeMap.getElem?_erase] at h
      exact e.recorded k m v (by grind) }

def ofList (l : List (Key × Value)) : Entries :=
  l.foldl (fun e entry => e.insert entry.1 entry.2) empty

/-! ## Looking up -/

theorem contains_eq_isSome_get? (e : Entries) (key : Key) : e.contains key = (e.get? key).isSome := by
  rw [contains, get?, Option.isSome_map, Std.ExtTreeMap.contains_eq_isSome_getElem?]

theorem current_insert (e : Entries) (key : Key) (value : Value) :
    ∃ n, (e.insert key value).current = e.current.insert key (n, value) := by
  simp only [insert]
  split <;> exact ⟨_, rfl⟩

theorem get?_insert (e : Entries) (key k : Key) (value : Value) :
    (e.insert key value).get? k = if key = k then some value else e.get? k := by
  obtain ⟨n, h⟩ := e.current_insert key value
  simp only [get?, h, Std.ExtTreeMap.getElem?_insert, Std.compare_eq_iff_eq]
  split <;> rfl

theorem get?_erase (e : Entries) (key k : Key) :
    (e.erase key).get? k = if key = k then none else e.get? k := by
  simp only [get?, erase, Std.ExtTreeMap.getElem?_erase, Std.compare_eq_iff_eq]
  split <;> rfl

/-! ## The list of entries -/

private theorem filterMap_eq {f g : Nat × Key → Option (Key × Value)} {l : List (Nat × Key)}
    (h : ∀ a ∈ l, f a = g a) : l.filterMap f = l.filterMap g := by
  induction l with
  | nil => rfl
  | cons a l ih =>
    simp only [List.filterMap_cons, h a List.mem_cons_self,
      ih fun b mem => h b (List.mem_cons_of_mem a mem)]

theorem toList_empty : empty.toList = [] := rfl

theorem live?_eq_some_iff {current : Std.ExtTreeMap Key (Nat × Value)} {a : Nat × Key}
    {entry : Key × Value} :
    live? current a = some entry ↔ entry.1 = a.2 ∧ current[a.2]? = some (a.1, entry.2) := by
  obtain ⟨key, value⟩ := entry
  simp only [live?]
  split <;> grind

/-- A key is listed with the value that it reads as. -/
theorem get?_eq_some_iff (e : Entries) (key : Key) (value : Value) :
    e.get? key = some value ↔ (key, value) ∈ e.toList := by
  simp only [toList, List.mem_filterMap, List.mem_reverse, live?_eq_some_iff]
  constructor
  · intro h
    obtain ⟨⟨n, v⟩, found, rfl⟩ := Option.map_eq_some_iff.1 h
    exact ⟨(n, key), e.recorded key n v found, rfl, found⟩
  · rintro ⟨a, _, rfl, found⟩
    simp [get?, found]

/-- A new key goes last. -/
theorem toList_insert_of_not_contains (e : Entries) (key : Key) (value : Value)
    (h : e.contains key = false) : (e.insert key value).toList = e.toList ++ [(key, value)] := by
  simp only [insert]
  split
  · next found => simp [contains_eq_isSome_get?, get?, found] at h
  · next absent =>
    simp only [toList, List.reverse_cons, List.filterMap_append]
    congr 1
    · apply filterMap_eq
      intro a mem
      have := lt_next e.numbered (List.mem_reverse.1 mem)
      simp only [live?, Std.ExtTreeMap.getElem?_insert, Std.compare_eq_iff_eq]
      by_cases hk : key = a.2
      · simp [← hk, absent, Nat.ne_of_gt this]
      · simp [hk]
    · simp [live?]

/-- A key that is there keeps its place. -/
theorem toList_insert_of_contains (e : Entries) (key : Key) (value : Value)
    (h : e.contains key = true) :
    (e.insert key value).toList =
      e.toList.map fun entry => if entry.1 = key then (key, value) else entry := by
  simp only [insert]
  split
  · next n v found =>
    simp only [toList, List.map_filterMap]
    apply filterMap_eq
    intro a _
    simp only [live?, Std.ExtTreeMap.getElem?_insert, Std.compare_eq_iff_eq]
    by_cases hk : key = a.2
    · subst hk
      simp only [found, if_true]
      split <;> simp
    · simp only [hk, if_false]
      split <;> grind
  · next absent => simp [contains_eq_isSome_get?, get?, absent] at h

theorem toList_erase (e : Entries) (key : Key) :
    (e.erase key).toList = e.toList.filter (·.1 ≠ key) := by
  simp only [toList, erase, List.filter_filterMap]
  apply filterMap_eq
  intro a _
  simp only [live?, Std.ExtTreeMap.getElem?_erase, Std.compare_eq_iff_eq]
  by_cases hk : key = a.2
  · subst hk
    split <;> grind
  · split <;> grind

/-- No key is listed twice. -/
theorem nodup_keys (e : Entries) : e.keys.Nodup := by
  simp only [keys, toList, List.Nodup, List.pairwise_map, List.pairwise_filterMap,
    List.pairwise_reverse]
  apply e.numbered.imp
  intro newer older lt entry h entry' h' same
  rw [live?_eq_some_iff] at h h'
  grind

theorem mem_keys (e : Entries) (key : Key) : key ∈ e.keys ↔ e.contains key = true := by
  rw [contains_eq_isSome_get?, Option.isSome_iff_exists]
  simp only [get?_eq_some_iff, keys, List.mem_map, Prod.exists, exists_and_right, exists_eq_right]

/-- A list without a key twice is the list of its own entries. -/
theorem toList_ofList {l : List (Key × Value)} (h : (l.map (·.1)).Nodup) : (ofList l).toList = l := by
  have step (e : Entries) (h : (e.keys ++ l.map (·.1)).Nodup) :
      (l.foldl (fun e entry => e.insert entry.1 entry.2) e).toList = e.toList ++ l := by
    induction l generalizing e with
    | nil => simp
    | cons entry l ih =>
      have absent : e.contains entry.1 = false := by
        rw [← Bool.not_eq_true, ← mem_keys]
        grind
      have added := e.toList_insert_of_not_contains entry.1 entry.2 absent
      rw [List.foldl_cons, ih]
      · simp [added]
      · grind
      · simpa [keys, added] using h
  simpa [ofList, keys, toList_empty] using step empty (by simpa [keys, toList_empty] using h)

theorem length_keys (e : Entries) : e.keys.length = e.size := by
  have same : e.keys.Perm e.current.keys :=
    (List.perm_ext_iff_of_nodup e.nodup_keys e.current.nodup_keys).2 fun key => by
      rw [mem_keys, contains, Std.ExtTreeMap.mem_keys, Std.ExtTreeMap.mem_iff_contains]
  rw [same.length_eq, Std.ExtTreeMap.length_keys, size]

end Entries

end ShapeVM
