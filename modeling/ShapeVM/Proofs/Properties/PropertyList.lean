import ShapeVM.Properties.Entries

/-!
Property lists: the properties of an object in the order in which their keys were added. They are what
a property store means, whatever its layout (`PropertyStore.toList`).
-/
namespace ShapeVM

abbrev PropertyList := List (Key × Value)

namespace PropertyList

def keys (l : PropertyList) : List Key := l.map (·.1)

def get? (l : PropertyList) (key : Key) : Option Value := l.lookup key

def contains (l : PropertyList) (key : Key) : Bool := decide (key ∈ l.keys)

/-- A key that is there keeps its place, and a new one goes last. -/
def put (l : PropertyList) (key : Key) (value : Value) : PropertyList :=
  if l.contains key then l.map fun entry => if entry.1 = key then (key, value) else entry
  else l ++ [(key, value)]

/-- The other keys keep their order. -/
def delete (l : PropertyList) (key : Key) : PropertyList := l.filter (·.1 ≠ key)

variable {l : PropertyList} {key k : Key} {value : Value}

@[simp] theorem get?_nil (key : Key) : get? [] key = none := rfl

theorem get?_cons (entry : Key × Value) (l : PropertyList) (key : Key) :
    get? (entry :: l) key = if entry.1 = key then some entry.2 else get? l key := by
  rw [get?, List.lookup_cons]
  by_cases here : entry.1 = key
  · simp [here]
  · rw [beq_eq_false_iff_ne.2 (Ne.symm here), if_neg here, get?]

theorem contains_eq_isSome_get? (l : PropertyList) (key : Key) :
    l.contains key = (l.get? key).isSome := by
  rw [Bool.eq_iff_iff, contains, get?, List.lookup_isSome_iff, decide_eq_true_eq, keys, List.mem_map]
  constructor
  · rintro ⟨entry, mem, rfl⟩
    exact ⟨entry, mem, beq_self_eq_true _⟩
  · rintro ⟨entry, mem, same⟩
    exact ⟨entry, mem, (eq_of_beq same).symm⟩

theorem get?_eq_some_iff (distinct : l.keys.Nodup) : l.get? key = some value ↔ (key, value) ∈ l := by
  induction l with
  | nil => simp
  | cons entry l ih =>
    obtain ⟨new, distinct⟩ := List.nodup_cons.1 distinct
    rw [get?_cons, List.mem_cons, ← ih distinct]
    split
    · next here =>
      subst here
      have elsewhere : get? l entry.1 ≠ some value := fun found =>
        new (List.mem_map.2 ⟨_, (ih distinct).1 found, rfl⟩)
      simp [elsewhere, Prod.ext_iff, eq_comm]
    · next here => simp [Prod.ext_iff, Ne.symm here]

/-- Overwriting what is at a key, wherever that is. -/
private theorem get?_map_overwrite (l : PropertyList) (key k : Key) (value : Value) :
    get? (l.map fun entry => if entry.1 = key then (key, value) else entry) k =
      if key = k then (l.get? k).map fun _ => value else l.get? k := by
  induction l with
  | nil => simp
  | cons entry l ih =>
    rw [List.map_cons, get?_cons, get?_cons, ih]
    by_cases here : entry.1 = key
    · subst here
      by_cases same : entry.1 = k <;> simp [same]
    · by_cases same : key = k
      · subst same
        simp [here]
      · simp [here, same]

theorem get?_put (l : PropertyList) (key k : Key) (value : Value) :
    (l.put key value).get? k = if key = k then some value else l.get? k := by
  rw [put]
  split
  · next present =>
    rw [get?_map_overwrite]
    split
    · next same =>
      subst same
      rw [contains_eq_isSome_get?] at present
      obtain ⟨old, found⟩ := Option.isSome_iff_exists.1 present
      rw [found, Option.map_some]
    · rfl
  · next absent =>
    rw [Bool.not_eq_true, contains_eq_isSome_get?, Option.isSome_eq_false_iff,
      Option.isNone_iff_eq_none] at absent
    rw [get?, List.lookup_append, ← get?, ← get?, get?_cons]
    by_cases same : key = k
    · subst same
      simp [absent]
    · simp [same]

theorem get?_delete (l : PropertyList) (key k : Key) :
    (l.delete key).get? k = if key = k then none else l.get? k := by
  induction l with
  | nil => simp [delete]
  | cons entry l ih =>
    rw [delete, List.filter_cons, ← delete, get?_cons]
    by_cases here : entry.1 = key
    · subst here
      by_cases same : entry.1 = k
      · subst same
        simpa using ih
      · simp [same, ih]
    · by_cases same : key = k
      · subst same
        simp [here, get?_cons, ih]
      · simp [here, get?_cons, ih, same]

theorem contains_put (l : PropertyList) (key k : Key) (value : Value) :
    (l.put key value).contains k = (decide (key = k) || l.contains k) := by
  rw [contains_eq_isSome_get?, get?_put, contains_eq_isSome_get?]
  by_cases same : key = k
  · simp [same]
  · simp [same]

theorem contains_delete (l : PropertyList) (key k : Key) :
    (l.delete key).contains k = (!decide (key = k) && l.contains k) := by
  rw [contains_eq_isSome_get?, get?_delete, contains_eq_isSome_get?]
  by_cases same : key = k
  · simp [same]
  · simp [same]

end PropertyList

/-! ## Histories of changes -/

/-- A change of an object's properties. -/
inductive Edit where
  | put (key : Key) (value : Value)
  | delete (key : Key)
  deriving DecidableEq

namespace PropertyList

def edit (l : PropertyList) : Edit → PropertyList
  | .put key value => l.put key value
  | .delete key => l.delete key

/-- The properties after a history of changes, the newest first. -/
def ofEdits : List Edit → PropertyList
  | [] => []
  | e :: edits => (ofEdits edits).edit e

variable {l l' : PropertyList} {key : Key} {edits : List Edit}

theorem keys_put (l : PropertyList) (key : Key) (value : Value) :
    (l.put key value).keys = if key ∈ l.keys then l.keys else l.keys ++ [key] := by
  simp only [put, contains, decide_eq_true_eq]
  split
  · rw [keys, keys, List.map_map]
    refine List.map_congr_left fun entry _ => ?_
    rw [Function.comp_apply]
    split
    · next same => exact same.symm
    · rfl
  · rw [keys, List.map_append, List.map_singleton, ← keys]

theorem keys_delete (l : PropertyList) (key : Key) :
    (l.delete key).keys = l.keys.filter (· ≠ key) := by
  rw [delete, keys, keys, List.filter_map]
  rfl

/-- The values have no part in the order of the keys. -/
theorem keys_edit_congr (same : l.keys = l'.keys) (e : Edit) : (l.edit e).keys = (l'.edit e).keys := by
  cases e with
  | put key value => rw [edit, edit, keys_put, keys_put, same]
  | delete key => rw [edit, edit, keys_delete, keys_delete, same]

theorem nodup_keys_ofEdits (edits : List Edit) : (ofEdits edits).keys.Nodup := by
  induction edits with
  | nil => exact List.nodup_nil
  | cons e edits ih =>
    cases e with
    | put key value =>
      rw [ofEdits, edit, keys_put]
      split
      · exact ih
      · next absent =>
        refine List.nodup_append.2 ⟨ih, List.pairwise_singleton .., ?_⟩
        rintro k mem _ last rfl
        exact absurd (List.mem_singleton.1 last ▸ mem) absent
    | delete key =>
      rw [ofEdits, edit, keys_delete]
      exact ih.filter _

/-- Only what was put is there. -/
theorem mem_keys_ofEdits (mem : key ∈ (ofEdits edits).keys) : ∃ value, .put key value ∈ edits := by
  induction edits with
  | nil => cases mem
  | cons e edits ih =>
    have older (mem : key ∈ (ofEdits edits).keys) : ∃ value, .put key value ∈ e :: edits := by
      obtain ⟨value, mem⟩ := ih mem
      exact ⟨value, List.mem_cons_of_mem _ mem⟩
    cases e with
    | put key' value =>
      rw [ofEdits, edit, keys_put] at mem
      split at mem
      · exact older mem
      · rcases List.mem_append.1 mem with mem | last
        · exact older mem
        · obtain rfl := List.mem_singleton.1 last
          exact ⟨value, List.mem_cons_self⟩
    | delete key' =>
      rw [ofEdits, edit, keys_delete] at mem
      exact older (List.mem_filter.1 mem).1

end PropertyList

/-! ## Dictionaries as property lists -/

namespace Entries

theorem get?_eq_get?_toList (e : Entries) (key : Key) :
    e.get? key = PropertyList.get? e.toList key := by
  refine Option.ext fun value => ?_
  rw [get?_eq_some_iff, PropertyList.get?_eq_some_iff e.nodup_keys]

theorem contains_eq_contains_toList (e : Entries) (key : Key) :
    e.contains key = PropertyList.contains e.toList key := by
  rw [contains_eq_isSome_get?, PropertyList.contains_eq_isSome_get?, get?_eq_get?_toList]

theorem toList_insert (e : Entries) (key : Key) (value : Value) :
    (e.insert key value).toList = PropertyList.put e.toList key value := by
  rw [PropertyList.put, ← contains_eq_contains_toList]
  split
  · next present => exact e.toList_insert_of_contains key value present
  · next absent => exact e.toList_insert_of_not_contains key value (by simpa using absent)

end Entries

end ShapeVM
