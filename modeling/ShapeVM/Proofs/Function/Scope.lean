import ShapeVM.Function.Scope

/-!
How names resolve in a function. The map of positions is built in three passes, and what a later pass
enters replaces what an earlier one did; so the last binding of a name hides the others, whether they
are parameters or locals, and `arguments` stands behind all of them (`resolve?_name`). Sorting the
entries of the map by their positions lists the names that resolve, and as no position is that of two
keys, in one order only (`lists_boundKeys`, `keysByPosition_of_perm`).
-/
namespace ShapeVM.Function

variable {f : Function} {s : String} {i : UInt32} {key : Key}

/-! ## Bindings -/

/-- The names of the bindings in the order of their positions. -/
def names (f : Function) : List String := f.paramNames ++ f.localNames

theorem bindingName?_eq (f : Function) (i : UInt32) : f.bindingName? i = f.names[i.toNat]? :=
  List.getElem?_append.symm

/-- The position is that of the last binding with the name. -/
structure LastAt (f : Function) (s : String) (i : UInt32) : Prop where
  here : f.names[i.toNat]? = some s
  later : ∀ {k}, i.toNat < k → f.names[k]? ≠ some s

theorem LastAt.mem (last : f.LastAt s i) : s ∈ f.names := List.mem_of_getElem? last.here

/-! ## A pass -/

theorem getElem?_enterAt (positions : Std.ExtTreeMap Key UInt32) (i : UInt32) (s : String) :
    (enterAt f.bindingName? positions i)[Key.name s]? =
      if f.bindingName? i = some s then some i else positions[Key.name s]? := by
  rw [enterAt]
  cases f.bindingName? i with
  | none => simp
  | some name => simp [Std.ExtTreeMap.getElem?_insert]

/-- A name is where the pass enters it last, and otherwise where it was. -/
theorem getElem?_foldl_enterAt (is : List UInt32) (positions : Std.ExtTreeMap Key UInt32) (s : String) :
    (is.foldl (enterAt f.bindingName?) positions)[Key.name s]? =
      (is.reverse.find? fun i => f.bindingName? i = some s).or positions[Key.name s]? := by
  induction is generalizing positions with
  | nil => simp
  | cons i is ih =>
    rw [List.foldl_cons, ih, List.reverse_cons, List.find?_append, Option.or_assoc, getElem?_enterAt,
      List.find?_singleton]
    congr 1
    split
    · simp [*]
    · simp [*]

theorem getElem?_foldl_enterAt_index (is : List UInt32) (positions : Std.ExtTreeMap Key UInt32)
    (k : UInt32) :
    (is.foldl (enterAt f.bindingName?) positions)[Key.index k]? = positions[Key.index k]? := by
  induction is generalizing positions with
  | nil => rfl
  | cons i is ih =>
    rw [List.foldl_cons, ih, enterAt]
    cases f.bindingName? i with
    | none => rfl
    | some name => simp [Std.ExtTreeMap.getElem?_insert]

/-- A key that is there already keeps its position. -/
theorem getElem?_insertIfNew (positions : Std.ExtTreeMap Key UInt32) (k key : Key) (i : UInt32) :
    (positions.insertIfNew k i)[key]? = positions[key]?.or (if k = key then some i else none) := by
  rw [Std.ExtTreeMap.getElem?_insertIfNew]
  by_cases same : k = key
  · subst same
    by_cases there : k ∈ positions
    · simp [there]
    · simp [there]
  · simp [same]

/-- An index is not the name of a binding. -/
@[simp] theorem resolve?_index (f : Function) (k : UInt32) : f.resolve? (.index k) = none := by
  simp [resolve?, positions, positionsBy, getElem?_foldl_enterAt_index, getElem?_insertIfNew]

/-! ## The three passes -/

section

variable (few : f.names.length < UInt32.size)
include few

theorem toNat_bindingCount : f.bindingCount.toNat = f.names.length := by
  rw [names, List.length_append] at few ⊢
  have params : f.paramCount.toNat = f.paramNames.length % 2 ^ 32 := rfl
  have locals : f.localCount.toNat = f.localNames.length % 2 ^ 32 := rfl
  rw [bindingCount, UInt32.toNat_add, params, locals, ← Nat.add_mod]
  exact Nat.mod_eq_of_lt few

/-- The passes over the parameters and over the locals pass over all positions in turn. -/
theorem positionsBetween_append :
    positionsBetween 0 f.paramCount ++ positionsBetween f.paramCount f.bindingCount =
      (List.range f.names.length).map Nat.toUInt32 := by
  have total := toNat_bindingCount few
  have length : f.names.length = f.paramNames.length + f.localNames.length := List.length_append
  have params : f.paramCount.toNat = f.paramNames.length :=
    UInt32.toNat_ofNat_of_lt' (by omega)
  rw [positionsBetween, positionsBetween, ← List.map_append, total, params, List.range_eq_range', length,
    Nat.add_sub_cancel_left]
  have join := @List.range'_append 0 f.paramNames.length f.localNames.length 1
  rw [Nat.zero_add, Nat.one_mul] at join
  exact congrArg _ join

/-- The last position at which a binding has the name. -/
def lastPosition? (f : Function) (s : String) : Option UInt32 :=
  ((List.range f.names.length).map Nat.toUInt32).reverse.find? fun i => f.bindingName? i = some s

/-- The implicit name is entered before the locals, and only if no parameter has it. -/
theorem resolve?_name_eq : f.resolve? (.name s) =
    (f.lastPosition? s).or (if s = "arguments" then some argumentsIndex else none) := by
  rw [lastPosition?, ← positionsBetween_append few, List.reverse_append, List.find?_append,
    Option.or_assoc, resolve?, positions, positionsBy, getElem?_foldl_enterAt, getElem?_insertIfNew,
    getElem?_foldl_enterAt, Std.ExtTreeMap.getElem?_empty, Option.or_none]
  simp [eq_comm]

end

/-! ## The last binding -/

/-- The last number below a bound of which something holds. -/
theorem find?_reverse_range {p : Nat → Bool} {n k : Nat} : (List.range n).reverse.find? p = some k ↔
    k < n ∧ p k = true ∧ ∀ l, k < l → l < n → p l = false := by
  induction n with
  | zero => simp
  | succ n ih =>
    rw [List.range_succ, List.reverse_append, List.reverse_singleton, List.singleton_append,
      List.find?_cons]
    cases last : p n with
    | true =>
      simp only [Option.some.injEq]
      constructor
      · rintro rfl
        exact ⟨Nat.lt_succ_self _, last, fun l after inside => by omega⟩
      · rintro ⟨inside, _, later⟩
        rcases Nat.lt_or_eq_of_le (Nat.le_of_lt_succ inside) with before | same
        · cases last.symm.trans (later n before (Nat.lt_succ_self n))
        · exact same.symm
    | false =>
      rw [ih]
      constructor
      · rintro ⟨inside, holds, later⟩
        refine ⟨Nat.lt_succ_of_lt inside, holds, fun l after before => ?_⟩
        rcases Nat.lt_or_eq_of_le (Nat.le_of_lt_succ before) with before | rfl
        · exact later l after before
        · exact last
      · rintro ⟨inside, holds, later⟩
        refine ⟨?_, holds, fun l after before => later l after (Nat.lt_succ_of_lt before)⟩
        rcases Nat.lt_or_eq_of_le (Nat.le_of_lt_succ inside) with before | rfl
        · exact before
        · cases last.symm.trans holds

section

variable (few : f.names.length < UInt32.size)
include few

theorem toNat_position {k : Nat} (inside : k < f.names.length) : k.toUInt32.toNat = k :=
  UInt32.toNat_ofNat_of_lt' (Nat.lt_trans inside few)

theorem lastPosition?_eq_some_iff : f.lastPosition? s = some i ↔ f.LastAt s i := by
  rw [lastPosition?, ← List.map_reverse, List.find?_map, Option.map_eq_some_iff]
  simp only [find?_reverse_range, Function.comp_apply, bindingName?_eq, decide_eq_true_eq,
    decide_eq_false_iff_not]
  constructor
  · rintro ⟨k, ⟨inside, named, later⟩, rfl⟩
    refine ⟨named, fun {l} after again => ?_⟩
    have before := (List.getElem?_eq_some_iff.1 again).1
    rw [toNat_position few inside] at after
    have hidden := later l after before
    rw [toNat_position few before] at hidden
    exact hidden again
  · rintro ⟨here, later⟩
    have inside := (List.getElem?_eq_some_iff.1 here).1
    refine ⟨i.toNat, ⟨inside, by simpa using here, fun l after before => ?_⟩, by simp⟩
    rw [toNat_position few before]
    exact later after

theorem lastPosition?_eq_none_iff : f.lastPosition? s = none ↔ s ∉ f.names := by
  rw [lastPosition?, List.find?_eq_none]
  simp only [bindingName?_eq, decide_eq_true_eq]
  constructor
  · intro passed mem
    obtain ⟨k, named⟩ := List.mem_iff_getElem?.1 mem
    have inside := (List.getElem?_eq_some_iff.1 named).1
    refine passed k.toUInt32 ?_ (by rw [toNat_position few inside, named])
    exact List.mem_reverse.2 (List.mem_map_of_mem (List.mem_range.2 inside))
  · intro absent i _ named
    exact absent (List.mem_of_getElem? named)

theorem exists_lastAt (declared : s ∈ f.names) : ∃ i, f.LastAt s i := by
  obtain ⟨i, found⟩ := Option.ne_none_iff_exists'.1 fun absent =>
    (lastPosition?_eq_none_iff few).1 absent declared
  exact ⟨i, (lastPosition?_eq_some_iff few).1 found⟩

/-- Where a name resolves to. -/
theorem resolve?_name : f.resolve? (.name s) = some i ↔
    f.LastAt s i ∨ s ∉ f.names ∧ s = "arguments" ∧ i = argumentsIndex := by
  rw [resolve?_name_eq few, Option.or_eq_some_iff, lastPosition?_eq_some_iff few,
    lastPosition?_eq_none_iff few, Option.ite_none_right_eq_some, Option.some.injEq,
    eq_comm (a := argumentsIndex)]

theorem resolve?_arguments (undeclared : "arguments" ∉ f.names) :
    f.resolve? (.name "arguments") = some argumentsIndex :=
  (resolve?_name few).2 (.inr ⟨undeclared, rfl, rfl⟩)

/-- A position is that of one key. -/
theorem eq_of_resolve? {key key' : Key} (resolved : f.resolve? key = some i)
    (resolved' : f.resolve? key' = some i) : key = key' := by
  cases key with
  | index k => simp at resolved
  | name s =>
    cases key' with
    | index k => simp at resolved'
    | name s' =>
      -- No binding stands at the position of the arguments object.
      have apart {s : String} (last : f.LastAt s argumentsIndex) : False :=
        Nat.not_lt.2 (Nat.le_of_lt_succ few) (List.getElem?_eq_some_iff.1 last.here).1
      rcases (resolve?_name few).1 resolved with last | ⟨_, rfl, rfl⟩
      · rcases (resolve?_name few).1 resolved' with last' | ⟨_, rfl, rfl⟩
        · rw [Option.some.inj (last.here.symm.trans last'.here)]
        · exact (apart last).elim
      · rcases (resolve?_name few).1 resolved' with last' | ⟨_, rfl, _⟩
        · exact (apart last').elim
        · rfl

/-- What resolves is a binding or the arguments object. -/
theorem lt_of_resolve? {key : Key} (resolved : f.resolve? key = some i) :
    i < f.bindingCount ∨ i = argumentsIndex := by
  cases key with
  | index k => simp at resolved
  | name s =>
    rcases (resolve?_name few).1 resolved with last | ⟨_, _, last⟩
    · refine .inl ?_
      rw [UInt32.lt_iff_toNat_lt, toNat_bindingCount few]
      exact (List.getElem?_eq_some_iff.1 last.here).1
    · exact .inr last

end

/-! ## The order of the positions -/

section

variable {entries : List (Key × UInt32)}

theorem mem_positions {entry : Key × UInt32} :
    entry ∈ f.positions.toList ↔ f.resolve? entry.1 = some entry.2 :=
  Std.ExtTreeMap.mem_toList_iff_getElem?_eq_some

/-- No two keys stand at one position, so the order is strict. -/
theorem pairwise_sorted (few : f.names.length < UInt32.size) (perm : entries.Perm f.positions.toList) :
    (entries.mergeSort fun a b => a.2 ≤ b.2).Pairwise (·.2 < ·.2) := by
  have same : (entries.mergeSort fun a b => a.2 ≤ b.2).Perm f.positions.toList :=
    (List.mergeSort_perm ..).trans perm
  have resolved {entry} (mem : entry ∈ entries.mergeSort fun a b => a.2 ≤ b.2) :
      f.resolve? entry.1 = some entry.2 := mem_positions.1 (same.mem_iff.1 mem)
  have sorted : (entries.mergeSort fun a b => a.2 ≤ b.2).Pairwise fun a b => a.2 ≤ b.2 := by
    refine (List.pairwise_mergeSort ?_ ?_ _).imp of_decide_eq_true
    · intro a b c first second
      exact decide_eq_true (UInt32.le_trans (of_decide_eq_true first) (of_decide_eq_true second))
    · intro a b
      simpa using UInt32.le_total a.2 b.2
  have apart : (entries.mergeSort fun a b => a.2 ≤ b.2).Nodup := by
    refine same.nodup_iff.2 (Std.ExtTreeMap.distinct_keys_toList.imp ?_)
    rintro a _ distinct rfl
    exact distinct Std.ReflCmp.compare_self
  refine (sorted.and apart).imp_of_mem fun {a b} mem mem' ⟨before, distinct⟩ => ?_
  refine UInt32.lt_of_le_of_ne before fun position => distinct (Prod.ext ?_ position)
  exact eq_of_resolve? few (resolved mem) (position ▸ resolved mem')

/-- The keys come in one order, whatever the order in which a map gives out its entries. -/
theorem keysByPosition_of_perm (few : f.names.length < UInt32.size)
    (perm : entries.Perm f.positions.toList) : keysByPosition entries = f.boundKeys := by
  have same : (entries.mergeSort fun a b => a.2 ≤ b.2).Perm
      (f.positions.toList.mergeSort fun a b => a.2 ≤ b.2) :=
    (List.mergeSort_perm ..).trans (perm.trans (List.mergeSort_perm ..).symm)
  have equal := same.eq_of_pairwise (fun a b _ _ before after => (UInt32.lt_asymm before after).elim)
    (pairwise_sorted few perm) (pairwise_sorted few (.refl _))
  rw [boundKeys, keysByPosition, equal, keysByPosition]

/-- Entries that are in order list the keys as they stand. -/
theorem boundKeys_eq_of_sorted (entries : List (Key × UInt32)) (few : f.names.length < UInt32.size)
    (perm : entries.Perm f.positions.toList) (sorted : entries.Pairwise (·.2 ≤ ·.2)) :
    f.boundKeys = entries.map (·.1) := by
  rw [← keysByPosition_of_perm few perm, keysByPosition,
    List.mergeSort_of_pairwise (sorted.imp decide_eq_true)]

end

/-- The keys that resolve, in the order of the positions to which they do. -/
structure Lists (f : Function) (keys : List Key) : Prop where
  mem : ∀ {key}, key ∈ keys ↔ ∃ i, f.resolve? key = some i
  increasing : keys.Pairwise fun key key' =>
    ∀ {i i'}, f.resolve? key = some i → f.resolve? key' = some i' → i < i'
  last : "arguments" ∉ f.names → keys.getLast? = some (.name "arguments")

theorem Lists.nodup {keys : List Key} (lists : f.Lists keys) : keys.Nodup := by
  refine lists.increasing.imp_of_mem fun {key key'} mem mem' before => ?_
  rintro rfl
  obtain ⟨i, resolved⟩ := lists.mem.1 mem
  exact UInt32.lt_irrefl i (before resolved resolved)

theorem mem_boundKeys : key ∈ f.boundKeys ↔ ∃ i, f.resolve? key = some i := by
  simp only [boundKeys, keysByPosition, List.mem_map, List.mem_mergeSort, mem_positions]
  constructor
  · rintro ⟨⟨_, i⟩, resolved, rfl⟩
    exact ⟨i, resolved⟩
  · rintro ⟨i, resolved⟩
    exact ⟨(key, i), resolved, rfl⟩

theorem increasing_boundKeys (few : f.names.length < UInt32.size) :
    f.boundKeys.Pairwise fun key key' =>
      ∀ {i i'}, f.resolve? key = some i → f.resolve? key' = some i' → i < i' := by
  rw [boundKeys, keysByPosition, List.pairwise_map]
  refine (pairwise_sorted few (.refl _)).imp_of_mem fun {a b} mem mem' before {i i'} at_i at_i' => ?_
  rw [List.mem_mergeSort, mem_positions] at mem mem'
  obtain rfl := Option.some.inj (mem.symm.trans at_i)
  obtain rfl := Option.some.inj (mem'.symm.trans at_i')
  exact before

theorem lists_boundKeys (few : f.names.length < UInt32.size) : f.Lists f.boundKeys where
  mem := mem_boundKeys
  increasing := increasing_boundKeys few
  last undeclared := by
    have implicit := resolve?_arguments few undeclared
    obtain ⟨before, after, split⟩ := List.append_of_mem (mem_boundKeys.2 ⟨_, implicit⟩)
    suffices none_after : after = [] by
      rw [split, none_after, List.getLast?_concat]
    -- No position lies beyond that of the arguments object.
    refine List.eq_nil_iff_forall_not_mem.2 fun key mem => ?_
    obtain ⟨i, resolved⟩ := mem_boundKeys.1 (split ▸ List.mem_append_right _ (.tail _ mem))
    have increasing := increasing_boundKeys few
    rw [split] at increasing
    have increasing := (List.pairwise_append.1 increasing).2.1
    have beyond := List.rel_of_pairwise_cons increasing mem implicit resolved
    exact Nat.not_lt.2 (Nat.le_of_lt_succ i.toNat_lt) (UInt32.lt_iff_toNat_lt.1 beyond)

end ShapeVM.Function
