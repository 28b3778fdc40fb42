import ShapeVM.Proofs.Heap.TableAccount
import ShapeVM.Proofs.Shape.Chain
import ShapeVM.Proofs.Heap.Evaluation

/-!
Chains of shapes in a heap. A shape says the same thing in several ways: it has its keys in their order,
an offset for each of them, a parent, and the key that it adds to the parent; and its table has the
transition that made it. In every shape that a table ever gave to a program these agree, whatever was
added or refused since (`shapes_are_chains`). So offsets are places in the order of keys, and the parents
of a shape lead to the root in as many steps as the shape has keys.
-/
namespace ShapeVM.Heap

variable {h : Heap} {id : TableId} {t : ShapeTable} {s parent : Shape} {n : Nat} {key : Key}

/-- The shape adds the key to the parent, and is found from there. -/
structure AddsTo (h : Heap) (id : TableId) (parent : Shape) (key : Key) (s : Shape) : Prop where
  isParent : s.parent? = some parent
  isKey : s.key? = some key
  keys : s.keys = parent.keys.push key
  lastOffset : s.lastOffset?.map UInt32.toNat = some (s.size - 1)
  older : ∀ k ∈ parent.keys, s.offset? k = parent.offset? k
  id_lt : parent.id < s.id
  handedOut : h.HandedOut id parent
  transition : h.transition id parent key = .ok (.ok s, h)

theorem Reachable.addsTo (reachable : h.Reachable) (isTable : h.table id = .ok t)
    (addressable : t.Addressable) (handed : h.HandedOut id (.child parent n key)) :
    h.AddsTo id parent key (.child parent n key) := by
  have w := reachable.wellFormed
  have wt := (w.table isTable).2
  have held := (reachable.handedOut_iff isTable).1 handed
  obtain ⟨heldParent, known, absent, _, lt⟩ := wt.of_child held
  constructor
  case isParent | isKey | keys => rfl
  case lastOffset =>
    exact Shape.toNat_lastOffset?_child (wt.size_le_of_addressable held addressable)
  case older =>
    intro k mem
    exact (wt.distinct held).offset?_of_mem_parent mem
  case id_lt => exact lt
  case handedOut => exact (reachable.handedOut_iff isTable).2 heldParent
  case transition =>
    exact w.transition_of_known isTable (ShapeTable.transition_of_known absent known)

/-- What a shape of the table says of its keys and of the way to the root. -/
structure Chained (h : Heap) (id : TableId) (s : Shape) : Prop where
  size : s.keys.size = s.size
  nodup : s.keys.toList.Nodup
  offset : ∀ key place,
    (s.offset? key).map UInt32.toNat = some place ↔ s.keys[place]? = some key
  offsets : ∀ place, (∃ key, (s.offset? key).map UInt32.toNat = some place) ↔ place < s.size
  isRoot : s.isRoot = true ↔ s = .root id
  root : s = .root id ↔
    s.parent? = none ∧ s.key? = none ∧ s.lastOffset? = none ∧ s.keys = #[]
  child : s ≠ .root id → ∃ parent key, h.AddsTo id parent key s
  ancestor : ∀ {n ancestor}, s.ancestor? n = some ancestor → h.HandedOut id ancestor
  /-- The root is reached after that many steps, neither earlier nor later. -/
  top : ∀ n, s.ancestor? n = some (.root id) ↔ n = s.size

theorem shapes_are_chains (reachable : h.Reachable) (isTable : h.table id = .ok t)
    (addressable : t.Addressable) (handed : h.HandedOut id s) : h.Chained id s := by
  obtain ⟨named, wt⟩ := reachable.wellFormed.table isTable
  have held := (reachable.handedOut_iff isTable).1 handed
  have table : s.table = id := (wt.table_eq held).trans named
  have distinct := wt.distinct held
  have large := wt.size_le_of_addressable held addressable
  constructor
  case size => exact s.size_keys
  case nodup => exact distinct.nodup_keys
  case offset =>
    intro key place
    exact distinct.toNat_offset?_eq_some_iff large
  case offsets =>
    intro place
    exact distinct.exists_toNat_offset?_iff large
  case isRoot => exact table ▸ Shape.isRoot_iff
  case root => exact table ▸ Shape.eq_root_iff
  case child =>
    intro other
    cases s with
    | root table' => exact (other (congrArg Shape.root table)).elim
    | child parent n key => exact ⟨parent, key, reachable.addsTo isTable addressable handed⟩
  case ancestor =>
    intro n ancestor up
    exact (reachable.handedOut_iff isTable).2 (wt.holds_ancestor? held up)
  case top =>
    intro n
    exact table ▸ Shape.ancestor?_eq_root_iff

/-- The table is full, and no object has the shape any more: the only one that had it lost a property. -/
theorem shapes_are_chains_of_lost_layout : ∃ h t s store, Reachable h ∧ h.table ⟨0⟩ = .ok t ∧
    t.Addressable ∧ t.maxShapes = t.shapeCount ∧ h.object ⟨0⟩ = .ok store ∧ store.shape? = none ∧
    h.HandedOut ⟨0⟩ s ∧ s.keys = #[.name "x", .name "y"] ∧ h.Chained ⟨0⟩ s := by
  let s : Shape := .child (.child (.root ⟨0⟩) 1 (.name "x")) 2 (.name "y")
  obtain ⟨h, runs, ⟨t, isTable, addressable, full, held⟩, store, isObject, lost⟩ : ∃ h, Runs {} [
      .transition ⟨0⟩ (.root ⟨0⟩) (.index 7), .delete (.ordinary ⟨0⟩) (.name "x"),
      .put (.ordinary ⟨0⟩) (.name "y") .undefined, .put (.ordinary ⟨0⟩) (.name "x") .null,
      .makeObject ⟨0⟩, .makeTable { maxShapes := 3 }] h ∧
      (∃ t, h.table ⟨0⟩ = .ok t ∧ t.Addressable ∧ t.maxShapes = t.shapeCount ∧ t.Holds s) ∧
      ∃ store, h.object ⟨0⟩ = .ok store ∧ store.shape? = none :=
    ⟨_, runs_afterAll (by decide +kernel), by decide +kernel, by decide +kernel⟩
  have handed : HandedOut h ⟨0⟩ s := (Reachable.handedOut_iff ⟨_, runs⟩ isTable).2 held
  exact ⟨h, t, s, store, ⟨_, runs⟩, isTable, addressable, full, isObject, lost, handed,
    by decide +kernel, shapes_are_chains ⟨_, runs⟩ isTable addressable handed⟩

end ShapeVM.Heap
