import Mathlib.Data.Finset.Dedup
import ShapeVM.Proofs.Heap.TableAccount
import ShapeVM.Proofs.Shape.Budget

/-!
Exact refusals. A request is decided by four tests, in this order: whether the shape has the key,
whether the transition is known, whether the shape is full and whether the table is. Only the last
outcome, a new shape, changes anything, and with it the answers are determined by the requests: after
any run the table has made a shape for each pair of a shape and a key that was asked for and that the
limit on properties allows, as long as there were shapes left (`requests_are_decided_exactly`). So a
table never refuses early, and nothing is used up by a request that it answers without a new shape.
-/
namespace ShapeVM.Heap

variable {start h h' : Heap} {op : Operation} {ops : List Operation} {id : TableId} {t : ShapeTable}
  {s : Shape} {key : Key} {limits : Limits}

/-! ## One request -/

/-- What a table made with the limits answers to a request, and what is left of the heap. -/
structure Decides (h : Heap) (id : TableId) (limits : Limits) (t : ShapeTable) (s : Shape) (key : Key) :
    Prop where
  present : s.contains key = true → h.transition id s key = .ok (.ok s, h)
  known : ∀ {target}, s.contains key = false → t.target? s.id key = some target →
    h.transition id s key = .ok (.ok target, h)
  tooManyProperties : s.contains key = false → t.target? s.id key = none →
    limits.maxShapeProperties ≤ s.size → h.transition id s key =
      .ok (.error (.classLimit (.shapeProperties limits.maxShapeProperties)), h)
  tooManyShapes : s.contains key = false → t.target? s.id key = none →
    s.size < limits.maxShapeProperties → limits.maxShapes ≤ t.shapeCount → h.transition id s key =
      .ok (.error (.classLimit (.tableShapes limits.maxShapes)), h)
  /-- The shape is new, and so is the transition to it, which is the only one that the table gets. -/
  made : s.contains key = false → t.target? s.id key = none → s.size < limits.maxShapeProperties →
    t.shapeCount < limits.maxShapes → ∃ child h' t', h.transition id s key = .ok (.ok child, h') ∧
      h'.table id = .ok t' ∧ ¬t.Holds child ∧ child.id = t.nextId ∧ child.id = t.shapeCount ∧
      child.keys = s.keys.push key ∧ t'.nextId = t.nextId + 1 ∧ t'.shapeCount = t.shapeCount + 1 ∧
      t'.transitionCount = t.transitionCount + 1 ∧
      ∀ source k, t'.target? source k =
        if s.id = source ∧ key = k then some child else t.target? source k

/-- A refusal leaves the heap as it was, with the number that the next shape is going to get. -/
theorem WellFormed.transition_of_refused {refusal : Refusal} (w : h.WellFormed)
    (isTable : h.table id = .ok t) (failed : t.transition s key = (.error refusal, t)) :
    h.transition id s key = .ok (.error refusal, h) := by
  simp [Heap.transition, isTable, failed, w.setTable_of_refused isTable failed]

theorem WellFormed.decides (w : h.WellFormed) (isTable : h.table id = .ok t) (held : t.Holds s)
    (maxShapes : t.maxShapes = limits.maxShapes)
    (maxShapeProperties : t.maxShapeProperties = limits.maxShapeProperties) (key : Key) :
    h.Decides id limits t s key := by
  obtain ⟨_, wt⟩ := w.table isTable
  constructor
  · intro present
    exact w.transition_of_known isTable (if_pos present)
  · intro target absent known
    exact w.transition_of_known isTable (ShapeTable.transition_of_known absent known)
  · intro absent unknown large
    rw [← maxShapeProperties] at large ⊢
    exact w.transition_of_refused isTable (by simp [ShapeTable.transition, absent, unknown, large])
  · intro absent unknown small full
    rw [← maxShapeProperties, ← Nat.not_le] at small
    rw [← maxShapes] at full ⊢
    exact w.transition_of_refused isTable
      (by simp [ShapeTable.transition, absent, unknown, small, full])
  · intro absent unknown small few
    rw [← maxShapeProperties] at small
    rw [← maxShapes] at few
    have moved := ShapeTable.transition_of_room absent unknown ⟨small, few⟩
    obtain ⟨_, isTable', _⟩ := w.transition isTable held moved
    refine ⟨_, _, _, (transition_eq_ok ..).2 ⟨t, _, isTable, moved, rfl⟩, isTable', fun old => ?_, rfl,
      wt.next, rfl, rfl, rfl, ShapeTable.transitionCount_extend unknown, t.target?_extend s key⟩
    exact Nat.lt_irrefl _ (wt.id_lt_nextId old)

/-! ## Requests in a history -/

theorem Runs.unique (runs : start.Runs ops h) (runs' : start.Runs ops h') : h' = h := by
  induction runs generalizing h' with
  | start =>
    cases runs'
    rfl
  | step _ step ih =>
    cases runs' with
    | step older' step' =>
      obtain rfl := ih older'
      exact Except.ok.inj (step'.performed.symm.trans step.performed)

/-- In the history since `start`, an operation asked the table to add the key to the shape. -/
def Asked (start : Heap) (ops : List Operation) (id : TableId) (s : Shape) (key : Key) : Prop :=
  ∃ op older h, op :: older <:+ ops ∧ start.Runs older h ∧ h.Asks id s key op

theorem not_asked_nil : ¬start.Asked [] id s key := by
  rintro ⟨op, older, h, suffix, _⟩
  cases List.suffix_nil.1 suffix

theorem Runs.asked_cons (runs : start.Runs ops h) :
    start.Asked (op :: ops) id s key ↔ start.Asked ops id s key ∨ h.Asks id s key op := by
  constructor
  · rintro ⟨op', older, h', suffix, runs', asks⟩
    rcases List.suffix_cons_iff.1 suffix with same | earlier
    · cases same
      obtain rfl := runs'.unique runs
      exact .inr asks
    · exact .inl ⟨op', older, h', earlier, runs', asks⟩
  · rintro (⟨op', older, h', earlier, runs', asks⟩ | asks)
    · exact ⟨op', older, h', earlier.trans (List.suffix_cons ..), runs', asks⟩
    · exact ⟨op, ops, h, List.suffix_rfl, runs, asks⟩

/-- A program asks a table about its own shapes. -/
theorem Asks.holds (asks : h.Asks id s key op) (w : h.WellFormed) (step : h.Step op h')
    (isTable : h.table id = .ok t) : t.Holds s := by
  cases asks with
  | transition _ =>
    obtain ⟨t', isTable', held⟩ := step.allowed
    obtain rfl := Except.ok.inj (isTable.symm.trans isTable')
    exact held
  | write writes named growing =>
    obtain ⟨t', isTable', fits⟩ := w.fits writes.hasStore
    obtain rfl := Except.ok.inj ((named ▸ isTable).symm.trans isTable')
    exact fits.holds (PropertyStore.growing?_eq_some_iff.1 growing).1

/-- After any run the table has served the pairs that it was asked for and that its limit on properties
allows. -/
theorem Runs.serves {t₀ : ShapeTable} (runs : start.Runs ops h) (w : start.WellFormed)
    (isTable₀ : start.table id = .ok t₀) (serves₀ : t₀.Serves ∅) :
    ∃ t pairs, h.table id = .ok t ∧ t₀.Extends t ∧ t.Serves pairs ∧
      ∀ s key, (s, key) ∈ pairs ↔ start.Asked ops id s key ∧ s.size < t₀.maxShapeProperties := by
  induction runs with
  | start =>
    refine ⟨t₀, ∅, isTable₀, .rfl, serves₀, fun s key => ?_⟩
    simp [not_asked_nil]
  | @step ops h op h' runs step ih =>
    obtain ⟨t, pairs, isTable, grown, serves, mem⟩ := ih
    have w := (runs.preserved w).wellFormed
    obtain ⟨t', isTable', effect⟩ := step.effect.tableEffect w isTable
    cases effect with
    | kept unasked =>
      refine ⟨t, pairs, isTable', grown, serves, fun s key => ?_⟩
      rw [mem, runs.asked_cons, or_iff_left (unasked s key)]
    | @asked s key _ asks requested =>
      have serves' := serves.requested (w.table isTable).2 (asks.holds w step isTable) requested
      obtain ⟨_, found, grown'⟩ := (step.effect.preserved w).grows.table isTable
      obtain rfl := Except.ok.inj (isTable'.symm.trans found)
      refine ⟨t', _, isTable', grown.trans grown', serves', fun s' key' => ?_⟩
      have asks_iff : h.Asks id s' key' op ↔ (s', key') = (s, key) := by
        constructor
        · intro asks'
          obtain ⟨rfl, rfl⟩ := asks.unique asks'
          rfl
        · rintro ⟨⟩
          exact asks
      -- The new pair is one of those that count exactly if the shape has room for a property.
      rw [runs.asked_cons, asks_iff, or_and_right, ← mem, grown.maxShapeProperties]
      split
      · next small =>
        rw [Finset.mem_insert, or_comm]
        refine or_congr_right (iff_self_and.2 ?_)
        rintro ⟨⟩
        exact small
      · next large =>
        refine (or_iff_left ?_).symm
        rintro ⟨⟨⟩, small⟩
        exact large small

/-! ## Every request -/

/-- A history of direct requests, the newest first. -/
def transitions (id : TableId) (requests : List (Shape × Key)) : List Operation :=
  requests.map fun r => .transition id r.1 r.2

theorem transitions_cons (id : TableId) (r : Shape × Key) (older : List (Shape × Key)) :
    transitions id (r :: older) = .transition id r.1 r.2 :: transitions id older := rfl

theorem asks_transition_iff {s' : Shape} {key' : Key} :
    h.Asks id s key (.transition id s' key') ↔ (s, key) = (s', key') ∧ s.contains key = false := by
  constructor
  · intro asks
    cases asks with
    | transition absent => exact ⟨rfl, absent⟩
    | write writes _ _ => cases writes
  · rintro ⟨⟨⟩, absent⟩
    exact .transition absent

theorem Runs.asked_transitions {requests : List (Shape × Key)}
    (runs : start.Runs (transitions id requests) h) :
    start.Asked (transitions id requests) id s key ↔ (s, key) ∈ requests ∧ s.contains key = false := by
  induction requests generalizing h with
  | nil => simp [not_asked_nil, transitions]
  | cons r older ih =>
    rw [transitions_cons] at runs ⊢
    cases runs with
    | step runs _ =>
      rw [runs.asked_cons, asks_transition_iff, ih runs, List.mem_cons, or_and_right, or_comm]

/-- The answers of a table that was made with the limits, and the shapes that it then has. -/
structure DecidesExactly (made h : Heap) (ops : List Operation) (id : TableId) (limits : Limits)
    (t : ShapeTable) : Prop where
  decides : ∀ {s}, t.Holds s → ∀ key, h.Decides id limits t s key
  /-- Whichever clients the requests come from. -/
  count : ∃ pairs : Finset (Shape × Key),
    (∀ s key, (s, key) ∈ pairs ↔ made.Asked ops id s key ∧ s.size < limits.maxShapeProperties) ∧
      t.shapeCount = min (max 1 limits.maxShapes) (1 + pairs.card)
  /-- In particular where they are all direct ones. -/
  transitions : ∀ {requests}, ops = transitions id requests → t.shapeCount =
    min (max 1 limits.maxShapes) (1 + (requests.toFinset.filter fun r =>
      r.1.contains r.2 = false ∧ r.1.size < limits.maxShapeProperties).card)

theorem requests_are_decided_exactly {made : Heap} (reachable : start.Reachable)
    (make : start.Step (.makeTable limits) made) (runs : made.Runs ops h) :
    ∃ t, h.table ⟨start.tables.size⟩ = .ok t ∧
      DecidesExactly made h ops ⟨start.tables.size⟩ limits t := by
  have w := (reachable.runs (.step .start make)).wellFormed
  obtain ⟨_, ⟨⟩⟩ := make
  have isNew := (table_allocTable start limits ⟨start.tables.size⟩).trans (if_pos rfl)
  obtain ⟨t, pairs, isTable, grown, serves, mem⟩ :=
    runs.serves w isNew (ShapeTable.serves_ofLimits ..)
  have count : t.shapeCount = min (max 1 limits.maxShapes) (1 + pairs.card) := by
    rw [serves.count, grown.maxShapes]
    rfl
  refine ⟨t, isTable, fun held key => ?_, ⟨pairs, mem, count⟩, ?_⟩
  · exact (runs.preserved w).wellFormed.decides isTable held grown.maxShapes grown.maxShapeProperties key
  · rintro requests rfl
    have same : pairs = requests.toFinset.filter fun r =>
        r.1.contains r.2 = false ∧ r.1.size < limits.maxShapeProperties := by
      refine Finset.ext fun ⟨s, key⟩ => ?_
      rw [mem, runs.asked_transitions, Finset.mem_filter, List.mem_toFinset, and_assoc]
      rfl
    rw [count, same]

/-- One property to a shape and two shapes beside the root: the third key is refused for the one limit,
and a key of a shape that has one for the other. What was made before is still given. -/
theorem requests_are_decided_exactly_of_full_table : ∃ start made h t requests, Reachable start ∧
    start.Step (.makeTable { maxShapes := 3, maxShapeProperties := 1 }) made ∧
    made.Runs (transitions ⟨start.tables.size⟩ requests) h ∧
    h.table ⟨start.tables.size⟩ = .ok t ∧ t.shapeCount = 3 ∧
    DecidesExactly made h (transitions ⟨start.tables.size⟩ requests) ⟨start.tables.size⟩
      { maxShapes := 3, maxShapeProperties := 1 } t := by
  let limits : Limits := { maxShapes := 3, maxShapeProperties := 1 }
  let root : Shape := .root ⟨0⟩
  let x : Shape := .child root 1 (.name "x")
  let t₀ : ShapeTable := .ofLimits ⟨0⟩ limits
  let t₁ := (t₀.extend root (.name "x")).2
  let t₂ := (t₁.extend root (.name "y")).2
  let withTable (t : ShapeTable) : Heap := { tables := #[t] }
  have make : Heap.Step {} (.makeTable limits) (withTable t₀) := ⟨trivial, rfl⟩
  -- The two requests that make a shape, and those that leave the table as it is.
  have makesX : (withTable t₀).Step (.transition ⟨0⟩ root (.name "x")) (withTable t₁) :=
    ⟨⟨t₀, rfl, .inl rfl⟩, rfl⟩
  have makesY : (withTable t₁).Step (.transition ⟨0⟩ root (.name "y")) (withTable t₂) :=
    ⟨⟨t₁, rfl, .inl rfl⟩, rfl⟩
  have held : t₂.Holds x := .inr ⟨0, .name "x", rfl⟩
  have present : (withTable t₂).Step (.transition ⟨0⟩ x (.name "x")) (withTable t₂) :=
    ⟨⟨t₂, rfl, held⟩, rfl⟩
  have tooManyProperties : (withTable t₂).Step (.transition ⟨0⟩ x (.name "y")) (withTable t₂) :=
    ⟨⟨t₂, rfl, held⟩, rfl⟩
  have tooManyShapes : (withTable t₂).Step (.transition ⟨0⟩ root (.name "z")) (withTable t₂) :=
    ⟨⟨t₂, rfl, .inl rfl⟩, rfl⟩
  have known : (withTable t₂).Step (.transition ⟨0⟩ root (.name "x")) (withTable t₂) :=
    ⟨⟨t₂, rfl, .inl rfl⟩, rfl⟩
  have made := (Runs.start.step makesX).step makesY
  have runs : Runs (withTable t₀) (transitions ⟨0⟩ [(root, .name "x"), (root, .name "z"),
      (x, .name "y"), (x, .name "x"), (root, .name "y"), (root, .name "x")]) (withTable t₂) :=
    (((made.step present).step tooManyProperties).step tooManyShapes).step known
  obtain ⟨t, isTable, exactly⟩ := requests_are_decided_exactly ⟨_, .start⟩ make runs
  have full : t.shapeCount = 3 := by
    rw [exactly.transitions rfl]
    decide +kernel
  exact ⟨_, _, _, t, _, ⟨_, .start⟩, make, runs, isTable, full, exactly⟩

end ShapeVM.Heap
