import Mathlib.Data.List.Chain
import ShapeVM.Proofs.Heap.HandedOut
import ShapeVM.Proofs.Heap.ObjectEffect
import ShapeVM.Proofs.Properties.Layout
import ShapeVM.Proofs.Heap.Evaluation

/-!
The layouts of an object. An operation changes the layout of an object only if it adds a key to it or
deletes one from it (`Relaid`): the object goes from its shape to a child of the shape if its table
accepts the key, and otherwise, or with a deletion, to a dictionary, which it stays. So over its life
an object goes down one path of shapes from the root, and then perhaps to a dictionary for good
(`Life`). As every step of the path adds a key, no shape is met again once it was left.
-/
namespace ShapeVM.Heap

variable {h h' : Heap} {op : Operation} {o : ObjectId} {s s' : PropertyStore}

/-! ## One operation -/

/-- What is left of the layout of an object by an operation that makes a change to the object, or
none. -/
structure Relaid (h h' : Heap) (change? : Option Edit) (s s' : PropertyStore) : Prop where
  kept : change? = none → s' = s
  overwritten : ∀ {key value}, change? = some (.put key value) → s.contains key = true →
    s'.shape? = s.shape?
  added : ∀ {key value shape t}, change? = some (.put key value) → s.shape? = some shape →
    s.contains key = false → h.table s.table = .ok t → t.Accepts shape key →
    ∃ t' next, t.transition shape key = (.ok next, t') ∧ h'.table s.table = .ok t' ∧
      s'.shape? = some next ∧ next.parent? = some shape ∧ next.keys = shape.keys.push key
  refused : ∀ {key value shape t}, change? = some (.put key value) → s.shape? = some shape →
    s.contains key = false → h.table s.table = .ok t → ¬t.Accepts shape key →
    s'.shape? = none ∧ s'.toList = s.toList ++ [(key, value)]
  deleted : ∀ {key}, change? = some (.delete key) → s.contains key = true → s'.shape? = none
  missed : ∀ {key}, change? = some (.delete key) → s.contains key = false → s' = s
  dictionary : s.shape? = none → s'.shape? = none

theorem WellFormed.relaid_put {t t' : ShapeTable} {key : Key} {value : Value} (w : h.WellFormed)
    (isObject : h.object o = .ok s) (isTable : h.table s.table = .ok t)
    (inserted : s.insert t key value = .ok (s', t')) (isTable' : h'.table s.table = .ok t') :
    h.Relaid h' (some (.put key value)) s s' := by
  obtain ⟨_, found, fits⟩ := w.object isObject
  obtain rfl := Except.ok.inj (isTable.symm.trans found)
  obtain ⟨_, wt⟩ := w.table isTable
  have written := PropertyStore.written_of_insert inserted
  have outcome := written.shape?
  constructor
  · intro change
    cases change
  · intro key' value' change present
    cases change
    rcases outcome with ⟨same, _⟩ | ⟨shape, isShape, absent, _⟩
    · exact same
    · rw [PropertyStore.contains_of_shape? isShape, absent] at present
      cases present
  · intro key' value' shape t₀ change isShape absent isTable₀ accepts
    cases change
    obtain rfl := Except.ok.inj (isTable.symm.trans isTable₀)
    rw [PropertyStore.contains_of_shape? isShape] at absent
    obtain ⟨t₁, next, done⟩ := (ShapeTable.accepts_iff absent).1 accepts
    rcases outcome with ⟨_, present | noShape⟩ | ⟨_, isShape₀, _, outcome⟩
    · cases absent.symm.trans ((PropertyStore.contains_of_shape? isShape key).symm.trans present)
    · cases isShape.symm.trans noShape
    · obtain rfl := Option.some.inj (isShape.symm.trans isShape₀)
      rcases outcome with ⟨_, done', isShape'⟩ | ⟨_, failed, _⟩
      · cases done.symm.trans done'
        have held := fits.holds isShape
        obtain ⟨_, _, _, isChild⟩ := wt.transition held done
        refine ⟨_, next, done, isTable', isShape', ?_, wt.keys_of_transition held done absent⟩
        rw [isChild absent, Shape.parent?]
      · cases done.symm.trans failed
  · intro key' value' shape t₀ change isShape absent isTable₀ refuses
    cases change
    obtain rfl := Except.ok.inj (isTable.symm.trans isTable₀)
    rw [PropertyStore.contains_of_shape? isShape] at absent
    rcases outcome with ⟨_, present | noShape⟩ | ⟨_, isShape₀, _, outcome⟩
    · cases absent.symm.trans ((PropertyStore.contains_of_shape? isShape key).symm.trans present)
    · cases isShape.symm.trans noShape
    · obtain rfl := Option.some.inj (isShape.symm.trans isShape₀)
      rcases outcome with ⟨next, done, _⟩ | ⟨refusal, failed, noShape'⟩
      · exact absurd ((ShapeTable.accepts_iff absent).2 ⟨_, next, done⟩) refuses
      · exact ⟨noShape', written.toList_of_refused fits wt isShape absent failed⟩
  · intro key' change
    cases change
  · intro key' change
    cases change
  · intro noShape
    rcases outcome with ⟨same, _⟩ | ⟨shape, isShape, _⟩
    · exact same.trans noShape
    · cases noShape.symm.trans isShape

theorem relaid_delete (h h' : Heap) (s : PropertyStore) (key : Key) :
    h.Relaid h' (some (.delete key)) s (s.erase key).1 := by
  have outcome := s.shape?_erase key
  constructor
  · intro change
    cases change
  · intro key' value' change
    cases change
  · intro key' value' shape t change
    cases change
  · intro key' value' shape t change
    cases change
  · intro key' change present
    cases change
    rcases outcome with ⟨_, noShape⟩ | ⟨absent, _⟩
    · exact noShape
    · cases present.symm.trans absent
  · intro key' change absent
    cases change
    rcases outcome with ⟨present, _⟩ | ⟨_, same⟩
    · cases present.symm.trans absent
    · exact same
  · intro noShape
    rcases outcome with ⟨_, noShape'⟩ | ⟨_, same⟩
    · exact noShape'
    · rw [same, noShape]

theorem relaid_none (h h' : Heap) (s : PropertyStore) : h.Relaid h' none s s :=
  ⟨fun _ => rfl, nofun, nofun, nofun, nofun, nofun, id⟩

theorem WellFormed.relaid (w : h.WellFormed) (isObject : h.object o = .ok s) (step : h.Step op h') :
    ∃ s', h'.object o = .ok s' ∧ h.Relaid h' (op.edit? h.cacheKey? o) s s' := by
  have change := step.effect.objectEffect w h.agrees_cacheKey? o
  generalize op.edit? h.cacheKey? o = change? at change ⊢
  cases change with
  | kept same => exact ⟨s, same.trans isObject, relaid_none h h' s⟩
  | made missing _ => cases isObject.symm.trans missing
  | put isObject₀ isTable inserted isObject' isTable' =>
    obtain rfl := Except.ok.inj (isObject.symm.trans isObject₀)
    exact ⟨_, isObject', w.relaid_put isObject isTable inserted isTable'⟩
  | delete isObject₀ isObject' =>
    obtain rfl := Except.ok.inj (isObject.symm.trans isObject₀)
    exact ⟨_, isObject', relaid_delete h h' s _⟩

/-! ## A life -/

/-- The layout that an object can have after another, each given by its shape; a dictionary has
none. -/
inductive Follows : Option Shape → Option Shape → Prop
  | kept {shape? : Option Shape} : Follows shape? shape?
  | child {next shape : Shape} : next.parent? = some shape → Follows (some next) (some shape)
  | dictionary {shape? : Option Shape} : Follows none shape?

theorem Relaid.follows {change? : Option Edit} (relaid : h.Relaid h' change? s s')
    (fits : h.Fits s) : Follows s'.shape? s.shape? := by
  cases change? with
  | none =>
    rw [relaid.kept rfl]
    exact .kept
  | some change =>
    cases change with
    | delete key =>
      cases present : s.contains key with
      | true =>
        rw [relaid.deleted rfl present]
        exact .dictionary
      | false =>
        rw [relaid.missed rfl present]
        exact .kept
    | put key value =>
      cases present : s.contains key with
      | true =>
        rw [relaid.overwritten rfl present]
        exact .kept
      | false =>
        cases isShape : s.shape? with
        | none =>
          rw [relaid.dictionary isShape]
          exact .dictionary
        | some shape =>
          obtain ⟨t, isTable, _⟩ := fits
          by_cases accepts : t.Accepts shape key
          · obtain ⟨_, next, _, _, isShape', isChild, _⟩ :=
              relaid.added rfl isShape present isTable accepts
            rw [isShape']
            exact .child isChild
          · rw [(relaid.refused rfl isShape present isTable accepts).1]
            exact .dictionary

/-- The layouts that an object has had after each operation since it was made, the newest first. -/
inductive Lived (o : ObjectId) : List (Option Shape) → Heap → Prop
  | made {h h' : Heap} {table : TableId} {s : PropertyStore} : h.Reachable →
    o = ⟨h.objects.size⟩ → h.Step (.makeObject table) h' → h'.object o = .ok s →
    Lived o [s.shape?] h'
  | step {layouts : List (Option Shape)} {h : Heap} {op : Operation} {h' : Heap}
    {s : PropertyStore} : Lived o layouts h → h.Step op h' → h'.object o = .ok s →
    Lived o (s.shape? :: layouts) h'

variable {layouts : List (Option Shape)}

/-- What the layouts that an object has had have to do with its present one. -/
structure Past (h : Heap) (o : ObjectId) (layouts : List (Option Shape)) (s : PropertyStore) :
    Prop where
  isObject : h.object o = .ok s
  current : layouts.head? = some s.shape?
  first : layouts.getLast? = some (some (.root s.table))
  chain : layouts.IsChain Follows
  held : ∀ {shape}, some shape ∈ layouts → ∃ t, h.table s.table = .ok t ∧ t.Holds shape

theorem Past.step (past : h.Past o layouts s) (w : h.WellFormed) (step : h.Step op h')
    (isObject' : h'.object o = .ok s') : h'.Past o (s'.shape? :: layouts) s' := by
  obtain ⟨w', grows⟩ := step.effect.preserved w
  obtain ⟨_, found, sameTable⟩ := grows.object past.isObject
  obtain rfl := Except.ok.inj (isObject'.symm.trans found)
  obtain ⟨_, found, relaid⟩ := w.relaid past.isObject step
  obtain rfl := Except.ok.inj (isObject'.symm.trans found)
  refine ⟨isObject', rfl, ?_, ?_, ?_⟩
  · rw [List.getLast?_cons, past.first, sameTable]
    rfl
  · rw [List.isChain_cons]
    refine ⟨fun shape? newest => ?_, past.chain⟩
    cases past.current.symm.trans newest
    exact relaid.follows (w.object past.isObject)
  · intro shape mem
    rcases List.mem_cons.1 mem with isShape | older
    · obtain ⟨t, isTable, fits⟩ := w'.object isObject'
      exact ⟨t, isTable, fits.holds isShape.symm⟩
    · obtain ⟨t, isTable, held⟩ := past.held older
      obtain ⟨t', isTable', le⟩ := grows.table isTable
      rw [sameTable]
      exact ⟨t', isTable', held.extends le⟩

theorem Lived.past (lived : Lived o layouts h) : h.Reachable ∧ ∃ s, h.Past o layouts s := by
  induction lived with
  | @made h h' table s reachable named made isObject =>
    have reachable' := reachable.runs (.step .start made)
    obtain ⟨_, ⟨⟩⟩ := made
    have isNew := isObject
    rw [object_allocObject, if_pos named] at isNew
    cases isNew
    refine ⟨reachable', _, isObject, rfl, rfl, List.isChain_singleton _, ?_⟩
    intro shape mem
    obtain ⟨t, isTable, fits⟩ := reachable'.wellFormed.object isObject
    exact ⟨t, isTable, fits.holds (List.mem_singleton.1 mem).symm⟩
  | step _ step isObject ih =>
    obtain ⟨reachable, s, past⟩ := ih
    exact ⟨reachable.runs (.step .start step), _, past.step reachable.wellFormed step isObject⟩

/-! ## Layouts that were left -/

/-- A layout that an object can have some time after another: with the shapes the keys have become
more, if they are not the same. -/
def Later : Option Shape → Option Shape → Prop
  | none, _ => True
  | some _, none => False
  | some next, some shape => next = shape ∨ shape.size < next.size

theorem Follows.later {shape? next? : Option Shape} (follows : Follows next? shape?) :
    Later next? shape? := by
  cases follows with
  | kept =>
    cases shape? with
    | none => trivial
    | some shape => exact .inl rfl
  | @child next shape isChild =>
    cases next with
    | root table => cases isChild
    | child parent id key =>
      cases isChild
      exact .inr (Nat.lt_succ_self _)
  | dictionary => trivial

instance : Trans Later Later Later where
  trans {a b c} := by
    intro after after'
    cases a with
    | none => trivial
    | some a =>
      cases b with
      | none => cases after
      | some b =>
        cases c with
        | none => cases after'
        | some c =>
          rcases after with rfl | more
          · exact after'
          · rcases after' with rfl | more'
            · exact .inr more
            · exact .inr (Nat.lt_trans more' more)

/-- The layouts of an object over its life, the newest first. -/
structure Life (table : TableId) (layouts : List (Option Shape)) : Prop where
  first : layouts.getLast? = some (some (.root table))
  chain : layouts.IsChain Follows
  /-- A dictionary is one for good. -/
  dictionary : ∀ {newer older}, layouts = newer ++ none :: older → ∀ layout ∈ newer, layout = none
  /-- If an object has a shape again, then it has had it all the time. -/
  left : ∀ {newer between older shape shape'},
    layouts = newer ++ some shape' :: (between ++ some shape :: older) →
    shape'.same shape = true → ∀ layout ∈ between, layout = some shape

theorem Past.life (past : h.Past o layouts s) (w : h.WellFormed) : Life s.table layouts := by
  have later : layouts.Pairwise Later :=
    List.isChain_iff_pairwise.1 (past.chain.imp fun _ _ follows => follows.later)
  refine ⟨past.first, past.chain, ?_, ?_⟩
  · intro newer older split layout mem
    rw [split, List.pairwise_append] at later
    have after := later.2.2 layout mem none List.mem_cons_self
    cases layout with
    | none => rfl
    | some shape => cases after
  · intro newer between older shape shape' split same layout mem
    have older : some shape ∈ layouts := by simp [split]
    have newer : some shape' ∈ layouts := by simp [split]
    obtain ⟨t, isTable, held⟩ := past.held older
    obtain ⟨_, found, held'⟩ := past.held newer
    obtain rfl := Except.ok.inj (isTable.symm.trans found)
    obtain rfl := ((w.table isTable).2.same_iff held' held).1 same
    rw [split, List.pairwise_append, List.pairwise_cons, List.pairwise_append] at later
    obtain ⟨_, ⟨before, _, _, after⟩, _⟩ := later
    have before := before layout (List.mem_append_left _ mem)
    have after := after layout mem (some shape') List.mem_cons_self
    cases layout with
    | none => cases before
    | some middle =>
      -- Two strict steps would come back to a shape of more keys than its own.
      rcases before with rfl | more
      · rfl
      · rcases after with rfl | more'
        · rfl
        · exact absurd (Nat.lt_trans more more') (Nat.lt_irrefl _)

theorem layouts_only_descend (reachable : h.Reachable) (isObject : h.object o = .ok s) :
    (∀ {op h'}, h.Step op h' →
      ∃ s', h'.object o = .ok s' ∧ h.Relaid h' (op.edit? h.cacheKey? o) s s') ∧
    ∀ {layouts}, Lived o layouts h → layouts.head? = some s.shape? ∧ Life s.table layouts := by
  refine ⟨reachable.wellFormed.relaid isObject, ?_⟩
  intro layouts lived
  obtain ⟨_, _, past⟩ := lived.past
  obtain rfl := Except.ok.inj (isObject.symm.trans past.isObject)
  exact ⟨past.current, past.life reachable.wellFormed⟩

theorem Lived.perform (lived : Lived o layouts h) (op : Operation) (shape? : Option Shape)
    (allowed : h.Allows op) (succeeds : (h.perform op).isOk = true)
    (there : ∃ s, (h.after op).object o = .ok s ∧ s.shape? = shape?) :
    Lived o (shape? :: layouts) (h.after op) := by
  obtain ⟨s, isObject, rfl⟩ := there
  exact .step lived (step_after allowed succeeds) isObject

/-- The second object follows the first one's transition although the table is full, and its next key
makes it a dictionary. -/
theorem layouts_only_descend_in_full_table : ∃ h s layouts, Reachable h ∧ h.object ⟨1⟩ = .ok s ∧
    Lived ⟨1⟩ layouts h ∧
    layouts = [none, some (.child (.root ⟨0⟩) 1 (.name "x")), some (.root ⟨0⟩), some (.root ⟨0⟩)] ∧
    (∀ {op h'}, h.Step op h' →
      ∃ s', h'.object ⟨1⟩ = .ok s' ∧ h.Relaid h' (op.edit? h.cacheKey? ⟨1⟩) s s') ∧
    Life s.table layouts := by
  let first : Heap := afterAll {} [.makeObject ⟨0⟩, .makeTable { maxShapes := 2 }]
  have before : Runs {} _ first := runs_afterAll (by decide +kernel)
  obtain ⟨s₀, isObject₀, isRoot⟩ : ∃ s, (first.after (.makeObject ⟨0⟩)).object ⟨1⟩ = .ok s ∧
      s.shape? = some (.root ⟨0⟩) := by decide +kernel
  have made := Lived.made ⟨_, before⟩ (by decide)
    (step_after (by decide +kernel) (by decide +kernel)) isObject₀
  have used := made.perform (.put (.ordinary ⟨0⟩) (.name "x") .null) (some (.root ⟨0⟩)) trivial
    (by decide +kernel) (by decide +kernel)
  have shared := used.perform (.put (.ordinary ⟨1⟩) (.name "x") .null)
    (some (.child (.root ⟨0⟩) 1 (.name "x"))) trivial (by decide +kernel) (by decide +kernel)
  have lived := shared.perform (.put (.ordinary ⟨1⟩) (.index 4) .null) none trivial
    (by decide +kernel) (by decide +kernel)
  obtain ⟨reachable, s, past⟩ := lived.past
  have descends := layouts_only_descend reachable past.isObject
  rw [isRoot] at lived
  exact ⟨_, s, _, reachable, past.isObject, lived, rfl, descends.1, (descends.2 lived).2⟩

end ShapeVM.Heap
