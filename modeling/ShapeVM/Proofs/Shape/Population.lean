import Mathlib.Data.Fintype.Basic
import Mathlib.Data.Finset.Union
import Mathlib.Data.Finset.Card
import Mathlib.Data.List.Infix
import ShapeVM.Proofs.Shape.KeyOrder
import ShapeVM.Proofs.Shape.Limits

/-!
Populating a table. Several builders start at the root and each adds the keys of its own sequence, one
transition at a time and in any order with the others. Which shape is made by whom, and with which
number, depends on that order; what the table holds in the end does not: a shape for each prefix of each
sequence, the repetitions in a sequence left out. The invariant is that every shape of the table leads
to one that a builder has reached (`Grown`), and the shapes are counted by their keys, as a table holds
one shape for each order of keys.
-/
namespace ShapeVM

variable {n : Nat}

/-- The keys that one of several builders adds. -/
def keysOf (i : Fin n) (additions : List (Fin n × Key)) : List Key :=
  additions.filterMap fun addition => if addition.1 = i then some addition.2 else none

/-- The additions are those of the sequences, one after the other within each of them. -/
def Interleaves (additions : List (Fin n × Key)) (seqs : Fin n → List Key) : Prop :=
  ∀ i, keysOf i additions = seqs i

/-- The distinct prefixes of the sequences without repetitions, but for the empty one. -/
def prefixes (seqs : Fin n → List Key) : Finset (List Key) :=
  (Finset.univ.biUnion fun i => (seqs i).eraseDups.inits.toFinset).erase []

theorem mem_prefixes {seqs : Fin n → List Key} {keys : List Key} :
    keys ∈ prefixes seqs ↔ keys ≠ [] ∧ ∃ i, keys <+: (seqs i).eraseDups := by
  simp [prefixes]

theorem keysOf_cons (i j : Fin n) (key : Key) (later : List (Fin n × Key)) :
    keysOf j ((i, key) :: later) = if j = i then key :: keysOf j later else keysOf j later := by
  rw [keysOf, List.filterMap_cons]
  by_cases same : j = i
  · simp [same, keysOf]
  · simp [same, Ne.symm same, keysOf]

/-- Only the first of equal keys counts. -/
theorem eraseDups_concat (keys : List Key) (key : Key) : (keys ++ [key]).eraseDups =
    if key ∈ keys then keys.eraseDups else keys.eraseDups ++ [key] := by
  rw [List.eraseDups_append]
  by_cases mem : key ∈ keys
  · simp [List.removeAll, mem]
  · simp [List.removeAll, mem, List.eraseDups_cons]

theorem eraseDups_isPrefix (keys later : List Key) :
    keys.eraseDups <+: (keys ++ later).eraseDups := by
  rw [List.eraseDups_append]
  exact List.prefix_append ..

/-- A builder that adds a key only adds prefixes. -/
theorem eraseDups_isPrefix_update (seqs : Fin n → List Key) (i : Fin n) (key : Key) (j : Fin n) :
    (seqs j).eraseDups <+: (Function.update seqs i (seqs i ++ [key]) j).eraseDups := by
  rw [Function.update_apply]
  split
  · next same =>
    subst same
    exact eraseDups_isPrefix ..
  · exact List.prefix_rfl

namespace ShapeTable

variable {t t' : ShapeTable} {s target : Shape} {reached reached' : Fin n → Shape} {i : Fin n}
  {key : Key} {keys : List Key} {seqs : Fin n → List Key} {additions : List (Fin n × Key)}

/-- Performs the additions of several builders, from the shapes that they have reached. -/
def populate (t : ShapeTable) (reached : Fin n → Shape) :
    List (Fin n × Key) → Except Refusal (ShapeTable × (Fin n → Shape))
  | [] => .ok (t, reached)
  | (i, key) :: later =>
    match t.transition (reached i) key with
    | (.ok target, t') => populate t' (Function.update reached i target) later
    | (.error refusal, _) => .error refusal

/-! ## The shapes by their keys -/

namespace WellFormed

variable (w : t.WellFormed)
include w

/-- On the way to a shape lie shapes with fewer of its keys. -/
theorem holds_of_isPrefix (held : t.Holds s) (before : keys <+: s.keys.toList) :
    ∃ s', t.Holds s' ∧ s'.keys.toList = keys := by
  induction s with
  | root id =>
    obtain rfl : keys = [] := List.prefix_nil.1 before
    exact ⟨_, held, rfl⟩
  | child parent id key ih =>
    rw [Shape.keys, Array.toList_push, List.prefix_concat_iff] at before
    rcases before with rfl | before
    · exact ⟨_, held, Array.toList_push⟩
    · exact ih (w.of_child held).1 before

/-- As many shapes as orders of keys. -/
theorem shapeCount_eq_card {orders : Finset (List Key)}
    (exact : ∀ keys, keys ∈ orders ↔ ∃ s, t.Holds s ∧ s.keys.toList = keys) :
    t.shapeCount = orders.card := by
  have numbered (m : Nat) (mem : m ∈ Finset.range t.shapeCount) : ∃ s, t.Holds s ∧ s.id = m :=
    w.numbered (Finset.mem_range.1 mem)
  rw [← Finset.card_range t.shapeCount]
  refine Finset.card_bij (fun m mem => (numbered m mem).choose.keys.toList) (fun m mem => ?_)
    (fun m mem m' mem' same => ?_) (fun keys mem => ?_)
  · exact (exact _).2 ⟨_, (numbered m mem).choose_spec.1, rfl⟩
  · obtain ⟨held, isNumber⟩ := (numbered m mem).choose_spec
    obtain ⟨held', isNumber'⟩ := (numbered m' mem').choose_spec
    rw [← isNumber, ← isNumber', w.eq_of_keys_eq held held' (Array.toList_inj.1 same)]
  · obtain ⟨s, held, rfl⟩ := (exact keys).1 mem
    have inside := Finset.mem_range.2 (w.id_lt held)
    obtain ⟨held', same⟩ := (numbered s.id inside).choose_spec
    exact ⟨s.id, inside, by rw [w.unique held' held same]⟩

theorem holds_of_transition (held : t.Holds s) (done : t.transition s key = (.ok target, t')) :
    t'.Holds s' ↔ t.Holds s' ∨ s' = target := by
  have stays (held' : t.Holds target) : t.Holds s' ↔ t.Holds s' ∨ s' = target := by
    rw [iff_self_or]
    rintro rfl
    exact held'
  rcases transition_eq_ok done with ⟨_, rfl, rfl⟩ | ⟨_, known, rfl⟩ | ⟨_, unknown, _, _, rfl, rfl⟩
  · exact stays held
  · exact stays (holds_of_target? known)
  · exact holds_extend unknown

theorem toList_keys_of_transition (held : t.Holds s)
    (done : t.transition s key = (.ok target, t')) : target.keys.toList =
      if key ∈ s.keys.toList then s.keys.toList else s.keys.toList ++ [key] := by
  cases present : s.contains key with
  | true =>
    have mem : key ∈ s.keys.toList := Array.mem_toList_iff.2 (Shape.mem_keys.2 present)
    rw [ShapeTable.transition, if_pos present] at done
    cases done
    rw [if_pos mem]
  | false =>
    have new : key ∉ s.keys.toList := by
      rw [Array.mem_toList_iff, Shape.mem_keys, present]
      exact Bool.false_ne_true
    rw [if_neg new, w.keys_of_transition held done present, Array.toList_push]

end WellFormed

/-! ## The invariant -/

/-- Every shape is on the way to one that a builder has reached, which has the builder's keys so far. -/
structure Grown (t : ShapeTable) (reached : Fin n → Shape) (seqs : Fin n → List Key) : Prop where
  wellFormed : t.WellFormed
  held : ∀ i, t.Holds (reached i)
  keys : ∀ i, (reached i).keys.toList = (seqs i).eraseDups
  covered : ∀ {s}, t.Holds s → s.keys.toList = [] ∨ ∃ i, s.keys.toList <+: (seqs i).eraseDups
  within : t.shapeCount ≤ max 1 t.maxShapes

theorem grown_ofLimits (n : Nat) (id : TableId) (limits : Limits) :
    (ofLimits id limits).Grown (fun _ : Fin n => .root id) fun _ => [] where
  wellFormed := wellFormed_ofLimits id limits
  held _ := holds_root _
  keys _ := rfl
  covered held := by
    rcases held with rfl | ⟨_, _, known⟩
    · exact .inl rfl
    · simp [ofLimits, target?] at known
  within := Nat.le_max_left ..

theorem within_of_transition (done : t.transition s key = (.ok target, t'))
    (within : t.shapeCount ≤ max 1 t.maxShapes) : t'.shapeCount ≤ max 1 t'.maxShapes := by
  cases present : s.contains key with
  | true =>
    rw [transition, if_pos present] at done
    cases done
    exact within
  | false => exact (requested_of_ok present done).shapeCount_le within

namespace Grown

variable (grown : t.Grown reached seqs)
include grown

theorem step (done : t.transition (reached i) key = (.ok target, t')) :
    t'.Grown (Function.update reached i target) (Function.update seqs i (seqs i ++ [key])) := by
  have w := grown.wellFormed
  have held := grown.held i
  have added : target.keys.toList = (seqs i ++ [key]).eraseDups := by
    simp only [w.toList_keys_of_transition held done, eraseDups_concat, grown.keys, List.mem_eraseDups]
  obtain ⟨w', grows, held', _⟩ := w.transition held done
  refine ⟨w', fun j => ?_, fun j => ?_, fun {s} isHeld => ?_, within_of_transition done grown.within⟩
  · rw [Function.update_apply]
    split
    · exact held'
    · exact (grown.held j).extends grows
  · rw [Function.update_apply, Function.update_apply]
    split
    · exact added
    · exact grown.keys j
  · rcases (w.holds_of_transition held done).1 isHeld with before | rfl
    · rcases grown.covered before with empty | ⟨j, covers⟩
      · exact .inl empty
      · exact .inr ⟨j, covers.trans (eraseDups_isPrefix_update ..)⟩
    · refine .inr ⟨i, ?_⟩
      rw [Function.update_self, added]

/-- The orders of keys in the table. -/
theorem holds_iff : (∃ s, t.Holds s ∧ s.keys.toList = keys) ↔
    keys = [] ∨ ∃ i, keys <+: (seqs i).eraseDups := by
  constructor
  · rintro ⟨s, held, rfl⟩
    exact grown.covered held
  · rintro (rfl | ⟨i, before⟩)
    · exact ⟨t.root, holds_root t, rfl⟩
    · rw [← grown.keys] at before
      exact grown.wellFormed.holds_of_isPrefix (grown.held i) before

theorem shapeCount_eq : t.shapeCount = 1 + (prefixes seqs).card := by
  have outside : [] ∉ prefixes seqs := by simp [mem_prefixes]
  rw [Nat.add_comm, ← Finset.card_insert_of_notMem outside]
  refine grown.wellFormed.shapeCount_eq_card fun keys => ?_
  rw [grown.holds_iff, Finset.mem_insert, mem_prefixes]
  by_cases empty : keys = []
  · simp [empty]
  · simp [empty]

end Grown

/-! ## Whole sequences -/

/-- A shape for every prefix, and the longest of them within the limit on properties. -/
def LargeEnough (limits : Limits) (seqs : Fin n → List Key) : Prop :=
  1 + (prefixes seqs).card ≤ max 1 limits.maxShapes ∧
    ∀ i, (seqs i).eraseDups.length ≤ limits.maxShapeProperties

/-- The table keeps to the limits. -/
def KeepsTo (t : ShapeTable) (limits : Limits) : Prop :=
  t.maxShapes = limits.maxShapes ∧ t.maxShapeProperties = limits.maxShapeProperties

theorem KeepsTo.extends {limits : Limits} (keeps : t.KeepsTo limits) (grows : t.Extends t') :
    t'.KeepsTo limits := ⟨grows.maxShapes.trans keeps.1, grows.maxShapeProperties.trans keeps.2⟩

theorem keysOf_step (seqs : Fin n → List Key) (i : Fin n) (key : Key) (later : List (Fin n × Key)) :
    (fun j => Function.update seqs i (seqs i ++ [key]) j ++ keysOf j later) =
      fun j => seqs j ++ keysOf j ((i, key) :: later) := by
  funext j
  rw [Function.update_apply, keysOf_cons]
  by_cases here : j = i
  · simp [here]
  · simp [here]

theorem prefixes_mono {seqs seqs' : Fin n → List Key}
    (before : ∀ i, (seqs i).eraseDups <+: (seqs' i).eraseDups) : prefixes seqs ⊆ prefixes seqs' := by
  intro keys mem
  rw [mem_prefixes] at mem ⊢
  obtain ⟨inhabited, i, isPrefix⟩ := mem
  exact ⟨inhabited, i, isPrefix.trans (before i)⟩

namespace Grown

variable {limits : Limits} (grown : t.Grown reached seqs)
include grown

/-- What the builders have added with what they are going to add. -/
theorem populate (done : t.populate reached additions = .ok (t', reached')) :
    t.Extends t' ∧ t'.Grown reached' fun i => seqs i ++ keysOf i additions := by
  induction additions generalizing t reached seqs with
  | nil =>
    cases done
    exact ⟨.rfl, by simpa [keysOf] using grown⟩
  | cons addition later ih =>
    obtain ⟨i, key⟩ := addition
    rw [ShapeTable.populate] at done
    split at done
    · next target t₁ moved =>
      obtain ⟨grows, grown'⟩ := ih (grown.step moved) done
      obtain ⟨_, grows₁, _⟩ := grown.wellFormed.transition (grown.held i) moved
      rw [keysOf_step] at grown'
      exact ⟨grows₁.trans grows, grown'⟩
    · cases done

/-- Limits that suffice for all of the keys refuse none of them. -/
theorem accepts {seqs' : Fin n → List Key} (keeps : t.KeepsTo limits)
    (later : ∀ j, (Function.update seqs i (seqs i ++ [key]) j).eraseDups <+: (seqs' j).eraseDups)
    (large : LargeEnough limits seqs') :
    ∃ t' target, t.transition (reached i) key = (.ok target, t') := by
  have w := grown.wellFormed
  have held := grown.held i
  cases present : (reached i).contains key with
  | true => exact ⟨t, reached i, if_pos present⟩
  | false =>
    have new : key ∉ seqs i := by
      rw [← List.mem_eraseDups, ← grown.keys, Array.mem_toList_iff, Shape.mem_keys, present]
      exact Bool.false_ne_true
    have here := later i
    rw [Function.update_self, eraseDups_concat, if_neg new] at here
    by_cases known : ∃ s, t.Holds s ∧ s.keys.toList = (seqs i).eraseDups ++ [key]
    · obtain ⟨s, isHeld, isOrder⟩ := known
      refine ⟨t, s, w.transition_of_keys_eq held isHeld (Array.toList_inj.1 ?_)⟩
      rw [isOrder, Array.toList_push, grown.keys]
    · -- The new order of keys is one more of the prefixes that there are going to be.
      have missing : (seqs i).eraseDups ++ [key] ∉ prefixes seqs := by
        rw [mem_prefixes]
        exact fun mem => known (grown.holds_iff.2 (.inr mem.2))
      have more : insert ((seqs i).eraseDups ++ [key]) (prefixes seqs) ⊆ prefixes seqs' := by
        refine Finset.insert_subset (mem_prefixes.2 ⟨by simp, i, here⟩) (prefixes_mono fun j => ?_)
        exact (eraseDups_isPrefix_update ..).trans (later j)
      have count := Finset.card_le_card more
      rw [Finset.card_insert_of_notMem missing] at count
      have size : (reached i).size = (seqs i).eraseDups.length := by
        rw [← grown.keys, Array.length_toList, Shape.size_keys]
      have length := here.length_le
      rw [List.length_append, List.length_singleton] at length
      obtain ⟨shapes, properties⟩ := large
      have bound := properties i
      refine (accepts_iff present).1 (.inr ⟨?_, ?_⟩)
      · rw [keeps.2]
        omega
      · rw [grown.shapeCount_eq, keeps.1]
        omega

theorem populates (keeps : t.KeepsTo limits)
    (large : LargeEnough limits fun i => seqs i ++ keysOf i additions) :
    ∃ t' reached', t.populate reached additions = .ok (t', reached') := by
  induction additions generalizing t reached seqs with
  | nil => exact ⟨t, reached, rfl⟩
  | cons addition later ih =>
    obtain ⟨i, key⟩ := addition
    rw [← keysOf_step] at large
    obtain ⟨t₁, target, moved⟩ := grown.accepts keeps (fun j => eraseDups_isPrefix ..) large
    obtain ⟨_, grows, _⟩ := grown.wellFormed.transition (grown.held i) moved
    obtain ⟨t', reached', done⟩ := ih (grown.step moved) (keeps.extends grows) large
    exact ⟨t', reached', by rw [ShapeTable.populate, moved]; exact done⟩

/-- A table that has refused nothing so far had limits that suffice. -/
theorem largeEnough (keeps : t.KeepsTo limits) : LargeEnough limits seqs := by
  refine ⟨?_, fun i => ?_⟩
  · rw [← grown.shapeCount_eq, ← keeps.1]
    exact grown.within
  · have small := grown.wellFormed.size_le (grown.held i)
    rwa [← Shape.size_keys, ← Array.length_toList, grown.keys, keeps.2] at small

end Grown

/-- What the builders have reached and what the table then holds, in terms of the sequences. -/
structure Populated (seqs : Fin n → List Key) (t : ShapeTable) (reached : Fin n → Shape) : Prop where
  held : ∀ i, t.Holds (reached i)
  keys : ∀ i, (reached i).keys.toList = (seqs i).eraseDups
  holds_iff : ∀ {keys}, (∃ s, t.Holds s ∧ s.keys.toList = keys) ↔
    keys = [] ∨ ∃ i, keys <+: (seqs i).eraseDups
  shapeCount : t.shapeCount = 1 + (prefixes seqs).card

theorem Grown.populated (grown : t.Grown reached seqs) : Populated seqs t reached :=
  ⟨grown.held, grown.keys, grown.holds_iff, grown.shapeCount_eq⟩

section

variable {id : TableId} {limits : Limits} (woven : Interleaves additions seqs)
include woven

theorem grown_of_populate
    (done : (ofLimits id limits).populate (fun _ => .root id) additions = .ok (t, reached)) :
    t.KeepsTo limits ∧ t.Grown reached seqs := by
  obtain ⟨grows, grown⟩ := (grown_ofLimits n id limits).populate done
  have fresh : (ofLimits id limits).KeepsTo limits := ⟨rfl, rfl⟩
  have same : (fun i => [] ++ keysOf i additions) = seqs := funext woven
  rw [same] at grown
  exact ⟨fresh.extends grows, grown⟩

/-- Whether a fresh table refuses an addition has nothing to do with their order. -/
theorem populate_iff_largeEnough :
    (∃ t reached, (ofLimits id limits).populate (fun _ => .root id) additions = .ok (t, reached)) ↔
      LargeEnough limits seqs := by
  constructor
  · rintro ⟨t, reached, done⟩
    obtain ⟨keeps, grown⟩ := grown_of_populate woven done
    exact grown.largeEnough keeps
  · intro large
    have same : (fun i => [] ++ keysOf i additions) = seqs := funext woven
    exact (grown_ofLimits n id limits).populates ⟨rfl, rfl⟩ (same ▸ large)

end

end ShapeTable

end ShapeVM
