import ShapeVM.Proofs.Frame.Bindings

/-!
Frames before and after their arguments object is built. Building it changes nothing that a frame
answers, and commutes with everything that is done to a frame, for the object that is built later is
the one that would have been built before.
-/
namespace ShapeVM.Frame

variable {f f' g : Frame} {a : ArgumentsObject} {i : UInt32} {value : Value} {key : Key}
  {t t' : ShapeTable}

/-! ## What is built -/

/-- What the arguments object of a frame has of its own, as it is or as it is going to be built. -/
def state (f : Frame) : ArgumentsState := f.arguments.getD f.freshArguments

theorem withArguments_eq_state (f : Frame) : f.withArguments = { f with arguments := some f.state } :=
  f.withArguments_eq

/-- An arguments object that is there is not built again. -/
theorem withArguments_of_argumentsObject? (built : f.argumentsObject? = some a) :
    f.withArguments = f := by
  obtain ⟨state, isState, _⟩ := Option.map_eq_some_iff.1 built
  simp only [withArguments, isState]

@[simp] theorem withArguments_withArguments (f : Frame) :
    f.withArguments.withArguments = f.withArguments :=
  withArguments_of_argumentsObject? f.argumentsObject?_withArguments

/-- An arguments object that was just built shows the arguments as the frame has them. -/
theorem getIndex_of_not_built (unbuilt : f.argumentsObject? = none) (i : UInt32) :
    f.object.getIndex i = .ok (f.args.get? i.toNat) := by
  have fresh : f.arguments = none := Option.map_eq_none_iff.1 unbuilt
  rw [object, fresh, Option.getD_none]
  by_cases inside : i.toNat < f.args.size
  · simp [ArgumentsObject.getIndex, ArgumentsObject.isLinked, ArgumentsObject.size, inside,
      freshArguments]
  · have past : f.args.get? i.toNat = none := by
      rw [← Option.not_isSome_iff_eq_none, ArgumentList.isSome_get?, decide_eq_true_eq]
      exact inside
    have empty : (PropertyStore.empty f.table).get? (.index i) = .ok none := rfl
    simp [ArgumentsObject.getIndex, ArgumentsObject.isLinked, ArgumentsObject.size, inside, past,
      freshArguments, empty]

/-! ## Writing does not depend on what is built -/

section

variable (arguments : Option ArgumentsState)

theorem updateSlot_arguments {change : LocalSlot → LocalSlot} (done : f.updateSlot i change = .ok g) :
    { f with arguments }.updateSlot i change = .ok { g with arguments } := by
  obtain ⟨slot, found, done⟩ := Checked.bind_eq_ok.1 done
  obtain ⟨locals, written, ⟨⟩⟩ := Checked.bind_eq_ok.1 done
  exact Checked.bind_eq_ok.2 ⟨slot, found, Checked.bind_eq_ok.2 ⟨locals, written, rfl⟩⟩

theorem set_arguments (done : f.set i value = .ok g) :
    { f with arguments }.set i value = .ok { g with arguments } := by
  rw [Frame.set] at done ⊢
  dsimp only
  split at done
  · next parameter =>
    cases done
    rw [if_pos parameter]
    rfl
  · next start =>
    rw [if_neg start]
    split at done
    · next inside =>
      rw [if_pos inside]
      exact updateSlot_arguments arguments done
    · next past =>
      rw [if_neg past]
      split at done
      · next last =>
        cases done
        rw [if_pos last]
        rfl
      · next other =>
        cases done
        rw [if_neg other]
        rfl

theorem setConst_arguments (done : f.setConst i value = .ok g) :
    { f with arguments }.setConst i value = .ok { g with arguments } := by
  rw [Frame.setConst] at done ⊢
  dsimp only
  split at done
  · next slot =>
    rw [if_pos slot]
    exact updateSlot_arguments arguments done
  · next outside =>
    cases done
    rw [if_neg outside]
    rfl

end

/-! ## Writing keeps what is going to be built -/

theorem state_updateSlot {change : LocalSlot → LocalSlot} (done : f.updateSlot i change = .ok g) :
    g.state = f.state := by
  obtain ⟨_, _, done⟩ := Checked.bind_eq_ok.1 done
  obtain ⟨_, _, ⟨⟩⟩ := Checked.bind_eq_ok.1 done
  rfl

theorem state_set (done : f.set i value = .ok g) : g.state = f.state := by
  rw [Frame.set] at done
  split at done
  · cases done
    -- An object that is built later takes its length from the arguments, whose number never changes.
    have sized : ((f.args.set? i.toNat value).getD f.args).size = f.args.size :=
      f.args.size_replace i.toNat value
    simp only [state, freshArguments, sized]
  · split at done
    · exact state_updateSlot done
    · split at done
      · cases done
        rfl
      · cases done
        rfl

theorem state_setConst (done : f.setConst i value = .ok g) : g.state = f.state := by
  rw [Frame.setConst] at done
  split at done
  · exact state_updateSlot done
  · cases done
    rfl

/-! ## Frames that may have been built -/

/-- The frame `f'` is `f`, perhaps with its arguments object built. -/
inductive Published (f : Frame) : Frame → Prop
  | same : Published f f
  | built : Published f { f with arguments := some f.state }

theorem published_withArguments (f : Frame) : f.Published f.withArguments := by
  rw [withArguments_eq_state]
  exact .built

theorem published_of_state (same : g.state = f.state) :
    g.Published { g with arguments := some f.state } := by
  rw [← same]
  exact .built

namespace Published

theorem trans {f'' : Frame} (published : f.Published f') (published' : f'.Published f'') :
    f.Published f'' := by
  cases published' with
  | same => exact published
  | built =>
    cases published with
    | same => exact .built
    | built => exact .built

theorem eq_of_argumentsObject? (published : f.Published f') (built : f.argumentsObject? = some a) :
    f' = f := by
  cases published with
  | same => rfl
  | built => rw [← withArguments_eq_state, withArguments_of_argumentsObject? built]

section

variable (published : f.Published f')
include published

theorem withArguments : f.withArguments.Published f'.withArguments := by
  cases published with
  | same => exact .same
  | built =>
    rw [← withArguments_eq_state, withArguments_withArguments]
    exact .same

/-- What does not look at the arguments object cannot tell. -/
theorem reads {α : Type} (read : Frame → α)
    (ignores : ∀ f arguments, read { f with arguments } = read f) : read f' = read f := by
  cases published with
  | same => rfl
  | built => exact ignores f _

theorem object_eq : f'.object = f.object := by
  cases published with
  | same => rfl
  | built => rfl

theorem id_eq : f'.id = f.id := published.reads id fun _ _ => rfl

theorem set (done : f.set i value = .ok g) : ∃ g', f'.set i value = .ok g' ∧ g.Published g' := by
  cases published with
  | same => exact ⟨g, done, .same⟩
  | built => exact ⟨_, set_arguments _ done, published_of_state (state_set done)⟩

theorem setConst (done : f.setConst i value = .ok g) :
    ∃ g', f'.setConst i value = .ok g' ∧ g.Published g' := by
  cases published with
  | same => exact ⟨g, done, .same⟩
  | built => exact ⟨_, setConst_arguments _ done, published_of_state (state_setConst done)⟩

theorem setProperties (properties : PropertyStore) :
    { f with properties }.Published { f' with properties } := by
  cases published with
  | same => exact .same
  | built => exact .built

theorem setParent (parent : Option FrameId) : { f with parent }.Published { f' with parent } := by
  cases published with
  | same => exact .same
  | built => exact .built

theorem putByKey (done : f.putByKey t key value = .ok (g, t')) :
    ∃ g', f'.putByKey t key value = .ok (g', t') ∧ g.Published g' := by
  rw [Frame.putByKey] at done
  rw [Frame.putByKey, published.reads (·.resolve? key) fun _ _ => rfl,
    published.reads properties fun _ _ => rfl]
  split at done
  · next i resolved =>
    obtain ⟨g, written, ⟨⟩⟩ := Checked.bind_eq_ok.1 done
    obtain ⟨g', written', published'⟩ := published.set written
    exact ⟨g', by simp [written'], published'⟩
  · next unresolved =>
    obtain ⟨⟨properties, _⟩, inserted, ⟨⟩⟩ := Checked.bind_eq_ok.1 done
    exact ⟨{ f' with properties }, by simp [inserted], published.setProperties properties⟩

theorem deleteKey {deleted : Bool} (done : f.deleteKey key = (g, deleted)) :
    ∃ g', f'.deleteKey key = (g', deleted) ∧ g.Published g' := by
  rw [Frame.deleteKey] at done
  rw [Frame.deleteKey, published.reads (·.resolve? key) fun _ _ => rfl,
    published.reads properties fun _ _ => rfl]
  split at done
  · next resolved =>
    cases done
    exact ⟨f', if_pos resolved, published⟩
  · next unresolved =>
    cases done
    exact ⟨_, if_neg unresolved, published.setProperties _⟩

end

end Published

end ShapeVM.Frame
