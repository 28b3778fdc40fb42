import ShapeVM.Frame.ArgumentsObject
import ShapeVM.Proofs.Frame.ArgumentList
import ShapeVM.Proofs.Properties.Store

/-!
What writing and deleting do to an arguments object. An index is linked while it still is the argument
at its position. A write to a linked index is a write to the argument and to nothing else; any other
write is one to the object's own properties. A deletion unlinks its index, and no operation links one
again.
-/
namespace ShapeVM.ArgumentsObject

variable {a a' : ArgumentsObject} {t t' : ShapeTable} {i : UInt32} {key : Key} {value : Value}

/-- The flags of deleted indices, once made, are one for each argument. -/
def WellFormed (a : ArgumentsObject) : Prop :=
  ∀ ⦃flags⦄, a.deleted = some flags → flags.size = a.size

theorem WellFormed.setArgs (w : a.WellFormed) {args : ArgumentList} (sized : args.size = a.args.size) :
    { a with args }.WellFormed :=
  fun _ isFlags => (w isFlags).trans sized.symm

/-- The flag of an index; without one an index was not deleted. -/
def flag (a : ArgumentsObject) (i : UInt32) : Bool := (a.deleted.bind (·[i.toNat]?)).getD false

def linked (a : ArgumentsObject) (i : UInt32) : Bool := decide (i.toNat < a.size) && !a.flag i

theorem linked_setArgs {args : ArgumentList} (sized : args.size = a.args.size) (i : UInt32) :
    { a with args }.linked i = a.linked i := by
  rw [linked, linked, show ArgumentsObject.size { a with args } = a.size from sized]
  rfl

/-- The keys are those of the arguments that the call got. -/
theorem keys_of_size (same : a'.size = a.size) : a'.keys = a.keys := by rw [keys, same, keys]

theorem lt_size_of_linked (linked : a.linked i = true) : i.toNat < a.size := by
  rw [ArgumentsObject.linked, Bool.and_eq_true, decide_eq_true_eq] at linked
  exact linked.1

/-- No flag is read past the end. -/
theorem WellFormed.isLinked (w : a.WellFormed) (i : UInt32) : a.isLinked i = .ok (a.linked i) := by
  rw [ArgumentsObject.isLinked, linked]
  split
  · next inside =>
    cases flagged : a.deleted with
    | none => simp [inside, flag, flagged]
    | some flags =>
      have inside' : i.toNat < flags.size := w flagged ▸ inside
      have read : readAt flags i.toNat = .ok flags[i.toNat] :=
        readAt_eq_ok.2 (Array.getElem?_eq_getElem inside')
      simp [inside, flag, flagged, inside', read]
  · next outside => simp [outside]

theorem WellFormed.getIndex_of_linked (w : a.WellFormed) (linked : a.linked i = true) :
    a.getIndex i = .ok (a.args.get? i.toNat) := by
  simp [getIndex, w.isLinked, linked]

theorem WellFormed.getIndex_of_not_linked (w : a.WellFormed) (unlinked : a.linked i = false) :
    a.getIndex i = a.properties.get? (.index i) := by
  simp [getIndex, w.isLinked, unlinked]

/-- The two ways in which a property is written. -/
theorem WellFormed.put_eq_ok (w : a.WellFormed) (done : a.put t key value = .ok (a', t')) :
    (∃ i, key = .index i ∧ a.linked i = true ∧
        a' = { a with args := a.args.replace i.toNat value } ∧ t' = t) ∨
      (∀ i, key = .index i → a.linked i = false) ∧ ∃ properties,
        a.properties.insert t key value = .ok (properties, t') ∧ a' = { a with properties } := by
  cases key with
  | name s =>
    refine .inr ⟨nofun, ?_⟩
    obtain ⟨⟨properties, _⟩, inserted, ⟨⟩⟩ := Checked.bind_eq_ok.1 done
    exact ⟨properties, inserted, rfl⟩
  | index i =>
    rw [put, putIndex, w.isLinked, Checked.ok_bind] at done
    split at done
    · next linked =>
      cases done
      exact .inl ⟨i, rfl, linked, rfl, rfl⟩
    · next unlinked =>
      refine .inr ⟨?_, ?_⟩
      · rintro _ ⟨⟩
        exact Bool.not_eq_true _ ▸ unlinked
      · obtain ⟨⟨properties, _⟩, inserted, ⟨⟩⟩ := Checked.bind_eq_ok.1 done
        exact ⟨properties, inserted, rfl⟩

/-- What deleting a property comes to. -/
structure Deleted (a : ArgumentsObject) (key : Key) (a' : ArgumentsObject) : Prop where
  args : a'.args = a.args
  properties : a'.properties = (a.properties.erase key).1
  wellFormed : a'.WellFormed
  linked : ∀ i, a'.linked i = (a.linked i && decide (key ≠ .index i))

/-- Deleting never faults, and says that it deleted. -/
theorem WellFormed.delete (w : a.WellFormed) (key : Key) :
    ∃ a', a.delete key = .ok (a', true) ∧ a.Deleted key a' := by
  cases key with
  | name s =>
    refine ⟨_, rfl, rfl, rfl, w, fun i => ?_⟩
    rw [decide_eq_true (by simp), Bool.and_true]
    rfl
  | index i =>
    by_cases inside : i.toNat < a.size
    · let flags := a.deleted.getD (Array.replicate a.size false)
      have sized : flags.size = a.size := by
        cases flagged : a.deleted with
        | none => simp [flags, flagged]
        | some made => simpa [flags, flagged] using w flagged
      have written : writeAt flags i.toNat true = .ok (flags.setIfInBounds i.toNat true) :=
        writeAt_of_lt (sized.symm ▸ inside) true
      let a' := { a with
        deleted := some (flags.setIfInBounds i.toNat true)
        properties := (a.properties.erase (.index i)).1 }
      refine ⟨a', by simp [ArgumentsObject.delete, deleteIndex, inside, flags, written, a'], rfl, rfl,
        ?_, ?_⟩
      · rintro _ ⟨⟩
        exact Array.size_setIfInBounds.trans sized
      · intro j
        have flag' : a'.flag j = (decide (i = j) || a.flag j) := by
          by_cases same : i = j
          · subst same
            simp [flag, a', sized, inside]
          · have apart : i.toNat ≠ j.toNat := fun eq => same (UInt32.toNat_inj.1 eq)
            cases flagged : a.deleted with
            | none =>
              simp only [flag, a', flags, flagged, Option.bind_some, Option.getD_none,
                Array.getElem?_setIfInBounds, if_neg apart, Array.getElem?_replicate, same]
              split <;> rfl
            | some made => simp [flag, a', flags, flagged, apart, same]
        rw [linked, linked, flag', show a'.size = a.size from rfl]
        simp [Bool.and_comm, Bool.and_assoc]
    · let a' := { a with properties := (a.properties.erase (.index i)).1 }
      refine ⟨a', by simp [ArgumentsObject.delete, deleteIndex, inside, a'], rfl, rfl, w, fun j => ?_⟩
      by_cases same : i = j
      · subst same
        rw [linked, show a'.size = a.size from rfl, decide_eq_false inside]
        simp
      · rw [decide_eq_true (by simpa using same), Bool.and_true]
        rfl

theorem WellFormed.deleted_of_delete {deleted : Bool} (w : a.WellFormed)
    (done : a.delete key = .ok (a', deleted)) : a.Deleted key a' := by
  obtain ⟨_, done', spec⟩ := w.delete key
  cases done.symm.trans done'
  exact spec

end ShapeVM.ArgumentsObject
