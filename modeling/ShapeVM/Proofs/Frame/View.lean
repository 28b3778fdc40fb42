import ShapeVM.Proofs.Frame.Constants
import ShapeVM.Proofs.Properties.View

/-!
What a program sees of an arguments object and of a frame. An argument stands before the arguments
object's own property of the index, and a built-in name behind its own property of the name; a key that
resolves is a binding of the frame, and any other is one of its own properties. Whichever of these a
write or a deletion reaches, no other key shows it: positions belong to one key each.
-/
namespace ShapeVM

/-! ## Arguments objects -/

namespace ArgumentsObject

variable {a a' : ArgumentsObject} {t t' : ShapeTable} {key : Key} {value : Value}

/-- What hides the object's own property of a key. -/
def argument? (a : ArgumentsObject) : Key → Option Value
  | .index i => if a.linked i then a.args.get? i.toNat else none
  | .name _ => none

/-- What the object's own property of a key hides. -/
def behind? (a : ArgumentsObject) : Key → Option Value
  | .index _ => none
  | .name s => a.builtin? s

def view (a : ArgumentsObject) : View where
  get key := (a.argument? key).or ((a.properties.view.get key).or (a.behind? key))
  has key := (a.argument? key).isSome || a.properties.view.has key || (a.behind? key).isSome
  keys := a.keys

theorem get_view (a : ArgumentsObject) (key : Key) : a.view.get key =
    (a.argument? key).or ((a.properties.view.get key).or (a.behind? key)) := rfl

theorem has_view (a : ArgumentsObject) (key : Key) : a.view.has key =
    ((a.argument? key).isSome || a.properties.view.has key || (a.behind? key).isSome) := rfl

theorem isSome_argument? (a : ArgumentsObject) (i : UInt32) :
    (a.argument? (.index i)).isSome = a.linked i := by
  rw [argument?]
  cases linked : a.linked i with
  | true =>
    rw [if_pos rfl, ArgumentList.isSome_get?]
    exact decide_eq_true (lt_size_of_linked linked)
  | false => rfl

section

variable (w : a.WellFormed) (readable : a.properties.Readable)
include w readable

theorem get?_eq_view (key : Key) : a.get? key = .ok (a.view.get key) := by
  cases key with
  | name s => simp [get?, readable.get?_eq, view, argument?, behind?]
  | index i =>
    cases linked : a.linked i with
    | true =>
      have shown := a.isSome_argument? i
      rw [linked] at shown
      obtain ⟨passed, found⟩ := Option.isSome_iff_exists.1 shown
      rw [argument?, if_pos linked] at found
      simp [get?, w.getIndex_of_linked linked, view, argument?, linked, found]
    | false =>
      simp [get?, w.getIndex_of_not_linked linked, readable.get?_eq, view, argument?, behind?, linked]

theorem has_eq_view (key : Key) : a.has key = .ok (a.view.has key) := by
  cases key with
  | name s => simp [has, readable.contains_eq, view, argument?, behind?]
  | index i =>
    simp [has, hasIndex, w.isLinked, readable.contains_eq, view, isSome_argument?, behind?]

end

/-- A write to a linked index. -/
theorem put_argument {i : UInt32} (linked : a.linked i = true) (value : Value) :
    a.view.Put (.index i) value False False { a with args := a.args.replace i.toNat value }.view := by
  let a' := { a with args := a.args.replace i.toNat value }
  have argument (k : Key) : a'.argument? k = if k = .index i then some value else a.argument? k := by
    cases k with
    | name s => rfl
    | index j =>
      have sized := a.args.size_replace i.toNat value
      rw [argument?, linked_setArgs sized, argument?]
      by_cases same : j = i
      · subst same
        rw [if_pos linked, if_pos rfl]
        exact (a.args.get?_replace ..).trans (if_pos ⟨rfl, lt_size_of_linked linked⟩)
      · rw [if_neg fun eq => same (Key.index.inj eq)]
        exact congrArg (fun found => if a.linked j then found else none)
          (a.args.get?_replace_of_ne (Ne.symm same) value)
  refine ⟨?_, fun _ => ?_, False.elim, ⟨fun {k} apart => ?_, fun {k} apart => ?_⟩, fun _ => ?_,
    fun _ => False.elim⟩
  · rw [has_view, argument, if_pos rfl]
    rfl
  · rw [get_view, argument, if_pos rfl]
    rfl
  · rw [get_view, argument, if_neg apart]
    rfl
  · rw [has_view, argument, if_neg apart]
    rfl
  · exact keys_of_size (a.args.size_replace i.toNat value)

/-- A write to the object's own properties, where no argument hides it. -/
theorem put_property {properties : PropertyStore} (unhidden : a.argument? key = none)
    (put : a.properties.view.Put key value False True properties.view) :
    a.view.Put key value False False { a with properties }.view where
  has := by rw [has_view, put.has, Bool.or_true, Bool.true_or]
  get _ := by
    have unhidden : argument? { a with properties } key = none := unhidden
    rw [get_view, unhidden, put.get id]
    rfl
  get_of_fixed := False.elim
  others.get {k} apart := by
    rw [get_view, put.others.get apart]
    rfl
  others.has {k} apart := by
    rw [has_view, put.others.has apart]
    rfl
  keys _ := rfl
  added _ := False.elim

theorem argument?_of_not_linked (unlinked : ∀ i, key = .index i → a.linked i = false) :
    a.argument? key = none := by
  cases key with
  | name s => rfl
  | index i => simp [argument?, unlinked i rfl]

theorem WellFormed.put_view (w : a.WellFormed) (fits : a.properties.Fits t) (wt : t.WellFormed)
    (small : t.Addressable) (done : a.put t key value = .ok (a', t')) :
    a'.WellFormed ∧ a'.properties.Readable ∧ a.view.Put key value False False a'.view := by
  rcases w.put_eq_ok done with ⟨i, rfl, linked, rfl, rfl⟩ | ⟨unlinked, properties, inserted, rfl⟩
  · exact ⟨w.setArgs (a.args.size_replace ..), fits.readable wt small, put_argument linked value⟩
  · obtain ⟨readable, put⟩ := fits.put wt small inserted
    exact ⟨w, readable, put_property (argument?_of_not_linked unlinked) put⟩

/-! ### Deleting -/

theorem behind?_of_delete {deleted : Bool} (done : a.delete key = .ok (a', deleted)) :
    a'.behind? = a.behind? := by
  cases key with
  | name s =>
    cases done
    rfl
  | index i =>
    rw [delete, deleteIndex] at done
    split at done
    · obtain ⟨flags, _, ⟨⟩⟩ := Checked.bind_eq_ok.1 done
      rfl
    · cases done
      rfl

/-- What deleting leaves at the key: the built-in value of a name that has one, and nothing else. -/
structure Bared (a : ArgumentsObject) (key : Key) (v' : View) : Prop where
  others : a.view.Spares key v'
  get : v'.get key = a.behind? key
  has : v'.has key = (a.behind? key).isSome
  keys : v'.keys = a.keys

theorem Deleted.bared (deleted : a.Deleted key a') (behind : a'.behind? = a.behind?)
    (readable : a.properties.Readable) : a.Bared key a'.view := by
  have argument (k : Key) : a'.argument? k = if k = key then none else a.argument? k := by
    cases k with
    | name s => rw [argument?, argument?, ite_self]
    | index j =>
      rw [argument?, argument?, deleted.linked, deleted.args]
      by_cases same : key = .index j
      · simp [same]
      · simp [same, Ne.symm same]
  have spares := readable.erase_spares key
  have lacks := readable.erase_lacks key
  rw [← deleted.properties] at spares lacks
  refine ⟨⟨fun {k} apart => ?_, fun {k} apart => ?_⟩, ?_, ?_, ?_⟩
  · rw [get_view, argument, if_neg apart, spares.get apart, behind]
    rfl
  · rw [has_view, argument, if_neg apart, spares.has apart, behind]
    rfl
  · simp [get_view, argument, lacks.get, behind]
  · simp [has_view, argument, lacks.has, behind]
  · exact keys_of_size (congrArg ArgumentList.size deleted.args)

theorem WellFormed.delete_view (w : a.WellFormed) (readable : a.properties.Readable) (key : Key) :
    ∃ a', a.delete key = .ok (a', true) ∧ a'.WellFormed ∧ a'.properties.Readable ∧
      a.Bared key a'.view := by
  obtain ⟨a', done, deleted⟩ := w.delete key
  refine ⟨a', done, deleted.wellFormed, ?_, deleted.bared (behind?_of_delete done) readable⟩
  rw [deleted.properties]
  exact readable.erase key

end ArgumentsObject

/-! ## Frames -/

namespace Frame

variable {f f' : Frame} {t t' : ShapeTable} {i : UInt32} {key : Key} {value : Value}

def view (f : Frame) : View where
  get key :=
    match f.function.code.resolve? key with
    | some i => (f.get i).toOption
    | none => f.properties.view.get key
  has key := (f.function.code.resolve? key).isSome || f.properties.view.has key
  keys := f.function.code.boundKeys ++ f.properties.view.keys

theorem get_view_of_resolved (resolved : f.function.code.resolve? key = some i) :
    f.view.get key = (f.get i).toOption := by
  simp only [view, resolved]

theorem get_view_of_unresolved (unresolved : f.function.code.resolve? key = none) :
    f.view.get key = f.properties.view.get key := by
  simp only [view, unresolved]

section

variable (readable : f.properties.Readable)
include readable

theorem getByKey_eq_view (w : f.WellFormed) (key : Key) : f.getByKey key = .ok (f.view.get key) := by
  rw [getByKey, resolve?_eq]
  cases resolved : f.function.code.resolve? key with
  | none =>
    rw [get_view_of_unresolved resolved]
    exact readable.get?_eq key
  | some i =>
    obtain ⟨value, found⟩ := w.get i
    simp [get_view_of_resolved resolved, found, Except.toOption]

theorem hasKey_eq_view (key : Key) : f.hasKey key = f.view.has key := by
  rw [hasKey, resolve?_eq, readable.contains_eq, view]

theorem keys_eq_view : f.keys = f.view.keys := by
  rw [keys, Scope.keys_eq, readable.keys_eq, view]

end

/-- The key is that of a constant. -/
def Fixes (f : Frame) (key : Key) : Prop :=
  ∃ i, f.function.code.resolve? key = some i ∧ (f.final? i).isSome = true

theorem get_updateSlot {change : LocalSlot → LocalSlot} {s : LocalSlot} (slot : f.HasSlot i)
    (found : f.locals.get? (f.slotIndex i) = some s) (done : f.updateSlot i change = .ok f') :
    f'.get i = .ok (change s).value := by
  rw [updateSlot, Cells.read_eq_ok.2 found, Checked.ok_bind] at done
  obtain ⟨locals, written, ⟨⟩⟩ := Checked.bind_eq_ok.1 done
  obtain ⟨within, rfl⟩ := Cells.write_eq_ok.1 written
  have stored : (f.locals.set (f.slotIndex i) (change s)).read (f.slotIndex i) = .ok (change s) := by
    rw [Cells.read_eq_ok, Cells.get?_set, if_pos ⟨rfl, within⟩]
  refine (if_neg (UInt32.not_lt.2 slot.1)).trans ((if_pos slot.2).trans ?_)
  change ((f.locals.set (f.slotIndex i) (change s)).read (f.slotIndex i) >>= _) = _
  rw [stored]
  rfl

/-- A binding that is written reads as the value, unless its slot has one for good. -/
theorem WellFormed.get_set (w : f.WellFormed) (bound : i < f.bindingCount ∨ i = argumentsIndex)
    (done : f.set i value = .ok f') : f'.get i = .ok ((f.final? i).getD value) := by
  rw [Frame.set] at done
  split at done
  · next parameter =>
    cases done
    have inside := Nat.lt_of_lt_of_le (UInt32.lt_iff_toNat_lt.1 parameter) w.localsStart_le
    have unfinal := final?_of_not_hasSlot (f := f) fun slot => UInt32.not_le.2 parameter slot.1
    have written := (f.args.get?_replace i.toNat i.toNat value).trans (if_pos ⟨rfl, inside⟩)
    rw [ArgumentList.replace] at written
    rw [get_of_lt (f := { f with args := (f.args.set? i.toNat value).getD f.args }) parameter, written,
      unfinal]
    rfl
  · next start =>
    split at done
    · next inside =>
      have slot : f.HasSlot i := ⟨UInt32.not_lt.1 start, inside⟩
      obtain ⟨s, found, final⟩ := w.slot slot
      rw [get_updateSlot slot found done, final]
      cases s with
      | var _ => rfl
      | const _ => rfl
    · next outside =>
      obtain rfl := bound.resolve_left outside
      rw [if_pos rfl] at done
      cases done
      rw [Frame.get, if_neg start, if_neg outside, if_pos rfl,
        final?_of_not_hasSlot f.not_hasSlot_argumentsIndex]
      rfl

/-- A write to a binding. -/
theorem WellFormed.put_binding (w : f.WellFormed) (few : f.function.code.names.length < UInt32.size)
    (counted : f.bindingCount = f.function.code.bindingCount)
    (resolved : f.function.code.resolve? key = some i) (done : f.set i value = .ok f') :
    f.view.Put key value (f.Fixes key) True f'.view := by
  obtain ⟨_, done', assigned⟩ := w.set i value
  cases done.symm.trans done'
  have function := assigned.function_eq
  have properties := assigned.properties_eq
  have bound := Function.lt_of_resolve? few resolved
  rw [← counted] at bound
  have shown := w.get_set bound done
  have present : f.view.has key = true := by simp [view, resolved]
  refine ⟨?_, fun free => ?_, fun fixed => ?_, ⟨fun {k} apart => ?_, fun {k} _ => ?_⟩, fun _ => ?_,
    fun absent => ?_⟩
  · simp [view, function, resolved]
  · have unfinal : f.final? i = none := by
      rw [← Option.not_isSome_iff_eq_none]
      exact fun final => free ⟨i, resolved, final⟩
    simp [view, function, resolved, shown, unfinal, Except.toOption]
  · obtain ⟨_, resolved', isFinal⟩ := fixed
    cases resolved.symm.trans resolved'
    obtain ⟨final, isFinal⟩ := Option.isSome_iff_exists.1 isFinal
    simp [view, function, resolved, shown, isFinal, w.get_of_final? isFinal, Except.toOption]
  · simp only [view, function, properties]
    cases resolved' : f.function.code.resolve? k with
    | none => rfl
    | some j =>
      have other : j ≠ i := by
        rintro rfl
        exact apart (Function.eq_of_resolve? few resolved' resolved)
      exact congrArg Except.toOption (assigned.others other)
  · simp only [view, function, properties]
  · simp only [view, function, properties]
  · cases present.symm.trans absent

/-- A write to a property of the frame's own. -/
theorem put_ownProperty {properties : PropertyStore} (unresolved : f.function.code.resolve? key = none)
    (put : f.properties.view.Put key value False True properties.view) :
    f.view.Put key value (f.Fixes key) True { f with properties }.view where
  has := by simp [view, unresolved, put.has]
  get _ := by simp [view, unresolved, put.get]
  get_of_fixed := by
    rintro ⟨i, resolved, _⟩
    cases unresolved.symm.trans resolved
  others.get {k} apart := by
    simp only [view]
    cases f.function.code.resolve? k with
    | none => exact put.others.get apart
    | some i => rfl
  others.has {k} apart := by simp [view, put.others.has apart]
  keys present := by
    have present : f.properties.view.has key = true ∨ ¬True := by simpa [view, unresolved] using present
    simp [view, put.keys present]
  added absent _ := by
    have absent : f.properties.view.has key = false := by simpa [view, unresolved] using absent
    simp [view, put.added absent trivial]

theorem WellFormed.setProperties (w : f.WellFormed) (properties : PropertyStore) :
    WellFormed { f with properties } := ⟨w.localsStart_le, w.sized, w.object⟩

theorem WellFormed.put_view (w : f.WellFormed) (few : f.function.code.names.length < UInt32.size)
    (counted : f.bindingCount = f.function.code.bindingCount) (fits : f.properties.Fits t)
    (wt : t.WellFormed) (small : t.Addressable) (done : f.putByKey t key value = .ok (f', t')) :
    f'.id = f.id ∧ f'.WellFormed ∧ f'.properties.Readable ∧
      f.view.Put key value (f.Fixes key) True f'.view := by
  rcases putByKey_eq_ok done with ⟨i, resolved, written, rfl⟩ |
    ⟨unresolved, properties, inserted, rfl⟩
  · obtain ⟨_, done', assigned⟩ := w.set i value
    cases written.symm.trans done'
    refine ⟨assigned.id_eq, assigned.wellFormed (by split <;> simp) w, ?_,
      w.put_binding few counted resolved written⟩
    rw [assigned.properties_eq]
    exact fits.readable wt small
  · obtain ⟨readable, put⟩ := fits.put wt small inserted
    exact ⟨rfl, w.setProperties properties, readable, put_ownProperty unresolved put⟩

/-! ### Deleting -/

/-- A deletion of a property of the frame's own. -/
theorem erase_ownProperty (readable : f.properties.Readable)
    (unresolved : f.function.code.resolve? key = none) :
    f.view.Spares key { f with properties := (f.properties.erase key).1 }.view ∧
      View.Lacks { f with properties := (f.properties.erase key).1 }.view key := by
  have spares := readable.erase_spares key
  have lacks := readable.erase_lacks key
  refine ⟨⟨fun {k} apart => ?_, fun {k} apart => ?_⟩, ⟨?_, ?_⟩⟩
  · simp only [view]
    cases f.function.code.resolve? k with
    | none => exact spares.get apart
    | some i => rfl
  · simp [view, spares.has apart]
  · simp [view, unresolved, lacks.get]
  · simp [view, unresolved, lacks.has]

/-- A deletion does nothing, or deletes a property of the frame's own. -/
theorem delete_view (readable : f.properties.Readable) (key : Key) :
    (f.deleteKey key = (f, false) ∧
        ((∃ i, f.function.code.resolve? key = some i) ∨ f.view.has key = false)) ∨
      f.function.code.resolve? key = none ∧ f.view.has key = true ∧
        f.deleteKey key = ({ f with properties := (f.properties.erase key).1 }, true) := by
  cases resolved : f.function.code.resolve? key with
  | some i => exact .inl ⟨deleteKey_of_resolved resolved, .inl ⟨i, rfl⟩⟩
  | none =>
    have done := deleteKey_of_unresolved resolved
    have shown : f.view.has key = f.properties.view.has key := by simp [view, resolved]
    rw [readable.erase_snd, ← shown] at done
    cases present : f.view.has key with
    | true => exact .inr ⟨rfl, rfl, present ▸ done⟩
    | false =>
      have absent : f.properties.contains key = false := by
        rw [readable.contains_eq, ← shown, present]
      have same : (f.properties.erase key).1 = f.properties := by
        simp [PropertyStore.erase, absent]
      rw [same, present] at done
      exact .inl ⟨done, .inr rfl⟩

end Frame

end ShapeVM
