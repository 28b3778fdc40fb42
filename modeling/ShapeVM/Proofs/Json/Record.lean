import ShapeVM.Proofs.Json.Format

/-!
# Records read from objects

What a member makes of one field depends on the value that it gives this field, if any, and on nothing
else (`Fields.visit_eq_some`), so that of all the members together each field is gathered on its own,
from the values that are given for it in the order of the members (`given`, `gather`). A field that is
given twice is not gathered, and so an object stands for a record exactly if it gives each field once,
or leaves out one whose value may be missing (`Fields.ofMembers_eq_some`).
-/
namespace ShapeVM.Json

open StringLiteral

variable {decode : (kind : Kind) → Document → Option kind.Value}

/-! ## Steps that succeed -/

section

variable {α β : Type}

theorem mapM_eq_some {f : α → Option β} {as : List α} {bs : List β} :
    as.mapM f = some bs ↔ List.Forall₂ (fun a b => f a = some b) as bs := by
  induction as generalizing bs with
  | nil => simp [eq_comm]
  | cons a as ih => simp [List.forall₂_cons_left_iff, ← ih, Option.bind_eq_some_iff, @eq_comm _ bs]

theorem forall_mem_of_mapM {f : α → Option β} {p : α → Prop} {as : List α} {bs : List β}
    (run : as.mapM f = some bs) (step : ∀ {a b}, f a = some b → p a) : ∀ a ∈ as, p a := by
  induction mapM_eq_some.1 run with
  | nil => simp
  | cons first _ ih => exact List.forall_mem_cons.2 ⟨step first, ih (mapM_eq_some.2 ‹_›)⟩

theorem exists_of_mem_foldlM {step : α → β → Option α} {start last : α} {bs : List β}
    (run : bs.foldlM step start = some last) {b : β} (mem : b ∈ bs) :
    ∃ s s', step s b = some s' := by
  induction bs generalizing start with
  | nil => cases mem
  | cons first others ih =>
    rw [List.foldlM_cons, Option.bind_eq_bind, Option.bind_eq_some_iff] at run
    obtain ⟨next, done, run⟩ := run
    rcases List.mem_cons.1 mem with rfl | mem
    · exact ⟨start, next, done⟩
    · exact ih run mem

end

theorem setOnce_eq_some {α : Type} {read : Document → Option α} {old new : Option α} {d : Document} :
    setOnce read old d = some new ↔ old = none ∧ ∃ a, read d = some a ∧ some a = new := by
  cases old <;> simp [setOnce]

/-! ## Only whole documents stand for values -/

open Document in
mutual

theorem Kind.isWhole_of_decode (law : Decodes decode) : (kind : Kind) → {d : Document} →
    {value : kind.Value} → decode kind d = some value → d.isWhole = true
  | .boolean, d, _, stands => by
    rw [law.boolean] at stands
    split at stands
    · rfl
    · cases stands
  | .string, d, _, stands => by
    rw [law.string] at stands
    split at stands
    · rfl
    · cases stands
  | .optional kind, d, _, stands => by
    by_cases null : d = .null
    · subst null
      rfl
    · rw [law.present kind null, Option.map_eq_some_iff] at stands
      obtain ⟨_, stands, _⟩ := stands
      exact kind.isWhole_of_decode law stands
  | .sequence kind, d, _, stands => by
    rw [law.sequence] at stands
    split at stands
    · rw [isWhole, Bool.true_and, wholeItems_iff]
      exact forall_mem_of_mapM stands (kind.isWhole_of_decode law)
    · cases stands
  | .record name fields, d, _, stands => by
    rw [law.record] at stands
    split at stands
    · rw [isWhole, Bool.true_and, wholeMembers_iff]
      intro m mem
      simp only [Fields.ofMembers, Option.bind_eq_bind, Option.bind_eq_some_iff] at stands
      obtain ⟨_, visited, _⟩ := stands
      obtain ⟨_, _, visited⟩ := exists_of_mem_foldlM visited mem
      obtain ⟨_, _, visited⟩ := Option.bind_eq_some_iff.1 visited
      exact fields.isWhole_of_visit law visited
    · rw [isWhole, Bool.true_and, wholeItems_iff]
      exact fields.isWhole_of_ofItems law stands
    · cases stands

theorem Fields.isWhole_of_visit (law : Decodes decode) : (fields : Fields) → {name : String} →
    {d : Document} → {old new : fields.Found} → fields.visit decode name d old = some new →
    d.isWhole = true
  | .nil, _, _, _, _, visited => (Option.ite_none_right_eq_some.1 visited).1
  | .cons field kind others, name, d, (old, rest), _, visited => by
    rw [Fields.visit] at visited
    split at visited
    · obtain ⟨_, visited, _⟩ := Option.map_eq_some_iff.1 visited
      obtain ⟨_, _, stands, _⟩ := setOnce_eq_some.1 visited
      exact kind.isWhole_of_decode law stands
    · obtain ⟨_, visited, _⟩ := Option.map_eq_some_iff.1 visited
      exact others.isWhole_of_visit law visited

theorem Fields.isWhole_of_ofItems (law : Decodes decode) : (fields : Fields) →
    {items : List Document} → {values : fields.Values} → fields.ofItems decode items = some values →
    ∀ item ∈ items, item.isWhole = true
  | .nil, [], _, _ => by simp
  | .cons _ kind others, item :: items, _, found => by
    simp only [Fields.ofItems, Option.bind_eq_bind, Option.bind_eq_some_iff] at found
    obtain ⟨_, first, _, later, _⟩ := found
    exact List.forall_mem_cons.2
      ⟨kind.isWhole_of_decode law first, others.isWhole_of_ofItems law later⟩

end

/-! ## The members of an object -/

/-- The values that members give a field, in whichever way their keys are written. -/
def given (field : String) (members : List Member) : List Document :=
  (members.filter fun m => text? m.1 = some field).map (·.2)

/-- Every key is a text, and the values that no field asks for are whole. -/
def Admits (fields : List String) (members : List Member) : Prop :=
  ∀ m ∈ members, ∃ name, text? m.1 = some name ∧ (name ∈ fields ∨ m.2.isWhole = true)

/-- Reads the values that are given for one field. -/
def gather {α : Type} (read : Document → Option α) (old : Option α) (ds : List Document) :
    Option (Option α) :=
  ds.foldlM (setOnce read) old

section

variable {α : Type} {read : Document → Option α} {old new : Option α}
  {field name : String} {names : List String} {m : Member} {members members' : List Member}

theorem given_append :
    given field (members ++ members') = given field members ++ given field members' := by
  simp [given]

theorem given_own (named : text? m.1 = some field) : given field [m] = [m.2] := by
  simp [given, named]

theorem given_other (named : text? m.1 = some name) (ne : name ≠ field) : given field [m] = [] := by
  simp [given, named, ne]

theorem admits_append :
    Admits names (members ++ members') ↔ Admits names members ∧ Admits names members' :=
  List.forall_mem_append

theorem admits_singleton (named : text? m.1 = some name) :
    Admits names [m] ↔ name ∈ names ∨ m.2.isWhole = true := by
  simp [Admits, named]

theorem gather_append {ds es : List Document} : gather read old (ds ++ es) = some new ↔
    ∃ between, gather read old ds = some between ∧ gather read between es = some new := by
  rw [gather, List.foldlM_append, Option.bind_eq_bind, Option.bind_eq_some_iff]
  rfl

/-- A field that is given twice is not read. -/
theorem gather_eq_some {ds : List Document} : gather read none ds = some new ↔
    ds = [] ∧ none = new ∨ ∃ d a, ds = [d] ∧ read d = some a ∧ some a = new := by
  cases ds with
  | nil => simp [gather]
  | cons d others =>
    cases others with
    | nil => simp [gather, setOnce_eq_some]
    | cons e others => simp [gather, Option.bind_eq_some_iff, setOnce_eq_some]

end

/-! ## The fields of a record -/

namespace Fields

/-- What members make of the fields. -/
def Gathers (decode : (kind : Kind) → Document → Option kind.Value) :
    (fields : Fields) → fields.Found → List Member → fields.Found → Prop
  | .nil, _, _, _ => True
  | .cons field kind others, (old, rest), members, (new, rest') =>
    gather (decode kind) old (given field members) = some new ∧
      others.Gathers decode rest members rest'

/-- Members give each field a value once, or leave it out where its value may be missing. -/
def Declared (decode : (kind : Kind) → Document → Option kind.Value) :
    (fields : Fields) → List Member → fields.Values → Prop
  | .nil, _, _ => True
  | .cons field kind others, members, (value, values) =>
    ((∃ d, given field members = [d] ∧ decode kind d = some value) ∨
      given field members = [] ∧ kind.absent? = some value) ∧
    others.Declared decode members values

variable {m : Member} {members members' : List Member} {name : String}

theorem declared_required {field : String} {kind : Kind} {others : Fields} {value : kind.Value}
    {values : others.Values} (needed : kind.absent? = none) :
    (cons field kind others).Declared decode members (value, values) ↔
      (∃ d, given field members = [d] ∧ decode kind d = some value) ∧
        others.Declared decode members values := by
  simp [Declared, needed]

@[simp] theorem gathers_nil : (fields : Fields) → {s r : fields.Found} →
    (fields.Gathers decode s [] r ↔ s = r)
  | .nil, _, _ => iff_of_true trivial rfl
  | .cons _ _ others, ⟨_, _⟩, ⟨_, _⟩ => by
    rw [Gathers, others.gathers_nil, Prod.mk.injEq]
    exact and_congr_left' Option.some_inj

theorem gathers_append : (fields : Fields) → {s r : fields.Found} →
    (fields.Gathers decode s (members ++ members') r ↔
      ∃ between, fields.Gathers decode s members between ∧ fields.Gathers decode between members' r)
  | .nil, _, _ => iff_of_true trivial ⟨(), trivial, trivial⟩
  | .cons _ _ others, ⟨_, _⟩, ⟨_, _⟩ => by
    rw [Gathers, given_append, gather_append, others.gathers_append]
    constructor
    · rintro ⟨⟨new, first, second⟩, rest, first', second'⟩
      exact ⟨(new, rest), ⟨first, first'⟩, second, second'⟩
    · rintro ⟨⟨new, rest⟩, ⟨first, first'⟩, second, second'⟩
      exact ⟨⟨new, first, second⟩, rest, first', second'⟩

theorem gathers_of_notMem (named : text? m.1 = some name) : (fields : Fields) →
    name ∉ fields.names → {s r : fields.Found} → (fields.Gathers decode s [m] r ↔ s = r)
  | .nil, _, _, _ => iff_of_true trivial rfl
  | .cons _ _ others, absent, (_, _), (_, _) => by
    rw [names, List.mem_cons, not_or] at absent
    rw [Gathers, given_other named absent.1, others.gathers_of_notMem named absent.2, Prod.mk.injEq]
    exact and_congr_left' Option.some_inj

/-- What one member does. -/
theorem visit_eq_some (named : text? m.1 = some name) : (fields : Fields) → fields.names.Nodup →
    {s r : fields.Found} → (fields.visit decode name m.2 s = some r ↔
      (name ∈ fields.names ∨ m.2.isWhole = true) ∧ fields.Gathers decode s [m] r)
  | .nil, _, _, _ => by simp [visit, Gathers, names]
  | .cons field kind others, distinct, (old, rest), (new, rest') => by
    obtain ⟨absent, distinct⟩ := List.nodup_cons.1 distinct
    rw [visit, Gathers, names]
    by_cases own : name = field
    · subst own
      rw [if_pos rfl, given_own named, others.gathers_of_notMem named absent, Option.map_eq_some_iff]
      simp [gather]
    · rw [if_neg own, given_other named own, Option.map_eq_some_iff]
      simp only [others.visit_eq_some named distinct, List.mem_cons, own, false_or, Prod.mk.injEq]
      constructor
      · rintro ⟨_, ⟨asked, gathers⟩, rfl, rfl⟩
        exact ⟨asked, rfl, gathers⟩
      · rintro ⟨asked, kept, gathers⟩
        exact ⟨rest', ⟨asked, gathers⟩, Option.some.inj kept, rfl⟩

theorem visitMember_eq_some (fields : Fields) (distinct : fields.names.Nodup) {s r : fields.Found} :
    fields.visitMember decode s m = some r ↔
      Admits fields.names [m] ∧ fields.Gathers decode s [m] r := by
  rw [visitMember, Option.bind_eq_bind]
  cases named : text? m.1 with
  | none => simp [Admits, named]
  | some name => rw [Option.bind_some, fields.visit_eq_some named distinct, admits_singleton named]

theorem foldlM_visitMember (fields : Fields) (distinct : fields.names.Nodup) {s r : fields.Found} :
    members.foldlM (fields.visitMember decode) s = some r ↔
      Admits fields.names members ∧ fields.Gathers decode s members r := by
  induction members generalizing s with
  | nil => simp [Admits]
  | cons m others ih =>
    have split : m :: others = [m] ++ others := rfl
    rw [List.foldlM_cons, Option.bind_eq_bind, Option.bind_eq_some_iff, split, admits_append,
      fields.gathers_append]
    simp only [fields.visitMember_eq_some distinct, ih]
    constructor
    · rintro ⟨between, ⟨admits, first⟩, admits', later⟩
      exact ⟨⟨admits, admits'⟩, between, first, later⟩
    · rintro ⟨⟨admits, admits'⟩, between, first, later⟩
      exact ⟨between, ⟨admits, first⟩, admits', later⟩

/-- What is gathered is complete if it is what the members declare. -/
theorem exists_gathers : (fields : Fields) → {values : fields.Values} →
    ((∃ found, fields.Gathers decode fields.nothing members found ∧ fields.finish found = some values) ↔
      fields.Declared decode members values)
  | .nil, () => iff_of_true ⟨(), trivial, rfl⟩ trivial
  | .cons field kind others, ⟨value, values⟩ => by
    rw [Declared, ← others.exists_gathers]
    constructor
    · rintro ⟨⟨found, rest⟩, ⟨gathered, gathers⟩, finished⟩
      simp only [finish, Option.bind_eq_bind, Option.bind_eq_some_iff] at finished
      obtain ⟨_, here, _, finished, ⟨⟩⟩ := finished
      refine ⟨?_, rest, gathers, finished⟩
      obtain ⟨absent, rfl⟩ | ⟨d, _, found, stands, rfl⟩ := gather_eq_some.1 gathered
      · exact .inr ⟨absent, here⟩
      · cases here
        exact .inl ⟨d, found, stands⟩
    · rintro ⟨⟨d, found, stands⟩ | ⟨absent, missing⟩, rest, gathers, finished⟩
      · have gathered := gather_eq_some.2 (.inr ⟨d, value, found, stands, rfl⟩)
        refine ⟨(some value, rest), ⟨gathered, gathers⟩, ?_⟩
        simp [finish, finished]
      · refine ⟨(none, rest), ⟨gather_eq_some.2 (.inl ⟨absent, rfl⟩), gathers⟩, ?_⟩
        simp [finish, missing, finished]

/-- The objects that stand for a record. -/
theorem ofMembers_eq_some (fields : Fields) (distinct : fields.names.Nodup) {values : fields.Values} :
    fields.ofMembers decode members = some values ↔
      Admits fields.names members ∧ fields.Declared decode members values := by
  rw [ofMembers, Option.bind_eq_bind, Option.bind_eq_some_iff, ← fields.exists_gathers]
  simp only [fields.foldlM_visitMember distinct, and_assoc, exists_and_left]

/-- A member that names none of the fields declares nothing. -/
theorem declared_cons_of_notMem (named : text? m.1 = some name) : (fields : Fields) →
    name ∉ fields.names → {values : fields.Values} → fields.Declared decode members values →
    fields.Declared decode (m :: members) values
  | .nil, _, _, _ => trivial
  | .cons field kind others, absent, ⟨value, values⟩, ⟨here, declared⟩ => by
    rw [names, List.mem_cons, not_or] at absent
    have same : given field (m :: members) = given field members := by
      rw [← List.singleton_append, given_append, given_other named absent.1, List.nil_append]
    exact ⟨same ▸ here, others.declared_cons_of_notMem named absent.2 declared⟩

theorem ofItems_nil {items : List Document} :
    nil.ofItems decode items = some () ↔ items = [] := by
  cases items <;> simp [ofItems]

theorem ofItems_cons {field : String} {kind : Kind} {others : Fields} {items : List Document}
    {value : kind.Value} {values : others.Values} :
    (cons field kind others).ofItems decode items = some (value, values) ↔
      ∃ item rest, items = item :: rest ∧ decode kind item = some value ∧
        others.ofItems decode rest = some values := by
  cases items <;> simp [ofItems, Option.bind_eq_some_iff, and_assoc]

end Fields

/-- The documents that stand for a record, in the one form and the other. -/
theorem decode_record_eq_some (law : Decodes decode) {name : String} {fields : Fields}
    (distinct : fields.names.Nodup) {d : Document} {values : fields.Values} :
    decode (.record name fields) d = some values ↔
      (∃ members, d = .object members true ∧ Admits fields.names members ∧
        fields.Declared decode members values) ∨
      ∃ items, d = .array items true ∧ fields.ofItems decode items = some values := by
  rw [law.record]
  constructor
  · intro stands
    split at stands
    · next members => exact .inl ⟨members, rfl, (fields.ofMembers_eq_some distinct).1 stands⟩
    · next items => exact .inr ⟨items, rfl, stands⟩
    · cases stands
  · rintro (⟨members, rfl, declared⟩ | ⟨items, rfl, stands⟩)
    · exact (fields.ofMembers_eq_some distinct).2 declared
    · exact stands

end ShapeVM.Json
