import ShapeVM.Function.Json
import ShapeVM.Proofs.Json.Record

/-!
# The documents of a function

The documents that stand for a function are described without a reader (`Describes`): an object that
gives each field once, where only a name that is missing may be left out, or an array of the fields in
order; and the flags in either form (`decode_kind_eq_some`).
-/
namespace ShapeVM.Function

open Json StringLiteral

/-! ## Values -/

def IsString (d : Document) (s : String) : Prop :=
  ∃ ps, d = .string ps ∧ text? ps = some s

def IsName (d : Document) : Option String → Prop
  | none => d = .null
  | some name => IsString d name

def IsNames (d : Document) (names : List String) : Prop :=
  ∃ items, d = .array items true ∧ List.Forall₂ IsString items names

/-- The documents that stand for flags, in the one form and the other. -/
inductive IsFlags : Document → FunctionFlags → Prop
  | object {members : List Member} {flags : FunctionFlags} : Admits ["uses_eval"] members →
    given "uses_eval" members = [.boolean flags.usesEval] → IsFlags (.object members true) flags
  | array {flags : FunctionFlags} : IsFlags (.array [.boolean flags.usesEval] true) flags

/-! ## Functions -/

def fieldNames : List String :=
  ["name", "flags", "param_names", "local_names", "property_sites"]

/-- Members give each field of a function once. Only a name that is missing may be left out. -/
structure Declare (members : List Member) (f : Function) : Prop where
  admits : Admits fieldNames members
  name : given "name" members = [] ∧ f.name = none ∨
    ∃ d, given "name" members = [d] ∧ IsName d f.name
  flags : ∃ d, given "flags" members = [d] ∧ IsFlags d f.flags
  paramNames : ∃ d, given "param_names" members = [d] ∧ IsNames d f.paramNames
  localNames : ∃ d, given "local_names" members = [d] ∧ IsNames d f.localNames
  propertySites : ∃ d, given "property_sites" members = [d] ∧ IsNames d f.propertySites

/-- The documents that stand for a function, in the one form and the other. -/
inductive Describes : Document → Function → Prop
  | object {members : List Member} {f : Function} : Declare members f →
    Describes (.object members true) f
  | array {name flags paramNames localNames propertySites : Document} {f : Function} :
    IsName name f.name → IsFlags flags f.flags → IsNames paramNames f.paramNames →
    IsNames localNames f.localNames → IsNames propertySites f.propertySites →
    Describes (.array [name, flags, paramNames, localNames, propertySites] true) f

/-! ## What documents stand for -/

section

variable {decode : (kind : Kind) → Document → Option kind.Value} (law : Decodes decode) {d : Document}
include law

theorem decode_boolean_eq_some {b : Bool} : decode .boolean d = some b ↔ d = .boolean b := by
  rw [law.boolean]
  cases d <;> simp

theorem decode_string_eq_some {s : String} : decode .string d = some s ↔ IsString d s := by
  rw [law.string]
  cases d <;> simp [IsString]

theorem decode_name_eq_some {name : Option String} :
    decode (.optional .string) d = some name ↔ IsName d name := by
  by_cases null : d = .null
  · subst null
    rw [law.missing]
    cases name <;> simp [IsName, IsString]
  · rw [law.present .string null, Option.map_eq_some_iff]
    cases name with
    | none => simp [IsName, null]
    | some name => simp [IsName, decode_string_eq_some law]

theorem decode_names_eq_some {names : List String} :
    decode (.sequence .string) d = some names ↔ IsNames d names := by
  rw [law.sequence]
  constructor
  · intro stands
    split at stands
    · next items =>
      refine ⟨items, rfl, (mapM_eq_some.1 stands).imp fun _ _ => (decode_string_eq_some law).1⟩
    · cases stands
  · rintro ⟨items, rfl, strings⟩
    exact mapM_eq_some.2 (strings.imp fun _ _ => (decode_string_eq_some law).2)

theorem decode_flags_eq_some {flags : FunctionFlags} :
    decode FunctionFlags.kind d = some (flags.usesEval, ()) ↔ IsFlags d flags := by
  have distinct : (Fields.cons "uses_eval" .boolean .nil).names.Nodup := by decide
  refine (decode_record_eq_some law distinct).trans ?_
  constructor
  · rintro (⟨members, rfl, admits, declared⟩ | ⟨items, rfl, stands⟩)
    · obtain ⟨⟨d, found, stands⟩ | ⟨_, ⟨⟩⟩, _⟩ := declared
      obtain rfl := (decode_boolean_eq_some law).1 stands
      exact .object admits found
    · obtain ⟨item, rest, rfl, stands, none⟩ := Fields.ofItems_cons.1 stands
      obtain rfl := (decode_boolean_eq_some law).1 stands
      obtain rfl := Fields.ofItems_nil.1 none
      exact .array
  · intro form
    have stands := (decode_boolean_eq_some law).2 (Eq.refl (Document.boolean flags.usesEval))
    cases form with
    | object admits found =>
      exact .inl ⟨_, rfl, admits, .inl ⟨_, found, stands⟩, trivial⟩
    | array =>
      exact .inr ⟨_, rfl, Fields.ofItems_cons.2 ⟨_, _, rfl, stands, Fields.ofItems_nil.2 rfl⟩⟩

/-! ### Functions in both forms -/

theorem declare_iff_declared {members : List Member} {f : Function} :
    Declare members f ↔ Admits fieldNames members ∧ fields.Declared decode members f.toValue := by
  constructor
  · intro ⟨admits, name, ⟨_, flags, isFlags⟩, ⟨_, params, areParams⟩, ⟨_, locals, areLocals⟩,
      ⟨_, sites, areSites⟩⟩
    refine ⟨admits, ?_, .inl ⟨_, flags, (decode_flags_eq_some law).2 isFlags⟩,
      .inl ⟨_, params, (decode_names_eq_some law).2 areParams⟩,
      .inl ⟨_, locals, (decode_names_eq_some law).2 areLocals⟩,
      .inl ⟨_, sites, (decode_names_eq_some law).2 areSites⟩, trivial⟩
    obtain ⟨absent, missing⟩ | ⟨d, found, isName⟩ := name
    · exact .inr ⟨absent, congrArg some missing.symm⟩
    · exact .inl ⟨d, found, (decode_name_eq_some law).2 isName⟩
  · intro ⟨admits, name, declared⟩
    obtain ⟨⟨_, flags, isFlags⟩, declared⟩ := (Fields.declared_required rfl).1 declared
    obtain ⟨⟨_, params, areParams⟩, declared⟩ := (Fields.declared_required rfl).1 declared
    obtain ⟨⟨_, locals, areLocals⟩, declared⟩ := (Fields.declared_required rfl).1 declared
    obtain ⟨⟨_, sites, areSites⟩, -⟩ := (Fields.declared_required rfl).1 declared
    refine ⟨admits, ?_, ⟨_, flags, (decode_flags_eq_some law).1 isFlags⟩,
      ⟨_, params, (decode_names_eq_some law).1 areParams⟩,
      ⟨_, locals, (decode_names_eq_some law).1 areLocals⟩,
      ⟨_, sites, (decode_names_eq_some law).1 areSites⟩⟩
    obtain ⟨d, found, isName⟩ | ⟨absent, missing⟩ := name
    · exact .inr ⟨d, found, (decode_name_eq_some law).1 isName⟩
    · exact .inl ⟨absent, (Option.some.inj missing).symm⟩

theorem describes_array_iff {items : List Document} {f : Function} :
    Describes (.array items true) f ↔ fields.ofItems decode items = some f.toValue := by
  constructor
  · rintro (_ | ⟨isName, isFlags, areParams, areLocals, areSites⟩)
    refine Fields.ofItems_cons.2 ⟨_, _, rfl, (decode_name_eq_some law).2 isName, ?_⟩
    refine Fields.ofItems_cons.2 ⟨_, _, rfl, (decode_flags_eq_some law).2 isFlags, ?_⟩
    refine Fields.ofItems_cons.2 ⟨_, _, rfl, (decode_names_eq_some law).2 areParams, ?_⟩
    refine Fields.ofItems_cons.2 ⟨_, _, rfl, (decode_names_eq_some law).2 areLocals, ?_⟩
    exact Fields.ofItems_cons.2 ⟨_, _, rfl, (decode_names_eq_some law).2 areSites, rfl⟩
  · intro stands
    obtain ⟨_, _, rfl, isName, stands⟩ := Fields.ofItems_cons.1 stands
    obtain ⟨_, _, rfl, isFlags, stands⟩ := Fields.ofItems_cons.1 stands
    obtain ⟨_, _, rfl, areParams, stands⟩ := Fields.ofItems_cons.1 stands
    obtain ⟨_, _, rfl, areLocals, stands⟩ := Fields.ofItems_cons.1 stands
    obtain ⟨_, _, rfl, areSites, none⟩ := Fields.ofItems_cons.1 stands
    obtain rfl := Fields.ofItems_nil.1 none
    exact .array ((decode_name_eq_some law).1 isName) ((decode_flags_eq_some law).1 isFlags)
      ((decode_names_eq_some law).1 areParams) ((decode_names_eq_some law).1 areLocals)
      ((decode_names_eq_some law).1 areSites)

theorem decode_kind_eq_some {f : Function} :
    decode kind d = some f.toValue ↔ Describes d f := by
  have distinct : fields.names.Nodup := by decide
  refine (decode_record_eq_some law distinct).trans ?_
  constructor
  · rintro (⟨members, rfl, declared⟩ | ⟨items, rfl, stands⟩)
    · exact .object ((declare_iff_declared law).2 declared)
    · exact (describes_array_iff law).2 stands
  · intro describes
    cases describes with
    | object declare => exact .inl ⟨_, rfl, (declare_iff_declared law).1 declare⟩
    | array isName isFlags areParams areLocals areSites =>
      have describes := Describes.array isName isFlags areParams areLocals areSites
      exact .inr ⟨_, rfl, (describes_array_iff law).1 describes⟩

theorem Describes.isWhole {f : Function} (describes : Describes d f) : d.isWhole = true :=
  kind.isWhole_of_decode law ((decode_kind_eq_some law).2 describes)

end

end ShapeVM.Function
