import ShapeVM.Proofs.Json.Record

/-!
# Values read back from their texts

What a format writes for a value spells a document that stands for the value (`Kind.exists_document`).
The rest is a matter of the grammar: the text is a text of that document (`Format.read_write`), and no
beginning of it is a text of any document (`Format.read_ne_ok_of_cut`).
-/
namespace ShapeVM.Json

open StringLiteral Document

variable {E : Type} {format : Format E} {decode : (kind : Kind) → Document → Option kind.Value}

/-! ## What is written spells a document -/

theorem spells_array {css : List (List Char)} {items : List Document}
    (h : List.Forall₂ Spells css (tokens.itemTokens items)) :
    Spells ('[' :: List.intercalate [','] css ++ [']']) (Document.array items true).tokens :=
  ((Spells.symbol (by decide)).append (.intercalate (.symbol (by decide)) h)).append
    (.symbol (by decide))

theorem spells_object {css : List (List Char)} {members : List Member}
    (h : List.Forall₂ Spells css (tokens.memberTokens members)) :
    Spells ('{' :: List.intercalate [','] css ++ ['}']) (Document.object members true).tokens :=
  ((Spells.symbol (by decide)).append (.intercalate (.symbol (by decide)) h)).append
    (.symbol (by decide))

/-- Nothing stands for a value that may not be missing. -/
theorem Decodes.decode_null (law : Decodes decode) {kind : Kind} (always : kind.absent? = none) :
    decode kind .null = none := by
  cases kind with
  | boolean => exact law.boolean _
  | string => exact law.string _
  | optional => cases always
  | sequence kind => exact law.sequence kind _
  | record name fields => exact law.record name fields _

theorem given_eq_nil {members : List Member} {names : List String} {field : String}
    (keys : members.map (text? ·.1) = names.map some) (absent : field ∉ names) :
    given field members = [] := by
  rw [given, List.map_eq_nil_iff, List.filter_eq_nil_iff]
  intro m mem named
  have mem := keys ▸ List.mem_map_of_mem (f := fun m : Member => text? m.1) mem
  rw [of_decide_eq_true named] at mem
  obtain ⟨_, mem, ⟨⟩⟩ := List.mem_map.1 mem
  exact absent mem

theorem admits_of_keys {members : List Member} {names : List String}
    (keys : members.map (text? ·.1) = names.map some) : Admits names members := by
  intro m mem
  have mem := keys ▸ List.mem_map_of_mem (f := fun m : Member => text? m.1) mem
  obtain ⟨name, mem, named⟩ := List.mem_map.1 mem
  exact ⟨name, named.symm, .inl mem⟩

mutual

/-- What is written for a value spells a document that stands for it. -/
theorem Kind.exists_document (writes : format.Writes) (law : Decodes decode) : (kind : Kind) →
    kind.Unambiguous → (value : kind.Value) →
    ∃ d : Document, Spells (format.write kind value).toList d.tokens ∧ decode kind d = some value
  | .boolean, _, b => by
    refine ⟨.boolean b, ?_, law.boolean _⟩
    rw [writes.boolean]
    cases b <;> exact .word (by decide)
  | .string, _, s => by
    obtain ⟨ps, cs, written, form, means⟩ := writes.string s
    exact ⟨.string ps, written ▸ .literal form,
      (law.string _).trans (form.text?_eq_some_iff.2 means)⟩
  | .optional kind, _, none => by
    refine ⟨.null, ?_, law.missing kind⟩
    rw [writes.missing]
    exact .word (by decide)
  | .optional kind, ⟨always, unambiguous⟩, some value => by
    obtain ⟨d, spells, stands⟩ := kind.exists_document writes law unambiguous value
    have notNull : d ≠ .null := by
      rintro rfl
      cases (law.decode_null always).symm.trans stands
    refine ⟨d, ?_, ?_⟩
    · rwa [writes.present]
    · rw [law.present kind notNull, stands]
      rfl
  | .sequence kind, unambiguous, values => by
    have items : ∃ items, List.Forall₂ Spells
        (values.map fun value => (format.write kind value).toList) (tokens.itemTokens items) ∧
        List.Forall₂ (fun d value => decode kind d = some value) items values := by
      induction values with
      | nil => exact ⟨[], .nil, .nil⟩
      | cons value values ih =>
        obtain ⟨d, spells, stands⟩ := kind.exists_document writes law unambiguous value
        obtain ⟨items, spell, stand⟩ := ih
        exact ⟨d :: items, .cons spells spell, .cons stands stand⟩
    obtain ⟨items, spell, stand⟩ := items
    refine ⟨.array items true, ?_, ?_⟩
    · rw [writes.sequence]
      exact spells_array spell
    · rw [law.sequence]
      exact mapM_eq_some.2 stand
  | .record name fields, ⟨distinct, unambiguous⟩, values => by
    obtain ⟨members, spell, keys, declared⟩ :=
      fields.exists_members writes law distinct unambiguous values
    refine ⟨.object members true, ?_, ?_⟩
    · rw [writes.record]
      exact spells_object spell
    · rw [law.record]
      exact (fields.ofMembers_eq_some distinct).2 ⟨admits_of_keys keys, declared⟩

theorem Fields.exists_members (writes : format.Writes) (law : Decodes decode) : (fields : Fields) →
    fields.names.Nodup → fields.Unambiguous → (values : fields.Values) →
    ∃ members : List Member,
      List.Forall₂ Spells (fields.written format values) (tokens.memberTokens members) ∧
      members.map (text? ·.1) = fields.names.map some ∧ fields.Declared decode members values
  | .nil, _, _, _ => ⟨[], .nil, rfl, trivial⟩
  | .cons field kind others, distinct, ⟨first, later⟩, ⟨value, values⟩ => by
    obtain ⟨absent, distinct⟩ := List.nodup_cons.1 distinct
    obtain ⟨d, spells, stands⟩ := kind.exists_document writes law first value
    obtain ⟨ps, cs, written, form, means⟩ := writes.string field
    have named : text? ps = some field := form.text?_eq_some_iff.2 means
    obtain ⟨members, spell, keys, declared⟩ :=
      others.exists_members writes law distinct later values
    have colon : Spells [':'] [.colon] := .symbol (by decide)
    have member := (written ▸ Spells.literal form).append (colon.append spells)
    have own : given field ((ps, d) :: members) = [d] := by
      rw [← List.singleton_append, given_append, given_own named, given_eq_nil keys absent]
      rfl
    exact ⟨(ps, d) :: members, .cons member spell, congrArg₂ List.cons named keys,
      .inl ⟨d, own, stands⟩, others.declared_cons_of_notMem named absent declared⟩

end

/-! ## Formats that write and read -/

namespace Format

variable {kind kind' : Kind} (writes : format.Writes) (reads : format.Reads decode)
  (unambiguous : kind.Unambiguous)
include writes reads unambiguous

theorem read_write (shallow : kind.depth < 128) (value : kind.Value) :
    format.read kind (format.write kind value) = .ok value := by
  obtain ⟨d, spells, stands⟩ := kind.exists_document writes reads.toDecodes unambiguous value
  have whole := kind.isWhole_of_decode reads.toDecodes stands
  exact (reads.read_eq_ok shallow).2 ⟨d, whole,
    hasText_of_scan_eq spells.scan_eq (getLast?_tokens (isEnded_of_isWhole whole)), stands⟩

/-- A text that is cut off is not read, whatever kind of value is asked for. -/
theorem read_ne_ok_of_cut (shallow : kind'.depth < 128) {value : kind.Value} {text : String}
    (starts : text.toList <+: (format.write kind value).toList) (ne : text ≠ format.write kind value)
    (value' : kind'.Value) : format.read kind' text ≠ .ok value' := by
  intro read
  obtain ⟨d, whole, isText, _⟩ := (reads.read_eq_ok shallow).1 read
  obtain ⟨e, spells, stands⟩ := kind.exists_document writes reads.toDecodes unambiguous value
  obtain ⟨us, starts, ne, cut⟩ := spells.scan_cut starts (mt String.toList_inj.1 ne)
  have open' := isEnded_of_cut (kind.isWhole_of_decode reads.toDecodes stands) starts ne cut
  rw [(read_scan_iff whole).2 isText, isEnded_of_isWhole whole] at open'
  cases open'

end Format

end ShapeVM.Json
