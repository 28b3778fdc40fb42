import ShapeVM.Proofs.Function.Json
import ShapeVM.Proofs.Function.Reading

/-!
# Functions told by the members of a text

Which function a text is read as depends on the members that a function declares, and not on their
order, on other members, on blanks or on the way in which a number or a string is written: a text is
accepted if it is a text of a document that describes the function, and otherwise refused
(`ofJson_eq_ok`). A text stands for one document at most, so an object that gives a field twice, or
leaves out one that it has to give, has no text that is accepted (`IsObjectText.declare`).
-/
namespace ShapeVM.Function

open Json Document StringLiteral

/-! ## Texts of functions -/

variable {E : Type} {format : Format E} {decode : (kind : Kind) → Document → Option kind.Value}

theorem ofJson_eq_ok (reads : format.Reads decode) {text : String} {f : Function} :
    ofJson format text = .ok f ↔ ∃ d, Describes d f ∧ HasText d.tokens text.toList := by
  rw [ofJson_eq_ok_iff_read, reads.read_eq_ok depth_kind]
  simp only [decode_kind_eq_some reads.toDecodes]
  constructor
  · rintro ⟨d, -, hasText, describes⟩
    exact ⟨d, describes, hasText⟩
  · rintro ⟨d, describes, hasText⟩
    exact ⟨d, describes.isWhole reads.toDecodes, hasText, describes⟩

theorem Declare.length_given {members : List Member} {f : Function} (h : Declare members f)
    {field : String} (declared : field ∈ fieldNames) :
    (given field members).length = 1 ∨ field = "name" ∧ given field members = [] := by
  have once {field : String} {P : Document → Prop}
      (found : ∃ d, given field members = [d] ∧ P d) : (given field members).length = 1 := by
    obtain ⟨d, found, -⟩ := found
    rw [found, List.length_singleton]
  simp only [fieldNames, List.mem_cons, List.not_mem_nil, or_false] at declared
  obtain rfl | rfl | rfl | rfl | rfl := declared
  · obtain ⟨absent, -⟩ | found := h.name
    · exact .inr ⟨rfl, absent⟩
    · exact .inl (once found)
  · exact .inl (once h.flags)
  · exact .inl (once h.paramNames)
  · exact .inl (once h.localNames)
  · exact .inl (once h.propertySites)

/-- Which members declare a function depends on the values for its fields alone. -/
theorem Declare.congr {members members' : List Member} {f : Function} (h : Declare members f)
    (admits : Admits fieldNames members')
    (same : ∀ field ∈ fieldNames, (given field members').Perm (given field members)) :
    Declare members' f := by
  simp only [fieldNames, List.forall_mem_cons] at same
  obtain ⟨name, flags, paramNames, localNames, propertySites, -⟩ := same
  have kept {field : String} {P : Document → Prop}
      (perm : (given field members').Perm (given field members))
      (found : ∃ d, given field members = [d] ∧ P d) : ∃ d, given field members' = [d] ∧ P d := by
    obtain ⟨d, found, value⟩ := found
    exact ⟨d, List.perm_singleton.1 (found ▸ perm), value⟩
  refine ⟨admits, ?_, kept flags h.flags, kept paramNames h.paramNames,
    kept localNames h.localNames, kept propertySites h.propertySites⟩
  obtain ⟨absent, none⟩ | found := h.name
  · exact .inl ⟨List.perm_nil.1 (absent ▸ name), none⟩
  · exact .inr (kept name found)

/-- A text of the object that has the members. -/
structure IsObjectText (text : String) (members : List Member) : Prop where
  whole : (Document.object members true).isWhole = true
  hasText : HasText (Document.object members true).tokens text.toList

/-- A text of an object is accepted only as what the members of the object declare. -/
theorem IsObjectText.declare (reads : format.Reads decode) {text : String} {f : Function}
    {members : List Member} (h : IsObjectText text members) (read : ofJson format text = .ok f) :
    Declare members f := by
  obtain ⟨d, describes, hasText⟩ := (ofJson_eq_ok reads).1 read
  have whole := describes.isWhole reads.toDecodes
  have same : (d, ([] : List Token)) = (.object members true, []) := by
    rw [← (read_scan_iff whole).2 hasText, (read_scan_iff h.whole).2 h.hasText]
  obtain ⟨rfl, -⟩ := Prod.mk.inj same
  cases describes with
  | object declare => exact declare

/-- What a JSON form has to be for a function to depend on its declared members only. What a key or
a string stands for is told by `LiteralForm.text?_eq_some_iff`. -/
structure DecidedByMembers (read : String → Except E Function) : Prop where
  accepted {text : String} {f : Function} :
    read text = .ok f ↔ ∃ d, Describes d f ∧ HasText d.tokens text.toList
  repeated {text : String} {members : List Member} {field : String} :
    IsObjectText text members → field ∈ fieldNames → 2 ≤ (given field members).length →
    ∃ e, read text = .error e
  missing {text : String} {members : List Member} {field : String} :
    IsObjectText text members → field ∈ fieldNames → field ≠ "name" → given field members = [] →
    ∃ e, read text = .error e
  /-- Objects with the same values for the fields, in any order and among any other members, are
  read as the same function. -/
  determined {text text' : String} {members members' : List Member} {f : Function} :
    IsObjectText text members → IsObjectText text' members' →
    (∀ m ∈ members', (text? m.1).isSome = true) →
    (∀ field ∈ fieldNames, (given field members').Perm (given field members)) →
    read text = .ok f → read text' = .ok f

theorem json_is_decided_by_members (reads : format.Reads decode) :
    DecidedByMembers (ofJson format) where
  accepted := ofJson_eq_ok reads
  repeated {text members field} isText declared twice := by
    cases read : ofJson format text with
    | error e => exact ⟨e, rfl⟩
    | ok f =>
      obtain single | ⟨-, absent⟩ := (isText.declare reads read).length_given declared
      · omega
      · simp [absent] at twice
  missing {text members field} isText declared ne absent := by
    cases read : ofJson format text with
    | error e => exact ⟨e, rfl⟩
    | ok f =>
      obtain single | ⟨eq, -⟩ := (isText.declare reads read).length_given declared
      · simp [absent] at single
      · exact absurd eq ne
  determined {text text' members members' f} isText isText' keys same read := by
    have whole := isText'.whole
    rw [isWhole, Bool.true_and, wholeMembers_iff] at whole
    have admits : Admits fieldNames members' := by
      intro m mem
      obtain ⟨name, named⟩ := Option.isSome_iff_exists.1 (keys m mem)
      exact ⟨name, named, .inr (whole m mem)⟩
    have declare := (isText.declare reads read).congr admits same
    exact (ofJson_eq_ok reads).2 ⟨_, .object declare, isText'.hasText⟩

/-- The members of a function without a name, in another order and after a member that names a
field within it. -/
def shuffled : List Member := [
  (pieces "x", .object [(pieces "flags", .array [.number ⟨true, [0], [5], some (false, [3])⟩, .null,
    .string [.code 0xd800]] true)] true),
  (pieces "property_sites", .array [.string [.code 0x61, .char '\n']] true),
  (pieces "local_names", .array [] true),
  (.code 0x66 :: pieces "lags",
    .object [(pieces "z", .array [] true), (pieces "uses_eval", .boolean true)] true),
  (pieces "param_names", .array [.string [.code 0xd83d, .code 0xde00]] true)]

theorem declare_shuffled : Declare shuffled
    { flags := ⟨true⟩, paramNames := ["😀"], propertySites := ["a\n"] } where
  admits := by
    simp only [Admits, shuffled, List.forall_mem_cons]
    exact ⟨⟨_, rfl, .inr rfl⟩, ⟨_, rfl, .inr rfl⟩, ⟨_, rfl, .inr rfl⟩, ⟨_, rfl, .inr rfl⟩,
      ⟨_, rfl, .inr rfl⟩, by simp⟩
  name := .inl ⟨rfl, rfl⟩
  flags := by
    refine ⟨_, rfl, .object ?_ rfl⟩
    simp only [Admits, List.forall_mem_cons]
    exact ⟨⟨_, rfl, .inr rfl⟩, ⟨_, rfl, .inr rfl⟩, by simp⟩
  paramNames := ⟨_, rfl, _, rfl, .cons ⟨_, rfl, rfl⟩ .nil⟩
  localNames := ⟨_, rfl, _, rfl, .nil⟩
  propertySites := ⟨_, rfl, _, rfl, .cons ⟨_, rfl, rfl⟩ .nil⟩

theorem json_is_decided_by_members_of_shuffled :
    codec.Reads Codec.decode ∧
    ofJson codec ("\t\x7b \"x\" : \x7b\"flags\":[-0.5E+3,null,\"\\ud800\"]\x7d,\n" ++
        "\"property_sites\":[\"\\u0061\\n\"],\"local_names\":[ ],\r\n\"\\u0066lags\":" ++
        "\x7b\"z\":[],\"uses_eval\":true\x7d,\"param_names\":[\"\\ud83d\\ude00\"]\x7d ") =
      .ok { flags := ⟨true⟩, paramNames := ["😀"], propertySites := ["a\n"] } ∧
    ofJson codec "[\"f\", [false], [], [\"x\"], []]" = .ok { name := some "f", localNames := ["x"] } ∧
    (∃ e, ofJson codec "\x7b\"name\":null,\"n\\u0061me\":null\x7d" = .error e) ∧
    ∃ e, ofJson codec "\x7b\"name\":null\x7d" = .error e := by
  have decided := json_is_decided_by_members Codec.reads
  refine ⟨Codec.reads, ?_, ?_, ?_, ?_⟩
  · refine decided.accepted.2 ⟨_, .object declare_shuffled, ?_⟩
    exact hasText_of_scan_eq (by decide +kernel) (by decide +kernel)
  · refine decided.accepted.2 ⟨.array [.string (pieces "f"),
      .array [.boolean false] true, .array [] true, .array [.string (pieces "x")] true,
      .array [] true] true, ?_, hasText_of_scan_eq (by decide +kernel) (by decide +kernel)⟩
    exact .array ⟨_, rfl, rfl⟩ .array ⟨_, rfl, .nil⟩ ⟨_, rfl, .cons ⟨_, rfl, rfl⟩ .nil⟩
      ⟨_, rfl, .nil⟩
  · have isText : IsObjectText "\x7b\"name\":null,\"n\\u0061me\":null\x7d"
        [(pieces "name", .null), (.char 'n' :: .code 0x61 :: pieces "me", .null)] :=
      ⟨rfl, hasText_of_scan_eq (by decide +kernel) (by decide +kernel)⟩
    have declared : "name" ∈ fieldNames := by decide
    exact decided.repeated isText declared (by decide +kernel)
  · have isText : IsObjectText "\x7b\"name\":null\x7d" [(pieces "name", .null)] :=
      ⟨rfl, hasText_of_scan_eq (by decide +kernel) (by decide +kernel)⟩
    have declared : "flags" ∈ fieldNames := by decide
    exact decided.missing isText declared (by decide) rfl

end ShapeVM.Function
