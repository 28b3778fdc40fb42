import ShapeVM.Json.Codec
import ShapeVM.Proofs.Json.Record

/-!
# The codec is a format that writes and reads JSON

Which error is met first has no part in which documents are read (`Codec.decode`), so that each reader
is the one of the grammar for the same kind.
-/
namespace ShapeVM.Json

open StringLiteral Document

/-! ## Steps that succeed -/

section

variable {ε α β : Type}

theorem toOption_eq_some {x : Except ε α} {a : α} : x.toOption = some a ↔ x = .ok a := by
  cases x <;> simp [Except.toOption]

theorem toOption_bind (x : Except ε α) (k : α → Except ε β) :
    (x >>= k).toOption = x.toOption >>= fun a => (k a).toOption := by
  cases x <;> rfl

theorem toOption_map (g : α → β) (x : Except ε α) : (g <$> x).toOption = x.toOption.map g := by
  cases x <;> rfl

theorem toOption_mapM (f : α → Except ε β) (as : List α) :
    (as.mapM f).toOption = as.mapM fun a => (f a).toOption := by
  induction as with
  | nil => rfl
  | cons a as ih =>
    rw [List.mapM_cons, List.mapM_cons, toOption_bind]
    congr 1
    funext b
    rw [toOption_bind, ih]
    rfl

theorem toOption_foldlM (f : α → β → Except ε α) (bs : List β) (start : α) :
    (bs.foldlM f start).toOption = bs.foldlM (fun a b => (f a b).toOption) start := by
  induction bs generalizing start with
  | nil => rfl
  | cons b bs ih =>
    rw [List.foldlM_cons, List.foldlM_cons, toOption_bind]
    simp only [ih]

end

namespace Codec

/-! ## Writing -/

theorem writeFields_eq : (fields : Fields) → (values : fields.Values) →
    writeFields fields values = fields.written codec values
  | .nil, _ => rfl
  | .cons field kind others, ⟨value, values⟩ => by
    rw [writeFields, Fields.written, writeFields_eq others values]
    simp [codec, writeMember, write]

theorem writes : codec.Writes where
  boolean b := by cases b <;> rfl
  string s := by
    obtain ⟨cs, written, form⟩ := exists_write s
    refine ⟨pieces s, cs, ?_, form, means_pieces s⟩
    rw [← written]
    exact String.toList_ofList
  missing _ := rfl
  present _ _ := rfl
  sequence kind values := by simp [codec, write, writeArray]
  record name fields values := by simp [codec, write, writeObject, writeFields_eq]

/-! ## Reading -/

/-- What is read from a document, if anything. -/
def decode (kind : Kind) (d : Document) : Option kind.Value := (read kind d).toOption

section

variable {α : Type} {a : α}

theorem toOption_closing (closed : Bool) (a : α) :
    (closing closed a).toOption = if closed then some a else none := by
  cases closed <;> rfl

theorem bind_closing_eq_ok {x : Except ReadError α} {closed : Bool} :
    (x >>= closing closed) = .ok a ↔ x = .ok a ∧ closed = true := by
  cases x <;> cases closed <;> simp [closing, bind, Except.bind]

theorem toOption_once (field : String) (old : Option α) (read : Document → Except ReadError α)
    (d : Document) :
    (once field old (read d)).toOption = setOnce (fun d => (read d).toOption) old d := by
  cases old with
  | none => exact toOption_map some (read d)
  | some _ => rfl

theorem toOption_readKey (key : List Piece) : (readKey key).toOption = text? key := by
  rw [readKey]
  split <;> simp_all [Except.toOption]

end

theorem toOption_readField : (fields : Fields) → (name : String) → (d : Document) →
    (found : fields.Found) →
    (readField fields name d found).toOption = fields.visit decode name d found
  | .nil, _, d, () => toOption_closing d.isWhole ()
  | .cons field kind others, name, d, ⟨old, rest⟩ => by
    rw [readField, Fields.visit]
    split
    · rw [toOption_bind, toOption_once]
      change setOnce (decode kind) old d >>= _ = _
      cases setOnce (decode kind) old d <;> rfl
    · rw [toOption_bind, toOption_readField others]
      cases others.visit decode name d rest <;> rfl

theorem toOption_complete : (fields : Fields) → (found : fields.Found) →
    (complete fields found).toOption = fields.finish found
  | .nil, () => rfl
  | .cons field kind others, ⟨found, rest⟩ => by
    rw [complete, Fields.finish]
    cases found.or kind.absent? with
    | none => rfl
    | some value =>
      rw [← toOption_complete others]
      cases complete others rest <;> rfl

/-- An item that is not there is not read, whether the array is closed or not. -/
theorem toOption_readItems : (fields : Fields) → (record : Expected) → (items : List Document) →
    (closed : Bool) → (i : Nat) → (readItems fields record items closed i).toOption =
      fields.ofItems decode ((items.drop i).take fields.length)
  | .nil, _, _, _, _ => rfl
  | .cons _ kind others, record, items, closed, i => by
    rw [readItems, item]
    by_cases inside : i < items.length
    · rw [List.getElem?_eq_getElem inside, List.drop_eq_getElem_cons inside, Fields.length,
        List.take_succ_cons, Fields.ofItems, ← toOption_readItems others record items closed (i + 1)]
      change (read kind items[i] >>= _).toOption = (read kind items[i]).toOption >>= _
      rw [toOption_bind]
      congr 1
      funext value
      cases readItems others record items closed (i + 1) <;> rfl
    · have beyond := Nat.le_of_not_lt inside
      rw [List.getElem?_eq_none beyond, List.drop_eq_nil_of_le beyond]
      cases closed <;> rfl

theorem length_of_ofItems : (fields : Fields) → {items : List Document} → {values : fields.Values} →
    fields.ofItems decode items = some values → items.length = fields.length
  | .nil, [], _, _ => rfl
  | .cons _ kind others, _ :: items, _, found => by
    simp only [Fields.ofItems, Option.bind_eq_bind, Option.bind_eq_some_iff] at found
    obtain ⟨_, _, _, later, _⟩ := found
    rw [List.length_cons, length_of_ofItems others later, Fields.length]

theorem decode_members (name : String) (fields : Fields) (members : List Member) (closed : Bool) :
    decode (.record name fields) (.object members closed) =
      if closed then fields.ofMembers decode members else none := by
  have step : (fun found (m : Member) => Except.toOption do
      readField fields (← readKey m.1) m.2 found) = fields.visitMember decode := by
    funext found m
    rw [toOption_bind, toOption_readKey, Fields.visitMember]
    simp only [toOption_readField]
  rw [decode, read, toOption_bind, toOption_foldlM, step, Fields.ofMembers]
  cases closed with
  | true =>
    simp only [if_true]
    congr 1
    funext found
    exact toOption_complete fields found
  | false => cases members.foldlM (fields.visitMember decode) fields.nothing <;> rfl

theorem decode_items (name : String) (fields : Fields) (items : List Document) (closed : Bool) :
    decode (.record name fields) (.array items closed) =
      if closed then fields.ofItems decode items else none := by
  rw [decode, read, toOption_bind, toOption_readItems]
  simp only [toOption_closing, Bool.and_eq_true, decide_eq_true_eq]
  cases closed with
  | false => cases fields.ofItems decode _ <;> rfl
  | true =>
    by_cases length : items.length = fields.length
    · rw [List.drop_zero, ← length, List.take_length]
      simp
    · cases found : fields.ofItems decode items with
      | none => cases fields.ofItems decode _ <;> simp [length]
      | some values => exact absurd (length_of_ofItems fields found) length

theorem decodes : Decodes decode where
  boolean d := by cases d <;> rfl
  string d := by
    cases d with
    | string ps => exact toOption_readKey ps
    | _ => rfl
  missing _ := rfl
  present kind d notNull := by
    cases d with
    | null => exact absurd rfl notNull
    | _ => exact toOption_map some (read kind _)
  sequence kind d := by
    cases d with
    | array items closed =>
      rw [decode, read, toOption_bind, toOption_mapM]
      simp only [toOption_closing]
      change items.mapM (decode kind) >>= _ = _
      cases closed with
      | false => cases items.mapM (decode kind) <;> rfl
      | true => exact Option.bind_fun_some _
    | _ => rfl
  record name fields d := by
    cases d with
    | object members closed =>
      rw [decode_members]
      cases closed <;> rfl
    | array items closed =>
      rw [decode_items]
      cases closed <;> rfl
    | _ => rfl

theorem reads : codec.Reads decode where
  toDecodes := decodes
  read_eq_ok {kind text value} _ := by
    have eq : codec.read kind text = read kind (Document.read (Token.scan text.toList)).1 >>=
        closing (Document.read (Token.scan text.toList)).2.isEmpty := rfl
    rw [eq, bind_closing_eq_ok, List.isEmpty_iff]
    constructor
    · rintro ⟨stands, last⟩
      have stands := toOption_eq_some.2 stands
      have whole := kind.isWhole_of_decode decodes stands
      exact ⟨_, whole, (read_scan_iff whole).1 (Prod.ext rfl last), stands⟩
    · rintro ⟨d, whole, isText, stands⟩
      rw [(read_scan_iff whole).2 isText]
      exact ⟨toOption_eq_some.1 stands, rfl⟩

end Codec

end ShapeVM.Json
