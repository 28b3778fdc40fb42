import ShapeVM.Json.Document

/-!
# The grammar of documents

Every whole document has its own row of tokens (`tokens`), and reading is its inverse: it finds a
whole document in these tokens whatever comes after them (`read_tokens`), and a document that it
came to the end of is whole and was spelled by the tokens before the rest (`read_ended`). So no
whole document begins another one (`eq_of_tokens_isPrefix`), and where the tokens of one are cut
off, reading runs out of them (`isEnded_of_cut`).
-/
namespace ShapeVM.Json.Document

/-! ## The tokens of a document -/

/-- The tokens that a document is read from, if it is whole. -/
def tokens : Document → List Token
  | null => [.null]
  | boolean b => [.boolean b]
  | number n => [.number n]
  | string s => [.string s]
  | array items _ =>
    .openBracket :: [Token.comma].intercalate (itemTokens items) ++ [.closeBracket]
  | object members _ =>
    .openBrace :: [Token.comma].intercalate (memberTokens members) ++ [.closeBrace]
  | broken => [.broken]
where
  itemTokens : List Document → List (List Token)
    | [] => []
    | item :: rest => item.tokens :: itemTokens rest
  memberTokens : List (List Piece × Document) → List (List Token)
    | [] => []
    | (key, value) :: rest => (.string key :: .colon :: value.tokens) :: memberTokens rest

/-- Whether the end of a document has been met; what it holds may still be broken. -/
def isEnded : Document → Bool
  | array _ closed | object _ closed => closed
  | broken => false
  | _ => true

open tokens isWhole

theorem wholeItems_iff {items : List Document} :
    wholeItems items = true ↔ ∀ d ∈ items, d.isWhole = true := by
  induction items with
  | nil => simp [wholeItems]
  | cons d others ih => rw [wholeItems, Bool.and_eq_true, ih, List.forall_mem_cons]

theorem wholeMembers_iff {members : List (List Piece × Document)} :
    wholeMembers members = true ↔ ∀ m ∈ members, m.2.isWhole = true := by
  induction members with
  | nil => simp [wholeMembers]
  | cons m others ih => rw [wholeMembers, Bool.and_eq_true, ih, List.forall_mem_cons]

theorem isEnded_of_isWhole {d : Document} (whole : d.isWhole = true) : d.isEnded = true := by
  cases d with
  | array | object =>
    rw [isWhole, Bool.and_eq_true] at whole
    exact whole.1
  | broken => simp [isWhole] at whole
  | _ => rfl

/-! ## Reading without the bounds

`value`, `items` and `members` carry a bound on what they leave, for their termination only. -/

def read (ts : List Token) : Document × List Token :=
  ((value ts).1, (value ts).2.1)

def readItems (ts : List Token) : List Document × Bool × List Token :=
  ((items ts).1, (items ts).2.1, (items ts).2.2.1)

def readMembers (ts : List Token) : List (List Piece × Document) × Bool × List Token :=
  ((members ts).1, (members ts).2.1, (members ts).2.2.1)

section
variable {ts r : List Token} {first : Document}

theorem read_of_value {rest : Rest ts} (h : value ts = (first, rest)) :
    read ts = (first, rest.1) := by
  rw [read, h]

theorem value_eq (h : read ts = (first, r)) : ∃ h, value ts = (first, ⟨r, h⟩) := by
  obtain ⟨rfl, rfl⟩ := Prod.mk.inj h
  exact ⟨_, rfl⟩

@[simp] theorem read_null : read (.null :: r) = (null, r) := by simp [read, value]

@[simp] theorem read_boolean {b : Bool} : read (.boolean b :: r) = (boolean b, r) := by
  simp [read, value]

@[simp] theorem read_number {n : NumberLiteral} : read (.number n :: r) = (number n, r) := by
  simp [read, value]

@[simp] theorem read_string {s : List Piece} : read (.string s :: r) = (string s, r) := by
  simp [read, value]

@[simp] theorem read_emptyArray :
    read (.openBracket :: .closeBracket :: r) = (array [] true, r) := by
  simp [read, value]

@[simp] theorem read_emptyObject :
    read (.openBrace :: .closeBrace :: r) = (object [] true, r) := by
  simp [read, value]

theorem read_openBracket (h : ∀ r', r ≠ .closeBracket :: r') :
    read (.openBracket :: r) = (array (readItems r).1 (readItems r).2.1, (readItems r).2.2) := by
  rw [read, value]
  · rfl
  · exact h

theorem read_openBrace (h : ∀ r', r ≠ .closeBrace :: r') :
    read (.openBrace :: r) =
      (object (readMembers r).1 (readMembers r).2.1, (readMembers r).2.2) := by
  rw [read, value]
  · rfl
  · exact h

theorem readItems_of_comma (h : read ts = (first, .comma :: r)) :
    readItems ts = (first :: (readItems r).1, (readItems r).2) := by
  obtain ⟨_, h⟩ := value_eq h
  rw [readItems, items, h]
  rfl

theorem readItems_of_closeBracket (h : read ts = (first, .closeBracket :: r)) :
    readItems ts = ([first], true, r) := by
  obtain ⟨_, h⟩ := value_eq h
  rw [readItems, items, h]

theorem readMembers_of_comma {key : List Piece} (h : read ts = (first, .comma :: r)) :
    readMembers (.string key :: .colon :: ts) =
      ((key, first) :: (readMembers r).1, (readMembers r).2) := by
  obtain ⟨_, h⟩ := value_eq h
  rw [readMembers, members, h]
  rfl

theorem readMembers_of_closeBrace {key : List Piece} (h : read ts = (first, .closeBrace :: r)) :
    readMembers (.string key :: .colon :: ts) = ([(key, first)], true, r) := by
  obtain ⟨_, h⟩ := value_eq h
  rw [readMembers, members, h]

end

/-! ## Reading the tokens of a whole document -/

theorem intercalate_cons {ts : List Token} {tss : List (List Token)} (ne : tss ≠ []) :
    [Token.comma].intercalate (ts :: tss) = ts ++ .comma :: [Token.comma].intercalate tss := by
  cases tss with
  | nil => exact absurd rfl ne
  | cons ts' tss => simp [List.intercalate_cons_cons]

theorem itemTokens_eq_nil {found : List Document} : itemTokens found = [] ↔ found = [] := by
  cases found <;> simp [itemTokens]

theorem memberTokens_eq_nil {found : List (List Piece × Document)} :
    memberTokens found = [] ↔ found = [] := by
  cases found <;> simp [memberTokens]

theorem intercalate_itemTokens (first second : Document) (others : List Document) :
    [Token.comma].intercalate (itemTokens (first :: second :: others)) =
      first.tokens ++ .comma :: [Token.comma].intercalate (itemTokens (second :: others)) :=
  intercalate_cons (by simp [itemTokens])

theorem intercalate_memberTokens (first second : List Piece × Document)
    (others : List (List Piece × Document)) :
    [Token.comma].intercalate (memberTokens (first :: second :: others)) =
      .string first.1 :: .colon :: first.2.tokens ++
        .comma :: [Token.comma].intercalate (memberTokens (second :: others)) :=
  intercalate_cons (by simp [memberTokens])

theorem itemTokens_open (found : List Document) (nonempty : found ≠ []) (rest r : List Token) :
    [Token.comma].intercalate (itemTokens found) ++ rest ≠ .closeBracket :: r := by
  match found with
  | [first] => cases first <;> simp [itemTokens, tokens]
  | first :: second :: others =>
    rw [intercalate_itemTokens]
    cases first <;> simp [tokens]

theorem memberTokens_open (found : List (List Piece × Document)) (nonempty : found ≠ [])
    (rest r : List Token) :
    [Token.comma].intercalate (memberTokens found) ++ rest ≠ .closeBrace :: r := by
  match found with
  | [(key, first)] => simp [memberTokens]
  | first :: second :: others => simp [intercalate_memberTokens]

mutual

/-- A whole document is read from its tokens, whatever comes after them. -/
theorem read_tokens (d : Document) (whole : d.isWhole) (rest : List Token) :
    read (d.tokens ++ rest) = (d, rest) := by
  cases d with
  | null | boolean b | number n | string s => simp [tokens]
  | array found closed =>
    simp only [isWhole, Bool.and_eq_true] at whole
    obtain ⟨rfl, whole⟩ := whole
    by_cases nonempty : found = []
    · simp [nonempty, tokens, itemTokens]
    · have inside := readItems_tokens found nonempty whole rest
      simp only [tokens, List.cons_append, List.append_assoc, List.nil_append]
      rw [read_openBracket (itemTokens_open found nonempty _), inside]
  | object found closed =>
    simp only [isWhole, Bool.and_eq_true] at whole
    obtain ⟨rfl, whole⟩ := whole
    by_cases nonempty : found = []
    · simp [nonempty, tokens, memberTokens]
    · have inside := readMembers_tokens found nonempty whole rest
      simp only [tokens, List.cons_append, List.append_assoc, List.nil_append]
      rw [read_openBrace (memberTokens_open found nonempty _), inside]
  | broken => simp [isWhole] at whole

theorem readItems_tokens (found : List Document) (nonempty : found ≠ [])
    (whole : wholeItems found) (rest : List Token) :
    readItems ([Token.comma].intercalate (itemTokens found) ++ .closeBracket :: rest) =
      (found, true, rest) := by
  match found with
  | [first] =>
    simp only [wholeItems, Bool.and_eq_true] at whole
    simp only [itemTokens, List.intercalate_singleton]
    exact readItems_of_closeBracket (read_tokens first whole.1 _)
  | first :: second :: others =>
    rw [wholeItems, Bool.and_eq_true] at whole
    have others := readItems_tokens (second :: others) (List.cons_ne_nil _ _) whole.2 rest
    rw [intercalate_itemTokens, List.append_assoc, List.cons_append,
      readItems_of_comma (read_tokens first whole.1 _), others]

theorem readMembers_tokens (found : List (List Piece × Document)) (nonempty : found ≠ [])
    (whole : wholeMembers found) (rest : List Token) :
    readMembers ([Token.comma].intercalate (memberTokens found) ++ .closeBrace :: rest) =
      (found, true, rest) := by
  match found with
  | [(key, first)] =>
    simp only [wholeMembers, Bool.and_eq_true] at whole
    simp only [memberTokens, List.intercalate_singleton]
    exact readMembers_of_closeBrace (read_tokens first whole.1 _)
  | (key, first) :: second :: others =>
    rw [wholeMembers, Bool.and_eq_true] at whole
    have others := readMembers_tokens (second :: others) (List.cons_ne_nil _ _) whole.2 rest
    simp only [intercalate_memberTokens, List.append_assoc, List.cons_append]
    rw [readMembers_of_comma (read_tokens first whole.1 _), others]

end

/-! ## What a document was read from -/

/-- How reading some tokens ends: past the last of the tokens that spell what was read, which is
whole, or where they run out. -/
structure Taken (ts spelled rest : List Token) (whole ended : Bool) : Prop where
  isWhole : ended = true → whole = true
  split : ended = true → ts = spelled ++ rest
  cut : ended = false → rest = []

namespace Taken

variable {ts ts' spelled spelled' rest : List Token} {t : Token} {whole whole' ended ended' : Bool}

theorem of_cut : Taken ts spelled [] whole false where
  isWhole := by simp
  split := by simp
  cut _ := rfl

theorem respell (h : Taken ts spelled rest whole ended) (eq : ended = true → spelled = spelled') :
    Taken ts spelled' rest whole ended where
  isWhole := h.isWhole
  split e := by rw [h.split e, eq e]
  cut := h.cut

theorem cons (t : Token) (h : Taken ts spelled rest whole ended) :
    Taken (t :: ts) (t :: spelled) rest whole ended where
  isWhole := h.isWhole
  split ended := by rw [h.split ended, List.cons_append]
  cut := h.cut

/-- A container is whole if it is closed and what it holds is whole. -/
theorem closed (h : Taken ts spelled rest whole ended) :
    Taken ts spelled rest (ended && whole) ended where
  isWhole ended := by simp [ended, h.isWhole ended]
  split := h.split
  cut := h.cut

/-- What has left a token has ended before it. -/
theorem last (h : Taken ts spelled (t :: rest) whole ended) :
    Taken ts (spelled ++ [t]) rest whole true := by
  cases ended with
  | false => exact absurd (h.cut rfl) (List.cons_ne_nil _ _)
  | true => exact ⟨h.isWhole, fun _ => by simp [h.split rfl], by simp⟩

theorem followed (h : Taken ts spelled (t :: ts') whole ended)
    (h' : Taken ts' spelled' rest whole' ended') :
    Taken ts (spelled ++ t :: spelled') rest (whole && whole') ended' where
  isWhole ended := by simp [h.last.isWhole rfl, h'.isWhole ended]
  split ended := by simp [h.last.split rfl, h'.split ended]
  cut := h'.cut

end Taken

theorem readItems_ne_nil (ts : List Token) : (readItems ts).1 ≠ [] := by
  rw [readItems, items]
  split <;> simp

theorem readMembers_ne_nil {ts : List Token} (ended : (readMembers ts).2.1 = true) :
    (readMembers ts).1 ≠ [] := by
  rw [readMembers, members.eq_def] at ended ⊢
  repeat' split <;> simp_all

/-- By induction on the reading: what is read inside, or before the comma, is taken already. -/
theorem taken_all :
    (∀ ts, Taken ts (read ts).1.tokens (read ts).2 (read ts).1.isWhole (read ts).1.isEnded) ∧
    (∀ ts, Taken ts ([Token.comma].intercalate (memberTokens (readMembers ts).1) ++ [.closeBrace])
      (readMembers ts).2.2 (wholeMembers (readMembers ts).1) (readMembers ts).2.1) ∧
    (∀ ts, Taken ts ([Token.comma].intercalate (itemTokens (readItems ts).1) ++ [.closeBracket])
      (readItems ts).2.2 (wholeItems (readItems ts).1) (readItems ts).2.1) := by
  apply value.mutual_induct
  -- The cases of `value` come first, then those of `members`, then those of `items`.
  case case1 | case2 | case3 | case4 | case5 | case7 =>
    intros
    constructor <;>
      simp [isEnded, tokens, itemTokens, memberTokens, Document.isWhole, wholeItems, wholeMembers]
  case case6 =>
    intro r unclosed _ _ _ _ inside
    rw [read_openBracket unclosed]
    exact inside.closed.cons .openBracket
  case case8 =>
    intro r unclosed _ _ _ _ inside
    rw [read_openBrace unclosed]
    exact inside.closed.cons .openBrace
  case case9 =>
    intro ts _ _ _ _ _ _ _ _
    have broken : read ts = (broken, []) := by
      rw [read, value]
      · rfl
      all_goals assumption
    rw [broken]
    exact .of_cut
  case case10 =>
    intro key ts first r _ eq _ _ _ _ taken others
    have eq := read_of_value eq
    rw [eq] at taken
    rw [readMembers_of_comma eq]
    apply (((taken.followed others).cons .colon).cons (.string key)).respell
    intro ended
    have nonempty := readMembers_ne_nil ended
    rw [memberTokens, intercalate_cons (by simpa [memberTokens_eq_nil])]
    simp
  case case11 =>
    intro key ts first r _ eq taken
    have eq := read_of_value eq
    rw [eq] at taken
    rw [readMembers_of_closeBrace eq]
    simpa [wholeMembers, memberTokens] using (taken.last.cons .colon).cons (.string key)
  case case12 =>
    intro key ts first rest comma close eq _
    have cut : readMembers (.string key :: .colon :: ts) = ([(key, first)], false, []) := by
      rw [readMembers, members, eq]
      split
      case h_1 same => exact (comma _ _ (Prod.mk.inj same).2).elim
      case h_2 same => exact (close _ _ (Prod.mk.inj same).2).elim
      case h_3 same => rw [(Prod.mk.inj same).1, Rest.none]
    rw [cut]
    exact .of_cut
  case case13 =>
    intro key r colon
    have cut : readMembers (.string key :: r) = ([(key, broken)], false, []) := by
      rw [readMembers, members]
      · rfl
      · exact colon
    rw [cut]
    exact .of_cut
  case case14 =>
    intro ts _ _
    have cut : readMembers ts = ([], false, []) := by
      rw [readMembers, members]
      · rfl
      all_goals assumption
    rw [cut]
    exact .of_cut
  case case15 =>
    intro ts first r _ eq _ _ _ _ taken others
    have eq := read_of_value eq
    rw [eq] at taken
    rw [readItems_of_comma eq]
    apply (taken.followed others).respell
    intro _
    have nonempty := readItems_ne_nil r
    rw [itemTokens, intercalate_cons (by simpa [itemTokens_eq_nil])]
    simp
  case case16 =>
    intro ts first r _ eq taken
    have eq := read_of_value eq
    rw [eq] at taken
    rw [readItems_of_closeBracket eq]
    simpa [wholeItems, itemTokens] using taken.last
  case case17 =>
    intro ts first rest comma close eq _
    have cut : readItems ts = ([first], false, []) := by
      rw [readItems, items, eq]
      split
      case h_1 same => exact (comma _ _ (Prod.mk.inj same).2).elim
      case h_2 same => exact (close _ _ (Prod.mk.inj same).2).elim
      case h_3 same => rw [(Prod.mk.inj same).1, Rest.none]
    rw [cut]
    exact .of_cut

/-- A document that reading came to the end of is whole, and spelled by the tokens before the
rest. -/
theorem read_ended {ts : List Token} (ended : (read ts).1.isEnded) :
    (read ts).1.isWhole ∧ ts = (read ts).1.tokens ++ (read ts).2 :=
  have taken := taken_all.1 ts
  ⟨taken.isWhole ended, taken.split ended⟩

/-! ## Documents cut short -/

theorem eq_of_tokens_isPrefix {d e : Document} (whole : d.isWhole) (whole' : e.isWhole)
    (h : d.tokens <+: e.tokens) : d = e := by
  obtain ⟨rest, split⟩ := h
  have same : (d, rest) = (e, []) := by
    rw [← read_tokens d whole, split, ← read_tokens e whole', List.append_nil]
  exact (Prod.mk.inj same).1

theorem getLast?_tokens {d : Document} (ended : d.isEnded) :
    d.tokens.getLast? ≠ some .broken := by
  cases d with
  | null | boolean | number | string => simp [tokens]
  | array | object =>
    rw [tokens, List.getLast?_concat]
    simp
  | broken => simp [isEnded] at ended

/-- Reading does not come to an end where the tokens of a whole document are cut off, also when the
cut went through a token. -/
theorem isEnded_of_cut {e : Document} (whole : e.isWhole) {us ts : List Token}
    (h : us <+: e.tokens) (ne : us ≠ e.tokens) (cut : ts = us ∨ ts = us ++ [.broken]) :
    (read ts).1.isEnded = false := by
  rw [Bool.eq_false_iff]
  intro ended
  obtain ⟨whole', split⟩ := read_ended ended
  have starts : (read ts).1.tokens <+: ts := ⟨_, split.symm⟩
  have early : (read ts).1.tokens <+: us := by
    obtain rfl | rfl := cut
    · exact starts
    · obtain all | starts := List.prefix_concat_iff.1 starts
      · have last := getLast?_tokens ended
        rw [all, List.getLast?_concat] at last
        exact absurd rfl last
      · exact starts
  have same := eq_of_tokens_isPrefix whole' whole (early.trans h)
  rw [same] at early
  exact ne (h.eq_of_length_le early.length_le)

end ShapeVM.Json.Document
