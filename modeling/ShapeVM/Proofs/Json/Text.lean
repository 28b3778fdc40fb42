import ShapeVM.Proofs.Json.Document
import ShapeVM.Proofs.Json.Number
import ShapeVM.Proofs.Json.Token
import Mathlib.Data.List.Chain

/-!
# The texts of tokens

A number and a string literal can be written in more than one way, and blanks can stand before and
after every token (`HasText`). Scanning finds the tokens of each of their texts, as long as what
follows a number is a token that delimits it (`HasText.scan_eq`), and it finds nothing else
(`hasText_scan`). Between the tokens of a document numbers are always delimited
(`delimited_tokens`), so the texts of a whole document are those that it is read from
(`read_scan_iff`).
-/
namespace ShapeVM.Json

open StringLiteral

/-! ## Tokens -/

namespace Token

/-- The forms in which a token is written. -/
inductive HasForm : Token → List Char → Prop where
  | symbol {c : Char} {t : Token} : (c, t) ∈ symbols → HasForm t [c]
  | word {w : List Char} {t : Token} : (w, t) ∈ words → HasForm t w
  | number {n : NumberLiteral} {cs : List Char} : n.HasForm cs → HasForm (.number n) cs
  | string {ps : List Piece} {cs : List Char} : LiteralForm ps cs →
    HasForm (.string ps) ('"' :: cs)

/-- The tokens that stand after a value. -/
def delimits : Token → Bool
  | comma | closeBracket | closeBrace => true
  | _ => false

theorem scan_blank {c : Char} (blank : isBlank c = true) (cs : List Char) :
    scan (c :: cs) = scan cs := by
  have blank' := blank
  simp only [isBlank, Bool.or_eq_true, decide_eq_true_eq, or_assoc] at blank'
  obtain rfl | rfl | rfl | rfl := blank'
  all_goals
    rw [scan]
    · exact if_pos rfl
    all_goals simp

theorem scan_number {cs rest : List Char} {n : NumberLiteral}
    (read : NumberLiteral.read? cs = some (n, rest)) : scan cs = .number n :: scan rest := by
  obtain ⟨pre, rfl, form⟩ := NumberLiteral.exists_form read
  obtain ⟨c, tail, rfl, start⟩ := form.head
  have other (d : Char) (h : ¬ (d = '-' ∨ NumberLiteral.isDigit d = true)) : c ≠ d := by
    rintro rfl
    exact h start
  rw [List.cons_append] at read ⊢
  have blank : isBlank c = false := by
    simp [isBlank, other ' ' (by decide), other '\t' (by decide), other '\n' (by decide),
      other '\r' (by decide)]
  rw [scan]
  · rw [if_neg (by simp [blank])]
    split
    case h_1 found =>
      obtain ⟨rfl, rfl⟩ := Prod.mk.inj (Option.some.inj (found.symm.trans read))
      rfl
    case h_2 none => simp [none] at read
  case x_6 | x_7 | x_8 => exact fun _ letter => absurd letter (other _ (by decide))
  all_goals exact other _ (by decide)

end Token

/-- The texts of some tokens: the forms of the tokens one after another, with blanks before, between
and after them. -/
inductive HasText : List Token → List Char → Prop where
  | nil : HasText [] []
  | blank {c : Char} {ts : List Token} {cs : List Char} : Token.isBlank c = true → HasText ts cs →
    HasText ts (c :: cs)
  | token {t : Token} {ts : List Token} {cs ds : List Char} : t.HasForm cs → HasText ts ds →
    HasText (t :: ts) (cs ++ ds)

/-- What follows a number is a token that ends it. -/
def Delimited (ts : List Token) : Prop :=
  ts.IsChain fun t u => (∃ n, t = .number n) → u.delimits = true

section
variable {ts : List Token} {cs : List Char}

theorem Delimited.cons (h : Delimited ts) (t : Token) (other : ∀ n, t ≠ .number n) :
    Delimited (t :: ts) :=
  List.isChain_cons.2 ⟨fun _ _ ⟨n, number⟩ => absurd number (other n), h⟩

theorem HasText.ends (text : HasText ts cs)
    (delimits : ∀ t ∈ ts.head?, t.delimits = true) : NumberLiteral.Ends cs := by
  have symbols : ∀ p ∈ Token.symbols, p.2.delimits = true →
      NumberLiteral.isDigit p.1 = false ∧ p.1 ≠ '.' ∧ p.1 ≠ 'e' ∧ p.1 ≠ 'E' := by
    decide
  have words : ∀ p ∈ Token.words, p.2.delimits = false := by
    decide
  intro c mem
  cases text with
  | nil => simp at mem
  | blank blank =>
    obtain rfl := Option.some.inj mem
    simp only [Token.isBlank, Bool.or_eq_true, decide_eq_true_eq, or_assoc] at blank
    obtain rfl | rfl | rfl | rfl := blank <;> decide
  | token form =>
    have delimits := delimits _ rfl
    cases form with
    | symbol symbol =>
      obtain rfl := Option.some.inj mem
      exact symbols _ symbol delimits
    | word word => simp [words _ word] at delimits
    | number | string => simp [Token.delimits] at delimits

/-! ## Texts are scanned as their tokens -/

theorem HasText.scan_eq (text : HasText ts cs) (h : Delimited ts) : Token.scan cs = ts := by
  induction text with
  | nil => rw [Token.scan]
  | blank blank _ ih => rw [Token.scan_blank blank, ih h]
  | @token t ts cs ds form text ih =>
    obtain ⟨next, h⟩ := List.isChain_cons.1 h
    have ih := ih h
    cases form with
    | symbol symbol => exact (Token.scan_symbol symbol ds).trans (by rw [ih])
    | word word => rw [Token.scan_word word, ih]
    | number form =>
      have ends := text.ends fun t mem => next t mem ⟨_, rfl⟩
      rw [Token.scan_number (form.read_append ends), ih]
    | string form => rw [List.cons_append, Token.scan_of_literal form.read?_append, ih]

/-- By induction on the scanning, which gives each token the form that it was found in. -/
theorem hasText_scan (cs : List Char) (unbroken : (Token.scan cs).getLast? ≠ some .broken) :
    HasText (Token.scan cs) cs := by
  have later {t : Token} {ts : List Token} (h : (t :: ts).getLast? ≠ some .broken) :
      ts.getLast? ≠ some .broken := by
    intro last
    simp [List.getLast?_cons, last] at h
  fun_induction Token.scan cs with
  | case1 => exact .nil
  | case2 _ ih | case3 _ ih | case4 _ ih | case5 _ ih | case6 _ ih | case7 _ ih =>
    exact .token (.symbol (by decide)) (ih (later unbroken))
  | case8 _ ih =>
    have word : (['n', 'u', 'l', 'l'], .null) ∈ Token.words := by decide
    exact .token (.word word) (ih (later unbroken))
  | case9 _ ih =>
    have word : (['t', 'r', 'u', 'e'], .boolean true) ∈ Token.words := by decide
    exact .token (.word word) (ih (later unbroken))
  | case10 _ ih =>
    have word : (['f', 'a', 'l', 's', 'e'], .boolean false) ∈ Token.words := by decide
    exact .token (.word word) (ih (later unbroken))
  | case11 _ _ _ read _ ih =>
    obtain ⟨pre, rfl, form⟩ := exists_literalForm read
    exact .token (.string form) (ih (later unbroken))
  | case13 _ _ _ _ _ _ _ _ _ _ _ _ blank ih => exact .blank blank (ih unbroken)
  | case14 _ _ _ _ _ _ _ _ _ _ _ _ _ _ _ read _ ih =>
    obtain ⟨pre, eq, form⟩ := NumberLiteral.exists_form read
    rw [eq]
    exact .token (.number form) (ih (later unbroken))
  | case12 | case15 => simp at unbroken

theorem hasText_of_scan_eq (scan : Token.scan cs = ts) (unbroken : ts.getLast? ≠ some .broken) :
    HasText ts cs :=
  scan ▸ hasText_scan cs (scan ▸ unbroken)

end

namespace Document

open tokens

mutual

/-- The tokens of a document delimit the numbers among them if what comes next delimits. -/
theorem delimited_append (d : Document) (t : Token) {ts : List Token} (delimits : t.delimits = true)
    (h : Delimited (t :: ts)) : Delimited (d.tokens ++ t :: ts) := by
  cases d with
  | null | boolean | string | broken => exact h.cons _ (by simp)
  | number n => exact List.isChain_cons_cons.2 ⟨fun _ => delimits, h⟩
  | array items closed =>
    have inside := delimited_items items .closeBracket rfl (h.cons .closeBracket (by simp))
    simpa [tokens] using inside.cons .openBracket (by simp)
  | object members closed =>
    have inside := delimited_members members .closeBrace rfl (h.cons .closeBrace (by simp))
    simpa [tokens] using inside.cons .openBrace (by simp)

theorem delimited_items (items : List Document) (t : Token) {ts : List Token}
    (delimits : t.delimits = true) (h : Delimited (t :: ts)) :
    Delimited ([Token.comma].intercalate (itemTokens items) ++ t :: ts) := by
  match items with
  | [] => simpa [itemTokens] using h
  | [first] => simpa [itemTokens] using delimited_append first t delimits h
  | first :: second :: others =>
    have others := delimited_items (second :: others) t delimits h
    rw [intercalate_itemTokens, List.append_assoc]
    exact delimited_append first .comma rfl (others.cons .comma (by simp))

theorem delimited_members (members : List (List Piece × Document)) (t : Token) {ts : List Token}
    (delimits : t.delimits = true) (h : Delimited (t :: ts)) :
    Delimited ([Token.comma].intercalate (memberTokens members) ++ t :: ts) := by
  match members with
  | [] => simpa [memberTokens] using h
  | [(key, first)] =>
    have value := (delimited_append first t delimits h).cons .colon (by simp)
    simpa [memberTokens] using value.cons (.string key) (by simp)
  | (key, first) :: second :: others =>
    have others := delimited_members (second :: others) t delimits h
    have value := delimited_append first .comma rfl (others.cons .comma (by simp))
    simpa [intercalate_memberTokens] using
      (value.cons .colon (by simp)).cons (.string key) (by simp)

end

/-- What comes after a document, if anything, does not matter for the tokens of the document. -/
theorem delimited_tokens (d : Document) : Delimited d.tokens := by
  have before : Delimited (d.tokens ++ [.comma]) := delimited_append d .comma rfl (.singleton _)
  exact before.left_of_append

/-- The texts that are read as a whole document and leave nothing over. -/
theorem read_scan_iff {d : Document} {cs : List Char} (whole : d.isWhole = true) :
    read (Token.scan cs) = (d, []) ↔ HasText d.tokens cs := by
  have ended := isEnded_of_isWhole whole
  constructor
  · intro eq
    have split := (@read_ended (Token.scan cs) (by rwa [eq])).2
    rw [eq, List.append_nil] at split
    exact hasText_of_scan_eq split (getLast?_tokens ended)
  · intro text
    have read := read_tokens d whole []
    rwa [List.append_nil, ← text.scan_eq (delimited_tokens d)] at read

end Document

end ShapeVM.Json
