import ShapeVM.Json.Token
import ShapeVM.Proofs.Json.StringLiteral
import Mathlib.Data.List.Forall2

/-!
# Texts that spell tokens

A text spells some tokens if it is scanned as these whatever comes after it, and as fewer of them
where it is cut off, with a broken one after them if the cut goes through a token (`Spells`). The
symbols, the words and the string literals spell one token each, and texts one after another spell
the tokens one after another (`Spells.append`), so what a writer puts together from such parts is
scanned as the tokens of the parts.
-/
namespace ShapeVM.Json

open StringLiteral

/-! ## Scanning one token -/

namespace Token

def symbols : List (Char × Token) :=
  [('{', openBrace), ('}', closeBrace), ('[', openBracket), (']', closeBracket), (':', colon),
    (',', comma)]

def words : List (List Char × Token) :=
  [(['n', 'u', 'l', 'l'], null), (['t', 'r', 'u', 'e'], boolean true),
    (['f', 'a', 'l', 's', 'e'], boolean false)]

theorem scan_symbol {c : Char} {t : Token} (symbol : (c, t) ∈ symbols) (rest : List Char) :
    scan (c :: rest) = t :: scan rest := by
  simp only [symbols, List.mem_cons, Prod.mk.injEq, List.not_mem_nil, or_false] at symbol
  obtain ⟨rfl, rfl⟩ | ⟨rfl, rfl⟩ | ⟨rfl, rfl⟩ | ⟨rfl, rfl⟩ | ⟨rfl, rfl⟩ | ⟨rfl, rfl⟩ := symbol
  all_goals rw [scan]

theorem scan_word {w : List Char} {t : Token} (word : (w, t) ∈ words) (rest : List Char) :
    scan (w ++ rest) = t :: scan rest := by
  simp only [words, List.mem_cons, Prod.mk.injEq, List.not_mem_nil, or_false] at word
  obtain ⟨rfl, rfl⟩ | ⟨rfl, rfl⟩ | ⟨rfl, rfl⟩ := word
  all_goals simp only [List.cons_append, List.nil_append]; rw [scan]

/-- No word begins another one. -/
theorem eq_of_word_isPrefix : ∀ w ∈ words, ∀ w' ∈ words, w'.1 <+: w.1 → w' = w := by
  decide

theorem scan_of_no_word {c : Char} {cs : List Char} (letter : c = 'n' ∨ c = 't' ∨ c = 'f')
    (no_word : ∀ w ∈ words, ∀ rest, w.1 ++ rest ≠ c :: cs) : scan (c :: cs) = [.broken] := by
  have blank : isBlank c = false := by
    obtain rfl | rfl | rfl := letter <;> rfl
  have number : NumberLiteral.read? (c :: cs) = none := by
    obtain rfl | rfl | rfl := letter <;> rfl
  simp only [words, List.forall_mem_cons, List.cons_append, List.nil_append] at no_word
  rw [scan.eq_def]
  split <;> grind

theorem scan_of_cut_word {w : List Char} {t : Token} (word : (w, t) ∈ words) {c : Char}
    {cs : List Char} (starts : c :: cs <+: w) (ne : c :: cs ≠ w) : scan (c :: cs) = [.broken] := by
  apply scan_of_no_word
  · simp only [words, List.mem_cons, Prod.mk.injEq, List.not_mem_nil, or_false] at word
    obtain ⟨rfl, -⟩ | ⟨rfl, -⟩ | ⟨rfl, -⟩ := word <;> simp [(List.cons_prefix_cons.1 starts).1]
  · intro w' word' rest eq
    have starts' : w'.1 <+: c :: cs := ⟨rest, eq⟩
    obtain rfl := eq_of_word_isPrefix _ word _ word' (starts'.trans starts)
    exact ne (starts.eq_of_length_le starts'.length_le)

theorem scan_of_literal {cs rest : List Char} {ps : List Piece} (h : read? cs = some (ps, rest)) :
    scan ('"' :: cs) = .string ps :: scan rest := by
  rw [scan]
  split <;> simp_all

theorem scan_of_no_literal {cs : List Char} (h : read? cs = none) :
    scan ('"' :: cs) = [.broken] := by
  rw [scan]
  split <;> simp_all

end Token

/-! ## Spelling -/

structure Spells (cs : List Char) (ts : List Token) : Prop where
  scan_append (rest : List Char) : Token.scan (cs ++ rest) = ts ++ Token.scan rest
  scan_cut {cut : List Char} (starts : cut <+: cs) (ne : cut ≠ cs) :
    ∃ us, us <+: ts ∧ us ≠ ts ∧ (Token.scan cut = us ∨ Token.scan cut = us ++ [.broken])

namespace Spells

variable {cs ds : List Char} {ts us : List Token}

theorem scan_eq (h : Spells cs ts) : Token.scan cs = ts := by
  have all := h.scan_append []
  rwa [Token.scan, List.append_nil, List.append_nil] at all

/-! ### One token -/

/-- A text of one token is cut off before the token or within it. -/
theorem token {t : Token} (scan : ∀ rest, Token.scan (cs ++ rest) = t :: Token.scan rest)
    (cut : ∀ {c ds}, c :: ds <+: cs → c :: ds ≠ cs → Token.scan (c :: ds) = [.broken]) :
    Spells cs [t] where
  scan_append := scan
  scan_cut {ds} starts ne := by
    refine ⟨[], List.nil_prefix, by simp, ?_⟩
    match ds with
    | [] => exact .inl (by rw [Token.scan])
    | c :: ds => exact .inr (cut starts ne)

theorem symbol {c : Char} {t : Token} (symbol : (c, t) ∈ Token.symbols) : Spells [c] [t] :=
  token (Token.scan_symbol symbol) fun starts ne =>
    absurd (by simpa [List.cons_prefix_cons] using starts) ne

theorem word {t : Token} (word : (cs, t) ∈ Token.words) : Spells cs [t] :=
  token (Token.scan_word word) (Token.scan_of_cut_word word)

theorem literal {ps : List Piece} (form : LiteralForm ps cs) : Spells ('"' :: cs) [.string ps] := by
  apply token
  · intro rest
    rw [List.cons_append, Token.scan_of_literal form.read?_append]
  · intro c cut starts ne
    obtain ⟨rfl, within⟩ := List.cons_prefix_cons.1 starts
    exact Token.scan_of_no_literal (form.read?_of_isPrefix within (by simpa using ne))

/-! ### Tokens one after another -/

theorem nil : Spells [] [] where
  scan_append _ := rfl
  scan_cut starts ne := absurd (List.prefix_nil.1 starts) ne

theorem append (h : Spells cs ts) (h' : Spells ds us) : Spells (cs ++ ds) (ts ++ us) where
  scan_append rest := by rw [List.append_assoc, h.scan_append, h'.scan_append, List.append_assoc]
  scan_cut {cut} starts ne := by
    obtain ⟨within, ne⟩ | ⟨cut', rfl, later⟩ := isPrefix_append_cases starts
    · obtain ⟨us', starts', ne', scan⟩ := h.scan_cut within ne
      refine ⟨us', starts'.trans (List.prefix_append _ _), ?_, scan⟩
      rintro rfl
      exact ne' (starts'.eq_of_length_le (by simp))
    · obtain ⟨us', starts', ne', scan⟩ := h'.scan_cut later (by simpa using ne)
      refine ⟨ts ++ us', (List.prefix_append_right_inj _).2 starts', by simpa using ne', ?_⟩
      rw [h.scan_append, List.append_assoc, List.append_cancel_left_eq, List.append_cancel_left_eq]
      exact scan

theorem intercalate {css : List (List Char)} {tss : List (List Token)} (sep : Spells cs ts)
    (h : List.Forall₂ Spells css tss) : Spells (cs.intercalate css) (ts.intercalate tss) := by
  induction h with
  | nil => exact nil
  | cons first others ih =>
    cases others with
    | nil => simpa using first
    | cons second others =>
      rw [List.intercalate_cons_cons, List.intercalate_cons_cons]
      exact (first.append sep).append ih

end Spells

end ShapeVM.Json
