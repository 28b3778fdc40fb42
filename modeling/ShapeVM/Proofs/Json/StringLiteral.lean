import ShapeVM.Json.StringLiteral

/-!
# String literals read back

A literal is made of forms, each of which is read back as one piece (`PieceForm.read?_append`). So
reading accepts all literals and no others (`LiteralForm.read?_append`, `exists_literalForm`), whatever
comes after them, and a literal that is cut off before its closing quote is none
(`LiteralForm.read?_of_isPrefix`). What a literal stands for is told by the 16-bit codes of its
characters (`Means`, `LiteralForm.text?_eq_some_iff`).

Writing gives each character one of three forms (`Escaped`), so that a text is written as a literal
(`exists_write`) that stands for it (`means_pieces`).
-/
namespace ShapeVM.Json

/-- A text that is cut off is cut off within its first part or past it. -/
theorem isPrefix_append_cases {cut cs ds : List Char} (starts : cut <+: cs ++ ds) :
    cut <+: cs ∧ cut ≠ cs ∨ ∃ cut', cut = cs ++ cut' ∧ cut' <+: ds := by
  by_cases past : cs <+: cut
  · obtain ⟨cut', rfl⟩ := past
    exact .inr ⟨cut', rfl, (List.prefix_append_right_inj _).1 starts⟩
  · have within := List.prefix_or_prefix_of_prefix starts (List.prefix_append _ _)
    exact .inl ⟨within.resolve_right past, fun eq => past (eq ▸ List.prefix_rfl)⟩

namespace StringLiteral

/-! ## Pieces -/

/-- The forms in which a piece is written. -/
inductive PieceForm : Piece → List Char → Prop where
  | plain {c : Char} : c ≠ '"' → c ≠ '\\' → ¬ c.toNat < 0x20 → PieceForm (.char c) [c]
  | short {e c : Char} : shortEscape? e = some c → PieceForm (.char c) ['\\', e]
  | long {a b c d : Char} {n : Nat} : code? a b c d = some n →
    PieceForm (.code n) ['\\', 'u', a, b, c, d]

theorem PieceForm.read?_append {p : Piece} {cs : List Char} (form : PieceForm p cs)
    (rest : List Char) :
    read? (cs ++ rest) = (read? rest).map fun (ps, r) => (p :: ps, r) := by
  cases form with
  | @plain c quote backslash control =>
    simp only [List.cons_append, List.nil_append]
    rw [read?]
    · rw [if_neg (by simp [control, backslash])]
      cases read? rest <;> rfl
    all_goals grind
  | @short e c named =>
    have notLong : e ≠ 'u' := by
      rintro rfl
      simp [shortEscape?] at named
    simp only [List.cons_append, List.nil_append]
    rw [read?, named]
    · cases read? rest <;> rfl
    · grind
  | long named =>
    simp only [List.cons_append, List.nil_append]
    rw [read?, named]
    cases read? rest <;> rfl

theorem read?_of_length_lt {ds : List Char} (short : ds.length < 4) :
    read? ('\\' :: 'u' :: ds) = none := by
  rw [read?.eq_def]
  grind [shortEscape?]

/-- Each proper beginning of a form is empty, a backslash, or a long escape short of its digits. -/
theorem PieceForm.read?_of_isPrefix {p : Piece} {cs cut : List Char} (form : PieceForm p cs)
    (starts : cut <+: cs) (ne : cut ≠ cs) : read? cut = none := by
  have shorter : cut.length < cs.length :=
    Nat.lt_of_le_of_ne starts.length_le (mt starts.eq_of_length ne)
  match form, cut with
  | _, [] => simp [read?]
  | .plain .., _ :: _ => grind
  | .short .., [_] | .long .., [_] =>
    obtain ⟨rfl, -⟩ := List.cons_prefix_cons.1 starts
    simp [read?]
  | .short .., _ :: _ :: _ => grind
  | .long .., _ :: _ :: ds =>
    obtain ⟨rfl, rest⟩ := List.cons_prefix_cons.1 starts
    obtain ⟨rfl, -⟩ := List.cons_prefix_cons.1 rest
    exact read?_of_length_lt (by simp at shorter; omega)

/-! ## The meaning of pieces -/

/-- What the pieces of a literal stand for. A long escape has the code of a character, and two of
them have the codes that a character past the 16-bit range is split into. -/
inductive Means : List Piece → List Char → Prop where
  | nil : Means [] []
  | char {c : Char} {ps : List Piece} {cs : List Char} : Means ps cs →
    Means (.char c :: ps) (c :: cs)
  | code {c : Char} {ps : List Piece} {cs : List Char} : c.toNat < 0x10000 → Means ps cs →
    Means (.code c.toNat :: ps) (c :: cs)
  | pair {c : Char} {ps : List Piece} {cs : List Char} : 0x10000 ≤ c.toNat → Means ps cs →
    Means (.code (0xd800 + (c.toNat - 0x10000) / 0x400) ::
      .code (0xdc00 + (c.toNat - 0x10000) % 0x400) :: ps) (c :: cs)

theorem isValidChar_toNat (c : Char) :
    c.toNat < 0xd800 ∨ 0xdfff < c.toNat ∧ c.toNat < 0x110000 :=
  c.valid

theorem Means.chars?_eq {ps : List Piece} {cs : List Char} (means : Means ps cs) :
    chars? ps = some cs := by
  induction means with
  | nil => rfl
  | char _ ih => rw [chars?, ih, Option.map_some]
  | @code c _ _ small _ ih =>
    have valid := isValidChar_toNat c
    have high : isHigh c.toNat = false := by simp [isHigh]; omega
    have low : isLow c.toNat = false := by simp [isLow]; omega
    rw [chars?.eq_def]
    simp [high, low, ih]
  | @pair c _ _ big _ ih =>
    have valid := isValidChar_toNat c
    have high : isHigh (0xd800 + (c.toNat - 0x10000) / 0x400) = true := by
      simp [isHigh]; omega
    have low : isLow (0xdc00 + (c.toNat - 0x10000) % 0x400) = true := by
      simp [isLow]; omega
    have whole : 0x10000 + (0xd800 + (c.toNat - 0x10000) / 0x400 - 0xd800) * 0x400 +
        (0xdc00 + (c.toNat - 0x10000) % 0x400 - 0xdc00) = c.toNat := by
      omega
    rw [chars?, if_pos high, if_pos low, ih, StringLiteral.pair, whole, Char.ofNat_toNat,
      Option.map_some]

/-! ## One character -/

/-- What a written character is read back as: a control character without a short escape comes back
as its code. -/
def piece (c : Char) : Piece :=
  match c with
  | '\x08' | '\x0c' | '\n' | '\r' | '\t' => .char c
  | _ => if c.toNat < 0x20 then .code c.toNat else .char c

def pieces (s : String) : List Piece :=
  s.toList.map piece

/-- The forms that a character is written in, with the piece that each is read back as. -/
inductive Escaped (c : Char) : List Char → Piece → Prop where
  | short (e : Char) : e ≠ 'u' → shortEscape? e = some c → Escaped c ['\\', e] (.char c)
  | long (x y : Char) : c.toNat < 0x20 → code? '0' '0' x y = some c.toNat →
    Escaped c ['\\', 'u', '0', '0', x, y] (.code c.toNat)
  | plain : c ≠ '"' → c ≠ '\\' → ¬ c.toNat < 0x20 → Escaped c [c] (.char c)

theorem code?_hexDigit : ∀ n < 0x20,
    code? '0' '0' (hexDigit (n / 16)) (hexDigit (n % 16)) = some n := by
  decide

theorem escaped (c : Char) : Escaped c (escapeChar c) (piece c) := by
  fun_cases escapeChar c with
  | case1 => exact .short '"' (by decide) rfl
  | case2 => exact .short '\\' (by decide) rfl
  | case3 => exact .short 'b' (by decide) rfl
  | case4 => exact .short 'f' (by decide) rfl
  | case5 => exact .short 'n' (by decide) rfl
  | case6 => exact .short 'r' (by decide) rfl
  | case7 => exact .short 't' (by decide) rfl
  | case8 c _ _ _ _ _ _ _ control =>
    rw [show piece c = .code c.toNat by simp [piece, control]]
    exact .long _ _ control (code?_hexDigit _ control)
  | case9 c quote backslash _ _ _ _ _ control =>
    rw [show piece c = .char c by simp [piece, control]]
    exact .plain quote backslash control

namespace Escaped

variable {c : Char} {cs : List Char} {p : Piece}

theorem pieceForm (h : Escaped c cs p) : PieceForm p cs := by
  cases h with
  | short e _ named => exact .short named
  | long x y _ named => exact .long named
  | plain quote backslash control => exact .plain quote backslash control

theorem means_cons (h : Escaped c cs p) {ps : List Piece} {ds : List Char} (means : Means ps ds) :
    Means (p :: ps) (c :: ds) := by
  cases h with
  | short | plain => exact .char means
  | long x y control named => exact .code (by omega) means

end Escaped

/-! ## The forms of a literal -/

/-- The forms of a literal past its opening quote. -/
inductive LiteralForm : List Piece → List Char → Prop where
  | close : LiteralForm [] ['"']
  | piece {p : Piece} {ps : List Piece} {cs ds : List Char} : PieceForm p cs → LiteralForm ps ds →
    LiteralForm (p :: ps) (cs ++ ds)

namespace LiteralForm

variable {ps : List Piece} {cs rest : List Char}

theorem read?_append (form : LiteralForm ps cs) : read? (cs ++ rest) = some (ps, rest) := by
  induction form with
  | close => rfl
  | piece first others ih => rw [List.append_assoc, first.read?_append, ih, Option.map_some]

/-- A literal is not read before its closing quote. -/
theorem read?_of_isPrefix (form : LiteralForm ps cs) {cut : List Char} (starts : cut <+: cs)
    (ne : cut ≠ cs) : read? cut = none := by
  induction form generalizing cut with
  | close =>
    obtain rfl | within := List.prefix_concat_iff.1 (show cut <+: [] ++ ['"'] from starts)
    · exact absurd rfl ne
    · rw [List.prefix_nil.1 within]
      rfl
  | @piece p ps cs ds first others ih =>
    obtain ⟨within, ne⟩ | ⟨cut', rfl, starts'⟩ := isPrefix_append_cases starts
    · exact first.read?_of_isPrefix within ne
    · rw [first.read?_append, ih starts' (by simpa using ne), Option.map_none]

end LiteralForm

theorem exists_literalForm {ps : List Piece} {cs rest : List Char}
    (read : read? cs = some (ps, rest)) : ∃ pre, cs = pre ++ rest ∧ LiteralForm ps pre := by
  fun_induction read? cs generalizing ps with
  | case1 rest' =>
    obtain ⟨rfl, rfl⟩ := Prod.mk.inj (Option.some.inj read)
    exact ⟨['"'], rfl, .close⟩
  | case2 a b c d tail ih =>
    simp only [Option.bind_eq_bind, Option.bind_eq_some_iff] at read
    obtain ⟨n, named, ⟨others, _⟩, later, read⟩ := read
    obtain ⟨rfl, rfl⟩ := Prod.mk.inj (Option.some.inj read)
    obtain ⟨pre, rfl, form⟩ := ih later
    exact ⟨_, rfl, .piece (.long named) form⟩
  | case3 e tail _ ih =>
    simp only [Option.bind_eq_bind, Option.bind_eq_some_iff] at read
    obtain ⟨c, named, ⟨others, _⟩, later, read⟩ := read
    obtain ⟨rfl, rfl⟩ := Prod.mk.inj (Option.some.inj read)
    obtain ⟨pre, rfl, form⟩ := ih later
    exact ⟨_, rfl, .piece (.short named) form⟩
  | case5 c tail quote _ _ allowed ih =>
    simp only [Option.bind_eq_bind, Option.bind_eq_some_iff] at read
    obtain ⟨⟨others, _⟩, later, read⟩ := read
    obtain ⟨rfl, rfl⟩ := Prod.mk.inj (Option.some.inj read)
    obtain ⟨pre, rfl, form⟩ := ih later
    simp only [Bool.or_eq_true, decide_eq_true_eq, not_or] at allowed
    exact ⟨_, rfl, .piece (.plain quote allowed.2 allowed.1) form⟩
  | case4 | case6 => simp at read

/-! ### The meaning of a literal -/

theorem hexValue?_lt {c : Char} {n : Nat} (value : hexValue? c = some n) : n < 16 := by
  simp only [hexValue?, Bool.and_eq_true, decide_eq_true_eq, Char.le_def,
    UInt32.le_iff_toNat_le, Char.toNat_val] at value
  have nine : '9'.toNat = 57 := rfl
  have zero : '0'.toNat = 48 := rfl
  have a : 'a'.toNat = 97 := rfl
  have f : 'f'.toNat = 102 := rfl
  have A : 'A'.toNat = 65 := rfl
  have F : 'F'.toNat = 70 := rfl
  grind

theorem PieceForm.code_lt {n : Nat} {cs : List Char} (form : PieceForm (.code n) cs) :
    n < 0x10000 := by
  cases form with
  | long named =>
    simp only [code?, Option.bind_eq_bind, Option.bind_eq_some_iff] at named
    obtain ⟨x, hx, y, hy, z, hz, w, hw, eq⟩ := named
    have hx := hexValue?_lt hx
    have hy := hexValue?_lt hy
    have hz := hexValue?_lt hz
    have hw := hexValue?_lt hw
    obtain rfl := Option.some.inj eq
    omega

theorem exists_toNat_eq {n : Nat} (valid : n < 0xd800 ∨ 0xdfff < n ∧ n < 0x110000) :
    ∃ c : Char, c.toNat = n :=
  ⟨Char.ofNatAux n valid, rfl⟩

theorem means_of_chars? {ps : List Piece} {cs : List Char}
    (codes : ∀ n, .code n ∈ ps → n < 0x10000) (chars : chars? ps = some cs) : Means ps cs := by
  fun_induction chars? ps generalizing cs with
  | case1 =>
    obtain rfl := Option.some.inj chars
    exact .nil
  | case2 c others ih =>
    obtain ⟨tail, later, rfl⟩ := Option.map_eq_some_iff.1 chars
    exact .char (ih (fun n mem => codes n (.tail _ mem)) later)
  | case3 n high m others low ih =>
    obtain ⟨tail, later, rfl⟩ := Option.map_eq_some_iff.1 chars
    have means := ih (fun k mem => codes k (.tail _ (.tail _ mem))) later
    simp only [isHigh, isLow, Bool.and_eq_true, decide_eq_true_eq] at high low
    obtain ⟨c, eq⟩ : ∃ c : Char, c.toNat = 0x10000 + (n - 0xd800) * 0x400 + (m - 0xdc00) :=
      exists_toNat_eq (by omega)
    have first : n = 0xd800 + (c.toNat - 0x10000) / 0x400 := by omega
    have second : m = 0xdc00 + (c.toNat - 0x10000) % 0x400 := by omega
    rw [pair, ← eq, Char.ofNat_toNat, first, second]
    exact .pair (by omega) means
  | case7 n others high low ih =>
    obtain ⟨tail, later, rfl⟩ := Option.map_eq_some_iff.1 chars
    have small := codes n (by simp)
    have means := ih (fun k mem => codes k (.tail _ mem)) later
    simp only [isHigh, isLow, Bool.and_eq_true, decide_eq_true_eq] at high low
    obtain ⟨c, rfl⟩ : ∃ c : Char, c.toNat = n := exists_toNat_eq (by omega)
    rw [Char.ofNat_toNat]
    exact .code small means
  | case4 | case5 | case6 => simp at chars

theorem LiteralForm.text?_eq_some_iff {ps : List Piece} {cs : List Char}
    (form : LiteralForm ps cs) {s : String} : text? ps = some s ↔ Means ps s.toList := by
  have codes : ∀ n, .code n ∈ ps → n < 0x10000 := by
    intro n mem
    induction form with
    | close => simp at mem
    | piece first _ ih =>
      obtain rfl | mem := List.mem_cons.1 mem
      · exact first.code_lt
      · exact ih mem
  constructor
  · intro text
    obtain ⟨chars, eq, rfl⟩ := Option.map_eq_some_iff.1 text
    rw [String.toList_ofList]
    exact means_of_chars? codes eq
  · intro means
    rw [text?, means.chars?_eq, Option.map_some, String.ofList_toList]

/-! ### The literal that is written -/

/-- A text is written as a literal of its pieces. -/
theorem exists_write (s : String) : ∃ cs, write s = '"' :: cs ∧ LiteralForm (pieces s) cs := by
  refine ⟨s.toList.flatMap escapeChar ++ ['"'], rfl, ?_⟩
  rw [pieces]
  induction s.toList with
  | nil => exact .close
  | cons c cs ih =>
    rw [List.flatMap_cons, List.append_assoc]
    exact .piece (escaped c).pieceForm ih

theorem means_pieces (s : String) : Means (pieces s) s.toList := by
  rw [pieces]
  induction s.toList with
  | nil => exact .nil
  | cons c cs ih => exact (escaped c).means_cons ih

end StringLiteral

end ShapeVM.Json
