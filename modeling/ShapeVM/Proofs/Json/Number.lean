import ShapeVM.Json.Number

/-!
# The forms of numbers

A number is written as a sign, digits, and perhaps a fraction and an exponent (`HasForm`). Each form
of a number is read as the number if what comes next cannot belong to it (`HasForm.read_append`),
and what is read has a form of what it is read as (`exists_form`).
-/
namespace ShapeVM.Json.NumberLiteral

variable {n : NumberLiteral} {ds : List Nat} {cs rest : List Char} {negative : Bool}
  {exponent : Option (Bool × List Nat)}

/-- Digits with their values. -/
structure Digits (ds : List Nat) (cs : List Char) : Prop where
  nonempty : ds ≠ []
  all : ∀ c ∈ cs, isDigit c = true
  values : cs.map digitValue = ds

inductive FractionForm : List Nat → List Char → Prop
  | absent : FractionForm [] []
  | point {ds : List Nat} {cs : List Char} : Digits ds cs → FractionForm ds ('.' :: cs)

inductive SignForm : Bool → List Char → Prop
  | absent : SignForm false []
  | plus : SignForm false ['+']
  | minus : SignForm true ['-']

inductive ExponentForm : Option (Bool × List Nat) → List Char → Prop
  | absent : ExponentForm none []
  | marked {e : Char} {negative : Bool} {sign cs : List Char} {ds : List Nat} : e = 'e' ∨ e = 'E' →
    SignForm negative sign → Digits ds cs → ExponentForm (some (negative, ds)) (e :: (sign ++ cs))

/-- A form without the sign. No zero stands before other digits. -/
inductive UnsignedForm : NumberLiteral → List Char → Prop
  | intro {negative : Bool} {integer fraction : List Nat} {exponent : Option (Bool × List Nat)}
    {ints fracs exps : List Char} : Digits integer ints → (∀ ds, integer = 0 :: ds → ds = []) →
    FractionForm fraction fracs → ExponentForm exponent exps →
    UnsignedForm ⟨negative, integer, fraction, exponent⟩ (ints ++ (fracs ++ exps))

/-- The forms in which a number is written. -/
inductive HasForm (n : NumberLiteral) : List Char → Prop
  | negative {cs : List Char} : n.negative = true → UnsignedForm n cs → HasForm n ('-' :: cs)
  | nonnegative {cs : List Char} : n.negative = false → UnsignedForm n cs → HasForm n cs

/-- What comes next is no more of a number. -/
def Ends (cs : List Char) : Prop :=
  ∀ c ∈ cs.head?, isDigit c = false ∧ c ≠ '.' ∧ c ≠ 'e' ∧ c ≠ 'E'

/-! ### Each form is read -/

theorem Digits.digits_append (form : Digits ds cs) (after : ∀ c ∈ rest.head?, isDigit c = false) :
    digits (cs ++ rest) = (ds, rest) := by
  have stop : rest.takeWhile isDigit = [] ∧ rest.dropWhile isDigit = rest := by
    cases rest with
    | nil => exact ⟨rfl, rfl⟩
    | cons c rest => simp [after c (by simp)]
  rw [digits, List.takeWhile_append_of_pos form.all, List.dropWhile_append_of_pos form.all, stop.1,
    stop.2, List.append_nil, form.values]

theorem Digits.head (form : Digits ds cs) : ∃ c tail, cs = c :: tail ∧ isDigit c = true := by
  cases cs with
  | nil => exact absurd form.values.symm form.nonempty
  | cons c tail => exact ⟨c, tail, rfl, form.all c (by simp)⟩

theorem SignForm.readSign_append {sign : List Char} (form : SignForm negative sign)
    (digits : Digits ds cs) : readSign (sign ++ (cs ++ rest)) = (negative, cs ++ rest) := by
  obtain ⟨c, tail, rfl, digit⟩ := digits.head
  cases form with
  | plus | minus => rfl
  | absent =>
    simp only [List.nil_append, List.cons_append]
    rw [readSign]
    all_goals
      intro _ sign
      rw [(List.cons.inj sign).1] at digit
      exact absurd digit (by decide)

theorem ExponentForm.read_append (form : ExponentForm exponent cs) (ends : Ends rest) :
    readExponent? (cs ++ rest) = some (exponent, rest) := by
  cases form with
  | absent =>
    cases rest with
    | nil => rfl
    | cons c rest => simp [readExponent?, ends c (by simp)]
  | @marked e negative sign ds' ds mark signed found =>
    have read := found.digits_append fun c mem => (ends c mem).1
    have next := found.nonempty
    simp only [List.cons_append, List.append_assoc]
    rw [readExponent?, if_pos (by simpa using mark), signed.readSign_append found]
    simp only [read]

theorem FractionForm.read_append (form : FractionForm ds cs)
    (after : ∀ c ∈ rest.head?, isDigit c = false ∧ c ≠ '.') :
    readFraction? (cs ++ rest) = some (ds, rest) := by
  cases form with
  | absent =>
    rw [List.nil_append, readFraction?]
    rintro _ rfl
    exact (after '.' (by simp)).2 rfl
  | point found =>
    have read := found.digits_append fun c mem => (after c mem).1
    have next := found.nonempty
    rw [List.cons_append, readFraction?, read]
    split
    · simp_all
    · rfl

/-- A part that may be left out starts with neither a digit nor a point, whether it is there or
what comes next is. -/
theorem ExponentForm.head (form : ExponentForm exponent cs) (ends : Ends rest) :
    ∀ c ∈ (cs ++ rest).head?, isDigit c = false ∧ c ≠ '.' := by
  intro c mem
  cases form with
  | absent => exact ⟨(ends c mem).1, (ends c mem).2.1⟩
  | marked mark =>
    obtain rfl : _ = c := Option.some.inj mem
    obtain rfl | rfl := mark <;> decide

theorem FractionForm.head (form : FractionForm ds cs)
    (after : ∀ c ∈ rest.head?, isDigit c = false ∧ c ≠ '.') :
    ∀ c ∈ (cs ++ rest).head?, isDigit c = false := by
  intro c mem
  cases form with
  | absent => exact (after c mem).1
  | point =>
    obtain rfl : _ = c := Option.some.inj mem
    decide

theorem UnsignedForm.read_append (form : UnsignedForm n cs) (ends : Ends rest) :
    readUnsigned? n.negative (cs ++ rest) = some (n, rest) := by
  cases form with
  | @intro negative integer fraction exponent ints fracs exps whole zero fractional exponential =>
    have fractionRead := fractional.read_append (exponential.head ends)
    have exponentRead := exponential.read_append ends
    have integerRead := whole.digits_append (fractional.head (exponential.head ends))
    simp only [List.append_assoc]
    rw [readUnsigned?, integerRead]
    split
    case h_1 none => exact absurd (Prod.mk.inj none).1 whole.nonempty
    case h_2 zeros => exact absurd (zero _ (Prod.mk.inj zeros).1) (by simp)
    case h_3 read =>
      obtain ⟨rfl, rfl⟩ := Prod.mk.inj read
      simp [fractionRead, exponentRead]

theorem HasForm.read_append (form : HasForm n cs) (ends : Ends rest) :
    read? (cs ++ rest) = some (n, rest) := by
  cases form with
  | negative sign form =>
    rw [List.cons_append, read?, ← sign, form.read_append ends]
  | nonnegative sign form =>
    have read := form.read_append ends
    cases form with
    | intro whole =>
      obtain ⟨c, tail, rfl, digit⟩ := whole.head
      simp only [List.cons_append] at read ⊢
      rw [read?, ← sign, read]
      rintro _ ⟨rfl, -⟩
      exact absurd digit (by decide)

theorem HasForm.head (form : HasForm n cs) :
    ∃ c tail, cs = c :: tail ∧ (c = '-' ∨ isDigit c = true) := by
  cases form with
  | negative _ form => exact ⟨'-', _, rfl, .inl rfl⟩
  | nonnegative _ form =>
    cases form with
    | intro whole =>
      obtain ⟨c, tail, rfl, digit⟩ := whole.head
      exact ⟨c, _, rfl, .inr digit⟩

/-! ### What is read has a form -/

theorem exists_digits (found : digits cs = (ds, rest)) (nonempty : ds ≠ []) :
    ∃ pre, cs = pre ++ rest ∧ Digits ds pre := by
  obtain ⟨rfl, rfl⟩ := Prod.mk.inj found
  exact ⟨_, List.takeWhile_append_dropWhile.symm, nonempty,
    fun c mem => List.all_eq_true.1 (List.all_takeWhile ..) c mem, rfl⟩

theorem exists_fractionForm (read : readFraction? cs = some (ds, rest)) :
    ∃ pre, cs = pre ++ rest ∧ FractionForm ds pre := by
  unfold readFraction? at read
  split at read
  · split at read
    · simp at read
    · rename_i nonempty
      have found := Option.some.inj read
      obtain ⟨pre, rfl, form⟩ := exists_digits found fun empty => nonempty _ (empty ▸ found)
      exact ⟨'.' :: pre, rfl, .point form⟩
  · obtain ⟨rfl, rfl⟩ := Prod.mk.inj (Option.some.inj read)
    exact ⟨[], rfl, .absent⟩

theorem exists_signForm (cs : List Char) : ∃ pre, cs = pre ++ (readSign cs).2 ∧
    SignForm (readSign cs).1 pre := by
  fun_cases readSign cs with
  | case1 rest => exact ⟨['-'], rfl, .minus⟩
  | case2 rest => exact ⟨['+'], rfl, .plus⟩
  | case3 => exact ⟨[], rfl, .absent⟩

theorem exists_exponentForm (read : readExponent? cs = some (exponent, rest)) :
    ∃ pre, cs = pre ++ rest ∧ ExponentForm exponent pre := by
  unfold readExponent? at read
  split at read
  · obtain ⟨rfl, rfl⟩ := Prod.mk.inj (Option.some.inj read)
    exact ⟨[], rfl, .absent⟩
  · rename_i c tail
    split at read
    · rename_i mark
      obtain ⟨sign, split, signed⟩ := exists_signForm tail
      simp only at read
      split at read
      · simp at read
      · rename_i nonempty found
        obtain ⟨pre, eq, form⟩ := exists_digits found (by grind)
        obtain ⟨rfl, rfl⟩ := Prod.mk.inj (Option.some.inj read)
        refine ⟨c :: (sign ++ pre), ?_, .marked (by simpa using mark) signed form⟩
        rw [split, eq]
        simp
    · obtain ⟨rfl, rfl⟩ := Prod.mk.inj (Option.some.inj read)
      exact ⟨[], rfl, .absent⟩

theorem exists_unsignedForm (read : readUnsigned? negative cs = some (n, rest)) :
    ∃ pre, cs = pre ++ rest ∧ UnsignedForm n pre ∧ n.negative = negative := by
  unfold readUnsigned? at read
  split at read
  · simp at read
  · simp at read
  · rename_i integer tail nonempty zeros found
    simp only [Option.bind_eq_bind, Option.bind_eq_some_iff] at read
    obtain ⟨⟨fraction, _⟩, fractional, ⟨exponent, _⟩, exponential, read⟩ := read
    obtain ⟨ints, rfl, whole⟩ := exists_digits found nonempty
    obtain ⟨fracs, rfl, fractionForm⟩ := exists_fractionForm fractional
    obtain ⟨exps, rfl, exponentForm⟩ := exists_exponentForm exponential
    obtain ⟨rfl, rfl⟩ := Prod.mk.inj (Option.some.inj read)
    refine ⟨ints ++ (fracs ++ exps), by simp, .intro whole ?_ fractionForm exponentForm, rfl⟩
    intro ds zero
    cases ds with
    | nil => rfl
    | cons d ds => exact (zeros d ds zero).elim

theorem exists_form (read : read? cs = some (n, rest)) :
    ∃ pre, cs = pre ++ rest ∧ HasForm n pre := by
  unfold read? at read
  split at read
  · obtain ⟨pre, rfl, form, sign⟩ := exists_unsignedForm read
    exact ⟨'-' :: pre, rfl, .negative sign form⟩
  · obtain ⟨pre, rfl, form, sign⟩ := exists_unsignedForm read
    exact ⟨pre, rfl, .nonnegative sign form⟩

end ShapeVM.Json.NumberLiteral
