import ShapeVM.Function.Json
import ShapeVM.Proofs.Json.Codec
import ShapeVM.Proofs.Json.RoundTrip

/-!
# Functions read back from their JSON form

A function is told from its text, and from every beginning of the text, in each format that writes and
reads JSON: its kind is unambiguous, and a value of the kind is made of a function and the other way
round without a loss.
-/
namespace ShapeVM.Function

open Json

variable {E : Type} {format : Format E} {decode : (kind : Kind) → Document → Option kind.Value}
  {f g : Function} {text : String}

theorem unambiguous_kind : kind.Unambiguous :=
  ⟨by decide, ⟨rfl, trivial⟩, ⟨by decide, trivial, trivial⟩, trivial, trivial, trivial, trivial⟩

theorem depth_kind : kind.depth < 128 := by decide

theorem ofJson_eq_ok_iff_read : ofJson format text = .ok f ↔ format.read kind text = .ok f.toValue := by
  rw [ofJson]
  cases format.read kind text with
  | error _ => exact ⟨nofun, nofun⟩
  | ok value =>
    constructor
    · rintro ⟨⟩
      rfl
    · rintro ⟨⟩
      rfl

theorem ofJson_toJson (writes : format.Writes) (reads : format.Reads decode) (f : Function) :
    ofJson format (f.toJson format) = .ok f :=
  ofJson_eq_ok_iff_read.2 (Format.read_write writes reads unambiguous_kind depth_kind f.toValue)

/-- What a JSON form has to be for functions to be told from their texts and from the beginnings of
these. -/
structure Faithful (write : Function → String) (read : String → Except E Function) : Prop where
  read_write (f : Function) : read (write f) = .ok f
  injective {f g : Function} : write f = write g → f = g
  cut {f : Function} {text : String} : text.toList <+: (write f).toList → text ≠ write f →
    ∃ e, read text = .error e

theorem json_form_is_faithful (writes : format.Writes) (reads : format.Reads decode) :
    Faithful (toJson format) (ofJson format) where
  read_write := ofJson_toJson writes reads
  injective {f g} same := by
    have read := ofJson_toJson writes reads g
    rw [← same, ofJson_toJson writes reads f] at read
    exact Except.ok.inj read
  cut {f text} starts ne := by
    cases read : ofJson format text with
    | error e => exact ⟨e, rfl⟩
    | ok g =>
      have read := ofJson_eq_ok_iff_read.1 read
      exact (Format.read_ne_ok_of_cut writes reads unambiguous_kind depth_kind starts ne _ read).elim

/-- Its name is written with both kinds of escape and a character outside the basic plane. -/
def ofEscapes : Function where
  name := some "\"\\\x01😀"
  paramNames := ["null", ""]

theorem json_form_is_faithful_of_escapes :
    codec.Writes ∧ codec.Reads Codec.decode ∧
      ofEscapes.toJson codec =
        "\x7b\"name\":\"\\\"\\\\\\u0001😀\",\"flags\":\x7b\"uses_eval\":false\x7d," ++
        "\"param_names\":[\"null\",\"\"],\"local_names\":[],\"property_sites\":[]\x7d" ∧
      ofJson codec (ofEscapes.toJson codec) = .ok ofEscapes ∧
      { ofEscapes with name := none }.toJson codec ≠
        { ofEscapes with name := some "null" }.toJson codec ∧
      ∃ e, ofJson codec "\x7b\"name\":\"\\" = .error e := by
  have faithful := json_form_is_faithful Codec.writes Codec.reads
  exact ⟨Codec.writes, Codec.reads, by decide +kernel, faithful.read_write _,
    mt faithful.injective (by decide),
    faithful.cut (f := ofEscapes) (by decide +kernel) (by decide +kernel)⟩

end ShapeVM.Function
