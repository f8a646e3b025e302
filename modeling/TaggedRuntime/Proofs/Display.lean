import TaggedRuntime.Proofs.IllFormed
import TaggedRuntime.Value.Operators

namespace TaggedRuntime.Value

theorem encode_display_iff {v : Value} :
    Utf8.encode v.display = v.written ↔ ∀ bytes, v = string bytes → Utf8.WellFormed bytes := by
  cases v with
  | string bytes =>
    rw [display, written, ← Utf8.wellFormed_iff]
    constructor
    · rintro wellFormed _ ⟨⟩
      exact wellFormed
    · intro all
      exact all bytes rfl
  | nil | bool b | number x | function routine =>
    -- printed and displayed by the same words
    exact ⟨fun _ _ other => (nomatch other), fun _ => rfl⟩

theorem display_append {a : Bytes} (wellFormed : Utf8.WellFormed a) (b : Bytes) :
    (string (a ++ b)).display = (string a).display ++ (string b).display := by
  obtain ⟨cs, rfl⟩ := wellFormed
  have alone := Utf8.decodeFrom_encodeChars cs []
  rw [List.append_nil] at alone
  rw [display, display, display, Utf8.decode, Utf8.decode, Utf8.decode, Utf8.decodeFrom_encodeChars, alone,
    String.ofList_append, String.ofList_append]
  simp [Utf8.decodeFrom]

/-- What is displayed and what is printed differ for ill-formed strings only. The display of a string is a string with
that display, and a display can be cut where the bytes in front are well-formed. Of ill-formed bytes each maximal
subpart, and nothing else, is displayed as one replacement. -/
theorem display_written :
    (∀ v : Value, Utf8.encode v.display = v.written ↔ ¬∃ bytes, v = string bytes ∧ ¬Utf8.WellFormed bytes) ∧
      (∀ a : Bytes, (string (Utf8.encode (string a).display)).display = (string a).display) ∧
      (∀ a b : Bytes, Utf8.WellFormed a → ∃ v, (string a).add (string b) = .ok v ∧
        v.display = (string a).display ++ (string b).display) ∧
      ∀ (bytes : Bytes) (cs : List Char), Utf8.Shown bytes cs ↔ (string bytes).display = String.ofList cs := by
  refine ⟨fun v => ?_, fun a => Utf8.decode_encode _, fun a b wellFormed => ⟨_, rfl, display_append wellFormed b⟩,
    fun bytes cs => ?_⟩
  · rw [encode_display_iff]
    simp
  · rw [Utf8.shown_iff, display, Utf8.decode, String.ofList_inj, eq_comm]

/-- The euro sign is cut after two bytes and the letter follows: one replacement for both bytes. In front of that stands
a well-formed character. -/
theorem display_written_cut_character :
    (string [0xc3, 0xa9]).display = "é" ∧ Utf8.Shown [0xe2, 0x82, 0x41] [Utf8.replacement, 'A'] ∧
      ∃ v, (string [0xc3, 0xa9]).add (string [0xe2, 0x82, 0x41]) = .ok v ∧ v.display = "é\uFFFDA" := by
  obtain ⟨_, _, cut, shown⟩ := display_written
  have wellFormed : Utf8.WellFormed [0xc3, 0xa9] := ⟨['é'], by decide⟩
  have front : (string [0xc3, 0xa9]).display = "é" := by decide
  have back : (string [0xe2, 0x82, 0x41]).display = "\uFFFDA" := by decide
  obtain ⟨v, sum, display⟩ := cut [0xc3, 0xa9] [0xe2, 0x82, 0x41] wellFormed
  exact ⟨front, (shown _ _).mpr back, v, sum, by rw [display, front, back]; rfl⟩

end TaggedRuntime.Value
