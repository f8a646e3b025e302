import TaggedRuntime.Proofs.TemplateReading
import TaggedRuntime.Proofs.WholePart

namespace TaggedRuntime

namespace Decimal

theorem ofList_ofInt (n : ℤ) : String.ofList (ofInt n) = toString n := by
  cases n with
  | ofNat n => rfl
  | negSucc n =>
    have minus : ofInt (Int.negSucc n) = '-' :: Nat.toDigits 10 (n + 1) := by simp [ofInt, signed]
    rw [minus, String.ofList_cons]
    rfl

/-- A whole number in decimal notation has no point and no zero in front, and it reads as itself. -/
theorem toString_canonical (n : ℤ) :
    ∃ m : Numeral, m.Canonical ∧ m.fraction = [] ∧ toString n = String.ofList m.chars ∧
      read? (toString n).toList = some (decide (n < 0), ⟨n.natAbs, 0⟩) := by
  have canonical := Numeral.ofDecimal_canonical (n < 0) ⟨n.natAbs, 0⟩
  have chars : ofInt n = (Numeral.ofDecimal (n < 0) ⟨n.natAbs, 0⟩).chars := by
    simp [Numeral.chars_ofDecimal, digits, fractionDigits, ofInt]
  have reads := canonical.read?
  refine ⟨_, canonical, rfl, by rw [← chars, ofList_ofInt], ?_⟩
  rw [← ofList_ofInt, String.toList_ofList, chars, reads]
  simp [Numeral.ofDecimal, Numeral.toDecimal, fractionDigits]

end Decimal

namespace Binary64

variable {x : Binary64} {n : ℤ}

theorem text_of_whole (value : x.value? = some (n : ℚ)) (le : n.natAbs ≤ 2 ^ 53) (other : x ≠ zero true) :
    x.text = toString n := by
  rw [eq_ofInt value le other, text_ofInt le, Decimal.ofList_ofInt]

end Binary64

namespace Directive

variable {x : Binary64} {n : ℤ}

theorem write_integer (x : Binary64) : String.ofList (integer.write (.number x)) = toString x.wholePart := by
  rw [write, x.toInt64_eq_wholePart, Decimal.ofList_ofInt]

/-- The two ways to write a number agree on whole numbers. -/
theorem write_whole (d : Directive) (value : x.value? = some (n : ℚ)) (le : n.natAbs ≤ 2 ^ 53)
    (other : x ≠ .zero true) : String.ofList (d.write (.number x)) = toString n := by
  have text : String.ofList x.text.toList = toString n := by
    rw [String.ofList_toList, Binary64.text_of_whole value le other]
  cases d with
  | integer => rw [write_integer, Binary64.wholePart_of_whole value (by omega) (by omega)]
  | number => exact text
  | display => exact text

end Directive

namespace Template

theorem fill_letter {c : Char} {d : Directive} (asks : Directive.ofLetter? c = some d) (rest : List Char) (v : Value)
    (args : List Value) :
    fill (String.ofList ('%' :: c :: rest)) (v :: args) = String.ofList (d.write v) ++ fill (String.ofList rest) args := by
  have letter : Segment.ofLetter c = .directive d := by
    have other : c ≠ '%' := by
      rintro rfl
      cases asks
    rw [Segment.ofLetter, if_neg other, asks]
  rw [fill, fill, String.toList_ofList, String.toList_ofList, Segment.parse_letter, letter, Segment.render,
    String.ofList_append]

/-- Asked for as an integer, a number is written as its whole part within 64 bits. A whole number up to `2 ^ 53` that
is not the negative zero is written in its decimal notation whichever way it is asked for, and so it is displayed and
printed. -/
theorem fill_whole_number (x : Binary64) :
    (∀ c ∈ ['d', 'i'], ∀ rest args, fill (String.ofList ('%' :: c :: rest)) (.number x :: args) =
        toString x.wholePart ++ fill (String.ofList rest) args) ∧
      (∀ n : ℤ, x.value? = some (n : ℚ) → n.natAbs ≤ 2 ^ 53 → x ≠ .zero true →
        (∀ c ∈ ['d', 'i', 'g', 'f', 's'], ∀ rest args, fill (String.ofList ('%' :: c :: rest)) (.number x :: args) =
          toString n ++ fill (String.ofList rest) args) ∧
        (Value.number x).display = toString n ∧ (Value.number x).written = Utf8.encode (toString n)) ∧
      ∀ n : ℤ, ∃ m : Numeral, m.Canonical ∧ m.fraction = [] ∧ toString n = String.ofList m.chars ∧
        Decimal.read? (toString n).toList = some (decide (n < 0), ⟨n.natAbs, 0⟩) := by
  refine ⟨fun c asked rest args => ?_, fun n value le other => ⟨fun c asked rest args => ?_, ?_, ?_⟩,
    Decimal.toString_canonical⟩
  · have asks : Directive.ofLetter? c = some .integer := by
      simp only [List.mem_cons, List.not_mem_nil, or_false] at asked
      rcases asked with rfl | rfl <;> rfl
    rw [fill_letter asks, Directive.write_integer]
  · obtain ⟨d, asks⟩ : ∃ d, Directive.ofLetter? c = some d := by
      simp only [List.mem_cons, List.not_mem_nil, or_false] at asked
      rcases asked with rfl | rfl | rfl | rfl | rfl <;> exact ⟨_, rfl⟩
    rw [fill_letter asks, d.write_whole value le other]
  · exact Binary64.text_of_whole value le other
  · exact congrArg Utf8.encode (Binary64.text_of_whole value le other)

/-- The boundary itself is written in full, and for `%g` as for `%d`. -/
theorem fill_whole_number_boundary :
    let x := Binary64.ofBits 0xc340000000000000
    fill "%g, %d" [.number x, .number x] = "-9007199254740992" ++ fill ", %d" [.number x] ∧
      (Value.number x).display = "-9007199254740992" := by
  intro x
  have value : x.value? = some ((-2 ^ 53 : ℤ) : ℚ) := by
    have same : x = .ofInt (-2 ^ 53) := by decide +kernel
    rw [same, Binary64.value?_ofInt (Binary64.representable_whole (by decide))]
  have other : x ≠ .zero true := by decide +kernel
  obtain ⟨filled, displayed, _⟩ := (fill_whole_number x).2.1 (-2 ^ 53) value (by decide) other
  have text : toString (-2 ^ 53 : ℤ) = "-9007199254740992" := by decide +kernel
  rw [text] at filled displayed
  exact ⟨filled 'g' (by decide) ", %d".toList [.number x], displayed⟩

end Template

end TaggedRuntime
