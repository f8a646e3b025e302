import Mathlib.Algebra.Order.Field.Rat
import Mathlib.Tactic.Positivity
import Mathlib.Tactic.Ring
import TaggedRuntime.Decimal

namespace TaggedRuntime

namespace Decimal

def toRat (d : Decimal) : ℚ := d.coefficient / 10 ^ d.places

def IsDigits (cs : List Char) : Prop := cs ≠ [] ∧ cs.all Char.isDigit = true

instance (cs : List Char) : Decidable (IsDigits cs) := inferInstanceAs (Decidable (_ ∧ _))

/-- Digits, and perhaps a point with digits after it. -/
def readMagnitude? (cs : List Char) : Option Decimal :=
  let whole := cs.takeWhile (· != '.')
  match cs.dropWhile (· != '.') with
  | [] => if IsDigits whole then some ⟨Nat.ofDigitChars 10 whole 0, 0⟩ else none
  | _ :: fraction =>
    if IsDigits whole ∧ IsDigits fraction then some ⟨Nat.ofDigitChars 10 (whole ++ fraction) 0, fraction.length⟩
    else none

/-- The number that a text denotes, its sign apart. -/
def read? : List Char → Option (Bool × Decimal)
  | '-' :: cs => (readMagnitude? cs).map (true, ·)
  | cs => (readMagnitude? cs).map (false, ·)

end Decimal

/-- A number as it is written: perhaps a minus sign, digits, and perhaps a point with digits after it. -/
structure Numeral where
  negative : Bool
  whole : List Char
  fraction : List Char

namespace Numeral

def chars (n : Numeral) : List Char :=
  Decimal.signed n.negative (n.whole ++ if n.fraction = [] then [] else '.' :: n.fraction)

/-- Nothing but digits; no zero before another digit of the whole part, none at the end of the fraction. -/
structure Canonical (n : Numeral) : Prop where
  whole : Decimal.IsDigits n.whole
  leading : n.whole.head? = some '0' → n.whole = ['0']
  fraction : ∀ c ∈ n.fraction, c.isDigit
  trailing : n.fraction.getLast? ≠ some '0'

def toDecimal (n : Numeral) : Decimal := ⟨Nat.ofDigitChars 10 (n.whole ++ n.fraction) 0, n.fraction.length⟩

def ofDecimal (negative : Bool) (d : Decimal) : Numeral :=
  ⟨negative, Nat.toDigits 10 (d.coefficient / 10 ^ d.places),
    Decimal.fractionDigits d.places (d.coefficient % 10 ^ d.places)⟩

theorem chars_ofDecimal (negative : Bool) (d : Decimal) :
    (ofDecimal negative d).chars = Decimal.signed negative d.digits := by
  unfold chars ofDecimal Decimal.digits
  dsimp only
  cases Decimal.fractionDigits d.places (d.coefficient % 10 ^ d.places) with
  | nil => simp
  | cons c rest => simp

end Numeral

namespace Decimal

variable {places rest : Nat}

theorem div_lt_ten (less : rest < 10 ^ (places + 1)) : rest / 10 ^ places < 10 := by
  rwa [Nat.div_lt_iff_lt_mul (ten_pow_pos _), ← Nat.pow_succ']

theorem mod_lt_ten_pow (rest places : Nat) : rest % 10 ^ places < 10 ^ places :=
  Nat.mod_lt _ (ten_pow_pos _)

theorem isDigit_of_mem_fractionDigits (less : rest < 10 ^ places) :
    ∀ c ∈ fractionDigits places rest, c.isDigit := by
  induction places generalizing rest with
  | zero => simp [fractionDigits]
  | succ places ih =>
    intro c member
    unfold fractionDigits at member
    split at member
    · cases member
    · rcases List.mem_cons.mp member with rfl | later
      · rw [Nat.isDigit_digitChar]
        exact decide_eq_true (div_lt_ten less)
      · exact ih (mod_lt_ten_pow rest places) c later

theorem fractionDigits_eq_nil_iff (less : rest < 10 ^ places) : fractionDigits places rest = [] ↔ rest = 0 := by
  cases places with
  | zero =>
    rw [Nat.pow_zero] at less
    simp [fractionDigits, Nat.lt_one_iff.mp less]
  | succ places => simp [fractionDigits]

theorem getLast?_fractionDigits (less : rest < 10 ^ places) :
    (fractionDigits places rest).getLast? ≠ some '0' := by
  induction places generalizing rest with
  | zero => simp [fractionDigits]
  | succ places ih =>
    unfold fractionDigits
    split
    · simp
    · rename_i nonzero
      have later := mod_lt_ten_pow rest places
      rw [List.getLast?_cons]
      cases last : (fractionDigits places (rest % 10 ^ places)).getLast? with
      | some c => exact last ▸ ih later
      | none =>
        have none : rest % 10 ^ places = 0 :=
          (fractionDigits_eq_nil_iff later).mp (List.getLast?_eq_none_iff.mp last)
        have digit : rest / 10 ^ places ≠ 0 := by
          intro zero
          have sum := Nat.div_add_mod rest (10 ^ places)
          rw [zero, none] at sum
          omega
        simpa using digit

/-- The digits after the point give the fraction back once the zeros left out at the end are put on. -/
theorem ofDigitChars_fractionDigits (less : rest < 10 ^ places) :
    ∃ zeros, (fractionDigits places rest).length + zeros = places ∧
      Nat.ofDigitChars 10 (fractionDigits places rest) 0 * 10 ^ zeros = rest := by
  induction places generalizing rest with
  | zero =>
    rw [Nat.pow_zero] at less
    exact ⟨0, rfl, by simp [fractionDigits, Nat.lt_one_iff.mp less]⟩
  | succ places ih =>
    unfold fractionDigits
    split
    · rename_i zero
      exact ⟨places + 1, by simp, by simp [zero]⟩
    · obtain ⟨zeros, length, value⟩ := ih (mod_lt_ten_pow rest places)
      refine ⟨zeros, by rw [List.length_cons]; omega, ?_⟩
      rw [Nat.ofDigitChars_cons_digitChar_of_lt_ten (div_lt_ten less), Nat.ofDigitChars_eq_ofDigitChars_zero]
      calc
        _ = 10 ^ ((fractionDigits places (rest % 10 ^ places)).length + zeros) * (rest / 10 ^ places) +
            Nat.ofDigitChars 10 (fractionDigits places (rest % 10 ^ places)) 0 * 10 ^ zeros := by ring
        _ = rest := by rw [length, value, Nat.div_add_mod]

end Decimal

theorem head?_toDigits {n : Nat} (nonzero : n ≠ 0) : (Nat.toDigits 10 n).head? ≠ some '0' := by
  induction n using Nat.strong_induction_on with
  | _ n ih =>
    by_cases digit : n < 10
    · simp [Nat.toDigits_of_lt_base digit, nonzero]
    · rw [Nat.toDigits_of_base_le (by omega) (by omega), List.head?_append_of_ne_nil _ Nat.toDigits_ne_nil]
      exact ih (n / 10) (by omega) (by omega)

namespace Numeral

theorem ofDecimal_canonical (negative : Bool) (d : Decimal) : (ofDecimal negative d).Canonical where
  whole := ⟨Nat.toDigits_ne_nil,
    List.all_eq_true.mpr fun _ => Nat.isDigit_of_mem_toDigits (by omega) (by omega)⟩
  leading := by
    intro zero
    by_cases whole : d.coefficient / 10 ^ d.places = 0
    · simp [ofDecimal, whole]
    · exact absurd zero (head?_toDigits whole)
  fraction := Decimal.isDigit_of_mem_fractionDigits (Decimal.mod_lt_ten_pow ..)
  trailing := Decimal.getLast?_fractionDigits (Decimal.mod_lt_ten_pow ..)

theorem ofDecimal_fraction_eq_nil_iff (negative : Bool) (d : Decimal) :
    (ofDecimal negative d).fraction = [] ↔ 10 ^ d.places ∣ d.coefficient := by
  rw [Nat.dvd_iff_mod_eq_zero]
  exact Decimal.fractionDigits_eq_nil_iff (Decimal.mod_lt_ten_pow ..)

/-- Written and taken as a decimal again, a number has lost nothing but zeros at the end. -/
theorem toDecimal_ofDecimal (negative : Bool) (d : Decimal) :
    ∃ zeros, (ofDecimal negative d).toDecimal.places + zeros = d.places ∧
      (ofDecimal negative d).toDecimal.coefficient * 10 ^ zeros = d.coefficient := by
  obtain ⟨zeros, length, value⟩ := Decimal.ofDigitChars_fractionDigits (Decimal.mod_lt_ten_pow d.coefficient d.places)
  refine ⟨zeros, length, ?_⟩
  simp only [toDecimal, ofDecimal, Nat.ofDigitChars_append, Nat.ofDigitChars_ten_toDigits]
  rw [Nat.ofDigitChars_eq_ofDigitChars_zero, Nat.add_mul, value, Nat.mul_right_comm, ← Nat.pow_add, length,
    Nat.div_add_mod]

theorem toRat_toDecimal_ofDecimal (negative : Bool) (d : Decimal) :
    (ofDecimal negative d).toDecimal.toRat = d.toRat := by
  obtain ⟨zeros, places, coefficient⟩ := toDecimal_ofDecimal negative d
  rw [Decimal.toRat, Decimal.toRat, ← places, ← coefficient, Nat.cast_mul, Nat.cast_pow, Nat.cast_ofNat, pow_add,
    mul_div_mul_right _ _ (by positivity)]

theorem Canonical.readMagnitude? {n : Numeral} (canonical : n.Canonical) :
    Decimal.readMagnitude? (n.whole ++ if n.fraction = [] then [] else '.' :: n.fraction) = some n.toDecimal := by
  have noPoint : ∀ c ∈ n.whole, (c != '.') = true := by
    intro c member
    have digit := List.all_eq_true.mp canonical.whole.2 c member
    exact bne_iff_ne.mpr fun point => by simp [point] at digit
  unfold Decimal.readMagnitude? toDecimal
  rw [List.takeWhile_append_of_pos noPoint, List.dropWhile_append_of_pos noPoint]
  by_cases whole : n.fraction = []
  · simp [whole, canonical.whole]
  · have digits : Decimal.IsDigits n.whole ∧ Decimal.IsDigits n.fraction :=
      ⟨canonical.whole, whole, List.all_eq_true.mpr canonical.fraction⟩
    simp [whole, digits]

/-- A canonical numeral reads back as itself. -/
theorem Canonical.read? {n : Numeral} (canonical : n.Canonical) :
    Decimal.read? n.chars = some (n.negative, n.toDecimal) := by
  unfold chars Decimal.signed
  cases sign : n.negative with
  | true => simp [Decimal.read?, canonical.readMagnitude?]
  | false =>
    obtain ⟨nonempty, digits⟩ := canonical.whole
    obtain ⟨c, rest, whole⟩ := List.exists_cons_of_ne_nil nonempty
    have noMinus : c ≠ '-' := by
      intro minus
      have digit := List.all_eq_true.mp digits c (whole ▸ List.mem_cons_self ..)
      simp [minus] at digit
    have magnitude := canonical.readMagnitude?
    rw [whole, List.cons_append] at magnitude ⊢
    simp [Decimal.read?, noMinus, magnitude]

end Numeral

end TaggedRuntime
