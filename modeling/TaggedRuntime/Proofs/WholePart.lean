import Mathlib.Data.Rat.Floor
import TaggedRuntime.Proofs.SignOfZero
import TaggedRuntime.Proofs.WholeNumber

namespace TaggedRuntime.Binary64

/-- What a finite number is worth. -/
def value? : Binary64 → Option ℚ
  | finite negative units _ => some (signedUnits negative units / one)
  | nan | infinite _ => none

/-- What is left of a number without its fraction. -/
def towardZero (q : ℚ) : ℤ := if 0 ≤ q then ⌊q⌋ else ⌈q⌉

/-- The whole part of what a number is worth, or the end that it lies past of the numbers with 64 bits and a sign.
Not-a-number counts as zero. -/
def wholePart : Binary64 → ℤ
  | nan => 0
  | infinite negative => if negative then -2 ^ 63 else 2 ^ 63 - 1
  | finite negative units _ => max (-2 ^ 63) (min (towardZero (signedUnits negative units / one)) (2 ^ 63 - 1))

/-- Past the last whole number with 64 bits and a sign. -/
def Exceeds (x : Binary64) : Prop := x = infinite false ∨ ∃ q, x.value? = some q ∧ 2 ^ 63 ≤ q

variable {x : Binary64} {n : ℤ} {units : Nat}

theorem towardZero_intCast (n : ℤ) : towardZero n = n := by
  rw [towardZero, Int.floor_intCast, Int.ceil_intCast, ite_self]

theorem towardZero_neg (q : ℚ) : towardZero (-q) = -towardZero q := by
  rcases lt_trichotomy q 0 with negative | rfl | positive
  · rw [towardZero, towardZero, if_pos (by linarith), if_neg (by linarith), Int.floor_neg]
  · simp [towardZero]
  · rw [towardZero, towardZero, if_neg (by linarith), if_pos (by linarith), Int.ceil_neg]

@[simp] theorem signedUnits_false (units : Nat) : signedUnits false units = units := rfl

@[simp] theorem signedUnits_true (units : Nat) : signedUnits true units = -units := rfl

theorem natAbs_signedUnits (negative : Bool) (units : Nat) : (signedUnits negative units).natAbs = units := by
  cases negative <;> simp

theorem towardZero_signedUnits (negative : Bool) (units : Nat) :
    towardZero (signedUnits negative units / one) = signedUnits negative (units / one) := by
  have nonneg : (0 : ℚ) ≤ units / one := by positivity
  have whole : towardZero (units / one) = (units / one : Nat) := by
    rw [towardZero, if_pos nonneg, Rat.floor_natCast_div_natCast, Int.natCast_div]
  cases negative with
  | false => rw [signedUnits_false, signedUnits_false, Int.cast_natCast, whole]
  | true => rw [signedUnits_true, signedUnits_true, Int.cast_neg, Int.cast_natCast, neg_div, towardZero_neg, whole]

theorem toInt64_eq_wholePart (x : Binary64) : x.toInt64 = x.wholePart := by
  cases x with
  | nan => rfl
  | infinite negative => cases negative <;> decide
  | finite negative units representable =>
    rw [toInt64, wholePart, towardZero_signedUnits]
    rfl

theorem wholePart_finite (negative : Bool) (representable : Representable units) :
    (finite negative units representable).wholePart =
      max (-2 ^ 63) (min (signedUnits negative (units / one)) (2 ^ 63 - 1)) := by
  rw [wholePart, towardZero_signedUnits]

theorem wholePart_bounds (x : Binary64) : -2 ^ 63 ≤ x.wholePart ∧ x.wholePart ≤ 2 ^ 63 - 1 := by
  cases x with
  | nan => decide
  | infinite negative => cases negative <;> decide
  | finite negative units representable =>
    rw [wholePart]
    omega

theorem value?_finite (negative : Bool) (representable : Representable units) :
    (finite negative units representable).value? = some (signedUnits negative units / one : ℚ) := rfl

theorem abs_signedUnits_div (negative : Bool) (units : Nat) :
    |(signedUnits negative units / one : ℚ)| = units / one := by
  rw [abs_div, ← Int.cast_abs, Int.abs_eq_natAbs, natAbs_signedUnits, Int.cast_natCast, abs_of_pos cast_one_pos]

/-- The whole part is zero exactly between minus one and one. -/
theorem wholePart_eq_zero_iff : x.wholePart = 0 ↔ x = nan ∨ ∃ q, x.value? = some q ∧ |q| < 1 := by
  cases x with
  | nan => simp [wholePart]
  | infinite negative => cases negative <;> simp [wholePart, value?]
  | finite negative units representable =>
    have small : |(signedUnits negative units / one : ℚ)| < 1 ↔ units / one = 0 := by
      rw [abs_signedUnits_div, div_lt_one cast_one_pos, Nat.cast_lt, Nat.div_eq_zero_iff_lt one_pos]
    simp only [value?_finite, Option.some.injEq, reduceCtorEq, false_or, exists_eq_left', small, wholePart_finite]
    have none := natAbs_signedUnits negative (units / one)
    omega

theorem exceeds_finite_iff {negative : Bool} {representable : Representable units} :
    (finite negative units representable).Exceeds ↔ negative = false ∧ 2 ^ 63 ≤ units / one := by
  have nonneg : (0 : ℚ) ≤ units / one := by positivity
  have past : (2 ^ 63 : ℚ) ≤ units / one ↔ 2 ^ 63 ≤ units / one := by
    rw [← Rat.natFloor_natCast_div_natCast, Nat.le_floor_iff nonneg, Nat.cast_pow, Nat.cast_ofNat]
  simp only [Exceeds, reduceCtorEq, false_or, value?_finite, Option.some.injEq, exists_eq_left']
  cases negative with
  | false => rw [signedUnits_false, Int.cast_natCast, past, eq_self, true_and]
  | true =>
    rw [signedUnits_true, Int.cast_neg, Int.cast_natCast, neg_div]
    constructor
    · intro past
      linarith
    · intro both
      cases both.1

theorem Exceeds.wholePart_eq (exceeds : x.Exceeds) : x.wholePart = 2 ^ 63 - 1 := by
  cases x with
  | nan => simp [Exceeds, value?] at exceeds
  | infinite negative =>
    obtain rfl : negative = false := by simpa [Exceeds, value?] using exceeds
    rfl
  | finite negative units representable =>
    obtain ⟨rfl, past⟩ := exceeds_finite_iff.mp exceeds
    rw [wholePart_finite, signedUnits_false]
    omega

/-- The whole part of another number is what is left of its magnitude without the fraction, or the lower end. -/
theorem natAbs_wholePart (within : ¬x.Exceeds) :
    x.wholePart.natAbs = 2 ^ 63 ∨ ∃ units, OnGrid units ∧ x.wholePart.natAbs = units / one := by
  cases x with
  | nan => exact .inr ⟨0, Nat.dvd_zero _, by rw [Nat.zero_div]; rfl⟩
  | infinite negative =>
    cases negative with
    | false => exact absurd (.inl rfl) within
    | true => exact .inl rfl
  | finite negative units representable =>
    rw [exceeds_finite_iff, not_and] at within
    rw [wholePart_finite]
    have whole : (max (-2 ^ 63) (min (signedUnits negative (units / one)) (2 ^ 63 - 1))).natAbs =
        min (units / one) (2 ^ 63) := by
      generalize units / one = whole at within ⊢
      cases negative with
      | false =>
        have below := within rfl
        rw [signedUnits_false]
        omega
      | true =>
        rw [signedUnits_true]
        omega
    rw [whole]
    rcases min_choice (units / one) (2 ^ 63) with fits | past
    · exact .inr ⟨units, representable.2, fits⟩
    · exact .inl past

theorem onGrid_wholePart (within : ¬x.Exceeds) : OnGrid (x.wholePart.natAbs * one) := by
  obtain ⟨e, _, power⟩ := exists_one_eq
  rcases natAbs_wholePart within with bottom | ⟨units, onGrid, whole⟩
  · have single : 2 ^ 63 * 2 ^ e = 1 * 2 ^ (63 + e) := by rw [Nat.one_mul, Nat.pow_add]
    rw [bottom, power, single]
    exact onGrid_mul (by decide)
  · rw [whole, power]
    exact onGrid.whole e

theorem signedUnits_mul (n : ℤ) (steps : Nat) : signedUnits (n < 0) (n.natAbs * steps) = n * steps := by
  by_cases negative : n < 0
  · simp only [negative, decide_true, signedUnits_true, Nat.cast_mul, Int.ofNat_natAbs_of_nonpos negative.le]
    ring
  · simp only [negative, decide_false, signedUnits_false, Nat.cast_mul, Int.natAbs_of_nonneg (Int.not_lt.mp negative)]

theorem value?_ofInt (representable : Representable (n.natAbs * one)) : (ofInt n).value? = some (n : ℚ) := by
  rw [ofInt_exact representable, value?_finite, signedUnits_mul, Int.cast_mul, Int.cast_natCast,
    mul_div_cancel_right₀ _ cast_one_ne_zero]

/-- A number that is worth a whole number is that whole number, but for the negative zero. -/
theorem eq_ofInt (value : x.value? = some (n : ℚ)) (le : n.natAbs ≤ 2 ^ 53) (other : x ≠ zero true) : x = ofInt n := by
  cases x with
  | nan | infinite _ => cases value
  | finite negative units representable =>
    rw [value?_finite, Option.some.injEq, div_eq_iff cast_one_ne_zero, ← Int.cast_natCast, ← Int.cast_mul, Int.cast_inj,
      ← signedUnits_mul, signedUnits_eq_iff] at value
    rw [ofInt_whole le, finite.injEq]
    rcases value with same | ⟨rfl, none⟩
    · exact same
    · have nothing : n = 0 := by
        rcases Nat.mul_eq_zero.mp none with whole | absent
        · exact Int.natAbs_eq_zero.mp whole
        · exact absurd absent one_pos.ne'
      cases negative with
      | false => exact ⟨by rw [nothing]; rfl, none.symm⟩
      | true => exact absurd rfl other

theorem wholePart_of_whole (value : x.value? = some (n : ℚ)) (lower : -2 ^ 63 ≤ n) (upper : n ≤ 2 ^ 63 - 1) :
    x.wholePart = n := by
  cases x with
  | nan | infinite _ => cases value
  | finite negative units representable =>
    rw [wholePart, Option.some.inj value, towardZero_intCast, min_eq_left upper, max_eq_right lower]

end TaggedRuntime.Binary64
