import TaggedRuntime.Proofs.WholePart
import TaggedRuntime.Value.Operators

namespace TaggedRuntime

namespace Binary64

variable {x : Binary64}

theorem natAbs_wholePart_le (x : Binary64) : x.wholePart.natAbs ≤ 2 ^ 63 := by
  have bounds := x.wholePart_bounds
  omega

/-- The remainder of whole parts is a magnitude of the grid. The one divisor that is not on the grid itself is the
greatest number with 64 bits, and that leaves a dividend as it is or next to nothing. -/
theorem onGrid_remainder (within : ¬x.Exceeds) (y : Binary64) :
    OnGrid ((x.wholePart.tmod y.wholePart).natAbs * one) := by
  rw [Int.natAbs_tmod]
  by_cases exceeds : y.Exceeds
  · have most := x.natAbs_wholePart_le
    have divisor : y.wholePart.natAbs = 2 ^ 63 - 1 := by rw [exceeds.wholePart_eq]; rfl
    rw [divisor]
    by_cases less : x.wholePart.natAbs < 2 ^ 63 - 1
    · rw [Nat.mod_eq_of_lt less]
      exact onGrid_wholePart within
    · exact onGrid_whole (by omega)
  · rw [← Nat.mul_mod_mul_right]
    exact (onGrid_wholePart within).mod (onGrid_wholePart exceeds)

theorem representable_remainder (within : ¬x.Exceeds) (y : Binary64) :
    Representable ((x.wholePart.tmod y.wholePart).natAbs * one) := by
  refine ⟨whole_lt_limit ?_, onGrid_remainder within y⟩
  rw [Int.natAbs_tmod]
  exact (Nat.mod_le ..).trans x.natAbs_wholePart_le

theorem ofInt_zero : ofInt 0 = zero false := by
  rw [ofInt, Int.natAbs_zero, Nat.zero_mul, ofQuotient_zero]
  rfl

theorem ofInt_rounds (n : ℤ) : Rounds (n < 0) |n| (ofInt n) := by
  refine ofQuotient_rounds _ _ Nat.one_pos ?_
  rw [Nat.cast_one, div_one, Nat.cast_mul, ← Int.cast_abs, Int.abs_eq_natAbs, Int.cast_natCast]

theorem ofInt_rounds_of_nonneg {n : ℤ} (nonneg : 0 ≤ n) : Rounds false n (ofInt n) := by
  have rounds := ofInt_rounds n
  rwa [decide_eq_false nonneg.not_gt, ← Int.cast_abs, abs_of_nonneg nonneg] at rounds

/-- Whole parts fit into words of 64 bits. -/
theorem toInt_ofInt_wholePart (x : Binary64) : (Int64.ofInt x.wholePart).toInt = x.wholePart := by
  have bounds := x.wholePart_bounds
  exact Int64.toInt_ofInt_of_le bounds.1 (by omega)

theorem abs_remainder_lt (x : Binary64) {y : Binary64} (divisor : y.wholePart ≠ 0) :
    |x.wholePart.tmod y.wholePart| < |y.wholePart| := by
  have less := Nat.mod_lt x.wholePart.natAbs (Int.natAbs_pos.mpr divisor)
  rw [← Int.natAbs_tmod] at less
  rw [Int.abs_eq_natAbs, Int.abs_eq_natAbs]
  exact_mod_cast less

theorem remainder_sign (x y : Binary64) :
    x.wholePart.tmod y.wholePart = 0 ∨ (x.wholePart.tmod y.wholePart).sign = x.wholePart.sign := by
  rw [← Int.sign_eq_zero_iff_zero, Int.sign_tmod]
  split_ifs
  · exact .inl rfl
  · exact .inr rfl

theorem Exceeds.remainder_rounds (exceeds : x.Exceeds) (y : Binary64) :
    Rounds false (x.wholePart.tmod y.wholePart : ℤ) (ofInt (x.wholePart.tmod y.wholePart)) := by
  have dividend : 0 ≤ x.wholePart := by
    rw [exceeds.wholePart_eq]
    decide
  exact ofInt_rounds_of_nonneg (Int.tmod_nonneg _ dividend)

end Binary64

namespace Value

open Binary64

theorem modulo_eq (x y : Binary64) :
    modulo (number x) (number y) =
      if y.wholePart = 0 then .error .zeroDivisor
      else .ok (number (ofInt (x.wholePart.tmod y.wholePart))) := by
  have computed : some (modulo (number x) (number y)) = arithmetic? x y .modulo := Option.some_get _
  rw [arithmetic?, remainder?, toInt64_eq_wholePart, toInt64_eq_wholePart] at computed
  refine Option.some_inj.mp (computed.trans ?_)
  split_ifs <;> rfl

/-- The remainder of two numbers is that of their whole parts, as words of 64 bits leave it, and it fails only for a
divisor whose whole part is zero. It is exact and has the sign of the dividend, or it is the positive zero. Only a
dividend past 64 bits can leave a remainder with too many digits, which is rounded. -/
theorem modulo_numbers (x y : Binary64) :
    let a := x.wholePart
    let b := y.wholePart
    let r := a - b * a.tdiv b
    (modulo (number x) (number y) = .error .zeroDivisor ↔ b = 0) ∧
      (b = 0 ↔ y = nan ∨ ∃ q, y.value? = some q ∧ |q| < 1) ∧
      (b ≠ 0 → ∃ z, modulo (number x) (number y) = .ok (number z) ∧
        (¬x.Exceeds →
          z.value? = some (r : ℚ) ∧ |r| < |b| ∧ (r = 0 ∨ r.sign = a.sign) ∧ (r = 0 → z = zero false)) ∧
        (x.Exceeds → a = 2 ^ 63 - 1 ∧ Rounds false r z) ∧
        (Int64.ofInt a % Int64.ofInt b).toInt = r) := by
  intro a b r
  have remainder : r = a.tmod b := (Int.tmod_def a b).symm
  have answer := modulo_eq x y
  rw [remainder]
  refine ⟨?_, wholePart_eq_zero_iff, fun divisor => ⟨ofInt (a.tmod b), ?_, fun within => ⟨?_, ?_, ?_, ?_⟩, ?_, ?_⟩⟩
  · rw [answer]
    split_ifs with none <;> simpa using none
  · rw [answer, if_neg divisor]
  · exact value?_ofInt (representable_remainder within y)
  · exact x.abs_remainder_lt divisor
  · exact x.remainder_sign y
  · intro none
    rw [none, ofInt_zero]
  · exact fun exceeds => ⟨exceeds.wholePart_eq, exceeds.remainder_rounds y⟩
  · rw [Int64.toInt_mod, x.toInt_ofInt_wholePart, y.toInt_ofInt_wholePart]

/-- The least number with 64 bits leaves nothing when it is divided by minus one, and infinity counts as the
greatest. -/
theorem modulo_numbers_ends :
    modulo (number (ofBits 0xc3e0000000000000)) (number (ofBits 0xbff0000000000000)) = .ok (number (zero false)) ∧
      ∃ z, modulo (number (infinite false)) (number (ofBits 0x4024000000000000)) = .ok (number z) ∧
        Rounds false (7 : ℤ) z := by
  have least : (ofBits 0xc3e0000000000000).wholePart = -2 ^ 63 := by
    rw [← toInt64_eq_wholePart]
    decide +kernel
  have minusOne : (ofBits 0xbff0000000000000).wholePart = -1 := by
    rw [← toInt64_eq_wholePart]
    decide +kernel
  have ten : (ofBits 0x4024000000000000).wholePart = 10 := by
    rw [← toInt64_eq_wholePart]
    decide +kernel
  have within : ¬(ofBits 0xc3e0000000000000).Exceeds := by
    intro exceeds
    rw [exceeds.wholePart_eq] at least
    cases least
  have exceeds : (infinite false).Exceeds := .inl rfl
  constructor
  · have divisor : (ofBits 0xbff0000000000000).wholePart ≠ 0 := by rw [minusOne]; decide
    obtain ⟨z, answer, exact, _⟩ :=
      (modulo_numbers (ofBits 0xc3e0000000000000) (ofBits 0xbff0000000000000)).2.2 divisor
    have remainder := (exact within).2.2.2
    rw [least, minusOne] at remainder
    rw [answer, remainder (by decide)]
  · have divisor : (ofBits 0x4024000000000000).wholePart ≠ 0 := by rw [ten]; decide
    obtain ⟨z, answer, _, rounded, _⟩ := (modulo_numbers (infinite false) (ofBits 0x4024000000000000)).2.2 divisor
    have remainder := (rounded exceeds).2
    rw [exceeds.wholePart_eq, ten] at remainder
    exact ⟨z, answer, remainder⟩

end Value

end TaggedRuntime
