namespace TaggedRuntime

-- powers of whole numbers are the core library's, whatever is imported with it
attribute [local instance (high)] instPowNat

namespace Binary64

/-- Doubles around a magnitude of so many steps lie `2 ^ spread` steps apart: a significand has 53 bits. -/
def spread (units : Nat) : Nat := units.log2 - 52

/-- The first power of two past the finite doubles, in steps of `2 ^ -1074`. -/
def limit : Nat := 2 ^ (2098 : Nat)

/-- A magnitude, counted in steps of `2 ^ -1074`, that a double can hold. -/
def Representable (units : Nat) : Prop := units < limit ∧ 2 ^ spread units ∣ units

instance (units : Nat) : Decidable (Representable units) :=
  inferInstanceAs (Decidable (units < limit ∧ 2 ^ spread units ∣ units))

theorem two_pow_le_limit {k : Nat} (exponent : k ≤ 2098) : 2 ^ k ≤ limit := by
  obtain ⟨rest, sum⟩ := Nat.exists_eq_add_of_le exponent
  rw [limit, sum, Nat.pow_add]
  exact Nat.le_mul_of_pos_right _ (Nat.two_pow_pos _)

theorem spread_of_lt {units : Nat} (small : units < 2 ^ (52 : Nat)) : spread units = 0 := by
  unfold spread
  by_cases zero : units = 0
  · simp [zero]
  · have := (Nat.log2_lt zero).2 small
    omega

theorem spread_of_binade {units k : Nat} (lower : 2 ^ (52 + k) ≤ units) (upper : units < 2 ^ (53 + k)) :
    spread units = k := by
  have positive : units ≠ 0 := by
    have := Nat.two_pow_pos (52 + k)
    omega
  have below := (Nat.log2_lt positive).2 upper
  have above := (Nat.le_log2 positive).2 lower
  unfold spread
  omega

theorem representable_of_lt {units : Nat} (small : units < 2 ^ (52 : Nat)) : Representable units := by
  refine ⟨Nat.lt_of_lt_of_le small (two_pow_le_limit (by decide)), ?_⟩
  simp [spread_of_lt small]

theorem representable_zero : Representable 0 := representable_of_lt (by decide)

/-- A whole multiple of `2 ^ k` with a 53-bit factor sits in the binade of gap `2 ^ k`. -/
theorem spread_mul_two_pow {significand k : Nat} (lower : 2 ^ (52 : Nat) ≤ significand) (upper : significand < 2 ^ (53 : Nat)) :
    spread (significand * 2 ^ k) = k := by
  apply spread_of_binade
  · rw [Nat.pow_add]
    exact Nat.mul_le_mul_right _ lower
  · rw [Nat.pow_add]
    exact Nat.mul_lt_mul_of_pos_right upper (Nat.two_pow_pos k)

/-- The quotient rounded to a whole number, a half to the even neighbour. -/
def roundQuotient (num den : Nat) : Nat :=
  let quotient := num / den
  let twice := 2 * (num % den)
  if twice < den ∨ twice = den ∧ quotient % 2 = 0 then quotient else quotient + 1

theorem roundQuotient_bounds (num den : Nat) :
    num / den ≤ roundQuotient num den ∧ roundQuotient num den ≤ num / den + 1 := by
  unfold roundQuotient
  dsimp only
  split <;> omega

/-- The quotient, in steps, rounded to the doubles' grid without an upper end; a tie goes to the
neighbour with the even significand. -/
def nearest (num den : Nat) : Nat :=
  let gap := 2 ^ spread (num / den)
  roundQuotient num (den * gap) * gap

theorem nearest_dvd (num den : Nat) : 2 ^ spread (nearest num den) ∣ nearest num den := by
  have bounds := roundQuotient_bounds num (den * 2 ^ spread (num / den))
  rw [← Nat.div_div_eq_div_mul] at bounds
  unfold nearest
  dsimp only
  generalize roundQuotient num (den * 2 ^ spread (num / den)) = rounded at bounds ⊢
  generalize num / den = whole at bounds ⊢
  by_cases small : whole < 2 ^ (52 : Nat)
  · rw [spread_of_lt small] at bounds ⊢
    simp only [Nat.pow_zero, Nat.div_one, Nat.mul_one] at bounds ⊢
    by_cases less : rounded < 2 ^ (52 : Nat)
    · simp [spread_of_lt less]
    · have top : rounded = 2 ^ (52 : Nat) := by omega
      rw [top]
      decide
  · have nonzero : whole ≠ 0 := by
      have := Nat.two_pow_pos 52
      omega
    have high : 52 ≤ whole.log2 := (Nat.le_log2 nonzero).2 (by omega)
    have binade : whole.log2 = 52 + spread whole := by unfold spread; omega
    have lower : 2 ^ (52 + spread whole) ≤ whole := binade ▸ Nat.log2_self_le nonzero
    have upper : whole < 2 ^ (53 + spread whole) := by
      have := Nat.lt_log2_self (n := whole)
      rwa [binade, show 52 + spread whole + 1 = 53 + spread whole by omega] at this
    generalize spread whole = k at bounds lower upper ⊢
    have least : 2 ^ (52 : Nat) ≤ whole / 2 ^ k :=
      (Nat.le_div_iff_mul_le (Nat.two_pow_pos k)).2 (by rwa [← Nat.pow_add])
    have most : whole / 2 ^ k < 2 ^ (53 : Nat) :=
      (Nat.div_lt_iff_lt_mul (Nat.two_pow_pos k)).2 (by rwa [← Nat.pow_add])
    by_cases carry : rounded = 2 ^ (53 : Nat)
    · have split : rounded * 2 ^ k = 2 ^ (52 : Nat) * 2 ^ (k + 1) := by
        rw [carry, Nat.pow_succ 2 k]
        omega
      rw [split, spread_mul_two_pow (Nat.le_refl _) (by decide)]
      exact Nat.dvd_mul_left ..
    · rw [spread_mul_two_pow (by omega) (by omega)]
      exact Nat.dvd_mul_left ..

end Binary64

/-- A double: one not-a-number, the two infinities, and the finite values as a sign and a magnitude in
steps of `2 ^ -1074`. Zero has both signs. -/
inductive Binary64
  | nan
  | infinite (negative : Bool)
  | finite (negative : Bool) (units : Nat) (representable : Binary64.Representable units)
  deriving DecidableEq

namespace Binary64

/-- The double nearest to a quotient given in steps; past the largest finite one, infinity. -/
def ofQuotient (negative : Bool) (num den : Nat) : Binary64 :=
  if bounded : nearest num den < limit then
    .finite negative (nearest num den) ⟨bounded, nearest_dvd num den⟩
  else
    .infinite negative

/-- The steps of the number one. -/
def one : Nat := 2 ^ (1074 : Nat)

def ofInt (n : Int) : Binary64 := ofQuotient (n < 0) (n.natAbs * one) 1

end Binary64

end TaggedRuntime
