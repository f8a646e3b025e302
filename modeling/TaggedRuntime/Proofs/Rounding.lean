import Mathlib.Tactic.LinearCombination
import TaggedRuntime.Proofs.Nearest

namespace TaggedRuntime.Binary64

/-- Rounding a quotient gives what is nearest to it. -/
theorem nearest_spec (num : Nat) {den : Nat} (positive : 0 < den) : Nearest ((num : ℚ) / den) (nearest num den) := by
  have binade := inBinade_div (num / den)
  simp only [nearest, roundQuotient, ← Nat.div_div_eq_div_mul]
  generalize spread (num / den) = k at binade ⊢
  have whole : den * 2 ^ k * (num / den / 2 ^ k) + num % (den * 2 ^ k) = num := by
    rw [Nat.div_div_eq_div_mul, Nat.div_add_mod]
  generalize num / den / 2 ^ k = m at binade whole ⊢
  have less : num % (den * 2 ^ k) < den * 2 ^ k := Nat.mod_lt _ (Nat.mul_pos positive (Nat.two_pow_pos k))
  generalize num % (den * 2 ^ k) = rest at whole less ⊢
  subst whole
  have nonzero : (0 : ℚ) < den := Nat.cast_pos.mpr positive
  obtain ⟨part, scaled⟩ : ∃ part : ℚ, part * den = rest := ⟨rest / den, div_mul_cancel₀ _ nonzero.ne'⟩
  have quotient : ((den * 2 ^ k * m + rest : Nat) : ℚ) / den = (m * 2 ^ k : Nat) + part := by
    rw [div_eq_iff nonzero.ne']
    push_cast
    linear_combination -scaled
  have upper : (((m + 1) * 2 ^ k : Nat) : ℚ) = (m * 2 ^ k : Nat) + 2 ^ k := by
    push_cast
    ring
  have nonnegative : 0 ≤ part := nonneg_of_mul_nonneg_left (scaled ▸ Nat.cast_nonneg rest) nonzero
  have within : part < 2 ^ k := by
    have cast : (rest : ℚ) < den * 2 ^ k := by exact_mod_cast less
    nlinarith
  rw [quotient]
  split
  · rename_i down
    rcases down with lt | ⟨eq, evenDigit⟩
    · have cast : (2 * rest : ℚ) < den * 2 ^ k := by exact_mod_cast lt
      have half : 2 * part < 2 ^ k := by nlinarith
      exact .of_lower binade (by linarith) (by linarith) (by intro middle; linarith)
    · have cast : (2 * rest : ℚ) = den * 2 ^ k := by exact_mod_cast eq
      have half : 2 * part = 2 ^ k := mul_right_cancel₀ nonzero.ne' (by linarith)
      exact .of_lower binade (by linarith) (by linarith) fun _ => Nat.even_iff.mpr evenDigit
  · rename_i up
    have cast : (den * 2 ^ k : ℚ) ≤ 2 * rest := by
      exact_mod_cast Nat.not_lt.mp fun lt => up (.inl lt)
    have half : 2 ^ k ≤ 2 * part := le_of_mul_le_mul_right (by linarith) nonzero
    refine .of_upper binade (by linarith) (by linarith) ?_
    intro middle
    have eq : 2 * rest = den * 2 ^ k := by
      have cast : (2 * rest : ℚ) = den * 2 ^ k := by
        rw [← scaled]
        linear_combination den * (middle + upper)
      exact_mod_cast cast
    exact (Nat.not_even_iff_odd.mp fun evenDigit => up (.inr ⟨eq, Nat.even_iff.mp evenDigit⟩)).add_one

theorem nearest_eq_iff {num den units : Nat} (positive : 0 < den) :
    nearest num den = units ↔ Nearest ((num : ℚ) / den) units :=
  ⟨fun same => same ▸ nearest_spec num positive, fun near => (nearest_spec num positive).unique near⟩

/-- The double that a signed number reads as: the nearest one, as if there were no largest, and infinity
where that is past the finite ones. The sign is given apart since zero has both. -/
inductive Rounds (negative : Bool) (q : ℚ) : Binary64 → Prop
  | finite {units} (representable : Representable units) :
      Nearest (q * one) units → Rounds negative q (.finite negative units representable)
  | infinite {units} : limit ≤ units → Nearest (q * one) units → Rounds negative q (.infinite negative)

theorem Rounds.unique {negative : Bool} {q : ℚ} {x y : Binary64} (left : Rounds negative q x)
    (right : Rounds negative q y) : x = y := by
  cases left with
  | finite representable near =>
    cases right with
    | finite _ other => cases near.unique other; rfl
    | infinite past other =>
      cases near.unique other
      exact absurd representable.1 past.not_gt
  | infinite past near =>
    cases right with
    | finite representable other =>
      cases near.unique other
      exact absurd representable.1 past.not_gt
    | infinite _ _ => rfl

theorem ofQuotient_rounds (negative : Bool) (num : Nat) {den : Nat} (positive : 0 < den) {q : ℚ}
    (steps : q * one = (num : ℚ) / den) : Rounds negative q (ofQuotient negative num den) := by
  have near := steps ▸ nearest_spec num positive
  unfold ofQuotient
  split
  · exact .finite _ near
  · rename_i past
    exact .infinite (Nat.not_lt.mp past) near

end TaggedRuntime.Binary64
