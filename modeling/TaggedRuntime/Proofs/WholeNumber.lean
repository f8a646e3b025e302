import TaggedRuntime.Proofs.NumberText

namespace TaggedRuntime.Binary64

variable {k m : Nat}

theorem exists_one_eq : ∃ e ≤ 2034, one = 2 ^ e := ⟨1074, by omega, by unfold one; rfl⟩

theorem onGrid_whole (le : k ≤ 2 ^ 53) : OnGrid (k * one) := by
  obtain ⟨e, _, power⟩ := exists_one_eq
  rw [power]
  exact onGrid_mul le

theorem whole_lt_limit (le : k ≤ 2 ^ 63) : k * one < limit := by
  obtain ⟨e, small, power⟩ := exists_one_eq
  calc
    k * one ≤ 2 ^ 63 * 2 ^ e := power ▸ Nat.mul_le_mul_right _ le
    _ < 2 ^ (64 + e) := by rw [← Nat.pow_add]; exact Nat.pow_lt_pow_right (by omega) (by omega)
    _ ≤ limit := two_pow_le_limit (by omega)

/-- Up to `2 ^ 53` every whole number is a double. -/
theorem representable_whole (le : k ≤ 2 ^ 53) : Representable (k * one) :=
  ⟨whole_lt_limit (le.trans (Nat.pow_le_pow_right (by omega) (by omega))), onGrid_whole le⟩

theorem ofQuotient_of_nearest (negative : Bool) {num den units : Nat} (same : nearest num den = units)
    (representable : Representable units) : ofQuotient negative num den = .finite negative units representable := by
  subst same
  exact dif_pos representable.1

/-- A whole number that a double can hold is not rounded. -/
theorem ofInt_exact {n : Int} (representable : Representable (n.natAbs * one)) :
    ofInt n = .finite (n < 0) (n.natAbs * one) representable := by
  have same : nearest (n.natAbs * one) 1 = n.natAbs * one := by
    rw [nearest_eq_iff Nat.one_pos, Nat.cast_one, div_one]
    exact .self representable.2
  rw [ofInt, ofQuotient_of_nearest _ same]

theorem ofInt_whole {n : Int} (le : n.natAbs ≤ 2 ^ 53) :
    ofInt n = .finite (n < 0) (n.natAbs * one) (representable_whole le) := ofInt_exact _

theorem Nearest.whole_le (near : Nearest ((m * one : Nat) : ℚ) (k * one)) {n : Nat} (onGrid : OnGrid (n * one))
    (lt : k < n) : 2 * m ≤ k + n := by
  have middle := near.midpoint_above onGrid (Nat.mul_lt_mul_of_pos_right lt one_pos)
  have steps : 2 * (m * one) ≤ k * one + n * one := by exact_mod_cast middle
  rw [← Nat.mul_assoc, ← Nat.add_mul] at steps
  exact Nat.le_of_mul_le_mul_right steps one_pos

/-- Up to `2 ^ 53` only a whole number itself rounds to it among the whole ones, but for the one after `2 ^ 53`. -/
theorem Nearest.whole (near : Nearest ((m * one : Nat) : ℚ) (k * one)) (le : k ≤ 2 ^ 53) :
    m = k ∨ k = 2 ^ 53 ∧ m = 2 ^ 53 + 1 := by
  by_cases small : m ≤ 2 ^ 53
  · have same : m * one = k * one := (Nearest.self (onGrid_whole small)).unique near
    exact .inl (Nat.eq_of_mul_eq_mul_right one_pos same)
  · have top : k = 2 ^ 53 := by
      by_contra below
      have bound := near.whole_le (onGrid_whole le_rfl) (by omega)
      omega
    have next : OnGrid ((2 ^ 53 + 2) * one) := by
      obtain ⟨e, _, power⟩ := exists_one_eq
      have even : (2 ^ 53 + 2) * 2 ^ e = (2 ^ 52 + 1) * 2 ^ (e + 1) := by rw [Nat.pow_succ 2 e]; omega
      rw [power, even]
      exact onGrid_mul (by omega)
    have bound := near.whole_le next (by omega)
    exact .inr ⟨top, by omega⟩

theorem ten_pow_places (units : Nat) : 10 ^ (decimal units).places = one * fives := by rw [one_mul_fives, decimal]

/-- The search for the shortest decimal keeps a whole number: the one it could take for `2 ^ 53` has as many digits. -/
theorem decimal_whole (le : k ≤ 2 ^ 53) :
    (decimal (k * one)).coefficient = k * 10 ^ (decimal (k * one)).places := by
  have onGrid := onGrid_whole le
  obtain ⟨m, found⟩ := (decimal_whole_iff onGrid).mpr
    ⟨k, by rw [Nat.cast_mul, mul_div_cancel_right₀ _ cast_one_ne_zero]⟩
  rw [Nat.mul_comm _ m] at found
  have near : Nearest ((m * one : Nat) : ℚ) (k * one) := by
    have nearest := decimal_nearest onGrid
    rwa [found, ten_pow_places, ← Nat.mul_assoc, Nat.cast_mul _ fives,
      mul_div_cancel_right₀ _ cast_fives_ne_zero] at nearest
  rcases near.whole le with rfl | ⟨top, next⟩
  · exact found
  · have interval := readsBack_interval onGrid (Nat.mul_ne_zero (by omega) one_pos.ne')
    have whole : (Decimal.mk k 0).toRat * 10 ^ 1074 = (k * one * fives : Nat) := by
      rw [Decimal.toRat, pow_zero, div_one, ten_pow_eq, Nat.mul_assoc, Nat.cast_mul, Nat.cast_mul]
    have reads : Nearest ((Decimal.mk k 0).toRat * 10 ^ 1074 / fives) (k * one) := by
      rw [whole]
      exact interval.value
    have closest := (interval.shortest_minimal reads).2
    rw [whole, sub_self, abs_zero] at closest
    have digits : Decimal.significant (decimal (k * one)).coefficient = Decimal.significant k := by
      rw [found, Decimal.significant_mul_pow, next, top]
      decide +kernel
    have same : (decimal (k * one)).coefficient = k * one * fives :=
      Nat.cast_injective (eq_of_abs_sub_nonpos (closest digits))
    rw [same, ten_pow_places, Nat.mul_assoc]

theorem digits_whole (le : k ≤ 2 ^ 53) : (decimal (k * one)).digits = Nat.toDigits 10 k := by
  have positive := Decimal.ten_pow_pos (decimal (k * one)).places
  have fraction : Decimal.fractionDigits (decimal (k * one)).places 0 = [] :=
    (Decimal.fractionDigits_eq_nil_iff positive).mpr rfl
  rw [Decimal.digits, decimal_whole le, Nat.mul_mod_left, Nat.mul_div_cancel _ positive, fraction]

/-- Up to `2 ^ 53` a whole number is printed as the number itself. -/
theorem text_ofInt {n : Int} (le : n.natAbs ≤ 2 ^ 53) : (ofInt n).text = String.ofList (Decimal.ofInt n) := by
  rw [ofInt_whole le, text, digits_whole le, Decimal.ofInt]

end TaggedRuntime.Binary64
