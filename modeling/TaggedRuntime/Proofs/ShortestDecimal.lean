import Mathlib.Tactic.Linarith
import TaggedRuntime.Proofs.GridSearch
import TaggedRuntime.Proofs.Numeral
import TaggedRuntime.Proofs.Significant

namespace TaggedRuntime.Decimal

variable {accepts : Nat → Bool} {value grid found : Nat}

/-- What reads back as a value that is not zero: an interval of numbers around it, of which the search
sees the whole ones. -/
structure Interval (accepts : Nat → Bool) (Reads : ℚ → Prop) (value : Nat) : Prop where
  agrees : ∀ n : Nat, accepts n = true ↔ Reads n
  between : ∀ {a b c : ℚ}, Reads a → Reads c → a ≤ b → b ≤ c → Reads b
  value : Reads value
  not_zero : ¬Reads 0

namespace Interval

variable {Reads : ℚ → Prop} {r : ℚ} {top exponent : Nat}

theorem value_pos (interval : Interval accepts Reads value) : 0 < value := by
  refine Nat.pos_of_ne_zero ?_
  rintro rfl
  exact interval.not_zero (Nat.cast_zero (R := ℚ) ▸ interval.value)

theorem reads_of_ge (interval : Interval accepts Reads value) {n : Nat} (reads : Reads r) (above : r ≤ n)
    (le : n ≤ value) : Reads n :=
  interval.between reads interval.value above (Nat.cast_le.mpr le)

theorem reads_of_le (interval : Interval accepts Reads value) {n : Nat} (reads : Reads r) (below : n ≤ r)
    (ge : value ≤ n) : Reads n :=
  interval.between interval.value reads (Nat.cast_le.mpr ge) below

/-- Where neither neighbour on a grid reads back, all that does lies strictly between them. -/
theorem within_cell (interval : Interval accepts Reads value) (positive : 0 < grid)
    (none : neighbour? accepts value grid = none) (reads : Reads r) :
    ((value / grid * grid : Nat) : ℚ) < r ∧ r < (value / grid * grid + grid : Nat) := by
  obtain ⟨lower, upper⟩ := neighbour?_eq_none none
  constructor
  · by_contra below
    have accepted := interval.reads_of_ge reads (not_lt.mp below) (Nat.div_mul_le_self value grid)
    rw [← interval.agrees, lower] at accepted
    cases accepted
  · by_contra above
    have accepted := interval.reads_of_le reads (not_lt.mp above) (Nat.lt_div_mul_add positive).le
    rw [← interval.agrees, upper] at accepted
    cases accepted

theorem not_reads_of_dvd (interval : Interval accepts Reads value) (positive : 0 < grid)
    (none : neighbour? accepts value grid = none) {other : Nat} (multiple : grid ∣ other) : ¬Reads other := by
  intro reads
  obtain ⟨lower, upper⟩ := interval.within_cell positive none reads
  rw [Nat.cast_lt] at lower upper
  rcases le_or_ge_of_dvd value multiple with le | ge <;> omega

/-- Nothing that reads back is nearer than the neighbour chosen, unless it is off the grid and between
the neighbours. -/
theorem nearest_of_outside (interval : Interval accepts Reads value) (positive : 0 < grid)
    (some : neighbour? accepts value grid = some found) (reads : Reads r)
    (outside : r ≤ (value / grid * grid : Nat) ∨ ((value / grid * grid + grid : Nat) : ℚ) ≤ r) :
    |(found : ℚ) - value| ≤ |r - value| := by
  have lower := Nat.div_mul_le_self value grid
  have upper : value ≤ value / grid * grid + grid := (Nat.lt_div_mul_add positive).le
  have chosen := neighbour?_eq_some some
  generalize value / grid * grid = low at *
  have lowerCast : (low : ℚ) ≤ value := Nat.cast_le.mpr lower
  have upperCast : (value : ℚ) ≤ (low + grid : Nat) := Nat.cast_le.mpr upper
  rcases chosen with ⟨rfl, _, nearer⟩ | ⟨rfl, _, nearer⟩
  · rw [abs_of_nonpos (by linarith), le_abs]
    rcases outside with below | above
    · exact .inr (by linarith)
    · have distance := nearer ((interval.agrees _).mpr (interval.reads_of_le reads above upper))
      have cast : (value + value : ℚ) < (found + grid : Nat) + found := by exact_mod_cast (by omega)
      exact .inl (by linarith)
  · rw [abs_of_nonneg (by linarith), le_abs]
    rcases outside with below | above
    · have distance := nearer ((interval.agrees _).mpr (interval.reads_of_ge reads below lower))
      have cast : ((low + grid : Nat) + low : ℚ) ≤ value + value := by exact_mod_cast (by omega)
      exact .inr (by linarith)
    · exact .inl (by linarith)

/-- A decimal is a multiple of a grid or written on a finer one. -/
theorem multiple_or_finer {c a b : Nat} (scaled : r * 10 ^ b = c * 10 ^ a) (exponent : Nat) :
    (∃ n : Nat, r = (n * 10 ^ exponent : Nat)) ∨ ∃ e, r * 10 ^ (e + 1) = c * 10 ^ exponent := by
  rcases Nat.lt_or_ge a (b + exponent) with fine | coarse
  · obtain ⟨e, sum⟩ := Nat.exists_eq_add_of_lt fine
    refine .inr ⟨e, mul_right_cancel₀ (b := (10 : ℚ) ^ b) (pow_ne_zero b (by norm_num)) ?_⟩
    calc
      r * 10 ^ (e + 1) * 10 ^ b = r * 10 ^ b * 10 ^ (e + 1) := by ring
      _ = c * 10 ^ (a + e + 1) := by rw [scaled]; ring
      _ = c * 10 ^ exponent * 10 ^ b := by rw [← sum]; ring
  · obtain ⟨z, rfl⟩ := Nat.exists_eq_add_of_le coarse
    refine .inl ⟨c * 10 ^ z, mul_right_cancel₀ (pow_ne_zero b (by norm_num)) (scaled.trans ?_)⟩
    push_cast
    ring

theorem nearest_of_dvd (interval : Interval accepts Reads value) (positive : 0 < grid)
    (some : neighbour? accepts value grid = some found) {other : Nat} (reads : Reads other)
    (multiple : grid ∣ other) : |(found : ℚ) - value| ≤ |(other : ℚ) - value| :=
  interval.nearest_of_outside positive some reads <|
    (le_or_ge_of_dvd value multiple).imp Nat.cast_le.mpr Nat.cast_le.mpr

/-- A number above a multiple of a grid needs the digits of the factor, and one more for each grid it is
finer. -/
theorem exists_digits {u c e k : Nat} (positive : 0 < u) (finer : r * 10 ^ (e + 1) = c * 10 ^ exponent)
    (lower : ((u * 10 ^ exponent : Nat) : ℚ) < r) (upper : c < 10 ^ k) : ∃ m, k = e + 1 + m ∧ u < 10 ^ m := by
  have cast : ((u * 10 ^ (e + 1) * 10 ^ exponent : Nat) : ℚ) < (c * 10 ^ exponent : Nat) := by
    push_cast at lower ⊢
    calc
      (u * 10 ^ (e + 1) * 10 ^ exponent : ℚ) = u * 10 ^ exponent * 10 ^ (e + 1) := by ring
      _ < r * 10 ^ (e + 1) := mul_lt_mul_of_pos_right lower (by positivity)
      _ = c * 10 ^ exponent := finer
  have bound : u * 10 ^ (e + 1) < 10 ^ k := (Nat.lt_of_mul_lt_mul_right (Nat.cast_lt.mp cast)).trans upper
  have lt : e + 1 < k :=
    (Nat.pow_lt_pow_iff_right (by omega)).mp ((Nat.le_mul_of_pos_left _ positive).trans_lt bound)
  obtain ⟨m, rfl⟩ := Nat.exists_eq_add_of_le lt.le
  rw [Nat.pow_add 10 (e + 1), Nat.mul_comm] at bound
  exact ⟨m, rfl, Nat.lt_of_mul_lt_mul_left bound⟩

/-- Above a grid with nothing that reads back, all that does share the digits of one cell, and a number
with no more digits than the one found lies on the grid of that one. -/
theorem minimal_of_lt (interval : Interval accepts Reads value) (ended : Ended accepts value top exponent found)
    (high : 10 ^ top ≤ value) (lt : exponent < top) {c a b k : Nat} (less : c < 10 ^ k)
    (scaled : r * 10 ^ b = c * 10 ^ a) (reads : Reads r) :
    significant found ≤ k ∧ (significant found = k → |(found : ℚ) - value| ≤ |r - value|) := by
  have none := ended.coarser (exponent + 1) (Nat.lt_succ_self _) lt
  rcases multiple_or_finer scaled (exponent + 1) with ⟨n, multiple⟩ | ⟨e, finer⟩
  · exact absurd (multiple ▸ reads) (interval.not_reads_of_dvd (ten_pow_pos _) none (Nat.dvd_mul_left ..))
  · have nonzero : 0 < value / 10 ^ (exponent + 1) :=
      Nat.div_pos ((Nat.pow_le_pow_right (by omega) lt).trans high) (ten_pow_pos _)
    have lower := (interval.within_cell (ten_pow_pos _) none reads).1
    obtain ⟨m, rfl, fits⟩ := exists_digits nonzero finer lower less
    obtain ⟨n, rfl, next⟩ := neighbour?_factor ended.found
    have few : significant (n * 10 ^ exponent) ≤ m + 1 := by
      refine significant_mul_le ?_ (Nat.succ_pos m)
      rw [Nat.pow_succ, ← Nat.div_div_eq_div_mul] at fits
      rw [Nat.pow_succ]
      omega
    refine ⟨by omega, fun same => ?_⟩
    obtain rfl : e = 0 := by omega
    have onGrid : r = (c * 10 ^ exponent : Nat) := by
      push_cast
      exact mul_right_cancel₀ (b := (10 : ℚ)) (by norm_num) (by simpa [pow_succ, mul_assoc] using finer)
    subst onGrid
    exact interval.nearest_of_dvd (ten_pow_pos _) ended.found reads (Nat.dvd_mul_left ..)

/-- On the grid that leaves one digit there is nothing to save, and a number off it with one digit is
below all of it. -/
theorem minimal_of_top (interval : Interval accepts Reads value) (ended : Ended accepts value top top found)
    (high : 10 ^ top ≤ value) (low : value < 10 ^ (top + 1)) {c a b k : Nat} (less : c < 10 ^ k) (some : 0 < k)
    (scaled : r * 10 ^ b = c * 10 ^ a) (reads : Reads r) :
    significant found ≤ k ∧ (significant found = k → |(found : ℚ) - value| ≤ |r - value|) := by
  obtain ⟨n, rfl, next⟩ := neighbour?_factor ended.found
  have digit : value / 10 ^ top < 10 := by
    rwa [Nat.div_lt_iff_lt_mul (ten_pow_pos top), ← Nat.pow_succ']
  have few : significant (n * 10 ^ top) ≤ 1 := significant_mul_le (by omega) Nat.one_pos
  refine ⟨by omega, fun same => ?_⟩
  obtain rfl : k = 1 := by omega
  rcases multiple_or_finer scaled top with ⟨m, multiple⟩ | ⟨e, finer⟩
  · subst multiple
    exact interval.nearest_of_dvd (ten_pow_pos top) ended.found reads (Nat.dvd_mul_left ..)
  · refine interval.nearest_of_outside (ten_pow_pos top) ended.found reads (.inl ?_)
    by_contra above
    obtain ⟨m, one, fits⟩ := exists_digits (Nat.div_pos high (ten_pow_pos top)) finer (not_le.mp above) less
    obtain rfl : m = 0 := by omega
    exact absurd fits (Nat.not_lt.mpr (Nat.div_pos high (ten_pow_pos top)))

/-- No decimal that reads back has fewer digits than the number found, and none with as many is nearer. -/
theorem shortest_minimal (interval : Interval accepts Reads value) {d : Decimal} {scale : Nat}
    (reads : Reads (d.toRat * 10 ^ scale)) :
    significant (shortest accepts value) ≤ significant d.coefficient ∧
      (significant (shortest accepts value) = significant d.coefficient →
        |(shortest accepts value : ℚ) - value| ≤ |d.toRat * 10 ^ scale - value|) := by
  obtain ⟨high, low⟩ := toDigits_bounds interval.value_pos
  obtain ⟨exponent, ended⟩ := shortest_ended ((interval.agrees value).mpr interval.value)
  obtain ⟨c, z, coefficient, less⟩ := significant_le_iff.mp (le_refl (significant d.coefficient))
  have scaled : d.toRat * 10 ^ scale * 10 ^ d.places = c * 10 ^ (z + scale) := by
    rw [toRat, coefficient, mul_right_comm, div_mul_cancel₀ _ (by positivity)]
    push_cast
    ring
  have nonzero : d.coefficient ≠ 0 := by
    intro zero
    rw [toRat, zero, Nat.cast_zero, zero_div, zero_mul] at reads
    exact interval.not_zero reads
  rcases Nat.lt_or_eq_of_le ended.le with lt | rfl
  · exact interval.minimal_of_lt ended high lt less scaled reads
  · exact interval.minimal_of_top ended high low less (significant_pos nonzero) scaled reads

end Interval

end TaggedRuntime.Decimal
