import Mathlib.Algebra.Order.Ring.Nat
import Mathlib.Algebra.Ring.Parity
import TaggedRuntime.Binary64.Basic

namespace TaggedRuntime.Binary64

/-- A magnitude that a double could hold if there were no largest one. -/
def OnGrid (units : Nat) : Prop := 2 ^ spread units ∣ units

/-- A magnitude on the grid without its power of two. -/
def significand (units : Nat) : Nat := units / 2 ^ spread units

/-- A whole number of the gaps `2 ^ k` reaches as far as a significand does where the gap is the
smallest, and elsewhere fills the binade of that gap. -/
def InBinade (m k : Nat) : Prop := m < 2 ^ 53 ∧ (k = 0 ∨ 2 ^ 52 ≤ m)

theorem spread_of_inBinade {m k : Nat} (binade : InBinade m k) : spread (m * 2 ^ k) = k := by
  obtain ⟨upper, rfl | lower⟩ := binade
  · rw [Nat.pow_zero, Nat.mul_one]
    by_cases small : m < 2 ^ 52
    · exact spread_of_lt small
    · exact spread_of_binade (by omega) (by omega)
  · exact spread_mul_two_pow lower upper

theorem inBinade_div (units : Nat) : InBinade (units / 2 ^ spread units) (spread units) := by
  by_cases small : units < 2 ^ 52
  · rw [spread_of_lt small, Nat.pow_zero, Nat.div_one]
    exact ⟨by omega, .inl rfl⟩
  · have nonzero : units ≠ 0 := by
      have := Nat.two_pow_pos 52
      omega
    have high : 52 ≤ units.log2 := (Nat.le_log2 nonzero).2 (by omega)
    have binade : units.log2 = 52 + spread units := by unfold spread; omega
    have lower := Nat.log2_self_le nonzero
    have upper := Nat.lt_log2_self (n := units)
    rw [binade] at lower upper
    refine ⟨?_, .inr ?_⟩
    · rw [Nat.div_lt_iff_lt_mul (Nat.two_pow_pos _), ← Nat.pow_add]
      exact upper.trans_eq (by congr 1; omega)
    · rwa [Nat.le_div_iff_mul_le (Nat.two_pow_pos _), ← Nat.pow_add]

theorem spread_mono {a b : Nat} (le : a ≤ b) : spread a ≤ spread b := by
  by_cases zero : a = 0
  · rw [zero, spread_of_lt (Nat.two_pow_pos 52)]
    exact Nat.zero_le _
  · have lower : 2 ^ a.log2 ≤ b := (Nat.log2_self_le zero).trans le
    have log := (Nat.le_log2 (by omega)).2 lower
    unfold spread
    omega

/-- The end of a binade is the beginning of the next one. -/
theorem carry_mul (k : Nat) : 2 ^ 53 * 2 ^ k = 2 ^ 52 * 2 ^ (k + 1) := by
  rw [Nat.pow_succ 2 k]
  omega

theorem onGrid_mul {m k : Nat} (most : m ≤ 2 ^ 53) : OnGrid (m * 2 ^ k) := by
  have le : spread (m * 2 ^ k) ≤ k ∨ m = 2 ^ 53 := by
    by_cases top : m = 2 ^ 53
    · exact .inr top
    · by_cases zero : m * 2 ^ k = 0
      · rw [zero, spread_of_lt (Nat.two_pow_pos 52)]
        exact .inl (Nat.zero_le _)
      · have below : m * 2 ^ k < 2 ^ (53 + k) := by
          rw [Nat.pow_add]
          exact Nat.mul_lt_mul_of_pos_right (by omega) (Nat.two_pow_pos k)
        have log := (Nat.log2_lt zero).2 below
        unfold spread
        omega
  rcases le with le | rfl
  · exact (Nat.pow_dvd_pow 2 le).trans (Nat.dvd_mul_left ..)
  · rw [carry_mul, OnGrid, spread_mul_two_pow (Nat.le_refl _) (by omega)]
    exact Nat.dvd_mul_left ..

theorem OnGrid.significand_mul {units : Nat} (onGrid : OnGrid units) :
    significand units * 2 ^ spread units = units := Nat.div_mul_cancel onGrid

theorem significand_mul {m k : Nat} (binade : InBinade m k) : significand (m * 2 ^ k) = m := by
  rw [significand, spread_of_inBinade binade, Nat.mul_div_cancel _ (Nat.two_pow_pos k)]

/-- The upper neighbour of a significand may carry into the next binade, and then both are even. -/
theorem even_significand_succ {m k : Nat} (binade : InBinade m k) :
    Even (significand ((m + 1) * 2 ^ k)) ↔ Even (m + 1) := by
  by_cases top : m + 1 = 2 ^ 53
  · have next : InBinade (2 ^ 52) (k + 1) := ⟨by decide, .inr (Nat.le_refl _)⟩
    rw [top, carry_mul, significand_mul next]
    decide
  · have same : InBinade (m + 1) k := ⟨by have := binade.1; omega, binade.2.imp_right (by omega)⟩
    rw [significand_mul same]

/-- Between neighbouring multiples of the gap lies no magnitude of the grid. -/
theorem OnGrid.not_between {m k other : Nat} (onGrid : OnGrid other) (binade : InBinade m k)
    (above : m * 2 ^ k < other) : (m + 1) * 2 ^ k ≤ other := by
  have wider : 2 ^ k ∣ other := by
    have mono := spread_mono above.le
    rw [spread_of_inBinade binade] at mono
    exact (Nat.pow_dvd_pow 2 mono).trans onGrid
  obtain ⟨n, rfl⟩ := wider
  rw [Nat.mul_comm (2 ^ k)] at above ⊢
  exact Nat.mul_le_mul_right _ (Nat.lt_of_mul_lt_mul_right above)

theorem OnGrid.le_of_lt_succ {m k other : Nat} (onGrid : OnGrid other) (binade : InBinade m k)
    (below : other < (m + 1) * 2 ^ k) : other ≤ m * 2 ^ k :=
  Nat.not_lt.mp fun above => below.not_ge (onGrid.not_between binade above)

theorem onGrid_of_dvd {units m k : Nat} (multiple : 2 ^ k ∣ units) (le : units ≤ m * 2 ^ k) (most : m ≤ 2 ^ 53) :
    OnGrid units := by
  obtain ⟨n, rfl⟩ := multiple
  rw [Nat.mul_comm] at le ⊢
  exact onGrid_mul ((Nat.le_of_mul_le_mul_right le (Nat.two_pow_pos k)).trans most)

theorem OnGrid.exists_significand {units : Nat} (onGrid : OnGrid units) :
    ∃ m ≤ 2 ^ 53, units = m * 2 ^ spread units :=
  ⟨significand units, (inBinade_div units).1.le, onGrid.significand_mul.symm⟩

/-- Without what is less than a power of two, a magnitude stays on the grid. -/
theorem OnGrid.whole {units : Nat} (onGrid : OnGrid units) (k : Nat) : OnGrid (units / 2 ^ k * 2 ^ k) := by
  by_cases wide : k ≤ spread units
  · rwa [Nat.div_mul_cancel ((Nat.pow_dvd_pow 2 wide).trans onGrid)]
  · obtain ⟨m, most, value⟩ := onGrid.exists_significand
    refine onGrid_mul ((Nat.div_le_of_le_mul ?_).trans most)
    calc
      units = m * 2 ^ spread units := value
      _ ≤ m * 2 ^ k := Nat.mul_le_mul_left m (Nat.pow_le_pow_right (by omega) (by omega))
      _ = 2 ^ k * m := Nat.mul_comm ..

/-- The remainder of two magnitudes needs no finer grid than the one of the two that is finer, and it is too small to
need more digits there. -/
theorem OnGrid.mod {a b : Nat} (left : OnGrid a) (right : OnGrid b) : OnGrid (a % b) := by
  rcases Nat.le_total (spread b) (spread a) with coarse | fine
  · rcases Nat.eq_zero_or_pos b with rfl | positive
    · rwa [Nat.mod_zero]
    · obtain ⟨m, most, value⟩ := right.exists_significand
      have multiple : 2 ^ spread b ∣ a % b :=
        (Nat.dvd_mod_iff right).mpr ((Nat.pow_dvd_pow 2 coarse).trans left)
      exact onGrid_of_dvd multiple (value ▸ (Nat.mod_lt a positive).le) most
  · obtain ⟨m, most, value⟩ := left.exists_significand
    have multiple : 2 ^ spread a ∣ a % b :=
      (Nat.dvd_mod_iff ((Nat.pow_dvd_pow 2 fine).trans right)).mpr left
    exact onGrid_of_dvd multiple (value ▸ Nat.mod_le a b) most

end TaggedRuntime.Binary64
