import Mathlib.Algebra.Order.Field.Rat
import Mathlib.Algebra.Order.Ring.Abs
import Mathlib.Tactic.Linarith
import Mathlib.Tactic.Ring
import TaggedRuntime.Proofs.Grid

namespace TaggedRuntime.Binary64

/-- The magnitude nearest to a number, both counted in steps. Of two as near it is the one with the even
significand. -/
structure Nearest (q : ℚ) (units : Nat) : Prop where
  onGrid : OnGrid units
  least : ∀ other, OnGrid other → |q - units| ≤ |q - other|
  even : ∀ other, OnGrid other → other ≠ units → |q - units| = |q - other| → Even (significand units)

theorem abs_sub_le_iff_of_lt {q a b : ℚ} (lt : a < b) : |q - a| ≤ |q - b| ↔ 2 * q ≤ a + b := by
  rw [← sq_le_sq]
  constructor
  · intro near
    nlinarith
  · intro below
    nlinarith

theorem abs_sub_ge_iff_of_lt {q a b : ℚ} (lt : a < b) : |q - b| ≤ |q - a| ↔ a + b ≤ 2 * q := by
  rw [← sq_le_sq]
  constructor
  · intro near
    nlinarith
  · intro above
    nlinarith

theorem abs_sub_eq_iff_of_lt {q a b : ℚ} (lt : a < b) : |q - a| = |q - b| ↔ 2 * q = a + b := by
  rw [le_antisymm_iff, abs_sub_le_iff_of_lt lt, abs_sub_ge_iff_of_lt lt, ← le_antisymm_iff]

namespace Nearest

variable {p q r : ℚ} {u v : Nat}

theorem midpoint_below (near : Nearest q u) {other : Nat} (onGrid : OnGrid other) (lt : other < u) :
    (other : ℚ) + u ≤ 2 * q :=
  (abs_sub_ge_iff_of_lt (Nat.cast_lt.mpr lt)).mp (near.least other onGrid)

theorem midpoint_above (near : Nearest q u) {other : Nat} (onGrid : OnGrid other) (lt : u < other) :
    2 * q ≤ u + other :=
  (abs_sub_le_iff_of_lt (Nat.cast_lt.mpr lt)).mp (near.least other onGrid)

/-- The numbers that round to one magnitude form an interval. -/
theorem between (lower : Nearest p u) (upper : Nearest r u) (above : p ≤ q) (below : q ≤ r) :
    Nearest q u := by
  refine ⟨lower.onGrid, ?_, ?_⟩
  · intro other onGrid
    rcases Nat.lt_trichotomy other u with lt | rfl | gt
    · have middle := lower.midpoint_below onGrid lt
      exact (abs_sub_ge_iff_of_lt (Nat.cast_lt.mpr lt)).mpr (by linarith)
    · exact le_rfl
    · have middle := upper.midpoint_above onGrid gt
      exact (abs_sub_le_iff_of_lt (Nat.cast_lt.mpr gt)).mpr (by linarith)
  · intro other onGrid different tie
    rcases Nat.lt_or_gt_of_ne different with lt | gt
    · have middle := lower.midpoint_below onGrid lt
      have atMiddle := (abs_sub_eq_iff_of_lt (Nat.cast_lt.mpr lt)).mp tie.symm
      have same : p = q := by linarith
      exact lower.even other onGrid different (same ▸ tie)
    · have middle := upper.midpoint_above onGrid gt
      have atMiddle := (abs_sub_eq_iff_of_lt (Nat.cast_lt.mpr gt)).mp tie
      have same : r = q := by linarith
      exact upper.even other onGrid different (same ▸ tie)

theorem self (onGrid : OnGrid u) : Nearest u u := by
  refine ⟨onGrid, ?_, ?_⟩
  · intro other _
    rw [sub_self, abs_zero]
    exact abs_nonneg _
  · intro other _ different tie
    rw [sub_self, abs_zero, eq_comm, abs_eq_zero, sub_eq_zero, Nat.cast_inj] at tie
    exact absurd tie.symm different

theorem not_lt (left : Nearest q u) (right : Nearest q v) : ¬u < v := by
  intro lt
  have binade := inBinade_div u
  have atU : u / 2 ^ spread u * 2 ^ spread u = u := left.onGrid.significand_mul
  generalize spread u = k at binade atU
  generalize u / 2 ^ k = m at binade atU
  subst atU
  have next : OnGrid ((m + 1) * 2 ^ k) := onGrid_mul binade.1
  have middle : 2 * q = ((m * 2 ^ k : Nat) : ℚ) + v :=
    le_antisymm (left.midpoint_above right.onGrid lt) (right.midpoint_below left.onGrid lt)
  have up : m * 2 ^ k < (m + 1) * 2 ^ k := Nat.mul_lt_mul_of_pos_right (Nat.lt_succ_self m) (Nat.two_pow_pos k)
  -- the neighbour above `u` would be nearer than `v`, so it is `v`
  have atV : v = (m + 1) * 2 ^ k := by
    refine Nat.le_antisymm ?_ (right.onGrid.not_between binade lt)
    have nearer := left.midpoint_above next up
    have cast : (v : ℚ) ≤ ((m + 1) * 2 ^ k : Nat) := by linarith
    exact Nat.cast_le.mp cast
  have evenU := left.even v right.onGrid lt.ne' ((abs_sub_eq_iff_of_lt (Nat.cast_lt.mpr lt)).mpr middle)
  have evenV := right.even _ left.onGrid lt.ne ((abs_sub_eq_iff_of_lt (Nat.cast_lt.mpr lt)).mpr middle).symm
  rw [significand_mul binade] at evenU
  rw [atV, even_significand_succ binade] at evenV
  exact Nat.not_even_iff_odd.mpr evenU.add_one evenV

theorem unique (left : Nearest q u) (right : Nearest q v) : u = v :=
  Nat.le_antisymm (Nat.not_lt.mp (right.not_lt left)) (Nat.not_lt.mp (left.not_lt right))

/-- What is near a whole multiple of a power of two is one too, or the grid would be finer there. -/
theorem dvd {n k : Nat} (near : Nearest ((n * 2 ^ k : Nat) : ℚ) u) : 2 ^ k ∣ u := by
  by_cases small : n ≤ 2 ^ 53
  · have same := near.unique (self (onGrid_mul small))
    exact same ▸ Nat.dvd_mul_left ..
  · have top : OnGrid (2 ^ 53 * 2 ^ k) := onGrid_mul (Nat.le_refl _)
    have above : 2 ^ 53 * 2 ^ k < n * 2 ^ k := Nat.mul_lt_mul_of_pos_right (by omega) (Nat.two_pow_pos k)
    have high : 2 ^ 53 * 2 ^ k ≤ u := by
      by_contra low
      have middle := near.midpoint_above top (Nat.not_le.mp low)
      have lower : (u : ℚ) < (2 ^ 53 * 2 ^ k : Nat) := Nat.cast_lt.mpr (Nat.not_le.mp low)
      have higher : ((2 ^ 53 * 2 ^ k : Nat) : ℚ) < (n * 2 ^ k : Nat) := Nat.cast_lt.mpr above
      linarith
    have wide : k ≤ spread u := by
      have mono := spread_mono high
      rw [carry_mul, spread_mul_two_pow (Nat.le_refl _) (by omega)] at mono
      omega
    exact (Nat.pow_dvd_pow 2 wide).trans near.onGrid

/-- A number in a gap of the grid rounds to the lower end as long as it is not past the middle. -/
theorem of_lower {m k : Nat} (binade : InBinade m k) (above : ((m * 2 ^ k : Nat) : ℚ) ≤ q)
    (half : 2 * q ≤ (m * 2 ^ k : Nat) + ((m + 1) * 2 ^ k : Nat))
    (tie : 2 * q = (m * 2 ^ k : Nat) + ((m + 1) * 2 ^ k : Nat) → Even m) : Nearest q (m * 2 ^ k) := by
  refine ⟨onGrid_mul binade.1.le, ?_, ?_⟩
  · intro other onGrid
    rcases Nat.lt_trichotomy other (m * 2 ^ k) with lt | rfl | gt
    · have lower : (other : ℚ) < (m * 2 ^ k : Nat) := Nat.cast_lt.mpr lt
      exact (abs_sub_ge_iff_of_lt lower).mpr (by linarith)
    · exact le_rfl
    · have upper : (((m + 1) * 2 ^ k : Nat) : ℚ) ≤ other := Nat.cast_le.mpr (onGrid.not_between binade gt)
      exact (abs_sub_le_iff_of_lt (Nat.cast_lt.mpr gt)).mpr (by linarith)
  · intro other onGrid different same
    rw [significand_mul binade]
    rcases Nat.lt_or_gt_of_ne different with lt | gt
    · have lower : (other : ℚ) < (m * 2 ^ k : Nat) := Nat.cast_lt.mpr lt
      have middle := (abs_sub_eq_iff_of_lt lower).mp same.symm
      linarith
    · have upper : (((m + 1) * 2 ^ k : Nat) : ℚ) ≤ other := Nat.cast_le.mpr (onGrid.not_between binade gt)
      have middle := (abs_sub_eq_iff_of_lt (Nat.cast_lt.mpr gt)).mp same
      exact tie (by linarith)

theorem of_upper {m k : Nat} (binade : InBinade m k) (below : q ≤ ((m + 1) * 2 ^ k : Nat))
    (half : ((m * 2 ^ k : Nat) : ℚ) + ((m + 1) * 2 ^ k : Nat) ≤ 2 * q)
    (tie : 2 * q = (m * 2 ^ k : Nat) + ((m + 1) * 2 ^ k : Nat) → Even (m + 1)) :
    Nearest q ((m + 1) * 2 ^ k) := by
  refine ⟨onGrid_mul binade.1, ?_, ?_⟩
  · intro other onGrid
    rcases Nat.lt_trichotomy other ((m + 1) * 2 ^ k) with lt | rfl | gt
    · have lower : (other : ℚ) ≤ (m * 2 ^ k : Nat) := Nat.cast_le.mpr (onGrid.le_of_lt_succ binade lt)
      exact (abs_sub_ge_iff_of_lt (Nat.cast_lt.mpr lt)).mpr (by linarith)
    · exact le_rfl
    · have upper : (((m + 1) * 2 ^ k : Nat) : ℚ) < other := Nat.cast_lt.mpr gt
      exact (abs_sub_le_iff_of_lt upper).mpr (by linarith)
  · intro other onGrid different same
    rw [even_significand_succ binade]
    rcases Nat.lt_or_gt_of_ne different with lt | gt
    · have lower : (other : ℚ) ≤ (m * 2 ^ k : Nat) := Nat.cast_le.mpr (onGrid.le_of_lt_succ binade lt)
      have middle := (abs_sub_eq_iff_of_lt (Nat.cast_lt.mpr lt)).mp same.symm
      exact tie (by linarith)
    · have upper : (((m + 1) * 2 ^ k : Nat) : ℚ) < other := Nat.cast_lt.mpr gt
      have middle := (abs_sub_eq_iff_of_lt upper).mp same
      linarith

end Nearest

end TaggedRuntime.Binary64
