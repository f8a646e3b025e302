import Mathlib.Algebra.Order.Ring.Nat
import TaggedRuntime.Decimal

namespace TaggedRuntime.Decimal

variable {accepts : Nat → Bool} {value grid found : Nat}

theorem neighbour?_eq_some (some : neighbour? accepts value grid = some found) :
    found = value / grid * grid ∧ accepts found = true ∧
        (accepts (value / grid * grid + grid) = true →
          value - value / grid * grid < value / grid * grid + grid - value) ∨
      found = value / grid * grid + grid ∧ accepts found = true ∧
        (accepts (value / grid * grid) = true →
          value / grid * grid + grid - value ≤ value - value / grid * grid) := by
  unfold neighbour? at some
  dsimp only at some
  split at some
  · rename_i lower upper
    split at some
    · rename_i nearer
      obtain rfl := Option.some.inj some
      exact .inl ⟨rfl, lower, fun _ => nearer⟩
    · rename_i further
      obtain rfl := Option.some.inj some
      exact .inr ⟨rfl, upper, fun _ => Nat.not_lt.mp further⟩
  · rename_i lower upper
    obtain rfl := Option.some.inj some
    exact .inl ⟨rfl, lower, fun accepted => by simp [upper] at accepted⟩
  · rename_i lower upper
    obtain rfl := Option.some.inj some
    exact .inr ⟨rfl, upper, fun accepted => by simp [lower] at accepted⟩
  · cases some

theorem neighbour?_accepts (some : neighbour? accepts value grid = some found) : accepts found = true := by
  rcases neighbour?_eq_some some with ⟨_, accepted, _⟩ | ⟨_, accepted, _⟩
  · exact accepted
  · exact accepted

theorem neighbour?_eq_none (none : neighbour? accepts value grid = none) :
    accepts (value / grid * grid) = false ∧ accepts (value / grid * grid + grid) = false := by
  unfold neighbour? at none
  dsimp only at none
  split at none
  · cases none
  · cases none
  · cases none
  · rename_i lower upper
    exact ⟨lower, upper⟩

theorem neighbour?_factor (some : neighbour? accepts value grid = some found) :
    ∃ n, found = n * grid ∧ n ≤ value / grid + 1 := by
  rcases neighbour?_eq_some some with ⟨lower, _⟩ | ⟨upper, _⟩
  · exact ⟨_, lower, Nat.le_succ _⟩
  · exact ⟨_, upper.trans (Nat.succ_mul ..).symm, le_rfl⟩

/-- Neighbouring multiples of a grid have no multiple between them. -/
theorem le_or_ge_of_dvd (value : Nat) {other : Nat} (multiple : grid ∣ other) :
    other ≤ value / grid * grid ∨ value / grid * grid + grid ≤ other := by
  obtain ⟨n, rfl⟩ := multiple
  rw [Nat.mul_comm grid n, ← Nat.succ_mul]
  rcases Nat.lt_or_ge (value / grid) n with lt | ge
  · exact .inr (Nat.mul_le_mul_right _ lt)
  · exact .inl (Nat.mul_le_mul_right _ ge)

/-- The search ended on the grid `10 ^ exponent`. -/
structure Ended (accepts : Nat → Bool) (value top exponent found : Nat) : Prop where
  le : exponent ≤ top
  found : neighbour? accepts value (10 ^ exponent) = some found
  coarser : ∀ e, exponent < e → e ≤ top → neighbour? accepts value (10 ^ e) = none

theorem coarsest_ended (accepted : accepts value = true) (top : Nat) :
    ∃ exponent, Ended accepts value top exponent (coarsest accepts value top) := by
  induction top with
  | zero =>
    refine ⟨0, le_rfl, ?_, fun e lower upper => by omega⟩
    unfold neighbour? coarsest
    cases upper : accepts (value + 1) <;> simp [accepted, upper]
  | succ top ih =>
    unfold coarsest
    split
    · rename_i found here
      exact ⟨top + 1, le_rfl, here, fun e lower upper => by omega⟩
    · rename_i none
      obtain ⟨exponent, le, found, coarser⟩ := ih
      refine ⟨exponent, by omega, found, ?_⟩
      intro e lower upper
      rcases Nat.lt_or_eq_of_le upper with lt | rfl
      · exact coarser e lower (by omega)
      · exact none

theorem toDigits_bounds (positive : 0 < value) :
    10 ^ ((Nat.toDigits 10 value).length - 1) ≤ value ∧ value < 10 ^ ((Nat.toDigits 10 value).length - 1 + 1) := by
  have nonempty : 0 < (Nat.toDigits 10 value).length := Nat.length_toDigits_pos
  constructor
  · by_contra less
    rcases Nat.eq_zero_or_pos ((Nat.toDigits 10 value).length - 1) with zero | more
    · rw [zero, Nat.pow_zero] at less
      omega
    · have short := (Nat.length_toDigits_le_iff (by omega) more).mpr (Nat.not_le.mp less)
      omega
  · exact (Nat.length_toDigits_le_iff (by omega) (Nat.succ_pos _)).mp (by omega)

/-- A value on one of the grids searched is found on that grid or a coarser one. -/
theorem Ended.dvd {top exponent e : Nat} (ended : Ended accepts value top exponent found)
    (accepted : accepts value = true) (le : e ≤ top) (multiple : 10 ^ e ∣ value) : 10 ^ e ∣ found := by
  have coarse : e ≤ exponent := by
    by_contra finer
    have rejected := (neighbour?_eq_none (ended.coarser e (Nat.not_le.mp finer) le)).1
    rw [Nat.div_mul_cancel multiple, accepted] at rejected
    cases rejected
  obtain ⟨n, rfl, _⟩ := neighbour?_factor ended.found
  exact (Nat.pow_dvd_pow 10 coarse).trans (Nat.dvd_mul_left ..)

theorem shortest_ended (accepted : accepts value = true) :
    ∃ exponent, Ended accepts value ((Nat.toDigits 10 value).length - 1) exponent (shortest accepts value) :=
  coarsest_ended accepted _

theorem accepts_shortest (accepted : accepts value = true) : accepts (shortest accepts value) = true := by
  obtain ⟨exponent, ended⟩ := shortest_ended accepted
  exact neighbour?_accepts ended.found

theorem dvd_shortest (accepted : accepts value = true) {e : Nat} (multiple : 10 ^ e ∣ value) :
    10 ^ e ∣ shortest accepts value := by
  obtain ⟨exponent, ended⟩ := shortest_ended accepted
  rcases Nat.eq_zero_or_pos value with rfl | positive
  · exact Nat.dvd_zero _
  · have below := (toDigits_bounds positive).2
    have le := Nat.lt_succ_iff.mp <|
      (Nat.pow_lt_pow_iff_right (by omega)).mp ((Nat.le_of_dvd positive multiple).trans_lt below)
    exact ended.dvd accepted le multiple

end TaggedRuntime.Decimal
