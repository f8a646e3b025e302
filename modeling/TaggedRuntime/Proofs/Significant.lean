import Mathlib.Data.List.TakeWhile
import Mathlib.Data.Nat.Digits.Lemmas
import TaggedRuntime.Decimal

namespace TaggedRuntime.Decimal

/-- The number of digits from the first to the last that is not zero. -/
def significant (n : Nat) : Nat := ((Nat.digits 10 n).dropWhile (· == 0)).length

theorem significant_le_iff {n k : Nat} : significant n ≤ k ↔ ∃ c z, n = c * 10 ^ z ∧ c < 10 ^ k := by
  constructor
  · intro few
    refine ⟨Nat.ofDigits 10 ((Nat.digits 10 n).dropWhile (· == 0)),
      ((Nat.digits 10 n).takeWhile (· == 0)).length, ?_, ?_⟩
    · have zeros : (Nat.digits 10 n).takeWhile (· == 0) =
          List.replicate ((Nat.digits 10 n).takeWhile (· == 0)).length 0 := by
        refine List.eq_replicate_of_mem fun digit member => ?_
        exact beq_iff_eq.mp (List.mem_takeWhile_imp (p := (· == 0)) member)
      have split := Nat.ofDigits_digits 10 n
      rw [← List.takeWhile_append_dropWhile (l := Nat.digits 10 n) (p := (· == 0)), Nat.ofDigits_append] at split
      rw [zeros, Nat.ofDigits_replicate_zero, List.length_replicate, Nat.zero_add, Nat.mul_comm] at split
      exact split.symm
    · have digits : ∀ digit ∈ (Nat.digits 10 n).dropWhile (· == 0), digit < 10 := by
        intro digit member
        exact Nat.digits_lt_base (by omega) ((List.dropWhile_sublist _).mem member)
      exact (Nat.ofDigits_lt_base_pow_length (by omega) digits).trans_le (Nat.pow_le_pow_right (by omega) few)
  · rintro ⟨c, z, rfl, less⟩
    rcases Nat.eq_zero_or_pos c with rfl | positive
    · simp [significant]
    · have digits : Nat.digits 10 (c * 10 ^ z) = List.replicate z 0 ++ Nat.digits 10 c := by
        rw [Nat.mul_comm, Nat.digits_base_pow_mul (by omega) positive]
      calc
        significant (c * 10 ^ z) = ((Nat.digits 10 c).dropWhile (· == 0)).length := by
          rw [significant, digits, List.dropWhile_append_of_pos (by simp)]
        _ ≤ (Nat.digits 10 c).length := (List.dropWhile_sublist _).length_le
        _ ≤ k := (Nat.digits_length_le_iff (by omega) c).mpr less

theorem significant_mul_le {c z k : Nat} (most : c ≤ 10 ^ k) (positive : 0 < k) : significant (c * 10 ^ z) ≤ k := by
  rw [significant_le_iff]
  rcases Nat.lt_or_eq_of_le most with less | rfl
  · exact ⟨c, z, rfl, less⟩
  · exact ⟨1, k + z, by rw [Nat.one_mul, Nat.pow_add], Nat.one_lt_pow (Nat.ne_of_gt positive) (by omega)⟩

theorem significant_pos {n : Nat} (nonzero : n ≠ 0) : 0 < significant n := by
  by_contra none
  obtain ⟨c, z, value, less⟩ := significant_le_iff.mp (Nat.le_zero.mpr (Nat.eq_zero_of_not_pos none))
  rw [Nat.pow_zero, Nat.lt_one_iff] at less
  exact nonzero (by rw [value, less, Nat.zero_mul])

/-- Zeros at the end are not significant. -/
theorem significant_mul_pow (n z : Nat) : significant (n * 10 ^ z) = significant n := by
  have fewer : ∀ k, significant (n * 10 ^ z) ≤ k ↔ significant n ≤ k := by
    intro k
    rw [significant_le_iff, significant_le_iff]
    constructor
    · rintro ⟨c, y, value, less⟩
      rcases Nat.le_total z y with le | le
      · obtain ⟨rest, rfl⟩ := Nat.exists_eq_add_of_le le
        rw [Nat.pow_add, Nat.mul_comm (10 ^ z), ← Nat.mul_assoc] at value
        exact ⟨c, rest, Nat.eq_of_mul_eq_mul_right (ten_pow_pos _) value, less⟩
      · obtain ⟨rest, rfl⟩ := Nat.exists_eq_add_of_le le
        rw [Nat.pow_add, Nat.mul_comm (10 ^ y), ← Nat.mul_assoc] at value
        have same := Nat.eq_of_mul_eq_mul_right (ten_pow_pos _) value
        have le : n ≤ c := same ▸ Nat.le_mul_of_pos_right n (ten_pow_pos _)
        exact ⟨n, 0, by rw [Nat.pow_zero, Nat.mul_one], le.trans_lt less⟩
    · rintro ⟨c, y, rfl, less⟩
      exact ⟨c, y + z, by rw [Nat.pow_add, Nat.mul_assoc], less⟩
  exact Nat.le_antisymm ((fewer _).mpr le_rfl) ((fewer _).mp le_rfl)

end TaggedRuntime.Decimal
