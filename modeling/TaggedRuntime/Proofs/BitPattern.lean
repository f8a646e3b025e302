import Mathlib.Algebra.Order.Ring.Nat
import TaggedRuntime.Binary64.Bits

namespace TaggedRuntime.Binary64

theorem magnitudeBits_of_lt {units : Nat} (small : units < 2 ^ 52) : magnitudeBits units = units := by
  rw [magnitudeBits, spread_of_lt small]
  omega

theorem magnitudeBits_mul {m k : Nat} (lower : 2 ^ 52 ≤ m) (upper : m < 2 ^ 53) :
    magnitudeBits (m * 2 ^ k) = k * 2 ^ 52 + m := by
  rw [magnitudeBits, spread_mul_two_pow lower upper, Nat.mul_div_cancel _ (Nat.two_pow_pos k)]

/-- A word whose exponent is not the last one holds a finite double: its sign bit, and in the bits below
its magnitude. -/
theorem ofBits_finite {bits : UInt64} (finite : bits.toNat / 2 ^ 52 % 2 ^ 11 ≠ 2047) :
    ∃ units representable, ofBits bits = .finite (decide (2 ^ 63 ≤ bits.toNat)) units representable ∧
      magnitudeBits units = bits.toNat % 2 ^ 63 := by
  unfold ofBits
  rw [dif_neg finite]
  split
  · rename_i zero
    refine ⟨_, representable_of_lt (Nat.mod_lt _ (by omega)), rfl, ?_⟩
    rw [magnitudeBits_of_lt (Nat.mod_lt _ (by omega))]
    omega
  · rename_i nonzero
    refine ⟨_, representable_of_significand (by omega) (by omega) (by omega), rfl, ?_⟩
    rw [magnitudeBits_mul (by omega) (by omega)]
    omega

theorem toBits_ofBits {bits : UInt64} (number : ofBits bits ≠ .nan) : (ofBits bits).toBits = bits := by
  have bound := bits.toNat_lt
  apply UInt64.toNat_inj.mp
  by_cases finite : bits.toNat / 2 ^ 52 % 2 ^ 11 = 2047
  · have infinite : bits.toNat % 2 ^ 52 = 0 :=
      Decidable.byContradiction fun fraction => number (by rw [ofBits, dif_pos finite, if_neg fraction])
    rw [ofBits, dif_pos finite, if_pos infinite]
    by_cases negative : 2 ^ 63 ≤ bits.toNat
    · simp only [toBits, negative, decide_true, if_true]
      change 0xfff0000000000000 = bits.toNat
      omega
    · simp only [toBits, negative, decide_false, Bool.false_eq_true, if_false]
      change 0x7ff0000000000000 = bits.toNat
      omega
  · obtain ⟨units, representable, same, magnitude⟩ := ofBits_finite finite
    simp only [same, toBits, magnitude, decide_eq_true_eq, UInt64.toNat_ofNat']
    split <;> omega

end TaggedRuntime.Binary64
