import TaggedRuntime.Binary64.Basic

namespace TaggedRuntime.Binary64

attribute [local instance (high)] instPowNat

theorem representable_of_significand {significand k : Nat} (lower : 2 ^ (52 : Nat) ≤ significand)
    (upper : significand < 2 ^ (53 : Nat)) (exponent : k ≤ 2045) : Representable (significand * 2 ^ k) := by
  refine ⟨?_, ?_⟩
  · calc
      significand * 2 ^ k < 2 ^ (53 : Nat) * 2 ^ k := Nat.mul_lt_mul_of_pos_right upper (Nat.two_pow_pos k)
      _ = 2 ^ (53 + k) := (Nat.pow_add ..).symm
      _ ≤ limit := two_pow_le_limit (by omega)
  · rw [spread_mul_two_pow lower upper]
    exact Nat.dvd_mul_left ..

/-- The double of an interchange word: a sign bit, eleven bits of exponent, 52 bits of fraction. -/
def ofBits (bits : UInt64) : Binary64 :=
  let negative : Bool := decide (2 ^ (63 : Nat) ≤ bits.toNat)
  let exponent := bits.toNat / 2 ^ (52 : Nat) % 2 ^ (11 : Nat)
  let fraction := bits.toNat % 2 ^ (52 : Nat)
  if special : exponent = 2047 then
    if fraction = 0 then .infinite negative else .nan
  else if exponent = 0 then
    .finite negative fraction (representable_of_lt (Nat.mod_lt _ (by decide)))
  else
    have least : fraction < 2 ^ (52 : Nat) := Nat.mod_lt _ (by decide)
    have most : exponent < 2 ^ (11 : Nat) := Nat.mod_lt _ (by decide)
    .finite negative ((2 ^ (52 : Nat) + fraction) * 2 ^ (exponent - 1))
      (representable_of_significand (by omega) (by omega) (by omega))

/-- Exponent and fraction of a magnitude as one number: words of one sign are ordered as their values. -/
def magnitudeBits (units : Nat) : Nat := spread units * 2 ^ (52 : Nat) + units / 2 ^ spread units

/-- The interchange word; not-a-number is the quiet one without payload. -/
def toBits : Binary64 → UInt64
  | .nan => 0x7ff8000000000000
  | .infinite negative => if negative then 0xfff0000000000000 else 0x7ff0000000000000
  | .finite negative units _ => .ofNat ((if negative then 2 ^ (63 : Nat) else 0) + magnitudeBits units)

end TaggedRuntime.Binary64
