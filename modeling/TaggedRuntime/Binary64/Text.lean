import TaggedRuntime.Binary64.Basic
import TaggedRuntime.Decimal

namespace TaggedRuntime.Binary64

attribute [local instance (high)] instPowNat

/-- The steps of `10 ^ -1074` in a step of `2 ^ -1074`. -/
def fives : Nat := 5 ^ (1074 : Nat)

theorem two_pow_mul_five_pow (n : Nat) : (2 : Nat) ^ n * 5 ^ n = 10 ^ n := (Nat.mul_pow 2 5 n).symm

theorem one_mul_fives : one * fives = 10 ^ (1074 : Nat) := by
  unfold one fives
  exact two_pow_mul_five_pow 1074

theorem one_pos : 0 < one := by
  unfold one
  exact Nat.two_pow_pos 1074

theorem fives_pos : 0 < fives := by
  have positive (n : Nat) : 0 < (5 : Nat) ^ n := Nat.pow_pos (by decide)
  unfold fives
  exact positive 1074

/-- Whether so many steps of `10 ^ -1074` round to the magnitude. -/
def readsBack (units steps : Nat) : Bool := nearest steps fives == units

/-- The shortest decimal that reads back as the magnitude. -/
def decimal (units : Nat) : Decimal := ⟨Decimal.shortest (readsBack units) (units * fives), 1074⟩

/-- The text of a number: the fewest digits that read back, positional, with the sign of a zero kept. -/
def text : Binary64 → String
  | .nan => "nan"
  | .infinite negative => if negative then "-inf" else "inf"
  | .finite negative units _ => String.ofList (Decimal.signed negative (decimal units).digits)

end TaggedRuntime.Binary64
