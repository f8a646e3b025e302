import TaggedRuntime.Binary64.Basic

namespace TaggedRuntime.Binary64

attribute [local instance (high)] instPowNat

def neg : Binary64 → Binary64
  | .nan => .nan
  | .infinite negative => .infinite !negative
  | .finite negative units representable => .finite (!negative) units representable

def signedUnits (negative : Bool) (units : Nat) : Int := if negative then -units else units

/-- Infinities of opposite signs have no sum. An exact zero is negative only if both terms are. -/
def add : Binary64 → Binary64 → Binary64
  | .nan, _ | _, .nan => .nan
  | .infinite m, .infinite n => if m = n then .infinite m else .nan
  | .infinite m, .finite .. => .infinite m
  | .finite .., .infinite n => .infinite n
  | .finite m a _, .finite n b _ =>
    let sum := signedUnits m a + signedUnits n b
    ofQuotient (if sum = 0 then m && n else sum < 0) sum.natAbs 1

def sub (x y : Binary64) : Binary64 := x.add y.neg

/-- Infinity times zero is no number. -/
def mul : Binary64 → Binary64 → Binary64
  | .nan, _ | _, .nan => .nan
  | .infinite m, .infinite n => .infinite (m != n)
  | .infinite m, .finite n b _ => if b = 0 then .nan else .infinite (m != n)
  | .finite m a _, .infinite n => if a = 0 then .nan else .infinite (m != n)
  | .finite m a _, .finite n b _ => ofQuotient (m != n) (a * b) one

/-- Zero by zero and infinity by infinity are no numbers; anything else by zero is infinite. -/
def div : Binary64 → Binary64 → Binary64
  | .nan, _ | _, .nan => .nan
  | .infinite _, .infinite _ => .nan
  | .infinite m, .finite n _ _ => .infinite (m != n)
  | .finite m _ _, .infinite n => .finite (m != n) 0 representable_zero
  | .finite m a _, .finite n b _ =>
    if b = 0 then
      if a = 0 then .nan else .infinite (m != n)
    else
      ofQuotient (m != n) (a * one) b

/-- Where a number stands in the order: both zeros at one place, the infinities past every finite value. -/
def place? : Binary64 → Option Int
  | .nan => none
  | .infinite negative => some (signedUnits negative limit)
  | .finite negative units _ => some (signedUnits negative units)

/-- Whether two numbers stand in a relation of their places; not-a-number stands in none. -/
def related (relation : Int → Int → Bool) (x y : Binary64) : Bool :=
  match x.place?, y.place? with
  | some a, some b => relation a b
  | _, _ => false

def equal : Binary64 → Binary64 → Bool := related fun a b => a == b

def less : Binary64 → Binary64 → Bool := related fun a b => decide (a < b)

def greater : Binary64 → Binary64 → Bool := related fun a b => decide (a > b)

def lessEqual : Binary64 → Binary64 → Bool := related fun a b => decide (a ≤ b)

def greaterEqual : Binary64 → Binary64 → Bool := related fun a b => decide (a ≥ b)

def isZero : Binary64 → Bool
  | .finite _ units _ => units == 0
  | _ => false

def clampInt64 (n : Int) : Int := max (-2 ^ (63 : Nat)) (min n (2 ^ (63 : Nat) - 1))

/-- The whole part, toward zero, held within 64 bits with a sign; not-a-number counts as zero. -/
def toInt64 : Binary64 → Int
  | .nan => 0
  | .infinite negative => if negative then -2 ^ (63 : Nat) else 2 ^ (63 : Nat) - 1
  | .finite negative units _ => clampInt64 (signedUnits negative (units / one))

/-- The remainder of the whole parts, with the sign of the dividend; none for a zero divisor. -/
def remainder? (x y : Binary64) : Option Binary64 :=
  if y.toInt64 = 0 then none else some (ofInt (x.toInt64.tmod y.toInt64))

end TaggedRuntime.Binary64
