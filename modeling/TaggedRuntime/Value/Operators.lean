import TaggedRuntime.Binary64.Arithmetic
import TaggedRuntime.Fault
import TaggedRuntime.Value.Basic

namespace TaggedRuntime

inductive BinaryOp
  | add
  | subtract
  | multiply
  | divide
  | modulo
  | equal
  | notEqual
  | less
  | greater
  | lessEqual
  | greaterEqual
  | and
  | or
  deriving DecidableEq, Repr

inductive UnaryOp
  | not
  | negate
  deriving DecidableEq, Repr

/-- What a message says could not be done. -/
def BinaryOp.verb : BinaryOp → String
  | add => "add"
  | subtract => "subtract"
  | multiply => "multiply"
  | divide => "divide"
  | modulo => "modulo"
  | equal | notEqual | less | greater | lessEqual | greaterEqual => "compare"
  | and => "and"
  | or => "or"

/-- The operators that take two numbers to a number. -/
def BinaryOp.isNumeric : BinaryOp → Bool
  | subtract | multiply | divide | modulo => true
  | _ => false

namespace Value

/-- The fault of operands whose types an operator does not take; it tells only the types. -/
def mismatch (op : BinaryOp) (a b : Value) : Fault := .operands op.verb a.kind.label b.kind.label

/-- The sum of two numbers, or the second string after the first. -/
def add : Value → Value → Except Fault Value
  | number x, number y => .ok (number (x.add y))
  | string s, string t => .ok (string (s ++ t))
  | a, b => .error (mismatch .add a b)

/-- A zero divisor of either sign is refused, so no quotient is infinite for its sake. The remainder is one
of whole parts: a divisor between minus one and one counts as zero. Other operators have no case here. -/
def arithmetic? (x y : Binary64) : BinaryOp → Option (Except Fault Value)
  | .subtract => some (.ok (number (x.sub y)))
  | .multiply => some (.ok (number (x.mul y)))
  | .divide => some (if y.isZero then .error .zeroDivisor else .ok (number (x.div y)))
  | .modulo =>
    match x.remainder? y with
    | some r => some (.ok (number r))
    | none => some (.error .zeroDivisor)
  | _ => none

theorem arithmetic?_isSome (x y : Binary64) {op : BinaryOp} (numeric : op.isNumeric = true) :
    (arithmetic? x y op).isSome = true := by
  cases op with
  | subtract | multiply | divide => rfl
  | modulo => simp only [arithmetic?]; split <;> rfl
  | _ => cases numeric

/-- Operands that are not numbers are refused before the operation begins. -/
def evalNumeric (op : BinaryOp) (numeric : op.isNumeric = true) : Value → Value → Except Fault Value
  | number x, number y => (arithmetic? x y op).get (arithmetic?_isSome x y numeric)
  | a, b => .error (mismatch op a b)

def evalCompare (op : BinaryOp) (holds : Binary64 → Binary64 → Bool) : Value → Value → Except Fault Value
  | number x, number y => .ok (bool (holds x y))
  | a, b => .error (mismatch op a b)

/-- Values of different types are never equal, and a function is not even equal to itself. -/
def same : Value → Value → Bool
  | nil, nil => true
  | bool a, bool b => a == b
  | number x, number y => x.equal y
  | string s, string t => s == t
  | _, _ => false

end Value

def BinaryOp.eval : BinaryOp → Value → Value → Except Fault Value
  | add, a, b => a.add b
  | subtract, a, b => Value.evalNumeric .subtract rfl a b
  | multiply, a, b => Value.evalNumeric .multiply rfl a b
  | divide, a, b => Value.evalNumeric .divide rfl a b
  | modulo, a, b => Value.evalNumeric .modulo rfl a b
  | equal, a, b => .ok (.bool (Value.same a b))
  | notEqual, a, b => .ok (.bool !Value.same a b)
  | less, a, b => Value.evalCompare .less Binary64.less a b
  | greater, a, b => Value.evalCompare .greater Binary64.greater a b
  | lessEqual, a, b => Value.evalCompare .lessEqual Binary64.lessEqual a b
  | greaterEqual, a, b => Value.evalCompare .greaterEqual Binary64.greaterEqual a b
  | and, a, b => .ok (.bool (a.truthy && b.truthy))
  | or, a, b => .ok (.bool (a.truthy || b.truthy))

def UnaryOp.eval : UnaryOp → Value → Except Fault Value
  | not, a => .ok (.bool !a.truthy)
  | negate, .number x => .ok (.number x.neg)
  | negate, a => .error (.operand "negate" a.kind.label)

namespace Value

def subtract : Value → Value → Except Fault Value := evalNumeric .subtract rfl

def multiply : Value → Value → Except Fault Value := evalNumeric .multiply rfl

def divide : Value → Value → Except Fault Value := evalNumeric .divide rfl

def modulo : Value → Value → Except Fault Value := evalNumeric .modulo rfl

def equal (a b : Value) : Value := bool (same a b)

def notEqual (a b : Value) : Value := bool !(same a b)

def less : Value → Value → Except Fault Value := BinaryOp.eval .less

def greater : Value → Value → Except Fault Value := BinaryOp.eval .greater

def lessEqual : Value → Value → Except Fault Value := BinaryOp.eval .lessEqual

def greaterEqual : Value → Value → Except Fault Value := BinaryOp.eval .greaterEqual

def and (a b : Value) : Value := bool (a.truthy && b.truthy)

def or (a b : Value) : Value := bool (a.truthy || b.truthy)

def not (a : Value) : Value := bool !a.truthy

def negate : Value → Except Fault Value := UnaryOp.eval .negate

def len : Value → Except Fault Value
  | string bytes => .ok (number (.ofInt bytes.length))
  | a => .error (.lengthOf a.kind.label)

def typeOf (a : Value) : Value := string (Utf8.encode a.kind.label)

end Value

/-- The function of the operator's name. -/
def BinaryOp.named : BinaryOp → Value → Value → Except Fault Value
  | add, a, b => a.add b
  | subtract, a, b => a.subtract b
  | multiply, a, b => a.multiply b
  | divide, a, b => a.divide b
  | modulo, a, b => a.modulo b
  | equal, a, b => .ok (a.equal b)
  | notEqual, a, b => .ok (a.notEqual b)
  | less, a, b => a.less b
  | greater, a, b => a.greater b
  | lessEqual, a, b => a.lessEqual b
  | greaterEqual, a, b => a.greaterEqual b
  | and, a, b => .ok (a.and b)
  | or, a, b => .ok (a.or b)

def UnaryOp.named : UnaryOp → Value → Except Fault Value
  | not, a => .ok a.not
  | negate, a => a.negate

theorem BinaryOp.named_eq_eval (op : BinaryOp) : op.named = op.eval := by
  cases op <;> rfl

theorem UnaryOp.named_eq_eval (op : UnaryOp) : op.named = op.eval := by
  cases op <;> rfl

end TaggedRuntime
