import TaggedRuntime.Value.Operators

namespace TaggedRuntime

/-- The number of a register, or no operand at all. -/
abbrev Operand := Option Nat

inductive Operation
  | binary (op : BinaryOp) (a b : Operand)
  | unary (op : UnaryOp) (a : Operand)
  | len (a : Operand)
  | typeOf (a : Operand)
  deriving DecidableEq, Repr

namespace Operation

/-- The result, for any way of reading operands. -/
def eval (read : Operand → Value) : Operation → Except Fault Value
  | binary op a b => op.eval (read a) (read b)
  | unary op a => op.eval (read a)
  | len a => (read a).len
  | typeOf a => .ok (read a).typeOf

/-- The same from the functions by name, which compiled code goes to. -/
def named (read : Operand → Value) : Operation → Except Fault Value
  | binary op a b => op.named (read a) (read b)
  | unary op a => op.named (read a)
  | len a => (read a).len
  | typeOf a => .ok (read a).typeOf

theorem named_eq_eval (read : Operand → Value) (op : Operation) : op.named read = op.eval read := by
  cases op with
  | binary op a b => rw [named, op.named_eq_eval, eval]
  | unary op a => rw [named, op.named_eq_eval, eval]
  | _ => rfl

end Operation

namespace Calculation

/-- What registers of plain values hold; an absent operand is nil. -/
def read (registers : List Value) : Operand → Value
  | none => .nil
  | some register => registers.getD register .nil

/-- What a result leaves in its register: a failure leaves nil. -/
def settle : Except Fault Value → Value
  | .ok v => v
  | .error _ => .nil

/-- The results of operations in order. Each goes into a new register, which the later ones can read. -/
def run : List Operation → List Value → List (Except Fault Value)
  | [], _ => []
  | op :: rest, registers =>
    let result := op.eval (read registers)
    result :: run rest (registers ++ [settle result])

end Calculation

end TaggedRuntime
