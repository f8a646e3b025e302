import Mathlib.Data.List.Forall2
import TaggedRuntime.Binary64.Bits
import TaggedRuntime.Calculation
import TaggedRuntime.Proofs.SignOfZero

namespace TaggedRuntime

namespace Value

def isZero : Value → Bool
  | number x => x.isZero
  | nil | bool _ | string _ | function _ => false

/-- Values of one type that differ at most in the sign of a zero or in what a function refers to. -/
inductive Alike : Value → Value → Prop
  | nil : Alike nil nil
  | bool (b : Bool) : Alike (bool b) (bool b)
  | number {x y : Binary64} : x.Alike y → Alike (number x) (number y)
  | string (bytes : Bytes) : Alike (string bytes) (string bytes)
  | function (f g : Routine) : Alike (function f) (function g)

/-- Results that are the same, but for the sign of a zero. -/
inductive SameButZero : Except Fault Value → Except Fault Value → Prop
  | same (result : Except Fault Value) : SameButZero result result
  | zeros {x y : Binary64} : x.isZero = true → y.isZero = true → SameButZero (.ok (number x)) (.ok (number y))

theorem SameButZero.of_eq {left right : Except Fault Value} (equal : left = right) : SameButZero left right :=
  equal ▸ .same left

theorem SameButZero.number {x y : Binary64} (alike : x.Alike y) :
    SameButZero (.ok (number x)) (.ok (number y)) := by
  rcases Binary64.alike_iff.mp alike with rfl | ⟨left, right⟩
  · exact .same _
  · exact .zeros left right

namespace Alike

variable {a a' b b' : Value}

theorem refl : ∀ a : Value, a.Alike a
  | .nil => .nil
  | .bool b => .bool b
  | .number x => .number (.refl x)
  | .string bytes => .string bytes
  | .function routine => .function routine routine

theorem kind (alike : a.Alike b) : a.kind = b.kind := by
  cases alike <;> rfl

theorem truthy (alike : a.Alike b) : a.truthy = b.truthy := by
  cases alike <;> rfl

theorem len (alike : a.Alike b) : a.len = b.len := by
  cases alike <;> rfl

theorem same (left : a.Alike a') (right : b.Alike b') : same a b = same a' b' := by
  cases left with
  | number x =>
    cases right with
    | number y => exact x.related y
    | _ => rfl
  | _ => cases right <;> rfl

theorem add (left : a.Alike a') (right : b.Alike b') : SameButZero (a.add b) (a'.add b') := by
  cases left with
  | number x =>
    cases right with
    | number y => exact .number (x.add y)
    | _ => exact .same _
  | _ => cases right <;> exact .same _

theorem arithmetic {x x' y y' : Binary64} (left : x.Alike x') (right : y.Alike y') (op : BinaryOp)
    (numeric : op.isNumeric = true) :
    SameButZero ((arithmetic? x y op).get (arithmetic?_isSome x y numeric))
      ((arithmetic? x' y' op).get (arithmetic?_isSome x' y' numeric)) := by
  cases op with
  | subtract => exact .number (left.sub right)
  | multiply => exact .number (left.mul right)
  | divide =>
    simp only [arithmetic?, Option.get_some, ← right.isZero]
    cases divisor : y.isZero with
    | true => exact .same _
    | false => exact .number (left.div right divisor)
  | modulo =>
    simp only [arithmetic?, left.remainder? right]
    exact .same _
  | _ => cases numeric

theorem evalNumeric (op : BinaryOp) (numeric : op.isNumeric = true) (left : a.Alike a') (right : b.Alike b') :
    SameButZero (evalNumeric op numeric a b) (evalNumeric op numeric a' b') := by
  cases left with
  | number x =>
    cases right with
    | number y => exact arithmetic x y op numeric
    | _ => exact .same _
  | _ => cases right <;> exact .same _

theorem evalCompare (op : BinaryOp) {relation : Int → Int → Bool} (left : a.Alike a') (right : b.Alike b') :
    evalCompare op (Binary64.related relation) a b = evalCompare op (Binary64.related relation) a' b' := by
  cases left with
  | number x =>
    cases right with
    | number y => exact congrArg (fun holds => Except.ok (Value.bool holds)) (x.related y)
    | _ => rfl
  | _ => cases right <;> rfl

theorem binary (op : BinaryOp) (left : a.Alike a') (right : b.Alike b') :
    SameButZero (op.eval a b) (op.eval a' b') := by
  cases op with
  | add => exact left.add right
  | subtract | multiply | divide | modulo => exact evalNumeric _ rfl left right
  | equal | notEqual => exact .of_eq (by simp only [BinaryOp.eval, left.same right])
  | less | greater | lessEqual | greaterEqual => exact .of_eq (evalCompare _ left right)
  | and | or => exact .of_eq (by simp only [BinaryOp.eval, left.truthy, right.truthy])

theorem unary (op : UnaryOp) (alike : a.Alike a') : SameButZero (op.eval a) (op.eval a') := by
  cases op with
  | not => exact .of_eq (by simp only [UnaryOp.eval, alike.truthy])
  | negate =>
    cases alike with
    | number x => exact .number x.neg
    | _ => exact .same _

/-- All but a zero is displayed alike. -/
theorem display (alike : a.Alike b) : a.display = b.display ∨ a.isZero = true ∧ b.isZero = true := by
  cases alike with
  | number numbers => exact (Binary64.alike_iff.mp numbers).imp_left (congrArg Binary64.text)
  | _ => exact .inl rfl

end Alike

end Value

namespace Calculation

theorem length_run (ops : List Operation) (registers : List Value) : (run ops registers).length = ops.length := by
  induction ops generalizing registers with
  | nil => rfl
  | cons op rest ih => rw [run, List.length_cons, ih, List.length_cons]

end Calculation

end TaggedRuntime
