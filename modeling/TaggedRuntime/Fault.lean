namespace TaggedRuntime

/-- Why a running program cannot go on. Types and operations are told by their names. -/
inductive Fault
  | operands (verb left right : String)
  | operand (verb found : String)
  | lengthOf (found : String)
  | zeroDivisor
  | raised (message : String)
  deriving DecidableEq, Repr

namespace Fault

/-- The wording, without the opening that a report gives it. -/
def message : Fault → String
  | operands verb left right => "Cannot " ++ verb ++ " " ++ left ++ " and " ++ right
  | operand verb found => "Cannot " ++ verb ++ " " ++ found
  | lengthOf found => "len() requires string, got " ++ found
  | zeroDivisor => "Division by zero"
  | raised message => message

def code : Fault → String
  | operands .. | operand .. | lengthOf _ => "yar::type_mismatch"
  | zeroDivisor => "yar::division_by_zero"
  | raised _ => "yar::user"

def help? : Fault → Option String
  | operands .. => some "arithmetic and comparison operators expect numbers; `+` also joins two strings"
  | lengthOf _ => some "only strings have a length"
  | operand .. | zeroDivisor | raised _ => none

end Fault

end TaggedRuntime
