import TaggedRuntime.Proofs.Forecast
import TaggedRuntime.Proofs.Remainder

namespace TaggedRuntime

namespace BinaryOp

/-- The types of the operands that an operator takes. -/
def Takes : BinaryOp → Kind → Kind → Prop
  | add, a, b => a = .number ∧ b = .number ∨ a = .string ∧ b = .string
  | equal, _, _ | notEqual, _, _ | and, _, _ | or, _, _ => True
  | subtract, a, b | multiply, a, b | divide, a, b | modulo, a, b | less, a, b | greater, a, b | lessEqual, a, b
  | greaterEqual, a, b => a = .number ∧ b = .number

/-- The type of what comes of them, given that of the first. -/
def resultKind : BinaryOp → Kind → Kind
  | add, a => a
  | subtract, _ | multiply, _ | divide, _ | modulo, _ => .number
  | equal, _ | notEqual, _ | less, _ | greater, _ | lessEqual, _ | greaterEqual, _ | and, _ | or, _ => .bool

/-- A quotient by zero, or a remainder by a number whose whole part is zero or by none. -/
def DividesByZero (op : BinaryOp) (a b : Value) : Prop :=
  ∃ x y, a = .number x ∧ b = .number y ∧
    (op = .divide ∧ (∃ negative, y = .zero negative) ∨
      op = .modulo ∧ (y = .nan ∨ ∃ q, y.value? = some q ∧ |q| < 1))

variable {op : BinaryOp} {a b : Kind}

theorem foretell_of_takes (takes : op.Takes a b) : op.foretell a b = .ok (op.resultKind a) := by
  cases op with
  | equal | notEqual | and | or => rfl
  | add => rcases takes with ⟨rfl, rfl⟩ | ⟨rfl, rfl⟩ <;> rfl
  | _ =>
    obtain ⟨rfl, rfl⟩ := takes
    rfl

theorem foretell_of_not_takes (refuses : ¬op.Takes a b) :
    op.foretell a b = .error (.operands op.verb a.label b.label) := by
  cases op with
  | equal | notEqual | and | or => exact absurd trivial refuses
  | add => cases a <;> cases b <;> simp [Takes, foretell] at refuses ⊢
  | _ => cases a <;> cases b <;> simp [Takes, foretell] at refuses ⊢

theorem divide_fails_iff {x y : Binary64} :
    divide.eval (.number x) (.number y) = .error .zeroDivisor ↔ ∃ negative, y = .zero negative := by
  have computed : divide.eval (.number x) (.number y) =
      if y.isZero then .error .zeroDivisor else .ok (.number (x.div y)) := rfl
  rw [computed, ← Binary64.isZero_iff]
  split_ifs with none <;> simpa using none

theorem modulo_fails_iff {x y : Binary64} :
    modulo.eval (.number x) (.number y) = .error .zeroDivisor ↔
      y = .nan ∨ ∃ q, y.value? = some q ∧ |q| < 1 := by
  have computed : modulo.eval (.number x) (.number y) = Value.modulo (.number x) (.number y) := rfl
  rw [computed, Value.modulo_eq, ← Binary64.wholePart_eq_zero_iff]
  split_ifs with none <;> simpa using none

theorem eval_zeroDivisor_iff {a b : Value} : op.eval a b = .error .zeroDivisor ↔ op.DividesByZero a b := by
  constructor
  · intro fails
    rcases op.eval_foretell a b with foreseen | ⟨_, divides, left, right⟩
    · rw [fails] at foreseen
      exact absurd foreseen.symm (op.foretell_ne a.kind b.kind).2.2
    · cases a <;> cases left
      cases b <;> cases right
      refine ⟨_, _, rfl, rfl, ?_⟩
      rcases divides with rfl | rfl
      · exact .inl ⟨rfl, divide_fails_iff.mp fails⟩
      · exact .inr ⟨rfl, modulo_fails_iff.mp fails⟩
  · rintro ⟨x, y, rfl, rfl, ⟨rfl, zero⟩ | ⟨rfl, small⟩⟩
    · exact divide_fails_iff.mpr zero
    · exact modulo_fails_iff.mpr small

theorem DividesByZero.takes {a b : Value} (divides : op.DividesByZero a b) : op.Takes a.kind b.kind := by
  obtain ⟨x, y, rfl, rfl, ⟨rfl, _⟩ | ⟨rfl, _⟩⟩ := divides <;> exact ⟨rfl, rfl⟩

theorem eval_of_not_takes {a b : Value} (refuses : ¬op.Takes a.kind b.kind) :
    op.eval a b = .error (.operands op.verb a.kind.label b.kind.label) := by
  rcases op.eval_foretell a b with foreseen | ⟨fails, _⟩
  · rw [foretell_of_not_takes refuses] at foreseen
    cases result : op.eval a b with
    | error f =>
      rw [result] at foreseen
      exact congrArg Except.error (Except.error.inj foreseen)
    | ok v =>
      rw [result] at foreseen
      cases foreseen
  · exact absurd (eval_zeroDivisor_iff.mp fails).takes refuses

theorem eval_of_takes {a b : Value} (takes : op.Takes a.kind b.kind) (regular : ¬op.DividesByZero a b) :
    ∃ v, op.eval a b = .ok v ∧ v.kind = op.resultKind a.kind := by
  rcases op.eval_foretell a b with foreseen | ⟨fails, _⟩
  · rw [foretell_of_takes takes] at foreseen
    cases result : op.eval a b with
    | error f =>
      rw [result] at foreseen
      cases foreseen
    | ok v =>
      rw [result] at foreseen
      exact ⟨v, rfl, Except.ok.inj foreseen⟩
  · exact absurd (eval_zeroDivisor_iff.mp fails) regular

/-- Types are looked at first, so a zero divisor is only found where both operands are numbers. -/
theorem eval_error_iff {a b : Value} {f : Fault} :
    op.eval a b = .error f ↔
      ¬op.Takes a.kind b.kind ∧ f = .operands op.verb a.kind.label b.kind.label ∨
        op.DividesByZero a b ∧ f = .zeroDivisor := by
  by_cases takes : op.Takes a.kind b.kind
  · by_cases divides : op.DividesByZero a b
    · rw [eval_zeroDivisor_iff.mpr divides]
      simp [takes, divides, eq_comm]
    · obtain ⟨v, result, _⟩ := eval_of_takes takes divides
      simp [result, takes, divides]
  · have regular : ¬op.DividesByZero a b := fun divides => takes divides.takes
    rw [eval_of_not_takes takes]
    simp [takes, regular, eq_comm]

theorem kind_of_eval {a b v : Value} (result : op.eval a b = .ok v) : v.kind = op.resultKind a.kind := by
  have passes (f : Fault) : op.eval a b ≠ .error f := by simp [result]
  have takes : op.Takes a.kind b.kind := by
    by_contra refuses
    exact passes _ (eval_of_not_takes refuses)
  obtain ⟨_, same, kind⟩ := eval_of_takes takes fun divides => passes _ (eval_zeroDivisor_iff.mpr divides)
  cases result.symm.trans same
  exact kind

theorem eval_numeric (numeric : op.isNumeric = true) (a b : Value) :
    op.eval a b = Value.evalNumeric op numeric a b := by
  cases op with
  | subtract | multiply | divide | modulo => rfl
  | _ => cases numeric

theorem isSome_arithmetic? (op : BinaryOp) (x y : Binary64) :
    (Value.arithmetic? x y op).isSome = op.isNumeric := by
  cases op with
  | subtract | multiply | divide | modulo => exact Value.arithmetic?_isSome x y rfl
  | _ => rfl

end BinaryOp

theorem UnaryOp.negate_error_iff {a : Value} {f : Fault} :
    negate.eval a = .error f ↔ a.kind ≠ .number ∧ f = .operand "negate" a.kind.label := by
  cases a with
  | number x => simp [eval, Value.kind]
  | _ => simp [eval, Value.kind, eq_comm]

/-- An operator and the function of its name give the same answers. They fail just for operands of types that the
operator does not take, which the fault names in order, and for zero divisors of numbers, and their results have the
type that the operator and its operands say. The arithmetic on numbers has a case for just the operators that are sent
to it. A negation fails just for what is not a number. -/
theorem operator_faults :
    (∀ op : BinaryOp, op.named = op.eval) ∧
      (∀ (op : BinaryOp) (a b : Value) (f : Fault), op.eval a b = .error f ↔
        ¬op.Takes a.kind b.kind ∧ f = .operands op.verb a.kind.label b.kind.label ∨
          op.DividesByZero a b ∧ f = .zeroDivisor) ∧
      (∀ (op : BinaryOp) (a b v : Value), op.eval a b = .ok v → v.kind = op.resultKind a.kind) ∧
      (∀ (op : BinaryOp) (numeric : op.isNumeric = true) (a b : Value),
        op.eval a b = Value.evalNumeric op numeric a b) ∧
      (∀ (op : BinaryOp) (x y : Binary64), (Value.arithmetic? x y op).isSome = op.isNumeric) ∧
      UnaryOp.negate.named = UnaryOp.negate.eval ∧
      ∀ (a : Value) (f : Fault),
        UnaryOp.negate.eval a = .error f ↔ a.kind ≠ .number ∧ f = .operand "negate" a.kind.label :=
  ⟨BinaryOp.named_eq_eval, fun _ _ _ _ => BinaryOp.eval_error_iff, fun _ _ _ _ => BinaryOp.kind_of_eval,
    fun _ => BinaryOp.eval_numeric, BinaryOp.isSome_arithmetic?, UnaryOp.named_eq_eval _,
    fun _ _ => UnaryOp.negate_error_iff⟩

/-- The negative zero is refused as a divisor of a number, while nil is refused first, and a sum of strings is one. -/
theorem operator_faults_negative_zero :
    BinaryOp.divide.eval .nil (.number (.zero true)) = .error (.operands "divide" "nil" "number") ∧
      BinaryOp.divide.eval (.number .nan) (.number (.zero true)) = .error .zeroDivisor ∧
      BinaryOp.divide.eval .nil .nil = Value.evalNumeric .divide rfl .nil .nil ∧
      ∃ v, BinaryOp.add.eval (.string [0x61]) (.string []) = .ok v ∧ v.kind = .string := by
  obtain ⟨_, faults, results, numeric, _⟩ := operator_faults
  refine ⟨?_, ?_, numeric .divide rfl .nil .nil, .string [0x61], rfl, results .add (.string [0x61]) (.string []) _ rfl⟩
  · exact (faults .divide _ _ _).mpr (.inl ⟨fun takes => (nomatch takes.1), rfl⟩)
  · exact (faults .divide _ _ _).mpr (.inr ⟨⟨_, _, rfl, rfl, .inl ⟨rfl, true, rfl⟩⟩, rfl⟩)

end TaggedRuntime
