import TaggedRuntime.Calculation
import TaggedRuntime.Proofs.Indistinct

namespace TaggedRuntime

/-- What the operator makes of operands of two types: the type of its result, or the refusal. -/
def BinaryOp.foretell : BinaryOp → Kind → Kind → Except Fault Kind
  | add, .string, .string => .ok .string
  | add, .number, .number | subtract, .number, .number | multiply, .number, .number | divide, .number, .number
  | modulo, .number, .number => .ok .number
  | less, .number, .number | greater, .number, .number | lessEqual, .number, .number
  | greaterEqual, .number, .number => .ok .bool
  | equal, _, _ | notEqual, _, _ | and, _, _ | or, _, _ => .ok .bool
  | op, a, b => .error (.operands op.verb a.label b.label)

def UnaryOp.foretell : UnaryOp → Kind → Except Fault Kind
  | not, _ => .ok .bool
  | negate, .number => .ok .number
  | negate, a => .error (.operand "negate" a.label)

namespace Operation

/-- What comes of operands of known types, if no divisor is zero. -/
def foretell (kinds : Operand → Kind) : Operation → Except Fault Kind
  | binary op a b => op.foretell (kinds a) (kinds b)
  | unary op a => op.foretell (kinds a)
  | len a => if kinds a = .string then .ok .number else .error (.lengthOf (kinds a).label)
  | typeOf _ => .ok .string

/-- A quotient or a remainder of two numbers. -/
def DividesNumbers (read : Operand → Value) (op : Operation) : Prop :=
  ∃ a b, (op = binary .divide a b ∨ op = binary .modulo a b) ∧
    (read a).kind = .number ∧ (read b).kind = .number

end Operation

theorem Value.arithmetic?_number {x y : Binary64} {op : BinaryOp} {result : Except Fault Value}
    (computed : arithmetic? x y op = some result) :
    (∃ z, result = .ok (number z)) ∨ result = .error .zeroDivisor ∧ (op = .divide ∨ op = .modulo) := by
  cases op with
  | subtract | multiply =>
    cases computed
    exact .inl ⟨_, rfl⟩
  | divide =>
    cases computed
    split
    · exact .inr ⟨rfl, .inl rfl⟩
    · exact .inl ⟨_, rfl⟩
  | modulo =>
    simp only [arithmetic?] at computed
    split at computed
    · cases computed
      exact .inl ⟨_, rfl⟩
    · cases computed
      exact .inr ⟨rfl, .inr rfl⟩
  | _ => cases computed

theorem BinaryOp.foretell_numeric {op : BinaryOp} (numeric : op.isNumeric = true) (a b : Kind) :
    op.foretell a b =
      if a = .number ∧ b = .number then .ok .number else .error (.operands op.verb a.label b.label) := by
  cases op with
  | subtract | multiply | divide | modulo => cases a <;> cases b <;> rfl
  | _ => cases numeric

theorem Value.evalNumeric_foretell (op : BinaryOp) (numeric : op.isNumeric = true) (a b : Value) :
    (evalNumeric op numeric a b).map Value.kind = op.foretell a.kind b.kind ∨
      evalNumeric op numeric a b = .error .zeroDivisor ∧ (op = .divide ∨ op = .modulo) ∧
        a.kind = .number ∧ b.kind = .number := by
  rw [BinaryOp.foretell_numeric numeric]
  split
  case isTrue numbers =>
    cases a <;> cases numbers.1
    cases b <;> cases numbers.2
    rcases arithmetic?_number (Option.some_get (arithmetic?_isSome _ _ numeric)).symm with ⟨z, is⟩ | ⟨fails, divides⟩
    · exact .inl (congrArg (Except.map Value.kind) is)
    · exact .inr ⟨fails, divides, rfl, rfl⟩
  case isFalse numbers =>
    left
    cases a <;> cases b <;> first | rfl | exact absurd ⟨rfl, rfl⟩ numbers

theorem BinaryOp.eval_foretell (op : BinaryOp) (a b : Value) :
    (op.eval a b).map Value.kind = op.foretell a.kind b.kind ∨
      op.eval a b = .error .zeroDivisor ∧ (op = .divide ∨ op = .modulo) ∧ a.kind = .number ∧ b.kind = .number := by
  cases op with
  | subtract | multiply | divide | modulo => exact Value.evalNumeric_foretell _ rfl a b
  | _ => exact .inl (by cases a <;> cases b <;> rfl)

theorem UnaryOp.eval_foretell (op : UnaryOp) (a : Value) :
    (op.eval a).map Value.kind = op.foretell a.kind := by
  cases op <;> cases a <;> rfl

theorem Operation.eval_foretell (read : Operand → Value) (op : Operation) :
    (op.eval read).map Value.kind = op.foretell (fun a => (read a).kind) ∨
      op.eval read = .error .zeroDivisor ∧ op.DividesNumbers read := by
  cases op with
  | binary op a b =>
    refine (op.eval_foretell (read a) (read b)).imp_right fun ⟨fails, divides, numbers⟩ => ⟨fails, a, b, ?_, numbers⟩
    exact divides.imp (congrArg (binary · a b)) (congrArg (binary · a b))
  | unary op a => exact .inl (op.eval_foretell (read a))
  | len a =>
    left
    rw [eval, foretell]
    cases read a <;> rfl
  | typeOf a => exact .inl rfl

theorem BinaryOp.foretell_ne (op : BinaryOp) (a b : Kind) :
    op.foretell a b ≠ .ok .nil ∧ op.foretell a b ≠ .ok .function ∧ op.foretell a b ≠ .error .zeroDivisor := by
  fun_cases foretell op a b <;> simp

theorem UnaryOp.foretell_ne (op : UnaryOp) (a : Kind) :
    op.foretell a ≠ .ok .nil ∧ op.foretell a ≠ .ok .function ∧ op.foretell a ≠ .error .zeroDivisor := by
  fun_cases foretell op a <;> simp

theorem Operation.foretell_ne (kinds : Operand → Kind) (op : Operation) :
    op.foretell kinds ≠ .ok .nil ∧ op.foretell kinds ≠ .ok .function ∧
      op.foretell kinds ≠ .error .zeroDivisor := by
  cases op with
  | binary op a b => exact op.foretell_ne (kinds a) (kinds b)
  | unary op a => exact op.foretell_ne (kinds a)
  | len a =>
    rw [foretell]
    split <;> simp
  | typeOf a => simp [foretell]

/-- A result is neither nil nor a function, and only a division fails for the numbers it is given. -/
theorem Operation.eval_kind (read : Operand → Value) (op : Operation) :
    (∀ v, op.eval read = .ok v → v.kind ≠ .nil ∧ v.kind ≠ .function) ∧
      (op.eval read = .error .zeroDivisor → op.DividesNumbers read) ∧
      (op.eval read ≠ .error .zeroDivisor →
        (op.eval read).map Value.kind = op.foretell fun a => (read a).kind) := by
  obtain ⟨notNil, notFunction, noDivision⟩ := op.foretell_ne fun a => (read a).kind
  rcases op.eval_foretell read with foreseen | ⟨fails, divides⟩
  · refine ⟨fun v is => ?_, fun fails => ?_, fun _ => foreseen⟩
    · rw [← foreseen, is] at notNil notFunction
      exact ⟨fun kind => notNil (congrArg Except.ok kind), fun kind => notFunction (congrArg Except.ok kind)⟩
    · exact absurd (by rw [← foreseen, fails]; rfl) noDivision
  · exact ⟨fun v is => absurd (fails.symm.trans is) (by simp), fun _ => divides, fun passes => absurd fails passes⟩

namespace Calculation

/-- The type that an operand is of; an absent operand is nil. -/
def readKind (kinds : List Kind) : Operand → Kind
  | none => .nil
  | some register => kinds.getD register .nil

/-- The type of what a result leaves in its register. -/
def settleKind : Except Fault Kind → Kind
  | .ok kind => kind
  | .error _ => .nil

/-- What types alone foretell of operations in order. -/
def foretell : List Operation → List Kind → List (Except Fault Kind)
  | [], _ => []
  | op :: rest, kinds =>
    let result := op.foretell (readKind kinds)
    result :: foretell rest (kinds ++ [settleKind result])

theorem kind_read (registers : List Value) (a : Operand) :
    (read registers a).kind = readKind (registers.map Value.kind) a := by
  cases a with
  | none => rfl
  | some register =>
    rw [read, readKind, List.getD_eq_getElem?_getD, List.getD_eq_getElem?_getD, List.getElem?_map]
    cases registers[register]? <;> rfl

theorem kind_settle (result : Except Fault Value) : (settle result).kind = settleKind (result.map Value.kind) := by
  cases result <;> rfl

/-- The registers once operations are done: those at the start, then one from each. -/
def registersAfter (ops : List Operation) (registers : List Value) : List Value :=
  registers ++ (run ops registers).map settle

theorem registersAfter_cons (op : Operation) (rest : List Operation) (registers : List Value) :
    registersAfter (op :: rest) registers =
      registersAfter rest (registers ++ [settle (op.eval (read registers))]) := by
  simp only [registersAfter, run, List.map_cons, List.append_assoc, List.singleton_append]

theorem registersAfter_getElem? (ops : List Operation) (registers : List Value) (i : Nat) :
    (registersAfter ops registers)[registers.length + i]? = (run ops registers)[i]?.map settle := by
  rw [registersAfter, List.getElem?_append_right (Nat.le_add_right ..), Nat.add_sub_cancel_left, List.getElem?_map]

/-- Each step reads the registers that those before it leave. -/
theorem run_getElem? {ops : List Operation} {i : Nat} {op : Operation} (atStep : ops[i]? = some op)
    (registers : List Value) :
    (run ops registers)[i]? = some (op.eval (read (registersAfter (ops.take i) registers))) := by
  induction ops generalizing registers i with
  | nil => cases atStep
  | cons first rest ih =>
    cases i with
    | zero =>
      cases atStep
      simp only [run, List.getElem?_cons_zero, List.take_zero, registersAfter, List.map_nil, List.append_nil]
    | succ i =>
      rw [List.take_succ_cons, registersAfter_cons]
      exact ih atStep _

/-- Up to the first division by zero, a run does what the types of its registers foretell. -/
theorem run_foretell {ops : List Operation} {registers : List Value} {i : Nat} {result : Except Fault Value}
    (atStep : (run ops registers)[i]? = some result)
    (divides : ∀ j ≤ i, (run ops registers)[j]? ≠ some (.error .zeroDivisor)) :
    (foretell ops (registers.map Value.kind))[i]? = some (result.map Value.kind) := by
  induction ops generalizing registers i with
  | nil => cases atStep
  | cons first rest ih =>
    have passes : first.eval (read registers) ≠ .error .zeroDivisor :=
      fun fails => divides 0 i.zero_le (congrArg some fails)
    have foreseen : (first.eval (read registers)).map Value.kind =
        first.foretell (readKind (registers.map Value.kind)) := by
      rw [(first.eval_kind (read registers)).2.2 passes]
      exact congrArg first.foretell (funext (kind_read registers))
    cases i with
    | zero =>
      cases atStep
      exact congrArg some foreseen.symm
    | succ i =>
      have later := ih atStep fun j within => divides (j + 1) (Nat.succ_le_succ within)
      rwa [List.map_append, List.map_singleton, kind_settle, foreseen] at later

/-- A register holds nil only from the start or from a step that failed. -/
theorem nil_registersAfter {ops : List Operation} {registers : List Value} {k : Nat}
    (isNil : (registersAfter ops registers)[k]? = some .nil) :
    registers[k]? = some .nil ∨
      ∃ i f, k = registers.length + i ∧ (run ops registers)[i]? = some (.error f) := by
  rcases Nat.lt_or_ge k registers.length with early | late
  · exact .inl (by rwa [registersAfter, List.getElem?_append_left early] at isNil)
  · right
    obtain ⟨i, rfl⟩ := Nat.exists_eq_add_of_le late
    rw [registersAfter_getElem?, Option.map_eq_some_iff] at isNil
    obtain ⟨result, atStep, settled⟩ := isNil
    cases result with
    | error f => exact ⟨i, f, rfl, atStep⟩
    | ok v =>
      have within : i < ops.length := length_run ops registers ▸ (List.getElem?_eq_some_iff.mp atStep).1
      have evaluated := run_getElem? (List.getElem?_eq_getElem within) registers
      have result := Option.some.inj (evaluated.symm.trans atStep)
      exact absurd (congrArg Value.kind settled) ((Operation.eval_kind _ _).1 v result).1

theorem registersAfter_failed {ops : List Operation} {registers : List Value} {i : Nat} {f : Fault}
    (fails : (run ops registers)[i]? = some (.error f)) :
    (registersAfter ops registers)[registers.length + i]? = some .nil := by
  rw [registersAfter_getElem?, fails]
  rfl

theorem outcomes_of_kinds {l r : Except Fault Value} (agree : l.map Value.kind = r.map Value.kind) :
    (∀ f, l = .error f ↔ r = .error f) ∧ ∀ a b, l = .ok a → r = .ok b → a.kind = b.kind := by
  cases l with
  | error f =>
    cases r with
    | error g =>
      obtain rfl : f = g := Except.error.inj agree
      exact ⟨fun _ => Iff.rfl, fun _ _ is => nomatch is⟩
    | ok b => cases agree
  | ok a =>
    cases r with
    | error g => cases agree
    | ok b =>
      refine ⟨by simp, ?_⟩
      rintro _ _ ⟨⟩ ⟨⟩
      exact Except.ok.inj agree

/-- Types alone foretell a calculation. Registers of the same types lead to the same faults at the same steps,
each of which leaves nil, and otherwise to values of the same types, up to the first division by zero of either
run. Each step has the outcome that the types of its operands foretell or divides a number by zero. None gives
a function, and nil comes only from the start or from a step that failed. -/
theorem run_same_kinds (ops : List Operation) {left right : List Value}
    (kinds : left.map Value.kind = right.map Value.kind) :
    (run ops left).length = ops.length ∧ (run ops right).length = ops.length ∧
      (∀ (i : Nat) (l r : Except Fault Value), (run ops left)[i]? = some l → (run ops right)[i]? = some r →
        (∀ j ≤ i, (run ops left)[j]? ≠ some (.error .zeroDivisor) ∧
          (run ops right)[j]? ≠ some (.error .zeroDivisor)) →
        (∀ f, l = .error f ↔ r = .error f) ∧
        (∀ f, l = .error f → (registersAfter ops left)[left.length + i]? = some .nil ∧
          (registersAfter ops right)[right.length + i]? = some .nil) ∧
        (∀ a b, l = .ok a → r = .ok b → a.kind = b.kind)) ∧
      (∀ (registers : List Value) (i : Nat) (op : Operation), ops[i]? = some op →
        let held := read (registersAfter (ops.take i) registers)
        (run ops registers)[i]? = some (op.eval held) ∧
        (op.eval held = .error .zeroDivisor → op.DividesNumbers held) ∧
        (op.eval held ≠ .error .zeroDivisor →
          (op.eval held).map Value.kind = op.foretell fun a => (held a).kind) ∧
        ∀ v, op.eval held = .ok v → v.kind ≠ .function) ∧
      ∀ (registers : List Value) (k : Nat), (registersAfter ops registers)[k]? = some .nil →
        registers[k]? = some .nil ∨
          ∃ i f, k = registers.length + i ∧ (run ops registers)[i]? = some (.error f) := by
  refine ⟨length_run ops left, length_run ops right, fun i l r atLeft atRight divides => ?_,
    fun registers i op atStep => ?_, fun registers k => nil_registersAfter⟩
  · have foreseen := run_foretell atLeft fun j within => (divides j within).1
    have foreseen' := run_foretell atRight fun j within => (divides j within).2
    have agree : l.map Value.kind = r.map Value.kind := by
      rw [kinds, foreseen'] at foreseen
      exact (Option.some.inj foreseen).symm
    obtain ⟨faults, values⟩ := outcomes_of_kinds agree
    refine ⟨faults, fun f fails => ⟨?_, ?_⟩, values⟩
    · exact registersAfter_failed (atLeft.trans (congrArg some fails))
    · exact registersAfter_failed (atRight.trans (congrArg some ((faults f).mp fails)))
  · obtain ⟨value, division, foreseen⟩ := op.eval_kind (read (registersAfter (ops.take i) registers))
    exact ⟨run_getElem? atStep registers, division, foreseen, fun v is => (value v is).2⟩

/-- A length that fails, a sum with the nil it leaves, and a quotient that fails from one of the two only. -/
theorem run_same_kinds_one_zero :
    let left : List Value := [.bool true, .number .nan, .number (.ofBits 0)]
    let right : List Value := [.bool false, .number (.ofBits 0), .number .nan]
    let ops : List Operation :=
      [.len (some 0), .binary .add (some 3) (some 1), .binary .divide (some 1) (some 2)]
    left.map Value.kind = right.map Value.kind ∧
      (run ops left)[1]? = some (.error (.operands "add" "nil" "number")) ∧
      (run ops right)[1]? = some (.error (.operands "add" "nil" "number")) ∧
      (run ops left)[2]? = some (.error .zeroDivisor) ∧ (run ops right)[2]? = some (.ok (.number .nan)) := by
  intro left right ops
  have kinds : left.map Value.kind = right.map Value.kind := rfl
  have fails : (run ops left)[1]? = some (.error (.operands "add" "nil" "number")) := by decide
  have divides : ∀ j ≤ 1, (run ops left)[j]? ≠ some (.error .zeroDivisor) ∧
      (run ops right)[j]? ≠ some (.error .zeroDivisor) := by decide
  obtain ⟨_, length, same, _⟩ := run_same_kinds ops kinds
  obtain ⟨r, atRight⟩ : ∃ r, (run ops right)[1]? = some r := ⟨_, List.getElem?_eq_getElem (by rw [length]; decide)⟩
  have failed : r = .error (.operands "add" "nil" "number") := ((same 1 _ r fails atRight divides).1 _).mp rfl
  exact ⟨kinds, fails, failed ▸ atRight, by decide, by decide⟩

end Calculation

end TaggedRuntime
