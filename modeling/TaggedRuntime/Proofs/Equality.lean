import TaggedRuntime.Proofs.CharacterBytes
import TaggedRuntime.Proofs.Indistinct
import TaggedRuntime.Proofs.NumberText

namespace TaggedRuntime

theorem Binary64.ne_nan_of_isZero {x : Binary64} (zero : x.isZero = true) : x ≠ .nan := by
  rintro rfl
  cases zero

namespace Value

/-- Values of one type that are printed alike are the same, but for those that are equal to nothing. -/
theorem written_eq_iff {a b : Value} (kind : a.kind = b.kind) (data : a.kind ≠ .function) (left : a ≠ number .nan)
    (right : b ≠ number .nan) : a.written = b.written ↔ a = b := by
  refine ⟨fun same => ?_, congrArg written⟩
  cases a <;> cases b <;> cases kind
  case nil => rfl
  case bool a b => cases a <;> cases b <;> first | rfl | exact absurd same (by decide)
  case number x y =>
    have text := Utf8.encode_inj.mp same
    rw [Binary64.text_injective (fun nan => left (congrArg number nan)) (fun nan => right (congrArg number nan)) text]
  case string => exact congrArg string same
  case function => exact absurd rfl data

/-- Values are equal when they are the same or both zeros, and neither a function nor not-a-number is equal to anything. -/
theorem same_iff {a b : Value} : same a b = true ↔
    a.kind = b.kind ∧ a.kind ≠ .function ∧ a ≠ number .nan ∧ b ≠ number .nan ∧
      (a = b ∨ a.isZero = true ∧ b.isZero = true) := by
  cases a <;> cases b
  case number.number x y =>
    simp only [same, kind, isZero, Binary64.equal_iff, ne_eq, number.injEq, reduceCtorEq, not_false_eq_true, true_and]
    constructor
    · rintro (⟨some, rfl⟩ | ⟨left, right⟩)
      · exact ⟨some, some, .inl rfl⟩
      · exact ⟨Binary64.ne_nan_of_isZero left, Binary64.ne_nan_of_isZero right, .inr ⟨left, right⟩⟩
    · rintro ⟨some, _, one⟩
      exact one.imp_left fun equal => ⟨some, equal⟩
  all_goals simp [same, kind, isZero]

theorem same_comm (a b : Value) : same a b = same b a := by
  have imp {a b : Value} (equal : same a b = true) : same b a = true := by
    obtain ⟨kind, data, left, right, one⟩ := same_iff.mp equal
    exact same_iff.mpr ⟨kind.symm, kind ▸ data, right, left, one.imp Eq.symm And.symm⟩
  exact Bool.eq_iff_iff.mpr ⟨imp, imp⟩

theorem same_trans {a b c : Value} (first : same a b = true) (second : same b c = true) : same a c = true := by
  obtain ⟨kind, data, left, _, one⟩ := same_iff.mp first
  obtain ⟨kind', _, _, right, other⟩ := same_iff.mp second
  refine same_iff.mpr ⟨kind.trans kind', data, left, right, ?_⟩
  rcases one with rfl | ⟨zero, middle⟩
  · exact other
  · rcases other with rfl | ⟨_, zero'⟩
    · exact .inr ⟨zero, middle⟩
    · exact .inr ⟨zero, zero'⟩

theorem same_self_iff {a : Value} : same a a = true ↔ a ≠ number .nan ∧ a.kind ≠ .function := by
  rw [same_iff]
  simp [and_comm]

/-- Values are equal exactly when they have one type, not that of functions, are numbers if that is the type, and are
printed alike or are zeros. So equality goes both ways and on from one value to the next, each value is equal to itself
but not-a-number and the functions, and all ways to ask whether values differ deny just that. -/
theorem same_iff_written :
    (∀ a b : Value, same a b = true ↔
        a.kind = b.kind ∧ a.kind ≠ .function ∧ a ≠ number .nan ∧ b ≠ number .nan ∧
          (a.written = b.written ∨ a.isZero = true ∧ b.isZero = true)) ∧
      (∀ a b : Value, same a b = same b a) ∧
      (∀ a b c : Value, same a b = true → same b c = true → same a c = true) ∧
      (∀ a : Value, same a a = true ↔ a ≠ number .nan ∧ a.kind ≠ .function) ∧
      ∀ a b : Value, ∃ holds : Bool, holds = same a b ∧
        equal a b = bool holds ∧ notEqual a b = bool !holds ∧
        BinaryOp.equal.eval a b = .ok (bool holds) ∧ BinaryOp.notEqual.eval a b = .ok (bool !holds) := by
  refine ⟨fun a b => ?_, same_comm, fun _ _ _ => same_trans, fun _ => same_self_iff,
    fun a b => ⟨_, rfl, rfl, rfl, rfl, rfl⟩⟩
  rw [same_iff]
  refine and_congr_right fun kind => and_congr_right fun data => and_congr_right fun left =>
    and_congr_right fun right => ?_
  rw [written_eq_iff kind data left right]

/-- The zeros are printed apart and are equal. -/
theorem same_iff_written_zeros :
    (number (.zero true)).written ≠ (number (.zero false)).written ∧
      same (number (.zero true)) (number (.zero false)) = true ∧
      same (number (.zero true)) (number (.zero true)) = true := by
  obtain ⟨_, comm, trans, _⟩ := same_iff_written
  have zeros : same (number (.zero true)) (number (.zero false)) = true := by decide
  exact ⟨by decide +kernel, zeros, trans _ _ _ zeros (comm _ _ ▸ zeros)⟩

end Value

end TaggedRuntime
