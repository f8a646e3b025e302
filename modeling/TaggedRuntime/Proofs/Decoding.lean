import TaggedRuntime.Text.Utf8

namespace TaggedRuntime.Utf8

attribute [local instance (high)] instPowNat

theorem toNat_ofNat {code : Nat} (scalar : code.isValidChar) : (Char.ofNat code).toNat = code := by
  rw [Char.ofNat, dif_pos scalar]
  rfl

theorem toNat_replacement : replacement.toNat = 0xfffd := rfl

namespace Pending

/-- The least code that the bytes to come can complete. -/
def lowest (p : Pending) : Nat := (p.code * 64 + (p.least.toNat - 0x80)) * 64 ^ p.later

/-- The code after the greatest that they can complete. -/
def beyond (p : Pending) : Nat := (p.code * 64 + (p.most.toNat - 0x80) + 1) * 64 ^ p.later

/-- The bytes that can follow are past ASCII, and so is what they complete, which is no surrogate either. -/
structure Valid (p : Pending) : Prop where
  least : 0x80 ≤ p.least.toNat
  lowest : 0x80 ≤ p.lowest
  beyond : p.beyond ≤ 0xd800 ∨ 0xe000 ≤ p.lowest ∧ p.beyond ≤ 0x110000

/-- One byte more narrows the codes that can be completed. -/
theorem Valid.further {p : Pending} (valid : p.Valid) {later : Nat} (more : p.later = later + 1) {b : UInt8}
    (atLeast : p.least ≤ b) (atMost : b ≤ p.most) :
    Valid ⟨p.code * 64 + (b.toNat - 0x80), later, 0x80, 0xbf⟩ := by
  rw [UInt8.le_iff_toNat_le] at atLeast atMost
  have scale (code : Nat) : code * 64 ^ p.later = code * 64 * 64 ^ later := by
    rw [more, Nat.pow_succ, Nat.mul_comm (64 ^ later) 64, Nat.mul_assoc]
  have lower : p.lowest ≤ Pending.lowest ⟨p.code * 64 + (b.toNat - 0x80), later, 0x80, 0xbf⟩ := by
    rw [Pending.lowest, scale]
    exact Nat.mul_le_mul_right _ (by simp only [UInt8.reduceToNat]; omega)
  have upper : Pending.beyond ⟨p.code * 64 + (b.toNat - 0x80), later, 0x80, 0xbf⟩ ≤ p.beyond := by
    rw [Pending.beyond, Pending.beyond, scale]
    exact Nat.mul_le_mul_right _ (by simp only [UInt8.reduceToNat]; omega)
  have low := valid.lowest
  have high := valid.beyond
  exact ⟨Nat.le_refl _, by omega, by omega⟩

/-- The last byte completes a character, and one of just that code. -/
theorem Valid.complete {p : Pending} (valid : p.Valid) (last : p.later = 0) {b : UInt8} (atLeast : p.least ≤ b)
    (atMost : b ≤ p.most) :
    (Char.ofNat (p.code * 64 + (b.toNat - 0x80))).toNat = p.code * 64 + (b.toNat - 0x80) ∧
      0x80 ≤ p.code * 64 + (b.toNat - 0x80) := by
  rw [UInt8.le_iff_toNat_le] at atLeast atMost
  have low := valid.lowest
  have high := valid.beyond
  simp only [Pending.lowest, Pending.beyond, last, Nat.pow_zero, Nat.mul_one] at low high
  have scalar : (p.code * 64 + (b.toNat - 0x80)).isValidChar := by
    unfold Nat.isValidChar
    omega
  exact ⟨toNat_ofNat scalar, by omega⟩

end Pending

theorem start_valid {b : UInt8} {p : Pending} (begun : (start b).2 = some p) : p.Valid := by
  unfold start at begun
  split at begun
  · cases begun
  split at begun
  · cases begun
  split at begun
  · next past lead lead2 =>
    obtain rfl := Option.some.inj begun
    simp only [UInt8.lt_iff_toNat_lt, UInt8.reduceToNat] at past lead lead2
    constructor <;> simp only [Pending.lowest, Pending.beyond, UInt8.reduceToNat] <;> omega
  split at begun
  · next past lead lead2 lead3 =>
    obtain rfl := Option.some.inj begun
    by_cases first : b = 0xe0
    · subst first
      exact ⟨by decide, by decide, by decide⟩
    by_cases surrogates : b = 0xed
    · subst surrogates
      exact ⟨by decide, by decide, by decide⟩
    simp only [first, surrogates, if_false]
    simp only [← UInt8.toNat_inj, UInt8.lt_iff_toNat_lt, UInt8.reduceToNat] at first surrogates past lead lead2 lead3
    constructor <;> simp only [Pending.lowest, Pending.beyond, UInt8.reduceToNat] <;> omega
  split at begun
  · next past lead lead2 lead3 lead4 =>
    obtain rfl := Option.some.inj begun
    by_cases first : b = 0xf0
    · subst first
      exact ⟨by decide, by decide, by decide⟩
    by_cases last : b = 0xf4
    · subst last
      exact ⟨by decide, by decide, by decide⟩
    simp only [first, last, if_false]
    simp only [← UInt8.toNat_inj, UInt8.lt_iff_toNat_lt, UInt8.reduceToNat] at first last past lead lead2 lead3 lead4
    constructor <;> simp only [Pending.lowest, Pending.beyond, UInt8.reduceToNat] <;> omega
  · cases begun

theorem next_valid {pending : Option Pending} (valid : ∀ p ∈ pending, p.Valid) {b : UInt8} :
    ∀ p ∈ (next pending b).2, p.Valid := by
  intro p left
  cases pending with
  | none => exact start_valid left
  | some q =>
    simp only [next] at left
    split at left
    · next range =>
      cases later : q.later with
      | zero =>
        simp only [later] at left
        cases left
      | succ more =>
        simp only [later, Option.mem_def, Option.some.injEq] at left
        exact left ▸ (valid q rfl).further later range.1 range.2
    · exact start_valid left

theorem start_ascii {b : UInt8} (ascii : b < 0x80) : start b = ([Char.ofNat b.toNat], none) := by
  rw [start, if_pos ascii]

/-- A byte past ASCII does not stand for a character by itself. -/
theorem start_of_past {b : UInt8} (past : ¬b < 0x80) {c : Char} (member : c ∈ (start b).1) : c = replacement := by
  unfold start at member
  rw [if_neg past] at member
  split at member
  · exact List.mem_singleton.mp member
  split at member
  · cases member
  split at member
  · cases member
  split at member
  · cases member
  · exact List.mem_singleton.mp member

theorem toNat_of_mem_start {b : UInt8} {c : Char} (ascii : c.toNat < 0x80) (member : c ∈ (start b).1) :
    b.toNat = c.toNat := by
  by_cases past : b < 0x80
  · rw [start_ascii past, List.mem_singleton] at member
    rw [UInt8.lt_iff_toNat_lt] at past
    rw [member, toNat_ofNat (.inl (Nat.lt_trans past (by decide)))]
  · rw [start_of_past past member, toNat_replacement] at ascii
    exact absurd ascii (by decide)

/-- An ASCII character comes from its own byte and from nothing else. -/
theorem toNat_of_mem_next {pending : Option Pending} (valid : ∀ p ∈ pending, p.Valid) {b : UInt8} {c : Char}
    (ascii : c.toNat < 0x80) (member : c ∈ (next pending b).1) : b.toNat = c.toNat := by
  cases pending with
  | none => exact toNat_of_mem_start ascii member
  | some p =>
    simp only [next] at member
    split at member
    · next range =>
      cases later : p.later with
      | zero =>
        -- what more than one byte completes is past ASCII
        obtain ⟨code, past⟩ := (valid p rfl).complete later range.1 range.2
        simp only [later, List.mem_singleton] at member
        rw [member, code] at ascii
        omega
      | succ more =>
        simp only [later] at member
        cases member
    · rcases List.mem_cons.mp member with rfl | begun
      · rw [toNat_replacement] at ascii
        exact absurd ascii (by decide)
      · exact toNat_of_mem_start ascii begun

/-- An ASCII byte ends what is pending and stands for its own character. -/
theorem next_ascii {pending : Option Pending} (valid : ∀ p ∈ pending, p.Valid) {b : UInt8} (ascii : b < 0x80) :
    next pending b = (decodeFrom pending [] ++ [Char.ofNat b.toNat], none) := by
  cases pending with
  | none => exact start_ascii ascii
  | some p =>
    have outside : ¬(p.least ≤ b ∧ b ≤ p.most) := by
      rintro ⟨atLeast, _⟩
      have past := (valid p rfl).least
      simp only [UInt8.le_iff_toNat_le, UInt8.lt_iff_toNat_lt, UInt8.reduceToNat] at atLeast ascii
      omega
    rw [next, if_neg outside, start_ascii ascii]
    rfl

theorem decodeFrom_cons (pending : Option Pending) (b : UInt8) (rest : Bytes) :
    decodeFrom pending (b :: rest) = (next pending b).1 ++ decodeFrom (next pending b).2 rest := by
  cases pending <;> rfl

end TaggedRuntime.Utf8
