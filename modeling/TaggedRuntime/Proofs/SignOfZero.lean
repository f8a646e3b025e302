import TaggedRuntime.Binary64.Arithmetic

namespace TaggedRuntime.Binary64

def zero (negative : Bool) : Binary64 := .finite negative 0 representable_zero

theorem isZero_iff {x : Binary64} : x.isZero = true ↔ ∃ negative, x = zero negative := by
  cases x with
  | finite negative units representable =>
    constructor
    · intro none
      cases eq_of_beq none
      exact ⟨negative, rfl⟩
    · rintro ⟨other, same⟩
      cases same
      rfl
  | _ => simp [isZero, zero]

theorem limit_pos : 0 < limit := Nat.lt_of_lt_of_le Nat.one_pos (two_pow_le_limit (Nat.zero_le _))

@[simp] theorem signedUnits_zero (negative : Bool) : signedUnits negative 0 = 0 := by
  cases negative <;> rfl

/-- A signed magnitude tells its sign and its magnitude, but for zero. -/
theorem signedUnits_eq_iff {m n : Bool} {a b : Nat} :
    signedUnits m a = signedUnits n b ↔ m = n ∧ a = b ∨ a = 0 ∧ b = 0 := by
  cases m <;> cases n <;> simp [signedUnits] <;> omega

/-- Numbers are equal when they are the same or both zeros; not-a-number is equal to nothing. -/
theorem equal_iff {x y : Binary64} :
    x.equal y = true ↔ x ≠ nan ∧ x = y ∨ x.isZero = true ∧ y.isZero = true := by
  have positive := limit_pos
  cases x with
  | nan => simp [equal, related, place?, isZero]
  | infinite m =>
    cases y with
    | nan => simp [equal, related, place?, isZero]
    | infinite n =>
      have nonzero : limit ≠ 0 := Nat.ne_of_gt positive
      simp [equal, related, place?, isZero, signedUnits_eq_iff, nonzero]
    | finite n b representable =>
      have below : limit ≠ b := Nat.ne_of_gt representable.1
      have nonzero : limit ≠ 0 := Nat.ne_of_gt positive
      simp [equal, related, place?, isZero, signedUnits_eq_iff, below, nonzero]
  | finite m a representable =>
    cases y with
    | nan => simp [equal, related, place?, isZero]
    | infinite n =>
      have below : a ≠ limit := Nat.ne_of_lt representable.1
      have nonzero : limit ≠ 0 := Nat.ne_of_gt positive
      simp [equal, related, place?, isZero, signedUnits_eq_iff, below, nonzero]
    | finite n b _ => simp [equal, related, place?, isZero, signedUnits_eq_iff]

/-- Equal, or both not a number. -/
def Alike (x y : Binary64) : Prop := x.equal y = true ∨ x = nan ∧ y = nan

/-- Only the sign of a zero can differ between numbers that are alike. -/
theorem alike_iff {x y : Binary64} : x.Alike y ↔ x = y ∨ x.isZero = true ∧ y.isZero = true := by
  rw [Alike, equal_iff]
  constructor
  · rintro ((⟨_, same⟩ | zeros) | ⟨rfl, rfl⟩)
    · exact .inl same
    · exact .inr zeros
    · exact .inl rfl
  · rintro (rfl | zeros)
    · by_cases number : x = nan
      · exact .inr ⟨number, number⟩
      · exact .inl (.inl ⟨number, rfl⟩)
    · exact .inl (.inr zeros)

namespace Alike

theorem refl (x : Binary64) : x.Alike x := alike_iff.mpr (.inl rfl)

theorem zeros (m n : Bool) : (zero m).Alike (zero n) := alike_iff.mpr (.inr ⟨rfl, rfl⟩)

theorem trans {x y z : Binary64} (first : x.Alike y) (second : y.Alike z) : x.Alike z := by
  rcases alike_iff.mp first with rfl | ⟨left, middle⟩
  · exact second
  · rcases alike_iff.mp second with rfl | ⟨_, right⟩
    · exact first
    · exact alike_iff.mpr (.inr ⟨left, right⟩)

/-- A function that tells no zero from the other takes numbers that are alike to results in a relation, if
the results for one number are. -/
theorem lift {α : Type} {related : α → α → Prop} {f : Binary64 → α} (refl : ∀ x, related (f x) (f x))
    (zeros : ∀ m n, related (f (zero m)) (f (zero n))) {x y : Binary64} (alike : x.Alike y) :
    related (f x) (f y) := by
  rcases alike_iff.mp alike with rfl | ⟨left, right⟩
  · exact refl x
  · obtain ⟨m, rfl⟩ := isZero_iff.mp left
    obtain ⟨n, rfl⟩ := isZero_iff.mp right
    exact zeros m n

theorem place? {x y : Binary64} (alike : x.Alike y) : x.place? = y.place? :=
  alike.lift (fun _ => rfl) fun m n => by simp [Binary64.place?, zero]

theorem isZero {x y : Binary64} (alike : x.Alike y) : x.isZero = y.isZero :=
  alike.lift (fun _ => rfl) fun _ _ => rfl

theorem toInt64 {x y : Binary64} (alike : x.Alike y) : x.toInt64 = y.toInt64 :=
  alike.lift (fun _ => rfl) fun m n => by simp [Binary64.toInt64, zero]

theorem related {relation : Int → Int → Bool} {x x' y y' : Binary64} (left : x.Alike x') (right : y.Alike y') :
    related relation x y = related relation x' y' := by
  rw [Binary64.related, Binary64.related, left.place?, right.place?]

theorem remainder? {x x' y y' : Binary64} (left : x.Alike x') (right : y.Alike y') :
    x.remainder? y = x'.remainder? y' := by
  rw [Binary64.remainder?, Binary64.remainder?, left.toInt64, right.toInt64]

theorem neg {x y : Binary64} (alike : x.Alike y) : x.neg.Alike y.neg :=
  alike.lift (fun x => refl x.neg) fun m n => zeros (!m) (!n)

end Alike

theorem roundQuotient_zero (den : Nat) : roundQuotient 0 den = 0 := by
  have small : 2 * (0 % den) < den ∨ 2 * (0 % den) = den ∧ 0 / den % 2 = 0 := by
    rcases Nat.eq_zero_or_pos den with rfl | positive <;> simp [*]
  unfold roundQuotient
  dsimp only
  rw [if_pos small, Nat.zero_div]

theorem nearest_zero (den : Nat) : nearest 0 den = 0 := by
  unfold nearest
  dsimp only
  rw [roundQuotient_zero, Nat.zero_mul]

theorem ofQuotient_zero (negative : Bool) (den : Nat) : ofQuotient negative 0 den = zero negative := by
  have bounded : nearest 0 den < limit := by rw [nearest_zero]; exact limit_pos
  rw [ofQuotient, dif_pos bounded]
  simp only [nearest_zero, zero]

/-- The sign that a quotient is given does not count if it is zero. -/
theorem ofQuotient_alike {m n : Bool} {num : Nat} (sign : num ≠ 0 → m = n) (den : Nat) :
    (ofQuotient m num den).Alike (ofQuotient n num den) := by
  by_cases none : num = 0
  · rw [none, ofQuotient_zero, ofQuotient_zero]
    exact .zeros m n
  · rw [sign none]
    exact .refl _

theorem sum_sign {m n : Bool} {sum : Int} (some : sum.natAbs ≠ 0) :
    (if sum = 0 then m else decide (sum < 0)) = if sum = 0 then n else decide (sum < 0) := by
  have nonzero : sum ≠ 0 := Int.natAbs_ne_zero.mp some
  rw [if_neg nonzero, if_neg nonzero]

namespace Alike

variable {x x' y y' : Binary64}

theorem add (left : x.Alike x') (right : y.Alike y') : (x.add y).Alike (x'.add y') := by
  -- one operand at a time, since zeros of both signs can stand on both sides
  have first : (x.add y).Alike (x'.add y) := by
    refine left.lift (f := (·.add y)) (fun x => refl _) fun m n => ?_
    cases y with
    | finite k b _ => simpa only [Binary64.add, zero, signedUnits_zero] using ofQuotient_alike sum_sign 1
    | _ => exact refl _
  have second : (x'.add y).Alike (x'.add y') := by
    refine right.lift (f := x'.add) (fun y => refl _) fun m n => ?_
    cases x' with
    | finite k b _ => simpa only [Binary64.add, zero, signedUnits_zero] using ofQuotient_alike sum_sign 1
    | _ => exact refl _
  exact first.trans second

theorem sub (left : x.Alike x') (right : y.Alike y') : (x.sub y).Alike (x'.sub y') := left.add right.neg

theorem mul (left : x.Alike x') (right : y.Alike y') : (x.mul y).Alike (x'.mul y') := by
  have first : (x.mul y).Alike (x'.mul y) := by
    refine left.lift (f := (·.mul y)) (fun x => refl _) fun m n => ?_
    cases y with
    | finite k b _ => exact ofQuotient_alike (fun some => absurd (Nat.zero_mul b) some) one
    | _ => exact refl _
  have second : (x'.mul y).Alike (x'.mul y') := by
    refine right.lift (f := x'.mul) (fun y => refl _) fun m n => ?_
    cases x' with
    | finite k b _ => exact ofQuotient_alike (fun some => absurd (Nat.mul_zero b) some) one
    | _ => exact refl _
  exact first.trans second

/-- A zero divisor is left out: there the sign would decide between the infinities. -/
theorem div (left : x.Alike x') (right : y.Alike y') (divisor : y.isZero = false) :
    (x.div y).Alike (x'.div y') := by
  rcases alike_iff.mp right with rfl | ⟨none, _⟩
  · refine left.lift (f := (·.div y)) (fun x => refl _) fun m n => ?_
    cases y with
    | nan => exact refl _
    | infinite k => exact zeros _ _
    | finite k b _ =>
      have nonzero : b ≠ 0 := by simpa [Binary64.isZero] using divisor
      simp only [Binary64.div, zero, if_neg nonzero]
      exact ofQuotient_alike (fun some => absurd (Nat.zero_mul one) some) b
  · cases none.symm.trans divisor

end Alike

end TaggedRuntime.Binary64
