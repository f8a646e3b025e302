import TaggedRuntime.Binary64.Text
import TaggedRuntime.Proofs.BitPattern
import TaggedRuntime.Proofs.Rounding
import TaggedRuntime.Proofs.ShortestDecimal

namespace TaggedRuntime.Binary64

/-- What a finite double is worth, its sign apart. -/
def magnitude : Binary64 → ℚ
  | .finite _ units _ => units / one
  | _ => 0

theorem cast_one_pos : (0 : ℚ) < one := Nat.cast_pos.mpr one_pos

theorem cast_one_ne_zero : (one : ℚ) ≠ 0 := cast_one_pos.ne'

theorem cast_fives_ne_zero : (fives : ℚ) ≠ 0 := Nat.cast_ne_zero.mpr fives_pos.ne'

theorem ten_pow_eq : (10 : ℚ) ^ 1074 = one * fives := by
  have cast (n : Nat) : ((10 ^ n : Nat) : ℚ) = 10 ^ n := by rw [Nat.cast_pow, Nat.cast_ofNat]
  rw [← Nat.cast_mul, one_mul_fives, cast]

theorem readsBack_iff {units steps : Nat} : readsBack units steps = true ↔ Nearest (steps / fives) units :=
  beq_iff_eq.trans (nearest_eq_iff fives_pos)

theorem readsBack_self {units : Nat} (onGrid : OnGrid units) : readsBack units (units * fives) = true := by
  rw [readsBack_iff, Nat.cast_mul, mul_div_cancel_right₀ _ cast_fives_ne_zero]
  exact .self onGrid

theorem readsBack_interval {units : Nat} (onGrid : OnGrid units) (nonzero : units ≠ 0) :
    Decimal.Interval (readsBack units) (fun r => Nearest (r / fives) units) (units * fives) where
  agrees _ := readsBack_iff
  between lower upper above below :=
    lower.between upper (div_le_div_of_nonneg_right above (Nat.cast_nonneg _))
      (div_le_div_of_nonneg_right below (Nat.cast_nonneg _))
  value := readsBack_iff.mp (readsBack_self onGrid)
  not_zero zero := by
    rw [zero_div, ← Nat.cast_zero] at zero
    exact nonzero (zero.unique (.self (Nat.dvd_zero _)))

theorem decimal_nearest {units : Nat} (onGrid : OnGrid units) :
    Nearest ((decimal units).coefficient / fives) units :=
  readsBack_iff.mp (Decimal.accepts_shortest (readsBack_self onGrid))

theorem toRat_decimal (units : Nat) : (decimal units).toRat = (decimal units).coefficient / (one * fives) := by
  rw [← ten_pow_eq, Decimal.toRat, decimal]

theorem decimal_rounds (negative : Bool) {units : Nat} (representable : Representable units) :
    Rounds negative (decimal units).toRat (.finite negative units representable) := by
  refine .finite representable ?_
  rw [toRat_decimal, mul_comm (one : ℚ), ← div_div, div_mul_cancel₀ _ cast_one_ne_zero]
  exact decimal_nearest representable.2

/-- A double is printed without a point exactly if it is a whole number. -/
theorem decimal_whole_iff {units : Nat} (onGrid : OnGrid units) :
    10 ^ (decimal units).places ∣ (decimal units).coefficient ↔ ∃ whole : Nat, (units / one : ℚ) = whole := by
  have places : 10 ^ (decimal units).places = one * fives := by rw [one_mul_fives, decimal]
  rw [places]
  constructor
  · rintro ⟨whole, coefficient⟩
    have near := decimal_nearest onGrid
    rw [coefficient, Nat.mul_right_comm, Nat.cast_mul, mul_div_cancel_right₀ _ cast_fives_ne_zero,
      Nat.mul_comm] at near
    obtain ⟨k, multiple⟩ : one ∣ units := near.dvd
    exact ⟨k, by rw [multiple, Nat.cast_mul, mul_div_cancel_left₀ _ cast_one_ne_zero]⟩
  · rintro ⟨whole, value⟩
    rw [div_eq_iff cast_one_ne_zero, ← Nat.cast_mul, Nat.cast_inj] at value
    have multiple : 10 ^ 1074 ∣ units * fives := by
      rw [value, Nat.mul_assoc, one_mul_fives]
      exact Nat.dvd_mul_left ..
    rw [one_mul_fives]
    exact Decimal.dvd_shortest (readsBack_self onGrid) multiple

def numeral (negative : Bool) (units : Nat) : Numeral := .ofDecimal negative (decimal units)

theorem text_finite (negative : Bool) {units : Nat} (representable : Representable units) :
    (finite negative units representable).text = String.ofList (numeral negative units).chars := by
  rw [numeral, Numeral.chars_ofDecimal, text]

/-- The text of a finite double is a decimal that rounds to it. -/
theorem text_reads (negative : Bool) {units : Nat} (representable : Representable units) :
    Decimal.read? (finite negative units representable).text.toList =
        some (negative, (numeral negative units).toDecimal) ∧
      Rounds negative (numeral negative units).toDecimal.toRat (.finite negative units representable) := by
  rw [text_finite, String.toList_ofList, numeral, Numeral.toRat_toDecimal_ofDecimal]
  exact ⟨(Numeral.ofDecimal_canonical ..).read?, decimal_rounds negative representable⟩

theorem read?_infinite (negative : Bool) : Decimal.read? (infinite negative).text.toList = none := by
  cases negative <;> decide

theorem text_injective {x y : Binary64} (left : x ≠ .nan) (right : y ≠ .nan) (same : x.text = y.text) :
    x = y := by
  cases x with
  | nan => exact absurd rfl left
  | infinite m =>
    cases y with
    | nan => exact absurd rfl right
    | infinite n => cases m <;> cases n <;> simp_all [text]
    | finite n _ representable =>
      have reads := (text_reads n representable).1
      rw [← same, read?_infinite] at reads
      cases reads
  | finite m _ first =>
    have reads := text_reads m first
    cases y with
    | nan => exact absurd rfl right
    | infinite n =>
      rw [same, read?_infinite] at reads
      cases reads.1
    | finite n _ second =>
      have others := text_reads n second
      rw [same, others.1] at reads
      obtain ⟨rfl, decimals⟩ := Prod.mk.inj (Option.some.inj reads.1)
      exact reads.2.unique (decimals ▸ others.2)

theorem significant_numeral (negative : Bool) (units : Nat) :
    Decimal.significant (numeral negative units).toDecimal.coefficient =
      Decimal.significant (decimal units).coefficient := by
  obtain ⟨zeros, _, coefficient⟩ := Numeral.toDecimal_ofDecimal negative (decimal units)
  rw [← coefficient, Decimal.significant_mul_pow, numeral]

theorem cast_one_mul_fives_pos : (0 : ℚ) < one * fives :=
  mul_pos cast_one_pos (Nat.cast_pos.mpr fives_pos)

theorem toRat_numeral_mul (negative : Bool) (units : Nat) :
    (numeral negative units).toDecimal.toRat * (one * fives) = (decimal units).coefficient := by
  rw [numeral, Numeral.toRat_toDecimal_ofDecimal, toRat_decimal, div_mul_cancel₀ _ cast_one_mul_fives_pos.ne']

/-- Distances from a double, in the steps of the search. -/
theorem abs_sub_magnitude_mul (negative : Bool) {units : Nat} (representable : Representable units) (r : ℚ) :
    |r - (finite negative units representable).magnitude| * (one * fives) =
      |r * (one * fives) - (units * fives : Nat)| := by
  have scaled : (finite negative units representable).magnitude * (one * fives) = (units * fives : Nat) := by
    rw [magnitude, ← mul_assoc, div_mul_cancel₀ _ cast_one_ne_zero, Nat.cast_mul]
  rw [← scaled, ← sub_mul, abs_mul, abs_of_pos cast_one_mul_fives_pos]

/-- A finite double is written canonically, with the sign of its word and a point exactly if it is no whole
number, and what is written rounds to it alone. So no two numbers share a text, zeros and infinities included. -/
theorem text_round_trip :
    (∀ bits : UInt64, bits.toNat / 2 ^ 52 % 2 ^ 11 ≠ 2047 →
      ∃ n : Numeral, n.Canonical ∧ (ofBits bits).text = String.ofList n.chars ∧
        (n.negative = true ↔ 2 ^ 63 ≤ bits.toNat) ∧
        (n.fraction = [] ↔ ∃ whole : Nat, (ofBits bits).magnitude = whole) ∧
        ∃ d, Decimal.read? (ofBits bits).text.toList = some (n.negative, d) ∧
          (∀ y, Rounds n.negative d.toRat y ↔ y = ofBits bits) ∧ (ofBits bits).toBits = bits) ∧
      (∀ left right : UInt64, ofBits left ≠ .nan → ofBits right ≠ .nan → left ≠ right →
        (ofBits left).text ≠ (ofBits right).text) ∧
      ∀ negative, (infinite negative).text = if negative then "-inf" else "inf" := by
  refine ⟨?_, ?_, fun negative => by cases negative <;> rfl⟩
  · intro bits finite
    obtain ⟨units, representable, same, _⟩ := ofBits_finite finite
    have word : (ofBits bits).toBits = bits := toBits_ofBits (by simp [same])
    rw [same] at word ⊢
    obtain ⟨reads, rounds⟩ := text_reads (decide (2 ^ 63 ≤ bits.toNat)) representable
    refine ⟨numeral _ units, Numeral.ofDecimal_canonical .., text_finite _ representable, decide_eq_true_iff, ?_,
      _, reads, fun y => ⟨fun other => other.unique rounds, fun eq => eq ▸ rounds⟩, word⟩
    rw [numeral, Numeral.ofDecimal_fraction_eq_nil_iff, decimal_whole_iff representable.2, magnitude]
  · intro left right leftNumber rightNumber different same
    have words := congrArg toBits (text_injective leftNumber rightNumber same)
    rw [toBits_ofBits leftNumber, toBits_ofBits rightNumber] at words
    exact different words

/-- One tenth is written `0.1`, and the zeros are written apart. -/
theorem text_round_trip_one_tenth :
    (∃ d, Decimal.read? "0.1".toList = some (false, d) ∧
      ∀ y, Rounds false d.toRat y ↔ y = ofBits 0x3fb999999999999a) ∧
      (ofBits 0x8000000000000000).text ≠ (ofBits 0).text := by
  have tenth : (ofBits 0x3fb999999999999a).text = "0.1" := by decide +kernel
  obtain ⟨n, _, _, sign, _, d, reads, rounds, _⟩ := text_round_trip.1 0x3fb999999999999a (by decide)
  have positive : n.negative = false := Bool.eq_false_iff.mpr (sign.not.mpr (by decide))
  rw [positive, tenth] at reads
  rw [positive] at rounds
  exact ⟨⟨d, reads, rounds⟩, text_round_trip.2.1 _ _ (by decide) (by decide) (by decide)⟩

/-- No decimal with fewer digits rounds to a double than the one printed, and none with as many is nearer. -/
theorem text_minimal (negative : Bool) {units : Nat} (representable : Representable units)
    (nonzero : units ≠ 0) :
    ∃ printed, Decimal.read? (finite negative units representable).text.toList = some (negative, printed) ∧
      Rounds negative printed.toRat (.finite negative units representable) ∧
      ∀ sign (d : Decimal), Rounds sign d.toRat (.finite negative units representable) → sign = negative ∧
        Decimal.significant printed.coefficient ≤ Decimal.significant d.coefficient ∧
        (Decimal.significant d.coefficient = Decimal.significant printed.coefficient →
          |printed.toRat - (finite negative units representable).magnitude| ≤
            |d.toRat - (finite negative units representable).magnitude|) := by
  obtain ⟨reads, rounds⟩ := text_reads negative representable
  refine ⟨_, reads, rounds, ?_⟩
  intro sign d other
  cases other with
  | finite _ near =>
    have interval := readsBack_interval representable.2 nonzero
    have reads : Nearest (d.toRat * 10 ^ 1074 / fives) units := by
      rwa [ten_pow_eq, ← mul_assoc, mul_div_cancel_right₀ _ cast_fives_ne_zero]
    obtain ⟨fewest, nearest⟩ := interval.shortest_minimal reads
    rw [significant_numeral]
    refine ⟨rfl, fewest, fun same => ?_⟩
    have distance := nearest same.symm
    refine le_of_mul_le_mul_right ?_ cast_one_mul_fives_pos
    rw [abs_sub_magnitude_mul, abs_sub_magnitude_mul, toRat_numeral_mul, ← ten_pow_eq]
    exact distance

/-- One tenth and two tenths sum to a double that needs seventeen digits. -/
theorem text_minimal_sum_of_tenths :
    (ofBits 0x3fd3333333333334).text = "0.30000000000000004" ∧
      ¬∃ sign, ∃ d : Decimal, Rounds sign d.toRat (ofBits 0x3fd3333333333334) ∧
        Decimal.significant d.coefficient < 17 := by
  have sum : (ofBits 0x3fd3333333333334).text = "0.30000000000000004" := by decide +kernel
  have digits : Decimal.read? "0.30000000000000004".toList = some (false, ⟨30000000000000004, 17⟩) := by
    decide +kernel
  have word : (0x3fd3333333333334 : UInt64).toNat / 2 ^ 52 % 2 ^ 11 ≠ 2047 := by decide
  obtain ⟨units, representable, same, magnitude⟩ := ofBits_finite word
  have nonzero : units ≠ 0 := by
    rintro rfl
    rw [magnitudeBits_of_lt (by decide)] at magnitude
    exact absurd magnitude (by decide)
  obtain ⟨printed, reads, _, minimal⟩ := text_minimal _ representable nonzero
  rw [← same, sum, digits] at reads
  obtain ⟨_, rfl⟩ := Prod.mk.inj (Option.some.inj reads)
  refine ⟨sum, ?_⟩
  rintro ⟨sign, d, rounds, fewer⟩
  have fewest : Decimal.significant 30000000000000004 ≤ Decimal.significant d.coefficient :=
    (minimal sign d (same ▸ rounds)).2.1
  have all : Decimal.significant 30000000000000004 = 17 := by decide +kernel
  omega

end TaggedRuntime.Binary64
