import Mathlib.Algebra.Order.Ring.Int
import TaggedRuntime.Proofs.BitPattern
import TaggedRuntime.Proofs.OperatorFaults

namespace TaggedRuntime

namespace Binary64

/-- Where a word stands among the words of numbers, which is where its number stands among the numbers: a word is
read as a sign and a whole number of 63 bits. Past the words of the infinities none holds a number. -/
def rank? (word : UInt64) : Option ℤ :=
  if word.toNat % 2 ^ 63 ≤ 2047 * 2 ^ 52 then
    some (signedUnits (decide (2 ^ 63 ≤ word.toNat)) (word.toNat % 2 ^ 63))
  else none

/-- The magnitude that the bits below the sign hold, where infinity is held to stand at the limit. -/
def unitsOf (bits : Nat) : Nat :=
  if bits / 2 ^ 52 = 0 then bits else (2 ^ 52 + bits % 2 ^ 52) * 2 ^ (bits / 2 ^ 52 - 1)

theorem unitsOf_small {bits : Nat} (small : bits < 2 ^ 52) : unitsOf bits = bits := by
  rw [unitsOf, if_pos (by omega)]

theorem unitsOf_mul_add {k fraction : Nat} (small : fraction < 2 ^ 52) :
    unitsOf ((k + 1) * 2 ^ 52 + fraction) = (2 ^ 52 + fraction) * 2 ^ k := by
  have exponent : ((k + 1) * 2 ^ 52 + fraction) / 2 ^ 52 = k + 1 := by omega
  have rest : ((k + 1) * 2 ^ 52 + fraction) % 2 ^ 52 = fraction := by omega
  rw [unitsOf, exponent, rest, if_neg k.succ_ne_zero, Nat.add_sub_cancel]

theorem unitsOf_lt_succ (bits : Nat) : unitsOf bits < unitsOf (bits + 1) := by
  by_cases small : bits < 2 ^ 52
  · by_cases last : bits + 1 < 2 ^ 52
    · rw [unitsOf_small small, unitsOf_small last]
      exact bits.lt_succ_self
    · have least : bits + 1 = (0 + 1) * 2 ^ 52 + 0 := by omega
      rw [unitsOf_small small, least, unitsOf_mul_add (by decide)]
      omega
  · obtain ⟨k, fraction, bound, rfl⟩ : ∃ k fraction, fraction < 2 ^ 52 ∧ bits = (k + 1) * 2 ^ 52 + fraction :=
      ⟨bits / 2 ^ 52 - 1, bits % 2 ^ 52, Nat.mod_lt _ (by decide), by omega⟩
    rw [unitsOf_mul_add bound]
    -- a full fraction carries into the exponent, where the unit is twice as large
    by_cases carry : fraction + 1 < 2 ^ 52
    · rw [Nat.add_assoc, unitsOf_mul_add carry]
      exact Nat.mul_lt_mul_of_pos_right (by omega) (Nat.two_pow_pos k)
    · have full : (k + 1) * 2 ^ 52 + fraction + 1 = (k + 1 + 1) * 2 ^ 52 + 0 := by omega
      have double : 2 ^ (k + 1) = 2 * 2 ^ k := Nat.pow_succ'
      rw [full, unitsOf_mul_add (by decide), double, ← Nat.mul_assoc]
      exact Nat.mul_lt_mul_of_pos_right (by omega) (Nat.two_pow_pos k)

theorem unitsOf_strictMono : StrictMono unitsOf := strictMono_nat_of_lt_succ unitsOf_lt_succ

/-- The place that a rank stands for. -/
def stretch (rank : ℤ) : ℤ := signedUnits (decide (rank < 0)) (unitsOf rank.natAbs)

theorem stretch_lt_succ (rank : ℤ) : stretch rank < stretch (rank + 1) := by
  unfold stretch
  rcases lt_trichotomy rank (-1) with below | rfl | above
  · have less := unitsOf_strictMono (show (rank + 1).natAbs < rank.natAbs by omega)
    simp only [signedUnits, show rank < 0 by omega, show rank + 1 < 0 by omega, decide_true, if_true]
    omega
  · decide
  · have less := unitsOf_strictMono (show rank.natAbs < (rank + 1).natAbs by omega)
    simp only [signedUnits, show ¬rank < 0 by omega, show ¬rank + 1 < 0 by omega, decide_false, Bool.false_eq_true,
      if_false]
    omega

theorem stretch_lt_iff {i j : ℤ} : stretch i < stretch j ↔ i < j :=
  (strictMono_int_of_lt_succ stretch_lt_succ).lt_iff_lt

theorem stretch_inj {i j : ℤ} : stretch i = stretch j ↔ i = j :=
  (strictMono_int_of_lt_succ stretch_lt_succ).injective.eq_iff

theorem stretch_signedUnits (negative : Bool) (bits : Nat) :
    stretch (signedUnits negative bits) = signedUnits negative (unitsOf bits) := by
  cases negative with
  | false => simp [stretch, signedUnits]
  | true =>
    rcases Nat.eq_zero_or_pos bits with rfl | positive
    · rfl
    · simp [stretch, signedUnits, positive]

theorem unitsOf_infinite : unitsOf (2047 * 2 ^ 52) = limit := by
  have split : (2047 * 2 ^ 52 : Nat) = (2046 + 1) * 2 ^ 52 + 0 := by norm_num
  have sum : 52 + 2046 = 2098 := rfl
  rw [split, unitsOf_mul_add (by decide), Nat.add_zero, ← Nat.pow_add, sum, limit]

theorem rank?_eq_none {word : UInt64} : rank? word = none ↔ 2047 * 2 ^ 52 < word.toNat % 2 ^ 63 := by
  rw [rank?, ite_eq_right_iff, ← not_le]
  simp

theorem rank?_of_le {word : UInt64} (number : word.toNat % 2 ^ 63 ≤ 2047 * 2 ^ 52) :
    (rank? word).map stretch = some (signedUnits (decide (2 ^ 63 ≤ word.toNat)) (unitsOf (word.toNat % 2 ^ 63))) := by
  rw [rank?, if_pos number, Option.map_some, stretch_signedUnits]

/-- The word's rank tells where its number stands, the infinities included. -/
theorem place?_ofBits (word : UInt64) : (ofBits word).place? = (rank? word).map stretch := by
  have exponent : word.toNat % 2 ^ 63 / 2 ^ 52 = word.toNat / 2 ^ 52 % 2 ^ 11 := by omega
  have fraction : word.toNat % 2 ^ 63 % 2 ^ 52 = word.toNat % 2 ^ 52 := by omega
  -- the infinities need no case in the rank: their words come next after those of the greatest magnitude
  by_cases special : word.toNat / 2 ^ 52 % 2 ^ 11 = 2047
  · by_cases infinite : word.toNat % 2 ^ 52 = 0
    · have top : word.toNat % 2 ^ 63 = 2047 * 2 ^ 52 := by omega
      rw [ofBits, dif_pos special, if_pos infinite, rank?_of_le top.le, top, unitsOf_infinite]
      rfl
    · have past : rank? word = none := rank?_eq_none.mpr (by omega)
      rw [ofBits, dif_pos special, if_neg infinite, past]
      rfl
  · rw [rank?_of_le (by omega), unitsOf, exponent, fraction, ofBits, dif_neg special]
    by_cases small : word.toNat / 2 ^ 52 % 2 ^ 11 = 0
    · have same : word.toNat % 2 ^ 63 = word.toNat % 2 ^ 52 := by omega
      rw [if_pos small, if_pos small, same]
      rfl
    · rw [if_neg small, if_neg small]
      rfl

theorem ofBits_eq_nan {word : UInt64} : ofBits word = .nan ↔ rank? word = none := by
  have place := place?_ofBits word
  constructor
  · intro same
    rw [same] at place
    exact Option.map_eq_none_iff.mp place.symm
  · intro none
    rw [none] at place
    cases number : ofBits word with
    | nan => rfl
    | infinite _ | finite _ _ _ => rw [number] at place; cases place

/-- Words with ranks are compared as the ranks. -/
theorem compare_ofBits {u v : UInt64} {i j : ℤ} (left : rank? u = some i) (right : rank? v = some j) :
    (ofBits u).less (ofBits v) = (compare i j == .lt) ∧ (ofBits u).equal (ofBits v) = (compare i j == .eq) ∧
      (ofBits u).greater (ofBits v) = (compare i j == .gt) := by
  simp only [less, equal, greater, related, place?_ofBits, left, right, Option.map_some, stretch_lt_iff,
    Bool.beq_eq_decide_eq, stretch_inj]
  rcases lt_trichotomy i j with before | rfl | after
  · simp [compare_lt_iff_lt.mpr before, before, before.asymm, before.ne]
  · simp
  · simp [compare_gt_iff_gt.mpr after, after, after.asymm, after.ne']

/-- A word without a rank stands in no relation. -/
theorem related_ofBits {relation : ℤ → ℤ → Bool} {u v : UInt64} (unranked : rank? u = none ∨ rank? v = none) :
    related relation (ofBits u) (ofBits v) = false := by
  rw [related, place?_ofBits, place?_ofBits]
  rcases unranked with left | right
  · rw [left]
    rfl
  · rw [right]
    cases rank? u <;> rfl

variable {x y z : Binary64}

theorem related_swap (relation : ℤ → ℤ → Bool) (x y : Binary64) :
    related relation x y = related (fun a b => relation b a) y x := by
  unfold related
  cases x.place? <;> cases y.place? <;> rfl

theorem related_iff {relation : ℤ → ℤ → Bool} :
    related relation x y = true ↔ ∃ a b, x.place? = some a ∧ y.place? = some b ∧ relation a b = true := by
  unfold related
  cases x.place? <;> cases y.place? <;> simp

theorem lessEqual_iff : x.lessEqual y = true ↔ x.less y = true ∨ x.equal y = true := by
  simp only [lessEqual, less, equal, related_iff, decide_eq_true_eq, beq_iff_eq, ← exists_or, ← and_or_left,
    le_iff_lt_or_eq]

theorem less_trans (first : x.less y = true) (second : y.less z = true) : x.less z = true := by
  obtain ⟨a, b, left, middle, less⟩ := related_iff.mp first
  obtain ⟨b', c, middle', right, less'⟩ := related_iff.mp second
  obtain rfl : b = b' := Option.some.inj (middle.symm.trans middle')
  have both : a < c := (of_decide_eq_true less).trans (of_decide_eq_true less')
  exact related_iff.mpr ⟨a, c, left, right, decide_eq_true both⟩

theorem signedUnits_not (negative : Bool) (units : Nat) : signedUnits (!negative) units = -signedUnits negative units := by
  cases negative <;> simp [signedUnits]

theorem place?_neg (x : Binary64) : x.neg.place? = x.place?.map (-·) := by
  cases x with
  | nan => rfl
  | infinite negative => exact congrArg some (signedUnits_not negative limit)
  | finite negative units _ => exact congrArg some (signedUnits_not negative units)

theorem less_neg (x y : Binary64) : x.less y = y.neg.less x.neg := by
  unfold less related
  rw [place?_neg, place?_neg]
  cases x.place? <;> cases y.place? <;> simp

end Binary64

namespace Value

open Binary64 (rank?)

/-- The number that compiled code passes as a word. -/
def ofWord (word : UInt64) : Value := number (.ofBits word)

variable {u v : UInt64} {a b : Value}

theorem evalCompare_iff (op : BinaryOp) {holds : Binary64 → Binary64 → Bool} :
    evalCompare op holds (ofWord u) (ofWord v) = .ok (bool true) ↔ holds (.ofBits u) (.ofBits v) = true := by
  simp [evalCompare, ofWord]

theorem compare_unranked (unranked : rank? u = none ∨ rank? v = none) {compare : Value → Value → Except Fault Value}
    (member : compare ∈ [less, greater, lessEqual, greaterEqual]) :
    compare (ofWord u) (ofWord v) = .ok (bool false) := by
  simp only [List.mem_cons, List.not_mem_nil, or_false] at member
  rcases member with rfl | rfl | rfl | rfl <;>
    exact congrArg (Except.ok ∘ bool) (Binary64.related_ofBits unranked)

theorem compare_unfit (unfit : ¬(a.kind = .number ∧ b.kind = .number)) {compare : Value → Value → Except Fault Value}
    (member : compare ∈ [less, greater, lessEqual, greaterEqual]) :
    compare a b = .error (.operands "compare" a.kind.label b.kind.label) := by
  simp only [List.mem_cons, List.not_mem_nil, or_false] at member
  rcases member with rfl | rfl | rfl | rfl <;> exact BinaryOp.eval_of_not_takes unfit

/-- The comparisons of numbers are those of the ranks of their words, whole numbers that a negation turns around; a word
without a rank is compared with nothing. Other operands fail all comparisons alike, by their types in their order. -/
theorem comparisons_ordered :
    (∀ u v : UInt64,
      less (ofWord u) (ofWord v) = greater (ofWord v) (ofWord u) ∧
        lessEqual (ofWord u) (ofWord v) = greaterEqual (ofWord v) (ofWord u) ∧
        (lessEqual (ofWord u) (ofWord v) = .ok (bool true) ↔
          less (ofWord u) (ofWord v) = .ok (bool true) ∨ equal (ofWord u) (ofWord v) = bool true) ∧
        (∀ i j, rank? u = some i → rank? v = some j →
          less (ofWord u) (ofWord v) = .ok (bool (compare i j == .lt)) ∧
            equal (ofWord u) (ofWord v) = bool (compare i j == .eq) ∧
            greater (ofWord u) (ofWord v) = .ok (bool (compare i j == .gt))) ∧
        (rank? u = none ∨ rank? v = none →
          equal (ofWord u) (ofWord v) = bool false ∧
            ∀ compare ∈ [less, greater, lessEqual, greaterEqual],
              compare (ofWord u) (ofWord v) = .ok (bool false)) ∧
        ∃ m n, negate (ofWord u) = .ok m ∧ negate (ofWord v) = .ok n ∧
          less (ofWord u) (ofWord v) = less n m) ∧
      (∀ u v w : UInt64, less (ofWord u) (ofWord v) = .ok (bool true) →
        less (ofWord v) (ofWord w) = .ok (bool true) → less (ofWord u) (ofWord w) = .ok (bool true)) ∧
      (∀ word, Binary64.ofBits word = .nan ↔ rank? word = none) ∧
      ∀ a b : Value, ¬(a.kind = .number ∧ b.kind = .number) →
        ∀ compare ∈ [less, greater, lessEqual, greaterEqual],
          compare a b = .error (.operands "compare" a.kind.label b.kind.label) ∧
            compare b a = .error (.operands "compare" b.kind.label a.kind.label) := by
  refine ⟨fun u v => ⟨?_, ?_, ?_, fun i j left right => ?_, fun unranked => ⟨?_, fun _ => compare_unranked unranked⟩,
    _, _, rfl, rfl, ?_⟩, fun u v w first second => ?_, fun _ => Binary64.ofBits_eq_nan, fun a b unfit _ member => ?_⟩
  · exact congrArg (Except.ok ∘ bool) (Binary64.related_swap ..)
  · exact congrArg (Except.ok ∘ bool) (Binary64.related_swap ..)
  · have equal : equal (ofWord u) (ofWord v) = bool true ↔ (Binary64.ofBits u).equal (.ofBits v) = true := by
      simp [equal, same, ofWord]
    rw [equal]
    exact (evalCompare_iff .lessEqual).trans (Binary64.lessEqual_iff.trans (or_congr_left (evalCompare_iff .less).symm))
  · obtain ⟨less, equal, greater⟩ := Binary64.compare_ofBits left right
    exact ⟨congrArg (Except.ok ∘ bool) less, congrArg bool equal, congrArg (Except.ok ∘ bool) greater⟩
  · exact congrArg bool (Binary64.related_ofBits unranked)
  · exact congrArg (Except.ok ∘ bool) (Binary64.less_neg ..)
  · exact (evalCompare_iff .less).mpr
      (Binary64.less_trans ((evalCompare_iff .less).mp first) ((evalCompare_iff .less).mp second))
  · exact ⟨compare_unfit unfit member, compare_unfit (unfit ∘ And.symm) member⟩

/-- The least step below the zeros, which stand together, the infinities, a not-a-number and no number at all. -/
theorem comparisons_ordered_ends :
    less (ofWord 0x8000000000000001) (ofWord 0x8000000000000000) = .ok (bool true) ∧
      equal (ofWord 0x8000000000000000) (ofWord 0) = bool true ∧
      less (ofWord 0xfff0000000000000) (ofWord 0x7ff0000000000000) = .ok (bool true) ∧
      lessEqual (ofWord 0x7ff0000000000001) (ofWord 0x7ff0000000000001) = .ok (bool false) ∧
      less nil (ofWord 0) = .error (.operands "compare" "nil" "number") := by
  obtain ⟨numbers, trans, _, others⟩ := comparisons_ordered
  have step := (numbers 0x8000000000000001 0x8000000000000000).2.2.2.1 (-1) 0 (by decide) (by decide)
  have zeros := (numbers 0x8000000000000000 0).2.2.2.1 0 0 (by decide) (by decide)
  have below := (numbers 0xfff0000000000000 0).2.2.2.1 (-0x7ff0000000000000) 0 (by decide) (by decide)
  have above := (numbers 0 0x7ff0000000000000).2.2.2.1 0 0x7ff0000000000000 (by decide) (by decide)
  have unranked := (numbers 0x7ff0000000000001 0x7ff0000000000001).2.2.2.2.1 (.inl (by decide))
  exact ⟨step.1, zeros.2.1, trans _ _ _ below.1 above.1, unranked.2 _ (by simp),
    (others nil (ofWord 0) (by decide) less (by simp)).1⟩

end Value

end TaggedRuntime
