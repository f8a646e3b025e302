import TaggedRuntime.Proofs.Decoding
import TaggedRuntime.Proofs.MissingArguments
import TaggedRuntime.Proofs.NumberText
import TaggedRuntime.Host

namespace TaggedRuntime

namespace Utf8

variable {pending : Option Pending} {c : Char}

/-- What is still pending at the end is no ASCII character. -/
theorem count_pending (ascii : c.toNat < 0x80) (pending : Option Pending) : (decodeFrom pending []).count c = 0 := by
  have replaced : replacement ≠ c := by
    rintro rfl
    exact absurd ascii (by decide)
  cases pending with
  | none => rfl
  | some p => simp [decodeFrom, replaced]

/-- An ASCII character is completed once by its own byte, and by no other. -/
theorem count_next (valid : ∀ p ∈ pending, p.Valid) (ascii : c.toNat < 0x80) (b : UInt8) :
    (next pending b).1.count c = if b.toNat = c.toNat then 1 else 0 := by
  split
  · next own =>
    have small : b < 0x80 := by rwa [UInt8.lt_iff_toNat_lt, own]
    rw [next_ascii valid small, List.count_append, count_pending ascii, own, Char.ofNat_toNat,
      List.count_singleton_self]
  · next other => exact List.count_eq_zero.mpr fun member => other (toNat_of_mem_next valid ascii member)

theorem count_decodeFrom (valid : ∀ p ∈ pending, p.Valid) (ascii : c.toNat < 0x80) (bytes : Bytes) :
    (decodeFrom pending bytes).count c = bytes.countP (·.toNat = c.toNat) := by
  induction bytes generalizing pending with
  | nil => exact count_pending ascii pending
  | cons b bytes ih =>
    rw [decodeFrom_cons, List.count_append, count_next valid ascii, ih (next_valid valid), List.countP_cons,
      Nat.add_comm]
    simp only [decide_eq_true_eq]

/-- A text has the line feeds of its bytes, well-formed or not. -/
theorem count_decode (bytes : Bytes) : (decode bytes).toList.count '\n' = bytes.count lineFeed := by
  have own (b : UInt8) : b.toNat = '\n'.toNat ↔ b = lineFeed := UInt8.toNat_inj (b := lineFeed)
  rw [decode, String.toList_ofList, count_decodeFrom (by simp) (by decide), List.count_eq_countP]
  exact List.countP_congr fun b _ => decide_eq_true_iff.trans ((own b).trans beq_iff_eq.symm)

end Utf8

theorem Numeral.Canonical.lineFeed_notMem {n : Numeral} (canonical : n.Canonical) : '\n' ∉ n.chars := by
  have whole : '\n' ∉ n.whole := fun member => absurd (List.all_eq_true.mp canonical.whole.2 _ member) (by decide)
  have fraction : '\n' ∉ n.fraction := fun member => absurd (canonical.fraction _ member) (by decide)
  unfold chars Decimal.signed
  split_ifs <;> simp [whole, fraction]

theorem Decimal.lineFeed_notMem_ofInt (n : Int) : '\n' ∉ ofInt n := by
  have digits : '\n' ∉ Nat.toDigits 10 n.natAbs := fun member =>
    absurd (Nat.isDigit_of_mem_toDigits (by decide) (by decide) member) (by decide)
  unfold ofInt signed
  split <;> simp [digits]

theorem Binary64.lineFeed_notMem_text (x : Binary64) : '\n' ∉ x.text.toList := by
  cases x with
  | nan => decide
  | infinite negative => cases negative <;> decide
  | finite negative units representable =>
    rw [text_finite, String.toList_ofList]
    exact (Numeral.ofDecimal_canonical ..).lineFeed_notMem

/-- The line feeds that a value brings into a message: those of a string, and otherwise none. -/
def Value.lineFeeds : Value → Nat
  | string bytes => bytes.count lineFeed
  | nil | bool _ | number _ | function _ => 0

theorem Value.count_display (v : Value) : v.display.toList.count '\n' = v.lineFeeds := by
  cases v with
  | string bytes => exact Utf8.count_decode bytes
  | number x => exact List.count_eq_zero.mpr x.lineFeed_notMem_text
  | bool b => cases b <;> decide
  | nil => decide
  | function routine => simp only [display, lineFeeds]; decide

theorem Directive.count_write (d : Directive) (v : Value) : (d.write v).count '\n' = v.lineFeeds := by
  cases v with
  | number x =>
    cases d with
    | integer => exact List.count_eq_zero.mpr (Decimal.lineFeed_notMem_ofInt _)
    | number | display => exact (Value.number x).count_display
  | nil | bool b | string bytes | function routine => cases d <;> exact Value.count_display _

namespace Segment

/-- What a letter is filled with has its own line feed, if it is one, and those of the argument that it takes. -/
theorem count_filled (c : Char) (args : List Value) :
    ((ofLetter c).filled args.head?).count '\n' =
      ['%', c].count '\n' + ((args.take (arity [ofLetter c])).map Value.lineFeeds).sum := by
  by_cases known : c ∈ letters
  · rcases letters_cases known with rfl | rfl | rfl | rfl | rfl | rfl
    · rfl
    all_goals
      cases args with
      | nil => rfl
      | cons v args => simp [ofLetter, Directive.ofLetter?, filled, arity, isDirective, Directive.count_write]
  · rw [ofLetter_of_notMem known]
    simp [filled, source, arity, isDirective]

theorem Reads.count_render {cs left : List Char} {segments : List Segment} (reads : Reads cs segments left)
    (args : List Value) :
    (render (parse cs) args).count '\n' =
      cs.count '\n' + ((args.take (arity (parse cs))).map Value.lineFeeds).sum := by
  induction reads generalizing args with
  | nothing =>
    rw [Reads.nothing.parse_eq]
    cases args <;> rfl
  | dangling =>
    rw [Reads.dangling.parse_eq]
    cases args <;> rfl
  | @letter c rest segments left _ ih =>
    have apart : '%' :: c :: rest = ['%', c] ++ rest := rfl
    rw [parse_letter, render_cons, List.count_append, count_filled, ih, arity_cons (ofLetter c) (parse rest),
      List.take_add, List.map_append, List.sum_append, apart, List.count_append]
    omega
  | @text text rest segments left nonempty free stop _ ih =>
    have plain : arity [literal text] = 0 := rfl
    rw [parse_literal nonempty free stop, render_literal, List.count_append, List.count_append, ih, arity_cons, plain,
      Nat.zero_add, Nat.add_assoc]

end Segment

/-- A filled template has its own line feeds and those of the arguments that it takes. -/
theorem Template.count_fill (template : String) (args : List Value) :
    (fill template args).toList.count '\n' =
      template.toList.count '\n' + ((args.take (arity template)).map Value.lineFeeds).sum := by
  obtain ⟨segments, left, reads⟩ := Segment.Reads.exist template.toList
  rw [fill, String.toList_ofList, arity, reads.count_render]

end TaggedRuntime
