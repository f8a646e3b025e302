import TaggedRuntime.Proofs.TemplateFilling
import TaggedRuntime.Proofs.TemplateGrammar

namespace TaggedRuntime

namespace Segment

/-- The letters after percent signs, each of which is taken together with what follows it from left to right. -/
def lettersOf : List Char → List Char
  | '%' :: c :: rest => c :: lettersOf rest
  | _ :: rest => lettersOf rest
  | [] => []

/-- The text with something else in the place of each percent sign and its letter. -/
def replaceLetters (piece : Char → List Char) : List Char → List Char
  | '%' :: c :: rest => piece c ++ replaceLetters piece rest
  | c :: rest => c :: replaceLetters piece rest
  | [] => []

/-- A percent sign and its letter as they are written, but for a percent sign that is escaped. -/
def asWritten (c : Char) : List Char := if c = '%' then ['%'] else ['%', c]

/-- What stands for a percent sign and its letter when no argument is left. -/
def unfilled : Char → List Char
  | '%' => ['%']
  | 'i' => ['%', 'd']
  | 'f' => ['%', 'g']
  | c => ['%', c]

variable {piece : Char → List Char}

theorem lettersOf_plain {c : Char} (plain : c ≠ '%') (rest : List Char) :
    lettersOf (c :: rest) = lettersOf rest := by
  cases rest <;> simp [lettersOf, plain]

theorem replaceLetters_plain {c : Char} (plain : c ≠ '%') (rest : List Char) :
    replaceLetters piece (c :: rest) = c :: replaceLetters piece rest := by
  cases rest <;> simp [replaceLetters, plain]

theorem lettersOf_text {text : List Char} (free : '%' ∉ text) (rest : List Char) :
    lettersOf (text ++ rest) = lettersOf rest := by
  induction text with
  | nil => rfl
  | cons c text ih =>
    rw [List.mem_cons, not_or] at free
    rw [List.cons_append, lettersOf_plain (Ne.symm free.1), ih free.2]

theorem replaceLetters_text {text : List Char} (free : '%' ∉ text) (rest : List Char) :
    replaceLetters piece (text ++ rest) = text ++ replaceLetters piece rest := by
  induction text with
  | nil => rfl
  | cons c text ih =>
    rw [List.mem_cons, not_or] at free
    rw [List.cons_append, replaceLetters_plain (Ne.symm free.1), ih free.2, List.cons_append]

theorem filled_none_ofLetter (c : Char) : (ofLetter c).filled none = unfilled c := by
  by_cases known : c ∈ letters
  · rcases letters_cases known with rfl | rfl | rfl | rfl | rfl | rfl <;> rfl
  · rw [ofLetter_of_notMem known]
    simp only [letters, List.mem_cons, List.not_mem_nil, or_false, not_or] at known
    simp [filled, source, unfilled, known]

theorem length_unfilled (c : Char) : (unfilled c).length = (asWritten c).length := by
  unfold unfilled asWritten
  split <;> simp_all

theorem unfilled_eq_iff {c : Char} : unfilled c = asWritten c ↔ c ≠ 'i' ∧ c ≠ 'f' := by
  unfold unfilled asWritten
  split <;> simp_all

namespace Reads

variable {cs left : List Char} {segments : List Segment}

/-- Without arguments a template is copied letter by letter. -/
theorem render_nil (reads : Reads cs segments left) :
    render (parse cs) [] = replaceLetters unfilled cs := by
  induction reads with
  | nothing => rw [Reads.nothing.parse_eq]; rfl
  | dangling => rw [Reads.dangling.parse_eq]; rfl
  | @letter c rest segments left _ ih =>
    rw [parse_letter, render_cons, List.drop_nil, ih]
    exact congrArg (· ++ _) (filled_none_ofLetter c)
  | text nonempty free stop _ ih =>
    rw [parse_literal nonempty free stop, render_literal, ih, replaceLetters_text free]

/-- Only the letters with another spelling make a difference to a template that is copied. -/
theorem replaceLetters_eq_iff (reads : Reads cs segments left) :
    replaceLetters unfilled cs = replaceLetters asWritten cs ↔ 'i' ∉ lettersOf cs ∧ 'f' ∉ lettersOf cs := by
  induction reads with
  | nothing => decide
  | dangling => decide
  | @letter c rest segments left _ ih =>
    have parts : replaceLetters unfilled ('%' :: c :: rest) = replaceLetters asWritten ('%' :: c :: rest) ↔
        unfilled c = asWritten c ∧ replaceLetters unfilled rest = replaceLetters asWritten rest :=
      ⟨fun same => List.append_inj same (length_unfilled c), fun both => congrArg₂ (· ++ ·) both.1 both.2⟩
    rw [parts, ih, unfilled_eq_iff]
    simp only [lettersOf, List.mem_cons, not_or, ne_comm (a := c)]
    exact and_and_and_comm
  | text _ free _ _ ih =>
    rw [replaceLetters_text free, replaceLetters_text free, lettersOf_text free, List.append_cancel_left_eq, ih]

end Reads

theorem Boundary.of_append {first second : List Char} (stop : Boundary (first ++ second)) : Boundary first := by
  cases first with
  | nil => exact .inl rfl
  | cons c first =>
    rcases stop with ended | ⟨more, percent⟩
    · cases ended
    · cases percent
      exact .inr ⟨first, rfl⟩

theorem Reads.arity_parse {cs left : List Char} {segments : List Segment} (reads : Reads cs segments left) :
    arity (parse cs) = arity segments := by
  rw [reads.parse_eq]
  split
  · rfl
  · simp [arity, isDirective]

/-- A template can be cut so that the part in front takes just so many arguments. -/
theorem Reads.cut {cs left : List Char} {segments : List Segment} (reads : Reads cs segments left) {count : Nat}
    (enough : count ≤ arity segments) :
    ∃ first second taken, cs = first ++ second ∧ Reads first taken [] ∧ arity taken = count := by
  induction reads generalizing count with
  | nothing => exact ⟨[], [], [], rfl, .nothing, (Nat.le_zero.mp enough).symm⟩
  | dangling => exact ⟨[], ['%'], [], rfl, .nothing, (Nat.le_zero.mp enough).symm⟩
  | @letter c rest segments left reads ih =>
    rw [arity_cons] at enough
    -- a directive that would take one argument too many begins the second part
    by_cases inside : arity [ofLetter c] ≤ count
    · have later : count - arity [ofLetter c] ≤ arity segments := by omega
      obtain ⟨first, second, taken, rfl, readsFirst, number⟩ := ih later
      exact ⟨'%' :: c :: first, second, ofLetter c :: taken, rfl, .letter readsFirst, by rw [arity_cons]; omega⟩
    · have one : arity [ofLetter c] ≤ 1 := List.countP_le_length
      exact ⟨[], _, [], rfl, .nothing, by rw [arity, List.countP_nil]; omega⟩
  | @text text rest segments left nonempty free stop reads ih =>
    rw [arity_cons] at enough
    have plain : arity [literal text] = 0 := rfl
    have later : count ≤ arity segments := by omega
    obtain ⟨first, second, taken, rfl, readsFirst, number⟩ := ih later
    refine ⟨text ++ first, second, literal text :: taken, (List.append_assoc ..).symm,
      .text nonempty free stop.of_append readsFirst, ?_⟩
    rw [arity_cons]
    omega

end Segment

namespace Template

open Segment (read? lettersOf replaceLetters asWritten unfilled)

/-- With no argument a template is copied: escaped percent signs are made single, and the letters `i` and `f` are
replaced by the other letter of their directives. So it is copied as written exactly if it has none of the two. And
where the arguments run out, the rest of the template is copied like that. -/
theorem fill_exhausted (template : String) :
    fill template [] = String.ofList (replaceLetters unfilled template.toList) ∧
      (fill template [] = String.ofList (replaceLetters asWritten template.toList) ↔
        'i' ∉ lettersOf template.toList ∧ 'f' ∉ lettersOf template.toList) ∧
      ∀ args, args.length ≤ arity template → ∃ first second,
        template = first ++ second ∧ (∃ segments, read? first.toList = some (segments, [])) ∧
          arity first = args.length ∧ fill template args = fill first args ++ fill second [] := by
  obtain ⟨segments, left, reads⟩ := Segment.Reads.exist template.toList
  have copied : fill template [] = String.ofList (replaceLetters unfilled template.toList) :=
    congrArg String.ofList reads.render_nil
  refine ⟨copied, ?_, fun args enough => ?_⟩
  · rw [copied, String.ofList_inj, reads.replaceLetters_eq_iff]
  · rw [arity, reads.arity_parse] at enough
    obtain ⟨first, second, taken, whole, readsFirst, number⟩ := reads.cut enough
    have consumed : read? (String.ofList first).toList = some (taken, []) := by
      rw [String.toList_ofList, readsFirst.read?_eq]
    have together : template = String.ofList first ++ String.ofList second := by
      rw [← String.ofList_append, ← whole, String.ofList_toList]
    refine ⟨String.ofList first, String.ofList second, together, ⟨taken, consumed⟩, ?_, ?_⟩
    · rw [arity, String.toList_ofList, readsFirst.arity_parse, number]
    · have rendered := Segment.render_parse_append readsFirst rfl second args
      rw [number, List.drop_length] at rendered
      simp only [fill, whole, String.toList_ofList, rendered, readsFirst.parse_eq, if_true, String.ofList_append]

/-- One argument for two directives: the second one stays, in its other spelling. -/
theorem fill_exhausted_second_directive :
    [Value.nil].length ≤ arity "%s, %i%%" ∧ fill "%s, %i%%" [.nil] = "nil, %d%" ∧
      ∃ first second, "%s, %i%%" = first ++ second ∧ arity first = 1 ∧
        fill "%s, %i%%" [.nil] = fill first [.nil] ++ fill second [] := by
  have enough : [Value.nil].length ≤ arity "%s, %i%%" := by decide +kernel
  obtain ⟨first, second, whole, _, number, filled⟩ := (fill_exhausted "%s, %i%%").2.2 [.nil] enough
  exact ⟨enough, by decide +kernel, first, second, whole, number, filled⟩

/-- The directive `%i` has another spelling when it is copied. -/
theorem not_fill_asWritten :
    ¬∀ template, fill template [] = String.ofList (replaceLetters asWritten template.toList) := by
  intro copied
  exact absurd (copied "%i") (by decide +kernel)

end Template

end TaggedRuntime
