import TaggedRuntime.Template

namespace TaggedRuntime.Segment

/-- No literal could take more of the text: it has ended, or a percent sign comes next. -/
def Boundary (rest : List Char) : Prop := rest = [] ∨ ∃ more, rest = '%' :: more

theorem first?_nil : first? [] = none := rfl

theorem first?_dangling : first? ['%'] = none := rfl

theorem first?_letter (letter : Char) (rest : List Char) :
    first? ('%' :: letter :: rest) = some (ofLetter letter, rest) := rfl

theorem first?_literal {text rest : List Char} (nonempty : text ≠ []) (free : '%' ∉ text) (stop : Boundary rest) :
    first? (text ++ rest) = some (literal text, rest) := by
  have plain : ∀ c ∈ text, decide (c ≠ '%') = true := fun c member =>
    decide_eq_true fun percent => free (percent ▸ member)
  have ahead : rest.takeWhile (decide <| · ≠ '%') = [] ∧ rest.dropWhile (decide <| · ≠ '%') = rest := by
    rcases stop with rfl | ⟨more, rfl⟩ <;> simp
  have taken : (text ++ rest).takeWhile (decide <| · ≠ '%') = text := by
    rw [List.takeWhile_append_of_pos plain, ahead.1, List.append_nil]
  have dropped : (text ++ rest).dropWhile (decide <| · ≠ '%') = rest := by
    rw [List.dropWhile_append_of_pos plain, ahead.2]
  unfold first? literal?
  rw [taken, dropped]
  cases text with
  | nil => exact absurd rfl nonempty
  | cons c text => rfl

/-- How a template is read. What is left at the end is nothing, or a percent sign with no letter after it. -/
inductive Reads : List Char → List Segment → List Char → Prop
  | nothing : Reads [] [] []
  | dangling : Reads ['%'] [] ['%']
  | letter {c rest segments left} : Reads rest segments left →
      Reads ('%' :: c :: rest) (ofLetter c :: segments) left
  | text {text rest segments left} : text ≠ [] → '%' ∉ text → Boundary rest → Reads rest segments left →
      Reads (text ++ rest) (literal text :: segments) left

namespace Reads

/-- Text in front joins the literal there, or becomes a literal of its own. -/
theorem prepend {cs left : List Char} {segments : List Segment} (reads : Reads cs segments left) {c : Char}
    (plain : c ≠ '%') : ∃ segments', Reads (c :: cs) segments' left := by
  have free : '%' ∉ [c] := by simpa using plain.symm
  cases reads with
  | nothing => exact ⟨_, .text (List.cons_ne_nil c []) free (.inl rfl) .nothing⟩
  | dangling => exact ⟨_, .text (List.cons_ne_nil c []) free (.inr ⟨_, rfl⟩) .dangling⟩
  | letter reads => exact ⟨_, .text (List.cons_ne_nil c []) free (.inr ⟨_, rfl⟩) (.letter reads)⟩
  | @text text rest segments left nonempty free stop reads =>
    have free' : '%' ∉ c :: text := by simp [plain.symm, free]
    exact ⟨_, .text (List.cons_ne_nil c text) free' stop reads⟩

/-- Every template can be read, whatever its percent signs. -/
theorem exist : ∀ cs : List Char, ∃ segments left, Reads cs segments left
  | [] => ⟨[], [], .nothing⟩
  | c :: rest => by
    by_cases percent : c = '%'
    · subst percent
      match rest with
      | [] => exact ⟨[], ['%'], .dangling⟩
      | next :: rest =>
        obtain ⟨segments, left, reads⟩ := exist rest
        exact ⟨_, left, .letter reads⟩
    · obtain ⟨_, left, reads⟩ := exist rest
      obtain ⟨segments, reads⟩ := reads.prepend percent
      exact ⟨segments, left, reads⟩

theorem read?_eq {cs left : List Char} {segments : List Segment} (reads : Reads cs segments left) :
    read? cs = some (segments, left) := by
  induction reads with
  | nothing => rw [read?, first?_nil]
  | dangling => rw [read?, first?_dangling]
  | @letter c rest segments left _ ih =>
    have shorter : rest.length < ('%' :: c :: rest).length := by simp only [List.length_cons]; omega
    rw [read?, first?_letter]
    simp only [shorter, if_true, ih, Option.map_some]
  | @text text rest segments left nonempty free stop _ ih =>
    have taken := List.length_pos_iff.mpr nonempty
    have shorter : rest.length < (text ++ rest).length := by simp only [List.length_append]; omega
    rw [read?, first?_literal nonempty free stop]
    simp only [shorter, if_true, ih, Option.map_some]

theorem left_cases {cs left : List Char} {segments : List Segment} (reads : Reads cs segments left) :
    left = [] ∨ left = ['%'] := by
  induction reads with
  | nothing => exact .inl rfl
  | dangling => exact .inr rfl
  | letter _ ih => exact ih
  | text _ _ _ _ ih => exact ih

theorem parse_eq {cs left : List Char} {segments : List Segment} (reads : Reads cs segments left) :
    parse cs = if left = [] then segments else segments ++ [literal left] := by
  rw [parse, reads.read?_eq, Option.getD_some]

end Reads

/-- A literal takes the text up to a percent sign or the end, and the rest is read on its own. -/
theorem parse_literal {text rest : List Char} (nonempty : text ≠ []) (free : '%' ∉ text) (stop : Boundary rest) :
    parse (text ++ rest) = literal text :: parse rest := by
  obtain ⟨segments, left, reads⟩ := Reads.exist rest
  rw [(Reads.text nonempty free stop reads).parse_eq, reads.parse_eq]
  split <;> rfl

theorem parse_letter (letter : Char) (rest : List Char) :
    parse ('%' :: letter :: rest) = ofLetter letter :: parse rest := by
  obtain ⟨segments, left, reads⟩ := Reads.exist rest
  rw [(Reads.letter reads).parse_eq, reads.parse_eq]
  split <;> rfl

end TaggedRuntime.Segment
