import Mathlib.Data.List.Chain
import TaggedRuntime.Proofs.TemplateReading

namespace TaggedRuntime.Segment

def isLiteral : Segment → Bool
  | literal _ => true
  | percent | directive _ | unknown _ => false

/-- The characters that mean something after a percent sign. -/
def letters : List Char := ['%', 's', 'd', 'i', 'g', 'f']

/-- A segment that its own source reads as: text without a percent sign, and no letter with a meaning. -/
def Proper : Segment → Prop
  | literal text => text ≠ [] ∧ '%' ∉ text
  | unknown c => c ∉ letters
  | percent | directive _ => True

structure Regular (segments : List Segment) : Prop where
  proper : ∀ segment ∈ segments, segment.Proper
  apart : segments.IsChain fun a b => ¬(a.isLiteral ∧ b.isLiteral)

/-- What the segments of a template look like. A percent sign alone can only be the last. -/
def Canonical (segments : List Segment) : Prop :=
  Regular segments ∨ ∃ body, Regular body ∧ segments = body ++ [literal ['%']]

/-- The spelling of a piece of a template: of two letters for one directive only one is kept. -/
def respell : List Char → List Char
  | ['%', 'i'] => ['%', 'd']
  | ['%', 'f'] => ['%', 'g']
  | piece => piece

theorem respell_of_free {text : List Char} (free : '%' ∉ text) : respell text = text := by
  unfold respell
  split <;> simp_all

theorem ofLetter_of_notMem {c : Char} (other : c ∉ letters) : ofLetter c = unknown c := by
  simp only [letters, List.mem_cons, List.not_mem_nil, or_false, not_or] at other
  simp [ofLetter, Directive.ofLetter?, other]

theorem letters_cases {c : Char} (known : c ∈ letters) :
    c = '%' ∨ c = 's' ∨ c = 'd' ∨ c = 'i' ∨ c = 'g' ∨ c = 'f' := by
  simpa only [letters, List.mem_cons, List.not_mem_nil, or_false] using known

theorem respell_letter (c : Char) : respell ['%', c] = (ofLetter c).source := by
  by_cases known : c ∈ letters
  · rcases letters_cases known with rfl | rfl | rfl | rfl | rfl | rfl <;> rfl
  · rw [ofLetter_of_notMem known]
    simp only [letters, List.mem_cons, List.not_mem_nil, or_false, not_or] at known
    simp [respell, source, known]

theorem ofLetter_proper (c : Char) : (ofLetter c).Proper := by
  by_cases known : c ∈ letters
  · rcases letters_cases known with rfl | rfl | rfl | rfl | rfl | rfl <;> trivial
  · rw [ofLetter_of_notMem known]
    exact known

theorem ofLetter_not_literal (c : Char) : (ofLetter c).isLiteral = false := by
  by_cases known : c ∈ letters
  · rcases letters_cases known with rfl | rfl | rfl | rfl | rfl | rfl <;> rfl
  · rw [ofLetter_of_notMem known]
    rfl

theorem regular_cons {segment : Segment} {segments : List Segment} :
    Regular (segment :: segments) ↔ segment.Proper ∧
      (∀ next ∈ segments.head?, ¬(segment.isLiteral ∧ next.isLiteral)) ∧ Regular segments := by
  constructor
  · intro regular
    obtain ⟨proper, others⟩ := List.forall_mem_cons.mp regular.proper
    obtain ⟨next, apart⟩ := List.isChain_cons.mp regular.apart
    exact ⟨proper, next, others, apart⟩
  · rintro ⟨proper, next, regular⟩
    exact ⟨List.forall_mem_cons.mpr ⟨proper, regular.proper⟩, List.isChain_cons.mpr ⟨next, regular.apart⟩⟩

theorem regular_nil : Regular [] := ⟨by simp, .nil⟩

namespace Reads

/-- After text as far as a literal goes, no literal follows. -/
theorem head_not_literal {cs left : List Char} {segments : List Segment} (reads : Reads cs segments left)
    (stop : Boundary cs) : ∀ next ∈ segments.head?, next.isLiteral = false := by
  intro next first
  cases reads with
  | nothing => cases first
  | dangling => cases first
  | @letter c rest segments left reads =>
    cases first
    exact ofLetter_not_literal c
  | @text text rest segments left nonempty free _ reads =>
    cases text with
    | nil => exact absurd rfl nonempty
    | cons c text =>
      rcases stop with ended | ⟨more, percent⟩
      · cases ended
      · cases percent
        exact absurd (List.mem_cons_self ..) free

theorem regular {cs left : List Char} {segments : List Segment} (reads : Reads cs segments left) :
    Regular segments := by
  induction reads with
  | nothing => exact regular_nil
  | dangling => exact regular_nil
  | @letter c rest segments left reads ih =>
    exact regular_cons.mpr ⟨ofLetter_proper c, by simp [ofLetter_not_literal], ih⟩
  | @text text rest segments left nonempty free stop reads ih =>
    have next := reads.head_not_literal stop
    exact regular_cons.mpr ⟨⟨nonempty, free⟩, fun other first => by simp [next other first], ih⟩

/-- The template is cut into pieces, one for each segment, whose sources are the pieces respelled. -/
theorem pieces {cs left : List Char} {segments : List Segment} (reads : Reads cs segments left) :
    ∃ pieces : List (List Char), pieces.flatten ++ left = cs ∧ pieces.map respell = segments.map source := by
  induction reads with
  | nothing => exact ⟨[], rfl, rfl⟩
  | dangling => exact ⟨[], rfl, rfl⟩
  | @letter c rest segments left _ ih =>
    obtain ⟨pieces, whole, sources⟩ := ih
    refine ⟨['%', c] :: pieces, ?_, ?_⟩
    · rw [← whole]
      rfl
    · rw [List.map_cons, List.map_cons, sources, respell_letter]
  | @text text rest segments left _ free _ _ ih =>
    obtain ⟨pieces, whole, sources⟩ := ih
    refine ⟨text :: pieces, ?_, ?_⟩
    · rw [List.flatten_cons, List.append_assoc, whole]
    · rw [List.map_cons, List.map_cons, sources, respell_of_free free, source]

end Reads

/-- What is not a literal has a percent sign in front of its letter. -/
theorem Proper.source_letter {segment : Segment} (proper : segment.Proper) (other : segment.isLiteral = false) :
    ∃ c, segment.source = ['%', c] ∧ ofLetter c = segment := by
  cases segment with
  | literal text => cases other
  | percent => exact ⟨'%', rfl, rfl⟩
  | directive d => exact ⟨d.letter, rfl, by cases d <;> rfl⟩
  | unknown c => exact ⟨c, rfl, ofLetter_of_notMem proper⟩

theorem Regular.boundary {segments : List Segment} (regular : Regular segments) {left : List Char}
    (ended : Boundary left) (head : ∀ next ∈ segments.head?, next.isLiteral = false) :
    Boundary (segments.flatMap source ++ left) := by
  cases segments with
  | nil => exact ended
  | cons segment segments =>
    obtain ⟨c, spelled, _⟩ := (regular_cons.mp regular).1.source_letter (head segment rfl)
    exact .inr ⟨c :: (segments.flatMap source ++ left), by simp [spelled]⟩

theorem Regular.reads {segments : List Segment} (regular : Regular segments) {left : List Char}
    (ended : Reads left [] left) : Reads (segments.flatMap source ++ left) segments left := by
  induction segments with
  | nil => exact ended
  | cons segment segments ih =>
    obtain ⟨proper, next, others⟩ := regular_cons.mp regular
    rw [List.flatMap_cons, List.append_assoc]
    cases kind : segment.isLiteral with
    | true =>
      cases segment with
      | literal text =>
        have stop : Boundary left := by
          rcases ended.left_cases with rfl | rfl
          · exact .inl rfl
          · exact .inr ⟨[], rfl⟩
        have head : ∀ other ∈ segments.head?, other.isLiteral = false := by simpa [kind] using next
        exact .text proper.1 proper.2 (others.boundary stop head) (ih others)
      | _ => cases kind
    | false =>
      obtain ⟨c, spelled, same⟩ := proper.source_letter kind
      rw [spelled, ← same]
      exact .letter (ih others)

theorem parse_canonical (template : List Char) : Canonical (parse template) := by
  obtain ⟨segments, left, reads⟩ := Reads.exist template
  rw [reads.parse_eq]
  rcases reads.left_cases with rfl | rfl
  · exact .inl reads.regular
  · exact .inr ⟨segments, reads.regular, rfl⟩

theorem Canonical.parse_source {segments : List Segment} (canonical : Canonical segments) :
    parse (segments.flatMap source) = segments := by
  rcases canonical with regular | ⟨body, regular, rfl⟩
  · have reads := regular.reads .nothing
    rw [List.append_nil] at reads
    exact reads.parse_eq
  · have reads := regular.reads .dangling
    rw [List.flatMap_append]
    exact reads.parse_eq

theorem parse_pieces (template : List Char) : ∃ pieces : List (List Char),
    pieces.flatten = template ∧ pieces.map respell = (parse template).map source := by
  obtain ⟨segments, left, reads⟩ := Reads.exist template
  obtain ⟨pieces, whole, sources⟩ := reads.pieces
  rw [reads.parse_eq]
  rcases reads.left_cases with rfl | rfl
  · exact ⟨pieces, by rw [← whole, List.append_nil], sources⟩
  · refine ⟨pieces ++ [['%']], by rw [← whole, List.flatten_concat], ?_⟩
    simp only [List.map_append, sources, List.cons_ne_nil, if_false]
    rfl

/-- Segments and templates correspond. A template is read to its end, or to a percent sign that nothing
follows. Its segments are canonical, and piece by piece it is their sources but for the two letters that have
another spelling. And just the canonical lists of segments are what their sources read as. -/
theorem parse_grammar :
    (∀ template, Canonical (parse template) ∧
      (∃ pieces : List (List Char), pieces.flatten = template ∧
        pieces.map respell = (parse template).map source) ∧
      ∃ segments left, read? template = some (segments, left) ∧ (left = [] ∨ left = ['%'])) ∧
    ∀ segments, Canonical segments ↔ parse (segments.flatMap source) = segments := by
  refine ⟨fun template => ⟨parse_canonical template, parse_pieces template, ?_⟩, fun segments => ⟨?_, ?_⟩⟩
  · obtain ⟨segments, left, reads⟩ := Reads.exist template
    exact ⟨segments, left, reads.read?_eq, reads.left_cases⟩
  · exact Canonical.parse_source
  · intro same
    rw [← same]
    exact parse_canonical _

/-- Of three percent signs in a row the first two belong together. -/
example : parse "50%%%i%".toList =
    [literal "50".toList, percent, directive .integer, literal "%".toList] := by
  decide +kernel

end TaggedRuntime.Segment
