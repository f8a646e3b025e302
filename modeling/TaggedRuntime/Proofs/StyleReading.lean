import Mathlib.Data.List.Forall2
import Mathlib.Data.List.TakeWhile
import TaggedRuntime.Diagnostic

namespace TaggedRuntime

namespace Text

/-- An ASCII letter in both cases, the capital first. -/
def IsCapitalOf (c d : Char) : Prop := c.toNat + 0x20 = d.toNat ∧ 'a' ≤ d ∧ d ≤ 'z'

/-- The same character, or the two cases of an ASCII letter. -/
def AlikeButCase (c d : Char) : Prop := c = d ∨ IsCapitalOf c d ∨ IsCapitalOf d c

theorem toNat_toLower (c : Char) :
    c.toLower.toNat = if 0x41 ≤ c.toNat ∧ c.toNat ≤ 0x5a then c.toNat + 0x20 else c.toNat := by
  have capital : c.val ≥ 'A'.val ∧ c.val ≤ 'Z'.val ↔ 0x41 ≤ c.toNat ∧ c.toNat ≤ 0x5a := Iff.rfl
  unfold Char.toLower
  by_cases upper : 0x41 ≤ c.toNat ∧ c.toNat ≤ 0x5a
  · rw [dif_pos (capital.mpr upper), if_pos upper]
    have sum : (c.val + 0x20).toNat = (c.toNat + 0x20) % 2 ^ 32 := UInt32.toNat_add ..
    exact sum.trans (Nat.mod_eq_of_lt (by omega))
  · rw [dif_neg (mt capital.mp upper), if_neg upper]

theorem toLower_eq_iff {c d : Char} : c.toLower = d.toLower ↔ AlikeButCase c d := by
  have small (c : Char) : 'a' ≤ c ∧ c ≤ 'z' ↔ 0x61 ≤ c.toNat ∧ c.toNat ≤ 0x7a := Iff.rfl
  rw [AlikeButCase, IsCapitalOf, IsCapitalOf, small, small, ← Char.toNat_inj, ← Char.toNat_inj, toNat_toLower,
    toNat_toLower]
  split <;> split <;> omega

theorem map_toLower_eq_iff {word name : List Char} :
    word.map Char.toLower = name.map Char.toLower ↔ List.Forall₂ AlikeButCase word name := by
  rw [← List.forall₂_eq_eq_eq, List.forall₂_map_left_iff, List.forall₂_map_right_iff]
  simp only [toLower_eq_iff]

theorem toLower_of_isBlank {c : Char} (blank : isBlank c = true) : c.toLower = c := by
  simp only [isBlank, Bool.or_eq_true, Bool.and_eq_true, decide_eq_true_eq, beq_iff_eq] at blank
  rw [← Char.toNat_inj, toNat_toLower, if_neg (by omega)]

/-- White space has no case, so no word that is alike to one without white space has any. -/
theorem isBlank_of_alike {word name : List Char} (alike : List.Forall₂ AlikeButCase word name)
    (solid : name.any (fun d => isBlank d.toLower) = false) {c : Char} (member : c ∈ word) : isBlank c = false := by
  have lower : c.toLower ∈ name.map Char.toLower := map_toLower_eq_iff.mpr alike ▸ List.mem_map_of_mem member
  obtain ⟨d, partner, same⟩ := List.mem_map.mp lower
  have other := List.any_eq_false.mp solid d partner
  by_contra blank
  rw [Bool.not_eq_false] at blank
  rw [same, toLower_of_isBlank blank] at other
  exact other blank

/-- Trimming takes white space away at both ends, and nothing else. -/
theorem trim_split (cs : List Char) :
    ∃ before after, cs = before ++ trim cs ++ after ∧ (∀ c ∈ before, isBlank c = true) ∧
      ∀ c ∈ after, isBlank c = true := by
  let kept := cs.dropWhile isBlank
  have back : trim cs ++ (kept.reverse.takeWhile isBlank).reverse = kept := by
    rw [trim, trimEnd, ← List.reverse_append, List.takeWhile_append_dropWhile, List.reverse_reverse]
  refine ⟨cs.takeWhile isBlank, (kept.reverse.takeWhile isBlank).reverse, ?_, fun _ => List.mem_takeWhile_imp,
    fun _ member => List.mem_takeWhile_imp (List.mem_reverse.mp member)⟩
  rw [List.append_assoc, back, List.takeWhile_append_dropWhile]

theorem dropWhile_word {word : List Char} (nonempty : word ≠ []) (solid : ∀ c ∈ word, isBlank c = false)
    (rest : List Char) : (word ++ rest).dropWhile isBlank = word ++ rest := by
  obtain ⟨c, word, rfl⟩ := List.exists_cons_of_ne_nil nonempty
  have first : ¬isBlank c = true := by simp [solid c (List.mem_cons_self ..)]
  rw [List.cons_append, List.dropWhile_cons_of_neg first]

/-- A word without white space is what is left when there was white space around it. -/
theorem trim_padded {before word after : List Char} (nonempty : word ≠ []) (solid : ∀ c ∈ word, isBlank c = false)
    (blankBefore : ∀ c ∈ before, isBlank c = true) (blankAfter : ∀ c ∈ after, isBlank c = true) :
    trim (before ++ word ++ after) = word := by
  have front : (before ++ word ++ after).dropWhile isBlank = word ++ after := by
    rw [List.append_assoc, List.dropWhile_append_of_pos blankBefore, dropWhile_word nonempty solid]
  have back : (after.reverse ++ word.reverse).dropWhile isBlank = word.reverse := by
    have whole := dropWhile_word (mt List.reverse_eq_nil_iff.mp nonempty)
      (fun c member => solid c (List.mem_reverse.mp member)) []
    rw [List.append_nil] at whole
    rw [List.dropWhile_append_of_pos fun c member => blankAfter c (List.mem_reverse.mp member), whole]
  rw [trim, trimEnd, front, List.reverse_append, back, List.reverse_reverse]

end Text

namespace Style

/-- White space, then one of two words in which the case of ASCII letters does not count, then white space. -/
def AsksFancy (raw : String) : Prop :=
  ∃ before word after, raw.toList = before ++ word ++ after ∧
    (∀ c ∈ before, Text.isBlank c = true) ∧ (∀ c ∈ after, Text.isBlank c = true) ∧
    (List.Forall₂ Text.AlikeButCase word "fancy".toList ∨ List.Forall₂ Text.AlikeButCase word "rich".toList)

/-- Lower case throughout, the two words are looked for as they are. -/
theorem parse_fancy_iff_trim {raw : String} :
    parse raw = fancy ↔ List.Forall₂ Text.AlikeButCase (Text.trim raw.toList) "fancy".toList ∨
      List.Forall₂ Text.AlikeButCase (Text.trim raw.toList) "rich".toList := by
  have lowerFancy : "fancy".toList.map Char.toLower = "fancy".toList := by decide
  have lowerRich : "rich".toList.map Char.toLower = "rich".toList := by decide
  rw [← Text.map_toLower_eq_iff, ← Text.map_toLower_eq_iff, lowerFancy, lowerRich, parse]
  split <;> simp_all

theorem parse_fancy_iff {raw : String} : parse raw = fancy ↔ AsksFancy raw := by
  rw [parse_fancy_iff_trim]
  constructor
  · intro named
    obtain ⟨before, after, cut, blankBefore, blankAfter⟩ := Text.trim_split raw.toList
    exact ⟨before, _, after, cut, blankBefore, blankAfter, named⟩
  · rintro ⟨before, word, after, cut, blankBefore, blankAfter, named⟩
    have solid : ∀ c ∈ word, Text.isBlank c = false := by
      intro c member
      rcases named with alike | alike <;> exact Text.isBlank_of_alike alike (by decide) member
    have nonempty : word ≠ [] := by
      rintro rfl
      rcases named with alike | alike <;> cases alike
    rwa [cut, Text.trim_padded nonempty solid blankBefore blankAfter]

/-- What is asked for by nothing but white space is the default. -/
theorem parse_of_blank {raw : String} (blank : Text.trim raw.toList = []) : parse raw = plain := by
  rw [parse, blank]
  rfl

end Style

namespace Settings

/-- A setting is fancy exactly if it is one of two words in any case with white space around it, and else plain. The
settings are those of the one variable, and the default without it. A blank one is passed over, which makes no
difference, and other variables make none either. -/
theorem ofLookup_style :
    (∀ raw, Style.parse raw = .fancy ↔ Style.AsksFancy raw) ∧
      (∀ raw, Style.parse raw = .plain ↔ ¬Style.AsksFancy raw) ∧
      (∀ lookup, ofLookup lookup = (lookup "YAR_DIAGNOSTICS").elim {} fun raw => ⟨Style.parse raw⟩) ∧
      ∀ lookup other, lookup "YAR_DIAGNOSTICS" = other "YAR_DIAGNOSTICS" → ofLookup lookup = ofLookup other := by
  have unfiltered (lookup : String → Option String) :
      ofLookup lookup = (lookup "YAR_DIAGNOSTICS").elim {} fun raw => ⟨Style.parse raw⟩ := by
    unfold ofLookup styleVariable
    cases lookup "YAR_DIAGNOSTICS" with
    | none => rfl
    | some raw =>
      by_cases blank : Text.trim raw.toList = []
      · simp only [blank, if_true, Option.elim_some, Style.parse_of_blank blank]
      · simp only [blank, if_false, Option.elim_some]
  refine ⟨fun _ => Style.parse_fancy_iff, fun raw => ?_, unfiltered, fun lookup other same => ?_⟩
  · rw [← Style.parse_fancy_iff]
    cases Style.parse raw <;> decide
  · rw [unfiltered, unfiltered, same]

/-- An ideographic space and a tab around a word with two capitals, and a second variable. -/
theorem ofLookup_style_padded :
    let lookup (name : String) := if name = "YAR_DIAGNOSTICS" then some "\u3000RicH\t" else none
    let other (name : String) := if name = "YAR_DIAGNOSTICS" then some "\u3000RicH\t" else some "plain"
    Style.AsksFancy "\u3000RicH\t" ∧ ¬Style.AsksFancy "fancy rich" ∧
      lookup "YAR_DIAGNOSTICS" = other "YAR_DIAGNOSTICS" ∧ ofLookup lookup = ofLookup other := by
  intro lookup other
  obtain ⟨fancy, plain, _, one⟩ := ofLookup_style
  exact ⟨(fancy _).mp (by decide), (plain _).mp (by decide), rfl, one lookup other rfl⟩

end Settings

end TaggedRuntime
