import TaggedRuntime.Proofs.Decoding
import TaggedRuntime.Proofs.TemplateFilling

namespace TaggedRuntime

namespace Template

/-- The byte of a percent sign. -/
def percentByte : UInt8 := 0x25

/-- Text as a template that asks for it: each percent sign is written twice. -/
def escape (cs : List Char) : List Char := cs.flatMap fun c => if c = '%' then [c, c] else [c]

def escapeBytes (bytes : Bytes) : Bytes := bytes.flatMap fun b => if b = percentByte then [b, b] else [b]

theorem escape_append (first second : List Char) : escape (first ++ second) = escape first ++ escape second :=
  List.flatMap_append

theorem escape_of_free {cs : List Char} (free : '%' ∉ cs) : escape cs = cs := by
  induction cs with
  | nil => rfl
  | cons c cs ih =>
    obtain ⟨other, free⟩ := not_or.mp (mt List.mem_cons.mpr free)
    rw [escape, List.flatMap_cons, if_neg (Ne.symm other)]
    exact congrArg (c :: ·) (ih free)

theorem mem_escapeBytes {b : UInt8} {bytes : Bytes} : b ∈ escapeBytes bytes ↔ b ∈ bytes := by
  simp only [escapeBytes, List.mem_flatMap]
  constructor
  · rintro ⟨c, member, same⟩
    split at same <;> simp_all
  · intro member
    refine ⟨b, member, ?_⟩
    split <;> simp

end Template

open Template (percentByte)

namespace Utf8

/-- Only its own byte gives a percent sign, whatever is pending. -/
theorem percent_notMem_next {pending : Option Pending} (valid : ∀ p ∈ pending, p.Valid) {b : UInt8}
    (other : b ≠ percentByte) : '%' ∉ (next pending b).1 := by
  intro member
  exact other (UInt8.toNat_inj.mp (toNat_of_mem_next valid (by decide) member))

theorem percent_notMem_pending (pending : Option Pending) : '%' ∉ decodeFrom pending [] := by
  cases pending with
  | none => exact List.not_mem_nil
  | some p =>
    rw [decodeFrom, List.mem_singleton]
    decide

/-- Doubling a percent sign in the bytes doubles it in the text: it ends whatever is pending, and nothing is
pending after it. -/
theorem decodeFrom_escapeBytes (bytes : Bytes) {pending : Option Pending} (valid : ∀ p ∈ pending, p.Valid) :
    decodeFrom pending (Template.escapeBytes bytes) = Template.escape (decodeFrom pending bytes) := by
  induction bytes generalizing pending with
  | nil => exact (Template.escape_of_free (percent_notMem_pending pending)).symm
  | cons b rest ih =>
    have split : Template.escapeBytes (b :: rest) =
        (if b = percentByte then [b, b] else [b]) ++ Template.escapeBytes rest := List.flatMap_cons
    rw [split, decodeFrom_cons pending b rest, Template.escape_append]
    by_cases percent : b = percentByte
    · -- the first of the two ends what is pending, and the second finds nothing pending
      subst percent
      have first := next_ascii valid (b := percentByte) (by decide)
      have second : next none percentByte = (['%'], none) := rfl
      rw [if_pos rfl, List.cons_append, List.cons_append, List.nil_append, decodeFrom_cons, first, decodeFrom_cons,
        second, Template.escape_append, Template.escape_of_free (percent_notMem_pending pending), ih (by simp),
        List.append_assoc, List.append_assoc]
      rfl
    · rw [if_neg percent, List.singleton_append, decodeFrom_cons, ih (next_valid valid),
        Template.escape_of_free (percent_notMem_next valid percent)]

theorem decode_escapeBytes (bytes : Bytes) :
    decode (Template.escapeBytes bytes) = String.ofList (Template.escape (decode bytes).toList) := by
  rw [decode, decodeFrom_escapeBytes bytes (by simp), decode, String.toList_ofList]

end Utf8

namespace Segment

/-- An escaped text is filled to the text itself, and takes no argument. -/
theorem render_escape (cs : List Char) (args : List Value) : render (parse (Template.escape cs)) args = cs := by
  induction cs with
  | nil => rw [Template.escape, List.flatMap_nil, Reads.nothing.parse_eq]; rfl
  | cons c cs ih =>
    rw [Template.escape, List.flatMap_cons]
    by_cases percent : c = '%'
    · subst percent
      rw [if_pos rfl, List.cons_append, List.cons_append, List.nil_append, parse_letter]
      exact congrArg ('%' :: ·) ih
    · have free : '%' ∉ [c] := by simpa using Ne.symm percent
      rw [if_neg percent, (render_parse_text free _ _).1]
      exact congrArg (c :: ·) ih

end Segment

namespace Template

theorem fill_escape (text : String) (args : List Value) : fill (String.ofList (escape text.toList)) args = text := by
  rw [fill, String.toList_ofList, Segment.render_escape, String.ofList_toList]

/-- A directive for the display text alone is filled to just that. -/
theorem fill_display (v : Value) : fill "%s" [v] = v.display := by
  have whole : Segment.parse "%s".toList = [.directive .display] :=
    (Segment.parse_letter 's' []).trans (congrArg (_ :: ·) Segment.Reads.nothing.parse_eq)
  have written : Segment.render [.directive .display] [v] = v.display.toList := List.append_nil _
  rw [fill, whole, written, String.ofList_toList]

end Template

end TaggedRuntime
