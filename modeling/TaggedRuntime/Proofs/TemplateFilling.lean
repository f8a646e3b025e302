import TaggedRuntime.Proofs.TemplateReading

namespace TaggedRuntime

namespace Segment

def isDirective : Segment → Bool
  | directive _ => true
  | literal _ | percent | unknown _ => false

/-- How many arguments the segments take. -/
def arity (segments : List Segment) : Nat := segments.countP isDirective

/-- What a segment is filled with, given the argument at its place if there is one. -/
def filled (arg? : Option Value) : Segment → List Char
  | percent => ['%']
  | directive d =>
    match arg? with
    | some v => d.write v
    | none => (directive d).source
  | literal text => text
  | unknown c => (unknown c).source

theorem arity_cons (segment : Segment) (segments : List Segment) :
    arity (segment :: segments) = arity [segment] + arity segments := by
  simp [arity, List.countP_cons, Nat.add_comm]

/-- The first segment is filled with the first argument, and takes it away only if it is a directive. -/
theorem render_cons (segment : Segment) (segments : List Segment) (args : List Value) :
    render (segment :: segments) args =
      segment.filled args.head? ++ render segments (args.drop (arity [segment])) := by
  cases segment with
  | directive d => cases args <;> rfl
  | literal text => rfl
  | percent => rfl
  | unknown c => rfl

theorem render_literal (text : List Char) (segments : List Segment) (args : List Value) :
    render (literal text :: segments) args = text ++ render segments args := rfl

theorem render_eq_mapIdx (segments : List Segment) (args : List Value) :
    render segments args =
      (segments.mapIdx fun i segment => segment.filled args[arity (segments.take i)]?).flatten := by
  induction segments generalizing args with
  | nil => cases args <;> rfl
  | cons segment segments ih =>
    have places : ∀ i, (args.drop (arity [segment]))[arity (segments.take i)]? =
        args[arity ((segment :: segments).take (i + 1))]? := by
      intro i
      rw [List.getElem?_drop, List.take_succ_cons, arity_cons segment (segments.take i)]
    rw [render_cons, ih, List.mapIdx_cons, List.flatten_cons, List.head?_eq_getElem?]
    simp only [places]
    rfl

/-- Arguments after those that are taken make no difference. -/
theorem render_take (segments : List Segment) (args : List Value) :
    render segments args = render segments (args.take (arity segments)) := by
  induction segments generalizing args with
  | nil => cases args <;> rfl
  | cons segment segments ih =>
    have first : segment.filled (args.take (arity [segment] + arity segments)).head? =
        segment.filled args.head? := by
      cases segment with
      | directive d =>
        have taken : arity [directive d] + arity segments ≠ 0 := by simp [arity, isDirective]
        rw [List.head?_take, if_neg taken]
      | _ => rfl
    rw [arity_cons segment segments, render_cons, render_cons, first, List.drop_take, Nat.add_sub_cancel_left,
      ih]

/-- Text in front of a template stays in front of what it is filled to, and takes no argument. It may join a
literal there. -/
theorem render_parse_text {text : List Char} (free : '%' ∉ text) (cs : List Char) (args : List Value) :
    render (parse (text ++ cs)) args = text ++ render (parse cs) args ∧
      arity (parse (text ++ cs)) = arity (parse cs) := by
  by_cases empty : text = []
  · subst empty
    exact ⟨rfl, rfl⟩
  · obtain ⟨segments, left, reads⟩ := Reads.exist cs
    have apart (stop : Boundary cs) : render (parse (text ++ cs)) args = text ++ render (parse cs) args ∧
        arity (parse (text ++ cs)) = arity (parse cs) := by
      rw [parse_literal empty free stop]
      exact ⟨rfl, rfl⟩
    cases reads with
    | nothing => exact apart (.inl rfl)
    | dangling => exact apart (.inr ⟨_, rfl⟩)
    | letter => exact apart (.inr ⟨_, rfl⟩)
    | @text others rest segments left nonempty free' stop _ =>
      have joined : '%' ∉ text ++ others := by simp [free, free']
      rw [← List.append_assoc, parse_literal (List.append_ne_nil_of_left_ne_nil empty others) joined stop,
        parse_literal nonempty free' stop, render_literal, render_literal, List.append_assoc]
      exact ⟨rfl, rfl⟩

theorem render_parse_append {first left : List Char} {segments : List Segment} (reads : Reads first segments left)
    (consumed : left = []) (second : List Char) (args : List Value) :
    render (parse (first ++ second)) args =
      render segments args ++ render (parse second) (args.drop (arity segments)) := by
  induction reads generalizing args with
  | nothing => cases args <;> rfl
  | dangling => cases consumed
  | @letter c rest segments left _ ih =>
    rw [List.cons_append, List.cons_append, parse_letter, render_cons, render_cons, ih consumed,
      List.append_assoc, List.drop_drop, arity_cons (ofLetter c) segments]
  | @text text rest segments left _ free _ _ ih =>
    rw [List.append_assoc, (render_parse_text free _ _).1, ih consumed, render_literal, List.append_assoc]
    rfl

end Segment

namespace Template

open Segment (parse read? filled)

/-- How many arguments a template takes. -/
def arity (template : String) : Nat := Segment.arity (parse template.toList)

/-- Templates compose. Behind one that is read to its end, another is filled with the arguments that are left
over. Any template is filled segment by segment: a directive with the argument of its number among the
directives, whatever its text looks like, and any other segment with none. Further arguments do not count. -/
theorem fill_append :
    (∀ first second : String, (∃ segments, read? first.toList = some (segments, [])) → ∀ args,
      fill (first ++ second) args = fill first args ++ fill second (args.drop (arity first))) ∧
    ∀ template args, fill template args = fill template (args.take (arity template)) ∧
      fill template args = String.ofList ((parse template.toList).mapIdx fun i segment =>
        segment.filled args[Segment.arity ((parse template.toList).take i)]?).flatten := by
  constructor
  · rintro first second ⟨segments, consumed⟩ args
    obtain ⟨read, left, reads⟩ := Segment.Reads.exist first.toList
    cases consumed.symm.trans reads.read?_eq
    have whole : parse first.toList = segments := reads.parse_eq
    unfold fill arity
    rw [String.toList_append, Segment.render_parse_append reads rfl, whole, String.ofList_append]
  · intro template args
    exact ⟨congrArg String.ofList (Segment.render_take _ args),
      congrArg String.ofList (Segment.render_eq_mapIdx _ args)⟩

/-- Here the text between two directives is cut in the middle, and an argument looks like a directive. -/
theorem fill_append_within_literal :
    let args := [.string [0x25, 0x73], .bool true]
    (∃ segments, read? "%s%% ab".toList = some (segments, [])) ∧
      fill ("%s%% ab" ++ "cd%i%q%d") args = "%s% ab" ++ "cdtrue%q%d" := by
  intro args
  have consumed : ∃ segments, read? "%s%% ab".toList = some (segments, []) :=
    ⟨[.directive .display, .percent, .literal " ab".toList], by decide +kernel⟩
  refine ⟨consumed, (fill_append.1 _ _ consumed args).trans ?_⟩
  decide +kernel

end Template

end TaggedRuntime
