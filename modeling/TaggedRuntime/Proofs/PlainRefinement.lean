import TaggedRuntime.Proofs.PlainRun

namespace TaggedRuntime

/-- A program on handles refines the same program on plain values. Its answers are the replies of the
values, step for step, and it goes on just as far: to the end, or to the call that stops the values, which
gives no event and status 1. On the way every thread still holds each handle it was given, and that reads
as the value it had then. -/
theorem Program.execute_refines_plain (program : Program) (host : Host) :
    (∃ history P, (Process.start program host).Reaches history P ∧
      (program.execute host).events.filterMap Event.answer? = history.flatMap Completed.answers ∧
      history.flatMap Completed.replies = (Plain.run program []).1 ∧
      match (Plain.run program []).2 with
      | .ok values => P.Ended ∧ P.running.thread.registers.map P.running.thread.deref = values ∧
          (program.execute host).status = 0
      | .error reason => P.Stops reason ∧ (program.execute host).status = 1) ∧
    ∀ history P, (Process.start program host).Reaches history P →
      history.flatMap Completed.replies <+: (Plain.run program []).1 ∧
      ∀ frame ∈ P.running :: P.waiting, ∀ register handle v first,
        .handle register handle v first ∈ frame.log →
          frame.thread.registers[register]? = some handle ∧ frame.thread.deref handle = v := by
  have told := Plain.run_told program Thread.shows_fresh host [] []
  have kept {history P} (reach : (Process.start program host).Reaches history P) :=
    fun frame member => (reach.remembers (Process.start_remembers program host) frame member).kept
  generalize Plain.run program [] = plain at told ⊢
  cases told with
  | @ended whole t log host' values toEnd shows =>
    have ended : Process.Ended ⟨⟨t, .done, log⟩, [], host'⟩ := ⟨rfl, rfl⟩
    refine ⟨⟨whole, _, toEnd, execute_answers toEnd (.inl ended), rfl, ended, shows.reads,
      status_of_ended toEnd ended⟩, fun history P reach => ⟨?_, kept reach⟩⟩
    obtain ⟨later, rfl, _⟩ := reach.toward_final toEnd (.inl ended)
    exact List.flatMap_append ▸ List.prefix_append ..
  | @stopped whole Q reason toQ stops =>
    refine ⟨⟨whole, Q, toQ, execute_answers toQ (.inr ⟨reason, stops⟩), rfl, stops,
      status_of_stops toQ stops⟩, fun history P reach => ⟨?_, kept reach⟩⟩
    obtain ⟨later, rfl, _⟩ := reach.toward_final toQ (.inr ⟨reason, stops⟩)
    exact List.flatMap_append ▸ List.prefix_append ..

/-- While the inner thread of this program is about to negate a boolean, the outer one holds its string. -/
theorem Program.execute_refines_plain_inner_thread :
    let inner : Program := .call (.produce (.constant (.bool true)))
      (.call (.produce (.operation (.unary .negate (some 0)))) .done)
    let program : Program := .call (.produce (.constant (.string [0x61]))) (.thread inner .done)
    let outer : Frame :=
      ⟨Thread.publish {} (.string [0x61]), .done, [.handle 0 (some (.slot 0)) (.string [0x61]) none]⟩
    (program.execute {}).status = 1 ∧
      (Plain.run program []).2 = .error (.fault (.operand "negate" "bool")) ∧
      outer.thread.registers[0]? = some (some (.slot 0)) ∧
      outer.thread.deref (some (.slot 0)) = .string [0x61] := by
  intro inner program outer
  obtain ⟨⟨history, P, reach, answers, replies, stopped⟩, kept⟩ := execute_refines_plain program {}
  have reason : (Plain.run program []).2 = .error (.fault (.operand "negate" "bool")) := rfl
  rw [reason] at stopped
  have held := (kept _ _ (.completes (.call rfl) (.enters .thread (.completes (.call rfl) .here)))).2 outer
    (List.mem_cons_of_mem _ (List.mem_singleton.mpr rfl)) 0 _ _ none (List.mem_singleton.mpr rfl)
  exact ⟨stopped.2, reason, held⟩

end TaggedRuntime
