import TaggedRuntime.Proofs.Process

namespace TaggedRuntime

namespace Process

/-- The outcome of what runs on top of the waiting threads: the steps tell its events, and it ends with
its thread done or with a call that stops the process. -/
inductive Runs (P : Process) (waiting : List Frame) : Outcome → Prop
  | ended {history t log host} : P.Reaches history ⟨⟨t, .done, log⟩, waiting, host⟩ →
      Runs P waiting ⟨history.flatMap Completed.events, host, some t⟩
  | stopped {history Q reason} : P.Reaches history Q → Q.Stops reason →
      Runs P waiting
        ⟨history.flatMap Completed.events ++ (Q.host.stop reason).1, (Q.host.stop reason).2, none⟩

theorem Runs.after {P Q : Process} {waiting : List Frame} {history : List Completed} {outcome : Outcome}
    (runs : Q.Runs waiting outcome) (reach : P.Reaches history Q) :
    P.Runs waiting { outcome with events := history.flatMap Completed.events ++ outcome.events } := by
  cases runs with
  | ended further =>
    rw [← List.flatMap_append]
    exact .ended (reach.trans further)
  | stopped further stops =>
    rw [← List.append_assoc, ← List.flatMap_append]
    exact .stopped (reach.trans further) stops

end Process

/-- The run of a program in a thread is what its steps come to, whatever waits for that thread. -/
theorem Program.run_runs (program : Program) (t : Thread) (host : Host) (log : List Answer)
    (waiting : List Frame) : Process.Runs ⟨⟨t, program, log⟩, waiting, host⟩ waiting (program.run t host) := by
  induction program generalizing t host log waiting with
  | done => exact .ended .here
  | call c rest ih =>
    rcases c.run_cases t host with ⟨reason, stops, run⟩ | ⟨_, t', returns⟩
    · simp only [Program.run, run, Outcome.stopped]
      exact .stopped .here ⟨c, rest, rfl, stops⟩
    · simp only [Program.run, returns]
      have later := ih t' (c.run t host).host (log ++ (Completed.call c t host).answers) waiting
      have whole := later.after (.completes (.call returns) .here)
      rwa [List.flatMap_singleton] at whole
  | thread body rest ihBody ihRest =>
    have inside : Process.Runs ⟨⟨t, .thread body rest, log⟩, waiting, host⟩ (⟨t, rest, log⟩ :: waiting)
        (body.run {} host) := (ihBody {} host [] _).after (.enters .thread .here)
    simp only [Program.run]
    generalize body.run {} host = inner at inside ⊢
    cases inside with
    | stopped reach stops => exact .stopped reach stops
    | @ended history t' log' host' reach =>
      have joined := reach.trans (.completes .joined .here)
      have later := (ihRest t host' (log ++ (Completed.joined t host').answers) waiting).after joined
      rwa [List.flatMap_append, List.flatMap_singleton] at later

theorem Program.reaches_final (program : Program) (host : Host) :
    ∃ history P, (Process.start program host).Reaches history P ∧ P.Final := by
  have runs := program.run_runs {} host [] []
  generalize program.run {} host = outcome at runs
  cases runs with
  | ended reach => exact ⟨_, _, reach, .inl ⟨rfl, rfl⟩⟩
  | stopped reach stops => exact ⟨_, _, reach, .inr ⟨_, stops⟩⟩

theorem Program.run_of_ended {program : Program} {host : Host} {history : List Completed} {P : Process}
    (reach : (Process.start program host).Reaches history P) (ended : P.Ended) :
    program.run {} host = ⟨history.flatMap Completed.events, P.host, some P.running.thread⟩ := by
  have runs := program.run_runs {} host [] []
  generalize program.run {} host = outcome at runs ⊢
  cases runs with
  | ended other =>
    obtain ⟨rfl, rfl⟩ := reach.final_unique other (.inl ended) (.inl ⟨rfl, rfl⟩)
    rfl
  | stopped other stops =>
    obtain ⟨_, rfl⟩ := reach.final_unique other (.inl ended) (.inr ⟨_, stops⟩)
    exact absurd stops ended.not_stops

theorem Program.run_of_stops {program : Program} {host : Host} {history : List Completed} {P : Process}
    {reason : Stop} (reach : (Process.start program host).Reaches history P) (stops : P.Stops reason) :
    program.run {} host =
      ⟨history.flatMap Completed.events ++ (P.host.stop reason).1, (P.host.stop reason).2, none⟩ := by
  have runs := program.run_runs {} host [] []
  generalize program.run {} host = outcome at runs ⊢
  cases runs with
  | ended other =>
    obtain ⟨_, rfl⟩ := reach.final_unique other (.inr ⟨reason, stops⟩) (.inl ⟨rfl, rfl⟩)
    exact absurd stops (Process.Ended.not_stops ⟨rfl, rfl⟩)
  | stopped other stops' =>
    obtain ⟨rfl, rfl⟩ := reach.final_unique other (.inr ⟨reason, stops⟩) (.inr ⟨_, stops'⟩)
    cases stops.unique stops'
    rfl

theorem Program.status_of_ended {program : Program} {host : Host} {history : List Completed} {P : Process}
    (reach : (Process.start program host).Reaches history P) (ended : P.Ended) :
    (program.execute host).status = 0 := by
  simp only [execute, run_of_ended reach ended, Option.isSome_some, if_true]

theorem Program.status_of_stops {program : Program} {host : Host} {history : List Completed} {P : Process}
    {reason : Stop} (reach : (Process.start program host).Reaches history P) (stops : P.Stops reason) :
    (program.execute host).status = 1 := by
  simp only [execute, run_of_stops reach stops, Option.isSome_none, Bool.false_eq_true, if_false, stoppedStatus]

/-- The answers in a transcript are those of the completed steps: the end of a process gives none. -/
theorem Program.execute_answers {program : Program} {host : Host} {history : List Completed} {P : Process}
    (reach : (Process.start program host).Reaches history P) (final : P.Final) :
    (program.execute host).events.filterMap Event.answer? = history.flatMap Completed.answers := by
  rcases final with ended | ⟨reason, stops⟩
  · simp only [execute, run_of_ended reach ended]
    exact List.filterMap_flatMap
  · simp only [execute, run_of_stops reach stops, List.filterMap_append, Host.stop_answers, List.append_nil]
    exact List.filterMap_flatMap

end TaggedRuntime
