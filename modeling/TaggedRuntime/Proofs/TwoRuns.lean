import TaggedRuntime.Program

namespace TaggedRuntime

/-- The calls of a program, those of the threads inside it among them. -/
def Program.calls : Program → List Call
  | done => []
  | call c rest => c :: rest.calls
  | thread body rest => body.calls ++ rest.calls

variable {α : Type} {alike : Host → Host → Prop} {view : Event → Option α}

/-- Two outcomes look the same: what a view shows of the events, the thread, and the hosts as far as they
are alike. -/
structure Outcome.Agree (alike : Host → Host → Prop) (view : Event → Option α) (left right : Outcome) : Prop where
  events : left.events.filterMap view = right.events.filterMap view
  host : alike left.host right.host
  thread : left.thread = right.thread

theorem Outcome.Agree.after {first later first' later' : Outcome} (begin : first.Agree alike view first')
    (rest : later.Agree alike view later') :
    Outcome.Agree alike view { later with events := first.events ++ later.events }
      { later' with events := first'.events ++ later'.events } := by
  refine ⟨?_, rest.host, rest.thread⟩
  simp only [List.filterMap_append, begin.events, rest.events]

/-- Two runs of a program agree from hosts that are alike, if its calls do and threads are joined alike. -/
theorem Program.run_agree (program : Program)
    (calls : ∀ c ∈ program.calls, ∀ t left right, alike left right →
      Outcome.Agree alike view (c.run t left) (c.run t right))
    (joins : ∀ t left right, alike left right →
      Outcome.Agree alike view (.returned [] left t .none) (.returned [] right t .none))
    (t : Thread) {left right : Host} (start : alike left right) :
    Outcome.Agree alike view (program.run t left) (program.run t right) := by
  induction program generalizing t left right with
  | done => exact ⟨rfl, start, rfl⟩
  | call c rest ih =>
    obtain ⟨now, others⟩ := List.forall_mem_cons.mp calls
    have first := now t left right start
    simp only [run, ← first.thread]
    cases returns : (c.run t left).thread with
    | none => exact first
    | some later => exact first.after (ih others later first.host)
  | thread body rest ihBody ihRest =>
    obtain ⟨inside, others⟩ := List.forall_mem_append.mp calls
    have inner := ihBody inside {} start
    simp only [run, ← inner.thread]
    cases returns : (body.run {} left).thread with
    | none => exact inner
    | some later =>
      have joined := joins t _ _ inner.host
      have together : Outcome.Agree alike view
          (.returned (body.run {} left).events (body.run {} left).host t .none)
          (.returned (body.run {} right).events (body.run {} right).host t .none) := inner.after joined
      exact together.after (ihRest others t together.host)

end TaggedRuntime
