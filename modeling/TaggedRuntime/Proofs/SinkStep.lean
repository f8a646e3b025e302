import TaggedRuntime.Proofs.ErrorPath

namespace TaggedRuntime

namespace Event

/-- What a step did to a tracing sink, as opposed to its return. -/
def isEffect : Event → Bool
  | wrote _ | flushed => true
  | returned .. => false

/-- The buffer that a step shows when it returns. -/
def buffer? : Event → Option Bytes
  | returned _ _ buffer => buffer
  | wrote _ | flushed => none

def wrote? : Event → Option Bytes
  | wrote bytes => some bytes
  | flushed | returned .. => none

end Event

namespace Completed

def prints : Completed → Bool
  | call (.output _) _ _ => true
  | _ => false

/-- The step has installed a sink. -/
def installs (step : Completed) : Bool := step.answers.contains .installed

theorem printed_of_not_prints (step : Completed) (silent : step.prints = false) : step.printed = [] := by
  cases step with
  | joined => rfl
  | call c =>
    cases c with
    | output o => cases silent
    | _ => rfl

/-- What the step does to the sink, where that can be seen. -/
def effects (step : Completed) (host : Host) : List Event :=
  if step.prints then host.traced [.wrote step.printed, .flushed] else []

end Completed

/-- A process ends with the sink that its last step left: a flush at the end writes nothing. -/
theorem Program.run_activeSink {program : Program} {host : Host} {history : List Completed} {P : Process}
    (reach : (Process.start program host).Reaches history P) (final : P.Final) :
    (program.run {} host).host.activeSink = P.host.activeSink := by
  rcases final with ended | ⟨reason, stops⟩
  · rw [run_of_ended reach ended]
  · rw [run_of_stops reach stops, Host.activeSink, Host.stop_sink, Option.getD_some]

theorem Program.execute_stdout {program : Program} {host : Host} {history : List Completed} {P : Process}
    (reach : (Process.start program host).Reaches history P) (final : P.Final) :
    (program.execute host).stdout = P.host.stdout := by
  rw [execute, Host.stdout_eq, run_activeSink reach final, ← Host.stdout_eq]

/-- The events of a transcript are those of the completed steps, and perhaps a flush at the end. -/
theorem Program.execute_events {program : Program} {host : Host} {history : List Completed} {P : Process}
    (reach : (Process.start program host).Reaches history P) (final : P.Final) :
    (program.execute host).events = history.flatMap Completed.events ∨
      (program.execute host).events = history.flatMap Completed.events ++ [.flushed] := by
  rcases final with ended | ⟨reason, stops⟩
  · exact .inl (by simp only [execute, run_of_ended reach ended])
  · simp only [execute, run_of_stops reach stops, Host.stop_events]
    split
    · exact .inr rfl
    · exact .inl (List.append_nil _)

theorem Host.traced_of_trace {host : Host} (traces : host.activeSink.kind = .trace) (events : List Event) :
    host.traced events = events := by
  rw [traced, traces]

/-- A view that shows nothing of some effects shows nothing of them whether they are traced or not. -/
theorem Host.traced_filterMap {α : Type} {view : Event → Option α} {events : List Event}
    (silent : events.filterMap view = []) (host : Host) : (host.traced events).filterMap view = [] := by
  unfold traced
  split
  · exact silent
  · rfl

/-- A view without writes and flushes sees nothing of what a step does to the sink. -/
theorem Completed.effects_filterMap {α : Type} {view : Event → Option α} (writes : ∀ bytes, view (.wrote bytes) = none)
    (flushes : view .flushed = none) (step : Completed) (host : Host) : (step.effects host).filterMap view = [] := by
  unfold effects
  split
  · refine host.traced_filterMap ?_
    rw [List.filterMap_cons_none (writes _), List.filterMap_cons_none flushes, List.filterMap_nil]
  · rfl

namespace Process

/-- A step is seen as its effects, and then as one return that shows the number of values alive in its thread
and the buffer as they are after the step. -/
theorem Completes.events {P Q : Process} {step : Completed} (complete : P.Completes step Q) :
    ∃ answer, step.events =
      step.effects P.host ++ [.returned answer Q.running.thread.heap.live Q.host.buffer?] := by
  cases complete with
  | joined => exact ⟨.none, rfl⟩
  | @call c t t' log rest waiting host returns =>
    cases c with
    | produce p =>
      cases result : p.eval t.read with
      | ok v =>
        have run : (Call.produce p).run t host = .returnedHandle host t (t.publish v) := by
          simp only [Call.run, result]
        simp only [run] at returns ⊢
        cases Option.some.inj returns
        simp only [Completed.events, Completed.outcome, run]
        exact ⟨_, rfl⟩
      | error f =>
        simp only [Call.run, result] at returns
        cases returns
    | abort a => cases returns
    | _ =>
      cases Option.some.inj returns
      exact ⟨_, rfl⟩

/-- A view without writes and flushes sees one event of a step, its return. -/
theorem Completes.returned {P Q : Process} {step : Completed} (complete : P.Completes step Q) {α : Type}
    (view : Event → Option α) (writes : ∀ bytes, view (.wrote bytes) = none) (flushes : view .flushed = none) :
    ∃ answer, step.events.filterMap view =
      (view (.returned answer Q.running.thread.heap.live Q.host.buffer?)).toList := by
  obtain ⟨answer, events⟩ := complete.events
  refine ⟨answer, ?_⟩
  rw [events, List.filterMap_append, step.effects_filterMap writes flushes, List.nil_append, List.filterMap_cons]
  cases view (.returned answer Q.running.thread.heap.live Q.host.buffer?) <;> rfl

theorem Reaches.host_of_nil {P Q : Process} {history : List Completed} (reach : P.Reaches history Q)
    (nothing : history = []) : Q.host = P.host := by
  induction reach with
  | here => rfl
  | enters enter _ ih => rw [ih nothing, enter.host]
  | completes => cases nothing

theorem Completes.buffer {P Q : Process} {step : Completed} (complete : P.Completes step Q) :
    step.events.filterMap Event.buffer? = Q.host.buffer?.toList := by
  obtain ⟨_, shown⟩ := complete.returned Event.buffer? (fun _ => rfl) rfl
  exact shown

/-- On a tracing sink a printing step makes one write and one flush, and any other step neither. -/
theorem Completes.effects {P Q : Process} {step : Completed} (complete : P.Completes step Q)
    (traces : P.host.activeSink.kind = .trace) :
    step.events.filter Event.isEffect = if step.prints then [.wrote step.printed, .flushed] else [] := by
  obtain ⟨answer, events⟩ := complete.events
  rw [events, List.filter_append, Completed.effects, Host.traced_of_trace traces]
  cases step.prints <;> rfl

theorem Completes.wrote {P Q : Process} {step : Completed} (complete : P.Completes step Q)
    (traces : P.host.activeSink.kind = .trace) : (step.events.filterMap Event.wrote?).flatten = step.printed := by
  obtain ⟨answer, events⟩ := complete.events
  rw [events, List.filterMap_append, Completed.effects, Host.traced_of_trace traces]
  cases prints : step.prints with
  | true => exact List.append_nil _
  | false =>
    rw [step.printed_of_not_prints prints]
    rfl

theorem Reaches.wrote {P Q : Process} {history : List Completed} (reach : P.Reaches history Q)
    (traces : P.host.activeSink.kind = .trace) :
    ((history.flatMap Completed.events).filterMap Event.wrote?).flatten = history.flatMap Completed.printed := by
  induction reach with
  | here => rfl
  | enters enter _ ih => exact ih (enter.host ▸ traces)
  | completes complete _ ih =>
    rw [List.flatMap_cons, List.filterMap_append, List.flatten_append, complete.wrote traces,
      ih (complete.traces.mpr traces), List.flatMap_cons]

end Process

end TaggedRuntime
