import TaggedRuntime.Proofs.SinkFixed
import TaggedRuntime.Proofs.TwoRuns

namespace TaggedRuntime

/-- What a step shows whatever the sink: its answer, and the number of values alive. -/
def Event.shown? : Event → Option (Answer × Nat)
  | .returned answer live _ => some (answer, live)
  | .wrote _ | .flushed => none

namespace Host

/-- Hosts with sinks of two kinds, to which the same was written, and otherwise the same. -/
structure Twins (kind kind' : Sink.Kind) (left right : Host) : Prop where
  kindLeft : left.activeSink.kind = kind
  kindRight : right.activeSink.kind = kind'
  written : left.activeSink.written = right.activeSink.written
  settings : left.settings = right.settings
  environment : left.environment = right.environment
  stderr : left.stderr = right.stderr

namespace Twins

variable {kind kind' : Sink.Kind} {left right : Host}

theorem environmentSettings (twins : Twins kind kind' left right) :
    left.environmentSettings = right.environmentSettings := by
  rw [Host.environmentSettings, Host.environmentSettings, twins.environment]

theorem activeSettings (twins : Twins kind kind' left right) : left.activeSettings = right.activeSettings := by
  rw [Host.activeSettings, Host.activeSettings, twins.settings, twins.environmentSettings]

theorem emit (twins : Twins kind kind' left right) (bytes : Bytes) :
    Twins kind kind' (left.emit bytes).2 (right.emit bytes).2 :=
  ⟨twins.kindLeft, twins.kindRight, congrArg (· ++ bytes) twins.written, twins.settings, twins.environment,
    twins.stderr⟩

theorem flush (twins : Twins kind kind' left right) : Twins kind kind' left.flush.2 right.flush.2 :=
  ⟨twins.kindLeft, twins.kindRight, twins.written, twins.settings, twins.environment, twins.stderr⟩

theorem complain (twins : Twins kind kind' left right) (text : String) :
    Twins kind kind' (left.complain text) (right.complain text) :=
  ⟨twins.kindLeft, twins.kindRight, twins.written, twins.settings, twins.environment,
    congrArg (· ++ text ++ "\n") twins.stderr⟩

theorem fixSettings (twins : Twins kind kind' left right) : Twins kind kind' left.fixSettings right.fixSettings :=
  ⟨twins.kindLeft, twins.kindRight, twins.written, congrArg some twins.activeSettings, twins.environment,
    twins.stderr⟩

theorem report (twins : Twins kind kind' left right) (f : Fault) :
    Twins kind kind' (left.report f) (right.report f) := by
  rw [Host.report, Host.report, twins.activeSettings]
  exact twins.fixSettings.complain _

theorem stop (twins : Twins kind kind' left right) (reason : Stop) :
    Twins kind kind' (left.stop reason).2 (right.stop reason).2 := by
  cases reason with
  | fault f => exact twins.flush.report f
  | panic message => exact twins.flush.complain _

end Twins

theorem emit_shown (host : Host) (bytes : Bytes) : (host.emit bytes).1.filterMap Event.shown? = [] :=
  host.traced_filterMap rfl

theorem stop_shown (host : Host) (reason : Stop) : (host.stop reason).1.filterMap Event.shown? = [] := by
  rw [stop_events]
  split <;> rfl

end Host

variable {kind kind' : Sink.Kind} {left right : Host}

theorem Outcome.stopped_agree (twins : Host.Twins kind kind' left right) (reason : Stop) :
    Agree (Host.Twins kind kind') Event.shown? (.stopped left reason) (.stopped right reason) :=
  ⟨(left.stop_shown reason).trans (right.stop_shown reason).symm, twins.stop reason, rfl⟩

theorem Call.run_agree {c : Call} (other : ∀ bytes, c ≠ .install bytes) (t : Thread)
    (twins : Host.Twins kind kind' left right) :
    Outcome.Agree (Host.Twins kind kind') Event.shown? (c.run t left) (c.run t right) := by
  cases c with
  | produce p =>
    simp only [run]
    cases p.eval t.read with
    | ok v => exact ⟨rfl, twins, rfl⟩
    | error f => exact Outcome.stopped_agree twins _
  | output o =>
    refine ⟨?_, twins.emit _, rfl⟩
    simp only [run, Outcome.returned, List.filterMap_append, Host.emit_shown]
    rfl
  | abort a => exact Outcome.stopped_agree twins _
  | report f => exact ⟨rfl, twins.report f, rfl⟩
  | settings =>
    refine ⟨?_, twins.fixSettings, rfl⟩
    simp only [run, Outcome.returned, twins.activeSettings]
    rfl
  | environmentSettings =>
    refine ⟨?_, twins, rfl⟩
    simp only [run, Outcome.returned, twins.environmentSettings]
    rfl
  | setEnvironment value =>
    exact ⟨rfl, ⟨twins.kindLeft, twins.kindRight, twins.written, twins.settings, rfl, twins.stderr⟩, rfl⟩
  | install bytes => exact absurd rfl (other bytes)
  | _ => exact ⟨rfl, twins, rfl⟩

namespace Process

/-- In a process with a buffer each step shows all that was written to it, so the last one shown has all. -/
theorem Reaches.last_buffer {P Q : Process} {history : List Completed} (reach : P.Reaches history Q)
    (buffered : P.host.activeSink.kind = .buffer) :
    ((history.flatMap Completed.events).filterMap Event.buffer?).getLast?.getD P.host.activeSink.written =
      Q.host.activeSink.written := by
  induction reach with
  | here => rfl
  | enters enter _ ih =>
    rw [← enter.host]
    exact ih (enter.host ▸ buffered)
  | @completes P Q R step history complete _ ih =>
    have kept : Q.host.activeSink.kind = .buffer := (complete.kind_of_used (by simp [buffered])).trans buffered
    have shown : step.events.filterMap Event.buffer? = [Q.host.activeSink.written] := by
      rw [complete.buffer, Q.host.buffer?_eq, if_pos kept]
      rfl
    rw [List.flatMap_cons, List.filterMap_append, shown, List.singleton_append, List.getLast?_cons,
      Option.getD_some]
    exact ih kept

end Process

namespace Program

variable {program : Program}

/-- What the steps of a process have printed when no step leads further is in its sink. -/
theorem run_printed (program : Program) {host : Host} (empty : host.activeSink.written = []) :
    ∃ history P, (Process.start program host).Reaches history P ∧ P.Final ∧
      history.flatMap Completed.printed = (program.run {} host).host.activeSink.written := by
  obtain ⟨history, P, reach, final⟩ := program.reaches_final host
  have written : P.host.activeSink.written = host.activeSink.written ++ history.flatMap Completed.printed :=
    reach.written
  exact ⟨history, P, reach, final, by rw [run_activeSink reach final, written, empty, List.nil_append]⟩

theorem execute_traced_writes (program : Program) {host : Host} (traces : host.activeSink.kind = .trace)
    (empty : host.activeSink.written = []) :
    ((program.execute host).events.filterMap Event.wrote?).flatten =
      (program.run {} host).host.activeSink.written := by
  obtain ⟨history, P, reach, final, printed⟩ := program.run_printed empty
  rw [← printed, ← reach.wrote traces]
  rcases execute_events reach final with events | events
  · rw [events]
  · rw [events, List.filterMap_append, List.flatten_append]
    exact List.append_nil _

theorem execute_last_buffer (program : Program) {host : Host} (buffered : host.activeSink.kind = .buffer)
    (empty : host.activeSink.written = []) :
    ((program.execute host).events.filterMap Event.buffer?).getLast?.getD [] =
      (program.run {} host).host.activeSink.written := by
  obtain ⟨history, P, reach, final, _⟩ := program.run_printed empty
  rw [run_activeSink reach final, ← reach.last_buffer buffered]
  rcases execute_events reach final with events | events
  · rw [events]
    exact congrArg _ empty.symm
  · rw [events, List.filterMap_append, show [Event.flushed].filterMap Event.buffer? = [] from rfl, List.append_nil]
    exact congrArg _ empty.symm

theorem run_twins (uninstalled : ∀ bytes, .install bytes ∉ program.calls)
    (twins : Host.Twins kind kind' left right) :
    Outcome.Agree (Host.Twins kind kind') Event.shown? (program.run {} left) (program.run {} right) := by
  refine program.run_agree ?_ ?_ {} twins
  · intro c member t left right twins
    exact Call.run_agree (fun bytes same => uninstalled bytes (same ▸ member)) t twins
  · intro t left right twins
    exact ⟨rfl, twins, rfl⟩

theorem execute_of_twins
    (agree : Outcome.Agree (Host.Twins kind kind') Event.shown? (program.run {} left) (program.run {} right)) :
    (program.execute left).events.filterMap Event.shown? =
        (program.execute right).events.filterMap Event.shown? ∧
      (program.execute left).stderr = (program.execute right).stderr ∧
      (program.execute left).status = (program.execute right).status := by
  refine ⟨agree.events, agree.host.stderr, ?_⟩
  simp only [execute, agree.thread]

/-- The output of a program does not depend on the sink, if it installs none. With the standard output, a
tracing sink and a buffer the steps show the same, and so do the standard error and the status. The standard
output has, the traced writes are together, and the last buffer shown has just what the steps have printed.
On the tracing sink each printing step makes one write and one flush, and no other step either. -/
theorem execute_any_sink (program : Program) (host : Host) (uninstalled : ∀ bytes, .install bytes ∉ program.calls) :
    let standard : Host := { host with sink := none }
    let tracing : Host := { host with sink := some { kind := .trace } }
    let buffering : Host := { host with sink := some { kind := .buffer } }
    let output := (program.execute standard).stdout
    (∀ other ∈ [tracing, buffering],
        (program.execute other).events.filterMap Event.shown? =
            (program.execute standard).events.filterMap Event.shown? ∧
          (program.execute other).stderr = (program.execute standard).stderr ∧
          (program.execute other).status = (program.execute standard).status) ∧
      ((program.execute tracing).events.filterMap Event.wrote?).flatten = output ∧
      ((program.execute buffering).events.filterMap Event.buffer?).getLast?.getD [] = output ∧
      (∀ platform ∈ [standard, tracing, buffering], ∃ history P,
        (Process.start program platform).Reaches history P ∧ P.Final ∧
          history.flatMap Completed.printed = output) ∧
      ∀ history P, (Process.start program tracing).Reaches history P → ∀ step ∈ history,
        step.events.filter Event.isEffect = if step.prints then [.wrote step.printed, .flushed] else [] := by
  intro standard tracing buffering output
  have traced :=
    run_twins uninstalled (⟨rfl, rfl, rfl, rfl, rfl, rfl⟩ : Host.Twins .trace .standard tracing standard)
  have buffered :=
    run_twins uninstalled (⟨rfl, rfl, rfl, rfl, rfl, rfl⟩ : Host.Twins .buffer .standard buffering standard)
  have printed : output = (program.run {} standard).host.activeSink.written := by
    have whole := (program.run {} standard).host.stdout_eq
    rwa [if_pos traced.host.kindRight] at whole
  refine ⟨?_, ?_, ?_, ?_, ?_⟩
  · exact List.forall_mem_cons.mpr ⟨execute_of_twins traced,
      List.forall_mem_singleton.mpr (execute_of_twins buffered)⟩
  · rw [program.execute_traced_writes rfl rfl, traced.host.written, printed]
  · rw [program.execute_last_buffer rfl rfl, buffered.host.written, printed]
  · simp only [List.forall_mem_cons, List.not_mem_nil, false_imp_iff, implies_true, and_true, printed]
    refine ⟨program.run_printed rfl, ?_, ?_⟩
    · rw [← traced.host.written]
      exact program.run_printed rfl
    · rw [← buffered.host.written]
      exact program.run_printed rfl
  · intro history P reach step member
    obtain ⟨before, after, rfl⟩ := List.append_of_mem member
    obtain ⟨Q, Q', first, complete, _⟩ := reach.split rfl
    exact complete.effects (first.traces.mpr rfl)

/-- The inner thread prints a number and stops the process before its next line. -/
theorem execute_any_sink_inner_thread :
    let inner : Program := .call (.output (.intLine (-7))) (.call (.abort (.raise none))
      (.call (.output (.boolLine true)) .done))
    let program : Program := .call (.output (.value none)) (.thread inner .done)
    let tracing : Host := { sink := some { kind := .trace } }
    let buffering : Host := { sink := some { kind := .buffer } }
    (∀ bytes, .install bytes ∉ program.calls) ∧
      ((program.execute tracing).events.filterMap Event.wrote?).flatten = [0x6e, 0x69, 0x6c, 0x2d, 0x37, 0x0a] ∧
      ((program.execute buffering).events.filterMap Event.buffer?).getLast?.getD [] =
        [0x6e, 0x69, 0x6c, 0x2d, 0x37, 0x0a] ∧
      (program.execute buffering).status = 1 := by
  intro inner program tracing buffering
  have uninstalled : ∀ bytes, .install bytes ∉ program.calls := by
    intro bytes member
    simp [program, inner, calls] at member
  obtain ⟨same, traced, buffered, _, _⟩ := execute_any_sink program {} uninstalled
  have output : (program.execute {}).stdout = [0x6e, 0x69, 0x6c, 0x2d, 0x37, 0x0a] := by decide
  have status : (program.execute {}).status = 1 := rfl
  exact ⟨uninstalled, traced.trans output, buffered.trans output,
    (same buffering (by simp [buffering])).2.2.trans status⟩

end Program

end TaggedRuntime
