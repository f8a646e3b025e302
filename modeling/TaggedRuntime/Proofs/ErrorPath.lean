import TaggedRuntime.Proofs.HostStep
import TaggedRuntime.Proofs.ProcessRun

namespace TaggedRuntime

/-- What a process that is stopped writes last: the fault as a report, or the message of the panic. -/
def Stop.complaint (style : Style) : Stop → String
  | fault f => f.report style ++ "\n"
  | panic message => "panic: " ++ message ++ "\n"

namespace Host

theorem stop_events (host : Host) (reason : Stop) :
    (host.stop reason).1 = if host.activeSink.kind = .trace then [.flushed] else [] := by
  have flushed : (host.stop reason).1 = host.traced [.flushed] := by cases reason <;> rfl
  rw [flushed, traced]
  cases host.activeSink.kind <;> rfl

theorem stop_sink (host : Host) (reason : Stop) : (host.stop reason).2.sink = some host.activeSink := by
  cases reason <;> rfl

theorem stop_stderr (host : Host) (reason : Stop) :
    (host.stop reason).2.stderr = host.stderr ++ reason.complaint host.activeSettings.style := by
  cases reason with
  | fault f => exact String.append_assoc
  | panic message => exact String.append_assoc

theorem stdout_of_sink {host : Host} {sink : Sink} (active : host.sink = some sink) :
    host.stdout = if sink.kind = .standard then sink.written else [] := by
  rw [stdout_eq, activeSink, active, Option.getD_some]

end Host

end TaggedRuntime
