import TaggedRuntime.Diagnostic
import TaggedRuntime.Thread

namespace TaggedRuntime

namespace Sink

/-- Where output shows: on the standard output, as single events, or as a buffer. -/
inductive Kind
  | standard
  | trace
  | buffer
  deriving DecidableEq, Repr

end Sink

/-- A destination of program output, with all that was written to it. -/
structure Sink where
  kind : Sink.Kind
  written : Bytes := []
  deriving DecidableEq

def lineFeed : UInt8 := 0x0a

namespace Sink

def write (sink : Sink) (bytes : Bytes) : Sink := { sink with written := sink.written ++ bytes }

def print (sink : Sink) (v : Value) : Sink := sink.write v.written

def printLine (sink : Sink) (v : Value) : Sink := sink.write (v.written ++ [lineFeed])

end Sink

inductive Answer
  | none
  | handle (register : Nat) (handle : Handle) (value : Value) (firstSame : Option Nat)
  | truth (b : Bool)
  | label (text : String)
  | style (style : Style)
  | installed
  | refused (held : Bytes)
  deriving DecidableEq

/-- What can be seen of a run: the effects on a tracing sink, and each call that has returned, with
the number of values alive in its thread and the buffer, if output goes to one. -/
inductive Event
  | wrote (bytes : Bytes)
  | flushed
  | returned (answer : Answer) (live : Nat) (buffer : Option Bytes)
  deriving DecidableEq

/-- Why a process stops before its program ends. -/
inductive Stop
  | fault (f : Fault)
  | panic (message : String)
  deriving DecidableEq

/-- What the threads of a process share. The sink and the settings are fixed at their first use. -/
structure Host where
  sink : Option Sink := none
  settings : Option Settings := none
  environment : Option Bytes := none
  stderr : String := ""
  deriving DecidableEq

namespace Host

/-- The sink in use: the standard output if none was installed. -/
def activeSink (host : Host) : Sink := host.sink.getD { kind := .standard }

def stdout (host : Host) : Bytes :=
  match host.sink with
  | some { kind := .standard, written } => written
  | _ => []

def buffer? (host : Host) : Option Bytes :=
  match host.sink with
  | some { kind := .buffer, written } => some written
  | _ => none

/-- Events that only a tracing sink shows. -/
def traced (host : Host) (events : List Event) : List Event :=
  match host.activeSink.kind with
  | .trace => events
  | _ => []

def emit (host : Host) (bytes : Bytes) : List Event × Host :=
  (host.traced [.wrote bytes, .flushed], { host with sink := some (host.activeSink.write bytes) })

/-- A flush writes nothing, but the sink is in use from then on. -/
def flush (host : Host) : List Event × Host :=
  (host.traced [.flushed], { host with sink := some host.activeSink })

/-- A sink can be installed only while none is in use. A refused one is handed back and still takes
what is written to it. -/
def install (host : Host) (sink : Sink) (bytes : Bytes) : Answer × Host :=
  match host.sink with
  | none => (.installed, { host with sink := some sink })
  | some _ => (.refused (sink.write bytes).written, host)

/-- The settings of the environment as it is now. -/
def environmentSettings (host : Host) : Settings := .ofEnvironment host.environment

/-- The settings of the process, read from the environment at first. -/
def activeSettings (host : Host) : Settings := host.settings.getD host.environmentSettings

/-- From here on changes of the environment do not count. -/
def fixSettings (host : Host) : Host := { host with settings := some host.activeSettings }

def complain (host : Host) (text : String) : Host := { host with stderr := host.stderr ++ text ++ "\n" }

def report (host : Host) (f : Fault) : Host := host.fixSettings.complain (f.report host.activeSettings.style)

/-- The end of a process: output first, then the reason. A panic needs no settings. -/
def stop (host : Host) : Stop → List Event × Host
  | .fault f => (host.flush.1, host.flush.2.report f)
  | .panic message => (host.flush.1, host.flush.2.complain ("panic: " ++ message))

end Host

end TaggedRuntime
