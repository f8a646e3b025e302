import TaggedRuntime.Call

namespace TaggedRuntime

/-- Calls in order, and among them threads, each waited for before the program goes on. -/
inductive Program
  | done
  | call (c : Call) (rest : Program)
  | thread (body rest : Program)
  deriving DecidableEq

namespace Program

/-- The run of a program in a thread. A thread inside it begins with an empty heap and leaves the one
around it as it was; when the process stops inside, nothing after that happens. -/
def run : Program → Thread → Host → Outcome
  | done, t, host => ⟨[], host, some t⟩
  | call c rest, t, host =>
    let first := c.run t host
    match first.thread with
    | none => first
    | some t =>
      let later := rest.run t first.host
      { later with events := first.events ++ later.events }
  | thread body rest, t, host =>
    let inner := body.run {} host
    match inner.thread with
    | none => inner
    | some _ =>
      let joined := Outcome.returned inner.events inner.host t .none
      let later := rest.run t joined.host
      { later with events := joined.events ++ later.events }

def stoppedStatus : Nat := 1

structure Transcript where
  events : List Event
  stdout : Bytes
  stderr : String
  status : Nat
  deriving DecidableEq

/-- A program run as the first thread of a process. -/
def execute (program : Program) (host : Host) : Transcript :=
  let outcome := program.run {} host
  { events := outcome.events
    stdout := outcome.host.stdout
    stderr := outcome.host.stderr
    status := if outcome.thread.isSome then 0 else stoppedStatus }

end Program

end TaggedRuntime
