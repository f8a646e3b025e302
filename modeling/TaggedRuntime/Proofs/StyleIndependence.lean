import TaggedRuntime.Proofs.StyleFixed
import TaggedRuntime.Proofs.TwoRuns

namespace TaggedRuntime

/-- The calls that set the style or tell it. -/
def Call.namesStyle : Call → Bool
  | .settings | .environmentSettings | .setEnvironment _ => true
  | .null | .produce _ | .query _ | .output _ | .abort _ | .report _ | .install _ => false

namespace Host

/-- Hosts that go by two settings and are otherwise the same, but for what has been complained in two styles. -/
structure SameButStyle (given given' : Settings) (left right : Host) : Prop where
  settingsLeft : left.activeSettings = given
  settingsRight : right.activeSettings = given'
  sink : left.sink = right.sink
  stderr : given = given' → left.stderr = right.stderr

namespace SameButStyle

variable {given given' : Settings} {left right : Host}

theorem activeSink (same : SameButStyle given given' left right) : left.activeSink = right.activeSink := by
  rw [Host.activeSink, Host.activeSink, same.sink]

theorem stdout (same : SameButStyle given given' left right) : left.stdout = right.stdout := by
  rw [Host.stdout_eq, Host.stdout_eq, same.activeSink]

theorem buffer (same : SameButStyle given given' left right) : left.buffer? = right.buffer? := by
  rw [Host.buffer?_eq, Host.buffer?_eq, same.activeSink]

theorem withSink (same : SameButStyle given given' left right) (sink : Option Sink) :
    SameButStyle given given' { left with sink } { right with sink } :=
  ⟨same.settingsLeft, same.settingsRight, rfl, same.stderr⟩

theorem traced (same : SameButStyle given given' left right) (events : List Event) :
    left.traced events = right.traced events := by
  rw [Host.traced, Host.traced, same.activeSink]

theorem emit (same : SameButStyle given given' left right) (bytes : Bytes) :
    SameButStyle given given' (left.emit bytes).2 (right.emit bytes).2 := by
  rw [Host.emit, Host.emit, same.activeSink]
  exact same.withSink _

theorem flush (same : SameButStyle given given' left right) :
    SameButStyle given given' left.flush.2 right.flush.2 := by
  rw [Host.flush, Host.flush, same.activeSink]
  exact same.withSink _

theorem complain (same : SameButStyle given given' left right) {text text' : String}
    (texts : given = given' → text = text') :
    SameButStyle given given' (left.complain text) (right.complain text') := by
  refine ⟨same.settingsLeft, same.settingsRight, same.sink, fun settings => ?_⟩
  rw [Host.complain, Host.complain, same.stderr settings, texts settings]

/-- Reports in two styles differ, and each host keeps the settings it goes by. -/
theorem report (same : SameButStyle given given' left right) (f : Fault) :
    SameButStyle given given' (left.report f) (right.report f) := by
  have fixed : SameButStyle given given' left.fixSettings right.fixSettings :=
    ⟨same.settingsLeft, same.settingsRight, same.sink, same.stderr⟩
  rw [Host.report, Host.report, same.settingsLeft, same.settingsRight]
  exact fixed.complain fun settings => by rw [settings]

theorem stop (same : SameButStyle given given' left right) (reason : Stop) :
    SameButStyle given given' (left.stop reason).2 (right.stop reason).2 := by
  cases reason with
  | fault f => exact same.flush.report f
  | panic message => exact same.flush.complain fun _ => rfl

theorem install (same : SameButStyle given given' left right) (sink : Sink) (bytes : Bytes) :
    (left.install sink bytes).1 = (right.install sink bytes).1 ∧
      SameButStyle given given' (left.install sink bytes).2 (right.install sink bytes).2 := by
  simp only [Host.install, same.sink]
  cases used : right.sink with
  | none => exact ⟨rfl, same.withSink _⟩
  | some active => exact ⟨rfl, same⟩

end SameButStyle

end Host

variable {given given' : Settings} {left right : Host}

namespace Outcome

theorem returned_agree (same : Host.SameButStyle given given' left right) (effects : List Event) (t : Thread)
    (answer : Answer) :
    Agree (Host.SameButStyle given given') some (.returned effects left t answer) (.returned effects right t answer) := by
  simp only [returned, same.buffer]
  exact ⟨rfl, same, rfl⟩

theorem stopped_sameButStyle (same : Host.SameButStyle given given' left right) (reason : Stop) :
    Agree (Host.SameButStyle given given') some (.stopped left reason) (.stopped right reason) := by
  refine ⟨?_, same.stop reason, rfl⟩
  simp only [stopped, Host.stop_events, same.activeSink]

end Outcome

/-- A call that does not name the style shows it nowhere but on the standard error. -/
theorem Call.run_sameButStyle {c : Call} (silent : c.namesStyle = false) (t : Thread)
    (same : Host.SameButStyle given given' left right) :
    Outcome.Agree (Host.SameButStyle given given') some (c.run t left) (c.run t right) := by
  cases c with
  | null | query => exact Outcome.returned_agree same ..
  | produce p =>
    simp only [run]
    cases p.eval t.read with
    | ok v => exact Outcome.returned_agree same ..
    | error f => exact Outcome.stopped_sameButStyle same _
  | output o =>
    have effects : (left.emit (o.bytes t.read)).1 = (right.emit (o.bytes t.read)).1 := same.traced _
    simp only [run, effects]
    exact Outcome.returned_agree (same.emit _) ..
  | abort a => exact Outcome.stopped_sameButStyle same _
  | report f => exact Outcome.returned_agree (same.report f) ..
  | install bytes =>
    obtain ⟨answer, after⟩ := same.install { kind := .buffer } bytes
    simp only [run, answer]
    exact Outcome.returned_agree after ..
  | settings | environmentSettings | setEnvironment => cases silent

/-- The style variable decides nothing but what is on the standard error. A program that neither sets the style
nor asks for it has the same events, the same standard output and the same status whatever the variable holds, text
or not, and for values that give the same style the same standard error too. -/
theorem Program.execute_any_style (program : Program) (host : Host)
    (silent : ∀ c ∈ program.calls, c.namesStyle = false) (left right : Option Bytes) :
    let one := program.execute { host with environment := left }
    let other := program.execute { host with environment := right }
    one.events = other.events ∧ one.stdout = other.stdout ∧ one.status = other.status ∧
      ((Settings.ofEnvironment left).style = (Settings.ofEnvironment right).style → one.stderr = other.stderr) := by
  intro one other
  have start : Host.SameButStyle (host.settings.getD (.ofEnvironment left)) (host.settings.getD (.ofEnvironment right))
      { host with environment := left } { host with environment := right } := ⟨rfl, rfl, rfl, fun _ => rfl⟩
  have agree := program.run_agree (fun c member t _ _ same => Call.run_sameButStyle (silent c member) t same)
    (fun t _ _ same => Outcome.returned_agree same [] t .none) {} start
  have events := agree.events
  rw [List.filterMap_some, List.filterMap_some] at events
  refine ⟨events, agree.host.stdout, ?_, fun style => agree.host.stderr ?_⟩
  · simp only [one, other, execute, agree.thread]
  · have settings : Settings.ofEnvironment left = Settings.ofEnvironment right := congrArg Settings.mk style
    rw [settings]

/-- A report inside a thread, a line and a failure after it, in a process that traces its output. The variable asks
for full reports, or holds no text, or is not set. -/
theorem Program.execute_any_style_inner_thread :
    let inner : Program := .call (.report .zeroDivisor) (.call (.output (.intLine 7)) .done)
    let program : Program := .thread inner (.call (.produce (.operation (.len none))) .done)
    let given (environment : Option Bytes) : Host := { sink := some { kind := .trace }, environment }
    let fancy : Option Bytes := some [0x66, 0x61, 0x6e, 0x63, 0x79]
    (program.execute (given fancy)).events = (program.execute (given none)).events ∧
      (program.execute (given fancy)).stderr ≠ (program.execute (given none)).stderr ∧
      (program.execute (given (some [0xff]))).stderr = (program.execute (given none)).stderr := by
  intro inner program given fancy
  have silent : ∀ c ∈ program.calls, c.namesStyle = false := by decide
  refine ⟨(execute_any_style program (given none) silent fancy none).1, by decide, ?_⟩
  exact (execute_any_style program (given none) silent (some [0xff]) none).2.2.2 (by decide)

end TaggedRuntime
