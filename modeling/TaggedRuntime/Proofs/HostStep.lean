import TaggedRuntime.Proofs.Process

namespace TaggedRuntime

/-- What the threads share after a call that returns. -/
def Call.hostAfter (read : Operand → Value) (host : Host) : Call → Host
  | .output o => (host.emit (o.bytes read)).2
  | .report f => host.report f
  | .settings => host.fixSettings
  | .setEnvironment value => { host with environment := value }
  | .install bytes => (host.install { kind := .buffer } bytes).2
  | .null | .produce _ | .query _ | .abort _ | .environmentSettings => host

theorem Call.run_host {c : Call} {t later : Thread} {host : Host}
    (returns : (c.run t host).thread = some later) : (c.run t host).host = c.hostAfter t.read host := by
  cases c with
  | produce p =>
    cases result : p.eval t.read with
    | ok v => simp only [run, result]; rfl
    | error f =>
      simp only [run, result] at returns
      cases returns
  | abort a => cases returns
  | _ => rfl

theorem Host.stdout_eq (host : Host) :
    host.stdout = if host.activeSink.kind = .standard then host.activeSink.written else [] := by
  rcases host with ⟨_ | ⟨kind, written⟩, settings, environment, stderr⟩
  · rfl
  · cases kind <;> rfl

theorem Host.buffer?_eq (host : Host) :
    host.buffer? = if host.activeSink.kind = .buffer then some host.activeSink.written else none := by
  rcases host with ⟨_ | ⟨kind, written⟩, settings, environment, stderr⟩
  · rfl
  · cases kind <;> rfl

theorem Host.install_cases (host : Host) (sink : Sink) (bytes : Bytes) :
    host.sink = none ∧ (host.install sink bytes).2 = { host with sink := some sink } ∨
      (host.install sink bytes).2 = host := by
  unfold install
  cases active : host.sink with
  | none => exact .inl ⟨rfl, rfl⟩
  | some other => exact .inr rfl

/-- An install touches nothing but the sink, and that only if there is none. -/
theorem Host.install_host (host : Host) (sink : Sink) (bytes : Bytes) :
    (host.install sink bytes).2 = { host with sink := some (host.sink.getD sink) } := by
  rcases host with ⟨_ | active, settings, environment, stderr⟩ <;> rfl

namespace Completed

/-- The bytes that a step sends to the sink. -/
def printed : Completed → Bytes
  | call (.output o) t _ => o.bytes t.read
  | _ => []

/-- What a step writes on the standard error: a report and a line feed. -/
def complaint : Completed → String
  | call (.report f) _ host => f.report host.activeSettings.style ++ "\n"
  | _ => ""

end Completed

namespace Process

theorem Completes.written {P Q : Process} {step : Completed} (complete : P.Completes step Q) :
    Q.host.activeSink.written = P.host.activeSink.written ++ step.printed := by
  cases complete with
  | joined => exact (List.append_nil _).symm
  | @call c t t' log rest waiting host returns =>
    rw [Call.run_host returns]
    cases c with
    | output o => rfl
    | install bytes =>
      change (host.install { kind := .buffer } bytes).2.activeSink.written = host.activeSink.written ++ []
      rcases host.install_cases { kind := .buffer } bytes with ⟨free, installed⟩ | same
      · simp only [installed, Host.activeSink, free, Option.getD_some, Option.getD_none, List.append_nil]
      · rw [same, List.append_nil]
    | _ => exact (List.append_nil _).symm

theorem Completes.stderr {P Q : Process} {step : Completed} (complete : P.Completes step Q) :
    Q.host.stderr = P.host.stderr ++ step.complaint := by
  cases complete with
  | joined => exact String.append_empty.symm
  | @call c t t' log rest waiting host returns =>
    rw [Call.run_host returns]
    cases c with
    | report f => exact String.append_assoc
    | install bytes =>
      have kept : (host.install { kind := .buffer } bytes).2.stderr = host.stderr :=
        (congrArg Host.stderr (host.install_host { kind := .buffer } bytes) :)
      exact kept.trans String.append_empty.symm
    | _ => exact String.append_empty.symm

/-- Output is traced from the beginning or never: what a program can install is a buffer. -/
theorem Completes.traces {P Q : Process} {step : Completed} (complete : P.Completes step Q) :
    Q.host.activeSink.kind = .trace ↔ P.host.activeSink.kind = .trace := by
  cases complete with
  | joined => rfl
  | @call c t t' log rest waiting host returns =>
    rw [Call.run_host returns]
    cases c with
    | install bytes =>
      change (host.install { kind := .buffer } bytes).2.activeSink.kind = .trace ↔ _
      rcases host.install_cases { kind := .buffer } bytes with ⟨free, installed⟩ | same
      · simp [installed, Host.activeSink, free]
      · rw [same]
    | _ => rfl

theorem Enters.host {P Q : Process} (enter : P.Enters Q) : Q.host = P.host := by
  cases enter
  rfl

theorem Reaches.written {P Q : Process} {history : List Completed} (reach : P.Reaches history Q) :
    Q.host.activeSink.written = P.host.activeSink.written ++ history.flatMap Completed.printed := by
  induction reach with
  | here => exact (List.append_nil _).symm
  | enters enter _ ih => rw [ih, enter.host]
  | completes complete _ ih => rw [ih, complete.written, List.flatMap_cons, List.append_assoc]

theorem Reaches.stderr {P Q : Process} {history : List Completed} (reach : P.Reaches history Q) :
    Q.host.stderr = P.host.stderr ++ String.join (history.map Completed.complaint) := by
  induction reach with
  | here => exact String.append_empty.symm
  | enters enter _ ih => rw [ih, enter.host]
  | completes complete _ ih => rw [ih, complete.stderr, List.map_cons, String.join_cons, String.append_assoc]

theorem Reaches.traces {P Q : Process} {history : List Completed} (reach : P.Reaches history Q) :
    Q.host.activeSink.kind = .trace ↔ P.host.activeSink.kind = .trace := by
  induction reach with
  | here => rfl
  | enters enter _ ih => rw [ih, enter.host]
  | completes complete _ ih => rw [ih, complete.traces]

end Process

end TaggedRuntime
