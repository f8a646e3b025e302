import Mathlib.Data.List.TakeWhile
import TaggedRuntime.Proofs.ErrorPath
import TaggedRuntime.Proofs.Escaping

namespace TaggedRuntime

theorem terminated_of_free {text : Bytes} (free : 0 ∉ text) : terminated (some text) = text :=
  List.takeWhile_eq_self_iff.mpr fun _ member => bne_iff_ne.mpr fun zero => free (zero ▸ member)

namespace Abort

/-- The ways to raise a message: as it is, as a template with its percent signs doubled and any arguments, or as
the one argument of a template that has room for nothing else. -/
inductive Raises (read : Operand → Value) (m : Bytes) : Abort → Prop
  | plain : Raises read m (.raise (some m))
  | escaped (args : Option (List Operand)) (count : Nat) :
      Raises read m (.raiseFilled (some (Template.escapeBytes m)) args count)
  | shown (a : Operand) (more : List Operand) : read a = .string m →
      Raises read m (.raiseFilled (some [0x25, 0x73]) (some (a :: more)) 1)

theorem Raises.stop_eq {read : Operand → Value} {m : Bytes} {abort : Abort} (raises : abort.Raises read m)
    (free : 0 ∉ m) : abort.stop read = .fault (.raised (Utf8.decode m)) := by
  cases raises with
  | plain => rw [stop, terminated_of_free free]
  | escaped args count =>
    have whole := terminated_of_free (mt Template.mem_escapeBytes.mp free)
    rw [stop, whole, Utf8.decode_escapeBytes, Template.fill_escape]
  | shown a more holds =>
    have whole : Utf8.decode (terminated (some [0x25, 0x73])) = "%s" := by decide
    have filled : Template.fill "%s" [.string m] = Utf8.decode m := Template.fill_display _
    rw [stop, whole, ← filled, ← holds]
    rfl

end Abort

namespace Host

theorem stop_stdout (host : Host) (reason : Stop) : (host.stop reason).2.stdout = host.stdout := by
  rw [stdout_of_sink (host.stop_sink reason), stdout_eq]

end Host

namespace Process

/-- A process but for what its threads have yet to run. -/
def state (P : Process) : (Thread × List Answer) × List (Thread × List Answer) × Host :=
  ((P.running.thread, P.running.log), P.waiting.map fun frame => (frame.thread, frame.log), P.host)

/-- The same state, with a call to come next. -/
def calling (P : Process) (c : Call) (rest : Program) : Process :=
  { P with running := { P.running with rest := .call c rest } }

theorem state_calling (P : Process) (c : Call) (rest : Program) : (P.calling c rest).state = P.state := rfl

theorem Enters.instead {P Q Q' : Process} (enter : P.Enters Q) (same : Q'.state = Q.state) :
    ∃ P' : Process, P'.state = P.state ∧ P'.Enters Q' := by
  cases enter with
  | @thread t log body rest waiting host =>
    rcases Q' with ⟨⟨t', body', log'⟩, waiting', host'⟩
    simp only [state, List.map_cons, List.map_eq_cons_iff, Prod.mk.injEq] at same
    obtain ⟨⟨rfl, rfl⟩, ⟨⟨u, rest', log⟩, waiting, rfl, ⟨rfl, rfl⟩, others⟩, rfl⟩ := same
    exact ⟨⟨⟨u, .thread body' rest', log⟩, waiting, host'⟩, by simp only [state, others], .thread⟩

theorem Completes.instead {P Q Q' : Process} {step : Completed} (complete : P.Completes step Q)
    (same : Q'.state = Q.state) : ∃ P' : Process, P'.state = P.state ∧ P'.Completes step Q' := by
  rcases Q' with ⟨⟨t', rest', log'⟩, waiting', host'⟩
  cases complete with
  | @call c t later log rest waiting host returns =>
    simp only [state, Prod.mk.injEq] at same
    obtain ⟨⟨rfl, rfl⟩, others, rfl⟩ := same
    exact ⟨⟨⟨t, .call c rest', log⟩, waiting', host⟩, by simp only [state, others], .call returns⟩
  | @joined inner innerLog t rest log waiting host =>
    simp only [state, Prod.mk.injEq] at same
    obtain ⟨⟨rfl, rfl⟩, others, rfl⟩ := same
    exact ⟨⟨⟨inner, .done, innerLog⟩, ⟨t', rest', log⟩ :: waiting', host'⟩,
      by simp only [state, List.map_cons, others], .joined⟩

/-- What comes after a history is open: with anything else to run in its last state, there is something to run
in its first that leads there by the same steps. -/
theorem Reaches.instead {P Q Q' : Process} {history : List Completed} (reach : P.Reaches history Q)
    (same : Q'.state = Q.state) : ∃ P' : Process, P'.state = P.state ∧ P'.Reaches history Q' := by
  -- from the end backwards: each step finds what has to be there for the steps after it
  induction reach with
  | here => exact ⟨Q', same, .here⟩
  | enters enter _ ih =>
    obtain ⟨R, between, reach⟩ := ih same
    obtain ⟨P', first, enter⟩ := enter.instead between
    exact ⟨P', first, .enters enter reach⟩
  | completes complete _ ih =>
    obtain ⟨R, between, reach⟩ := ih same
    obtain ⟨P', first, complete⟩ := complete.instead between
    exact ⟨P', first, .completes complete reach⟩

theorem eq_start_of_state {P : Process} {program : Program} {host : Host}
    (same : P.state = (start program host).state) : P = start P.running.rest host := by
  rcases P with ⟨⟨t, rest, log⟩, waiting, host'⟩
  simp only [state, start, List.map_nil, List.map_eq_nil_iff, Prod.mk.injEq] at same
  obtain ⟨⟨rfl, rfl⟩, rfl, rfl⟩ := same
  rfl

/-- In every state that a process comes to, a program can make any call. -/
theorem Reaches.calling {program : Program} {host : Host} {history : List Completed} {P : Process}
    (reach : (start program host).Reaches history P) (c : Call) (rest : Program) :
    ∃ other, (start other host).Reaches history (P.calling c rest) := by
  obtain ⟨first, same, reach⟩ := reach.instead (P.state_calling c rest)
  exact ⟨first.running.rest, eq_start_of_state same ▸ reach⟩

end Process

/-- A message is raised alike in whatever way. In every state, each way stops the process with the fault of
the text of the message, ill-formed or not, and programs that come to that state by the same steps and then raise
the message end with the same transcript, and leave the same behind. -/
theorem Program.execute_raised_alike {m : Bytes} (free : 0 ∉ m) {program : Program} {host : Host}
    {history : List Completed} {P : Process} (reach : (Process.start program host).Reaches history P) :
    let fault := Fault.raised (Utf8.decode m)
    let transcript : Transcript :=
      { events := history.flatMap Completed.events ++ if P.host.activeSink.kind = .trace then [.flushed] else []
        stdout := P.host.stdout
        stderr := P.host.stderr ++ (fault.report P.host.activeSettings.style ++ "\n")
        status := 1 }
    ∀ abort, abort.Raises P.running.thread.read m → ∀ rest,
      abort.stop P.running.thread.read = .fault fault ∧
      (∃ other, (Process.start other host).Reaches history (P.calling (.abort abort) rest)) ∧
      ∀ other, (Process.start other host).Reaches history (P.calling (.abort abort) rest) →
        other.execute host = transcript ∧ (other.run {} host).host = (P.host.stop (.fault fault)).2 := by
  intro fault transcript abort raises rest
  have stop : abort.stop P.running.thread.read = .fault fault := raises.stop_eq free
  refine ⟨stop, reach.calling _ _, fun other toCall => ?_⟩
  have stops : (P.calling (.abort abort) rest).Stops (.fault fault) := ⟨_, _, rfl, congrArg some stop⟩
  have run : other.run {} host = ⟨history.flatMap Completed.events ++ (P.host.stop (.fault fault)).1,
      (P.host.stop (.fault fault)).2, none⟩ := (run_of_stops toCall stops :)
  refine ⟨?_, by rw [run]⟩
  simp only [execute, run, Host.stop_events, Host.stop_stdout, Host.stop_stderr]
  rfl

/-- The message is a character without its last byte and two percent signs, and a register inside the thread
holds it. -/
theorem Program.execute_raised_alike_inner_thread :
    let m : Bytes := [0xe2, 0x82, 0x25, 0x25]
    let ending (last : Abort) : Transcript := execute (.thread
      (.call (.produce (.sizedString (some m) 4)) (.call (.abort last) .done)) (.call .null .done)) {}
    (ending (.raise (some m))).stderr = "Runtime error: \uFFFD%%\n" ∧
      ending (.raiseFilled (some [0xe2, 0x82, 0x25, 0x25, 0x25, 0x25]) none 3) = ending (.raise (some m)) ∧
      ending (.raiseFilled (some [0x25, 0x73]) (some [some 0]) 1) = ending (.raise (some m)) := by
  intro m ending
  have reach (last : Abort) : Process.Reaches
      (.start (.thread (.call (.produce (.sizedString (some m) 4)) (.call (.abort last) .done)) (.call .null .done)) {})
      [.call (.produce (.sizedString (some m) 4)) {} {}] _ :=
    .enters .thread (.completes (.call rfl) .here)
  have alike := execute_raised_alike (m := m) (by decide) (reach (.raise (some m)))
  have plain := ((alike _ .plain .done).2.2 _ (reach _)).1
  have escaped := ((alike _ (.escaped none 3) .done).2.2 _ (reach _)).1
  have shown := ((alike _ (.shown (some 0) [] rfl) .done).2.2 _ (reach _)).1
  refine ⟨(congrArg Transcript.stderr plain).trans ?_, escaped.trans plain.symm, shown.trans plain.symm⟩
  decide

end TaggedRuntime
