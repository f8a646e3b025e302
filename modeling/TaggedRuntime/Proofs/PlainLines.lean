import TaggedRuntime.Proofs.LineFeeds
import TaggedRuntime.Proofs.OperatorFaults
import TaggedRuntime.Proofs.StyleFixed

namespace TaggedRuntime

namespace Text

/-- The line feeds of a text, and so the lines that it completes. -/
def lineFeeds (s : String) : Nat := s.toList.count '\n'

theorem lineFeeds_append (s t : String) : lineFeeds (s ++ t) = lineFeeds s + lineFeeds t := by
  rw [lineFeeds, String.toList_append, List.count_append]
  rfl

theorem lineFeeds_join (texts : List String) : lineFeeds (String.join texts) = (texts.map lineFeeds).sum := by
  rw [lineFeeds, String.toList_join, List.count_flatMap]
  rfl

theorem lineFeeds_eq_zero_iff {s : String} : lineFeeds s = 0 ↔ '\n' ∉ s.toList := List.count_eq_zero

end Text

open Text (lineFeeds_append lineFeeds_join)

theorem BinaryOp.lineFeeds_verb (op : BinaryOp) : Text.lineFeeds op.verb = 0 := by
  cases op <;> decide

theorem Kind.lineFeeds_label (kind : Kind) : Text.lineFeeds kind.label = 0 := by
  cases kind <;> decide

theorem Value.len_error {v : Value} {f : Fault} (fails : v.len = .error f) : f = .lengthOf v.kind.label := by
  cases v with
  | string bytes => cases fails
  | nil | bool b | number x | function routine =>
    cases fails
    rfl

/-- What an operation fails with is told by the names of operations and types alone. -/
theorem Operation.lineFeeds_message {read : Operand → Value} {op : Operation} {f : Fault}
    (fails : op.named read = .error f) : Text.lineFeeds f.message = 0 := by
  rw [named_eq_eval] at fails
  cases op with
  | binary op a b =>
    rcases BinaryOp.eval_error_iff.mp fails with ⟨_, rfl⟩ | ⟨_, rfl⟩
    · change Text.lineFeeds ("Cannot " ++ op.verb ++ " " ++ (read a).kind.label ++ " and " ++ (read b).kind.label) = 0
      simp only [lineFeeds_append, op.lineFeeds_verb, Kind.lineFeeds_label]
      decide
    · decide
  | unary op a =>
    cases op with
    | not => cases fails
    | negate =>
      obtain ⟨_, rfl⟩ := UnaryOp.negate_error_iff.mp fails
      change Text.lineFeeds ("Cannot " ++ "negate" ++ " " ++ (read a).kind.label) = 0
      simp only [lineFeeds_append, Kind.lineFeeds_label]
      decide
  | len a =>
    obtain rfl := Value.len_error fails
    change Text.lineFeeds ("len() requires string, got " ++ (read a).kind.label) = 0
    rw [lineFeeds_append, Kind.lineFeeds_label]
    decide
  | typeOf a => cases fails

/-- The line feeds in what is given for a message: in the message or the template itself, and in the strings among the
arguments that the template takes. -/
def Abort.lineFeeds (read : Operand → Value) : Abort → Nat
  | raise message | panic message => (terminated message).count lineFeed
  | raiseFilled template args count =>
    let text := terminated template
    let taken := (((args.getD []).take count).map read).take (Template.arity (Utf8.decode text))
    text.count lineFeed + (taken.map Value.lineFeeds).sum

/-- Only a call made to stop the process is given texts for its message. -/
def Call.lineFeeds (read : Operand → Value) : Call → Nat
  | abort a => a.lineFeeds read
  | _ => 0

def Stop.message : Stop → String
  | fault f => f.message
  | panic message => message

theorem Abort.lineFeeds_message (a : Abort) (read : Operand → Value) :
    Text.lineFeeds (a.stop read).message = a.lineFeeds read := by
  cases a with
  | raise message | panic message => exact Utf8.count_decode _
  | raiseFilled template args count =>
    have filled := Template.count_fill (Utf8.decode (terminated template)) (((args.getD []).take count).map read)
    rw [Utf8.count_decode] at filled
    exact filled

theorem Call.lineFeeds_message {c : Call} {read : Operand → Value} {reason : Stop}
    (stops : c.stop? read = some reason) : Text.lineFeeds reason.message = c.lineFeeds read := by
  cases c with
  | abort a =>
    obtain rfl := Option.some.inj stops
    exact a.lineFeeds_message read
  | produce p =>
    cases p with
    | operation op =>
      cases result : op.named read with
      | ok v => simp [stop?, result] at stops
      | error f =>
        simp only [stop?, result, Option.some.injEq] at stops
        subst stops
        exact op.lineFeeds_message result
    | constant v => cases stops
    | terminatedString text => cases stops
    | sizedString data size => cases stops
  | _ => cases stops

theorem Fault.lineFeeds_plain (f : Fault) : Text.lineFeeds (f.report .plain) = Text.lineFeeds f.message := by
  change Text.lineFeeds ("Runtime error: " ++ f.message) = Text.lineFeeds f.message
  rw [lineFeeds_append]
  exact Nat.zero_add _

theorem Stop.lineFeeds_complaint (reason : Stop) :
    Text.lineFeeds (reason.complaint .plain) = 1 + Text.lineFeeds reason.message := by
  cases reason with
  | fault f =>
    rw [complaint, lineFeeds_append, f.lineFeeds_plain, Nat.add_comm]
    rfl
  | panic message =>
    rw [complaint, lineFeeds_append, lineFeeds_append, Nat.add_comm]
    exact congrArg (1 + ·) (Nat.zero_add _)

/-- The lines that a step completes on the standard error: a report ends one, and so does each line feed in it. -/
def Completed.lines : Completed → Nat
  | call (.report f) _ _ => 1 + Text.lineFeeds f.message
  | _ => 0

theorem Completed.lineFeeds_complaintIn (step : Completed) : Text.lineFeeds (step.complaintIn .plain) = step.lines := by
  cases step with
  | joined => rfl
  | call c t host =>
    cases c with
    | report f =>
      rw [complaintIn, lineFeeds_append, f.lineFeeds_plain, Nat.add_comm]
      rfl
    | _ => rfl

/-- In the plain style the reports of a history are its lines on the standard error. -/
theorem Process.Reaches.lineFeeds_stderr {P Q : Process} {history : List Completed} (reach : P.Reaches history Q)
    (plain : Q.host.activeSettings.style = .plain) :
    Text.lineFeeds Q.host.stderr = Text.lineFeeds P.host.stderr + (history.map Completed.lines).sum := by
  rw [reach.activeSettings] at plain
  rw [reach.stderr, lineFeeds_append, lineFeeds_join, reach.complaint, plain, List.map_map]
  simp only [Function.comp_def, Completed.lineFeeds_complaintIn]

namespace Program

/-- A plain report is an opening and the message of the fault, on a single line exactly if the message has no line
feed. An operation never fails with one. A message that is raised has those of the bytes that it is raised with: of the
message or the template, and of the strings that the template takes as arguments. On the standard error of a process in
the plain style each report ends one line and one more for each line feed in its message, and so does the end of a
process that is stopped. -/
theorem execute_plain_lines (program : Program) (host : Host) {history : List Completed} {P : Process}
    (reach : (Process.start program host).Reaches history P) (plain : P.host.activeSettings.style = .plain) :
    (∀ f : Fault, f.report .plain = "Runtime error: " ++ f.message ∧
        ('\n' ∉ (f.report .plain).toList ↔ '\n' ∉ f.message.toList)) ∧
      (∀ (op : Operation) (read : Operand → Value) (f : Fault), op.named read = .error f →
        '\n' ∉ (f.report .plain).toList) ∧
      (∀ (c : Call) (read : Operand → Value) (f : Fault), c.stop? read = some (.fault f) →
        Text.lineFeeds (f.report .plain) = c.lineFeeds read ∧
          ('\n' ∉ (f.report .plain).toList ↔ c.lineFeeds read = 0)) ∧
      Text.lineFeeds P.host.stderr = Text.lineFeeds host.stderr + (history.map Completed.lines).sum ∧
      (P.Ended → (program.execute host).stderr = P.host.stderr) ∧
      ∀ c rest reason, P.running.rest = .call c rest → c.stop? P.running.thread.read = some reason →
        Text.lineFeeds (program.execute host).stderr =
          Text.lineFeeds P.host.stderr + (1 + c.lineFeeds P.running.thread.read) := by
  have raised (c : Call) (read : Operand → Value) (f : Fault) (stops : c.stop? read = some (.fault f)) :
      Text.lineFeeds (f.report .plain) = c.lineFeeds read :=
    f.lineFeeds_plain.trans (Call.lineFeeds_message stops)
  refine ⟨fun f => ⟨rfl, ?_⟩, fun op read f fails => ?_, fun c read f stops => ⟨raised c read f stops, ?_⟩,
    reach.lineFeeds_stderr plain, ?_, ?_⟩
  · rw [← Text.lineFeeds_eq_zero_iff, ← Text.lineFeeds_eq_zero_iff, f.lineFeeds_plain]
  · rw [← Text.lineFeeds_eq_zero_iff, f.lineFeeds_plain, op.lineFeeds_message fails]
  · rw [← Text.lineFeeds_eq_zero_iff, raised c read f stops]
  · intro ended
    simp only [execute, run_of_ended reach ended]
  · intro c rest reason next stops
    have whole : (program.execute host).stderr = P.host.stderr ++ reason.complaint .plain := by
      simp only [execute, run_of_stops reach ⟨c, rest, next, stops⟩, Host.stop_stderr, plain]
    rw [whole, lineFeeds_append, reason.lineFeeds_complaint, Call.lineFeeds_message stops]

/-- In a thread a string with a line feed is put into a template with another one. -/
theorem execute_plain_lines_inner_thread :
    let last : Call := .abort (.raiseFilled (some [0x25, 0x73, 0x0a]) (some [some 0]) 1)
    let inner : Program := .call (.produce (.sizedString (some [0x78, 0x0a, 0x79]) 3)) (.call last .done)
    let program : Program := .call (.report .zeroDivisor) (.thread inner .done)
    (Operation.len none).named (fun _ => .nil) = .error (.lengthOf "nil") ∧
      '\n' ∉ (Fault.report .plain (.lengthOf "nil")).toList ∧
      last.stop? (fun _ => .string [0x0a]) = some (.fault (.raised "\n\n")) ∧
      Text.lineFeeds (Fault.report .plain (.raised "\n\n")) = 2 ∧
      Text.lineFeeds (program.execute {}).stderr = 4 := by
  intro last inner program
  have reach : (Process.start program {}).Reaches [.call (.report .zeroDivisor) {} {},
      .call (.produce (.sizedString (some [0x78, 0x0a, 0x79]) 3)) {} (Host.report {} .zeroDivisor)] _ :=
    .completes (.call rfl) (.enters .thread (.completes (.call rfl) .here))
  obtain ⟨_, operations, raised, reported, _, stopped⟩ := execute_plain_lines program {} reach rfl
  have stops : last.stop? (fun _ => .string [0x0a]) = some (.fault (.raised "\n\n")) := by decide +kernel
  refine ⟨rfl, operations (.len none) (fun _ => .nil) _ rfl, stops, (raised last _ _ stops).1.trans ?_, ?_⟩
  · decide +kernel
  · rw [stopped last .done _ rfl rfl, reported]
    decide +kernel

/-- A message that is raised can hold a line feed, and then its plain report has two lines. -/
theorem not_plain_single_line :
    (execute (.call (.abort (.raise (some [0x61, 0x0a, 0x62]))) .done) {}).stderr = "Runtime error: a\nb\n" ∧
      ¬∀ (c : Call) (read : Operand → Value) (f : Fault), c.stop? read = some (.fault f) →
        '\n' ∉ (f.report .plain).toList := by
  refine ⟨by decide +kernel, fun single => ?_⟩
  have two := single (.abort (.raise (some [0x61, 0x0a, 0x62]))) (fun _ => .nil) (.raised "a\nb") (by decide +kernel)
  exact absurd two (by decide +kernel)

end Program

end TaggedRuntime
