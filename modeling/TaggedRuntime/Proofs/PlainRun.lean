import TaggedRuntime.Calculation
import TaggedRuntime.Proofs.HandleMemory
import TaggedRuntime.Proofs.ProcessRun

namespace TaggedRuntime

namespace Plain

/-- What a step answers where there are values but no handles. -/
inductive Reply
  | none
  | value (register : Nat) (v : Value)
  | truth (b : Bool)
  | label (text : String)

/-- An answer without its handle. What is not about values is left out. -/
def Reply.ofAnswer : Answer → Reply
  | .handle register _ v _ => .value register v
  | .truth b => .truth b
  | .label text => .label text
  | .none | .style _ | .installed | .refused _ => .none

/-- A value made from plain values, an operator by `BinaryOp.eval` or `UnaryOp.eval`. -/
def make (values : List Value) : Production → Except Fault Value
  | .operation op => op.eval (Calculation.read values)
  | .constant v => .ok v
  | .terminatedString text => .ok (.string (terminated text))
  | .sizedString data size => .ok (.string ((data.getD []).take size))

def reply (values : List Value) : Query → Reply
  | .isKind kind a => .truth ((Calculation.read values a).kind == kind)
  | .isTruthy a => .truth (Calculation.read values a).truthy
  | .typeName a => .label (Calculation.read values a).kind.label
  | .tagName tag => .label (Kind.labelOfTag tag)

/-- A call on the plain values of a thread, where an absent operand is nil: its reply and the values
after it, or the reason to stop. -/
def call (values : List Value) : Call → Except Stop (Reply × List Value)
  | .null => .ok (.value values.length .nil, values ++ [.nil])
  | .produce p =>
    match make values p with
    | .ok v => .ok (.value values.length v, values ++ [v])
    | .error f => .error (.fault f)
  | .query q => .ok (reply values q, values)
  | .abort a => .error (a.stop (Calculation.read values))
  | .output _ | .report _ | .settings | .environmentSettings | .setEnvironment _ | .install _ =>
    .ok (.none, values)

/-- A program on plain values, each thread beginning with none: the replies of the steps up to the first
that fails, and the reason of that one or the values at the end. -/
def run : Program → List Value → List Reply × Except Stop (List Value)
  | .done, values => ([], .ok values)
  | .call c rest, values =>
    match call values c with
    | .error reason => ([], .error reason)
    | .ok (reply, after) => (reply :: (run rest after).1, (run rest after).2)
  | .thread body rest, values =>
    match (run body []).2 with
    | .error reason => ((run body []).1, .error reason)
    | .ok _ => ((run body []).1 ++ .none :: (run rest values).1, (run rest values).2)

end Plain

namespace Thread

/-- The handles of the thread read as these values, register by register. -/
structure Shows (t : Thread) (values : List Value) : Prop where
  sound : t.Sound
  reads : t.registers.map t.deref = values

theorem shows_fresh : Shows {} [] := ⟨sound_fresh, rfl⟩

theorem Shows.read {t : Thread} {values : List Value} (shows : t.Shows values) :
    t.read = Calculation.read values := by
  funext a
  cases a with
  | none => rfl
  | some register =>
    rw [← shows.reads]
    simp only [Thread.read, handle, Calculation.read, List.getD_eq_getElem?_getD, List.getElem?_map]
    cases t.registers[register]? <;> rfl

theorem Shows.length {t : Thread} {values : List Value} (shows : t.Shows values) :
    t.registers.length = values.length := by
  rw [← shows.reads, List.length_map]

theorem Shows.keep_none {t : Thread} {values : List Value} (shows : t.Shows values) :
    (t.keep none).Shows (values ++ [.nil]) := by
  refine ⟨shows.sound.keep_none, ?_⟩
  rw [← shows.reads]
  exact List.map_append ..

theorem Shows.publish {t : Thread} {values : List Value} (shows : t.Shows values) (v : Value) :
    (t.publish v).Shows (values ++ [v]) := by
  refine ⟨shows.sound.publish v, ?_⟩
  have old : t.registers.map (t.publish v).deref = t.registers.map t.deref :=
    List.map_congr_left fun _ given => shows.sound.deref (t.publish_grows v) given
  have new : (t.publish v).deref (some (t.heap.alloc v).1) = v := t.heap.read_alloc v
  calc
    (t.publish v).registers.map (t.publish v).deref
      = t.registers.map (t.publish v).deref ++ [(t.publish v).deref (some (t.heap.alloc v).1)] :=
        List.map_append ..
    _ = values ++ [v] := by rw [old, new, shows.reads]

end Thread

namespace Completed

/-- The replies of a step, were there no handles. -/
def replies (step : Completed) : List Plain.Reply := step.answers.map Plain.Reply.ofAnswer

end Completed

namespace Plain

theorem make_eq {t : Thread} {values : List Value} (shows : t.Shows values) (p : Production) :
    make values p = p.eval t.read := by
  cases p with
  | operation op => rw [make, ← shows.read, Production.eval, op.named_eq_eval]
  | _ => rfl

theorem reply_eq {t : Thread} {values : List Value} (shows : t.Shows values) (q : Query) :
    reply values q = .ofAnswer (q.answer t.read) := by
  cases q with
  | typeName a => rw [reply, ← shows.read, Query.answer, Kind.labelOfTag_tag, Reply.ofAnswer]
  | tagName tag => rfl
  | isKind | isTruthy => rw [reply, ← shows.read, Query.answer, Reply.ofAnswer]

/-- One call on values is one call on handles that show them: it stops for the same reason, or it gives
the same reply and leaves handles that show the values after it. -/
theorem call_shows {t : Thread} {values : List Value} (shows : t.Shows values) (c : Call) (host : Host) :
    match call values c with
    | .error reason => c.stop? t.read = some reason
    | .ok (reply, after) => ∃ t', (c.run t host).thread = some t' ∧ t'.Shows after ∧
        (Completed.call c t host).replies = [reply] := by
  cases c with
  | null =>
    refine ⟨_, rfl, shows.keep_none, ?_⟩
    simp only [Completed.replies, Completed.answers, Completed.events, Completed.outcome, Call.run,
      Outcome.returnedHandle_answers host t _ (t.handle_keep none), shows.length]
    rfl
  | produce p =>
    simp only [call, make_eq shows]
    cases result : p.eval t.read with
    | error f =>
      cases p with
      | operation op =>
        change op.named t.read = .error f at result
        simp only [Call.stop?, result]
      | _ => cases result
    | ok v =>
      refine ⟨t.publish v, by simp only [Call.run, result]; rfl, shows.publish v, ?_⟩
      simp only [Completed.replies, Completed.answers, Completed.events, Completed.outcome, Call.run, result,
        Outcome.returnedHandle_answers host t _ (t.handle_publish v), shows.length]
      simp [Reply.ofAnswer, Thread.deref, Thread.publish]
  | query q =>
    simp only [call, reply_eq shows]
    exact ⟨t, rfl, shows, rfl⟩
  | abort a => simp only [call, Call.stop?, shows.read]
  | output o =>
    refine ⟨t, rfl, shows, ?_⟩
    simp only [Completed.replies, Completed.answers, Completed.events, Completed.outcome, Call.run,
      Outcome.returned, List.filterMap_append, host.emit_answers]
    rfl
  | install bytes =>
    refine ⟨t, rfl, shows, ?_⟩
    simp only [Completed.replies, Completed.answers, Completed.events, Completed.outcome, Call.run, Host.install]
    cases host.sink <;> rfl
  | _ => exact ⟨t, rfl, shows, rfl⟩

/-- What plain values come to is what the steps come to: the same replies, and then handles that show
the same values, or a call that stops the process for the same reason. -/
inductive Told (P : Process) (waiting : List Frame) : List Reply × Except Stop (List Value) → Prop
  | ended {history t log host values} : P.Reaches history ⟨⟨t, .done, log⟩, waiting, host⟩ → t.Shows values →
      Told P waiting (history.flatMap Completed.replies, .ok values)
  | stopped {history Q reason} : P.Reaches history Q → Q.Stops reason →
      Told P waiting (history.flatMap Completed.replies, .error reason)

theorem Told.after {P Q : Process} {waiting : List Frame} {history : List Completed}
    {result : List Reply × Except Stop (List Value)} (told : Told Q waiting result)
    (reach : P.Reaches history Q) :
    Told P waiting (history.flatMap Completed.replies ++ result.1, result.2) := by
  cases told with
  | ended further shows =>
    rw [← List.flatMap_append]
    exact .ended (reach.trans further) shows
  | stopped further stops =>
    rw [← List.flatMap_append]
    exact .stopped (reach.trans further) stops

theorem run_told (program : Program) {t : Thread} {values : List Value} (shows : t.Shows values) (host : Host)
    (log : List Answer) (waiting : List Frame) :
    Told ⟨⟨t, program, log⟩, waiting, host⟩ waiting (run program values) := by
  induction program generalizing t values host log waiting with
  | done => exact .ended .here shows
  | call c rest ih =>
    have first := call_shows shows c host
    simp only [run]
    cases result : call values c with
    | error reason =>
      simp only [result] at first
      exact .stopped .here ⟨c, rest, rfl, first⟩
    | ok both =>
      simp only [result] at first
      obtain ⟨t', returns, after, replies⟩ := first
      have later := ih after (c.run t host).host (log ++ (Completed.call c t host).answers) waiting
      have whole := later.after (.completes (.call returns) .here)
      rwa [List.flatMap_singleton, replies] at whole
  | thread body rest ihBody ihRest =>
    have inside : Told ⟨⟨t, .thread body rest, log⟩, waiting, host⟩ (⟨t, rest, log⟩ :: waiting)
        (run body []) := (ihBody Thread.shows_fresh host [] _).after (.enters .thread .here)
    simp only [run]
    generalize run body [] = inner at inside ⊢
    cases inside with
    | stopped reach stops => exact .stopped reach stops
    | @ended history t' log' host' _ reach _ =>
      have joined := reach.trans (.completes .joined .here)
      have later := (ihRest shows host' (log ++ (Completed.joined t host').answers) waiting).after joined
      rw [List.flatMap_append, List.flatMap_singleton, List.append_assoc] at later
      exact later

end Plain

end TaggedRuntime
