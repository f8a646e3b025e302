import TaggedRuntime.Program

namespace TaggedRuntime

def Event.answer? : Event → Option Answer
  | .returned answer _ _ => some answer
  | .wrote _ | .flushed => none

namespace Host

theorem emit_answers (host : Host) (bytes : Bytes) : (host.emit bytes).1.filterMap Event.answer? = [] := by
  unfold emit traced
  split <;> rfl

theorem stop_answers (host : Host) (reason : Stop) : (host.stop reason).1.filterMap Event.answer? = [] := by
  cases reason <;> simp only [stop, flush, traced] <;> split <;> rfl

end Host

/-- Why a call does not return: an operation that fails, or a call made to stop the process. -/
def Call.stop? (read : Operand → Value) : Call → Option Stop
  | .produce (.operation op) =>
    match op.named read with
    | .ok _ => none
    | .error f => some (.fault f)
  | .abort a => some (a.stop read)
  | _ => none

/-- A thread that has begun, what it has yet to run, and the answers of its steps so far. -/
structure Frame where
  thread : Thread
  rest : Program
  log : List Answer

/-- A process between two steps: the thread that runs, those that wait for it, the innermost first,
and what all of them share. -/
structure Process where
  running : Frame
  waiting : List Frame
  host : Host

/-- A completed step, with the thread and the host as it found them. The step that runs a thread is
completed when that thread has ended. -/
inductive Completed
  | call (c : Call) (t : Thread) (host : Host)
  | joined (t : Thread) (host : Host)

namespace Completed

def outcome : Completed → Outcome
  | call c t host => c.run t host
  | joined t host => .returned [] host t .none

def events (step : Completed) : List Event := step.outcome.events

def answers (step : Completed) : List Answer := step.events.filterMap Event.answer?

end Completed

namespace Process

/-- A thread step begins: the thread inside runs from an empty heap, and the one around it waits. -/
inductive Enters : Process → Process → Prop
  | thread {t log body rest waiting host} :
      Enters ⟨⟨t, .thread body rest, log⟩, waiting, host⟩ ⟨⟨{}, body, []⟩, ⟨t, rest, log⟩ :: waiting, host⟩

/-- A call returns, or the thread inside has ended and the one around it goes on. -/
inductive Completes : Process → Completed → Process → Prop
  | call {c t t' log rest waiting host} : (c.run t host).thread = some t' →
      Completes ⟨⟨t, .call c rest, log⟩, waiting, host⟩ (.call c t host)
        ⟨⟨t', rest, log ++ (Completed.call c t host).answers⟩, waiting, (c.run t host).host⟩
  | joined {inner innerLog t rest log waiting host} :
      Completes ⟨⟨inner, .done, innerLog⟩, ⟨t, rest, log⟩ :: waiting, host⟩ (.joined t host)
        ⟨⟨t, rest, log ++ (Completed.joined t host).answers⟩, waiting, host⟩

/-- What a process comes to after the steps of a history, completed in this order. -/
inductive Reaches : Process → List Completed → Process → Prop
  | here {P} : Reaches P [] P
  | enters {P Q R history} : P.Enters Q → Reaches Q history R → Reaches P history R
  | completes {P Q R step history} : P.Completes step Q → Reaches Q history R → Reaches P (step :: history) R

def start (program : Program) (host : Host) : Process := ⟨⟨{}, program, []⟩, [], host⟩

/-- The first thread has nothing left to run. -/
def Ended (P : Process) : Prop := P.running.rest = .done ∧ P.waiting = []

/-- The next call does not return. -/
def Stops (P : Process) (reason : Stop) : Prop :=
  ∃ c rest, P.running.rest = .call c rest ∧ c.stop? P.running.thread.read = some reason

end Process

/-- A call stops the process exactly for the reason it has, and otherwise it returns. -/
theorem Call.run_cases (c : Call) (t : Thread) (host : Host) :
    (∃ reason, c.stop? t.read = some reason ∧ c.run t host = .stopped host reason) ∨
      c.stop? t.read = none ∧ ∃ t', (c.run t host).thread = some t' := by
  cases c with
  | produce p =>
    cases p with
    | operation op =>
      cases result : op.named t.read with
      | ok v => exact .inr ⟨by simp [stop?, result], _, by simp only [run, Production.eval, result]; rfl⟩
      | error f => exact .inl ⟨.fault f, by simp [stop?, result], by simp only [run, Production.eval, result]⟩
    | _ => exact .inr ⟨rfl, _, rfl⟩
  | abort a => exact .inl ⟨_, rfl, rfl⟩
  | _ => exact .inr ⟨rfl, _, rfl⟩

theorem Call.stop?_of_returns {c : Call} {t t' : Thread} {host : Host}
    (returns : (c.run t host).thread = some t') : c.stop? t.read = none := by
  rcases c.run_cases t host with ⟨_, _, run⟩ | ⟨none, _⟩
  · rw [run] at returns
    cases returns
  · exact none

namespace Process

theorem Reaches.trans {P Q R : Process} {first second : List Completed} (left : P.Reaches first Q)
    (right : Q.Reaches second R) : P.Reaches (first ++ second) R := by
  induction left with
  | here => exact right
  | enters enter _ ih => exact .enters enter (ih right)
  | completes complete _ ih => exact .completes complete (ih right)

/-- Each step of a history was completed, between the steps before it and the steps after it. -/
theorem Reaches.split {P R : Process} {history before after : List Completed} {step : Completed}
    (reach : P.Reaches history R) (cut : history = before ++ step :: after) :
    ∃ Q Q', P.Reaches before Q ∧ Q.Completes step Q' ∧ Q'.Reaches after R := by
  induction reach generalizing before with
  | here => exact absurd cut.symm (by simp)
  | enters enter _ ih =>
    obtain ⟨Q, Q', first, complete, last⟩ := ih cut
    exact ⟨Q, Q', .enters enter first, complete, last⟩
  | @completes P Q R head history complete rest ih =>
    cases before with
    | nil =>
      obtain ⟨rfl, rfl⟩ := List.cons.inj cut
      exact ⟨P, Q, .here, complete, rest⟩
    | cons other before =>
      obtain ⟨rfl, rfl⟩ := List.cons.inj cut
      obtain ⟨S, S', first, middle, last⟩ := ih rfl
      exact ⟨S, S', .completes complete first, middle, last⟩

/-- What holds of a thread and its answers when it begins and is kept by each step of its own holds of all
threads of a process, if it holds of those there are. -/
theorem Reaches.frames {I : Thread → List Answer → Prop} (fresh : I {} [])
    (call : ∀ {c t later host log}, (c.run t host).thread = some later → I t log →
      I later (log ++ (Completed.call c t host).answers))
    (joined : ∀ {t host log}, I t log → I t (log ++ (Completed.joined t host).answers)) {P Q : Process}
    {history : List Completed} (reach : P.Reaches history Q)
    (all : ∀ frame ∈ P.running :: P.waiting, I frame.thread frame.log) :
    ∀ frame ∈ Q.running :: Q.waiting, I frame.thread frame.log := by
  induction reach with
  | here => exact all
  | enters enter _ ih =>
    cases enter with
    | thread =>
      obtain ⟨outer, others⟩ := List.forall_mem_cons.mp all
      exact ih (List.forall_mem_cons.mpr ⟨fresh, List.forall_mem_cons.mpr ⟨outer, others⟩⟩)
  | completes complete _ ih =>
    obtain ⟨running, others⟩ := List.forall_mem_cons.mp all
    cases complete with
    | call returns => exact ih (List.forall_mem_cons.mpr ⟨call returns running, others⟩)
    | joined =>
      obtain ⟨outer, others⟩ := List.forall_mem_cons.mp others
      exact ih (List.forall_mem_cons.mpr ⟨joined outer, others⟩)

theorem Completes.deterministic {P Q R : Process} {left right : Completed} (toQ : P.Completes left Q)
    (toR : P.Completes right R) : left = right ∧ Q = R := by
  cases toQ with
  | call returns =>
    cases toR with
    | call again =>
      cases Option.some.inj (returns.symm.trans again)
      exact ⟨rfl, rfl⟩
  | joined =>
    cases toR with
    | joined => exact ⟨rfl, rfl⟩

theorem Enters.deterministic {P Q R : Process} (toQ : P.Enters Q) (toR : P.Enters R) : Q = R := by
  cases toQ
  cases toR
  rfl

theorem Enters.not_completes {P Q R : Process} {step : Completed} (toQ : P.Enters Q) :
    ¬P.Completes step R := by
  intro toR
  cases toQ
  cases toR

/-- No step leads further: the program has ended or the next call stops the process. -/
def Final (P : Process) : Prop := P.Ended ∨ ∃ reason, P.Stops reason

theorem Final.not_enters {P Q : Process} (final : P.Final) : ¬P.Enters Q := by
  intro enter
  cases enter
  rcases final with ⟨ended, _⟩ | ⟨_, _, _, calls, _⟩
  · cases ended
  · cases calls

theorem Final.not_completes {P Q : Process} {step : Completed} (final : P.Final) : ¬P.Completes step Q := by
  intro complete
  cases complete with
  | call returns =>
    rcases final with ⟨ended, _⟩ | ⟨reason, _, _, calls, stops⟩
    · cases ended
    · cases calls
      cases (Call.stop?_of_returns returns).symm.trans stops
  | joined =>
    rcases final with ⟨_, alone⟩ | ⟨_, _, _, calls, _⟩
    · cases alone
    · cases calls

/-- A process has one way to go, so all it comes to lies on the way to its final state. -/
theorem Reaches.toward_final {P Q R : Process} {history whole : List Completed} (reach : P.Reaches history Q)
    (toEnd : P.Reaches whole R) (final : R.Final) : ∃ later, whole = history ++ later ∧ Q.Reaches later R := by
  induction reach generalizing whole with
  | here => exact ⟨whole, rfl, toEnd⟩
  | enters enter _ ih =>
    cases toEnd with
    | here => exact absurd enter final.not_enters
    | enters other rest =>
      cases enter.deterministic other
      exact ih rest
    | completes other _ => exact absurd other enter.not_completes
  | completes complete _ ih =>
    cases toEnd with
    | here => exact absurd complete final.not_completes
    | enters other _ => exact absurd complete other.not_completes
    | completes other rest =>
      obtain ⟨rfl, rfl⟩ := complete.deterministic other
      obtain ⟨later, whole, further⟩ := ih rest
      exact ⟨later, by rw [whole]; rfl, further⟩

/-- A process comes to one final state only, by one history. -/
theorem Reaches.final_unique {P Q R : Process} {left right : List Completed} (toQ : P.Reaches left Q)
    (toR : P.Reaches right R) (finalQ : Q.Final) (finalR : R.Final) : left = right ∧ Q = R := by
  obtain ⟨later, whole, further⟩ := toQ.toward_final toR finalR
  cases further with
  | here => exact ⟨by rw [whole, List.append_nil], rfl⟩
  | enters enter _ => exact absurd enter finalQ.not_enters
  | completes complete _ => exact absurd complete finalQ.not_completes

theorem Stops.unique {P : Process} {left right : Stop} (one : P.Stops left) (other : P.Stops right) :
    left = right := by
  obtain ⟨c, rest, calls, stops⟩ := one
  obtain ⟨c', rest', calls', stops'⟩ := other
  cases calls.symm.trans calls'
  exact Option.some.inj (stops.symm.trans stops')

theorem Ended.not_stops {P : Process} {reason : Stop} (ended : P.Ended) : ¬P.Stops reason := by
  rintro ⟨c, rest, calls, _⟩
  cases ended.1.symm.trans calls

end Process

end TaggedRuntime
