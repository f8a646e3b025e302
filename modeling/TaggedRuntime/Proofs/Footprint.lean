import TaggedRuntime.Proofs.HandleMemory
import TaggedRuntime.Proofs.SinkFixed

namespace TaggedRuntime

/-- The state that a step can change, in parts: two belong to the thread that makes the step, and all threads share
the others. The platform is the kind of the sink in use, if there is one, and the output is what was written. -/
inductive Part
  | heap
  | registers
  | platform
  | output
  | settings
  | environment
  | stderr
  deriving DecidableEq

/-- Of a sink in use, its kind and what was written to it are all there is. -/
theorem Host.sink_eq {host after : Host} (kind : after.sink.map Sink.kind = host.sink.map Sink.kind)
    (written : after.activeSink.written = host.activeSink.written) : after.sink = host.sink := by
  rcases host with ⟨_ | ⟨_, _⟩, _, _, _⟩ <;> rcases after with ⟨_ | ⟨_, _⟩, _, _, _⟩
  · rfl
  · cases kind
  · cases kind
  · cases kind
    cases written
    rfl

namespace Part

/-- The part is the same before and after. -/
def Same (t later : Thread) (host after : Host) : Part → Prop
  | heap => later.heap = t.heap
  | registers => later.registers = t.registers
  | platform => after.sink.map Sink.kind = host.sink.map Sink.kind
  | output => after.activeSink.written = host.activeSink.written
  | settings => after.settings = host.settings
  | environment => after.environment = host.environment
  | stderr => after.stderr = host.stderr

/-- The parts make up the whole state. -/
theorem forall_same_iff {t later : Thread} {host after : Host} :
    (∀ part : Part, part.Same t later host after) ↔ later = t ∧ after = host := by
  constructor
  · intro same
    have heap : later.heap = t.heap := same heap
    have registers : later.registers = t.registers := same registers
    have sink : after.sink = host.sink := Host.sink_eq (same platform) (same output)
    have settings : after.settings = host.settings := same settings
    have environment : after.environment = host.environment := same environment
    have stderr : after.stderr = host.stderr := same stderr
    constructor
    · calc
        later = ⟨later.heap, later.registers⟩ := rfl
        _ = t := by rw [heap, registers]
    · calc
        after = ⟨after.sink, after.settings, after.environment, after.stderr⟩ := rfl
        _ = host := by rw [sink, settings, environment, stderr]
  · rintro ⟨rfl, rfl⟩ part
    cases part <;> rfl

end Part

/-- The parts that a call may change. What makes a value gives its handle in a new register. -/
def Call.footprint : Call → List Part
  | .null => [.registers]
  | .produce _ => [.heap, .registers]
  | .output _ => [.platform, .output]
  | .report _ => [.settings, .stderr]
  | .settings => [.settings]
  | .setEnvironment _ => [.environment]
  | .install _ => [.platform]
  | .query _ | .environmentSettings | .abort _ => []

/-- A call that returns changes nothing outside its footprint. -/
theorem Call.run_same {c : Call} {t later : Thread} {host : Host} (returns : (c.run t host).thread = some later)
    {part : Part} (outside : part ∉ c.footprint) : part.Same t later host (c.run t host).host := by
  rw [run_host returns]
  cases c with
  | produce p =>
    cases part with
    | heap | registers => simp [footprint] at outside
    | _ => rfl
  | abort a => cases returns
  | install bytes =>
    cases Option.some.inj returns
    rw [hostAfter, Host.install_host]
    cases part with
    | platform => simp [footprint] at outside
    | output => cases used : host.sink <;> simp [Part.Same, Host.activeSink, used]
    | _ => rfl
  | _ =>
    cases Option.some.inj returns
    cases part <;> first | rfl | simp [footprint] at outside

namespace Heap

theorem alloc_slots (h : Heap) (v : Value) : ∃ added, added.length ≤ 1 ∧ (h.alloc v).2.slots = h.slots ++ added := by
  cases v with
  | nil | bool => exact ⟨[], Nat.zero_le _, (List.append_nil _).symm⟩
  | number | string | function => exact ⟨[_], Nat.le_refl _, rfl⟩

end Heap

theorem Call.run_slots {c : Call} {t later : Thread} {host : Host} (returns : (c.run t host).thread = some later) :
    ∃ added, added.length ≤ 1 ∧ later.heap.slots = t.heap.slots ++ added := by
  rcases run_thread returns with rfl | rfl | ⟨v, rfl⟩
  · exact ⟨[], Nat.zero_le _, (List.append_nil _).symm⟩
  · exact ⟨[], Nat.zero_le _, (List.append_nil _).symm⟩
  · exact t.heap.alloc_slots v

namespace Process

/-- A thread that waits has waited from the beginning, or since it began a thread step, and as it was then. -/
theorem Reaches.waiting {P R : Process} {history : List Completed} (reach : P.Reaches history R) {outer : Frame}
    {others : List Frame} (waits : outer :: others <:+ R.waiting) :
    outer :: others <:+ P.waiting ∨
      ∃ before inside S S' body, history = before ++ inside ∧ P.Reaches before S ∧ S.Enters S' ∧ S'.Reaches inside R ∧
        S.running = ⟨outer.thread, .thread body outer.rest, outer.log⟩ ∧ S.waiting = others := by
  induction reach with
  | here => exact .inl waits
  | @enters P Q R history enter reach ih =>
    rcases ih waits with earlier | ⟨before, inside, S, S', body, cut, first, rest⟩
    · cases enter with
      | @thread t log body rest waiting host =>
        rcases List.suffix_cons_iff.mp earlier with same | earlier
        · cases same
          exact .inr ⟨[], history, _, _, body, rfl, .here, .thread, reach, rfl, rfl⟩
        · exact .inl earlier
    · exact .inr ⟨before, inside, S, S', body, cut, .enters enter first, rest⟩
  | @completes P Q R step history complete reach ih =>
    rcases ih waits with earlier | ⟨before, inside, S, S', body, cut, first, rest⟩
    · cases complete with
      | call returns => exact .inl earlier
      | joined => exact .inl (List.suffix_cons_iff.mpr (.inr earlier))
    · exact .inr ⟨step :: before, inside, S, S', body, congrArg (step :: ·) cut, .completes complete first, rest⟩

theorem Completes.refused {P Q : Process} {bytes : Bytes} {t : Thread} {found : Host}
    (complete : P.Completes (.call (.install bytes) t found) Q)
    (refused : (Completed.call (.install bytes) t found).installs = false) :
    Q.running.thread = P.running.thread ∧ Q.host = P.host := by
  rw [Completed.call_installs] at refused
  cases complete with
  | call returns =>
    refine ⟨(Option.some.inj returns).symm, ?_⟩
    rcases found.install_cases { kind := .buffer } bytes with ⟨free, _⟩ | same
    · simp [free] at refused
    · exact same

/-- When a thread has ended, the one around it goes on as it was when it began the thread step. -/
theorem Reaches.joined {program : Program} {host : Host} {history : List Completed} {P Q : Process} {t : Thread}
    {found : Host} (reach : (start program host).Reaches history P) (complete : P.Completes (.joined t found) Q) :
    Q.host = P.host ∧ ∃ before inside S S' body, history = before ++ inside ∧
      (start program host).Reaches before S ∧ S.Enters S' ∧ S'.Reaches inside P ∧
      S.running.rest = .thread body Q.running.rest ∧ Q.running.thread = S.running.thread ∧ Q.waiting = S.waiting := by
  cases complete with
  | @joined _ _ _ rest log waiting =>
    have waits : (⟨t, rest, log⟩ : Frame) :: waiting <:+ ⟨t, rest, log⟩ :: waiting := List.suffix_refl _
    rcases reach.waiting waits with none | ⟨before, inside, S, S', body, cut, first, enter, further, running, others⟩
    · simp [start] at none
    · exact ⟨rfl, before, inside, S, S', body, cut, first, enter, further, by rw [running], by rw [running], others.symm⟩

end Process

/-- In every state that a process comes to, a step changes its own part of the state only. A call that returns keeps
all that is outside its footprint, and the threads that wait. It adds at most one value to the heap of its thread and
keeps those there are, so that every handle of the thread reads as before. An install that is refused changes nothing.
When a thread has ended, the host stays as the steps inside left it, and the thread around it goes on with the heap
and the registers that it had when the thread step began, whatever those steps were. -/
theorem Program.execute_footprint {program : Program} {host : Host} {history : List Completed} {P : Process}
    (reach : (Process.start program host).Reaches history P) :
    (∀ c t found Q, P.Completes (.call c t found) Q →
      (t = P.running.thread ∧ found = P.host ∧ Q.waiting = P.waiting) ∧
      (∀ part ∉ c.footprint, part.Same P.running.thread Q.running.thread P.host Q.host) ∧
      (c.footprint = [] → Q.running.thread = P.running.thread ∧ Q.host = P.host) ∧
      (∃ added, added.length ≤ 1 ∧ Q.running.thread.heap.slots = P.running.thread.heap.slots ++ added) ∧
      P.running.thread.registers <+: Q.running.thread.registers ∧
      (∀ handle ∈ P.running.thread.registers, Q.running.thread.deref handle = P.running.thread.deref handle) ∧
      ∀ bytes, c = .install bytes → (Completed.call c t found).installs = false →
        Q.running.thread = P.running.thread ∧ Q.host = P.host) ∧
    ∀ t found Q, P.Completes (.joined t found) Q →
      Q.host = P.host ∧ ∃ before inside S S' body, history = before ++ inside ∧
        (Process.start program host).Reaches before S ∧ S.Enters S' ∧ S'.Reaches inside P ∧
        S.running.rest = .thread body Q.running.rest ∧ Q.running.thread = S.running.thread ∧ Q.waiting = S.waiting := by
  refine ⟨?_, fun t found Q complete => reach.joined complete⟩
  intro c t found Q complete
  have sound : P.running.thread.Sound :=
    (reach.remembers (Process.start_remembers program host) _ (List.mem_cons_self ..)).sound
  cases complete with
  | @call _ _ t' _ _ _ _ returns =>
    have same : ∀ part ∉ c.footprint, part.Same t t' found (c.run t found).host := fun _ => Call.run_same returns
    have grows := Call.run_grows returns
    refine ⟨⟨rfl, rfl, rfl⟩, same, ?_, Call.run_slots returns, grows.registers, ?_, ?_⟩
    · intro none
      exact Part.forall_same_iff.mp fun part => same part (by simp [none])
    · intro handle given
      exact sound.deref grows given
    · rintro bytes rfl refused
      exact Process.Completes.refused (.call returns) refused

/-- The inner thread makes a number, prints it and tries to install a sink: the print leaves the settings unread and
the install changes nothing. After that the outer thread has the one value it had. -/
theorem Program.execute_footprint_inner_thread :
    let print : Call := .output (.value (some 0))
    let inner : Program := .call (.produce (.constant (.number (.ofInt 7)))) (.call print (.call (.install [0x78]) .done))
    let program : Program := .call (.produce (.constant (.string [0x61]))) (.thread inner .done)
    let outer : Thread := Thread.publish {} (.string [0x61])
    let worker : Thread := Thread.publish {} (.number (.ofInt 7))
    let printed : Host := (print.run worker {}).host
    printed.settings = none ∧ ((Call.install [0x78]).run worker printed).host = printed ∧
      ∃ S S' P : Process, ∃ before inside, (Process.start program {}).Reaches before S ∧ S.Enters S' ∧
        S'.Reaches inside P ∧ P.running.thread = worker ∧ S.running.thread = outer := by
  intro print inner program outer worker printed
  have begun : (Process.start program {}).Reaches _ _ :=
    .completes (.call rfl) (.enters .thread (.completes (.call rfl) .here))
  have shown := begun.trans (.completes (.call (c := print) rfl) .here)
  have ended := shown.trans (.completes (.call (c := .install [0x78]) rfl) .here)
  have settings := ((execute_footprint begun).1 print worker {} _ (.call rfl)).2.1 .settings (by decide)
  have kept := ((execute_footprint shown).1 (.install [0x78]) worker printed _ (.call rfl)).2.2.2.2.2.2 _ rfl (by decide)
  obtain ⟨_, before, inside, S, S', _, _, first, enter, further, _, thread, _⟩ :=
    (execute_footprint ended).2 outer printed _ .joined
  exact ⟨settings, kept.2, S, S', _, before, inside, first, enter, further, rfl, thread.symm⟩

end TaggedRuntime
