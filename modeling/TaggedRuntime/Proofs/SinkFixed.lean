import TaggedRuntime.Proofs.SinkStep

namespace TaggedRuntime

theorem Completed.call_installs (c : Call) (t : Thread) (host : Host) :
    (call c t host).installs = match c with
      | .install _ => host.sink.isNone
      | _ => false := by
  unfold installs answers events outcome
  cases c with
  | produce p =>
    simp only [Call.run]
    cases p.eval t.read with
    | ok v => rfl
    | error f => simp only [Outcome.stopped, host.stop_answers]; rfl
  | query q => cases q <;> rfl
  | output o => simp only [Call.run, Outcome.returned, List.filterMap_append, host.emit_answers]; rfl
  | abort a => simp only [Call.run, Outcome.stopped, host.stop_answers]; rfl
  | install bytes =>
    simp only [Call.run, Host.install]
    cases host.sink <;> rfl
  | _ => rfl

namespace Process

/-- Only what prints or installs takes a sink into use. -/
theorem Completes.free_iff {P Q : Process} {step : Completed} (complete : P.Completes step Q) :
    Q.host.sink = none ↔ P.host.sink = none ∧ step.prints = false ∧ step.installs = false := by
  cases complete with
  | @joined inner innerLog t rest log waiting host =>
    exact ⟨fun free => ⟨free, rfl, rfl⟩, And.left⟩
  | @call c t t' log rest waiting host returns =>
    rw [Call.run_host returns, Completed.call_installs]
    cases c with
    | install bytes =>
      simp only [Call.hostAfter, Host.install]
      cases used : host.sink <;> simp [used]
    | output o => simp [Call.hostAfter, Host.emit, Completed.prints]
    | _ => exact ⟨fun free => ⟨free, rfl, rfl⟩, And.left⟩

theorem Completes.installed {P Q : Process} {step : Completed} (complete : P.Completes step Q)
    (installs : step.installs = true) :
    P.host.sink = none ∧ Q.host.sink = some { kind := .buffer } ∧ step.prints = false := by
  cases complete with
  | joined => cases installs
  | @call c t t' log rest waiting host returns =>
    rw [Completed.call_installs] at installs
    rw [Call.run_host returns]
    cases c with
    | install bytes =>
      have free : host.sink = none := Option.isNone_iff_eq_none.mp installs
      refine ⟨free, ?_, rfl⟩
      simp only [Call.hostAfter, Host.install, free]
    | _ => cases installs

theorem Completes.kind {P Q : Process} {step : Completed} (complete : P.Completes step Q)
    (others : step.installs = false) : Q.host.activeSink.kind = P.host.activeSink.kind := by
  cases complete with
  | joined => rfl
  | @call c t t' log rest waiting host returns =>
    rw [Completed.call_installs] at others
    rw [Call.run_host returns]
    cases c with
    | install bytes =>
      have used : host.sink ≠ none := Option.isNone_eq_false_iff.mp others |> Option.isSome_iff_ne_none.mp
      rcases host.install_cases { kind := .buffer } bytes with ⟨free, _⟩ | same
      · exact absurd free used
      · simp only [Call.hostAfter, same]
    | _ => rfl

/-- A sink other than the standard output is in use and stays. -/
theorem Completes.kind_of_used {P Q : Process} {step : Completed} (complete : P.Completes step Q)
    (used : P.host.activeSink.kind ≠ .standard) : Q.host.activeSink.kind = P.host.activeSink.kind := by
  cases installs : step.installs with
  | false => exact complete.kind installs
  | true =>
    have free := (complete.installed installs).1
    rw [Host.activeSink, free] at used
    exact absurd rfl used

theorem Reaches.free_iff {P Q : Process} {history : List Completed} (reach : P.Reaches history Q) :
    Q.host.sink = none ↔
      P.host.sink = none ∧ ∀ step ∈ history, step.prints = false ∧ step.installs = false := by
  induction reach with
  | here => simp
  | enters enter _ ih => rw [ih, enter.host]
  | completes complete _ ih => rw [ih, complete.free_iff, List.forall_mem_cons, and_assoc]

theorem Reaches.kind {P Q : Process} {history : List Completed} (reach : P.Reaches history Q)
    (others : ∀ step ∈ history, step.installs = false) :
    Q.host.activeSink.kind = P.host.activeSink.kind := by
  induction reach with
  | here => rfl
  | enters enter _ ih => rw [ih others, enter.host]
  | completes complete _ ih =>
    obtain ⟨other, others⟩ := List.forall_mem_cons.mp others
    rw [ih others, complete.kind other]

/-- From any process at most one step installs, and none does if a sink is in use. -/
theorem Reaches.countP_installs {P Q : Process} {history : List Completed} (reach : P.Reaches history Q) :
    history.countP Completed.installs ≤ if P.host.sink = none then 1 else 0 := by
  induction reach with
  | here => exact Nat.zero_le _
  | enters enter _ ih => rwa [enter.host] at ih
  | @completes P Q R step history complete _ ih =>
    rw [List.countP_cons]
    cases installs : step.installs with
    | true =>
      obtain ⟨free, used, _⟩ := complete.installed installs
      simp only [used, reduceCtorEq, if_false] at ih
      simp only [free, if_true]
      omega
    | false =>
      have kept : Q.host.sink = none → P.host.sink = none := fun free => (complete.free_iff.mp free).1
      simp only [Bool.false_eq_true, if_false, Nat.add_zero]
      refine Nat.le_trans ih ?_
      split
      · next free => simp only [kept free, if_true, Nat.le_refl]
      · exact Nat.zero_le _

/-- An install step finds no sink in use exactly if nothing was printed or installed before, and else it
hands back its own sink with what was written to that, and changes nothing. -/
theorem Reaches.install_step {P R : Process} {before after : List Completed} {bytes : Bytes} {t : Thread}
    {found : Host} (free : P.host.sink = none)
    (reach : P.Reaches (before ++ .call (.install bytes) t found :: after) R) :
    ((Completed.call (.install bytes) t found).installs = true ↔
        ∀ earlier ∈ before, earlier.prints = false ∧ earlier.installs = false) ∧
      ((Completed.call (.install bytes) t found).installs = false →
        (Completed.call (.install bytes) t found).answers = [.refused bytes] ∧
          (Completed.call (.install bytes) t found).outcome.host = found) := by
  obtain ⟨Q, Q', first, complete, _⟩ := reach.split rfl
  have same : found = Q.host := by
    cases complete
    rfl
  constructor
  · rw [Completed.call_installs, Option.isNone_iff_eq_none, same, first.free_iff]
    exact and_iff_right free
  · intro refused
    rw [Completed.call_installs] at refused
    simp only [Completed.answers, Completed.events, Completed.outcome, Call.run, Host.install]
    cases used : found.sink with
    | none => simp [used] at refused
    | some sink => exact ⟨rfl, rfl⟩

/-- From an install that succeeded, all output is in its buffer. -/
theorem Reaches.after_install {P R : Process} {before after : List Completed} {step : Completed}
    (reach : P.Reaches (before ++ step :: after) R) (installs : step.installs = true) :
    R.host.stdout = [] ∧ R.host.buffer? = some (after.flatMap Completed.printed) := by
  obtain ⟨Q, Q', _, complete, last⟩ := reach.split rfl
  obtain ⟨_, used, _⟩ := complete.installed installs
  have none : ∀ other ∈ after, other.installs = false := by
    have count := last.countP_installs
    simp only [used, reduceCtorEq, if_false, Nat.le_zero, List.countP_eq_zero, Bool.not_eq_true] at count
    exact count
  have kind : R.host.activeSink.kind = .buffer := by
    rw [last.kind none, Host.activeSink, used]
    rfl
  have written : R.host.activeSink.written = after.flatMap Completed.printed := by
    rw [last.written, Host.activeSink, used]
    rfl
  rw [R.host.stdout_eq, R.host.buffer?_eq, kind, written]
  exact ⟨rfl, rfl⟩

/-- Once a step has printed with no sink installed, none is installed and the standard output has all. -/
theorem Reaches.after_print {P R : Process} {before after : List Completed} {step : Completed}
    (free : P.host.sink = none) (reach : P.Reaches (before ++ step :: after) R) (prints : step.prints = true)
    (uninstalled : ∀ earlier ∈ before, earlier.installs = false) :
    (∀ other ∈ before ++ step :: after, other.installs = false) ∧
      R.host.stdout = (before ++ step :: after).flatMap Completed.printed ∧ R.host.buffer? = none := by
  obtain ⟨Q, Q', _, complete, last⟩ := reach.split rfl
  have used : Q'.host.sink ≠ none := fun unused => by
    cases prints.symm.trans (complete.free_iff.mp unused).2.1
  have count := last.countP_installs
  simp only [used, if_false, Nat.le_zero, List.countP_eq_zero, Bool.not_eq_true] at count
  have here : step.installs = false := by
    cases installs : step.installs with
    | false => rfl
    | true => cases prints.symm.trans (complete.installed installs).2.2
  have none : ∀ other ∈ before ++ step :: after, other.installs = false :=
    List.forall_mem_append.mpr ⟨uninstalled, List.forall_mem_cons.mpr ⟨here, count⟩⟩
  have kind : R.host.activeSink.kind = .standard := by
    rw [reach.kind none, Host.activeSink, free]
    rfl
  refine ⟨none, ?_, ?_⟩
  · rw [R.host.stdout_eq, kind, reach.written, Host.activeSink, free]
    rfl
  · rw [R.host.buffer?_eq, kind]
    rfl

/-- The event of the newest step shows the buffer as it is. -/
theorem Reaches.newest_buffer {P R : Process} {earlier : List Completed} {newest : Completed}
    (reach : P.Reaches (earlier ++ [newest]) R) :
    newest.events.filterMap Event.buffer? = R.host.buffer?.toList := by
  obtain ⟨Q, Q', _, complete, last⟩ := reach.split rfl
  rw [complete.buffer, last.host_of_nil rfl]

end Process

/-- The sink of a process that starts with none is fixed by the first step that prints or installs, in
whatever thread. An install succeeds exactly if it is that step, so at most one does; any other hands back its
own sink and leaves the host as it was. After an install the standard output stays empty and the buffer has
what was printed since; if a step has printed before, no install succeeds and all goes to the standard output. -/
theorem Program.execute_sink_fixed (program : Program) {host : Host} (free : host.sink = none)
    {history : List Completed} {P : Process} (reach : (Process.start program host).Reaches history P) :
    (∀ before bytes t found after, history = before ++ .call (.install bytes) t found :: after →
      ((Completed.call (.install bytes) t found).installs = true ↔
          ∀ earlier ∈ before, earlier.prints = false ∧ earlier.installs = false) ∧
        ((Completed.call (.install bytes) t found).installs = false →
          (Completed.call (.install bytes) t found).answers = [.refused bytes] ∧
            (Completed.call (.install bytes) t found).outcome.host = found)) ∧
      history.countP Completed.installs ≤ 1 ∧
      (∀ before step after, history = before ++ step :: after → step.installs = true →
        P.host.stdout = [] ∧ P.host.buffer? = some (after.flatMap Completed.printed)) ∧
      (∀ before step after, history = before ++ step :: after → step.prints = true →
        (∀ earlier ∈ before, earlier.installs = false) →
        (∀ other ∈ history, other.installs = false) ∧
          P.host.stdout = history.flatMap Completed.printed ∧ P.host.buffer? = none) ∧
      (∀ earlier newest, history = earlier ++ [newest] →
        newest.events.filterMap Event.buffer? = P.host.buffer?.toList) ∧
      (P.Final → (program.execute host).stdout = P.host.stdout) := by
  refine ⟨?_, ?_, ?_, ?_, ?_, execute_stdout reach⟩
  · rintro before bytes t found after rfl
    exact reach.install_step free
  · have unused : (Process.start program host).host.sink = none := free
    have count := reach.countP_installs
    rwa [if_pos unused] at count
  · rintro before step after rfl installs
    exact reach.after_install installs
  · rintro before step after rfl prints uninstalled
    exact reach.after_print free prints uninstalled
  · rintro earlier newest rfl
    exact reach.newest_buffer

/-- A thread prints and then tries to install a sink, in a process with one installed and in one without. -/
theorem Program.execute_sink_fixed_inner_thread :
    let inner : Program := .call (.output (.boolLine true)) (.call (.install [0x79]) .done)
    let line : Bytes := [0x74, 0x72, 0x75, 0x65, 0x0a]
    let buffered : Host := { sink := some { kind := .buffer, written := line } }
    let defaulted : Host := { sink := some { kind := .standard, written := line } }
    ((Completed.call (.install [0x79]) {} buffered).answers = [.refused [0x79]] ∧
        buffered.stdout = [] ∧ buffered.buffer? = some line ∧
        ((Program.call (.install [0x78]) (.thread inner .done)).execute {}).stdout = []) ∧
      (Completed.call (.install [0x79]) {} defaulted).installs = false ∧ defaulted.stdout = line ∧
        ((Program.thread inner .done).execute {}).stdout = line := by
  intro inner line buffered defaulted
  have reach : (Process.start (.call (.install [0x78]) (.thread inner .done)) {}).Reaches
      [.call (.install [0x78]) {} {}, .call (.output (.boolLine true)) {} { sink := some { kind := .buffer } },
        .call (.install [0x79]) {} buffered, .joined {} buffered] _ :=
    .completes (.call rfl) (.enters .thread (.completes (.call rfl) (.completes (.call rfl)
      (.completes .joined .here))))
  have reach' : (Process.start (.thread inner .done) {}).Reaches
      [.call (.output (.boolLine true)) {} {}, .call (.install [0x79]) {} defaulted, .joined {} defaulted] _ :=
    .enters .thread (.completes (.call rfl) (.completes (.call rfl) (.completes .joined .here)))
  obtain ⟨first, _, after, _, _, whole⟩ := execute_sink_fixed _ rfl reach
  obtain ⟨_, _, _, printed, _, whole'⟩ := execute_sink_fixed _ rfl reach'
  have installed := after [] _ _ rfl rfl
  have defaults := printed [] _ _ rfl rfl (by simp)
  refine ⟨⟨((first [_, _] [0x79] {} buffered _ rfl).2 rfl).1, installed.1, installed.2, ?_⟩, ?_, ?_, ?_⟩
  · exact (whole (.inl ⟨rfl, rfl⟩)).trans installed.1
  · exact defaults.1 _ (List.mem_cons_of_mem _ (List.mem_cons_self ..))
  · exact defaults.2.1
  · exact (whole' (.inl ⟨rfl, rfl⟩)).trans defaults.2.1

end TaggedRuntime
