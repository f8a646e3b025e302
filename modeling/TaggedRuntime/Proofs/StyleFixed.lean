import TaggedRuntime.Proofs.ErrorPath

namespace TaggedRuntime

namespace Settings

/-- A variable that is not set, or not to the bytes of a text, asks for nothing. -/
theorem ofEnvironment_of_not_text {environment : Option Bytes}
    (noText : ∀ text, environment ≠ some (Utf8.encode text)) : (ofEnvironment environment).style = .plain := by
  have unread : environment.bind Utf8.decode? = none := by
    cases environment with
    | none => rfl
    | some bytes =>
      have other : Utf8.encode (Utf8.decode bytes) ≠ bytes := fun same => noText _ (congrArg some same.symm)
      simp only [Option.bind_some, Utf8.decode?, other, if_false]
  simp only [ofEnvironment, unread, ite_self]
  rfl

end Settings

namespace Completed

/-- The steps that need the style: one asks for it, the other is rendered in it. -/
def usesStyle : Completed → Bool
  | call .settings _ _ | call (.report _) _ _ => true
  | _ => false

/-- The steps before the first that needs the style. -/
def beforeUse (history : List Completed) : List Completed := history.takeWhile fun step => !step.usesStyle

/-- What the style variable holds after a step, given what it held before. -/
def environmentAfter (before : Option Bytes) : Completed → Option Bytes
  | call (.setEnvironment value) _ _ => value
  | _ => before

/-- What the step writes on the standard error in a process of this style. -/
def complaintIn (style : Style) : Completed → String
  | call (.report f) _ _ => f.report style ++ "\n"
  | _ => ""

/-- No later step makes a difference to what was before the first use. -/
theorem beforeUse_append {step : Completed} (uses : step.usesStyle = true) (before after : List Completed) :
    beforeUse (before ++ step :: after) = beforeUse before := by
  induction before with
  | nil => simp [beforeUse, uses]
  | cons first before ih =>
    unfold beforeUse at ih ⊢
    rw [List.cons_append, List.takeWhile_cons, List.takeWhile_cons, ih]

end Completed

namespace Host

/-- The settings that a process goes by after some steps: those it had, and else what the environment gave
before the first step that used the style. -/
def settingsAfter (host : Host) (history : List Completed) : Settings :=
  host.settings.getD (.ofEnvironment ((Completed.beforeUse history).foldl Completed.environmentAfter host.environment))

theorem settingsAfter_of_unread {host : Host} (unread : host.settings = none) (history : List Completed) :
    host.settingsAfter history =
      .ofEnvironment ((Completed.beforeUse history).foldl Completed.environmentAfter host.environment) := by
  rw [settingsAfter, unread, Option.getD_none]

theorem settingsAfter_append (host : Host) {step : Completed} (uses : step.usesStyle = true)
    (before after : List Completed) : host.settingsAfter (before ++ step :: after) = host.settingsAfter before := by
  rw [settingsAfter, Completed.beforeUse_append uses, settingsAfter]

end Host

namespace Process

theorem Completes.settings {P Q : Process} {step : Completed} (complete : P.Completes step Q) :
    Q.host.settings = if step.usesStyle then some P.host.activeSettings else P.host.settings := by
  cases complete with
  | joined => rfl
  | @call c t t' log rest waiting host returns =>
    rw [Call.run_host returns]
    cases c with
    | install bytes => exact (congrArg Host.settings (host.install_host { kind := .buffer } bytes) :)
    | _ => rfl

theorem Completes.environment {P Q : Process} {step : Completed} (complete : P.Completes step Q) :
    Q.host.environment = step.environmentAfter P.host.environment := by
  cases complete with
  | joined => rfl
  | @call c t t' log rest waiting host returns =>
    rw [Call.run_host returns]
    cases c with
    | install bytes => exact (congrArg Host.environment (host.install_host { kind := .buffer } bytes) :)
    | _ => rfl

theorem Reaches.environment {P Q : Process} {history : List Completed} (reach : P.Reaches history Q) :
    Q.host.environment = history.foldl Completed.environmentAfter P.host.environment := by
  induction reach with
  | here => rfl
  | enters enter _ ih => rw [ih, enter.host]
  | completes complete _ ih => rw [ih, complete.environment, List.foldl_cons]

/-- One step further back: what the rest of a history comes to from the host after its first step is what
the whole comes to from the host before. -/
theorem Completes.settingsAfter {P Q : Process} {step : Completed} (complete : P.Completes step Q)
    (history : List Completed) : Q.host.settingsAfter history = P.host.settingsAfter (step :: history) := by
  cases uses : step.usesStyle with
  | true =>
    -- from here on the settings are there, and the rest of the history is not looked at
    have fixed : Q.host.settings = some P.host.activeSettings := by rw [complete.settings, uses, if_pos rfl]
    rw [Host.settingsAfter, fixed, Option.getD_some]
    exact (P.host.settingsAfter_append uses [] history).symm
  | false =>
    have kept : Q.host.settings = P.host.settings := by
      rw [complete.settings, uses]
      rfl
    have later : Completed.beforeUse (step :: history) = step :: Completed.beforeUse history := by
      simp [Completed.beforeUse, uses]
    rw [Host.settingsAfter, Host.settingsAfter, kept, complete.environment, later, List.foldl_cons]

theorem Reaches.activeSettings {P Q : Process} {history : List Completed} (reach : P.Reaches history Q) :
    Q.host.activeSettings = P.host.settingsAfter history := by
  induction reach with
  | here => rfl
  | enters enter _ ih => rw [ih, enter.host]
  | completes complete _ ih => rw [ih, complete.settingsAfter]

theorem Reaches.unread_iff {P Q : Process} {history : List Completed} (reach : P.Reaches history Q) :
    Q.host.settings = none ↔ P.host.settings = none ∧ ∀ step ∈ history, step.usesStyle = false := by
  induction reach with
  | here => simp
  | enters enter _ ih => rw [ih, enter.host]
  | @completes P Q R step history complete _ ih =>
    rw [ih, complete.settings, List.forall_mem_cons, ← and_assoc]
    cases step.usesStyle <;> simp

/-- A call in a history found the host as the steps before it had left it. -/
theorem Reaches.found {P R : Process} {before after : List Completed} {c : Call} {t : Thread} {host : Host}
    (reach : P.Reaches (before ++ .call c t host :: after) R) :
    host.activeSettings = P.host.settingsAfter before ∧
      host.environment = before.foldl Completed.environmentAfter P.host.environment := by
  obtain ⟨Q, Q', first, complete, _⟩ := reach.split rfl
  cases complete
  exact ⟨first.activeSettings, first.environment⟩

/-- A step that uses the style finds the one that the whole history comes to. -/
theorem Reaches.found_style {P R : Process} {history : List Completed} {c : Call} {t : Thread} {host : Host}
    (reach : P.Reaches history R) (member : .call c t host ∈ history)
    (uses : (Completed.call c t host).usesStyle = true) : host.activeSettings = P.host.settingsAfter history := by
  obtain ⟨before, after, rfl⟩ := List.append_of_mem member
  rw [reach.found.1, P.host.settingsAfter_append uses]

theorem Reaches.complaint {P R : Process} {history : List Completed} (reach : P.Reaches history R) :
    history.map Completed.complaint = history.map (Completed.complaintIn (P.host.settingsAfter history).style) := by
  refine List.map_congr_left fun step member => ?_
  cases step with
  | joined => rfl
  | call c t host =>
    cases c with
    | report f => rw [Completed.complaint, Completed.complaintIn, reach.found_style member rfl]
    | _ => rfl

end Process

/-- The style of a process that has not read its settings is fixed at the first use: the first step that asks
for it or reports in it, or the fault that stops the process. It is the style that the environment gives just
then, whatever is set later, and all reports and all answers about the process are in it. A step that asks for
the environment is told what that gives at the moment. No other step reads the settings, nor does a panic. -/
theorem Program.execute_style_fixed (program : Program) {host : Host} (unread : host.settings = none)
    {history : List Completed} {P : Process} (reach : (Process.start program host).Reaches history P) :
    let given (steps : List Completed) : Style :=
      (Settings.ofEnvironment (steps.foldl Completed.environmentAfter host.environment)).style
    let style := given (Completed.beforeUse history)
    (∀ t found, .call .settings t found ∈ history →
        (Completed.call .settings t found).answers = [.style style]) ∧
      (P.host.stderr = host.stderr ++ String.join (history.map (Completed.complaintIn style)) ∧
        (P.Ended → (program.execute host).stderr = P.host.stderr) ∧
        ∀ reason, P.Stops reason → (program.execute host).stderr = P.host.stderr ++ reason.complaint style) ∧
      (∀ before t found after, history = before ++ .call .environmentSettings t found :: after →
        (Completed.call .environmentSettings t found).answers = [.style (given before)]) ∧
      ((P.host.settings = none ↔ ∀ step ∈ history, step.usesStyle = false) ∧
        ∀ reason, P.Stops reason → (program.run {} host).host.settings = match reason with
          | .fault _ => some ⟨style⟩
          | .panic _ => P.host.settings) ∧
      ∀ environment, (∀ text, environment ≠ some (Utf8.encode text)) →
        (Settings.ofEnvironment environment).style = .plain := by
  intro given style
  have settled : P.host.activeSettings = ⟨style⟩ :=
    reach.activeSettings.trans (Host.settingsAfter_of_unread unread history)
  have complaints : history.map Completed.complaint = history.map (Completed.complaintIn style) := by
    rw [reach.complaint]
    exact congrArg (fun settings : Settings => history.map (Completed.complaintIn settings.style))
      (Host.settingsAfter_of_unread unread history)
  refine ⟨?_, ⟨?_, ?_, ?_⟩, ?_, ⟨?_, ?_⟩, fun _ => Settings.ofEnvironment_of_not_text⟩
  · intro t found member
    have same : found.activeSettings = ⟨style⟩ :=
      (reach.found_style member rfl).trans (Host.settingsAfter_of_unread unread history)
    change [Answer.style found.activeSettings.style] = _
    rw [same]
  · rw [← complaints]
    exact reach.stderr
  · intro ended
    simp only [execute, run_of_ended reach ended]
  · intro reason stops
    simp only [execute, run_of_stops reach stops, Host.stop_stderr, settled]
  · rintro before t found after rfl
    change [Answer.style (Settings.ofEnvironment found.environment).style] = _
    rw [reach.found.2]
    rfl
  · exact reach.unread_iff.trans (and_iff_right unread)
  · intro reason stops
    rw [run_of_stops reach stops]
    cases reason with
    | fault f => exact congrArg some settled
    | panic message => rfl

/-- The style is set and then used by a report inside a thread. It stays when the variable is removed, and
the call that stops the process is reported in it. -/
theorem Program.execute_style_fixed_inner_thread :
    let fancy : Option Bytes := some [0x66, 0x61, 0x6e, 0x63, 0x79]
    let rest : Program := .call (.setEnvironment none) (.call .settings (.call .environmentSettings
      (.call (.produce (.operation (.len none))) .done)))
    let program : Program := .call (.setEnvironment fancy) (.thread (.call (.report .zeroDivisor) .done) rest)
    let reported : Host := Host.report { environment := fancy } .zeroDivisor
    let found : Host := { reported with environment := none }
    (Completed.call .settings {} found).answers = [.style .fancy] ∧
      (Completed.call .environmentSettings {} found).answers = [.style .plain] ∧
      (program.execute {}).stderr = Fault.report .fancy .zeroDivisor ++ "\n" ++
        (Fault.report .fancy (.lengthOf "nil") ++ "\n") := by
  intro fancy rest program reported found
  have reach : (Process.start program {}).Reaches
      [.call (.setEnvironment fancy) {} {}, .call (.report .zeroDivisor) {} { environment := fancy },
        .joined {} reported, .call (.setEnvironment none) {} reported, .call .settings {} found,
        .call .environmentSettings {} found] _ :=
    .completes (.call rfl) (.enters .thread (.completes (.call rfl) (.completes .joined
      (.completes (.call rfl) (.completes (.call rfl) (.completes (.call rfl) .here))))))
  obtain ⟨asked, ⟨reports, _, last⟩, now, _⟩ := execute_style_fixed program rfl reach
  have fancyStyle : (Settings.ofEnvironment fancy).style = .fancy := by decide
  refine ⟨?_, now [_, _, _, _, _] _ _ [] rfl, ?_⟩
  · rw [asked {} found (by simp)]
    exact congrArg (fun style => [Answer.style style]) fancyStyle
  · have stderr := (last (.fault (.lengthOf "nil")) ⟨_, _, rfl, rfl⟩).trans (congrArg (· ++ _) reports)
    refine stderr.trans ((congrArg (fun style => "" ++ String.join ["", Fault.report style .zeroDivisor ++ "\n",
      "", "", "", ""] ++ (Fault.report style (.lengthOf "nil") ++ "\n")) fancyStyle).trans ?_)
    simp [String.join]

end TaggedRuntime
