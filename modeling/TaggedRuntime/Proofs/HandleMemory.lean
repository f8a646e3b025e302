import TaggedRuntime.Proofs.Growth
import TaggedRuntime.Proofs.Process

namespace TaggedRuntime

namespace Thread

theorem handle_keep (t : Thread) (h : Handle) : (t.keep h).handle (some t.registers.length) = h := by
  simp [handle, keep]

theorem handle_publish (t : Thread) (v : Value) :
    (t.publish v).handle (some t.registers.length) = some (t.heap.alloc v).1 := by
  simp [handle, publish]

end Thread

/-- A call that gives a handle names the new register, the handle in it and the value the handle reads as. -/
theorem Outcome.returnedHandle_answers (host : Host) (before after : Thread) {handle : Handle}
    (newest : after.handle (some before.registers.length) = handle) :
    (returnedHandle host before after).events.filterMap Event.answer? =
      [.handle before.registers.length handle (after.deref handle) (before.registers.findIdx? (· == handle))] := by
  subst handle
  rfl

/-- A call that returns leaves its thread as it was and gives no handle, or it gives the handle in the one
new register: the null handle, or that of a value in its place. -/
theorem Call.run_answers {c : Call} {t later : Thread} {host : Host}
    (returns : (c.run t host).thread = some later) :
    later = t ∧ (∀ register handle v first,
        .handle register handle v first ∉ (Completed.call c t host).answers) ∨
      ∃ handle v, (handle = none ∧ v = .nil ∧ later = t.keep none ∨
          handle = some (t.heap.alloc v).1 ∧ later = t.publish v) ∧
        (Completed.call c t host).answers =
          [.handle t.registers.length handle v (t.registers.findIdx? (· == handle))] := by
  simp only [Completed.answers, Completed.events, Completed.outcome]
  cases c with
  | null =>
    refine .inr ⟨none, .nil, .inl ⟨rfl, rfl, (Option.some.inj returns).symm⟩, ?_⟩
    exact Outcome.returnedHandle_answers host t _ (t.handle_keep none)
  | produce p =>
    cases result : p.eval t.read with
    | error f =>
      simp only [run, result] at returns
      cases returns
    | ok v =>
      simp only [run, result] at returns ⊢
      refine .inr ⟨_, v, .inr ⟨rfl, (Option.some.inj returns).symm⟩, ?_⟩
      rw [Outcome.returnedHandle_answers host t _ (t.handle_publish v)]
      simp [Thread.deref, Thread.publish]
  | abort a => cases returns
  | output o =>
    refine .inl ⟨(Option.some.inj returns).symm, ?_⟩
    simp [run, Outcome.returned, host.emit_answers, Event.answer?]
  | query q =>
    refine .inl ⟨(Option.some.inj returns).symm, ?_⟩
    cases q <;> simp [run, Outcome.returned, Event.answer?, Query.answer]
  | install bytes =>
    refine .inl ⟨(Option.some.inj returns).symm, ?_⟩
    cases sink : host.sink <;> simp [run, Outcome.returned, Host.install, sink, Event.answer?]
  | _ => exact .inl ⟨(Option.some.inj returns).symm, by simp [run, Outcome.returned, Event.answer?]⟩

/-- A handle that a call gives is in its register afterwards and reads as the value given with it. -/
theorem Call.run_gives {c : Call} {t later : Thread} {host : Host}
    (returns : (c.run t host).thread = some later) {register : Nat} {handle : Handle} {v : Value}
    {first : Option Nat} (given : .handle register handle v first ∈ (Completed.call c t host).answers) :
    later.registers[register]? = some handle ∧ later.deref handle = v := by
  rcases run_answers returns with ⟨_, none⟩ | ⟨_, _, kept, answers⟩
  · exact absurd given (none _ _ _ _)
  · simp only [answers, List.mem_singleton, Answer.handle.injEq] at given
    obtain ⟨rfl, rfl, rfl, _⟩ := given
    rcases kept with ⟨rfl, rfl, rfl⟩ | ⟨rfl, rfl⟩
    · exact ⟨by simp [Thread.keep], rfl⟩
    · exact ⟨by simp [Thread.publish], t.heap.read_alloc v⟩

namespace Thread

/-- Every handle that a step of the thread gave is still in its register and reads as it did. -/
structure Remembers (t : Thread) (log : List Answer) : Prop where
  sound : t.Sound
  kept : ∀ register handle v first, .handle register handle v first ∈ log →
    t.registers[register]? = some handle ∧ t.deref handle = v

theorem remembers_fresh : Remembers {} [] := ⟨sound_fresh, by simp⟩

theorem Remembers.call {t later : Thread} {c : Call} {log : List Answer} {host : Host}
    (returns : (c.run t host).thread = some later) (remembers : t.Remembers log) :
    later.Remembers (log ++ (Completed.call c t host).answers) := by
  refine ⟨Call.run_sound returns remembers.sound, ?_⟩
  intro register handle v first given
  rcases List.mem_append.mp given with old | new
  · obtain ⟨inRegister, reads⟩ := remembers.kept register handle v first old
    have grows := Call.run_grows returns
    obtain ⟨before, _⟩ := List.getElem?_eq_some_iff.mp inRegister
    refine ⟨?_, (remembers.sound.deref grows (List.mem_of_getElem? inRegister)).trans reads⟩
    rw [List.prefix_iff_getElem?.mp grows.registers register before, ← inRegister,
      List.getElem?_eq_getElem before]
  · exact Call.run_gives returns new

theorem Remembers.joined {t : Thread} {log : List Answer} {host : Host} (remembers : t.Remembers log) :
    t.Remembers (log ++ (Completed.joined t host).answers) := by
  refine ⟨remembers.sound, ?_⟩
  intro register handle v first given
  rcases List.mem_append.mp given with old | new
  · exact remembers.kept register handle v first old
  · simp [Completed.answers, Completed.events, Completed.outcome, Outcome.returned, Event.answer?] at new

end Thread

namespace Process

/-- All threads of the process remember. -/
def Remembers (P : Process) : Prop := ∀ frame ∈ P.running :: P.waiting, frame.thread.Remembers frame.log

theorem Reaches.remembers {P Q : Process} {history : List Completed} (reach : P.Reaches history Q)
    (remembers : P.Remembers) : Q.Remembers :=
  reach.frames Thread.remembers_fresh (fun returns => .call returns) .joined remembers

theorem start_remembers (program : Program) (host : Host) : (start program host).Remembers :=
  List.forall_mem_cons.mpr ⟨Thread.remembers_fresh, by simp [start]⟩

end Process

end TaggedRuntime
