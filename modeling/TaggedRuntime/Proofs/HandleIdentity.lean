import TaggedRuntime.Proofs.HandleMemory
import TaggedRuntime.Proofs.Places
import TaggedRuntime.Proofs.SinkStep

namespace TaggedRuntime

/-- The number of values alive that a step shows when it returns. -/
def Event.live? : Event → Option Nat
  | returned _ live _ => some live
  | wrote _ | flushed => none

/-- The step gave a handle of a number, a string or a function. -/
def Answer.boxed : Answer → Bool
  | handle _ _ v _ => v.boxed
  | _ => false

namespace Thread

/-- Both handles are null, or neither is and they read as nil both, or as the same boolean. -/
def Identical (t : Thread) (a b : Handle) : Prop :=
  a = none ∧ b = none ∨ a ≠ none ∧ b ≠ none ∧ (t.deref a).SharePlace (t.deref b)

theorem Identical.symm {t : Thread} {a b : Handle} (identical : t.Identical a b) : t.Identical b a := by
  rcases identical with ⟨left, right⟩ | ⟨left, right, share⟩
  · exact .inl ⟨right, left⟩
  · exact .inr ⟨right, left, share.symm⟩

/-- What a thread's heap and registers have to do with the answers to its steps: a slot for each value that
needs one, and no two registers with one handle but for null handles and shared values. -/
structure Accounts (t : Thread) (log : List Answer) : Prop where
  sound : t.Sound
  regular : t.heap.Regular
  counted : t.heap.live = log.countP Answer.boxed
  apart : t.registers.Pairwise fun a b => b = a ↔ t.Identical b a

theorem accounts_fresh : Accounts {} [] := ⟨sound_fresh, Heap.regular_empty, rfl, .nil⟩

theorem apart_keep_none {t : Thread} (apart : t.registers.Pairwise fun a b => b = a ↔ t.Identical b a) :
    (t.keep none).registers.Pairwise fun a b => b = a ↔ (t.keep none).Identical b a := by
  refine List.pairwise_append.mpr ⟨apart, List.pairwise_singleton _ _, ?_⟩
  intro a _ b new
  cases List.mem_singleton.mp new
  cases a with
  | none => simp [Identical]
  | some ref => simp [Identical]

/-- The handle of a new value is one that the thread has only if both are of one shared value. -/
theorem Sound.apart_publish {t : Thread} (sound : t.Sound) (regular : t.heap.Regular) (v : Value)
    (apart : t.registers.Pairwise fun a b => b = a ↔ t.Identical b a) :
    (t.publish v).registers.Pairwise fun a b => b = a ↔ (t.publish v).Identical b a := by
  have kept : ∀ a ∈ t.registers, (t.publish v).deref a = t.deref a :=
    fun a given => sound.deref (t.publish_grows v) given
  refine List.pairwise_append.mpr ⟨?_, List.pairwise_singleton _ _, ?_⟩
  · refine apart.imp_of_mem fun {a b} givenA givenB same => ?_
    rw [same, Identical, Identical, kept a givenA, kept b givenB]
  · intro a given b new
    cases List.mem_singleton.mp new
    have reads : (t.publish v).deref (some (t.heap.alloc v).1) = v := t.heap.read_alloc v
    rw [Identical, reads, kept a given]
    cases a with
    | none => simp
    | some ref =>
      have place := regular.alloc_eq_iff (sound ref given) v
      simpa [Thread.deref] using place

theorem Accounts.call {t later : Thread} {c : Call} {log : List Answer} {host : Host}
    (returns : (c.run t host).thread = some later) (accounts : t.Accounts log) :
    later.Accounts (log ++ (Completed.call c t host).answers) := by
  have sound := Call.run_sound returns accounts.sound
  rcases Call.run_answers returns with ⟨rfl, silent⟩ | ⟨handle, v, kept, answers⟩
  · refine ⟨sound, accounts.regular, ?_, accounts.apart⟩
    have none : (Completed.call c later host).answers.countP Answer.boxed = 0 := by
      refine List.countP_eq_zero.mpr fun answer member => ?_
      cases answer with
      | handle => exact absurd member (silent _ _ _ _)
      | _ => exact Bool.false_ne_true
    rw [List.countP_append, none, accounts.counted, Nat.add_zero]
  · rw [answers]
    rcases kept with ⟨rfl, rfl, rfl⟩ | ⟨rfl, rfl⟩
    · refine ⟨sound, accounts.regular, ?_, apart_keep_none accounts.apart⟩
      rw [List.countP_append, ← accounts.counted]
      rfl
    · refine ⟨sound, accounts.regular.alloc v, ?_, accounts.sound.apart_publish accounts.regular v accounts.apart⟩
      rw [List.countP_append, ← accounts.counted, List.countP_singleton]
      exact t.heap.live_alloc v

theorem Accounts.joined {t : Thread} {log : List Answer} {host : Host} (accounts : t.Accounts log) :
    t.Accounts (log ++ (Completed.joined t host).answers) := by
  refine ⟨accounts.sound, accounts.regular, ?_, accounts.apart⟩
  rw [List.countP_append, ← accounts.counted]
  rfl

theorem Accounts.identical_iff {t : Thread} {log : List Answer} (accounts : t.Accounts log) {i j : Nat}
    {a b : Handle} (other : i ≠ j) (atI : t.registers[i]? = some a) (atJ : t.registers[j]? = some b) :
    a = b ↔ t.Identical a b := by
  obtain ⟨inI, rfl⟩ := List.getElem?_eq_some_iff.mp atI
  obtain ⟨inJ, rfl⟩ := List.getElem?_eq_some_iff.mp atJ
  have apart := List.pairwise_iff_getElem.mp accounts.apart
  rcases Nat.lt_or_gt_of_ne other with before | after
  · have same := apart i j inI inJ before
    exact ⟨fun equal => (same.mp equal.symm).symm, fun identical => (same.mpr identical.symm).symm⟩
  · exact apart j i inJ inI after

end Thread

namespace Process

theorem start_accounts (program : Program) (host : Host) :
    ∀ frame ∈ (start program host).running :: (start program host).waiting,
      frame.thread.Accounts frame.log :=
  List.forall_mem_cons.mpr ⟨Thread.accounts_fresh, by simp [start]⟩

theorem Reaches.accounts {program : Program} {host : Host} {P : Process} {history : List Completed}
    (reach : (start program host).Reaches history P) :
    ∀ frame ∈ P.running :: P.waiting, frame.thread.Accounts frame.log :=
  reach.frames Thread.accounts_fresh (fun returns => .call returns) .joined (start_accounts program host)

theorem Completes.live {P Q : Process} {step : Completed} (complete : P.Completes step Q) :
    step.events.filterMap Event.live? = [Q.running.thread.heap.live] := by
  obtain ⟨_, shown⟩ := complete.returned Event.live? (fun _ => rfl) rfl
  exact shown

/-- A thread that has run to its end leaves the one around it as it was. -/
theorem thread_returns (t : Thread) (body rest : Program) (log : List Answer) (waiting : List Frame)
    (host : Host) :
    (∃ inside found, Reaches ⟨⟨t, .thread body rest, log⟩, waiting, host⟩ (inside ++ [.joined t found])
        ⟨⟨t, rest, log ++ [.none]⟩, waiting, found⟩) ∨
      ∃ inside Q reason, Reaches ⟨⟨t, .thread body rest, log⟩, waiting, host⟩ inside Q ∧ Q.Stops reason := by
  have runs := body.run_runs {} host [] (⟨t, rest, log⟩ :: waiting)
  generalize body.run {} host = inner at runs
  cases runs with
  | ended reach => exact .inl ⟨_, _, .enters .thread (reach.trans (.completes .joined .here))⟩
  | stopped reach stops => exact .inr ⟨_, _, _, .enters .thread reach, stops⟩

end Process

/-- Handles and the number of values alive, for any addresses of the values. Of values allocated in order, each
is given a pointer that reads as it from then on, nil and the booleans their fixed ones; two pointers are equal
only for the same shared value, and the heap has grown by the values that have none. Hence a thread has as
many values alive as its steps gave handles of such values, from zero when it begins, and none for what a
thread inside it does; and its registers hold one pointer twice only if that is null or of a shared value. -/
theorem Program.run_handle_identity {α : Type} (A : Addresses α) :
    (∀ values : List Value, (Heap.allocAll {} values).length = values.length ∧
      ∀ k v, values[k]? = some v → ∃ ref heap, (Heap.allocAll {} values)[k]? = some (ref, heap) ∧
        heap.live = (values.take (k + 1)).countP Value.boxed ∧
        (v = .nil → A.pointer (some ref) = A.nil) ∧ (∀ b, v = .bool b → A.pointer (some ref) = A.bool b) ∧
        (∀ j later, k ≤ j → (Heap.allocAll {} values)[j]? = some later → later.2.read ref = v) ∧
        ∀ j w other, k ≠ j → values[j]? = some w → (Heap.allocAll {} values)[j]? = some other →
          (A.pointer (some ref) = A.pointer (some other.1) ↔ v.SharePlace w)) ∧
    ∀ program host history P, (Process.start program host).Reaches history P →
      (∀ step Q, P.Completes step Q →
        step.events.filterMap Event.live? = [Q.running.log.countP Answer.boxed]) ∧
      (∀ body rest, P.running.rest = .thread body rest →
        (∀ Q, P.Enters Q → Q.running.thread.heap.live = 0 ∧ Q.running.log = []) ∧
        ((∃ inside found, P.Reaches (inside ++ [.joined P.running.thread found])
            ⟨⟨P.running.thread, rest, P.running.log ++ [.none]⟩, P.waiting, found⟩) ∨
          ∃ inside Q reason, P.Reaches inside Q ∧ Q.Stops reason)) ∧
      ∀ frame ∈ P.running :: P.waiting, frame.thread.heap.live = frame.log.countP Answer.boxed ∧
        ∀ (i j : Nat) (a b : Handle), i ≠ j → frame.thread.registers[i]? = some a →
          frame.thread.registers[j]? = some b → (A.pointer a = A.pointer b ↔ frame.thread.Identical a b) := by
  refine ⟨fun values => ⟨Heap.length_allocAll {} values, ?_⟩, ?_⟩
  · intro k v atK
    have given (j : Nat) {w : Value} (atJ : values[j]? = some w) :
        (Heap.allocAll {} values)[j]? = some ((Heap.after {} (values.take j)).alloc w) := by
      rw [Heap.getElem?_allocAll, atJ]
      rfl
    refine ⟨((Heap.after {} (values.take k)).alloc v).1, ((Heap.after {} (values.take k)).alloc v).2,
      given k atK, ?_, ?_, ?_, ?_, ?_⟩
    · rw [← Heap.after_take_succ {} atK, Heap.live_after]
      exact Nat.zero_add _
    · rintro rfl
      rfl
    · rintro b rfl
      rfl
    · intro j later order atLater
      obtain ⟨w, atJ, rfl⟩ := Option.map_eq_some_iff.mp ((Heap.getElem?_allocAll {} values j).symm.trans atLater)
      rw [← Heap.after_take_succ {} atJ]
      exact (Heap.after_take_read {} atK (Nat.lt_succ_of_le order)).2
    · intro j w place other atJ atPlace
      cases (given j atJ).symm.trans atPlace
      rw [A.pointer_inj, Option.some.injEq]
      exact Heap.regular_empty.place_eq_iff atK atJ other
  · intro program host history P reach
    have accounts := reach.accounts
    refine ⟨?_, ?_, ?_⟩
    · intro step Q complete
      have whole : (Process.start program host).Reaches (history ++ [step]) Q :=
        reach.trans (.completes complete .here)
      rw [complete.live, (whole.accounts Q.running (List.mem_cons_self ..)).counted]
    · intro body rest next
      refine ⟨?_, ?_⟩
      · intro Q enter
        cases enter
        exact ⟨rfl, rfl⟩
      · obtain ⟨⟨t, _, log⟩, waiting, host'⟩ := P
        cases next
        exact Process.thread_returns t body rest log waiting host'
    · intro frame member
      refine ⟨(accounts frame member).counted, ?_⟩
      intro i j a b other atI atJ
      exact A.pointer_inj.trans ((accounts frame member).identical_iff other atI atJ)

/-- One string is made twice before a thread runs that makes another value; the boolean among those allocated
is in its fixed place. -/
theorem Program.run_handle_identity_inner_thread :
    let outer : Thread := (Thread.publish {} (.string [0x61])).publish (.string [0x61])
    (∃ ref heap, (Heap.allocAll {} [.string [0x61], .bool true])[1]? = some (ref, heap) ∧ heap.live = 1 ∧
        Addresses.consecutive.pointer (some ref) = 3) ∧
      (Completed.joined outer {}).events.filterMap Event.live? = [2] ∧
      ¬outer.Identical (some (.slot 0)) (some (.slot 1)) := by
  intro outer
  let text : Call := .produce (.constant (.string [0x61]))
  obtain ⟨allocations, runs⟩ := run_handle_identity Addresses.consecutive
  obtain ⟨ref, heap, given, live, _, bool, _⟩ := (allocations [.string [0x61], .bool true]).2 1 _ rfl
  have reach : (Process.start (.call text (.call text (.thread (.call text .done) .done))) {}).Reaches _ _ :=
    .completes (.call rfl) (.completes (.call rfl) (.enters .thread (.completes (.call rfl) .here)))
  obtain ⟨shown, _, frames⟩ := runs _ _ _ _ reach
  obtain ⟨_, apart⟩ := frames ⟨outer, .done, _⟩ (List.mem_cons_of_mem _ (List.mem_singleton.mpr rfl))
  refine ⟨⟨ref, heap, given, live, bool true rfl⟩, shown _ _ .joined, ?_⟩
  intro identical
  cases (apart 0 1 _ _ Nat.zero_ne_one rfl rfl).mpr identical

end TaggedRuntime
