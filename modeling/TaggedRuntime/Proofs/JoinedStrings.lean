import Mathlib.Logic.Relation
import TaggedRuntime.Proofs.ConsoleLines
import TaggedRuntime.Proofs.WholePart

namespace TaggedRuntime

/-- How a string came about: it was passed in, or it is one string after another. -/
inductive Joined
  | leaf (bytes : Bytes)
  | join (left right : Joined)

namespace Joined

/-- The strings that were passed in, from left to right. -/
def leaves : Joined → List Bytes
  | leaf bytes => [bytes]
  | join left right => left.leaves ++ right.leaves

/-- The whole, and all that it was joined from. -/
def parts : Joined → List Joined
  | leaf bytes => [leaf bytes]
  | join left right => join left right :: (left.parts ++ right.parts)

def bytes (tree : Joined) : Bytes := tree.leaves.flatten

theorem bytes_leaf (bytes : Bytes) : (leaf bytes).bytes = bytes := List.append_nil bytes

theorem bytes_join (left right : Joined) : (join left right).bytes = left.bytes ++ right.bytes :=
  List.flatten_append

theorem length_bytes (tree : Joined) : tree.bytes.length = (tree.leaves.map List.length).sum :=
  List.length_flatten

/-- Neither the brackets nor the empty leaves matter. -/
theorem bytes_eq {left right : Joined} (same : left.leaves.filter (· ≠ []) = right.leaves.filter (· ≠ [])) :
    left.bytes = right.bytes := by
  rw [bytes, ← List.flatten_filter_ne_nil, same, List.flatten_filter_ne_nil, bytes]

end Joined

/-- A text ends where its first zero stands. -/
theorem terminated_eq (text : Option Bytes) : terminated text = (text.getD []).take ((text.getD []).idxOf 0) := by
  rw [terminated, List.takeWhile_eq_take_findIdx_not, List.idxOf]
  simp only [bne, Bool.not_not]

namespace Production

/-- The string that is passed in: all its bytes are counted, or it ends before its first zero. -/
def string? : Production → Option Bytes
  | terminatedString text => some ((text.getD []).take ((text.getD []).idxOf 0))
  | sizedString data size => some ((data.getD []).take size)
  | _ => none

variable {p : Production} {t later : Thread} {v : Value}

theorem eval_of_string? {bytes : Bytes} (passed : p.string? = some bytes) (read : Operand → Value) :
    p.eval read = .ok (.string bytes) := by
  cases p with
  | terminatedString text =>
    cases passed
    rw [eval, terminated_eq]
  | sizedString data size =>
    cases passed
    rfl
  | _ => cases passed

/-- The call returns and leaves the host as it is, and its handle reads as the value. -/
def Gives (p : Production) (t : Thread) (v : Value) : Prop :=
  ∀ host, ∃ later, ((Call.produce p).run t host).thread = some later ∧ ((Call.produce p).run t host).host = host ∧
    later.read (some t.registers.length) = v

theorem run_of_eval (eval : p.eval t.read = .ok v) (host : Host) :
    (Call.produce p).run t host = .returnedHandle host t (t.publish v) := by
  simp only [Call.run, eval]

theorem returns_of_eval (eval : p.eval t.read = .ok v) (host : Host) :
    ((Call.produce p).run t host).thread = some (t.publish v) := by
  rw [run_of_eval eval]
  rfl

theorem gives_of_eval (eval : p.eval t.read = .ok v) : p.Gives t v :=
  fun host => ⟨t.publish v, returns_of_eval eval host, congrArg Outcome.host (run_of_eval eval host), t.read_publish v⟩

theorem eq_publish (eval : p.eval t.read = .ok v) {host : Host}
    (returns : ((Call.produce p).run t host).thread = some later) : later = t.publish v :=
  Option.some.inj (returns.symm.trans (returns_of_eval eval host))

end Production

namespace Thread

/-- A call of the thread has returned. -/
def Calls (t later : Thread) : Prop := ∃ c host, (Call.run c t host).thread = some later

/-- Any number of calls have returned. -/
def Becomes : Thread → Thread → Prop := Relation.ReflTransGen Calls

/-- The handle in a register has a place where the value is read. -/
def Keeps (t : Thread) (register : Nat) (v : Value) : Prop :=
  ∃ ref, t.registers[register]? = some (some ref) ∧ t.heap.Holds ref ∧ t.heap.read ref = v

/-- The handle in a register is that of a string joined as the tree says: calls that passed the leaves in have returned,
and so have the sums of the parts' handles. Other calls may have returned in between, and a handle may be used again. -/
inductive Builds : Thread → Nat → Joined → Prop
  | passed {t t' host p bytes} : Production.string? p = some bytes →
      ((Call.produce p).run t host).thread = some t' → Builds t' t.registers.length (.leaf bytes)
  | sum {t t' host i j left right} : Builds t i left → Builds t j right →
      ((Call.produce (.operation (.binary .add (some i) (some j)))).run t host).thread = some t' →
      Builds t' t.registers.length (.join left right)
  | later {t t' c host register tree} : Builds t register tree → (Call.run c t host).thread = some t' →
      Builds t' register tree

variable {t later : Thread} {register : Nat} {v : Value} {tree : Joined}

theorem Grows.trans {middle : Thread} (first : t.Grows middle) (second : middle.Grows later) : t.Grows later :=
  ⟨List.IsPrefix.trans first.heap second.heap, first.registers.trans second.registers⟩

theorem Grows.kept {handle : Handle} (grows : t.Grows later) (given : t.registers[register]? = some handle) :
    later.registers[register]? = some handle := by
  obtain ⟨before, same⟩ := List.getElem?_eq_some_iff.mp given
  rw [List.prefix_iff_getElem?.mp grows.registers register before, same]

theorem Becomes.grows (becomes : t.Becomes later) : t.Grows later := by
  induction becomes with
  | refl => exact .refl t
  | tail _ call ih =>
    obtain ⟨c, host, returns⟩ := call
    exact ih.trans (Call.run_grows returns)

theorem publish_keeps (t : Thread) (v : Value) : (t.publish v).Keeps t.registers.length v :=
  ⟨_, List.getElem?_concat_length, t.heap.alloc_holds v, t.heap.read_alloc v⟩

theorem Keeps.read (keeps : t.Keeps register v) : t.read (some register) = v := by
  obtain ⟨ref, given, _, reads⟩ := keeps
  rw [Thread.read, handle, List.getD_eq_getElem?_getD, given]
  exact reads

theorem Keeps.grows (keeps : t.Keeps register v) (grows : t.Grows later) :
    later.Keeps register v ∧ later.handle (some register) = t.handle (some register) := by
  obtain ⟨ref, given, holds, reads⟩ := keeps
  have same := grows.kept given
  refine ⟨⟨ref, same, grows.heap.holds holds, (grows.heap.read holds).trans reads⟩, ?_⟩
  rw [handle, handle, List.getD_eq_getElem?_getD, List.getD_eq_getElem?_getD, given, same]

theorem Builds.becomes (builds : t.Builds register tree) (becomes : t.Becomes later) : later.Builds register tree := by
  induction becomes with
  | refl => exact builds
  | tail _ call ih =>
    obtain ⟨c, host, returns⟩ := call
    exact ih.later returns

theorem add_eval {i j : Nat} {s u : Bytes} (left : t.read (some i) = .string s) (right : t.read (some j) = .string u) :
    (Production.operation (.binary .add (some i) (some j))).eval t.read = .ok (.string (s ++ u)) := by
  simp only [Production.eval, Operation.named, BinaryOp.named, left, right, Value.add]

/-- All calls keep to this: a built handle reads as the leaves' bytes. -/
theorem Builds.keeps (builds : t.Builds register tree) : t.Keeps register (.string tree.bytes) := by
  induction builds with
  | @passed t _ _ _ bytes passed returns =>
    rw [Production.eq_publish (Production.eval_of_string? passed t.read) returns, Joined.bytes_leaf]
    exact t.publish_keeps _
  | @sum t _ _ _ _ _ _ _ _ returns left right =>
    rw [Production.eq_publish (add_eval left.read right.read) returns, Joined.bytes_join]
    exact t.publish_keeps _
  | later _ returns ih => exact (ih.grows (Call.run_grows returns)).1

theorem Builds.read (builds : t.Builds register tree) : t.read (some register) = .string tree.bytes := builds.keeps.read

/-- The handles of the parts are still there. -/
theorem Builds.part (builds : t.Builds register tree) {part : Joined} (member : part ∈ tree.parts) :
    ∃ i, t.Builds i part := by
  induction builds with
  | passed passed returns =>
    obtain rfl := List.mem_singleton.mp member
    exact ⟨_, .passed passed returns⟩
  | sum left right returns inLeft inRight =>
    rcases List.mem_cons.mp member with rfl | member
    · exact ⟨_, .sum left right returns⟩
    · rcases List.mem_append.mp member with member | member
      · exact (inLeft member).imp fun _ built => built.later returns
      · exact (inRight member).imp fun _ built => built.later returns
  | later _ returns ih => exact (ih member).imp fun _ built => built.later returns

/-- Whatever a thread has done, it can go on to join strings as any tree says. -/
theorem exists_builds (t : Thread) (tree : Joined) : ∃ later register, t.Becomes later ∧ later.Builds register tree := by
  induction tree generalizing t with
  | leaf bytes =>
    have passed : (Production.sizedString (some bytes) bytes.length).string? = some bytes :=
      congrArg some List.take_length
    obtain ⟨later, returns, _⟩ := Production.gives_of_eval (Production.eval_of_string? passed t.read) {}
    exact ⟨later, _, .single ⟨_, _, returns⟩, .passed passed returns⟩
  | join left right first second =>
    obtain ⟨middle, i, begun, left⟩ := first t
    obtain ⟨further, j, gone, right⟩ := second middle
    -- the first handle is still there when the second has been made
    have left := left.becomes gone
    obtain ⟨later, returns, _⟩ := Production.gives_of_eval (add_eval left.read right.read) {}
    exact ⟨later, _, (begun.trans gone).tail ⟨_, _, returns⟩, .sum left right returns⟩

/-- Strings are kept byte for byte. What is passed in with its length is read as it is, and a text is read up to its first
zero. However strings are joined, the handle reads as the leaves' bytes from left to right, prints these bytes and gives
their number as its length; two that are joined from the same leaves are equal, empty leaves aside. The handle and those
of all the parts read so from then on. -/
theorem joined_strings :
    (∀ t text size, (Production.sizedString (some text) size).Gives t (.string (text.take size))) ∧
      (∀ t text, ∃ v, (Production.terminatedString (some text)).Gives t v ∧
        (Production.sizedString (some text) (text.idxOf 0)).Gives t v) ∧
      (∀ t tree, ∃ later register, Becomes t later ∧ later.Builds register tree) ∧
      (∀ t i j left right, Builds t i left → t.Builds j right →
        (Production.operation (.binary .add (some i) (some j))).Gives t
            (.string (left.leaves.flatten ++ right.leaves.flatten)) ∧
          (left.leaves.filter (· ≠ []) = right.leaves.filter (· ≠ []) →
            (Production.operation (.binary .equal (some i) (some j))).Gives t (.bool true))) ∧
      ∀ t register tree, Builds t register tree →
        t.read (some register) = .string tree.leaves.flatten ∧
          (∀ host, ((Call.output (.value (some register))).run t host).Prints host tree.leaves.flatten) ∧
          ((tree.leaves.map List.length).sum ≤ 2 ^ 53 →
            ∃ x, (Production.operation (.len (some register))).Gives t (.number x) ∧
              x.value? = some ((tree.leaves.map List.length).sum : ℚ)) ∧
          (∀ later, t.Becomes later →
            later.handle (some register) = t.handle (some register) ∧
              later.read (some register) = t.read (some register)) ∧
          ∀ part ∈ tree.parts, ∃ i, t.Builds i part := by
  refine ⟨fun t text size => ?_, fun t text => ?_, exists_builds, fun t i j left right first second => ⟨?_, ?_⟩,
    fun t register tree builds => ⟨builds.read, fun host => ?_, fun small => ?_, fun later becomes => ?_,
      fun part => builds.part⟩⟩
  · exact Production.gives_of_eval rfl
  · exact ⟨.string (text.take (text.idxOf 0)), Production.gives_of_eval (Production.eval_of_string? rfl t.read),
      Production.gives_of_eval rfl⟩
  · exact Production.gives_of_eval (add_eval first.read second.read)
  · intro same
    refine Production.gives_of_eval ?_
    simp only [Production.eval, Operation.named, BinaryOp.named, first.read, second.read, Value.equal, Value.same,
      Joined.bytes_eq same, beq_self_eq_true]
  · have shown := (Output.value (some register)).run_prints t host
    rwa [Output.bytes, builds.read] at shown
  · refine ⟨.ofInt tree.bytes.length, Production.gives_of_eval ?_, ?_⟩
    · simp only [Production.eval, Operation.named, builds.read, Value.len]
    · rw [← tree.length_bytes] at small ⊢
      exact Binary64.value?_ofInt (Binary64.representable_whole small)
  · obtain ⟨kept, same⟩ := builds.keeps.grows becomes.grows
    exact ⟨same, kept.read.trans builds.read.symm⟩

/-- One string with a zero and a byte that is no text is joined with itself, and with an empty text in between. -/
theorem joined_strings_shared_leaf :
    let passed := Thread.publish {} (.string [0x61, 0, 0xff])
    let empty := passed.publish (.string [])
    let twice := empty.publish (.string [0x61, 0, 0xff, 0x61, 0, 0xff])
    let after := twice.publish (.string [0x61, 0, 0xff])
    let t := after.publish (.string [0x61, 0, 0xff, 0x61, 0, 0xff])
    (Production.operation (.binary .equal (some 2) (some 4))).Gives t (.bool true) ∧
      (∃ x, (Production.operation (.len (some 4))).Gives t (.number x) ∧ x.value? = some 6) ∧
      t.read (some 0) = .string [0x61, 0, 0xff] := by
  intro passed empty twice after t
  have first := Production.returns_of_eval (p := .sizedString (some [0x61, 0, 0xff, 0x62]) 3) (t := {}) rfl {}
  have second := Production.returns_of_eval (p := .terminatedString (some [0, 0x62])) (t := passed) rfl {}
  have third := Production.returns_of_eval (p := .operation (.binary .add (some 0) (some 0))) (t := empty) rfl {}
  have fourth := Production.returns_of_eval (p := .operation (.binary .add (some 1) (some 0))) (t := twice) rfl {}
  have fifth := Production.returns_of_eval (p := .operation (.binary .add (some 0) (some 3))) (t := after) rfl {}
  have leaf : empty.Builds 0 (.leaf [0x61, 0, 0xff]) := (Builds.passed rfl first).later second
  have none : empty.Builds 1 (.leaf []) := .passed rfl second
  have both : twice.Builds 2 _ := leaf.sum leaf third
  have inner : after.Builds 3 _ := (none.later third).sum (leaf.later third) fourth
  have whole : t.Builds 4 _ := ((leaf.later third).later fourth).sum inner fifth
  obtain ⟨_, _, _, two, one⟩ := joined_strings
  refine ⟨(two t 2 4 _ _ ((both.later fourth).later fifth) whole).2 rfl, ?_, ?_⟩
  · exact (one t 4 _ whole).2.2.1 (by decide)
  · exact (one t 0 _ (((leaf.later third).later fourth).later fifth)).1

end Thread

end TaggedRuntime
