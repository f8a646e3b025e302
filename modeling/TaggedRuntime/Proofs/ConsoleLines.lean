import TaggedRuntime.Proofs.HandleMemory
import TaggedRuntime.Proofs.SinkStep
import TaggedRuntime.Proofs.WholeNumber

namespace TaggedRuntime

theorem Thread.read_publish (t : Thread) (v : Value) : (t.publish v).read (some t.registers.length) = v := by
  rw [read, handle_publish]
  exact t.heap.read_alloc v

/-- What is done to the platform when these bytes are printed: they are written at once and then flushed, and
nothing else about the host changes. -/
structure Outcome.Prints (outcome : Outcome) (host : Host) (bytes : Bytes) : Prop where
  effects : outcome.events.filter Event.isEffect = host.traced [.wrote bytes, .flushed]
  host : outcome.host = { host with sink := some (host.activeSink.write bytes) }

theorem Output.run_prints (o : Output) (t : Thread) (host : Host) :
    ((Call.output o).run t host).Prints host (o.bytes t.read) := by
  refine ⟨?_, rfl⟩
  simp only [Call.run, Outcome.returned, Host.emit, Host.traced]
  split <;> rfl

/-- The call prints the line of a value without making that value. What goes to the platform is what goes there if
the value is made and the line of its handle is printed, whatever the thread and the host are. -/
def Output.PrintsLineOf (o : Output) (p : Production) : Prop :=
  ∀ (t : Thread) (host : Host), ∃ t' bytes,
    ((Call.produce p).run t host).thread = some t' ∧
      ((Call.produce p).run t host).host = host ∧
      ((Call.produce p).run t host).events.filter Event.isEffect = [] ∧
      ((Call.output (.valueLine (some t.registers.length))).run t' host).Prints host bytes ∧
      ((Call.output o).run t host).Prints host bytes

namespace Output

theorem printsLineOf {o : Output} {p : Production} {v : Value} (makes : ∀ read, p.eval read = .ok v)
    (line : ∀ read, o.bytes read = v.written ++ [lineFeed]) : o.PrintsLineOf p := by
  intro t host
  have made : (Call.produce p).run t host = .returnedHandle host t (t.publish v) := by
    simp only [Call.run, makes]
  have shown := (valueLine (some t.registers.length)).run_prints (t.publish v) host
  rw [bytes, t.read_publish, ← line t.read] at shown
  exact ⟨t.publish v, _, by rw [made]; rfl, by rw [made]; rfl, by rw [made]; rfl, shown, o.run_prints t host⟩

/-- A 32-bit number is written in the same digits as a number and as a double. -/
theorem intLine_bytes (n : Int32) (read : Operand → Value) :
    (intLine n).bytes read = (Value.number (.ofInt n.toInt)).written ++ [lineFeed] := by
  have small : n.toInt.natAbs ≤ 2 ^ 53 := by
    have lower := n.le_toInt
    have upper := n.toInt_lt
    omega
  simp only [bytes, Value.written, Binary64.text_ofInt small, Utf8.encode, String.toList_ofList]

/-- The three calls that print a line of a text, a 32-bit number or a boolean make the same calls to the platform
as printing the line of the value made from it: one write of the same bytes and one flush. -/
theorem console_lines :
    (∀ text, (textLine text).PrintsLineOf (.terminatedString text)) ∧
      (∀ n : Int32, (intLine n).PrintsLineOf (.constant (.number (.ofInt n.toInt)))) ∧
      ∀ b, (boolLine b).PrintsLineOf (.constant (.bool b)) :=
  ⟨fun _ => printsLineOf (fun _ => rfl) fun _ => rfl,
    fun n => printsLineOf (fun _ => rfl) (intLine_bytes n),
    fun _ => printsLineOf (fun _ => rfl) fun _ => rfl⟩

end Output

end TaggedRuntime
