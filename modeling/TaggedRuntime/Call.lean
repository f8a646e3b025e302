import TaggedRuntime.Host
import TaggedRuntime.Template

namespace TaggedRuntime

/-- The bytes of a text that compiled code passes: it ends before its first zero, and no text is empty. -/
def terminated (text : Option Bytes) : Bytes := (text.getD []).takeWhile (· != 0)

/-- A value made from constants or from operands. -/
inductive Production
  | constant (v : Value)
  | terminatedString (text : Option Bytes)
  | sizedString (data : Option Bytes) (size : Nat)
  | operation (op : Operation)
  deriving DecidableEq

inductive Query
  | isKind (kind : Kind) (a : Operand)
  | isTruthy (a : Operand)
  | typeName (a : Operand)
  | tagName (tag : UInt32)
  deriving DecidableEq

inductive Output
  | value (a : Operand)
  | valueLine (a : Operand)
  | textLine (text : Option Bytes)
  | intLine (n : Int32)
  | boolLine (b : Bool)
  deriving DecidableEq

/-- A reason to stop, as compiled code gives it. An argument count without arguments counts none. -/
inductive Abort
  | raise (message : Option Bytes)
  | raiseFilled (template : Option Bytes) (args : Option (List Operand)) (count : Nat)
  | panic (message : Option Bytes)
  deriving DecidableEq

/-- An entry point of the runtime, with its arguments. -/
inductive Call
  | null
  | produce (p : Production)
  | query (q : Query)
  | output (o : Output)
  | abort (a : Abort)
  | report (f : Fault)
  | settings
  | environmentSettings
  | setEnvironment (value : Option Bytes)
  | install (bytes : Bytes)
  deriving DecidableEq

def Production.eval (read : Operand → Value) : Production → Except Fault Value
  | constant v => .ok v
  | terminatedString text => .ok (.string (terminated text))
  | sizedString data size => .ok (.string ((data.getD []).take size))
  | operation op => op.named read

def Query.answer (read : Operand → Value) : Query → Answer
  | isKind kind a => .truth ((read a).kind == kind)
  | isTruthy a => .truth (read a).truthy
  | typeName a => .label (Kind.labelOfTag (read a).kind.tag)
  | tagName tag => .label (Kind.labelOfTag tag)

def Output.bytes (read : Operand → Value) : Output → Bytes
  | value a => (read a).written
  | valueLine a => (read a).written ++ [lineFeed]
  | textLine text => terminated text ++ [lineFeed]
  | intLine n => Utf8.encodeChars (Decimal.ofInt n.toInt) ++ [lineFeed]
  | boolLine b => Utf8.encode (if b then "true" else "false") ++ [lineFeed]

/-- Messages and templates are text, whatever bytes were passed. -/
def Abort.stop (read : Operand → Value) : Abort → Stop
  | raise message => .fault (.raised (Utf8.decode (terminated message)))
  | raiseFilled template args count =>
    .fault (.raised (Template.fill (Utf8.decode (terminated template)) (((args.getD []).take count).map read)))
  | panic message => .panic (Utf8.decode (terminated message))

/-- What a call or a run leaves: the events, the host, and the thread unless the process has stopped. -/
structure Outcome where
  events : List Event
  host : Host
  thread : Option Thread
  deriving DecidableEq

namespace Outcome

def returned (effects : List Event) (host : Host) (t : Thread) (answer : Answer) : Outcome :=
  ⟨effects ++ [.returned answer t.heap.live host.buffer?], host, some t⟩

/-- A call whose answer is the handle in the newest register. -/
def returnedHandle (host : Host) (before after : Thread) : Outcome :=
  let register := before.registers.length
  let handle := after.handle (some register)
  .returned [] host after
    (.handle register handle (after.deref handle) (before.registers.findIdx? (· == handle)))

def stopped (host : Host) (reason : Stop) : Outcome := ⟨(host.stop reason).1, (host.stop reason).2, none⟩

end Outcome

/-- A call in a thread. A failing production stops the process before anything is published. -/
def Call.run (call : Call) (t : Thread) (host : Host) : Outcome :=
  match call with
  | null => .returnedHandle host t (t.keep none)
  | produce production =>
    match production.eval t.read with
    | .ok v => .returnedHandle host t (t.publish v)
    | .error f => .stopped host (.fault f)
  | query q => .returned [] host t (q.answer t.read)
  | output o => .returned (host.emit (o.bytes t.read)).1 (host.emit (o.bytes t.read)).2 t .none
  | abort a => .stopped host (a.stop t.read)
  | report f => .returned [] (host.report f) t .none
  | settings => .returned [] host.fixSettings t (.style host.activeSettings.style)
  | environmentSettings => .returned [] host t (.style host.environmentSettings.style)
  | setEnvironment value => .returned [] { host with environment := value } t .none
  | install bytes =>
    .returned [] (host.install { kind := .buffer } bytes).2 t (host.install { kind := .buffer } bytes).1

end TaggedRuntime
