import TaggedRuntime.Calculation

namespace TaggedRuntime

/-- Where a value lives. Nil and the two booleans are shared by all heaps; any other value has a slot. -/
inductive Ref
  | nil
  | bool (b : Bool)
  | slot (index : Nat)
  deriving DecidableEq, Repr

/-- Values that stay until the thread that made them ends. -/
structure Heap where
  slots : List Value := []
  deriving DecidableEq

namespace Heap

/-- A place for a value; what has no shared place goes into a new slot. -/
def alloc (h : Heap) : Value → Ref × Heap
  | .nil => (.nil, h)
  | .bool b => (.bool b, h)
  | v => (.slot h.slots.length, ⟨h.slots ++ [v]⟩)

def read (h : Heap) : Ref → Value
  | .nil => .nil
  | .bool b => .bool b
  | .slot index => h.slots.getD index .nil

def live (h : Heap) : Nat := h.slots.length

/-- The places of values allocated in order, with the heap after each. -/
def allocAll : Heap → List Value → List (Ref × Heap)
  | _, [] => []
  | h, v :: rest => h.alloc v :: allocAll (h.alloc v).2 rest

end Heap

/-- What compiled code holds of a value; without a place it is the null handle. -/
abbrev Handle := Option Ref

/-- A thread of compiled code: its own heap, and the handles it was given so far. -/
structure Thread where
  heap : Heap := {}
  registers : List Handle := []
  deriving DecidableEq

namespace Thread

/-- The handle of an operand; an absent operand is the null handle. -/
def handle (t : Thread) : Operand → Handle
  | none => none
  | some register => t.registers.getD register none

/-- The null handle reads as nil. -/
def deref (t : Thread) : Handle → Value
  | none => .nil
  | some ref => t.heap.read ref

def read (t : Thread) (a : Operand) : Value := t.deref (t.handle a)

def keep (t : Thread) (h : Handle) : Thread := { t with registers := t.registers ++ [h] }

/-- A value in the heap, with its handle in a new register. -/
def publish (t : Thread) (v : Value) : Thread :=
  { heap := (t.heap.alloc v).2, registers := t.registers ++ [some (t.heap.alloc v).1] }

end Thread

end TaggedRuntime
