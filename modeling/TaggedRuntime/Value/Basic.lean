import TaggedRuntime.Binary64.Text
import TaggedRuntime.Text.Utf8

namespace TaggedRuntime

inductive Kind
  | nil
  | bool
  | number
  | string
  | function
  deriving DecidableEq, Repr

namespace Kind

def label : Kind → String
  | nil => "nil"
  | bool => "bool"
  | number => "number"
  | string => "string"
  | function => "function"

/-- The number of the type where values cross into compiled code. -/
def tag : Kind → UInt32
  | nil => 0
  | bool => 1
  | number => 2
  | string => 3
  | function => 4

def ofTag? (tag : UInt32) : Option Kind :=
  [nil, bool, number, string, function].find? (·.tag == tag)

/-- The name of the type with a tag; no other tag has a name. -/
def labelOfTag (tag : UInt32) : String :=
  match ofTag? tag with
  | some kind => kind.label
  | none => "unknown"

theorem labelOfTag_tag (kind : Kind) : labelOfTag kind.tag = kind.label := by
  cases kind <;> rfl

end Kind

/-- Compiled code that a value refers to. Its address is never followed here. -/
structure Routine where
  entry : UInt64
  native : Bool
  arity : Int32
  deriving DecidableEq

/-- A value carries its type with it. A string is any bytes, text or not. -/
inductive Value
  | nil
  | bool (b : Bool)
  | number (x : Binary64)
  | string (bytes : Bytes)
  | function (routine : Routine)
  deriving DecidableEq

namespace Value

def kind : Value → Kind
  | nil => .nil
  | bool _ => .bool
  | number _ => .number
  | string _ => .string
  | function _ => .function

/-- Only `nil` and `false` are false in a condition. -/
def truthy : Value → Bool
  | nil => false
  | bool b => b
  | number _ | string _ | function _ => true

def number? : Value → Option Binary64
  | number x => some x
  | _ => none

def bytes? : Value → Option Bytes
  | string bytes => some bytes
  | _ => none

/-- The text that stands for a value in a message. -/
def display : Value → String
  | nil => "nil"
  | bool b => if b then "true" else "false"
  | number x => x.text
  | string bytes => Utf8.decode bytes
  | function _ => "<function>"

/-- The bytes that printing a value writes. A string goes out as it is, text or not. -/
def written : Value → Bytes
  | nil => Utf8.encode "nil"
  | bool b => Utf8.encode (if b then "true" else "false")
  | number x => Utf8.encode x.text
  | string bytes => bytes
  | function _ => Utf8.encode "<function>"

end Value

end TaggedRuntime
