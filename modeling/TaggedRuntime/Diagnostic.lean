import TaggedRuntime.Fault
import TaggedRuntime.Text.Lines
import TaggedRuntime.Text.Utf8

namespace TaggedRuntime

/-- How errors are shown: on a line, or as a report with code and help. -/
inductive Style
  | plain
  | fancy
  deriving DecidableEq, Repr

namespace Style

/-- The style that a setting names. The case of ASCII letters and white space around the name do not
count, and any other setting is plain. -/
def parse (raw : String) : Style :=
  let name := (Text.trim raw.toList).map Char.toLower
  if name = "fancy".toList ∨ name = "rich".toList then fancy else plain

end Style

structure Settings where
  style : Style := .plain
  deriving DecidableEq, Repr

namespace Settings

def styleVariable : String := "YAR_DIAGNOSTICS"

/-- The settings that variables give; a blank variable is as good as none. -/
def ofLookup (lookup : String → Option String) : Settings :=
  match lookup styleVariable with
  | none => {}
  | some raw => if Text.trim raw.toList = [] then {} else ⟨Style.parse raw⟩

/-- The settings that the style variable gives with a value, or while it is not set. A value that is not text
is ignored. -/
def ofEnvironment (environment : Option Bytes) : Settings :=
  ofLookup fun name => if name = styleVariable then environment.bind Utf8.decode? else none

end Settings

namespace Fault

def plainReport (f : Fault) : String := "Runtime error: " ++ f.message

/-- The lines of the message behind a cross and a rule, each broken where it is too long. What a layout may do
beyond that is left out: a break inside a word, after a hyphen or where the word alone is too long, lines made
even, and two columns for a wide character. -/
def messageBlock (f : Fault) : List Char :=
  Text.hang "  × ".toList "  │ ".toList ((Text.split '\n' f.message.toList).flatMap (Text.wrap 74))

def helpBlock (f : Fault) : List Char :=
  match f.help? with
  | none => []
  | some help => Text.hang "  help: ".toList "        ".toList (Text.wrap 68 help.toList)

def fancyReport (f : Fault) : String :=
  String.ofList (f.code.toList ++ '\n' :: '\n' :: f.messageBlock ++ f.helpBlock)

/-- The report in a style, without a line end of its own when plain. -/
def report : Style → Fault → String
  | .plain, f => f.plainReport
  | .fancy, f => f.fancyReport

end Fault

end TaggedRuntime
