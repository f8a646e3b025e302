import TaggedRuntime.Binary64.Arithmetic
import TaggedRuntime.Value.Basic

namespace TaggedRuntime

/-- How an argument is written into a template. -/
inductive Directive
  | display
  | integer
  | number
  deriving DecidableEq, Repr

namespace Directive

/-- Two letters ask for a whole number and two for the number text. -/
def ofLetter? : Char → Option Directive
  | 's' => some display
  | 'd' | 'i' => some integer
  | 'g' | 'f' => some number
  | _ => none

def letter : Directive → Char
  | display => 's'
  | integer => 'd'
  | number => 'g'

/-- A number by its whole part or by its text; anything else by its display text, whatever was asked. -/
def write : Directive → Value → List Char
  | integer, .number x => Decimal.ofInt x.toInt64
  | number, .number x => x.text.toList
  | _, v => v.display.toList

end Directive

/-- A piece of a template: text, an escaped percent sign, a place for an argument, or a percent sign
before a letter that asks for nothing. -/
inductive Segment
  | literal (text : List Char)
  | percent
  | directive (d : Directive)
  | unknown (letter : Char)
  deriving DecidableEq, Repr

namespace Segment

def ofLetter (c : Char) : Segment :=
  if c = '%' then percent
  else
    match Directive.ofLetter? c with
    | some d => directive d
    | none => unknown c

def source : Segment → List Char
  | literal text => text
  | percent => ['%', '%']
  | directive d => ['%', d.letter]
  | unknown c => ['%', c]

/-- Text up to the next percent sign, if there is any before it, and what follows. -/
def literal? (cs : List Char) : Option (Segment × List Char) :=
  match cs.takeWhile (· ≠ '%') with
  | [] => none
  | text => some (literal text, cs.dropWhile (· ≠ '%'))

/-- A percent sign with the letter after it, and what follows. -/
def directive? : List Char → Option (Segment × List Char)
  | '%' :: letter :: rest => some (ofLetter letter, rest)
  | _ => none

/-- The segment that a template begins with, and what follows. -/
def first? (cs : List Char) : Option (Segment × List Char) := literal? cs <|> directive? cs

/-- Segments as long as there is one to begin with, and what is left over then. There is no result if a
segment takes up no text, since reading would not come to an end. -/
def read? (cs : List Char) : Option (List Segment × List Char) :=
  match first? cs with
  | none => some ([], cs)
  | some (segment, rest) =>
    if rest.length < cs.length then (read? rest).map fun later => (segment :: later.1, later.2) else none
termination_by cs.length

/-- The segments of a template. What cannot be read is a literal, as is a percent sign at the end. -/
def parse (cs : List Char) : List Segment :=
  let result := (read? cs).getD ([], cs)
  if result.2 = [] then result.1 else result.1 ++ [literal result.2]

/-- Directives take the arguments in order. One that finds none left stays as template text. -/
def render : List Segment → List Value → List Char
  | [], _ => []
  | percent :: rest, args => '%' :: render rest args
  | directive d :: rest, v :: args => d.write v ++ render rest args
  | segment :: rest, args => segment.source ++ render rest args

end Segment

def Template.fill (template : String) (args : List Value) : String :=
  String.ofList (Segment.render (Segment.parse template.toList) args)

end TaggedRuntime
