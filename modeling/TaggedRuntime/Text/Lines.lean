namespace TaggedRuntime.Text

/-- The characters of the Unicode property White_Space. -/
def isBlank (c : Char) : Bool :=
  let code := c.toNat
  9 ≤ code && code ≤ 13 || code == 0x20 || code == 0x85 || code == 0xa0 || code == 0x1680 ||
    0x2000 ≤ code && code ≤ 0x200a || code == 0x2028 || code == 0x2029 || code == 0x202f ||
    code == 0x205f || code == 0x3000

def trimEnd (blank : Char → Bool) (cs : List Char) : List Char := (cs.reverse.dropWhile blank).reverse

def trim (cs : List Char) : List Char := trimEnd isBlank (cs.dropWhile isBlank)

/-- The parts between the separators; one more part than there are separators. -/
def split (separator : Char) : List Char → List (List Char)
  | [] => [[]]
  | c :: rest =>
    if c = separator then [] :: split separator rest
    else
      match split separator rest with
      | [] => [[c]]
      | part :: parts => (c :: part) :: parts

/-- Lines of words, each with as many as its width takes, begun with the words of a first line. Between two
spaces there is an empty word, which stays on the line of the first. -/
def fillFrom (width : Nat) : List Char → List (List Char) → List (List Char)
  | line, [] => [line]
  | line, word :: words =>
    if word = [] ∨ line.length + 1 + word.length ≤ width then fillFrom width (line ++ ' ' :: word) words
    else line :: fillFrom width word words

/-- A text broken at spaces into lines of at most that width, without the spaces that end them; a longer word
has its own line. -/
def wrap (width : Nat) (cs : List Char) : List (List Char) :=
  match split ' ' cs with
  | [] => []
  | word :: words => (fillFrom width word words).map (trimEnd (· == ' '))

/-- Lines under each other, the first behind one margin and the others behind another. -/
def hang (first others : List Char) : List (List Char) → List Char
  | [] => []
  | line :: lines => first ++ line ++ '\n' :: hang others others lines

end TaggedRuntime.Text
