import Mathlib.Data.List.Induction
import Mathlib.Data.Nat.Init
import TaggedRuntime.Text.Quoted
import TaggedRuntime.Value.Basic

namespace TaggedRuntime.Text

/-- Where a reader of a text with escapes stands: between two characters, or behind a backslash, behind the letter or
the brace that begins a code, or among the digits of one. -/
inductive Escape
  | between
  | backslash
  | letter
  | brace
  | code (value : Nat)
  deriving DecidableEq

def hexDigit? (c : Char) : Option Nat :=
  if '0' ≤ c ∧ c ≤ '9' then some (c.toNat - 0x30)
  else if 'a' ≤ c ∧ c ≤ 'f' then some (c.toNat - 0x57)
  else if 'A' ≤ c ∧ c ≤ 'F' then some (c.toNat - 0x37)
  else none

/-- The character that a letter behind a backslash stands for. -/
def escaped? : Char → Option Char
  | '0' => some '\x00'
  | 't' => some '\t'
  | 'n' => some '\n'
  | 'r' => some '\r'
  | '"' => some '"'
  | '\\' => some '\\'
  | _ => none

/-- What a character completes, and where the reader stands behind it. A double quote between two characters is refused,
since the text would end there. -/
def Escape.next? : Escape → Char → Option (List Char × Escape)
  | between, '\\' => some ([], backslash)
  | between, '"' => none
  | between, c => some ([c], between)
  | backslash, 'u' => some ([], letter)
  | backslash, c => (escaped? c).map fun d => ([d], between)
  | letter, '{' => some ([], brace)
  | letter, _ => none
  | brace, c => (hexDigit? c).map fun d => ([], code d)
  | code n, '}' => if n.isValidChar then some ([Char.ofNat n], between) else none
  | code n, c => (hexDigit? c).map fun d => ([], code (16 * n + d))

/-- The characters that a text with escapes stands for, read from left to right, and where that leaves the reader. -/
def readEscapes? : Escape → List Char → Option (List Char × Escape)
  | state, [] => some ([], state)
  | state, c :: rest =>
    (state.next? c).bind fun first =>
      (readEscapes? first.2 rest).map fun later => (first.1 ++ later.1, later.2)

/-- A text with its escapes undone. It has to end between two characters. -/
def unescape? (cs : List Char) : Option (List Char) :=
  (readEscapes? .between cs).bind fun result => if result.2 = .between then some result.1 else none

/-- The backslashes at the end, without anything between them. -/
def backslashesBehind (cs : List Char) : Nat := (cs.reverse.takeWhile (· = '\\')).length

theorem readEscapes?_append (state : Escape) (first second : List Char) :
    readEscapes? state (first ++ second) = (readEscapes? state first).bind fun front =>
      (readEscapes? front.2 second).map fun back => (front.1 ++ back.1, back.2) := by
  induction first generalizing state with
  | nil => simp [readEscapes?]
  | cons c first ih =>
    rw [List.cons_append, readEscapes?, readEscapes?]
    cases state.next? c with
    | none => rfl
    | some step =>
      simp only [Option.bind_some, ih]
      cases readEscapes? step.2 first with
      | none => rfl
      | some front => simp [Function.comp_def]

theorem readEscapes?_behind {state middle : Escape} {front text : List Char}
    (read : readEscapes? state front = some (text, middle)) (back : List Char) :
    readEscapes? state (front ++ back) = (readEscapes? middle back).map fun later => (text ++ later.1, later.2) := by
  rw [readEscapes?_append, read, Option.bind_some]

theorem readEscapes?_split {state last : Escape} {first second text : List Char}
    (read : readEscapes? state (first ++ second) = some (text, last)) :
    ∃ front middle back, readEscapes? state first = some (front, middle) ∧
      readEscapes? middle second = some (back, last) := by
  rw [readEscapes?_append] at read
  obtain ⟨⟨front, middle⟩, before, rest⟩ := Option.bind_eq_some_iff.mp read
  obtain ⟨⟨back, last⟩, after, result⟩ := Option.map_eq_some_iff.mp rest
  cases result
  exact ⟨front, middle, back, before, after⟩

theorem readEscapes?_singleton (state : Escape) (c : Char) : readEscapes? state [c] = state.next? c := by
  cases step : state.next? c <;> simp [readEscapes?, step]

theorem backslashesBehind_backslash (cs : List Char) :
    backslashesBehind (cs ++ ['\\']) = backslashesBehind cs + 1 := by
  simp [backslashesBehind]

theorem backslashesBehind_other {c : Char} (other : c ≠ '\\') (cs : List Char) :
    backslashesBehind (cs ++ [c]) = 0 := by
  simp [backslashesBehind, other]

namespace Escape

variable {state next : Escape} {c : Char} {cs : List Char}

/-- Only a backslash begins an escape. -/
theorem next?_begins (step : state.next? c = some (cs, backslash)) : c = '\\' := by
  unfold next? at step
  split at step <;> simp_all

/-- Of two backslashes the second ends the escape that the first begins. -/
theorem next?_of_backslash (step : state.next? '\\' = some (cs, next)) :
    next = backslash ↔ state ≠ backslash := by
  cases state with
  | between | backslash =>
    cases step
    decide
  | letter | brace | code n => cases step

/-- A double quote is read as the end of an escape only. -/
theorem state_of_quote (step : state.next? '"' = some (cs, next)) : state = backslash := by
  cases state with
  | backslash => rfl
  | between | letter | brace | code n => cases step

theorem next?_digit {digit : Nat} (small : digit < 16) (n : Nat) :
    (code n).next? digit.digitChar = some ([], code (16 * n + digit)) := by
  have value : ∀ d < 16, hexDigit? d.digitChar = some d := by decide
  have notEnd : digit.digitChar ≠ '}' := by simp
  have read := value digit small
  generalize digit.digitChar = c at notEnd read
  unfold next?
  split <;> simp_all

theorem next?_plain (noQuote : c ≠ '"') (noBackslash : c ≠ '\\') : between.next? c = some ([c], between) := by
  unfold next?
  split <;> simp_all

end Escape

/-- The digits of a code are read as its value. -/
theorem readEscapes?_toDigits (n : Nat) : readEscapes? .brace (Nat.toDigits 16 n) = some ([], .code n) := by
  induction n using Nat.strong_induction_on with
  | _ n ih =>
    by_cases digit : n < 16
    · have value : ∀ d < 16, Escape.brace.next? d.digitChar = some ([], .code d) := by decide
      rw [Nat.toDigits_of_lt_base digit, readEscapes?_singleton, value n digit]
    · have last : n % 16 < 16 := Nat.mod_lt _ (by decide)
      rw [Nat.toDigits_of_base_le (by decide) (Nat.not_lt.mp digit), readEscapes?_behind (ih (n / 16) (by omega)),
        readEscapes?_singleton, Escape.next?_digit last, Option.map_some, Nat.div_add_mod, List.append_nil]

/-- A character written as an escape or as itself is read as that character. -/
theorem readEscapes?_escape (c : Char) : readEscapes? .between (escape c) = some ([c], .between) := by
  unfold escape
  split_ifs with zero tab feed carriage quote backslash hidden
  · subst zero; rfl
  · subst tab; rfl
  · subst feed; rfl
  · subst carriage; rfl
  · subst quote; rfl
  · subst backslash; rfl
  · have closed : (Escape.code c.toNat).next? '}' = some ([c], .between) := by
      have scalar : c.toNat.isValidChar := c.valid
      simp only [Escape.next?, scalar, if_true, Char.ofNat_toNat]
    have opened : readEscapes? .between ['\\', 'u', '{'] = some ([], .brace) := rfl
    change readEscapes? .between (['\\', 'u', '{'] ++ (Nat.toDigits 16 c.toNat ++ ['}'])) = _
    rw [readEscapes?_behind opened, readEscapes?_behind (readEscapes?_toDigits _), readEscapes?_singleton, closed]
    rfl
  · rw [readEscapes?_singleton, Escape.next?_plain quote backslash]

theorem readEscapes?_flatMap (cs : List Char) :
    readEscapes? .between (cs.flatMap escape) = some (cs, .between) := by
  induction cs with
  | nil => rfl
  | cons c cs ih =>
    rw [List.flatMap_cons, readEscapes?_behind (readEscapes?_escape c), ih]
    rfl

theorem unescape?_flatMap (cs : List Char) : unescape? (cs.flatMap escape) = some cs := by
  rw [unescape?, readEscapes?_flatMap]
  rfl

/-- The reader is inside an escape that a backslash has begun exactly behind an odd number of them. -/
theorem begun_iff {cs text : List Char} {state : Escape} (read : readEscapes? .between cs = some (text, state)) :
    state = .backslash ↔ backslashesBehind cs % 2 = 1 := by
  induction cs using List.reverseRecOn generalizing text state with
  | nil =>
    cases read
    decide
  | append_singleton cs c ih =>
    obtain ⟨_, middle, _, before, next⟩ := readEscapes?_split read
    rw [readEscapes?_singleton] at next
    by_cases backslash : c = '\\'
    · subst backslash
      rw [Escape.next?_of_backslash next, Ne, ih before, backslashesBehind_backslash]
      omega
    · rw [backslashesBehind_other backslash]
      constructor
      · rintro rfl
        exact absurd (Escape.next?_begins next) backslash
      · intro odd
        cases odd

/-- In what can be read, the backslash before a double quote is not itself escaped. -/
theorem quote_behind {before after text : List Char} (read : unescape? (before ++ '"' :: after) = some text) :
    backslashesBehind before % 2 = 1 := by
  obtain ⟨_, reading, _⟩ := Option.bind_eq_some_iff.mp read
  rw [← List.singleton_append] at reading
  obtain ⟨_, middle, _, first, rest⟩ := readEscapes?_split reading
  obtain ⟨_, _, _, step, _⟩ := readEscapes?_split rest
  rw [readEscapes?_singleton] at step
  exact (begun_iff first).mp (Escape.state_of_quote step)

theorem exists_digitChar {c : Char} {n : Nat} (member : c ∈ Nat.toDigits 16 n) :
    ∃ digit, c = Nat.digitChar digit := by
  induction n using Nat.strong_induction_on with
  | _ n ih =>
    rw [Nat.toDigits_eq_if (by decide)] at member
    split at member
    · exact ⟨n, List.mem_singleton.mp member⟩
    · rcases List.mem_append.mp member with front | last
      · exact ih (n / 16) (by omega) front
      · exact ⟨_, List.mem_singleton.mp last⟩

/-- Line ends, tabs and zeros are always escaped. -/
theorem notMem_escape {c : Char} (control : c ∈ ['\n', '\r', '\t', '\x00']) (d : Char) : c ∉ escape d := by
  have noDigit (n : Nat) : c ∉ Nat.toDigits 16 n := by
    intro member
    obtain ⟨digit, rfl⟩ := exists_digitChar member
    simp at control
  simp only [List.mem_cons, List.not_mem_nil, or_false] at control
  unfold escape
  split_ifs with zero tab feed carriage quote backslash hidden
  case neg =>
    rw [List.mem_singleton]
    rintro rfl
    simp [zero, tab, feed, carriage] at control
  all_goals rcases control with rfl | rfl | rfl | rfl <;> simp [noDigit]

theorem quote_inj {s t : String} : quote s = quote t ↔ s = t := by
  refine ⟨fun same => ?_, congrArg quote⟩
  rw [quote, quote, String.ofList_inj, List.cons_append, List.cons_append, List.cons_inj_right,
    List.append_cancel_right_eq] at same
  have back := unescape?_flatMap s.toList
  rw [same, unescape?_flatMap] at back
  exact String.toList_inj.mp (Option.some.inj back).symm

/-- A string in quotes begins and ends with one. What stands between has no quote without a backslash of its own in
front and no line end, tab or zero, and with its escapes undone it is the text that the string is displayed as. So two
strings are quoted alike exactly if they are displayed alike. -/
theorem quote_display (bytes : Bytes) :
    ∃ body, quote (Value.string bytes).display = String.ofList ('"' :: body ++ ['"']) ∧
      (∀ before after, body = before ++ '"' :: after → backslashesBehind before % 2 = 1) ∧
      (∀ c ∈ ['\n', '\r', '\t', '\x00'], c ∉ body) ∧
      unescape? body = some (Value.string bytes).display.toList ∧
      ∀ other : Bytes, quote (Value.string other).display = quote (Value.string bytes).display ↔
        (Value.string other).display = (Value.string bytes).display := by
  have read := unescape?_flatMap (Value.string bytes).display.toList
  refine ⟨_, rfl, ?_, ?_, read, fun other => quote_inj⟩
  · intro before after cut
    rw [cut] at read
    exact quote_behind read
  · intro c control member
    obtain ⟨d, _, inside⟩ := List.mem_flatMap.mp member
    exact notMem_escape control d inside

/-- A quote, a backslash, a control character, and a byte that is shown as a replacement whichever it is. -/
theorem quote_display_ill_formed :
    let body := ['\\', '"', '\\', '\\', '\\', 'u', '{', '1', '}', Utf8.replacement]
    quote (Value.string [0x22, 0x5c, 0x01, 0xff]).display = String.ofList ('"' :: body ++ ['"']) ∧
      body = ['\\'] ++ '"' :: body.drop 2 ∧ backslashesBehind ['\\'] % 2 = 1 ∧ '\n' ∉ body ∧
      quote (Value.string [0x22, 0x5c, 0x01, 0xfe]).display =
        quote (Value.string [0x22, 0x5c, 0x01, 0xff]).display := by
  intro body
  obtain ⟨inside, whole, quotes, controls, _, alike⟩ := quote_display [0x22, 0x5c, 0x01, 0xff]
  have written : quote (Value.string [0x22, 0x5c, 0x01, 0xff]).display = String.ofList ('"' :: body ++ ['"']) := by
    decide +kernel
  obtain rfl : inside = body := by
    rw [written, String.ofList_inj] at whole
    exact (List.append_cancel_right (List.cons.inj whole).2).symm
  exact ⟨whole, rfl, quotes _ _ rfl, controls '\n' (by decide), (alike _).mpr (by decide)⟩

end TaggedRuntime.Text
