namespace TaggedRuntime

/-- The contents of a string value: any bytes, well-formed text or not. -/
abbrev Bytes := List UInt8

namespace Utf8

def replacement : Char := '\uFFFD'

/-- A character whose first bytes have been read: its bits so far, how many bytes follow the next one,
and the range of the next one. -/
structure Pending where
  code : Nat
  later : Nat
  least : UInt8
  most : UInt8
  deriving DecidableEq

/-- What a byte at the start of a character completes, and what it begins. The ranges leave out overlong
forms, surrogates and everything past the last character. -/
def start (b : UInt8) : List Char × Option Pending :=
  if b < 0x80 then ([Char.ofNat b.toNat], none)
  else if b < 0xc2 then ([replacement], none)
  else if b < 0xe0 then ([], some ⟨b.toNat - 0xc0, 0, 0x80, 0xbf⟩)
  else if b < 0xf0 then
    ([], some ⟨b.toNat - 0xe0, 1, if b = 0xe0 then 0xa0 else 0x80, if b = 0xed then 0x9f else 0xbf⟩)
  else if b < 0xf5 then
    ([], some ⟨b.toNat - 0xf0, 2, if b = 0xf0 then 0x90 else 0x80, if b = 0xf4 then 0x8f else 0xbf⟩)
  else ([replacement], none)

/-- One byte further. A byte that cannot continue the pending character leaves that one replaced and
starts anew. -/
def next (pending : Option Pending) (b : UInt8) : List Char × Option Pending :=
  match pending with
  | none => start b
  | some p =>
    if p.least ≤ b ∧ b ≤ p.most then
      let code := p.code * 64 + (b.toNat - 0x80)
      match p.later with
      | 0 => ([Char.ofNat code], none)
      | later + 1 => ([], some ⟨code, later, 0x80, 0xbf⟩)
    else (replacement :: (start b).1, (start b).2)

/-- The characters of the remaining bytes. Of ill-formed input each maximal beginning of a character, or
else each single byte, becomes one replacement. -/
def decodeFrom : Option Pending → Bytes → List Char
  | none, [] => []
  | some _, [] => [replacement]
  | pending, b :: rest => (next pending b).1 ++ decodeFrom (next pending b).2 rest

def encodeChars (cs : List Char) : Bytes := cs.flatMap String.utf8EncodeChar

def encode (s : String) : Bytes := encodeChars s.toList

/-- The text of any bytes, with replacements where they are ill-formed. -/
def decode (bytes : Bytes) : String := String.ofList (decodeFrom none bytes)

/-- The text of bytes that are its encoding. Ill-formed bytes have none: with replacements they would
encode otherwise. -/
def decode? (bytes : Bytes) : Option String := if encode (decode bytes) = bytes then some (decode bytes) else none

end Utf8

end TaggedRuntime
