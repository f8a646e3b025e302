import TaggedRuntime.Proofs.Decoding

namespace TaggedRuntime.Utf8

attribute [local instance (high)] instPowNat

/-- The byte after the first that holds the six bits of a code above so many groups of six. -/
def continuation (later code : Nat) : UInt8 := .ofNat (0x80 + code / 64 ^ later % 64)

/-- The last so many bytes of a character. -/
def tail : Nat → Nat → Bytes
  | 0, _ => []
  | later + 1, code => continuation later code :: tail later code

theorem length_tail (count code : Nat) : (tail count code).length = count := by
  induction count with
  | zero => rfl
  | succ later ih => rw [tail, List.length_cons, ih]

theorem toNat_continuation (later code : Nat) : (continuation later code).toNat = 0x80 + code / 64 ^ later % 64 := by
  rw [continuation, UInt8.toNat_ofNat']
  omega

namespace Pending

/-- The codes that the bytes to come can complete. -/
def Covers (p : Pending) (code : Nat) : Prop := p.lowest ≤ code ∧ code < p.beyond

/-- Some byte can follow, and only bytes that hold six bits can. -/
structure Ready (p : Pending) : Prop extends Valid p where
  most : p.most.toNat ≤ 0xbf
  least_le_most : p.least.toNat ≤ p.most.toNat

variable {p : Pending} {later code : Nat} {b : UInt8}

/-- What is pending after one more byte. -/
def push (p : Pending) (b : UInt8) (later : Nat) : Pending := ⟨p.code * 64 + (b.toNat - 0x80), later, 0x80, 0xbf⟩

@[simp] theorem push_later : (p.push b later).later = later := rfl

theorem covers_iff : p.Covers code ↔ p.code * 64 + (p.least.toNat - 0x80) ≤ code / 64 ^ p.later ∧
    code / 64 ^ p.later ≤ p.code * 64 + (p.most.toNat - 0x80) := by
  have positive : 0 < 64 ^ p.later := Nat.pow_pos (by decide)
  rw [Covers, lowest, beyond, ← Nat.le_div_iff_mul_le positive, ← Nat.div_lt_iff_lt_mul positive, Nat.lt_succ_iff]

theorem covers_push : (p.push b later).Covers code ↔ code / 64 ^ (later + 1) = p.code * 64 + (b.toNat - 0x80) := by
  rw [covers_iff, Nat.pow_succ, ← Nat.div_div_eq_div_mul]
  dsimp only [push]
  generalize code / 64 ^ later = quotient
  simp only [UInt8.reduceToNat]
  omega

namespace Ready

theorem lowest_covers (ready : p.Ready) : p.Covers p.lowest := by
  have least := ready.least
  have le := ready.least_le_most
  refine ⟨Nat.le_refl _, Nat.mul_lt_mul_of_pos_right ?_ (Nat.pow_pos (by decide))⟩
  omega

/-- The codes are those of characters. -/
theorem toNat_ofNat (ready : p.Ready) (covers : p.Covers code) : (Char.ofNat code).toNat = code := by
  have low := ready.lowest
  have high := ready.beyond
  obtain ⟨above, below⟩ := covers
  refine Utf8.toNat_ofNat ?_
  unfold Nat.isValidChar
  omega

/-- The next byte of a code that can be completed is in the range. -/
theorem continuation_mem (ready : p.Ready) (covers : p.Covers code) :
    p.least ≤ continuation p.later code ∧ continuation p.later code ≤ p.most := by
  have least := ready.least
  have most := ready.most
  have le := ready.least_le_most
  rw [covers_iff] at covers
  rw [UInt8.le_iff_toNat_le, UInt8.le_iff_toNat_le, toNat_continuation]
  omega

/-- A byte in the range tells the codes that it is a byte of. -/
theorem covers_and_continuation_iff (ready : p.Ready) (atLeast : p.least ≤ b) (atMost : b ≤ p.most) :
    p.Covers code ∧ continuation p.later code = b ↔ code / 64 ^ p.later = p.code * 64 + (b.toNat - 0x80) := by
  have least := ready.least
  have most := ready.most
  rw [UInt8.le_iff_toNat_le] at atLeast atMost
  rw [covers_iff, ← UInt8.toNat_inj, toNat_continuation]
  omega

/-- What was read of a code is what its groups of six bits leave. -/
theorem div_eq_code (ready : p.Ready) (covers : p.Covers code) : code / 64 ^ (p.later + 1) = p.code := by
  have most := ready.most
  rw [covers_iff] at covers
  rw [Nat.pow_succ, ← Nat.div_div_eq_div_mul]
  omega

theorem push (ready : p.Ready) (more : p.later = later + 1) (atLeast : p.least ≤ b) (atMost : b ≤ p.most) :
    (p.push b later).Ready :=
  { ready.further more atLeast atMost with
    most := Nat.le_refl 0xbf
    least_le_most := (by decide : 0x80 ≤ 0xbf) }

end Ready

end Pending

open Pending

theorem next_of_outside {p : Pending} {b : UInt8} (outside : ¬(p.least ≤ b ∧ b ≤ p.most)) :
    next (some p) b = (replacement :: (start b).1, (start b).2) := if_neg outside

theorem next_last {p : Pending} {b : UInt8} (last : p.later = 0) (range : p.least ≤ b ∧ b ≤ p.most) :
    next (some p) b = ([Char.ofNat (p.code * 64 + (b.toNat - 0x80))], none) := by
  rw [next, if_pos range]
  simp only [last]

theorem next_more {p : Pending} {b : UInt8} {later : Nat} (more : p.later = later + 1)
    (range : p.least ≤ b ∧ b ≤ p.most) : next (some p) b = ([], some (p.push b later)) := by
  rw [next, if_pos range]
  simp only [more]
  rfl

/-- The bytes that complete a character give just that character. -/
theorem decodeFrom_tail {p : Pending} (ready : p.Ready) {c : Char} (covers : p.Covers c.toNat) (rest : Bytes) :
    decodeFrom (some p) (tail (p.later + 1) c.toNat ++ rest) = c :: decodeFrom none rest := by
  induction count : p.later generalizing p with
  | zero =>
    have range := ready.continuation_mem covers
    have found := (ready.covers_and_continuation_iff range.1 range.2).mp ⟨covers, rfl⟩
    rw [tail, List.cons_append, decodeFrom_cons, ← count, next_last count range, ← found, count, Nat.pow_zero,
      Nat.div_one, Char.ofNat_toNat]
    rfl
  | succ later ih =>
    have range := ready.continuation_mem covers
    have found := (ready.covers_and_continuation_iff range.1 range.2).mp ⟨covers, rfl⟩
    rw [tail, List.cons_append, decodeFrom_cons, ← count]
    generalize continuation p.later c.toNat = b at range found ⊢
    rw [next_more count range, count]
    rw [count, ← covers_push] at found
    exact ih (ready.push count range.1 range.2) found push_later

/-- A byte that begins a longer character, and what is pending after it. -/
inductive Leads (b : UInt8) : Pending → Prop
  | two : 0xc2 ≤ b.toNat → b.toNat < 0xe0 → Leads b ⟨b.toNat - 0xc0, 0, 0x80, 0xbf⟩
  | three : 0xe0 ≤ b.toNat → b.toNat < 0xf0 →
      Leads b ⟨b.toNat - 0xe0, 1, if b = 0xe0 then 0xa0 else 0x80, if b = 0xed then 0x9f else 0xbf⟩
  | four : 0xf0 ≤ b.toNat → b.toNat < 0xf5 →
      Leads b ⟨b.toNat - 0xf0, 2, if b = 0xf0 then 0x90 else 0x80, if b = 0xf4 then 0x8f else 0xbf⟩

theorem Leads.start {b : UInt8} {p : Pending} (leads : Leads b p) : start b = ([], some p) := by
  cases leads with
  | two | three | four =>
    simp only [Utf8.start, UInt8.lt_iff_toNat_lt, UInt8.reduceToNat]
    repeat rw [if_neg (by omega)]
    rw [if_pos (by omega)]

/-- A byte past ASCII begins a longer character, or no character at all. -/
theorem start_cases {b : UInt8} (past : ¬b < 0x80) : (∃ p, Leads b p) ∨ start b = ([replacement], none) := by
  simp only [UInt8.lt_iff_toNat_lt, UInt8.reduceToNat] at past
  by_cases two : 0xc2 ≤ b.toNat ∧ b.toNat < 0xe0
  · exact .inl ⟨_, .two two.1 two.2⟩
  by_cases three : 0xe0 ≤ b.toNat ∧ b.toNat < 0xf0
  · exact .inl ⟨_, .three three.1 three.2⟩
  by_cases four : 0xf0 ≤ b.toNat ∧ b.toNat < 0xf5
  · exact .inl ⟨_, .four four.1 four.2⟩
  simp only [start, UInt8.lt_iff_toNat_lt, UInt8.reduceToNat]
  rw [if_neg past]
  split
  · exact .inr rfl
  · repeat rw [if_neg (by omega)]
    exact .inr rfl

theorem Leads.ready {b : UInt8} {p : Pending} (leads : Leads b p) : p.Ready := by
  refine ⟨start_valid (congrArg Prod.snd leads.start), ?_, ?_⟩
  · cases leads with
    | two => exact Nat.le_refl _
    | three | four => dsimp only; split <;> decide
  · cases leads with
    | two => exact (by decide : 0x80 ≤ 0xbf)
    | three | four => dsimp only; split <;> split <;> simp_all

theorem Leads.utf8EncodeChar {b : UInt8} {p : Pending} (leads : Leads b p) {c : Char} (covers : p.Covers c.toNat) :
    String.utf8EncodeChar c = b :: tail (p.later + 1) c.toNat := by
  have high := leads.ready.div_eq_code covers
  have code : c.val.toNat = c.toNat := rfl
  unfold String.utf8EncodeChar
  dsimp only
  cases leads with
  | two lower upper =>
    simp only [Nat.reduceAdd, Nat.reducePow] at high
    have lead : UInt8.ofNat (c.toNat / 64 % 0x20 + 0xc0) = b := by
      rw [← UInt8.toNat_inj, UInt8.toNat_ofNat']
      omega
    rw [code, if_neg (by omega), if_pos (by omega), lead]
    simp [tail, continuation, Nat.add_comm]
  | three lower upper =>
    simp only [Nat.reduceAdd, Nat.reducePow] at high
    have lead : UInt8.ofNat (c.toNat / 4096 % 0x10 + 0xe0) = b := by
      rw [← UInt8.toNat_inj, UInt8.toNat_ofNat']
      omega
    have long : 0x800 ≤ c.toNat := by
      by_cases first : b = 0xe0
      · subst first
        exact covers.1
      · simp only [← UInt8.toNat_inj, UInt8.reduceToNat] at first
        omega
    rw [code, if_neg (by omega), if_neg (by omega), if_pos (by omega), lead]
    simp [tail, continuation, Nat.add_comm]
  | four lower upper =>
    simp only [Nat.reduceAdd, Nat.reducePow] at high
    have lead : UInt8.ofNat (c.toNat / 262144 % 0x08 + 0xf0) = b := by
      rw [← UInt8.toNat_inj, UInt8.toNat_ofNat']
      omega
    have long : 0x10000 ≤ c.toNat := by
      by_cases first : b = 0xf0
      · subst first
        exact covers.1
      · simp only [← UInt8.toNat_inj, UInt8.reduceToNat] at first
        omega
    rw [code, if_neg (by omega), if_neg (by omega), if_neg (by omega), lead]
    simp [tail, continuation, Nat.add_comm]

theorem exists_byte {n : Nat} (small : n < 256) : ∃ b : UInt8, b.toNat = n :=
  ⟨.ofNat n, UInt8.toNat_ofNat_of_lt' small⟩

/-- A character past ASCII has such a first byte. -/
theorem exists_leads {c : Char} (past : 0x80 ≤ c.toNat) : ∃ b p, Leads b p ∧ p.Covers c.toNat := by
  have scalar : c.toNat.isValidChar := c.valid
  unfold Nat.isValidChar at scalar
  by_cases two : c.toNat < 0x800
  · obtain ⟨b, lead⟩ := exists_byte (n := 0xc0 + c.toNat / 64) (by omega)
    refine ⟨b, _, .two (by omega) (by omega), ?_⟩
    simp only [covers_iff, lead, UInt8.reduceToNat, Nat.pow_zero, Nat.div_one]
    omega
  by_cases three : c.toNat < 0x10000
  · obtain ⟨b, lead⟩ := exists_byte (n := 0xe0 + c.toNat / 4096) (by omega)
    refine ⟨b, _, .three (by omega) (by omega), ?_⟩
    simp only [covers_iff, apply_ite UInt8.toNat, ← UInt8.toNat_inj, lead, UInt8.reduceToNat, Nat.pow_one]
    split <;> split <;> omega
  · obtain ⟨b, lead⟩ := exists_byte (n := 0xf0 + c.toNat / 262144) (by omega)
    refine ⟨b, _, .four (by omega) (by omega), ?_⟩
    simp only [covers_iff, apply_ite UInt8.toNat, ← UInt8.toNat_inj, lead, UInt8.reduceToNat, Nat.reducePow]
    split <;> split <;> omega

theorem utf8EncodeChar_ascii {b : UInt8} (ascii : b < 0x80) : String.utf8EncodeChar (Char.ofNat b.toNat) = [b] := by
  rw [UInt8.lt_iff_toNat_lt] at ascii
  have code : (Char.ofNat b.toNat).toNat = b.toNat := toNat_ofNat (.inl (Nat.lt_trans ascii (by decide)))
  have small : (Char.ofNat b.toNat).toNat ≤ 0x7f := by
    rw [code]
    exact Nat.le_of_lt_succ ascii
  have encoded : String.utf8EncodeChar (Char.ofNat b.toNat) = [.ofNat (Char.ofNat b.toNat).toNat] := if_pos small
  rw [encoded, code, UInt8.ofNat_toNat]

/-- The bytes of a character are its own byte, or a first byte and the rest of what that leaves to complete. -/
theorem utf8EncodeChar_cases (c : Char) :
    (∃ b, b < 0x80 ∧ c = Char.ofNat b.toNat ∧ String.utf8EncodeChar c = [b]) ∨
      ∃ b p, Leads b p ∧ p.Covers c.toNat ∧ String.utf8EncodeChar c = b :: tail (p.later + 1) c.toNat := by
  by_cases ascii : c.toNat < 0x80
  · obtain ⟨b, code⟩ := exists_byte (Nat.lt_trans ascii (by decide : 0x80 < 256))
    have own : c = Char.ofNat b.toNat := by rw [code, Char.ofNat_toNat]
    have small : b < 0x80 := by rwa [UInt8.lt_iff_toNat_lt, code]
    exact .inl ⟨b, small, own, own ▸ utf8EncodeChar_ascii small⟩
  · obtain ⟨b, p, leads, covers⟩ := exists_leads (Nat.not_lt.mp ascii)
    exact .inr ⟨b, p, leads, covers, leads.utf8EncodeChar covers⟩

/-- A first byte belongs to the characters whose codes it leaves to complete. -/
theorem Leads.covers {b : UInt8} {p : Pending} (leads : Leads b p) {c : Char} {rest : Bytes}
    (first : String.utf8EncodeChar c = b :: rest) : p.Covers c.toNat := by
  rcases utf8EncodeChar_cases c with ⟨_, small, _, encoded⟩ | ⟨_, _, others, covers, encoded⟩
  · obtain ⟨rfl, _⟩ := List.cons.inj (encoded.symm.trans first)
    cases (start_ascii small).symm.trans leads.start
  · obtain ⟨rfl, _⟩ := List.cons.inj (encoded.symm.trans first)
    cases others.start.symm.trans leads.start
    exact covers

theorem decodeFrom_utf8EncodeChar (c : Char) (rest : Bytes) :
    decodeFrom none (String.utf8EncodeChar c ++ rest) = c :: decodeFrom none rest := by
  rcases utf8EncodeChar_cases c with ⟨b, small, own, encoded⟩ | ⟨b, p, leads, covers, encoded⟩
  · rw [encoded, List.singleton_append, decodeFrom_cons, next, start_ascii small, own]
    rfl
  · rw [encoded, List.cons_append, decodeFrom_cons, next, leads.start]
    exact decodeFrom_tail leads.ready covers rest

/-- Well-formed text in front of any bytes is decoded as itself. -/
theorem decodeFrom_encodeChars (cs : List Char) (rest : Bytes) :
    decodeFrom none (encodeChars cs ++ rest) = cs ++ decodeFrom none rest := by
  induction cs with
  | nil => rfl
  | cons c cs ih =>
    rw [encodeChars, List.flatMap_cons, List.append_assoc, decodeFrom_utf8EncodeChar]
    exact congrArg (c :: ·) ih

theorem decode_encode (s : String) : decode (encode s) = s := by
  have whole := decodeFrom_encodeChars s.toList []
  rw [List.append_nil] at whole
  rw [decode, encode, whole, decodeFrom, List.append_nil, String.ofList_toList]

theorem encode_inj {s t : String} : encode s = encode t ↔ s = t := by
  refine ⟨fun same => ?_, congrArg encode⟩
  rw [← decode_encode s, same, decode_encode]

/-- The bytes are the encoding of some text. -/
def WellFormed (bytes : Bytes) : Prop := ∃ cs, encodeChars cs = bytes

theorem wellFormed_iff {bytes : Bytes} : WellFormed bytes ↔ encode (decode bytes) = bytes := by
  constructor
  · rintro ⟨cs, rfl⟩
    have text : encodeChars cs = encode (String.ofList cs) := by rw [encode, String.toList_ofList]
    rw [text, decode_encode]
  · exact fun same => ⟨_, same⟩

end TaggedRuntime.Utf8
