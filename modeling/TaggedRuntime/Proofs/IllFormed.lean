import TaggedRuntime.Proofs.CharacterBytes

namespace TaggedRuntime.Utf8

/-- Well-formed bytes can begin like this. -/
def Begins (part : Bytes) : Prop := ∃ whole, WellFormed whole ∧ part <+: whole

/-- Where no character can be read: the longest part that well-formed bytes can begin with, or else a single byte. -/
structure MaximalSubpart (part bytes : Bytes) : Prop where
  unconvertible : ∀ c, ¬String.utf8EncodeChar c <+: bytes
  present : part <+: bytes
  shape : part.length = 1 ∨ part ≠ [] ∧ Begins part
  longest : ∀ other, other <+: bytes → Begins other → other.length ≤ part.length

/-- The text of bytes read from the front: the characters there are, and one replacement for each maximal subpart
where there is none. -/
inductive Shown : Bytes → List Char → Prop
  | nothing : Shown [] []
  | character {c rest cs} : Shown rest cs → Shown (String.utf8EncodeChar c ++ rest) (c :: cs)
  | replaced {part rest cs} : MaximalSubpart part (part ++ rest) → Shown rest cs →
      Shown (part ++ rest) (replacement :: cs)

theorem begins_of_prefix {part : Bytes} {c : Char} (within : part <+: String.utf8EncodeChar c) : Begins part :=
  ⟨encodeChars [c], ⟨[c], rfl⟩, by simpa [encodeChars] using within⟩

/-- Where no character can be read, well-formed bytes can only begin within a single one. -/
theorem Begins.within {part bytes : Bytes} (begins : Begins part) (some : part ≠ []) (present : part <+: bytes)
    (unconvertible : ∀ c, ¬String.utf8EncodeChar c <+: bytes) : ∃ c, part <+: String.utf8EncodeChar c := by
  obtain ⟨_, ⟨cs, rfl⟩, within⟩ := begins
  cases cs with
  | nil => exact absurd (List.prefix_nil.mp within) some
  | cons c cs =>
    have first : String.utf8EncodeChar c <+: encodeChars (c :: cs) := by
      rw [encodeChars, List.flatMap_cons]
      exact List.prefix_append ..
    rcases List.prefix_or_prefix_of_prefix within first with inside | past
    · exact ⟨c, inside⟩
    · exact absurd (past.trans present) (unconvertible c)

theorem MaximalSubpart.ne_nil {part bytes : Bytes} (maximal : MaximalSubpart part bytes) : part ≠ [] := by
  rcases maximal.shape with one | ⟨some, _⟩
  · rintro rfl
    cases one
  · exact some

theorem MaximalSubpart.unique {part other bytes : Bytes} (left : MaximalSubpart part bytes)
    (right : MaximalSubpart other bytes) : part = other := by
  have le {part other : Bytes} (left : MaximalSubpart part bytes) (right : MaximalSubpart other bytes) :
      part.length ≤ other.length := by
    rcases left.shape with one | ⟨_, begins⟩
    · rw [one]
      exact List.length_pos_iff.mpr right.ne_nil
    · exact right.longest part left.present begins
  exact (List.prefix_of_prefix_length_le left.present right.present (le left right)).eq_of_length
    (Nat.le_antisymm (le left right) (le right left))

namespace Pending

variable {p : Pending} {later : Nat} {b : UInt8}

/-- After this part the bytes to come do not complete what is pending, and that is shown as one replacement. -/
structure Breaks (p : Pending) (part rest : Bytes) : Prop where
  shown : decodeFrom (some p) (part ++ rest) = replacement :: decodeFrom none rest
  within : ∃ c : Char, p.Covers c.toNat ∧ part <+: tail (p.later + 1) c.toNat
  short : part.length ≤ p.later
  longest : ∀ c : Char, p.Covers c.toNat → ∀ other, other <+: tail (p.later + 1) c.toNat →
    other <+: part ++ rest → other.length ≤ part.length

theorem Ready.exists_char (ready : p.Ready) {code : Nat} (covers : p.Covers code) : ∃ c : Char, c.toNat = code :=
  ⟨Char.ofNat code, ready.toNat_ofNat covers⟩

theorem Ready.covers_push_iff (ready : p.Ready) (more : p.later = later + 1) (atLeast : p.least ≤ b)
    (atMost : b ≤ p.most) {code : Nat} :
    (p.push b later).Covers code ↔ p.Covers code ∧ continuation p.later code = b := by
  rw [covers_push, ← more, ready.covers_and_continuation_iff atLeast atMost]

/-- Bytes that do not go on in the range break at once. -/
theorem Ready.breaks (ready : p.Ready) {bytes : Bytes} (ended : ∀ b ∈ bytes.head?, ¬(p.least ≤ b ∧ b ≤ p.most)) :
    p.Breaks [] bytes where
  shown := by
    cases bytes with
    | nil => rfl
    | cons b rest =>
      rw [List.nil_append, decodeFrom_cons, next_of_outside (ended b rfl), decodeFrom_cons]
      rfl
  within := by
    obtain ⟨c, code⟩ := ready.exists_char ready.lowest_covers
    exact ⟨c, code ▸ ready.lowest_covers, List.nil_prefix⟩
  short := Nat.zero_le _
  longest := by
    intro c covers other inside present
    cases other with
    | nil => exact Nat.le_refl _
    | cons b other =>
      obtain ⟨rest, rfl⟩ := present
      obtain ⟨own, _⟩ := List.cons_prefix_cons.mp inside
      exact absurd (own ▸ ready.continuation_mem covers) (ended b rfl)

theorem Breaks.push {part rest : Bytes} (breaks : (p.push b later).Breaks part rest) (ready : p.Ready)
    (more : p.later = later + 1) (range : p.least ≤ b ∧ b ≤ p.most) : p.Breaks (b :: part) rest where
  shown := by
    rw [List.cons_append, decodeFrom_cons, next_more more range]
    exact breaks.shown
  within := by
    obtain ⟨c, covers, inside⟩ := breaks.within
    obtain ⟨covers, own⟩ := (ready.covers_push_iff more range.1 range.2).mp covers
    refine ⟨c, covers, ?_⟩
    rw [tail, own, more]
    exact List.cons_prefix_cons.mpr ⟨rfl, inside⟩
  short := by
    rw [more, List.length_cons]
    exact Nat.succ_le_succ breaks.short
  longest := by
    intro c covers other inside present
    cases other with
    | nil => exact Nat.zero_le _
    | cons first other =>
      obtain ⟨own, inside⟩ := List.cons_prefix_cons.mp inside
      obtain ⟨rfl, ahead⟩ := List.cons_prefix_cons.mp present
      have further := (ready.covers_push_iff more range.1 range.2).mpr ⟨covers, own.symm⟩
      exact Nat.succ_le_succ (breaks.longest c further other (more ▸ inside) ahead)

/-- Bytes complete what is pending, or they break. -/
theorem Ready.completes_or_breaks (ready : p.Ready) (bytes : Bytes) :
    (∃ c : Char, p.Covers c.toNat ∧ tail (p.later + 1) c.toNat <+: bytes) ∨
      ∃ part rest, bytes = part ++ rest ∧ p.Breaks part rest := by
  -- each byte in the range leaves something pending that is ready again, with one byte less to come
  induction bytes generalizing p with
  | nil => exact .inr ⟨[], [], rfl, ready.breaks (by simp)⟩
  | cons b bytes ih =>
    by_cases range : p.least ≤ b ∧ b ≤ p.most
    · cases more : p.later with
      | zero =>
        have whole : (p.code * 64 + (b.toNat - 0x80)) / 64 ^ p.later = p.code * 64 + (b.toNat - 0x80) := by
          rw [more, Nat.pow_zero, Nat.div_one]
        obtain ⟨covers, own⟩ := (ready.covers_and_continuation_iff range.1 range.2).mpr whole
        rw [more] at own
        obtain ⟨c, code⟩ := ready.exists_char covers
        refine .inl ⟨c, code ▸ covers, ?_⟩
        rw [tail, code, own]
        exact List.cons_prefix_cons.mpr ⟨rfl, List.nil_prefix⟩
      | succ later =>
        rcases ih (ready.push more range.1 range.2) with ⟨c, covers, present⟩ | ⟨part, rest, rfl, breaks⟩
        · obtain ⟨covers, own⟩ := (ready.covers_push_iff more range.1 range.2).mp covers
          refine .inl ⟨c, covers, ?_⟩
          rw [tail, ← more, own, more]
          exact List.cons_prefix_cons.mpr ⟨rfl, present⟩
        · exact .inr ⟨b :: part, rest, rfl, breaks.push ready more range⟩
    · refine .inr ⟨[], b :: bytes, rfl, ready.breaks fun first head => ?_⟩
      cases head
      exact range

end Pending

theorem utf8EncodeChar_of_prefix {c : Char} {b : UInt8} {bytes : Bytes} (present : String.utf8EncodeChar c <+: b :: bytes) :
    ∃ later, String.utf8EncodeChar c = b :: later ∧ later <+: bytes := by
  cases encoded : String.utf8EncodeChar c with
  | nil =>
    have some := Char.utf8Size_pos c
    rw [← String.length_utf8EncodeChar, encoded] at some
    cases some
  | cons first later =>
    rw [encoded] at present
    obtain ⟨rfl, ahead⟩ := List.cons_prefix_cons.mp present
    exact ⟨later, rfl, ahead⟩

/-- What breaks after a first byte is a maximal subpart with that byte. -/
theorem Leads.maximalSubpart {b : UInt8} {p : Pending} (leads : Leads b p) {part rest : Bytes}
    (breaks : p.Breaks part rest) : MaximalSubpart (b :: part) (b :: (part ++ rest)) := by
  have unconvertible : ∀ c, ¬String.utf8EncodeChar c <+: b :: (part ++ rest) := by
    intro c present
    obtain ⟨later, encoded, ahead⟩ := utf8EncodeChar_of_prefix present
    have covers := leads.covers encoded
    obtain ⟨_, rfl⟩ := List.cons.inj ((leads.utf8EncodeChar covers).symm.trans encoded)
    have long := breaks.longest c covers _ (List.prefix_refl _) ahead
    have short := breaks.short
    rw [length_tail] at long
    omega
  refine ⟨unconvertible, List.prefix_append (b :: part) rest, ?_, ?_⟩
  · obtain ⟨c, covers, inside⟩ := breaks.within
    refine .inr ⟨by simp, begins_of_prefix (c := c) ?_⟩
    rw [leads.utf8EncodeChar covers]
    exact List.cons_prefix_cons.mpr ⟨rfl, inside⟩
  · intro other present begins
    cases other with
    | nil => exact Nat.zero_le _
    | cons first other =>
      obtain ⟨c, inside⟩ := begins.within (by simp) present unconvertible
      obtain ⟨rfl, ahead⟩ := List.cons_prefix_cons.mp present
      obtain ⟨last, encoded⟩ := inside
      have covers := leads.covers encoded.symm
      obtain ⟨_, whole⟩ := List.cons.inj (encoded.trans (leads.utf8EncodeChar covers))
      exact Nat.succ_le_succ (breaks.longest c covers other ⟨last, whole⟩ ahead)

/-- A byte that begins no character is a maximal subpart by itself. -/
theorem maximalSubpart_singleton {b : UInt8} (none : ∀ c later, String.utf8EncodeChar c ≠ b :: later) (rest : Bytes) :
    MaximalSubpart [b] (b :: rest) := by
  have unconvertible : ∀ c, ¬String.utf8EncodeChar c <+: b :: rest := by
    intro c present
    obtain ⟨later, encoded, _⟩ := utf8EncodeChar_of_prefix present
    exact none c later encoded
  refine ⟨unconvertible, List.prefix_append [b] rest, .inl rfl, ?_⟩
  intro other present begins
  cases other with
  | nil => exact Nat.zero_le _
  | cons first other =>
    obtain ⟨c, last, encoded⟩ := begins.within (by simp) present unconvertible
    obtain ⟨rfl, _⟩ := List.cons_prefix_cons.mp present
    exact absurd encoded.symm (none c _)

/-- Bytes begin with a character or with a maximal subpart, which is shown as one replacement. -/
theorem decodeFrom_first {bytes : Bytes} (some : bytes ≠ []) :
    (∃ c rest, bytes = String.utf8EncodeChar c ++ rest) ∨
      ∃ part rest, bytes = part ++ rest ∧ MaximalSubpart part bytes ∧
        decodeFrom none bytes = replacement :: decodeFrom none rest := by
  obtain ⟨b, rest, rfl⟩ := List.exists_cons_of_ne_nil some
  by_cases ascii : b < 0x80
  · exact .inl ⟨Char.ofNat b.toNat, rest, by rw [utf8EncodeChar_ascii ascii, List.singleton_append]⟩
  rcases start_cases ascii with ⟨p, leads⟩ | alone
  · rcases leads.ready.completes_or_breaks rest with ⟨c, covers, last, rfl⟩ | ⟨part, last, rfl, breaks⟩
    · exact .inl ⟨c, last, by rw [leads.utf8EncodeChar covers, List.cons_append]⟩
    · refine .inr ⟨b :: part, last, rfl, leads.maximalSubpart breaks, ?_⟩
      rw [decodeFrom_cons, next, leads.start]
      exact breaks.shown
  · refine .inr ⟨[b], rest, rfl, maximalSubpart_singleton ?_ rest, ?_⟩
    · intro c later encoded
      rcases utf8EncodeChar_cases c with ⟨_, small, _, own⟩ | ⟨_, _, leads, _, own⟩
      · obtain ⟨rfl, _⟩ := List.cons.inj (own.symm.trans encoded)
        exact ascii small
      · obtain ⟨rfl, _⟩ := List.cons.inj (own.symm.trans encoded)
        cases leads.start.symm.trans alone
    · rw [decodeFrom_cons, next, alone]
      rfl

theorem shown_decodeFrom (bytes : Bytes) : Shown bytes (decodeFrom none bytes) := by
  by_cases none : bytes = []
  · subst none
    exact .nothing
  rcases decodeFrom_first none with ⟨c, rest, rfl⟩ | ⟨part, rest, rfl, maximal, shown⟩
  · rw [decodeFrom_utf8EncodeChar]
    have shorter := Char.utf8Size_pos c
    exact .character (shown_decodeFrom rest)
  · rw [shown]
    have shorter := List.length_pos_iff.mpr maximal.ne_nil
    exact .replaced maximal (shown_decodeFrom rest)
termination_by bytes.length
decreasing_by
  all_goals
    subst bytes
    simp only [List.length_append, String.length_utf8EncodeChar]
    omega

/-- The decoder shows each maximal subpart, and nothing else, as one replacement. -/
theorem shown_iff {bytes : Bytes} {cs : List Char} : Shown bytes cs ↔ cs = decodeFrom none bytes := by
  constructor
  · intro shown
    induction shown with
    | nothing => rfl
    | @character c rest cs _ ih => rw [decodeFrom_utf8EncodeChar, ih]
    | @replaced part rest cs maximal _ ih =>
      have some : part ++ rest ≠ [] := List.append_ne_nil_of_left_ne_nil maximal.ne_nil rest
      -- the decoder cuts off the same part, since there is only one that is maximal
      rcases decodeFrom_first some with ⟨c, others, cut⟩ | ⟨other, others, cut, same, shown⟩
      · exact absurd ⟨others, cut.symm⟩ (maximal.unconvertible c)
      · cases maximal.unique same
        rw [shown, ih, List.append_cancel_left cut]
  · rintro rfl
    exact shown_decodeFrom bytes

end TaggedRuntime.Utf8
