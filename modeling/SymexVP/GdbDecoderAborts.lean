import SymexVP.GdbRunLength

/-!
# Characters the decoder dies on

`gdb_decode_runlen` asserts that a character to emit is not negative, and a character from
0x80 on is where the compiler reads a plain `char` as signed. The decoder gets to such a
character unless the encoding in front of it is malformed. Behind a marker the character
is a count, and a negative count is refused.
-/

namespace SymexVP.Gdb

/-- What stands behind a marker is a second marker or a positive count. -/
def CountFits (left right : Byte) : Prop :=
  left = byte '*' → right = byte '*' ∨ 30 ≤ right

/-- The first character from 0x80 on, with nothing malformed in front of it, is no count. -/
def EmitsNegative (data : List Byte) : Prop :=
  ∃ before character after, data = before ++ character :: after ∧ SevenBit before ∧
    0x80 ≤ character ∧ before.head? ≠ some (byte '*') ∧ before.IsChain CountFits ∧
    before.getLast? ≠ some (byte '*')

/-- The same behind a character that has been read. -/
def EmitsNegativeBehind (previous : Byte) (data : List Byte) : Prop :=
  ∃ before character after, data = before ++ character :: after ∧ SevenBit before ∧
    0x80 ≤ character ∧ (previous :: before).IsChain CountFits ∧
    (previous :: before).getLast? ≠ some (byte '*')

/-- The decoder dies. -/
def DecoderDies (plain : PlainChar) (previous : Option Byte) (runlen : Int) (data : List Byte) :
    Prop := ∃ abort, decodeRunlen plain previous runlen data = .error abort

theorem emitted_dies_iff {characters : List Byte} {result : Except Abort (Option (List Byte))} :
    (∃ abort, emitted characters result = .error abort) ↔ ∃ abort, result = .error abort := by
  rcases result with abort | _ | decoded <;> simp [emitted]

section Behind

variable {previous character : Byte} {rest : List Byte}

theorem not_emitsNegativeBehind_nil : ¬EmitsNegativeBehind previous [] := by
  rintro ⟨before, character, after, split, -⟩
  exact absurd split.symm (by simp)

/-- A character of seven bits belongs to what is in front of the first larger one. -/
theorem exists_first_large_cons {condition : List Byte → Prop} (small : character < 0x80) :
    (∃ before large after, character :: rest = before ++ large :: after ∧ SevenBit before ∧
        0x80 ≤ large ∧ condition before) ↔
      ∃ before large after, rest = before ++ large :: after ∧ SevenBit before ∧
        0x80 ≤ large ∧ condition (character :: before) := by
  constructor
  · rintro ⟨before, negative, after, split, sevenBit, large, met⟩
    cases before with
    | nil =>
        cases split
        exact absurd small (BitVec.not_lt.mpr large)
    | cons first before =>
        cases split
        exact ⟨before, negative, after, rfl,
          fun other member => sevenBit other (List.mem_cons_of_mem _ member), large, met⟩
  · rintro ⟨before, negative, after, rfl, sevenBit, large, met⟩
    refine ⟨character :: before, negative, after, rfl, ?_, large, met⟩
    intro other member
    rcases List.mem_cons.mp member with rfl | member
    · exact small
    · exact sevenBit other member

/-- A character of seven bits that fits behind the previous one. -/
theorem emitsNegativeBehind_cons (small : character < 0x80) :
    EmitsNegativeBehind previous (character :: rest) ↔
      CountFits previous character ∧ EmitsNegativeBehind character rest := by
  unfold EmitsNegativeBehind
  rw [exists_first_large_cons small]
  simp only [List.isChain_cons_cons, List.getLast?_cons_cons]
  constructor
  · rintro ⟨before, negative, after, split, sevenBit, large, ⟨fits, chain⟩, last⟩
    exact ⟨fits, before, negative, after, split, sevenBit, large, chain, last⟩
  · rintro ⟨fits, before, negative, after, split, sevenBit, large, chain, last⟩
    exact ⟨before, negative, after, split, sevenBit, large, ⟨fits, chain⟩, last⟩

theorem emitsNegative_cons (small : character < 0x80) (other : character ≠ byte '*') :
    EmitsNegative (character :: rest) ↔ EmitsNegativeBehind character rest := by
  unfold EmitsNegative EmitsNegativeBehind
  rw [exists_first_large_cons small]
  simp only [List.head?_cons, ne_eq, Option.some.injEq, other, not_false_iff, true_and]

/-- A character from 0x80 on. -/
theorem emitsNegativeBehind_large (large : 0x80 ≤ character) :
    EmitsNegativeBehind previous (character :: rest) ↔ previous ≠ byte '*' := by
  constructor
  · rintro ⟨before, negative, after, split, sevenBit, -, -, last⟩
    cases before with
    | nil => simpa using last
    | cons first before =>
        cases split
        exact absurd (sevenBit character List.mem_cons_self) (BitVec.not_lt.mpr large)
  · intro unmarked
    exact ⟨[], character, rest, rfl, fun _ member => absurd member List.not_mem_nil, large,
      List.isChain_singleton _, by simpa using unmarked⟩

end Behind

/-! ## Signed characters -/

theorem toInt_of_large {character : Byte} (large : 0x80 ≤ character) :
    PlainChar.signed.toInt character < 0 := by
  have bound : 128 ≤ character.toNat := large
  have width := character.isLt
  show character.toInt < 0
  rw [BitVec.toInt_eq_toNat_cond]
  split <;> omega

/-- Such a character is not emitted. -/
theorem decodeRunlen_negative {character : Byte} (large : 0x80 ≤ character)
    (other : character ≠ byte '*') (previous : Option Byte) (data : List Byte) :
    decodeRunlen .signed previous (-1) (character :: data) = .error .assertion := by
  have negative := toInt_of_large large
  simp only [decodeRunlen, if_neg other, if_true]
  rw [if_neg (by decide), if_pos (.inl negative)]

/-- What the decoder has behind a character: something to repeat behind a marker only. -/
def Tracks (previous : Byte) (runlen : Int) : Prop :=
  previous < 0x80 ∧ if previous = byte '*' then 0 ≤ runlen ∧ runlen ≤ 127 else runlen = -1

section Character

variable {previous character : Byte} {data : List Byte}

theorem tracks_plain (small : character < 0x80) (other : character ≠ byte '*') :
    Tracks character (-1) := ⟨small, by rw [if_neg other]⟩

/-- A character that is due to be a count. -/
theorem decoderDies_count_iff {runlen : Int} (other : character ≠ byte '*')
    (due : previous = byte '*') (bounds : 0 ≤ runlen ∧ runlen ≤ 127)
    (later : Tracks character (-1) →
      (DecoderDies .signed (some character) (-1) data ↔ EmitsNegativeBehind character data)) :
    DecoderDies .signed (some previous) runlen (character :: data) ↔
      EmitsNegativeBehind previous (character :: data) := by
  have fits : runlen ≤ PlainChar.signed.max := bounds.2
  rw [DecoderDies, decodeRunlen_repeats bounds.1 fits other]
  by_cases small : character < 0x80
  · have value := (toInt_of_small .signed small).1
    rw [emitsNegativeBehind_cons small, ← later (tracks_plain small other), value]
    by_cases positive : 30 ≤ character
    · have bound : 30 ≤ character.toNat := positive
      have fits : CountFits previous character := fun _ => .inr positive
      rw [if_neg (by omega), emitted_dies_iff, and_iff_right fits, DecoderDies]
    · have bound : ¬30 ≤ character.toNat := positive
      rw [if_pos (by omega)]
      refine iff_of_false nofun fun both => ?_
      exact (both.1 due).elim other positive
  · have large := BitVec.not_lt.mp small
    have negative := toInt_of_large large
    rw [if_pos (by omega), emitsNegativeBehind_large large]
    exact iff_of_false nofun fun unmarked => unmarked due

/-- A character that is emitted itself. -/
theorem decoderDies_plain_iff (other : character ≠ byte '*') (plain : previous ≠ byte '*')
    (later : Tracks character (-1) →
      (DecoderDies .signed (some character) (-1) data ↔ EmitsNegativeBehind character data)) :
    DecoderDies .signed (some previous) (-1) (character :: data) ↔
      EmitsNegativeBehind previous (character :: data) := by
  by_cases small : character < 0x80
  · have fits : CountFits previous character := fun marked => absurd marked plain
    rw [DecoderDies, decodeRunlen_plain small other, emitted_dies_iff,
      emitsNegativeBehind_cons small, and_iff_right fits, ← later (tracks_plain small other),
      DecoderDies]
  · have large := BitVec.not_lt.mp small
    rw [emitsNegativeBehind_large large]
    exact iff_of_true ⟨_, decodeRunlen_negative large other (some previous) data⟩ plain

end Character

/-- The loop behind a character of seven bits. -/
theorem decoderDies_behind_iff {previous : Byte} {runlen : Int} (tracks : Tracks previous runlen)
    (data : List Byte) :
    DecoderDies .signed (some previous) runlen data ↔ EmitsNegativeBehind previous data := by
  induction data generalizing previous runlen with
  | nil => exact iff_of_false nofun not_emitsNegativeBehind_nil
  | cons character data inductionHypothesis =>
      obtain ⟨small, tracks⟩ := tracks
      by_cases marker : character = byte '*'
      · subst marker
        have next : Tracks (byte '*') previous.toNat := by
          have bound : previous.toNat < 128 := small
          refine ⟨by decide, ?_⟩
          rw [if_pos rfl]
          omega
        have fits : CountFits previous (byte '*') := fun _ => .inl rfl
        rw [DecoderDies, decodeRunlen_marker small, ← DecoderDies, inductionHypothesis next,
          emitsNegativeBehind_cons (by decide), and_iff_right fits]
      · by_cases due : previous = byte '*'
        · rw [if_pos due] at tracks
          exact decoderDies_count_iff marker due tracks inductionHypothesis
        · rw [if_neg due] at tracks
          subst tracks
          exact decoderDies_plain_iff marker due inductionHypothesis

/-- The first character has nothing in front of it to repeat. -/
theorem decoderDies_signed_iff (data : List Byte) :
    DecoderDies .signed none (-1) data ↔ EmitsNegative data := by
  cases data with
  | nil =>
      refine iff_of_false nofun ?_
      rintro ⟨before, character, after, split, -⟩
      exact absurd split.symm (by simp)
  | cons character data =>
      by_cases marker : character = byte '*'
      · subst marker
        refine iff_of_false nofun ?_
        rintro ⟨before, negative, after, split, -, large, head, -⟩
        cases before with
        | nil =>
            cases split
            exact absurd large (by decide)
        | cons first before =>
            cases split
            exact head rfl
      · by_cases small : character < 0x80
        · rw [DecoderDies, decodeRunlen_plain small marker, emitted_dies_iff, ← DecoderDies,
            decoderDies_behind_iff (tracks_plain small marker), emitsNegative_cons small marker]
        · have large := BitVec.not_lt.mp small
          refine iff_of_true ⟨_, decodeRunlen_negative large marker none data⟩ ?_
          exact ⟨[], character, data, rfl, fun _ member => absurd member List.not_mem_nil, large,
            nofun, List.isChain_nil, nofun⟩

/-- Unsigned characters are never negative. -/
theorem not_decoderDies_unsigned {runlen : Int} (bounds : runlen = -1 ∨ 0 ≤ runlen ∧ runlen ≤ 255)
    (previous : Option Byte) (data : List Byte) :
    ¬DecoderDies .unsigned previous runlen data := by
  induction data generalizing previous runlen with
  | nil =>
      rintro ⟨_, ⟨⟩⟩
  | cons character data inductionHypothesis =>
      have width := character.isLt
      rw [DecoderDies]
      by_cases marker : character = byte '*'
      · subst marker
        cases previous with
        | none =>
            rintro ⟨_, ⟨⟩⟩
        | some previous =>
            have width := previous.isLt
            have next : (0 : Int) ≤ previous.toNat ∧ (previous.toNat : Int) ≤ 255 := by omega
            exact inductionHypothesis (.inr next) (some (byte '*'))
      · rcases bounds with rfl | bounds
        · have passes : ¬((character.toNat : Int) < 0 ∨ (255 : Int) < character.toNat) := by omega
          simp only [decodeRunlen, if_neg marker, if_true, PlainChar.toInt, PlainChar.max,
            if_neg passes]
          exact emitted_dies_iff.not.mpr (inductionHypothesis (.inl rfl) (some character))
        · have fits : runlen ≤ PlainChar.unsigned.max := bounds.2
          rw [decodeRunlen_repeats bounds.1 fits marker]
          split
          · rintro ⟨_, ⟨⟩⟩
          · exact emitted_dies_iff.not.mpr (inductionHypothesis (.inl rfl) (some character))

/-- The decoder dies if and only if characters are signed and the data has one it emits. -/
theorem gdbDecodeRunlen_dies_iff (plain : PlainChar) (data : CString) :
    (∃ abort, gdbDecodeRunlen plain data = .error abort) ↔
      plain = .signed ∧ EmitsNegative data.bytes := by
  cases plain with
  | signed =>
      rw [and_iff_right rfl]
      exact decoderDies_signed_iff data.bytes
  | unsigned => exact iff_of_false (not_decoderDies_unsigned (.inl rfl) none data.bytes) nofun

end SymexVP.Gdb
