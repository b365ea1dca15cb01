import Mathlib
import YasbLimitora.Lib.JsonText
import YasbLimitora.Lib.Utf8

/-!
# Values spelled in ASCII

What `Json.Style.ascii` writes is in ASCII (`Json.Style.inAscii_write`), and so its bytes are
decoded to it again (`Json.Readable.parse_ascii`).

The style escapes every code point above `0x7E`, a character outside the basic plane as two halves,
and a surrogate by its own number. So the text that it writes has no surrogate, whatever the strings
of the value have in them: it can be spelled in every encoding, and a reader that detects the
encoding of a document by its first bytes finds no mark and no zero byte in it.

The proof goes along the writer: one escape, one string, one number, and by the structure of the
value its items and its fields (`Json.Style.inAscii_writeItems`, `Json.Style.inAscii_writeFields`).
What a program writes for another one in this style needs no assumption on the strings that it was
given.
-/

/-- A text in ASCII. -/
def Text.InAscii (t : Text) : Prop := ∀ p ∈ t, p.value < 0x80

instance (t : Text) : Decidable t.InAscii := inferInstanceAs (Decidable (∀ p ∈ t, p.value < 0x80))

namespace Text.InAscii

variable {s t : Text}

theorem append : (s ++ t).InAscii ↔ s.InAscii ∧ t.InAscii := List.forall_mem_append

theorem cons {p : CodePoint} : InAscii (p :: t) ↔ p.value < 0x80 ∧ t.InAscii := List.forall_mem_cons

/-- A text of characters is in ASCII if they are. -/
theorem ofChars {l : List Char} : (Text.ofChars l).InAscii ↔ ∀ c ∈ l, c.toNat < 0x80 := by
  simp only [InAscii, Text.ofChars, List.forall_mem_map, CodePoint.value]

/-- UTF-8 spells it, as it stands. -/
theorem utf8 (h : t.InAscii) : Encoding.utf8 false (Encoding.ascii t) = some t := by
  rw [← Encoding.utf8Bytes_eq_ascii h]
  refine Encoding.utf8_utf8Bytes fun p hp hsurrogate => ?_
  have hp := h p hp
  exact absurd (hsurrogate.1.trans_lt hp) (by decide)

end Text.InAscii

namespace Json

open DecimalText

open Text (InAscii)

/-- The digits of every base are in ASCII. -/
theorem toNat_digitChar (n : ℕ) : (Nat.digitChar n).toNat < 0x80 := by
  rcases lt_or_ge n 16 with h | h
  · interval_cases n <;> decide
  · obtain ⟨m, rfl⟩ := Nat.exists_eq_add_of_le' h
    exact (by decide : ('*' : Char).toNat < 0x80)

theorem toNat_of_isDigit {c : Char} (h : isDigit c = true) : c.toNat < 0x80 := by
  rw [← digit_digitVal h]
  exact toNat_digitChar _

/-- An integer is written in ASCII. -/
theorem toNat_intChars (n : ℤ) : ∀ c ∈ intChars n, c.toNat < 0x80 := by
  have hdigits : ∀ c ∈ natText n.natAbs, c.toNat < 0x80 := fun c hc =>
    toNat_of_isDigit (List.all_eq_true.1 (all_isDigit_natText _) c hc)
  rw [intChars]
  split_ifs
  · exact List.forall_mem_cons.2 ⟨by decide, hdigits⟩
  · exact hdigits

namespace Style

/-- The escape of a code unit is in ASCII, whatever the unit is. -/
theorem inAscii_unit (n : ℕ) : (unit n).InAscii := by
  rw [unit, InAscii.ofChars]
  simp only [List.forall_mem_cons]
  exact ⟨by decide, by decide, toNat_digitChar _, toNat_digitChar _, toNat_digitChar _, toNat_digitChar _,
    List.forall_mem_nil _⟩

/-- The escape of a character of ASCII is in ASCII. -/
theorem toNat_escape {c : Char} (h : c.toNat < 0x80) : ∀ d ∈ Json.escape c, d.toNat < 0x80 := by
  rw [Json.escape]
  split_ifs
  all_goals simp only [List.forall_mem_cons]
  all_goals first
    | exact ⟨by decide, by decide, List.forall_mem_nil _⟩
    | exact ⟨h, List.forall_mem_nil _⟩
    | exact ⟨by decide, by decide, by decide, by decide, toNat_digitChar _, toNat_digitChar _,
        List.forall_mem_nil _⟩

/-- Each code point is spelled in ASCII: as it stands, or by its code units. -/
theorem inAscii_spellAscii (p : CodePoint) : (spellAscii p).InAscii := by
  rcases p with c | n
  · rw [spellAscii]
    split_ifs with hc
    · exact InAscii.ofChars.2 (toNat_escape (hc.trans (by decide)))
    · exact inAscii_unit _
    · exact InAscii.append.2 ⟨inAscii_unit _, inAscii_unit _⟩
  · exact inAscii_unit _

section Write

variable {gap : Text} {r : Reader}

/-- A string is written in ASCII, with its quotation marks. -/
theorem inAscii_quote (s : Text) : ((ascii gap).quote s).InAscii := by
  refine InAscii.append.2 ⟨InAscii.cons.2 ⟨by decide, fun p hp => ?_⟩, by decide⟩
  obtain ⟨q, -, hq⟩ := List.mem_flatMap.1 hp
  exact inAscii_spellAscii q p hq

variable (hgap : gap.InAscii)

include hgap

mutual

/-- **What is written is in ASCII.** -/
theorem inAscii_write : ∀ {j : Json Text}, j.Readable r → ((ascii gap).write j).InAscii
  | null, _ => by rw [write]; decide
  | bool true, _ => by rw [write]; decide
  | bool false, _ => by rw [write]; decide
  | int n, _ => InAscii.ofChars.2 (toNat_intChars n)
  | float _, h => InAscii.ofChars.2 h.ascii
  | str s, _ => inAscii_quote s
  | arr [], _ => by rw [write]; decide
  | arr (_ :: _), h =>
    InAscii.append.2 ⟨InAscii.cons.2 ⟨by decide, inAscii_write h.1⟩, inAscii_writeItems h.2⟩
  | obj [], _ => by rw [write]; decide
  | obj ((k, _) :: _), h => by
    obtain ⟨-, -, hx, hfields⟩ := h
    simp only [write, InAscii.append, InAscii.cons]
    exact ⟨⟨⟨⟨by decide, inAscii_quote k⟩, by decide, hgap⟩, inAscii_write hx⟩, inAscii_writeFields hfields⟩

theorem inAscii_writeItems : ∀ {xs : List (Json Text)}, ReadableItems r xs → ((ascii gap).writeItems xs).InAscii
  | [], _ => by rw [writeItems]; decide
  | _ :: _, h => by
    simp only [writeItems, InAscii.append, InAscii.cons]
    exact ⟨⟨⟨by decide, hgap⟩, inAscii_write h.1⟩, inAscii_writeItems h.2⟩

theorem inAscii_writeFields : ∀ {fields : List (Text × Json Text)}, ReadableFields r fields →
    ((ascii gap).writeFields fields).InAscii
  | [], _ => by rw [writeFields]; decide
  | (k, _) :: _, h => by
    obtain ⟨-, hx, hfields⟩ := h
    simp only [writeFields, InAscii.append, InAscii.cons]
    exact ⟨⟨⟨⟨⟨by decide, hgap⟩, inAscii_quote k⟩, by decide, hgap⟩, inAscii_write hx⟩,
      inAscii_writeFields hfields⟩

end

end Write

end Style

section Decode

variable {gap : Text} {r : Reader} {j : Json Text}

/-- The bytes of what is written are decoded. -/
theorem Readable.utf8_write (hgap : gap.InAscii) (h : j.Readable r) :
    Encoding.utf8 false (Encoding.ascii ((Style.ascii gap).write j)) = some ((Style.ascii gap).write j) :=
  (Style.inAscii_write hgap h).utf8

/-- **What is written in ASCII is read back.** -/
theorem Readable.parse_ascii (hgap : ∀ p ∈ gap, isBlank p = true) (h : j.Readable r) :
    parse r ((Style.ascii gap).write j) = some j := by
  have hparse := h.parse_write (Style.sound_ascii gap hgap) (Or.inl rfl)
  rwa [List.append_nil] at hparse

end Decode

end Json
