import Mathlib
import YasbLimitora.Lib.JsonAscii
import YasbLimitora.Lib.JsonOrder

/-!
# How many bytes a value takes

The compact text of a value in UTF-8: six bytes for each code point of a string are enough,
and an object takes what its keys and its values take, whatever their order.

The bound of a string is `Json.byteSize_quote_le`: a control character is the worst, with six
characters for one, and everything else takes no more than the four bytes of its own. Numbers, words
and the brackets around them are counted as they stand. With `Json.byteSize_write_obj_le` a program
that bounds the fields of its messages bounds the messages, in bytes and before it has written one.

The second part is the other question that a writer of bytes has: whether there are bytes at all.
Only a lone surrogate has no spelling in UTF-8, and a writer that does not escape it hands it on, so
that the text of an object can be spelled exactly if its keys and its values can
(`Json.Style.spelled_write_obj_iff`). Where the keys are fixed words only the values are left
(`Json.Style.spelled_write_words_iff`).
-/

namespace Json

open Encoding (utf8Bytes spell Spelled spelled_append)

/-- The bytes of a text. -/
def byteSize (t : Text) : ℕ := (utf8Bytes t).length

section ByteSize

variable {t t' : Text} {fields fields' : Fields}

@[simp] theorem byteSize_nil : byteSize [] = 0 := rfl

/-- Texts that stand one after the other take the bytes of both. -/
theorem byteSize_append (t t' : Text) : byteSize (t ++ t') = byteSize t + byteSize t' := by
  rw [byteSize, utf8Bytes, List.flatMap_append, List.length_append]
  rfl

theorem byteSize_cons (p : CodePoint) (t : Text) : byteSize (p :: t) = (spell p.value).length + byteSize t := by
  rw [byteSize, utf8Bytes, List.flatMap_cons, List.length_append]
  rfl

/-- No code point takes more than four bytes. -/
theorem length_spell_le (n : ℕ) : (spell n).length ≤ 4 := by
  unfold spell
  split_ifs
  all_goals
    simp only [List.length_cons, List.length_nil]
    omega

/-- A character of ASCII takes one byte. -/
theorem byteSize_ofChars {l : List Char} (h : ∀ c ∈ l, c.toNat < 0x80) : byteSize (Text.ofChars l) = l.length := by
  induction l with
  | nil => rfl
  | cons c l ih =>
    rw [List.forall_mem_cons] at h
    have hspell : (spell c.toNat).length = 1 := by
      rw [spell, if_pos h.1]
      rfl
    rw [Text.ofChars, List.map_cons, byteSize_cons, List.length_cons, Nat.add_comm]
    exact congrArg₂ (· + ·) (ih h.2) hspell

/-- A code point of a string takes six bytes at most. -/
theorem byteSize_plain_le (p : CodePoint) : byteSize (Style.plain p) ≤ 6 := by
  rcases p with c | n
  · change byteSize (Text.ofChars (escape c)) ≤ 6
    by_cases hascii : c.toNat < 0x80
    · rw [byteSize_ofChars (Style.toNat_escape hascii)]
      unfold escape
      split_ifs
      all_goals
        simp only [List.length_cons, List.length_nil]
        omega
    · have hplain : escape c = [c] := by
        unfold escape
        have hquote : c ≠ '"' := by
          rintro rfl
          exact hascii (by decide)
        have hslash : c ≠ '\\' := by
          rintro rfl
          exact hascii (by decide)
        rw [if_neg hquote, if_neg hslash, if_neg (by omega), if_neg (by omega), if_neg (by omega),
          if_neg (by omega), if_neg (by omega), if_neg (by omega)]
      have hspell := length_spell_le c.toNat
      rw [hplain, Text.ofChars, List.map_cons, List.map_nil, byteSize_cons, byteSize_nil]
      exact (Nat.add_le_add_right hspell 0).trans (by decide)
  · have hspell := length_spell_le (CodePoint.surrogate n).value
    change byteSize [CodePoint.surrogate n] ≤ 6
    rw [byteSize_cons, byteSize_nil]
    exact (Nat.add_le_add_right hspell 0).trans (by decide)

/-- A code point that is escaped takes six bytes at most. -/
theorem byteSize_flatMap_le (s : Text) : byteSize (s.flatMap Style.plain) ≤ 6 * s.length := by
  induction s with
  | nil => exact le_rfl
  | cons p s ih =>
    have hp := byteSize_plain_le p
    rw [List.flatMap_cons, byteSize_append, List.length_cons]
    omega

/-- A string takes six bytes for each of its code points, and two for its quotation marks. -/
theorem byteSize_quote_le (s : Text) : byteSize (Style.compact.quote s) ≤ 6 * s.length + 2 := by
  have hs := byteSize_flatMap_le s
  have hmark : (spell (CodePoint.ch '"').value).length = 1 := rfl
  rw [Style.quote, List.cons_append, byteSize_cons, byteSize_append, byteSize_cons, byteSize_nil, hmark]
  change 1 + (byteSize (s.flatMap Style.plain) + (1 + 0)) ≤ _
  omega

/-- What a field takes, with its colon and what stands before it. -/
def fieldSize (p : Text × Json Text) : ℕ :=
  byteSize (Style.compact.quote p.1) + byteSize (Style.compact.write p.2) + 2

/-- The fields of an object take their own bytes, the brace another one. -/
theorem byteSize_writeFields (fields : Fields) :
    byteSize (Style.compact.writeFields fields) = (fields.map fieldSize).sum + 1 := by
  induction fields with
  | nil => rfl
  | cons p fields ih =>
    obtain ⟨k, x⟩ := p
    have hcomma : (spell (CodePoint.ch ',').value).length = 1 := rfl
    have hcolon : (spell (CodePoint.ch ':').value).length = 1 := rfl
    have hgap : Style.compact.gap = [] := rfl
    rw [Style.writeFields, hgap, List.map_cons, List.sum_cons, fieldSize]
    simp only [List.cons_append, List.append_assoc, byteSize_cons, byteSize_append, byteSize_nil, hcomma, hcolon, ih]
    omega

/-- **What an object takes**: its braces, and what its fields take. -/
theorem byteSize_write_obj (fields : Fields) :
    byteSize (Style.compact.write (obj fields)) ≤ (fields.map fieldSize).sum + 2 := by
  rcases fields with _ | ⟨⟨k, x⟩, fields⟩
  · exact le_rfl
  · have hbrace : (spell (CodePoint.ch '{').value).length = 1 := rfl
    have hcolon : (spell (CodePoint.ch ':').value).length = 1 := rfl
    have hgap : Style.compact.gap = [] := rfl
    rw [Style.write, hgap, List.map_cons, List.sum_cons, fieldSize]
    simp only [List.cons_append, List.append_assoc, byteSize_cons, byteSize_append, byteSize_nil, hbrace, hcolon,
      byteSize_writeFields]
    omega

/-- Several fields, none of which takes more than a bound. -/
theorem byteSize_write_obj_le {bound : ℕ} (h : ∀ p ∈ fields, fieldSize p ≤ bound) :
    byteSize (Style.compact.write (obj fields)) ≤ fields.length * bound + 2 := by
  refine (byteSize_write_obj fields).trans (Nat.add_le_add_right ?_ 2)
  have hsum := List.sum_le_card_nsmul (fields.map fieldSize) bound (List.forall_mem_map.2 h)
  rwa [List.length_map] at hsum

end ByteSize

/-! ### What can be spelled -/

namespace Style

variable {fields : Fields}

/-- A character can always be spelled. -/
theorem spelled_ch_cons {c : Char} {t : Text} : Spelled (.ch c :: t) ↔ Spelled t := by
  rw [Spelled, List.forall_mem_cons]
  exact and_iff_right (CodePoint.isSurrogate_char c)

/-- A string can be spelled if and only if what is written of it can. -/
theorem spelled_quote_iff {s : Text} : Spelled (compact.quote s) ↔ Spelled s := by
  refine ⟨spelled_of_quote, fun h => ?_⟩
  have hmark : Spelled [CodePoint.ch '"'] := Encoding.spelled_ofChars ['"']
  have hflat : Spelled (s.flatMap compact.escape) := by
    intro p hp
    obtain ⟨q, hq, hpq⟩ := List.mem_flatMap.1 hp
    rcases q with c | n
    · exact Encoding.spelled_ofChars _ p hpq
    · obtain rfl := List.mem_singleton.1 hpq
      exact h _ hq
  rw [quote, List.cons_append, ← List.singleton_append, spelled_append, spelled_append]
  exact ⟨hmark, hflat, hmark⟩

/-- A field can be spelled if its key and its value can. -/
theorem spelled_field_iff {k t rest : Text} :
    Spelled (compact.quote k ++ .ch ':' :: compact.gap ++ t ++ rest) ↔ (Spelled k ∧ Spelled t) ∧ Spelled rest := by
  have hgap : Spelled compact.gap := List.forall_mem_nil _
  rw [spelled_append, spelled_append, spelled_append, spelled_quote_iff, spelled_ch_cons, and_iff_left hgap]

/-- The fields of an object can be spelled if their keys and their values can. -/
theorem spelled_writeFields_iff :
    Spelled (compact.writeFields fields) ↔ ∀ p ∈ fields, Spelled p.1 ∧ Spelled (compact.write p.2) := by
  induction fields with
  | nil => exact iff_of_true (Encoding.spelled_ofChars ['}']) (List.forall_mem_nil _)
  | cons p fields ih =>
    refine Iff.trans ?_ List.forall_mem_cons.symm
    rw [writeFields, List.cons_append, List.cons_append, List.cons_append, List.cons_append, spelled_ch_cons]
    exact spelled_field_iff.trans (and_congr_right' ih)

/-- An object can be spelled if and only if its keys and what is written of its values can. -/
theorem spelled_write_obj_iff :
    Spelled (compact.write (obj fields)) ↔ ∀ p ∈ fields, Spelled p.1 ∧ Spelled (compact.write p.2) := by
  rcases fields with _ | ⟨p, fields⟩
  · exact iff_of_true (Encoding.spelled_ofChars ['{', '}']) (List.forall_mem_nil _)
  · refine Iff.trans ?_ List.forall_mem_cons.symm
    rw [write, List.cons_append, List.cons_append, List.cons_append, spelled_ch_cons]
    exact spelled_field_iff.trans (and_congr_right' spelled_writeFields_iff)

/-- The items of an array can be spelled if each can. -/
theorem spelled_writeItems {items : List (Json Text)} (h : ∀ x ∈ items, Spelled (compact.write x)) :
    Spelled (compact.writeItems items) := by
  induction items with
  | nil => exact Encoding.spelled_ofChars [']']
  | cons x items ih =>
    rw [List.forall_mem_cons] at h
    rw [writeItems, List.cons_append, List.cons_append, spelled_ch_cons, spelled_append, spelled_append]
    exact ⟨⟨List.forall_mem_nil _, h.1⟩, ih h.2⟩

/-- An array can be spelled if its items can. -/
theorem spelled_write_arr {items : List (Json Text)} (h : ∀ x ∈ items, Spelled (compact.write x)) :
    Spelled (compact.write (arr items)) := by
  rcases items with _ | ⟨x, items⟩
  · exact Encoding.spelled_ofChars ['[', ']']
  · rw [List.forall_mem_cons] at h
    rw [write, List.cons_append, spelled_ch_cons, spelled_append]
    exact ⟨h.1, spelled_writeItems h.2⟩

/-- A value that may be null can be spelled if and only if the value that is there can. -/
theorem spelled_write_orNull_iff {α : Type} {f : α → Json Text} {o : Option α} :
    Spelled (compact.write (orNull f o)) ↔ ∀ a ∈ o, Spelled (compact.write (f a)) := by
  rcases o with _ | a
  · exact iff_of_true (Encoding.spelled_ofChars ['n', 'u', 'l', 'l']) nofun
  · exact ⟨fun h b hb => Option.some.inj hb ▸ h, fun h => h a rfl⟩

/-- An object of some keys can be spelled if and only if its values can. -/
theorem spelled_write_words_iff (words : List String) (h : fields.map Prod.fst = words.map Text.ofString) :
    Spelled (compact.write (obj fields)) ↔ ∀ p ∈ fields, Spelled (compact.write p.2) := by
  refine spelled_write_obj_iff.trans (forall₂_congr fun p hp => and_iff_right ?_)
  have hkey : p.1 ∈ fields.map Prod.fst := List.mem_map_of_mem hp
  rw [h] at hkey
  obtain ⟨word, -, hword⟩ := List.mem_map.1 hkey
  rw [← hword]
  exact Encoding.spelled_ofChars _

end Style

end Json
