import Mathlib
import YasbLimitora.Lib.JsonSize

/-!
# Values of characters

A JSON value whose strings are made of characters, as a value whose strings are texts
(`Json.spell`). The two have the same compact text (`Json.write_spell`), which is read back as
the value when its numbers are short integers and no object repeats a key
(`Json.Plain`, and the lemmas about it here).

Programs build their documents of character strings, while what is read of bytes may have surrogates
in its strings. The first kind is a part of the second, and `Json.spell` is the way there: it is
injective (`Json.spell_injective`), so that a document is known by the value that is read back of
it, and it commutes with writing, so that the characters that a program counts are those that a
reader gets.

The readers of this library refuse an integer with too many digits and an object that repeats a key.
`Json.Plain` is the part of what they need that does not hold by itself: the lemmas about it follow
the shape of a value, and for an object with fixed keys only its values are left to look at.
-/

namespace Json

open DecimalText

mutual

/-- A value of characters as a value of texts. -/
def spell : Json → Json Text
  | null => null
  | bool b => bool b
  | int n => int n
  | float t => float t
  | str s => str (Text.ofString s)
  | arr items => arr (spellItems items)
  | obj fields => obj (spellFields fields)

def spellItems : List Json → List (Json Text)
  | [] => []
  | x :: xs => spell x :: spellItems xs

def spellFields : List (String × Json) → List (Text × Json Text)
  | [] => []
  | (k, x) :: fields => (Text.ofString k, spell x) :: spellFields fields

end

/-- The items of an array are spelled one by one. -/
theorem spellItems_eq_map (xs : List Json) : spellItems xs = xs.map spell := by
  induction xs with
  | nil => rfl
  | cons x xs ih => rw [spellItems, ih, List.map_cons]

/-- The fields of an object are spelled one by one. -/
theorem spellFields_eq_map (fields : List (String × Json)) :
    spellFields fields = fields.map fun p => (Text.ofString p.1, p.2.spell) := by
  induction fields with
  | nil => rfl
  | cons p fields ih => rw [spellFields, ih, List.map_cons]

/-- A value that may be null is spelled as null, or as what it is. -/
theorem spell_orNull {α : Type} (f : α → Json) (o : Option α) :
    (orNull f o).spell = orNull (fun a => (f a).spell) o := by
  rcases o with _ | a
  · rfl
  · rfl

/-! ### One value for a text -/

mutual

theorem eq_of_spell : ∀ {j k : Json}, j.spell = k.spell → j = k
  | null, k, h => by
    cases k <;> simp only [spell, reduceCtorEq] at h
    rfl
  | bool b, k, h => by
    cases k <;> simp only [spell, reduceCtorEq, bool.injEq] at h
    rw [h]
  | int n, k, h => by
    cases k <;> simp only [spell, reduceCtorEq, int.injEq] at h
    rw [h]
  | float t, k, h => by
    cases k <;> simp only [spell, reduceCtorEq, float.injEq] at h
    rw [h]
  | str s, k, h => by
    cases k <;> simp only [spell, reduceCtorEq, str.injEq] at h
    rw [Text.ofString_injective h]
  | arr items, k, h => by
    cases k <;> simp only [spell, reduceCtorEq, arr.injEq] at h
    rw [eq_of_spellItems h]
  | obj fields, k, h => by
    cases k <;> simp only [spell, reduceCtorEq, obj.injEq] at h
    rw [eq_of_spellFields h]

theorem eq_of_spellItems : ∀ {xs ys : List Json}, spellItems xs = spellItems ys → xs = ys
  | [], [], _ => rfl
  | [], _ :: _, h => by simp only [spellItems, reduceCtorEq] at h
  | _ :: _, [], h => by simp only [spellItems, reduceCtorEq] at h
  | x :: xs, y :: ys, h => by
    simp only [spellItems, List.cons.injEq] at h
    rw [eq_of_spell h.1, eq_of_spellItems h.2]

theorem eq_of_spellFields : ∀ {xs ys : List (String × Json)}, spellFields xs = spellFields ys → xs = ys
  | [], [], _ => rfl
  | [], (_, _) :: _, h => by simp only [spellFields, reduceCtorEq] at h
  | (_, _) :: _, [], h => by simp only [spellFields, reduceCtorEq] at h
  | (k, x) :: xs, (l, y) :: ys, h => by
    simp only [spellFields, List.cons.injEq, Prod.mk.injEq] at h
    rw [Text.ofString_injective h.1.1, eq_of_spell h.1.2, eq_of_spellFields h.2]

end

/-- **A value is spelled in one way.** -/
theorem spell_injective : Function.Injective spell := fun _ _ => eq_of_spell

theorem orNull_injective {α : Type} {f : α → Json} (hf : Function.Injective f) (hnull : ∀ a, f a ≠ .null) :
    Function.Injective (orNull f) := by
  rintro (_ | a) (_ | b) h
  · rfl
  · exact absurd h.symm (hnull b)
  · exact absurd h (hnull a)
  · exact congrArg some (hf h)

/-! ### The compact text -/

/-- A string is written as its characters are. -/
theorem quote_ofString (s : String) : Style.compact.quote (Text.ofString s) = Text.ofChars (quoted s) := by
  have hescape : ∀ l : List Char, (Text.ofChars l).flatMap Style.compact.escape = Text.ofChars (escaped l) := by
    intro l
    induction l with
    | nil => rfl
    | cons c l ih =>
      have hcons : escaped (c :: l) = escape c ++ escaped l := List.flatMap_cons
      rw [Text.ofChars_cons, List.flatMap_cons, ih, hcons, Text.ofChars_append]
      rfl
  rw [Style.quote, Text.ofString, hescape, quoted, Text.ofChars_append, Text.ofChars_cons]
  rfl

theorem gap_compact : Style.compact.gap = [] := rfl

mutual

/-- **The compact text** of a value is that of its characters. -/
theorem write_spell : ∀ j : Json, Style.compact.write j.spell = Text.ofChars j.chars
  | null => rfl
  | bool true => rfl
  | bool false => rfl
  | int _ => rfl
  | float _ => rfl
  | str s => quote_ofString s
  | arr [] => rfl
  | arr (x :: xs) => by
    rw [spell, spellItems, Style.write, write_spell x, writeItems_spell xs, chars, Text.ofChars_append,
      Text.ofChars_cons]
  | obj [] => rfl
  | obj ((k, x) :: fields) => by
    rw [spell, spellFields, Style.write, quote_ofString, write_spell x, writeFields_spell fields, chars, gap_compact]
    simp only [Text.ofChars_cons, Text.ofChars_append, List.cons_append, List.append_assoc, List.nil_append]

theorem writeItems_spell : ∀ xs : List Json, Style.compact.writeItems (spellItems xs) = Text.ofChars (itemsTail xs)
  | [] => rfl
  | x :: xs => by
    rw [spellItems, Style.writeItems, write_spell x, writeItems_spell xs, itemsTail, gap_compact,
      Text.ofChars_append, Text.ofChars_cons]
    rfl

theorem writeFields_spell : ∀ fields : List (String × Json),
    Style.compact.writeFields (spellFields fields) = Text.ofChars (fieldsTail fields)
  | [] => rfl
  | (k, x) :: fields => by
    rw [spellFields, Style.writeFields, quote_ofString, write_spell x, writeFields_spell fields, fieldsTail,
      gap_compact]
    simp only [Text.ofChars_cons, Text.ofChars_append, List.cons_append, List.append_assoc, List.nil_append]

end

/-! ### Values that are read back -/

/-- A string of characters is read back: it has no surrogates. -/
theorem plain_str (s : String) : (Json.str (Text.ofString s)).Plain := Text.paired_ofChars _

/-- A value that may be null is read back if the value is. -/
theorem plain_orNull {α : Type} {f : α → Json Text} {o : Option α} (h : ∀ a ∈ o, (f a).Plain) :
    (orNull f o).Plain := by
  rcases o with _ | a
  · exact trivial
  · exact h a rfl

/-- An array is read back if its items are. -/
theorem plain_arr {items : List (Json Text)} (h : ∀ x ∈ items, x.Plain) : (Json.arr items).Plain := by
  induction items with
  | nil => exact trivial
  | cons x items ih =>
    rw [List.forall_mem_cons] at h
    exact ⟨h.1, ih h.2⟩

/-- An object of some keys, which are different, and of values that are read back. -/
theorem plain_obj (words : List String) {fields : Fields} (h : fields.map Prod.fst = words.map Text.ofString)
    (hwords : words.Nodup) (hvalues : ∀ p ∈ fields, p.2.Plain) : (Json.obj fields).Plain := by
  refine ⟨?_, plainFields_iff.2 fun p hp => ⟨?_, hvalues p hp⟩⟩
  · rw [h]
    exact hwords.map Text.ofString_injective
  · have hkey : p.1 ∈ fields.map Prod.fst := List.mem_map_of_mem hp
    rw [h] at hkey
    obtain ⟨word, -, hword⟩ := List.mem_map.1 hkey
    rw [← hword]
    exact Text.paired_ofChars _

/-- An object of characters, of some keys, which are different, and of values that are read back. -/
theorem plain_spell_obj (words : List String) {fields : List (String × Json)} (h : fields.map Prod.fst = words)
    (hwords : words.Nodup) (hvalues : ∀ p ∈ fields, p.2.spell.Plain) : (obj fields).spell.Plain := by
  rw [spell, spellFields_eq_map]
  refine plain_obj words ?_ hwords (List.forall_mem_map.2 hvalues)
  rw [List.map_map, ← h, List.map_map]
  rfl

theorem plain_spell_orNull {α : Type} {f : α → Json} {o : Option α} (h : ∀ a, o = some a → (f a).spell.Plain) :
    (orNull f o).spell.Plain := by
  rw [spell_orNull]
  exact plain_orNull h

theorem plain_spell_arr {α : Type} {f : α → Json} {l : List α} (h : ∀ a ∈ l, (f a).spell.Plain) :
    (arr (l.map f)).spell.Plain := by
  rw [spell, spellItems_eq_map, List.map_map]
  exact plain_arr (List.forall_mem_map.2 h)

end Json
