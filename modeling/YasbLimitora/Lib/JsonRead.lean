import Mathlib
import YasbLimitora.Lib.JsonText
import YasbLimitora.Lib.Utf8

/-!
# What a reader of JSON gives

A reader that refuses what is no JSON, and keeps of a number a text that it reads back
(`Json.Reader.Faithful`), gives only values that can be read back from their text
(`Json.readable_of_parse`). Strings are the reason that this takes a proof: an escape may
spell half of a pair of surrogates, but the other half is not right after it, since both
together are read as one character.

The theorem is used backwards: a program that reads a document, changes some of its fields and
writes the result needs to know that the result can be read by the same reader. Of the parts that it
did not touch it knows only that they were read.

Its proof goes along the parser with the rest of the text as a witness: what a step consumed is a
prefix of what it was given, and a pair of surrogates that is split between a string and its rest is
excluded by `Json.scanPoint_surrogate`. Numbers carry the assumption on the reader, since what is
kept of a floating-point number is its own business.
-/

namespace Json

open DecimalText

/-! ### Strings -/

section Strings

variable {l rest : Text} {p : CodePoint}

open Encoding (Spelled isSurrogate)

/-- What can be spelled can be from anywhere on. -/
theorem spelled_of_suffix {l l' : Text} (h : l' <:+ l) (hl : Spelled l) : Spelled l' := fun p hp =>
  hl p (h.subset hp)

/-- A digit of hexadecimal stands for less than sixteen. -/
theorem hexVal_lt {n : ℕ} (h : hexVal p = some n) : n < 16 := by
  rcases p with c | m
  · unfold hexVal at h
    dsimp only at h
    split_ifs at h with h1 h2 h3
    · have := digitVal_lt h1
      obtain rfl := Option.some.inj h
      exact lt_trans this (by decide)
    · obtain rfl := Option.some.inj h
      obtain ⟨ha, hf⟩ := Bool.and_eq_true_iff.1 h2
      have hle : c.toNat ≤ 'f'.toNat := of_decide_eq_true hf
      have : 'f'.toNat = 102 := rfl
      have : 'a'.toNat = 97 := rfl
      omega
    · obtain rfl := Option.some.inj h
      obtain ⟨ha, hf⟩ := Bool.and_eq_true_iff.1 h3
      have hle : c.toNat ≤ 'F'.toNat := of_decide_eq_true hf
      have : 'F'.toNat = 70 := rfl
      have : 'A'.toNat = 65 := rfl
      omega
  · cases h

/-- Four hexadecimal digits are a code unit. -/
theorem hex4_spec {n : ℕ} (h : hex4 l = some (n, rest)) : n < 65536 ∧ rest <:+ l := by
  unfold hex4 at h
  split at h
  · simp only [Option.bind_eq_bind, Option.bind_eq_some_iff, Option.pure_def] at h
    obtain ⟨a, ha, b, hb, c, hc, d, hd, h⟩ := h
    obtain ⟨rfl, rfl⟩ := Prod.mk.inj (Option.some.inj h)
    have ha := hexVal_lt ha
    have hb := hexVal_lt hb
    have hc := hexVal_lt hc
    have hd := hexVal_lt hd
    exact ⟨by omega, [_, _, _, _], rfl⟩
  · cases h

/-- What a code unit is read as: itself, or with the next one a character. -/
theorem codeUnit_spec {n : ℕ} (h : codeUnit n l = some (p, rest)) :
    rest <:+ l ∧ ((∃ c, p = .ch c) ∨ p = .ofValue n ∧ rest = l) := by
  unfold codeUnit at h
  split_ifs at h
  · split at h
    · simp only [Option.bind_eq_bind, Option.bind_eq_some_iff] at h
      obtain ⟨⟨m, after⟩, hm, h⟩ := h
      dsimp only at h
      split_ifs at h
      · obtain ⟨rfl, rfl⟩ := Prod.mk.inj (Option.some.inj h)
        exact ⟨(hex4_spec hm).2.trans ⟨[_, _], rfl⟩, Or.inl ⟨_, rfl⟩⟩
      · obtain ⟨rfl, rfl⟩ := Prod.mk.inj (Option.some.inj h)
        exact ⟨List.suffix_refl _, Or.inr ⟨rfl, rfl⟩⟩
    · obtain ⟨rfl, rfl⟩ := Prod.mk.inj (Option.some.inj h)
      exact ⟨List.suffix_refl _, Or.inr ⟨rfl, rfl⟩⟩
  · obtain ⟨rfl, rfl⟩ := Prod.mk.inj (Option.some.inj h)
    exact ⟨List.suffix_refl _, Or.inr ⟨rfl, rfl⟩⟩

/-- An escape is read from the front. -/
theorem unescape_suffix (h : unescape l = some (p, rest)) : rest <:+ l := by
  unfold unescape at h
  split at h
  · simp only [Option.bind_eq_bind, Option.bind_eq_some_iff] at h
    obtain ⟨⟨n, after⟩, hn, h⟩ := h
    exact (codeUnit_spec h).1.trans ((hex4_spec hn).2.trans (List.suffix_cons _ _))
  all_goals
    try
      obtain ⟨-, rfl⟩ := Prod.mk.inj (Option.some.inj h)
      exact List.suffix_cons _ _
  cases h

/-- What is read as one code point is not empty. -/
theorem scanPoint_suffix (h : scanPoint l = some (p, rest)) : rest <:+ l := by
  rcases l with _ | ⟨q, l⟩
  · cases h
  unfold scanPoint at h
  dsimp only at h
  split_ifs at h
  · exact (unescape_suffix h).trans (List.suffix_cons _ _)
  · obtain ⟨-, rfl⟩ := Prod.mk.inj (Option.some.inj h)
    exact List.suffix_cons _ _

/-- A code point that is read and is no character is an escape of its own. -/
theorem scanPoint_surrogate (hl : Spelled l) (h : scanPoint l = some (p, rest))
    (hp : isSurrogate p.value) : ∃ n after, l = .ch '\\' :: .ch 'u' :: after ∧
      hex4 after = some (n, rest) ∧ codeUnit n rest = some (p, rest) ∧ p = .ofValue n := by
  have hchar : ∀ c, p ≠ .ch c := by
    rintro c rfl
    exact CodePoint.isSurrogate_char c hp
  rcases l with _ | ⟨q, l⟩
  · cases h
  unfold scanPoint at h
  dsimp only at h
  split_ifs at h with hq
  · subst hq
    unfold unescape at h
    split at h
    · next after =>
      simp only [Option.bind_eq_bind, Option.bind_eq_some_iff] at h
      obtain ⟨⟨n, after'⟩, hn, h⟩ := h
      rcases (codeUnit_spec h).2 with ⟨c, hc⟩ | ⟨hp, rfl⟩
      · exact absurd hc (hchar c)
      · exact ⟨n, after, rfl, hn, h, hp⟩
    all_goals
      try
        obtain ⟨rfl, -⟩ := Prod.mk.inj (Option.some.inj h)
        exact absurd rfl (hchar _)
    cases h
  · obtain ⟨rfl, -⟩ := Prod.mk.inj (Option.some.inj h)
    exact absurd hp (hl q List.mem_cons_self)

/-- **After half of a pair the other half does not come.** -/
theorem not_isLow_next {q : CodePoint} {rest' : Text} (hl : Spelled l)
    (h : scanPoint l = some (p, rest)) (hp : p.IsHigh) (hq : scanPoint rest = some (q, rest')) :
    ¬q.IsLow := by
  intro hlow
  have hhigh : isSurrogate p.value := ⟨hp.1, hp.2.trans (by decide)⟩
  have hrest : Spelled rest := spelled_of_suffix (scanPoint_suffix h) hl
  obtain ⟨n, after, -, hn, hunit, rfl⟩ := scanPoint_surrogate hl h hhigh
  obtain ⟨m, after', rfl, hm, -, rfl⟩ := scanPoint_surrogate hrest hq ⟨le_trans (by decide) hlow.1, hlow.2⟩
  have hn16 := (hex4_spec hn).1
  have hm16 := (hex4_spec hm).1
  rw [CodePoint.IsHigh, CodePoint.value_ofValue (by omega)] at hp
  rw [CodePoint.IsLow, CodePoint.value_ofValue (by omega)] at hlow
  -- both are read as one character
  rw [codeUnit, if_pos hp] at hunit
  simp only [hm, Option.bind_eq_bind, Option.bind_some, if_pos hlow] at hunit
  obtain ⟨heq, -⟩ := Prod.mk.inj (Option.some.inj hunit)
  have hvalue := congrArg CodePoint.value heq
  rw [CodePoint.value_ofValue (by omega)] at hvalue
  have hsurrogate : isSurrogate n := ⟨hp.1, hp.2.trans (by decide)⟩
  rw [← hvalue] at hsurrogate
  exact CodePoint.isSurrogate_char _ hsurrogate

/-- **A string that is read is paired**: two units that would be one character were read as that
character. -/
theorem scanString_spec {fuel : ℕ} {s : Text} (hl : Spelled l) (h : scanString fuel l = some (s, rest)) :
    rest <:+ l ∧ s.Paired ∧ ∀ q s', s = q :: s' → ∃ rest', scanPoint l = some (q, rest') := by
  induction fuel generalizing l s with
  | zero => cases h
  | succ fuel ih =>
    unfold scanString at h
    split at h
    · obtain ⟨rfl, rfl⟩ := Prod.mk.inj (Option.some.inj h)
      exact ⟨List.suffix_cons _ _, List.isChain_nil, nofun⟩
    · simp only [Option.bind_eq_bind, Option.bind_eq_some_iff, Option.pure_def] at h
      obtain ⟨⟨p, after⟩, hp, ⟨ps, rest'⟩, hps, h⟩ := h
      obtain ⟨rfl, rfl⟩ := Prod.mk.inj (Option.some.inj h)
      have hafter := scanPoint_suffix hp
      obtain ⟨hsuffix, hpaired, hhead⟩ := ih (spelled_of_suffix hafter hl) hps
      refine ⟨hsuffix.trans hafter, hpaired.cons fun q hq => ?_, fun q s' hq => ?_⟩
      · rintro ⟨hhigh, hlow⟩
        obtain ⟨s', rfl⟩ : ∃ s', ps = q :: s' := by
          rcases ps with _ | ⟨q', s'⟩
          · cases hq
          · obtain rfl := Option.some.inj hq
            exact ⟨s', rfl⟩
        obtain ⟨rest'', hscan⟩ := hhead q s' rfl
        exact not_isLow_next hl hp hhigh hscan hlow
      · obtain ⟨rfl, -⟩ := List.cons.inj hq
        exact ⟨after, hp⟩

/-- **A string that is read is paired.** -/
theorem parseString_spec {s : Text} (hl : Spelled l) (h : parseString l = some (s, rest)) :
    rest <:+ l ∧ s.Paired :=
  have hspec := scanString_spec hl h
  ⟨hspec.1, hspec.2.1⟩

end Strings

/-! ### Numbers -/

/-- Digits are read as long as there are any. -/
theorem spanDigits_spec (l : Text) :
    (spanDigits l).1.all isDigit = true ∧ (spanDigits l).2 <:+ l := by
  induction l with
  | nil => exact ⟨rfl, List.suffix_refl _⟩
  | cons p l ih =>
    rcases p with c | n
    · rw [spanDigits]
      split_ifs with hc
      · exact ⟨by rw [List.all_cons, hc, ih.1]; rfl, ih.2.trans (List.suffix_cons _ _)⟩
      · exact ⟨rfl, List.suffix_refl _⟩
    · exact ⟨rfl, List.suffix_refl _⟩

/-- The whole part of a number is the text of what it comes to. -/
theorem wholePart_spec {l rest : Text} {digits : List Char} (h : wholePart l = some (digits, rest)) :
    natText (readNat digits) = digits ∧ rest <:+ l := by
  unfold wholePart at h
  split at h
  · obtain ⟨rfl, rfl⟩ := Prod.mk.inj (Option.some.inj h)
    exact ⟨rfl, List.suffix_cons _ _⟩
  · next hzero =>
    split at h
    · cases h
    · next hne =>
      obtain ⟨hall, hsuffix⟩ := spanDigits_spec l
      rw [Option.some.inj h] at hall hsuffix
      have hnil : digits ≠ [] := by
        rintro rfl
        exact hne rest (Option.some.inj h)
      refine ⟨natText_readNat hall hnil fun hhead => ?_, hsuffix⟩
      -- a leading zero would have been the whole part
      rcases l with _ | ⟨c | n, l⟩
      · exact hnil (Prod.mk.inj (Option.some.inj h)).1.symm
      · have hspan := Option.some.inj h
        rw [spanDigits] at hspan
        split_ifs at hspan with hc
        · obtain ⟨rfl, -⟩ := Prod.mk.inj hspan
          exact hzero l (by rw [show c = '0' from hhead])
        · exact hnil (Prod.mk.inj hspan).1.symm
      · exact hnil (Prod.mk.inj (Option.some.inj h)).1.symm

/-- A fraction is read from the front, and so are the other parts of a number. -/
theorem fraction_suffix (l : Text) : (fraction l).2 <:+ l := by
  unfold fraction
  split
  · next rest =>
    split
    · exact List.suffix_refl _
    · next heq =>
      have hsuffix := (spanDigits_spec rest).2
      rw [heq] at hsuffix
      exact hsuffix.trans (List.suffix_cons _ _)
  · exact List.suffix_refl _

theorem exponentSign_suffix (l : Text) : (exponentSign l).2 <:+ l := by
  unfold exponentSign
  split
  · exact List.suffix_cons _ _
  · exact List.suffix_cons _ _
  · exact List.suffix_refl _

theorem exponent_suffix (l : Text) : (exponent l).2 <:+ l := by
  unfold exponent
  split
  · next e rest =>
    split_ifs
    · split
      · exact List.suffix_refl _
      · next heq =>
        have hsuffix := (spanDigits_spec (exponentSign rest).2).2
        rw [heq] at hsuffix
        exact hsuffix.trans ((exponentSign_suffix rest).trans (List.suffix_cons _ _))
    · exact List.suffix_refl _
  · exact List.suffix_refl _

theorem minus_suffix (l : Text) : (minus l).2 <:+ l := by
  unfold minus
  split
  · exact List.suffix_cons _ _
  · exact List.suffix_refl _

variable {r : Reader}

/-- **A reader that takes nothing but JSON**, and keeps of a number a text that it reads back. -/
structure Reader.Faithful (r : Reader) : Prop where
  float : ∀ l t, r.float l = some t → ReadsNumber r t
  constant : ∀ l, r.constant l = none
  repeats : r.repeats = false

/-- A number that is read is read back. -/
theorem parseNumber_spec (hr : r.Faithful) {l rest : Text} {j : Json Text}
    (h : parseNumber r l = some (j, rest)) : j.Readable r ∧ rest <:+ l := by
  unfold parseNumber at h
  simp only [Option.bind_eq_bind, Option.bind_eq_some_iff] at h
  obtain ⟨⟨digits, after⟩, hwhole, h⟩ := h
  obtain ⟨htext, hafter⟩ := wholePart_spec hwhole
  have hsuffix : (exponent (fraction after).2).2 <:+ l :=
    (exponent_suffix _).trans ((fraction_suffix _).trans (hafter.trans (minus_suffix l)))
  dsimp only at h
  split_ifs at h with hint hdigits hneg
  · obtain ⟨rfl, rfl⟩ := Prod.mk.inj (Option.some.inj h)
    refine ⟨?_, hsuffix⟩
    show (natText (-(readNat digits : ℤ)).natAbs).length ≤ maxDigits
    rw [Int.natAbs_neg, Int.natAbs_natCast, htext]
    exact not_lt.1 hdigits
  · obtain ⟨rfl, rfl⟩ := Prod.mk.inj (Option.some.inj h)
    refine ⟨?_, hsuffix⟩
    show (natText (readNat digits : ℤ).natAbs).length ≤ maxDigits
    rw [Int.natAbs_natCast, htext]
    exact not_lt.1 hdigits
  all_goals
    simp only [Option.bind_eq_some_iff, Option.pure_def] at h
    obtain ⟨text, htext, h⟩ := h
    obtain ⟨rfl, rfl⟩ := Prod.mk.inj (Option.some.inj h)
    exact ⟨hr.float _ _ htext, hsuffix⟩

/-! ### Values -/

theorem skipBlanks_suffix (l : Text) : skipBlanks l <:+ l := List.dropWhile_suffix _

open Encoding (Spelled)

/-- What is read with some fuel: values, and what is between brackets. -/
structure GivesReadable (r : Reader) (fuel : ℕ) : Prop where
  value : ∀ {l rest : Text} {j : Json Text}, Spelled l → parseValue r fuel l = some (j, rest) →
    j.Readable r ∧ rest <:+ l
  items : ∀ {l rest : Text} {xs : List (Json Text)}, Spelled l → parseItems r fuel l = some (xs, rest) →
    ReadableItems r xs ∧ rest <:+ l
  fields : ∀ {l rest : Text} {fields : List (Text × Json Text)}, Spelled l →
    parseFields r fuel l = some (fields, rest) → ReadableFields r fields ∧ rest <:+ l

/-- The fields of an object that is read repeat no key. -/
theorem object_spec (hr : r.Faithful) {fields : List (Text × Json Text)} {j : Json Text}
    (hfields : ReadableFields r fields) (h : object r fields = some j) : j.Readable r := by
  rw [object, hr.repeats, if_congr (or_iff_right Bool.false_ne_true) rfl rfl] at h
  split_ifs at h with hnodup
  obtain rfl := Option.some.inj h
  rw [dict_of_nodup hnodup]
  exact ⟨hnodup, hfields⟩

/-- A reader that is strict takes none of the constants that JSON does not have. -/
theorem constant_ne (hr : r.Faithful) {name : String} {l rest : Text} {j : Json Text} :
    constant r name l ≠ some (j, rest) := by
  intro h
  rw [constant, hr.constant] at h
  cases h

section Step

variable {fuel : ℕ} {l rest : Text}

/-- **A value that is read can be read back**, if what is between its brackets can. -/
theorem parseValue_spec (hr : r.Faithful) (ih : GivesReadable r fuel) {j : Json Text} (hl : Spelled l)
    (h : parseValue r (fuel + 1) l = some (j, rest)) : j.Readable r ∧ rest <:+ l := by
  unfold parseValue at h
  split at h
  · simp only [Option.bind_eq_bind, Option.bind_eq_some_iff, Option.pure_def] at h
    obtain ⟨⟨s, rest'⟩, hs, h⟩ := h
    obtain ⟨rfl, rfl⟩ := Prod.mk.inj (Option.some.inj h)
    obtain ⟨hsuffix, hpaired⟩ := parseString_spec (List.forall_mem_cons.1 hl).2 hs
    exact ⟨hpaired, hsuffix.trans (List.suffix_cons _ _)⟩
  · next after =>
    have hafter : skipBlanks after <:+ .ch '[' :: after :=
      (skipBlanks_suffix after).trans (List.suffix_cons _ _)
    split at h
    · next heq =>
      obtain ⟨rfl, rfl⟩ := Prod.mk.inj (Option.some.inj h)
      rw [heq] at hafter
      exact ⟨trivial, (List.suffix_cons _ _).trans hafter⟩
    · simp only [Option.bind_eq_bind, Option.bind_eq_some_iff, Option.pure_def] at h
      obtain ⟨⟨items, rest'⟩, hitems, h⟩ := h
      obtain ⟨rfl, rfl⟩ := Prod.mk.inj (Option.some.inj h)
      obtain ⟨hreadable, hsuffix⟩ := ih.items (spelled_of_suffix hafter hl) hitems
      exact ⟨hreadable, hsuffix.trans hafter⟩
  · next after =>
    have hafter : skipBlanks after <:+ .ch '{' :: after :=
      (skipBlanks_suffix after).trans (List.suffix_cons _ _)
    split at h
    · next heq =>
      obtain ⟨rfl, rfl⟩ := Prod.mk.inj (Option.some.inj h)
      rw [heq] at hafter
      exact ⟨⟨List.nodup_nil, trivial⟩, (List.suffix_cons _ _).trans hafter⟩
    · simp only [Option.bind_eq_bind, Option.bind_eq_some_iff, Option.pure_def] at h
      obtain ⟨⟨fields, rest'⟩, hfields, j', hobject, h⟩ := h
      obtain ⟨rfl, rfl⟩ := Prod.mk.inj (Option.some.inj h)
      obtain ⟨hreadable, hsuffix⟩ := ih.fields (spelled_of_suffix hafter hl) hfields
      exact ⟨object_spec hr hreadable hobject, hsuffix.trans hafter⟩
  · obtain ⟨rfl, rfl⟩ := Prod.mk.inj (Option.some.inj h)
    exact ⟨trivial, [_, _, _, _], rfl⟩
  · obtain ⟨rfl, rfl⟩ := Prod.mk.inj (Option.some.inj h)
    exact ⟨trivial, [_, _, _, _], rfl⟩
  · obtain ⟨rfl, rfl⟩ := Prod.mk.inj (Option.some.inj h)
    exact ⟨trivial, [_, _, _, _, _], rfl⟩
  · exact absurd h (constant_ne hr)
  · exact absurd h (constant_ne hr)
  · exact absurd h (constant_ne hr)
  · exact parseNumber_spec hr h

/-- So can the items of an array. -/
theorem parseItems_spec (ih : GivesReadable r fuel) {xs : List (Json Text)} (hl : Spelled l)
    (h : parseItems r (fuel + 1) l = some (xs, rest)) : ReadableItems r xs ∧ rest <:+ l := by
  unfold parseItems at h
  simp only [Option.bind_eq_bind, Option.bind_eq_some_iff] at h
  obtain ⟨⟨x, after⟩, hx, h⟩ := h
  obtain ⟨hreadable, hafter⟩ := ih.value hl hx
  dsimp only at h
  have hblanks : skipBlanks after <:+ l := (skipBlanks_suffix after).trans hafter
  split at h
  · next after' heq =>
    rw [heq] at hblanks
    have hafter' : skipBlanks after' <:+ l :=
      (skipBlanks_suffix after').trans ((List.suffix_cons _ _).trans hblanks)
    simp only [Option.bind_eq_some_iff, Option.pure_def] at h
    obtain ⟨⟨ys, rest'⟩, hys, h⟩ := h
    obtain ⟨rfl, rfl⟩ := Prod.mk.inj (Option.some.inj h)
    obtain ⟨hitems, hsuffix⟩ := ih.items (spelled_of_suffix hafter' hl) hys
    exact ⟨⟨hreadable, hitems⟩, hsuffix.trans hafter'⟩
  · next heq =>
    obtain ⟨rfl, rfl⟩ := Prod.mk.inj (Option.some.inj h)
    rw [heq] at hblanks
    exact ⟨⟨hreadable, trivial⟩, (List.suffix_cons _ _).trans hblanks⟩
  · cases h

/-- So can the fields of an object. -/
theorem parseFields_spec (ih : GivesReadable r fuel) {fields : List (Text × Json Text)} (hl : Spelled l)
    (h : parseFields r (fuel + 1) l = some (fields, rest)) : ReadableFields r fields ∧ rest <:+ l := by
  unfold parseFields at h
  dsimp only at h
  split at h
  · next after =>
    simp only [Option.bind_eq_bind, Option.bind_eq_some_iff] at h
    obtain ⟨⟨k, colon⟩, hk, h⟩ := h
    obtain ⟨hcolon, hpaired⟩ := parseString_spec (List.forall_mem_cons.1 hl).2 hk
    have hvalue : skipBlanks colon <:+ .ch '"' :: after :=
      (skipBlanks_suffix colon).trans (hcolon.trans (List.suffix_cons _ _))
    dsimp only at h
    split at h
    · next value heq =>
      rw [heq] at hvalue
      have hvalue' : skipBlanks value <:+ .ch '"' :: after :=
        (skipBlanks_suffix value).trans ((List.suffix_cons _ _).trans hvalue)
      simp only [Option.bind_eq_some_iff] at h
      obtain ⟨⟨x, after'⟩, hx, h⟩ := h
      obtain ⟨hreadable, hafter⟩ := ih.value (spelled_of_suffix hvalue' hl) hx
      have hblanks : skipBlanks after' <:+ .ch '"' :: after :=
        (skipBlanks_suffix after').trans (hafter.trans hvalue')
      dsimp only at h
      split at h
      · next next' heq' =>
        rw [heq'] at hblanks
        have hnext : skipBlanks next' <:+ .ch '"' :: after :=
          (skipBlanks_suffix next').trans ((List.suffix_cons _ _).trans hblanks)
        simp only [Option.bind_eq_some_iff, Option.pure_def] at h
        obtain ⟨⟨fields', rest'⟩, hfields, h⟩ := h
        obtain ⟨rfl, rfl⟩ := Prod.mk.inj (Option.some.inj h)
        obtain ⟨hrest, hsuffix⟩ := ih.fields (spelled_of_suffix hnext hl) hfields
        exact ⟨⟨hpaired, hreadable, hrest⟩, hsuffix.trans hnext⟩
      · next heq' =>
        obtain ⟨rfl, rfl⟩ := Prod.mk.inj (Option.some.inj h)
        rw [heq'] at hblanks
        exact ⟨⟨hpaired, hreadable, trivial⟩, (List.suffix_cons _ _).trans hblanks⟩
      · cases h
    · cases h
  · cases h

end Step

/-- All that is read can be read back. The induction is on the fuel. -/
theorem givesReadable (hr : r.Faithful) (fuel : ℕ) : GivesReadable r fuel := by
  induction fuel with
  | zero => exact ⟨nofun, nofun, nofun⟩
  | succ fuel ih => exact ⟨parseValue_spec hr ih, parseItems_spec ih, parseFields_spec ih⟩

/-- **What a faithful reader gives can be read back.** -/
theorem readable_of_parse (hr : r.Faithful) {t : Text} {j : Json Text} (ht : Spelled t)
    (h : parse r t = some j) : j.Readable r := by
  simp only [parse, Option.bind_eq_bind, Option.bind_eq_some_iff] at h
  obtain ⟨⟨x, rest⟩, hx, h⟩ := h
  dsimp only at h
  split_ifs at h with hrest
  obtain rfl := Option.some.inj h
  exact ((givesReadable hr _).value (spelled_of_suffix (skipBlanks_suffix t) ht) hx).1

end Json
