import Mathlib

/-!
# Texts

A string of a program that takes its strings from anywhere is a list of *code points*: of
characters, and of surrogates, which stand for no character on their own and which no
encoding of Unicode spells. `CodePoint.value` and `CodePoint.ofValue` pass between a code
point and its number. Two surrogates in a row, a high one and a low one, are what UTF-16
writes a single character as: a text in which this happens nowhere is `Text.Paired`, and
only such a text comes back from UTF-16.

A filter on texts looks for words whatever the case of their letters (`Text.hasWord`), and for two
words with at most one code point between them that is no line break (`Text.hasWords`), as a regular
expression does that ignores case. Some code points outside ASCII are letters of such a word too, as
the long s and the sign of Kelvin are, and `Text.isLetter` counts them.
-/

/-- A code point: a character, or a surrogate. -/
inductive CodePoint
  | ch (c : Char)
  | surrogate (n : Fin 2048)
deriving DecidableEq

abbrev Text := List CodePoint

instance : LawfulBEq Text := List.instLawfulBEq

namespace CodePoint

def value : CodePoint → ℕ
  | ch c => c.toNat
  | surrogate n => 0xD800 + n

def ofValue (n : ℕ) : CodePoint :=
  if h : 0xD800 ≤ n ∧ n < 0xE000 then surrogate ⟨n - 0xD800, by omega⟩ else ch (Char.ofNat n)

def IsHigh (p : CodePoint) : Prop := 0xD800 ≤ p.value ∧ p.value < 0xDC00

def IsLow (p : CodePoint) : Prop := 0xDC00 ≤ p.value ∧ p.value < 0xE000

instance (p : CodePoint) : Decidable p.IsHigh := inferInstanceAs (Decidable (_ ∧ _))

instance (p : CodePoint) : Decidable p.IsLow := inferInstanceAs (Decidable (_ ∧ _))

/-- No character is a surrogate. -/
theorem isSurrogate_char (c : Char) : ¬(0xD800 ≤ c.toNat ∧ c.toNat < 0xE000) := by
  rcases c.valid with h | h
  · exact fun hc => absurd hc.1 (not_le.2 h)
  · exact fun hc => absurd hc.2 (not_lt.2 h.1)

theorem char_lt (c : Char) : c.toNat < 0x110000 := by
  rcases c.valid with h | h
  · exact lt_trans h (by decide)
  · exact h.2

@[simp] theorem ofValue_value (p : CodePoint) : ofValue p.value = p := by
  rcases p with c | n
  · rw [value, ofValue, dif_neg (isSurrogate_char c), Char.ofNat_toNat]
  · rw [value, ofValue, dif_pos (by omega)]
    refine congrArg surrogate (Fin.ext ?_)
    exact Nat.add_sub_cancel_left 0xD800 n

end CodePoint

namespace Text

def ofChars (l : List Char) : Text := l.map .ch

def ofString (s : String) : Text := ofChars s.toList

/-- The characters of a text, if it is made of characters. -/
def toChars : Text → Option (List Char)
  | [] => some []
  | .ch c :: l => (toChars l).map (c :: ·)
  | .surrogate _ :: _ => none

def toString (l : Text) : Option String := (toChars l).map String.ofList

@[simp] theorem ofChars_nil : ofChars [] = [] := rfl

@[simp] theorem ofChars_cons (c : Char) (l : List Char) : ofChars (c :: l) = .ch c :: ofChars l := rfl

@[simp] theorem ofChars_append (l m : List Char) : ofChars (l ++ m) = ofChars l ++ ofChars m :=
  List.map_append

/-- Characters are read back of the text of them. -/
@[simp] theorem toChars_ofChars (l : List Char) : toChars (ofChars l) = some l := by
  induction l with
  | nil => rfl
  | cons c l ih => rw [ofChars_cons, toChars, ih, Option.map_some]

/-- A string is read back of the text of it. -/
@[simp] theorem toString_ofString (s : String) : toString (ofString s) = some s := by
  rw [toString, ofString, toChars_ofChars, Option.map_some, String.ofList_toList]

theorem ofString_injective : Function.Injective ofString := by
  intro s t h
  have hs := toString_ofString s
  rw [h, toString_ofString] at hs
  exact (Option.some.inj hs).symm

/-- The text of what its characters are. -/
theorem ofChars_of_toChars {t : Text} {l : List Char} (h : toChars t = some l) : t = ofChars l := by
  induction t generalizing l with
  | nil =>
    cases h
    rfl
  | cons p t ih =>
    rcases p with c | n
    · obtain ⟨m, hm, rfl⟩ := Option.map_eq_some_iff.1 h
      rw [ih hm, ofChars_cons]
    · cases h

/-- A text that is a string is the text of that string. -/
theorem ofString_of_toString {t : Text} {s : String} (h : toString t = some s) : t = ofString s := by
  obtain ⟨l, hl, rfl⟩ := Option.map_eq_some_iff.1 h
  rw [ofString, String.toList_ofList, ofChars_of_toChars hl]

/-- No high surrogate stands right before a low one. -/
def Paired (l : Text) : Prop := l.IsChain fun p q => ¬(p.IsHigh ∧ q.IsLow)

instance (l : Text) : Decidable l.Paired := inferInstanceAs (Decidable (List.IsChain _ l))

/-- A character is no half of a pair. -/
theorem not_isHigh_ch (c : Char) : ¬(CodePoint.ch c).IsHigh := fun h =>
  CodePoint.isSurrogate_char c ⟨h.1, h.2.trans (by decide)⟩

theorem not_isLow_ch (c : Char) : ¬(CodePoint.ch c).IsLow := fun h =>
  CodePoint.isSurrogate_char c ⟨le_trans (by decide) h.1, h.2⟩

/-- Characters are always paired. -/
theorem paired_ofChars (l : List Char) : Paired (ofChars l) := by
  induction l with
  | nil => exact .nil
  | cons c l ih => exact ih.cons fun _ _ h => not_isHigh_ch c h.1

/-- Two texts whose surrogates are paired are so with a character between them. -/
theorem Paired.append {l m : Text} (hl : l.Paired) (hm : m.Paired) (c : Char) :
    Paired (l ++ .ch c :: m) := by
  refine List.IsChain.append hl (hm.cons fun _ _ h => not_isHigh_ch c h.1) ?_
  intro p _ q hq h
  obtain rfl := Option.some.inj hq
  exact not_isLow_ch c h.2

/-! ### Words that ignore case -/

/-- A small letter of a word that ignores case. Beside its capital there is another `i` with a
dot, one without, the sign of Kelvin, and a long `s`. -/
def isLetter (c : Char) (p : CodePoint) : Bool :=
  p == .ch c || p == .ch c.toUpper ||
    (c == 'i' && (p == .ofValue 0x130 || p == .ofValue 0x131)) ||
    (c == 'k' && p == .ofValue 0x212A) || (c == 's' && p == .ofValue 0x17F)

/-- What comes after a word that a text starts with. -/
def afterWord : List Char → Text → Option Text
  | [], t => some t
  | _ :: _, [] => none
  | c :: word, p :: t => if isLetter c p then afterWord word t else none

/-- A text has a word in it. -/
def hasWord (word : List Char) (t : Text) : Bool := t.tails.any fun l => (afterWord word l).isSome

/-- A text has two words in it, one right after the other or with one more code point between
them that is no line break. -/
def hasWords (word word' : List Char) (t : Text) : Bool :=
  t.tails.any fun l => match afterWord word l with
    | none => false
    | some rest => (afterWord word' rest).isSome || match rest with
      | [] => false
      | p :: rest => p != .ch '\n' && (afterWord word' rest).isSome

end Text

/-- A text that UTF-16 spells: what an interface of wide characters takes and gives. -/
structure WideText where
  text : Text
  paired : text.Paired

instance : Coe WideText Text := ⟨WideText.text⟩
