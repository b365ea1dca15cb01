import Mathlib
import YasbLimitora.Lib.JsonParse

/-!
# Writing JSON, and reading it back

A `Json.Style` is a way to write values: how the code points of a string are spelled, and
whether a blank follows commas and colons. In `Json.Style.compact` nothing is escaped that
need not be; in `Json.Style.ascii` everything is spelled in ASCII. Both are `Sound`: each
code point is read back from how it is spelled. That asks for some care where a code point
is spelled as a code unit of UTF-16, since two units in a row may be read as one character;
a string in which no half of a pair comes before another half (`Text.Paired`) is read back
all the same.

`Json.parse_write` is the round trip: a value without floating-point numbers, whose
strings are paired, whose integers are short enough and whose objects repeat no key
(`Json.Plain`), is read back from its text in any sound style. `Json.Readable.parse_write` is
the same of a value with floating-point numbers (`Json.Readable`), of which the reader must
know the texts (`Json.ReadsNumber`).

The proof follows the parser, which has fuel, and its three parts: values, items and fields.
What can be read back with some fuel is gathered in `Json.ReadsBack`; one more unit of fuel
is enough for one more layer of brackets (`Json.ReadsBack.parseValue`,
`Json.ReadsBack.parseItems`, `Json.ReadsBack.parseFields`), and the length of a text is always
fuel enough for its value (`Json.weight_le_length`).
-/

namespace Json

open DecimalText

/-! ### Styles of writing -/

/-- How a value is written: how the code points of a string are spelled, and the blanks
after a comma and after a colon. -/
structure Style where
  escape : CodePoint → Text
  gap : Text

namespace Style

variable (st : Style)

/-- A string with its quotation marks. -/
def quote (s : Text) : Text := .ch '"' :: s.flatMap st.escape ++ [.ch '"']

mutual

/-- The text of a value. -/
def write : Json Text → Text
  | null => Text.ofChars ['n', 'u', 'l', 'l']
  | bool true => Text.ofChars ['t', 'r', 'u', 'e']
  | bool false => Text.ofChars ['f', 'a', 'l', 's', 'e']
  | int n => Text.ofChars (intChars n)
  | float t => Text.ofString t
  | str s => st.quote s
  | arr [] => [.ch '[', .ch ']']
  | arr (x :: xs) => .ch '[' :: write x ++ writeItems xs
  | obj [] => [.ch '{', .ch '}']
  | obj ((k, x) :: fields) =>
    .ch '{' :: st.quote k ++ .ch ':' :: st.gap ++ write x ++ writeFields fields

/-- The items after the first, and the bracket. -/
def writeItems : List (Json Text) → Text
  | [] => [.ch ']']
  | x :: xs => .ch ',' :: st.gap ++ write x ++ writeItems xs

/-- The fields after the first, and the brace. -/
def writeFields : List (Text × Json Text) → Text
  | [] => [.ch '}']
  | (k, x) :: fields =>
    .ch ',' :: st.gap ++ st.quote k ++ .ch ':' :: st.gap ++ write x ++ writeFields fields

end

/-- A code point of a string as it stands, but for what must be escaped. -/
def plain : CodePoint → Text
  | .ch c => Text.ofChars (Json.escape c)
  | .surrogate n => [.surrogate n]

/-- Nothing is escaped that need not be, and there are no blanks. -/
def compact : Style := ⟨plain, []⟩

/-- The escape of a code unit. -/
def unit (n : ℕ) : Text :=
  Text.ofChars ['\\', 'u', hexDigit (n / 4096), hexDigit (n / 256 % 16), hexDigit (n / 16 % 16),
    hexDigit (n % 16)]

/-- A code point of a string spelled in ASCII, with the code units of UTF-16. -/
def spellAscii : CodePoint → Text
  | .ch c =>
    if c.toNat < 127 then Text.ofChars (Json.escape c)
    else if c.toNat < 0x10000 then unit c.toNat
    else unit (0xD800 + (c.toNat - 0x10000) / 0x400) ++ unit (0xDC00 + (c.toNat - 0x10000) % 0x400)
  | .surrogate n => unit (0xD800 + n)

/-- Strings in ASCII, and a blank after every comma and colon, or none. -/
def ascii (gap : Text) : Style := ⟨spellAscii, gap⟩

/-- A style whose strings are read back. -/
structure Sound : Prop where
  gap : ∀ p ∈ st.gap, isBlank p = true
  head : ∀ p, ∃ q l, st.escape p = q :: l ∧ q ≠ .ch '"'
  last : ∀ p rest, scanPoint (st.escape p ++ .ch '"' :: rest) = some (p, .ch '"' :: rest)
  next : ∀ p q rest, ¬(p.IsHigh ∧ q.IsLow) →
    scanPoint (st.escape p ++ (st.escape q ++ rest)) = some (p, st.escape q ++ rest)

end Style

/-! ### Reading code points back -/

theorem hexVal_hexDigit {d : ℕ} (h : d < 16) : hexVal (.ch (hexDigit d)) = some d := by
  interval_cases d <;> rfl

theorem hex4_hexDigits {n : ℕ} (h : n < 65536) (rest : Text) :
    hex4 (.ch (hexDigit (n / 4096)) :: .ch (hexDigit (n / 256 % 16)) ::
      .ch (hexDigit (n / 16 % 16)) :: .ch (hexDigit (n % 16)) :: rest) = some (n, rest) := by
  simp only [hex4, hexVal_hexDigit (d := n / 4096) (by omega),
    hexVal_hexDigit (d := n / 256 % 16) (by omega), hexVal_hexDigit (d := n / 16 % 16) (by omega),
    hexVal_hexDigit (d := n % 16) (by omega), Option.bind_eq_bind, Option.bind_some, Option.pure_def]
  rw [show ((n / 4096 * 16 + n / 256 % 16) * 16 + n / 16 % 16) * 16 + n % 16 = n by omega]

/-- A unit that opens no pair is a code point. -/
theorem codeUnit_of_lt {n : ℕ} (h : ¬(0xD800 ≤ n ∧ n < 0xDC00)) (rest : Text) :
    codeUnit n rest = some (.ofValue n, rest) := if_neg h

/-- Nor does a pair open before what is no escape. -/
theorem codeUnit_of_ne {n : ℕ} {p : CodePoint} {rest : Text} (hp : p ≠ .ch '\\') :
    codeUnit n (p :: rest) = some (.ofValue n, p :: rest) := by
  rw [codeUnit, ite_self]
  intro after heq
  exact hp (List.cons.inj heq).1

theorem codeUnit_escape {n : ℕ} {p : CodePoint} {rest : Text} (hp : p ≠ .ch 'u') :
    codeUnit n (.ch '\\' :: p :: rest) = some (.ofValue n, .ch '\\' :: p :: rest) := by
  rw [codeUnit, ite_self]
  intro after heq
  exact hp (List.cons.inj (List.cons.inj heq).2).1

/-- Nor before a unit that closes none. -/
theorem codeUnit_unit {n m : ℕ} (hm : m < 65536) (h : ¬(0xDC00 ≤ m ∧ m < 0xE000)) (rest : Text) :
    codeUnit n (Style.unit m ++ rest) = some (.ofValue n, Style.unit m ++ rest) := by
  by_cases hn : 0xD800 ≤ n ∧ n < 0xDC00
  · simp only [Style.unit, Text.ofChars_cons, Text.ofChars_nil, List.cons_append, List.nil_append,
      codeUnit, if_pos hn, hex4_hexDigits hm, Option.bind_eq_bind, Option.bind_some, if_neg h,
      Option.pure_def]
  · exact codeUnit_of_lt hn _

/-- A pair is the character it stands for. -/
theorem codeUnit_pair {n m : ℕ} (hn : 0xD800 ≤ n ∧ n < 0xDC00) (hm : 0xDC00 ≤ m ∧ m < 0xE000)
    (rest : Text) : codeUnit n (Style.unit m ++ rest) =
      some (.ch (Char.ofNat (0x10000 + (n - 0xD800) * 0x400 + (m - 0xDC00))), rest) := by
  simp only [Style.unit, Text.ofChars_cons, Text.ofChars_nil, List.cons_append, List.nil_append,
    codeUnit, if_pos hn, hex4_hexDigits (show m < 65536 by omega), Option.bind_eq_bind,
    Option.bind_some, if_pos hm, Option.pure_def]

theorem scanPoint_unit {n : ℕ} (h : n < 65536) (rest : Text) :
    scanPoint (Style.unit n ++ rest) = codeUnit n rest := by
  simp only [Style.unit, Text.ofChars_cons, Text.ofChars_nil, List.cons_append, List.nil_append,
    scanPoint, if_true, unescape, hex4_hexDigits h, Option.bind_eq_bind, Option.bind_some]

theorem eq_of_toNat {c : Char} {n : ℕ} (h : c.toNat = n) : c = Char.ofNat n := by
  rw [← h, Char.ofNat_toNat]

/-- A character is escaped by a letter, by its code unit, or not at all. -/
theorem escape_cases (c : Char) : (∃ d, escape c = ['\\', d] ∧ d ≠ 'u' ∧
      ∀ rest, unescape (.ch d :: rest) = some (.ch c, rest)) ∨
    (Text.ofChars (escape c) = Style.unit c.toNat ∧ c.toNat < 32) ∨
    (escape c = [c] ∧ c ≠ '"' ∧ c ≠ '\\' ∧ ¬c.toNat < 32) := by
  rw [escape]
  split_ifs with hquote hslash h8 h9 h10 h12 h13 h32
  · exact Or.inl ⟨_, rfl, by decide, fun rest => by rw [hquote]; rfl⟩
  · exact Or.inl ⟨_, rfl, by decide, fun rest => by rw [hslash]; rfl⟩
  · exact Or.inl ⟨_, rfl, by decide, fun rest => by rw [eq_of_toNat h8]; rfl⟩
  · exact Or.inl ⟨_, rfl, by decide, fun rest => by rw [eq_of_toNat h9]; rfl⟩
  · exact Or.inl ⟨_, rfl, by decide, fun rest => by rw [eq_of_toNat h10]; rfl⟩
  · exact Or.inl ⟨_, rfl, by decide, fun rest => by rw [eq_of_toNat h12]; rfl⟩
  · exact Or.inl ⟨_, rfl, by decide, fun rest => by rw [eq_of_toNat h13]; rfl⟩
  · refine Or.inr (Or.inl ⟨?_, h32⟩)
    rw [Style.unit, show c.toNat / 4096 = 0 by omega, show c.toNat / 256 % 16 = 0 by omega,
      show c.toNat / 16 % 16 = c.toNat / 16 by omega]
    rfl
  · exact Or.inr (Or.inr ⟨rfl, hquote, hslash, h32⟩)

/-- **A character is read back from its escape.** -/
theorem scanPoint_escape (c : Char) (rest : Text) :
    scanPoint (Text.ofChars (escape c) ++ rest) = some (.ch c, rest) := by
  rcases escape_cases c with ⟨d, hd, -, hscan⟩ | ⟨hunit, h⟩ | ⟨hc, -, hslash, h⟩
  · rw [hd]
    exact hscan rest
  · rw [hunit, scanPoint_unit (by omega), codeUnit_of_lt (by omega)]
    exact congrArg (fun p => some (p, rest)) (CodePoint.ofValue_value (.ch c))
  · have hne : CodePoint.ch c ≠ .ch '\\' := fun h => hslash (CodePoint.ch.inj h)
    rw [hc]
    show (if CodePoint.ch c = .ch '\\' then unescape rest
      else if c.toNat < 32 then none else some (.ch c, rest)) = _
    rw [if_neg hne, if_neg h]

/-- No pair opens before the escape of a character. -/
theorem codeUnit_plain {n : ℕ} (c : Char) (rest : Text) :
    codeUnit n (Text.ofChars (escape c) ++ rest)
      = some (.ofValue n, Text.ofChars (escape c) ++ rest) := by
  rcases escape_cases c with ⟨d, hd, hu, -⟩ | ⟨hunit, h⟩ | ⟨hc, -, hslash, -⟩
  · rw [hd]
    exact codeUnit_escape fun h => hu (CodePoint.ch.inj h)
  · rw [hunit]
    exact codeUnit_unit (by omega) (by omega) rest
  · rw [hc]
    exact codeUnit_of_ne fun h => hslash (CodePoint.ch.inj h)

theorem escape_head (c : Char) : ∃ q l, Text.ofChars (escape c) = q :: l ∧ q ≠ .ch '"' := by
  rcases escape_cases c with ⟨d, hd, -, -⟩ | ⟨hunit, -⟩ | ⟨hc, hquote, -, -⟩
  · rw [hd]
    exact ⟨_, _, rfl, by decide⟩
  · rw [hunit]
    exact ⟨_, _, rfl, by decide⟩
  · rw [hc]
    exact ⟨_, _, rfl, fun h => hquote (CodePoint.ch.inj h)⟩

namespace Style

theorem scanPoint_plain (p : CodePoint) (rest : Text) :
    scanPoint (plain p ++ rest) = some (p, rest) := by
  rcases p with c | n
  · exact scanPoint_escape c rest
  · show (if CodePoint.surrogate n = .ch '\\' then unescape rest
      else if 0xD800 + (n : ℕ) < 32 then none else some (.surrogate n, rest)) = _
    rw [if_neg nofun, if_neg (by omega)]

theorem sound_compact : compact.Sound where
  gap := nofun
  head p := by
    rcases p with c | n
    · exact escape_head c
    · exact ⟨_, [], rfl, nofun⟩
  last p rest := scanPoint_plain p _
  next p q rest _ := scanPoint_plain p _

/-- No pair opens before a code point in ASCII, unless that closes one. -/
theorem codeUnit_spellAscii {n : ℕ} {q : CodePoint} (hq : ¬q.IsLow) (rest : Text) :
    codeUnit n (spellAscii q ++ rest) = some (.ofValue n, spellAscii q ++ rest) := by
  rcases q with c | m
  · have hc := CodePoint.isSurrogate_char c
    have hlt := CodePoint.char_lt c
    rw [spellAscii]
    split_ifs with hascii hunit
    · exact codeUnit_plain c rest
    · exact codeUnit_unit hunit (by omega) rest
    · rw [List.append_assoc]
      exact codeUnit_unit (by omega) (by omega) _
  · have hm := m.isLt
    exact codeUnit_unit (m := 0xD800 + m) (by omega) hq rest

theorem scanPoint_spellAscii {p : CodePoint} {rest : Text}
    (h : p.IsHigh → codeUnit p.value rest = some (.ofValue p.value, rest)) :
    scanPoint (spellAscii p ++ rest) = some (p, rest) := by
  rcases p with c | n
  · have hc := CodePoint.isSurrogate_char c
    have hlt := CodePoint.char_lt c
    rw [spellAscii]
    split_ifs with hascii hunit
    · exact scanPoint_escape c rest
    · rw [scanPoint_unit hunit, codeUnit_of_lt (by omega)]
      exact congrArg (fun p => some (p, rest)) (CodePoint.ofValue_value (.ch c))
    · rw [List.append_assoc, scanPoint_unit (by omega), codeUnit_pair (by omega) (by omega),
        show 0x10000 + (0xD800 + (c.toNat - 0x10000) / 0x400 - 0xD800) * 0x400
          + (0xDC00 + (c.toNat - 0x10000) % 0x400 - 0xDC00) = c.toNat by omega, Char.ofNat_toNat]
  · have hn := n.isLt
    have hvalue := CodePoint.ofValue_value (.surrogate n)
    rw [CodePoint.value] at hvalue
    rw [spellAscii, scanPoint_unit (by omega)]
    by_cases hhigh : (CodePoint.surrogate n).IsHigh
    · have hunit := h hhigh
      rwa [CodePoint.value, hvalue] at hunit
    · rw [codeUnit_of_lt (n := 0xD800 + n) hhigh, hvalue]

theorem sound_ascii (gap : Text) (h : ∀ p ∈ gap, isBlank p = true) : (ascii gap).Sound where
  gap := h
  head p := by
    show ∃ q l, spellAscii p = q :: l ∧ _
    rcases p with c | n
    · rw [spellAscii]
      split_ifs
      · exact escape_head c
      · exact ⟨_, _, rfl, by decide⟩
      · exact ⟨_, _, rfl, by decide⟩
    · exact ⟨_, _, rfl, by decide⟩
  last p rest := scanPoint_spellAscii fun _ => codeUnit_of_ne (by decide)
  next p q rest hpq := scanPoint_spellAscii fun hp =>
    codeUnit_spellAscii (fun hq => hpq ⟨hp, hq⟩) rest

end Style

/-! ### Reading strings back -/

section Strings

variable {st : Style}

theorem length_le_flatMap (hst : st.Sound) (s : Text) : s.length ≤ (s.flatMap st.escape).length := by
  induction s with
  | nil => exact le_rfl
  | cons p s ih =>
    obtain ⟨q, l, hq, -⟩ := hst.head p
    simp only [List.flatMap_cons, List.length_append, List.length_cons, hq]
    omega

theorem scanString_flatMap (hst : st.Sound) {fuel : ℕ} {s : Text} (hs : s.Paired)
    (h : s.length < fuel) (rest : Text) :
    scanString fuel (s.flatMap st.escape ++ .ch '"' :: rest) = some (s, rest) := by
  induction s generalizing fuel with
  | nil =>
    obtain ⟨fuel, rfl⟩ : ∃ k, fuel = k + 1 := ⟨fuel - 1, by simp at h; omega⟩
    rfl
  | cons p s ih =>
    obtain ⟨fuel, rfl⟩ : ∃ k, fuel = k + 1 := ⟨fuel - 1, by omega⟩
    have hrest := @ih fuel hs.of_cons (by rw [List.length_cons] at h; omega)
    have hscan : scanPoint (st.escape p ++ (s.flatMap st.escape ++ .ch '"' :: rest))
        = some (p, s.flatMap st.escape ++ .ch '"' :: rest) := by
      rcases s with _ | ⟨q, s⟩
      · exact hst.last p rest
      · rw [List.flatMap_cons, List.append_assoc]
        exact hst.next p q _ (List.isChain_cons_cons.1 hs).1
    obtain ⟨q, l, hq, hne⟩ := hst.head p
    rw [List.flatMap_cons, List.append_assoc]
    rw [hq, List.cons_append] at hscan ⊢
    rw [scanString, hscan]
    · simp only [Option.bind_eq_bind, Option.bind_some, hrest, Option.pure_def]
    · intro rest' heq
      exact hne (List.cons.inj heq).1

/-- **A string is read back from its text.** -/
theorem parseString_flatMap (hst : st.Sound) {s : Text} (hs : s.Paired) (rest : Text) :
    parseString (s.flatMap st.escape ++ .ch '"' :: rest) = some (s, rest) := by
  have hlength := length_le_flatMap hst s
  exact scanString_flatMap hst hs (by rw [List.length_append]; omega) rest

end Strings

/-! ### Reading integers back -/

/-- What follows does not go on with a number. -/
def EndsNumber (rest : Text) : Prop :=
  ∀ c l, rest = .ch c :: l → isDigit c = false ∧ c ≠ '.' ∧ c ≠ 'e' ∧ c ≠ 'E'

theorem spanDigits_ends {rest : Text} (h : EndsNumber rest) : spanDigits rest = ([], rest) := by
  rcases rest with _ | ⟨c | n, rest⟩
  · rfl
  · rw [spanDigits, (h c rest rfl).1, if_neg Bool.false_ne_true]
  · rfl

theorem spanDigits_append {l : List Char} {rest : Text} (hl : l.all isDigit = true)
    (h : EndsNumber rest) : spanDigits (Text.ofChars l ++ rest) = (l, rest) := by
  induction l with
  | nil => exact spanDigits_ends h
  | cons c l ih =>
    rw [List.all_cons, Bool.and_eq_true] at hl
    rw [Text.ofChars_cons, List.cons_append, spanDigits, if_pos hl.1, ih hl.2]

theorem wholePart_natText (n : ℕ) {rest : Text} (h : EndsNumber rest) :
    wholePart (Text.ofChars (natText n) ++ rest) = some (natText n, rest) := by
  by_cases hn : n = 0
  · subst hn
    rfl
  have hspan := spanDigits_append (all_isDigit_natText n) h
  have hzero := head_natText_ne_zero hn
  rcases hl : natText n with _ | ⟨c, l⟩
  · exact absurd hl (natText_ne_nil n)
  · simp only [hl, List.head_cons] at hzero hspan
    rw [Text.ofChars_cons, List.cons_append, wholePart]
    · rw [← List.cons_append, ← Text.ofChars_cons, hspan]
    · intro rest' heq
      exact hzero (CodePoint.ch.inj (List.cons.inj heq).1)

theorem fraction_of_endsNumber {rest : Text} (h : EndsNumber rest) : fraction rest = ([], rest) := by
  rw [fraction]
  intro rest' heq
  exact (h '.' rest' heq).2.1 rfl

theorem exponent_of_endsNumber {rest : Text} (h : EndsNumber rest) : exponent rest = ([], rest) := by
  rcases rest with _ | ⟨c | n, rest⟩
  · rfl
  · have hc := (h c rest rfl).2.2
    rw [exponent, if_neg (by simp [hc])]
  · rfl

theorem minus_of_isDigit {c : Char} {l : Text} (h : isDigit c = true) :
    minus (.ch c :: l) = (false, .ch c :: l) := by
  rw [minus]
  intro rest heq
  rw [CodePoint.ch.inj (List.cons.inj heq).1] at h
  exact absurd h (by decide)

/-- The text of a natural number begins with a digit. -/
theorem natText_cons (n : ℕ) : ∃ c l, natText n = c :: l ∧ isDigit c = true := by
  have hall := all_isDigit_natText n
  rcases hl : natText n with _ | ⟨c, l⟩
  · exact absurd hl (natText_ne_nil n)
  · rw [hl, List.all_cons, Bool.and_eq_true] at hall
    exact ⟨c, l, rfl, hall.1⟩

theorem intChars_cons (n : ℤ) : ∃ c l, intChars n = c :: l ∧ (isDigit c = true ∨ c = '-' ∧
    ∃ d m, l = d :: m ∧ isDigit d = true) := by
  obtain ⟨c, l, hl, hc⟩ := natText_cons n.natAbs
  rw [intChars, hl]
  split
  · exact ⟨_, _, rfl, Or.inr ⟨rfl, c, l, rfl, hc⟩⟩
  · exact ⟨c, l, rfl, Or.inl hc⟩

variable {r : Reader}

/-- **An integer is read back from its text.** -/
theorem parseNumber_intChars {n : ℤ} {rest : Text} (h : EndsNumber rest)
    (hn : (natText n.natAbs).length ≤ maxDigits) :
    parseNumber r (Text.ofChars (intChars n) ++ rest) = some (.int n, rest) := by
  have hwhole := wholePart_natText n.natAbs h
  have hread := readNat_natText n.natAbs
  have hminus : minus (Text.ofChars (intChars n) ++ rest)
      = (decide (n < 0), Text.ofChars (natText n.natAbs) ++ rest) := by
    rw [intChars]
    split
    · next hneg => simp [minus, hneg]
    · next hneg =>
      obtain ⟨c, l, hl, hc⟩ := natText_cons n.natAbs
      rw [hl, Text.ofChars_cons, List.cons_append, minus_of_isDigit hc]
      simp [hneg]
  rw [parseNumber, hminus]
  simp only [hwhole, Option.bind_eq_bind, Option.bind_some, fraction_of_endsNumber h,
    exponent_of_endsNumber h, and_self, if_true, if_neg (not_lt.2 hn), hread, Option.pure_def,
    decide_eq_true_eq]
  split
  · next hneg => rw [show (-(n.natAbs : ℤ)) = n by omega]
  · next hneg => rw [show (n.natAbs : ℤ) = n by omega]

/-! ### Reading values back -/

mutual

/-- A value that can be read back: it has no floating-point numbers, its strings are
paired, its integers are short enough, and its objects repeat no key. -/
def Plain : Json Text → Prop
  | null | bool _ => True
  | str s => s.Paired
  | int n => (natText n.natAbs).length ≤ maxDigits
  | float _ => False
  | arr items => PlainItems items
  | obj fields => (fields.map Prod.fst).Nodup ∧ PlainFields fields

def PlainItems : List (Json Text) → Prop
  | [] => True
  | x :: xs => Plain x ∧ PlainItems xs

def PlainFields : List (Text × Json Text) → Prop
  | [] => True
  | (k, x) :: fields => k.Paired ∧ Plain x ∧ PlainFields fields

end

/-- The text of a floating-point number that is read back as it stands. -/
structure ReadsNumber (r : Reader) (t : String) : Prop where
  begins : ∃ c l, t.toList = c :: l ∧ (isDigit c = true ∨ c = '-' ∧ ∃ d m, l = d :: m ∧ isDigit d = true)
  ascii : ∀ c ∈ t.toList, c.toNat < 0x80
  reads : ∀ rest, EndsNumber rest → parseNumber r (Text.ofString t ++ rest) = some (.float t, rest)

mutual

/-- A value that a reader reads back: its numbers are read back from their texts, its strings
are paired, and its objects repeat no key. -/
def Readable (r : Reader) : Json Text → Prop
  | null | bool _ => True
  | str s => s.Paired
  | int n => (natText n.natAbs).length ≤ maxDigits
  | float t => ReadsNumber r t
  | arr items => ReadableItems r items
  | obj fields => (fields.map Prod.fst).Nodup ∧ ReadableFields r fields

def ReadableItems (r : Reader) : List (Json Text) → Prop
  | [] => True
  | x :: xs => Readable r x ∧ ReadableItems r xs

def ReadableFields (r : Reader) : List (Text × Json Text) → Prop
  | [] => True
  | (k, x) :: fields => k.Paired ∧ Readable r x ∧ ReadableFields r fields

end

variable (r) in
mutual

/-- A value without floating-point numbers is read back by every reader. -/
theorem Plain.readable : ∀ {j : Json Text}, j.Plain → j.Readable r
  | null, _ => trivial
  | bool _, _ => trivial
  | str _, h => h
  | int _, h => h
  | arr _, h => PlainItems.readable h
  | obj _, h => ⟨h.1, PlainFields.readable h.2⟩

theorem PlainItems.readable : ∀ {xs : List (Json Text)}, PlainItems xs → ReadableItems r xs
  | [], _ => trivial
  | _ :: _, h => ⟨Plain.readable h.1, PlainItems.readable h.2⟩

theorem PlainFields.readable : ∀ {fields : List (Text × Json Text)}, PlainFields fields →
    ReadableFields r fields
  | [], _ => trivial
  | _ :: _, h => ⟨h.1, Plain.readable h.2.1, PlainFields.readable h.2.2⟩

end

mutual

/-- The fuel it takes to read a value. -/
def weight : Json Text → ℕ
  | arr items => 1 + itemsWeight items
  | obj fields => 1 + fieldsWeight fields
  | _ => 1

def itemsWeight : List (Json Text) → ℕ
  | [] => 0
  | x :: xs => 1 + weight x + itemsWeight xs

def fieldsWeight : List (Text × Json Text) → ℕ
  | [] => 0
  | (_, x) :: fields => 1 + weight x + fieldsWeight fields

end

theorem endsNumber_cons {c : Char} {rest : Text}
    (h : c = ',' ∨ c = ']' ∨ c = '}' ∨ c = '\n') : EndsNumber (.ch c :: rest) := by
  rintro d l ⟨⟩
  rcases h with rfl | rfl | rfl | rfl <;> exact ⟨by decide, by decide, by decide, by decide⟩

theorem skipBlanks_of_not_blank {p : CodePoint} {l : Text} (h : isBlank p = false) :
    skipBlanks (p :: l) = p :: l :=
  List.dropWhile_cons_of_neg (by simp [h])

theorem skipBlanks_append {gap l : Text} (h : ∀ p ∈ gap, isBlank p = true) :
    skipBlanks (gap ++ l) = skipBlanks l :=
  List.dropWhile_append_of_pos h

/-- A digit is none of the other characters. -/
theorem isDigit_ne {c d : Char} (hc : isDigit c = true) (hd : isDigit d = false) : c ≠ d := by
  rintro rfl
  rw [hc] at hd
  cases hd

theorem isDigit_ne_point {c d : Char} (hc : isDigit c = true) (hd : isDigit d = false) :
    CodePoint.ch c ≠ .ch d := fun h => isDigit_ne hc hd (CodePoint.ch.inj h)

theorem isBlank_of_isDigit {c : Char} (h : isDigit c = true) : isBlank (.ch c) = false := by
  simp only [isBlank, Bool.or_eq_false_iff, beq_eq_false_iff_ne]
  exact ⟨⟨⟨isDigit_ne_point h rfl, isDigit_ne_point h rfl⟩, isDigit_ne_point h rfl⟩,
    isDigit_ne_point h rfl⟩

/-- A number is read where a text begins like one. -/
theorem parseValue_number {fuel : ℕ} {c : Char} {l : Text}
    (h : isDigit c = true ∨ c = '-' ∧ ∃ d m, l = .ch d :: m ∧ isDigit d = true) :
    parseValue r (fuel + 1) (.ch c :: l) = parseNumber r (.ch c :: l) := by
  rw [parseValue]
  all_goals
    intro rest heq
    have hc := CodePoint.ch.inj (List.cons.inj heq).1
    subst hc
    rcases h with hc | ⟨hc, d, m, rfl, hd⟩
    · exact absurd hc (by decide)
    · first
        | exact absurd hc (by decide)
        | exact isDigit_ne_point hd rfl (List.cons.inj (List.cons.inj heq).2).1

/-- An array that is not empty is read as its items. -/
theorem parseValue_bracket {fuel : ℕ} {p : CodePoint} {l rest : Text} {items : List (Json Text)}
    (hblank : isBlank p = false) (hclose : p ≠ .ch ']')
    (h : parseItems r fuel (p :: l) = some (items, rest)) :
    parseValue r (fuel + 1) (.ch '[' :: p :: l) = some (.arr items, rest) := by
  rw [parseValue, skipBlanks_of_not_blank hblank]
  split
  · next heq => exact absurd (List.cons.inj heq).1 hclose
  · rw [h]
    rfl

/-- An object that is not empty is read as its fields. -/
theorem parseValue_brace {fuel : ℕ} {l rest : Text} {fields : List (Text × Json Text)}
    (h : parseFields r fuel (.ch '"' :: l) = some (fields, rest))
    (hnodup : (fields.map Prod.fst).Nodup) :
    parseValue r (fuel + 1) (.ch '{' :: .ch '"' :: l) = some (.obj fields, rest) := by
  rw [parseValue, skipBlanks_of_not_blank (by decide)]
  split
  · next heq => exact absurd (List.cons.inj heq).1 (by decide)
  · simp only [h, Option.bind_eq_bind, Option.bind_some, object, if_pos (Or.inr hnodup),
      dict_of_nodup hnodup, Option.pure_def]

section Values

variable {st : Style}

variable (st) in
theorem writeItems_cons (xs : List (Json Text)) :
    ∃ c l, st.writeItems xs = .ch c :: l ∧ (c = ',' ∨ c = ']') := by
  rcases xs with _ | ⟨x, xs⟩
  · exact ⟨_, _, rfl, Or.inr rfl⟩
  · exact ⟨_, _, rfl, Or.inl rfl⟩

variable (st) in
theorem writeFields_cons (fields : List (Text × Json Text)) :
    ∃ c l, st.writeFields fields = .ch c :: l ∧ (c = ',' ∨ c = '}') := by
  rcases fields with _ | ⟨⟨k, x⟩, fields⟩
  · exact ⟨_, _, rfl, Or.inr rfl⟩
  · exact ⟨_, _, rfl, Or.inl rfl⟩

variable (st) in
/-- The text of a value begins with none of the characters that close a bracket, and with
no blank. -/
theorem write_cons {j : Json Text} (h : j.Readable r) :
    ∃ p l, st.write j = p :: l ∧ isBlank p = false ∧ p ≠ .ch ']' ∧ p ≠ .ch '}' := by
  rcases j with _ | _ | n | _ | s | _ | _
  case int =>
    obtain ⟨c, l, hl, hc⟩ := intChars_cons n
    rw [Style.write, hl]
    rcases hc with hc | ⟨rfl, -⟩
    · exact ⟨_, _, rfl, isBlank_of_isDigit hc, isDigit_ne_point hc rfl, isDigit_ne_point hc rfl⟩
    · exact ⟨_, _, rfl, by decide, by decide, by decide⟩
  case float =>
    obtain ⟨c, l, hl, hc⟩ := h.begins
    rw [Style.write, Text.ofString, hl]
    rcases hc with hc | ⟨rfl, -⟩
    · exact ⟨_, _, rfl, isBlank_of_isDigit hc, isDigit_ne_point hc rfl, isDigit_ne_point hc rfl⟩
    · exact ⟨_, _, rfl, by decide, by decide, by decide⟩
  case null => exact ⟨_, _, rfl, by decide, by decide, by decide⟩
  case bool b => rcases b <;> exact ⟨_, _, rfl, by decide, by decide, by decide⟩
  case str => exact ⟨_, _, rfl, by decide, by decide, by decide⟩
  case arr items => rcases items <;> exact ⟨_, _, rfl, by decide, by decide, by decide⟩
  case obj fields =>
    rcases fields with _ | ⟨⟨_, _⟩, _⟩ <;> exact ⟨_, _, rfl, by decide, by decide, by decide⟩

/-- The blanks before a value are skipped. -/
theorem skipBlanks_write (hst : st.Sound) {j : Json Text} (h : j.Readable r) (rest : Text) :
    skipBlanks (st.gap ++ (st.write j ++ rest)) = st.write j ++ rest := by
  obtain ⟨p, l, hl, hblank, -, -⟩ := write_cons st h
  rw [skipBlanks_append hst.gap, hl, List.cons_append, skipBlanks_of_not_blank hblank]

theorem endsNumber_writeItems (xs : List (Json Text)) (rest : Text) :
    EndsNumber (st.writeItems xs ++ rest) := by
  obtain ⟨c, l, hl, hc⟩ := writeItems_cons st xs
  rw [hl, List.cons_append]
  exact endsNumber_cons (hc.imp_right Or.inl)

variable (st) in
theorem endsNumber_writeFields (fields : List (Text × Json Text)) (rest : Text) :
    EndsNumber (st.writeFields fields ++ rest) := by
  obtain ⟨c, l, hl, hc⟩ := writeFields_cons st fields
  rw [hl, List.cons_append]
  exact endsNumber_cons (hc.imp_right fun h => Or.inr (Or.inl h))

/-- What is read back with some fuel: values, and what is between brackets. -/
structure ReadsBack (r : Reader) (st : Style) (fuel : ℕ) : Prop where
  value : ∀ {j : Json Text} {rest : Text}, j.Readable r → j.weight ≤ fuel → EndsNumber rest →
    parseValue r fuel (st.write j ++ rest) = some (j, rest)
  items : ∀ {x : Json Text} {xs : List (Json Text)} (rest : Text), ReadableItems r (x :: xs) →
    itemsWeight (x :: xs) ≤ fuel →
      parseItems r fuel (st.write x ++ (st.writeItems xs ++ rest)) = some (x :: xs, rest)
  fields : ∀ (k : Text) {x : Json Text} {fields : List (Text × Json Text)} (rest : Text),
    ReadableFields r ((k, x) :: fields) → fieldsWeight ((k, x) :: fields) ≤ fuel →
      parseFields r fuel
          (st.quote k ++ (.ch ':' :: (st.gap ++ (st.write x ++ (st.writeFields fields ++ rest)))))
        = some ((k, x) :: fields, rest)

/-- A number is read as what is read of its text. -/
theorem parseValue_numberText {fuel : ℕ} {l : List Char} {j : Json Text} {rest : Text}
    (hl : ∃ c m, l = c :: m ∧ (isDigit c = true ∨ c = '-' ∧ ∃ d n, m = d :: n ∧ isDigit d = true))
    (h : parseNumber r (Text.ofChars l ++ rest) = some (j, rest)) :
    parseValue r (fuel + 1) (Text.ofChars l ++ rest) = some (j, rest) := by
  obtain ⟨c, m, rfl, hc⟩ := hl
  rw [Text.ofChars_cons, List.cons_append] at h ⊢
  rw [parseValue_number, h]
  rcases hc with hc | ⟨hc, d, n, rfl, hd⟩
  · exact Or.inl hc
  · exact Or.inr ⟨hc, d, _, rfl, hd⟩

/-- A value is read back with one more unit of fuel than what is between its brackets. -/
theorem ReadsBack.parseValue (hst : st.Sound) {fuel : ℕ} (ih : ReadsBack r st fuel) {j : Json Text} {rest : Text}
    (hread : j.Readable r) (hweight : j.weight ≤ fuel + 1) (hends : EndsNumber rest) :
    parseValue r (fuel + 1) (st.write j ++ rest) = some (j, rest) := by
  rcases j with _ | b | n | t | s | items | fields
  case null => rfl
  case bool => rcases b <;> rfl
  case float =>
    rw [Style.write, Text.ofString]
    exact parseValue_numberText hread.begins (hread.reads rest hends)
  case int =>
    rw [Style.write]
    exact parseValue_numberText (intChars_cons n) (parseNumber_intChars hends hread)
  case str =>
    have hstring := parseString_flatMap hst hread rest
    rw [Style.write, Style.quote, List.cons_append, List.cons_append, List.append_assoc,
      List.singleton_append, Json.parseValue, hstring]
    rfl
  case arr =>
    rcases items with _ | ⟨x, xs⟩
    · rfl
    obtain ⟨p, l, hl, hblank, hclose, -⟩ := write_cons st hread.1
    have hitems := ih.items rest hread (by rw [weight] at hweight; omega)
    simp only [Style.write, hl, List.cons_append, List.append_assoc] at hitems ⊢
    exact parseValue_bracket hblank hclose hitems
  case obj =>
    rcases fields with _ | ⟨⟨k, x⟩, fields⟩
    · rfl
    have hfields := ih.fields k rest hread.2 (by rw [weight] at hweight; omega)
    simp only [Style.write, Style.quote, List.cons_append, List.append_assoc] at hfields ⊢
    exact parseValue_brace hfields hread.1

/-- Items are read back one by one, each before a comma or the bracket. -/
theorem ReadsBack.parseItems (hst : st.Sound) {fuel : ℕ} (ih : ReadsBack r st fuel) {x : Json Text}
    {xs : List (Json Text)} (rest : Text) (hread : ReadableItems r (x :: xs))
    (hweight : itemsWeight (x :: xs) ≤ fuel + 1) :
    parseItems r (fuel + 1) (st.write x ++ (st.writeItems xs ++ rest)) = some (x :: xs, rest) := by
  rw [itemsWeight] at hweight
  rw [Json.parseItems, ih.value hread.1 (by omega) (endsNumber_writeItems xs rest)]
  rcases xs with _ | ⟨y, ys⟩
  · rfl
  have hitems := ih.items rest hread.2 (by omega)
  rw [Style.writeItems, List.cons_append, List.cons_append, List.cons_append, List.append_assoc,
    List.append_assoc]
  simp only [Option.bind_eq_bind, Option.bind_some, skipBlanks_of_not_blank (p := .ch ',') rfl,
    skipBlanks_write hst hread.2.1, hitems, Option.pure_def]

/-- Fields are read back one by one, each with its key. -/
theorem ReadsBack.parseFields (hst : st.Sound) {fuel : ℕ} (ih : ReadsBack r st fuel) (k : Text) {x : Json Text}
    {fields : List (Text × Json Text)} (rest : Text) (hread : ReadableFields r ((k, x) :: fields))
    (hweight : fieldsWeight ((k, x) :: fields) ≤ fuel + 1) :
    parseFields r (fuel + 1)
        (st.quote k ++ (.ch ':' :: (st.gap ++ (st.write x ++ (st.writeFields fields ++ rest)))))
      = some ((k, x) :: fields, rest) := by
  rw [fieldsWeight] at hweight
  have hstring := parseString_flatMap hst hread.1
    (.ch ':' :: (st.gap ++ (st.write x ++ (st.writeFields fields ++ rest))))
  have hvalue := ih.value hread.2.1 (by omega) (endsNumber_writeFields st fields rest)
  simp only [Style.quote, List.cons_append, List.append_assoc, List.nil_append, Json.parseFields,
    hstring, Option.bind_eq_bind, Option.bind_some, skipBlanks_of_not_blank (p := .ch ':') rfl,
    skipBlanks_write hst hread.2.1, hvalue]
  rcases fields with _ | ⟨⟨k', y⟩, fields⟩
  · rfl
  have hfields := ih.fields k' rest hread.2.2 (by omega)
  simp only [Style.quote, List.cons_append, List.append_assoc, List.nil_append] at hfields
  simp only [Style.writeFields, Style.quote, List.cons_append, List.append_assoc,
    List.nil_append, skipBlanks_of_not_blank (p := .ch ',') rfl, skipBlanks_append hst.gap,
    skipBlanks_of_not_blank (p := .ch '"') rfl, hfields, Option.bind_some, Option.pure_def]

/-- **All that fuel is enough for is read back.** The induction is on the fuel; with none there is
nothing to read. -/
theorem readsBack (hst : st.Sound) (fuel : ℕ) : ReadsBack r st fuel := by
  induction fuel with
  | zero =>
    refine ⟨?_, ?_, ?_⟩
    · intro j rest _ hweight
      rcases j <;> simp [weight] at hweight
    · intro x xs rest _ hweight
      simp [itemsWeight] at hweight
    · intro k x fields rest _ hweight
      simp [fieldsWeight] at hweight
  | succ fuel ih => exact ⟨ih.parseValue hst, ih.parseItems hst, ih.parseFields hst⟩

mutual

/-- The length of the text of a value is fuel enough. -/
theorem weight_le_length : ∀ {j : Json Text}, j.Readable r → j.weight ≤ (st.write j).length
  | null, _ => by simp [weight, Style.write]
  | bool true, _ => by simp [weight, Style.write]
  | bool false, _ => by simp [weight, Style.write]
  | int n, h => by
    obtain ⟨p, l, hl, -⟩ := write_cons st (j := int n) h
    rw [hl, weight, List.length_cons]
    · omega
    all_goals nofun
  | float t, h => by
    obtain ⟨p, l, hl, -⟩ := write_cons st (j := float t) h
    rw [hl, weight, List.length_cons]
    · omega
    all_goals nofun
  | str s, _ => by simp [weight, Style.write, Style.quote]
  | arr [], _ => by simp [weight, itemsWeight, Style.write]
  | arr (x :: xs), h => by
    have hx := weight_le_length (j := x) h.1
    have hxs := itemsWeight_lt_length h.2
    simp only [weight, itemsWeight, Style.write, List.length_cons, List.length_append]
    omega
  | obj [], _ => by simp [weight, fieldsWeight, Style.write]
  | obj ((k, x) :: fields), h => by
    have hx := weight_le_length (j := x) h.2.2.1
    have hfields := fieldsWeight_lt_length h.2.2.2
    simp only [weight, fieldsWeight, Style.write, List.length_cons, List.length_append]
    omega

theorem itemsWeight_lt_length : ∀ {xs : List (Json Text)}, ReadableItems r xs →
    itemsWeight xs < (st.writeItems xs).length
  | [], _ => by simp [itemsWeight, Style.writeItems]
  | x :: xs, h => by
    have hx := weight_le_length (j := x) h.1
    have hxs := itemsWeight_lt_length h.2
    simp only [itemsWeight, Style.writeItems, List.length_cons, List.length_append]
    omega

theorem fieldsWeight_lt_length : ∀ {fields : List (Text × Json Text)}, ReadableFields r fields →
    fieldsWeight fields < (st.writeFields fields).length
  | [], _ => by simp [fieldsWeight, Style.writeFields]
  | (k, x) :: fields, h => by
    have hx := weight_le_length (j := x) h.2.1
    have hfields := fieldsWeight_lt_length h.2.2
    simp only [fieldsWeight, Style.writeFields, List.length_cons, List.length_append]
    omega

end

/-- **The round trip of JSON text**, with blanks or nothing after it. -/
theorem Readable.parse_write (hst : st.Sound) {j : Json Text} (h : j.Readable r) {rest : Text}
    (hrest : rest = [] ∨ rest = [.ch '\n']) : parse r (st.write j ++ rest) = some j := by
  obtain ⟨p, l, hl, hblank, -, -⟩ := write_cons st h
  have hweight : j.weight ≤ (st.write j).length := weight_le_length h
  have hends : EndsNumber rest := by
    rcases hrest with rfl | rfl
    · exact nofun
    · exact endsNumber_cons (by simp)
  have hvalue : parseValue r ((st.write j ++ rest).length + 1) (st.write j ++ rest) = some (j, rest) :=
    (readsBack hst _).value h (by rw [List.length_append]; omega) hends
  rw [parse, show skipBlanks (st.write j ++ rest) = st.write j ++ rest by
    rw [hl, List.cons_append, skipBlanks_of_not_blank hblank], hvalue]
  rcases hrest with rfl | rfl <;> rfl

/-- The round trip of a value without floating-point numbers. -/
theorem parse_write (hst : st.Sound) {j : Json Text} (h : j.Plain) {rest : Text}
    (hrest : rest = [] ∨ rest = [.ch '\n']) : parse r (st.write j ++ rest) = some j :=
  (h.readable r).parse_write hst hrest

end Values

end Json
