import Mathlib
import YasbLimitora.Cache.Accepted
import YasbLimitora.Lib.Words
import YasbLimitora.Projection.Depletion

/-!
# The texts that are derived of safe ones are safe

The cache takes a text of a document if it is safe, and the texts of a document are derived: the
period of a window is written with a capital and blanks, percentages and dates are put after it,
lines are put below one another, and what is too long is cut off. That all of this comes out safe
is a matter of the separators. None of them is a letter, and where one stands alone the next
character is none either, or it is a line break, so that no word of the filter can reach over it
(`YasbLimitora.Cache.Clean.append`).

A text is `YasbLimitora.Cache.IsPlain` if it is of the printable characters of ASCII, and safe; this
is what is asked of the identities, and of what is shown of an instant. What is derived has two
characters more, the dot and the dash, and line breaks in a tooltip (`YasbLimitora.Cache.Shown`). The
lengths are those for which the limits of the validator are made: a summary has 128 characters, a
tooltip 4096, and what is shown of both providers together what its two parts have with their
separator.

What the Unicode database does to such texts is assumed (`YasbLimitora.Cache.PlainText`): it
normalizes none of them, and puts a capital in front as in ASCII.
-/

namespace YasbLimitora

namespace Cache

open Text (Foreign Alike)

/-! ### Words -/

section Words

/-- The words of which the filter looks for two in a row. -/
def unsafePairs : List (List Char × List Char) :=
  [(['a', 'u', 't', 'h'], ['c', 'o', 'o', 'k', 'i', 'e']), (['a', 'p', 'i'], ['k', 'e', 'y'])]

/-- All letters that the filter looks for. -/
def unsafeLetters : List Char :=
  ['a', 'b', 'c', 'd', 'e', 'h', 'i', 'k', 'l', 'n', 'o', 'p', 'r', 's', 't', 'u', 'w', 'y', 'z']

/-- A text without an unsafe word. -/
structure Clean (t : Text) : Prop where
  words : ∀ word ∈ unsafeWords, Text.hasWord word t = false
  pairs : ∀ pair ∈ unsafePairs, Text.hasWords pair.1 pair.2 t = false

theorem clean_iff {t : Text} : Clean t ↔ hasUnsafeWord t = false := by
  have hpairs : (∀ pair ∈ unsafePairs, Text.hasWords pair.1 pair.2 t = false) ↔
      Text.hasWords ['a', 'u', 't', 'h'] ['c', 'o', 'o', 'k', 'i', 'e'] t = false ∧
        Text.hasWords ['a', 'p', 'i'] ['k', 'e', 'y'] t = false := by
    unfold unsafePairs
    rw [List.forall_mem_cons, List.forall_mem_singleton]
  rw [hasUnsafeWord, Bool.or_eq_false_iff, Bool.or_eq_false_iff, List.any_eq_false, and_assoc, ← hpairs]
  constructor
  · rintro ⟨hwords, hpairs⟩
    exact ⟨fun word hword => Bool.eq_false_iff.1 (hwords word hword), hpairs⟩
  · rintro ⟨hwords, hpairs⟩
    exact ⟨fun word hword => Bool.eq_false_iff.2 (hwords word hword), hpairs⟩

/-- A word of such letters. -/
def isSpelled (word : List Char) : Bool := word ≠ [] && word.all unsafeLetters.elem

theorem isSpelled_iff {word : List Char} : isSpelled word = true ↔ word ≠ [] ∧ ∀ c ∈ word, c ∈ unsafeLetters := by
  rw [isSpelled, Bool.and_eq_true, decide_eq_true_eq, List.all_eq_true]
  exact and_congr_right fun _ => forall₂_congr fun c _ => List.elem_iff

theorem word_letters : ∀ word ∈ unsafeWords, word ≠ [] ∧ ∀ c ∈ word, c ∈ unsafeLetters := by
  have hall : unsafeWords.all isSpelled = true := by decide
  exact fun word hword => isSpelled_iff.1 (List.all_eq_true.1 hall word hword)

theorem pair_letters : ∀ pair ∈ unsafePairs, (pair.1 ≠ [] ∧ pair.2 ≠ []) ∧ (∀ c ∈ pair.1, c ∈ unsafeLetters) ∧
    ∀ c ∈ pair.2, c ∈ unsafeLetters := by
  have hall : (unsafePairs.all fun pair => isSpelled pair.1 && isSpelled pair.2) = true := by decide
  intro pair hpair
  have hboth := List.all_eq_true.1 hall pair hpair
  rw [Bool.and_eq_true, isSpelled_iff, isSpelled_iff] at hboth
  exact ⟨⟨hboth.1.1, hboth.2.1⟩, hboth.1.2, hboth.2.2⟩

variable {p q : CodePoint} {t u : Text}

/-- A code point that is no letter of any word. -/
def IsSeparator (p : CodePoint) : Prop := Foreign unsafeLetters p

instance (p : CodePoint) : Decidable (IsSeparator p) := inferInstanceAs (Decidable (Foreign _ _))

theorem IsSeparator.foreign (hp : IsSeparator p) {word : List Char} (h : ∀ c ∈ word, c ∈ unsafeLetters) : Foreign word p :=
  fun c hc => hp c (h c hc)

/-- What a text of separators is put before or after is as clean as it was. -/
theorem Clean.cons (h : Clean t) (hp : IsSeparator p) : Clean (p :: t) where
  words word hword := by
    obtain ⟨hne, hletters⟩ := word_letters word hword
    rw [Text.hasWord_foreign hne (hp.foreign hletters), h.words word hword]
  pairs pair hpair := by
    obtain ⟨⟨hne, -⟩, hletters, -⟩ := pair_letters pair hpair
    rw [Text.hasWords_foreign hne (hp.foreign hletters), h.pairs pair hpair]

/-- **Two clean texts** are clean with a separator between them that no pair of words reaches over: a
line break, or one with another separator after it. -/
theorem Clean.append (h : Clean t) (h' : Clean u) (hp : IsSeparator p)
    (hparts : p = .ch '\n' ∨ ∀ q ∈ u.head?, IsSeparator q) : Clean (t ++ p :: u) where
  words word hword := by
    obtain ⟨hne, hletters⟩ := word_letters word hword
    rw [Text.hasWord_append hne (hp.foreign hletters), h.words word hword, h'.words word hword]
    rfl
  pairs pair hpair := by
    obtain ⟨⟨hne, hne'⟩, hletters, hletters'⟩ := pair_letters pair hpair
    have hp' : Text.Parts pair.2 p u := hparts.imp_right fun hu q hq => (hu q hq).foreign hletters'
    rw [Text.hasWords_append hne hne' (hp.foreign hletters) (hp.foreign hletters') hp', h.pairs pair hpair,
      h'.pairs pair hpair]
    rfl

theorem clean_of_separators (h : ∀ q ∈ t, IsSeparator q) : Clean t where
  words word hword := by
    obtain ⟨hne, hletters⟩ := word_letters word hword
    exact Text.hasWord_of_foreign hne fun q hq => (h q hq).foreign hletters
  pairs pair hpair := by
    obtain ⟨⟨hne, -⟩, hletters, -⟩ := pair_letters pair hpair
    exact Text.hasWords_of_foreign hne fun q hq => (h q hq).foreign hletters

/-- A clean text that is cut off is clean. -/
theorem Clean.of_append (h : Clean (t ++ u)) : Clean t where
  words word hword := by
    by_contra hhas
    have hmore := Text.hasWord_of_append (word_letters word hword).1 u (Bool.eq_true_of_not_eq_false hhas)
    rw [h.words word hword] at hmore
    cases hmore
  pairs pair hpair := by
    by_contra hhas
    have hmore := Text.hasWords_of_append (pair_letters pair hpair).1.1 u (Bool.eq_true_of_not_eq_false hhas)
    rw [h.pairs pair hpair] at hmore
    cases hmore

/-- A text is as clean as one of which its letters differ in their case alone. -/
theorem Clean.congr (h : Clean t) (halike : List.Forall₂ (Alike unsafeLetters) t u) : Clean u where
  words word hword := by
    rw [← Text.hasWord_congr (word_letters word hword).2 halike, h.words word hword]
  pairs pair hpair := by
    obtain ⟨-, hletters, hletters'⟩ := pair_letters pair hpair
    rw [← Text.hasWords_congr hletters hletters' halike, h.pairs pair hpair]

end Words

/-! ### Texts that are shown -/

section Shown

/-- The characters of the texts of a document. -/
def isShownChar (multiline : Bool) (c : Char) : Bool :=
  (32 ≤ c.toNat && c.toNat < 127) || c == '·' || c == '—' || (multiline && c == '\n')

/-- What may be shown in a line may be shown in several. -/
theorem isShownChar_lines {multiline : Bool} {c : Char} (h : isShownChar multiline c = true) : isShownChar true c = true := by
  unfold isShownChar at h ⊢
  rw [Bool.or_eq_true] at h ⊢
  refine h.imp_right fun hbreak => ?_
  rw [Bool.and_eq_true] at hbreak ⊢
  exact ⟨rfl, hbreak.2⟩

/-- A text of such characters, without an unsafe word. -/
structure Shown (multiline : Bool) (l : List Char) : Prop where
  chars : ∀ c ∈ l, isShownChar multiline c = true
  clean : Clean (Text.ofChars l)

variable {multiline : Bool} {l k : List Char} {c : Char}

theorem shown_of_check (h : (l.all (isShownChar multiline) && !hasUnsafeWord (Text.ofChars l)) = true) : Shown multiline l := by
  rw [Bool.and_eq_true, List.all_eq_true, Bool.not_eq_true'] at h
  exact ⟨h.1, clean_iff.2 h.2⟩

/-- A separator that may be shown. -/
structure Separates (multiline : Bool) (c : Char) : Prop where
  char : isShownChar multiline c = true
  separator : IsSeparator (.ch c)

instance (multiline : Bool) (c : Char) : Decidable (Separates multiline c) :=
  decidable_of_iff (isShownChar multiline c = true ∧ IsSeparator (.ch c)) ⟨fun h => ⟨h.1, h.2⟩, fun h => ⟨h.1, h.2⟩⟩

theorem Shown.cons (h : Shown multiline l) (hc : Separates multiline c) : Shown multiline (c :: l) :=
  ⟨List.forall_mem_cons.2 ⟨hc.char, h.chars⟩, h.clean.cons hc.separator⟩

/-- **Two texts are put together** with a separator, and another one after it. -/
theorem Shown.append (h : Shown multiline l) (h' : Shown multiline k) (hc : Separates multiline c)
    (hk : ∀ d ∈ k.head?, Separates multiline d) : Shown multiline (l ++ c :: k) where
  chars := by
    rw [List.forall_mem_append, List.forall_mem_cons]
    exact ⟨h.chars, hc.char, h'.chars⟩
  clean := by
    rw [Text.ofChars_append]
    refine h.clean.append h'.clean hc.separator (Or.inr fun q hq => ?_)
    change q ∈ (k.map CodePoint.ch).head? at hq
    rw [List.head?_map] at hq
    obtain ⟨d, hd, rfl⟩ := Option.map_eq_some_iff.1 hq
    exact (hk d hd).separator

theorem separates_break : Separates true '\n' := by decide +kernel

/-- **Lines are put below one another.** -/
theorem Shown.line (h : Shown true l) (h' : Shown true k) : Shown true (l ++ '\n' :: k) where
  chars := by
    rw [List.forall_mem_append, List.forall_mem_cons]
    exact ⟨h.chars, separates_break.char, h'.chars⟩
  clean := by
    rw [Text.ofChars_append]
    exact h.clean.append h'.clean separates_break.separator (Or.inl rfl)

theorem shown_of_separators (h : ∀ c ∈ l, Separates multiline c) : Shown multiline l where
  chars c hc := (h c hc).char
  clean := clean_of_separators fun q hq => by
    obtain ⟨c, hc, rfl⟩ := List.mem_map.1 hq
    exact (h c hc).separator

/-- Separators may stand before a text. -/
theorem Shown.prepend (h : Shown multiline l) (hk : ∀ c ∈ k, Separates multiline c) : Shown multiline (k ++ l) := by
  induction k with
  | nil => exact h
  | cons c k ih =>
    rw [List.forall_mem_cons] at hk
    exact (ih hk.2).cons hk.1

/-- What is shown is shown where it is cut off. -/
theorem Shown.of_append (h : Shown multiline (l ++ k)) : Shown multiline l where
  chars c hc := h.chars c (List.mem_append_left _ hc)
  clean := by
    have hclean := h.clean
    rw [Text.ofChars_append] at hclean
    exact hclean.of_append

theorem Shown.take (h : Shown multiline l) (n : ℕ) : Shown multiline (l.take n) := by
  rw [← List.take_append_drop n l] at h
  exact h.of_append

theorem Shown.lines (h : Shown multiline l) : Shown true l := ⟨fun c hc => isShownChar_lines (h.chars c hc), h.clean⟩

end Shown

/-! ### Paths -/

section Paths

variable {t u : Text}

/-- What a text that starts like a path starts with. -/
theorem startsLikePath_iff : startsLikePath t = true ↔ (t.head? = some (.ch '/') ∨ t.head? = some (.ch '\\')) ∨
    ∃ p q v, t = p :: .ch ':' :: q :: v ∧ isDriveLetter p = true ∧ (q = .ch '\\' ∨ q = .ch '/') := by
  constructor
  · intro h
    unfold startsLikePath at h
    split at h
    · exact Or.inl (Or.inl rfl)
    · exact Or.inl (Or.inr rfl)
    · next p q v _ _ =>
      rw [Bool.and_eq_true, Bool.or_eq_true, beq_iff_eq, beq_iff_eq] at h
      exact Or.inr ⟨p, q, v, rfl, h⟩
    · cases h
  · intro h
    unfold startsLikePath
    split
    · rfl
    · rfl
    · next p q v hslash hbackslash =>
      rw [Bool.and_eq_true, Bool.or_eq_true, beq_iff_eq, beq_iff_eq]
      rcases h with (h | h) | ⟨p', q', v', h, hp, hq⟩
      · exact absurd (Option.some.inj h) hslash
      · exact absurd (Option.some.inj h) hbackslash
      · obtain ⟨rfl, -, rfl, -⟩ : p = p' ∧ True ∧ q = q' ∧ v = v' := by simpa using h
        exact ⟨hp, hq⟩
    · next hslash hbackslash hdrive =>
      rcases h with (h | h) | ⟨p, q, v, rfl, -, -⟩
      · obtain ⟨v, rfl⟩ := List.head?_eq_some_iff.1 h
        exact absurd rfl (hslash v)
      · obtain ⟨v, rfl⟩ := List.head?_eq_some_iff.1 h
        exact absurd rfl (hbackslash v)
      · exact absurd rfl (hdrive p q v)

/-- A path, by the first three code points. -/
theorem startsLikePath_cons {p q r : CodePoint} : startsLikePath (p :: q :: r :: t) = true ↔
    (p = .ch '/' ∨ p = .ch '\\') ∨ q = .ch ':' ∧ isDriveLetter p = true ∧ (r = .ch '\\' ∨ r = .ch '/') := by
  rw [startsLikePath_iff, List.head?_cons, Option.some_inj, Option.some_inj]
  refine or_congr_right ⟨?_, ?_⟩
  · rintro ⟨p', q', v, heq, hp, hq⟩
    simp only [List.cons.injEq] at heq
    obtain ⟨rfl, rfl, rfl, -⟩ := heq
    exact ⟨rfl, hp, hq⟩
  · rintro ⟨rfl, hp, hq⟩
    exact ⟨p, r, t, rfl, hp, hq⟩

/-- Three code points are enough to tell a path. -/
theorem startsLikePath_append (h : 3 ≤ t.length) (u : Text) : startsLikePath (t ++ u) = startsLikePath t := by
  rcases t with _ | ⟨p, _ | ⟨q, _ | ⟨r, t⟩⟩⟩
  · simp at h
  · simp at h
  · simp at h
  · rw [Bool.eq_iff_iff, List.cons_append, List.cons_append, List.cons_append, startsLikePath_cons, startsLikePath_cons]

/-- A text with a blank where the path of a drive has a slash. -/
theorem startsLikePath_colon (hne : t ≠ []) (h : startsLikePath t = false) (u : Text) :
    startsLikePath (t ++ .ch ':' :: .ch ' ' :: u) = false := by
  rw [← Bool.not_eq_true, startsLikePath_iff] at h ⊢
  rw [not_or] at h ⊢
  rcases t with _ | ⟨p, _ | ⟨q, _ | ⟨r, t⟩⟩⟩
  · exact absurd rfl hne
  · simpa using h.1
  · refine ⟨by simpa using h.1, ?_⟩
    rintro ⟨p', q', v, heq, -, hq⟩
    simp only [List.cons_append, List.nil_append, List.cons.injEq] at heq
    obtain ⟨-, -, rfl, -⟩ := heq
    exact absurd hq (by decide)
  · simpa using h

end Paths

/-! ### Titles -/

section Titles

/-- A plain text, which the cache takes. -/
structure IsPlain (s : String) : Prop where
  chars : ∀ c ∈ s.toList, 32 ≤ c.toNat ∧ c.toNat < 127
  safe : isUnsafeValue (Text.ofString s) = false

/-- A character, or what it is in a title: a blank for an underscore, and a letter in another case. -/
def Retitled (c d : Char) : Prop :=
  let e := if c = '_' then ' ' else c
  d = e ∨ d = e.toUpper ∨ d = e.toLower

/-- What a character of a title has of its own. -/
structure Keeps (c d : Char) : Prop where
  plain : 32 ≤ d.toNat ∧ d.toNat < 127
  alike : Alike unsafeLetters (.ch c) (.ch d)
  slash : CodePoint.ch d = .ch '/' ↔ CodePoint.ch c = .ch '/'
  backslash : CodePoint.ch d = .ch '\\' ↔ CodePoint.ch c = .ch '\\'
  colon : CodePoint.ch d = .ch ':' ↔ CodePoint.ch c = .ch ':'
  drive : isDriveLetter (.ch d) = isDriveLetter (.ch c)

/-- The same, as a test. -/
def keeps (c d : Char) : Bool :=
  (32 ≤ d.toNat && d.toNat < 127) && (unsafeLetters.all fun x => Text.isLetter x (.ch c) == Text.isLetter x (.ch d)) &&
    (c == '\n') == (d == '\n') && (d == '/') == (c == '/') && (d == '\\') == (c == '\\') && (d == ':') == (c == ':') &&
      isDriveLetter (.ch d) == isDriveLetter (.ch c)

theorem keeps_iff {c d : Char} (h : keeps c d = true) : Keeps c d := by
  simp only [keeps, Bool.and_eq_true, decide_eq_true_eq, List.all_eq_true, beq_iff_eq] at h
  obtain ⟨⟨⟨⟨⟨⟨hplain, hletter⟩, hbreak⟩, hslash⟩, hbackslash⟩, hcolon⟩, hdrive⟩ := h
  have hsame : ∀ {a b x y : Char}, (a == x) = (b == y) → (CodePoint.ch a = .ch x ↔ CodePoint.ch b = .ch y) := by
    intro a b x y h
    rw [CodePoint.ch.injEq, CodePoint.ch.injEq, ← beq_iff_eq, h, beq_iff_eq]
  refine ⟨hplain, ⟨hletter, ?_⟩, hsame hslash, hsame hbackslash, hsame hcolon, hdrive⟩
  have hiff := hsame hbreak
  rw [Bool.eq_iff_iff, bne_iff_ne, bne_iff_ne]
  exact not_congr hiff

/-- **A title keeps** what the filter looks at. -/
theorem keeps_of_retitled {c d : Char} (hc : 32 ≤ c.toNat ∧ c.toNat < 127) (h : Retitled c d) : Keeps c d := by
  have hall : ((List.range 127).all fun n => n < 32 ||
      let c := Char.ofNat n
      let e := if c = '_' then ' ' else c
      keeps c e && keeps c e.toUpper && keeps c e.toLower) = true := by decide +kernel
  have hn := List.all_eq_true.1 hall c.toNat (List.mem_range.2 hc.2)
  rw [Bool.or_eq_true, decide_eq_true_eq, Char.ofNat_toNat] at hn
  dsimp only at hn
  rw [Bool.and_eq_true, Bool.and_eq_true] at hn
  obtain ⟨⟨hsame, hupper⟩, hlower⟩ := hn.resolve_left (not_lt.2 hc.1)
  rcases h with rfl | rfl | rfl
  · exact keeps_iff hsame
  · exact keeps_iff hupper
  · exact keeps_iff hlower

/-- A title starts like a path if the text does. -/
theorem startsLikePath_congr {l k : List Char} (h : List.Forall₂ Keeps l k) :
    startsLikePath (Text.ofChars k) = startsLikePath (Text.ofChars l) := by
  rw [Bool.eq_iff_iff]
  rcases h with _ | ⟨h₁, _ | ⟨h₂, _ | ⟨h₃, h⟩⟩⟩
  · exact Iff.rfl
  · rw [startsLikePath_iff, startsLikePath_iff]
    simp [h₁.slash, h₁.backslash]
  · rw [startsLikePath_iff, startsLikePath_iff]
    simp [h₁.slash, h₁.backslash]
  · simp only [Text.ofChars_cons]
    rw [startsLikePath_cons, startsLikePath_cons, h₁.slash, h₁.backslash, h₂.colon, h₁.drive, h₃.backslash, h₃.slash]

/-- A text that a line may begin with. -/
structure Heads (l : List Char) : Prop where
  shown : Shown false l
  path : startsLikePath (Text.ofChars l) = false
  ne : l ≠ []

theorem heads_of_check {l : List Char} (h : (l.all (isShownChar false) && !hasUnsafeWord (Text.ofChars l) &&
    !startsLikePath (Text.ofChars l) && l ≠ []) = true) : Heads l := by
  rw [Bool.and_eq_true, Bool.and_eq_true, Bool.not_eq_true', decide_eq_true_eq] at h
  exact ⟨shown_of_check h.1.1, h.1.2, h.2⟩

/-- A plain text is shown as it is. -/
theorem IsPlain.heads {s : String} (h : IsPlain s) (hne : s ≠ "") : Heads s.toList where
  shown := by
    refine ⟨fun c hc => ?_, clean_iff.2 (Bool.or_eq_false_iff.1 h.safe).1⟩
    obtain ⟨hlow, hhigh⟩ := h.chars c hc
    simp [isShownChar, hlow, hhigh]
  path := (Bool.or_eq_false_iff.1 h.safe).2
  ne hnil := hne (String.toList_eq_nil_iff.1 hnil)

/-- What may begin a line may also do so as a title. -/
theorem Heads.retitled {l k : List Char} (h : Heads l) (hplain : ∀ c ∈ l, 32 ≤ c.toNat ∧ c.toNat < 127)
    (hk : List.Forall₂ Retitled l k) : Heads k := by
  have hboth := (List.forall₂_and_left l k).2 ⟨hplain, hk⟩
  have hkeeps : List.Forall₂ Keeps l k := hboth.imp fun c d hcd => keeps_of_retitled hcd.1 hcd.2
  have halike : List.Forall₂ (Alike unsafeLetters) (Text.ofChars l) (Text.ofChars k) :=
    List.forall₂_map_left_iff.2 (List.forall₂_map_right_iff.2 (hkeeps.imp fun _ _ hcd => hcd.alike))
  refine ⟨⟨?_, h.shown.clean.congr halike⟩, (startsLikePath_congr hkeeps).trans h.path, ?_⟩
  · have hright : List.Forall₂ (fun d c => isShownChar false d = true) k l := by
      refine (hkeeps.imp fun c d hcd => ?_).flip
      simp [flip, isShownChar, hcd.plain.1, hcd.plain.2]
    exact ((List.forall₂_and_left k l (R := fun _ _ => True)).1 (hright.imp fun d c hd => ⟨hd, trivial⟩)).1
  · rintro rfl
    exact h.ne (List.forall₂_nil_right_iff.1 hk)

variable [UnicodeData]

/-- What the Unicode database does to the texts of a document: they are in normal form, and a capital
is put in front of them as in ASCII. -/
structure TextLaws : Prop where
  nfc : ∀ s : String, s.toList.all (isShownChar true) = true → UnicodeData.nfc s = s
  capitalize : ∀ s : String, (s.toList.all fun c => decide (c.toNat < 0x80)) = true →
    UnicodeData.capitalize s = @UnicodeData.capitalize UnicodeData.ascii s

omit [UnicodeData] in
theorem toList_capitalize (s : String) : (@UnicodeData.capitalize UnicodeData.ascii s).toList =
    s.toList.head?.toList.map Char.toUpper ++ s.toList.tail.map Char.toLower := by
  unfold UnicodeData.ascii
  dsimp only
  split
  · next hnil => rw [hnil]; rfl
  · next c l hcons =>
    rw [hcons, String.toList_ofList]
    rfl

omit [UnicodeData] in
theorem toList_replaceChar (a b : Char) (s : String) :
    (replaceChar a b s).toList = s.toList.map fun c => if c = a then b else c := String.toList_ofList

/-- The title of a plain text. -/
theorem retitled_capitalize (hlaws : TextLaws) {s : String} (hplain : ∀ c ∈ s.toList, 32 ≤ c.toNat ∧ c.toNat < 127) :
    List.Forall₂ Retitled s.toList (UnicodeData.capitalize (replaceChar '_' ' ' s)).toList := by
  have hascii : ((replaceChar '_' ' ' s).toList.all fun c => decide (c.toNat < 0x80)) = true := by
    rw [toList_replaceChar, List.all_map, List.all_eq_true]
    intro c hc
    have hlow := (hplain c hc).2
    dsimp only [Function.comp_apply]
    split_ifs
    · rfl
    · exact decide_eq_true (by omega)
  rw [hlaws.capitalize _ hascii, toList_capitalize, toList_replaceChar]
  rcases s.toList with _ | ⟨c, l⟩
  · exact .nil
  · refine .cons (Or.inr (Or.inl rfl)) ?_
    rw [List.map_cons, List.tail_cons, List.map_map]
    exact List.forall₂_map_right_iff.2 (List.forall₂_same.2 fun d _ => Or.inr (Or.inr rfl))

/-- **A title may begin a line** if its text may. -/
theorem IsPlain.capitalize (hlaws : TextLaws) {s : String} (h : IsPlain s) (hne : s ≠ "") :
    Heads (UnicodeData.capitalize (replaceChar '_' ' ' s)).toList :=
  (h.heads hne).retitled h.chars (retitled_capitalize hlaws h.chars)

/-- The period of a window, as it is shown. -/
theorem heads_tooltipPeriod (hlaws : TextLaws) {period : String} (h : IsPlain period) (hne : period ≠ "") :
    Heads (tooltipPeriod period).toList := by
  have hnames : ∀ x ∈ PERIOD_DISPLAY_NAMES, Heads x.2.toList := by
    simp only [PERIOD_DISPLAY_NAMES, List.forall_mem_cons]
    exact ⟨heads_of_check (by decide), heads_of_check (by decide), heads_of_check (by decide), List.forall_mem_nil _⟩
  unfold tooltipPeriod lookupText
  rcases hfound : PERIOD_DISPLAY_NAMES.find? fun x => x.1 == period with _ | x
  · rw [hfound]
    exact h.capitalize hlaws hne
  · rw [hfound]
    exact hnames x (List.mem_of_find?_eq_some hfound)

end Titles

/-! ### Percentages -/

section Percentages

/-- The characters of a percentage. -/
theorem separates_fixed (multiline : Bool) {c : Char} (h : isFixedChar c = true) : Separates multiline c := by
  have hall : ∀ multiline, ((List.range 58).all fun n => n < 46 || n == 47 ||
      isShownChar multiline (Char.ofNat n) && unsafeLetters.all fun x => !Text.isLetter x (.ch (Char.ofNat n))) = true := by
    decide +kernel
  have hn : c.toNat < 58 ∧ 46 ≤ c.toNat ∧ c.toNat ≠ 47 := by
    rcases toNat_of_isFixedChar h with ⟨hlow, hhigh⟩ | rfl
    · omega
    · decide
  have hc := List.all_eq_true.1 (hall multiline) c.toNat (List.mem_range.2 hn.1)
  simp only [Char.ofNat_toNat, Bool.or_eq_true, decide_eq_true_eq, beq_iff_eq, Bool.and_eq_true] at hc
  obtain ⟨hchar, hletters⟩ := hc.resolve_left (by omega)
  exact ⟨hchar, Text.foreign_iff.1 hletters⟩

theorem mem_rstrip {a : Char} {l : List Char} {c : Char} (h : c ∈ rstrip a l) : c ∈ l := by
  rw [rstrip, List.mem_reverse] at h
  exact List.mem_reverse.1 ((List.dropWhile_sublist _).subset h)

/-- **A percentage is short**, and of digits and a point. -/
theorem percentage_shape {w : WindowItem} {text : String} (h : percentage w = some text) :
    text.length + 1 ≤ 128 ∧ ∀ c ∈ text.toList, isFixedChar c = true := by
  have hfixed : ∀ d : Dec, ∀ c ∈ renderDecimal d, isFixedChar c = true := by
    intro d c hc
    unfold renderDecimal trimFixed at hc
    dsimp only at hc
    have hmem : c ∈ d.fixedText ∨ c = '0' := by
      split_ifs at hc with hpoint hnil hnil
      · exact Or.inr (List.mem_singleton.1 hc)
      · exact Or.inl (mem_rstrip (mem_rstrip hc))
      · exact Or.inr (List.mem_singleton.1 hc)
      · exact Or.inl hc
    rcases hmem with hmem | rfl
    · exact isFixedChar_of_mem_fixedText d c hmem
    · rfl
  unfold percentage at h
  split_ifs at h with hunknown
  split at h
  · dsimp only at h
    split_ifs at h with _ _ _ hlong
    obtain rfl := Option.some.inj h
    rw [not_or, not_lt] at hlong
    rw [String.toList_ofList, String.length_ofList]
    exact ⟨hlong.1, hfixed _⟩
  · cases h

end Percentages

/-! ### Texts that are derived -/

section Derived

/-- A text that is shown, is not too long, and does not start like a path. -/
structure Fine (multiline : Bool) (maximum : ℕ) (s : String) : Prop where
  shown : Shown multiline s.toList
  length : s.length ≤ maximum
  path : startsLikePath (Text.ofString s) = false

theorem not_isUnsafePoint {multiline : Bool} {c : Char} (h : isShownChar multiline c = true) :
    isUnsafePoint multiline (.ch c) = false := by
  simp only [isShownChar, Bool.or_eq_true, Bool.and_eq_true, decide_eq_true_eq, beq_iff_eq] at h
  rcases h with ((⟨hlow, hhigh⟩ | rfl) | rfl) | ⟨rfl, rfl⟩
  · simp only [isUnsafePoint, Bool.or_eq_false_iff, Bool.and_eq_false_iff, decide_eq_false_iff_not, beq_eq_false_iff_ne]
    exact ⟨Or.inl (not_lt.2 hlow), hhigh.ne⟩
  · cases multiline <;> rfl
  · cases multiline <;> rfl
  · rfl

/-- **A fine text** is taken by the cache. -/
theorem Fine.safeText [UnicodeData] (hlaws : TextLaws) {multiline : Bool} {maximum : ℕ} {s : String}
    (h : Fine multiline maximum s) : SafeText maximum multiline s where
  length := h.length
  points := by
    rw [List.any_eq_false]
    intro q hq
    obtain ⟨c, hc, rfl⟩ := List.mem_map.1 hq
    rw [not_isUnsafePoint (h.shown.chars c hc)]
    exact Bool.false_ne_true
  normal := hlaws.nfc s (List.all_eq_true.2 fun c hc => isShownChar_lines (h.shown.chars c hc))
  value := Bool.or_eq_false_iff.2 ⟨clean_iff.1 h.shown.clean, h.path⟩

/-- A text without a slash and a colon starts like no path. -/
theorem startsLikePath_of_not_mem {l : List Char} (h : ∀ c ∈ l, c ≠ '/' ∧ c ≠ '\\' ∧ c ≠ ':') :
    startsLikePath (Text.ofChars l) = false := by
  have hmem : ∀ c, CodePoint.ch c ∈ Text.ofChars l → c ∈ l := by
    intro c hc
    obtain ⟨d, hd, hsame⟩ := List.mem_map.1 hc
    rwa [CodePoint.ch.inj hsame] at hd
  rw [← Bool.not_eq_true, startsLikePath_iff]
  rintro ((hslash | hbackslash) | ⟨p, q, v, heq, -, -⟩)
  · exact (h _ (hmem _ (List.mem_of_head? hslash))).1 rfl
  · exact (h _ (hmem _ (List.mem_of_head? hbackslash))).2.1 rfl
  · refine (h _ (hmem ':' ?_)).2.2 rfl
    rw [heq]
    exact List.mem_cons_of_mem _ List.mem_cons_self

/-- A percentage with its sign. -/
theorem fine_compact {w : WindowItem} {text : String} (h : percentage w = some text) : Fine false 128 (text ++ "%") := by
  obtain ⟨hlength, hchars⟩ := percentage_shape h
  have htext : (text ++ "%").toList = text.toList ++ ['%'] := String.toList_append
  have hsign : Shown false ['%'] := shown_of_check (by decide)
  refine ⟨?_, ?_, ?_⟩
  · rw [htext]
    exact hsign.prepend fun c hc => separates_fixed false (hchars c hc)
  · rw [String.length_append]
    exact hlength
  · rw [Text.ofString, htext]
    refine startsLikePath_of_not_mem fun c hc => ?_
    rcases List.mem_append.1 hc with hc | hc
    · rcases toNat_of_isFixedChar (hchars c hc) with hdigit | rfl
      · refine ⟨?_, ?_, ?_⟩ <;> (rintro rfl; revert hdigit; decide)
      · decide
    · rw [List.mem_singleton.1 hc]
      decide

/-- The beginning of a compact text is no letter. -/
theorem separates_compact {w : WindowItem} {text : String} (h : percentage w = some text) :
    ∀ c ∈ (text ++ "%").toList.head?, Separates false c := by
  have htext : (text ++ "%").toList = text.toList ++ ['%'] := String.toList_append
  intro c hc
  rw [htext] at hc
  rcases List.mem_append.1 (List.mem_of_mem_head? hc) with hc | hc
  · exact separates_fixed false ((percentage_shape h).2 c hc)
  · rw [List.mem_singleton.1 hc]
    decide

variable [UnicodeData]

/-- The base of a summary may begin a line, and has room for a qualifier after it. -/
theorem heads_alternate (hlaws : TextLaws) {w : WindowItem} {text : String} (hperiod : IsPlain w.period) (hne : w.period ≠ "")
    (h : percentage w = some text) :
    Heads (tooltipPeriod w.period ++ ": " ++ text ++ "% left").toList ∧
      3 ≤ (tooltipPeriod w.period ++ ": " ++ text ++ "% left").toList.length := by
  have hhead := heads_tooltipPeriod hlaws hperiod hne
  have hbase : (tooltipPeriod w.period ++ ": " ++ text ++ "% left").toList =
      (tooltipPeriod w.period).toList ++ ':' :: ' ' :: (text.toList ++ "% left".toList) := by
    simp only [String.toList_append, List.append_assoc]
    rfl
  have hleft : Shown false "% left".toList := shown_of_check (by decide)
  have hrest : Shown false (' ' :: (text.toList ++ "% left".toList)) :=
    (hleft.prepend fun c hc => separates_fixed false ((percentage_shape h).2 c hc)).cons (by decide)
  rw [hbase]
  refine ⟨⟨hhead.shown.append hrest (by decide) ?_, ?_, ?_⟩, ?_⟩
  · rintro d ⟨⟩
    decide
  · rw [Text.ofChars_append]
    exact startsLikePath_colon (fun hnil => hhead.ne (List.map_eq_nil_iff.1 hnil)) hhead.path _
  · exact List.append_ne_nil_of_left_ne_nil hhead.ne _
  · have hpos := List.length_pos_iff.2 hhead.ne
    rw [List.length_append, List.length_cons, List.length_cons]
    omega

omit [UnicodeData] in
/-- What marks a summary begins with two separators, if there is anything. -/
theorem qualifier_cases (publicState : PublicProviderState) (freshness : SnapshotFreshness) :
    (qualifier publicState freshness).length ≤ 18 ∧ ((qualifier publicState freshness).toList = [] ∨
      ∃ k, (qualifier publicState freshness).toList = ' ' :: '·' :: k ∧ Shown false ('·' :: k)) := by
  have hpartial : Shown false "· partial".toList := shown_of_check (by decide)
  have hstale : Shown false "· stale".toList := shown_of_check (by decide)
  have hboth : Shown false "· partial · stale".toList := shown_of_check (by decide)
  unfold qualifier
  split_ifs
  · exact ⟨by decide, Or.inr ⟨_, rfl, hboth⟩⟩
  · exact ⟨by decide, Or.inr ⟨_, rfl, hpartial⟩⟩
  · exact ⟨by decide, Or.inr ⟨_, rfl, hstale⟩⟩
  · exact ⟨by decide, Or.inl rfl⟩

omit [UnicodeData] in
/-- **A summary is fine** if its base is, which is cut off where it is too long. -/
theorem fine_summary {base : String} (h : Heads base.toList) (hlong : 3 ≤ base.toList.length)
    (publicState : PublicProviderState) (freshness : SnapshotFreshness) :
    Fine false 128 (boundedSummary base (qualifier publicState freshness)) := by
  obtain ⟨hshort, hcases⟩ := qualifier_cases publicState freshness
  generalize qualifier publicState freshness = q at hshort hcases
  have hjoin : ∀ l : List Char, Shown false l → 3 ≤ l.length → startsLikePath (Text.ofChars l) = false →
      Shown false (l ++ q.toList) ∧ startsLikePath (Text.ofChars (l ++ q.toList)) = false := by
    intro l hl hlength hpath
    constructor
    · rcases hcases with hnil | ⟨k, hk, hshown⟩
      · rwa [hnil, List.append_nil]
      · rw [hk]
        refine hl.append hshown (by decide) ?_
        rintro d ⟨⟩
        decide
    · rw [Text.ofChars_append, startsLikePath_append (by rwa [Text.ofChars, List.length_map]), hpath]
  unfold boundedSummary
  split_ifs with hfits
  · obtain ⟨hshown, hpath⟩ := hjoin _ h.shown hlong h.path
    refine ⟨?_, by rwa [String.length_append], ?_⟩
    · rwa [String.toList_append]
    · rwa [Text.ofString, String.toList_append]
  · have hbase : base.toList.length = base.length := rfl
    have htake : (base.toList.take (128 - q.length)).length = 128 - q.length := by
      rw [List.length_take]
      omega
    have hpath : startsLikePath (Text.ofChars (base.toList.take (128 - q.length))) = false := by
      rw [← h.path, ← List.take_append_drop (128 - q.length) base.toList, Text.ofChars_append, startsLikePath_append]
      · rw [List.take_append_drop]
      · rw [Text.ofChars, List.length_map, htake]
        omega
    obtain ⟨hshown, hpath⟩ := hjoin _ (h.shown.take _) (by omega) hpath
    refine ⟨?_, ?_, ?_⟩
    · rwa [String.toList_append, String.toList_ofList]
    · rw [String.length_append, String.length_ofList, htake]
      omega
    · rwa [Text.ofString, String.toList_append, String.toList_ofList]

omit [UnicodeData] in
/-- A tooltip is extended with lines that may be shown. -/
theorem shown_extendTooltip (limit : ℕ) {tooltip : String} (h : Shown true tooltip.toList) {lines : List String}
    (hlines : ∀ line ∈ lines, Shown true line.toList) : Shown true (extendTooltip limit tooltip lines).toList := by
  induction lines generalizing tooltip with
  | nil => exact h
  | cons line lines ih =>
    rw [List.forall_mem_cons] at hlines
    have hnext : Shown true (nextTooltip tooltip line).toList := by
      unfold nextTooltip
      split_ifs
      · exact hlines.1
      · rw [String.toList_append, String.toList_append, List.append_assoc]
        exact h.line hlines.1
    rw [extendTooltip_cons]
    split_ifs
    · exact h
    · exact ih hnext hlines.2

omit [UnicodeData] in
/-- A tooltip is not extended over its limit. -/
theorem length_extendTooltip {limit maximum : ℕ} (hlimit : limit ≤ maximum) {tooltip : String} (h : tooltip.length ≤ maximum)
    (lines : List String) : (extendTooltip limit tooltip lines).length ≤ maximum := by
  induction lines generalizing tooltip with
  | nil => exact h
  | cons line lines ih =>
    rw [extendTooltip_cons]
    split_ifs with hlong
    · exact h
    · exact ih ((not_lt.1 hlong).trans hlimit)

/-- The words for a state are plain. -/
theorem heads_tooltipState (hlaws : TextLaws) {value : String} (h : (value.toList.all fun c => 32 ≤ c.toNat && c.toNat < 127) = true)
    (hsafe : isUnsafeValue (Text.ofString value) = false) (hne : value ≠ "") :
    Heads (tooltipState value).toList ∧ (tooltipState value).toList.length = value.toList.length := by
  have hchars : ∀ c ∈ value.toList, 32 ≤ c.toNat ∧ c.toNat < 127 := by
    intro c hc
    have hplain := List.all_eq_true.1 h c hc
    rwa [Bool.and_eq_true, decide_eq_true_eq, decide_eq_true_eq] at hplain
  exact ⟨(IsPlain.mk hchars hsafe).capitalize hlaws hne, (retitled_capitalize hlaws hchars).length_eq.symm⟩

/-- **The first lines of a tooltip** are shown, and have room for more. -/
theorem shown_tooltipHead (hlaws : TextLaws) (provider : ProviderKey) (publicState : PublicProviderState)
    (freshness : SnapshotFreshness) : Shown true (tooltipHead provider publicState freshness).toList ∧
      (tooltipHead provider publicState freshness).length ≤ 4096 := by
  have hname : Shown true provider.displayName.toList ∧ provider.displayName.toList.length ≤ 11 := by
    cases provider
    · exact ⟨shown_of_check (by decide), by decide⟩
    · exact ⟨shown_of_check (by decide), by decide⟩
  have hstate : Heads (tooltipState publicState.value).toList ∧ (tooltipState publicState.value).toList.length ≤ 40 := by
    obtain ⟨hheads, hlength⟩ := @heads_tooltipState _ hlaws publicState.value (by cases publicState <;> decide)
      (by cases publicState <;> decide) (by cases publicState <;> decide)
    exact ⟨hheads, by rw [hlength]; cases publicState <;> decide⟩
  have hfresh : Heads (tooltipState freshness.value).toList ∧ (tooltipState freshness.value).toList.length ≤ 40 := by
    obtain ⟨hheads, hlength⟩ := @heads_tooltipState _ hlaws freshness.value (by cases freshness <;> decide)
      (by cases freshness <;> decide) (by cases freshness <;> decide)
    exact ⟨hheads, by rw [hlength]; cases freshness <;> decide⟩
  have hhead : (tooltipHead provider publicState freshness).toList = provider.displayName.toList ++ '\n' ::
      (("State".toList ++ ':' :: ' ' :: ((tooltipState publicState.value).toList ++ ' ' :: '·' :: ' ' ::
        (tooltipState freshness.value).toList)) ++ '\n' :: "Quota remaining:".toList) := by
    unfold tooltipHead
    simp only [String.toList_append, List.append_assoc, List.cons_append]
    rfl
  have hlabel : Shown true "State".toList := shown_of_check (by decide)
  have hquota : Shown true "Quota remaining:".toList := shown_of_check (by decide)
  have hdot : Shown true ('·' :: ' ' :: (tooltipState freshness.value).toList) :=
    (hfresh.1.shown.lines.cons (by decide)).cons (by decide)
  have hstates : Shown true ((tooltipState publicState.value).toList ++ ' ' :: '·' :: ' ' ::
      (tooltipState freshness.value).toList) := by
    refine hstate.1.shown.lines.append hdot (by decide) ?_
    rintro d ⟨⟩
    decide
  have hline : Shown true ("State".toList ++ ':' :: ' ' :: ((tooltipState publicState.value).toList ++ ' ' :: '·' :: ' ' ::
      (tooltipState freshness.value).toList)) := by
    refine hlabel.append (hstates.cons (by decide)) (by decide) ?_
    rintro d ⟨⟩
    decide
  constructor
  · rw [hhead]
    exact hname.1.line (hline.line hquota)
  · change (tooltipHead provider publicState freshness).toList.length ≤ 4096
    rw [hhead]
    have hlabelLength : "State".toList.length = 5 := rfl
    have hquotaLength : "Quota remaining:".toList.length = 16 := rfl
    simp only [List.length_append, List.length_cons]
    omega

variable {formatter : TimestampFormatter}

omit [UnicodeData] in
/-- What is shown of an instant stands after a blank. -/
theorem shown_timestamp (hformatter : ∀ t s, formatter t = some s → IsPlain s) {t : Option Instant} {shown : String}
    (h : tooltipTimestamp formatter t = some shown) {label : List Char} (hlabel : Shown true label) :
    Shown true (label ++ ':' :: ' ' :: shown.toList) := by
  obtain ⟨hsome, hne⟩ := Option.filter_eq_some_iff.1 h
  obtain ⟨t, -, ht⟩ := Option.bind_eq_some_iff.1 hsome
  have hshown := ((hformatter t shown ht).heads (of_decide_eq_true hne)).shown.lines
  refine hlabel.append (hshown.cons (by decide)) (by decide) ?_
  rintro d ⟨⟩
  decide

/-- **The lines of a window** are shown. -/
theorem shown_windowLines (hlaws : TextLaws) (hformatter : ∀ t s, formatter t = some s → IsPlain s) {w : WindowItem}
    (hperiod : IsPlain w.period) (hne : w.period ≠ "") : ∀ line ∈ windowLines formatter w, Shown true line.toList := by
  have hhead := (heads_tooltipPeriod hlaws hperiod hne).shown.lines
  have hblank : ∀ {k : List Char}, Shown true k → Shown true ((tooltipPeriod w.period).toList ++ ':' :: ' ' :: k) := by
    intro k hk
    refine hhead.append (hk.cons (by decide)) (by decide) ?_
    rintro d ⟨⟩
    decide
  have hrenews : Shown true "  Renews".toList := shown_of_check (by decide)
  have hunavailable : Shown true "Unavailable".toList := shown_of_check (by decide)
  have hsign : Shown true ['%'] := shown_of_check (by decide)
  have hnone : Shown true (tooltipPeriod w.period ++ ": Unavailable").toList := by
    rw [String.toList_append]
    exact hblank hunavailable
  have hsome : ∀ text, percentage w = some text → Shown true (tooltipPeriod w.period ++ ": " ++ text ++ "%").toList := by
    intro text h
    have htext : (tooltipPeriod w.period ++ ": " ++ text ++ "%").toList =
        (tooltipPeriod w.period).toList ++ ':' :: ' ' :: (text.toList ++ ['%']) := by
      simp only [String.toList_append, List.append_assoc]
      rfl
    rw [htext]
    exact hblank (hsign.prepend fun c hc => separates_fixed true ((percentage_shape h).2 c hc))
  have hboth : ∀ first reset, Shown true first.toList → tooltipTimestamp formatter w.resetAt = some reset →
      ∀ line ∈ [first, "  Renews: " ++ reset], Shown true line.toList := by
    intro first reset hfirst hreset
    refine List.forall_mem_cons.2 ⟨hfirst, List.forall_mem_singleton.2 ?_⟩
    rw [String.toList_append]
    exact shown_timestamp hformatter hreset hrenews
  unfold windowLines
  rcases htext : percentage w with _ | text
  · rcases hreset : tooltipTimestamp formatter w.resetAt with _ | reset
    · exact List.forall_mem_singleton.2 hnone
    · exact hboth _ _ hnone hreset
  · rcases hreset : tooltipTimestamp formatter w.resetAt with _ | reset
    · exact List.forall_mem_singleton.2 (hsome text htext)
    · exact hboth _ _ (hsome text htext) hreset

/-- **The lines of reset credits** are shown. -/
theorem shown_creditsLines (hformatter : ∀ t s, formatter t = some s → IsPlain s) {credits : Option CreditsItem}
    {lines : List String} (h : creditsLines formatter credits = .ok lines) : ∀ line ∈ lines, Shown true line.toList := by
  have havailable : Shown true "Quota resets available".toList := shown_of_check (by decide)
  have hexpiry : Shown true "Next reset expiry".toList := shown_of_check (by decide)
  rcases credits with _ | credits
  · cases h
    exact List.forall_mem_nil _
  obtain ⟨count, hcount, h⟩ := bind_eq_ok_iff.1 h
  unfold strInt at hcount
  split_ifs at hcount
  obtain rfl := Except.ok.inj hcount
  have hdigits : ∀ c ∈ DecimalText.natText credits.availableCount, Separates true c := fun c hc =>
    separates_fixed true (isFixedChar_of_isDigit (List.all_eq_true.1 (DecimalText.all_isDigit_natText _) c hc))
  have hfirst : Shown true ("Quota resets available: " ++
      String.ofList (DecimalText.natText credits.availableCount)).toList := by
    have hcount : (String.ofList (DecimalText.natText credits.availableCount)).toList =
        DecimalText.natText credits.availableCount := String.toList_ofList
    rw [String.toList_append, hcount]
    refine havailable.append ((shown_of_separators hdigits).cons (by decide)) (by decide) ?_
    rintro d ⟨⟩
    decide
  rcases hshown : tooltipTimestamp formatter credits.nextExpiresAt with _ | shown
  · rw [hshown] at h
    have hlines := Except.ok.inj h
    rw [← hlines]
    exact List.forall_mem_singleton.2 hfirst
  · rw [hshown] at h
    have hlines := Except.ok.inj h
    have hlabel : "Next reset expiry: ".toList = "Next reset expiry".toList ++ [':', ' '] := by decide
    rw [← hlines]
    refine List.forall_mem_cons.2 ⟨hfirst, List.forall_mem_singleton.2 ?_⟩
    rw [String.toList_append, hlabel, List.append_assoc]
    exact shown_timestamp hformatter hshown hexpiry

/-- What is shown of a provider is fine. -/
structure FinePresentation (shown : Presentation) : Prop where
  compact : Fine false 128 shown.compactText
  sign : ∀ c ∈ shown.compactText.toList.head?, Separates false c
  alternate : Fine false 128 shown.alternateText
  tooltip : Fine true 4096 shown.tooltipText
  named : 3 ≤ shown.tooltipText.toList.length

omit [UnicodeData] in
/-- A tooltip that begins with the name of its provider. -/
theorem fine_tooltip {provider : ProviderKey} {s : String} (hshown : Shown true s.toList) (hlength : s.length ≤ 4096)
    (hname : provider.displayName.toList <+: s.toList) : Fine true 4096 s ∧ 3 ≤ s.toList.length := by
  obtain ⟨rest, hrest⟩ := hname
  have hlong : 3 ≤ provider.displayName.toList.length ∧
      startsLikePath (Text.ofChars provider.displayName.toList) = false := by
    cases provider
    · exact ⟨by decide, by decide⟩
    · exact ⟨by decide, by decide⟩
  refine ⟨⟨hshown, hlength, ?_⟩, ?_⟩
  · rw [Text.ofString, ← hrest, Text.ofChars_append, startsLikePath_append (by rw [Text.ofChars, List.length_map]; exact hlong.1)]
    exact hlong.2
  · rw [← hrest, List.length_append]
    exact hlong.1.trans (Nat.le_add_right _ _)

/-- **What is shown of a snapshot** is fine, if the periods of its windows are plain. -/
theorem fine_snapshotPresentation (hlaws : TextLaws) (hformatter : ∀ t s, formatter t = some s → IsPlain s) {p : ProviderFacts}
    (hperiods : ∀ w ∈ p.windows, IsPlain w.period ∧ w.period ≠ "") {publicState : PublicProviderState}
    {freshness : SnapshotFreshness} {limit : ℕ} (hlimit : limit ≤ 4096) {shown : Presentation}
    (h : snapshotPresentation formatter p publicState freshness limit = .ok shown) : FinePresentation shown := by
  obtain ⟨credits, hcredits, h⟩ := bind_eq_ok_iff.1 h
  obtain rfl := Except.ok.inj h
  have hsorted : ∀ w ∈ sortWindows p.windows, IsPlain w.period ∧ w.period ≠ "" := fun w hw =>
    hperiods w ((List.mergeSort_perm _ windowLe).mem_iff.1 hw)
  have hlines : ∀ line ∈ (if (sortWindows p.windows).isEmpty then ["No quota windows"]
      else (sortWindows p.windows).flatMap (windowLines formatter)) ++ credits, Shown true line.toList := by
    rw [List.forall_mem_append]
    refine ⟨?_, shown_creditsLines hformatter hcredits⟩
    split_ifs
    · exact List.forall_mem_singleton.2 (shown_of_check (by decide))
    · intro line hline
      obtain ⟨w, hw, hline⟩ := List.mem_flatMap.1 hline
      exact shown_windowLines hlaws hformatter (hsorted w hw).1 (hsorted w hw).2 line hline
  obtain ⟨hhead, hheadLength⟩ := shown_tooltipHead hlaws p.provider publicState freshness
  have hname : p.provider.displayName.toList <+: (tooltipHead p.provider publicState freshness).toList := by
    unfold tooltipHead
    simp only [String.toList_append, List.append_assoc]
    exact List.prefix_append _ _
  obtain ⟨htooltip, hnamed⟩ := fine_tooltip (shown_extendTooltip limit hhead hlines) (length_extendTooltip hlimit hheadLength _)
    (hname.trans (prefix_extendTooltip limit _ _))
  rcases hdepleted : mostDepleted (sortWindows p.windows) with _ | ⟨w, text⟩
  · have hquota : Heads "Quota unavailable".toList := heads_of_check (by decide)
    have hdash : Fine false 128 "—" := ⟨shown_of_check (by decide), by decide, by decide⟩
    have hsign : ∀ c ∈ "—".toList.head?, Separates false c := by
      rintro c ⟨⟩
      decide
    exact ⟨hdash, hsign, fine_summary hquota (by decide) _ _, htooltip, hnamed⟩
  · obtain ⟨hmem, htext, -⟩ := mostDepleted_eq_some hdepleted
    obtain ⟨hbase, hlong⟩ := heads_alternate hlaws (hsorted w hmem).1 (hsorted w hmem).2 htext
    exact ⟨fine_compact htext, separates_compact htext, fine_summary hbase hlong _ _, htooltip, hnamed⟩

end Derived

end Cache

end YasbLimitora
