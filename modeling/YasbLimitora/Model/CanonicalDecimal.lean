import Mathlib
import YasbLimitora.Lib.DecimalNormal
import YasbLimitora.Lib.Text
import YasbLimitora.Model.Quantity

/-!
# Canonical decimals

What `_canonical_decimal` makes of a decimal, in closed form
(`YasbLimitora.canonicalDecimal_eq`): its normal form, unless that has too many
digits or too long a text. With it the way back, `_parse_canonical_decimal`, which reads
the text of a canonical decimal and nothing else
(`YasbLimitora.parseCanonicalDecimal_eq_ok_iff`); the constructor `Decimal` of the
standard library, which it calls, is `YasbLimitora.PyDecimal.ofText`.
-/

namespace YasbLimitora

open DecimalText

/-! ### The canonical form -/

/-- Zeros are taken off while there are any, each for one of the exponent. -/
theorem stripTrailing_eq (digits : List ℕ) (exponent : ℤ) :
    stripTrailing digits exponent =
      (digits.dropWhile (· == 0), exponent + (digits.takeWhile (· == 0)).length) := by
  induction digits generalizing exponent with
  | nil => simp [stripTrailing]
  | cons d digits ih =>
    rcases d with _ | d
    · rw [stripTrailing, ih]
      simp
      ring
    · simp [stripTrailing]

/-- The loop leaves the digits of the stripped coefficient. -/
theorem stripTrailing_digits {n : ℕ} (h : n ≠ 0) (exponent : ℤ) :
    stripTrailing (Nat.digits 10 n) exponent =
      (Nat.digits 10 (Dec.stripped n), exponent + Dec.trailingZeros n) := by
  obtain ⟨d, ds, hds, hd⟩ := Dec.head_digits_stripped h
  have hdrop : (Nat.digits 10 n).dropWhile (· == 0) = Nat.digits 10 (Dec.stripped n) := by
    rw [Dec.digits_eq_replicate_append h, hds,
      List.dropWhile_append_of_pos fun a ha => beq_iff_eq.2 (List.eq_of_mem_replicate ha),
      List.dropWhile_cons_of_neg (by simpa using hd)]
  rw [stripTrailing_eq, hdrop, Dec.trailingZeros]

/-- Nothing is stripped if the last character is another one. -/
theorem rstrip_append {c d : Char} (h : d ≠ c) (l : List Char) : rstrip c (l ++ [d]) = l ++ [d] := by
  rw [rstrip, List.reverse_append, List.reverse_singleton, List.singleton_append,
    List.dropWhile_cons_of_neg (by simpa using h), List.reverse_cons, List.reverse_reverse]

/-- Nothing is taken off the text of a normal decimal. -/
theorem trimFixed_fixedText {d : Dec} (h : d.IsNormal) : trimFixed d.fixedText = d.fixedText := by
  obtain hdigits | ⟨l, n, hl, hn, h0⟩ := h.fixedText_ends
  · refine if_neg fun hpoint => ?_
    exact absurd (List.all_eq_true.1 hdigits _ hpoint) (by decide)
  · have hzero : digit n ≠ '0' := fun he => h0 ((digit_eq_zero_iff hn).1 he)
    have hpoint : digit n ≠ '.' := fun he =>
      absurd (he ▸ isDigit_digit hn) (by decide : ¬isDigit '.' = true)
    unfold trimFixed
    split
    · rw [hl, rstrip_append hzero, rstrip_append hpoint]
    · rfl

/-- **The canonical form**: the normal form, unless it is over a limit. -/
theorem canonicalDecimal_eq {negative : Bool} {d : Dec} (hsign : negative = true → d.coeff = 0) :
    canonicalDecimal (.finite negative d) =
      if MAX_QUANTITY_SIGNIFICANT_DIGITS < Dec.significantDigits d.coeff ∨
          MAX_QUANTITY_TEXT_LENGTH < d.plainText.length then
        .error "quota quantity exceeds canonical limits"
      else .ok d.normal := by
  have hpositive : (negative && d.coeff != 0) = false := by
    rcases negative with _ | _
    · rfl
    · simp [hsign rfl]
  unfold canonicalDecimal Dec.plainText
  simp only [hpositive, Bool.false_eq_true, if_false]
  by_cases hzero : d.coeff = 0
  · have hnormal : d.normal = ⟨0, 0⟩ := if_pos hzero
    rw [if_pos hzero, hnormal, hzero, if_neg (by decide)]
  · have hstripped := Dec.stripped_ne_zero hzero
    have hlength := Dec.length_fixedText hstripped (d.exp + Dec.trailingZeros d.coeff)
    have hexp : d.normal.exp ≤ 0 := (Dec.isNormal_normal d).1
    rw [← Dec.fixedText_normal hzero, Dec.width] at hlength
    simp only [if_neg hzero, stripTrailing_digits hzero, Nat.ofDigits_digits]
    rw [← Dec.fixedText_normal hzero, trimFixed_fixedText (Dec.isNormal_normal d),
      Dec.ofFixed_fixedText hexp, ← hlength, ← Dec.width, Dec.width_stripped hzero]
    simp only [Nat.cast_lt]
    split_ifs with hlimits hlong
    · rfl
    · exact absurd (Or.inr hlong) hlimits
    · rfl

/-- What is canonical: a normal decimal within the limits. -/
structure IsWithinLimits (d : Dec) : Prop where
  isNormal : d.IsNormal
  digits : Dec.significantDigits d.coeff ≤ MAX_QUANTITY_SIGNIFICANT_DIGITS
  length : d.fixedText.length ≤ MAX_QUANTITY_TEXT_LENGTH

theorem isWithinLimits_of_canonicalDecimal {negative : Bool} {value d : Dec}
    (hsign : negative = true → value.coeff = 0)
    (h : canonicalDecimal (.finite negative value) = .ok d) :
    d = value.normal ∧ IsWithinLimits d := by
  rw [canonicalDecimal_eq hsign] at h
  split at h
  · exact nomatch h
  · next hlimits =>
    obtain rfl := Except.ok.inj h
    rw [not_or, not_lt, not_lt, ← Dec.significantDigits_normal] at hlimits
    exact ⟨rfl, Dec.isNormal_normal value, hlimits.1, hlimits.2⟩

/-- What the constructor keeps is within the limits. -/
theorem IsCanonicalDecimal.isWithinLimits {d : Dec} (h : IsCanonicalDecimal d) :
    IsWithinLimits d := by
  obtain ⟨_ | _, h⟩ := h
  · next negative value =>
    by_cases hsign : negative = true → value.coeff = 0
    · exact (isWithinLimits_of_canonicalDecimal hsign h).2
    · push Not at hsign
      rw [canonicalDecimal, if_pos (by simp [hsign.1, hsign.2])] at h
      exact nomatch h
  · exact nomatch h

/-- A canonical decimal is its own canonical form. -/
theorem canonicalDecimal_of_isWithinLimits {d : Dec} (h : IsWithinLimits d) :
    canonicalDecimal (.finite false d) = .ok d := by
  have hsign : false = true → d.coeff = 0 := nofun
  rw [canonicalDecimal_eq hsign, Dec.plainText, h.isNormal.normal_eq]
  exact if_neg (not_or.2 ⟨not_lt.2 h.digits, not_lt.2 h.length⟩)

/-! ### Decimals from text -/

/-- The characters that `str.strip` takes off an ASCII text. -/
def isAsciiSpace (c : Char) : Bool :=
  (9 ≤ c.toNat && c.toNat ≤ 13) || (28 ≤ c.toNat && c.toNat ≤ 32)

def stripSpaces (l : List Char) : List Char :=
  ((l.dropWhile isAsciiSpace).reverse.dropWhile isAsciiSpace).reverse

/-- A sign in front, and what follows it. -/
def takeSign : List Char → Bool × List Char
  | '-' :: l => (true, l)
  | '+' :: l => (false, l)
  | l => (false, l)

/-- The texts of the infinities and of what is not a number, in any case. -/
def isSpecial (l : List Char) : Bool :=
  let word := l.map Char.toLower
  word = "inf".toList || word = "infinity".toList ||
    ("nan".toList.isPrefixOf word && (word.drop 3).all isDigit) ||
    ("snan".toList.isPrefixOf word && (word.drop 4).all isDigit)

/-- The exponent that ends a number, if it is one. -/
def exponentOf : List Char → Option ℤ
  | [] => some 0
  | c :: l =>
    if c = 'e' ∨ c = 'E' then
      let (negative, digits) := takeSign l
      if digits = [] ∨ ¬digits.all isDigit then none
      else some (if negative then -(readNat digits : ℤ) else readNat digits)
    else none

/-- Digits with a point among them or not, and an exponent. -/
def numericOf (l : List Char) : Option Dec :=
  let whole := l.takeWhile isDigit
  let (fraction, rest) := match l.dropWhile isDigit with
    | '.' :: l => (l.takeWhile isDigit, l.dropWhile isDigit)
    | l => ([], l)
  if whole ++ fraction = [] then none
  else (exponentOf rest).map fun e => ⟨readNat (whole ++ fraction), e - fraction.length⟩

/-- The largest exponent of a first digit, and the smallest of a last one, that the
constructor represents. -/
def MAX_EMAX : ℤ := 999999999999999999

def MIN_ETINY : ℤ := -1999999999999999997

/-- The exponents are in the range of the constructor, which rounds nothing. -/
def IsRepresentable (d : Dec) : Prop :=
  MIN_ETINY ≤ d.exp ∧ d.exp + max 1 (Dec.width d.coeff) - 1 ≤ MAX_EMAX

instance (d : Dec) : Decidable (IsRepresentable d) := inferInstanceAs (Decidable (_ ∧ _))

/-- `Decimal(·)` of an ASCII text. -/
def PyDecimal.ofText (l : List Char) : Option PyDecimal :=
  let (negative, body) := takeSign ((stripSpaces l).filter (· ≠ '_'))
  if isSpecial body then some .special
  else (numericOf body).bind fun d => if IsRepresentable d then some (.finite negative d) else none

/-- The characters of an ASCII text. -/
def asciiChars (t : Text) : Option (List Char) :=
  t.toChars.filter fun l => l.all (·.toNat < 128)

def parseCanonicalDecimal (value : Text) : Except String Dec :=
  if value = [] ∨ MAX_QUANTITY_TEXT_LENGTH < value.length then .error "invalid quota quantity"
  else
    match (asciiChars value).bind PyDecimal.ofText with
    | none => .error "invalid quota quantity"
    | some parsed => do
      let canonical ← canonicalDecimal parsed
      if Text.ofChars canonical.fixedText ≠ value then .error "invalid quota quantity"
      else return canonical

/-! ### Reading what was written -/

/-- The characters of fixed-point text. -/
def isFixedChar (c : Char) : Bool := isDigit c || c == '.'

theorem isFixedChar_of_isDigit {c : Char} (h : isDigit c = true) : isFixedChar c = true := by
  rw [isFixedChar, h, Bool.true_or]

theorem toNat_of_isFixedChar {c : Char} (h : isFixedChar c = true) :
    48 ≤ c.toNat ∧ c.toNat ≤ 57 ∨ c = '.' := by
  rw [isFixedChar, Bool.or_eq_true, beq_iff_eq] at h
  refine h.imp_left fun hd => ?_
  simp only [isDigit, Bool.and_eq_true, decide_eq_true_eq, Char.le_def, UInt32.le_iff_toNat_le] at hd
  exact hd

theorem not_isAsciiSpace_of_isFixedChar {c : Char} (h : isFixedChar c = true) :
    isAsciiSpace c = false := by
  rcases toNat_of_isFixedChar h with ⟨h0, h9⟩ | rfl
  · simp only [isAsciiSpace, Bool.or_eq_false_iff, Bool.and_eq_false_iff, decide_eq_false_iff_not]
    omega
  · decide

/-- Of text in digits and points nothing is stripped or taken out. -/
theorem clean_fixed {l : List Char} (h : ∀ c ∈ l, isFixedChar c = true) :
    (stripSpaces l).filter (· ≠ '_') = l := by
  have hdrop : ∀ m : List Char, (∀ c ∈ m, isFixedChar c = true) → m.dropWhile isAsciiSpace = m := by
    rintro (_ | ⟨c, m⟩) hm
    · rfl
    · have hc := not_isAsciiSpace_of_isFixedChar (hm c (List.mem_cons_self ..))
      rw [List.dropWhile_cons_of_neg (by simp [hc])]
  rw [stripSpaces, hdrop l h, hdrop _ fun c hc => h c (List.mem_reverse.1 hc), List.reverse_reverse,
    List.filter_eq_self]
  intro c hc
  rcases toNat_of_isFixedChar (h c hc) with ⟨h0, h9⟩ | rfl
  · refine decide_eq_true fun he => ?_
    subst he
    exact absurd h9 (by decide)
  · rfl

theorem takeSign_of_isDigit {c : Char} (h : isDigit c = true) (l : List Char) :
    takeSign (c :: l) = (false, c :: l) := by
  unfold takeSign
  split
  · next heq =>
    obtain ⟨rfl, -⟩ := List.cons.inj heq
    exact absurd h (by decide)
  · next heq =>
    obtain ⟨rfl, -⟩ := List.cons.inj heq
    exact absurd h (by decide)
  · rfl

theorem toLower_of_isDigit {c : Char} (h : isDigit c = true) : c.toLower = c := by
  rw [← digit_digitVal h]
  have hlt := digitVal_lt h
  generalize digitVal c = d at hlt
  interval_cases d <;> rfl

/-- What starts with a digit is no word. -/
theorem isSpecial_of_isDigit {c : Char} (h : isDigit c = true) (l : List Char) :
    isSpecial (c :: l) = false := by
  have hi : c ≠ 'i' := fun he => absurd (he ▸ h) (by decide)
  have hn : c ≠ 'n' := fun he => absurd (he ▸ h) (by decide)
  have hs : c ≠ 's' := fun he => absurd (he ▸ h) (by decide)
  simp [isSpecial, toLower_of_isDigit h, hi, Ne.symm hn, Ne.symm hs]

/-- Digits alone are an integer. -/
theorem numericOf_digits {w : List Char} (hw : w.all isDigit = true) (hne : w ≠ []) :
    numericOf w = some ⟨readNat w, 0⟩ := by
  have htake : w.takeWhile isDigit = w := List.takeWhile_eq_self_iff.2 (List.all_eq_true.1 hw)
  have hdrop : w.dropWhile isDigit = [] := List.dropWhile_eq_nil_iff.2 (List.all_eq_true.1 hw)
  simp [numericOf, htake, hdrop, hne, exponentOf]

/-- Digits on both sides of a point are read together, and the exponent counts those after it. -/
theorem numericOf_point {w p : List Char} (hw : w.all isDigit = true) (hne : w ≠ [])
    (hp : p.all isDigit = true) :
    numericOf (w ++ '.' :: p) = some ⟨readNat (w ++ p), -(p.length : ℤ)⟩ := by
  have hpoint : isDigit '.' = false := by decide
  have htake : (w ++ '.' :: p).takeWhile isDigit = w := by
    rw [List.takeWhile_append_of_pos (List.all_eq_true.1 hw), List.takeWhile_cons_of_neg (by simp [hpoint]),
      List.append_nil]
  have hdrop : (w ++ '.' :: p).dropWhile isDigit = '.' :: p := by
    rw [List.dropWhile_append_of_pos (List.all_eq_true.1 hw), List.dropWhile_cons_of_neg (by simp [hpoint])]
  have htake' : p.takeWhile isDigit = p := List.takeWhile_eq_self_iff.2 (List.all_eq_true.1 hp)
  have hdrop' : p.dropWhile isDigit = [] := List.dropWhile_eq_nil_iff.2 (List.all_eq_true.1 hp)
  simp [numericOf, htake, hdrop, htake', hdrop', hne, exponentOf]

/-- The shape of fixed-point text. -/
theorem fixedText_shape (d : Dec) :
    ∃ w p, w.all isDigit = true ∧ w ≠ [] ∧ p.all isDigit = true ∧
      (d.fixedText = w ∧ p = [] ∨ d.fixedText = w ++ '.' :: p) := by
  unfold Dec.fixedText
  split
  · exact ⟨_, [], all_isDigit_natText _, natText_ne_nil _, rfl, Or.inl ⟨rfl, rfl⟩⟩
  · exact ⟨_, _, all_isDigit_natText _, natText_ne_nil _, all_isDigit_padded _ _, Or.inr rfl⟩

theorem isFixedChar_of_mem_fixedText (d : Dec) : ∀ c ∈ d.fixedText, isFixedChar c = true := by
  obtain ⟨w, p, hw, -, hp, ⟨htext, -⟩ | htext⟩ := fixedText_shape d
  · rw [htext]
    exact fun c hc => isFixedChar_of_isDigit (List.all_eq_true.1 hw c hc)
  · rw [htext]
    intro c hc
    rcases List.mem_append.1 hc with hc | hc
    · exact isFixedChar_of_isDigit (List.all_eq_true.1 hw c hc)
    · rcases List.mem_cons.1 hc with rfl | hc
      · rfl
      · exact isFixedChar_of_isDigit (List.all_eq_true.1 hp c hc)

/-- Fixed-point text is read as the decimal that it was written of. -/
theorem numericOf_fixedText {d : Dec} (h : d.exp ≤ 0) : numericOf d.fixedText = some d := by
  obtain ⟨w, p, hw, hne, hp, ⟨htext, -⟩ | htext⟩ := fixedText_shape d
  · have hback := Dec.ofFixed_fixedText h
    rw [htext, Dec.ofFixed_of_digits hw] at hback
    rw [htext, numericOf_digits hw hne, hback]
  · have hback := Dec.ofFixed_fixedText h
    rw [htext, Dec.ofFixed_of_point hw] at hback
    rw [htext, numericOf_point hw hne hp, hback]

/-- Fixed-point text starts with a digit. -/
theorem head_fixedText (d : Dec) : ∃ c l, d.fixedText = c :: l ∧ isDigit c = true := by
  obtain ⟨_ | ⟨c, w⟩, p, hw, hne, -, htext⟩ := fixedText_shape d
  · exact absurd rfl hne
  · have hc : isDigit c = true := List.all_eq_true.1 hw c (List.mem_cons_self ..)
    rcases htext with ⟨htext, -⟩ | htext
    · exact ⟨c, w, htext, hc⟩
    · exact ⟨c, w ++ '.' :: p, htext, hc⟩

/-- **Fixed-point text is read as the decimal it was written from.** -/
theorem ofText_fixedText {d : Dec} (h : d.exp ≤ 0) (hrep : IsRepresentable d) :
    PyDecimal.ofText d.fixedText = some (.finite false d) := by
  obtain ⟨c, l, hl, hc⟩ := head_fixedText d
  have hnumeric := numericOf_fixedText h
  unfold PyDecimal.ofText
  rw [clean_fixed (isFixedChar_of_mem_fixedText d)]
  rw [hl] at hnumeric ⊢
  rw [takeSign_of_isDigit hc]
  dsimp only
  rw [isSpecial_of_isDigit hc, hnumeric]
  exact if_pos hrep

/-! ### The way back -/

/-- A canonical decimal is in the range of the constructor by far. -/
theorem IsWithinLimits.isRepresentable {d : Dec} (h : IsWithinLimits d) : IsRepresentable d := by
  obtain ⟨c, e⟩ := d
  obtain ⟨⟨hexp, hfraction⟩, -, hlength⟩ := h
  by_cases hzero : c = 0
  · have h0 : e = 0 := hfraction.resolve_right (not_not.2 (hzero ▸ dvd_zero 10))
    rw [h0, hzero]
    decide
  · have htext := Dec.length_fixedText hzero e
    have hmax : MAX_QUANTITY_TEXT_LENGTH = 256 := rfl
    have hbounds : -256 ≤ e ∧ Dec.width c ≤ 256 := by
      split_ifs at htext <;> omega
    have hwidth : max 1 (Dec.width c) ≤ 256 := max_le (by decide) hbounds.2
    unfold IsRepresentable MIN_ETINY MAX_EMAX
    refine ⟨by dsimp only; omega, ?_⟩
    dsimp only at hexp ⊢
    omega

theorem asciiChars_fixedText (d : Dec) :
    asciiChars (Text.ofChars d.fixedText) = some d.fixedText := by
  rw [asciiChars, Text.toChars_ofChars, Option.filter_some]
  refine if_pos (List.all_eq_true.2 fun c hc => decide_eq_true ?_)
  rcases toNat_of_isFixedChar (isFixedChar_of_mem_fixedText d c hc) with ⟨-, h9⟩ | rfl
  · omega
  · decide

/-- **The parser reads the text of a canonical decimal**, and no other. -/
theorem parseCanonicalDecimal_eq_ok_iff {value : Text} {d : Dec} :
    parseCanonicalDecimal value = .ok d ↔
      IsWithinLimits d ∧ value = Text.ofChars d.fixedText := by
  constructor
  · intro h
    unfold parseCanonicalDecimal at h
    split at h
    · exact nomatch h
    split at h
    · exact nomatch h
    next parsed _ =>
    rcases hcanonical : canonicalDecimal parsed with e | canonical
    · rw [hcanonical] at h
      exact nomatch h
    rw [hcanonical] at h
    by_cases htext : Text.ofChars canonical.fixedText = value
    · have hd : canonical = d := by simpa [bind, Except.bind, htext, pure, Except.pure] using h
      exact ⟨hd ▸ IsCanonicalDecimal.isWithinLimits ⟨parsed, hcanonical⟩, hd ▸ htext.symm⟩
    · simp [bind, Except.bind, htext] at h
  · rintro ⟨hlimits, rfl⟩
    have hexp := hlimits.isNormal.1
    obtain ⟨c, l, htext, -⟩ := head_fixedText d
    have hsize : ¬(Text.ofChars d.fixedText = [] ∨
        MAX_QUANTITY_TEXT_LENGTH < (Text.ofChars d.fixedText).length) := by
      rw [not_or, not_lt, Text.ofChars, List.length_map]
      exact ⟨by simp [htext], hlimits.length⟩
    unfold parseCanonicalDecimal
    rw [if_neg hsize, asciiChars_fixedText, Option.bind_some,
      ofText_fixedText hexp hlimits.isRepresentable]
    simp [canonicalDecimal_of_isWithinLimits hlimits, bind, Except.bind, pure, Except.pure]

end YasbLimitora
