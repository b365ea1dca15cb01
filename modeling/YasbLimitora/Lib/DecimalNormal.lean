import Mathlib
import YasbLimitora.Lib.DecimalText

/-!
# The normal form of a decimal

Every value has one decimal without a positive exponent and without a zero that ends
its fraction (`Dec.normal`), and equal values have the same one
(`Dec.normal_eq_normal`). Its fixed-point text, `Dec.plainText`, is the shortest there is
of the value (`Dec.length_plainText_le`); `Dec.length_fixedText` is the length of such a
text, computed from the digits before it is written, and no zero and no point end a normal
one (`Dec.IsNormal.fixedText_ends`).
-/

namespace Dec

open DecimalText

/-! ### The digits that are left -/

/-- A number without the zeros that end it. -/
def stripped (n : ℕ) : ℕ := n / 10 ^ trailingZeros n

theorem pow_trailingZeros_dvd {n : ℕ} (h : n ≠ 0) : 10 ^ trailingZeros n ∣ n :=
  (pow_dvd_iff_le_trailingZeros h _).2 le_rfl

/-- A number is what is left without its trailing zeros, times their power. -/
theorem stripped_mul_pow {n : ℕ} (h : n ≠ 0) : stripped n * 10 ^ trailingZeros n = n :=
  Nat.div_mul_cancel (pow_trailingZeros_dvd h)

theorem stripped_ne_zero {n : ℕ} (h : n ≠ 0) : stripped n ≠ 0 := by
  intro he
  have hn := stripped_mul_pow h
  rw [he, zero_mul] at hn
  exact h hn.symm

/-- What is left has no trailing zero. -/
theorem not_ten_dvd_stripped {n : ℕ} (h : n ≠ 0) : ¬10 ∣ stripped n := by
  rintro ⟨m, hm⟩
  have hn : 10 ^ (trailingZeros n + 1) ∣ n := by
    refine ⟨m, ?_⟩
    conv_lhs => rw [← stripped_mul_pow h, hm]
    ring
  have hle := (pow_dvd_iff_le_trailingZeros h _).1 hn
  omega

/-- The digits of a number are those of the stripped one, after its zeros. -/
theorem digits_eq_replicate_append {n : ℕ} (h : n ≠ 0) :
    Nat.digits 10 n = List.replicate (trailingZeros n) 0 ++ Nat.digits 10 (stripped n) := by
  conv_lhs => rw [← stripped_mul_pow h, mul_comm]
  exact Nat.digits_base_pow_mul (by norm_num) (Nat.pos_of_ne_zero (stripped_ne_zero h))

theorem head_digits_stripped {n : ℕ} (h : n ≠ 0) :
    ∃ d ds, Nat.digits 10 (stripped n) = d :: ds ∧ d ≠ 0 := by
  have hpos := Nat.pos_of_ne_zero (stripped_ne_zero h)
  refine ⟨_, _, Nat.digits_def' (by norm_num) hpos, fun hd => ?_⟩
  exact not_ten_dvd_stripped h (Nat.dvd_of_mod_eq_zero hd)

/-- Zeros put at the end of a number are not significant. -/
theorem significantDigits_mul_pow {n : ℕ} (h : n ≠ 0) (k : ℕ) :
    significantDigits (n * 10 ^ k) = significantDigits n := by
  rw [significantDigits, mul_comm, Nat.digits_base_pow_mul (by norm_num) (Nat.pos_of_ne_zero h),
    List.dropWhile_append_of_pos fun a ha => beq_iff_eq.2 (List.eq_of_mem_replicate ha),
    significantDigits]

/-- Trailing zeros are no significant digits. -/
theorem significantDigits_stripped {n : ℕ} (h : n ≠ 0) :
    significantDigits (stripped n) = significantDigits n := by
  rw [← significantDigits_mul_pow (stripped_ne_zero h) (trailingZeros n), stripped_mul_pow h]

theorem width_stripped {n : ℕ} (h : n ≠ 0) : width (stripped n) = significantDigits n := by
  obtain ⟨d, ds, hds, hd⟩ := head_digits_stripped h
  rw [← significantDigits_stripped h, width, significantDigits, hds,
    List.dropWhile_cons_of_neg (by simpa using hd)]

/-! ### Normal decimals -/

/-- No positive exponent, and no zero at the end of the fraction. -/
def IsNormal (d : Dec) : Prop := d.exp ≤ 0 ∧ (d.exp = 0 ∨ ¬10 ∣ d.coeff)

/-- **The normal form.** -/
def normal (d : Dec) : Dec :=
  if d.coeff = 0 then ⟨0, 0⟩
  else if 0 ≤ d.exp + trailingZeros d.coeff then
    ⟨stripped d.coeff * 10 ^ (d.exp + trailingZeros d.coeff).toNat, 0⟩
  else ⟨stripped d.coeff, d.exp + trailingZeros d.coeff⟩

/-- **The normal form is normal.** -/
theorem isNormal_normal (d : Dec) : d.normal.IsNormal := by
  unfold normal
  split_ifs with hzero hexp
  · exact ⟨le_rfl, Or.inl rfl⟩
  · exact ⟨le_rfl, Or.inl rfl⟩
  · exact ⟨(not_le.1 hexp).le, Or.inr (not_ten_dvd_stripped hzero)⟩

/-- A decimal scaled down to a whole number. -/
theorem toRat_whole (c : ℕ) {e : ℤ} (h : 0 ≤ e) : toRat ⟨c * 10 ^ e.toNat, 0⟩ = toRat ⟨c, e⟩ := by
  have hpow : ((10 ^ e.toNat : ℕ) : ℚ) = (10 : ℚ) ^ e := by
    rw [Nat.cast_pow, Nat.cast_ofNat, ← zpow_natCast, Int.toNat_of_nonneg h]
  rw [toRat, toRat, Nat.cast_mul, hpow, zpow_zero, mul_one]

theorem toRat_stripped {d : Dec} (h : d.coeff ≠ 0) :
    toRat ⟨stripped d.coeff, d.exp + trailingZeros d.coeff⟩ = d.toRat := by
  rw [toRat_shift, stripped_mul_pow h]
  rfl

/-- **The normal form has the value** of what it is made of. -/
theorem toRat_normal (d : Dec) : d.normal.toRat = d.toRat := by
  unfold normal
  split_ifs with hzero hexp
  · simp [toRat, hzero]
  · rw [toRat_whole _ hexp, toRat_stripped hzero]
  · exact toRat_stripped hzero

theorem significantDigits_normal (d : Dec) :
    significantDigits d.normal.coeff = significantDigits d.coeff := by
  unfold normal
  split_ifs with hzero hexp
  · rw [hzero]
  · rw [significantDigits_mul_pow (stripped_ne_zero hzero), significantDigits_stripped hzero]
  · exact significantDigits_stripped hzero

/-- Of two normal decimals of one value, neither has the smaller exponent. -/
theorem IsNormal.exp_le {a b : Dec} (ha : a.IsNormal) (hb : b.IsNormal) (h : a.toRat = b.toRat) :
    b.exp ≤ a.exp := by
  by_contra hlt
  obtain ⟨k, hk⟩ : ∃ k : ℕ, b.exp = a.exp + (k + 1 : ℕ) :=
    ⟨(b.exp - a.exp - 1).toNat, by omega⟩
  have hne : (10 : ℚ) ^ a.exp ≠ 0 := (zpow_pos (by norm_num) _).ne'
  have hcoeff : a.coeff = b.coeff * 10 ^ (k + 1) := by
    have hb' : b.toRat = ((b.coeff * 10 ^ (k + 1) : ℕ) : ℚ) * (10 : ℚ) ^ a.exp := by
      rw [← toRat_shift, ← hk]
    rw [hb', toRat, mul_left_inj' hne, Nat.cast_inj] at h
    exact h
  obtain hzero | hdvd := ha.2
  · have := hb.1
    omega
  · refine hdvd (hcoeff ▸ ?_)
    rw [pow_succ, ← mul_assoc]
    exact dvd_mul_left _ _

/-- **A value has one normal decimal.** -/
theorem IsNormal.eq {a b : Dec} (ha : a.IsNormal) (hb : b.IsNormal) (h : a.toRat = b.toRat) :
    a = b := by
  obtain ⟨c, e⟩ := a
  obtain ⟨c', e'⟩ := b
  obtain rfl : e = e' := le_antisymm (hb.exp_le ha h.symm) (ha.exp_le hb h)
  have hne : (10 : ℚ) ^ e ≠ 0 := (zpow_pos (by norm_num) _).ne'
  rw [toRat, toRat, mul_left_inj' hne, Nat.cast_inj] at h
  exact congrArg (Dec.mk · e) h

/-- Two decimals of one value have one normal form. -/
theorem normal_eq_normal {a b : Dec} (h : a.toRat = b.toRat) : a.normal = b.normal :=
  (isNormal_normal a).eq (isNormal_normal b) (by rw [toRat_normal, toRat_normal, h])

/-- What is normal is its own normal form. -/
theorem IsNormal.normal_eq {a : Dec} (h : a.IsNormal) : a.normal = a :=
  (isNormal_normal a).eq h (toRat_normal a)

/-- The fixed-point text of a stripped decimal is that of the normal one. -/
theorem fixedText_normal {d : Dec} (h : d.coeff ≠ 0) :
    d.normal.fixedText = fixedText ⟨stripped d.coeff, d.exp + trailingZeros d.coeff⟩ := by
  unfold normal
  rw [if_neg h]
  split_ifs with hexp
  · rw [fixedText, fixedText, if_pos le_rfl, if_pos hexp, Int.toNat_zero, pow_zero, mul_one]
  · rfl

/-! ### The length of fixed-point text -/

theorem width_mul_pow {c : ℕ} (h : c ≠ 0) (k : ℕ) : width (c * 10 ^ k) = k + width c := by
  rw [width, mul_comm, Nat.digits_base_pow_mul (by norm_num) (Nat.pos_of_ne_zero h),
    List.length_append, List.length_replicate, width]

theorem width_le_iff {n k : ℕ} : width n ≤ k ↔ n < 10 ^ k := Nat.digits_length_le_iff (by norm_num) n

/-- Division by a power of ten cuts digits off. -/
theorem width_div_pow {n k : ℕ} (h : k < width n) : width (n / 10 ^ k) = width n - k := by
  have hpos : 0 < 10 ^ k := by positivity
  refine le_antisymm (width_le_iff.2 ?_) ?_
  · have hlt : n < 10 ^ width n := width_le_iff.1 le_rfl
    rw [Nat.div_lt_iff_lt_mul hpos, ← pow_add]
    exact hlt.trans_le (Nat.pow_le_pow_right (by norm_num) (by omega))
  · by_contra hlt
    have hle : width (n / 10 ^ k) ≤ width n - k - 1 := by omega
    rw [width_le_iff, Nat.div_lt_iff_lt_mul hpos, ← pow_add, ← width_le_iff] at hle
    omega

/-- **The length of the text**, from the number of digits and where the point is among
them. -/
theorem length_fixedText {c : ℕ} (h : c ≠ 0) (e : ℤ) :
    ((fixedText ⟨c, e⟩).length : ℤ) =
      if width c + e ≤ 0 then 2 - (width c + e) + width c
      else if width c ≤ width c + e then width c + e
      else width c + 1 := by
  have hwidth : 0 < width c := Nat.pos_of_ne_zero fun h0 => h <| by
    have := width_le_iff.1 h0.le
    omega
  unfold fixedText
  by_cases hexp : 0 ≤ e
  · have hne : c * 10 ^ e.toNat ≠ 0 := mul_ne_zero h (by positivity)
    simp only [if_pos hexp]
    rw [length_natText hne, width_mul_pow h, if_neg (by omega), if_pos (by omega), Nat.cast_add,
      Int.toNat_of_nonneg hexp, add_comm]
  · obtain ⟨k, hk⟩ : ∃ k, (-e).toNat = k := ⟨_, rfl⟩
    simp only [if_neg hexp, hk, List.length_append, List.length_cons, length_padded]
    by_cases hle : width c ≤ k
    · have hzero : c / 10 ^ k = 0 := Nat.div_eq_of_lt (width_le_iff.1 hle)
      rw [hzero, if_pos (by omega), natText, if_pos rfl, List.length_singleton]
      omega
    · have hlt : k < width c := not_le.1 hle
      have hne : c / 10 ^ k ≠ 0 := by
        intro h0
        rw [Nat.div_eq_zero_iff] at h0
        exact hle (width_le_iff.2 (h0.resolve_left (by positivity)))
      rw [length_natText hne, width_div_pow hlt, if_neg (by omega), if_neg (by omega)]
      omega

/-- **The shortest fixed-point text** of a value. -/
def plainText (d : Dec) : List Char := d.normal.fixedText

/-- Two decimals of one value are written alike. -/
theorem plainText_eq {a b : Dec} (h : a.toRat = b.toRat) : a.plainText = b.plainText :=
  congrArg fixedText (normal_eq_normal h)

/-- Nothing is written longer for being plain. -/
theorem length_plainText_le_self (d : Dec) : d.plainText.length ≤ d.fixedText.length := by
  by_cases hzero : d.coeff = 0
  · have hpos : 0 < d.fixedText.length := by
      unfold fixedText
      split
      · exact List.length_pos_of_ne_nil (natText_ne_nil _)
      · simp
    rw [plainText, normal, if_pos hzero]
    exact hpos
  · have hplain := length_fixedText (stripped_ne_zero hzero) (d.exp + trailingZeros d.coeff)
    have htext : (d.fixedText.length : ℤ) = _ := length_fixedText hzero d.exp
    have hwidth := trailingZeros_add_significantDigits d.coeff
    rw [← fixedText_normal hzero, width_stripped hzero] at hplain
    rw [plainText]
    split_ifs at hplain htext <;> omega

theorem length_plainText_le {a b : Dec} (h : a.toRat = b.toRat) :
    a.plainText.length ≤ b.fixedText.length :=
  plainText_eq h ▸ length_plainText_le_self b

/-! ### What ends fixed-point text -/

/-- The digits after the point end with the last digit of the number. -/
theorem padded_succ (k n : ℕ) : ∃ l, padded (k + 1) n = l ++ [digit (n % 10)] := by
  induction k with
  | zero => exact ⟨[], by simp [padded]⟩
  | succ k ih =>
    obtain ⟨l, hl⟩ := ih
    exact ⟨_, by rw [padded, hl, ← List.cons_append]⟩

/-- **Normal fixed-point text** is a run of digits, or it ends with a digit of its fraction
that is not zero. -/
theorem IsNormal.fixedText_ends {d : Dec} (h : d.IsNormal) :
    d.fixedText.all isDigit = true ∨
      ∃ l n, d.fixedText = l ++ [digit n] ∧ n < 10 ∧ n ≠ 0 := by
  unfold fixedText
  by_cases hexp : 0 ≤ d.exp
  · rw [if_pos hexp]
    exact Or.inl (all_isDigit_natText _)
  · obtain ⟨k, hk⟩ : ∃ k, (-d.exp).toNat = k + 1 := ⟨(-d.exp).toNat - 1, by omega⟩
    have hdvd : ¬10 ∣ d.coeff := h.2.resolve_left (by omega)
    obtain ⟨l, hl⟩ := padded_succ k d.coeff
    refine Or.inr ⟨natText (d.coeff / 10 ^ (k + 1)) ++ '.' :: l, d.coeff % 10, ?_,
      Nat.mod_lt _ (by norm_num), fun h0 => hdvd (Nat.dvd_of_mod_eq_zero h0)⟩
    rw [if_neg hexp, hk, hl, List.append_assoc, List.cons_append]

end Dec
