import Mathlib

/-!
# Decimal numbers and rounding to a precision

Unsigned decimals as a coefficient and a power of ten, with the arithmetic of a
decimal *context*: comparison is exact, and every sum is rounded, half to even,
to the precision of the context. Nothing here mentions a program.

Two facts are what a user of the library needs. Comparison agrees with the order
of the rationals (`Dec.le_iff`, `Dec.same_iff`), whatever the exponents of the two
sides. Rounding changes a value exactly when it has more significant digits than
the precision (`Dec.toRat_roundHalfEven_eq_iff`), where the significant digits of
a number are the digits left when its trailing zeros are taken off.
-/

/-- An unsigned decimal: `coeff` times ten to the power `exp`. -/
structure Dec where
  coeff : ℕ
  exp : ℤ
deriving DecidableEq, Repr

namespace Dec

/-! ### Values and comparison -/

/-- The exact value of a decimal. -/
def toRat (d : Dec) : ℚ := d.coeff * (10 : ℚ) ^ d.exp

/-- The coefficient of `d` at the exponent `e`, for `e` at most the exponent of `d`. -/
def rescale (d : Dec) (e : ℤ) : ℕ := d.coeff * 10 ^ (d.exp - e).toNat

theorem toRat_rescale {d : Dec} {e : ℤ} (h : e ≤ d.exp) :
    (d.rescale e : ℚ) * (10 : ℚ) ^ e = d.toRat := by
  have hk : ((d.exp - e).toNat : ℤ) = d.exp - e := Int.toNat_of_nonneg (by omega)
  have hpow : (10 : ℚ) ^ (d.exp - e).toNat = (10 : ℚ) ^ (d.exp - e) := by
    rw [← zpow_natCast, hk]
  rw [rescale, toRat, Nat.cast_mul, Nat.cast_pow, Nat.cast_ofNat, hpow, mul_assoc,
    ← zpow_add₀ (by norm_num : (10 : ℚ) ≠ 0), sub_add_cancel]

/-- The order of decimals by value. -/
def le (a b : Dec) : Prop :=
  a.rescale (min a.exp b.exp) ≤ b.rescale (min a.exp b.exp)

instance (a b : Dec) : Decidable (a.le b) := inferInstanceAs (Decidable (_ ≤ _))

/-- Equality of decimals by value. -/
def same (a b : Dec) : Prop :=
  a.rescale (min a.exp b.exp) = b.rescale (min a.exp b.exp)

instance (a b : Dec) : Decidable (a.same b) := inferInstanceAs (Decidable (_ = _))

theorem le_iff {a b : Dec} : a.le b ↔ a.toRat ≤ b.toRat := by
  have hpos : (0 : ℚ) < (10 : ℚ) ^ min a.exp b.exp := zpow_pos (by norm_num) _
  rw [le, ← toRat_rescale (min_le_left a.exp b.exp), ← toRat_rescale (min_le_right a.exp b.exp),
    mul_le_mul_iff_of_pos_right hpos, Nat.cast_le]

theorem same_iff {a b : Dec} : a.same b ↔ a.toRat = b.toRat := by
  have hne : (10 : ℚ) ^ min a.exp b.exp ≠ 0 := (zpow_pos (by norm_num) _).ne'
  rw [same, ← toRat_rescale (min_le_left a.exp b.exp), ← toRat_rescale (min_le_right a.exp b.exp),
    mul_left_inj' hne, Nat.cast_inj]

/-! ### Digits -/

/-- How many decimal digits a number has; zero has none. -/
def width (n : ℕ) : ℕ := (Nat.digits 10 n).length

/-- How many zeros end a number. -/
def trailingZeros (n : ℕ) : ℕ := ((Nat.digits 10 n).takeWhile (· == 0)).length

/-- The digits of a number that are left when the zeros that end it are taken off. -/
def significantDigits (n : ℕ) : ℕ := ((Nat.digits 10 n).dropWhile (· == 0)).length

theorem trailingZeros_add_significantDigits (n : ℕ) :
    trailingZeros n + significantDigits n = width n := by
  rw [trailingZeros, significantDigits, width, ← List.length_append, List.takeWhile_append_dropWhile]

theorem trailingZeros_of_not_dvd {n : ℕ} (h : ¬10 ∣ n) : trailingZeros n = 0 := by
  have hn : 0 < n := Nat.pos_of_ne_zero fun he => h (he ▸ dvd_zero 10)
  have hd : n % 10 ≠ 0 := fun he => h (Nat.dvd_of_mod_eq_zero he)
  rw [trailingZeros, Nat.digits_def' (by norm_num) hn, List.takeWhile_cons]
  simp [hd]

theorem trailingZeros_of_dvd {n : ℕ} (hn : n ≠ 0) (h : 10 ∣ n) :
    trailingZeros n = trailingZeros (n / 10) + 1 := by
  have hd : n % 10 = 0 := Nat.mod_eq_zero_of_dvd h
  rw [trailingZeros, Nat.digits_def' (by norm_num) (Nat.pos_of_ne_zero hn), List.takeWhile_cons]
  simp [hd, trailingZeros]

/-- **The trailing zeros count the powers of ten that divide.** -/
theorem pow_dvd_iff_le_trailingZeros {n : ℕ} (hn : n ≠ 0) (k : ℕ) :
    10 ^ k ∣ n ↔ k ≤ trailingZeros n := by
  induction k generalizing n with
  | zero => simp
  | succ k ih =>
    by_cases h : 10 ∣ n
    · obtain ⟨m, rfl⟩ := h
      have hm : m ≠ 0 := fun he => hn (by rw [he, mul_zero])
      rw [trailingZeros_of_dvd hn (dvd_mul_right 10 m), Nat.mul_div_cancel_left m (by norm_num),
        pow_succ', Nat.mul_dvd_mul_iff_left (by norm_num), ih hm]
      omega
    · refine iff_of_false (fun hd => h ((dvd_pow_self 10 k.succ_ne_zero).trans hd)) ?_
      rw [trailingZeros_of_not_dvd h]
      omega

/-! ### Rounding -/

/-- The quotient by `10 ^ k`, rounded half to even. -/
def quotientHalfEven (n k : ℕ) : ℕ :=
  let q := n / 10 ^ k
  let r := n % 10 ^ k
  if 10 ^ k < 2 * r ∨ (2 * r = 10 ^ k ∧ q % 2 = 1) then q + 1 else q

/-- **Rounding to a precision**: a coefficient of more than `prec` digits gives up
its last digits, half to even. -/
def roundHalfEven (prec : ℕ) (d : Dec) : Dec :=
  if width d.coeff ≤ prec then d
  else ⟨quotientHalfEven d.coeff (width d.coeff - prec), d.exp + (width d.coeff - prec : ℕ)⟩

theorem quotientHalfEven_of_dvd {n k : ℕ} (h : 10 ^ k ∣ n) :
    quotientHalfEven n k = n / 10 ^ k := by
  have hr : n % 10 ^ k = 0 := Nat.mod_eq_zero_of_dvd h
  have hk : 0 < 10 ^ k := by positivity
  rw [quotientHalfEven, hr]
  exact if_neg (by omega)

theorem toRat_shift (q k : ℕ) (e : ℤ) :
    toRat ⟨q, e + k⟩ = ((q * 10 ^ k : ℕ) : ℚ) * (10 : ℚ) ^ e := by
  rw [toRat, zpow_add₀ (by norm_num : (10 : ℚ) ≠ 0), zpow_natCast, Nat.cast_mul, Nat.cast_pow,
    Nat.cast_ofNat]
  ring

/-- **Rounding is exact on the numbers the precision can hold, and on no others.** -/
theorem toRat_roundHalfEven_eq_iff (prec : ℕ) (d : Dec) :
    (roundHalfEven prec d).toRat = d.toRat ↔ significantDigits d.coeff ≤ prec := by
  have hsum := trailingZeros_add_significantDigits d.coeff
  by_cases hw : width d.coeff ≤ prec
  · rw [roundHalfEven, if_pos hw]
    exact iff_of_true rfl (by omega)
  · obtain ⟨k, hk⟩ : ∃ k, width d.coeff - prec = k := ⟨_, rfl⟩
    have hn : d.coeff ≠ 0 := fun he => hw (by rw [he]; simp [width])
    have hdvd : significantDigits d.coeff ≤ prec ↔ 10 ^ k ∣ d.coeff := by
      rw [pow_dvd_iff_le_trailingZeros hn]
      omega
    have hne : (10 : ℚ) ^ d.exp ≠ 0 := (zpow_pos (by norm_num) _).ne'
    rw [roundHalfEven, if_neg hw, hk, toRat_shift, hdvd, toRat, mul_left_inj' hne, Nat.cast_inj]
    constructor
    · intro h
      exact ⟨_, by rw [← h, mul_comm]⟩
    · intro h
      rw [quotientHalfEven_of_dvd h, Nat.div_mul_cancel h]

/-! ### Sums -/

/-- The exact sum, at the smaller of the two exponents. -/
def exactAdd (a b : Dec) : Dec :=
  ⟨a.rescale (min a.exp b.exp) + b.rescale (min a.exp b.exp), min a.exp b.exp⟩

/-- The sum in a context of precision `prec`. -/
def add (prec : ℕ) (a b : Dec) : Dec := roundHalfEven prec (exactAdd a b)

theorem toRat_exactAdd (a b : Dec) : (exactAdd a b).toRat = a.toRat + b.toRat := by
  rw [← toRat_rescale (min_le_left a.exp b.exp), ← toRat_rescale (min_le_right a.exp b.exp),
    ← add_mul, ← Nat.cast_add]
  rfl

/-- **A sum is exact when its significant digits fit the precision, and only then.** -/
theorem toRat_add_eq_iff (prec : ℕ) (a b : Dec) :
    (add prec a b).toRat = a.toRat + b.toRat ↔
      significantDigits (exactAdd a b).coeff ≤ prec := by
  rw [add, ← toRat_exactAdd, toRat_roundHalfEven_eq_iff]

/-! ### Products and quotients -/

/-- The product in a context of precision `prec`. -/
def mul (prec : ℕ) (a b : Dec) : Dec := roundHalfEven prec ⟨a.coeff * b.coeff, a.exp + b.exp⟩

/-- Up to `n` zeros taken off the end of a coefficient. -/
def dropZeros : ℕ → Dec → Dec
  | 0, d => d
  | n + 1, d => if d.coeff % 10 = 0 then dropZeros n ⟨d.coeff / 10, d.exp + 1⟩ else d

/-- **The quotient in a context**, of a divisor other than zero: one digit more than the
precision holds is computed, and made to tell if more would follow. An exact quotient
comes as close as it can to the difference of the exponents. -/
def div (prec : ℕ) (a b : Dec) : Dec :=
  if a.coeff = 0 then ⟨0, a.exp - b.exp⟩
  else
    let shift : ℤ := width b.coeff - width a.coeff + prec + 1
    let n := a.coeff * 10 ^ shift.toNat
    let m := b.coeff * 10 ^ (-shift).toNat
    let q := n / m
    if n % m = 0 then roundHalfEven prec (dropZeros shift.toNat ⟨q, a.exp - b.exp - shift⟩)
    else roundHalfEven prec ⟨if q % 5 = 0 then q + 1 else q, a.exp - b.exp - shift⟩

end Dec
