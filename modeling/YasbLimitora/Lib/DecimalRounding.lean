import Mathlib
import YasbLimitora.Lib.DecimalNormal

/-!
# Rounding as a function of the value

`Dec.rounded` rounds a positive rational to a number of digits, half to even. It does not
lose the order (`Dec.rounded_mono`), and it is what the operations of a context come to:
`Dec.toRat_roundHalfEven` for the rounding of a decimal, and `Dec.toRat_div` for a
quotient, of which only one digit too many is computed.

All rests on one description of the nearest integer by what it is above
(`Dec.lt_nearestEven_iff`): two numbers on the same side of every half have the same one.

Programs round where they show a quotient, and compare what they show. That they may is the monotony
of the rounding, across the powers of ten where the distance between two representable values
changes. It is proved for the exponent of the last digit that is kept (`Dec.lastExp`) and not for
the digits.

The quotient of two decimals is computed by a division of integers with one digit too many, which is
moved off the multiples of five when something is left (`Dec.sticky`): half to even is decided by it
as it would be by all the digits that were not computed (`Dec.rounded_sticky`).
-/

namespace Dec

/-! ### The nearest integer -/

/-- The nearest integer, and of two that are as near the even one. -/
def nearestEven (x : ℚ) : ℤ :=
  if 1 < 2 * (x - ⌊x⌋) ∨ (2 * (x - ⌊x⌋) = 1 ∧ ⌊x⌋ % 2 = 1) then ⌊x⌋ + 1 else ⌊x⌋

theorem lt_nearestEven_iff {n : ℤ} {x : ℚ} :
    n < nearestEven x ↔ (n : ℚ) + 1 / 2 < x ∨ x = n + 1 / 2 ∧ n % 2 = 1 := by
  have hle := Int.floor_le x
  have hlt := Int.lt_floor_add_one x
  obtain ⟨f, hf⟩ : ∃ f, ⌊x⌋ = f := ⟨_, rfl⟩
  rw [hf] at hle hlt
  unfold nearestEven
  rw [hf]
  rcases lt_trichotomy n f with hn | rfl | hn
  · have hcast : (n : ℚ) + 1 ≤ f := by exact_mod_cast hn
    refine iff_of_true ?_ (Or.inl (by linarith))
    split_ifs <;> omega
  · have hhalf : 1 < 2 * (x - n) ↔ (n : ℚ) + 1 / 2 < x := by
      constructor <;> intro h <;> linarith
    have htie : 2 * (x - n) = 1 ↔ x = (n : ℚ) + 1 / 2 := by
      constructor <;> intro h <;> linarith
    simp only [hhalf, htie]
    split_ifs with h
    · exact iff_of_true (lt_add_one n) h
    · exact iff_of_false (lt_irrefl n) h
  · have hcast : (f : ℚ) + 1 ≤ n := by exact_mod_cast hn
    refine iff_of_false ?_ ?_
    · split_ifs <;> omega
    · rintro (h | ⟨h, -⟩) <;> linarith

theorem nearestEven_mono {x y : ℚ} (h : x ≤ y) : nearestEven x ≤ nearestEven y := by
  refine le_of_forall_lt fun n hn => ?_
  rw [lt_nearestEven_iff] at hn ⊢
  rcases hn with hn | ⟨rfl, hodd⟩
  · exact Or.inl (hn.trans_le h)
  · rcases h.lt_or_eq with hlt | rfl
    · exact Or.inl hlt
    · exact Or.inr ⟨rfl, hodd⟩

theorem nearestEven_intCast (n : ℤ) : nearestEven n = n := by
  simp [nearestEven]

/-- Numbers on the same side of every half have the same nearest integer. -/
theorem nearestEven_congr {x y : ℚ}
    (h : ∀ n : ℤ, ((n : ℚ) + 1 / 2 < x ↔ (n : ℚ) + 1 / 2 < y) ∧
      (x = (n : ℚ) + 1 / 2 ↔ y = (n : ℚ) + 1 / 2)) : nearestEven x = nearestEven y := by
  refine eq_of_forall_lt_iff fun n => ?_
  rw [lt_nearestEven_iff, lt_nearestEven_iff, (h n).1, (h n).2]

theorem nearestEven_div_pow (n k : ℕ) :
    nearestEven ((n : ℚ) / (10 : ℚ) ^ k) = (quotientHalfEven n k : ℤ) := by
  have hpos : (0 : ℚ) < (10 : ℚ) ^ k := by positivity
  have hsplit : (n : ℚ) = (10 : ℚ) ^ k * (n / 10 ^ k : ℕ) + (n % 10 ^ k : ℕ) := by
    exact_mod_cast (Nat.div_add_mod n (10 ^ k)).symm
  have hfloor : ⌊(n : ℚ) / (10 : ℚ) ^ k⌋ = ((n / 10 ^ k : ℕ) : ℤ) := by
    have h := Rat.floor_intCast_div_natCast (n : ℤ) (10 ^ k)
    push_cast at h ⊢
    exact h
  have hrest : 2 * ((n : ℚ) / (10 : ℚ) ^ k - (n / 10 ^ k : ℕ)) =
      (2 * (n % 10 ^ k) : ℕ) / (10 : ℚ) ^ k := by
    rw [eq_div_iff hpos.ne']
    conv_lhs => rw [hsplit]
    push_cast
    field_simp
    ring
  have hmore : 1 < ((2 * (n % 10 ^ k) : ℕ) : ℚ) / (10 : ℚ) ^ k ↔ 10 ^ k < 2 * (n % 10 ^ k) := by
    rw [one_lt_div hpos]
    exact_mod_cast Iff.rfl
  have htie : ((2 * (n % 10 ^ k) : ℕ) : ℚ) / (10 : ℚ) ^ k = 1 ↔ 2 * (n % 10 ^ k) = 10 ^ k := by
    rw [div_eq_one_iff_eq hpos.ne']
    exact_mod_cast Iff.rfl
  have hodd : ((n / 10 ^ k : ℕ) : ℤ) % 2 = 1 ↔ n / 10 ^ k % 2 = 1 := by omega
  unfold nearestEven quotientHalfEven
  rw [hfloor]
  simp only [Int.cast_natCast, hrest, hmore, htie, hodd]
  split_ifs <;> push_cast <;> rfl

/-! ### Rounding to a number of digits -/

/-- The exponent of the last digit that is kept. -/
def lastExp (prec : ℕ) (x : ℚ) : ℤ := Int.log 10 x + 1 - prec

/-- **A value rounded** to `prec` digits. -/
def rounded (prec : ℕ) (x : ℚ) : ℚ :=
  nearestEven (x / (10 : ℚ) ^ lastExp prec x) * (10 : ℚ) ^ lastExp prec x

theorem pow_ten_pos (e : ℤ) : (0 : ℚ) < (10 : ℚ) ^ e := zpow_pos (by norm_num) e

theorem log_eq_iff {x : ℚ} (hx : 0 < x) (k : ℤ) :
    Int.log 10 x = k ↔ (10 : ℚ) ^ k ≤ x ∧ x < (10 : ℚ) ^ (k + 1) := by
  have hle := Int.zpow_le_iff_le_log (R := ℚ) (b := 10) (by norm_num) (x := k) hx
  have hlt := Int.lt_zpow_iff_log_lt (R := ℚ) (b := 10) (by norm_num) (x := k + 1) hx
  rw [Nat.cast_ofNat] at hle hlt
  rw [hle, hlt]
  omega

theorem log_mul_zpow {x : ℚ} (hx : 0 < x) (s : ℤ) :
    Int.log 10 (x * (10 : ℚ) ^ s) = Int.log 10 x + s := by
  obtain ⟨hle, hlt⟩ := (log_eq_iff hx _).1 rfl
  refine (log_eq_iff (mul_pos hx (pow_ten_pos s)) _).2 ⟨?_, ?_⟩
  · rw [zpow_add₀ (by norm_num)]
    exact mul_le_mul_of_nonneg_right hle (pow_ten_pos s).le
  · rw [add_right_comm, zpow_add₀ (by norm_num)]
    exact mul_lt_mul_of_pos_right hlt (pow_ten_pos s)

@[simp] theorem rounded_zero (prec : ℕ) : rounded prec 0 = 0 := by
  have h : nearestEven 0 = 0 := nearestEven_intCast 0
  rw [rounded, zero_div, h, Int.cast_zero, zero_mul]

/-- A power of ten only moves the point. -/
theorem rounded_mul_zpow (prec : ℕ) {x : ℚ} (hx : 0 < x) (s : ℤ) :
    rounded prec (x * (10 : ℚ) ^ s) = rounded prec x * (10 : ℚ) ^ s := by
  have hexp : lastExp prec (x * (10 : ℚ) ^ s) = lastExp prec x + s := by
    rw [lastExp, lastExp, log_mul_zpow hx]
    ring
  have hne : (10 : ℚ) ^ s ≠ 0 := (pow_ten_pos s).ne'
  rw [rounded, rounded, hexp, zpow_add₀ (by norm_num), mul_div_mul_right _ _ hne, mul_assoc]

/-- What has no digit beyond the last that is kept is not changed. -/
theorem rounded_of_int {prec : ℕ} {x : ℚ} {n : ℤ} (h : x = n * (10 : ℚ) ^ lastExp prec x) :
    rounded prec x = x := by
  have hne : (10 : ℚ) ^ lastExp prec x ≠ 0 := (pow_ten_pos _).ne'
  have hn : x / (10 : ℚ) ^ lastExp prec x = n := by
    rw [div_eq_iff hne]
    exact h
  rw [rounded, hn, nearestEven_intCast, ← h]

/-- What is rounded stays in its decade, or reaches the end of it. -/
theorem rounded_bounds {prec : ℕ} (hprec : 0 < prec) {x : ℚ} (hx : 0 < x) :
    (10 : ℚ) ^ Int.log 10 x ≤ rounded prec x ∧ rounded prec x ≤ (10 : ℚ) ^ (Int.log 10 x + 1) := by
  obtain ⟨hle, hlt⟩ := (log_eq_iff hx _).1 rfl
  have hpos := pow_ten_pos (lastExp prec x)
  have hlow : (10 : ℚ) ^ Int.log 10 x = ((10 ^ (prec - 1) : ℤ) : ℚ) * (10 : ℚ) ^ lastExp prec x := by
    rw [Int.cast_pow, Int.cast_ofNat, ← zpow_natCast, ← zpow_add₀ (by norm_num), lastExp,
      Nat.cast_sub hprec]
    congr 1
    push_cast
    ring
  have hhigh : (10 : ℚ) ^ (Int.log 10 x + 1) =
      ((10 ^ prec : ℤ) : ℚ) * (10 : ℚ) ^ lastExp prec x := by
    rw [Int.cast_pow, Int.cast_ofNat, ← zpow_natCast, ← zpow_add₀ (by norm_num), lastExp]
    congr 1
    ring
  rw [hlow] at hle ⊢
  rw [hhigh] at hlt ⊢
  rw [← le_div_iff₀ hpos] at hle
  rw [← div_lt_iff₀ hpos] at hlt
  refine ⟨mul_le_mul_of_nonneg_right ?_ hpos.le, mul_le_mul_of_nonneg_right ?_ hpos.le⟩
  · have h := nearestEven_mono hle
    rw [nearestEven_intCast] at h
    exact_mod_cast h
  · have h := nearestEven_mono hlt.le
    rw [nearestEven_intCast] at h
    exact_mod_cast h

/-- **Rounding keeps the order.** -/
theorem rounded_mono {prec : ℕ} (hprec : 0 < prec) {x y : ℚ} (hx : 0 ≤ x) (h : x ≤ y) :
    rounded prec x ≤ rounded prec y := by
  rcases hx.eq_or_lt with rfl | hx
  · rcases h.eq_or_lt with rfl | hy
    · exact le_rfl
    · rw [rounded_zero]
      exact (pow_ten_pos _).le.trans (rounded_bounds hprec hy).1
  · have hy : 0 < y := hx.trans_le h
    have hlog : Int.log 10 x ≤ Int.log 10 y := Int.log_mono_right hx h
    rcases hlog.eq_or_lt with heq | hlt
    · have hexp : lastExp prec y = lastExp prec x := by rw [lastExp, lastExp, heq]
      have hpos := pow_ten_pos (lastExp prec x)
      rw [rounded, rounded, hexp]
      refine mul_le_mul_of_nonneg_right ?_ hpos.le
      exact_mod_cast nearestEven_mono (div_le_div_of_nonneg_right h hpos.le)
    · calc rounded prec x ≤ (10 : ℚ) ^ (Int.log 10 x + 1) := (rounded_bounds hprec hx).2
        _ ≤ (10 : ℚ) ^ Int.log 10 y := zpow_le_zpow_right₀ (by norm_num) (by omega)
        _ ≤ rounded prec y := (rounded_bounds hprec hy).1

/-! ### Rounding in a context -/

theorem toRat_pos {d : Dec} (h : d.coeff ≠ 0) : 0 < d.toRat :=
  mul_pos (by exact_mod_cast Nat.pos_of_ne_zero h) (pow_ten_pos _)

theorem log_toRat {d : Dec} (h : d.coeff ≠ 0) : Int.log 10 d.toRat = width d.coeff - 1 + d.exp := by
  have hcoeff : (0 : ℚ) < d.coeff := by exact_mod_cast Nat.pos_of_ne_zero h
  rw [toRat, log_mul_zpow hcoeff, Int.log_natCast, width, Nat.length_digits 10 _ (by norm_num) h]
  push_cast
  ring

/-- **Rounding a decimal rounds its value.** -/
theorem toRat_roundHalfEven (prec : ℕ) (d : Dec) :
    (roundHalfEven prec d).toRat = rounded prec d.toRat := by
  by_cases hzero : d.coeff = 0
  · have hvalue : d.toRat = 0 := by rw [toRat, hzero, Nat.cast_zero, zero_mul]
    rw [hvalue, rounded_zero, roundHalfEven, hzero]
    simp [width, hvalue]
  have hlast : lastExp prec d.toRat = width d.coeff + d.exp - prec := by
    rw [lastExp, log_toRat hzero]
    ring
  have hne : (10 : ℚ) ^ d.exp ≠ 0 := (pow_ten_pos _).ne'
  by_cases hw : width d.coeff ≤ prec
  · have hint : d.toRat = ((d.coeff * 10 ^ (prec - width d.coeff) : ℤ) : ℚ) *
        (10 : ℚ) ^ lastExp prec d.toRat := by
      rw [hlast, Int.cast_mul, Int.cast_pow, Int.cast_ofNat, Int.cast_natCast, mul_assoc,
        ← zpow_natCast, ← zpow_add₀ (by norm_num), Nat.cast_sub hw, toRat]
      congr 2
      ring
    rw [roundHalfEven, if_pos hw, rounded_of_int hint]
  · obtain ⟨k, hk⟩ : ∃ k, width d.coeff - prec = k := ⟨_, rfl⟩
    have hexp : lastExp prec d.toRat = d.exp + k := by
      rw [hlast]
      omega
    have hdiv : d.toRat / (10 : ℚ) ^ (d.exp + k) = d.coeff / (10 : ℚ) ^ k := by
      rw [toRat, zpow_add₀ (by norm_num), zpow_natCast, mul_comm ((10 : ℚ) ^ d.exp),
        mul_div_mul_right _ _ hne]
    rw [roundHalfEven, if_neg hw, hk, rounded, hexp, hdiv, nearestEven_div_pow, toRat, Int.cast_natCast]

/-! ### Quotients -/

/-- A quotient cut to a whole number that still tells if more would follow: it is no
multiple of five. -/
def sticky (q : ℕ) : ℕ := if q % 5 = 0 then q + 1 else q

theorem sticky_pos (q : ℕ) : 0 < sticky q := by
  unfold sticky
  split <;> omega

/-- A cut quotient is on the same side of every multiple of five. -/
theorem sticky_side {q : ℕ} {x : ℚ} (hq : (q : ℚ) < x) (hq' : x < q + 1) {c : ℤ} (hc : 5 ∣ c) :
    ((c : ℚ) < x ↔ (c : ℚ) < sticky q) ∧ (c : ℚ) ≠ x ∧ (c : ℚ) ≠ sticky q := by
  have hx : (c : ℚ) < x ↔ c ≤ q := by
    constructor
    · intro h
      have hlt : (c : ℚ) < (q + 1 : ℤ) := by
        push_cast
        exact h.trans hq'
      have hlt' : c < q + 1 := by exact_mod_cast hlt
      omega
    · intro h
      have hle : (c : ℚ) ≤ (q : ℤ) := by exact_mod_cast h
      exact lt_of_le_of_lt (by exact_mod_cast hle) hq
  have hs : (c : ℚ) < sticky q ↔ c ≤ q := by
    have hcast : (c : ℚ) < sticky q ↔ c < sticky q := by exact_mod_cast Iff.rfl
    rw [hcast, sticky]
    split_ifs <;> push_cast <;> omega
  refine ⟨hx.trans hs.symm, ?_, ?_⟩
  · rintro rfl
    have hlow : (q : ℤ) < c := by exact_mod_cast hq
    have hhigh : c < q + 1 := by exact_mod_cast hq'
    omega
  · intro h
    have hcast : c = sticky q := by exact_mod_cast h
    rw [sticky] at hcast
    split_ifs at hcast <;> push_cast at hcast <;> omega

theorem five_dvd_ten_pow {k : ℕ} (h : k ≠ 0) : (5 : ℤ) ∣ 10 ^ k :=
  Dvd.dvd.trans ⟨2, by norm_num⟩ (dvd_pow_self 10 h)

/-- **A cut quotient rounds like the whole one**, if it has a digit more than is kept. -/
theorem rounded_sticky {prec q : ℕ} (hprec : 0 < prec) {x : ℚ} (hlow : (10 : ℚ) ^ prec ≤ x)
    (hq : (q : ℚ) < x) (hq' : x < q + 1) : rounded prec x = rounded prec (sticky q) := by
  have hx : 0 < x := lt_of_lt_of_le (by positivity) hlow
  obtain ⟨j, hj⟩ : ∃ j : ℕ, Int.log 10 x = (prec + j : ℕ) := by
    have hle : (prec : ℤ) ≤ Int.log 10 x := by
      have h := (Int.zpow_le_iff_le_log (R := ℚ) (b := 10) (by norm_num) (x := (prec : ℤ)) hx).1
      rw [Nat.cast_ofNat, zpow_natCast] at h
      exact h hlow
    exact ⟨(Int.log 10 x - prec).toNat, by omega⟩
  have hside := fun {c : ℤ} (hc : 5 ∣ c) => sticky_side hq hq' hc
  obtain ⟨hdecade, hdecade'⟩ := (log_eq_iff hx _).1 hj
  have hpow : ∀ k : ℕ, (10 : ℚ) ^ (k : ℤ) = ((10 ^ k : ℤ) : ℚ) := fun k => by
    rw [zpow_natCast, Int.cast_pow, Int.cast_ofNat]
  have hs : (10 : ℚ) ^ ((prec + j : ℕ) : ℤ) < sticky q := by
    obtain ⟨hiff, hne, -⟩ := hside (five_dvd_ten_pow (k := prec + j) (by omega))
    rw [hpow] at hdecade ⊢
    exact hiff.1 (lt_of_le_of_ne hdecade hne)
  have hs' : (sticky q : ℚ) < (10 : ℚ) ^ (((prec + j : ℕ) : ℤ) + 1) := by
    obtain ⟨hiff, -, hne⟩ := hside (five_dvd_ten_pow (k := prec + j + 1) (by omega))
    have hexp : ((prec + j : ℕ) : ℤ) + 1 = ((prec + j + 1 : ℕ) : ℤ) := by push_cast; ring
    rw [hexp, hpow] at hdecade' ⊢
    exact lt_of_le_of_ne (not_lt.1 fun h => absurd (hiff.2 h) hdecade'.not_gt) hne.symm
  have hlog : Int.log 10 (sticky q : ℚ) = (prec + j : ℕ) :=
    (log_eq_iff ((pow_ten_pos _).trans hs) _).2 ⟨hs.le, hs'⟩
  have hlast : lastExp prec x = ((j + 1 : ℕ) : ℤ) := by
    rw [lastExp, hj]
    push_cast
    ring
  have hlast' : lastExp prec (sticky q : ℚ) = ((j + 1 : ℕ) : ℤ) := by
    rw [lastExp, hlog]
    push_cast
    ring
  have hnearest : nearestEven (x / (10 : ℚ) ^ (j + 1)) =
      nearestEven ((sticky q : ℚ) / (10 : ℚ) ^ (j + 1)) := by
    have hpos : (0 : ℚ) < (10 : ℚ) ^ (j + 1) := by positivity
    refine nearestEven_congr fun n => ?_
    have hhalf : ((n : ℚ) + 1 / 2) * (10 : ℚ) ^ (j + 1) = (((2 * n + 1) * (5 * 10 ^ j) : ℤ) : ℚ) := by
      push_cast
      ring
    have hdvd : (5 : ℤ) ∣ (2 * n + 1) * (5 * 10 ^ j) := Dvd.dvd.mul_left (dvd_mul_right 5 _) _
    obtain ⟨hiff, hne, hne'⟩ := hside hdvd
    rw [lt_div_iff₀ hpos, lt_div_iff₀ hpos, div_eq_iff hpos.ne', div_eq_iff hpos.ne', hhalf]
    exact ⟨hiff, iff_of_false hne.symm hne'.symm⟩
  rw [rounded, rounded, hlast, hlast', zpow_natCast, hnearest]

theorem toRat_dropZeros (n : ℕ) (d : Dec) : (dropZeros n d).toRat = d.toRat := by
  induction n generalizing d with
  | zero => rfl
  | succ n ih =>
    unfold dropZeros
    split
    · next hzero =>
      rw [ih]
      have hcoeff : d.coeff = d.coeff / 10 * 10 ^ 1 := by omega
      have hshift := toRat_shift (d.coeff / 10) 1 d.exp
      rw [← hcoeff, Nat.cast_one] at hshift
      exact hshift
    · rfl

/-- **A quotient in a context** is the exact quotient, rounded. -/
theorem toRat_div {prec : ℕ} (hprec : 0 < prec) (a : Dec) {b : Dec} (hb : b.coeff ≠ 0) :
    (div prec a b).toRat = rounded prec (a.toRat / b.toRat) := by
  have hbq : (b.coeff : ℚ) ≠ 0 := by exact_mod_cast hb
  unfold div
  split
  · next hzero => simp [toRat, hzero]
  next ha =>
  dsimp only
  obtain ⟨shift, hshift⟩ : ∃ shift : ℤ, (width b.coeff : ℤ) - width a.coeff + prec + 1 = shift :=
    ⟨_, rfl⟩
  rw [hshift]
  obtain ⟨n, hn⟩ : ∃ n, a.coeff * 10 ^ shift.toNat = n := ⟨_, rfl⟩
  obtain ⟨m, hm⟩ : ∃ m, b.coeff * 10 ^ (-shift).toNat = m := ⟨_, rfl⟩
  have hmpos : 0 < m := hm ▸ Nat.mul_pos (Nat.pos_of_ne_zero hb) (by positivity)
  have hmq : (0 : ℚ) < m := by exact_mod_cast hmpos
  -- the two scaled coefficients differ by the shift from those of the operands
  have hquotient : (n : ℚ) / m = a.coeff / b.coeff * (10 : ℚ) ^ shift := by
    have hpow : (10 : ℚ) ^ shift = (10 : ℚ) ^ shift.toNat / (10 : ℚ) ^ (-shift).toNat := by
      rw [← zpow_natCast, ← zpow_natCast, ← zpow_sub₀ (by norm_num)]
      congr 1
      omega
    rw [← hn, ← hm, hpow]
    push_cast
    field_simp
  have hvalue : a.toRat / b.toRat = (n : ℚ) / m * (10 : ℚ) ^ (a.exp - b.exp - shift) := by
    have hexp : (10 : ℚ) ^ shift * (10 : ℚ) ^ (a.exp - b.exp - shift) =
        (10 : ℚ) ^ a.exp / (10 : ℚ) ^ b.exp := by
      rw [← zpow_add₀ (by norm_num), ← zpow_sub₀ (by norm_num)]
      congr 1
      ring
    rw [hquotient, mul_assoc, hexp, toRat, toRat]
    field_simp
  have hpositive : 0 < (n : ℚ) / m := by
    have hnpos : 0 < n := hn ▸ Nat.mul_pos (Nat.pos_of_ne_zero ha) (by positivity)
    exact div_pos (by exact_mod_cast hnpos) hmq
  rw [hn, hm, hvalue, rounded_mul_zpow prec hpositive]
  split
  · next hmod =>
    have hexact : ((n / m : ℕ) : ℚ) = (n : ℚ) / m := Nat.cast_div (Nat.dvd_of_mod_eq_zero hmod) hmq.ne'
    rw [toRat_roundHalfEven, toRat_dropZeros, toRat, hexact, rounded_mul_zpow prec hpositive]
  · next hmod =>
    have hq : ((n / m : ℕ) : ℚ) < (n : ℚ) / m := by
      rw [lt_div_iff₀ hmq]
      have hlt : n / m * m < n := by
        have := Nat.div_add_mod' n m
        omega
      exact_mod_cast hlt
    have hq' : (n : ℚ) / m < ((n / m : ℕ) : ℚ) + 1 := by
      rw [div_lt_iff₀ hmq]
      have hlt : n < (n / m + 1) * m := by
        have hsplit := Nat.div_add_mod' n m
        have hmod := Nat.mod_lt n hmpos
        rw [Nat.add_mul, Nat.one_mul]
        omega
      exact_mod_cast hlt
    have hlow : (10 : ℚ) ^ prec ≤ (n : ℚ) / m := by
      have hbpos : (0 : ℚ) < b.coeff := by exact_mod_cast Nat.pos_of_ne_zero hb
      rw [hquotient, div_mul_eq_mul_div, le_div_iff₀ hbpos]
      calc (10 : ℚ) ^ prec * b.coeff ≤ (10 : ℚ) ^ (prec : ℤ) * (10 : ℚ) ^ (width b.coeff : ℤ) := by
            rw [zpow_natCast, zpow_natCast]
            exact mul_le_mul_of_nonneg_left (by exact_mod_cast (width_le_iff.1 le_rfl).le)
              (by positivity)
        _ = (10 : ℚ) ^ ((width a.coeff : ℤ) - 1) * (10 : ℚ) ^ shift := by
            rw [← zpow_add₀ (by norm_num), ← zpow_add₀ (by norm_num), ← hshift]
            congr 1
            ring
        _ ≤ a.coeff * (10 : ℚ) ^ shift := by
            refine mul_le_mul_of_nonneg_right ?_ (pow_ten_pos _).le
            have hlog := log_toRat (d := ⟨a.coeff, 0⟩) ha
            have hcoeff : (⟨a.coeff, 0⟩ : Dec).toRat = a.coeff := by simp [toRat]
            rw [hcoeff, add_zero] at hlog
            exact ((log_eq_iff (by exact_mod_cast Nat.pos_of_ne_zero ha) _).1 hlog).1
    have hsticky : (if n / m % 5 = 0 then n / m + 1 else n / m) = sticky (n / m) := rfl
    have hpos' : (0 : ℚ) < sticky (n / m) := by exact_mod_cast sticky_pos (n / m)
    rw [toRat_roundHalfEven, hsticky, toRat, rounded_mul_zpow prec hpos',
      rounded_sticky hprec hlow hq hq']

end Dec
