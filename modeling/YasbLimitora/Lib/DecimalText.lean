import Mathlib
import YasbLimitora.Lib.Decimal

/-!
# Decimal text

Natural numbers and decimals as the characters they are written with, and back.

* `natText` writes a natural number without leading zeros; `readNat` reads any run
  of digits. `readNat_natText` and `natText_readNat` say the two are inverse on the
  digit runs that have no leading zero.
* `Dec.fixedText` writes a decimal in fixed point, without an exponent;
  `Dec.ofFixed` reads such text back, and `Dec.ofFixed_fixedText` is the round trip.

The readers are total: what is no digit counts as none, and the theorems say for which texts they
are inverse to the writers. A text is what a program puts in a message, so that its length matters
as much as its digits: `DecimalText.length_natText` and `DecimalText.length_padded` count them by
logarithms, without writing anything.
-/

namespace DecimalText

/-! ### Digits -/

/-- The character of a digit. -/
def digit (d : ℕ) : Char := Nat.digitChar d

/-- The value of a digit character. -/
def digitVal (c : Char) : ℕ := c.toNat - '0'.toNat

/-- The ASCII digits. -/
def isDigit (c : Char) : Bool := '0' ≤ c && c ≤ '9'

/-- A digit has the value that it was written of. -/
theorem digitVal_digit {d : ℕ} (h : d < 10) : digitVal (digit d) = d := by
  interval_cases d <;> rfl

theorem isDigit_digit {d : ℕ} (h : d < 10) : isDigit (digit d) = true := by
  interval_cases d <;> rfl

theorem digit_eq_zero_iff {d : ℕ} (h : d < 10) : digit d = '0' ↔ d = 0 := by
  interval_cases d <;> decide

theorem digitVal_lt {c : Char} (h : isDigit c = true) : digitVal c < 10 := by
  simp only [isDigit, Bool.and_eq_true, decide_eq_true_eq, Char.le_def, UInt32.le_iff_toNat_le] at h
  obtain ⟨h0, h9⟩ := h
  change c.toNat ≤ 57 at h9
  change c.toNat - 48 < 10
  omega

theorem digit_digitVal {c : Char} (h : isDigit c = true) : digit (digitVal c) = c := by
  have hlt := digitVal_lt h
  simp only [isDigit, Bool.and_eq_true, decide_eq_true_eq, Char.le_def, UInt32.le_iff_toNat_le] at h
  obtain ⟨h0, h9⟩ := h
  change 48 ≤ c.toNat at h0
  have hc : c = Char.ofNat c.toNat := (Char.ofNat_toNat c).symm
  have hv : c.toNat = 48 + digitVal c := by
    change c.toNat = 48 + (c.toNat - 48)
    omega
  rw [hc, hv]
  generalize digitVal c = d at hlt
  interval_cases d <;> rfl

/-! ### Natural numbers -/

/-- A natural number in decimal digits. -/
def natText (n : ℕ) : List Char :=
  if n = 0 then ['0'] else (Nat.digits 10 n).reverse.map digit

/-- The number a run of digits stands for. -/
def readNat (l : List Char) : ℕ := l.foldl (fun n c => 10 * n + digitVal c) 0

@[simp] theorem readNat_nil : readNat [] = 0 := rfl

/-- One more digit is ten times as much, and the digit. -/
theorem readNat_concat (l : List Char) (c : Char) :
    readNat (l ++ [c]) = 10 * readNat l + digitVal c := by
  simp [readNat]

/-- Digits in front count for the power of ten of those behind. -/
theorem readNat_append (l m : List Char) :
    readNat (l ++ m) = readNat l * 10 ^ m.length + readNat m := by
  induction m using List.reverseRecOn with
  | nil => simp
  | append_singleton m c ih =>
    rw [← List.append_assoc, readNat_concat, readNat_concat, ih, List.length_append,
      List.length_singleton, pow_succ]
    ring

/-- As many digits as this write less than that power of ten. -/
theorem readNat_lt {l : List Char} (h : l.all isDigit = true) : readNat l < 10 ^ l.length := by
  induction l using List.reverseRecOn with
  | nil => simp
  | append_singleton l c ih =>
    simp only [List.all_append, List.all_cons, List.all_nil, Bool.and_true, Bool.and_eq_true] at h
    have hl := ih h.1
    have hc := digitVal_lt h.2
    rw [readNat_concat, List.length_append, List.length_singleton, pow_succ]
    omega

/-- Written digits are read as the number that they are the digits of. -/
theorem readNat_map_digits {ds : List ℕ} (h : ∀ d ∈ ds, d < 10) :
    readNat (ds.reverse.map digit) = Nat.ofDigits 10 ds := by
  induction ds with
  | nil => rfl
  | cons d ds ih =>
    have hd : d < 10 := h d (List.mem_cons_self ..)
    have hone : readNat [digit d] = d := by simp [readNat, digitVal_digit hd]
    rw [List.reverse_cons, List.map_append, readNat_append,
      ih fun e he => h e (List.mem_cons_of_mem _ he), List.map_singleton, hone, Nat.ofDigits_cons]
    simp only [List.length_singleton, pow_one]
    ring

/-- **Reading what was written gives the number back.** -/
@[simp] theorem readNat_natText (n : ℕ) : readNat (natText n) = n := by
  rw [natText]
  split
  · next h => subst h; rfl
  · rw [readNat_map_digits fun d hd => Nat.digits_lt_base (by norm_num) hd, Nat.ofDigits_digits]

theorem natText_ne_nil (n : ℕ) : natText n ≠ [] := by
  rw [natText]
  split
  · simp
  · next h => simpa [Nat.digits_ne_nil_iff_ne_zero] using h

theorem all_isDigit_natText (n : ℕ) : (natText n).all isDigit = true := by
  rw [natText]
  split
  · rfl
  · rw [List.all_eq_true]
    intro c hc
    obtain ⟨d, hd, rfl⟩ := List.mem_map.mp hc
    exact isDigit_digit (Nat.digits_lt_base (by norm_num) (List.mem_reverse.mp hd))

/-- A number other than zero is written without a leading zero. -/
theorem head_natText_ne_zero {n : ℕ} (h : n ≠ 0) : (natText n).head (natText_ne_nil n) ≠ '0' := by
  have hne : Nat.digits 10 n ≠ [] := Nat.digits_ne_nil_iff_ne_zero.mpr h
  have hlast : (Nat.digits 10 n).getLast hne ≠ 0 := Nat.getLast_digit_ne_zero 10 h
  have hlt : (Nat.digits 10 n).getLast hne < 10 :=
    Nat.digits_lt_base (by norm_num) (List.getLast_mem hne)
  simp only [natText, if_neg h, List.head_map, List.head_reverse]
  exact fun he => hlast ((digit_eq_zero_iff hlt).mp he)

/-- A number takes as many digits as it has. -/
theorem length_natText {n : ℕ} (h : n ≠ 0) : (natText n).length = Dec.width n := by
  rw [natText, if_neg h, List.length_map, List.length_reverse, Dec.width]

/-- **A run of digits without a leading zero is the text of its number.** -/
theorem natText_readNat {l : List Char} (hd : l.all isDigit = true) (hne : l ≠ [])
    (hz : l.head hne ≠ '0') : natText (readNat l) = l := by
  have hds : ∀ d ∈ (l.map digitVal).reverse, d < 10 := by
    intro d h
    obtain ⟨c, hc, rfl⟩ := List.mem_map.mp (List.mem_reverse.mp h)
    exact digitVal_lt (List.all_eq_true.mp hd c hc)
  have hback : (l.map digitVal).reverse.reverse.map digit = l := by
    rw [List.reverse_reverse, List.map_map]
    refine (List.map_congr_left fun c hc => ?_).trans (List.map_id l)
    exact digit_digitVal (List.all_eq_true.mp hd c hc)
  have hread : readNat l = Nat.ofDigits 10 (l.map digitVal).reverse := by
    conv_lhs => rw [← hback]
    exact readNat_map_digits hds
  have hdigits : Nat.digits 10 (readNat l) = (l.map digitVal).reverse := by
    rw [hread]
    refine Nat.digits_ofDigits 10 (by norm_num) _ hds fun hnil => ?_
    rw [List.getLast_reverse, List.head_map]
    intro h0
    have hc := digit_digitVal (List.all_eq_true.mp hd _ (List.head_mem hne))
    rw [h0] at hc
    exact hz hc.symm
  have hnz : readNat l ≠ 0 := by
    intro h0
    rw [h0, Nat.digits_zero] at hdigits
    exact hne (by simpa using hdigits.symm)
  rw [natText, if_neg hnz, hdigits, hback]

/-! ### Digits after the point -/

/-- Exactly `k` digits of a number below `10 ^ k`, with leading zeros. -/
def padded : ℕ → ℕ → List Char
  | 0, _ => []
  | k + 1, n => digit (n / 10 ^ k % 10) :: padded k n

@[simp] theorem length_padded (k n : ℕ) : (padded k n).length = k := by
  induction k with
  | zero => rfl
  | succ k ih => rw [padded, List.length_cons, ih]

theorem all_isDigit_padded (k n : ℕ) : (padded k n).all isDigit = true := by
  induction k with
  | zero => rfl
  | succ k ih =>
    rw [padded, List.all_cons, ih, isDigit_digit (Nat.mod_lt _ (by norm_num))]
    rfl

/-- Of a number in a fixed width the last digits are left. -/
theorem readNat_padded (k n : ℕ) : readNat (padded k n) = n % 10 ^ k := by
  induction k with
  | zero => rw [padded, readNat_nil, pow_zero, Nat.mod_one]
  | succ k ih =>
    have hlt : n / 10 ^ k % 10 < 10 := Nat.mod_lt _ (by norm_num)
    have hone : readNat [digit (n / 10 ^ k % 10)] = n / 10 ^ k % 10 := by
      simp [readNat, digitVal_digit hlt]
    rw [padded, ← List.singleton_append, readNat_append, hone, length_padded, ih, Nat.mod_pow_succ]
    ring

end DecimalText

namespace Dec

open DecimalText

/-! ### Fixed-point text -/

/-- A decimal in fixed point. -/
def fixedText (d : Dec) : List Char :=
  if 0 ≤ d.exp then natText (d.coeff * 10 ^ d.exp.toNat)
  else natText (d.coeff / 10 ^ (-d.exp).toNat) ++ '.' :: padded (-d.exp).toNat d.coeff

/-- The decimal that fixed-point text stands for: the digits on both sides of the
point, and as many places as follow it. -/
def ofFixed (l : List Char) : Dec :=
  let whole := l.takeWhile (· != '.')
  let places := (l.dropWhile (· != '.')).tail
  ⟨readNat (whole ++ places), -(places.length : ℤ)⟩

theorem ne_point_of_isDigit {c : Char} (h : isDigit c = true) : (c != '.') = true := by
  rw [bne_iff_ne]
  rintro rfl
  exact absurd h (by decide)

theorem takeWhile_ne_point {l m : List Char} (hl : l.all isDigit = true) :
    (l ++ '.' :: m).takeWhile (· != '.') = l := by
  rw [List.takeWhile_append_of_pos fun c hc => ne_point_of_isDigit (List.all_eq_true.mp hl c hc)]
  simp

theorem dropWhile_ne_point {l m : List Char} (hl : l.all isDigit = true) :
    (l ++ '.' :: m).dropWhile (· != '.') = '.' :: m := by
  rw [List.dropWhile_append_of_pos fun c hc => ne_point_of_isDigit (List.all_eq_true.mp hl c hc)]
  simp

/-- Without a point the exponent is zero. -/
theorem ofFixed_of_digits {l : List Char} (hl : l.all isDigit = true) :
    ofFixed l = ⟨readNat l, 0⟩ := by
  have hp : ∀ c ∈ l, (c != '.') = true := fun c hc =>
    ne_point_of_isDigit (List.all_eq_true.mp hl c hc)
  have ht : l.takeWhile (· != '.') = l := List.takeWhile_eq_self_iff.mpr hp
  have hd : l.dropWhile (· != '.') = [] := List.dropWhile_eq_nil_iff.mpr hp
  simp [ofFixed, ht, hd]

/-- The point is taken out, and the exponent says where it was. -/
theorem ofFixed_of_point {l m : List Char} (hl : l.all isDigit = true) :
    ofFixed (l ++ '.' :: m) = ⟨readNat (l ++ m), -(m.length : ℤ)⟩ := by
  rw [ofFixed, takeWhile_ne_point hl, dropWhile_ne_point hl]
  rfl

/-- **The round trip of fixed-point text**, for a decimal without a positive
exponent. -/
theorem ofFixed_fixedText {d : Dec} (h : d.exp ≤ 0) : ofFixed d.fixedText = d := by
  obtain ⟨c, e⟩ := d
  rw [fixedText]
  split
  · next h0 =>
    have he : e = 0 := le_antisymm h h0
    subst he
    rw [ofFixed_of_digits (all_isDigit_natText _), readNat_natText]
    simp
  · obtain ⟨k, hk⟩ : ∃ k, (-e).toNat = k := ⟨_, rfl⟩
    have hke : -(k : ℤ) = e := by
      change e ≤ 0 at h
      omega
    rw [ofFixed_of_point (all_isDigit_natText _), readNat_append, readNat_natText]
    simp only [hk, length_padded, readNat_padded, hke, Nat.div_add_mod']

end Dec
