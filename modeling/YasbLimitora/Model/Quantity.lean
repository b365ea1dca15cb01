import Mathlib
import YasbLimitora.Lib.DecimalText
import YasbLimitora.Model.Identity
import YasbLimitora.Model.Vocabulary

/-!
# Quantities

The canonical form of a quota quantity (`_canonical_decimal` and `QuotaQuantity` of
`model.py`). A quantity carries the proof that its value came out of
`YasbLimitora.canonicalDecimal` and its unit out of
`YasbLimitora.canonicalIdentity`, so that no other quantity can be built.

The source normalizes a decimal by its digits: it strips the zeros that end them, and refuses what
has more than 128 significant digits or a text of more than 256 characters. The definition here does
the same steps on the same data. What it comes to in closed form is in
`YasbLimitora.Model.CanonicalDecimal`, and only that is used elsewhere.

A value that is not finite, or negative, is refused, but for the negative zero, which is a zero:
`YasbLimitora.PyDecimal` keeps the sign and the special values apart for this reason.
-/

namespace YasbLimitora

def MAX_QUANTITY_SIGNIFICANT_DIGITS : ℕ := 128

def MAX_QUANTITY_TEXT_LENGTH : ℕ := 256

/-- A `Decimal` of the standard library: a signed decimal, or an infinity or a NaN. -/
inductive PyDecimal
  | finite (negative : Bool) (magnitude : Dec)
  | special
deriving DecidableEq, Repr

/-- The loop of `canonicalDecimal` that takes the trailing zeros off; the digits are
listed from the last. -/
def stripTrailing : List ℕ → ℤ → List ℕ × ℤ
  | 0 :: digits, exponent => stripTrailing digits (exponent + 1)
  | digits, exponent => (digits, exponent)

/-- `str.rstrip` of one character. -/
def rstrip (c : Char) (l : List Char) : List Char := (l.reverse.dropWhile (· == c)).reverse

/-- Fixed-point text without the zeros and the point that end its fraction. -/
def trimFixed (fixed : List Char) : List Char :=
  if '.' ∈ fixed then rstrip '.' (rstrip '0' fixed) else fixed

def canonicalDecimal : PyDecimal → Except String Dec
  | .special => .error "invalid quota quantity"
  | .finite negative value =>
    if negative && value.coeff != 0 then .error "invalid quota quantity"
    else if value.coeff = 0 then .ok ⟨0, 0⟩
    else
      let (digits, exponent) := stripTrailing (Nat.digits 10 value.coeff) value.exp
      let position := digits.length + exponent
      let renderedLength :=
        if position ≤ 0 then 2 - position + digits.length
        else if digits.length ≤ position then position
        else digits.length + 1
      if MAX_QUANTITY_SIGNIFICANT_DIGITS < digits.length ∨
          (MAX_QUANTITY_TEXT_LENGTH : ℤ) < renderedLength then
        .error "quota quantity exceeds canonical limits"
      else
        let canonical := trimFixed (Dec.fixedText ⟨Nat.ofDigits 10 digits, exponent⟩)
        if MAX_QUANTITY_TEXT_LENGTH < canonical.length then
          .error "quota quantity exceeds canonical limits"
        else .ok (Dec.ofFixed canonical)

/-- The values a quota quantity can have. -/
def IsCanonicalDecimal (d : Dec) : Prop := ∃ value, canonicalDecimal value = .ok d

variable [UnicodeData]

/-- A sanitized quota quantity. -/
structure QuotaQuantity where
  value : Dec
  metric : QuotaMetricKind
  unit : String
  value_canonical : IsCanonicalDecimal value
  unit_identity : IsIdentity unit
deriving DecidableEq

/-- The constructor of a quantity, its arguments checked in the order of the source. -/
def QuotaQuantity.make (value : PyDecimal) (metric : QuotaMetricKind) (unit : String) :
    Except String QuotaQuantity :=
  match hv : canonicalDecimal value, hu : canonicalIdentity unit "invalid quota unit" with
  | .ok v, .ok u => .ok ⟨v, metric, u, ⟨_, hv⟩, ⟨_, _, hu⟩⟩
  | .error e, _ => .error e
  | .ok _, .error e => .error e

/-- A quantity is made of a canonical value and a canonical unit. -/
theorem QuotaQuantity.make_eq_ok {value : PyDecimal} {metric : QuotaMetricKind} {unit : String}
    {v : Dec} {u : String} (hv : canonicalDecimal value = .ok v)
    (hu : canonicalIdentity unit "invalid quota unit" = .ok u) :
    QuotaQuantity.make value metric unit = .ok ⟨v, metric, u, ⟨_, hv⟩, ⟨_, _, hu⟩⟩ := by
  unfold QuotaQuantity.make
  split
  · next v' u' hv' hu' =>
    obtain rfl := Except.ok.inj (hv.symm.trans hv')
    obtain rfl := Except.ok.inj (hu.symm.trans hu')
    rfl
  · next e he => rw [hv] at he; cases he
  · next e _ he => rw [hu] at he; cases he

end YasbLimitora
