import Mathlib
import YasbLimitora.Model.CanonicalDecimal
import YasbLimitora.Projection.Project

/-!
# One text for a quantity

A quantity is written three times: by the projector, by the payload of the helper and by
the parser, which compares. All write the same text, the shortest fixed-point text of the
value, because a quantity holds a canonical decimal (`YasbLimitora.canonical_decimals`).

The three functions get there by different ways. One strips the zeros of a fixed-point text, one
formats what is already normal, and the third formats what it has parsed and refuses a text that is
not this one. `YasbLimitora.canonical_decimals_padded` shows that the last is strict: the same value
with a zero at its end is refused.
-/

namespace YasbLimitora

/-- The projector writes a normal decimal as it is. -/
theorem renderDecimal_eq {d : Dec} (h : d.IsNormal) : renderDecimal d = d.fixedText := by
  obtain ⟨c, l, htext, -⟩ := head_fixedText d
  rw [renderDecimal, trimFixed_fixedText h]
  exact if_neg (by simp [htext])

variable [UnicodeData]

/-- `_quantity_payload`: a quantity on its way out of the helper. -/
structure QuantityPayload where
  metric : String
  value : String
  unit : String
deriving DecidableEq, Repr

def quantityPayload (quantity : QuotaQuantity) : QuantityPayload where
  metric := quantity.metric.value
  value := String.ofList quantity.value.fixedText
  unit := quantity.unit

/-- What is shown of a quantity is its value in digits, with no exponent. -/
theorem projectQuantity_value {q : QuotaQuantity} {item : QuantityItem}
    (h : projectQuantity q = .ok item) : item.value = String.ofList q.value.fixedText := by
  have hnormal := (IsCanonicalDecimal.isWithinLimits q.value_canonical).isNormal
  unfold projectQuantity at h
  rcases hunit : identityText q.unit "invalid current unit" with e | unit
  · rw [hunit] at h
    exact nomatch h
  · rw [hunit] at h
    obtain rfl := Except.ok.inj h
    exact congrArg String.ofList (renderDecimal_eq hnormal)

/-- Neither negative nor special: a zero may have a sign. -/
def NotNegative (negative : Bool) (d : Dec) : Prop := negative = true → d.coeff = 0

/-- What there is to say of the canonical form of a decimal. -/
structure CanonicalForm (negative : Bool) (d : Dec) : Prop where
  raises_iff : (∃ message, canonicalDecimal (.finite negative d) = .error message) ↔
    128 < Dec.significantDigits d.coeff ∨ 256 < d.plainText.length
  exact : ∀ r, canonicalDecimal (.finite negative d) = .ok r → r.toRat = d.toRat
  unique : ∀ negative' d', NotNegative negative' d' → d'.toRat = d.toRat →
    canonicalDecimal (.finite negative' d') = canonicalDecimal (.finite negative d)
  parses : ∀ r, canonicalDecimal (.finite negative d) = .ok r →
    parseCanonicalDecimal (Text.ofChars r.fixedText) = .ok r
  no_other_text : ∀ r, canonicalDecimal (.finite negative d) = .ok r → ∀ value r',
    parseCanonicalDecimal value = .ok r' → r'.toRat = d.toRat → value = Text.ofChars r.fixedText
  projected : ∀ q : QuotaQuantity, canonicalDecimal (.finite negative d) = .ok q.value →
    ∀ item, projectQuantity q = .ok item → item.value = String.ofList q.value.fixedText
  payload : ∀ q : QuotaQuantity, canonicalDecimal (.finite negative d) = .ok q.value →
    (quantityPayload q).value = String.ofList q.value.fixedText

/-- **Canonical decimals**: an exact value, one result for it, one text. -/
theorem canonical_decimals {negative : Bool} {d : Dec} (hsign : NotNegative negative d) :
    CanonicalForm negative d where
  raises_iff := by
    rw [canonicalDecimal_eq hsign]
    split
    · next hlimits => exact iff_of_true ⟨_, rfl⟩ hlimits
    · next hlimits => exact iff_of_false (fun ⟨_, h⟩ => nomatch h) hlimits
  exact := by
    intro r hr
    rw [(isWithinLimits_of_canonicalDecimal hsign hr).1, Dec.toRat_normal]
  unique := by
    intro negative' d' hsign' hvalue
    have hnormal := Dec.normal_eq_normal hvalue
    rw [canonicalDecimal_eq hsign, canonicalDecimal_eq hsign', ← Dec.significantDigits_normal d',
      ← Dec.significantDigits_normal d, Dec.plainText, Dec.plainText, hnormal]
  parses := by
    intro r hr
    exact parseCanonicalDecimal_eq_ok_iff.2 ⟨(isWithinLimits_of_canonicalDecimal hsign hr).2, rfl⟩
  no_other_text := by
    intro r hr value r' hr' hvalue
    obtain ⟨rfl, hlimits⟩ := isWithinLimits_of_canonicalDecimal hsign hr
    obtain ⟨hlimits', rfl⟩ := parseCanonicalDecimal_eq_ok_iff.1 hr'
    rw [hlimits'.isNormal.eq hlimits.isNormal (hvalue.trans (Dec.toRat_normal d).symm)]
  projected := fun _ _ _ hitem => projectQuantity_value hitem
  payload := fun _ _ => rfl

omit [UnicodeData] in
/-- A value with zeros at its end is read, and written without them. -/
theorem canonical_decimals_padded :
    letI := UnicodeData.ascii
    CanonicalForm true ⟨0, -3⟩ ∧ CanonicalForm false ⟨150, -2⟩ := by
  let _ := UnicodeData.ascii
  exact ⟨canonical_decimals fun _ => rfl, canonical_decimals nofun⟩

end YasbLimitora
