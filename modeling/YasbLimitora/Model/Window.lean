import Mathlib
import YasbLimitora.Lib.Decimal
import YasbLimitora.Lib.Instant
import YasbLimitora.Model.Quantity

/-!
# Quota windows

The window record of `model.py` and the check its constructor makes of the three
quantities. The comparisons of the source are exact, and its one sum, of what is
used and what remains, is rounded to the 28 digits of the default decimal context.

`YasbLimitora.knownWindow_exact_iff` says for which quantities the check is the
exact one: where the sum fits in 28 significant digits, and otherwise where the
limit is neither the exact sum nor the rounded one.

The reason to state when the check is exact is that the check is what everything else trusts. A
window that passes it is shown with a percentage, and its numbers are not compared again. The
theorem is about the constructor and not about the sum alone, so that all the other conditions of a
known window, on the measures and on the comparisons with the limit, are in it.
-/

namespace YasbLimitora

/-! ### The checks -/

/-- The precision of the default decimal context. -/
def defaultPrecision : ℕ := 28

/-- The metric the quantities of a window must have; a window of the kind `other`
takes any. -/
def QuotaWindowKind.expectedMetric : QuotaWindowKind → Option QuotaMetricKind
  | .commercialQuota => some .commercialQuota
  | .technicalRateLimit => some .technicalRateLimit
  | .other => none

/-- The checks of a window with a limit. -/
def checkLimit (limit : Dec) (used remaining : Option Dec) : Except String Unit :=
  if used.any fun u => ¬u.le limit then .error "used quota cannot exceed limit"
  else if remaining.any fun r => ¬r.le limit then .error "remaining quota cannot exceed limit"
  else
    match used, remaining with
    | some u, some r =>
      if (Dec.add defaultPrecision u r).same limit then .ok ()
      else .error "used and remaining quota must equal limit"
    | _, _ => .ok ()

theorem any_not_le_iff {o : Option Dec} {limit : Dec} :
    (o.any fun d => ¬d.le limit) ↔ ¬∀ d ∈ o, d.toRat ≤ limit.toRat := by
  cases o with
  | none => simp
  | some d => simp [Dec.le_iff]

theorem checkLimit_eq_ok_iff {limit : Dec} {used remaining : Option Dec} :
    checkLimit limit used remaining = .ok () ↔
      (∀ u ∈ used, u.toRat ≤ limit.toRat) ∧ (∀ r ∈ remaining, r.toRat ≤ limit.toRat) ∧
        ∀ u ∈ used, ∀ r ∈ remaining, (Dec.add defaultPrecision u r).toRat = limit.toRat := by
  simp only [checkLimit, ← Dec.same_iff]
  split
  · next hu => exact iff_of_false nofun fun h => any_not_le_iff.1 hu h.1
  · next hu =>
    rw [any_not_le_iff, not_not] at hu
    split
    · next hr => exact iff_of_false nofun fun h => any_not_le_iff.1 hr h.2.1
    · next hr =>
      rw [any_not_le_iff, not_not] at hr
      rcases used with _ | u <;> rcases remaining with _ | r
      · simp
      · simpa using hr
      · simpa using hu
      · have hu := hu u rfl
        have hr := hr r rfl
        simp [hu, hr]

theorem dedup_length_of_forall_eq {α : Type} [DecidableEq α] {l : List α} {a : α} (hl : l ≠ [])
    (h : ∀ x ∈ l, x = a) : l.dedup.length = 1 := by
  rw [List.eq_replicate_of_mem h, List.replicate_dedup (by simpa using hl), List.length_singleton]

/-- Accepting a triple by the rounded sum and accepting it by the exact one come to the
same thing exactly where rounding settles nothing. -/
theorem rounded_iff_exact {prec : ℕ} {u r l : Dec} :
    ((Dec.add prec u r).toRat = l.toRat ↔ u.toRat + r.toRat = l.toRat) ↔
      Dec.significantDigits (Dec.exactAdd u r).coeff ≤ prec ∨
        (Dec.exactAdd u r).toRat ≠ l.toRat ∧
          (Dec.roundHalfEven prec (Dec.exactAdd u r)).toRat ≠ l.toRat := by
  rw [← Dec.toRat_add_eq_iff, ← Dec.toRat_exactAdd, Dec.add]
  constructor
  · intro h
    by_cases hl : (Dec.exactAdd u r).toRat = l.toRat
    · exact Or.inl ((h.2 hl).trans hl.symm)
    · exact Or.inr ⟨hl, fun hr => hl (h.1 hr)⟩
  · rintro (h | ⟨h₁, h₂⟩)
    · rw [h]
    · exact iff_of_false h₂ h₁

def checkSourceId (value : Option String) : Except String Unit :=
  if value.any fun s => s ∉ SAFE_SOURCE_IDS then .error "invalid source id" else .ok ()

theorem mem_of_checkSourceId {value : Option String} (h : checkSourceId value = .ok ()) :
    ∀ s, value = some s → s ∈ SAFE_SOURCE_IDS := by
  rintro s rfl
  by_contra hs
  rw [checkSourceId, if_pos (by simpa using hs)] at h
  cases h

/-! ### The record -/

section Record

variable [UnicodeData]

/-- The checks of `QuotaWindowView.__post_init__` on availability and values. -/
def checkValues (kind : QuotaWindowKind) (availability : QuotaAvailability)
    (limit used remaining : Option QuotaQuantity) (resetAt : Option Instant) :
    Except String Unit :=
  let values := [limit, used, remaining].reduceOption
  if availability = .known then
    if values.isEmpty then .error "known quota window requires a quantity"
    else if kind.expectedMetric.any fun expected => values.any fun q => q.metric ≠ expected then
      .error "quota quantities must match their window kind"
    else if (values.map fun q => (q.metric, q.unit)).dedup.length ≠ 1 then
      .error "quota quantities must use the same metric and unit"
    else
      match limit with
      | some l => checkLimit l.value (used.map (·.value)) (remaining.map (·.value))
      | none => .ok ()
  else if !values.isEmpty || resetAt.isSome then
    .error "non-known quota cannot contain numeric values or a reset"
  else .ok ()

/-- A sanitized quota window. -/
structure QuotaWindowView where
  kind : QuotaWindowKind
  scope : String
  period : String
  planId : Option String
  availability : QuotaAvailability
  sourceId : Option String
  limit : Option QuotaQuantity
  used : Option QuotaQuantity
  remaining : Option QuotaQuantity
  resetAt : Option Instant
  scope_identity : IsIdentity scope
  period_identity : IsIdentity period
  planId_identity : ∀ p, planId = some p → IsIdentity p
  sourceId_safe : ∀ s, sourceId = some s → s ∈ SAFE_SOURCE_IDS
  values_ok : checkValues kind availability limit used remaining resetAt = .ok ()

/-- A sanitized identity, or nothing where there was none. -/
def optionalIdentity (value : Option String) (message : String) : Except String (Option String) :=
  match value with
  | none => .ok none
  | some v => (canonicalIdentity v message).map some

theorem optionalIdentity_isIdentity {value : Option String} {message : String}
    {p : Option String} (h : optionalIdentity value message = .ok p) :
    ∀ s, p = some s → IsIdentity s := by
  rintro s rfl
  cases value with
  | none => cases h
  | some v =>
    cases hv : canonicalIdentity v message with
    | error e =>
      rw [optionalIdentity, hv] at h
      cases h
    | ok w =>
      rw [optionalIdentity, hv] at h
      obtain rfl := Option.some.inj (Except.ok.inj h)
      exact ⟨_, _, hv⟩

/-- The constructor of a window. -/
def QuotaWindowView.make (kind : QuotaWindowKind) (scope period : String)
    (planId : Option String) (availability : QuotaAvailability) (sourceId : Option String)
    (limit used remaining : Option QuotaQuantity) (resetAt : Option Instant) :
    Except String QuotaWindowView :=
  match hs : canonicalIdentity scope "invalid quota scope" with
  | .error e => .error e
  | .ok s =>
    match hp : canonicalIdentity period "invalid quota period" with
    | .error e => .error e
    | .ok p =>
      match hq : optionalIdentity planId "invalid quota plan id" with
      | .error e => .error e
      | .ok q =>
        match hi : checkSourceId sourceId with
        | .error e => .error e
        | .ok () =>
          match hv : checkValues kind availability limit used remaining resetAt with
          | .error e => .error e
          | .ok () => .ok
              ⟨kind, s, p, q, availability, sourceId, limit, used, remaining, resetAt,
                ⟨_, _, hs⟩, ⟨_, _, hp⟩, optionalIdentity_isIdentity hq, mem_of_checkSourceId hi,
                hv⟩

/-- A constructor call whose texts are all admitted returns a window exactly when the
availability and the values pass their checks. -/
theorem QuotaWindowView.make_isOk_iff {kind : QuotaWindowKind} {scope period : String}
    {planId : Option String} {availability : QuotaAvailability} {sourceId : Option String}
    {limit used remaining : Option QuotaQuantity} {resetAt : Option Instant}
    (hs : (canonicalIdentity scope "invalid quota scope").isOk)
    (hp : (canonicalIdentity period "invalid quota period").isOk)
    (hq : (optionalIdentity planId "invalid quota plan id").isOk)
    (hi : (checkSourceId sourceId).isOk) :
    (QuotaWindowView.make kind scope period planId availability sourceId limit used remaining
        resetAt).isOk ↔
      checkValues kind availability limit used remaining resetAt = .ok () := by
  unfold QuotaWindowView.make
  split
  · next he => rw [he] at hs; cases hs
  split
  · next he => rw [he] at hp; cases hp
  split
  · next he => rw [he] at hq; cases hq
  split
  · next he => rw [he] at hi; cases hi
  split
  · next he => exact iff_of_false Bool.false_ne_true (by rw [he]; exact nofun)
  · next he => exact iff_of_true rfl he

/-! ### The exact check -/

/-- **What the check is for**: in exact arithmetic, and as far as the operands are
there, neither the used nor the remaining quantity exceeds the limit, and the two add
up to it. -/
def ExactlyConsistent (limit used remaining : Option QuotaQuantity) : Prop :=
  ∀ l ∈ limit, (∀ u ∈ used, u.value.toRat ≤ l.value.toRat) ∧
    (∀ r ∈ remaining, r.value.toRat ≤ l.value.toRat) ∧
    ∀ u ∈ used, ∀ r ∈ remaining, u.value.toRat + r.value.toRat = l.value.toRat

/-- The quantities that are there have one metric and one unit, and the metric is the
one of the window kind. -/
def SameMeasure (kind : QuotaWindowKind) (limit used remaining : Option QuotaQuantity) : Prop :=
  ∃ metric unit, (∀ expected ∈ kind.expectedMetric, metric = expected) ∧
    ∀ q ∈ [limit, used, remaining].reduceOption, q.metric = metric ∧ q.unit = unit

/-- The triples on which rounding decides nothing: the sum has at most 28 significant
digits, or the limit is neither the sum nor what the sum is rounded to. -/
def RoundingSettled (limit used remaining : Option QuotaQuantity) : Prop :=
  ∀ l ∈ limit, ∀ u ∈ used, ∀ r ∈ remaining,
    u.value.toRat ≤ l.value.toRat → r.value.toRat ≤ l.value.toRat →
      Dec.significantDigits (Dec.exactAdd u.value r.value).coeff ≤ defaultPrecision ∨
        (Dec.exactAdd u.value r.value).toRat ≠ l.value.toRat ∧
          (Dec.roundHalfEven defaultPrecision (Dec.exactAdd u.value r.value)).toRat ≠
            l.value.toRat

theorem checkValues_known_eq_ok_iff {kind : QuotaWindowKind}
    {limit used remaining : Option QuotaQuantity} {resetAt : Option Instant}
    (h : SameMeasure kind limit used remaining) :
    checkValues kind .known limit used remaining resetAt = .ok () ↔
      [limit, used, remaining].reduceOption ≠ [] ∧
        ∀ l ∈ limit, checkLimit l.value (used.map (·.value)) (remaining.map (·.value)) = .ok () := by
  obtain ⟨metric, unit, hkind, hall⟩ := h
  have hmetric : (kind.expectedMetric.any fun expected =>
      [limit, used, remaining].reduceOption.any fun q => q.metric ≠ expected) = false := by
    cases hk : kind.expectedMetric with
    | none => rfl
    | some expected =>
      have hexp : metric = expected := hkind expected hk
      simpa [hexp] using fun q hq => (hall q hq).1.trans hexp
  by_cases hne : [limit, used, remaining].reduceOption = []
  · simp [checkValues, hne]
  have hlen : ([limit, used, remaining].reduceOption.map fun q => (q.metric, q.unit)).dedup.length
      = 1 := by
    refine dedup_length_of_forall_eq (a := (metric, unit)) (by simpa using hne) fun x hx => ?_
    obtain ⟨q, hq, rfl⟩ := List.mem_map.1 hx
    rw [(hall q hq).1, (hall q hq).2]
  have hempty : [limit, used, remaining].reduceOption.isEmpty = false := by
    rwa [List.isEmpty_eq_false_iff]
  simp only [checkValues, if_true, hempty, hmetric, hlen, ne_eq, not_true, if_false,
    Bool.false_eq_true, hne, not_false_iff, true_and]
  cases limit <;> simp

theorem knownWindow_exact_iff {kind : QuotaWindowKind} {scope period : String}
    {planId sourceId : Option String} {limit used remaining : Option QuotaQuantity}
    {resetAt : Option Instant}
    (hs : (canonicalIdentity scope "invalid quota scope").isOk)
    (hp : (canonicalIdentity period "invalid quota period").isOk)
    (hq : (optionalIdentity planId "invalid quota plan id").isOk)
    (hi : (checkSourceId sourceId).isOk) (hm : SameMeasure kind limit used remaining) :
    ((QuotaWindowView.make kind scope period planId .known sourceId limit used remaining
          resetAt).isOk ↔ ExactlyConsistent limit used remaining) ↔
      [limit, used, remaining].reduceOption ≠ [] ∧ RoundingSettled limit used remaining := by
  rw [QuotaWindowView.make_isOk_iff hs hp hq hi, checkValues_known_eq_ok_iff hm]
  rcases limit with _ | l
  · simp [ExactlyConsistent, RoundingSettled]
  have hne : [some l, used, remaining].reduceOption ≠ [] := by simp
  simp only [hne, ne_eq, not_false_iff, true_and, ExactlyConsistent, RoundingSettled,
    Option.mem_def, Option.some.injEq, forall_eq', checkLimit_eq_ok_iff]
  rcases used with _ | u
  · simp
  rcases remaining with _ | r
  · simp
  simp only [Option.map_some, Option.some.injEq, forall_eq', ← rounded_iff_exact]
  -- the comparisons are the same on the two sides: only the sums can disagree
  constructor
  · intro h hu hr
    exact ⟨fun hs => (h.1 ⟨hu, hr, hs⟩).2.2, fun hs => (h.2 ⟨hu, hr, hs⟩).2.2⟩
  · intro h
    exact and_congr_right fun hu => and_congr_right fun hr => h hu hr

end Record

theorem knownWindow_exact_small :
    letI := UnicodeData.ascii
    ∃ used remaining limit : QuotaQuantity,
      QuotaQuantity.make (.finite false ⟨250, -2⟩) .commercialQuota "requests" = .ok used ∧
      QuotaQuantity.make (.finite false ⟨55, -1⟩) .commercialQuota "requests" = .ok remaining ∧
      QuotaQuantity.make (.finite false ⟨8, 0⟩) .commercialQuota "requests" = .ok limit ∧
      ((QuotaWindowView.make .commercialQuota "account" "monthly" none .known none (some limit)
        (some used) (some remaining) none).isOk ↔
        ExactlyConsistent (some limit) (some used) (some remaining)) := by
  let _ := UnicodeData.ascii
  have hu : canonicalDecimal (.finite false ⟨250, -2⟩) = .ok ⟨25, -1⟩ := by decide
  have hr : canonicalDecimal (.finite false ⟨55, -1⟩) = .ok ⟨55, -1⟩ := by decide
  have hl : canonicalDecimal (.finite false ⟨8, 0⟩) = .ok ⟨8, 0⟩ := by decide
  have hunit : canonicalIdentity "requests" "invalid quota unit" = .ok "requests" := by decide
  have hdigits : Dec.significantDigits (Dec.exactAdd ⟨25, -1⟩ ⟨55, -1⟩).coeff ≤ 28 := by decide
  refine ⟨_, _, _, QuotaQuantity.make_eq_ok hu hunit, QuotaQuantity.make_eq_ok hr hunit,
    QuotaQuantity.make_eq_ok hl hunit,
    (knownWindow_exact_iff (by decide) (by decide) (by decide) (by decide) ?_).2 ⟨by simp, ?_⟩⟩
  · exact ⟨.commercialQuota, "requests", by simp [QuotaWindowKind.expectedMetric], by simp⟩
  · rintro _ ⟨⟩ _ ⟨⟩ _ ⟨⟩ - -
    exact Or.inl hdigits

/-- **A window is accepted whose parts do not add up to the limit**, and one is refused
whose parts do: one request more than `10 ^ 28` of them is lost in the rounding. -/
theorem knownWindow_rounded :
    letI := UnicodeData.ascii
    ∃ used remaining limit next : QuotaQuantity,
      QuotaQuantity.make (.finite false ⟨10 ^ 28, 0⟩) .commercialQuota "requests" = .ok used ∧
      QuotaQuantity.make (.finite false ⟨1, 0⟩) .commercialQuota "requests" = .ok remaining ∧
      QuotaQuantity.make (.finite false ⟨10 ^ 28, 0⟩) .commercialQuota "requests" = .ok limit ∧
      QuotaQuantity.make (.finite false ⟨10 ^ 28 + 1, 0⟩) .commercialQuota "requests"
        = .ok next ∧
      ((QuotaWindowView.make .commercialQuota "account" "monthly" none .known none (some limit)
          (some used) (some remaining) none).isOk ∧
        ¬ExactlyConsistent (some limit) (some used) (some remaining)) ∧
      ¬(QuotaWindowView.make .commercialQuota "account" "monthly" none .known none (some next)
          (some used) (some remaining) none).isOk ∧
        ExactlyConsistent (some next) (some used) (some remaining) := by
  let _ := UnicodeData.ascii
  have hl : canonicalDecimal (.finite false ⟨10 ^ 28, 0⟩) = .ok ⟨10 ^ 28, 0⟩ := by decide
  have hr : canonicalDecimal (.finite false ⟨1, 0⟩) = .ok ⟨1, 0⟩ := by decide
  have hn : canonicalDecimal (.finite false ⟨10 ^ 28 + 1, 0⟩) = .ok ⟨10 ^ 28 + 1, 0⟩ := by decide
  have hunit : canonicalIdentity "requests" "invalid quota unit" = .ok "requests" := by decide
  have haccept : checkLimit ⟨10 ^ 28, 0⟩ (some ⟨10 ^ 28, 0⟩) (some ⟨1, 0⟩) = .ok () := by decide
  have hrefuse : checkLimit ⟨10 ^ 28 + 1, 0⟩ (some ⟨10 ^ 28, 0⟩) (some ⟨1, 0⟩) ≠ .ok () := by decide
  refine ⟨_, _, _, _, QuotaQuantity.make_eq_ok hl hunit, QuotaQuantity.make_eq_ok hr hunit,
    QuotaQuantity.make_eq_ok hl hunit, QuotaQuantity.make_eq_ok hn hunit, ⟨?_, fun h => ?_⟩, ?_, ?_⟩
  · rw [QuotaWindowView.make_isOk_iff (by decide) (by decide) (by decide) (by decide),
      checkValues_known_eq_ok_iff ⟨.commercialQuota, "requests",
        by simp [QuotaWindowKind.expectedMetric], by simp⟩]
    exact ⟨by simp, by rintro _ ⟨⟩; exact haccept⟩
  · have hsum := (h _ rfl).2.2 _ rfl _ rfl
    norm_num [Dec.toRat] at hsum
  · rw [QuotaWindowView.make_isOk_iff (by decide) (by decide) (by decide) (by decide),
      checkValues_known_eq_ok_iff ⟨.commercialQuota, "requests",
        by simp [QuotaWindowKind.expectedMetric], by simp⟩]
    rintro ⟨-, h⟩
    have h := h _ rfl
    exact hrefuse h
  · rintro _ ⟨⟩
    refine ⟨?_, ?_, ?_⟩ <;> norm_num [Dec.toRat]

end YasbLimitora
