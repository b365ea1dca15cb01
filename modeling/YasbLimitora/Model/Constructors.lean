import Mathlib
import YasbLimitora.Lib.Except
import YasbLimitora.Model.Views

/-!
# The constructors of views

What the constructors of `model.py` make of what they are given: reset credits, a snapshot, and a
window, which is built exactly from arguments that pass its checks
(`YasbLimitora.QuotaWindowView.make_eq_ok_iff`).

The cache validates a document by building the records of the model from it, as any other caller
would, and takes what they admit. These are the facts that it needs of the constructors, in both
directions: a record that was built is the one of its arguments, and a record that there is can be
built again (`YasbLimitora.ProviderSnapshotView.make_self`).
-/

namespace YasbLimitora

/-- The constructor of reset credits. -/
def RateLimitResetCreditsView.make (count : ℕ) (next : Option Instant) : Option RateLimitResetCreditsView :=
  if h : count = 0 → next = none then some ⟨count, next, h⟩ else none

section Views

variable [UnicodeData]

/-- The constructor of a snapshot. -/
def ProviderSnapshotView.make (publicState : PublicProviderState) (freshness : SnapshotFreshness)
    (observed fetched data : Instant) (source : Option String) (windows : List QuotaWindowView)
    (resets : Option RateLimitResetCreditsView) : Option ProviderSnapshotView :=
  if h : observed.micros ≤ fetched.micros ∧ data.micros ≤ fetched.micros ∧ checkSourceId source = .ok () ∧
      windows.length ≤ MAX_QUOTA_WINDOWS ∧ (windows.map (·.identity)).Nodup ∧
      (publicState = .rateLimited → ∀ w ∈ windows, w.kind = .technicalRateLimit) then
    some ⟨publicState, freshness, observed, fetched, data, source, windows, resets, h.1, h.2.1, h.2.2.1, h.2.2.2.1,
      h.2.2.2.2.1, h.2.2.2.2.2⟩
  else none

/-- What the constructor of a snapshot makes of what it is given. -/
theorem ProviderSnapshotView.make_eq_some {publicState : PublicProviderState} {freshness : SnapshotFreshness}
    {observed fetched data : Instant} {source : Option String} {windows : List QuotaWindowView}
    {resets : Option RateLimitResetCreditsView} {s : ProviderSnapshotView}
    (h : ProviderSnapshotView.make publicState freshness observed fetched data source windows resets = some s) :
    publicState = s.publicState ∧ freshness = s.freshness ∧ observed = s.statusObservedAt ∧ fetched = s.fetchedAt ∧
      data = s.dataAt ∧ source = s.sourceId ∧ windows = s.windows ∧ resets = s.rateLimitResetCredits := by
  rw [ProviderSnapshotView.make, Option.dite_none_right_eq_some] at h
  obtain ⟨_, h⟩ := h
  obtain rfl := Option.some.inj h
  exact ⟨rfl, rfl, rfl, rfl, rfl, rfl, rfl, rfl⟩

/-- A snapshot is what the constructor makes of its fields. -/
theorem ProviderSnapshotView.make_self (s : ProviderSnapshotView) :
    ProviderSnapshotView.make s.publicState s.freshness s.statusObservedAt s.fetchedAt s.dataAt s.sourceId s.windows
      s.rateLimitResetCredits = some s := by
  rw [ProviderSnapshotView.make, Option.dite_none_right_eq_some]
  exact ⟨⟨s.observed_le, s.data_le, s.sourceId_safe, s.windows_le, s.windows_nodup, s.rateLimited_ok⟩, rfl⟩

variable {kind : QuotaWindowKind} {scope period : String} {planId sourceId : Option String}
  {availability : QuotaAvailability} {limit used remaining : Option QuotaQuantity} {resetAt : Option Instant}
  {w : QuotaWindowView}

/-- What the constructor of a window makes of what it is given. -/
theorem QuotaWindowView.make_eq_ok_iff :
    QuotaWindowView.make kind scope period planId availability sourceId limit used remaining resetAt = .ok w ↔
      (w.kind = kind ∧ canonicalIdentity scope "invalid quota scope" = .ok w.scope ∧
        canonicalIdentity period "invalid quota period" = .ok w.period ∧
        optionalIdentity planId "invalid quota plan id" = .ok w.planId) ∧
      (w.availability = availability ∧ w.sourceId = sourceId ∧ checkSourceId sourceId = .ok ()) ∧
      w.limit = limit ∧ w.used = used ∧ w.remaining = remaining ∧ w.resetAt = resetAt := by
  obtain ⟨kind', scope', period', planId', availability', sourceId', limit', used', remaining', resetAt', h1, h2, h3, h4,
    hvalues⟩ := w
  unfold QuotaWindowView.make
  split
  · next he => exact iff_of_false nofun fun h => absurd (he.symm.trans h.1.2.1) nofun
  next s hs =>
  split
  · next he => exact iff_of_false nofun fun h => absurd (he.symm.trans h.1.2.2.1) nofun
  next p hp =>
  split
  · next he => exact iff_of_false nofun fun h => absurd (he.symm.trans h.1.2.2.2) nofun
  next q hq =>
  split
  · next he => exact iff_of_false nofun fun h => absurd (he.symm.trans h.2.1.2.2) nofun
  next hi =>
  split
  · next he =>
    refine iff_of_false nofun ?_
    rintro ⟨⟨rfl, -⟩, ⟨rfl, rfl, -⟩, rfl, rfl, rfl, rfl⟩
    rw [hvalues] at he
    cases he
  next hv =>
  constructor
  · intro h
    cases Except.ok.inj h
    exact ⟨⟨rfl, hs, hp, hq⟩, ⟨rfl, rfl, hi⟩, rfl, rfl, rfl, rfl⟩
  · rintro ⟨⟨rfl, hs', hp', hq'⟩, ⟨rfl, rfl, -⟩, rfl, rfl, rfl, rfl⟩
    obtain rfl := Except.ok.inj (hs.symm.trans hs')
    obtain rfl := Except.ok.inj (hp.symm.trans hp')
    obtain rfl := Except.ok.inj (hq.symm.trans hq')
    rfl

omit [UnicodeData] in
/-- A source of the table passes the check of `model.py`. -/
theorem checkSourceId_of_mem {source : Option String} (h : ∀ s, source = some s → s ∈ SAFE_SOURCE_IDS) :
    checkSourceId source = .ok () := by
  rcases source with _ | s
  · rfl
  · exact if_neg (by simpa using h s rfl)

/-- A window that is not known has no values. -/
theorem QuotaWindowView.values_eq_none (w : QuotaWindowView) (h : w.availability ≠ .known) :
    w.limit = none ∧ w.used = none ∧ w.remaining = none ∧ w.resetAt = none := by
  have hok := w.values_ok
  unfold checkValues at hok
  simp only [if_neg h] at hok
  split_ifs at hok with hvalues
  rw [Bool.or_eq_true, not_or, Bool.not_eq_true', Bool.not_eq_false, List.isEmpty_iff, Bool.not_eq_true,
    Option.isSome_eq_false_iff, Option.isNone_iff_eq_none] at hvalues
  obtain ⟨hvalues, hreset⟩ := hvalues
  rcases hlimit : w.limit with _ | q
  · rcases hused : w.used with _ | q
    · rcases hremaining : w.remaining with _ | q
      · exact ⟨rfl, rfl, rfl, hreset⟩
      · rw [hlimit, hused, hremaining] at hvalues
        cases hvalues
    · rw [hlimit, hused] at hvalues
      cases hvalues
  · rw [hlimit] at hvalues
    cases hvalues

end Views

end YasbLimitora
