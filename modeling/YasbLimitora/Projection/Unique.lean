import Mathlib
import YasbLimitora.Lib.JsonString
import YasbLimitora.Projection.Items

/-!
# One document for a text

The items of a document are records of which every field is written, the members of a vocabulary
by texts of their own, and what is missing as `null`. So no two items have the same JSON value, and
neither have two documents (`YasbLimitora.Document.json_injective`): what is known of a text is
known of the document it was written of, whoever wrote it. The cache, which has nothing but the
text, relies on that.

The proofs follow the shape of a JSON value: two objects that are equal have the same fields in the
same places, and two texts that are equal the same characters. What has to be shown beside that is
that no field of one kind is written like one of another: an optional text is null or a string, a
list of windows is an array. A vocabulary is written injectively because its members are read back.
-/

namespace YasbLimitora

open Json (orNull_injective)

section Vocabularies

/-- Members of a vocabulary that are found by their text have different texts. -/
theorem injective_of_ofValue {α : Type} {members : List α} {text : α → String}
    (h : ∀ a, ofValue members text (text a) = some a) : Function.Injective text := by
  intro a b hab
  have ha := h a
  rw [hab, h b] at ha
  exact (Option.some.inj ha).symm

theorem QuotaWindowKind.value_injective : Function.Injective QuotaWindowKind.value :=
  injective_of_ofValue ofValue_windowKind

theorem QuotaMetricKind.value_injective : Function.Injective QuotaMetricKind.value := injective_of_ofValue ofValue_metric

theorem QuotaAvailability.value_injective : Function.Injective QuotaAvailability.value :=
  injective_of_ofValue ofValue_availability

theorem PublicProviderState.value_injective : Function.Injective PublicProviderState.value :=
  injective_of_ofValue ofValue_publicState

theorem SnapshotFreshness.value_injective : Function.Injective SnapshotFreshness.value :=
  injective_of_ofValue ofValue_freshness

theorem ProviderKey.value_injective : Function.Injective ProviderKey.value := by
  intro a b h
  cases a <;> cases b <;> first | rfl | exact absurd h (by decide)

theorem ProviderOutcome.value_injective : Function.Injective ProviderOutcome.value := by
  intro a b h
  cases a <;> cases b <;> first | rfl | exact absurd h (by decide)

theorem ExecutionState.value_injective : Function.Injective ExecutionState.value := by
  intro a b h
  cases a <;> cases b <;> first | rfl | exact absurd h (by decide)

/-- Different instants are written differently: what is written is read back. -/
theorem Instant.text_injective : Function.Injective Instant.text := by
  intro s t h
  have hs := Instant.ofText_text s
  rw [h, Instant.ofText_text] at hs
  exact (Option.some.inj hs).symm

end Vocabularies

/-! ### Items -/

/-- A text that may be missing. -/
theorem orNull_text_injective {α : Type} {f : α → String} (h : Function.Injective f) :
    Function.Injective (Json.orNull fun a => Json.str (f a)) :=
  orNull_injective (fun _ _ hab => h (Json.str.inj hab)) fun _ => nofun

theorem ErrorItem.json_injective : Function.Injective ErrorItem.json := by
  rintro ⟨code, phase⟩ ⟨code', phase'⟩ h
  simp only [ErrorItem.json, Json.obj.injEq, List.cons.injEq, Prod.mk.injEq, Json.str.injEq, true_and, and_true] at h
  rw [h.1, h.2]

theorem QuantityItem.json_injective : Function.Injective QuantityItem.json := by
  rintro ⟨value, metric, unit⟩ ⟨value', metric', unit'⟩ h
  simp only [QuantityItem.json, Json.obj.injEq, List.cons.injEq, Prod.mk.injEq, Json.str.injEq, true_and, and_true] at h
  obtain ⟨rfl, hmetric, rfl⟩ := h
  rw [QuotaMetricKind.value_injective hmetric]

/-- **A window is written as no other**: each field has its place, and null is the text of none. -/
theorem WindowItem.json_injective : Function.Injective WindowItem.json := by
  have hquantity := orNull_injective QuantityItem.json_injective fun _ => nofun
  intro w w' h
  simp only [WindowItem.json, Json.obj.injEq, List.cons.injEq, Prod.mk.injEq, Json.str.injEq, true_and, and_true] at h
  obtain ⟨hkind, hscope, hperiod, hplan, havailability, hsource, hlimit, hused, hremaining, hreset⟩ := h
  rcases w with ⟨kind, scope, period, plan, availability, source, limit, used, remaining, reset⟩
  rcases w' with ⟨kind', scope', period', plan', availability', source', limit', used', remaining', reset'⟩
  obtain rfl := QuotaWindowKind.value_injective hkind
  obtain rfl := QuotaAvailability.value_injective havailability
  obtain rfl := orNull_text_injective Function.injective_id hplan
  obtain rfl := orNull_text_injective Function.injective_id hsource
  obtain rfl := hquantity hlimit
  obtain rfl := hquantity hused
  obtain rfl := hquantity hremaining
  obtain rfl := orNull_text_injective Instant.text_injective hreset
  dsimp only at hscope hperiod
  rw [hscope, hperiod]

theorem CreditsItem.json_injective : Function.Injective CreditsItem.json := by
  intro c c' h
  simp only [CreditsItem.json, Json.obj.injEq, List.cons.injEq, Prod.mk.injEq, Json.int.injEq, Int.natCast_inj, true_and,
    and_true] at h
  rcases c with ⟨count, next⟩
  rcases c' with ⟨count', next'⟩
  obtain rfl := orNull_text_injective Instant.text_injective h.2
  obtain rfl := h.1
  rfl

theorem DepletedItem.json_injective : Function.Injective DepletedItem.json := by
  intro d d' h
  simp only [DepletedItem.json, Json.obj.injEq, List.cons.injEq, Prod.mk.injEq, Json.str.injEq, true_and, and_true] at h
  obtain ⟨hkind, hscope, hperiod, hplan, hunit, hsource, hremaining⟩ := h
  rcases d with ⟨kind, scope, period, plan, unit, source, remaining⟩
  rcases d' with ⟨kind', scope', period', plan', unit', source', remaining'⟩
  obtain rfl := QuotaWindowKind.value_injective hkind
  obtain rfl := orNull_text_injective Function.injective_id hplan
  obtain rfl := orNull_text_injective Function.injective_id hsource
  dsimp only at hscope hperiod hunit hremaining
  rw [hscope, hperiod, hunit, hremaining]

theorem GeneralItem.json_injective : Function.Injective GeneralItem.json := by
  rintro ⟨compact, alternate, tooltip⟩ ⟨compact', alternate', tooltip'⟩ h
  simp only [GeneralItem.json, Json.obj.injEq, List.cons.injEq, Prod.mk.injEq, Json.str.injEq, true_and, and_true] at h
  obtain ⟨rfl, rfl, rfl⟩ := h
  rfl

/-- So is a provider, with its windows one after another. -/
theorem ProviderItem.json_injective : Function.Injective ProviderItem.json := by
  have hinstant := orNull_text_injective Instant.text_injective
  have htext := orNull_text_injective Function.injective_id
  intro p p' h
  simp only [ProviderItem.json, Json.obj.injEq, List.cons.injEq, Prod.mk.injEq, Json.str.injEq, Json.arr.injEq, true_and,
    and_true] at h
  obtain ⟨hprovider, houtcome, hstate, hfreshness, hobserved, hfetched, hdata, hsource, hwindows, hcredits, herror, hreason,
    hdepleted, hcompact, halternate, htooltip⟩ := h
  rcases p with ⟨⟨provider, outcome, state, freshness, observed, fetched, data, source, windows, credits, error, reason⟩,
    depleted, compact, alternate, tooltip⟩
  rcases p' with ⟨⟨provider', outcome', state', freshness', observed', fetched', data', source', windows', credits', error',
    reason'⟩, depleted', compact', alternate', tooltip'⟩
  obtain rfl := ProviderKey.value_injective hprovider
  obtain rfl := ProviderOutcome.value_injective houtcome
  obtain rfl := orNull_text_injective PublicProviderState.value_injective hstate
  obtain rfl := orNull_text_injective SnapshotFreshness.value_injective hfreshness
  obtain rfl := hinstant hobserved
  obtain rfl := hinstant hfetched
  obtain rfl := hinstant hdata
  obtain rfl := htext hsource
  obtain rfl := List.map_injective_iff.2 WindowItem.json_injective hwindows
  obtain rfl := orNull_injective CreditsItem.json_injective (fun _ => nofun) hcredits
  obtain rfl := orNull_injective ErrorItem.json_injective (fun _ => nofun) herror
  obtain rfl := htext hreason
  obtain rfl := orNull_injective DepletedItem.json_injective (fun _ => nofun) hdepleted
  dsimp only at hcompact halternate htooltip
  rw [hcompact, halternate, htooltip]

/-- **A document is all in its value.** -/
theorem Document.json_injective : Function.Injective Document.json := by
  intro d d' h
  simp only [Document.json, Json.obj.injEq, List.cons.injEq, Prod.mk.injEq, Json.str.injEq, Json.arr.injEq, true_and,
    and_true] at h
  obtain ⟨hstate, herror, hgeneral, hproviders⟩ := h
  rcases d with ⟨state, error, shown, providers⟩
  rcases d' with ⟨state', error', shown', providers'⟩
  obtain rfl := ExecutionState.value_injective hstate
  obtain rfl := orNull_injective ErrorItem.json_injective (fun _ => nofun) herror
  obtain rfl := GeneralItem.json_injective hgeneral
  obtain rfl := List.map_injective_iff.2 ProviderItem.json_injective hproviders
  rfl

end YasbLimitora
