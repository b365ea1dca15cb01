import Mathlib
import YasbLimitora.Coordinator.Program
import YasbLimitora.Projection.Bounded

/-!
# The presentation of a cached document

The cache does not trust the texts of a stored document: it derives them again from the
document's own facts, for the largest budget the document has room for, and compares
(`_presentation_candidate` and `_presentation_matches` of `cache.py`). What the projector
emits is what this accepts, and with the same facts nothing else is
(`YasbLimitora.tooltip_budget`): both searches end at the same budget, because a document
of given facts grows with it.

The budget is the number of characters that a tooltip may have, and the document that is stored has
no record of it. It is found by a binary search as in the projector, but over other data: the
projector builds each candidate from the views, and the cache from the facts of the document that it
checks. That both find the same limit is the reason that the texts can be compared at all.
-/

namespace YasbLimitora

/-! ### What a budget decides -/

/-- A document without its tooltips. -/
def Document.withoutTooltips (d : Document) : Document :=
  { d with
    general := { d.general with tooltipText := "" }
    providers := d.providers.map fun p =>
      { p with presentation := { p.presentation with tooltipText := "" } } }

/-- The same facts, whatever is shown of them. -/
structure Document.SameFacts (d e : Document) : Prop where
  executionState : d.executionState = e.executionState
  executionError : d.executionError = e.executionError
  providers : d.providers.map (·.toProviderFacts) = e.providers.map (·.toProviderFacts)

theorem Document.eq_of_sameFacts {d e : Document} (h : d.SameFacts e)
    (hgeneral : d.general = e.general)
    (hshown : d.providers.map (·.presentation) = e.providers.map (·.presentation)) : d = e := by
  have hitem : ∀ p q : ProviderItem, p.toProviderFacts = q.toProviderFacts →
      p.presentation = q.presentation → p = q := by
    rintro ⟨facts, shown⟩ ⟨facts', shown'⟩ hfacts hshown
    exact congrArg₂ ProviderItem.mk hfacts hshown
  have hproviders : d.providers = e.providers := by
    refine List.ext_getElem (by simpa using congrArg List.length hshown) fun n hn hn' => ?_
    have hfacts := List.getElem_of_eq h.providers (by simpa using hn)
    have hpresentation := List.getElem_of_eq hshown (by simpa using hn)
    simp only [List.getElem_map] at hfacts hpresentation
    exact hitem _ _ hfacts hpresentation
  rcases d with ⟨state, error, shown, providers⟩
  rcases e with ⟨state', error', shown', providers'⟩
  obtain rfl : state = state' := h.executionState
  obtain rfl : error = error' := h.executionError
  obtain rfl : shown = shown' := hgeneral
  obtain rfl : providers = providers' := hproviders
  rfl

theorem Document.Grows.withoutTooltips_eq {d e : Document} (h : d.Grows e) :
    d.withoutTooltips = e.withoutTooltips := by
  have hitems : d.providers.map (fun p : ProviderItem =>
      ({ p with presentation := { p.presentation with tooltipText := "" } } : ProviderItem)) =
      e.providers.map fun p : ProviderItem =>
        ({ p with presentation := { p.presentation with tooltipText := "" } } : ProviderItem) := by
    refine map_eq_of_grows (fun p q hpq => ?_) h.providers
    rw [hpq.1, hpq.2.1]
  have hshown : ({ d.general with tooltipText := "" } : GeneralItem) =
      { e.general with tooltipText := "" } := by
    obtain ⟨hcompact, halternate⟩ := general_texts_eq h.providers
    rw [h.general, h.general']
    dsimp only
    rw [hcompact, halternate]
  rw [withoutTooltips, withoutTooltips, hitems, hshown, h.state, h.error]

/-! ### The texts, derived again -/

variable [UnicodeData] (formatter : TimestampFormatter)

/-- The texts of a provider at a budget, for the ones it has. -/
def withPresentation (tooltipLimit : ℕ) (item : ProviderItem) :
    Except ProjectionError ProviderItem := do
  let expected ← presentation formatter item.toProviderFacts tooltipLimit
  return { item with presentation := expected }

/-- `_presentation_candidate`: the document with the texts of a budget. -/
def presentationCandidate (root : Document) (tooltipLimit : ℕ) : Except ProjectionError Document := do
  let canonical ← root.providers.mapM (withPresentation formatter tooltipLimit)
  return { root with general := general canonical, providers := canonical }

/-- `_presentation_matches`. -/
def presentationMatches (root : Document) : Except String Unit :=
  let fits limit := do
    let candidate ← presentationCandidate formatter root limit
    return if candidate.size ≤ MAX_CACHE_DOCUMENT_BYTES then some candidate else none
  match searchLargest fits 0 (MAX_TOOLTIP_SCALARS + 1) none with
  | .error _ => .error "inconsistent cache presentation"
  | .ok none => .error "cache document exceeds presentation budget"
  | .ok (some expected) =>
    if root.general ≠ expected.general then .error "inconsistent cache general presentation"
    else if root.providers.map (·.presentation) ≠ expected.providers.map (·.presentation) then
      .error "inconsistent cache presentation"
    else .ok ()

variable {formatter}

/-- A document of the facts of a projected one has its candidates. -/
theorem presentationCandidate_eq {input : ProjectionInput} {limit : ℕ} {document root : Document}
    (h : projectDocument formatter input limit = .ok document) (hroot : root.SameFacts document)
    (limit' : ℕ) :
    presentationCandidate formatter root limit' = projectDocument formatter input limit' := by
  obtain ⟨codex, hcodex, h⟩ := bind_eq_ok_iff.1 h
  obtain ⟨opencodeGo, hopencode, h⟩ := bind_eq_ok_iff.1 h
  obtain rfl := Except.ok.inj h
  obtain ⟨facts, hfacts, hcodex⟩ := bind_eq_ok_iff.1 hcodex
  obtain ⟨shown, -, hcodex⟩ := bind_eq_ok_iff.1 hcodex
  obtain ⟨facts', hfacts', hopencode⟩ := bind_eq_ok_iff.1 hopencode
  obtain ⟨shown', -, hopencode⟩ := bind_eq_ok_iff.1 hopencode
  obtain rfl := Except.ok.inj hcodex
  obtain rfl := Except.ok.inj hopencode
  rcases root with ⟨state, error, general', providers⟩
  obtain ⟨hstate, herror, hproviders⟩ := hroot
  dsimp only [assemble] at hstate herror hproviders
  obtain ⟨p, q, rfl⟩ := List.length_eq_two.1 (by simpa using congrArg List.length hproviders)
  simp only [List.map_cons, List.map_nil, List.cons.injEq, and_true] at hproviders
  obtain ⟨hp, hq⟩ := hproviders
  subst hp hq
  have hcodex : projectProvider formatter input.document.codex input.enabledProviders limit' none =
      withPresentation formatter limit' p := by
    rw [projectProvider, hfacts, ok_bind]
    rfl
  have hopencode : projectProvider formatter input.document.opencodeGo input.enabledProviders limit'
      input.opencodeEvidence = withPresentation formatter limit' q := by
    rw [projectProvider, hfacts', ok_bind]
    rfl
  rw [presentationCandidate, projectDocument, hcodex, hopencode, List.mapM_cons, List.mapM_cons,
    List.mapM_nil]
  rcases hp : withPresentation formatter limit' p with e | p'
  · rfl
  rcases hq : withPresentation formatter limit' q with e | q'
  · rfl
  obtain ⟨shownp, -, hp⟩ := bind_eq_ok_iff.1 hp
  obtain ⟨shownq, -, hq⟩ := bind_eq_ok_iff.1 hq
  obtain rfl := Except.ok.inj hp
  obtain rfl := Except.ok.inj hq
  rw [hstate, herror]
  rfl

/-- The texts of a candidate are those of the facts of the document. -/
theorem sameFacts_of_candidate {root candidate : Document} {limit : ℕ}
    (h : presentationCandidate formatter root limit = .ok candidate) : root.SameFacts candidate := by
  have hfacts : ∀ {providers canonical : List ProviderItem},
      List.Forall₂ (fun p q => withPresentation formatter limit p = .ok q) providers canonical →
        providers.map (·.toProviderFacts) = canonical.map (·.toProviderFacts) := by
    intro providers canonical hall
    induction hall with
    | nil => rfl
    | cons hp _ ih =>
      obtain ⟨expected, -, hp⟩ := bind_eq_ok_iff.1 hp
      obtain rfl := Except.ok.inj hp
      rw [List.map_cons, List.map_cons, ih]
  obtain ⟨canonical, hcanonical, h⟩ := bind_eq_ok_iff.1 h
  obtain rfl := Except.ok.inj h
  exact ⟨rfl, rfl, hfacts (mapM_eq_ok_iff.1 hcanonical)⟩

/-- **A document whose texts match is one of its own candidates**, and is small enough. -/
theorem exists_candidate {root : Document} (h : presentationMatches formatter root = .ok ()) :
    ∃ limit ≤ MAX_TOOLTIP_SCALARS, presentationCandidate formatter root limit = .ok root ∧
      root.size ≤ MAX_CACHE_DOCUMENT_BYTES := by
  unfold presentationMatches at h
  dsimp only at h
  split at h
  · cases h
  · cases h
  · next expected hsearch =>
    split_ifs at h with hgeneral hshown
    rcases exists_of_searchLargest hsearch with hbest | ⟨limit, -, hlimit, hprobe⟩
    · cases hbest
    · obtain ⟨candidate, hcandidate, hprobe⟩ := bind_eq_ok_iff.1 hprobe
      have hfits := Except.ok.inj hprobe
      split_ifs at hfits with hsize
      obtain rfl := Option.some.inj hfits
      have heq : root = candidate :=
        Document.eq_of_sameFacts (sameFacts_of_candidate hcandidate) (not_not.1 hgeneral) (not_not.1 hshown)
      rw [← heq] at hcandidate hsize
      exact ⟨limit, Nat.lt_succ_iff.1 hlimit, hcandidate, hsize⟩

/-- **The cache ends at the budget of the projector**: with the facts of a projected
document, it accepts that document and no other. -/
theorem presentationMatches_iff {input : ProjectionInput} {document root : Document}
    (h : IsLongest formatter input document) (hroot : root.SameFacts document) :
    presentationMatches formatter root = .ok () ↔ root = document := by
  obtain ⟨hfits, limit, hlimit, hdocument, hlast⟩ := h
  rcases projectDocument_cases formatter input with ⟨e, he⟩ | ⟨documents, hok, hgrows⟩
  · rw [he] at hdocument
    exact nomatch hdocument
  have hcandidate : ∀ n, presentationCandidate formatter root n = .ok (documents n) := fun n =>
    (presentationCandidate_eq hdocument hroot n).trans (hok n)
  obtain rfl : documents limit = document := Except.ok.inj ((hok limit).symm.trans hdocument)
  have habove : ∀ n, limit < n → n < MAX_TOOLTIP_SCALARS + 1 → fitting documents n = none := by
    intro n hn hmax
    obtain ⟨larger, hlarger, hsize⟩ := hlast n (by omega) hn
    obtain rfl : documents n = larger := Except.ok.inj ((hok n).symm.trans hlarger)
    exact fitting_eq_none_iff.2 hsize
  have hsome : fitting documents limit = some (documents limit) :=
    fitting_eq_some_iff.2 ⟨hfits, rfl⟩
  obtain ⟨r, hr, hlargest⟩ : ∃ r, searchLargest (fun limit => do
      let candidate ← (Except.ok (documents limit) : Except ProjectionError Document)
      return if candidate.size ≤ MAX_CACHE_DOCUMENT_BYTES then some candidate else none) 0
        (MAX_TOOLTIP_SCALARS + 1) none = .ok r ∧
      IsLargest (fitting documents) 0 (MAX_TOOLTIP_SCALARS + 1) none r :=
    searchLargest_spec (fun m n hmn hm => fitting_eq_none_iff.2
      ((fitting_eq_none_iff.1 hm).trans_le (hgrows m n hmn).size_le)) _ _ _
  obtain rfl : r = some (documents limit) := by
    rcases hlargest with ⟨n, -, hn, hfn, hsomer, hnone⟩ | ⟨rfl, hnone⟩
    · rcases lt_trichotomy n limit with hlt | rfl | hlt
      · rw [hnone limit hlt (by omega)] at hsome
        exact nomatch hsome
      · exact hfn.symm.trans hsome
      · rw [habove n hlt hn] at hfn
        rw [← hfn] at hsomer
        exact nomatch hsomer
    · rw [hnone limit (Nat.zero_le _) (by omega)] at hsome
      exact nomatch hsome
  have hmatches : presentationMatches formatter root =
      if root.general ≠ (documents limit).general then
        .error "inconsistent cache general presentation"
      else if root.providers.map (·.presentation) ≠ (documents limit).providers.map (·.presentation)
        then .error "inconsistent cache presentation"
      else .ok () := by
    unfold presentationMatches
    simp only [hcandidate]
    rw [hr]
  rw [hmatches]
  constructor
  · intro haccepted
    split_ifs at haccepted with hgeneral hshown
    exact Document.eq_of_sameFacts hroot (not_not.1 hgeneral) (not_not.1 hshown)
  · rintro rfl
    simp

/-! ### The budget -/

omit [UnicodeData] in
/-- The document of a fallback is small. -/
theorem size_internalError {document : Document}
    (h : failureDocument .internalError = .ok document) : document.size ≤ MAX_DOCUMENT_BYTES := by
  obtain rfl := Except.ok.inj h
  decide +kernel

/-- **The tooltip budget**: no more than the limit is emitted; short of the fallback it is the
document of the largest budget that fits, of which the tooltips alone depend on the budget;
and the cache accepts, for the facts of that document, that document alone. -/
theorem tooltip_budget (formatter : TimestampFormatter) (input : ProjectionInput) :
    (∀ bytes, projectBytes formatter input = .ok bytes → Json.utf8Size bytes ≤ 65536) ∧
    (∀ limit limit' d d', projectDocument formatter input limit = .ok d →
      projectDocument formatter input limit' = .ok d' → d.withoutTooltips = d'.withoutTooltips) ∧
    ∀ document, projected formatter input = .ok document → ¬FallsBack formatter input →
      IsLongest formatter input document ∧
      ∀ root : Document, root.SameFacts document →
        (presentationMatches formatter root = .ok () ↔ root = document) := by
  have hcases := projected_cases formatter input
  refine ⟨?_, ?_, ?_⟩
  · intro bytes hbytes
    obtain ⟨document, hdocument, rfl⟩ := map_eq_ok_iff.1 hbytes
    rcases hcases with ⟨-, hfailure⟩ | ⟨-, ⟨e, he⟩ | ⟨d, hd, hlongest⟩⟩
    · exact size_internalError (hfailure.symm.trans hdocument)
    · rw [he] at hdocument
      exact nomatch hdocument
    · obtain rfl := Except.ok.inj (hd.symm.trans hdocument)
      exact hlongest.1
  · intro limit limit' d d' hd hd'
    have hboth : ∀ m n dm dn, m ≤ n → projectDocument formatter input m = .ok dm →
        projectDocument formatter input n = .ok dn → dm.withoutTooltips = dn.withoutTooltips := by
      intro m n dm dn hmn hm hn
      have hgrows := projectDocument_grows formatter hmn input
      rw [hm, hn] at hgrows
      exact Document.Grows.withoutTooltips_eq hgrows
    rcases le_total limit limit' with hle | hle
    · exact hboth _ _ _ _ hle hd hd'
    · exact (hboth _ _ _ _ hle hd' hd).symm
  · intro document hdocument hfalls
    rcases hcases with ⟨hback, -⟩ | ⟨-, ⟨e, he⟩ | ⟨d, hd, hlongest⟩⟩
    · exact absurd hback hfalls
    · rw [he] at hdocument
      exact nomatch hdocument
    · obtain rfl := Except.ok.inj (hd.symm.trans hdocument)
      exact ⟨hlongest, fun root hroot => presentationMatches_iff hlongest hroot⟩

end YasbLimitora
