import Mathlib
import YasbLimitora.Cache.Entry
import YasbLimitora.Cache.Seen
import YasbLimitora.Projection.Unique

/-!
# What is loaded could have been published

A load is sound if what it returns would be accepted by a publication, and is what `project_bytes`
makes of views that `run_refresh_attempt` marks cacheable. Nobody knows who wrote the file: so this
is a question of what the validator takes, and of what the projector emits.

The two are close. Of a document that the cache takes there are views with its facts
(`YasbLimitora.Cache.exists_view`), its texts are those of some budget, and since the cache ends at
the budget of the projector, the document of these views is the one that was stored
(`YasbLimitora.Cache.projected_of_cacheable`). But the validator leaves checks to the publication
that a load does not make, on the error of a document and on the reasons for which a provider was not
run, and takes two kinds of window that are never emitted (`YasbLimitora.Cache.Emitted`). These are
all the differences: `YasbLimitora.Cache.load_sound_iff`.
-/

namespace YasbLimitora

namespace Cache

open Codec (NfcLaws)
open Encoding (utf8Bytes)

variable [UnicodeData]

/-! ### Views of facts -/

section Views

/-- What `run_refresh_attempt` marks cacheable. -/
def markedCacheable (d : DocumentView) : Bool :=
  d.documentError.isNone &&
    d.providers.any (fun v => v.outcome = some .snapshot || v.outcome = some .undetected) &&
      d.providers.all fun v => v.outcome ≠ some .executionError

/-- The view of a snapshot. -/
def snapshotView (provider : ProviderKey) (s : ProviderSnapshotView) : ProviderView where
  provider := provider
  state := .success
  error := none
  outcome := some .snapshot
  snapshot := some s
  notRunReason := none
  ok := by constructor <;> simp

/-- No provider is enabled. -/
def nobody : ProviderSet := fun _ => false

/-- **Facts that the cache takes**, and whose items are emitted, are those of a view. -/
theorem exists_view (hnfc : NfcLaws) {f : ProviderFacts} (hf : CacheableFacts f) (hemitted : ∀ i ∈ f.windows, IsEmitted f i) :
    ∃ view : ProviderView, view.provider = f.provider ∧ view.outcome = some f.outcome ∧
      ∀ evidence, providerFacts view nobody evidence = .ok f := by
  rcases hf with ⟨provider, s, hsource, hwindows, hsorted, hslots⟩ | provider | ⟨provider, reason, hlisted⟩
  · have hs : CacheableSnapshot provider s := ⟨hsource, hwindows, hsorted, hslots⟩
    refine ⟨snapshotView provider s, rfl, rfl, fun evidence => ?_⟩
    exact snapshotFacts_of_cacheable hnfc hs fun w hw => hemitted _ (List.mem_map_of_mem hw)
  · exact ⟨undetectedView provider, rfl, rfl, fun _ => rfl⟩
  · refine ⟨notRunView provider reason, rfl, rfl, fun _ => ?_⟩
    have hne : reason ≠ "" := by
      rintro rfl
      exact absurd hlisted (by decide)
    have hreason : reasonOf (notRunView provider reason) = reason := if_neg hne
    have houtcome : outcomeOf nobody (notRunView provider reason) = .ok .notRun := rfl
    rw [providerFacts, houtcome, ok_bind]
    dsimp only
    rw [if_neg fun h => Bool.false_ne_true h.1, hreason]
    rfl

end Views

/-! ### Documents -/

section Documents

variable {formatter : TimestampFormatter} {input : ProjectionInput} {d : Document} {limit : ℕ}

/-- The documents of one input have the same facts. -/
theorem sameFacts_of_projectDocument {limit' : ℕ} {d' : Document} (h : projectDocument formatter input limit = .ok d)
    (h' : projectDocument formatter input limit' = .ok d') : d.SameFacts d' := by
  have hgrows : ∀ {m n e e'}, m ≤ n → projectDocument formatter input m = .ok e →
      projectDocument formatter input n = .ok e' → e.SameFacts e' := by
    intro m n e e' hle he he'
    have hgrow := projectDocument_grows formatter hle input
    rw [he, he'] at hgrow
    exact ⟨hgrow.state, hgrow.error, map_eq_of_grows (fun _ _ hpq => hpq.1) hgrow.providers⟩
  rcases le_total limit limit' with hle | hle
  · exact hgrows hle h h'
  · obtain ⟨hstate, herror, hproviders⟩ := hgrows hle h' h
    exact ⟨hstate.symm, herror.symm, hproviders.symm⟩

/-- Where some document of an input is small enough, the projection does not fall back. -/
theorem not_fallsBack (h : projectDocument formatter input limit = .ok d) (hsize : d.size ≤ MAX_DOCUMENT_BYTES) :
    ¬FallsBack formatter input := by
  have hgrow := projectDocument_grows formatter (Nat.zero_le limit) input
  rw [h] at hgrow
  rintro (h0 | ⟨d0, h0, hlarge⟩)
  · rw [h0] at hgrow
    exact hgrow
  · rw [h0] at hgrow
    exact absurd hlarge (not_lt.2 (hgrow.size_le.trans hsize))

/-- Where there is a document of an input, one is projected. -/
theorem exists_projected (h : projectDocument formatter input limit = .ok d) : ∃ d', projected formatter input = .ok d' := by
  rcases projectDocument_cases formatter input with ⟨e, he⟩ | ⟨documents, hok, hgrows⟩
  · cases (he limit).symm.trans h
  · unfold projected
    simp only [hok]
    split_ifs
    · exact ⟨_, rfl⟩
    · obtain ⟨r, hr, -⟩ : ∃ r, searchLargest (fun limit => do
          let candidate ← (Except.ok (documents limit) : Except ProjectionError Document)
          return if candidate.size ≤ MAX_DOCUMENT_BYTES then some candidate else none) 0
            (MAX_TOOLTIP_SCALARS + 1) none = .ok r ∧
          IsLargest (fitting documents) 0 (MAX_TOOLTIP_SCALARS + 1) none r :=
        searchLargest_spec (fun m n hmn hm => fitting_eq_none_iff.2
          ((fitting_eq_none_iff.1 hm).trans_le (hgrows m n hmn).size_le)) _ _ _
      rw [hr, ok_bind]
      rcases r with _ | best
      · exact ⟨_, rfl⟩
      · exact ⟨best, rfl⟩

/-- A document whose texts match is the one that is projected, if it is one of the input's. -/
theorem projected_of_matches (h : projectDocument formatter input limit = .ok d) (hsize : d.size ≤ MAX_DOCUMENT_BYTES)
    (hmatches : presentationMatches formatter d = .ok ()) : projected formatter input = .ok d := by
  rcases projected_cases formatter input with ⟨hback, -⟩ | ⟨-, ⟨e, he⟩ | ⟨d', hd', hlongest⟩⟩
  · exact absurd hback (not_fallsBack h hsize)
  · obtain ⟨d', hd'⟩ := exists_projected h
    cases he.symm.trans hd'
  · obtain ⟨-, limit', -, hdocument, -⟩ := id hlongest
    rw [(presentationMatches_iff hlongest (sameFacts_of_projectDocument h hdocument)).1 hmatches]
    exact hd'

/-- The texts of a provider of a candidate are those of its facts. -/
theorem presentation_of_candidate (h : presentationCandidate formatter d limit = .ok d) :
    (∀ p ∈ d.providers, presentation formatter p.toProviderFacts limit = .ok p.presentation) ∧
      d.general = general d.providers := by
  obtain ⟨canonical, hcanonical, h⟩ := bind_eq_ok_iff.1 h
  have hsame := Except.ok.inj h
  have hproviders : canonical = d.providers := congrArg Document.providers hsame
  have hgeneral : general canonical = d.general := congrArg Document.general hsame
  rw [hproviders] at hcanonical hgeneral
  refine ⟨fun p hp => ?_, hgeneral.symm⟩
  have hitem : withPresentation formatter limit p = .ok p := List.forall₂_same.1 (mapM_eq_ok_iff.1 hcanonical) p hp
  obtain ⟨shown, hshown, h⟩ := bind_eq_ok_iff.1 hitem
  rw [hshown, ← congrArg ProviderItem.presentation (Except.ok.inj h)]

/-- **What is emitted of a document that the cache takes**: it has no error, no provider was not run
for a reason that may be over with the next attempt, and its items are emitted. -/
structure Emitted (d : Document) : Prop where
  error : d.executionError = none
  transient : d.providers.any isTransient = false
  items : ∀ p ∈ d.providers, ∀ i ∈ p.windows, IsEmitted p.toProviderFacts i

/-- **A document that the cache takes** is projected of views that are marked cacheable, if it has
no error and its items are emitted. -/
theorem projected_of_cacheable (hnfc : NfcLaws) (hd : Cacheable formatter d) (herror : d.executionError = none)
    (hitems : ∀ p ∈ d.providers, ∀ i ∈ p.windows, IsEmitted p.toProviderFacts i) :
    ∃ input : ProjectionInput, markedCacheable input.document = true ∧ projected formatter input = .ok d := by
  obtain ⟨limit, -, hcandidate, hsize⟩ := exists_candidate hd.texts
  obtain ⟨hshown, hgeneral⟩ := presentation_of_candidate hcandidate
  obtain ⟨p, q, hproviders⟩ := List.length_eq_two.1 (by simpa using congrArg List.length hd.keys)
  have hp : p ∈ d.providers := by rw [hproviders]; exact List.mem_cons_self
  have hq : q ∈ d.providers := by rw [hproviders]; exact List.mem_cons_of_mem _ List.mem_cons_self
  have hkeys := hd.keys
  rw [hproviders] at hkeys
  simp only [List.map_cons, List.map_nil, List.cons.injEq, and_true] at hkeys
  obtain ⟨v, hv, hvoutcome, hvfacts⟩ := exists_view hnfc (hd.providers p hp).facts (hitems p hp)
  obtain ⟨w, hw, hwoutcome, hwfacts⟩ := exists_view hnfc (hd.providers q hq).facts (hitems q hq)
  let input : ProjectionInput := ⟨.ordered ⟨v, hv.trans hkeys.1⟩ ⟨w, hw.trans hkeys.2⟩ none, nobody, none⟩
  refine ⟨input, ?_, ?_⟩
  · have hsuccessful : ∀ {v : ProviderView} {o : ProviderOutcome}, v.outcome = some o →
        (decide (v.outcome = some .snapshot) || decide (v.outcome = some .undetected)) = o.successful := by
      intro v o h
      rw [h]
      cases o <;> rfl
    have hran : ∀ {v : ProviderView} {o : ProviderOutcome}, v.outcome = some o → o ≠ .executionError →
        decide (v.outcome ≠ some .executionError) = true := by
      intro v o h hne
      rw [h]
      exact decide_eq_true fun hsome => hne (Option.some.inj hsome)
    have husable := hd.usable
    rw [hproviders] at husable
    refine Bool.and_eq_true_iff.2 ⟨Bool.and_eq_true_iff.2 ⟨rfl, ?_⟩, ?_⟩
    · change List.any [v, w] _ = true
      simp only [List.any_cons, List.any_nil, hsuccessful hvoutcome, hsuccessful hwoutcome]
      exact husable
    · change List.all [v, w] _ = true
      simp only [List.all_cons, List.all_nil, hran hvoutcome (hd.providers p hp).facts.outcome_ne,
        hran hwoutcome (hd.providers q hq).facts.outcome_ne, Bool.and_true]
  · have hassemble : assemble none d.providers = d := by
      obtain ⟨e, rfl | rfl, hstate⟩ := hd.state
      · unfold assemble
        dsimp only
        rw [hstate, ← hgeneral]
      · rw [herror] at hstate
        cases (Prod.mk.inj hstate).2
    have hvitem : projectProvider formatter v nobody limit none = .ok p := by
      rw [projectProvider, hvfacts, ok_bind, hshown p hp]
      rfl
    have hwitem : projectProvider formatter w nobody limit none = .ok q := by
      rw [projectProvider, hwfacts, ok_bind, hshown q hq]
      rfl
    have hproject : projectDocument formatter input limit = .ok d := by
      refine bind_eq_ok_iff.2 ⟨p, hvitem, bind_eq_ok_iff.2 ⟨q, hwitem, ?_⟩⟩
      rw [← hproviders]
      exact congrArg Except.ok hassemble
    exact projected_of_matches hproject hsize hd.texts

end Documents

/-! ### Documents that are read back -/

section ReadAgain

variable {formatter : TimestampFormatter} {d d' : Document}

omit [UnicodeData] in
/-- **The bytes of a document** are those of no other, if both are read back. -/
theorem documentBytes_injective (hd : HasShortCounts d) (hd' : HasShortCounts d')
    (h : documentBytes d = documentBytes d') : d = d' := by
  have hparse : ∀ {e : Document}, HasShortCounts e → (Encoding.utf8 false (documentBytes e)).bind
      (Json.parse (entryReader fun _ => none)) = some e.json.spell := by
    intro e he
    rw [documentBytes, Encoding.utf8_utf8Bytes (Encoding.spelled_ofChars _), Option.bind_some, ← write_document]
    exact Json.parse_write Json.Style.sound_compact (plain_document he) (Or.inr rfl)
  have hsame := hparse hd
  rw [h, hparse hd'] at hsame
  exact (Document.json_injective (Json.spell_injective (Option.some.inj hsame))).symm

/-- The facts of a provider have reset credits with a snapshot only. -/
theorem providerFacts_cases {view : ProviderView} {enabled : ProviderSet} {evidence : Option OpenCodeFailureEvidence}
    {f : ProviderFacts} (h : providerFacts view enabled evidence = .ok f) :
    (∃ s, snapshotFacts view.provider s = .ok f) ∨ f.windows = [] ∧ f.rateLimitResetCredits = none := by
  obtain ⟨outcome, -, h⟩ := bind_eq_ok_iff.1 h
  rcases outcome with _ | _ | _ | _
  case snapshot =>
    rcases hs : view.snapshot with _ | s
    · simp only [hs] at h
      cases h
    · simp only [hs] at h
      exact Or.inl ⟨s, h⟩
  case undetected =>
    cases h
    exact Or.inr ⟨rfl, rfl⟩
  case notRun =>
    simp only at h
    split_ifs at h
    cases h
    exact Or.inr ⟨rfl, rfl⟩
  case executionError =>
    rcases he : view.error with _ | code
    · simp only [he] at h
      cases h
    · simp only [he] at h
      cases h
      exact Or.inr ⟨rfl, rfl⟩

/-- **What is projected of a provider** has items that are emitted, and a count that is read back. -/
theorem isEmitted_of_projectProvider (hnfc : NfcLaws) {view : ProviderView} {enabled : ProviderSet} {limit : ℕ}
    {evidence : Option OpenCodeFailureEvidence} {p : ProviderItem}
    (h : projectProvider formatter view enabled limit evidence = .ok p) :
    (∀ i ∈ p.windows, IsEmitted p.toProviderFacts i) ∧
      ∀ c, p.rateLimitResetCredits = some c → CreditsItem.IsShort c := by
  obtain ⟨f, hf, h⟩ := bind_eq_ok_iff.1 h
  obtain ⟨shown, hshown, h⟩ := bind_eq_ok_iff.1 h
  obtain rfl := Except.ok.inj h
  dsimp only
  rcases providerFacts_cases hf with ⟨s, hs⟩ | ⟨hwindows, hcredits⟩
  · refine ⟨isEmitted_of_snapshotFacts hnfc hs, isShort_of_presentation ?_ hshown⟩
    obtain ⟨items, -, hs⟩ := bind_eq_ok_iff.1 hs
    split_ifs at hs
    · cases hs
    · cases hs
      rfl
  · rw [hwindows, hcredits]
    exact ⟨List.forall_mem_nil _, nofun⟩

/-- **What is projected** is read back, and has items that are emitted. -/
theorem isEmitted_of_projected (hnfc : NfcLaws) {input : ProjectionInput} (h : projected formatter input = .ok d) :
    (∀ p ∈ d.providers, ∀ i ∈ p.windows, IsEmitted p.toProviderFacts i) ∧ HasShortCounts d := by
  rcases projected_cases formatter input with ⟨-, hfailure⟩ | ⟨-, ⟨e, he⟩ | ⟨d', hd', hlongest⟩⟩
  · -- the document of a fallback has no windows and no reset credits
    obtain rfl := Except.ok.inj (h.symm.trans hfailure)
    unfold HasShortCounts
    simp only [List.map_cons, List.map_nil, List.forall_mem_cons]
    exact ⟨⟨List.forall_mem_nil _, List.forall_mem_nil _, List.forall_mem_nil _⟩, nofun, nofun, List.forall_mem_nil _⟩
  · cases h.symm.trans he
  · obtain rfl := Except.ok.inj (h.symm.trans hd')
    obtain ⟨-, limit, -, hdocument, -⟩ := hlongest
    obtain ⟨p, hp, hdocument⟩ := bind_eq_ok_iff.1 hdocument
    obtain ⟨q, hq, hdocument⟩ := bind_eq_ok_iff.1 hdocument
    obtain rfl := Except.ok.inj hdocument
    have hp := isEmitted_of_projectProvider hnfc hp
    have hq := isEmitted_of_projectProvider hnfc hq
    unfold HasShortCounts
    simp only [assemble, List.forall_mem_cons]
    exact ⟨⟨hp.1, hq.1, List.forall_mem_nil _⟩, hp.2, hq.2, List.forall_mem_nil _⟩

end ReadAgain

/-! ### An entry of two providers without data -/

section Quiet

theorem undetectedView_provider (provider : ProviderKey) : (undetectedView provider).provider = provider := rfl

/-- Codex is not there, and OpenCode is not enabled. -/
def quietInput (error : Option SafeErrorCode) : ProjectionInput :=
  ⟨.ordered ⟨undetectedView .codex, undetectedView_provider .codex⟩ (notRunOf .opencodeGo "disabled") error, nobody, none⟩

/-- What is shown of a provider without a snapshot. -/
def absentItem (f : ProviderFacts) : ProviderItem := { f with presentation := absentPresentation f }

/-- The document of the two. -/
def quiet (error : Option SafeErrorCode) : Document :=
  assemble error [absentItem (.absent .codex .undetected none none),
    absentItem (.absent .opencodeGo .notRun none (some "disabled"))]

variable {formatter : TimestampFormatter} {input : ProjectionInput} {d : Document}

/-- The texts of a projected document match. -/
theorem matches_of_projected (h : projected formatter input = .ok d) (hfalls : ¬FallsBack formatter input) :
    presentationMatches formatter d = .ok () := by
  rcases projected_cases formatter input with ⟨hback, -⟩ | ⟨-, ⟨e, he⟩ | ⟨d', hd', hlongest⟩⟩
  · exact absurd hback hfalls
  · cases h.symm.trans he
  · obtain rfl := Except.ok.inj (h.symm.trans hd')
    exact (presentationMatches_iff hlongest ⟨rfl, rfl, rfl⟩).2 rfl

theorem quiet_matches (formatter : TimestampFormatter) {error : Option SafeErrorCode}
    (hsize : (quiet error).size ≤ MAX_DOCUMENT_BYTES) : presentationMatches formatter (quiet error) = .ok () := by
  have hproject : projectDocument formatter (quietInput error) MAX_TOOLTIP_SCALARS = .ok (quiet error) := rfl
  obtain ⟨hprojected, hfalls⟩ := projected_of_small hproject hsize
  exact matches_of_projected hprojected hfalls

omit [UnicodeData] in
/-- **The cache takes this document**, also if a cleanup failed. -/
theorem quiet_cacheable (formatter : TimestampFormatter) {error : Option SafeErrorCode}
    (herror : error = none ∨ error = some .cleanupFailed) :
    letI := UnicodeData.ascii
    Cacheable formatter (quiet error) := by
  let _ := UnicodeData.ascii
  have hsafe : ∀ {maximum : ℕ} {multiline : Bool} {s : String}, s.length ≤ maximum →
      (Text.ofString s).any (isUnsafePoint multiline) = false → isUnsafeValue (Text.ofString s) = false →
        SafeText maximum multiline s := fun hlength hpoints hvalue => ⟨hlength, hpoints, rfl, hvalue⟩
  constructor
  · rfl
  · intro p hp
    change p ∈ [_, _] at hp
    simp only [List.mem_cons, List.not_mem_nil, or_false] at hp
    rcases hp with rfl | rfl
    · refine ⟨.undetected .codex, hsafe ?_ ?_ ?_, hsafe ?_ ?_ ?_, hsafe ?_ ?_ ?_⟩ <;> decide +kernel
    · refine ⟨.notRun .opencodeGo "disabled" (by decide), hsafe ?_ ?_ ?_, hsafe ?_ ?_ ?_, hsafe ?_ ?_ ?_⟩ <;> decide +kernel
  · rfl
  · change CacheableGeneral (quiet none).general
    refine ⟨hsafe ?_ ?_ ?_, hsafe ?_ ?_ ?_, hsafe ?_ ?_ ?_⟩ <;> decide +kernel
  · exact ⟨error, herror, rfl⟩
  · refine quiet_matches formatter ?_
    rcases herror with rfl | rfl
    · decide +kernel
    · decide +kernel

end Quiet

/-! ### Soundness -/

section Sound

variable {formatter : TimestampFormatter} {floats : List Char → Option String} {fingerprint : Fingerprint}
  {now : Option Instant} {file : Option Bytes}

/-- **A sound load**: what it returns would be published, and is what is emitted for views that are
marked cacheable. -/
def LoadsSoundly (formatter : TimestampFormatter) (floats : List Char → Option String) (fingerprint : Fingerprint)
    (now : Option Instant) (file : Option Bytes) : Prop :=
  ∀ b, load formatter floats fingerprint now file = some b →
    (publish formatter floats fingerprint now b).isSome ∧
      ∃ input : ProjectionInput, markedCacheable input.document = true ∧
        ∃ chars, projectBytes formatter input = .ok chars ∧ b = utf8Bytes (Text.ofChars chars)

/-- **A load is sound** exactly if the file is no entry that is fresh, and that the cache takes, of a
document that is not emitted. -/
theorem load_sound_iff (hnfc : NfcLaws) (hfloats : floats ['5', '.', '0'] = some "5.0") :
    LoadsSoundly formatter floats fingerprint now file ↔
      ∀ schema cached d instant, now = some instant → file = some (entryBytes schema fingerprint cached d) →
        isSchema schema = true → isFresh instant cached = true → Cacheable formatter d → Emitted d := by
  constructor
  · intro hsound schema cached d instant hnow hfile hschema hfresh hd
    have hload := (load_eq_some_iff hfloats).2 ⟨schema, cached, d, instant, hnow, hfile, hschema, hfresh, hd, rfl⟩
    obtain ⟨hpublish, input, -, chars, hchars, hbytes⟩ := hsound _ hload
    have hshort := hd.hasShortCounts
    obtain ⟨value, hvalue⟩ : ∃ value, publishable formatter floats (documentBytes d) = some value := by
      obtain ⟨written, hwritten⟩ := Option.isSome_iff_exists.1 hpublish
      obtain ⟨value, hvalue, -⟩ := Option.bind_eq_some_iff.1 hwritten
      exact ⟨value, hvalue⟩
    obtain ⟨d', hsame, -, hd', herror, htransient⟩ := publishable_eq_some_iff.1 hvalue
    obtain rfl := documentBytes_injective hshort hd'.hasShortCounts hsame
    obtain ⟨e, he, rfl⟩ := map_eq_ok_iff.1 hchars
    obtain ⟨hitems, hshort'⟩ := isEmitted_of_projected hnfc he
    obtain rfl := documentBytes_injective hshort hshort' hbytes
    exact ⟨herror, htransient, hitems⟩
  · intro hemitted b hb
    obtain ⟨schema, cached, d, instant, rfl, rfl, hschema, hfresh, hd, rfl⟩ := (load_eq_some_iff hfloats).1 hb
    have he := hemitted schema cached d instant rfl rfl hschema hfresh hd
    constructor
    · have hvalue : publishable formatter floats (documentBytes d) = some d.json.spell :=
        publishable_eq_some_iff.2 ⟨d, rfl, rfl, hd, he.error, he.transient⟩
      exact Option.isSome_iff_exists.2 ⟨_, (publish_eq_some_iff hd hvalue).2 rfl⟩
    · obtain ⟨input, hmarked, hprojected⟩ := projected_of_cacheable hnfc hd he.error he.items
      refine ⟨input, hmarked, d.encode, ?_, rfl⟩
      rw [projectBytes, hprojected]
      rfl

omit [UnicodeData] in
/-- **An entry says its document**, if it is read back. -/
theorem eq_of_entryBytes (hfloats : floats ['5', '.', '0'] = some "5.0") {schema schema' : Json Text} {cached cached' : Instant}
    {d d' : Document} (hschema : isSchema schema = true) (hschema' : isSchema schema' = true) (hd : HasShortCounts d)
    (hd' : HasShortCounts d') (h : entryBytes schema fingerprint cached d = entryBytes schema' fingerprint cached' d') :
    d = d' := by
  obtain ⟨text, htext, hparse⟩ := @parse_envelope floats schema fingerprint cached d hfloats hschema hd
  obtain ⟨text', htext', hparse'⟩ := @parse_envelope floats schema' fingerprint cached' d' hfloats hschema' hd'
  rw [h, htext'] at htext
  obtain rfl := Option.some.inj htext
  have henvelope := Option.some.inj (hparse.symm.trans hparse')
  simp only [envelope, Json.obj.injEq, List.cons.injEq, Prod.mk.injEq, true_and, and_true] at henvelope
  exact Document.json_injective (Json.spell_injective henvelope.2.2)

omit [UnicodeData] in
theorem isFresh_self (t : Instant) : isFresh t t = true := by
  unfold isFresh CACHE_TTL_SECONDS
  rw [Bool.and_eq_true, decide_eq_true_eq, decide_eq_true_eq]
  omega

omit [UnicodeData] in
/-- The entry of two providers without data is served, and soundly, to the end of its last second. -/
theorem load_sound_quiet :
    letI := UnicodeData.ascii
    ∃ (floats : List Char → Option String) (fingerprint : Fingerprint) (cached now : Instant) (file : Option Bytes),
      now.micros = cached.micros + 180000000 ∧
        load (fun _ => none) floats fingerprint (some now) file = some (documentBytes (quiet none)) ∧
          LoadsSoundly (fun _ => none) floats fingerprint (some now) file := by
  let _ := UnicodeData.ascii
  let floats : List Char → Option String := fun l => if l = ['5', '.', '0'] then some "5.0" else none
  let fingerprint : Fingerprint := ⟨String.ofList (List.replicate 64 '0'), by decide⟩
  let cached : Instant := ⟨2000, 1, 1, 0, 0, 0, 0, by decide⟩
  let now : Instant := ⟨2000, 1, 1, 0, 3, 0, 0, by decide⟩
  have hfloats : floats ['5', '.', '0'] = some "5.0" := rfl
  have hquiet : Cacheable (fun _ => none) (quiet none) := quiet_cacheable _ (Or.inl rfl)
  refine ⟨floats, fingerprint, cached, now, some (entryBytes (.int CACHE_SCHEMA) fingerprint cached (quiet none)), by decide, ?_,
    (load_sound_iff Codec.nfcLaws_ascii hfloats).2 ?_⟩
  · exact (load_eq_some_iff hfloats).2 ⟨.int CACHE_SCHEMA, cached, quiet none, now, rfl, rfl, rfl, by decide, hquiet, rfl⟩
  · intro schema cached' d instant _ hfile hschema _ hd
    obtain rfl := eq_of_entryBytes hfloats rfl hschema hquiet.hasShortCounts hd.hasShortCounts (Option.some.inj hfile)
    refine ⟨rfl, rfl, fun p hp i hi => ?_⟩
    change p ∈ [_, _] at hp
    simp only [List.mem_cons, List.not_mem_nil, or_false] at hp
    rcases hp with rfl | rfl
    · cases hi
    · cases hi

omit [UnicodeData] in
/-- **A failed cleanup is served**: an entry of a document with this error is fresh data to whoever
loads it, and no publication would accept it. -/
theorem load_unsound_cleanup :
    letI := UnicodeData.ascii
    ∃ (floats : List Char → Option String) (fingerprint : Fingerprint) (now : Instant) (file : Option Bytes),
      floats ['5', '.', '0'] = some "5.0" ∧
        load (fun _ => none) floats fingerprint (some now) file = some (documentBytes (quiet (some .cleanupFailed))) ∧
          ¬LoadsSoundly (fun _ => none) floats fingerprint (some now) file := by
  let _ := UnicodeData.ascii
  let floats : List Char → Option String := fun l => if l = ['5', '.', '0'] then some "5.0" else none
  let fingerprint : Fingerprint := ⟨String.ofList (List.replicate 64 '0'), by decide⟩
  let now : Instant := ⟨2000, 1, 1, 0, 0, 0, 0, by decide⟩
  have hfloats : floats ['5', '.', '0'] = some "5.0" := rfl
  have hfailed : Cacheable (fun _ => none) (quiet (some .cleanupFailed)) := quiet_cacheable _ (Or.inr rfl)
  have hload : load (fun _ => none) floats fingerprint (some now)
      (some (entryBytes (.int CACHE_SCHEMA) fingerprint now (quiet (some .cleanupFailed)))) =
        some (documentBytes (quiet (some .cleanupFailed))) :=
    (load_eq_some_iff hfloats).2
      ⟨.int CACHE_SCHEMA, now, quiet (some .cleanupFailed), now, rfl, rfl, rfl, isFresh_self now, hfailed, rfl⟩
  refine ⟨floats, fingerprint, now, _, hfloats, hload, fun hsound => ?_⟩
  obtain ⟨written, hwritten⟩ := Option.isSome_iff_exists.1 (hsound _ hload).1
  unfold publish at hwritten
  obtain ⟨value, hvalue, -⟩ := Option.bind_eq_some_iff.1 hwritten
  obtain ⟨d, hsame, -, hd, herror, -⟩ := publishable_eq_some_iff.1 hvalue
  obtain rfl := documentBytes_injective hfailed.hasShortCounts hd.hasShortCounts hsame
  cases herror

end Sound

end Cache

end YasbLimitora
