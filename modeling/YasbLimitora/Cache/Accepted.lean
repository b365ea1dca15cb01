import Mathlib
import YasbLimitora.Cache.Windows

/-!
# What the cache accepts

A document is accepted exactly if it is written as it is everywhere else, and is one of those that
are cacheable (`YasbLimitora.Cache.Cacheable`, `YasbLimitora.Cache.validateDocument_recognizes`): of
two providers of which one is usable, each with a snapshot of cacheable windows in order, or not
there, or not run; of safe texts, which are those that are derived of the rest; and in the state
that its providers come to, unless a cleanup failed.

The statement is an equivalence, so that it serves both questions that there are about a cache:
whether what is emitted can be stored, and whether what is stored was emitted. All conditions of the
validator are in it, in the terms of the model: those on the texts, those on the windows of a
snapshot and their order, and those on the state of the document, which is recomputed of its
providers and compared.
-/

namespace YasbLimitora

namespace Cache

open Json (Fields value optionally Recognizes)
open Protocol (member?)

variable [UnicodeData] {provider : ProviderKey}

/-! ### Snapshots -/

section Snapshots

omit [UnicodeData] in
/-- A count is an integer that is not negative. -/
theorem countOf_eq_ok_iff {x : Json Text} {n : ℕ} : countOf x = .ok n ↔ x = .int n := by
  unfold countOf
  constructor
  · intro h
    split at h
    · split_ifs at h with hpos
      obtain rfl := Except.ok.inj h
      rw [Int.toNat_of_nonneg hpos]
    · cases h
  · rintro rfl
    dsimp only
    rw [if_pos (Int.natCast_nonneg n), Int.toNat_natCast]

omit [UnicodeData] in
/-- What is written of reset credits. -/
theorem spell_creditsItem (c : CreditsItem) : c.json.spell =
    .obj [(Text.ofString "available_count", .int c.availableCount),
      (Text.ofString "next_expires_at", Json.orNull (fun t => .str (Text.ofString t.text)) c.nextExpiresAt)] := by
  rw [CreditsItem.json]
  simp only [Json.spell, Json.spellFields, Json.spell_orNull]

omit [UnicodeData] in
/-- Reset credits are those that the model admits. -/
theorem resets_recognizes : Recognizes resets (fun c => (CreditsItem.ofView c).json.spell) fun _ => True := by
  have hsafe := safe_keys resetFields (by decide)
  have hnext : Recognizes (optionally timestamp) (Json.orNull fun t => .str (Text.ofString t.text))
      fun o => ∀ t, o = some t → True := timestamp_recognizes.optionally nofun
  intro x c
  dsimp only
  rw [spell_creditsItem]
  constructor
  · intro hok
    obtain ⟨item, hitem, h⟩ := bind_eq_ok_iff.1 hok
    obtain ⟨next, hnextAt, h⟩ := bind_eq_ok_iff.1 h
    obtain ⟨count, hcount, h⟩ := bind_eq_ok_iff.1 h
    obtain ⟨rfl, hkeys⟩ := (safeMapping_eq_ok_iff hsafe).1 hitem
    obtain ⟨hnextAt, -⟩ := (hnext _ _).1 hnextAt
    rw [countOf_eq_ok_iff] at hcount
    unfold makeResets RateLimitResetCreditsView.make at h
    split_ifs at h
    obtain rfl := Except.ok.inj h
    refine ⟨?_, trivial⟩
    rw [Json.fields_eq (by decide) hkeys]
    simp only [resetFields, List.map_cons, List.map_nil, hnextAt, hcount]
    rfl
  · rintro ⟨rfl, -⟩
    rw [resets]
    refine bind_eq_ok_iff.2 ⟨_, (safeMapping_eq_ok_iff hsafe).2 ⟨rfl, rfl⟩, ?_⟩
    refine bind_eq_ok_iff.2 ⟨c.nextExpiresAt, (hnext _ _).2 ⟨rfl, fun _ _ => trivial⟩, ?_⟩
    refine bind_eq_ok_iff.2 ⟨c.availableCount, countOf_eq_ok_iff.2 rfl, ?_⟩
    unfold makeResets RateLimitResetCreditsView.make
    rw [dif_pos c.expiry_ok]

omit [UnicodeData] in
theorem orNull_ofView (o : Option RateLimitResetCreditsView) : Json.orNull (fun c => (CreditsItem.ofView c).json.spell) o =
    Json.orNull (fun c : CreditsItem => c.json.spell) (o.map .ofView) := by
  rcases o with _ | c
  · rfl
  · rfl

omit [UnicodeData] in
theorem optionally_resets : Recognizes (optionally resets) (Json.orNull fun c => (CreditsItem.ofView c).json.spell)
    fun o => ∀ c, o = some c → True := resets_recognizes.optionally nofun

/-- A window is taken if those before it have another identity. -/
theorem freshWindow_recognizes (identities : List (QuotaWindowKind × String × String)) :
    Recognizes (freshWindow provider identities) (fun w => (windowItem w).json.spell)
      fun w => CacheableWindow provider w ∧ w.identity ∉ identities := by
  intro x w
  constructor
  · intro hok
    obtain ⟨w', hw, h⟩ := bind_eq_ok_iff.1 hok
    split_ifs at h with hmem
    obtain rfl := Except.ok.inj h
    obtain ⟨rfl, hcacheable⟩ := (window_recognizes provider _ _).1 hw
    exact ⟨rfl, hcacheable, hmem⟩
  · rintro ⟨rfl, hcacheable, hmem⟩
    exact bind_eq_ok_iff.2 ⟨w, (window_recognizes provider _ _).2 ⟨rfl, hcacheable⟩, if_neg hmem⟩

/-- **The windows of a snapshot**: no more than 32, all cacheable, no two of one identity. -/
theorem windowsOf_recognizes (provider : ProviderKey) : Recognizes (windowsOf provider)
    (fun windows => .arr (windows.map fun w => (windowItem w).json.spell)) fun windows =>
      windows.length ≤ MAX_QUOTA_WINDOWS ∧ (∀ w ∈ windows, CacheableWindow provider w) ∧
        (windows.map (·.identity)).Nodup := by
  intro x windows
  dsimp only
  constructor
  · intro h
    unfold windowsOf at h
    split at h
    · split_ifs at h with hmany
      obtain ⟨rfl, hall, hnodup, -⟩ := (Json.distinct_eq_ok_iff freshWindow_recognizes).1 h
      rw [List.length_map, not_lt] at hmany
      exact ⟨rfl, hmany, hall, hnodup⟩
    · cases h
  · rintro ⟨rfl, hlength, hall, hnodup⟩
    have hmany : ¬MAX_QUOTA_WINDOWS < (windows.map fun w => (windowItem w).json.spell).length := by
      rw [List.length_map]
      exact not_lt.2 hlength
    refine (if_neg hmany).trans ((Json.distinct_eq_ok_iff freshWindow_recognizes).2 ⟨rfl, hall, hnodup, ?_⟩)
    exact fun _ _ => List.not_mem_nil

/-- **A snapshot that the cache takes.** -/
structure CacheableSnapshot (provider : ProviderKey) (s : ProviderSnapshotView) : Prop where
  source : ∀ source, s.sourceId = some source → source = provider.expectedSource
  windows : ∀ w ∈ s.windows, CacheableWindow provider w
  sorted : s.windows.map windowItem = sortWindows (s.windows.map windowItem)
  slots : hasSlots provider s.publicState s.windows = true

theorem makeSnapshot_eq_ok_iff {publicState : PublicProviderState} {freshness : SnapshotFreshness}
    {observed fetched data : Instant} {source : Option String} {windows : List QuotaWindowView}
    {credits : Option RateLimitResetCreditsView} {s : ProviderSnapshotView} :
    makeSnapshot publicState freshness observed fetched data source windows credits = .ok s ↔
      ProviderSnapshotView.make publicState freshness observed fetched data source windows credits = some s :=
  elim_eq_ok_iff

omit [UnicodeData] in
theorem isNull_iff {x : Json Text} : isNull x = true ↔ x = .null := by
  unfold isNull
  split
  · exact iff_of_true rfl rfl
  · next h => exact iff_of_false Bool.false_ne_true h

omit [UnicodeData] in
theorem timestamp_iff {x : Json Text} {t : Instant} : timestamp x = .ok t ↔ x = .str (Text.ofString t.text) := by
  rw [timestamp_recognizes, and_iff_left trivial]

/-- The fields of a provider, as they are written of its facts. -/
structure Shows (item : Fields) (f : ProviderFacts) : Prop where
  publicState : value "public_state" item = Json.orNull (fun s => .str (Text.ofString s.value)) f.publicState
  freshness : value "freshness" item = Json.orNull (fun s => .str (Text.ofString s.value)) f.freshness
  observed : value "status_observed_at" item = Json.orNull (fun t => .str (Text.ofString t.text)) f.statusObservedAt
  fetched : value "fetched_at" item = Json.orNull (fun t => .str (Text.ofString t.text)) f.fetchedAt
  data : value "data_at" item = Json.orNull (fun t => .str (Text.ofString t.text)) f.dataAt
  source : value "source_id" item = Json.orNull (fun s => .str (Text.ofString s)) f.sourceId
  windows : value "windows" item = .arr (f.windows.map fun w => w.json.spell)
  credits : value "rate_limit_reset_credits" item = Json.orNull (fun c => c.json.spell) f.rateLimitResetCredits
  error : value "execution_error" item = Json.orNull (fun e => e.json.spell) f.executionError
  reason : value "not_run_reason" item = Json.orNull (fun s => .str (Text.ofString s)) f.notRunReason

omit [UnicodeData] in
theorem publicState_recognizes {message : String} :
    Recognizes (memberOf message PublicProviderState.all PublicProviderState.value)
      (fun s => .str (Text.ofString s.value)) (· ∈ PublicProviderState.all) :=
  memberOf_recognizes fun s _ => by cases s <;> decide

omit [UnicodeData] in
theorem freshness_recognizes {message : String} :
    Recognizes (memberOf message SnapshotFreshness.all SnapshotFreshness.value)
      (fun s => .str (Text.ofString s.value)) (· ∈ SnapshotFreshness.all) :=
  memberOf_recognizes fun s _ => by cases s <;> decide

variable {item : Fields} {source : Option String} {credits : Option RateLimitResetCreditsView}

/-- A snapshot is taken if its fields are those of a cacheable one. -/
theorem snapshotOf_eq_ok_iff (hsource : value "source_id" item = Json.orNull (fun s => .str (Text.ofString s)) source)
    (hcredits : value "rate_limit_reset_credits" item =
      Json.orNull (fun c => (CreditsItem.ofView c).json.spell) credits) {s : ProviderSnapshotView} :
    snapshotOf provider source credits item = .ok s ↔
      source = s.sourceId ∧ credits = s.rateLimitResetCredits ∧ Shows item (snapshotFactsOf provider s) ∧
        (∀ w ∈ s.windows, CacheableWindow provider w) ∧
        s.windows.map windowItem = sortWindows (s.windows.map windowItem) ∧
        hasSlots provider s.publicState s.windows = true := by
  constructor
  · intro hok
    obtain ⟨publicState, hpublic, h⟩ := bind_eq_ok_iff.1 hok
    obtain ⟨freshness, hfreshness, h⟩ := bind_eq_ok_iff.1 h
    obtain ⟨observed, hobserved, h⟩ := bind_eq_ok_iff.1 h
    obtain ⟨fetched, hfetched, h⟩ := bind_eq_ok_iff.1 h
    obtain ⟨data, hdata, h⟩ := bind_eq_ok_iff.1 h
    obtain ⟨windows, hwindows, h⟩ := bind_eq_ok_iff.1 h
    split_ifs at h with hsorted hslots hmarkers
    swap
    · obtain ⟨_, _, h⟩ := bind_eq_ok_iff.1 h
      cases h
    obtain ⟨s', hs', h⟩ := bind_eq_ok_iff.1 h
    obtain rfl := Except.ok.inj h
    rw [Bool.and_eq_true, isNull_iff, isNull_iff] at hmarkers
    rw [makeSnapshot_eq_ok_iff] at hs'
    obtain ⟨rfl, rfl, rfl, rfl, rfl, rfl, rfl, rfl⟩ := ProviderSnapshotView.make_eq_some hs'
    rw [publicState_recognizes] at hpublic
    rw [freshness_recognizes] at hfreshness
    rw [timestamp_iff] at hobserved hfetched hdata
    obtain ⟨hwindows, -, hall, -⟩ := (windowsOf_recognizes provider _ _).1 hwindows
    refine ⟨rfl, rfl, ⟨hpublic.1, hfreshness.1, hobserved, hfetched, hdata, hsource, ?_, ?_, hmarkers.1, hmarkers.2⟩,
      hall, not_not.1 hsorted, by simpa using hslots⟩
    · rw [hwindows, snapshotFactsOf, List.map_map]
      rfl
    · rw [hcredits, orNull_ofView]
      rfl
  · rintro ⟨rfl, rfl, hshows, hall, hsorted, hslots⟩
    have hwindows : value "windows" item = .arr (s.windows.map fun w => (windowItem w).json.spell) := by
      rw [hshows.windows, snapshotFactsOf, List.map_map]
      rfl
    refine bind_eq_ok_iff.2 ⟨s.publicState,
      (publicState_recognizes _ _).2 ⟨hshows.publicState, by cases s.publicState <;> decide⟩, ?_⟩
    refine bind_eq_ok_iff.2 ⟨s.freshness,
      (freshness_recognizes _ _).2 ⟨hshows.freshness, by cases s.freshness <;> decide⟩, ?_⟩
    refine bind_eq_ok_iff.2 ⟨s.statusObservedAt, timestamp_iff.2 hshows.observed, ?_⟩
    refine bind_eq_ok_iff.2 ⟨s.fetchedAt, timestamp_iff.2 hshows.fetched, ?_⟩
    refine bind_eq_ok_iff.2 ⟨s.dataAt, timestamp_iff.2 hshows.data, ?_⟩
    refine bind_eq_ok_iff.2 ⟨s.windows,
      (windowsOf_recognizes provider _ _).2 ⟨hwindows, s.windows_le, hall, s.windows_nodup⟩, ?_⟩
    rw [if_neg (not_not.2 hsorted), if_neg (not_not.2 hslots)]
    refine bind_eq_ok_iff.2 ⟨s, makeSnapshot_eq_ok_iff.2 s.make_self, if_pos ?_⟩
    rw [Bool.and_eq_true, isNull_iff, isNull_iff]
    exact ⟨hshows.error, hshows.reason⟩

end Snapshots

/-! ### Facts -/

section Facts

/-- **The facts that the cache takes**: a snapshot of cacheable windows in order, a provider that
is not there, or one that was not run for a reason that is listed. -/
inductive CacheableFacts : ProviderFacts → Prop
  | snapshot (provider : ProviderKey) (s : ProviderSnapshotView)
      (source : ∀ source, s.sourceId = some source → source = provider.expectedSource)
      (windows : ∀ w ∈ s.windows, CacheableWindow provider w)
      (sorted : s.windows.map windowItem = sortWindows (s.windows.map windowItem))
      (slots : hasSlots provider s.publicState s.windows = true) : CacheableFacts (snapshotFactsOf provider s)
  | undetected (provider : ProviderKey) : CacheableFacts (.absent provider .undetected none none)
  | notRun (provider : ProviderKey) (reason : String) (listed : reason ∈ notRunReasons) :
      CacheableFacts (.absent provider .notRun none (some reason))

variable {item : Fields} {source : Option String} {credits : Option RateLimitResetCreditsView} {outcome : ProviderOutcome}
  {facts : ProviderFacts}

/-- Facts that the cache takes have no source, or that of the provider. -/
theorem CacheableFacts.source_trusted (h : CacheableFacts facts) :
    ∀ source, facts.sourceId = some source → source = facts.provider.expectedSource := by
  rcases h with ⟨provider, s, htrusted, -⟩ | provider | provider
  · exact htrusted
  · exact nofun
  · exact nofun

/-- Reset credits are there with a snapshot only. -/
theorem CacheableFacts.exists_credits (h : CacheableFacts facts) : ∃ credits : Option RateLimitResetCreditsView,
    credits.map .ofView = facts.rateLimitResetCredits ∧ (credits.isSome → facts.outcome = .snapshot) := by
  rcases h with ⟨provider, s, -⟩ | provider | provider
  · exact ⟨s.rateLimitResetCredits, rfl, fun _ => rfl⟩
  · exact ⟨none, rfl, nofun⟩
  · exact ⟨none, rfl, nofun⟩

omit [UnicodeData] in
theorem orNull_eq_null {α : Type} {f : α → Json Text} {o : Option α} (hf : ∀ a, f a ≠ .null) (h : Json.orNull f o = .null) :
    o = none := by
  rcases o with _ | a
  · rfl
  · exact absurd h (hf a)

omit [UnicodeData] in
theorem isEmptyArray_iff {x : Json Text} : isEmptyArray x = true ↔ x = .arr [] := by
  unfold isEmptyArray
  split
  · exact iff_of_true rfl rfl
  · next h => exact iff_of_false Bool.false_ne_true h

omit [UnicodeData] in
/-- The fields of a provider without a snapshot. -/
theorem shows_absent (hcredits : value "rate_limit_reset_credits" item = .null) (reason : Option String) :
    Shows item (.absent provider outcome none reason) ↔ isBare item = true ∧
      value "not_run_reason" item = Json.orNull (fun s => .str (Text.ofString s)) reason := by
  rw [isBare, Bool.and_eq_true, List.all_eq_true, isEmptyArray_iff]
  constructor
  · intro h
    refine ⟨⟨fun key hkey => isNull_iff.2 ?_, h.windows⟩, h.reason⟩
    simp only [bareFields, List.mem_cons, List.not_mem_nil, or_false] at hkey
    rcases hkey with rfl | rfl | rfl | rfl | rfl | rfl | rfl
    · exact h.publicState
    · exact h.freshness
    · exact h.observed
    · exact h.fetched
    · exact h.data
    · exact h.source
    · exact h.error
  · rintro ⟨⟨hnull, hwindows⟩, hreason⟩
    have hfield : ∀ key, key ∈ bareFields → value key item = .null := fun key hkey => isNull_iff.1 (hnull key hkey)
    exact ⟨hfield _ (by decide), hfield _ (by decide), hfield _ (by decide), hfield _ (by decide), hfield _ (by decide),
      hfield _ (by decide), hwindows, hcredits, hfield _ (by decide), hreason⟩

omit [UnicodeData] in
/-- The reasons are those of the list. -/
theorem reason_recognizes {message : String} : Recognizes (memberOf message notRunReasons id)
    (fun s => .str (Text.ofString s)) (· ∈ notRunReasons) :=
  memberOf_recognizes (by decide)

/-- **The facts of a provider** are taken if they are cacheable and its fields show them. -/
theorem factsOf_eq_ok_iff
    (hsource : sourceOf "inconsistent cache provider source" provider (value "source_id" item) = .ok source)
    (hcredits : optionally resets (value "rate_limit_reset_credits" item) = .ok credits)
    (hbare : credits.isSome → outcome = .snapshot) : factsOf provider outcome source credits item = .ok facts ↔
      facts.provider = provider ∧ facts.outcome = outcome ∧ Shows item facts ∧ CacheableFacts facts := by
  obtain ⟨hsource', htrusted⟩ := (sourceOf_recognizes _ _ _ _).1 hsource
  obtain ⟨hcredits', -⟩ := (optionally_resets _ _).1 hcredits
  have hnull : outcome ≠ .snapshot → value "rate_limit_reset_credits" item = .null := by
    intro hne
    rcases credits with _ | c
    · exact hcredits'
    · exact absurd (hbare rfl) hne
  constructor
  · intro h
    rcases outcome with _ | _ | _ | _
    · obtain ⟨s, hs, rfl⟩ := map_eq_ok_iff.1 h
      obtain ⟨rfl, rfl, hshows, hwindows, hsorted, hslots⟩ := (snapshotOf_eq_ok_iff hsource' hcredits').1 hs
      exact ⟨rfl, rfl, hshows, .snapshot provider s htrusted hwindows hsorted hslots⟩
    · unfold factsOf at h
      dsimp only at h
      split_ifs at h with hall
      obtain rfl := Except.ok.inj h
      exact ⟨rfl, rfl, (shows_absent (hnull nofun) _).2 ⟨hall.1, isNull_iff.1 hall.2⟩, .undetected provider⟩
    · unfold factsOf at h
      dsimp only at h
      split_ifs at h with hall
      obtain ⟨reason, hreason, h⟩ := bind_eq_ok_iff.1 h
      obtain rfl := Except.ok.inj h
      obtain ⟨hreason, hlisted⟩ := (reason_recognizes _ _).1 hreason
      exact ⟨rfl, rfl, (shows_absent (hnull nofun) _).2 ⟨hall, hreason⟩, .notRun provider reason hlisted⟩
    · cases h
  · rintro ⟨rfl, rfl, hshows, hfacts⟩
    rcases hfacts with ⟨provider, s, hexpected, hwindows, hsorted, hslots⟩ | provider | ⟨provider, reason, hlisted⟩
    · have hsame : source = s.sourceId := by
        have hagain := (sourceOf_recognizes "inconsistent cache provider source" provider _ _).2 ⟨hshows.source, hexpected⟩
        exact Except.ok.inj (hsource.symm.trans hagain)
      have hsame' : credits = s.rateLimitResetCredits := by
        have hagain := (optionally_resets _ s.rateLimitResetCredits).2
          ⟨hshows.credits.trans (orNull_ofView _).symm, fun _ _ => trivial⟩
        exact Except.ok.inj (hcredits.symm.trans hagain)
      have hs := (snapshotOf_eq_ok_iff hsource' hcredits').2 ⟨hsame, hsame', hshows, hwindows, hsorted, hslots⟩
      exact map_eq_ok_iff.2 ⟨s, hs, rfl⟩
    · obtain ⟨hall, hreason⟩ := (shows_absent (hnull nofun) _).1 hshows
      exact if_pos ⟨hall, isNull_iff.2 hreason⟩
    · obtain ⟨hall, hreason⟩ := (shows_absent (hnull nofun) _).1 hshows
      refine (if_pos hall).trans (bind_eq_ok_iff.2 ⟨reason, ?_, rfl⟩)
      exact (reason_recognizes _ _).2 ⟨hreason, hlisted⟩

end Facts

/-! ### Providers -/

section Providers

omit [UnicodeData] in
/-- The window with the least left may say anything: it is compared later. -/
theorem depleted_recognizes : Recognizes depleted (fun d => d.json.spell) fun _ => True := by
  have hsafe := safe_keys depletedFields (by decide)
  have htext : Recognizes (optionally comparedText) (Json.orNull fun s => .str (Text.ofString s))
      fun o => ∀ s, o = some s → True := comparedText_recognizes.optionally nofun
  intro x d
  have hspell : d.json.spell = .obj [(Text.ofString "kind", .str (Text.ofString d.kind.value)),
      (Text.ofString "scope", .str (Text.ofString d.scope)), (Text.ofString "period", .str (Text.ofString d.period)),
      (Text.ofString "plan_id", Json.orNull (fun s => .str (Text.ofString s)) d.planId),
      (Text.ofString "unit", .str (Text.ofString d.unit)),
      (Text.ofString "source_id", Json.orNull (fun s => .str (Text.ofString s)) d.sourceId),
      (Text.ofString "remaining_percentage", .str (Text.ofString d.remainingPercentage))] := by
    rw [DepletedItem.json]
    simp only [Json.spell, Json.spellFields, Json.spell_orNull]
  dsimp only
  rw [hspell]
  constructor
  · intro hok
    obtain ⟨item, hitem, h⟩ := bind_eq_ok_iff.1 hok
    obtain ⟨kind, hkind, h⟩ := bind_eq_ok_iff.1 h
    obtain ⟨scope, hscope, h⟩ := bind_eq_ok_iff.1 h
    obtain ⟨period, hperiod, h⟩ := bind_eq_ok_iff.1 h
    obtain ⟨planId, hplanId, h⟩ := bind_eq_ok_iff.1 h
    obtain ⟨unit, hunit, h⟩ := bind_eq_ok_iff.1 h
    obtain ⟨source, hsource, h⟩ := bind_eq_ok_iff.1 h
    obtain ⟨percentage, hpercentage, h⟩ := bind_eq_ok_iff.1 h
    obtain rfl := Except.ok.inj h
    obtain ⟨rfl, hkeys⟩ := (safeMapping_eq_ok_iff hsafe).1 hitem
    obtain ⟨hkind, -⟩ := (kind_recognizes _ _).1 hkind
    rw [comparedText_recognizes, and_iff_left trivial] at hscope hperiod hunit hpercentage
    obtain ⟨hplanId, -⟩ := (htext _ _).1 hplanId
    obtain ⟨hsource, -⟩ := (htext _ _).1 hsource
    refine ⟨?_, trivial⟩
    rw [Json.fields_eq (by decide) hkeys]
    simp only [depletedFields, List.map_cons, List.map_nil, hkind, hscope, hperiod, hplanId, hunit, hsource, hpercentage]
  · rintro ⟨rfl, -⟩
    rw [depleted]
    refine bind_eq_ok_iff.2 ⟨_, (safeMapping_eq_ok_iff hsafe).2 ⟨rfl, rfl⟩, ?_⟩
    refine bind_eq_ok_iff.2 ⟨d.kind, (kind_recognizes _ _).2 ⟨rfl, by cases d.kind <;> decide⟩, ?_⟩
    refine bind_eq_ok_iff.2 ⟨d.scope, (comparedText_recognizes _ _).2 ⟨rfl, trivial⟩, ?_⟩
    refine bind_eq_ok_iff.2 ⟨d.period, (comparedText_recognizes _ _).2 ⟨rfl, trivial⟩, ?_⟩
    refine bind_eq_ok_iff.2 ⟨d.planId, (htext _ _).2 ⟨rfl, fun _ _ => trivial⟩, ?_⟩
    refine bind_eq_ok_iff.2 ⟨d.unit, (comparedText_recognizes _ _).2 ⟨rfl, trivial⟩, ?_⟩
    refine bind_eq_ok_iff.2 ⟨d.sourceId, (htext _ _).2 ⟨rfl, fun _ _ => trivial⟩, ?_⟩
    exact bind_eq_ok_iff.2 ⟨d.remainingPercentage, (comparedText_recognizes _ _).2 ⟨rfl, trivial⟩, rfl⟩

/-- **A provider that the cache takes**: of cacheable facts, and of safe texts. -/
structure CacheableProvider (p : ProviderItem) : Prop where
  facts : CacheableFacts p.toProviderFacts
  compact : SafeText 128 false p.presentation.compactText
  alternate : SafeText 128 false p.presentation.alternateText
  tooltip : SafeText 4096 true p.presentation.tooltipText

/-- The fields that are written of a provider. -/
def providerEntries (p : ProviderItem) : Fields :=
  [(Text.ofString "provider", .str (Text.ofString p.provider.value)),
    (Text.ofString "outcome", .str (Text.ofString p.outcome.value)),
    (Text.ofString "public_state", Json.orNull (fun s => .str (Text.ofString s.value)) p.publicState),
    (Text.ofString "freshness", Json.orNull (fun s => .str (Text.ofString s.value)) p.freshness),
    (Text.ofString "status_observed_at", Json.orNull (fun t => .str (Text.ofString t.text)) p.statusObservedAt),
    (Text.ofString "fetched_at", Json.orNull (fun t => .str (Text.ofString t.text)) p.fetchedAt),
    (Text.ofString "data_at", Json.orNull (fun t => .str (Text.ofString t.text)) p.dataAt),
    (Text.ofString "source_id", Json.orNull (fun s => .str (Text.ofString s)) p.sourceId),
    (Text.ofString "windows", .arr (p.windows.map fun w => w.json.spell)),
    (Text.ofString "rate_limit_reset_credits", Json.orNull (fun c => c.json.spell) p.rateLimitResetCredits),
    (Text.ofString "execution_error", Json.orNull (fun e => e.json.spell) p.executionError),
    (Text.ofString "not_run_reason", Json.orNull (fun s => .str (Text.ofString s)) p.notRunReason),
    (Text.ofString "most_depleted_window", Json.orNull (fun d => d.json.spell) p.presentation.mostDepletedWindow),
    (Text.ofString "compact_text", .str (Text.ofString p.presentation.compactText)),
    (Text.ofString "alternate_text", .str (Text.ofString p.presentation.alternateText)),
    (Text.ofString "tooltip_text", .str (Text.ofString p.presentation.tooltipText))]

omit [UnicodeData] in
theorem spell_providerItem (p : ProviderItem) : p.json.spell = .obj (providerEntries p) := by
  rw [ProviderItem.json]
  simp only [Json.spell, Json.spellFields, Json.spell_orNull, Json.spellItems_eq_map, List.map_map]
  rfl

omit [UnicodeData] in
theorem shows_providerEntries (p : ProviderItem) : Shows (providerEntries p) p.toProviderFacts :=
  ⟨rfl, rfl, rfl, rfl, rfl, rfl, rfl, rfl, rfl, rfl⟩

omit [UnicodeData] in
theorem provider_recognizes {message : String} : Recognizes (requiredMember message ProviderKey.all ProviderKey.value)
    (fun p => .str (Text.ofString p.value)) (· ∈ ProviderKey.all) :=
  fun _ _ => requiredMember_eq.trans (memberOf_recognizes (fun p _ => by cases p <;> decide) _ _)

omit [UnicodeData] in
theorem outcome_recognizes {message : String} : Recognizes (requiredMember message outcomes ProviderOutcome.value)
    (fun o => .str (Text.ofString o.value)) (· ∈ outcomes) :=
  fun _ _ => requiredMember_eq.trans (memberOf_recognizes (fun o _ => by cases o <;> decide) _ _)

omit [UnicodeData] in
/-- The fields that are texts or null are those of every provider. -/
theorem optionalTexts_ok {item : Fields} {facts : ProviderFacts} (h : Shows item facts) :
    ∃ texts, (optionalTexts.mapM fun key => optionally requiredText (value key item)) = .ok texts := by
  have hall : ∀ {α : Type} (f : α → Text) (o : Option α), ∃ t,
      optionally requiredText (Json.orNull (fun a => .str (f a)) o) = .ok t := by
    intro α f o
    rcases o with _ | a
    · exact ⟨none, rfl⟩
    · exact ⟨some (f a), rfl⟩
  obtain ⟨t1, h1⟩ := hall _ facts.publicState
  obtain ⟨t2, h2⟩ := hall _ facts.freshness
  obtain ⟨t3, h3⟩ := hall _ facts.statusObservedAt
  obtain ⟨t4, h4⟩ := hall _ facts.fetchedAt
  obtain ⟨t5, h5⟩ := hall _ facts.dataAt
  obtain ⟨t6, h6⟩ := hall _ facts.sourceId
  rw [← h.publicState] at h1
  rw [← h.freshness] at h2
  rw [← h.observed] at h3
  rw [← h.fetched] at h4
  rw [← h.data] at h5
  rw [← h.source] at h6
  refine ⟨[t1, t2, t3, t4, t5, t6], mapM_eq_ok_iff.2 ?_⟩
  exact .cons h1 (.cons h2 (.cons h3 (.cons h4 (.cons h5 (.cons h6 .nil)))))

theorem providerItem_recognizes (keys : List ProviderKey) : Recognizes (providerItem keys) (fun p => p.json.spell)
    fun p => CacheableProvider p ∧ p.provider ∉ keys := by
  have hsafe := safe_keys providerFields (by decide)
  have hdepleted : Recognizes (optionally depleted) (Json.orNull fun d => d.json.spell) fun o => ∀ d, o = some d → True :=
    depleted_recognizes.optionally nofun
  intro x p
  constructor
  · intro hok
    obtain ⟨item, hitem, h⟩ := bind_eq_ok_iff.1 hok
    obtain ⟨provider, hprovider, h⟩ := bind_eq_ok_iff.1 h
    split_ifs at h with hseen
    obtain ⟨outcome, houtcome, h⟩ := bind_eq_ok_iff.1 h
    obtain ⟨texts, -, h⟩ := bind_eq_ok_iff.1 h
    obtain ⟨source, hsource, h⟩ := bind_eq_ok_iff.1 h
    obtain ⟨credits, hcredits, h⟩ := bind_eq_ok_iff.1 h
    split_ifs at h with hunexpected
    obtain ⟨facts, hfacts, h⟩ := bind_eq_ok_iff.1 h
    obtain ⟨compact, hcompact, h⟩ := bind_eq_ok_iff.1 h
    obtain ⟨alternate, halternate, h⟩ := bind_eq_ok_iff.1 h
    obtain ⟨tooltip, htooltip, h⟩ := bind_eq_ok_iff.1 h
    obtain ⟨most, hmost, h⟩ := bind_eq_ok_iff.1 h
    obtain rfl := Except.ok.inj h
    obtain ⟨rfl, hkeys⟩ := (safeMapping_eq_ok_iff hsafe).1 hitem
    have hbare : credits.isSome → outcome = .snapshot := fun hsome => by_contra fun hne => hunexpected ⟨hsome, hne⟩
    obtain ⟨rfl, rfl, hshows, hcacheable⟩ := (factsOf_eq_ok_iff hsource hcredits hbare).1 hfacts
    obtain ⟨hprovider, -⟩ := (provider_recognizes _ _).1 hprovider
    obtain ⟨houtcome, -⟩ := (outcome_recognizes _ _).1 houtcome
    obtain ⟨hcompact, hcompactSafe⟩ := (safeText_recognizes _ _).1 hcompact
    obtain ⟨halternate, halternateSafe⟩ := (safeText_recognizes _ _).1 halternate
    obtain ⟨htooltip, htooltipSafe⟩ := (safeText_recognizes _ _).1 htooltip
    obtain ⟨hmost, -⟩ := (hdepleted _ _).1 hmost
    refine ⟨?_, ⟨hcacheable, hcompactSafe, halternateSafe, htooltipSafe⟩, hseen⟩
    dsimp only
    rw [Json.fields_eq (by decide) hkeys, spell_providerItem, providerEntries]
    simp only [providerFields, List.map_cons, List.map_nil, hprovider, houtcome, hshows.publicState, hshows.freshness,
      hshows.observed, hshows.fetched, hshows.data, hshows.source, hshows.windows, hshows.credits, hshows.error,
      hshows.reason, hmost, hcompact, halternate, htooltip]
  · rintro ⟨rfl, hp, hseen⟩
    have hshows := shows_providerEntries p
    obtain ⟨texts, htexts⟩ := optionalTexts_ok hshows
    obtain ⟨credits, hview, hbare⟩ := hp.facts.exists_credits
    have hsource := (sourceOf_recognizes "inconsistent cache provider source" p.provider _ _).2
      ⟨hshows.source, hp.facts.source_trusted⟩
    have hcredits := (optionally_resets (value "rate_limit_reset_credits" (providerEntries p)) credits).2
      ⟨hshows.credits.trans (by rw [orNull_ofView, hview]), fun _ _ => trivial⟩
    dsimp only
    rw [spell_providerItem, providerItem]
    refine bind_eq_ok_iff.2 ⟨_, (safeMapping_eq_ok_iff hsafe).2 ⟨rfl, rfl⟩, ?_⟩
    refine bind_eq_ok_iff.2 ⟨p.provider, (provider_recognizes _ _).2 ⟨rfl, by cases p.provider <;> decide⟩, ?_⟩
    rw [if_neg hseen]
    refine bind_eq_ok_iff.2 ⟨p.outcome, (outcome_recognizes _ _).2 ⟨rfl, by cases p.outcome <;> decide⟩, ?_⟩
    refine bind_eq_ok_iff.2 ⟨texts, htexts, bind_eq_ok_iff.2 ⟨p.sourceId, hsource, ?_⟩⟩
    refine bind_eq_ok_iff.2 ⟨credits, hcredits, ?_⟩
    rw [if_neg fun hunexpected => hunexpected.2 (hbare hunexpected.1)]
    refine bind_eq_ok_iff.2 ⟨p.toProviderFacts, (factsOf_eq_ok_iff hsource hcredits hbare).2 ⟨rfl, rfl, hshows, hp.facts⟩, ?_⟩
    refine bind_eq_ok_iff.2 ⟨p.presentation.compactText, (safeText_recognizes _ _).2 ⟨rfl, hp.compact⟩, ?_⟩
    refine bind_eq_ok_iff.2 ⟨p.presentation.alternateText, (safeText_recognizes _ _).2 ⟨rfl, hp.alternate⟩, ?_⟩
    refine bind_eq_ok_iff.2 ⟨p.presentation.tooltipText, (safeText_recognizes _ _).2 ⟨rfl, hp.tooltip⟩, ?_⟩
    exact bind_eq_ok_iff.2 ⟨p.presentation.mostDepletedWindow, (hdepleted _ _).2 ⟨rfl, fun _ _ => trivial⟩, rfl⟩

end Providers

/-! ### Documents -/

section Documents

/-- There are two providers, and they are different ones. -/
theorem providersOf_recognizes : Recognizes providersOf (fun providers => .arr (providers.map fun p => p.json.spell))
    fun providers => providers.length = 2 ∧ (∀ p ∈ providers, CacheableProvider p) ∧
      (providers.map (·.provider)).Nodup := by
  intro x providers
  dsimp only
  constructor
  · intro h
    unfold providersOf at h
    split at h
    · split_ifs at h with hcount
      obtain ⟨rfl, hall, hnodup, -⟩ := (Json.distinct_eq_ok_iff providerItem_recognizes).1 h
      rw [List.length_map, not_not] at hcount
      exact ⟨rfl, hcount, hall, hnodup⟩
    · cases h
  · rintro ⟨rfl, hcount, hall, hnodup⟩
    have htwo : ¬(providers.map fun p => p.json.spell).length ≠ 2 := by rw [List.length_map, not_not, hcount]
    refine (if_neg htwo).trans ((Json.distinct_eq_ok_iff providerItem_recognizes).2 ⟨rfl, hall, hnodup, ?_⟩)
    exact fun _ _ => List.not_mem_nil

/-- What is shown of all providers together, where the cache takes it. -/
structure CacheableGeneral (g : GeneralItem) : Prop where
  compact : SafeText 263 false g.compactText
  alternate : SafeText 265 false g.alternateText
  tooltip : SafeText 8194 true g.tooltipText

/-- The general texts must be safe. -/
theorem generalOf_recognizes : Recognizes generalOf (fun g => g.json.spell) CacheableGeneral := by
  have hsafe := safe_keys generalFields (by decide)
  intro x g
  have hspell : g.json.spell = .obj [(Text.ofString "compact_text", .str (Text.ofString g.compactText)),
      (Text.ofString "alternate_text", .str (Text.ofString g.alternateText)),
      (Text.ofString "tooltip_text", .str (Text.ofString g.tooltipText))] := rfl
  dsimp only
  rw [hspell]
  constructor
  · intro hok
    obtain ⟨item, hitem, h⟩ := bind_eq_ok_iff.1 hok
    obtain ⟨compact, hcompact, h⟩ := bind_eq_ok_iff.1 h
    obtain ⟨alternate, halternate, h⟩ := bind_eq_ok_iff.1 h
    obtain ⟨tooltip, htooltip, h⟩ := bind_eq_ok_iff.1 h
    obtain rfl := Except.ok.inj h
    obtain ⟨rfl, hkeys⟩ := (safeMapping_eq_ok_iff hsafe).1 hitem
    obtain ⟨hcompact, hcompactSafe⟩ := (safeText_recognizes _ _).1 hcompact
    obtain ⟨halternate, halternateSafe⟩ := (safeText_recognizes _ _).1 halternate
    obtain ⟨htooltip, htooltipSafe⟩ := (safeText_recognizes _ _).1 htooltip
    refine ⟨?_, hcompactSafe, halternateSafe, htooltipSafe⟩
    rw [Json.fields_eq (by decide) hkeys]
    simp only [generalFields, List.map_cons, List.map_nil, hcompact, halternate, htooltip]
  · rintro ⟨rfl, hg⟩
    rw [generalOf]
    refine bind_eq_ok_iff.2 ⟨_, (safeMapping_eq_ok_iff hsafe).2 ⟨rfl, rfl⟩, ?_⟩
    refine bind_eq_ok_iff.2 ⟨g.compactText, (safeText_recognizes _ _).2 ⟨rfl, hg.compact⟩, ?_⟩
    refine bind_eq_ok_iff.2 ⟨g.alternateText, (safeText_recognizes _ _).2 ⟨rfl, hg.alternate⟩, ?_⟩
    exact bind_eq_ok_iff.2 ⟨g.tooltipText, (safeText_recognizes _ _).2 ⟨rfl, hg.tooltip⟩, rfl⟩

omit [UnicodeData] in
/-- The error is none, or that of a failed cleanup in a document of that state. -/
theorem executionErrorOf_recognizes (state : ExecutionState) : Recognizes (executionErrorOf state)
    (Json.orNull fun e : ErrorItem => e.json.spell) fun error =>
      (error = none ∧ state ≠ .executionError) ∨ (error = some cleanupError ∧ state = .executionError) := by
  have hsafe := safe_keys errorFields (by decide)
  have hspell : ∀ e : ErrorItem, e.json.spell = .obj [(Text.ofString "code", .str (Text.ofString e.code)),
      (Text.ofString "phase", .str (Text.ofString e.phase))] := fun _ => rfl
  intro x error
  unfold executionErrorOf
  by_cases hnull : x = .null
  · subst hnull
    rw [if_pos (isNull_iff.2 rfl)]
    constructor
    · intro h
      split_ifs at h with hstate
      obtain rfl := Except.ok.inj h
      exact ⟨rfl, Or.inl ⟨rfl, hstate⟩⟩
    · rintro ⟨hnull, hstate⟩
      obtain rfl := orNull_eq_null nofun hnull.symm
      exact if_neg (hstate.resolve_right nofun).2
  · rw [if_neg fun h => hnull (isNull_iff.1 h)]
    constructor
    · intro hok
      obtain ⟨item, hitem, h⟩ := bind_eq_ok_iff.1 hok
      obtain ⟨code, hcode, h⟩ := bind_eq_ok_iff.1 h
      obtain ⟨phase, hphase, h⟩ := bind_eq_ok_iff.1 h
      split_ifs at h with hother
      obtain rfl := Except.ok.inj h
      rw [not_or, not_not, not_not] at hother
      obtain ⟨rfl, hkeys⟩ := (safeMapping_eq_ok_iff hsafe).1 hitem
      rw [comparedText_recognizes, and_iff_left trivial] at hcode hphase
      refine ⟨?_, Or.inr ⟨congrArg some hother.1, hother.2⟩⟩
      rw [Json.fields_eq (by decide) hkeys]
      simp only [errorFields, List.map_cons, List.map_nil, hcode, hphase]
      rfl
    · rintro ⟨rfl, ⟨rfl, -⟩ | ⟨rfl, hstate⟩⟩
      · exact absurd rfl hnull
      rw [Json.orNull, hspell]
      refine bind_eq_ok_iff.2 ⟨_, (safeMapping_eq_ok_iff hsafe).2 ⟨rfl, rfl⟩, ?_⟩
      refine bind_eq_ok_iff.2 ⟨cleanupError.code, (comparedText_recognizes _ _).2 ⟨rfl, trivial⟩, ?_⟩
      refine bind_eq_ok_iff.2 ⟨cleanupError.phase, (comparedText_recognizes _ _).2 ⟨rfl, trivial⟩, ?_⟩
      exact if_neg (not_or.2 ⟨not_not.2 rfl, not_not.2 hstate⟩)

omit [UnicodeData] in
/-- **The state of a document** that passes the checks is that of its providers, of which one is
usable and none has failed, unless a cleanup failed. -/
theorem checkState_iff {state : ExecutionState} {error : Option ErrorItem} {outcomes : List ProviderOutcome}
    (husable : outcomes.any (·.successful) = true) (hfailed : .executionError ∉ outcomes) :
    ((error = none ∧ state ≠ .executionError) ∨ (error = some cleanupError ∧ state = .executionError)) ∧
        checkState state error outcomes = .ok () ↔
      ∃ e, (e = none ∨ e = some .cleanupFailed) ∧ documentState e outcomes = (state, error) := by
  have hcleanup : documentState (some .cleanupFailed) outcomes = (.executionError, some cleanupError) := rfl
  have hnotRun : (outcomes.any fun o => decide (o ≠ .notRun)) = true := by
    obtain ⟨o, ho, hsuccess⟩ := List.any_eq_true.1 husable
    refine List.any_eq_true.2 ⟨o, ho, decide_eq_true ?_⟩
    rintro rfl
    cases hsuccess
  have hfails : (outcomes.any fun o => !o.successful) = !outcomes.all (·.successful) := by
    rw [List.not_all_eq_any_not]
  have hpartial : (outcomes.any fun o => decide (o = .notRun ∨ o = .executionError)) = !outcomes.all (·.successful) := by
    rw [List.not_all_eq_any_not, Bool.eq_iff_iff, List.any_eq_true, List.any_eq_true]
    refine exists_congr fun o => and_congr_right fun ho => ?_
    rcases o with _ | _ | _ | _
    · rfl
    · rfl
    · rfl
    · exact absurd ho hfailed
  have hnone : documentState none outcomes =
      if outcomes.all (·.successful) then (.complete, none) else (.partialState, none) := by
    rw [documentState, if_pos husable]
  unfold checkState
  rw [hnotRun, husable, hfails, hpartial]
  constructor
  · rintro ⟨⟨rfl, hstate⟩ | ⟨rfl, rfl⟩, hcheck⟩
    · refine ⟨none, Or.inl rfl, ?_⟩
      rw [hnone]
      generalize outcomes.all (·.successful) = all at hcheck ⊢
      rcases all with _ | _ <;> rcases state with _ | _ | _ | _ <;> simp at hcheck hstate ⊢
    · exact ⟨_, Or.inr rfl, hcleanup⟩
  · rintro ⟨e, rfl | rfl, h⟩
    · rw [hnone] at h
      split_ifs at h with hall
      · obtain ⟨rfl, rfl⟩ := Prod.mk.inj h
        simp [hall]
      · obtain ⟨rfl, rfl⟩ := Prod.mk.inj h
        simp [hall]
    · obtain ⟨rfl, rfl⟩ := Prod.mk.inj (hcleanup.symm.trans h)
      simp

/-- **A document that the cache takes.** -/
structure Cacheable (formatter : TimestampFormatter) (d : Document) : Prop where
  keys : d.providers.map (·.provider) = [.codex, .opencodeGo]
  providers : ∀ p ∈ d.providers, CacheableProvider p
  usable : (d.providers.map (·.outcome)).any (·.successful) = true
  general : CacheableGeneral d.general
  state : ∃ e, (e = none ∨ e = some .cleanupFailed) ∧
    documentState e (d.providers.map (·.outcome)) = (d.executionState, d.executionError)
  texts : presentationMatches formatter d = .ok ()

/-- No provider of the cache has failed. -/
theorem CacheableFacts.outcome_ne {facts : ProviderFacts} (h : CacheableFacts facts) : facts.outcome ≠ .executionError := by
  rcases h with ⟨provider, s⟩ | provider | provider
  · exact nofun
  · exact nofun
  · exact nofun

omit [UnicodeData] in
theorem state_recognizes {message : String} : Recognizes (memberOf message executionStates ExecutionState.value)
    (fun s => .str (Text.ofString s.value)) (· ∈ executionStates) :=
  memberOf_recognizes fun s _ => by cases s <;> decide

/-- **What the cache accepts**: what is written of a document that it takes, and no other value. -/
theorem validateDocument_recognizes (formatter : TimestampFormatter) :
    Recognizes (validateDocument formatter) (fun d => d.json.spell) (Cacheable formatter) := by
  have hsafe := safe_keys rootFields (by decide)
  intro x d
  have hspell : d.json.spell = .obj [(Text.ofString "execution_state", .str (Text.ofString d.executionState.value)),
      (Text.ofString "execution_error", Json.orNull (fun e => e.json.spell) d.executionError),
      (Text.ofString "general", d.general.json.spell),
      (Text.ofString "providers", .arr (d.providers.map fun p => p.json.spell))] := by
    rw [Document.json]
    simp only [Json.spell, Json.spellFields, Json.spell_orNull, Json.spellItems_eq_map, List.map_map]
    rfl
  have hany : ∀ providers : List ProviderItem, (providers.map (·.outcome)).any (·.successful) =
      providers.any (·.outcome.successful) := fun providers => List.any_map
  have hfailed : ∀ providers : List ProviderItem, (∀ p ∈ providers, CacheableProvider p) →
      .executionError ∉ providers.map (·.outcome) := by
    intro providers hall hmem
    obtain ⟨p, hp, houtcome⟩ := List.mem_map.1 hmem
    exact (hall p hp).facts.outcome_ne houtcome
  dsimp only
  constructor
  · intro hok
    obtain ⟨root, hroot, h⟩ := bind_eq_ok_iff.1 hok
    obtain ⟨shown, hshown, h⟩ := bind_eq_ok_iff.1 h
    obtain ⟨state, hstate, h⟩ := bind_eq_ok_iff.1 h
    obtain ⟨providers, hproviders, h⟩ := bind_eq_ok_iff.1 h
    split_ifs at h with hbad
    obtain ⟨error, herror, h⟩ := bind_eq_ok_iff.1 h
    obtain ⟨⟨⟩, htexts, h⟩ := bind_eq_ok_iff.1 h
    obtain ⟨⟨⟩, hcheck, h⟩ := bind_eq_ok_iff.1 h
    obtain rfl := Except.ok.inj h
    rw [not_or, not_not, not_not] at hbad
    obtain ⟨rfl, hkeys⟩ := (safeMapping_eq_ok_iff hsafe).1 hroot
    obtain ⟨hshown, hgeneral⟩ := (generalOf_recognizes _ _).1 hshown
    obtain ⟨hstate, -⟩ := (state_recognizes _ _).1 hstate
    obtain ⟨hproviders, -, hall, -⟩ := (providersOf_recognizes _ _).1 hproviders
    obtain ⟨herror, hcleanup⟩ := (executionErrorOf_recognizes state _ _).1 herror
    have husable : (providers.map (·.outcome)).any (·.successful) = true := (hany providers).trans hbad.2
    refine ⟨?_, hbad.1, hall, husable, hgeneral,
      (checkState_iff husable (hfailed providers hall)).1 ⟨hcleanup, hcheck⟩, htexts⟩
    rw [Json.fields_eq (by decide) hkeys, hspell]
    simp only [rootFields, List.map_cons, List.map_nil, hstate, herror, hshown, hproviders]
  · rintro ⟨rfl, hd⟩
    obtain ⟨hcleanup, hcheck⟩ := (checkState_iff hd.usable (hfailed _ hd.providers)).2 hd.state
    have hlength : d.providers.length = 2 := by simpa using congrArg List.length hd.keys
    have hnodup : (d.providers.map (·.provider)).Nodup := by
      rw [hd.keys]
      decide
    rw [hspell, validateDocument]
    refine bind_eq_ok_iff.2 ⟨_, (safeMapping_eq_ok_iff hsafe).2 ⟨rfl, rfl⟩, ?_⟩
    refine bind_eq_ok_iff.2 ⟨d.general, (generalOf_recognizes _ _).2 ⟨rfl, hd.general⟩, ?_⟩
    refine bind_eq_ok_iff.2 ⟨d.executionState, (state_recognizes _ _).2 ⟨rfl, by cases d.executionState <;> decide⟩, ?_⟩
    refine bind_eq_ok_iff.2 ⟨d.providers, (providersOf_recognizes _ _).2 ⟨rfl, hlength, hd.providers, hnodup⟩, ?_⟩
    rw [if_neg (not_or.2 ⟨not_not.2 hd.keys, not_not.2 ((hany _).symm.trans hd.usable)⟩)]
    refine bind_eq_ok_iff.2 ⟨d.executionError, (executionErrorOf_recognizes _ _ _).2 ⟨rfl, hcleanup⟩, ?_⟩
    exact bind_eq_ok_iff.2 ⟨(), hd.texts, bind_eq_ok_iff.2 ⟨(), hcheck, rfl⟩⟩

end Documents

end Cache

end YasbLimitora
