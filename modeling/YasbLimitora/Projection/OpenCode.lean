import Mathlib
import YasbLimitora.Lib.Except
import YasbLimitora.Projection.Project

/-!
# The windows of an OpenCode snapshot

A snapshot that is available, or partially, is projected to one commercial window for each
fixed period, and to its other windows as they are
(`YasbLimitora.opencode_windows_normalised`). What a projected window has of its window
comes first; it can only be missing if the `NFC` normal form untrims a text
(`YasbLimitora.NfcTrims`), which that of Unicode does not.

The periods are three, and a snapshot may have none, one or several commercial windows of each. A
slot is filled only where there is one window of its period and that is known and trusted, by
`YasbLimitora.IsOnlyKnown`; in every other case it is a placeholder, which says that the period
exists and nothing else. So a document of such a snapshot always has its three slots, and the cache
may insist on them.
-/

namespace YasbLimitora

/-! ### Items -/

/-- What tells the windows of a provider apart. -/
def WindowItem.identity (w : WindowItem) : QuotaWindowKind × String × String :=
  (w.kind, w.scope, w.period)

/-- What would tell of a provider: values, a reset or a plan. -/
def WindowItem.CarriesData (w : WindowItem) : Prop :=
  w.planId.isSome ∨ w.limit.isSome ∨ w.used.isSome ∨ w.remaining.isSome ∨ w.resetAt.isSome

/-- A placeholder tells nothing. -/
theorem not_carriesData_placeholder (period scope : String) :
    ¬(opencodePlaceholder period scope).CarriesData := by
  simp [opencodePlaceholder, WindowItem.CarriesData]

/-- A text that passes the check is returned as it is. -/
theorem identityText_eq_ok {value message s : String} (h : identityText value message = .ok s) :
    s = value := by
  unfold identityText at h
  split at h
  · exact nomatch h
  · exact (Except.ok.inj h).symm

/-- A value that may be absent is projected if it is whenever it is there. -/
theorem projectOption_isOk {α β : Type} {f : α → Except ProjectionError β} {o : Option α}
    (h : ∀ a, o = some a → ∃ b, f a = .ok b) : ∃ r, projectOption f o = .ok r := by
  rcases o with _ | a
  · exact ⟨none, rfl⟩
  · obtain ⟨b, hb⟩ := h a rfl
    exact ⟨some b, by rw [projectOption, hb, ok_map]⟩

variable [UnicodeData]

/-! ### Projected windows -/

/-- The normal form of a text with nothing to strip has nothing to strip either. -/
def NfcTrims : Prop :=
  ∀ s : String, s ≠ "" → strip s = s → UnicodeData.nfc s ≠ "" ∧ strip (UnicodeData.nfc s) = UnicodeData.nfc s

/-- A sanitized identity passes the second check. -/
theorem identityText_of_isIdentity (hnfc : NfcTrims) {s : String} (h : IsIdentity s)
    (message : String) : identityText s message = .ok s := by
  obtain ⟨value, m, hs⟩ := h
  obtain ⟨hne, hstrip, rfl, hlength, hcontrol⟩ := canonicalIdentity_eq_ok_iff.1 hs
  obtain ⟨hne', hstrip'⟩ := hnfc value hne hstrip
  refine if_neg ?_
  rintro (hempty | huntrimmed | hlong | hbad)
  · exact hne' hempty
  · exact huntrimmed hstrip'
  · omega
  · rw [hcontrol] at hbad
    exact nomatch hbad

/-- Each quantity is projected. -/
theorem projectQuantity_isOk (hnfc : NfcTrims) (q : QuotaQuantity) :
    ∃ item, projectQuantity q = .ok item :=
  ⟨_, by rw [projectQuantity, identityText_of_isIdentity hnfc q.unit_identity, ok_bind]; rfl⟩

/-- Each window is projected: its texts were sanitized when it was built. -/
theorem projectWindow_isOk (hnfc : NfcTrims) (provider : ProviderKey) (w : QuotaWindowView) :
    ∃ item, projectWindow provider w = .ok item := by
  have hquantity : ∀ o : Option QuotaQuantity, ∃ r, projectOption projectQuantity o = .ok r :=
    fun o => projectOption_isOk fun q _ => projectQuantity_isOk hnfc q
  have hplan : ∃ r, projectOption (identityText · "invalid current plan id")
      (if (projectSource w.sourceId provider).isSome then w.planId else none) = .ok r := by
    refine projectOption_isOk fun p hp => ⟨p, identityText_of_isIdentity hnfc ?_ _⟩
    split at hp
    · exact w.planId_identity p hp
    · exact nomatch hp
  obtain ⟨planId, hplan⟩ := hplan
  obtain ⟨limit, hlimit⟩ :=
    hquantity (if (projectSource w.sourceId provider).isSome then w.limit else none)
  obtain ⟨used, hused⟩ :=
    hquantity (if (projectSource w.sourceId provider).isSome then w.used else none)
  obtain ⟨remaining, hremaining⟩ :=
    hquantity (if (projectSource w.sourceId provider).isSome then w.remaining else none)
  unfold projectWindow
  dsimp only
  rw [hplan, ok_bind, identityText_of_isIdentity hnfc w.scope_identity, ok_bind,
    identityText_of_isIdentity hnfc w.period_identity, ok_bind, hlimit, ok_bind, hused, ok_bind,
    hremaining, ok_bind]
  exact ⟨_, rfl⟩

/-- **A projected window** keeps the identity of its window, and what it has comes with
the source of the provider. -/
theorem projectWindow_eq_ok {provider : ProviderKey} {w : QuotaWindowView} {item : WindowItem}
    (h : projectWindow provider w = .ok item) :
    item.identity = w.identity ∧ item.sourceId = projectSource w.sourceId provider ∧
      (item.availability = .known → w.availability = .known) := by
  unfold projectWindow at h
  obtain ⟨planId, -, h⟩ := bind_eq_ok_iff.1 h
  obtain ⟨scope, hscope, h⟩ := bind_eq_ok_iff.1 h
  obtain ⟨period, hperiod, h⟩ := bind_eq_ok_iff.1 h
  obtain ⟨limit, -, h⟩ := bind_eq_ok_iff.1 h
  obtain ⟨used, -, h⟩ := bind_eq_ok_iff.1 h
  obtain ⟨remaining, -, h⟩ := bind_eq_ok_iff.1 h
  obtain rfl := Except.ok.inj h
  obtain rfl := identityText_eq_ok hscope
  obtain rfl := identityText_eq_ok hperiod
  refine ⟨rfl, rfl, fun hknown => ?_⟩
  by_cases htrusted : (projectSource w.sourceId provider).isSome
  · simpa [htrusted] using hknown
  · simp [htrusted] at hknown

/-! ### Fixed periods -/

/-- A commercial window of a fixed period is the one the snapshot has for it. -/
structure IsOnlyKnown (windows : List QuotaWindowView) (w : QuotaWindowView) : Prop where
  mem : w ∈ windows
  kind : w.kind = .commercialQuota
  known : w.availability = .known
  source : projectSource w.sourceId .opencodeGo = some OPENCODE_SOURCE_ID
  only : ∀ v ∈ windows, v.kind = .commercialQuota → v.period = w.period → v = w

/-- A candidate for a period is a commercial window of that period. -/
theorem isCandidate_iff {period : String} {w : QuotaWindowView} :
    isCandidate period w ↔
      w.kind = .commercialQuota ∧ (identityText w.period "").isOk ∧ w.period = period := by
  simp [isCandidate, and_assoc]

/-- The one candidate for a period is the only window of it. -/
theorem isOnlyKnown_of_filter {windows : List QuotaWindowView} {period : String}
    {w : QuotaWindowView} {item : WindowItem} (hfilter : windows.filter (isCandidate period) = [w])
    (hproject : projectWindow .opencodeGo w = .ok item) (hknown : item.availability = .known)
    (hsource : item.sourceId = some OPENCODE_SOURCE_ID) : IsOnlyKnown windows w := by
  have hw : w ∈ windows.filter (isCandidate period) := hfilter ▸ List.mem_singleton_self w
  obtain ⟨hmem, hcandidate⟩ := List.mem_filter.1 hw
  obtain ⟨hkind, hok, rfl⟩ := isCandidate_iff.1 hcandidate
  obtain ⟨-, hitem, hback⟩ := projectWindow_eq_ok hproject
  refine ⟨hmem, hkind, hback hknown, hitem ▸ hsource, fun v hv hvkind hvperiod => ?_⟩
  have hvok : (identityText v.period "").isOk := hvperiod ▸ hok
  have hvfilter := List.mem_filter.2 ⟨hv, isCandidate_iff.2 ⟨hvkind, hvok, hvperiod⟩⟩
  rw [hfilter] at hvfilter
  exact List.mem_singleton.1 hvfilter

/-- **A slot** is commercial and of its period, and it is a placeholder unless it projects
the one known window of the period. -/
theorem opencodeSlot_spec (windows : List QuotaWindowView) (period : String) :
    (opencodeSlot windows period).kind = .commercialQuota ∧
      (opencodeSlot windows period).period = period ∧
      ((opencodeSlot windows period).CarriesData → ∃ w, IsOnlyKnown windows w ∧
        projectWindow .opencodeGo w = .ok (opencodeSlot windows period)) := by
  have hplaceholder : ∀ scope : String, (opencodePlaceholder period scope).kind = .commercialQuota ∧
      (opencodePlaceholder period scope).period = period ∧
      ((opencodePlaceholder period scope).CarriesData → ∃ w, IsOnlyKnown windows w ∧
        projectWindow .opencodeGo w = .ok (opencodePlaceholder period scope)) :=
    fun scope => ⟨rfl, rfl, fun h => absurd h (not_carriesData_placeholder period scope)⟩
  unfold opencodeSlot
  split
  · next candidate hfilter =>
    have hw : candidate ∈ windows.filter (isCandidate period) :=
      hfilter ▸ List.mem_singleton_self candidate
    obtain ⟨hkind, -, hperiod⟩ := isCandidate_iff.1 (List.mem_filter.1 hw).2
    split
    · exact hplaceholder "account"
    · next item hproject =>
      split
      · exact hplaceholder item.scope
      · next hvalid =>
        rw [not_or, not_not, not_not] at hvalid
        obtain ⟨hidentity, -, -⟩ := projectWindow_eq_ok hproject
        refine ⟨(congrArg Prod.fst hidentity).trans hkind,
          (congrArg (fun i => i.2.2) hidentity).trans hperiod, fun _ => ?_⟩
        exact ⟨candidate, isOnlyKnown_of_filter hfilter hproject hvalid.1 hvalid.2, hproject⟩
  · exact hplaceholder "account"

/-! ### The whole list -/

/-- **Normalised windows**, in any order. -/
structure Normalised (windows : List QuotaWindowView) (items : List WindowItem) : Prop where
  one_per_period : ∀ period ∈ OPENCODE_FIXED_PERIODS,
    (items.filter fun i => i.kind = .commercialQuota ∧ i.period = period).length = 1
  no_other : ∀ i ∈ items, i.kind = .commercialQuota → i.period ∈ OPENCODE_FIXED_PERIODS
  unique : (items.map WindowItem.identity).Nodup
  authorized : ∀ i ∈ items, i.kind = .commercialQuota → i.CarriesData →
    ∃ w, IsOnlyKnown windows w ∧ projectWindow .opencodeGo w = .ok i
  preserved : ∃ others,
    List.Forall₂ (fun w i => projectWindow .opencodeGo w = .ok i)
      (windows.filter (·.kind ≠ .commercialQuota)) others ∧
    (items.filter (·.kind ≠ .commercialQuota)).Perm others

/-- The order of the windows is no part of it. -/
theorem Normalised.perm {windows : List QuotaWindowView} {items items' : List WindowItem}
    (h : Normalised windows items) (hperm : items'.Perm items) : Normalised windows items' where
  one_per_period period hperiod :=
    (hperm.filter _).length_eq.trans (h.one_per_period period hperiod)
  no_other i hi := h.no_other i (hperm.mem_iff.1 hi)
  unique := (hperm.map _).nodup_iff.2 h.unique
  authorized i hi := h.authorized i (hperm.mem_iff.1 hi)
  preserved := by
    obtain ⟨others, hothers, h⟩ := h.preserved
    exact ⟨others, hothers, (hperm.filter _).trans h⟩

/-- Windows projected one by one keep what tells them apart. -/
theorem identity_of_forall₂ {provider : ProviderKey} {windows : List QuotaWindowView}
    {items : List WindowItem}
    (h : List.Forall₂ (fun w i => projectWindow provider w = .ok i) windows items) :
    items.map WindowItem.identity = windows.map QuotaWindowView.identity := by
  induction h with
  | nil => rfl
  | cons hproject _ ih => rw [List.map_cons, List.map_cons, ih, (projectWindow_eq_ok hproject).1]

/-- The projections of windows that are not commercial are not either. -/
theorem kind_of_forall₂ {windows : List QuotaWindowView} {items : List WindowItem}
    (h : List.Forall₂ (fun w i => projectWindow .opencodeGo w = .ok i)
      (windows.filter (·.kind ≠ .commercialQuota)) items) :
    ∀ i ∈ items, i.kind ≠ .commercialQuota := by
  intro i hi
  have hidentity := List.mem_map_of_mem (f := WindowItem.identity) hi
  rw [identity_of_forall₂ h] at hidentity
  obtain ⟨w, hw, hwi⟩ := List.mem_map.1 hidentity
  have hkind : w.kind = i.kind := congrArg Prod.fst hwi
  exact hkind ▸ of_decide_eq_true (List.mem_filter.1 hw).2

/-- The slots of the fixed periods. -/
def opencodeSlots (windows : List QuotaWindowView) : List WindowItem :=
  OPENCODE_FIXED_PERIODS.map (opencodeSlot windows)

/-- A slot is commercial. -/
theorem kind_of_mem_slots {windows : List QuotaWindowView} {i : WindowItem}
    (h : i ∈ opencodeSlots windows) : i.kind = .commercialQuota := by
  obtain ⟨period, -, rfl⟩ := List.mem_map.1 h
  exact (opencodeSlot_spec windows period).1

/-- The slots have the fixed periods, one each. -/
theorem slots_periods (windows : List QuotaWindowView) :
    (opencodeSlots windows).map (·.period) = OPENCODE_FIXED_PERIODS := by
  rw [opencodeSlots, List.map_map]
  refine (List.map_congr_left fun period _ => ?_).trans (List.map_id _)
  exact (opencodeSlot_spec windows period).2.1

/-- **The other windows and the slots are normalised.** The slots have one period each, and none of the
others is commercial. -/
theorem normalised_append {windows : List QuotaWindowView} {others : List WindowItem}
    (hnodup : (windows.map QuotaWindowView.identity).Nodup)
    (hothers : List.Forall₂ (fun w i => projectWindow .opencodeGo w = .ok i)
      (windows.filter (·.kind ≠ .commercialQuota)) others) :
    Normalised windows (others ++ opencodeSlots windows) where
  one_per_period := by
    intro period hperiod
    have hnone : others.filter (fun i => i.kind = .commercialQuota ∧ i.period = period) = [] :=
      List.filter_eq_nil_iff.2 fun i hi hc =>
        kind_of_forall₂ hothers i hi (of_decide_eq_true hc).1
    have hcount : ((opencodeSlots windows).filter fun i =>
        i.kind = .commercialQuota ∧ i.period = period).length =
          ((opencodeSlots windows).map (·.period)).count period := by
      rw [List.count, List.countP_map, List.countP_eq_length_filter]
      refine congrArg List.length (List.filter_congr fun i hi => ?_)
      simp [kind_of_mem_slots hi, Bool.beq_eq_decide_eq]
    rw [List.filter_append, hnone, List.nil_append, hcount, slots_periods]
    exact List.count_eq_one_of_mem (by decide) hperiod
  no_other := by
    intro i hi hkind
    rcases List.mem_append.1 hi with hi | hi
    · exact absurd hkind (kind_of_forall₂ hothers i hi)
    · exact slots_periods windows ▸ List.mem_map_of_mem hi
  unique := by
    rw [List.map_append, List.nodup_append]
    refine ⟨?_, ?_, ?_⟩
    · rw [identity_of_forall₂ hothers]
      exact (List.filter_sublist.map _).nodup hnodup
    · refine List.Nodup.of_map (fun identity => identity.2.2) ?_
      rw [List.map_map]
      exact (slots_periods windows).symm ▸ (by decide : OPENCODE_FIXED_PERIODS.Nodup)
    · rintro a ha b hb rfl
      obtain ⟨i, hi, rfl⟩ := List.mem_map.1 ha
      obtain ⟨j, hj, hij⟩ := List.mem_map.1 hb
      exact kind_of_forall₂ hothers i hi
        ((congrArg Prod.fst hij).symm.trans (kind_of_mem_slots hj))
  authorized := by
    intro i hi hkind hdata
    rcases List.mem_append.1 hi with hi | hi
    · exact absurd hkind (kind_of_forall₂ hothers i hi)
    · obtain ⟨period, -, rfl⟩ := List.mem_map.1 hi
      exact (opencodeSlot_spec windows period).2.2 hdata
  preserved := by
    have hslots : (opencodeSlots windows).filter (·.kind ≠ .commercialQuota) = [] :=
      List.filter_eq_nil_iff.2 fun i hi hc => of_decide_eq_true hc (kind_of_mem_slots hi)
    have hself : others.filter (·.kind ≠ .commercialQuota) = others :=
      List.filter_eq_self.2 fun i hi => decide_eq_true (kind_of_forall₂ hothers i hi)
    refine ⟨others, hothers, ?_⟩
    rw [List.filter_append, hslots, hself, List.append_nil]

/-! ### What is projected -/

/-- A snapshot whose windows are normalised. -/
def ProviderSnapshotView.HasSlots (snapshot : ProviderSnapshotView) : Prop :=
  snapshot.publicState = .available ∨ snapshot.publicState = .partialState

/-- The windows that are not commercial, and the slots. -/
def slottedWindows (windows : List QuotaWindowView) : Except ProjectionError (List WindowItem) :=
  (· ++ opencodeSlots windows) <$>
    (windows.filter (·.kind ≠ .commercialQuota)).mapM (projectWindow .opencodeGo)

/-- Where there are slots, the windows are the others and the slots. -/
theorem opencodeWindows_of_hasSlots {snapshot : ProviderSnapshotView} (h : snapshot.HasSlots) :
    opencodeWindows snapshot = slottedWindows snapshot.windows := by
  unfold opencodeWindows
  rcases h with h | h <;> rw [h] <;> rfl

/-- Such windows are projected if the others are. -/
theorem slottedWindows_eq_ok {windows : List QuotaWindowView} {items : List WindowItem}
    (h : slottedWindows windows = .ok items) :
    ∃ others, (windows.filter (·.kind ≠ .commercialQuota)).mapM (projectWindow .opencodeGo) =
      .ok others ∧ items = others ++ opencodeSlots windows := by
  obtain ⟨others, hothers, rfl⟩ := map_eq_ok_iff.1 h
  exact ⟨others, hothers, rfl⟩

/-- A snapshot with slots is projected to normalised windows. -/
theorem opencodeWindows_normalised (hnfc : NfcTrims) {snapshot : ProviderSnapshotView}
    (hstate : snapshot.HasSlots) :
    ∃ items, opencodeWindows snapshot = .ok items ∧ Normalised snapshot.windows items := by
  choose project hproject using projectWindow_isOk hnfc .opencodeGo
  have hothers : List.Forall₂ (fun w i => projectWindow .opencodeGo w = .ok i)
      (snapshot.windows.filter (·.kind ≠ .commercialQuota))
      ((snapshot.windows.filter (·.kind ≠ .commercialQuota)).map project) :=
    List.forall₂_map_right_iff.2 (List.forall₂_same.2 fun w _ => hproject w)
  refine ⟨_, ?_, normalised_append snapshot.windows_nodup hothers⟩
  rw [opencodeWindows_of_hasSlots hstate, slottedWindows, mapM_eq_ok_iff.2 hothers]
  rfl

/-- The windows of a projected snapshot are sorted. -/
theorem snapshotFacts_windows {provider : ProviderKey} {snapshot : ProviderSnapshotView}
    {items : List WindowItem} (h : snapshotWindows provider snapshot = .ok items) :
    snapshotFacts provider snapshot = .error .tooManyWindows ∧ 32 < items.length ∨
      ∃ facts, snapshotFacts provider snapshot = .ok facts ∧ facts.windows = sortWindows items := by
  rw [snapshotFacts, h, ok_bind]
  by_cases hmany : MAX_QUOTA_WINDOWS < items.length
  · rw [if_pos hmany]
    exact Or.inl ⟨rfl, hmany⟩
  · rw [if_neg hmany]
    exact Or.inr ⟨_, rfl, rfl⟩

/-- What is projected of the view of a snapshot has the windows of the snapshot's facts. -/
theorem projectProvider_windows {formatter : TimestampFormatter} {view : ProviderView}
    {enabled : ProviderSet} {limit : ℕ} {evidence : Option OpenCodeFailureEvidence}
    {item : ProviderItem} {snapshot : ProviderSnapshotView} (hview : view.snapshot = some snapshot)
    (h : projectProvider formatter view enabled limit evidence = .ok item) :
    ∃ facts, snapshotFacts view.provider snapshot = .ok facts ∧ item.windows = facts.windows := by
  obtain ⟨facts, hfacts, h⟩ := bind_eq_ok_iff.1 h
  obtain ⟨shown, -, h⟩ := bind_eq_ok_iff.1 h
  obtain rfl := Except.ok.inj h
  obtain ⟨outcome, houtcome, hfacts⟩ := bind_eq_ok_iff.1 hfacts
  have hsnapshot : view.outcome = some .snapshot := view.ok.snapshot_iff.1 (by rw [hview]; rfl)
  rw [outcomeOf, hsnapshot] at houtcome
  obtain rfl := Except.ok.inj houtcome
  simp only [hview] at hfacts
  exact ⟨facts, hfacts, rfl⟩

/-- **OpenCode windows are normalised**: unless there are too many, the snapshot is
projected, and whatever is projected of its provider has normalised windows. -/
theorem opencode_windows_normalised (hnfc : NfcTrims) {snapshot : ProviderSnapshotView}
    (hstate : snapshot.HasSlots) :
    ∃ items, opencodeWindows snapshot = .ok items ∧ Normalised snapshot.windows items ∧
      (snapshotFacts .opencodeGo snapshot = .error .tooManyWindows ∧ 32 < items.length ∨
        ∃ facts, snapshotFacts .opencodeGo snapshot = .ok facts ∧
          Normalised snapshot.windows facts.windows) ∧
      ∀ (formatter : TimestampFormatter) (view : ProviderView) (enabled : ProviderSet) (limit : ℕ)
        (evidence : Option OpenCodeFailureEvidence) (item : ProviderItem),
        view.provider = .opencodeGo → view.snapshot = some snapshot →
        projectProvider formatter view enabled limit evidence = .ok item →
          Normalised snapshot.windows item.windows := by
  obtain ⟨items, hitems, hnormal⟩ := opencodeWindows_normalised hnfc hstate
  have hsorted : Normalised snapshot.windows (sortWindows items) :=
    hnormal.perm (List.mergeSort_perm items windowLe)
  have hfacts := @snapshotFacts_windows _ .opencodeGo _ _ hitems
  refine ⟨items, hitems, hnormal, ?_, ?_⟩
  · rcases hfacts with hmany | ⟨facts, hok, hwindows⟩
    · exact Or.inl hmany
    · exact Or.inr ⟨facts, hok, hwindows ▸ hsorted⟩
  · intro formatter view enabled limit evidence item hprovider hview hitem
    obtain ⟨facts, hok, hwindows⟩ := projectProvider_windows hview hitem
    rw [hprovider] at hok
    rcases hfacts with ⟨herror, -⟩ | ⟨facts', hok', hwindows'⟩
    · rw [herror] at hok
      exact nomatch hok
    · obtain rfl := Except.ok.inj (hok.symm.trans hok')
      rw [hwindows, hwindows']
      exact hsorted

omit [UnicodeData] in
/-- Two weekly windows make a placeholder of the week, one monthly window is shown as it is, and
of five hours there is nothing. -/
theorem opencode_windows_normalised_one :
    letI := UnicodeData.ascii
    ∃ snapshot : ProviderSnapshotView,
      snapshot.windows.map (fun w => (w.scope, w.period)) =
        [("account", "weekly"), ("team", "weekly"), ("account", "monthly"), ("minute", "rolling")] ∧
      ∃ items, opencodeWindows snapshot = .ok items ∧ Normalised snapshot.windows items ∧
        items.map (fun i => (i.period, i.limit.map (·.value))) =
          [("rolling", none), ("five_hour", none), ("monthly", some "9"), ("weekly", none)] := by
  let _ := UnicodeData.ascii
  let spent (n : ℕ) (h : canonicalDecimal (.finite false ⟨n, 0⟩) = .ok ⟨n, 0⟩) : QuotaQuantity :=
    ⟨⟨n, 0⟩, .commercialQuota, "USD", ⟨_, h⟩, ⟨"USD", "", by decide⟩⟩
  let weekly (scope : String) (h : canonicalIdentity scope "" = .ok scope) : QuotaWindowView :=
    ⟨.commercialQuota, scope, "weekly", none, .known, some OPENCODE_SOURCE_ID,
      some (spent 8 (by decide +kernel)), none, some (spent 5 (by decide +kernel)), none,
      ⟨scope, "", h⟩, ⟨"weekly", "", by decide⟩, nofun, by rintro s ⟨⟩; decide, by decide⟩
  let monthly : QuotaWindowView :=
    ⟨.commercialQuota, "account", "monthly", none, .known, some OPENCODE_SOURCE_ID,
      some (spent 9 (by decide +kernel)), none, some (spent 2 (by decide +kernel)), none,
      ⟨"account", "", by decide⟩, ⟨"monthly", "", by decide⟩, nofun, by rintro s ⟨⟩; decide, by decide⟩
  let minute : QuotaWindowView :=
    ⟨.technicalRateLimit, "minute", "rolling", none, .unavailable, none, none, none, none, none,
      ⟨"minute", "", by decide⟩, ⟨"rolling", "", by decide⟩, nofun, nofun, rfl⟩
  let now : Instant := ⟨2000, 1, 1, 0, 0, 0, 0, by decide⟩
  let snapshot : ProviderSnapshotView :=
    ⟨.available, .fresh, now, now, now, none,
      [weekly "account" (by decide), weekly "team" (by decide), monthly, minute], none, le_rfl, le_rfl, rfl,
      by decide, by decide, nofun⟩
  have hnfc : NfcTrims := fun _ hne hstrip => ⟨hne, hstrip⟩
  have hshown : (opencodeWindows snapshot).toOption.map
      (·.map fun i => (i.period, i.limit.map (·.value))) =
        some [("rolling", none), ("five_hour", none), ("monthly", some "9"), ("weekly", none)] := by
    decide +kernel
  obtain ⟨items, hitems, hnormal, -⟩ :=
    opencode_windows_normalised hnfc (Or.inl rfl : snapshot.HasSlots)
  rw [hitems] at hshown
  exact ⟨snapshot, rfl, items, hitems, hnormal, Option.some.inj hshown⟩

end YasbLimitora
