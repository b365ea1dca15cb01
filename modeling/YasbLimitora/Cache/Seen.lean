import Mathlib
import YasbLimitora.Cache.Accepted
import YasbLimitora.Helper.Codec
import YasbLimitora.Projection.Depletion

/-!
# The windows that a projector shows

A window is projected as it is if its source is the one of the provider, and otherwise as one of
which nothing is known but that it is there (`YasbLimitora.Cache.projectWindow_eq`, where
`YasbLimitora.Cache.seen` is the window that is left). The slots of OpenCode are such windows too:
the one known window of the period, or a placeholder (`YasbLimitora.Cache.exists_slot`). So a
snapshot is projected to the items of windows that the model admits, and
`YasbLimitora.Cache.IsShown` says which they are (`YasbLimitora.Cache.exists_shown`).

What such an item can be is less than what the cache takes. A window without a source has no plan,
and a commercial window in a slot that has a source is known (`YasbLimitora.Cache.IsEmitted`);
and these two are all there is: a snapshot that the cache takes, of items that are so, is projected
to itself (`YasbLimitora.Cache.snapshotFacts_of_cacheable`).
-/

namespace YasbLimitora

namespace Cache

open Codec (NfcLaws)

variable [UnicodeData] {provider : ProviderKey}

/-! ### Windows -/

section Windows

omit [UnicodeData] in
theorem checkValues_unavailable [UnicodeData] (kind : QuotaWindowKind) :
    checkValues kind .unavailable none none none none = .ok () := rfl

theorem isIdentity_of_none : ∀ p, (none : Option String) = some p → IsIdentity p := by
  intro p hp
  cases hp

omit [UnicodeData] in
theorem safe_of_none : ∀ s, (none : Option String) = some s → s ∈ SAFE_SOURCE_IDS := by
  intro s hs
  cases hs

/-- A window of which nothing is known but that it is there. -/
def bareView (kind : QuotaWindowKind) (scope period : String) (hscope : IsIdentity scope) (hperiod : IsIdentity period) :
    QuotaWindowView where
  kind := kind
  scope := scope
  period := period
  planId := none
  availability := .unavailable
  sourceId := none
  limit := none
  used := none
  remaining := none
  resetAt := none
  scope_identity := hscope
  period_identity := hperiod
  planId_identity := isIdentity_of_none
  sourceId_safe := safe_of_none
  values_ok := checkValues_unavailable kind

/-- What is left of a window where it is projected. -/
def seen (provider : ProviderKey) (w : QuotaWindowView) : QuotaWindowView :=
  if w.sourceId = some provider.expectedSource then w
  else bareView w.kind w.scope w.period w.scope_identity w.period_identity

/-- A plain text is its own normal form. -/
theorem nfc_plain (hnfc : NfcLaws) {s : String} (h : (s.toList.all fun c => decide (c.toNat < 0x80)) = true) :
    UnicodeData.nfc s = s :=
  hnfc.ascii s fun c hc => of_decide_eq_true (List.all_eq_true.1 h c hc)

/-- The source of a window is kept if it is the one of the provider: the sources are plain texts. -/
theorem projectSource_eq (hnfc : NfcLaws) {source : Option String} (h : ∀ s, source = some s → s ∈ SAFE_SOURCE_IDS)
    (provider : ProviderKey) : projectSource source provider = source.filter (· = provider.expectedSource) := by
  have hplain : ∀ t ∈ SAFE_SOURCE_IDS, (t.toList.all fun c => decide (c.toNat < 0x80)) = true ∧ strip t = t := by decide
  rcases source with _ | s
  · rfl
  obtain ⟨hascii, hstrip⟩ := hplain s (h s rfl)
  rw [projectSource, Option.map_some, nfc_plain hnfc hascii, hstrip]

theorem projectQuantity_eq (hnfc : NfcLaws) (q : QuotaQuantity) : projectQuantity q = .ok (quantityItem q) := by
  rw [projectQuantity, identityText_of_isIdentity hnfc.trims q.unit_identity, ok_bind,
    renderDecimal_eq q.value_canonical.isWithinLimits.isNormal]
  rfl

omit [UnicodeData] in
theorem projectOption_eq {α β : Type} {f : α → Except ProjectionError β} {g : α → β} {o : Option α}
    (h : ∀ a, o = some a → f a = .ok (g a)) : projectOption f o = .ok (o.map g) := by
  rcases o with _ | a
  · rfl
  · rw [projectOption, h a rfl]
    rfl

/-- **A window is projected** as what is left of it. -/
theorem projectWindow_eq (hnfc : NfcLaws) (provider : ProviderKey) (w : QuotaWindowView) :
    projectWindow provider w = .ok (windowItem (seen provider w)) := by
  have hquantity : ∀ o : Option QuotaQuantity, projectOption projectQuantity o = .ok (o.map quantityItem) := fun o =>
    projectOption_eq fun q _ => projectQuantity_eq hnfc q
  have hscope := identityText_of_isIdentity hnfc.trims w.scope_identity "invalid current scope"
  have hperiod := identityText_of_isIdentity hnfc.trims w.period_identity "invalid current period"
  have hplan : projectOption (identityText · "invalid current plan id") w.planId = .ok w.planId := by
    rw [projectOption_eq (g := id) fun p hp => identityText_of_isIdentity hnfc.trims (w.planId_identity p hp) _]
    rw [Option.map_id, id]
  unfold projectWindow seen
  rw [projectSource_eq hnfc w.sourceId_safe]
  by_cases htrusted : w.sourceId = some provider.expectedSource
  · have hsource : w.sourceId.filter (· = provider.expectedSource) = some provider.expectedSource := by
      rw [htrusted]
      exact Option.filter_some_pos (decide_eq_true rfl)
    rw [if_pos htrusted, hsource]
    simp only [Option.isSome_some, if_true, hplan, hscope, hperiod, hquantity, ok_bind]
    rw [windowItem, htrusted]
    rfl
  · have hsource : w.sourceId.filter (· = provider.expectedSource) = none := by
      rcases hs : w.sourceId with _ | s
      · rfl
      · refine Option.filter_some_neg (decide_eq_false fun hsame => htrusted ?_)
        rw [hs, hsame]
    rw [if_neg htrusted, hsource]
    simp only [Option.isSome_none, Bool.false_eq_true, if_false, projectOption, hscope, hperiod, ok_bind]
    rfl

/-- A window without a source and without a plan is one of which nothing is known, if it is not available. -/
theorem eq_bareView {w : QuotaWindowView} (hsource : w.sourceId = none) (hplan : w.planId = none)
    (hbare : w.availability = .unavailable) :
    w = bareView w.kind w.scope w.period w.scope_identity w.period_identity := by
  have hvalues := w.values_eq_none (by rw [hbare]; exact nofun)
  rcases w with ⟨kind, scope, period, planId, availability, sourceId, limit, used, remaining, resetAt⟩
  dsimp only at hsource hplan hbare hvalues
  obtain ⟨rfl, rfl, rfl, rfl⟩ := hvalues
  subst hsource hplan hbare
  rfl

/-- A window that the cache takes is projected as it is, unless it has a plan and no source. -/
theorem seen_eq_self {w : QuotaWindowView} (hw : CacheableWindow provider w) (hplan : w.sourceId = none → w.planId = none) :
    seen provider w = w := by
  unfold seen
  rcases hs : w.sourceId with _ | s
  · rw [if_neg nofun]
    exact (eq_bareView hs (hplan hs) (hw.bare hs)).symm
  · rw [hw.source s hs, if_pos rfl]

end Windows

/-! ### Slots -/

section Slots

theorem isIdentity_word (hnfc : NfcLaws) {s : String} (hne : s ≠ "") (hstrip : strip s = s) (hlength : s.length ≤ 64)
    (hcontrol : s.toList.any isControl = false) (hascii : (s.toList.all fun c => decide (c.toNat < 0x80)) = true) :
    IsIdentity s :=
  ⟨s, "", canonicalIdentity_eq_ok_iff.2 ⟨hne, hstrip, (nfc_plain hnfc hascii).symm, hlength, hcontrol⟩⟩

theorem isIdentity_period (hnfc : NfcLaws) {period : String} (h : period ∈ OPENCODE_FIXED_PERIODS) : IsIdentity period := by
  have hwords : ∀ s ∈ OPENCODE_FIXED_PERIODS, s ≠ "" ∧ strip s = s ∧ s.length ≤ 64 ∧ s.toList.any isControl = false ∧
      (s.toList.all fun c => decide (c.toNat < 0x80)) = true := by decide
  obtain ⟨hne, hstrip, hlength, hcontrol, hascii⟩ := hwords period h
  exact isIdentity_word hnfc hne hstrip hlength hcontrol hascii

theorem isIdentity_account (hnfc : NfcLaws) : IsIdentity "account" :=
  isIdentity_word hnfc (by decide) (by decide) (by decide) (by decide) (by decide)

/-- **The windows that are shown of a snapshot**: what is left of its own, and in a slot the one
known window of the period, or a placeholder. -/
inductive IsShown (provider : ProviderKey) (s : ProviderSnapshotView) : QuotaWindowView → Prop
  | own (w : QuotaWindowView) (mem : w ∈ s.windows)
      (other : provider = .opencodeGo → s.HasSlots → w.kind ≠ .commercialQuota) : IsShown provider s (seen provider w)
  | known (w : QuotaWindowView) (mem : w ∈ s.windows) (source : w.sourceId = some provider.expectedSource)
      (available : w.availability = .known) : IsShown provider s w
  | placeholder (period scope : String) (hperiod : IsIdentity period) (hscope : IsIdentity scope)
      (fixed : period ∈ OPENCODE_FIXED_PERIODS) (named : scope = "account" ∨ ∃ w ∈ s.windows, w.scope = scope) :
      IsShown provider s (bareView .commercialQuota scope period hscope hperiod)

/-- A slot shows such a window. -/
theorem exists_slot (hnfc : NfcLaws) (s : ProviderSnapshotView) {period : String} (h : period ∈ OPENCODE_FIXED_PERIODS) :
    ∃ v, opencodeSlot s.windows period = windowItem v ∧ IsShown .opencodeGo s v := by
  have hperiod := isIdentity_period hnfc h
  have haccount : ∃ v, opencodePlaceholder period "account" = windowItem v ∧ IsShown .opencodeGo s v :=
    ⟨_, rfl, .placeholder period "account" hperiod (isIdentity_account hnfc) h (Or.inl rfl)⟩
  unfold opencodeSlot
  split
  · next w hfilter =>
    have hw : w ∈ s.windows.filter (isCandidate period) := hfilter ▸ List.mem_singleton_self w
    have hmem := (List.mem_filter.1 hw).1
    rw [projectWindow_eq hnfc]
    dsimp only
    split_ifs with hunknown
    · have hscope : (windowItem (seen .opencodeGo w)).scope = w.scope := by
        change (seen .opencodeGo w).scope = w.scope
        unfold seen
        split_ifs
        · rfl
        · rfl
      rw [hscope]
      exact ⟨_, rfl, .placeholder period w.scope hperiod w.scope_identity h (Or.inr ⟨w, hmem, rfl⟩)⟩
    · rw [not_or, not_not, not_not] at hunknown
      have hsource : w.sourceId = some ProviderKey.opencodeGo.expectedSource := by
        by_contra hother
        have hbare : (windowItem (seen .opencodeGo w)).sourceId = none := by
          rw [seen, if_neg hother]
          rfl
        rw [hbare] at hunknown
        cases hunknown.2
      have hself : seen .opencodeGo w = w := if_pos hsource
      rw [hself] at hunknown ⊢
      exact ⟨w, rfl, .known w hmem hsource hunknown.1⟩
  · exact haccount

/-- Windows projected one by one. -/
theorem mapM_projectWindow (hnfc : NfcLaws) (windows : List QuotaWindowView) :
    windows.mapM (projectWindow provider) = .ok ((windows.map (seen provider)).map windowItem) := by
  refine mapM_eq_ok_iff.2 ?_
  rw [List.map_map]
  exact List.forall₂_map_right_iff.2 (List.forall₂_same.2 fun w _ => projectWindow_eq hnfc provider w)

/-- **What a snapshot is projected to**: the items of windows that are shown. -/
theorem exists_shown (hnfc : NfcLaws) (provider : ProviderKey) (s : ProviderSnapshotView) :
    ∃ shown : List QuotaWindowView, snapshotWindows provider s = .ok (shown.map windowItem) ∧
      ∀ v ∈ shown, IsShown provider s v := by
  have hown : ∀ windows : List QuotaWindowView, (∀ w ∈ windows, w ∈ s.windows ∧
      (provider = .opencodeGo → s.HasSlots → w.kind ≠ .commercialQuota)) →
        ∀ v ∈ windows.map (seen provider), IsShown provider s v := by
    intro windows hall v hv
    obtain ⟨w, hw, rfl⟩ := List.mem_map.1 hv
    exact .own w (hall w hw).1 (hall w hw).2
  rcases provider with _ | _
  · exact ⟨_, mapM_projectWindow hnfc s.windows, hown _ fun w hw => ⟨hw, fun h => nomatch h⟩⟩
  by_cases hslots : s.HasSlots
  · have hslot : ∀ periods : List String, (∀ p ∈ periods, p ∈ OPENCODE_FIXED_PERIODS) → ∃ slots : List QuotaWindowView,
        periods.map (opencodeSlot s.windows) = slots.map windowItem ∧ ∀ v ∈ slots, IsShown .opencodeGo s v := by
      intro periods hall
      induction periods with
      | nil => exact ⟨[], rfl, List.forall_mem_nil _⟩
      | cons period periods ih =>
        rw [List.forall_mem_cons] at hall
        obtain ⟨v, hv, hshown⟩ := exists_slot hnfc s hall.1
        obtain ⟨slots, hslots, hrest⟩ := ih hall.2
        exact ⟨v :: slots, by rw [List.map_cons, List.map_cons, hv, hslots], List.forall_mem_cons.2 ⟨hshown, hrest⟩⟩
    obtain ⟨slots, hmap, hslots'⟩ := hslot OPENCODE_FIXED_PERIODS fun _ h => h
    refine ⟨(s.windows.filter (·.kind ≠ .commercialQuota)).map (seen .opencodeGo) ++ slots, ?_, ?_⟩
    · change opencodeWindows s = _
      rw [opencodeWindows_of_hasSlots hslots, slottedWindows, mapM_projectWindow hnfc, List.map_append, ← hmap]
      rfl
    · intro v hv
      rcases List.mem_append.1 hv with hv | hv
      · refine hown _ (fun w hw => ?_) v hv
        exact ⟨(List.mem_filter.1 hw).1, fun _ _ => of_decide_eq_true (List.mem_filter.1 hw).2⟩
      · exact hslots' v hv
  · have hnone : ∀ w ∈ s.windows, w ∈ s.windows ∧ (ProviderKey.opencodeGo = .opencodeGo → s.HasSlots →
        w.kind ≠ .commercialQuota) := fun w hw => ⟨hw, fun _ h => absurd h hslots⟩
    unfold ProviderSnapshotView.HasSlots at hslots
    rw [not_or] at hslots
    simp only [snapshotWindows, opencodeWindows]
    rcases hstate : s.publicState
    case available => exact absurd hstate hslots.1
    case partialState => exact absurd hstate hslots.2
    case rateLimited =>
      refine ⟨_, mapM_projectWindow hnfc _, hown _ fun w hw => hnone w (List.mem_filter.1 hw).1⟩
    all_goals exact ⟨_, mapM_projectWindow hnfc _, hown _ hnone⟩

end Slots

/-! ### What is emitted -/

section Emitted

/-- **An item that the projector emits**: without a source there is no plan, and a commercial
window of an OpenCode snapshot with slots that has a source is known. -/
structure IsEmitted (f : ProviderFacts) (i : WindowItem) : Prop where
  plan : i.sourceId = none → i.planId = none
  slot : f.provider = .opencodeGo → f.publicState = some .available ∨ f.publicState = some .partialState →
    i.kind = .commercialQuota → i.sourceId ≠ none → i.availability = .known

omit [UnicodeData] in
theorem isEmitted_bareView [UnicodeData] {f : ProviderFacts} {kind : QuotaWindowKind} {scope period : String}
    {hscope : IsIdentity scope} {hperiod : IsIdentity period} :
    IsEmitted f (windowItem (bareView kind scope period hscope hperiod)) :=
  ⟨fun _ => rfl, fun _ _ _ hsource => absurd rfl hsource⟩

/-- The items of the windows that are shown are emitted. -/
theorem isEmitted_of_isShown {s : ProviderSnapshotView} {f : ProviderFacts} {v : QuotaWindowView}
    (hprovider : f.provider = provider) (hstate : f.publicState = some s.publicState) (h : IsShown provider s v) :
    IsEmitted f (windowItem v) := by
  rcases h with ⟨w, hmem, hother⟩ | ⟨_, hmem, hsource, hknown⟩ | ⟨period, scope, hperiod, hscope, -, -⟩
  · unfold seen
    split_ifs with htrusted
    · constructor
      · intro hnone
        cases htrusted.symm.trans hnone
      · intro hgo hslots hkind _
        rw [hstate, Option.some_inj, Option.some_inj] at hslots
        exact absurd hkind (hother (hprovider.symm.trans hgo) hslots)
    · exact isEmitted_bareView
  · exact ⟨fun hnone => (nomatch hsource.symm.trans hnone), fun _ _ _ _ => hknown⟩
  · exact isEmitted_bareView

/-- The items of a projected snapshot are emitted. -/
theorem isEmitted_of_snapshotFacts (hnfc : NfcLaws) {s : ProviderSnapshotView} {f : ProviderFacts}
    (h : snapshotFacts provider s = .ok f) : ∀ i ∈ f.windows, IsEmitted f i := by
  obtain ⟨shown, hshown, hall⟩ := exists_shown hnfc provider s
  obtain ⟨items, hitems, h⟩ := bind_eq_ok_iff.1 h
  obtain rfl := Except.ok.inj (hshown.symm.trans hitems)
  split_ifs at h
  · cases h
  obtain rfl := Except.ok.inj h
  intro i hi
  obtain ⟨v, hv, rfl⟩ := List.mem_map.1 ((List.mergeSort_perm _ windowLe).mem_iff.1 hi)
  exact isEmitted_of_isShown rfl rfl (hall v hv)

omit [UnicodeData] in
/-- A list has one element of each value that a function takes once. -/
theorem filter_eq_singleton {α β : Type} [DecidableEq β] {f : α → β} {l : List α} (h : (l.map f).Nodup) {a : α} (ha : a ∈ l) :
    l.filter (fun b => f b = f a) = [a] := by
  induction l with
  | nil => cases ha
  | cons b l ih =>
    rw [List.map_cons, List.nodup_cons] at h
    rcases List.mem_cons.1 ha with rfl | ha
    · have hnone : l.filter (fun b => f b = f a) = [] :=
        List.filter_eq_nil_iff.2 fun b hb hsame => h.1 (of_decide_eq_true hsame ▸ List.mem_map_of_mem hb)
      rw [List.filter_cons, if_pos (decide_eq_true rfl), hnone]
    · have hother : ¬decide (f b = f a) = true := fun hsame =>
        h.1 (of_decide_eq_true hsame ▸ List.mem_map_of_mem ha)
      rw [List.filter_cons, if_neg hother, ih h.2 ha]

variable {s : ProviderSnapshotView}

/-- The periods of the commercial windows are the fixed ones, one each. -/
theorem periods_perm (h : hasSlots .opencodeGo s.publicState s.windows = true) (hslots : s.HasSlots) :
    ((s.windows.filter (·.kind = .commercialQuota)).map (·.period)).Perm OPENCODE_FIXED_PERIODS := by
  unfold hasSlots at h
  rw [if_pos ⟨rfl, hslots⟩] at h
  rw [← of_decide_eq_true h]
  exact (List.mergeSort_perm _ _).symm

/-- **The slot of a commercial window** that is emitted shows it as it is. -/
theorem opencodeSlot_eq (hnfc : NfcLaws) (hs : CacheableSnapshot .opencodeGo s) (hslots : s.HasSlots)
    (hemitted : ∀ w ∈ s.windows, IsEmitted (snapshotFactsOf .opencodeGo s) (windowItem w)) {w : QuotaWindowView}
    (hw : w ∈ s.windows) (hkind : w.kind = .commercialQuota) : opencodeSlot s.windows w.period = windowItem w := by
  have hcommercial : w ∈ s.windows.filter (·.kind = .commercialQuota) := List.mem_filter.2 ⟨hw, decide_eq_true hkind⟩
  have hnodup : ((s.windows.filter (·.kind = .commercialQuota)).map (·.period)).Nodup :=
    (periods_perm hs.slots hslots).nodup_iff.2 (by decide)
  have hfilter : s.windows.filter (isCandidate w.period) = [w] := by
    have hok := identityText_of_isIdentity hnfc.trims w.period_identity ""
    have hsame : s.windows.filter (isCandidate w.period) =
        (s.windows.filter (·.kind = .commercialQuota)).filter fun v => v.period = w.period := by
      rw [List.filter_filter]
      refine List.filter_congr fun v _ => ?_
      unfold isCandidate
      by_cases hperiod : v.period = w.period
      · simp [hperiod, hok, Except.isOk, Except.toBool]
      · simp [hperiod]
    rw [hsame, filter_eq_singleton hnodup hcommercial]
  have hself := seen_eq_self (hs.windows w hw) (hemitted w hw).plan
  unfold opencodeSlot
  rw [hfilter]
  dsimp only
  rw [projectWindow_eq hnfc, hself]
  dsimp only
  split_ifs with hunknown
  · rcases hsource : w.sourceId with _ | source
    · -- a slot without a source is a placeholder
      have hbare := eq_bareView hsource ((hemitted w hw).plan hsource) ((hs.windows w hw).bare hsource)
      rw [hbare, hkind]
      rfl
    · have hknown := (hemitted w hw).slot rfl (hslots.imp (congrArg some) (congrArg some)) hkind
        (fun hnone => nomatch hsource.symm.trans hnone)
      have hexpected := (hs.windows w hw).source source hsource
      rcases hunknown with hunknown | hother
      · exact absurd hknown hunknown
      · exact absurd (hsource.trans (congrArg some hexpected)) hother
  · rfl

/-- The windows of such a snapshot are projected as they are, in some order. -/
theorem snapshotWindows_of_cacheable (hnfc : NfcLaws) (hs : CacheableSnapshot provider s)
    (hemitted : ∀ w ∈ s.windows, IsEmitted (snapshotFactsOf provider s) (windowItem w)) :
    ∃ items, snapshotWindows provider s = .ok items ∧ items.Perm (s.windows.map windowItem) := by
  have hself : ∀ {windows : List QuotaWindowView}, (∀ w ∈ windows, w ∈ s.windows) →
      windows.mapM (projectWindow provider) = .ok (windows.map windowItem) := by
    intro windows hall
    rw [mapM_projectWindow hnfc, List.map_map]
    refine congrArg Except.ok (List.map_congr_left fun w hw => ?_)
    exact congrArg windowItem (seen_eq_self (hs.windows w (hall w hw)) (hemitted w (hall w hw)).plan)
  rcases provider with _ | _
  · exact ⟨_, hself fun _ h => h, .refl _⟩
  by_cases hslots : s.HasSlots
  · refine ⟨(s.windows.filter (·.kind ≠ .commercialQuota)).map windowItem ++ opencodeSlots s.windows, ?_, ?_⟩
    · change opencodeWindows s = _
      rw [opencodeWindows_of_hasSlots hslots, slottedWindows, hself fun w hw => (List.mem_filter.1 hw).1]
      rfl
    · have hslot : ((s.windows.filter (·.kind = .commercialQuota)).map (·.period)).map (opencodeSlot s.windows) =
          (s.windows.filter (·.kind = .commercialQuota)).map windowItem := by
        rw [List.map_map]
        refine List.map_congr_left fun w hw => ?_
        obtain ⟨hmem, hkind⟩ := List.mem_filter.1 hw
        exact opencodeSlot_eq hnfc hs hslots hemitted hmem (of_decide_eq_true hkind)
      have hperm := ((periods_perm hs.slots hslots).map (opencodeSlot s.windows)).symm
      rw [hslot] at hperm
      refine (hperm.append_left _).trans ?_
      rw [← List.map_append]
      refine List.Perm.map _ ?_
      simpa using List.filter_append_perm (fun w : QuotaWindowView => decide (w.kind ≠ .commercialQuota)) s.windows
  · unfold ProviderSnapshotView.HasSlots at hslots
    rw [not_or] at hslots
    simp only [snapshotWindows, opencodeWindows]
    rcases hstate : s.publicState
    case available => exact absurd hstate hslots.1
    case partialState => exact absurd hstate hslots.2
    case rateLimited =>
      have hall : s.windows.filter (·.kind = .technicalRateLimit) = s.windows :=
        List.filter_eq_self.2 fun w hw => decide_eq_true (s.rateLimited_ok hstate w hw)
      rw [hall]
      exact ⟨_, hself fun _ h => h, .refl _⟩
    all_goals exact ⟨_, hself fun _ h => h, .refl _⟩

/-- **A snapshot that the cache takes, and whose items are emitted**, is projected to itself. -/
theorem snapshotFacts_of_cacheable (hnfc : NfcLaws) (hs : CacheableSnapshot provider s)
    (hemitted : ∀ w ∈ s.windows, IsEmitted (snapshotFactsOf provider s) (windowItem w)) :
    snapshotFacts provider s = .ok (snapshotFactsOf provider s) := by
  obtain ⟨items, hitems, hperm⟩ := snapshotWindows_of_cacheable hnfc hs hemitted
  have hnodup : ((s.windows.map windowItem).map WindowItem.identity).Nodup := by
    rw [List.map_map]
    exact s.windows_nodup
  have hsorted : sortWindows items = s.windows.map windowItem := (sortWindows_perm hperm hnodup).trans hs.sorted.symm
  have hlength : ¬MAX_QUOTA_WINDOWS < items.length := by
    rw [hperm.length_eq, List.length_map]
    exact not_lt.2 s.windows_le
  have hsource : projectSource s.sourceId provider = s.sourceId := by
    rw [projectSource_eq hnfc (mem_of_checkSourceId s.sourceId_safe)]
    rcases hsource : s.sourceId with _ | source
    · rfl
    · rw [hs.source source hsource]
      exact Option.filter_some_pos (decide_eq_true rfl)
  rw [snapshotFacts, hitems, ok_bind, if_neg hlength, hsorted, hsource]
  rfl

end Emitted

end Cache

end YasbLimitora
