import Mathlib
import YasbLimitora.Projection.Project
import YasbLimitora.Worker.Attempt

/-!
# How a run is classified

The classification algorithm of the output specification, against the state that is
emitted for the document of a refresh attempt. The attempt hands over an error of the
whole document as soon as the deadline keeps it from a call, and the projection takes
every such document for one that was not run, whatever its providers say.

`YasbLimitora.RefreshAttempt.run_classified_iff` says for which attempts the two agree.

The specification gives an algorithm that looks at the providers alone: complete, partial, not run
or failed. Documents without an error of their own follow it. With an error the emitted state is
fixed by its code, and the question is which attempts have one: those in which the cleanup failed,
those in which the guard was not acquired in time, and those that had no time left before a call.
-/

namespace YasbLimitora

/-! ### The algorithm of the specification -/

/-- The document errors that correspond to a reason which stands for a failure of the
whole document. -/
def abortErrors (reason : String) : List ErrorItem :=
  if reason = "invalid_configuration" then [⟨"configuration_invalid", "configuration"⟩]
  else if reason = "invocation_invalid" then [⟨"invocation_invalid", "configuration"⟩]
  else if reason = "document_aborted" then
    [⟨"guard_acquisition_failed", "guard_wait"⟩, ⟨"internal_error", "document"⟩]
  else []

namespace Slot

def Usable (s : Slot) : Prop := s.outcome = .snapshot ∨ s.outcome = .undetected

/-- The provider was not run, and for this reason. -/
def NotRunFor (reason : String) (s : Slot) : Prop := s.outcome = .notRun ∧ s.reason = some reason

/-- The provider was not run because of a failure of the whole document. -/
def Aborted (s : Slot) : Prop := s.outcome = .notRun ∧ ∃ reason ∈ s.reason, abortErrors reason ≠ []

instance : DecidablePred Usable := fun _ => inferInstanceAs (Decidable (_ ∨ _))

instance (reason : String) : DecidablePred (NotRunFor reason) :=
  fun _ => inferInstanceAs (Decidable (_ ∧ _))

instance : DecidablePred Aborted := fun s =>
  inferInstanceAs (Decidable (s.outcome = .notRun ∧ ∃ reason ∈ s.reason, abortErrors reason ≠ []))

end Slot

/-- What the algorithm requires of the error of a document none of whose providers was
run: it leaves open what else it is where they were not run for different reasons. -/
def NotRunError (slots : List Slot) (error : Option ErrorItem) : Prop :=
  (error = none ↔ ∀ s ∈ slots, s.NotRunFor "disabled") ∧
    if ∀ s ∈ slots, s.NotRunFor "guard_wait_timeout" then
      error = some ⟨"guard_wait_timeout", "guard_wait"⟩
    else (∃ s ∈ slots, s.NotRunFor "deadline_exhausted") →
      error = some ⟨"deadline_exhausted", "document"⟩

/-- **The classification algorithm**: the state and the error of a document, by the
slots of its providers. -/
def Assigned (cleanupFailed : Bool) (slots : List Slot) (state : ExecutionState)
    (error : Option ErrorItem) : Prop :=
  if cleanupFailed then state = .executionError ∧ error = some ⟨"cleanup_failed", "cleanup"⟩
  else if ∃ s ∈ slots, s.Usable then
    state = (if ∀ s ∈ slots, s.Usable then .complete else .partialState) ∧ error = none
  else if ∀ s ∈ slots, s.outcome = .notRun then
    if ∃ s ∈ slots, s.Aborted then
      state = .executionError ∧
        ∃ s ∈ slots, ∃ reason ∈ s.reason, ∃ e ∈ abortErrors reason, error = some e
    else state = .notRun ∧ NotRunError slots error
  else
    state = .executionError ∧
      error = some (if ∃ s ∈ slots, s.NotRunFor "deadline_exhausted" then
        ⟨"deadline_exhausted", "document"⟩ else ⟨"provider_failed", "provider"⟩)

/-! ### Documents without an error of their own -/

/-- The slots on which the projection, told of no document error, agrees with the
algorithm. -/
def Settled (slots : List Slot) : Prop :=
  (∃ s ∈ slots, s.Usable) ∨ (∀ s ∈ slots, s.NotRunFor "disabled") ∨
    (¬∀ s ∈ slots, s.outcome = .notRun) ∧ ¬∃ s ∈ slots, s.NotRunFor "deadline_exhausted"

/-- A slot is successful if it can be used. -/
theorem Slot.successful_iff {s : Slot} : s.outcome.successful ↔ s.Usable := by
  rcases s with ⟨_ | _ | _ | _, reason⟩ <;> simp [ProviderOutcome.successful, Slot.Usable]

theorem Slot.not_aborted_of_disabled {s : Slot} (h : s.NotRunFor "disabled") : ¬s.Aborted := by
  rintro ⟨-, reason, hreason, ha⟩
  rw [h.2] at hreason
  cases hreason
  exact ha (by decide)

/-- A slot has one reason at most. -/
theorem Slot.NotRunFor.eq {s : Slot} {reason reason' : String} (h : s.NotRunFor reason)
    (h' : s.NotRunFor reason') : reason = reason' :=
  Option.some.inj (h.2.symm.trans h'.2)

/-- A document none of whose providers was run needs no error exactly if all of them
are disabled. -/
theorem notRunError_none_iff {slots : List Slot} (hne : slots ≠ []) :
    NotRunError slots none ↔ ∀ s ∈ slots, s.NotRunFor "disabled" := by
  constructor
  · intro h
    exact h.1.1 rfl
  · intro h
    obtain ⟨s, hs⟩ := List.exists_mem_of_ne_nil slots hne
    have hguard : ¬∀ s ∈ slots, s.NotRunFor "guard_wait_timeout" := fun hg =>
      absurd ((h s hs).eq (hg s hs)) (by decide)
    refine ⟨⟨fun _ => h, fun _ => rfl⟩, ?_⟩
    rw [if_neg hguard]
    rintro ⟨t, ht, hd⟩
    exact absurd ((h t ht).eq hd) (by decide)

/-- **Without a document error the projection agrees with the algorithm exactly on the
settled slots.** -/
theorem assigned_documentState_iff {slots : List Slot} (hne : slots ≠ []) :
    Assigned false slots (documentState none (slots.map (·.outcome))).1
      (documentState none (slots.map (·.outcome))).2 ↔ Settled slots := by
  simp only [Assigned, Settled, documentState, List.all_map, List.any_map, List.all_eq_true,
    List.any_eq_true, Function.comp_apply, decide_eq_true_eq, Slot.successful_iff,
    Bool.false_eq_true, if_false]
  by_cases hu : ∃ s ∈ slots, s.Usable
  · rw [if_pos hu, if_pos hu]
    by_cases hall : ∀ s ∈ slots, s.Usable
    · simp only [if_pos hall, and_self, hu, true_or]
    · simp only [if_neg hall, and_self, hu, true_or]
  have hall : ¬∀ s ∈ slots, s.Usable := fun h =>
    have ⟨s, hs⟩ := List.exists_mem_of_ne_nil slots hne
    hu ⟨s, hs, h s hs⟩
  rw [if_neg hu, if_neg hu, if_neg hall]
  by_cases hn : ∀ s ∈ slots, s.outcome = .notRun
  · rw [if_pos hn, if_pos hn]
    by_cases ha : ∃ s ∈ slots, s.Aborted
    · rw [if_pos ha]
      obtain ⟨s, hs, ha⟩ := ha
      refine iff_of_false (fun h => nomatch h.1) ?_
      rintro (h | h | h)
      · exact hu h
      · exact Slot.not_aborted_of_disabled (h s hs) ha
      · exact h.1 hn
    · rw [if_neg ha, notRunError_none_iff hne]
      constructor
      · intro h
        exact Or.inr (Or.inl h.2)
      · rintro (h | h | h)
        · exact absurd h hu
        · exact ⟨rfl, h⟩
        · exact absurd hn h.1
  · have hd : ¬∀ s ∈ slots, s.NotRunFor "disabled" := fun hd => hn fun s hs => (hd s hs).1
    rw [if_neg hn, if_neg hn]
    simp only [hu, hd, hn, false_or, true_and, not_false_iff]
    by_cases hx : ∃ s ∈ slots, s.NotRunFor "deadline_exhausted"
    · simp [hx]
    · simp [hx]

/-! ### Documents with an error of their own -/

/-- The provider was not run, and not because of a failure of the whole document. -/
def Slot.Quiet (s : Slot) : Prop := s.outcome = .notRun ∧ ¬s.Aborted

/-- A provider that was not run for lack of time failed in nothing. -/
theorem Slot.NotRunFor.quiet {s : Slot} (h : s.NotRunFor "deadline_exhausted") : s.Quiet := by
  refine ⟨h.1, ?_⟩
  rintro ⟨-, reason, hreason, ha⟩
  rw [h.2] at hreason
  cases hreason
  exact ha (by decide)

/-- **Where a provider was not run for the deadline, the error of the deadline is the one
of the algorithm exactly if no provider did anything else.** -/
theorem assigned_deadline_iff {slots : List Slot}
    (hd : ∃ s ∈ slots, s.NotRunFor "deadline_exhausted") :
    Assigned false slots .notRun (some ⟨"deadline_exhausted", "document"⟩) ↔
      ∀ s ∈ slots, s.Quiet := by
  rw [Assigned, if_neg Bool.false_ne_true]
  by_cases hu : ∃ s ∈ slots, s.Usable
  · rw [if_pos hu]
    obtain ⟨s, hs, hu⟩ := hu
    refine iff_of_false (fun h => nomatch h.2) fun h => ?_
    have hn := (h s hs).1
    rcases hu with hu | hu <;> rw [hu] at hn <;> cases hn
  rw [if_neg hu]
  by_cases hn : ∀ s ∈ slots, s.outcome = .notRun
  · rw [if_pos hn]
    by_cases ha : ∃ s ∈ slots, s.Aborted
    · rw [if_pos ha]
      obtain ⟨s, hs, ha⟩ := ha
      exact iff_of_false (fun h => nomatch h.1) fun h => (h s hs).2 ha
    · rw [if_neg ha]
      refine iff_of_true ⟨rfl, ?_⟩ fun s hs => ⟨hn s hs, fun h => ha ⟨s, hs, h⟩⟩
      obtain ⟨s, hs, hd⟩ := hd
      have hdisabled : ¬∀ s ∈ slots, s.NotRunFor "disabled" := fun h =>
        absurd ((h s hs).eq hd) (by decide)
      have hguard : ¬∀ s ∈ slots, s.NotRunFor "guard_wait_timeout" := fun h =>
        absurd ((h s hs).eq hd) (by decide)
      refine ⟨iff_of_false nofun hdisabled, ?_⟩
      rw [if_neg hguard]
      exact fun _ => rfl
  · rw [if_neg hn]
    exact iff_of_false (fun h => nomatch h.1) fun h => hn fun s hs => (h s hs).1

section Run

variable [UnicodeData]

@[simp] theorem safeErrorView_slot {enabled : ProviderSet} {provider : ProviderKey}
    {code : SafeErrorCode} :
    (safeErrorView provider code).slot enabled = .ok ⟨.executionError, none⟩ := rfl

/-- The view of a provider that was not run says its reason. -/
theorem notRunView_slot {enabled : ProviderSet} {provider : ProviderKey} {reason : String}
    (h : reason ≠ "") :
    (notRunView provider reason).slot enabled = .ok ⟨.notRun, some reason⟩ := by
  show Except.ok (⟨.notRun, some (if reason = "" then "disabled" else reason)⟩ : Slot) = _
  rw [if_neg h]

/-- A document has the views that it was made of, and its error. -/
theorem aggregate_eq_ok {views : ProviderKey → ProviderView} {error : Option SafeErrorCode}
    {view : DocumentView} (h : aggregate views error = .ok view) :
    view.codex = views .codex ∧ view.opencodeGo = views .opencodeGo ∧
      view.documentError = error := by
  rw [aggregate] at h
  split at h
  · cases h
    exact ⟨rfl, rfl, rfl⟩
  · cases h

namespace RefreshAttempt

/-- There is nothing to catch where views are only put together. -/
theorem caught_aggregate (views : ProviderKey → ProviderView) (error : Option SafeErrorCode) :
    caught (aggregate views error) = aggregate views error := by
  rw [aggregate]
  split <;> rfl

variable {a : RefreshAttempt}

/-- What was left behind, or is now, could not be cleaned up. -/
def CleanupFailed (a : RefreshAttempt) : Prop := a.staleFailed ∨ ¬a.idle ∧ a.cleanupError

/-- How an attempt that returns a document came to it. -/
inductive Returned (a : RefreshAttempt) (view : DocumentView) : Prop
  | cleanup (h : a.CleanupFailed) (herror : view.documentError = some .cleanupFailed)
  | idle (h : a.idle) (hview : aggregate a.initialViews none = .ok view)
  | guard (code : String) (h : a.firstRaised = some (.guardError code))
      (hview : view = guardDocument code)
  | body (h : ¬a.CleanupFailed) (hidle : ¬a.idle) (hraised : a.firstRaised = none)
      (hview : aggregate a.finalViews a.finalError = .ok view)

/-- A view that was returned came by one of the ways that are listed. -/
theorem returned_of_run {view : DocumentView} (h : a.run = .ok view) : a.Returned view := by
  rw [run] at h
  by_cases hs : a.staleFailed
  · rw [if_pos hs] at h
    exact .cleanup (Or.inl hs) (aggregate_eq_ok h).2.2
  rw [if_neg hs] at h
  by_cases hidle : a.idle
  · rw [if_pos hidle] at h
    exact .idle hidle h
  rw [if_neg hidle, execute_eq] at h
  obtain ⟨result, hresult, h⟩ := bind_eq_ok_iff.1 h
  cases h
  by_cases hc : a.cleanupError
  · rw [if_pos hc]
    exact .cleanup (Or.inr ⟨hidle, hc⟩) rfl
  rw [if_neg hc]
  rcases hr : a.firstRaised with _ | code | _
  · rw [hr] at hresult
    refine .body ?_ hidle hr ((caught_aggregate _ _).symm.trans hresult)
    rintro (hs' | ⟨-, hc'⟩)
    · exact hs hs'
    · exact hc hc'
  · rw [hr] at hresult
    cases hresult
    exact .guard code hr rfl
  · rw [hr] at hresult
    cases hresult

/-! ### The attempts that are classified as specified -/

/-- **When an attempt is classified as specified**: its cleanup failed, or it called no
provider, or the guard raised; or the deadline passed before any call while no provider
was in error; or it passed before the call of OpenCode and Codex was not run either; or
all calls were made and what they recorded is settled. -/
def Classified (a : RefreshAttempt) (enabled : ProviderSet) : Prop :=
  a.CleanupFailed ∨ a.idle ∨ (∃ code, a.firstRaised = some (.guardError code)) ∨
    match a.stage with
    | .early => ∀ provider, ¬a.providerErrors provider
    | .late => ∀ s, (a.recorded .codex).slot enabled = .ok s → s.Quiet
    | .finished => ∀ codex opencodeGo, (a.recorded .codex).slot enabled = .ok codex →
        (a.recorded .opencodeGo).slot enabled = .ok opencodeGo → Settled [codex, opencodeGo]

/-- The slots of the views before any call are settled. -/
theorem settled_initialViews {enabled : ProviderSet} {codex opencodeGo : Slot}
    (hc : (a.initialViews .codex).slot enabled = .ok codex)
    (ho : (a.initialViews .opencodeGo).slot enabled = .ok opencodeGo) :
    Settled [codex, opencodeGo] := by
  have key : ∀ {provider s}, (a.initialViews provider).slot enabled = .ok s →
      s = ⟨.executionError, none⟩ ∨ s = ⟨.notRun, some "disabled"⟩ := by
    intro provider s h
    rw [initialViews] at h
    split at h
    · exact Or.inl (Except.ok.inj h).symm
    · rw [notRunView_slot (by decide)] at h
      exact Or.inr (Except.ok.inj h).symm
  rcases key hc with rfl | rfl <;> rcases key ho with rfl | rfl <;>
    simp [Settled, Slot.Usable, Slot.NotRunFor]

/-- An attempt that has something to run has a provider without an error. -/
theorem not_providerErrors_of_not_idle (h : ¬a.idle) : ∃ provider, ¬a.providerErrors provider := by
  by_contra hall
  push Not at hall
  simp [idle, enabled, hall] at h

/-- The document of a failed guard is classified as it should be. -/
theorem assigned_guardDocument {enabled : ProviderSet} {code : String} {codex opencodeGo : Slot}
    (hc : (guardDocument code).codex.slot enabled = .ok codex)
    (ho : (guardDocument code).opencodeGo.slot enabled = .ok opencodeGo) :
    Assigned ((guardDocument code).documentError = some .cleanupFailed) [codex, opencodeGo]
      (documentState (guardDocument code).documentError [codex.outcome, opencodeGo.outcome]).1
      (documentState (guardDocument code).documentError [codex.outcome, opencodeGo.outcome]).2 := by
  by_cases hcode : code = "guard_wait_timeout"
  · rw [guardDocument, if_pos hcode] at hc ho ⊢
    obtain rfl := Except.ok.inj ((notRunView_slot (by decide)).symm.trans hc)
    obtain rfl := Except.ok.inj ((notRunView_slot (by decide)).symm.trans ho)
    simp [DocumentView.ordered, documentState, Assigned, NotRunError, Slot.Usable, Slot.Aborted,
      Slot.NotRunFor, abortErrors]
  · rw [guardDocument, if_neg hcode] at hc ho ⊢
    obtain rfl := Except.ok.inj ((notRunView_slot (by decide)).symm.trans hc)
    obtain rfl := Except.ok.inj ((notRunView_slot (by decide)).symm.trans ho)
    simp [DocumentView.ordered, documentState, Assigned, Slot.Usable, Slot.Aborted, abortErrors,
      SafeErrorCode.value]

/-- A provider that is not in error was not run, because of the deadline. -/
theorem keptViews_notRunFor {enabled : ProviderSet} {provider : ProviderKey} {s : Slot}
    (hp : ¬a.providerErrors provider)
    (h : (a.keptViews "deadline_exhausted" provider).slot enabled = .ok s) :
    s.NotRunFor "deadline_exhausted" := by
  rw [keptViews, if_neg hp, notRunView_slot (by decide)] at h
  obtain rfl := Except.ok.inj h
  exact ⟨rfl, rfl⟩

/-- Kept views are quiet exactly if no provider had an error before the attempt. -/
theorem forall_keptViews_quiet_iff {enabled : ProviderSet} {codex opencodeGo : Slot}
    (hc : (a.keptViews "deadline_exhausted" .codex).slot enabled = .ok codex)
    (ho : (a.keptViews "deadline_exhausted" .opencodeGo).slot enabled = .ok opencodeGo) :
    (∀ s ∈ [codex, opencodeGo], s.Quiet) ↔ ∀ provider, ¬a.providerErrors provider := by
  have key : ∀ {provider s}, (a.keptViews "deadline_exhausted" provider).slot enabled = .ok s →
      (s.Quiet ↔ ¬a.providerErrors provider) := by
    intro provider s h
    by_cases hp : a.providerErrors provider
    · rw [keptViews, initialViews, if_pos hp, if_pos hp] at h
      cases h
      exact iff_of_false (fun hq => nomatch hq.1) (not_not.2 hp)
    · exact iff_of_true (keptViews_notRunFor hp h).quiet hp
  rw [List.forall_mem_cons, List.forall_mem_singleton, key hc, key ho]
  constructor
  · rintro ⟨h, h'⟩ (_ | _)
    · exact h
    · exact h'
  · intro h
    exact ⟨h _, h _⟩

theorem run_classified_iff {a : RefreshAttempt} {formatter : TimestampFormatter}
    {enabled : ProviderSet} {evidence : Option OpenCodeFailureEvidence} {limit : ℕ}
    {view : DocumentView} {document : Document} (hrun : a.run = .ok view)
    (hdoc : projectDocument formatter ⟨view, enabled, evidence⟩ limit = .ok document) :
    Assigned (view.documentError = some .cleanupFailed) (document.providers.map (·.slot))
        document.executionState document.executionError ↔ a.Classified enabled := by
  obtain ⟨codex, opencodeGo, hproviders, hc, ho, hstate⟩ := projectDocument_eq_ok hdoc
  obtain ⟨hstate, herror⟩ := Prod.ext_iff.1 hstate
  dsimp only at hstate herror hc ho
  rw [hproviders, hstate, herror]
  show Assigned _ [codex.slot, opencodeGo.slot] _ _ ↔ _
  rcases returned_of_run hrun with ⟨h, herr⟩ | ⟨h, hview⟩ | ⟨code, h, rfl⟩ | ⟨hclean, hidle, hr, hview⟩
  · refine iff_of_true ?_ (Or.inl h)
    rw [herr]
    exact ⟨rfl, rfl⟩
  · obtain ⟨hcodex, hopencode, herr⟩ := aggregate_eq_ok hview
    rw [hcodex] at hc
    rw [hopencode] at ho
    rw [herr]
    refine iff_of_true ?_ (Or.inr (Or.inl h))
    exact (assigned_documentState_iff (by simp)).2 (settled_initialViews hc ho)
  · exact iff_of_true (assigned_guardDocument hc ho) (Or.inr (Or.inr (Or.inl ⟨code, h⟩)))
  · obtain ⟨hcodex, hopencode, herr⟩ := aggregate_eq_ok hview
    rw [hcodex] at hc
    rw [hopencode] at ho
    rw [herr]
    have hraised : ¬∃ code, a.firstRaised = some (.guardError code) := by
      rintro ⟨code, h⟩
      rw [hr] at h
      cases h
    rw [Classified, or_iff_right hclean, or_iff_right hidle, or_iff_right hraised]
    rcases hstage : a.stage with _ | _ | _
    all_goals
      simp only [finalViews, finalError, hstage] at hc ho ⊢
    case early =>
      have hd : ∃ s ∈ [codex.slot, opencodeGo.slot], s.NotRunFor "deadline_exhausted" := by
        obtain ⟨_ | _, hp⟩ := not_providerErrors_of_not_idle hidle
        · exact ⟨_, by simp, keptViews_notRunFor hp hc⟩
        · exact ⟨_, by simp, keptViews_notRunFor hp ho⟩
      rw [← forall_keptViews_quiet_iff hc ho]
      exact assigned_deadline_iff hd
    case late =>
      rw [Function.update_self, notRunView_slot (by decide)] at ho
      have hd : opencodeGo.slot.NotRunFor "deadline_exhausted" := by
        rw [← Except.ok.inj ho]
        exact ⟨rfl, rfl⟩
      refine (assigned_deadline_iff ⟨_, by simp, hd⟩).trans ?_
      rw [List.forall_mem_cons, List.forall_mem_singleton, and_iff_left hd.quiet]
      constructor
      · intro h s hs
        rwa [← Except.ok.inj (hc.symm.trans hs)]
      · intro h
        exact h _ hc
    case finished =>
      refine (assigned_documentState_iff (List.cons_ne_nil codex.slot [opencodeGo.slot])).trans ?_
      constructor
      · intro h c o hc' ho'
        rwa [← Except.ok.inj (hc.symm.trans hc'), ← Except.ok.inj (ho.symm.trans ho')]
      · intro h
        exact h _ _ hc ho

/-! ### An attempt that runs out of time -/

/-- Both providers can be called; Codex is not there, and when OpenCode is to be called
the clock stands at `clock`, of the ten nanoseconds there are. -/
def slowAttempt (clock : ℤ) : RefreshAttempt where
  config := ⟨⟨true, some "codex"⟩, ⟨true⟩⟩
  apiKey := some "key"
  context := ⟨0, 10, 0, by decide, by decide, by decide, by decide⟩
  providerErrors := fun _ => false
  staleCleanup := none
  staleLeases := none
  guard := .acquired
  firstClock := 0
  codexAnswer := .ok (undetectedView .codex)
  secondClock := clock
  opencodeAnswer := .ok (safeErrorView .opencodeGo .timeout)
  cleanupSafe := true
  leaseReleased := true

end RefreshAttempt

end Run

theorem run_classified_in_time :
    letI := UnicodeData.ascii
    ∃ view document, (RefreshAttempt.slowAttempt 5).run = .ok view ∧
      projectDocument (fun _ => none) ⟨view, fun _ => true, none⟩ MAX_TOOLTIP_SCALARS
        = .ok document ∧
      Assigned (view.documentError = some .cleanupFailed) (document.providers.map (·.slot))
        document.executionState document.executionError := by
  let _ := UnicodeData.ascii
  refine ⟨_, _, rfl, rfl, (@RefreshAttempt.run_classified_iff _ (RefreshAttempt.slowAttempt 5)
    (fun _ => none) (fun _ => true) none MAX_TOOLTIP_SCALARS _ _ rfl rfl).2 ?_⟩
  refine Or.inr (Or.inr (Or.inr ?_))
  rintro codex opencodeGo ⟨⟩ -
  exact Or.inl ⟨_, List.mem_cons_self, Or.inr rfl⟩

/-- **A provider that was looked for and not found is emitted as if nothing was run.** -/
theorem run_unclassified :
    letI := UnicodeData.ascii
    ∃ view document, (RefreshAttempt.slowAttempt 10).run = .ok view ∧
      projectDocument (fun _ => none) ⟨view, fun _ => true, none⟩ MAX_TOOLTIP_SCALARS
        = .ok document ∧
      ¬Assigned (view.documentError = some .cleanupFailed) (document.providers.map (·.slot))
        document.executionState document.executionError := by
  let _ := UnicodeData.ascii
  refine ⟨_, _, rfl, rfl, ?_⟩
  -- a usable provider leaves only the complete and the partial state
  have husable : ∃ s ∈ [Slot.mk .undetected none, ⟨.notRun, some "deadline_exhausted"⟩],
    s.Usable := ⟨_, List.mem_cons_self, Or.inr rfl⟩
  show ¬Assigned false [⟨.undetected, none⟩, ⟨.notRun, some "deadline_exhausted"⟩] .notRun _
  rw [Assigned, if_neg Bool.false_ne_true, if_pos husable]
  exact fun h => nomatch h.2

end YasbLimitora
