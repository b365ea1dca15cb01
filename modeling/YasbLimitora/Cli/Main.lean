import Mathlib
import YasbLimitora.Coordinator.Program
import YasbLimitora.Projection.Bounded
import YasbLimitora.Worker.Attempt

/-!
# The command line boundary

`main` of `cli.py`, from the configuration that was read to the document, the exit code
and the diagnostic. What it is told by the configuration, the coordinator and the
orchestrator is part of the record of a run. A document stands for its bytes, also where
it comes from the cache.

`YasbLimitora.MainRun.main_agrees_iff` says in which runs the exit code and the
diagnostic are those of the document that is emitted.

The exit code is decided before the document is projected, from the view alone. A projection may
still fall back to the failure document, and then an exit code of zero goes with a document that
reports an internal error. `YasbLimitora.MainRun.Consistent` is the condition under which it does
not, on the projection of the view and on the document that the cache handed over; an example of the
other kind is at the end, a snapshot with more windows than a document may have.
-/

namespace YasbLimitora

/-- How reading the configuration fails. -/
inductive ConfigFailure
  | invocationError
  | deadlineError
  | configError
deriving DecidableEq, Repr

/-- A configuration, with the providers it is in error for. -/
structure Loaded where
  config : LocalConfig
  providerErrors : ProviderSet

/-! ### What is emitted -/

/-- What a run writes, and its exit code. -/
structure Emitted where
  document : Document
  exitCode : ℕ
  diagnostic : String

/-- What is written to the error stream. -/
def Emitted.stderr (e : Emitted) : String :=
  if e.diagnostic = "" then "" else "yasb-limitora: " ++ e.diagnostic ++ "\n"

/-- **The exit code and the diagnostic are those of the document.** -/
def Emitted.Agrees (e : Emitted) : Prop :=
  match e.document.executionError with
  | none => e.exitCode = 0 ∧ e.stderr = ""
  | some error =>
    if error.code = "provider_failed" then e.exitCode = 1 ∧ e.stderr ≠ ""
    else e.exitCode = 2 ∧ e.stderr ≠ ""

/-- The document has an error that no provider stands for. -/
def Document.Fails (document : Document) : Prop :=
  ∃ error, document.executionError = some error ∧ error.code ≠ "provider_failed"

/-- There is something on `stderr` exactly if there is a diagnostic. -/
theorem Emitted.stderr_eq_empty_iff {e : Emitted} : e.stderr = "" ↔ e.diagnostic = "" := by
  rw [Emitted.stderr]
  split
  · next h => exact iff_of_true rfl h
  · next h =>
    refine iff_of_false (fun hempty => ?_) h
    have hlength := congrArg String.length hempty
    simp at hlength

/-- A document that fails agrees with exit code 2 and a diagnostic, and with nothing else. -/
theorem Emitted.agrees_of_fails {e : Emitted} (h : e.document.Fails) :
    e.Agrees ↔ e.exitCode = 2 ∧ e.diagnostic ≠ "" := by
  obtain ⟨error, herror, hcode⟩ := h
  rw [Emitted.Agrees, herror]
  simp only [if_neg hcode, ne_eq, Emitted.stderr_eq_empty_iff]

/-- `provider_failed` is no code of a document. -/
theorem SafeErrorCode.value_ne_provider_failed (code : SafeErrorCode) :
    code.value ≠ "provider_failed" := by
  rcases code <;> decide

/-- A document with an error of its own fails. -/
theorem documentState_some_fails (code : SafeErrorCode) (outcomes : List ProviderOutcome) :
    ∃ error, (documentState (some code) outcomes).2 = some error ∧
      error.code ≠ "provider_failed" := by
  rcases code <;> exact ⟨_, rfl, by decide⟩

/-- Without one, it has no error or that of its providers. -/
theorem documentState_none_cases (outcomes : List ProviderOutcome) :
    (documentState none outcomes).2 = none ∨
      (documentState none outcomes).2 = some ⟨"provider_failed", "provider"⟩ := by
  simp only [documentState]
  split
  · exact Or.inl rfl
  · split
    · exact Or.inl rfl
    · split
      · exact Or.inl rfl
      · exact Or.inr rfl

/-- Without a document error, the root error stands for the providers alone. -/
theorem Emitted.agrees_of_outcomes {e : Emitted} {outcomes : List ProviderOutcome}
    (hroot : e.document.executionError = (documentState none outcomes).2)
    (hcode : e.exitCode = if (documentState none outcomes).2 = none then 0 else 1)
    (hdiagnostic : e.diagnostic = "" ↔ e.exitCode = 0) : e.Agrees := by
  rw [Emitted.Agrees, hroot]
  rcases documentState_none_cases outcomes with h | h
  · rw [if_pos h] at hcode
    rw [h]
    exact ⟨hcode, Emitted.stderr_eq_empty_iff.2 (hdiagnostic.2 hcode)⟩
  · rw [h, if_neg nofun] at hcode
    rw [h]
    refine ⟨hcode, fun hempty => ?_⟩
    rw [Emitted.stderr_eq_empty_iff, hdiagnostic, hcode] at hempty
    cases hempty

/-! ### The program -/

section Main

variable [UnicodeData]

/-- What `main` reads of the result of a coordinator. -/
structure Coordinated where
  value : Option DocumentView
  cachedPublic : Option Document
  deadlineExhausted : Bool
  coordinationFailed : Bool
  coordinationError : Option CoordinationError

/-- A run of `main`, by all it is told. An absent value stands for an exception. -/
structure MainRun where
  configuration : Except ConfigFailure Loaded
  apiKey : Option String
  runtimeReady : Bool
  coordinatorReady : Bool
  coordinated : Option Coordinated
  timeIsUp : Bool
  executed : Option DocumentView
  evidence : Option OpenCodeFailureEvidence

/-- `_cache_eligible`. -/
def cacheEligible (config : LocalConfig) (apiKey : Option String) : Bool :=
  config.codex.enabled && givenText config.codex.runner ||
    config.opencodeGo.enabled && givenText apiKey

/-- The providers that count as enabled: those in error were meant to be. -/
def enabledProviders (loaded : Loaded) : ProviderSet
  | .codex => loaded.config.codex.enabled || loaded.providerErrors .codex
  | .opencodeGo => loaded.config.opencodeGo.enabled || loaded.providerErrors .opencodeGo

/-- `_provider_error_overlay`. -/
def providerErrorOverlay (view : DocumentView) (errors : ProviderSet) : DocumentView where
  codex := if errors .codex then safeErrorView .codex .providerError else view.codex
  opencodeGo := if errors .opencodeGo then safeErrorView .opencodeGo .providerError
    else view.opencodeGo
  documentError := view.documentError
  codex_provider := by
    split
    · rfl
    · exact view.codex_provider
  opencodeGo_provider := by
    split
    · rfl
    · exact view.opencodeGo_provider

/-- A view counts as usable. -/
def ProviderView.usable (enabled : ProviderSet) (view : ProviderView) : Bool :=
  view.outcome == some .snapshot || view.outcome == some .undetected ||
    (view.outcome == none && view.state == .unavailable && enabled view.provider)

/-- `_exit_code`. -/
def exitCode (document : DocumentView) (enabled : ProviderSet) : ℕ :=
  if document.documentError.isSome then 2
  else if ¬document.providers.any (·.state == .safeError) then 0
  else if document.providers.any (·.usable enabled) then 0
  else 1

variable (formatter : TimestampFormatter)

/-- `_cache_failure`. -/
def cacheFailure : Option CoordinationError → Except ProjectionError Document
  | some .guardWaitTimeout => notRunDocument formatter "guard_wait_timeout"
  | some .deadlineExhausted => notRunDocument formatter "deadline_exhausted"
  | some .guardAcquisitionFailed => failureDocument .guardAcquisitionFailed
  | _ => failureDocument .internalError

/-- What the first part of `main` hands to the second. -/
inductive Handover
  | cached (document : Document)
  | coordination (document : Document) (diagnostic : Option String)
  | view (view : DocumentView)

namespace MainRun

variable (r : MainRun)

/-- The document of a result, or its failure. -/
def ofResult (result : Coordinated) : Option Handover :=
  match result.cachedPublic with
  | some document => some (.cached document)
  | none =>
    if result.deadlineExhausted then
      (cacheFailure formatter (some .deadlineExhausted)).toOption.map (.coordination · none)
    else if result.coordinationFailed then
      (cacheFailure formatter result.coordinationError).toOption.map (.coordination · (some
        (if result.coordinationError = some .guardWaitTimeout then "guard_wait_timeout"
        else "runtime_error")))
    else result.value.map .view

/-- The first part of `main`, which may raise: a document of the cache, a failure of the
coordination, or the view of a run of its own. -/
def decided (loaded : Loaded) : Option Handover :=
  if ¬r.runtimeReady then none
  else if (¬∃ provider ∈ ProviderKey.all, loaded.providerErrors provider) ∧
      cacheEligible loaded.config r.apiKey ∧ r.coordinatorReady then
    match r.coordinated with
    | none =>
      (cacheFailure formatter (some (if r.timeIsUp then .deadlineExhausted
        else .internalError))).toOption.map (.coordination · none)
    | some result => ofResult formatter result
  else r.executed.map .view

/-- The view that is projected. -/
def shownView (loaded : Loaded) (view : DocumentView) : ProjectionInput where
  document := providerErrorOverlay view loaded.providerErrors
  enabledProviders := enabledProviders loaded
  opencodeEvidence := r.evidence

/-- A failure document, with its exit code. -/
def failed (code : SafeErrorCode) (diagnostic : String) : Except ProjectionError Emitted := do
  let document ← failureDocument code
  return ⟨document, 2, diagnostic⟩

/-- The diagnostic of a view. -/
def viewDiagnostic (view : DocumentView) (code : ℕ) : String :=
  if view.documentError = some .guardWaitTimeout then "guard_wait_timeout"
  else if code ≠ 0 then "runtime_error" else ""

/-- `main`. -/
def main : Except ProjectionError Emitted :=
  match r.configuration with
  | .error .invocationError => failed .invocationInvalid "invocation_invalid"
  | .error .deadlineError => failed .deadlineExhausted "runtime_error"
  | .error .configError => failed .configurationInvalid "configuration_invalid"
  | .ok loaded =>
    match r.decided formatter loaded with
    | none => failed .internalError "runtime_error"
    | some (.cached document) => .ok ⟨document, 0, ""⟩
    | some (.coordination document diagnostic) =>
      .ok ⟨document, 2, diagnostic.getD "runtime_error"⟩
    | some (.view view) =>
      let input := r.shownView loaded view
      let code := exitCode input.document input.enabledProviders
      match projected formatter input with
      | .ok document => .ok ⟨document, code, viewDiagnostic input.document code⟩
      | .error _ => failed .internalError "runtime_error"

end MainRun

/-! ### Documents that fail -/

omit [UnicodeData] in
/-- The document of a failure fails. -/
theorem fails_of_failureDocument {code : SafeErrorCode} {document : Document}
    (h : failureDocument code = .ok document) : document.Fails := by
  rw [failureDocument] at h
  split at h
  · cases h
  · cases h
    exact ⟨_, rfl, code.value_ne_provider_failed⟩

variable {formatter}

/-- What is projected of an input that does not fall back. -/
theorem projected_eq_ok {input : ProjectionInput} {document : Document}
    (h : projected formatter input = .ok document) :
    (FallsBack formatter input ∧ document.Fails) ∨
      (¬FallsBack formatter input ∧ ∃ limit, projectDocument formatter input limit = .ok document) := by
  rcases projected_cases formatter input with ⟨hf, hp⟩ | ⟨hf, ⟨e, hp⟩ | ⟨d, hp, -, limit, -, hd, -⟩⟩
  · rw [hp] at h
    exact Or.inl ⟨hf, fails_of_failureDocument h⟩
  · rw [hp] at h
    cases h
  · rw [hp] at h
    cases h
    exact Or.inr ⟨hf, limit, hd⟩

/-- A view with an error of the whole document is projected to one. -/
theorem projected_fails {input : ProjectionInput} {document : Document} {code : SafeErrorCode}
    (h : projected formatter input = .ok document) (hcode : input.document.documentError = some code) :
    document.Fails := by
  rcases projected_eq_ok h with ⟨-, hfails⟩ | ⟨-, limit, hd⟩
  · exact hfails
  · obtain ⟨codex, opencodeGo, -, -, -, hstate⟩ := projectDocument_eq_ok hd
    rw [hcode] at hstate
    obtain ⟨error, herror, hne⟩ := documentState_some_fails code
      [codex.outcome, opencodeGo.outcome]
    rw [← hstate] at herror
    exact ⟨error, herror, hne⟩

/-- So does that of a failure of the coordination. -/
theorem cacheFailure_fails {code : Option CoordinationError} {document : Document}
    (h : cacheFailure formatter code = .ok document) : document.Fails := by
  have hfailure : ∀ {code : SafeErrorCode}, failureDocument code = .ok document →
      document.Fails := fun h => fails_of_failureDocument h
  rcases code with _ | _ | _ | _ | _
  case none => exact hfailure (show failureDocument .internalError = _ from h)
  case some.internalError => exact hfailure (show failureDocument .internalError = _ from h)
  case some.guardAcquisitionFailed =>
    exact hfailure (show failureDocument .guardAcquisitionFailed = _ from h)
  case some.deadlineExhausted =>
    rw [cacheFailure, notRunDocument, if_neg (by decide), if_pos rfl] at h
    exact projected_fails h rfl
  case some.guardWaitTimeout =>
    rw [cacheFailure, notRunDocument, if_pos rfl] at h
    exact projected_fails h rfl

/-! ### The exit code of a view -/

/-- A slot has the outcome of its view. -/
theorem ProviderView.slot_outcome {enabled : ProviderSet} {view : ProviderView} {s : Slot}
    (h : view.slot enabled = .ok s) : outcomeOf enabled view = .ok s.outcome := by
  obtain ⟨outcome, ho, h⟩ := bind_eq_ok_iff.1 h
  cases h
  exact ho

/-- A view counts as usable if it is projected to a usable outcome. -/
theorem ProviderView.usable_iff {enabled : ProviderSet} {view : ProviderView}
    {outcome : ProviderOutcome} (h : outcomeOf enabled view = .ok outcome) :
    view.usable enabled ↔ outcome.successful := by
  rcases hv : view.outcome with _ | _ | _ | _ | _ <;> rcases hs : view.state with _ | _ | _ | _ <;>
    rcases he : enabled view.provider with _ | _ <;>
    simp only [outcomeOf, hv, hs, he, Bool.false_eq_true, if_true, if_false] at h <;> cases h <;>
    simp [usable, hv, hs, he, ProviderOutcome.successful]

/-- A view is in error if it is projected to an execution error. -/
theorem ProviderView.safeError_iff {enabled : ProviderSet} {view : ProviderView}
    {outcome : ProviderOutcome} (h : outcomeOf enabled view = .ok outcome) :
    view.state = .safeError ↔ outcome = .executionError := by
  have hok := view.ok
  constructor
  · intro hs
    have herror := hok.error_outcome (hok.error_iff.2 hs)
    rcases herror with ho | ho
    · simp only [outcomeOf, ho, hs] at h
      exact (Except.ok.inj h).symm
    · simp only [outcomeOf, ho] at h
      exact (Except.ok.inj h).symm
  · rintro rfl
    rcases ho : view.outcome with _ | o
    · rcases hs : view.state with _ | _ | _ | _
      case safeError => rfl
      case unavailable =>
        simp only [outcomeOf, ho, hs] at h
        split at h <;> cases h
      all_goals
        simp only [outcomeOf, ho, hs] at h
        cases h
    · simp only [outcomeOf, ho] at h
      cases h
      exact hok.executionError_state ho

/-- **The exit code of a view without an error of its own**, by what its providers are
projected to. -/
theorem exitCode_eq {enabled : ProviderSet} {view : DocumentView} {codex opencodeGo : ProviderOutcome}
    (herror : view.documentError = none) (hc : outcomeOf enabled view.codex = .ok codex)
    (ho : outcomeOf enabled view.opencodeGo = .ok opencodeGo) :
    exitCode view enabled =
      if (documentState none [codex, opencodeGo]).2 = none then 0 else 1 := by
  have hstate : ∀ {v : ProviderView} {outcome}, outcomeOf enabled v = .ok outcome →
      (v.state == .safeError) = (outcome == .executionError) := by
    intro v outcome h
    rw [Bool.eq_iff_iff, beq_iff_eq, beq_iff_eq]
    exact ProviderView.safeError_iff h
  have husable : ∀ {v : ProviderView} {outcome}, outcomeOf enabled v = .ok outcome →
      v.usable enabled = outcome.successful := by
    intro v outcome h
    rw [Bool.eq_iff_iff]
    exact ProviderView.usable_iff h
  simp only [exitCode, herror, DocumentView.providers, List.any_cons, List.any_nil, hstate hc,
    hstate ho, husable hc, husable ho]
  rcases codex <;> rcases opencodeGo <;> rfl

namespace MainRun

/-- A view calls for a diagnostic if it timed out in waiting, or its exit code is not zero. -/
theorem viewDiagnostic_eq_empty_iff {view : DocumentView} {code : ℕ} :
    viewDiagnostic view code = "" ↔ view.documentError ≠ some .guardWaitTimeout ∧ code = 0 := by
  rw [viewDiagnostic]
  split
  · next h => exact iff_of_false (by decide) fun hne => hne.1 h
  · next h =>
    split
    · next hcode => exact iff_of_false (by decide) fun hzero => hcode hzero.2
    · next hcode => exact iff_of_true rfl ⟨h, not_not.1 hcode⟩

/-- **What is emitted of a view agrees** unless the projection falls back and the view has
no error of its own. -/
theorem agrees_of_projected {input : ProjectionInput} {document : Document}
    (h : projected formatter input = .ok document) :
    Emitted.Agrees ⟨document, exitCode input.document input.enabledProviders,
        viewDiagnostic input.document (exitCode input.document input.enabledProviders)⟩ ↔
      (input.document.documentError = none → ¬FallsBack formatter input) := by
  rcases herror : input.document.documentError with _ | code
  · simp only [forall_const]
    rcases projected_eq_ok h with ⟨hf, hfails⟩ | ⟨hf, limit, hd⟩
    · rw [Emitted.agrees_of_fails hfails]
      refine iff_of_false ?_ (not_not.2 hf)
      rintro ⟨hcode, -⟩
      rw [exitCode, herror] at hcode
      simp only [Option.isSome_none, Bool.false_eq_true, if_false] at hcode
      split at hcode
      · cases hcode
      · split at hcode <;> cases hcode
    · refine iff_of_true ?_ hf
      obtain ⟨codex, opencodeGo, -, hc, ho, hstate⟩ := projectDocument_eq_ok hd
      rw [herror] at hstate
      refine Emitted.agrees_of_outcomes (Prod.ext_iff.1 hstate).2
        (exitCode_eq herror (ProviderView.slot_outcome hc) (ProviderView.slot_outcome ho)) ?_
      rw [viewDiagnostic_eq_empty_iff, and_iff_right]
      rw [herror]
      exact nofun
  · have hcode : exitCode input.document input.enabledProviders = 2 := by
      rw [exitCode, herror]
      rfl
    rw [Emitted.agrees_of_fails (projected_fails h herror)]
    refine iff_of_true ⟨hcode, ?_⟩ nofun
    rw [ne_eq, viewDiagnostic_eq_empty_iff, hcode]
    exact fun h => nomatch h.2

/-- What is emitted of a view that can be projected. -/
theorem main_of_view {r : MainRun} {loaded : Loaded} {view : DocumentView} {document : Document}
    (hconfiguration : r.configuration = .ok loaded)
    (hdecided : r.decided formatter loaded = some (.view view))
    (hprojected : projected formatter (r.shownView loaded view) = .ok document) :
    r.main formatter = .ok ⟨document,
      exitCode (r.shownView loaded view).document (r.shownView loaded view).enabledProviders,
      viewDiagnostic (r.shownView loaded view).document (exitCode (r.shownView loaded view).document
        (r.shownView loaded view).enabledProviders)⟩ := by
  rw [main, hconfiguration]
  simp only [hdecided, hprojected]

omit [UnicodeData] in
/-- What is emitted of a failure agrees if it has a diagnostic. -/
theorem agrees_of_failed {code : SafeErrorCode} {diagnostic : String} {e : Emitted}
    (h : failed code diagnostic = .ok e) (hdiagnostic : diagnostic ≠ "") : e.Agrees := by
  obtain ⟨document, hd, h⟩ := bind_eq_ok_iff.1 h
  cases h
  exact (Emitted.agrees_of_fails (fails_of_failureDocument hd)).2 ⟨rfl, hdiagnostic⟩

theorem fails_of_cacheFailure {code : Option CoordinationError} {given : Option String}
    {document : Document} {diagnostic : Option String}
    (h : (cacheFailure formatter code).toOption.map (Handover.coordination · given)
      = some (.coordination document diagnostic)) : document.Fails ∧ diagnostic = given := by
  rcases hc : cacheFailure formatter code with e | d
  · rw [hc] at h
    cases h
  · rw [hc] at h
    cases h
    exact ⟨cacheFailure_fails hc, rfl⟩

/-- A failure of the coordination is emitted as one. -/
theorem agrees_of_coordination {r : MainRun} {loaded : Loaded} {document : Document}
    {diagnostic : Option String}
    (h : r.decided formatter loaded = some (.coordination document diagnostic)) :
    Emitted.Agrees ⟨document, 2, diagnostic.getD "runtime_error"⟩ := by
  suffices hs : document.Fails ∧ diagnostic.getD "runtime_error" ≠ "" from
    (Emitted.agrees_of_fails hs.1).2 ⟨rfl, hs.2⟩
  have hview : ∀ {v : Option DocumentView},
      v.map Handover.view ≠ some (.coordination document diagnostic) := by
    intro v hv
    rcases v with _ | v <;> cases hv
  rw [decided] at h
  split at h
  · cases h
  · split at h
    · rcases hresult : r.coordinated with _ | result
      · simp only [hresult] at h
        obtain ⟨hfails, rfl⟩ := fails_of_cacheFailure h
        exact ⟨hfails, by decide⟩
      · simp only [hresult, ofResult] at h
        rcases hcached : result.cachedPublic with _ | cached
        · simp only [hcached] at h
          split at h
          · obtain ⟨hfails, rfl⟩ := fails_of_cacheFailure h
            exact ⟨hfails, by decide⟩
          · split at h
            · obtain ⟨hfails, rfl⟩ := fails_of_cacheFailure h
              refine ⟨hfails, ?_⟩
              simp only [Option.getD_some]
              split <;> decide
            · exact absurd h hview
        · simp only [hcached] at h
          cases h
    · exact absurd h hview

/-- **The runs whose exit code and diagnostic are those of the document**: a document
taken from the cache has no error, and a view without an error of its own can be
projected without falling back. -/
def Consistent (formatter : TimestampFormatter) (r : MainRun) : Prop :=
  ∀ loaded, r.configuration = .ok loaded →
    match r.decided formatter loaded with
    | some (.cached document) => document.executionError = none
    | some (.view view) => view.documentError = none → ¬FallsBack formatter (r.shownView loaded view)
    | _ => True

theorem main_agrees_iff {r : MainRun} {e : Emitted} (h : r.main formatter = .ok e) :
    e.Agrees ↔ r.Consistent formatter := by
  rw [main] at h
  rcases hconf : r.configuration with failure | loaded
  · rw [hconf] at h
    refine iff_of_true ?_ (by intro loaded hl; rw [hconf] at hl; cases hl)
    rcases failure with _ | _ | _ <;> exact agrees_of_failed h (by decide)
  rw [hconf] at h
  simp only [Consistent, hconf, Except.ok.injEq, forall_eq']
  rcases hdecided : r.decided formatter loaded with _ | document | ⟨document, diagnostic⟩ | view
  · simp only [hdecided] at h
    exact iff_of_true (agrees_of_failed h (by decide)) trivial
  · simp only [hdecided] at h
    cases h
    simp only [Emitted.Agrees, Emitted.stderr_eq_empty_iff]
    rcases hroot : document.executionError with _ | error
    · simp
    · simp only []
      split <;> simp
  · simp only [hdecided] at h
    cases h
    exact iff_of_true (agrees_of_coordination hdecided) trivial
  · simp only [hdecided] at h
    rcases hp : projected formatter (r.shownView loaded view) with err | document
    · rw [hp] at h
      refine iff_of_true (agrees_of_failed h (by decide)) fun _ hf => ?_
      rcases projected_cases formatter (r.shownView loaded view) with ⟨-, hfb⟩ | ⟨hfb, -⟩
      · rw [hp] at hfb
        cases hfb
      · exact hfb hf
    · rw [hp] at h
      cases h
      exact agrees_of_projected hp

end MainRun

end Main

/-- Codex is not there, and the call of OpenCode failed. -/
def partialRun [UnicodeData] : MainRun where
  configuration := .ok ⟨⟨⟨true, some "codex"⟩, ⟨true⟩⟩, fun _ => false⟩
  apiKey := some "key"
  runtimeReady := true
  coordinatorReady := false
  coordinated := none
  timeIsUp := false
  executed := some (.ordered ⟨undetectedView .codex, rfl⟩ (safeErrorOf .opencodeGo .timeout) none)
  evidence := none

theorem main_agrees_partial :
    letI := UnicodeData.ascii
    ∃ e, partialRun.main (fun _ => none) = .ok e ∧ e.Agrees := by
  let _ := UnicodeData.ascii
  obtain ⟨document, hd, hsize⟩ : ∃ document, projectDocument (fun _ => none)
      (partialRun.shownView ⟨⟨⟨true, some "codex"⟩, ⟨true⟩⟩, fun _ => false⟩
        (.ordered ⟨undetectedView .codex, rfl⟩ (safeErrorOf .opencodeGo .timeout) none))
      MAX_TOOLTIP_SCALARS = .ok document ∧ document.size ≤ MAX_DOCUMENT_BYTES :=
    ⟨_, rfl, by decide +kernel⟩
  obtain ⟨hp, hfalls⟩ := projected_of_small hd hsize
  have hmain := MainRun.main_of_view (r := partialRun) rfl rfl hp
  refine ⟨_, hmain, (MainRun.main_agrees_iff hmain).2 ?_⟩
  rintro loaded ⟨⟩ -
  exact hfalls

/-! ### A document with too many windows -/

/-- A text of one letter. -/
def letter (i : Fin 30) : String := String.singleton (Char.ofNat (97 + i))

/-- Different numbers give windows of different names. -/
theorem letter_injective : Function.Injective letter := by
  intro i j
  revert i j
  decide

/-- A window without values. -/
def plainWindow (i : Fin 30) :
    letI := UnicodeData.ascii
    QuotaWindowView :=
  letI := UnicodeData.ascii
  { kind := .other
    scope := "account"
    period := letter i
    planId := none
    availability := .unavailable
    sourceId := none
    limit := none
    used := none
    remaining := none
    resetAt := none
    scope_identity := ⟨"account", "", by decide⟩
    period_identity := ⟨letter i, "", by revert i; decide⟩
    planId_identity := nofun
    sourceId_safe := nofun
    values_ok := rfl }

/-- Thirty windows, of which none is commercial. -/
def crowdedSnapshot :
    letI := UnicodeData.ascii
    ProviderSnapshotView :=
  letI := UnicodeData.ascii
  { publicState := .available
    freshness := .fresh
    statusObservedAt := ⟨2024, 1, 1, 0, 0, 0, 0, by decide⟩
    fetchedAt := ⟨2024, 1, 1, 0, 0, 0, 0, by decide⟩
    dataAt := ⟨2024, 1, 1, 0, 0, 0, 0, by decide⟩
    sourceId := some OPENCODE_SOURCE_ID
    windows := List.ofFn plainWindow
    rateLimitResetCredits := none
    observed_le := le_rfl
    data_le := le_rfl
    sourceId_safe := rfl
    windows_le := by rw [List.length_ofFn]; decide
    windows_nodup := by
      rw [List.map_ofFn, List.nodup_ofFn]
      intro i j h
      exact letter_injective (congrArg (·.2.2) h)
    rateLimited_ok := nofun }

/-- OpenCode answers with more windows than a document may have. -/
def crowdedRun :
    letI := UnicodeData.ascii
    MainRun :=
  letI := UnicodeData.ascii
  { configuration := .ok ⟨⟨⟨false, none⟩, ⟨true⟩⟩, fun _ => false⟩
    apiKey := some "key"
    runtimeReady := true
    coordinatorReady := false
    coordinated := none
    timeIsUp := false
    executed := some (.ordered (notRunOf .codex "disabled")
      ⟨{ provider := .opencodeGo
         state := .success
         error := none
         outcome := some .snapshot
         snapshot := some crowdedSnapshot
         notRunReason := none
         ok := by constructor <;> simp }, rfl⟩ none)
    evidence := none }

/-- **The document of an internal error is emitted with exit code 0.** -/
theorem main_disagrees :
    letI := UnicodeData.ascii
    ∃ e, crowdedRun.main (fun _ => none) = .ok e ∧ ¬e.Agrees := by
  let _ := UnicodeData.ascii
  refine ⟨_, rfl, ?_⟩
  rw [Emitted.agrees_of_fails (fails_of_failureDocument
    (show failureDocument .internalError = .ok _ from rfl))]
  exact fun h => nomatch h.1

end YasbLimitora
