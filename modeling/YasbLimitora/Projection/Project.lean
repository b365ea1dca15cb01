import Mathlib
import YasbLimitora.Lib.Except
import YasbLimitora.Lib.Search
import YasbLimitora.Model.Views
import YasbLimitora.Projection.Presentation

/-!
# Projecting a document

`projection.py` from the views of a run to the document that is emitted: the facts of
each provider, what is shown of them, the state of the document, and the search for the
longest tooltips with which it is small enough. `YasbLimitora.projectBytes` is
`project_bytes`, and `YasbLimitora.projected` the document whose text it returns; where a
provider has too many windows, or the document is too large without any tooltip, that is
the failure document of an internal error.

The windows of a provider are projected one by one for Codex, and according to the public state for
OpenCode. All failures of the source are errors here: a text that is no identity, a count that has
too many digits to be written, a snapshot with too many windows. Which of them makes the whole
document fall back, and which is raised, follows from the order in which they come up.
-/

namespace YasbLimitora

def MAX_DOCUMENT_BYTES : ℕ := 65536

def MAX_TOOLTIP_SCALARS : ℕ := 4096

def OPENCODE_FIXED_PERIODS : List String := ["five_hour", "monthly", "weekly"]

section Project

variable [UnicodeData]

/-! ### Windows -/

/-- `_identity`: an identity is checked again. -/
def identityText (value message : String) : Except ProjectionError String :=
  if value = "" ∨ strip value ≠ value ∨ 64 < value.length ∨ value.toList.any isControl then
    .error (.valueError message)
  else .ok value

/-- `_source`: the source, where it is the one of the provider. -/
def projectSource (value : Option String) (provider : ProviderKey) : Option String :=
  (value.map fun s => strip (UnicodeData.nfc s)).filter (· = provider.expectedSource)

def projectQuantity (q : QuotaQuantity) : Except ProjectionError QuantityItem := do
  let unit ← identityText q.unit "invalid current unit"
  return ⟨String.ofList (renderDecimal q.value), q.metric, unit⟩

/-- What is projected of an optional value. -/
def projectOption {α β : Type} (f : α → Except ProjectionError β) :
    Option α → Except ProjectionError (Option β)
  | none => .ok none
  | some a => some <$> f a

/-- `_window`: only the window of a trusted source keeps its values. -/
def projectWindow (provider : ProviderKey) (w : QuotaWindowView) :
    Except ProjectionError WindowItem := do
  let source := projectSource w.sourceId provider
  let trusted := source.isSome
  let planId ← projectOption (identityText · "invalid current plan id")
    (if trusted then w.planId else none)
  let scope ← identityText w.scope "invalid current scope"
  let period ← identityText w.period "invalid current period"
  let limit ← projectOption projectQuantity (if trusted then w.limit else none)
  let used ← projectOption projectQuantity (if trusted then w.used else none)
  let remaining ← projectOption projectQuantity (if trusted then w.remaining else none)
  return ⟨w.kind, scope, period, planId, if trusted then w.availability else .unavailable, source,
    limit, used, remaining, if trusted then w.resetAt else none⟩

/-- `_opencode_placeholder`. -/
def opencodePlaceholder (period : String) (scope : String) : WindowItem where
  kind := .commercialQuota
  scope := scope
  period := period
  planId := none
  availability := .unavailable
  sourceId := none
  limit := none
  used := none
  remaining := none
  resetAt := none

/-- A commercial window counts for a fixed period if its own can be projected. -/
def isCandidate (period : String) (w : QuotaWindowView) : Bool :=
  w.kind = .commercialQuota && (identityText w.period "").isOk && w.period = period

/-- The slot of a fixed period: the one window there is for it, if it is known and of the
right source, and else a placeholder. -/
def opencodeSlot (windows : List QuotaWindowView) (period : String) : WindowItem :=
  match windows.filter (isCandidate period) with
  | [candidate] =>
    match projectWindow .opencodeGo candidate with
    | .error _ => opencodePlaceholder period "account"
    | .ok item =>
      if item.availability ≠ .known ∨ item.sourceId ≠ some OPENCODE_SOURCE_ID then
        opencodePlaceholder period item.scope
      else item
  | _ => opencodePlaceholder period "account"

/-- `_opencode_windows`. -/
def opencodeWindows (snapshot : ProviderSnapshotView) : Except ProjectionError (List WindowItem) :=
  match snapshot.publicState with
  | .rateLimited =>
    (snapshot.windows.filter (·.kind = .technicalRateLimit)).mapM (projectWindow .opencodeGo)
  | .available | .partialState => do
    let preserved ← (snapshot.windows.filter (·.kind ≠ .commercialQuota)).mapM
      (projectWindow .opencodeGo)
    return preserved ++ OPENCODE_FIXED_PERIODS.map (opencodeSlot snapshot.windows)
  | _ => snapshot.windows.mapM (projectWindow .opencodeGo)

/-- The windows of a snapshot, as they are projected. -/
def snapshotWindows (provider : ProviderKey) (snapshot : ProviderSnapshotView) :
    Except ProjectionError (List WindowItem) :=
  match provider with
  | .opencodeGo => opencodeWindows snapshot
  | .codex => snapshot.windows.mapM (projectWindow .codex)

/-! ### Providers -/

/-- `_error`. -/
def projectError (code : SafeErrorCode) : Option OpenCodeFailureEvidence → ErrorItem
  | some .credentialInvalid => ⟨"credential_invalid", "provider"⟩
  | some .timeout => ⟨"provider_timeout", "provider"⟩
  | some .rateLimited => ⟨"provider_rate_limited", "provider"⟩
  | some .unavailable => ⟨"provider_unavailable", "provider"⟩
  | none =>
    match code with
    | .timeout => ⟨"provider_timeout", "provider"⟩
    | .invalidProviderData => ⟨"invalid_provider_data", "provider"⟩
    | .unknownProviderState => ⟨"unknown_provider_state", "provider"⟩
    | .guardWaitTimeout => ⟨"guard_wait_timeout", "provider"⟩
    | .deadlineExhausted => ⟨"deadline_exhausted", "provider"⟩
    | _ => ⟨"provider_failed", "provider"⟩

/-- The outcome of a view: its own, or the one its state stands for. -/
def outcomeOf (enabled : ProviderSet) (view : ProviderView) :
    Except ProjectionError ProviderOutcome :=
  match view.outcome, view.state with
  | some outcome, _ => .ok outcome
  | none, .safeError => .ok .executionError
  | none, .unavailable => .ok (if enabled view.provider then .undetected else .notRun)
  | none, _ => .error (.valueError "provider outcome is not representable")

/-- The reasons for which an enabled provider may not have been run. -/
def NOT_RUN_REASONS : List String :=
  ["disabled", "document_aborted", "guard_wait_timeout", "deadline_exhausted"]

/-- A reason, where one is given. -/
def reasonOf (view : ProviderView) : String :=
  match view.notRunReason with
  | none => "disabled"
  | some reason => if reason = "" then "disabled" else reason

/-- The facts of a provider without a snapshot. -/
def ProviderFacts.absent (provider : ProviderKey) (outcome : ProviderOutcome)
    (executionError : Option ErrorItem) (notRunReason : Option String) : ProviderFacts where
  provider := provider
  outcome := outcome
  publicState := none
  freshness := none
  statusObservedAt := none
  fetchedAt := none
  dataAt := none
  sourceId := none
  windows := []
  rateLimitResetCredits := none
  executionError := executionError
  notRunReason := notRunReason

def CreditsItem.ofView (c : RateLimitResetCreditsView) : CreditsItem :=
  ⟨c.availableCount, c.nextExpiresAt⟩

/-- The facts of a provider with a snapshot. -/
def snapshotFacts (provider : ProviderKey) (snapshot : ProviderSnapshotView) :
    Except ProjectionError ProviderFacts := do
  let windows ← snapshotWindows provider snapshot
  if MAX_QUOTA_WINDOWS < windows.length then throw .tooManyWindows
  return {
    provider := provider
    outcome := .snapshot
    publicState := some snapshot.publicState
    freshness := some snapshot.freshness
    statusObservedAt := some snapshot.statusObservedAt
    fetchedAt := some snapshot.fetchedAt
    dataAt := some snapshot.dataAt
    sourceId := projectSource snapshot.sourceId provider
    windows := sortWindows windows
    rateLimitResetCredits := snapshot.rateLimitResetCredits.map .ofView
    executionError := none
    notRunReason := none }

/-- The part of `_provider` before anything is shown. -/
def providerFacts (view : ProviderView) (enabled : ProviderSet)
    (evidence : Option OpenCodeFailureEvidence) : Except ProjectionError ProviderFacts := do
  match ← outcomeOf enabled view with
  | .snapshot =>
    match view.snapshot with
    | some snapshot => snapshotFacts view.provider snapshot
    | none => throw (.valueError "invalid current snapshot outcome")
  | .undetected => return .absent view.provider .undetected none none
  | .notRun =>
    if enabled view.provider ∧ ¬view.notRunReason.any (· ∈ NOT_RUN_REASONS) then
      throw (.valueError "invalid current not-run outcome")
    else return .absent view.provider .notRun none (some (reasonOf view))
  | .executionError =>
    match view.error with
    | some code =>
      return .absent view.provider .executionError
        (some (projectError code (if view.provider = .opencodeGo then evidence else none))) none
    | none => throw (.valueError "invalid current execution-error outcome")

variable (formatter : TimestampFormatter)

/-- `_provider`. -/
def projectProvider (view : ProviderView) (enabled : ProviderSet) (tooltipLimit : ℕ)
    (evidence : Option OpenCodeFailureEvidence) : Except ProjectionError ProviderItem := do
  let facts ← providerFacts view enabled evidence
  let shown ← presentation formatter facts tooltipLimit
  return { facts with presentation := shown }

/-! ### Documents -/

structure ProjectionInput where
  document : DocumentView
  enabledProviders : ProviderSet
  opencodeEvidence : Option OpenCodeFailureEvidence

/-- The providers that were usable. -/
def ProviderOutcome.successful : ProviderOutcome → Bool
  | .snapshot | .undetected => true
  | _ => false

/-- The state of a document, by its own error and the outcomes of its providers. -/
def documentState (documentError : Option SafeErrorCode) (outcomes : List ProviderOutcome) :
    ExecutionState × Option ErrorItem :=
  match documentError with
  | some .cleanupFailed => (.executionError, some ⟨"cleanup_failed", "cleanup"⟩)
  | some .guardWaitTimeout => (.notRun, some ⟨"guard_wait_timeout", "guard_wait"⟩)
  | some .deadlineExhausted => (.notRun, some ⟨"deadline_exhausted", "document"⟩)
  | some code => (.executionError, some ⟨code.value, "guard_wait"⟩)
  | none =>
    if outcomes.all (·.successful) then (.complete, none)
    else if outcomes.any (·.successful) then (.partialState, none)
    else if outcomes.all (· = .notRun) then (.notRun, none)
    else (.executionError, some ⟨"provider_failed", "provider"⟩)

/-- The document of projected providers. -/
def assemble (documentError : Option SafeErrorCode) (providers : List ProviderItem) : Document :=
  let state := documentState documentError (providers.map (·.outcome))
  ⟨state.1, state.2, general providers, providers⟩

/-- `_project_document`. -/
def projectDocument (input : ProjectionInput) (tooltipLimit : ℕ) :
    Except ProjectionError Document := do
  let codex ← projectProvider formatter input.document.codex input.enabledProviders tooltipLimit none
  let opencodeGo ← projectProvider formatter input.document.opencodeGo input.enabledProviders
    tooltipLimit input.opencodeEvidence
  return assemble input.document.documentError [codex, opencodeGo]

/-- The phase of a document-level failure, and the reason it gives the providers. -/
def SafeErrorCode.failure : SafeErrorCode → Option (String × String)
  | .invocationInvalid => some ("configuration", "invocation_invalid")
  | .configurationInvalid => some ("configuration", "invalid_configuration")
  | .internalError => some ("document", "document_aborted")
  | .guardAcquisitionFailed => some ("guard_wait", "document_aborted")
  | .guardWaitTimeout => some ("guard_wait", "guard_wait_timeout")
  | .deadlineExhausted => some ("document", "deadline_exhausted")
  | _ => none

/-- The document of `project_failure_bytes`. -/
def failureDocument (code : SafeErrorCode) : Except ProjectionError Document :=
  match code.failure with
  | none => .error (.valueError "unsupported current document failure")
  | some (phase, reason) =>
    let providers := [ProviderKey.codex, .opencodeGo].map fun provider =>
      let facts := ProviderFacts.absent provider .notRun none (some reason)
      ({ facts with presentation := absentPresentation facts } : ProviderItem)
    .ok ⟨.executionError, some ⟨code.value, phase⟩, general providers, providers⟩

/-- The document whose text `project_bytes` returns. -/
def projected (input : ProjectionInput) : Except ProjectionError Document :=
  match projectDocument formatter input MAX_TOOLTIP_SCALARS with
  | .error .tooManyWindows => failureDocument .internalError
  | .error e => .error e
  | .ok document =>
    if document.size ≤ MAX_DOCUMENT_BYTES then .ok document
    else do
      let fits limit := do
        let candidate ← projectDocument formatter input limit
        return if candidate.size ≤ MAX_DOCUMENT_BYTES then some candidate else none
      match ← searchLargest fits 0 (MAX_TOOLTIP_SCALARS + 1) none with
      | some best => return best
      | none => failureDocument .internalError

/-- `project_bytes`. -/
def projectBytes (input : ProjectionInput) : Except ProjectionError (List Char) :=
  Document.encode <$> projected formatter input

/-- The input of `project_not_run_bytes`. -/
def notRunInput (reason : String) (code : SafeErrorCode) : ProjectionInput :=
  ⟨.ordered (notRunOf .codex reason) (notRunOf .opencodeGo reason) (some code), fun _ => false, none⟩

/-- The document of `project_not_run_bytes`. -/
def notRunDocument (reason : String) : Except ProjectionError Document :=
  if reason = "guard_wait_timeout" then projected formatter (notRunInput reason .guardWaitTimeout)
  else if reason = "deadline_exhausted" then
    projected formatter (notRunInput reason .deadlineExhausted)
  else .error (.valueError "unsupported current not-run reason")

/-! ### What a document says of its providers -/

/-- What became of a provider, and why it was not run if it was not. -/
structure Slot where
  outcome : ProviderOutcome
  reason : Option String
deriving DecidableEq, Repr

def ProviderFacts.slot (facts : ProviderFacts) : Slot := ⟨facts.outcome, facts.notRunReason⟩

/-- The slot that a view is projected to. -/
def ProviderView.slot (enabled : ProviderSet) (view : ProviderView) :
    Except ProjectionError Slot := do
  let outcome ← outcomeOf enabled view
  return ⟨outcome, if outcome = .notRun then some (reasonOf view) else none⟩

variable {formatter}

theorem snapshotFacts_slot {provider : ProviderKey} {snapshot : ProviderSnapshotView}
    {facts : ProviderFacts} (h : snapshotFacts provider snapshot = .ok facts) :
    facts.slot = ⟨.snapshot, none⟩ := by
  obtain ⟨windows, -, h⟩ := bind_eq_ok_iff.1 h
  by_cases hw : MAX_QUOTA_WINDOWS < windows.length
  · rw [if_pos hw] at h
    cases h
  · rw [if_neg hw] at h
    cases h
    rfl

theorem providerFacts_slot {view : ProviderView} {enabled : ProviderSet}
    {evidence : Option OpenCodeFailureEvidence} {facts : ProviderFacts}
    (h : providerFacts view enabled evidence = .ok facts) :
    view.slot enabled = .ok facts.slot := by
  obtain ⟨outcome, ho, h⟩ := bind_eq_ok_iff.1 h
  rw [ProviderView.slot, ho, ok_bind]
  rcases outcome with _ | _ | _ | _
  case snapshot =>
    rcases hs : view.snapshot with _ | snapshot
    · simp only [hs] at h
      cases h
    · simp only [hs] at h
      rw [snapshotFacts_slot h]
      rfl
  case undetected => cases h; rfl
  case notRun =>
    simp only at h
    split at h
    · cases h
    · cases h
      rfl
  case executionError =>
    rcases he : view.error with _ | code
    · simp only [he] at h
      cases h
    · simp only [he] at h
      cases h
      rfl

theorem projectProvider_slot {view : ProviderView} {enabled : ProviderSet} {limit : ℕ}
    {evidence : Option OpenCodeFailureEvidence} {item : ProviderItem}
    (h : projectProvider formatter view enabled limit evidence = .ok item) :
    view.slot enabled = .ok item.slot := by
  obtain ⟨facts, hf, h⟩ := bind_eq_ok_iff.1 h
  obtain ⟨shown, -, h⟩ := bind_eq_ok_iff.1 h
  cases h
  exact providerFacts_slot hf

/-- **What a projected document says of its execution**: the state that the error of the
view and the slots of its providers come to. -/
theorem projectDocument_eq_ok {input : ProjectionInput} {limit : ℕ} {document : Document}
    (h : projectDocument formatter input limit = .ok document) :
    ∃ codex opencodeGo, document.providers = [codex, opencodeGo] ∧
      input.document.codex.slot input.enabledProviders = .ok codex.slot ∧
      input.document.opencodeGo.slot input.enabledProviders = .ok opencodeGo.slot ∧
      (document.executionState, document.executionError) =
        documentState input.document.documentError [codex.outcome, opencodeGo.outcome] := by
  obtain ⟨codex, hc, h⟩ := bind_eq_ok_iff.1 h
  obtain ⟨opencodeGo, ho, h⟩ := bind_eq_ok_iff.1 h
  cases h
  exact ⟨codex, opencodeGo, rfl, projectProvider_slot hc, projectProvider_slot ho, rfl⟩

end Project

end YasbLimitora
