import Mathlib
import YasbLimitora.Model.Window

/-!
# Views of providers and documents

The records that a run is projected from: the snapshot of a provider, the view of a
provider, and the document of the two views in their order. What their constructors
refuse cannot be built: each record carries the checks of its `__post_init__`.

A snapshot carries that its windows are no more than 32 and of different identities, that its source
is one of the safe ones, and that one that is rate limited has technical windows only. A view
carries that its state, its error, its outcome and its snapshot go together
(`YasbLimitora.OutcomeOk`). So a function over views has no case for those that the constructors
refuse, and none of its theorems needs a hypothesis that says so.

The three ways in which the program makes a view without a snapshot are
`YasbLimitora.safeErrorView`, `YasbLimitora.notRunView` and `YasbLimitora.undetectedView`. A
document has its two views in a fixed order by its type, which is what `DocumentView.ordered` of the
source checks at run time.
-/

namespace YasbLimitora

def MAX_QUOTA_WINDOWS : ℕ := 32

/-- What is known of a failed OpenCode read. -/
inductive OpenCodeFailureEvidence
  | credentialInvalid
  | rateLimited
  | timeout
  | unavailable
deriving DecidableEq, Repr

/-- Reset credits, as observed. -/
structure RateLimitResetCreditsView where
  availableCount : ℕ
  nextExpiresAt : Option Instant
  expiry_ok : availableCount = 0 → nextExpiresAt = none

variable [UnicodeData]

/-- What tells the windows of a snapshot apart. -/
def QuotaWindowView.identity (w : QuotaWindowView) : QuotaWindowKind × String × String :=
  (w.kind, w.scope, w.period)

structure ProviderSnapshotView where
  publicState : PublicProviderState
  freshness : SnapshotFreshness
  statusObservedAt : Instant
  fetchedAt : Instant
  dataAt : Instant
  sourceId : Option String
  windows : List QuotaWindowView
  rateLimitResetCredits : Option RateLimitResetCreditsView
  observed_le : statusObservedAt.micros ≤ fetchedAt.micros
  data_le : dataAt.micros ≤ fetchedAt.micros
  sourceId_safe : checkSourceId sourceId = .ok ()
  windows_le : windows.length ≤ MAX_QUOTA_WINDOWS
  windows_nodup : (windows.map (·.identity)).Nodup
  rateLimited_ok : publicState = .rateLimited → ∀ w ∈ windows, w.kind = .technicalRateLimit

/-- What a constructor of a view checks of an outcome. -/
structure OutcomeOk (state : ProviderState) (error : Option SafeErrorCode)
    (outcome : Option ProviderOutcome) (snapshot : Option ProviderSnapshotView)
    (notRunReason : Option String) : Prop where
  error_iff : error.isSome ↔ state = .safeError
  snapshot_iff : snapshot.isSome ↔ outcome = some .snapshot
  error_outcome : error.isSome → outcome = none ∨ outcome = some .executionError
  executionError_state : outcome = some .executionError → state = .safeError
  reason_outcome : notRunReason.isSome → outcome = some .notRun

/-- The view of a provider. Its error is a code alone. -/
structure ProviderView where
  provider : ProviderKey
  state : ProviderState
  error : Option SafeErrorCode
  outcome : Option ProviderOutcome
  snapshot : Option ProviderSnapshotView
  notRunReason : Option String
  ok : OutcomeOk state error outcome snapshot notRunReason

/-- `_safe_error`. -/
def safeErrorView (provider : ProviderKey) (code : SafeErrorCode) : ProviderView where
  provider := provider
  state := .safeError
  error := some code
  outcome := some .executionError
  snapshot := none
  notRunReason := none
  ok := by constructor <;> simp

/-- `_not_run`. -/
def notRunView (provider : ProviderKey) (reason : String) : ProviderView where
  provider := provider
  state := .unavailable
  error := none
  outcome := some .notRun
  snapshot := none
  notRunReason := some reason
  ok := by constructor <;> simp

/-- The view of a provider that was looked for and is not there. -/
def undetectedView (provider : ProviderKey) : ProviderView where
  provider := provider
  state := .unavailable
  error := none
  outcome := some .undetected
  snapshot := none
  notRunReason := none
  ok := by constructor <;> simp

/-- The document of the two views, in their order. -/
structure DocumentView where
  codex : ProviderView
  opencodeGo : ProviderView
  documentError : Option SafeErrorCode
  codex_provider : codex.provider = .codex
  opencodeGo_provider : opencodeGo.provider = .opencodeGo

def DocumentView.providers (d : DocumentView) : List ProviderView := [d.codex, d.opencodeGo]

/-- A view of one provider. -/
abbrev ViewOf (provider : ProviderKey) := { v : ProviderView // v.provider = provider }

def safeErrorOf (provider : ProviderKey) (code : SafeErrorCode) : ViewOf provider :=
  ⟨safeErrorView provider code, rfl⟩

def notRunOf (provider : ProviderKey) (reason : String) : ViewOf provider :=
  ⟨notRunView provider reason, rfl⟩

/-- `DocumentView.ordered`. -/
def DocumentView.ordered (codex : ViewOf .codex) (opencodeGo : ViewOf .opencodeGo)
    (documentError : Option SafeErrorCode) : DocumentView :=
  ⟨codex.1, opencodeGo.1, documentError, codex.2, opencodeGo.2⟩

end YasbLimitora
