import Mathlib

/-!
# The closed vocabularies

The enumerations of `model.py`, each with the text its members are written with.
A text is read back by `YasbLimitora.ofValue`, which looks it up among the members
in order, as the enumeration call of the source does.

A member is compared as such and a text only where it is read or written, so that a misspelled word
is no case of any function. The order of the members is that of the source: it does not matter for
what is found, since no two members have one text, but a reader can lay the two lists side by side.
The sources that are trusted are texts and not members, as they are in the source.
-/

namespace YasbLimitora

/-- The two providers, in the order every document lists them. -/
inductive ProviderKey
  | codex
  | opencodeGo
deriving DecidableEq, Repr

/-- A set of providers. -/
abbrev ProviderSet := ProviderKey → Bool

/-- The state of a provider view. -/
inductive ProviderState
  | loading
  | success
  | unavailable
  | safeError
deriving DecidableEq, Repr

/-- What became of a provider call. -/
inductive ProviderOutcome
  | snapshot
  | undetected
  | notRun
  | executionError
deriving DecidableEq, Repr

/-- The public state inside a snapshot. -/
inductive PublicProviderState
  | available
  | partialState
  | unavailable
  | unauthorized
  | rateLimited
  | transientError
  | invalidData
deriving DecidableEq, Repr

/-- Freshness of a snapshot. -/
inductive SnapshotFreshness
  | fresh
  | stale
deriving DecidableEq, Repr

/-- Kinds of quota window. -/
inductive QuotaWindowKind
  | commercialQuota
  | technicalRateLimit
  | other
deriving DecidableEq, Repr

/-- Metrics of a quantity. -/
inductive QuotaMetricKind
  | commercialQuota
  | technicalRateLimit
deriving DecidableEq, Repr

/-- Availability of a window's values. -/
inductive QuotaAvailability
  | known
  | unlimited
  | disabled
  | unavailable
  | unknown
  | notAuthorized
  | notApplicable
  | invalid
  | error
deriving DecidableEq, Repr

/-- The sanitized error codes of the model. -/
inductive SafeErrorCode
  | timeout
  | providerError
  | internalError
  | configurationInvalid
  | invocationInvalid
  | invalidProviderData
  | unknownProviderState
  | guardAcquisitionFailed
  | guardWaitTimeout
  | deadlineExhausted
  | cleanupFailed
deriving DecidableEq, Repr

/-! ### The texts of the members -/

def ProviderKey.value : ProviderKey → String
  | .codex => "codex"
  | .opencodeGo => "opencode_go"

def ProviderState.value : ProviderState → String
  | .loading => "loading"
  | .success => "success"
  | .unavailable => "unavailable"
  | .safeError => "safe_error"

def ProviderOutcome.value : ProviderOutcome → String
  | .snapshot => "snapshot"
  | .undetected => "undetected"
  | .notRun => "not_run"
  | .executionError => "execution_error"

def PublicProviderState.value : PublicProviderState → String
  | .available => "available"
  | .partialState => "partial"
  | .unavailable => "unavailable"
  | .unauthorized => "unauthorized"
  | .rateLimited => "rate_limited"
  | .transientError => "transient_error"
  | .invalidData => "invalid_data"

def SnapshotFreshness.value : SnapshotFreshness → String
  | .fresh => "fresh"
  | .stale => "stale"

def QuotaWindowKind.value : QuotaWindowKind → String
  | .commercialQuota => "commercial_quota"
  | .technicalRateLimit => "technical_rate_limit"
  | .other => "other"

def QuotaMetricKind.value : QuotaMetricKind → String
  | .commercialQuota => "commercial_quota"
  | .technicalRateLimit => "technical_rate_limit"

def QuotaAvailability.value : QuotaAvailability → String
  | .known => "known"
  | .unlimited => "unlimited"
  | .disabled => "disabled"
  | .unavailable => "unavailable"
  | .unknown => "unknown"
  | .notAuthorized => "not_authorized"
  | .notApplicable => "not_applicable"
  | .invalid => "invalid"
  | .error => "error"

def SafeErrorCode.value : SafeErrorCode → String
  | .timeout => "timeout"
  | .providerError => "provider_error"
  | .internalError => "internal_error"
  | .configurationInvalid => "configuration_invalid"
  | .invocationInvalid => "invocation_invalid"
  | .invalidProviderData => "invalid_provider_data"
  | .unknownProviderState => "unknown_provider_state"
  | .guardAcquisitionFailed => "guard_acquisition_failed"
  | .guardWaitTimeout => "guard_wait_timeout"
  | .deadlineExhausted => "deadline_exhausted"
  | .cleanupFailed => "cleanup_failed"

/-! ### Reading a text back -/

/-- The member of a vocabulary with a given text. -/
def ofValue {α : Type} (members : List α) (value : α → String) (text : String) : Option α :=
  members.find? fun a => value a == text

/-- What is found for a text is written as that text. -/
theorem value_of_ofValue {α : Type} {members : List α} {value : α → String} {text : String} {a : α}
    (h : ofValue members value text = some a) : value a = text := by
  simpa using List.find?_some h

def ProviderKey.all : List ProviderKey := [.codex, .opencodeGo]

def ProviderState.all : List ProviderState := [.loading, .success, .unavailable, .safeError]

def PublicProviderState.all : List PublicProviderState :=
  [.available, .partialState, .unavailable, .unauthorized, .rateLimited, .transientError,
    .invalidData]

def SnapshotFreshness.all : List SnapshotFreshness := [.fresh, .stale]

def QuotaWindowKind.all : List QuotaWindowKind := [.commercialQuota, .technicalRateLimit, .other]

def QuotaMetricKind.all : List QuotaMetricKind := [.commercialQuota, .technicalRateLimit]

def QuotaAvailability.all : List QuotaAvailability :=
  [.known, .unlimited, .disabled, .unavailable, .unknown, .notAuthorized, .notApplicable, .invalid,
    .error]

def SafeErrorCode.all : List SafeErrorCode :=
  [.timeout, .providerError, .internalError, .configurationInvalid, .invocationInvalid,
    .invalidProviderData, .unknownProviderState, .guardAcquisitionFailed, .guardWaitTimeout,
    .deadlineExhausted, .cleanupFailed]

/-- Each state of a provider is found by its text, and so it is with the other vocabularies. -/
@[simp] theorem ofValue_publicState (s : PublicProviderState) :
    ofValue PublicProviderState.all PublicProviderState.value s.value = some s := by
  cases s <;> decide

@[simp] theorem ofValue_freshness (f : SnapshotFreshness) :
    ofValue SnapshotFreshness.all SnapshotFreshness.value f.value = some f := by
  cases f <;> decide

@[simp] theorem ofValue_windowKind (k : QuotaWindowKind) :
    ofValue QuotaWindowKind.all QuotaWindowKind.value k.value = some k := by
  cases k <;> decide

@[simp] theorem ofValue_metric (m : QuotaMetricKind) :
    ofValue QuotaMetricKind.all QuotaMetricKind.value m.value = some m := by
  cases m <;> decide

@[simp] theorem ofValue_availability (a : QuotaAvailability) :
    ofValue QuotaAvailability.all QuotaAvailability.value a.value = some a := by
  cases a <;> decide

/-! ### Sources -/

def CODEX_SOURCE_ID : String := "codex-app-server-v2"

def OPENCODE_SOURCE_ID : String := "opencode-go-api"

def SAFE_SOURCE_IDS : List String := [CODEX_SOURCE_ID, OPENCODE_SOURCE_ID]

/-- The source a provider's data may name. -/
def ProviderKey.expectedSource : ProviderKey → String
  | .codex => CODEX_SOURCE_ID
  | .opencodeGo => OPENCODE_SOURCE_ID

end YasbLimitora
