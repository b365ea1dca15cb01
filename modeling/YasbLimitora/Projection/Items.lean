import Mathlib
import YasbLimitora.Lib.Json
import YasbLimitora.Lib.Instant
import YasbLimitora.Model.Vocabulary

/-!
# The items of a current document

The dictionaries a current document is made of, as records: members of the closed
vocabularies stand for their texts, and an instant stands for its timestamp. Each has
its JSON value, with the fields in the order of `projection.py`, and
`YasbLimitora.Document.encode` is the text that is emitted.

The presentation of a provider is a record within its item, since it is replaced as a whole where a
document is too large, while `YasbLimitora.ProviderFacts` never changes with the limit. The size of
a document is counted on its text in UTF-8, with the line feed that ends it.
-/

namespace YasbLimitora

/-- An execution error, of a provider or of the document. -/
structure ErrorItem where
  code : String
  phase : String
deriving DecidableEq, Repr

structure QuantityItem where
  value : String
  metric : QuotaMetricKind
  unit : String
deriving DecidableEq, Repr

structure WindowItem where
  kind : QuotaWindowKind
  scope : String
  period : String
  planId : Option String
  availability : QuotaAvailability
  sourceId : Option String
  limit : Option QuantityItem
  used : Option QuantityItem
  remaining : Option QuantityItem
  resetAt : Option Instant
deriving DecidableEq

structure CreditsItem where
  availableCount : ℕ
  nextExpiresAt : Option Instant
deriving DecidableEq

/-- The window with the least left, in percent. -/
structure DepletedItem where
  kind : QuotaWindowKind
  scope : String
  period : String
  planId : Option String
  unit : String
  sourceId : Option String
  remainingPercentage : String
deriving DecidableEq

/-- What is shown of a provider. -/
structure Presentation where
  mostDepletedWindow : Option DepletedItem
  compactText : String
  alternateText : String
  tooltipText : String
deriving DecidableEq

/-- What is shown of all providers together. -/
structure GeneralItem where
  compactText : String
  alternateText : String
  tooltipText : String
deriving DecidableEq

/-- What there is of a provider before it is shown. -/
structure ProviderFacts where
  provider : ProviderKey
  outcome : ProviderOutcome
  publicState : Option PublicProviderState
  freshness : Option SnapshotFreshness
  statusObservedAt : Option Instant
  fetchedAt : Option Instant
  dataAt : Option Instant
  sourceId : Option String
  windows : List WindowItem
  rateLimitResetCredits : Option CreditsItem
  executionError : Option ErrorItem
  notRunReason : Option String
deriving DecidableEq

structure ProviderItem extends ProviderFacts where
  presentation : Presentation
deriving DecidableEq

inductive ExecutionState
  | complete
  | partialState
  | notRun
  | executionError
deriving DecidableEq, Repr

def ExecutionState.value : ExecutionState → String
  | .complete => "complete"
  | .partialState => "partial"
  | .notRun => "not_run"
  | .executionError => "execution_error"

structure Document where
  executionState : ExecutionState
  executionError : Option ErrorItem
  general : GeneralItem
  providers : List ProviderItem
deriving DecidableEq

/-! ### JSON values -/

def ErrorItem.json (e : ErrorItem) : Json := .obj [("code", .str e.code), ("phase", .str e.phase)]

def QuantityItem.json (q : QuantityItem) : Json :=
  .obj [("value", .str q.value), ("metric", .str q.metric.value), ("unit", .str q.unit)]

def WindowItem.json (w : WindowItem) : Json :=
  .obj [("kind", .str w.kind.value), ("scope", .str w.scope), ("period", .str w.period),
    ("plan_id", .orNull .str w.planId), ("availability", .str w.availability.value),
    ("source_id", .orNull .str w.sourceId), ("limit", .orNull QuantityItem.json w.limit),
    ("used", .orNull QuantityItem.json w.used), ("remaining", .orNull QuantityItem.json w.remaining),
    ("reset_at", .orNull (fun t => .str t.text) w.resetAt)]

def CreditsItem.json (c : CreditsItem) : Json :=
  .obj [("available_count", .int c.availableCount),
    ("next_expires_at", .orNull (fun t => .str t.text) c.nextExpiresAt)]

def DepletedItem.json (d : DepletedItem) : Json :=
  .obj [("kind", .str d.kind.value), ("scope", .str d.scope), ("period", .str d.period),
    ("plan_id", .orNull .str d.planId), ("unit", .str d.unit),
    ("source_id", .orNull .str d.sourceId), ("remaining_percentage", .str d.remainingPercentage)]

def GeneralItem.json (g : GeneralItem) : Json :=
  .obj [("compact_text", .str g.compactText), ("alternate_text", .str g.alternateText),
    ("tooltip_text", .str g.tooltipText)]

def ProviderItem.json (p : ProviderItem) : Json :=
  .obj [("provider", .str p.provider.value), ("outcome", .str p.outcome.value),
    ("public_state", .orNull (fun s => .str s.value) p.publicState),
    ("freshness", .orNull (fun f => .str f.value) p.freshness),
    ("status_observed_at", .orNull (fun t => .str t.text) p.statusObservedAt),
    ("fetched_at", .orNull (fun t => .str t.text) p.fetchedAt),
    ("data_at", .orNull (fun t => .str t.text) p.dataAt),
    ("source_id", .orNull .str p.sourceId), ("windows", .arr (p.windows.map WindowItem.json)),
    ("rate_limit_reset_credits", .orNull CreditsItem.json p.rateLimitResetCredits),
    ("execution_error", .orNull ErrorItem.json p.executionError),
    ("not_run_reason", .orNull .str p.notRunReason),
    ("most_depleted_window", .orNull DepletedItem.json p.presentation.mostDepletedWindow),
    ("compact_text", .str p.presentation.compactText),
    ("alternate_text", .str p.presentation.alternateText),
    ("tooltip_text", .str p.presentation.tooltipText)]

def Document.json (d : Document) : Json :=
  .obj [("execution_state", .str d.executionState.value),
    ("execution_error", .orNull ErrorItem.json d.executionError), ("general", d.general.json),
    ("providers", .arr (d.providers.map ProviderItem.json))]

/-- `_encode`: the compact text of a document, and a line feed. -/
def Document.encode (d : Document) : List Char := d.json.chars ++ ['\n']

/-- The size of the bytes that are emitted. -/
def Document.size (d : Document) : ℕ := Json.utf8Size d.encode

end YasbLimitora
