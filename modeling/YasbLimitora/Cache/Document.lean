import Mathlib
import YasbLimitora.Cache.Presentation
import YasbLimitora.Isolation.Protocol
import YasbLimitora.Lib.JsonRecognize
import YasbLimitora.Model.CanonicalDecimal
import YasbLimitora.Model.Constructors

/-!
# The check of a cached document

`_validate_document` of `cache.py`, with what it calls: a JSON value is looked at field by field,
the records of `model.py` are built again of what it has, and its texts are derived again. What
is accepted is returned as the document that it stands for.

The one exception of the whole check is that of a cache that is not valid. Its messages are those
of the source, but the error of a document is looked at before its texts here, and after them
there, so that a document with two faults may be refused with the other message.

The validator is written in the order of the source, function by function, and keeps its messages.
What it checks by building a record of the model is checked by the constructor of that record, here
as there. The filter for unsafe texts is a search for words whatever their case, with the words in a
table (`YasbLimitora.Cache.unsafeWords`), and for beginnings that look like a path.
-/

namespace YasbLimitora

namespace Cache

open Json (Fields value optionally distinct)
open Protocol (member?)

/-! ### Texts -/

/-- The words that neither a key nor a value of the cache has in it. -/
def unsafeWords : List (List Char) :=
  [['c', 'o', 'o', 'k', 'i', 'e'], ['p', 'a', 's', 's', 'w', 'o', 'r', 'd'], ['s', 'e', 'c', 'r', 'e', 't'],
    ['c', 'r', 'e', 'd', 'e', 'n', 't', 'i', 'a', 'l'],
    ['a', 'u', 't', 'h', 'o', 'r', 'i', 'z', 'a', 't', 'i', 'o', 'n'], ['t', 'r', 'a', 'c', 'e', 'b', 'a', 'c', 'k'],
    ['s', 't', 'd', 'e', 'r', 'r'], ['w', 'o', 'r', 'k', 's', 'p', 'a', 'c', 'e']]

def hasUnsafeWord (t : Text) : Bool :=
  unsafeWords.any (fun word => Text.hasWord word t) || Text.hasWords ['a', 'u', 't', 'h'] ['c', 'o', 'o', 'k', 'i', 'e'] t ||
    Text.hasWords ['a', 'p', 'i'] ['k', 'e', 'y'] t

/-- `_UNSAFE_KEY.search`. -/
def isUnsafeKey (key : Text) : Bool :=
  hasUnsafeWord key || Text.hasWord ['t', 'o', 'k', 'e', 'n'] key || Text.hasWord ['r', 'u', 'n', 'n', 'e', 'r'] key

/-- A letter of ASCII, or one of the four others that are taken for one where the case is ignored. -/
def isDriveLetter (p : CodePoint) : Bool :=
  (65 ≤ p.value && p.value ≤ 90) || (97 ≤ p.value && p.value ≤ 122) ||
    p.value == 0x130 || p.value == 0x131 || p.value == 0x17F || p.value == 0x212A

/-- A text that starts like the path of a file. -/
def startsLikePath : Text → Bool
  | .ch '/' :: _ => true
  | .ch '\\' :: _ => true
  | p :: .ch ':' :: q :: _ => isDriveLetter p && (q == .ch '\\' || q == .ch '/')
  | _ => false

/-- `_UNSAFE_VALUE.search`. -/
def isUnsafeValue (t : Text) : Bool := hasUnsafeWord t || startsLikePath t

/-- A code point that no text of the cache has. -/
def isUnsafePoint (multiline : Bool) : CodePoint → Bool
  | .ch c => (c.toNat < 32 && (!multiline || c != '\n')) || c.toNat == 127
  | .surrogate _ => true

variable [UnicodeData]

/-- `_safe_text`. -/
def safeText (maximum : ℕ) (multiline : Bool) : Json Text → Except String String
  | .str t =>
    if maximum < t.length then .error "invalid cache text"
    else if t.any (isUnsafePoint multiline) then .error "unsafe cache text"
    else match t.toString with
      -- there is no surrogate left
      | none => .error "unsafe cache text"
      | some s =>
        if UnicodeData.nfc s ≠ s then .error "noncanonical cache text"
        else if isUnsafeValue t then .error "unsafe cache text"
        else .ok s
  | _ => .error "invalid cache text"

/-- `_required_text`. -/
def requiredText : Json Text → Except String Text
  | .str t => .ok t
  | _ => .error "invalid cache text"

/-- A member of a closed vocabulary. -/
def memberOf {α : Type} (message : String) (members : List α) (text : α → String) (x : Json Text) : Except String α :=
  match member? members text x with
  | some a => .ok a
  | none => .error message

/-- `_safe_mapping`, of fields in their order. -/
def safeMapping (fields : List String) : Json Text → Except String Fields
  | .obj item =>
    if ¬((∀ p ∈ item, p.1 ∈ fields.map Text.ofString) ∧ ∀ key ∈ fields.map Text.ofString, key ∈ item.map Prod.fst) then
      .error "invalid cache object"
    else if item.map Prod.fst ≠ fields.map Text.ofString then .error "noncanonical cache order"
    else if item.any fun p => isUnsafeKey p.1 then .error "unsafe cache key"
    else .ok item
  | _ => .error "invalid cache object"

/-- `_timestamp`: the text of an instant, as it is written again. -/
def timestamp : Json Text → Except String Instant
  | .str t =>
    match t.toChars.bind Instant.ofChars with
    | none => .error "invalid cache timestamp"
    | some parsed => if Text.ofChars parsed.chars ≠ t then .error "noncanonical cache timestamp" else .ok parsed
  | _ => .error "invalid cache timestamp"

/-! ### Quantities and windows -/

/-- Digits with a fraction, and no zero in front. -/
def isFraction : List Char → Bool
  | [] => true
  | '.' :: l => l ≠ [] && l.all DecimalText.isDigit
  | _ => false

/-- `_DECIMAL.fullmatch`, of ASCII: what other digits stand for is written differently. -/
def isDecimal : List Char → Bool
  | ['0'] => true
  | c :: l => DecimalText.isDigit c && c != '0' && isFraction (l.dropWhile DecimalText.isDigit)
  | [] => false

/-- The text of the value of a quantity. -/
def renderedOf : Json Text → Except String (List Char)
  | .str t =>
    match t.toChars with
    | none => .error "invalid cache quantity"
    | some l => if ¬isDecimal l ∨ 256 < l.length then .error "invalid cache quantity" else .ok l
  | _ => .error "invalid cache quantity"

/-- The constructor of a quantity. -/
def parsedOf (rendered : List Char) (metric : QuotaMetricKind) (unit : String) : Except String QuotaQuantity :=
  match PyDecimal.ofText rendered with
  | none => .error "invalid cache quantity"
  | some decimal =>
    match QuotaQuantity.make decimal metric unit with
    | .error _ => .error "invalid cache quantity"
    | .ok parsed => .ok parsed

def quantityFields : List String := ["value", "metric", "unit"]

/-- `_quantity`. -/
def quantity (expectedMetric : Option QuotaMetricKind) (x : Json Text) : Except String QuotaQuantity := do
  let item ← safeMapping quantityFields x
  let unit ← safeText 64 false (value "unit" item)
  let rendered ← renderedOf (value "value" item)
  let metric ← memberOf "invalid cache quantity" QuotaMetricKind.all QuotaMetricKind.value (value "metric" item)
  let parsed ← parsedOf rendered metric unit
  if parsed.value.fixedText ≠ rendered ∨ parsed.unit ≠ unit then .error "noncanonical cache quantity"
  else if expectedMetric.any fun expected => parsed.metric ≠ expected then .error "invalid cache metric"
  else return parsed

/-- A source, where it is the one of the provider. -/
def expectSource (message : String) (provider : ProviderKey) : Option Text → Except String (Option String)
  | none => .ok none
  | some source =>
    if source = Text.ofString provider.expectedSource then .ok (some provider.expectedSource) else .error message

def sourceOf (message : String) (provider : ProviderKey) (x : Json Text) : Except String (Option String) := do
  let source ← optionally requiredText x
  expectSource message provider source

/-- What a window has according to what is known of it, and to its source. -/
def checkAvailability (availability : QuotaAvailability) (source : Option String) (valued hasReset : Bool) :
    Except String Unit :=
  if availability ≠ .known ∧ valued then .error "non-known cache window has values"
  else if availability ≠ .known ∧ hasReset then .error "non-known cache window has reset"
  else if availability = .known ∧ ¬valued then .error "known cache window has no quantity"
  else if source = none ∧ (availability ≠ .unavailable ∨ valued ∨ hasReset) then
    .error "untrusted cache window has values"
  else .ok ()

def windowFields : List String :=
  ["kind", "scope", "period", "plan_id", "availability", "source_id", "limit", "used", "remaining", "reset_at"]

/-- The constructor of a window. -/
def makeWindow (kind : QuotaWindowKind) (scope period : String) (planId : Option String) (availability : QuotaAvailability)
    (source : Option String) (limit used remaining : Option QuotaQuantity) (resetAt : Option Instant) :
    Except String QuotaWindowView :=
  match QuotaWindowView.make kind scope period planId availability source limit used remaining resetAt with
  | .error _ => .error "invalid cache window semantics"
  | .ok window => .ok window

/-- `_window`. -/
def window (provider : ProviderKey) (x : Json Text) : Except String QuotaWindowView := do
  let item ← safeMapping windowFields x
  let kind ← memberOf "invalid cache window vocabulary" QuotaWindowKind.all QuotaWindowKind.value (value "kind" item)
  let availability ← memberOf "invalid cache window vocabulary" QuotaAvailability.all QuotaAvailability.value
    (value "availability" item)
  let scope ← safeText 64 false (value "scope" item)
  let period ← safeText 64 false (value "period" item)
  let planId ← optionally (safeText 64 false) (value "plan_id" item)
  let source ← sourceOf "invalid cache source" provider (value "source_id" item)
  let limit ← optionally (quantity kind.expectedMetric) (value "limit" item)
  let used ← optionally (quantity kind.expectedMetric) (value "used" item)
  let remaining ← optionally (quantity kind.expectedMetric) (value "remaining" item)
  let resetAt ← optionally timestamp (value "reset_at" item)
  checkAvailability availability source (limit.isSome || used.isSome || remaining.isSome) resetAt.isSome
  makeWindow kind scope period planId availability source limit used remaining resetAt

/-- The fields of a quantity, as they are. -/
def quantityItem (q : QuotaQuantity) : QuantityItem := ⟨String.ofList q.value.fixedText, q.metric, q.unit⟩

/-- The fields of a window, as they are. -/
def windowItem (w : QuotaWindowView) : WindowItem where
  kind := w.kind
  scope := w.scope
  period := w.period
  planId := w.planId
  availability := w.availability
  sourceId := w.sourceId
  limit := w.limit.map quantityItem
  used := w.used.map quantityItem
  remaining := w.remaining.map quantityItem
  resetAt := w.resetAt

/-! ### Providers -/

/-- `ProviderOutcome`. -/
def outcomes : List ProviderOutcome := [.snapshot, .undetected, .notRun, .executionError]

/-- A text that must be a member of a closed vocabulary. -/
def requiredMember {α : Type} (message : String) (members : List α) (text : α → String) (x : Json Text) :
    Except String α := do
  let t ← requiredText x
  memberOf message members text (.str t)

/-- The count of reset credits, which is no `bool`. -/
def countOf : Json Text → Except String ℕ
  | .int n => if 0 ≤ n then .ok n.toNat else .error "invalid cache reset credits"
  | _ => .error "invalid cache reset credits"

def resetFields : List String := ["available_count", "next_expires_at"]

def makeResets (count : ℕ) (next : Option Instant) : Except String RateLimitResetCreditsView :=
  match RateLimitResetCreditsView.make count next with
  | none => .error "invalid cache reset credits"
  | some credits => .ok credits

/-- The reset credits of a provider. -/
def resets (x : Json Text) : Except String RateLimitResetCreditsView := do
  let item ← safeMapping resetFields x
  let next ← optionally timestamp (value "next_expires_at" item)
  let count ← countOf (value "available_count" item)
  makeResets count next

/-- A window of a snapshot, after those that were looked at before. -/
def freshWindow (provider : ProviderKey) (identities : List (QuotaWindowKind × String × String)) (x : Json Text) :
    Except String QuotaWindowView := do
  let w ← window provider x
  if w.identity ∈ identities then .error "duplicate cache window" else return w

/-- The list of the windows of a snapshot. -/
def windowsOf (provider : ProviderKey) : Json Text → Except String (List QuotaWindowView)
  | .arr items =>
    if MAX_QUOTA_WINDOWS < items.length then .error "invalid cache windows" else
      distinct (freshWindow provider) (·.identity) [] items
  | _ => .error "invalid cache windows"

/-- The commercial windows of OpenCode are the three that there must be. -/
def hasSlots (provider : ProviderKey) (publicState : PublicProviderState) (windows : List QuotaWindowView) : Bool :=
  if provider = .opencodeGo ∧ (publicState = .available ∨ publicState = .partialState) then
    ((windows.filter (·.kind = .commercialQuota)).map (·.period)).mergeSort (· ≤ ·) = OPENCODE_FIXED_PERIODS
  else true

def isNull : Json Text → Bool
  | .null => true
  | _ => false

def makeSnapshot (publicState : PublicProviderState) (freshness : SnapshotFreshness)
    (observed fetched data : Instant) (source : Option String) (windows : List QuotaWindowView)
    (credits : Option RateLimitResetCreditsView) : Except String ProviderSnapshotView :=
  (ProviderSnapshotView.make publicState freshness observed fetched data source windows credits).elim
    (.error "invalid cache snapshot semantics") .ok

/-- The snapshot of a provider, whose source and reset credits were looked at before. -/
def snapshotOf (provider : ProviderKey) (source : Option String) (credits : Option RateLimitResetCreditsView)
    (item : Fields) : Except String ProviderSnapshotView := do
  let publicState ← memberOf "invalid cache snapshot metadata" PublicProviderState.all PublicProviderState.value
    (value "public_state" item)
  let freshness ← memberOf "invalid cache snapshot metadata" SnapshotFreshness.all SnapshotFreshness.value
    (value "freshness" item)
  let observed ← timestamp (value "status_observed_at" item)
  let fetched ← timestamp (value "fetched_at" item)
  let data ← timestamp (value "data_at" item)
  let windows ← windowsOf provider (value "windows" item)
  if windows.map windowItem ≠ sortWindows (windows.map windowItem) then .error "unordered cache windows"
  else if ¬hasSlots provider publicState windows then .error "invalid OpenCode commercial slots"
  else
    let snapshot ← makeSnapshot publicState freshness observed fetched data source windows credits
    if isNull (value "execution_error" item) && isNull (value "not_run_reason" item) then return snapshot
    else .error "invalid cache snapshot markers"

/-- The facts of a provider with a snapshot, as they are. -/
def snapshotFactsOf (provider : ProviderKey) (s : ProviderSnapshotView) : ProviderFacts where
  provider := provider
  outcome := .snapshot
  publicState := some s.publicState
  freshness := some s.freshness
  statusObservedAt := some s.statusObservedAt
  fetchedAt := some s.fetchedAt
  dataAt := some s.dataAt
  sourceId := s.sourceId
  windows := s.windows.map windowItem
  rateLimitResetCredits := s.rateLimitResetCredits.map .ofView
  executionError := none
  notRunReason := none

/-- The fields that say nothing of a provider without a snapshot. -/
def bareFields : List String :=
  ["public_state", "freshness", "status_observed_at", "fetched_at", "data_at", "source_id", "execution_error"]

/-- An array without items. -/
def isEmptyArray : Json Text → Bool
  | .arr [] => true
  | _ => false

/-- A provider without a snapshot has no data. -/
def isBare (item : Fields) : Bool :=
  (bareFields.all fun key => isNull (value key item)) && isEmptyArray (value "windows" item)

def notRunReasons : List String :=
  ["disabled", "invalid_configuration", "invocation_invalid", "document_aborted", "deadline_exhausted",
    "guard_wait_timeout"]

/-- What there is of a provider before it is shown. -/
def factsOf (provider : ProviderKey) (outcome : ProviderOutcome) (source : Option String)
    (credits : Option RateLimitResetCreditsView) (item : Fields) : Except String ProviderFacts :=
  match outcome with
  | .snapshot => snapshotFactsOf provider <$> snapshotOf provider source credits item
  | .undetected =>
    if isBare item ∧ isNull (value "not_run_reason" item) then .ok (.absent provider .undetected none none)
    else .error "invalid cache undetected"
  | .notRun =>
    if isBare item then do
      let reason ← memberOf "invalid cache not-run" notRunReasons id (value "not_run_reason" item)
      return .absent provider .notRun none (some reason)
    else .error "invalid cache not-run"
  | .executionError => .error "provider errors are not cacheable"

/-- A text that is not looked at but to be compared. -/
def comparedText (x : Json Text) : Except String String :=
  match x with
  | .str t =>
    match t.toString with
    | some s => .ok s
    | none => .error "inconsistent cache presentation"
  | _ => .error "inconsistent cache presentation"

def depletedFields : List String :=
  ["kind", "scope", "period", "plan_id", "unit", "source_id", "remaining_percentage"]

/-- The window with the least left. -/
def depleted (x : Json Text) : Except String DepletedItem := do
  let item ← safeMapping depletedFields x
  let kind ← memberOf "inconsistent cache presentation" QuotaWindowKind.all QuotaWindowKind.value (value "kind" item)
  let scope ← comparedText (value "scope" item)
  let period ← comparedText (value "period" item)
  let planId ← optionally comparedText (value "plan_id" item)
  let unit ← comparedText (value "unit" item)
  let source ← optionally comparedText (value "source_id" item)
  let percentage ← comparedText (value "remaining_percentage" item)
  return ⟨kind, scope, period, planId, unit, source, percentage⟩

def providerFields : List String :=
  ["provider", "outcome", "public_state", "freshness", "status_observed_at", "fetched_at", "data_at", "source_id",
    "windows", "rate_limit_reset_credits", "execution_error", "not_run_reason", "most_depleted_window", "compact_text",
    "alternate_text", "tooltip_text"]

/-- The fields that are texts or null, whatever became of the provider. -/
def optionalTexts : List String :=
  ["public_state", "freshness", "status_observed_at", "fetched_at", "data_at", "source_id"]

/-- One provider, after those of these keys. -/
def providerItem (keys : List ProviderKey) (x : Json Text) : Except String ProviderItem := do
  let item ← safeMapping providerFields x
  let provider ← requiredMember "invalid cache provider order" ProviderKey.all ProviderKey.value (value "provider" item)
  if provider ∈ keys then .error "invalid cache provider order"
  else
    let outcome ← requiredMember "invalid cache provider outcome" outcomes ProviderOutcome.value (value "outcome" item)
    let _ ← optionalTexts.mapM fun key => optionally requiredText (value key item)
    let source ← sourceOf "inconsistent cache provider source" provider (value "source_id" item)
    let credits ← optionally resets (value "rate_limit_reset_credits" item)
    if credits.isSome ∧ outcome ≠ .snapshot then .error "unexpected reset credits"
    else
      let facts ← factsOf provider outcome source credits item
      let compact ← safeText 128 false (value "compact_text" item)
      let alternate ← safeText 128 false (value "alternate_text" item)
      let tooltip ← safeText 4096 true (value "tooltip_text" item)
      let mostDepleted ← optionally depleted (value "most_depleted_window" item)
      return { facts with presentation := ⟨mostDepleted, compact, alternate, tooltip⟩ }

/-- The two providers. -/
def providersOf : Json Text → Except String (List ProviderItem)
  | .arr items => if items.length ≠ 2 then .error "invalid cache providers" else distinct providerItem (·.provider) [] items
  | _ => .error "invalid cache providers"

/-! ### Documents -/

def generalFields : List String := ["compact_text", "alternate_text", "tooltip_text"]

/-- What is shown of all providers together. -/
def generalOf (x : Json Text) : Except String GeneralItem := do
  let item ← safeMapping generalFields x
  let compact ← safeText 263 false (value "compact_text" item)
  let alternate ← safeText 265 false (value "alternate_text" item)
  let tooltip ← safeText 8194 true (value "tooltip_text" item)
  return ⟨compact, alternate, tooltip⟩

def executionStates : List ExecutionState := [.complete, .partialState, .notRun, .executionError]

def errorFields : List String := ["code", "phase"]

/-- The one error that a document of the cache has. -/
def cleanupError : ErrorItem := ⟨"cleanup_failed", "cleanup"⟩

/-- The error of a document in some state. -/
def executionErrorOf (state : ExecutionState) (x : Json Text) : Except String (Option ErrorItem) :=
  if isNull x then
    if state = .executionError then .error "missing cache document error" else .ok none
  else do
    let item ← safeMapping errorFields x
    let code ← comparedText (value "code" item)
    let phase ← comparedText (value "phase" item)
    if (⟨code, phase⟩ : ErrorItem) ≠ cleanupError ∨ state ≠ .executionError then .error "invalid cache document error"
    else return some ⟨code, phase⟩

/-- The state of a document is that of its providers. -/
def checkState (state : ExecutionState) (error : Option ErrorItem) (outcomes : List ProviderOutcome) :
    Except String Unit :=
  if state = .complete ∧ ((outcomes.any fun o => !o.successful) ∨ error ≠ none) then .error "invalid complete cache"
  else if state = .notRun ∧ outcomes.any fun o => o ≠ .notRun then .error "invalid not-run cache"
  else if state = .partialState ∧ (¬outcomes.any (·.successful) ∨
      (¬outcomes.any fun o => o = .notRun ∨ o = .executionError) ∨ error ≠ none) then .error "invalid partial cache"
  else .ok ()

def rootFields : List String := ["execution_state", "execution_error", "general", "providers"]

variable (formatter : TimestampFormatter)

/-- `_validate_document`. -/
def validateDocument (document : Json Text) : Except String Document := do
  let root ← safeMapping rootFields document
  let shown ← generalOf (value "general" root)
  let state ← memberOf "invalid cache document" executionStates ExecutionState.value (value "execution_state" root)
  let providers ← providersOf (value "providers" root)
  if providers.map (·.provider) ≠ [.codex, .opencodeGo] ∨ ¬providers.any (·.outcome.successful) then
    .error "cache has no usable provider"
  else
    let error ← executionErrorOf state (value "execution_error" root)
    let document : Document := ⟨state, error, shown, providers⟩
    presentationMatches formatter document
    checkState state error (providers.map (·.outcome))
    return document

end Cache

end YasbLimitora
