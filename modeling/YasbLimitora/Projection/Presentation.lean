import Mathlib
import YasbLimitora.Model.Quantity
import YasbLimitora.Projection.Items

/-!
# What is shown

The texts that `projection.py` derives from the facts of a provider: the percentage that
remains of a window, the window with the least left, the compact and the alternate text,
and the tooltip, which stops at the first line that would take it over its limit. The
cache derives them again from a stored document, by these same functions.

How an instant is shown is for the locale and the time zone to decide: it is a parameter,
that may also fail.

Texts are built by the formatting of the source: `str.replace`, `str.join`, the conversion of
integers, which refuses numbers with too many digits, and `str.capitalize`, which is a part of the
Unicode database. A percentage is rounded to 34 digits, half to even, and shown only if it has no
more digits than that.
-/

namespace YasbLimitora

/-- Why nothing is projected. -/
inductive ProjectionError
  | tooManyWindows
  | valueError (message : String)
deriving DecidableEq, Repr

/-- How an instant is shown, where it is. -/
abbrev TimestampFormatter := Instant → Option String

/-- The digits an integer may have to be written. -/
def MAX_STR_DIGITS : ℕ := 4300

/-- `str` of an integer. -/
def strInt (n : ℕ) : Except ProjectionError String :=
  if MAX_STR_DIGITS < (DecimalText.natText n).length then .error (.valueError "integer string limit")
  else .ok (String.ofList (DecimalText.natText n))

/-- The first of a list of pairs whose key is this text. -/
def lookupText (table : List (String × String)) (key : String) : Option String :=
  (table.find? (·.1 == key)).map (·.2)

/-- `str.join`. -/
def joinTexts (separator : String) : List String → String
  | [] => ""
  | [s] => s
  | s :: t :: l => s ++ separator ++ joinTexts separator (t :: l)

/-- `str.replace` of one character. -/
def replaceChar (a b : Char) (s : String) : String :=
  String.ofList (s.toList.map fun c => if c = a then b else c)

/-! ### Tables -/

def ProviderKey.displayName : ProviderKey → String
  | .codex => "Codex"
  | .opencodeGo => "OpenCode Go"

/-- The letter of a provider where all are shown together. -/
def ProviderKey.initial : ProviderKey → String
  | .codex => "C"
  | .opencodeGo => "O"

def PERIOD_DISPLAY_NAMES : List (String × String) :=
  [("five_hour", "5h"), ("monthly", "Monthly"), ("weekly", "Weekly")]

def NOT_RUN_TEXT : List (String × String) :=
  [("disabled", "provider disabled"), ("invalid_configuration", "configuration invalid"),
    ("invocation_invalid", "invocation invalid"), ("document_aborted", "document aborted"),
    ("guard_wait_timeout", "guard wait timeout"), ("deadline_exhausted", "deadline exhausted")]

def QuotaWindowKind.order : QuotaWindowKind → ℕ
  | .commercialQuota => 0
  | .technicalRateLimit => 1
  | .other => 2

/-! ### Windows in order -/

abbrev WindowSortKey := ℕ ×ₗ String ×ₗ String ×ₗ Bool ×ₗ String ×ₗ Bool ×ₗ String

def windowSortKey (w : WindowItem) : WindowSortKey :=
  toLex (w.kind.order, toLex (w.scope, toLex (w.period, toLex (w.planId.isSome,
    toLex (w.planId.getD "", toLex (w.sourceId.isSome, w.sourceId.getD ""))))))

/-- The order of windows, as a test. -/
def windowLe (v w : WindowItem) : Bool := windowSortKey v ≤ windowSortKey w

/-- `sorted(·, key=_window_sort_key)`. -/
def sortWindows (l : List WindowItem) : List WindowItem := l.mergeSort windowLe

/-! ### Percentages -/

def percentagePrecision : ℕ := 34

/-- Decimal text without the zeros that end its fraction. -/
def renderDecimal (d : Dec) : List Char :=
  let rendered := trimFixed d.fixedText
  if rendered = [] then ['0'] else rendered

/-- The digits of a rendered decimal, from the first that is not zero. -/
def significantLength (rendered : List Char) : ℕ :=
  max 1 ((rendered.filter (· ≠ '.')).dropWhile (· == '0')).length

def percentage (w : WindowItem) : Option String :=
  if w.availability ≠ .known then none
  else
    match w.limit, w.remaining with
    | some limit, some remaining =>
      if limit.metric ≠ remaining.metric ∨ limit.unit ≠ remaining.unit then none
      else
        let limitValue := Dec.ofFixed limit.value.toList
        let remainingValue := Dec.ofFixed remaining.value.toList
        if limitValue.coeff = 0 ∨ ¬remainingValue.le limitValue then none
        else
          let value := Dec.mul percentagePrecision
            (Dec.div percentagePrecision remainingValue limitValue) ⟨100, 0⟩
          if ¬value.le ⟨100, 0⟩ then none
          else
            let rendered := renderDecimal value
            if 128 < rendered.length + 1 ∨ percentagePrecision < significantLength rendered then none
            else some (String.ofList rendered)
    | _, _ => none

/-! ### Texts -/

def boundedSummary (base qualifier : String) : String :=
  if base.length + qualifier.length ≤ 128 then base ++ qualifier
  else String.ofList (base.toList.take (128 - qualifier.length)) ++ qualifier

/-- The tooltip, with the lines that fit. -/
def extendTooltip (limit : ℕ) : String → List String → String
  | tooltip, [] => tooltip
  | tooltip, line :: lines =>
    let candidate := if tooltip = "" then line else tooltip ++ "\n" ++ line
    if limit < candidate.length then tooltip else extendTooltip limit candidate lines

section Shown

variable [UnicodeData] (formatter : TimestampFormatter)

def tooltipPeriod (period : String) : String :=
  (lookupText PERIOD_DISPLAY_NAMES period).getD
    (UnicodeData.capitalize (replaceChar '_' ' ' period))

def tooltipState (value : String) : String := UnicodeData.capitalize (replaceChar '_' ' ' value)

/-- An instant as it is shown, if there is one and it can be. -/
def tooltipTimestamp (t : Option Instant) : Option String :=
  (t.bind formatter).filter (· ≠ "")

/-- The window that has the least left, with its percentage, among those that have one. -/
def mostDepleted (ordered : List WindowItem) : Option (WindowItem × String) :=
  let eligible := ordered.filterMap fun w => (percentage w).map (w, ·)
  eligible.argmin fun c => (toLex ((Dec.ofFixed c.2.toList).toRat, windowSortKey c.1) :
    ℚ ×ₗ WindowSortKey)

def DepletedItem.ofWindow (w : WindowItem) (percentage : String) : DepletedItem where
  kind := w.kind
  scope := w.scope
  period := w.period
  planId := w.planId
  unit := (w.remaining.map (·.unit)).getD ""
  sourceId := w.sourceId
  remainingPercentage := percentage

/-- The lines of a window in a tooltip. -/
def windowLines (w : WindowItem) : List String :=
  let line := match percentage w with
    | some percentage => tooltipPeriod w.period ++ ": " ++ percentage ++ "%"
    | none => tooltipPeriod w.period ++ ": Unavailable"
  match tooltipTimestamp formatter w.resetAt with
  | some reset => [line, "  Renews: " ++ reset]
  | none => [line]

/-- The lines of reset credits in a tooltip. -/
def creditsLines : Option CreditsItem → Except ProjectionError (List String)
  | none => .ok []
  | some credits => do
    let count ← strInt credits.availableCount
    let line := "Quota resets available: " ++ count
    match tooltipTimestamp formatter credits.nextExpiresAt with
    | some expiry => return [line, "Next reset expiry: " ++ expiry]
    | none => return [line]

/-- What is shown of a provider without a snapshot. -/
def absentPresentation (p : ProviderFacts) : Presentation :=
  let timedOut := p.executionError.any (·.code == "provider_timeout")
  let text :=
    (if p.outcome = .undetected then "Provider not detected" else "Quota unavailable") ++
      (if p.outcome = .executionError then if timedOut then " · timeout" else " · request failed"
        else "")
  let detail := match p.executionError with
    | some error => some error.code
    | none => lookupText NOT_RUN_TEXT (p.notRunReason.getD "")
  let tooltip := p.provider.displayName ++ "\n" ++ text
  ⟨none, "—", text,
    match detail with
    | some detail => if detail = "" then tooltip else tooltip ++ ": " ++ detail
    | none => tooltip⟩

/-- What marks a summary as partial, or stale. -/
def qualifier (publicState : PublicProviderState) (freshness : SnapshotFreshness) : String :=
  (if publicState = .partialState then " · partial" else "") ++
    (if freshness = .stale then " · stale" else "")

/-- The lines of a tooltip that are always there. -/
def tooltipHead (provider : ProviderKey) (publicState : PublicProviderState)
    (freshness : SnapshotFreshness) : String :=
  provider.displayName ++ "\n" ++ "State: " ++ tooltipState publicState.value ++ " · " ++
    tooltipState freshness.value ++ "\n" ++ "Quota remaining:"

/-- What is shown of a snapshot. -/
def snapshotPresentation (p : ProviderFacts) (publicState : PublicProviderState)
    (freshness : SnapshotFreshness) (tooltipLimit : ℕ) : Except ProjectionError Presentation := do
  let ordered := sortWindows p.windows
  let depleted := mostDepleted ordered
  let alternateBase := match depleted with
    | some (w, percentage) => tooltipPeriod w.period ++ ": " ++ percentage ++ "% left"
    | none => "Quota unavailable"
  let windows := if ordered.isEmpty then ["No quota windows"]
    else ordered.flatMap (windowLines formatter)
  let credits ← creditsLines formatter p.rateLimitResetCredits
  return ⟨depleted.map fun (w, percentage) => .ofWindow w percentage,
    match depleted with
    | some (_, percentage) => percentage ++ "%"
    | none => "—",
    boundedSummary alternateBase (qualifier publicState freshness),
    extendTooltip tooltipLimit (tooltipHead p.provider publicState freshness) (windows ++ credits)⟩

/-- `_presentation`. -/
def presentation (p : ProviderFacts) (tooltipLimit : ℕ) : Except ProjectionError Presentation :=
  if p.outcome ≠ .snapshot then .ok (absentPresentation p)
  else
    match p.publicState, p.freshness with
    | some publicState, some freshness =>
      snapshotPresentation formatter p publicState freshness tooltipLimit
    | _, _ => .error (.valueError "invalid snapshot presentation")

end Shown

/-- `_general`. -/
def general (providers : List ProviderItem) : GeneralItem :=
  let selected := providers.filter fun p => p.notRunReason ≠ some "disabled"
  if selected.isEmpty then ⟨"—", "No providers enabled", "No providers enabled"⟩
  else
    ⟨joinTexts " · " (selected.map fun p => p.provider.initial ++ "=" ++ p.presentation.compactText),
      joinTexts " · "
        (selected.map fun p => p.provider.initial ++ ": " ++ p.presentation.alternateText),
      joinTexts "\n\n" (selected.map (·.presentation.tooltipText))⟩

end YasbLimitora
