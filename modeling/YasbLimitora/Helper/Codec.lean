import Mathlib
import YasbLimitora.Isolation.Session
import YasbLimitora.Lib.JsonReaders
import YasbLimitora.Lib.JsonString
import YasbLimitora.Model.CanonicalDecimal
import YasbLimitora.Model.Constructors
import YasbLimitora.Model.Views
import YasbLimitora.Projection.OpenCode

/-!
# The response of a helper

`_payload` and `_decode` of `codex_helper.py`: a view is sent as JSON, and what is received is
checked field by field, and is the view of an internal error if a check fails.

* `YasbLimitora.Codec.item` is what is sent of a view, and `YasbLimitora.Codec.payload` its text in
  UTF-8. There is none if the label has half of a pair of surrogates, if the count of the reset
  credits has more digits than `json.dumps` writes, or if the text has more than `MAX_RESPONSE`
  bytes; otherwise there is one (`YasbLimitora.Codec.payload_isSome_iff`).
* `YasbLimitora.Codec.decode` is what is made of the bytes that are received. Not each view comes
  back from its text: a window of another source loses its data, and a view must say the state that
  its outcome and its snapshot give. The views that do are those of `YasbLimitora.Codec.Restorable`.

Whatever is received is decoded to such a view, and the count of its reset credits is one that
`json.dumps` writes, since `json.loads` has read it. A view that was decoded is therefore sent on
whenever its text is not too long, and is then decoded to itself (`YasbLimitora.Codec.decode_codec`).
The text can be longer than the one that was received: the normal form of a name takes up to three
times its bytes.

The digits that a timestamp may be written in are those of Unicode, as `\d` has them.
-/

namespace YasbLimitora

namespace Codec

open Json (Fields field?)
open Encoding (Spelled)
open Protocol (member? WireView)

/-- `_MAX_RESPONSE`. -/
def MAX_RESPONSE : ℕ := 64 * 1024

def ProviderOutcome.all : List ProviderOutcome := [.snapshot, .undetected, .notRun, .executionError]

variable [UnicodeData]

/-- `_legacy_state_for_snapshot`. -/
def legacyState (snapshot : ProviderSnapshotView) : ProviderState :=
  if snapshot.freshness = .stale then .unavailable
  else if snapshot.publicState = .available then .success
  else if snapshot.publicState = .unavailable then .unavailable
  else if snapshot.publicState = .partialState then .success
  else .unavailable

/-! ### Sending -/

def text (s : String) : Json Text := .str (Text.ofString s)

/-- `_timestamp`. -/
def timestamp (t : Instant) : Json Text := .str (Text.ofChars t.chars)

def quantityPayload (quantity : QuotaQuantity) : Json Text :=
  .obj [(Text.ofString "metric", text quantity.metric.value),
    (Text.ofString "value", .str (Text.ofChars quantity.value.fixedText)),
    (Text.ofString "unit", text quantity.unit)]

def windowPayload (window : QuotaWindowView) : Json Text :=
  .obj [(Text.ofString "kind", text window.kind.value), (Text.ofString "scope", text window.scope),
    (Text.ofString "period", text window.period), (Text.ofString "plan_id", Json.orNull text window.planId),
    (Text.ofString "availability", text window.availability.value),
    (Text.ofString "source_id", Json.orNull text window.sourceId),
    (Text.ofString "reset_at", Json.orNull timestamp window.resetAt),
    (Text.ofString "limit", Json.orNull quantityPayload window.limit),
    (Text.ofString "used", Json.orNull quantityPayload window.used),
    (Text.ofString "remaining", Json.orNull quantityPayload window.remaining)]

def resetPayload (credits : RateLimitResetCreditsView) : Json Text :=
  .obj [(Text.ofString "available_count", .int credits.availableCount),
    (Text.ofString "next_expires_at", Json.orNull timestamp credits.nextExpiresAt)]

def snapshotPayload (snapshot : ProviderSnapshotView) : Json Text :=
  .obj [(Text.ofString "public_state", text snapshot.publicState.value),
    (Text.ofString "freshness", text snapshot.freshness.value),
    (Text.ofString "status_observed_at", timestamp snapshot.statusObservedAt),
    (Text.ofString "fetched_at", timestamp snapshot.fetchedAt), (Text.ofString "data_at", timestamp snapshot.dataAt),
    (Text.ofString "source_id", Json.orNull text snapshot.sourceId),
    (Text.ofString "windows", .arr (snapshot.windows.map windowPayload)),
    (Text.ofString "rate_limit_reset_credits", Json.orNull resetPayload snapshot.rateLimitResetCredits)]

def errorPayload (code : SafeErrorCode) : Json Text := .obj [(Text.ofString "code", text code.value)]

/-- What is sent of a view. -/
def item (w : WireView) : Json Text :=
  .obj [(Text.ofString "provider", text w.view.provider.value), (Text.ofString "state", text w.view.state.value),
    (Text.ofString "outcome", Json.orNull (fun o : ProviderOutcome => text o.value) w.view.outcome),
    (Text.ofString "display_label", Json.orNull .str w.label),
    (Text.ofString "error", Json.orNull errorPayload w.view.error),
    (Text.ofString "snapshot", Json.orNull snapshotPayload w.view.snapshot)]

/-- Whether `json.dumps` writes the one number of a view. -/
def countIsShort (w : WireView) : Bool :=
  ((w.view.snapshot.bind (·.rateLimitResetCredits)).map fun credits =>
    decide ((DecimalText.natText credits.availableCount).length ≤ Json.maxDigits)).getD true

/-- `_payload`, which raises when there is no text, or too much of it. -/
def payload (w : WireView) : Option Bytes :=
  if countIsShort w then
    (Encoding.encodeUtf8 (Json.Style.compact.write (item w))).filter fun b => b.length ≤ MAX_RESPONSE
  else none

/-! ### Receiving -/

/-- The decimal digits of Unicode, each with the digit of ASCII of the same value. -/
structure DecimalDigits where
  plain : Char → Char
  plain_ascii : ∀ c, c.toNat < 0x80 → plain c = c

section Decode

variable (digits : DecimalDigits)

/-- Where a timestamp must have a digit of ASCII: the month and the fraction, and the first digit
of the day, the hour, the minute and the second. -/
def asciiPlaces : List ℕ := [5, 6, 8, 11, 14, 17, 20, 21, 22, 23, 24, 25]

/-- Whether `strptime` takes the digits of a timestamp: it takes no other ones in some places, and
in some after certain digits. -/
def takesDigits (l : List Char) : Bool :=
  (asciiPlaces.all fun i => (l[i]?).any DecimalText.isDigit) &&
    ((l[8]?).all (fun c => c != '0' && c != '3') || (l[9]?).any DecimalText.isDigit) &&
    ((l[11]?).all (fun c => c != '2') || (l[12]?).any DecimalText.isDigit)

def decodeTimestamp : Json Text → Option Instant
  | .str s => do
    let l ← s.toChars
    let t ← Instant.ofChars (l.map digits.plain)
    if takesDigits l then some t else none
  | _ => none

/-- `_load_json`. -/
def loadJson (data : Bytes) : Option (Json Text) := do
  if 0 < data.length ∧ data.length ≤ MAX_RESPONSE then
    let text ← Encoding.utf8 false data
    Json.parse Protocol.reader text
  else none

/-- `_object`. -/
def object (words : List String) : Json Text → Option Fields
  | .obj fields =>
    if (∀ p ∈ fields, p.1 ∈ words.map Text.ofString) ∧ ∀ word ∈ words, Text.ofString word ∈ fields.map Prod.fst then
      some fields
    else none
  | _ => none

/-- A field that may be null. -/
def optional {α : Type} (decode : Json Text → Option α) : Option (Json Text) → Option (Option α)
  | some .null => some none
  | some x => (decode x).map some
  | none => none

/-- `canonical_identity` of a value. -/
def wireIdentity (message : String) : Json Text → Option String
  | .str s => do
    let value ← s.toString
    (canonicalIdentity value message).toOption
  | _ => none

/-- `_source_for_provider`. -/
def sourceFor (provider : ProviderKey) : Option (Json Text) → Option String
  | some (.str s) =>
    (s.toString.map fun value => strip (UnicodeData.nfc value)).filter fun source => source = provider.expectedSource
  | _ => none

def quantityFields : List String := ["metric", "value", "unit"]

def decodeQuantity (x : Json Text) : Option QuotaQuantity := do
  let item ← object quantityFields x
  let metric ← (field? "metric" item).bind (member? QuotaMetricKind.all QuotaMetricKind.value)
  let unit ← (field? "unit" item).bind (wireIdentity "invalid quota unit")
  let value ← (field? "value" item).bind decimalOf
  (QuotaQuantity.make (.finite false value) metric unit).toOption
where
  /-- `_parse_canonical_decimal` of a value. -/
  decimalOf : Json Text → Option Dec
    | .str s => (parseCanonicalDecimal s).toOption
    | _ => none

def windowFields : List String :=
  ["kind", "scope", "period", "plan_id", "availability", "source_id", "reset_at", "limit", "used", "remaining"]

/-- A field of a window, which is left alone unless the source of the window is trusted. -/
def ifTrusted {α : Type} (trusted : Bool) (decode : Json Text → Option α) (x : Option (Json Text)) :
    Option (Option α) :=
  if trusted then optional decode x else some none

def decodeAvailability (trusted : Bool) (x : Option (Json Text)) : Option QuotaAvailability :=
  if trusted then x.bind (member? QuotaAvailability.all QuotaAvailability.value) else some .unavailable

def decodeWindow (provider : ProviderKey) (x : Json Text) : Option QuotaWindowView := do
  let item ← object windowFields x
  let source := sourceFor provider (field? "source_id" item)
  let plan ← ifTrusted source.isSome (wireIdentity "invalid quota plan id") (field? "plan_id" item)
  let resetAt ← ifTrusted source.isSome (decodeTimestamp digits) (field? "reset_at" item)
  let availability ← decodeAvailability source.isSome (field? "availability" item)
  let kind ← (field? "kind" item).bind (member? QuotaWindowKind.all QuotaWindowKind.value)
  let scope ← (field? "scope" item).bind (wireIdentity "invalid quota scope")
  let period ← (field? "period" item).bind (wireIdentity "invalid quota period")
  let limit ← ifTrusted source.isSome decodeQuantity (field? "limit" item)
  let used ← ifTrusted source.isSome decodeQuantity (field? "used" item)
  let remaining ← ifTrusted source.isSome decodeQuantity (field? "remaining" item)
  (QuotaWindowView.make kind scope period plan availability source limit used remaining resetAt).toOption

def resetFields : List String := ["available_count", "next_expires_at"]

def decodeResets (x : Json Text) : Option RateLimitResetCreditsView := do
  let item ← object resetFields x
  let next ← optional (decodeTimestamp digits) (field? "next_expires_at" item)
  let count ← (field? "available_count" item).bind countOf
  RateLimitResetCreditsView.make count next
where
  /-- A count, which is no `bool`. -/
  countOf : Json Text → Option ℕ
    | .int n => if 0 ≤ n then some n.toNat else none
    | _ => none

def snapshotFields : List String :=
  ["public_state", "freshness", "status_observed_at", "fetched_at", "data_at", "source_id", "windows",
    "rate_limit_reset_credits"]

def decodeWindows (provider : ProviderKey) : Json Text → Option (List QuotaWindowView)
  | .arr items => if MAX_QUOTA_WINDOWS < items.length then none else items.mapM (decodeWindow digits provider)
  | _ => none

def decodeSnapshot (provider : ProviderKey) (x : Json Text) : Option ProviderSnapshotView := do
  let item ← object snapshotFields x
  let windows ← (field? "windows" item).bind (decodeWindows digits provider)
  let publicState ← (field? "public_state" item).bind (member? PublicProviderState.all PublicProviderState.value)
  let freshness ← (field? "freshness" item).bind (member? SnapshotFreshness.all SnapshotFreshness.value)
  let observed ← (field? "status_observed_at" item).bind (decodeTimestamp digits)
  let fetched ← (field? "fetched_at" item).bind (decodeTimestamp digits)
  let data ← (field? "data_at" item).bind (decodeTimestamp digits)
  let resets ← optional (decodeResets digits) (field? "rate_limit_reset_credits" item)
  ProviderSnapshotView.make publicState freshness observed fetched data (sourceFor provider (field? "source_id" item)) windows resets

/-- The label of a response. -/
def decodeLabel : Json Text → Option Text
  | .str label => if Protocol.checkLabel (some (.str label)) = .ok () ∧ Spelled label then some label else none
  | _ => none

def errorFields : List String := ["code"]

def decodeError (x : Json Text) : Option SafeErrorCode := do
  let item ← object errorFields x
  (field? "code" item).bind (member? SafeErrorCode.all SafeErrorCode.value)

def isNull : Option (Json Text) → Bool
  | some .null => true
  | _ => false

/-- The error of a response, which is there exactly when its state is that of an error. -/
def errorOf (state : ProviderState) (x : Option (Json Text)) : Option (Option SafeErrorCode) :=
  if state = .safeError then (x.bind decodeError).map some
  else if isNull x then some none
  else none

/-- What a response is checked for beyond what its view is. -/
def agrees (state : ProviderState) (outcome : Option ProviderOutcome) (snapshot : Option ProviderSnapshotView) : Bool :=
  if outcome = some .snapshot then snapshot.any fun s => state = legacyState s
  else snapshot.isNone && !((outcome = some .undetected ∨ outcome = some .notRun) ∧ state ≠ .unavailable) &&
    !(outcome = some .executionError ∧ state ≠ .safeError)

/-- The constructor of a view. -/
def makeView (state : ProviderState) (error : Option SafeErrorCode) (label : Option Text)
    (outcome : Option ProviderOutcome) (snapshot : Option ProviderSnapshotView) : Option WireView :=
  if h : ((error.isSome ↔ state = .safeError) ∧ (snapshot.isSome ↔ outcome = some .snapshot) ∧
      (error.isSome → outcome = none ∨ outcome = some .executionError) ∧
      (outcome = some .executionError → state = .safeError)) ∧
      Protocol.checkLabel (label.map .str) = .ok () then
    some ⟨⟨.codex, state, error, outcome, snapshot, none, ⟨h.1.1, h.1.2.1, h.1.2.2.1, h.1.2.2.2, nofun⟩⟩, label, h.2⟩
  else none

def wireFields : List String := ["provider", "state", "outcome", "display_label", "error", "snapshot"]

/-- What `_decode` does before anything is raised. -/
def decodeView (data : Bytes) : Option WireView := do
  let value ← loadJson data
  let item ← object wireFields value
  let provider ← (field? "provider" item).bind (member? ProviderKey.all ProviderKey.value)
  let state ← (field? "state" item).bind (member? ProviderState.all ProviderState.value)
  let outcome ← optional (member? ProviderOutcome.all ProviderOutcome.value) (field? "outcome" item)
  let label ← optional decodeLabel (field? "display_label" item)
  let error ← errorOf state (field? "error" item)
  let snapshot ← optional (decodeSnapshot digits provider) (field? "snapshot" item)
  if provider = .codex ∧ agrees state outcome snapshot then makeView state error label outcome snapshot else none

omit [UnicodeData] in
theorem checkLabel_none : Protocol.checkLabel ((none : Option Text).map .str) = .ok () := rfl

/-- The view of an internal error. -/
def internalError : WireView := ⟨safeErrorView .codex .internalError, none, checkLabel_none⟩

/-- `_decode`. -/
def decode (data : Bytes) : WireView := (decodeView digits data).getD internalError

end Decode

/-! ### Values that come back -/

/-- What is known of the normal form `NFC`: it trims nothing, it is its own normal form, and that
of a text of ASCII is the text. -/
structure NfcLaws : Prop where
  trims : NfcTrims
  idempotent : ∀ s : String, UnicodeData.nfc (UnicodeData.nfc s) = UnicodeData.nfc s
  ascii : ∀ s : String, (∀ c ∈ s.toList, c.toNat < 0x80) → UnicodeData.nfc s = s

section Values

variable {digits : DecimalDigits}

omit [UnicodeData] in
theorem object_of_keys {words : List String} {fields : Fields}
    (h : fields.map Prod.fst = words.map Text.ofString) : object words (.obj fields) = some fields := by
  refine if_pos ⟨fun p hp => ?_, fun word hword => ?_⟩
  · rw [← h]
    exact List.mem_map_of_mem hp
  · rw [h]
    exact List.mem_map_of_mem hword

omit [UnicodeData] in
/-- The first field of an object is looked up by its own key. -/
theorem field?_cons (key key' : String) (x : Json Text) (fields : Fields) :
    field? key ((Text.ofString key', x) :: fields) = if key' = key then some x else field? key fields := by
  by_cases h : key' = key
  · subst h
    rw [if_pos rfl]
    exact if_pos rfl
  · rw [if_neg h]
    exact if_neg fun heq => h (Text.ofString_injective heq)

omit [UnicodeData] in
/-- A value that may be null comes back if the value does. -/
theorem optional_orNull {α : Type} {decode : Json Text → Option α} {f : α → Json Text} {o : Option α}
    (h : ∀ a ∈ o, decode (f a) = some a) (hne : ∀ a, f a ≠ .null) :
    optional decode (some (Json.orNull f o)) = some o := by
  rcases o with _ | a
  · rfl
  · change optional decode (some (f a)) = _
    unfold optional
    split
    · next heq => exact absurd (Option.some.inj heq) (hne a)
    · next heq =>
      rw [← Option.some.inj heq, h a rfl]
      rfl
    · next heq => cases heq

/-- An identity is sanitized to itself. -/
theorem canonicalIdentity_of_isIdentity (hnfc : NfcLaws) {s : String} (h : IsIdentity s) (message : String) :
    canonicalIdentity s message = .ok s := by
  obtain ⟨value, m, hs⟩ := h
  obtain ⟨hne, hstrip, rfl, hlength, hcontrol⟩ := canonicalIdentity_eq_ok_iff.1 hs
  obtain ⟨hne', hstrip'⟩ := hnfc.trims value hne hstrip
  exact canonicalIdentity_eq_ok_iff.2 ⟨hne', hstrip', (hnfc.idempotent value).symm, hlength, hcontrol⟩

/-- An identity is read back of the text that it was written as. -/
theorem wireIdentity_text (hnfc : NfcLaws) {s : String} (h : IsIdentity s) (message : String) :
    wireIdentity message (text s) = some s := by
  change ((Text.ofString s).toString.bind fun value => (canonicalIdentity value message).toOption) = _
  rw [Text.toString_ofString, Option.bind_some]
  rw [canonicalIdentity_of_isIdentity hnfc h]
  rfl

omit [UnicodeData] in
/-- A member of a vocabulary is read back of its text. -/
theorem member?_text {α : Type} {members : List α} {value : α → String} {a : α}
    (h : ofValue members value (value a) = some a) : member? members value (text (value a)) = some a :=
  Protocol.member?_str h

omit [UnicodeData] in
theorem ofValue_outcome (o : ProviderOutcome) : ofValue ProviderOutcome.all ProviderOutcome.value o.value = some o := by
  cases o <;> decide

omit [UnicodeData] in
/-- What fits a template has a digit where the template says so. -/
theorem isDigit_of_fits {template l : List Char} (h : Instant.fits template l = true) {i : ℕ}
    (hi : template[i]? = some 'd') : (l[i]?).any DecimalText.isDigit = true := by
  induction template generalizing l i with
  | nil => cases hi
  | cons t template ih =>
    rcases l with _ | ⟨c, l⟩
    · cases h
    rw [Instant.fits, Bool.and_eq_true] at h
    rcases i with _ | i
    · obtain rfl := Option.some.inj hi
      exact h.1
    · exact ih h.2 hi

omit [UnicodeData] in
/-- Texts that fit a template of plain characters are plain. -/
theorem toNat_of_fits {template l : List Char} (h : Instant.fits template l = true)
    (ht : ∀ t ∈ template, t.toNat < 0x80) : ∀ c ∈ l, c.toNat < 0x80 := by
  induction template generalizing l with
  | nil =>
    rcases l with _ | ⟨c, l⟩
    · exact List.forall_mem_nil _
    · cases h
  | cons t template ih =>
    rcases l with _ | ⟨c, l⟩
    · exact List.forall_mem_nil _
    rw [Instant.fits, Bool.and_eq_true] at h
    rw [List.forall_mem_cons] at ht
    refine List.forall_mem_cons.2 ⟨?_, ih h.2 ht.2⟩
    have hfirst := h.1
    split_ifs at hfirst with hd
    · exact Json.toNat_of_isDigit hfirst
    · rw [beq_iff_eq.1 hfirst]
      exact ht.1

omit [UnicodeData] in
theorem template_eq : Instant.template =
    ['d', 'd', 'd', 'd', '-', 'd', 'd', '-', 'd', 'd', 'T', 'd', 'd', ':', 'd', 'd', ':', 'd', 'd', '.', 'd', 'd', 'd',
      'd', 'd', 'd', 'Z'] := by decide

omit [UnicodeData] in
/-- What is written of a time stamp has its digits where they are looked for. -/
theorem takesDigits_chars (t : Instant) : takesDigits t.chars = true := by
  have hfits := Instant.fits_chars t
  rw [template_eq] at hfits
  have hplaces : ∀ i ∈ asciiPlaces, ['d', 'd', 'd', 'd', '-', 'd', 'd', '-', 'd', 'd', 'T', 'd', 'd', ':', 'd', 'd',
      ':', 'd', 'd', '.', 'd', 'd', 'd', 'd', 'd', 'd', 'Z'][i]? = some 'd' := by
    intro i hi
    simp only [asciiPlaces, List.mem_cons, List.not_mem_nil, or_false] at hi
    rcases hi with rfl | rfl | rfl | rfl | rfl | rfl | rfl | rfl | rfl | rfl | rfl | rfl
    all_goals rfl
  rw [takesDigits, Bool.and_eq_true, Bool.and_eq_true]
  refine ⟨⟨List.all_eq_true.2 fun i hi => isDigit_of_fits hfits (hplaces i hi), ?_⟩, ?_⟩
  · rw [isDigit_of_fits (i := 9) hfits rfl, Bool.or_true]
  · rw [isDigit_of_fits (i := 12) hfits rfl, Bool.or_true]

omit [UnicodeData] in
/-- An instant comes back from its timestamp. -/
theorem decodeTimestamp_timestamp (t : Instant) : decodeTimestamp digits (timestamp t) = some t := by
  have hascii : ∀ c ∈ t.chars, c.toNat < 0x80 := by
    have hall : Instant.template.all (fun c => decide (c.toNat < 0x80)) = true := by
      rw [template_eq]
      rfl
    exact toNat_of_fits (Instant.fits_chars t) fun c hc => of_decide_eq_true (List.all_eq_true.1 hall c hc)
  have hplain : t.chars.map digits.plain = t.chars := by
    refine (List.map_congr_left fun c hc => digits.plain_ascii c (hascii c hc)).trans ?_
    exact List.map_id' _
  rw [timestamp, decodeTimestamp, Text.toChars_ofChars]
  simp only [Option.bind_eq_bind, Option.bind_some]
  rw [hplain, Instant.ofChars_chars, Option.bind_some, if_pos (takesDigits_chars t)]

/-- **A quantity is read back** of what is sent of it. -/
theorem decodeQuantity_payload (hnfc : NfcLaws) (q : QuotaQuantity) : decodeQuantity (quantityPayload q) = some q := by
  have hlimits : IsWithinLimits q.value := q.value_canonical.isWithinLimits
  have hvalue : parseCanonicalDecimal (Text.ofChars q.value.fixedText) = .ok q.value :=
    parseCanonicalDecimal_eq_ok_iff.2 ⟨hlimits, rfl⟩
  have hdecimal : decodeQuantity.decimalOf (.str (Text.ofChars q.value.fixedText)) = some q.value := by
    change (parseCanonicalDecimal _).toOption = _
    rw [hvalue]
    rfl
  have hmake := @QuotaQuantity.make_eq_ok _ _ q.metric _ _ _ (canonicalDecimal_of_isWithinLimits hlimits)
    (canonicalIdentity_of_isIdentity hnfc q.unit_identity "invalid quota unit")
  rw [quantityPayload, decodeQuantity, object_of_keys rfl]
  refine Option.bind_eq_some_iff.2 ⟨_, rfl, ?_⟩
  refine Option.bind_eq_some_iff.2 ⟨q.metric, member?_text (ofValue_metric q.metric), ?_⟩
  refine Option.bind_eq_some_iff.2 ⟨q.unit, wireIdentity_text hnfc q.unit_identity _, ?_⟩
  refine Option.bind_eq_some_iff.2 ⟨q.value, hdecimal, ?_⟩
  rw [hmake]
  rfl

/-- An identity that may be missing is sanitized to itself. -/
theorem optionalIdentity_self (hnfc : NfcLaws) {value : Option String} (h : ∀ s, value = some s → IsIdentity s)
    (message : String) : optionalIdentity value message = .ok value := by
  rcases value with _ | s
  · rfl
  · rw [optionalIdentity, canonicalIdentity_of_isIdentity hnfc (h s rfl)]
    rfl

/-- A window comes back from its parts. -/
theorem make_self (hnfc : NfcLaws) (w : QuotaWindowView) :
    QuotaWindowView.make w.kind w.scope w.period w.planId w.availability w.sourceId w.limit w.used w.remaining
      w.resetAt = .ok w :=
  QuotaWindowView.make_eq_ok_iff.2 ⟨⟨rfl, canonicalIdentity_of_isIdentity hnfc w.scope_identity _,
    canonicalIdentity_of_isIdentity hnfc w.period_identity _, optionalIdentity_self hnfc w.planId_identity _⟩,
    ⟨rfl, rfl, checkSourceId_of_mem w.sourceId_safe⟩, rfl, rfl, rfl, rfl⟩

/-- A source that a response of Codex may name, or none. -/
def TrustedSource (source : Option String) : Prop := source = none ∨ source = some CODEX_SOURCE_ID

/-- **A window that comes back**: its data is of the trusted source, or it has none. -/
structure RestorableWindow (w : QuotaWindowView) : Prop where
  source : TrustedSource w.sourceId
  bare : w.sourceId = none → w.planId = none ∧ w.availability = .unavailable

/-- A source is trusted if it is, normalized and stripped, that of the provider. -/
theorem sourceFor_str (provider : ProviderKey) (s : Text) : sourceFor provider (some (.str s)) =
    (s.toString.map fun value => strip (UnicodeData.nfc value)).filter fun source =>
      source = provider.expectedSource := rfl

/-- The source that is trusted comes back. -/
theorem sourceFor_text (hnfc : NfcLaws) {source : Option String} (h : TrustedSource source) :
    sourceFor .codex (some (Json.orNull text source)) = source := by
  rcases h with rfl | rfl
  · rfl
  · have hall : CODEX_SOURCE_ID.toList.all (fun c => decide (c.toNat < 0x80)) = true := rfl
    have hascii : UnicodeData.nfc CODEX_SOURCE_ID = CODEX_SOURCE_ID :=
      hnfc.ascii _ fun c hc => of_decide_eq_true (List.all_eq_true.1 hall c hc)
    have hstrip : strip CODEX_SOURCE_ID = CODEX_SOURCE_ID := by decide
    change sourceFor .codex (some (.str (Text.ofString CODEX_SOURCE_ID))) = _
    rw [sourceFor_str, Text.toString_ofString, Option.map_some, hascii, hstrip]
    rfl

omit [UnicodeData] in
theorem text_ne_null (s : String) : text s ≠ .null := nofun

/-- **A window comes back.** -/
theorem decodeWindow_payload (hnfc : NfcLaws) {w : QuotaWindowView} (h : RestorableWindow w) :
    decodeWindow digits .codex (windowPayload w) = some w := by
  have hsource := sourceFor_text hnfc h.source
  have hquantity : ∀ {o : Option QuotaQuantity}, optional decodeQuantity (some (Json.orNull quantityPayload o)) = some o :=
    optional_orNull (fun q _ => decodeQuantity_payload hnfc q) fun _ => nofun
  have hreset : optional (decodeTimestamp digits) (some (Json.orNull timestamp w.resetAt)) = some w.resetAt :=
    optional_orNull (fun t _ => decodeTimestamp_timestamp t) fun _ => nofun
  have hplan : optional (wireIdentity "invalid quota plan id") (some (Json.orNull text w.planId)) = some w.planId :=
    optional_orNull (fun s hs => wireIdentity_text hnfc (w.planId_identity s hs) _) text_ne_null
  have hsources : ∀ fields : Fields, field? "source_id" fields = some (Json.orNull text w.sourceId) →
      sourceFor .codex (field? "source_id" fields) = w.sourceId := by
    intro fields hfields
    rw [hfields, hsource]
  rw [windowPayload, decodeWindow, object_of_keys rfl]
  refine Option.bind_eq_some_iff.2 ⟨_, rfl, ?_⟩
  rw [hsources _ rfl]
  rcases htrusted : w.sourceId with _ | source
  · -- a window without a source has nothing that is looked at
    obtain ⟨hplan', havailability⟩ := h.bare htrusted
    obtain ⟨hlimit, hused, hremaining, hreset'⟩ := w.values_eq_none (by rw [havailability]; decide)
    refine Option.bind_eq_some_iff.2 ⟨none, rfl, ?_⟩
    refine Option.bind_eq_some_iff.2 ⟨none, rfl, ?_⟩
    refine Option.bind_eq_some_iff.2 ⟨.unavailable, rfl, ?_⟩
    refine Option.bind_eq_some_iff.2 ⟨w.kind, member?_text (ofValue_windowKind _), ?_⟩
    refine Option.bind_eq_some_iff.2 ⟨w.scope, wireIdentity_text hnfc w.scope_identity _, ?_⟩
    refine Option.bind_eq_some_iff.2 ⟨w.period, wireIdentity_text hnfc w.period_identity _, ?_⟩
    refine Option.bind_eq_some_iff.2 ⟨none, rfl, ?_⟩
    refine Option.bind_eq_some_iff.2 ⟨none, rfl, ?_⟩
    refine Option.bind_eq_some_iff.2 ⟨none, rfl, ?_⟩
    have hself := make_self hnfc w
    rw [htrusted, hplan', havailability, hlimit, hused, hremaining, hreset'] at hself
    rw [hself]
    rfl
  · refine Option.bind_eq_some_iff.2 ⟨w.planId, hplan, ?_⟩
    refine Option.bind_eq_some_iff.2 ⟨w.resetAt, hreset, ?_⟩
    refine Option.bind_eq_some_iff.2 ⟨w.availability, member?_text (ofValue_availability _), ?_⟩
    refine Option.bind_eq_some_iff.2 ⟨w.kind, member?_text (ofValue_windowKind _), ?_⟩
    refine Option.bind_eq_some_iff.2 ⟨w.scope, wireIdentity_text hnfc w.scope_identity _, ?_⟩
    refine Option.bind_eq_some_iff.2 ⟨w.period, wireIdentity_text hnfc w.period_identity _, ?_⟩
    refine Option.bind_eq_some_iff.2 ⟨w.limit, hquantity, ?_⟩
    refine Option.bind_eq_some_iff.2 ⟨w.used, hquantity, ?_⟩
    refine Option.bind_eq_some_iff.2 ⟨w.remaining, hquantity, ?_⟩
    have hself := make_self hnfc w
    rw [htrusted] at hself
    rw [hself]
    rfl

omit [UnicodeData] in
/-- **Reset credits are read back**, of any count. -/
theorem decodeResets_payload (credits : RateLimitResetCreditsView) :
    decodeResets digits (resetPayload credits) = some credits := by
  have hnext : optional (decodeTimestamp digits) (some (Json.orNull timestamp credits.nextExpiresAt))
      = some credits.nextExpiresAt := optional_orNull (fun t _ => decodeTimestamp_timestamp t) fun _ => nofun
  have hcount : decodeResets.countOf (.int credits.availableCount) = some credits.availableCount := by
    change (if 0 ≤ (credits.availableCount : ℤ) then some (credits.availableCount : ℤ).toNat else none) = _
    rw [if_pos (Int.natCast_nonneg _), Int.toNat_natCast]
  rw [resetPayload, decodeResets, object_of_keys rfl]
  refine Option.bind_eq_some_iff.2 ⟨_, rfl, ?_⟩
  refine Option.bind_eq_some_iff.2 ⟨_, hnext, ?_⟩
  refine Option.bind_eq_some_iff.2 ⟨_, hcount, ?_⟩
  exact dif_pos credits.expiry_ok

/-- **A snapshot that comes back**: its source is the trusted one or none, and its windows come back. -/
structure RestorableSnapshot (s : ProviderSnapshotView) : Prop where
  source : TrustedSource s.sourceId
  windows : ∀ w ∈ s.windows, RestorableWindow w

/-- **The windows are read back**, each with its own texts and quantities, in their order. -/
theorem decodeWindows_payload (hnfc : NfcLaws) {windows : List QuotaWindowView} (hle : windows.length ≤ MAX_QUOTA_WINDOWS)
    (h : ∀ w ∈ windows, RestorableWindow w) :
    decodeWindows digits .codex (.arr (windows.map windowPayload)) = some windows := by
  have hlength : ¬MAX_QUOTA_WINDOWS < (windows.map windowPayload).length := by
    rw [List.length_map]
    exact not_lt.2 hle
  refine (if_neg hlength).trans ?_
  clear hlength hle
  induction windows with
  | nil => rfl
  | cons w windows ih =>
    rw [List.forall_mem_cons] at h
    rw [List.map_cons, List.mapM_cons, decodeWindow_payload hnfc h.1, ih h.2]
    rfl

/-- **A snapshot comes back.** -/
theorem decodeSnapshot_payload (hnfc : NfcLaws) {s : ProviderSnapshotView} (h : RestorableSnapshot s) :
    decodeSnapshot digits .codex (snapshotPayload s) = some s := by
  have hresets : optional (decodeResets digits) (some (Json.orNull resetPayload s.rateLimitResetCredits))
      = some s.rateLimitResetCredits := optional_orNull (fun c _ => decodeResets_payload c) fun _ => nofun
  rw [snapshotPayload, decodeSnapshot, object_of_keys rfl]
  simp only [Option.bind_eq_bind, Option.bind_some, field?_cons, String.reduceEq, reduceIte]
  rw [decodeWindows_payload hnfc s.windows_le h.windows, Option.bind_some, member?_text (ofValue_publicState _),
    Option.bind_some, member?_text (ofValue_freshness _), Option.bind_some, decodeTimestamp_timestamp, Option.bind_some,
    decodeTimestamp_timestamp, Option.bind_some, decodeTimestamp_timestamp, Option.bind_some, hresets, Option.bind_some,
    sourceFor_text hnfc h.source]
  exact dif_pos ⟨s.observed_le, s.data_le, s.sourceId_safe, s.windows_le, s.windows_nodup, s.rateLimited_ok⟩

end Values

/-- **A view that comes back** from what is sent of it: a view of Codex which gives no reason for not
having run, whose label is written in UTF-8, and whose state is the one that its snapshot has, or
that of a provider which was not found or not run. -/
structure Restorable (w : WireView) : Prop where
  provider : w.view.provider = .codex
  reason : w.view.notRunReason = none
  label : ∀ label, w.label = some label → Spelled label
  state : ∀ s, w.view.snapshot = some s → w.view.state = legacyState s
  unavailable : w.view.outcome = some .undetected ∨ w.view.outcome = some .notRun → w.view.state = .unavailable
  snapshot : ∀ s, w.view.snapshot = some s → RestorableSnapshot s

section Views

variable {digits : DecimalDigits} {w : WireView}

omit [UnicodeData] in
/-- A label is read back if it passes its check, and can be spelled. -/
theorem decodeLabel_str {label : Text} (h : Protocol.checkLabel (some (.str label)) = .ok ()) (hspelled : Spelled label) :
    decodeLabel (.str label) = some label := if_pos ⟨h, hspelled⟩

omit [UnicodeData] in
/-- The error of a view is read back with the state that it comes with. -/
theorem errorOf_payload {state : ProviderState} {error : Option SafeErrorCode}
    (h : error.isSome ↔ state = .safeError) :
    errorOf state (some (Json.orNull errorPayload error)) = some error := by
  rcases error with _ | code
  · have hstate : state ≠ .safeError := fun hstate => Bool.false_ne_true (h.2 hstate)
    exact (if_neg hstate).trans (if_pos rfl)
  · have hcode : decodeError (errorPayload code) = some code := by
      rw [errorPayload, decodeError, object_of_keys rfl]
      exact Option.bind_eq_some_iff.2 ⟨_, rfl, member?_text (Protocol.ofValue_code code)⟩
    refine (if_pos (h.1 rfl)).trans ?_
    change (decodeError (errorPayload code)).map some = _
    rw [hcode]
    rfl

/-- A view that can be restored has the state, the outcome and the snapshot that go together. -/
theorem agrees_of_restorable (h : Restorable w) : agrees w.view.state w.view.outcome w.view.snapshot = true := by
  obtain ⟨-, hsnapshot, -, hexecution, -⟩ := w.view.ok
  unfold agrees
  by_cases houtcome : w.view.outcome = some .snapshot
  · rw [if_pos houtcome]
    obtain ⟨s, hs⟩ := Option.isSome_iff_exists.1 (hsnapshot.2 houtcome)
    rw [hs, Option.any_some]
    exact decide_eq_true (h.state s hs)
  · rw [if_neg houtcome, Bool.and_eq_true, Bool.and_eq_true, Option.isNone_iff_eq_none, Bool.not_eq_true',
      Bool.not_eq_true', decide_eq_false_iff_not, decide_eq_false_iff_not]
    refine ⟨⟨?_, fun hbad => hbad.2 (h.unavailable hbad.1)⟩, fun hbad => hbad.2 (hexecution hbad.1)⟩
    exact Option.not_isSome_iff_eq_none.1 fun hsome => houtcome (hsnapshot.1 hsome)

/-- A view comes back from its parts. -/
theorem makeView_self (h : Restorable w) :
    makeView w.view.state w.view.error w.label w.view.outcome w.view.snapshot = some w := by
  obtain ⟨⟨provider, state, error, outcome, snapshot, reason, hok⟩, label, hlabel⟩ := w
  obtain rfl : provider = .codex := h.provider
  obtain rfl : reason = none := h.reason
  exact dif_pos ⟨⟨hok.error_iff, hok.snapshot_iff, hok.error_outcome, hok.executionError_state⟩, hlabel⟩

/-- A restorable view comes back from its item. -/
theorem decode_item (hnfc : NfcLaws) (h : Restorable w) {data : Bytes} (hdata : loadJson data = some (item w)) :
    decode digits data = w := by
  have hlabel : optional decodeLabel (some (Json.orNull .str w.label)) = some w.label := by
    refine optional_orNull (fun label hlabel => ?_) fun _ => nofun
    have hok := w.label_ok
    rw [show w.label = some label from hlabel] at hok
    exact decodeLabel_str hok (h.label label hlabel)
  have houtcome : optional (member? ProviderOutcome.all ProviderOutcome.value)
      (some (Json.orNull (fun o : ProviderOutcome => text o.value) w.view.outcome)) = some w.view.outcome :=
    optional_orNull (fun o _ => member?_text (ofValue_outcome o)) fun _ => nofun
  have herror := errorOf_payload w.view.ok.error_iff
  have hsnapshot : optional (decodeSnapshot digits .codex) (some (Json.orNull snapshotPayload w.view.snapshot))
      = some w.view.snapshot :=
    optional_orNull (fun s hs => decodeSnapshot_payload hnfc (h.snapshot s hs)) fun _ => nofun
  have hview : decodeView digits data = some w := by
    rw [decodeView, hdata]
    refine Option.bind_eq_some_iff.2 ⟨_, rfl, ?_⟩
    rw [item, object_of_keys rfl]
    refine Option.bind_eq_some_iff.2 ⟨_, rfl, ?_⟩
    refine Option.bind_eq_some_iff.2 ⟨.codex, ?_, ?_⟩
    · rw [h.provider]
      exact member?_text (Protocol.ofValue_provider .codex)
    refine Option.bind_eq_some_iff.2 ⟨_, member?_text (Protocol.ofValue_state _), ?_⟩
    refine Option.bind_eq_some_iff.2 ⟨_, houtcome, ?_⟩
    refine Option.bind_eq_some_iff.2 ⟨_, hlabel, ?_⟩
    refine Option.bind_eq_some_iff.2 ⟨_, herror, ?_⟩
    refine Option.bind_eq_some_iff.2 ⟨_, hsnapshot, ?_⟩
    rw [if_pos ⟨rfl, agrees_of_restorable h⟩]
    exact makeView_self h
  rw [decode, hview]
  rfl

/-! ### What a response is read to -/

section Plain

omit [UnicodeData] in
/-- A text without surrogates is written as it is read. -/
theorem plain_text (s : String) : (text s).Plain := Protocol.paired_ofString s

omit [UnicodeData] in
theorem plain_timestamp (t : Instant) : (timestamp t).Plain := Text.paired_ofChars _

theorem plain_quantity (q : QuotaQuantity) : (quantityPayload q).Plain := by
  refine Json.plain_obj quantityFields rfl (by decide) ?_
  simp only [List.forall_mem_cons]
  exact ⟨plain_text _, Text.paired_ofChars _, plain_text _, List.forall_mem_nil _⟩

theorem plain_window (w : QuotaWindowView) : (windowPayload w).Plain := by
  refine Json.plain_obj windowFields rfl (by decide) ?_
  simp only [List.forall_mem_cons]
  exact ⟨plain_text _, plain_text _, plain_text _, Json.plain_orNull fun s _ => plain_text s, plain_text _,
    Json.plain_orNull fun s _ => plain_text s, Json.plain_orNull fun t _ => plain_timestamp t,
    Json.plain_orNull fun q _ => plain_quantity q, Json.plain_orNull fun q _ => plain_quantity q,
    Json.plain_orNull fun q _ => plain_quantity q, List.forall_mem_nil _⟩

omit [UnicodeData] in
/-- A count is written as it is read if it has no more digits than the decoder takes. -/
theorem plain_resets {credits : RateLimitResetCreditsView}
    (h : (DecimalText.natText credits.availableCount).length ≤ Json.maxDigits) : (resetPayload credits).Plain := by
  refine Json.plain_obj resetFields rfl (by decide) ?_
  simp only [List.forall_mem_cons]
  refine ⟨?_, Json.plain_orNull fun t _ => plain_timestamp t, List.forall_mem_nil _⟩
  change (DecimalText.natText (credits.availableCount : ℤ).natAbs).length ≤ Json.maxDigits
  rwa [Int.natAbs_natCast]

/-- A snapshot is written as it is read if its count is. -/
theorem plain_snapshot {s : ProviderSnapshotView} (h : ∀ credits, s.rateLimitResetCredits = some credits →
    (DecimalText.natText credits.availableCount).length ≤ Json.maxDigits) : (snapshotPayload s).Plain := by
  refine Json.plain_obj snapshotFields rfl (by decide) ?_
  simp only [List.forall_mem_cons]
  refine ⟨plain_text _, plain_text _, plain_timestamp _, plain_timestamp _, plain_timestamp _,
    Json.plain_orNull fun s _ => plain_text s, Json.plain_arr ?_, Json.plain_orNull fun c hc => plain_resets (h c hc),
    List.forall_mem_nil _⟩
  intro x hx
  obtain ⟨w, -, rfl⟩ := List.mem_map.1 hx
  exact plain_window w

/-- A view whose label can be spelled is read back from its text. -/
theorem plain_item (hlabel : ∀ label, w.label = some label → label.Paired) (hcount : countIsShort w = true) :
    (item w).Plain := by
  refine Json.plain_obj wireFields rfl (by decide) ?_
  simp only [List.forall_mem_cons]
  refine ⟨plain_text _, plain_text _, Json.plain_orNull fun o _ => plain_text _, Json.plain_orNull hlabel,
    Json.plain_orNull fun code _ => ?_, Json.plain_orNull fun s hs => plain_snapshot fun credits hcredits => ?_,
    List.forall_mem_nil _⟩
  · exact Json.plain_obj errorFields rfl (by decide) (List.forall_mem_singleton.2 (plain_text _))
  · rw [countIsShort, show w.view.snapshot = some s from hs, Option.bind_some, hcredits] at hcount
    exact of_decide_eq_true hcount

end Plain

/-- A view is sent if its count is short enough, it can be spelled, and the frame is not too long. -/
theorem payload_eq_some_iff {data : Bytes} : payload w = some data ↔ countIsShort w = true ∧
    Encoding.utf8 false data = some (Json.Style.compact.write (item w)) ∧ data.length ≤ MAX_RESPONSE := by
  rw [payload, ← Encoding.encodeUtf8_eq_some_iff]
  by_cases hcount : countIsShort w = true
  · rw [if_pos hcount, Option.filter_eq_some_iff, decide_eq_true_eq]
    exact (and_iff_right hcount).symm
  · rw [if_neg hcount]
    exact iff_of_false nofun fun h => hcount h.1

/-- **What is sent is read** as the value that was written. -/
theorem loadJson_payload (hlabel : ∀ label, w.label = some label → label.Paired) {data : Bytes}
    (h : payload w = some data) : loadJson data = some (item w) := by
  obtain ⟨hcount, hutf8, hlength⟩ := payload_eq_some_iff.1 h
  have hpos : 0 < data.length := by
    refine List.length_pos_of_ne_nil ?_
    rintro rfl
    cases hutf8
  have hparse := Json.parse_write (r := Protocol.reader) Json.Style.sound_compact (plain_item hlabel hcount) (Or.inl rfl)
  rw [List.append_nil] at hparse
  refine (if_pos ⟨hpos, hlength⟩).trans ?_
  rw [hutf8]
  exact hparse

/-- **What is sent of a view is decoded to the view.** -/
theorem decode_payload (hnfc : NfcLaws) (h : Restorable w) {data : Bytes} (hdata : payload w = some data) :
    decode digits data = w :=
  decode_item hnfc h (loadJson_payload (fun label hlabel => Json.paired_of_spelled (h.label label hlabel)) hdata)

/-! ### Which views have a text -/

section Written

open Json.Style (spelled_write_words_iff spelled_write_orNull_iff spelled_write_arr spelled_quote_iff)

omit [UnicodeData] in
theorem spelled_text (s : String) : Spelled (Json.Style.compact.write (text s)) :=
  spelled_quote_iff.2 (Encoding.spelled_ofChars _)

omit [UnicodeData] in
theorem spelled_timestamp (t : Instant) : Spelled (Json.Style.compact.write (timestamp t)) :=
  spelled_quote_iff.2 (Encoding.spelled_ofChars _)

theorem spelled_quantity (q : QuotaQuantity) : Spelled (Json.Style.compact.write (quantityPayload q)) := by
  refine (spelled_write_words_iff quantityFields rfl).2 ?_
  simp only [List.forall_mem_cons]
  exact ⟨spelled_text _, spelled_quote_iff.2 (Encoding.spelled_ofChars _), spelled_text _, List.forall_mem_nil _⟩

theorem spelled_window (w : QuotaWindowView) : Spelled (Json.Style.compact.write (windowPayload w)) := by
  have hname : ∀ o : Option String, Spelled (Json.Style.compact.write (Json.orNull text o)) := fun o =>
    spelled_write_orNull_iff.2 fun s _ => spelled_text s
  have hquantity : ∀ o : Option QuotaQuantity, Spelled (Json.Style.compact.write (Json.orNull quantityPayload o)) :=
    fun o => spelled_write_orNull_iff.2 fun q _ => spelled_quantity q
  refine (spelled_write_words_iff windowFields rfl).2 ?_
  simp only [List.forall_mem_cons]
  exact ⟨spelled_text _, spelled_text _, spelled_text _, hname _, spelled_text _, hname _,
    spelled_write_orNull_iff.2 fun t _ => spelled_timestamp t, hquantity _, hquantity _, hquantity _,
    List.forall_mem_nil _⟩

omit [UnicodeData] in
theorem spelled_resets (credits : RateLimitResetCreditsView) :
    Spelled (Json.Style.compact.write (resetPayload credits)) := by
  refine (spelled_write_words_iff resetFields rfl).2 ?_
  simp only [List.forall_mem_cons]
  exact ⟨Encoding.spelled_ofChars _, spelled_write_orNull_iff.2 fun t _ => spelled_timestamp t, List.forall_mem_nil _⟩

/-- A snapshot can always be spelled: its texts have no surrogates. -/
theorem spelled_snapshot (s : ProviderSnapshotView) : Spelled (Json.Style.compact.write (snapshotPayload s)) := by
  refine (spelled_write_words_iff snapshotFields rfl).2 ?_
  simp only [List.forall_mem_cons]
  refine ⟨spelled_text _, spelled_text _, spelled_timestamp _, spelled_timestamp _, spelled_timestamp _,
    spelled_write_orNull_iff.2 fun s _ => spelled_text s, spelled_write_arr ?_,
    spelled_write_orNull_iff.2 fun c _ => spelled_resets c, List.forall_mem_nil _⟩
  intro x hx
  obtain ⟨w, -, rfl⟩ := List.mem_map.1 hx
  exact spelled_window w

/-- The label is the one thing of a view that may not be written in UTF-8. -/
theorem spelled_item_iff : Spelled (Json.Style.compact.write (item w)) ↔ ∀ label, w.label = some label → Spelled label := by
  rw [item, spelled_write_words_iff wireFields rfl]
  constructor
  · intro h label hlabel
    have hwritten := h (Text.ofString "display_label", Json.orNull .str w.label) (by simp)
    exact spelled_quote_iff.1 (spelled_write_orNull_iff.1 hwritten label hlabel)
  · intro h
    simp only [List.forall_mem_cons]
    refine ⟨spelled_text _, spelled_text _, spelled_write_orNull_iff.2 fun o _ => spelled_text _,
      spelled_write_orNull_iff.2 fun label hlabel => spelled_quote_iff.2 (h label hlabel),
      spelled_write_orNull_iff.2 fun code _ => ?_, spelled_write_orNull_iff.2 fun s _ => spelled_snapshot s,
      List.forall_mem_nil _⟩
    exact (spelled_write_words_iff errorFields rfl).2 (List.forall_mem_singleton.2 (spelled_text _))

/-- **Which views have a text**: those of a count that is not too long, of a label that is written in
UTF-8, and of no more bytes than a response may have. -/
theorem payload_isSome_iff : (payload w).isSome = true ↔ countIsShort w = true ∧
    (∀ label, w.label = some label → Spelled label) ∧
      Json.byteSize (Json.Style.compact.write (item w)) ≤ MAX_RESPONSE := by
  rw [Option.isSome_iff_exists, ← spelled_item_iff]
  constructor
  · rintro ⟨data, hdata⟩
    obtain ⟨hcount, hutf8, hlength⟩ := payload_eq_some_iff.1 hdata
    obtain ⟨rfl, hspelled⟩ := Encoding.utf8_eq_some_iff.1 hutf8
    exact ⟨hcount, hspelled, hlength⟩
  · rintro ⟨hcount, hspelled, hlength⟩
    exact ⟨_, payload_eq_some_iff.2 ⟨hcount, Encoding.utf8_utf8Bytes hspelled, hlength⟩⟩

end Written

end Views

/-! ### What is decoded comes back -/

section Decoded

variable {digits : DecimalDigits} {x : Json Text}

/-- A source that is looked up is trusted, or missing. -/
theorem trusted_sourceFor (x : Option (Json Text)) : TrustedSource (sourceFor .codex x) := by
  unfold sourceFor
  split
  · next s =>
    rcases hsource : (s.toString.map fun value => strip (UnicodeData.nfc value)).filter fun source =>
        source = ProviderKey.codex.expectedSource with _ | source
    · exact Or.inl rfl
    · have hexpected := (Option.filter_eq_some_iff.1 hsource).2
      rw [of_decide_eq_true hexpected]
      exact Or.inr rfl
  · exact Or.inl rfl

/-- A window that was decoded comes back. -/
theorem restorable_decodeWindow {w : QuotaWindowView} (h : decodeWindow digits .codex x = some w) : RestorableWindow w := by
  obtain ⟨item, -, h⟩ := Option.bind_eq_some_iff.1 h
  obtain ⟨plan, hplan, h⟩ := Option.bind_eq_some_iff.1 h
  obtain ⟨resetAt, -, h⟩ := Option.bind_eq_some_iff.1 h
  obtain ⟨availability, havailability, h⟩ := Option.bind_eq_some_iff.1 h
  obtain ⟨kind, -, h⟩ := Option.bind_eq_some_iff.1 h
  obtain ⟨scope, -, h⟩ := Option.bind_eq_some_iff.1 h
  obtain ⟨period, -, h⟩ := Option.bind_eq_some_iff.1 h
  obtain ⟨limit, -, h⟩ := Option.bind_eq_some_iff.1 h
  obtain ⟨used, -, h⟩ := Option.bind_eq_some_iff.1 h
  obtain ⟨remaining, -, h⟩ := Option.bind_eq_some_iff.1 h
  obtain ⟨⟨-, -, -, hplan'⟩, ⟨havailability', hsource, -⟩, -⟩ := QuotaWindowView.make_eq_ok_iff.1 (toOption_eq_some_iff.1 h)
  have htrusted := trusted_sourceFor (field? "source_id" item)
  rw [← hsource] at htrusted hplan havailability
  refine ⟨htrusted, fun hnone => ?_⟩
  -- the fields of a window without a source are not looked at
  rw [hnone] at hplan havailability
  obtain rfl := Option.some.inj hplan
  obtain rfl := Option.some.inj havailability
  exact ⟨(Except.ok.inj hplan').symm, havailability'⟩

omit [UnicodeData] in
/-- What is decoded of a list is decoded of its items. -/
theorem mem_of_mapM {α β : Type} {f : α → Option β} {items : List α} {results : List β}
    (h : items.mapM f = some results) : ∀ b ∈ results, ∃ a ∈ items, f a = some b := by
  induction items generalizing results with
  | nil =>
    obtain rfl := Option.some.inj h
    exact List.forall_mem_nil _
  | cons a items ih =>
    rw [List.mapM_cons] at h
    obtain ⟨b, hb, h⟩ := Option.bind_eq_some_iff.1 h
    obtain ⟨rest, hrest, h⟩ := Option.bind_eq_some_iff.1 h
    obtain rfl := Option.some.inj h
    refine List.forall_mem_cons.2 ⟨⟨a, List.mem_cons_self, hb⟩, fun c hc => ?_⟩
    obtain ⟨a', ha', hfa⟩ := ih hrest c hc
    exact ⟨a', List.mem_cons_of_mem _ ha', hfa⟩

/-- A snapshot that was decoded comes back. -/
theorem restorable_decodeSnapshot {s : ProviderSnapshotView} (h : decodeSnapshot digits .codex x = some s) :
    RestorableSnapshot s := by
  obtain ⟨item, -, h⟩ := Option.bind_eq_some_iff.1 h
  obtain ⟨windows, hwindows, h⟩ := Option.bind_eq_some_iff.1 h
  obtain ⟨publicState, -, h⟩ := Option.bind_eq_some_iff.1 h
  obtain ⟨freshness, -, h⟩ := Option.bind_eq_some_iff.1 h
  obtain ⟨observed, -, h⟩ := Option.bind_eq_some_iff.1 h
  obtain ⟨fetched, -, h⟩ := Option.bind_eq_some_iff.1 h
  obtain ⟨data, -, h⟩ := Option.bind_eq_some_iff.1 h
  obtain ⟨resets, -, h⟩ := Option.bind_eq_some_iff.1 h
  unfold ProviderSnapshotView.make at h
  split_ifs at h with hok
  obtain rfl := Option.some.inj h
  refine ⟨trusted_sourceFor _, ?_⟩
  obtain ⟨y, -, hwindows⟩ := Option.bind_eq_some_iff.1 hwindows
  unfold decodeWindows at hwindows
  split at hwindows
  · split_ifs at hwindows
    intro w hw
    obtain ⟨z, -, hz⟩ := mem_of_mapM hwindows w hw
    exact restorable_decodeWindow hz
  · cases hwindows

omit [UnicodeData] in
/-- A value that was not null was decoded. -/
theorem optional_eq_some {α : Type} {decode : Json Text → Option α} {x : Option (Json Text)} {a : α}
    (h : optional decode x = some (some a)) : ∃ y, x = some y ∧ decode y = some a := by
  unfold optional at h
  split at h
  · cases h
  · next y _ =>
    obtain ⟨b, hb, heq⟩ := Option.map_eq_some_iff.1 h
    exact ⟨y, rfl, hb.trans heq⟩
  · cases h

/-- What the parent decodes is a view that can be restored. -/
theorem restorable_decodeView {data : Bytes} {w : WireView} (h : decodeView digits data = some w) : Restorable w := by
  obtain ⟨value, -, h⟩ := Option.bind_eq_some_iff.1 h
  obtain ⟨item, -, h⟩ := Option.bind_eq_some_iff.1 h
  obtain ⟨provider, -, h⟩ := Option.bind_eq_some_iff.1 h
  obtain ⟨state, -, h⟩ := Option.bind_eq_some_iff.1 h
  obtain ⟨outcome, -, h⟩ := Option.bind_eq_some_iff.1 h
  obtain ⟨label, hlabel, h⟩ := Option.bind_eq_some_iff.1 h
  obtain ⟨error, -, h⟩ := Option.bind_eq_some_iff.1 h
  obtain ⟨snapshot, hsnapshot, h⟩ := Option.bind_eq_some_iff.1 h
  split_ifs at h with hagrees
  obtain ⟨hprovider, hagrees⟩ := hagrees
  rw [hprovider] at hsnapshot
  unfold makeView at h
  split_ifs at h with hok
  obtain rfl := Option.some.inj h
  unfold agrees at hagrees
  refine ⟨rfl, rfl, ?_, ?_, ?_, ?_⟩
  · rintro text (rfl : label = some text)
    obtain ⟨y, -, hy⟩ := optional_eq_some hlabel
    unfold decodeLabel at hy
    split at hy
    · split_ifs at hy with hgood
      obtain rfl := Option.some.inj hy
      exact hgood.2
    · cases hy
  · rintro s (rfl : snapshot = some s)
    rw [if_pos (hok.1.2.1.1 rfl)] at hagrees
    exact of_decide_eq_true hagrees
  · intro houtcome
    change outcome = some .undetected ∨ outcome = some .notRun at houtcome
    have hother : outcome ≠ some .snapshot := by
      rcases houtcome with rfl | rfl
      all_goals decide
    rw [if_neg hother, Bool.and_eq_true, Bool.and_eq_true, Bool.not_eq_true', decide_eq_false_iff_not] at hagrees
    exact not_not.1 fun hstate => hagrees.1.2 ⟨houtcome, hstate⟩
  · rintro s (rfl : snapshot = some s)
    obtain ⟨y, -, hy⟩ := optional_eq_some hsnapshot
    exact restorable_decodeSnapshot hy

/-- A view of an error, of which there is nothing else to say, comes back. -/
theorem restorable_error (code : SafeErrorCode) : Restorable ⟨safeErrorView .codex code, none, rfl⟩ where
  provider := rfl
  reason := rfl
  label _ h := nomatch h
  state _ h := nomatch h
  unavailable h := by
    rcases h with h | h
    all_goals cases h
  snapshot _ h := nomatch h

/-- **Whatever is received is decoded to a restorable view.** -/
theorem restorable_decode (data : Bytes) : Restorable (decode digits data) := by
  unfold decode
  rcases h : decodeView digits data with _ | w
  · exact restorable_error .internalError
  · exact restorable_decodeView h

omit [UnicodeData] in
theorem strict_reader : Protocol.reader.Strict := ⟨fun _ => rfl, rfl⟩

omit [UnicodeData] in
/-- What is received is JSON whose integers are short, among others. -/
theorem readable_loadJson {data : Bytes} (h : loadJson data = some x) : x.bare.Readable Json.bareReader := by
  unfold loadJson at h
  split_ifs at h
  obtain ⟨t, ht, hparse⟩ := Option.bind_eq_some_iff.1 (show (Encoding.utf8 false data).bind _ = some x from h)
  exact Json.readable_bare_of_parse strict_reader (Encoding.utf8_eq_some_iff.1 ht).2 hparse

omit [UnicodeData] in
theorem object_eq_some {words : List String} {fields : Fields} (h : object words x = some fields) : x = .obj fields := by
  unfold object at h
  split at h
  · split_ifs at h
    exact congrArg Json.obj (Option.some.inj h)
  · cases h

omit [UnicodeData] in
/-- A count that was decoded is short, as `json.loads` reads no others. -/
theorem short_decodeResets {credits : RateLimitResetCreditsView} (hreadable : x.bare.Readable Json.bareReader)
    (h : decodeResets digits x = some credits) :
    (DecimalText.natText credits.availableCount).length ≤ Json.maxDigits := by
  obtain ⟨item, hitem, h⟩ := Option.bind_eq_some_iff.1 h
  obtain ⟨next, -, h⟩ := Option.bind_eq_some_iff.1 h
  obtain ⟨count, hcount, h⟩ := Option.bind_eq_some_iff.1 h
  obtain ⟨y, hy, hcount⟩ := Option.bind_eq_some_iff.1 hcount
  rw [object_eq_some hitem] at hreadable
  unfold RateLimitResetCreditsView.make at h
  split_ifs at h
  obtain rfl := Option.some.inj h
  unfold decodeResets.countOf at hcount
  split at hcount
  · next n =>
    split_ifs at hcount with hn
    obtain rfl := Option.some.inj hcount
    have hshort : (DecimalText.natText n.natAbs).length ≤ Json.maxDigits := Json.readable_bare_of_get? hreadable hy
    have htoNat : n.toNat = n.natAbs := by omega
    change (DecimalText.natText n.toNat).length ≤ Json.maxDigits
    rwa [htoNat]
  · cases hcount

/-- A count that the decoder took has no more digits than it takes. -/
theorem short_decodeSnapshot {provider : ProviderKey} {s : ProviderSnapshotView} {credits : RateLimitResetCreditsView}
    (hreadable : x.bare.Readable Json.bareReader) (h : decodeSnapshot digits provider x = some s)
    (hcredits : s.rateLimitResetCredits = some credits) :
    (DecimalText.natText credits.availableCount).length ≤ Json.maxDigits := by
  obtain ⟨item, hitem, h⟩ := Option.bind_eq_some_iff.1 h
  obtain ⟨windows, -, h⟩ := Option.bind_eq_some_iff.1 h
  obtain ⟨publicState, -, h⟩ := Option.bind_eq_some_iff.1 h
  obtain ⟨freshness, -, h⟩ := Option.bind_eq_some_iff.1 h
  obtain ⟨observed, -, h⟩ := Option.bind_eq_some_iff.1 h
  obtain ⟨fetched, -, h⟩ := Option.bind_eq_some_iff.1 h
  obtain ⟨data, -, h⟩ := Option.bind_eq_some_iff.1 h
  obtain ⟨resets, hresets, h⟩ := Option.bind_eq_some_iff.1 h
  obtain ⟨-, -, -, -, -, -, -, heq⟩ := ProviderSnapshotView.make_eq_some h
  rw [object_eq_some hitem] at hreadable
  rw [heq, hcredits] at hresets
  obtain ⟨y, hy, hresets⟩ := optional_eq_some hresets
  exact short_decodeResets (Json.readable_bare_of_get? hreadable hy) hresets

/-- **The count of a view that was decoded is one that `json.dumps` writes.** -/
theorem countIsShort_decode (data : Bytes) : countIsShort (decode digits data) = true := by
  unfold decode
  rcases h : decodeView digits data with _ | w
  · rfl
  obtain ⟨value, hvalue, h⟩ := Option.bind_eq_some_iff.1 h
  obtain ⟨item, hitem, h⟩ := Option.bind_eq_some_iff.1 h
  obtain ⟨provider, -, h⟩ := Option.bind_eq_some_iff.1 h
  obtain ⟨state, -, h⟩ := Option.bind_eq_some_iff.1 h
  obtain ⟨outcome, -, h⟩ := Option.bind_eq_some_iff.1 h
  obtain ⟨label, -, h⟩ := Option.bind_eq_some_iff.1 h
  obtain ⟨error, -, h⟩ := Option.bind_eq_some_iff.1 h
  obtain ⟨snapshot, hsnapshot, h⟩ := Option.bind_eq_some_iff.1 h
  have hreadable := readable_loadJson hvalue
  rw [object_eq_some hitem] at hreadable
  split_ifs at h
  unfold makeView at h
  split_ifs at h
  obtain rfl := Option.some.inj h
  rw [Option.getD_some, countIsShort]
  rcases snapshot with _ | s
  · rfl
  rcases hcredits : s.rateLimitResetCredits with _ | credits
  · rw [Option.bind_some, hcredits]
    rfl
  obtain ⟨y, hy, hsnapshot⟩ := optional_eq_some hsnapshot
  rw [Option.bind_some, hcredits]
  exact decide_eq_true (short_decodeSnapshot (Json.readable_bare_of_get? hreadable hy) hsnapshot hcredits)

end Decoded

/-- **The codec of the helper.** Whatever bytes are received, the view that they are decoded to is
restorable, and has a text unless that is too long for a response. The views that have a text from
which they come back are the restorable ones whose count and whose text are not too long; the text
of any other view is decoded to another view. So sending on what was decoded changes nothing. -/
theorem decode_codec (hnfc : NfcLaws) (digits : DecimalDigits) :
    (∀ data, Restorable (decode digits data) ∧ ((payload (decode digits data)).isSome = true ↔
        Json.byteSize (Json.Style.compact.write (item (decode digits data))) ≤ MAX_RESPONSE)) ∧
      (∀ w, (∃ data, payload w = some data ∧ decode digits data = w) ↔ Restorable w ∧ countIsShort w = true ∧
        Json.byteSize (Json.Style.compact.write (item w)) ≤ MAX_RESPONSE) ∧
      (∀ w data, payload w = some data → (decode digits data = w ↔ Restorable w)) ∧
      ∀ data data', payload (decode digits data) = some data' → decode digits data' = decode digits data := by
  have hback : ∀ w data, payload w = some data → (decode digits data = w ↔ Restorable w) := by
    intro w data hdata
    refine ⟨fun h => ?_, fun h => decode_payload hnfc h hdata⟩
    rw [← h]
    exact restorable_decode data
  refine ⟨fun data => ⟨restorable_decode data, ?_⟩, ?_, hback, ?_⟩
  · rw [payload_isSome_iff, and_iff_right (countIsShort_decode data)]
    exact and_iff_right (restorable_decode data).label
  · intro w
    constructor
    · rintro ⟨data, hdata, hw⟩
      have hsome := payload_isSome_iff.1 (Option.isSome_iff_exists.2 ⟨data, hdata⟩)
      exact ⟨(hback w data hdata).1 hw, hsome.1, hsome.2.2⟩
    · rintro ⟨h, hcount, hlength⟩
      obtain ⟨data, hdata⟩ := Option.isSome_iff_exists.1 (payload_isSome_iff.2 ⟨hcount, h.label, hlength⟩)
      exact ⟨data, hdata, (hback w data hdata).2 h⟩
  · intro data data' hdata
    exact (hback _ data' hdata).2 (restorable_decode data)

omit [UnicodeData] in
theorem nfcLaws_ascii : letI := UnicodeData.ascii; NfcLaws :=
  letI := UnicodeData.ascii
  ⟨fun _ hne hstrip => ⟨hne, hstrip⟩, fun _ => rfl, fun _ _ => rfl⟩

/-- The digits of ASCII alone. -/
def asciiDigits : DecimalDigits := ⟨id, fun _ _ => rfl⟩

/-- A response with a window of the trusted source and one of another, its fields in some order. -/
def received : Bytes := Encoding.utf8Bytes ((
  ["\x7b\"state\": \"success\", ", "\"provider\": \"\\u0063odex\", ", "\"outcome\": \"snapshot\", ",
    "\"error\": null, ", "\"display_label\": \"work\", ", "\"snapshot\": \x7b",
    "\"public_state\": \"available\", ", "\"freshness\": \"fresh\", ", "\"data_at\": ",
    "\"2024-05-01T10:00:04.500000Z\", ", "\"fetched_at\": ", "\"2024-05-01T10:00:05.000000Z\", ",
    "\"status_observed_at\": ", "\"2024-05-01T10:00:00.000000Z\", ", "\"rate_limit_reset_credits\": null, ",
    "\"source_id\": \"elsewhere\", ", "\"windows\": [\x7b", "\"source_id\": ", "\" codex-app-server-v2 \", ",
    "\"kind\": \"commercial_quota\", ", "\"scope\": \"account\", ", "\"period\": \"weekly\", ",
    "\"plan_id\": null, ", "\"availability\": \"known\", ", "\"reset_at\": null, ", "\"limit\": null, ",
    "\"used\": \x7b", "\"value\": \"37.5\", ", "\"unit\": \"requests\", ", "\"metric\": \"commercial_quota\"",
    "\x7d, ", "\"remaining\": null\x7d, \x7b", "\"source_id\": 7, ", "\"kind\": \"other\", ",
    "\"scope\": \"account\", ", "\"period\": \"daily\", ", "\"plan_id\": \x7b\x7d, ",
    "\"availability\": \"known\", ", "\"reset_at\": 1.5, ", "\"limit\": [], ", "\"used\": null, ",
    "\"remaining\": null", "\x7d]\x7d\x7d"]).flatMap Text.ofString)

/-- What is sent on of it: the data of the other window is not there. -/
def relayed : Bytes := Encoding.utf8Bytes ((
  ["\x7b\"provider\":\"codex\",", "\"state\":\"success\",", "\"outcome\":\"snapshot\",",
    "\"display_label\":\"work\",", "\"error\":null,", "\"snapshot\":\x7b", "\"public_state\":\"available\",",
    "\"freshness\":\"fresh\",", "\"status_observed_at\":", "\"2024-05-01T10:00:00.000000Z\",",
    "\"fetched_at\":", "\"2024-05-01T10:00:05.000000Z\",", "\"data_at\":", "\"2024-05-01T10:00:04.500000Z\",",
    "\"source_id\":null,", "\"windows\":[\x7b", "\"kind\":\"commercial_quota\",", "\"scope\":\"account\",",
    "\"period\":\"weekly\",", "\"plan_id\":null,", "\"availability\":\"known\",", "\"source_id\":",
    "\"codex-app-server-v2\",", "\"reset_at\":null,", "\"limit\":null,", "\"used\":\x7b",
    "\"metric\":\"commercial_quota\",", "\"value\":\"37.5\",", "\"unit\":\"requests\"\x7d,",
    "\"remaining\":null\x7d,\x7b", "\"kind\":\"other\",", "\"scope\":\"account\",", "\"period\":\"daily\",",
    "\"plan_id\":null,", "\"availability\":", "\"unavailable\",", "\"source_id\":null,", "\"reset_at\":null,",
    "\"limit\":null,", "\"used\":null,", "\"remaining\":null\x7d],", "\"rate_limit_reset_credits\":",
    "null\x7d\x7d"]).flatMap Text.ofString)

/-- An error of the other provider. -/
def opencodeTimeout : WireView := ⟨safeErrorView .opencodeGo .timeout, none, checkLabel_none⟩

omit [UnicodeData] in
/-- The response is sent on with the data of the trusted source, and comes back from there. What is
sent of an error of the other provider does not. -/
theorem decode_codec_relayed :
    letI := UnicodeData.ascii
    (payload (decode asciiDigits received) = some relayed ∧ decode asciiDigits relayed = decode asciiDigits received ∧
      Restorable (decode asciiDigits received)) ∧
      ∃ data, payload opencodeTimeout = some data ∧ decode asciiDigits data ≠ opencodeTimeout := by
  let _ := UnicodeData.ascii
  obtain ⟨hrestorable, -, hback, hrelay⟩ := decode_codec nfcLaws_ascii asciiDigits
  have hrelayed : payload (decode asciiDigits received) = some relayed := by decide +kernel
  have hother : (payload opencodeTimeout).isSome = true := by decide +kernel
  refine ⟨⟨hrelayed, hrelay received relayed hrelayed, (hrestorable received).1⟩, ?_⟩
  obtain ⟨data, hdata⟩ := Option.isSome_iff_exists.1 hother
  refine ⟨data, hdata, fun h => ?_⟩
  have hprovider := ((hback opencodeTimeout data hdata).1 h).provider
  cases hprovider

end Codec

end YasbLimitora
